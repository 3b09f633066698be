import ChainDecode.Number.Numeral
import ChainDecode.Text.Case

/-! # Event kinds

A kind is named by its number in digits of any script, or by its name in any letter case with
blanks anywhere.
-/
namespace ChainDecode.Event

structure Kind where
  id : Nat
  name : String
  deriving DecidableEq, Repr

namespace Kind

def names : List String :=
  ["Unknown", "ChainCreate", "TokenCreate", "TokenSend", "TokenReceive", "TokenMint", "TokenBurn",
    "TokenStake", "TokenClaim", "AddressRegister", "AddressLink", "AddressUnlink",
    "OrganizationCreate", "OrganizationAdd", "OrganizationRemove", "GasEscrow", "GasPayment",
    "AddressUnregister", "OrderCreated", "OrderCancelled", "OrderFilled", "OrderClosed",
    "FeedCreate", "FeedUpdate", "FileCreate", "FileDelete", "ValidatorPropose", "ValidatorElect",
    "ValidatorRemove", "ValidatorSwitch", "PackedNFT", "ValueCreate", "ValueUpdate",
    "PollCreated", "PollClosed", "PollVote", "ChannelCreate", "ChannelRefill", "ChannelSettle",
    "LeaderboardCreate", "LeaderboardInsert", "LeaderboardReset", "PlatformCreate", "ChainSwap",
    "ContractRegister", "ContractDeploy", "AddressMigration", "ContractUpgrade", "Log",
    "Inflation", "OwnerAdded", "OwnerRemoved", "DomainCreate", "DomainDelete", "TaskStart",
    "TaskStop", "CrownRewards", "Infusion", "Crowdsale", "OrderBid", "ContractKill",
    "OrganizationKill", "MasterClaim", "ExecutionFailure", "Custom", "Custom_V2"]

def ofId (id : Nat) : Kind := ⟨id, names.getD id s!"EventKind_{id}"⟩

def normalName (text : Text) : Text := Text.lower ⟨text.inked⟩

def ofName? (text : Text) : Option Kind :=
  (names.findIdx? fun (name : String) => Text.lower name = normalName text).map ofId

/-- The kind that a hint names. Blank hints and unknown names give none. -/
def ofHint (hint : Option Text) : Except Fault (Option Kind) :=
  let text := Text.strip (hint.getD "")
  if text.isEmpty then .ok none
  else if Text.isDigits text then (Number.ofNumeral text).map fun n => some (ofId n.toNat)
  else .ok (ofName? text)

end Kind

end ChainDecode.Event
