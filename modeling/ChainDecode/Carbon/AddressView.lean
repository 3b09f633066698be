import ChainDecode.Address
import ChainDecode.Carbon.ArgType

/-! # Showing keys as addresses

In the JSON form of a transaction every key at a known place can be shown as an address text. A
place is known by the names on the way to it and by the types of arguments; strings elsewhere, and
strings that are no key in hexadecimal, stay as they are.
-/
namespace ChainDecode.Carbon.AddressView

def isKeyHex (t : Text) : Bool :=
  let digits := match t.letters with
    | .char '0' :: .char 'x' :: rest => rest
    | letters => letters
  digits.length = 64 && digits.all (·.is fun c => (Text.hexValue? c).isSome)

/-- A key in hexadecimal as its address text; every other value as it is. -/
def showKey : Json → Json
  | .str s =>
    if isKeyHex s then
      match Address.textOfKeyHex s with
      | .ok text => .str text
      | .error _ => .str s
    else .str s
  | v => v

def showMembers (names : List Text) (members : List (Text × Json)) : List (Text × Json) :=
  members.map fun m => if m.1 ∈ names then (m.1, showKey m.2) else m

def showRecord (names : List Text) : Json → Json
  | .obj members => .obj (showMembers names members)
  | v => v

def showRecords (names : List Text) : Json → Json
  | .arr items => .arr (items.map (showRecord names))
  | v => v

/-- The members that hold keys in the records of a type. -/
def keyMembers : ArgType → List Text
  | .plain .tokenInfo => ["owner"]
  | .plain .seriesInfo => ["owner"]
  | .plain .stakeImport => ["to"]
  | .plain .mintFungible => ["to"]
  | .plain .nameImport => ["address"]
  | .plain .memberImport => ["address"]
  | .plain .nftImport => ["originator", "owner"]
  | _ => []

/-- The list members of the records of a type, with the members that hold keys in their items. -/
def keyLists : ArgType → List (Text × List Text)
  | .organizationImport => [("member_imports", ["address"])]
  | .seriesImport => [("imports", ["originator", "owner"])]
  | _ => []

def keyRecords : ArgType → List (Text × List Text)
  | .organizationImport => [("info", ["owner"])]
  | .seriesImport => [("info", ["owner"])]
  | _ => []

def showTypedMember (type : ArgType) (m : Text × Json) : Text × Json :=
  if m.1 ∈ keyMembers type then (m.1, showKey m.2)
  else
    match (keyLists type).lookup m.1, (keyRecords type).lookup m.1 with
    | some names, _ => (m.1, showRecords names m.2)
    | none, some names => (m.1, showRecord names m.2)
    | none, none => m

def argumentType (members : List (Text × Json)) : Option ArgType :=
  match Json.field? members "type", Json.field? members "value" with
  | some (.str name), some _ => some (.ofName name)
  | _, _ => none

mutual

def showTyped (type : ArgType) : Json → Json
  | .arr items =>
    match type with
    | .array item => .arr (showItems item items)
    | .calls => .arr (showCallItems items)
    | _ => .arr items
  | .obj members => .obj (members.map (showTypedMember type))
  | v => if type = .plain .bytes32 then showKey v else v

def showItems (type : ArgType) : List Json → List Json
  | [] => []
  | v :: rest => showTyped type v :: showItems type rest

def showCall : Json → Json
  | .obj members => .obj (showCallMembers members)
  | v => v

def showCallItems : List Json → List Json
  | [] => []
  | v :: rest => showCall v :: showCallItems rest

def showCallMembers : List (Text × Json) → List (Text × Json)
  | [] => []
  | (name, v) :: rest =>
    (name, if name = "args" then showArguments v
      else if name = "sections" then showSections v
      else v) :: showCallMembers rest

def showSections : Json → Json
  | .arr items => .arr (showSectionItems items)
  | v => v

def showSectionItems : List Json → List Json
  | [] => []
  | .obj members :: rest => .obj (showSectionMembers members) :: showSectionItems rest
  | v :: rest => v :: showSectionItems rest

def showSectionMembers : List (Text × Json) → List (Text × Json)
  | [] => []
  | (name, v) :: rest =>
    (name, if name = "args" then showArguments v else v) :: showSectionMembers rest

def showArguments : Json → Json
  | .arr items => .arr (showArgumentItems items)
  | v => v

def showArgumentItems : List Json → List Json
  | [] => []
  | .obj members :: rest =>
    (match argumentType members with
      | some type => .obj (showArgumentMembers type members)
      | none => .obj members) :: showArgumentItems rest
  | v :: rest => v :: showArgumentItems rest

def showArgumentMembers (type : ArgType) : List (Text × Json) → List (Text × Json)
  | [] => []
  | (name, v) :: rest =>
    (name, if name = "value" then showTyped type v else v) :: showArgumentMembers type rest

end

def messageLists : List (Text × List Text) :=
  [("transfer_f", ["to", "from"]), ("transfer_n", ["to", "from"]), ("mint_f", ["to"]),
    ("burn_f", ["from"]), ("mint_n", ["to"]), ("burn_n", ["from"])]

def showMessageMember (m : Text × Json) : Text × Json :=
  if m.1 ∈ (["to", "from"] : List Text) then (m.1, showKey m.2)
  else
    match messageLists.lookup m.1 with
    | some names => (m.1, showRecords names m.2)
    | none => m

def showMessage : Json → Json
  | .obj members => .obj (members.map showMessageMember)
  | v => v

def showCalls : Json → Json
  | .arr items => .arr (showCallItems items)
  | v => v

def showMember (m : Text × Json) : Text × Json :=
  (m.1,
    if m.1 = "gas_from" then showKey m.2
    else if m.1 = "witnesses" then showRecords ["address"] m.2
    else if m.1 = "msg" then showMessage m.2
    else if m.1 = "call" then showCall m.2
    else if m.1 = "calls" then showCalls m.2
    else m.2)

def showTransaction (members : List (Text × Json)) : List (Text × Json) :=
  members.map showMember

inductive Mode where
  | bytes
  | address
  deriving DecidableEq, Repr

def Mode.name : Mode → String
  | bytes => "bytes32"
  | address => "pha"

def Mode.ofName (name : Text) : Except Fault Mode :=
  if name = "bytes32" then .ok .bytes
  else if name = "pha" then .ok .address
  else .error (.addressMode name)

/-- Shows the keys of a transaction's JSON form. A missing transaction stays missing; values that
are no record cannot be shown. -/
def apply (mode : Mode) (transaction : Json) : Except Fault Json :=
  match mode, transaction with
  | .bytes, v => .ok v
  | .address, .null => .ok .null
  | .address, .obj members => .ok (.obj (showTransaction members))
  | .address, .arr items =>
    if items.any fun v => v.text? = some "gas_from" then .error .wrongShape else .error .notText
  | .address, .str s =>
    if s.contains "gas_from" then .error .wrongShape else .error .notText
  | .address, _ => .error .wrongShape

def inventory : List String :=
  ["carbon.gas_from", "carbon.witnesses[].address", "carbon.msg.to", "carbon.msg.from",
    "carbon.msg.transfer_f[].to", "carbon.msg.transfer_f[].from", "carbon.msg.transfer_n[].to",
    "carbon.msg.transfer_n[].from", "carbon.msg.mint_f[].to", "carbon.msg.burn_f[].from",
    "carbon.msg.mint_n[].to", "carbon.msg.burn_n[].from",
    "carbon.call.args[].value (type=bytes32)", "carbon.call.args[].value[] (type=bytes32[])",
    "carbon.call.args[].value.owner (type=token_info|series_info)",
    "carbon.call.args[].value.to (type=stake_import|txmsg_mint_fungible)",
    "carbon.call.args[].value.address (type=name_import|member_import)",
    "carbon.call.args[].value.info.owner (type=organization_import|series_import)",
    "carbon.call.args[].value.member_imports[].address (type=organization_import)",
    "carbon.call.args[].value.imports[].originator (type=series_import)",
    "carbon.call.args[].value.imports[].owner (type=series_import)",
    "carbon.call.args[].value.originator (type=nft_import)",
    "carbon.call.args[].value.owner (type=nft_import)",
    "carbon.call.args[].value[] (type=txmsg_call_multi, embedded calls)",
    "carbon.call.sections[].args[] (same typed mapping as carbon.call.args[])",
    "carbon.calls[].args[] (same typed mapping as carbon.call.args[])",
    "carbon.calls[].sections[].args[] (same typed mapping as carbon.call.args[])"]

end ChainDecode.Carbon.AddressView
