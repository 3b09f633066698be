import ChainDecode.Abi.Entry

/-! # Interop methods

What a script can call on the virtual machine itself.
-/
namespace ChainDecode.Abi.Builtin

open Entry

def runtimeMethods : List Entry :=
  [method "Runtime.BurnToken"
      [("source", "Address"), ("symbol", "String"), ("tokenID", "BigInteger")],
    method "Runtime.BurnTokens"
      [("target", "Address"), ("symbol", "String"), ("amount", "BigInteger")],
    method "Runtime.Context" [],
    method "Runtime.ContractExists" [("contractName", "String")],
    method "Runtime.DeployContract"
      [("from", "Address"), ("contractName", "String"), ("contractScript", "Bytes"),
       ("contractABI", "Bytes")],
    method "Runtime.GasTarget" [],
    method "Runtime.GenerateUID" [],
    method "Runtime.GetAvailableNFTSymbols" [],
    method "Runtime.GetAvailableTokenSymbols" [],
    method "Runtime.GetBalance" [("address", "Address"), ("symbol", "String")],
    method "Runtime.GetOwnerships" [("address", "Address"), ("symbol", "String")],
    method "Runtime.GetTokenDecimals" [("symbol", "String")],
    method "Runtime.GetTokenFlags" [("symbol", "String")],
    method "Runtime.GetTokenSupply" [("symbol", "String")],
    method "Runtime.InfuseToken"
      [("source", "Address"), ("targetSymbol", "String"), ("tokenID", "BigInteger"),
       ("infuseSymbol", "String"), ("value", "BigInteger")],
    method "Runtime.IsMinter" [("address", "Address"), ("symbol", "String")],
    method "Runtime.IsTrigger" [],
    method "Runtime.IsWitness" [("address", "Address")],
    method "Runtime.KillContract" [("from", "Address"), ("contractName", "String")],
    method "Runtime.Log" [("text", "String")],
    method "Runtime.MintToken"
      [("source", "Address"), ("destination", "Address"), ("symbol", "String"), ("rom", "Bytes"),
       ("ram", "Bytes"), ("seriesID", "BigInteger")],
    method "Runtime.MintTokens"
      [("source", "Address"), ("destination", "Address"), ("symbol", "String"),
       ("amount", "BigInteger")],
    method "Runtime.Nexus" [],
    method "Runtime.PreviousContext" [],
    method "Runtime.ReadInfusions" [("symbol", "String"), ("tokenID", "BigInteger")],
    method "Runtime.ReadTokenRAM" [("symbol", "String"), ("tokenID", "BigInteger")],
    method "Runtime.ReadTokenROM" [("symbol", "String"), ("tokenID", "BigInteger")],
    method "Runtime.SwapTokens"
      [("targetChain", "String"), ("source", "Address"), ("destination", "Address"),
       ("symbol", "String"), ("amount", "BigInteger")],
    method "Runtime.Time" [],
    method "Runtime.TokenExists" [("symbol", "String")],
    method "Runtime.TransactionHash" [],
    method "Runtime.TransferBalance"
      [("source", "Address"), ("destination", "Address"), ("symbol", "String")],
    method "Runtime.TransferToken"
      [("source", "Address"), ("destination", "Address"), ("symbol", "String"),
       ("tokenID", "BigInteger")],
    method "Runtime.TransferTokens"
      [("source", "Address"), ("destination", "Address"), ("symbol", "String"),
       ("amount", "BigInteger")],
    method "Runtime.ValidateAddress"
      [("address", "Address"), ("signedData", "String"), ("random", "String"), ("data", "String")],
    method "Runtime.Validator" [],
    method "Runtime.Version" [],
    method "Runtime.WriteToken"
      [("from", "Address"), ("symbol", "String"), ("tokenID", "BigInteger"), ("ram", "Bytes")]]

def nexusMethods : List Entry :=
  [method "Nexus.BeginInit" [("owner", "Address")],
    method "Nexus.CreateOrganization"
      [("source", "Address"), ("id", "String"), ("name", "String"), ("script", "Bytes")],
    method "Nexus.CreateToken"
      [("owner", "Address"), ("script", "Bytes"), ("abiBytes", "Bytes")],
    method "Nexus.CreateTokenSeries"
      [("from", "Address"), ("symbol", "String"), ("seriesID", "BigInteger"),
       ("maxSupply", "BigInteger"), ("mode", "TokenSeriesMode"), ("script", "Bytes"),
       ("abiBytes", "Bytes")],
    method "Nexus.EndInit" [("owner", "Address")],
    method "Nexus.GetGovernanceValue" [("tag", "String")]]

def organizationMethods : List Entry :=
  [method "Organization.RemoveMember"
      [("source", "Address"), ("name", "String"), ("target", "Address")]]

def dataMethods : List Entry :=
  [method "Data.Delete" [("field", "String")],
    method "Data.Set" [("field", "String"), ("value", "Bytes")]]

def mapMethods : List Entry :=
  [method "Map.Clear" [("field", "String")],
    method "Map.Count" [("contract", "String"), ("field", "String")],
    method "Map.Get"
      [("contract", "String"), ("field", "String"), ("entryKey", "Bytes"), ("vmType", "VMType")],
    method "Map.Has"
      [("contract", "String"), ("field", "String"), ("entryKey", "Bytes"), ("vmType", "VMType")],
    method "Map.Keys" [("contract", "String"), ("field", "String")],
    method "Map.Remove" [("field", "String"), ("entryKey", "Bytes")],
    method "Map.Set" [("field", "String"), ("entryKey", "Bytes"), ("value", "Bytes")]]

def listMethods : List Entry :=
  [method "List.Add" [("field", "String"), ("value", "Bytes")],
    method "List.Clear" [("field", "String")],
    method "List.Count" [("contract", "String"), ("field", "String")],
    method "List.Get"
      [("contract", "String"), ("field", "String"), ("index", "BigInteger"), ("vmType", "VMType")],
    method "List.RemoveAt" [("field", "String"), ("index", "BigInteger")],
    method "List.Replace" [("field", "String"), ("index", "BigInteger"), ("value", "Bytes")]]

def accountMethods : List Entry :=
  [method "Account.LastActivity" [("address", "Address")],
    method "Account.Name" [("address", "Address")],
    method "Account.Transactions" [("address", "Address")]]

def oracleMethods : List Entry :=
  [method "Oracle.Price" [("symbol", "String")],
    method "Oracle.Quote"
      [("amount", "BigInteger"), ("quoteSymbol", "String"), ("baseSymbol", "String")],
    method "Oracle.Read" [("url", "String")]]

def constructors : List Entry :=
  [method "ABI()" [("arg0", "Unknown")],
    method "Address()" [("arg0", "Unknown")],
    method "Hash()" [("arg0", "Unknown")],
    method "Timestamp()" [("arg0", "Unknown")]]

/-- Methods of the runtime whose parameters depend on the protocol version. -/
def versionedMethods : List Entry :=
  [method "Runtime.Notify" [("kind", "EventKind"), ("address", "Address"), ("data", "Object")],
    method "Runtime.Notify"
      [("kind", "EventKind"), ("address", "Address"), ("data", "Object"), ("name", "String")],
    method "Runtime.ReadToken" [("symbol", "String"), ("tokenID", "BigInteger")],
    method "Runtime.ReadToken"
      [("symbol", "String"), ("tokenID", "BigInteger"), ("fields", "String")],
    method "Runtime.UpgradeContract"
      [("from", "Address"), ("contractName", "String"), ("contractScript", "Bytes")],
    method "Runtime.UpgradeContract"
      [("from", "Address"), ("contractName", "String"), ("contractScript", "Bytes"),
       ("contractABI", "Bytes")]]

end ChainDecode.Abi.Builtin
