import ChainDecode.Text.Base58

/-! # Faults

Every way in which a decode can stop is a cause with its data. The wording of a cause and the
family it belongs to are fixed here and nowhere else.
-/
namespace ChainDecode

inductive FaultKind where
  -- A read ran past the end of its buffer.
  | bounds
  -- The bytes or the text can be read but are not well formed.
  | format
  | value
  | shape
  | missing
  -- A JSON value that is used as a text and is none.
  | notText
  | encoding
  | notJson
  -- An infinite number where an integer is needed.
  | overflow
  -- The node was not reached or answered with an error.
  | node
  | noFile
  | isDirectory
  | notDirectory
  | longPath
  | unencodable
  deriving DecidableEq, Repr

inductive Fault where
  -- hexadecimal text
  | hexOddLength (length : Nat)
  | hexBadDigit
  -- labelled buffers
  | bufferNegative (label : Text) (count : Int)
  | bufferShort (label : Text) (count : Int) (offset remaining : Nat)
  | bufferLength (label : Text) (length offset remaining : Nat)
  | varintAbove (label : Text) (value : Nat) (maximum : Text)
  -- streams
  | streamNegative (count : Int)
  | streamShort (count : Int) (offset remaining : Nat)
  | streamCount (count : Int) (remaining : Nat)
  | streamNegativeCount (count : Int) (offset : Nat)
  -- addresses
  | addressSize (length : Nat)
  | addressKeySize (length : Nat)
  | addressText (text : Text)
  | addressNumeral (text : Text) (reason : Text.Base58.Fault)
  | addressDecodedSize (length : Nat)
  | addressLetter (letter : Letter)
  | keySize (length : Nat)
  | interopAddress
  | bothAddressInputs
  | noAddressInput
  -- virtual machine
  | enumSize (typeName : String)
  | tooFewArguments (method : String) (expected given : Nat)
  | unprintableName
  | signatureKind (kind : Nat)
  -- streams of typed values
  | valueDepth
  | valueType (base : Nat)
  | argumentDepth
  | negativeNodes
  | negativeArray
  | argumentType (name : Text)
  | transactionType (shown : Text)
  -- events
  | eventAddressSize (length : Nat)
  | eventHashSize (length : Nat)
  -- token data
  | timestampRange (seconds : Text)
  | nodeDepth
  | nodeType (type offset : Nat)
  | structCount (count remaining : Nat)
  | rootType (name : Text)
  | romParser (parser : String) (cause : Fault)
  | romMode (text : Text)
  -- options
  | addressMode (text : Text)
  -- method tables
  | abiText (path : Text)
  -- numerals
  | digitLimit
  | longNumeral (digits : Nat)
  | badNumeral (text : Text)
  | notANumber
  | infinite
  -- JSON and files
  | wrongShape
  | wrongCount
  | missingMember (key : Text)
  | notText
  | notUtf8
  | notJson
  | noFile (path : Text)
  | isDirectory (path : Text)
  | notDirectory (path : Text)
  | longPath (path : Text)
  | zeroInPath
  | unencodable (u : Text.Unencodable)
  -- the node
  | nodeNotGiven (flag : String)
  | nodeTrouble (text : Text)
  | requestFailed (method reason : Text)
  | requestStatus (method status : Text)
  | answerNotJson (method : Text)
  | answerUnexpected (method : Text)
  | answerError (method text : Text)
  | transactionMissing (hash : Text)
  | contractsUnexpected
  deriving DecidableEq, Repr

namespace Fault

def kind : Fault → FaultKind
  | bufferShort .. | bufferLength .. | streamShort .. | streamCount .. | structCount .. => .bounds
  | romMode _ | addressMode _ | digitLimit | longNumeral _ | badNumeral _ | notANumber
  | wrongCount | zeroInPath => .value
  | wrongShape => .shape
  | missingMember _ => .missing
  | notText => .notText
  | notUtf8 => .encoding
  | notJson => .notJson
  | infinite => .overflow
  | noFile _ => .noFile
  | isDirectory _ => .isDirectory
  | notDirectory _ => .notDirectory
  | longPath _ => .longPath
  | unencodable _ => .unencodable
  | nodeNotGiven _ | nodeTrouble _ | requestFailed .. | requestStatus .. | answerNotJson _
  | answerUnexpected _ | answerError .. | transactionMissing _ | contractsUnexpected => .node
  | _ => .format

/-- Whether the cause lies in the decoded bytes or text, so that callers report it and go on. -/
def isDecode (f : Fault) : Bool := f.kind = .bounds || f.kind = .format

/-- Whether the cause lies in a value that was read, a text among them, and not in the shape of
the data. -/
def isValue (f : Fault) : Bool :=
  f.isDecode || f.kind ∈ [.value, .encoding, .notJson, .unencodable]

def isEndOfStream : Fault → Bool
  | streamShort .. | streamCount .. => true
  | _ => false

def message : Fault → Text
  | hexOddLength n => s!"hex string has odd length {n}"
  | hexBadDigit => "hex string contains non-hex characters"
  | bufferNegative label n => label ++ s!": negative read length {n}"
  | bufferShort label n offset remaining =>
    label ++ s!": read of {n} bytes at offset {offset} exceeds buffer ({remaining} remaining)"
  | bufferLength label n offset remaining =>
    label ++ s!": length {n} at offset {offset} exceeds remaining {remaining} bytes"
  | varintAbove label value maximum =>
    label ++ s!": varint {value} exceeds maximum " ++ maximum
  | streamNegative n => s!"negative read length {n}"
  | streamShort n offset remaining =>
    s!"end of stream: need {n} bytes at offset {offset}, {remaining} remaining"
  | streamCount n remaining =>
    s!"end of stream: length {n} exceeds {remaining} remaining bytes"
  | streamNegativeCount n offset => s!"negative length {n} at offset {offset}"
  | addressSize n => s!"address must be 34 bytes, got {n}"
  | addressKeySize n => s!"address key must be 32 bytes, got {n}"
  | addressText text => s!"invalid address text {Text.quoted text}"
  | addressNumeral text reason =>
    s!"invalid address text {Text.quoted text}: {reason.message}"
  | addressDecodedSize n => s!"address text decodes to {n} bytes, expected 34"
  | addressLetter letter =>
    s!"address prefix {Text.quoted (.single letter)} does not match its kind"
  | keySize n => s!"bytes32 value must be 32 bytes, got {n}"
  | interopAddress => "interop addresses are not supported for carbon bytes32 conversion"
  | bothAddressInputs => "address mode accepts only one of --bytes32 or --pha"
  | noAddressInput => "address mode requires --bytes32 <hex> or --pha <address>"
  | enumSize name => s!"VM {name} value requires 4 bytes"
  | tooFewArguments method expected given =>
    s!"method {method} expected {expected} args, got {given}"
  | unprintableName => "VM decode produced non-printable nexus/chain"
  | signatureKind n => s!"unsupported VM signature kind {n}"
  | valueDepth => "Carbon VM value exceeded max depth"
  | valueType n => s!"unsupported Carbon VM type {n}"
  | argumentDepth => "Carbon call arguments exceeded max depth"
  | negativeNodes => "negative node count"
  | negativeArray => "negative array length"
  | argumentType name => "unsupported arg type '" ++ name ++ "'"
  | transactionType shown => "Unsupported transaction type " ++ shown
  | eventAddressSize n => s!"invalid address length {n}"
  | eventHashSize n => s!"invalid hash length {n}"
  | timestampRange seconds => "timestamp " ++ seconds ++ " is out of range"
  | nodeDepth => "ROM VM decode exceeded max depth"
  | nodeType n offset => s!"unsupported VM type {n} at offset {offset}"
  | structCount n remaining => s!"ROM struct count {n} exceeds remaining {remaining} bytes"
  | rootType name => "legacy ROM root must be Struct, got " ++ name
  | romParser parser cause => s!"{parser} ROM decode failed: " ++ cause.message
  | romMode text => "unknown rom format: " ++ text
  | addressMode text => "unknown carbon address mode: " ++ text
  | abiText path => "Failed to parse ABI JSON: " ++ path
  | digitLimit => "Exceeds the limit (4300 digits) for integer string conversion"
  | longNumeral n =>
    "Exceeds the limit (4300 digits) for integer string conversion: value has " ++
      s!"{n} digits; use sys.set_int_max_str_digits() to increase the limit"
  | badNumeral text =>
    s!"invalid literal for int() with base 10: {(Text.quoted text).take 200}"
  | notANumber => "cannot convert float NaN to integer"
  | infinite => "cannot convert float infinity to integer"
  | wrongShape => "value of unexpected shape"
  | wrongCount => "unexpected number of values"
  | missingMember key => Text.quoted key
  | notText => "value is not a text"
  | notUtf8 => "file is not UTF-8"
  | notJson => "text is not JSON"
  | noFile path => s!"[Errno 2] No such file or directory: {Text.quoted path}"
  | isDirectory path => s!"[Errno 21] Is a directory: {Text.quoted path}"
  | notDirectory path => s!"[Errno 20] Not a directory: {Text.quoted path}"
  | longPath path => s!"[Errno 36] File name too long: {Text.quoted path}"
  | zeroInPath => "embedded null byte"
  | unencodable u => u.message
  | nodeNotGiven flag => s!"RPC url is required for {flag}"
  | nodeTrouble text => text
  | requestFailed method reason => "RPC request " ++ method ++ " failed: " ++ reason
  | requestStatus method status => "RPC " ++ method ++ " returned HTTP " ++ status
  | answerNotJson method => "RPC " ++ method ++ " returned invalid JSON"
  | answerUnexpected method => "RPC " ++ method ++ " returned an unexpected response"
  | answerError method text => "RPC " ++ method ++ " error: " ++ text
  | transactionMissing hash => "transaction " ++ hash ++ " not found"
  | contractsUnexpected => "getContracts returned an unexpected response"

end Fault

end ChainDecode
