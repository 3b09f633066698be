import ChainDecode.Text.Digit
import ChainDecode.Text.Quoted

/-! # Flags

A word of a command line names a flag in full, by an unambiguous beginning, or with its value
behind an equals sign. Flags of one letter may stand in one word. Words that name no flag are
values, except those that only look like one.
-/
namespace ChainDecode.Command

inductive Flag where
  | help
  | version
  | hex
  | hash
  | rpc
  | abi
  | kind
  | symbol
  | tokenId
  | romFormat
  | format
  | vmDetail
  | carbonDetail
  | carbonAddresses
  | protocol
  | resolve
  | verbose
  | bytes32
  | pha
  deriving DecidableEq, Repr

namespace Flag

def spellings : List (Flag × List Text) :=
  [(help, ["-h", "--help"]), (version, ["-v", "--version"]), (hex, ["--hex"]),
    (hash, ["--hash", "--tx"]), (rpc, ["--rpc"]), (abi, ["--abi"]), (kind, ["--kind"]),
    (symbol, ["--symbol"]), (tokenId, ["--token-id", "--id"]),
    (romFormat, ["--rom-format", "--rom-mode"]), (format, ["--format"]),
    (vmDetail, ["--vm-detail"]), (carbonDetail, ["--carbon-detail"]),
    (carbonAddresses, ["--carbon-addresses"]), (protocol, ["--protocol", "--protocol-version"]),
    (resolve, ["--resolve"]), (verbose, ["--verbose"]),
    (bytes32, ["--bytes32", "--carbon-address"]), (pha, ["--pha", "--pha-address"])]

def named : List (Text × Flag) := spellings.flatMap fun e => e.2.map fun name => (name, e.1)

def ofName? (name : Text) : Option Flag := named.lookup name

def title (f : Flag) : Text := .joined "/" ((spellings.lookup f).getD [])

def isSwitch : Flag → Bool
  | help | version | resolve | verbose => true
  | _ => false

end Flag

inductive Word where
  -- A flag, perhaps with a value behind an equals sign.
  | flag (f : Flag) (value : Option Text)
  -- A flag of one letter with text behind it, which may be more letters.
  | letters (f : Flag) (behind : Text)
  -- A word that looks like a flag and is none.
  | unknown (text : Text)
  | value (text : Text)
  deriving DecidableEq, Repr

def splitAtEquals (text : Text) : Option (Text × Text) :=
  match text.letters.dropWhile (· ≠ .char '=') with
  | [] => none
  | _ :: behind => some (⟨text.letters.takeWhile (· ≠ .char '=')⟩, ⟨behind⟩)

/-- Whether a word is a negative number. A line break may follow it. -/
def isNegativeNumber (text : Text) : Bool :=
  let isDecimal (l : Letter) : Bool := l.is fun c => (Text.decimalDigit? c).isSome
  match text.letters with
  | .char '-' :: rest =>
    let line := if rest.getLast? = some (.char '\n') then rest.dropLast else rest
    let whole := line.takeWhile isDecimal
    match line.dropWhile isDecimal with
    | [] => !whole.isEmpty
    | .char '.' :: fraction => !fraction.isEmpty && fraction.all isDecimal
    | _ => false
  | _ => false

def longMatches (text : Text) : List (Text × Word) :=
  let (start, value) := match splitAtEquals text with
    | some (start, value) => (start, some value)
    | none => (text, none)
  (Flag.named.filter fun e => e.1.startsWith start).map fun e => (e.1, .flag e.2 value)

/-- The flags that a word in one dash may stand for: a letter with text right behind it, or the
beginning of a spelling. -/
def shortMatches (text : Text) : List (Text × Word) :=
  let letter : Text := ⟨text.letters.take 2⟩
  let behind : Text := ⟨text.letters.drop 2⟩
  Flag.named.filterMap fun e =>
    if e.1 = letter then some (e.1, .letters e.2 behind)
    else if e.1.startsWith text then some (e.1, .flag e.2 none)
    else none

/-- The word that a text is when no flag is spelled out: an unambiguous beginning of a flag, a
value, or nothing known. The cause lists the flags that could be meant. -/
def ofBeginning (text : Text) : Except Text Word :=
  let found := if text.startsWith "--" then longMatches text else shortMatches text
  match found with
  | [(_, word)] => .ok word
  | [] =>
    if isNegativeNumber text || text.letters.contains (.char ' ') then .ok (.value text)
    else .ok (.unknown text)
  | _ =>
    .error ("ambiguous option: " ++ text ++ " could match " ++
      Text.joined ", " (found.map (·.1)))

def ofSpelling (f : Flag) (name behind : Text) : Word :=
  if name.startsWith "--" || behind.isEmpty then .flag f (some behind) else .letters f behind

def Word.ofText (text : Text) : Except Text Word :=
  if !text.startsWith "-" || text = "-" then .ok (.value text)
  else
    match Flag.ofName? text with
    | some f => .ok (.flag f none)
    | none =>
      match splitAtEquals text with
      | none => ofBeginning text
      | some (name, behind) =>
        match Flag.ofName? name with
        | some f => .ok (ofSpelling f name behind)
        | none => ofBeginning text

end ChainDecode.Command
