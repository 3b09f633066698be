import ChainDecode.Command.Settings

/-! # Command lines

A command line is read word by word: flags take their values from the words behind them, the first
free word is the target, and what is left over is refused at the end.
-/
namespace ChainDecode.Command

def version : String := "0.4.0"

def programName : String := "pha_decode.py"

def usage : String :=
  s!"usage: {programName} <txHex>\n" ++
  s!"       {programName} tx --hex <txHex>\n" ++
  s!"       {programName} tx --hash <txHash> --rpc <url>\n" ++
  s!"       {programName} event --hex <eventHex> [--kind <kind>]\n" ++
  s!"       {programName} rom --hex <romHex> [--symbol <symbol>] [--token-id <id>] " ++
  "[--rom-format <mode>]\n" ++
  s!"       {programName} address --bytes32 <hex> | --pha <address>\n"

inductive Ending where
  | printed (text : Text) (code : Nat)
  | refused (reason : Text)
  | stopped (message : Text)
  deriving DecidableEq, Repr

inductive Token where
  | word (w : Word)
  | divider
  deriving DecidableEq, Repr

namespace Token

def ofWords : List Text → Except Text (List Token)
  | [] => .ok []
  | text :: rest =>
    if text = "--" then .ok (divider :: rest.map fun text => word (.value text))
    else do
      let w ← Word.ofText text
      let tokens ← ofWords rest
      pure (word w :: tokens)

def text : Token → Text
  | word (.value text) => text
  | word (.unknown text) => text
  | word (.flag f _) => f.title
  | word (.letters f behind) => f.title ++ behind
  | divider => "--"

end Token

/-- What was read of a command line: the settings, whether the target is behind, and the words
that are left over. -/
structure Progress where
  settings : Settings
  targetTaken : Bool
  extras : List Text
  deriving Repr

def flagFault (f : Flag) (reason : Text) : Ending :=
  .refused ("argument " ++ f.title ++ ": " ++ reason)

def extraValue (f : Flag) (text : Text) : Ending :=
  flagFault f s!"ignored explicit argument {Text.quoted text}"

def Progress.setValue (p : Progress) (f : Flag) (text : Text) : Except Ending Progress :=
  match p.settings.setValue f text with
  | .ok settings => .ok { p with settings := settings }
  | .error reason => .error (flagFault f reason)

def Progress.setSwitches (p : Progress) : List Flag → Except Ending Progress
  | [] => .ok p
  | .help :: _ => .error (.printed usage 0)
  | .version :: _ => .error (.printed (version ++ "\n") 0)
  | f :: rest => setSwitches { p with settings := p.settings.setSwitch f } rest

/-- The flags in one word of single letters, from the text behind the first of them on. A letter
that names no flag is an extra value of the flag in front of it. -/
def letterFlags (f : Flag) : List Letter → Except Ending (List Flag)
  | [] => .ok [f]
  | l :: rest =>
    match Flag.ofName? ⟨[.char '-', l]⟩ with
    | some g => do
      let flags ← letterFlags g rest
      pure (f :: flags)
    | none => .error (extraValue f ⟨l :: rest⟩)

/-- Sets a flag with a value behind an equals sign. Two dashes are no value: they leave the flag
open. -/
def Progress.setExplicit (p : Progress) (f : Flag) (text : Text) : Except Ending Progress :=
  if f.isSwitch then .error (extraValue f text)
  else if text = "--" then .ok { p with settings := p.settings.setOpen f }
  else p.setValue f text

def Progress.setLetters (p : Progress) (f : Flag) (behind : Text) : Except Ending Progress :=
  if f.isSwitch then do
    let flags ← letterFlags f behind.letters
    p.setSwitches flags
  else p.setExplicit f behind

def Progress.setTarget (p : Progress) (text : Text) : Progress :=
  { p with settings := { p.settings with target := some text }, targetTaken := true }

def Progress.leave (p : Progress) (tokens : List Token) : Progress :=
  { p with extras := p.extras ++ tokens.map Token.text }

/-- Reads the tokens of a command line in order. A divider right behind or in front of the target
belongs to it. -/
def Progress.read (p : Progress) : List Token → Except Ending Progress
  | [] => .ok p
  | .word (.unknown text) :: rest => (p.leave [.word (.unknown text)]).read rest
  | .word (.flag f (some text)) :: rest => do
    let p ← p.setExplicit f text
    p.read rest
  | .word (.letters f behind) :: rest => do
    let p ← p.setLetters f behind
    p.read rest
  | .word (.flag f none) :: rest =>
    if f.isSwitch then do
      let p ← p.setSwitches [f]
      p.read rest
    else
      match rest with
      | .word (.value text) :: rest => do
        let p ← p.setValue f text
        p.read rest
      | _ => .error (flagFault f "expected one argument")
  | .word (.value text) :: rest =>
    if p.targetTaken then (p.leave [.word (.value text)]).read rest
    else
      match rest with
      | .divider :: rest => .ok ((p.setTarget text).leave rest)
      | rest => (p.setTarget text).read rest
  | .divider :: rest =>
    if p.targetTaken then .ok (p.leave (.divider :: rest))
    else
      match rest with
      | .word (.value text) :: rest => .ok ((p.setTarget text).leave rest)
      | rest => .ok (p.leave rest)

def Settings.ofWords (words : List Text) : Except Ending Settings := do
  let tokens ← match Token.ofWords words with
    | .ok tokens => pure tokens
    | .error reason => .error (.refused reason)
  let p ← (Progress.mk .default false []).read tokens
  if p.extras.isEmpty then pure p.settings
  else .error (.refused ("unrecognized arguments: " ++ Text.joined " " p.extras))

end ChainDecode.Command
