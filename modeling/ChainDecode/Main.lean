import ChainDecode.Command.Run

/-! # The program

Reads the files that a command line names, runs the request and prints how it ends.
-/
namespace ChainDecode.Command

/-- A text as it is written. A surrogate that stands alone has no encoding, so the replacement
character takes its place. -/
def written (t : Text) : String :=
  String.ofList (t.letters.map fun l => l.char?.getD '\ufffd')

def find (path : Text) : IO Abi.Found := do
  let place := (← IO.currentDir) / written path
  if ← place.isDir then
    let entries ← (← place.readDir).toList.mapM fun e => do
      let content ← if ← e.path.isDir then pure (Abi.Found.directory [])
        else (fun bytes => Abi.Found.file bytes.toList) <$> IO.FS.readBinFile e.path
      pure (e.fileName, content)
    pure (.directory entries)
  else if ← place.pathExists then
    (fun bytes => Abi.Found.file bytes.toList) <$> IO.FS.readBinFile place
  else pure .missing

def finish : Ending → IO UInt32
  | .printed text code => do
    IO.print (written text)
    pure (UInt32.ofNat code)
  | .refused reason => do
    IO.eprint usage
    IO.eprintln s!"{programName}: error: {written reason}"
    pure 2
  | .stopped message => do
    IO.eprintln (written message)
    pure 1

/-- Runs the words of a command line. No network is reached. -/
def execute (words : List String) : IO UInt32 := do
  match Request.ofWords (words.map .ofString) with
  | .error ending => finish ending
  | .ok request =>
    let found ← match request.settings.abi.path? with
      | some path => find path.text
      | none => pure .missing
    match request.run found (.ofReplies []) with
    | .ok (ending, _) => finish ending
    | .error f => finish (.stopped f.message)

end ChainDecode.Command

def main (words : List String) : IO UInt32 := ChainDecode.Command.execute words
