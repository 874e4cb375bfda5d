import DspCode.Command.Arguments

/-!
# The command line

Reads files, runs the command and prints or writes its answer.
-/

namespace DspCode

/-- Reads a text file, if there is one to read. -/
def readTextFile (path? : Option String) : IO (Option TextFile) := do
  match path? with
  | none => return none
  | some path => return some ⟨path, ← IO.FS.readFile path⟩

/-- Writes a text to a file, or prints it. -/
def emit (path? : Option String) (text : String) : IO Unit :=
  match path? with
  | some path => IO.FS.writeFile path text
  | none => IO.print text

/-- Reports a failure. -/
def fail (message : String) : IO UInt32 := do
  IO.eprintln ("Error: " ++ message)
  return 1

/-- Answers a request about an image, and writes its text and labels where they belong. -/
def answerRequest (invocation : Invocation) (loading : Loading) (request : Request)
    (labelsOut? : Option String) : IO UInt32 := do
  match Command.run loading request with
  | .error e => fail e.message
  | .ok answer =>
    match labelsOut?, answer.labels? with
    | some path, some labels => IO.FS.writeFile path labels
    | _, _ => pure ()
    emit invocation.out? answer.text
    return 0

/-- Runs a command line. -/
def runInvocation (invocation : Invocation) : IO UInt32 := do
  let file := (← IO.FS.readBinFile invocation.input).data
  let settings? ← readTextFile invocation.settings?
  let loading : Loading := {
    file, settings?
    base := invocation.base
    skip := invocation.skip
    length? := invocation.length? }
  match invocation.action with
  | .sections => answerRequest invocation loading .sections none
  | .range start stop showBytes =>
    answerRequest invocation loading (.range start stop showBytes) none
  | .analyze request labelsIn? labelsOut? =>
    let labels? ← readTextFile labelsIn?
    answerRequest invocation loading (.analyze { request with labels? }) labelsOut?
  | .sweep withListing =>
    let (printed, result) := Command.survey file invocation.base settings? withListing
    IO.print printed
    match result with
    | .ok _ => return 0
    | .error e => fail e.message

end DspCode

/-- Reads the command line and runs it. -/
def main (args : List String) : IO UInt32 := do
  match DspCode.Invocation.read args with
  | .error e =>
    IO.eprintln ("error: " ++ e.message)
    return 2
  | .ok invocation => DspCode.runInvocation invocation
