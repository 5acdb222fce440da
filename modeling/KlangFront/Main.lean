import KlangFront.Command.Program

/-!
# Running the program

The program on the files, the environment and the standard streams of its process.
-/

namespace KlangFront

/-- The reason why the system refused to read a file. -/
private def readErrorOf : IO.Error → ReadError
  | .noFileOrDirectory _ _ _ => .notFound
  | .inappropriateType _ code _ => if code = 21 then .isDirectory else .notDirectory
  | error => .other (toString error)

/-- The reason why the system refused to take text. -/
private def refusalOf : IO.Error → String
  | .resourceExhausted _ 28 _ => WriteError.noSpace.message
  | error => toString error

private def readFile (path : String) : IO (Except ReadError String) := do
  if path.toList.contains '\x00' then
    return .error .nulInPath
  match ← (IO.FS.readBinFile path).toBaseIO with
  | .error error => return .error (readErrorOf error)
  | .ok content =>
    match String.fromUTF8? content with
    | some text => return .ok text
    | none => return .error .notText

private def surroundings : IO (Program.World IO) := do
  let stderr ← IO.getStderr
  let onTerminal ← stderr.isTty
  let noColor ← IO.getEnv "NO_COLOR"
  let term ← IO.getEnv "TERM"
  return ⟨readFile, onTerminal, ⟨noColor.isSome, term⟩⟩

private def deliver (answer : Answer) : IO UInt8 := do
  let stdout ← IO.getStdout
  let written ← (do
    for text in answer.output do
      stdout.putStr text
    stdout.flush : IO Unit).toBaseIO
  match written with
  | .ok _ =>
    IO.eprint answer.report
    return answer.status
  | .error error =>
    IO.eprint (answer.undelivered (refusalOf error))
    return Answer.undeliveredStatus

end KlangFront

def main (arguments : List String) : IO UInt32 := do
  let world ← KlangFront.surroundings
  let answer ← KlangFront.Program.answer world arguments
  let status ← KlangFront.deliver answer
  return status.toUInt32
