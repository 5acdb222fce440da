import KlangFront.Command.Arguments
import KlangFront.Command.LexFile
import KlangFront.Diagnostic.Report
import KlangFront.Output.Sink
import KlangFront.Token.Listing

/-!
# The program `kc`

A call of the program is answered in two steps. `Program.answer` finds the answer
and asks a reader for the files that it needs, in any monad. `Answer.deliver`
writes the answer to the standard output. What the program has to say of itself
and of its input goes to the standard error, and an output that takes no text is
an error of its own.
-/

namespace KlangFront

namespace Program

def version : String := "0.1.7-dev"

def usageLines : List String := [
  "Klang compiler",
  "",
  "Usage: kc <command> [options]",
  "",
  "Commands:",
  "  lex <file.k>    Tokenize a file and list its tokens",
  "  help            Show this message",
  "  version         Show the version",
  "",
  "Options for lex:",
  "  --color=<when>  Color diagnostics: auto, always, never (default: auto)",
  "  --no-locations  Omit source locations and context from diagnostics",
  "",
  "Set RUST_LOG (e.g. RUST_LOG=klang_lexer=debug) to enable tracing output."]

def usage : String := String.join (usageLines.map (· ++ "\n"))

/-- The surroundings of a call. -/
structure World (m : Type → Type) where
  read : String → m (Except ReadError String)
  /-- Whether the standard error is a terminal. -/
  onTerminal : Bool
  environment : ColorEnvironment

end Program

/-- The answer to a call. A failure comes with the text that reports it. -/
inductive Answer
  | usage
  | version
  | listing (path : String) (tokens : List Token)
  | failed (failure : Failure) (report : String)
  deriving DecidableEq

namespace Program

variable {m : Type → Type} [Monad m]

/-- The text that tells the user of a failure. -/
def tell (world : World m) (options : ReportOptions) (failure : Failure) : m String :=
  match failure with
  | .usage problem => pure ("error: " ++ problem ++ "\n\n" ++ usage)
  | .unreadable _ _ => pure ("internal error: " ++ failure.message ++ "\n")
  | .reported diagnostic =>
    diagnostic.report (fun path => Except.toOption <$> world.read path) options

def fail (world : World m) (options : ReportOptions) (failure : Failure) : m Answer :=
  .failed failure <$> tell world options failure

def lex (world : World m) (arguments : List String) : m Answer :=
  match LexArguments.parse arguments with
  | .error error => fail world .plain (.usage error.message)
  | .ok request => do
    let color := request.color.resolve world.onTerminal world.environment
    match ← lexFile world.read request.path with
    | .error failure => fail world ⟨color, request.locations⟩ failure
    | .ok tokens => pure (.listing request.path tokens)

def answer (world : World m) : List String → m Answer
  | [] => pure .usage
  | command :: arguments =>
    if command = "lex" then lex world arguments
    else if command = "help" ∨ command = "-h" ∨ command = "--help" then pure .usage
    else if command = "version" ∨ command = "-V" ∨ command = "--version" then pure .version
    else fail world .plain (.usage ("unknown command '" ++ command ++ "'"))

end Program

/-- What is left of a call when the program has ended. -/
structure Outcome where
  status : UInt8
  output : Sink
  report : String

namespace Answer

/-- The texts for the standard output, in the order in which they are written. -/
def output : Answer → List String
  | usage => [Program.usage]
  | version => ["kc " ++ Program.version ++ "\n"]
  | listing path tokens => Listing.lines path tokens
  | failed _ _ => []

def report : Answer → String
  | failed _ report => report
  | _ => ""

def status : Answer → UInt8
  | failed failure _ => failure.exitStatus
  | _ => 0

/-- What the program says when its standard output does not take the answer. -/
def undelivered (reason : String) : Answer → String
  | listing _ _ => "internal error: cannot write token listing: " ++ reason ++ "\n"
  | _ => "internal error: cannot write to standard output: " ++ reason ++ "\n"

/-- The exit status of an answer that could not be written. -/
def undeliveredStatus : UInt8 := 3

def deliver (answer : Answer) (sink : Sink) : Outcome :=
  match sink.writeAll answer.output with
  | (true, sink) => ⟨answer.status, sink, answer.report⟩
  | (false, sink) => ⟨undeliveredStatus, sink, answer.undelivered sink.refusal.message⟩

end Answer

end KlangFront
