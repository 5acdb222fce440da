import KlangFront.Command.Failure
import KlangFront.Files.Path
import KlangFront.Files.ReadError
import KlangFront.Lexical.Tokens

/-!
# Tokens of a file

Only files with the extension `k` are read. Another file is refused by a
diagnostic, whether it exists or not.
-/

namespace KlangFront

def refusedExtension : Diagnostic where
  severity := .info
  message := "the file is not a .k file"
  primary := none
  secondary := []
  notes := [⟨"pass a Klang source file", none, by decide⟩]
  message_ne_empty := by decide

/-- The tokens of the file at a path, whose text comes from a reader in any monad. -/
def lexFile {m : Type → Type} [Monad m] (read : String → m (Except ReadError String))
    (path : String) : m (Except Failure (List Token)) :=
  if Path.extension? path = some ['k'] then do
    match ← read path with
    | .error reason => return .error (.unreadable path reason.message)
    | .ok source =>
      match tokenize (fileNamed path) source with
      | .error error => return .error (.reported error.toDiagnostic)
      | .ok tokens => return .ok tokens
  else
    pure (.error (.reported refusedExtension))

end KlangFront
