/-!
# Errors of reading a file as text
-/

namespace KlangFront

/-- Why a file could not be read as text. -/
inductive ReadError
  | notFound
  | isDirectory
  | notDirectory
  | notText
  | nulInPath
  | other (reason : String)
  deriving DecidableEq

def ReadError.message : ReadError → String
  | .notFound => "No such file or directory (os error 2)"
  | .isDirectory => "Is a directory (os error 21)"
  | .notDirectory => "Not a directory (os error 20)"
  | .notText => "stream did not contain valid UTF-8"
  | .nulInPath => "file name contained an unexpected NUL byte"
  | .other reason => reason

end KlangFront
