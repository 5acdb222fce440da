import KlangFront.Terminal.ColorMode

/-!
# Arguments of the command that lists tokens

One argument is the path and the others are flags, in any order. An argument is
a flag if it starts with a hyphen. Of several color modes the last one counts, and
the first bad argument decides the error; a missing path is noticed at the end.
-/

namespace KlangFront

/-- What an argument is, looked at alone. -/
inductive Argument
  | color (mode : String)
  | hideLocations
  | unknownOption
  | path
  deriving DecidableEq

def Argument.of (text : String) : Argument :=
  match "--color=".toList.isPrefixOf? text.toList with
  | some mode => color (String.ofList mode)
  | none =>
    if text = "--no-locations" then hideLocations
    else if text.toList.head? = some '-' then unknownOption
    else path

inductive ArgumentError
  | invalidColorMode (mode : String)
  | unknownOption (argument : String)
  | secondPath (argument : String)
  | missingPath
  deriving DecidableEq

def ArgumentError.message : ArgumentError → String
  | .invalidColorMode mode =>
    "invalid color mode '" ++ mode ++ "' (expected auto, always or never)"
  | .unknownOption argument => "unknown option '" ++ argument ++ "'"
  | .secondPath argument => "unexpected argument '" ++ argument ++ "'"
  | .missingPath => "missing file path"

/-- What the arguments up to some point ask for. -/
structure LexRequest where
  path : Option String
  color : ColorMode
  locations : Bool
  deriving DecidableEq

namespace LexRequest

def start : LexRequest := ⟨none, .auto, true⟩

def add (request : LexRequest) (argument : String) : Except ArgumentError LexRequest :=
  match Argument.of argument with
  | .color mode =>
    match ColorMode.ofName? mode with
    | some color => .ok { request with color }
    | none => .error (.invalidColorMode mode)
  | .hideLocations => .ok { request with locations := false }
  | .unknownOption => .error (.unknownOption argument)
  | .path =>
    if request.path.isNone then .ok { request with path := some argument }
    else .error (.secondPath argument)

end LexRequest

structure LexArguments where
  path : String
  color : ColorMode
  locations : Bool
  deriving DecidableEq

def LexArguments.parse (arguments : List String) : Except ArgumentError LexArguments := do
  let request ← arguments.foldlM LexRequest.add .start
  match request.path with
  | some path => .ok ⟨path, request.color, request.locations⟩
  | none => .error .missingPath

end KlangFront
