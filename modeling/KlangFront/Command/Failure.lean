import KlangFront.Diagnostic.Basic

/-!
# Failures of a command

A command fails because it was called wrongly, because its input could not be
read, or because it found a problem in the input. The three have exit statuses of
their own, and success has another one.
-/

namespace KlangFront

inductive Failure
  | usage (problem : String)
  | unreadable (path reason : String)
  | reported (diagnostic : Diagnostic)
  deriving DecidableEq

namespace Failure

def message : Failure → String
  | usage problem => problem
  | unreadable path reason => "cannot read '" ++ path ++ "': " ++ reason
  | reported diagnostic => diagnostic.display

/-- The text of the cause below a failure. -/
def cause? : Failure → Option String
  | usage _ => none
  | unreadable _ reason => some reason
  | reported diagnostic => some diagnostic.display

def exitStatus : Failure → UInt8
  | usage _ => 2
  | unreadable _ _ => 3
  | reported _ => 1

end Failure

end KlangFront
