/-!
# When color is used

A color mode is a wish of the user. The automatic mode follows the kind of the
output, and `ColorMode.resolve` lets the environment veto that.
-/

namespace KlangFront

inductive ColorMode
  | auto
  | always
  | never
  deriving DecidableEq

/-- What the environment says about color. -/
structure ColorEnvironment where
  /-- Whether `NO_COLOR` is set, to whatever value. -/
  noColor : Bool
  /-- The terminal type, if it is given. -/
  term : Option String

/-- Whether the environment leaves color possible. -/
def ColorEnvironment.allowsColor (environment : ColorEnvironment) : Bool :=
  !environment.noColor && environment.term.any (· != "dumb")

namespace ColorMode

def name : ColorMode → String
  | auto => "auto"
  | always => "always"
  | never => "never"

def ofName? (name : String) : Option ColorMode :=
  if name = "auto" then some auto
  else if name = "always" then some always
  else if name = "never" then some never
  else none

/-- Whether color is used, by the kind of output alone. -/
def onTerminal (mode : ColorMode) (isTerminal : Bool) : Bool :=
  match mode with
  | auto => isTerminal
  | always => true
  | never => false

/-- Whether color is used. The environment has a say in the automatic mode only. -/
def resolve (mode : ColorMode) (isTerminal : Bool) (environment : ColorEnvironment) : Bool :=
  match mode with
  | auto => isTerminal && environment.allowsColor
  | always => true
  | never => false

theorem ofName?_eq_some_iff {name : String} {mode : ColorMode} :
    ofName? name = some mode ↔ mode.name = name := by
  unfold ofName?
  constructor
  · intro found
    split at found
    · next isAuto => cases found; exact isAuto.symm
    · split at found
      · next isAlways => cases found; exact isAlways.symm
      · split at found
        · next isNever => cases found; exact isNever.symm
        · cases found
  · rintro rfl
    cases mode <;> rfl

end ColorMode

end KlangFront
