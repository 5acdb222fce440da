/-!
# Styled text

A run is a stretch of text in one combination of styles. On a terminal each style
is an escape sequence before the text, and one more sequence behind the text turns
all of them off.
-/

namespace KlangFront

inductive Style
  | bold
  | muted
  | error
  | warning
  | info
  deriving DecidableEq

namespace Style

/-- The sequence that turns a style on. -/
def sequence : Style → String
  | bold => "\x1b[1m"
  | muted => "\x1b[38;2;209;209;209m"
  | error => "\x1b[38;2;127;0;31m"
  | warning => "\x1b[38;2;255;165;0m"
  | info => "\x1b[38;2;100;149;237m"

/-- The sequence that turns every style off. -/
def reset : String := "\x1b[0m"

end Style

structure Run where
  text : String
  styles : List Style
  deriving DecidableEq

/-- A run as it is written; without color, and without any style, it is its text. -/
def Run.paint (color : Bool) (run : Run) : String :=
  if color && !run.styles.isEmpty then
    String.join (run.styles.map Style.sequence) ++ run.text ++ Style.reset
  else run.text

end KlangFront
