import KlangFront.Text.Split

/-!
# Paths

A path is cut at its slashes. Empty steps and single dots name no file, so the file
name of a path is its last step other than these, and a path that leads to a parent
has none. The extension is what follows the last dot of the file name, unless that
dot is the first character.
-/

namespace KlangFront.Path

def steps (path : String) : List (List Char) := Text.split '/' path.toList

/-- Whether a step stays where it is. -/
def staysPut (step : List Char) : Bool := step = [] || step = ['.']

def fileName? (path : String) : Option (List Char) :=
  ((steps path).filter (!staysPut ·)).getLast?.filter (· != ['.', '.'])

def extension? (path : String) : Option (List Char) :=
  (fileName? path).bind fun name =>
    let parts := Text.split '.' name
    let stem := parts.dropLast
    if stem = [] ∨ stem = [[]] then none else parts.getLast?

end KlangFront.Path
