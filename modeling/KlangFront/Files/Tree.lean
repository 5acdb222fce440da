import KlangFront.Files.Path
import KlangFront.Files.ReadError

/-!
# Trees of files

A tree stands for a working directory and all that is below it. A path is walked
from there step by step: a step out of a regular file is an error even if it would
stay put, and a step to the parent goes back to the directory that was entered
last. Nothing outside the working directory is known, so absolute paths and paths
that leave it lead nowhere.
-/

namespace KlangFront

inductive Tree
  | file (content : ByteArray)
  | directory (entries : List (List Char × Tree))

namespace Tree

def empty : Tree := directory []

/-- Changes what is found at the end of a path, making the directories on the way. -/
def alter (change : Option Tree → Tree) : List (List Char) → Option Tree → Tree
  | [], here => change here
  | name :: rest, here =>
    let entries := match here with
      | some (directory entries) => entries
      | _ => []
    directory ((name, alter change rest (entries.lookup name))
      :: entries.filter fun entry => entry.1 != name)

def addFile (tree : Tree) (path : String) (content : ByteArray) : Tree :=
  alter (fun _ => file content) ((Path.steps path).filter (!Path.staysPut ·)) (some tree)

/-- Makes a directory; what is already there stays. -/
def addDirectory (tree : Tree) (path : String) : Tree :=
  alter (·.getD empty) ((Path.steps path).filter (!Path.staysPut ·)) (some tree)

/-- What a walk reaches that stands at `here`, below the given directories, the nearest first. -/
def walk (above : List Tree) (here : Tree) : List (List Char) → Except ReadError Tree
  | [] => .ok here
  | step :: rest =>
    match here with
    | file _ => .error .notDirectory
    | directory entries =>
      if Path.staysPut step then walk above here rest
      else if step = ['.', '.'] then
        match above with
        | [] => .error .notFound
        | parent :: higher => walk higher parent rest
      else
        match entries.lookup step with
        | none => .error .notFound
        | some child => walk (here :: above) child rest

/-- The text of the file at a path. -/
def read (tree : Tree) (path : String) : Except ReadError String :=
  if path.toList.contains '\x00' then .error .nulInPath
  else if path = "" ∨ path.toList.head? = some '/' then .error .notFound
  else
    match walk [] tree (Path.steps path) with
    | .error reason => .error reason
    | .ok (directory _) => .error .isDirectory
    | .ok (file content) =>
      match String.fromUTF8? content with
      | some text => .ok text
      | none => .error .notText

end Tree

end KlangFront
