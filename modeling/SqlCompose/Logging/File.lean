import SqlCompose.Error
import SqlCompose.Text.Path

/-!
# Log files

A log file lies in a directory that is made for it, with everything on the way there. Nothing else is made: a file whose own path leads on into other directories can be opened only if these are there already.
-/

namespace SqlCompose.LogFile

def systemDirectories : List Text := [
  "bin", "boot", "dev", "etc", "home", "lib", "media", "mnt", "opt", "proc", "root", "run", "sbin", "srv", "sys", "tmp",
  "usr", "var"]

/-- Whether a place is a directory, when some have been made. The root is one, and so are all places above the current directory. -/
def isDirectory (made : List Place) (place : Place) : Bool :=
  match place with
  | .below [] | .above _ [] => true
  | .below [name] => systemDirectories.contains name || made.contains place
  | _ => made.contains place

private def byteLength (text : Text) : Nat :=
  text.foldl (fun length c => length + c.utf8Size) 0

private def hasLongName (names : List Text) : Bool :=
  names.any fun name => 255 < byteLength name

/-- No path has a null character, and neither a path nor a name in it is too long. -/
def checkPath (path : Text) : Except Error Unit :=
  if path.contains '\x00' then .error (.badShape "embedded null byte")
  else if 4095 < byteLength path || hasLongName (Text.pathParts path) then .error .nameTooLong
  else .ok ()

/-- Makes a directory and all on the way to it; gives what is there then. -/
def makeDirectory (path : Text) : Except Error (List Place) := do
  checkPath path
  return Place.onTheWay path

def openFile (made : List Place) (path : Text) : Except Error Place := do
  let place := Place.ofPath path
  if path.contains '\x00' then throw (.badShape "embedded null byte")
  if isDirectory made place then throw .directoryInTheWay
  if place.parent?.any (!isDirectory made ·) then throw .directoryMissing
  checkPath path
  return place

/-- The place of a log file in a directory that is made for it. The directory is made before the path of the file is looked at. -/
def create (directory : Text) (file : Except Error Text) : Except Error Place := do
  let made ← makeDirectory directory
  openFile made (Text.joinPath directory (← file))

end SqlCompose.LogFile
