import SqlCompose.Text

/-!
# Paths

A path is a text with slashes between its parts. In its normal form it has no empty parts, no parts that are a single dot, and no slash at the end; the empty path is a single dot.

A place is where a path leads when every pair of dots takes one step up: either from the root or from a directory some steps above the current one.
-/

namespace SqlCompose

namespace Text

/-- Two slashes at the beginning are kept; one, or more than two, count as one. -/
def pathRoot (path : Text) : Text :=
  match path.takeWhile (· = '/') with
  | [] => []
  | ['/', '/'] => "//"
  | _ => "/"

def isAbsolutePath (path : Text) : Bool :=
  path.head? == some '/'

def pathParts (path : Text) : List Text :=
  (split '/' path).filter fun part => !part.isEmpty && part != ['.']

def normalPath (path : Text) : Text :=
  let normal := pathRoot path ++ join "/" (pathParts path)
  if normal.isEmpty then "." else normal

def joinPath (directory path : Text) : Text :=
  if isAbsolutePath path then normalPath path else normalPath (directory ++ "/" ++ path)

end Text

/-! ### Places -/

/-- A place below the root, or below the directory that lies some steps above the current one. -/
inductive Place where
  | below (names : List Text)
  | above (steps : Nat) (names : List Text)
  deriving DecidableEq, Repr

namespace Place

def here : Place := above 0 []

/-- One step along a part of a path. Above the root is the root. -/
def step (place : Place) (part : Text) : Place :=
  if part = ".." then
    match place with
    | below names => below names.dropLast
    | above steps [] => above (steps + 1) []
    | above steps names => above steps names.dropLast
  else
    match place with
    | below names => below (names ++ [part])
    | above steps names => above steps (names ++ [part])

def origin (path : Text) : Place :=
  if Text.isAbsolutePath path then below [] else here

def ofPath (path : Text) : Place :=
  (Text.pathParts path).foldl step (origin path)

def onTheWay (path : Text) : List Place :=
  go (origin path) (Text.pathParts path)
where
  go (place : Place) : List Text → List Place
    | [] => [place]
    | part :: parts => place :: go (place.step part) parts

/-- The directory that a place lies in; the root and the places above the current directory have none that would have to be looked for. -/
def parent? : Place → Option Place
  | below names => if names.isEmpty then none else some (below names.dropLast)
  | above steps names => if names.isEmpty then none else some (above steps names.dropLast)

def inside? : Place → Option Text
  | above 0 names => if names.isEmpty then none else some (Text.join "/" names)
  | _ => none

end Place

end SqlCompose
