import SemanticLayer.Text.Blank

set_option autoImplicit false

/-!
Files below a working directory, and what paths lead to. A path is walked part by part, and every
part but the last has to lead to a directory.
-/
namespace SemanticLayer

inductive FileEntry where
  | directory
  | file (text : String)
  deriving DecidableEq, Repr

abbrev FileTree := List (String × FileEntry)

def pathParts (path : String) : List String :=
  (Text.splitAt '/' path.toList).map String.ofList

/-- A place seen from the working directory: so many directories up, and down along names. -/
structure Place where
  up : Nat := 0
  names : List String := []
  deriving DecidableEq, Repr

/-- The place that one part of a path leads to: nothing or a point stays, two points go up. -/
def Place.follow (place : Place) (part : String) : Place :=
  if part = "" ∨ part = "." then place
  else if part = ".." then
    if place.names = [] then { place with up := place.up + 1 }
    else { place with names := place.names.dropLast }
  else { place with names := place.names ++ [part] }

/-- The place of a path whose parts are all there. -/
def Place.ofPath (path : String) : Place := (pathParts path).foldl Place.follow {}

/-- The places that a path passes through, in order. -/
def Place.alongFrom (place : Place) : List String → List Place
  | [] => [place]
  | part :: rest => place :: (place.follow part).alongFrom rest

/-- What is found at a place. The directories on the way to known files are there, also those that
a path leaves again, and so are the directories above the working directory. -/
def FileTree.entryAt? (files : FileTree) (place : Place) : Option FileEntry :=
  if place.names = [] then some .directory
  else
    match files.find? fun (path, _) => Place.ofPath path = place with
    | some (_, entry) => some entry
    | none =>
      if files.any fun (path, _) => place ∈ Place.alongFrom {} (pathParts path) then
        some .directory
      else none

def FileTree.walk (files : FileTree) : Place → List String → Option Place
  | place, [] => some place
  | place, part :: rest =>
    if files.entryAt? place = some .directory then files.walk (place.follow part) rest else none

/-- What is found at the end of a path. An empty path leads nowhere, and of the root of all
directories nothing but itself is known. -/
def FileTree.entry? (files : FileTree) (path : String) : Option FileEntry :=
  if path.isEmpty then none
  else if path.startsWith "/" then
    if (pathParts path).all fun part => part ∈ ["", ".", ".."] then some .directory else none
  else (files.walk {} (pathParts path)).bind files.entryAt?

end SemanticLayer
