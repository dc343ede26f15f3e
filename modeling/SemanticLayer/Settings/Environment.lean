import SemanticLayer.Text.Alphanumeric

set_option autoImplicit false

/-!
Environments, and texts that refer to their variables, as `$NAME` or, for any name, with braces
around it. What a variable holds is never looked into again.
-/
namespace SemanticLayer

/-- The variables that are set, one entry each: a name, an equals sign and the value. Where the name
ends is not kept apart, so a name asked for may reach into a value that has an equals sign too. A
variable whose value is not Unicode cannot be written down. It is left out, since asking for it
fails as if it were not set. -/
structure Environment where
  entries : List (List Char) := []
  deriving DecidableEq, Repr

namespace Environment

def ofPairs (pairs : List (String × String)) : Environment :=
  ⟨pairs.map fun (name, value) => name.toList ++ '=' :: value.toList⟩

/-- What an entry holds after a name and an equals sign, if it starts with them. -/
def valueIn? (name entry : List Char) : Option (List Char) :=
  if (name ++ ['=']).isPrefixOf entry then some (entry.drop (name.length + 1)) else none

/-- The value of the first entry that a name with an equals sign starts. The empty name has none. -/
def value? (environment : Environment) (name : String) : Option String :=
  if name.isEmpty then none
  else (environment.entries.findSome? (valueIn? name.toList)).map String.ofList

/-- A piece of a text: one character as it is, or the value of a variable. -/
inductive Segment where
  | literal (c : Char)
  | variable (name : String)
  deriving DecidableEq, Repr

def isNameChar (c : Char) : Bool := Text.isAlphanumeric c || c = '_'

/-- The pieces of a text. A name in braces ends at the next closing brace or else at the end of the
text; a dollar sign before no name stands for itself. -/
def segments : List Char → List Segment
  | [] => []
  | '$' :: '{' :: r =>
    .variable (String.ofList (r.takeWhile (· ≠ '}'))) ::
      segments ((r.dropWhile (· ≠ '}')).drop 1)
  | '$' :: r =>
    match r.takeWhile isNameChar with
    | [] => .literal '$' :: segments r
    | name => .variable (String.ofList name) :: segments (r.dropWhile isNameChar)
  | c :: r => .literal c :: segments r
termination_by s => s.length
decreasing_by
  · have := (List.dropWhile_suffix (l := r) (· ≠ '}')).length_le
    simp only [List.length_drop, List.length_cons]
    omega
  · simp
  · have := (List.dropWhile_suffix (l := r) isNameChar).length_le
    simp only [List.length_cons]
    omega
  · simp

/-- Puts the values in place, or names the first variable that has none. -/
def substitute (value? : String → Option String) : List Segment → Except String String
  | [] => .ok ""
  | .literal c :: rest => do
    let text ← substitute value? rest
    return String.ofList [c] ++ text
  | .variable name :: rest =>
    match value? name with
    | none => .error name
    | some value => do
      let text ← substitute value? rest
      return value ++ text

def expand (environment : Environment) (text : String) : Except String String :=
  substitute environment.value? (segments text.toList)

end Environment

end SemanticLayer
