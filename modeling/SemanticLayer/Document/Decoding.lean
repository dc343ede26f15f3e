set_option autoImplicit false

/-!
Values of structured documents, and how typed values are read out of them. A number keeps whether it
was written as an integer, and a record keeps its fields in the order in which they were written. A
reader answers nothing for a value of another kind; `nullable` alone accepts null.
-/
namespace SemanticLayer

inductive Document where
  | null
  | flag (value : Bool)
  | integer (value : Int)
  /-- A number written with a point or an exponent, or one that is not finite. -/
  | decimal (written : String)
  | moment (written : String)
  | text (value : String)
  | list (items : List Document)
  | record (fields : List (String × Document))
  deriving Inhabited

namespace Document

def ofFields (fields : List (String × Option Document)) : Document :=
  .record (fields.filterMap fun (name, value) => value.map (name, ·))

def ofTexts (texts : List String) : Document := .list (texts.map .text)

def ofText? : Option String → Document
  | some value => .text value
  | none => .null

/-- A list that is left out of its record when it has no items. -/
def ofItems? {α : Type} (encode : α → Document) (items : List α) : Option Document :=
  if items.isEmpty then none else some (.list (items.map encode))

end Document

abbrev Document.Reader (α : Type) := Document → Option α

namespace Document

variable {α : Type}

def readText : Reader String
  | .text value => some value
  | _ => none

def readFlag : Reader Bool
  | .flag value => some value
  | _ => none

def readNat (limit : Nat) : Reader Nat
  | .integer value => if 0 ≤ value ∧ value.toNat ≤ limit then some value.toNat else none
  | _ => none

def readList (item : Reader α) : Reader (List α)
  | .list items => items.mapM item
  | _ => none

def nullable (read : Reader α) : Reader (Option α)
  | .null => some none
  | value => (read value).map some

def fields? : Reader (List (String × Document))
  | .record fields => some fields
  | _ => none

def required (read : Reader α) (name : String) (fields : List (String × Document)) : Option α :=
  (fields.lookup name).bind read

/-- A field that may be missing and then has a value of its own. -/
def fieldOr (missing : α) (read : Reader α) (name : String)
    (fields : List (String × Document)) : Option α :=
  match fields.lookup name with
  | some value => read value
  | none => some missing

end Document

end SemanticLayer
