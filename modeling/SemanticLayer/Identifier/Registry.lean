import SemanticLayer.Identifier.Basic
import SemanticLayer.Text.LowerCase

set_option autoImplicit false

/-!
The registry that gives every source object one identifier.

Identifiers are distinct up to case. An object is known by its key: the first request for a key
decides, and every later one gets the same answer. When nothing free can be found the request's own
candidate is answered and remembered for the key, but not held as an identifier. So there are two
tables, one from identifiers to those who hold them and one from keys to answers.
-/
namespace SemanticLayer.Identifier

structure Request where
  candidate : String
  key : String
  kind : Kind
  /-- The table the object belongs to; it qualifies names that collide. -/
  owner : String := ""
  /-- Tried first when a long name has to be cut. -/
  suffix : Option String := none
  deriving DecidableEq, Repr

inductive Resolution where
  | unchanged
  | renamed
  | exhausted
  deriving DecidableEq, Repr

def Resolution.text : Resolution → String
  | .unchanged => "unchanged"
  | .renamed => "renamed"
  | .exhausted => "exhausted"

structure Allocation where
  name : String
  resolution : Resolution
  deriving DecidableEq, Repr

/-- An identifier that is held, with the object that holds it. -/
structure Registration where
  name : String
  folded : String
  kind : Kind
  owner : String
  key : String
  folded_eq : folded = Text.lower name
  deriving DecidableEq

structure Registry where
  maxLength : Nat := 63
  maxSuffix : Nat := 999
  /-- Who holds each identifier, the newest first. -/
  held : List Registration := []
  /-- What was answered for each key, the newest first. -/
  answers : List (String × String) := []
  deriving DecidableEq

namespace Registry

/-- The answer that was given for a key. -/
def lookup (r : Registry) (key : String) : Option String := r.answers.lookup key

/-- Who holds an identifier, whatever its case. -/
def registration? (r : Registry) (name : String) : Option Registration :=
  let folded := Text.lower name
  r.held.find? (·.folded == folded)

def size (r : Registry) : Nat := r.held.length

def fits (r : Registry) (name : String) : Bool := name.length ≤ r.maxLength

def isFree (r : Registry) (name : String) : Bool := (r.registration? name).isNone

/-- The base with the first free number from `n` on, among the next `tries` numbers. -/
def numberedFrom (r : Registry) (base : String) (n : Nat) : (tries : Nat) → Option String
  | 0 => none
  | tries + 1 =>
    let name := withSuffix base ("_" ++ toString n) r.maxLength
    if r.isFree name then some name else r.numberedFrom base (n + 1) tries

def numbered (r : Registry) (base : String) : Option String := r.numberedFrom base 1 r.maxSuffix

/-- A base cut to the length: with the wished suffix, else bare, else with a number. -/
def truncated (r : Registry) (base : String) (suffix : Option String) : Option String :=
  let suffixed := suffix.map fun suffix => withSuffix base suffix r.maxLength
  match suffixed.filter fun name => r.fits name && r.isFree name with
  | some name => some name
  | none =>
    let bare := withSuffix base "" r.maxLength
    if r.isFree bare then some bare else r.numbered base

/-- The candidate itself, or a cut of it, when it is in normal form. -/
def chooseClean (r : Registry) (q : Request) : Option Allocation :=
  if sanitize q.candidate ≠ q.candidate then none
  else if r.fits q.candidate then
    if r.isFree q.candidate then some ⟨q.candidate, .unchanged⟩ else none
  else (r.truncated q.candidate q.suffix).map (⟨·, .renamed⟩)

def qualified (q : Request) : String :=
  let base := sanitize q.candidate
  if Text.isBlankText q.owner then base else sanitize (base ++ "_" ++ q.owner)

def chooseQualified (r : Registry) (q : Request) : Option Allocation :=
  let name := qualified q
  if r.fits name then
    if r.isFree name then some ⟨name, .renamed⟩ else none
  else (r.truncated name q.suffix).map (⟨·, .renamed⟩)

def choose (r : Registry) (q : Request) : Option Allocation :=
  (r.chooseClean q).orElse fun _ =>
    (r.chooseQualified q).orElse fun _ =>
      (r.numbered (qualified q)).map (⟨·, .renamed⟩)

def register (r : Registry) (q : Request) (name : String) : Registry :=
  { r with
    held := ⟨name, Text.lower name, q.kind, q.owner, q.key, rfl⟩ :: r.held
    answers := (q.key, name) :: r.answers }

/-- The identifier for a request, and the registry that remembers it. -/
def allocate (r : Registry) (q : Request) : Allocation × Registry :=
  match r.lookup q.key with
  | some name => (⟨name, .unchanged⟩, r)
  | none =>
    match r.choose q with
    | some allocation => (allocation, r.register q allocation.name)
    | none =>
      (⟨q.candidate, .exhausted⟩, { r with answers := (q.key, q.candidate) :: r.answers })

end Registry

end SemanticLayer.Identifier
