set_option autoImplicit false

/-!
The arguments of a call, cut at the commas that are not nested.

A style says which characters open and close nesting and which ones start a region that is skipped
as a whole. A region ends at its closing character; written twice, that character belongs to it.
`splitArguments_size` bounds what is found by what was read.
-/
namespace SemanticLayer.Text

structure ArgumentStyle where
  opens : Char → Bool
  closes : Char → Bool
  /-- The character that ends the region a character starts. -/
  regionEnd : Char → Option Char

/-- Where a reader stands with respect to skipped regions. `leaving` comes right after a closing
character: the same character once more goes back inside. -/
inductive Region where
  | outside
  | inside (close : Char)
  | leaving (close : Char)
  deriving DecidableEq, Repr

def ArgumentStyle.enter (style : ArgumentStyle) (c : Char) : Region :=
  match style.regionEnd c with
  | some close => .inside close
  | none => .outside

def ArgumentStyle.step (style : ArgumentStyle) (region : Region) (c : Char) : Region :=
  match region with
  | .outside => style.enter c
  | .inside close => if c = close then .leaving close else .inside close
  | .leaving close => if c = close then .inside close else style.enter c

structure Arguments where
  items : List (List Char)
  after : List Char
  deriving DecidableEq, Repr

def Arguments.push (c : Char) (found : Arguments) : Arguments :=
  match found.items with
  | [] => { found with items := [[c]] }
  | item :: rest => { found with items := (c :: item) :: rest }

/-- Reads on inside a call at a nesting depth. A closing parenthesis at depth zero ends the call;
any other closing character there means that the call has no end. -/
def ArgumentStyle.read (style : ArgumentStyle) (depth : Nat) (region : Region) :
    List Char → Option Arguments
  | [] => none
  | c :: r =>
    let region' := style.step region c
    if region' ≠ .outside then (style.read depth region' r).map (Arguments.push c)
    else if style.opens c then (style.read (depth + 1) region' r).map (Arguments.push c)
    else if style.closes c then
      match depth with
      | 0 => if c = ')' then some ⟨[[]], r⟩ else none
      | depth + 1 => (style.read depth region' r).map (Arguments.push c)
    else if c = ',' ∧ depth = 0 then
      (style.read 0 region' r).map fun found => { found with items := [] :: found.items }
    else (style.read depth region' r).map (Arguments.push c)

def splitArguments (style : ArgumentStyle) : List Char → Option Arguments
  | '(' :: r => style.read 0 .outside r
  | _ => none

def Arguments.size (found : Arguments) : Nat :=
  found.items.flatten.length + found.after.length

theorem Arguments.size_push (c : Char) (found : Arguments) :
    (found.push c).size = found.size + 1 := by
  unfold Arguments.push Arguments.size
  split
  · simp_all only [List.flatten_cons, List.flatten_nil, List.length_append, List.length_cons,
      List.length_nil]
    omega
  · simp_all only [List.flatten_cons, List.length_append, List.length_cons]
    omega

theorem ArgumentStyle.size_lt_of_read (style : ArgumentStyle) {depth : Nat} {region : Region}
    {s : List Char} {found : Arguments} (h : style.read depth region s = some found) :
    found.size < s.length := by
  induction s generalizing depth region found with
  | nil => simp [ArgumentStyle.read] at h
  | cons c r ih =>
    have pushed {d : Nat} {q : Region}
        (h : (style.read d q r).map (Arguments.push c) = some found) :
        found.size < (c :: r).length := by
      obtain ⟨inner, hi, rfl⟩ := Option.map_eq_some_iff.1 h
      have := ih hi
      simp only [Arguments.size_push, List.length_cons]
      omega
    unfold ArgumentStyle.read at h
    dsimp only at h
    split at h
    · exact pushed h
    split at h
    · exact pushed h
    split at h
    · split at h
      · split at h
        · cases h
          simp [Arguments.size]
        · simp at h
      · exact pushed h
    split at h
    · obtain ⟨inner, hi, rfl⟩ := Option.map_eq_some_iff.1 h
      have := ih hi
      simp only [Arguments.size, List.flatten_cons, List.nil_append, List.length_cons] at this ⊢
      omega
    · exact pushed h

theorem splitArguments_size (style : ArgumentStyle) {s : List Char} {found : Arguments}
    (h : splitArguments style s = some found) : found.size + 1 < s.length := by
  unfold splitArguments at h
  split at h
  · have := style.size_lt_of_read h
    simp only [List.length_cons]
    omega
  · simp at h

end SemanticLayer.Text
