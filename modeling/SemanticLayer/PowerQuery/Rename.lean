import SemanticLayer.PowerQuery.Literal
import SemanticLayer.Text.Blank

set_option autoImplicit false

namespace SemanticLayer.PowerQuery

inductive Renames where
  /-- There is no such step. -/
  | absent
  | unreadable
  /-- First and final names, in the order in which the first names are given up. -/
  | pairs (renames : List (String × String))
  deriving DecidableEq, Repr

/-- The text up to the brace that closes an open one, and what follows. String literals are
skipped. -/
def splitBrace (depth : Nat) (region : Text.Region) : List Char → Option (List Char × List Char)
  | [] => none
  | c :: r =>
    let region := argumentStyle.step region c
    let kept (found : List Char × List Char) := (c :: found.1, found.2)
    if region ≠ .outside then (splitBrace depth region r).map kept
    else if c = '{' then (splitBrace (depth + 1) region r).map kept
    else if c = '}' then
      match depth with
      | 0 => some ([], r)
      | depth + 1 => (splitBrace depth region r).map kept
    else (splitBrace depth region r).map kept

theorem splitBrace_length {depth : Nat} {region : Text.Region} {s body rest : List Char}
    (h : splitBrace depth region s = some (body, rest)) : rest.length < s.length := by
  induction s generalizing depth region body rest with
  | nil => simp [splitBrace] at h
  | cons c r ih =>
    have kept {d : Nat} {q : Text.Region}
        (h : (splitBrace d q r).map (fun found => (c :: found.1, found.2)) = some (body, rest)) :
        rest.length < (c :: r).length := by
      obtain ⟨⟨b, t⟩, hb, he⟩ := Option.map_eq_some_iff.1 h
      cases he
      have := ih hb
      simp only [List.length_cons]
      omega
    unfold splitBrace at h
    dsimp only at h
    split at h
    · exact kept h
    split at h
    · exact kept h
    split at h
    · split at h
      · cases h
        simp
      · exact kept h
    · exact kept h

/-- A mark and the blanks around it. -/
def dropMark (mark : Char) (s : List Char) : Option (List Char) :=
  match Text.trimStart s with
  | c :: r => if c = mark then some (Text.trimStart r) else none
  | [] => none

theorem dropMark_length {mark : Char} {s rest : List Char} (h : dropMark mark s = some rest) :
    rest.length < s.length := by
  have outer := Text.trimStart_length_le s
  unfold dropMark at h
  split at h
  · rename_i c r hs
    have inner := Text.trimStart_length_le r
    rw [hs] at outer
    split at h
    · cases h
      simp only [List.length_cons] at outer
      omega
    · simp at h
  · simp at h

/-- One rename, the former and the new name in braces, and what follows it and one comma. -/
def renameEntry (s : List Char) : Option ((String × String) × List Char) := do
  let rest ← dropMark '{' s
  let (former, rest) ← stringLiteral rest
  let rest ← dropMark ',' rest
  let (renamed, rest) ← stringLiteral rest
  let rest ← dropMark '}' rest
  return ((String.ofList former, String.ofList renamed), (dropMark ',' rest).getD rest)

theorem renameEntry_length {s rest : List Char} {entry : String × String}
    (h : renameEntry s = some (entry, rest)) : rest.length < s.length := by
  simp only [renameEntry, Option.bind_eq_bind, Option.bind_eq_some_iff] at h
  obtain ⟨r₁, h₁, ⟨o, r₂⟩, h₂, r₃, h₃, ⟨n, r₄⟩, h₄, r₅, h₅, he⟩ := h
  have l₁ := dropMark_length h₁
  have l₂ := stringLiteral_length h₂
  have l₃ := dropMark_length h₃
  have l₄ := stringLiteral_length h₄
  have l₅ := dropMark_length h₅
  have l₆ : ((dropMark ',' r₅).getD r₅).length ≤ r₅.length := by
    cases hd : dropMark ',' r₅ with
    | none => simp
    | some r =>
      have := dropMark_length hd
      simp only [Option.getD_some]
      omega
  cases he
  dsimp only at l₃ l₅ l₆ ⊢
  omega

def renameList (s : List Char) : Option (List (String × String)) :=
  if (Text.trimStart s).isEmpty then some []
  else
    match _he : renameEntry s with
    | some (entry, rest) => (renameList rest).map (entry :: ·)
    | none => none
termination_by s.length
decreasing_by exact renameEntry_length _he

/-- Adds one rename. It carries on the first pair that ends in the former name, if there is one. -/
def addRename (former renamed : String) :
    List (String × String) → List (String × String)
  | [] => [(former, renamed)]
  | (first, current) :: rest =>
    if current = former then (first, renamed) :: rest
    else (first, current) :: addRename former renamed rest

/-- The lists of renames of all steps, in their order; nothing when one cannot be read. -/
def renameLists (s : List Char) : Option (List (List (String × String))) :=
  match _hf : Text.splitFirst "Table.RenameColumns".toList s with
  | none => some []
  | some (_, after) =>
    match _hb : splitBrace 0 .outside ((after.dropWhile (· ≠ '{')).drop 1) with
    | none => none
    | some (body, rest) => do
      let renames ← renameList body
      let others ← renameLists rest
      return renames :: others
termination_by s.length
decreasing_by
  have found := Text.splitFirst_length _hf
  have closed := splitBrace_length _hb
  have opened := (List.dropWhile_suffix (l := after) (· ≠ '{')).length_le
  simp only [List.length_drop] at closed
  omega

def renames (expression : String) : Renames :=
  match renameLists expression.toList with
  | none => .unreadable
  | some [] => .absent
  | some lists =>
    .pairs (lists.flatten.foldl (fun pairs (former, renamed) =>
      addRename former renamed pairs) [])

end SemanticLayer.PowerQuery
