set_option autoImplicit false

namespace SemanticLayer.Text

/-- The length of a text when each character takes its one to four bytes. -/
def byteLength : List Char → Nat
  | [] => 0
  | c :: r => c.utf8Size + byteLength r

theorem byteLength_append (s t : List Char) :
    byteLength (s ++ t) = byteLength s + byteLength t := by
  induction s with
  | nil => simp [byteLength]
  | cons c r ih => simp [byteLength, ih, Nat.add_assoc]

def startsFold : (start text : List Char) → Bool
  | [], _ => true
  | _ :: _, [] => false
  | a :: start, b :: text => a.toLower == b.toLower && startsFold start text

def occursIn (piece : List Char) : List Char → Bool
  | [] => piece.isEmpty
  | c :: r => piece.isPrefixOf (c :: r) || occursIn piece r

/-- The text before and the text after the first occurrence of a piece. -/
def splitFirst (piece : List Char) : List Char → Option (List Char × List Char)
  | [] => if piece.isEmpty then some ([], []) else none
  | c :: r =>
    if piece.isPrefixOf (c :: r) then some ([], (c :: r).drop piece.length)
    else (splitFirst piece r).map fun (before, after) => (c :: before, after)

theorem splitFirst_eq_append {piece s before after : List Char}
    (h : splitFirst piece s = some (before, after)) : s = before ++ piece ++ after := by
  induction s generalizing before with
  | nil =>
    unfold splitFirst at h
    split at h
    · cases h
      simp_all
    · simp at h
  | cons c r ih =>
    unfold splitFirst at h
    split at h
    · rename_i hp
      cases h
      obtain ⟨t, ht⟩ := List.isPrefixOf_iff_prefix.1 hp
      simp [← ht]
    · obtain ⟨⟨b, a⟩, hb, he⟩ := Option.map_eq_some_iff.1 h
      cases he
      simp [ih hb]

theorem splitFirst_length {piece s before after : List Char}
    (h : splitFirst piece s = some (before, after)) :
    after.length + piece.length ≤ s.length := by
  rw [splitFirst_eq_append h]
  simp only [List.length_append]
  omega

private def replaceFrom (piece replacement : List Char) : (skip : Nat) → List Char → List Char
  | _, [] => []
  | skip + 1, _ :: r => replaceFrom piece replacement skip r
  | 0, c :: r =>
    if piece.isPrefixOf (c :: r) then
      replacement ++ replaceFrom piece replacement (piece.length - 1) r
    else c :: replaceFrom piece replacement 0 r

/-- Replaces every occurrence of a nonempty piece, from left to right and without overlap. -/
def replaceAll (piece replacement text : List Char) : List Char :=
  replaceFrom piece replacement 0 text

private theorem replaceFrom_append (piece replacement skipped rest : List Char) :
    replaceFrom piece replacement skipped.length (skipped ++ rest) =
      replaceFrom piece replacement 0 rest := by
  induction skipped with
  | nil => rfl
  | cons c skipped ih => exact ih

theorem replaceAll_append_self (c : Char) (piece replacement rest : List Char) :
    replaceAll (c :: piece) replacement (c :: piece ++ rest) =
      replacement ++ replaceAll (c :: piece) replacement rest := by
  have found : (c :: piece).isPrefixOf (c :: (piece ++ rest)) = true :=
    List.isPrefixOf_iff_prefix.2 (List.prefix_append (c :: piece) rest)
  calc
    replaceAll (c :: piece) replacement (c :: (piece ++ rest))
      = replacement ++ replaceFrom (c :: piece) replacement piece.length (piece ++ rest) :=
        if_pos found
    _ = replacement ++ replaceAll (c :: piece) replacement rest :=
        congrArg (replacement ++ ·) (replaceFrom_append (c :: piece) replacement piece rest)

theorem replaceAll_cons_of_absent {piece : List Char} {c : Char} {s : List Char}
    (h : ¬piece <+: c :: s) (replacement : List Char) :
    replaceAll piece replacement (c :: s) = c :: replaceAll piece replacement s :=
  if_neg fun found => h (List.isPrefixOf_iff_prefix.1 found)

def countOf (piece : List Char) : (skip : Nat) → List Char → Nat
  | _, [] => 0
  | skip + 1, _ :: r => countOf piece skip r
  | 0, c :: r =>
    if piece.isPrefixOf (c :: r) then countOf piece (piece.length - 1) r + 1
    else countOf piece 0 r

/-- The text up to a closing character and the text after it. A closing character written twice
stands inside and is returned twice. -/
def splitClose (close : Char) : List Char → Option (List Char × List Char)
  | [] => none
  | [c] => if c = close then some ([], []) else none
  | c :: d :: r =>
    if c = close then
      if d = close then
        (splitClose close r).map fun (inside, rest) => (c :: d :: inside, rest)
      else some ([], d :: r)
    else (splitClose close (d :: r)).map fun (inside, rest) => (c :: inside, rest)

theorem splitClose_eq_append {close : Char} {s inside rest : List Char}
    (h : splitClose close s = some (inside, rest)) : s = inside ++ close :: rest := by
  fun_induction splitClose close s generalizing inside rest with
  | case1 => simp at h
  | case2 => simp_all
  | case3 => simp at h
  | case4 r ih =>
    obtain ⟨⟨i, q⟩, hi, he⟩ := Option.map_eq_some_iff.1 h
    cases he
    simp [ih hi]
  | case5 => simp_all
  | case6 _ _ _ _ ih =>
    obtain ⟨⟨i, q⟩, hi, he⟩ := Option.map_eq_some_iff.1 h
    cases he
    simp [ih hi]

end SemanticLayer.Text
