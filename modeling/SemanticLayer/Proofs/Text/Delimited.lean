import SemanticLayer.Proofs.Text.Search

set_option autoImplicit false

namespace SemanticLayer.Text

/-- A text in which a character is written twice wherever it stands. -/
inductive Paired (close : Char) : List Char → Prop where
  | nil : Paired close []
  | char {c : Char} {s : List Char} (other : c ≠ close) (rest : Paired close s) :
      Paired close (c :: s)
  | pair {s : List Char} (rest : Paired close s) : Paired close (close :: close :: s)

variable {close : Char} {s inside rest : List Char}

theorem Paired.append_of_notMem (free : close ∉ s) (h : Paired close rest) :
    Paired close (s ++ rest) := by
  induction s with
  | nil => exact h
  | cons c s ih =>
    obtain ⟨other, free⟩ := List.ne_and_not_mem_of_not_mem_cons free
    exact .char (Ne.symm other) (ih free)

theorem Paired.splitClose (h : Paired close inside) (apart : rest.head? ≠ some close) :
    splitClose close (inside ++ close :: rest) = some (inside, rest) := by
  induction h with
  | nil => exact splitClose_of_head apart
  | char other _ ih => exact splitClose_cons_of_ne other ih
  | pair _ ih => simp [Text.splitClose, ih]

theorem paired_of_splitClose (h : splitClose close s = some (inside, rest)) :
    Paired close inside ∧ rest.head? ≠ some close := by
  fun_induction splitClose close s generalizing inside rest with
  | case1 => simp at h
  | case2 =>
    cases h
    exact ⟨.nil, by simp⟩
  | case3 => simp at h
  | case4 r ih =>
    obtain ⟨⟨i, q⟩, found, same⟩ := Option.map_eq_some_iff.1 h
    cases same
    exact ⟨.pair (ih found).1, (ih found).2⟩
  | case5 d r other =>
    cases h
    exact ⟨.nil, by simpa using other⟩
  | case6 c d r other ih =>
    obtain ⟨⟨i, q⟩, found, same⟩ := Option.map_eq_some_iff.1 h
    cases same
    exact ⟨.char other (ih found).1, (ih found).2⟩

theorem splitClose_eq_some_iff :
    splitClose close s = some (inside, rest) ↔
      Paired close inside ∧ rest.head? ≠ some close ∧ s = inside ++ close :: rest := by
  constructor
  · intro found
    obtain ⟨paired, apart⟩ := paired_of_splitClose found
    exact ⟨paired, apart, splitClose_eq_append found⟩
  · rintro ⟨paired, apart, rfl⟩
    exact paired.splitClose apart

def doubled (close : Char) (s : List Char) : List Char :=
  s.flatMap fun c => if c = close then [c, c] else [c]

theorem doubled_cons_self (s : List Char) :
    doubled close (close :: s) = close :: close :: doubled close s := by
  simp [doubled]

theorem doubled_cons_of_ne {c : Char} (other : c ≠ close) (s : List Char) :
    doubled close (c :: s) = c :: doubled close s := by
  simp [doubled, other]

theorem paired_doubled (close : Char) (s : List Char) : Paired close (doubled close s) := by
  induction s with
  | nil => exact .nil
  | cons c s ih =>
    by_cases same : c = close
    · rw [same, doubled_cons_self]
      exact .pair ih
    · rw [doubled_cons_of_ne same]
      exact .char same ih

theorem replaceAll_doubled (close : Char) (s : List Char) :
    replaceAll [close, close] [close] (doubled close s) = s := by
  induction s with
  | nil => rfl
  | cons c s ih =>
    by_cases same : c = close
    · rw [same, doubled_cons_self]
      exact (replaceAll_append_self close [close] [close] _).trans (congrArg (close :: ·) ih)
    · rw [doubled_cons_of_ne same, replaceAll_cons_of_absent, ih]
      intro start
      exact same (List.cons_prefix_cons.1 start).1.symm

theorem head?_doubled (close : Char) (s : List Char) : (doubled close s).head? = s.head? := by
  cases s with
  | nil => rfl
  | cons c s =>
    by_cases same : c = close
    · rw [same, doubled_cons_self]
      rfl
    · rw [doubled_cons_of_ne same]
      rfl

theorem mem_doubled {c : Char} : c ∈ doubled close s ↔ c ∈ s := by
  rw [doubled, List.mem_flatMap]
  constructor
  · rintro ⟨d, hd, found⟩
    split at found <;> simp_all
  · intro found
    refine ⟨c, found, ?_⟩
    split <;> simp

end SemanticLayer.Text
