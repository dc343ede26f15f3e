import SemanticLayer.Proofs.Arithmetic.Tree

set_option autoImplicit false

/-!
Reading tokens by precedence. Operators wait on a stack until an operator that binds no tighter, or
the end of their group, closes their right operand.

`readTokens_tokens` says that a well-formed tree is what its tokens are read as, and
`wellFormed_of_readTokens` that nothing else is ever read.
-/
namespace SemanticLayer.Arithmetic

variable {α : Type}

/-- What waits for the operand that is being read. -/
inductive Frame (α : Type) where
  | opening
  | negation
  | operand (op : Operator) (left : Arithmetic α)
  | numerator
  | denominator (numerator : Arithmetic α)

namespace Frame

/-- The least level of an operand that the frame keeps. -/
def after (order : PowerOrder) : Frame α → Nat
  | negation => 3
  | operand op _ => op.after order
  | _ => 0

/-- The tree of a frame whose operand is complete. The frames of groups and calls are left to the
tokens that end these. -/
def fill : Frame α → Arithmetic α → Arithmetic α
  | negation, e => .negate e
  | operand op left, e => .binary op left e
  | _, e => e

theorem after_le (order : PowerOrder) (f : Frame α) : f.after order ≤ 5 := by
  cases f with
  | operand op _ => exact op.after_le order
  | negation => exact show 3 ≤ 5 by decide
  | opening | numerator | denominator _ => exact Nat.zero_le 5

end Frame

def innermost (order : PowerOrder) : List (Frame α) → Nat
  | [] => 0
  | f :: _ => f.after order

/-- Fills the frames whose operand ends before an operator of a level. -/
def reduce (order : PowerOrder) (level : Nat) (e : Arithmetic α) :
    List (Frame α) → Arithmetic α × List (Frame α)
  | [] => (e, [])
  | f :: frames =>
    if level < f.after order then reduce order level (f.fill e) frames else (e, f :: frames)

def readFrom (order : PowerOrder) :
    Option (Arithmetic α) → List (Frame α) → List (Token α) → Option (Arithmetic α)
  | none, _, [] => none
  | none, frames, .number n :: rest => readFrom order (some (.number n)) frames rest
  | none, frames, .reference r :: rest => readFrom order (some (.reference r)) frames rest
  | none, frames, .operator .sub :: rest => readFrom order none (.negation :: frames) rest
  | none, frames, .opening :: rest => readFrom order none (.opening :: frames) rest
  | none, frames, .divide :: rest => readFrom order none (.numerator :: frames) rest
  | none, _, _ => none
  | some e, frames, [] =>
    match reduce order 0 e frames with
    | (e, []) => some e
    | _ => none
  | some e, frames, .operator op :: rest =>
    match reduce order op.level e frames with
    | (left, frames) => readFrom order none (.operand op left :: frames) rest
  | some e, frames, .comma :: rest =>
    match reduce order 0 e frames with
    | (e, .numerator :: frames) => readFrom order none (.denominator e :: frames) rest
    | _ => none
  | some e, frames, .closing :: rest =>
    match reduce order 0 e frames with
    | (e, .opening :: frames) => readFrom order (some (.group e)) frames rest
    | (e, .denominator numerator :: frames) =>
      readFrom order (some (.ratio numerator e)) frames rest
    | _ => none
  | some _, _, _ => none

def readTokens (order : PowerOrder) (s : List (Token α)) : Option (Arithmetic α) :=
  readFrom order none [] s

theorem reduce_of_innermost_le {order : PowerOrder} {level : Nat} {frames : List (Frame α)}
    (e : Arithmetic α) (h : innermost order frames ≤ level) :
    reduce order level e frames = (e, frames) := by
  cases frames with
  | nil => rfl
  | cons f frames => exact if_neg (Nat.not_lt.2 h)

/-- What may follow an operand: no operator that would take a part of it away. -/
def Ends (order : PowerOrder) (level : Nat) (rest : List (Token α)) : Prop :=
  ∀ op after, rest = .operator op :: after → op.before order ≤ level

theorem Ends.mono {order : PowerOrder} {level other : Nat} {rest : List (Token α)}
    (h : Ends order level rest) (le : level ≤ other) : Ends order other rest :=
  fun op after eq => (h op after eq).trans le

/-- A frame whose operand ends is filled, whatever token comes next. -/
theorem readFrom_fill {order : PowerOrder} {f : Frame α} {e : Arithmetic α}
    {rest : List (Token α)} (positive : 0 < f.after order)
    (ends : ∀ op after, rest = .operator op :: after → op.level < f.after order)
    (frames : List (Frame α)) :
    readFrom order (some e) (f :: frames) rest =
      readFrom order (some (f.fill e)) frames rest := by
  cases rest with
  | nil => simp only [readFrom, reduce, if_pos positive]
  | cons token rest =>
    cases token with
    | operator op => simp only [readFrom, reduce, if_pos (ends op rest rfl)]
    | comma | closing => simp only [readFrom, reduce, if_pos positive]
    | number _ | reference _ | opening | divide => rfl

/-- The tokens of a tree leave the tree as an operand, wherever it may stand. -/
theorem readFrom_tokens {order : PowerOrder} {e : Arithmetic α} (h : e.WellFormed order)
    (frames : List (Frame α)) (rest : List (Token α))
    (fits : innermost order frames ≤ e.leading) (ends : Ends order e.trailing rest) :
    readFrom order none frames (e.tokens ++ rest) = readFrom order (some e) frames rest := by
  -- On the tree, for all frames and all rests: an operand is read under the frames that its parent
  -- puts in front of it, and before the tokens that its parent puts behind it.
  induction e generalizing frames rest with
  | number n => rfl
  | reference r => rfl
  | group e ih =>
    have inner := ih h (.opening :: frames) (.closing :: rest)
      (Nat.zero_le _) (by intro op after eq; cases eq)
    simp only [tokens, List.cons_append, List.append_assoc, List.nil_append, readFrom, inner]
    rw [reduce_of_innermost_le e (Nat.zero_le _)]
  | negate e ih =>
    have inner := ih h.2 (.negation :: frames) rest h.1
      (ends.mono (Nat.min_le_right _ _))
    simp only [tokens, List.cons_append, readFrom, inner]
    refine readFrom_fill (f := .negation) (show 0 < 3 by decide) ?_ frames
    intro op after eq
    exact (op.level_lt_three_iff order).2 ((ends op after eq).trans (Nat.min_le_left _ _))
  | binary op left right ihl ihr =>
    obtain ⟨before, after, hl, hr⟩ := h
    have loose : op.level ≤ left.leading :=
      ((op.level_le_before order).trans before).trans left.trailing_le_leading
    have first := ihl hl frames (.operator op :: (right.tokens ++ rest))
      (fits.trans loose) (by intro next tail eq; cases eq; exact before)
    have second := ihr hr (.operand op left :: frames) rest after
      (ends.mono (Nat.min_le_right _ _))
    simp only [tokens, List.append_assoc, List.cons_append, first, readFrom]
    have kept : reduce order op.level left frames = (left, frames) :=
      reduce_of_innermost_le left fits
    rw [kept, second]
    refine readFrom_fill (f := .operand op left) (op.after_pos order) ?_ frames
    intro next tail eq
    exact (op.level_lt_after_iff order next).2 ((ends next tail eq).trans (Nat.min_le_left _ _))
  | ratio numerator denominator ihn ihd =>
    have first := ihn h.1 (.numerator :: frames)
      (.comma :: (denominator.tokens ++ .closing :: rest)) (Nat.zero_le _)
      (by intro op after eq; cases eq)
    have second := ihd h.2 (.denominator numerator :: frames) (.closing :: rest)
      (Nat.zero_le _) (by intro op after eq; cases eq)
    simp only [tokens, List.cons_append, List.append_assoc, List.nil_append, readFrom, first]
    rw [reduce_of_innermost_le numerator (Nat.zero_le _)]
    simp only [second, readFrom]
    rw [reduce_of_innermost_le denominator (Nat.zero_le _)]

theorem readTokens_tokens {order : PowerOrder} {e : Arithmetic α} (h : e.WellFormed order) :
    readTokens order e.tokens = some e := by
  have whole := readFrom_tokens h [] [] (Nat.zero_le _)
    (by intro op after eq; cases eq)
  simpa only [readTokens, List.append_nil, readFrom, reduce] using whole

/-- Whether frames hold well-formed operands, each loose enough for the frame around it. -/
def Sound (order : PowerOrder) : List (Frame α) → Prop
  | [] => True
  | .operand op left :: frames =>
    op.before order ≤ left.trailing ∧ left.WellFormed order ∧
      innermost order frames ≤ op.level ∧ Sound order frames
  | .denominator numerator :: frames => numerator.WellFormed order ∧ Sound order frames
  | _ :: frames => Sound order frames

theorem innermost_le (order : PowerOrder) (frames : List (Frame α)) :
    innermost order frames ≤ 5 := by
  cases frames with
  | nil => exact Nat.zero_le 5
  | cons f frames => exact f.after_le order

theorem reduce_sound {order : PowerOrder} {level : Nat} {e : Arithmetic α}
    {frames : List (Frame α)} (h : e.WellFormed order) (fits : innermost order frames ≤ e.leading)
    (sound : Sound order frames) :
    (reduce order level e frames).1.WellFormed order ∧
      Sound order (reduce order level e frames).2 ∧
      innermost order (reduce order level e frames).2 ≤ level := by
  induction frames generalizing e with
  | nil => exact ⟨h, trivial, Nat.zero_le _⟩
  | cons f frames ih =>
    unfold reduce
    split
    · rename_i closes
      cases f with
      | negation => exact ih ⟨fits, h⟩ (innermost_le order frames) sound
      | operand op left => exact ih ⟨sound.1, fits, sound.2.1, h⟩ sound.2.2.1 sound.2.2.2
      | opening | numerator | denominator _ => exact absurd closes (Nat.not_lt_zero level)
    · rename_i stays
      exact ⟨h, sound, Nat.not_lt.1 stays⟩

theorem before_le_trailing_reduce {order : PowerOrder} {op : Operator} {e : Arithmetic α}
    (frames : List (Frame α)) (h : op.before order ≤ e.trailing) :
    op.before order ≤ (reduce order op.level e frames).1.trailing := by
  induction frames generalizing e with
  | nil => exact h
  | cons f frames ih =>
    unfold reduce
    split
    · rename_i closes
      cases f with
      | negation => exact ih (le_min ((op.level_lt_three_iff order).1 closes) h)
      | operand other left => exact ih (le_min ((other.level_lt_after_iff order op).1 closes) h)
      | opening | numerator | denominator _ => exact absurd closes (Nat.not_lt_zero _)
    · exact h

/-- Whether the operand just read, if there is one, is well formed and complete in itself. -/
def Whole (order : PowerOrder) : Option (Arithmetic α) → Prop
  | none => True
  | some e => e.WellFormed order ∧ e.leading = 5 ∧ e.trailing = 5

theorem Whole.reduced {order : PowerOrder} {e : Arithmetic α} {frames : List (Frame α)}
    (whole : Whole order (some e)) (sound : Sound order frames) (level : Nat) :
    (reduce order level e frames).1.WellFormed order ∧
      Sound order (reduce order level e frames).2 ∧
      innermost order (reduce order level e frames).2 ≤ level :=
  reduce_sound whole.1 (whole.2.1 ▸ innermost_le order frames) sound

theorem wellFormed_of_readFrom {order : PowerOrder} {s : List (Token α)}
    {result : Arithmetic α} (operand : Option (Arithmetic α)) (frames : List (Frame α))
    (whole : Whole order operand) (sound : Sound order frames)
    (h : readFrom order operand frames s = some result) : result.WellFormed order := by
  -- On the tokens. A step keeps `Whole` of the operand and `Sound` of the frames, so each case has
  -- to name the operand and the frames that it goes on with, and nothing else.
  induction s generalizing operand frames with
  | nil =>
    cases operand with
    | none => cases h
    | some e =>
      simp only [readFrom] at h
      split at h
      · rename_i eq
        cases h
        exact (eq ▸ whole.reduced sound 0).1
      · cases h
  | cons token rest ih =>
    cases operand with
    | none =>
      cases token with
      | number n => exact ih (some (.number n)) frames ⟨trivial, rfl, rfl⟩ sound h
      | reference r => exact ih (some (.reference r)) frames ⟨trivial, rfl, rfl⟩ sound h
      | opening => exact ih none (.opening :: frames) trivial sound h
      | divide => exact ih none (.numerator :: frames) trivial sound h
      | operator op =>
        cases op with
        | sub => exact ih none (.negation :: frames) trivial sound h
        | add | mul | div | pow => cases h
      | closing | comma => cases h
    | some e =>
      cases token with
      | operator op =>
        have follows := before_le_trailing_reduce frames (whole.2.2 ▸ op.before_le order)
        obtain ⟨formed, sound, loose⟩ := whole.reduced sound op.level
        exact ih none
          (.operand op (reduce order op.level e frames).1 :: (reduce order op.level e frames).2)
          trivial ⟨follows, formed, loose, sound⟩ h
      | comma =>
        have reduced := whole.reduced sound 0
        simp only [readFrom] at h
        split at h
        · rename_i inner outer eq
          rw [eq] at reduced
          exact ih none (.denominator inner :: outer) trivial
            ⟨reduced.1, reduced.2.1⟩ h
        · cases h
      | closing =>
        have reduced := whole.reduced sound 0
        simp only [readFrom] at h
        split at h
        · rename_i inner outer eq
          rw [eq] at reduced
          exact ih (some (.group inner)) outer ⟨reduced.1, rfl, rfl⟩
            reduced.2.1 h
        · rename_i inner numerator outer eq
          rw [eq] at reduced
          exact ih (some (.ratio numerator inner)) outer
            ⟨⟨reduced.2.1.1, reduced.1⟩, rfl, rfl⟩ reduced.2.1.2 h
        · cases h
      | number _ | reference _ | opening | divide => cases h

theorem wellFormed_of_readTokens {order : PowerOrder} {s : List (Token α)} {e : Arithmetic α}
    (h : readTokens order s = some e) : e.WellFormed order :=
  wellFormed_of_readFrom none [] trivial trivial h

end SemanticLayer.Arithmetic
