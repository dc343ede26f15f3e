import SemanticLayer.Proofs.Formula.Normal
import SemanticLayer.Proofs.Formula.Reading

set_option autoImplicit false

/-!
Formulas that are rendered completely. `Renders` says what such a formula becomes, whatever gives
its references their identifiers; it exists only for formulas that are understood to their end.
-/
namespace SemanticLayer.Formula

open Text (Tight startsFold)

/-- The references of a formula from left to right, as far as it is understood. -/
def targets : Formula → List Reference
  | .stop _ _ => []
  | .reference _ _ target tail => target :: tail.targets
  | .ratio _ _ numerator denominator tail =>
    numerator.targets ++ denominator.targets ++ tail.targets

/-- Whether nothing of a formula is left over and no argument of a division is missing. -/
def Understood : Formula → Prop
  | .stop _ rest => rest = []
  | .reference _ _ _ tail => tail.Understood
  | .ratio _ _ numerator denominator tail =>
    (numerator ≠ .stop [] [] ∧ numerator.Understood) ∧
      (denominator ≠ .stop [] [] ∧ denominator.Understood) ∧ tail.Understood

/-- Whether every step keeps a text that starts with it, which is what is left over when the step
has no answer. -/
def Marked : Formula → Prop
  | .stop _ _ => True
  | .reference _ here _ tail => here ≠ [] ∧ tail.Marked
  | .ratio _ here numerator denominator tail =>
    here ≠ [] ∧ numerator.Marked ∧ denominator.Marked ∧ tail.Marked

theorem marked_parse (s : List Char) : (parse s).Marked := by
  fun_induction parse s with
  | case1 s numerator denominator rest found ihNumerator ihDenominator ihRest =>
    refine ⟨fun empty => ?_, ihNumerator, ihDenominator, ihRest⟩
    have shorter := ratioArguments_length found
    rw [empty] at shorter
    exact Nat.not_lt_zero _ shorter
  | case2 s _ target rest found ih =>
    refine ⟨fun empty => ?_, ih⟩
    have shorter := reference?_length found
    rw [empty] at shorter
    exact Nat.not_lt_zero _ shorter
  | case3 => trivial

/-- The whole text of a formula in which every reference is written as a metric that answers it. -/
inductive Renders (answers : Reference → String → Prop) : Formula → List Char → Prop where
  | stop (run : List Char) : Renders answers (.stop run []) run
  | reference {run here text : List Char} {target : Reference} {name : String} {tail : Formula}
      (answered : answers target name) (rest : Renders answers tail text) :
      Renders answers (.reference run here target tail)
        (run ++ (measureReference name).toList ++ text)
  | ratio {run here above below text : List Char} {numerator denominator tail : Formula}
      (full : numerator ≠ .stop [] []) (upper : Renders answers numerator above)
      (full' : denominator ≠ .stop [] []) (lower : Renders answers denominator below)
      (rest : Renders answers tail text) :
      Renders answers (.ratio run here numerator denominator tail)
        (run ++ parenthesize above ++ [' ', '/', ' '] ++ parenthesize below ++ text)

namespace Renders

variable {answers answers' : Reference → String → Prop} {f : Formula} {text : List Char}

theorem mono (h : Renders answers f text)
    (more : ∀ target ∈ f.targets, ∀ name, answers target name → answers' target name) :
    Renders answers' f text := by
  induction h with
  | stop run => exact .stop run
  | reference answered _ ih =>
    exact .reference (more _ List.mem_cons_self _ answered)
      (ih fun target later => more target (List.mem_cons_of_mem _ later))
  | ratio full _ full' _ _ upper lower rest =>
    refine .ratio full (upper fun target h => ?_) full' (lower fun target h => ?_)
      (rest fun target h => more target (List.mem_append_right _ h))
    · exact more target (List.mem_append_left _ (List.mem_append_left _ h))
    · exact more target (List.mem_append_left _ (List.mem_append_right _ h))

theorem understood (h : Renders answers f text) : f.Understood := by
  induction h with
  | stop run => rfl
  | reference _ _ ih => exact ih
  | ratio full _ full' _ _ upper lower rest => exact ⟨⟨full, upper⟩, ⟨full', lower⟩, rest⟩

theorem answered (h : Renders answers f text) :
    ∀ target ∈ f.targets, ∃ name, answers target name := by
  induction h with
  | stop run => exact fun _ found => nomatch found
  | @reference run here text target name tail answered _ ih =>
    intro other found
    rcases List.mem_cons.1 found with rfl | later
    · exact ⟨name, answered⟩
    · exact ih other later
  | ratio _ _ _ _ _ upper lower rest =>
    intro target found
    rcases List.mem_append.1 found with arguments | later
    · exact (List.mem_append.1 arguments).elim (upper target) (lower target)
    · exact rest target later

end Renders

def ofText (text : String) : Formula := parse (Text.trim text.toList)

/-- A call starts with the keyword of its function and ends with the first closing parenthesis. -/
theorem aggregateCall?_eq_some {s rest : List Char} {call : AggregateCall}
    (h : aggregateCall? s = some (call, rest)) :
    ∃ f : AggregateFunction, startsFold (f.keyword.toList ++ ['(']) s = true ∧
      ∃ before, s = before ++ [')'] ++ rest := by
  simp only [aggregateCall?, Option.bind_eq_bind, Option.bind_eq_some_iff] at h
  obtain ⟨f, found, ⟨body, after⟩, split, _, -, same⟩ := h
  cases same
  have starts : startsFold (f.keyword.toList ++ ['(']) s = true :=
    List.find?_some (p := fun f : AggregateFunction => startsFold (f.keyword.toList ++ ['(']) s)
      found
  refine ⟨f, starts, s.take (f.keyword.length + 1) ++ body, ?_⟩
  have shape := Text.splitFirst_eq_append split
  rw [List.append_assoc, List.append_assoc, ← List.append_assoc body, ← shape,
    List.take_append_drop]

theorem startsFold_keyword {f : AggregateFunction} {s : List Char}
    (h : startsFold (f.keyword.toList ++ ['(']) s = true) :
    (∃ c r, s = c :: r ∧ c.isAlpha = true) ∧ startsFold ratioKeyword s = false := by
  rw [Text.startsFold_iff] at h
  constructor
  · obtain ⟨c, letters, shape⟩ := List.exists_cons_of_ne_nil f.keyword_ne_nil
    obtain ⟨rest, same⟩ := h
    rw [shape] at same
    obtain ⟨d, r, rfl, lower, -⟩ := List.map_eq_cons_iff.1 same.symm
    have letter := f.keyword_letters c (shape ▸ List.mem_cons_self)
    rw [← Text.isAlpha_toLower_iff, ← lower, Text.isAlpha_toLower_iff] at letter
    exact ⟨d, r, rfl, letter⟩
  -- Two starts of one text are starts of each other, which the keywords are not.
  · rw [← Bool.not_eq_true, Text.startsFold_iff]
    intro ratio
    rcases List.prefix_or_prefix_of_prefix h ratio with sooner | later
    · cases f <;> exact absurd sooner (by decide)
    · cases f <;> exact absurd later (by decide)

def AggregateCall.Shaped (call : AggregateCall) : Prop :=
  call.column = none ↔ call.function = .countRows

def Reference.Shaped : Reference → Prop
  | .measure _ => True
  | .aggregate call => call.Shaped

theorem shaped_of_call? {f : AggregateFunction} {body : List Char} {call : AggregateCall}
    (h : f.call? body = some call) : call.Shaped := by
  unfold AggregateFunction.call? at h
  split at h
  · cases h
  split at h
  · rename_i rows
    dsimp only at h
    split at h
    · cases h
    · cases h
      exact iff_of_true rfl rows
  · rename_i other
    split at h
    · obtain ⟨⟨table, column⟩, -, same⟩ := Option.map_eq_some_iff.1 h
      cases same
      exact iff_of_false (Option.some_ne_none _) other
    · cases h

theorem shaped_of_aggregateCall? {s rest : List Char} {call : AggregateCall}
    (h : aggregateCall? s = some (call, rest)) : call.Shaped := by
  simp only [aggregateCall?, Option.bind_eq_bind, Option.bind_eq_some_iff] at h
  obtain ⟨f, -, ⟨body, after⟩, -, c, called, same⟩ := h
  cases same
  exact shaped_of_call? called

theorem shaped_of_singleAggregate {text : List Char} {call : AggregateCall}
    (h : singleAggregate text = some call) : call.Shaped := by
  rw [singleAggregate] at h
  split at h
  · rename_i found
    cases h
    exact shaped_of_aggregateCall? found
  · cases h

theorem shaped_of_mem_targets (s : List Char) : ∀ target ∈ (parse s).targets, target.Shaped := by
  fun_induction parse s with
  | case1 s numerator denominator rest found ihNumerator ihDenominator ihRest =>
    intro target among
    rcases List.mem_append.1 among with arguments | later
    · exact (List.mem_append.1 arguments).elim (ihNumerator target) (ihDenominator target)
    · exact ihRest target later
  | case2 s _ target rest found ih =>
    intro other among
    rcases List.mem_cons.1 among with rfl | later
    · rw [reference?] at found
      split at found
      · cases found
        trivial
      · obtain ⟨⟨call, after⟩, called, same⟩ := Option.map_eq_some_iff.1 found
        cases same
        exact shaped_of_aggregateCall? called
    · exact ih other later
  | case3 => exact fun _ among => absurd among List.not_mem_nil

theorem tight_of_aggregateCall? {s : List Char} {call : AggregateCall}
    (h : aggregateCall? s = some (call, [])) : Tight s := by
  obtain ⟨f, starts, before, shape⟩ := aggregateCall?_eq_some h
  obtain ⟨⟨c, r, first, letter⟩, -⟩ := startsFold_keyword starts
  rw [List.append_nil] at shape
  exact ⟨⟨c, r, first, Text.isBlank_of_isAlpha letter⟩, before, ')', shape, by decide⟩

theorem parse_aggregateCall {s rest : List Char} {call : AggregateCall}
    (h : aggregateCall? s = some (call, rest)) :
    parse s = .reference [] s (.aggregate call) (parse rest) := by
  obtain ⟨f, starts, -⟩ := aggregateCall?_eq_some h
  obtain ⟨⟨c, r, rfl, letter⟩, noRatio⟩ := startsFold_keyword starts
  obtain ⟨dropped, taken⟩ := dropWhile_of_not_isArithmetic (isArithmetic_of_isAlpha letter) r
  have noBracket : bracketName (c :: r) = none := by
    rw [bracketName]
    rintro tail same
    cases same
    exact absurd letter (by decide)
  have ratio : ratioArguments (c :: r) = none := by
    rw [ratioArguments, noRatio, if_neg Bool.false_ne_true]
  have found : reference? (c :: r) = some (.aggregate call, rest) := by
    rw [reference?, noBracket, h]
    rfl
  rw [parse_eq, dropped, taken, ratio, found]

theorem ofText_of_singleAggregate {text : List Char} {call : AggregateCall}
    (h : singleAggregate text = some call) :
    ∃ here, ofText (String.ofList (normalize text)) =
      .reference [] here (.aggregate call) (.stop [] []) := by
  have alone : aggregateCall? (normalize text) = some (call, []) := by
    rw [singleAggregate] at h
    split at h
    · rename_i found
      cases h
      exact found
    · cases h
  refine ⟨normalize text, ?_⟩
  rw [ofText, String.toList_ofList, Text.trim_tight (tight_of_aggregateCall? alone),
    parse_aggregateCall alone, parse_nil]

end SemanticLayer.Formula
