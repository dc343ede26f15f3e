import SemanticLayer.Proofs.Formula.NormalForm

set_option autoImplicit false

namespace SemanticLayer.Formula

/-- Whether a formula is rendered up to a text that is left, which is not arithmetic. -/
def StopsAt (source : MeasureSource Id) (s o rest : List Char) : Prop :=
  ∃ before, s = before ++ rest ∧
    Reads (fun target _ name => Answered source target name) before o ∧
      ∀ c ∈ rest.head?, isArithmetic c = false

variable {source : MeasureSource Id} {s o rest : List Char}

theorem stopsAt_run (source : MeasureSource Id) (s : List Char) :
    StopsAt source s (arithmeticRun s) (s.dropWhile isArithmetic) := by
  refine ⟨arithmeticRun s, List.takeWhile_append_dropWhile.symm, ?_, fun c first => ?_⟩
  · have arithmetic : ∀ c ∈ arithmeticRun s, isArithmetic c = true :=
      List.all_eq_true.1 List.all_takeWhile
    have read := Reads.arithmetic arithmetic
      (@Reads.nil fun target _ name => Answered source target name)
    rwa [List.append_nil] at read
  · have plain := List.head?_dropWhile_not isArithmetic s
    rw [first] at plain
    simpa using plain

theorem StopsAt.behind {piece text s o rest : List Char} (h : StopsAt source s o rest)
    {whole : List Char} (here : whole.dropWhile isArithmetic = piece ++ s)
    (read : ∀ before o, Reads (fun target _ name => Answered source target name) before o →
      Reads (fun target _ name => Answered source target name) (piece ++ before) (text ++ o)) :
    StopsAt source whole (arithmeticRun whole ++ text ++ o) rest := by
  obtain ⟨before, rfl, reads, plain⟩ := h
  refine ⟨arithmeticRun whole ++ (piece ++ before), ?_, ?_, plain⟩
  · rw [List.append_assoc, List.append_assoc, ← here]
    exact List.takeWhile_append_dropWhile.symm
  · rw [List.append_assoc]
    exact (read before o reads).arithmetic (List.all_eq_true.1 List.all_takeWhile)

theorem stopsAt_of_evaluate (h : ((parse s).evaluate source).run = (o, rest)) :
    StopsAt source s o rest := by
  have whole {t o : List Char} (h : ((parse t).evaluate source).run = (o, [])) :
      Reads (fun target _ name => Answered source target name) t o :=
    reads_iff.2 (renders_of_evaluate (marked_parse t) h)
  fun_induction parse s generalizing o rest with
  | case1 s _ _ after found _ _ ih =>
    obtain ⟨rfl, rfl⟩ | ⟨above, below, text, full, first, full', second, later, rfl⟩ :=
      evaluate_ratio h
    · exact stopsAt_run source s
    obtain ⟨upper, lower, call, divides, shape, rfl, rfl⟩ := ratioArguments_eq_some_iff.1 found
    have stops := (ih later).behind shape fun before o => Reads.ratio divides
      (ne_nil_of_parse full) (whole first) (ne_nil_of_parse full') (whole second)
    simpa only [List.append_assoc] using stops
  | case2 s _ target after found ih =>
    obtain ⟨rfl, rfl⟩ | ⟨name, text, answered, later, rfl⟩ := evaluate_reference h
    · exact stopsAt_run source s
    obtain ⟨call, refers, shape⟩ := refers_of_reference? found
    exact (ih later).behind shape fun before o => Reads.reference refers answered
  | case3 s =>
    cases h
    exact stopsAt_run source s

/-- What is left of a formula is the end of it that is not understood: it starts with what is no
arithmetic, and all that comes before it is rendered completely when it is alone. -/
theorem render_remainder {text rendered remainder : String}
    (h : (render source text).run = .incomplete rendered remainder) :
    ∃ before, Text.trimmed text = before ++ remainder ∧
      (∃ c rest, remainder.toList = c :: rest ∧ isArithmetic c = false) ∧
        (render source before).run = .complete rendered := by
  rw [render, Id.run_bind] at h
  rcases found : ((parse (Text.trim text.toList)).evaluate source).run with ⟨o, _ | ⟨c, rest⟩⟩
  · rw [found] at h
    cases h
  rw [found] at h
  cases h
  obtain ⟨before, shape, read, plain⟩ := stopsAt_of_evaluate found
  refine ⟨String.ofList before, ?_, ⟨c, rest, String.toList_ofList, plain c rfl⟩, ?_⟩
  · rw [Text.trimmed, shape, String.ofList_append]
  · refine render_eq_complete_iff.2 ⟨Text.trim o, ?_, by rw [Text.trim_trim]⟩
    rw [ofText, String.toList_ofList]
    exact read.trim.renders

/-- A division that is understood, and a function that is not. -/
def partialTotal : String := " DIVIDE( [Net Sales], 2 ) - CALCULATE([Total]) "

theorem render_remainder_partialTotal :
    ∃ before, Text.trimmed partialTotal = before ++ "CALCULATE([Total])" ∧
      (∃ c rest, "CALCULATE([Total])".toList = c :: rest ∧ isArithmetic c = false) ∧
        (render fixedSource before).run = .complete "[Measures].[net_sales] / 2 -" :=
  render_remainder (by decide +kernel)

end SemanticLayer.Formula
