import SemanticLayer.Proofs.Formula.Reading
import SemanticLayer.Proofs.Identifier.Word

set_option autoImplicit false

namespace SemanticLayer.Formula

open Text (Blank Tight)
open Arithmetic (Expression Opened Operand Written)

variable {S : Type}

def Answers (source : MeasureSource (StateM S)) (r : Reference) (name : String) : Prop :=
  ∃ σ, ((r.resolve source).run σ).1 = some name

/-- Whether a source names every reference, by letters, digits and underscores. -/
def Resolves (source : MeasureSource (StateM S)) : Prop :=
  ∀ (r : Reference) (σ : S), ∃ name σ', (r.resolve source).run σ = (some name, σ') ∧
    Identifier.IsWord name

abbrev FormulaText : Arithmetic Reference → List Char → Prop := Written Spelling IsDivision

theorem FormulaText.tight {e : Arithmetic Reference} {s : List Char} (h : FormulaText e s) :
    Tight s :=
  Written.tight (fun _ _ => Spelling.tight)
    (fun _ hk => Text.tight_of_isAlpha hk.ne_nil hk.letters) h

theorem FormulaText.passes {e : Arithmetic Reference} {s : List Char} (h : FormulaText e s) :
    Passes s :=
  Passes.written (fun _ _ => Spelling.passes) (fun _ hk => passes_letters hk.letters) h

/-- A formula becomes an expression in which its division calls are quotients. -/
theorem exists_translates {source : MeasureSource (StateM S)} (resolves : Resolves source)
    {e : Arithmetic Reference} {s : List Char} (h : FormulaText e s) (σ : S) :
    ∃ o e' σ', Opened (Answers source) e e' ∧ Expression e' o ∧ Translates source s o σ σ' := by
  -- The parts are answered from left to right, each in the state that the one before has left.
  induction h generalizing σ with
  | number n =>
    exact ⟨n.text, _, σ, .number n, .number n, .arithmetic
      (fun c hc => isArithmetic_of_isNumeralChar (n.isNumeralChar c hc)) σ⟩
  | @reference r s h =>
    obtain ⟨name, σ', answer, word⟩ := resolves r σ
    have answers : Answers source r name := ⟨σ, by rw [answer]⟩
    have metric : Arithmetic.MetricText name (measureReference name).toList :=
      ⟨word.notMem rfl (by decide), rfl⟩
    exact ⟨_, _, σ', .reference answers, .reference metric, .reference h answer⟩
  | @group e s before after _ hb ha ih =>
    obtain ⟨o, e', σ', opened, written, inner⟩ := ih σ
    have opening : Translates source ['('] ['('] σ σ := .char rfl σ
    have run := (opening.append (((Translates.blank hb σ).append inner).append
      (.blank ha σ'))).append (.char (c := ')') rfl σ')
    exact ⟨_, _, σ', .group opened, .group written hb ha, run⟩
  | @negate e s gap _ hg ih =>
    obtain ⟨o, e', σ', opened, written, inner⟩ := ih σ
    have sign : Translates source ['-'] ['-'] σ σ := .char rfl σ
    have run := sign.append ((Translates.blank hg σ).append inner)
    exact ⟨_, _, σ', .negate opened, written.minus hg, run⟩
  | @binary op l r s t before after _ _ hb ha ihl ihr =>
    obtain ⟨o, l', σ₁, openedLeft, left, first⟩ := ihl σ
    obtain ⟨p, r', σ₂, openedRight, right, second⟩ := ihr σ₁
    have symbol : isArithmetic op.symbol = true := by cases op <;> rfl
    have run := (first.append (.blank hb σ₁)).append
      ((Translates.char symbol σ₁).append ((Translates.blank ha σ₁).append second))
    by_cases product : op = .mul
    · subst product
      exact ⟨_, _, σ₂, .product openedLeft openedRight, left.times right hb ha, run⟩
    · exact ⟨_, _, σ₂, .binary product openedLeft openedRight, left.binary right hb ha, run⟩
  | @ratio n d keyword s t g₁ g₂ g₃ g₄ hk hn hd h₁ h₂ h₃ h₄ ihn ihd =>
    obtain ⟨o, n', σ₁, openedAbove, above, first⟩ := ihn σ
    obtain ⟨p, d', σ₂, openedBelow, below, second⟩ := ihd σ₁
    obtain ⟨up, isUp, writtenUp⟩ := expression_parenthesize above
    obtain ⟨down, isDown, writtenDown⟩ := expression_parenthesize below
    have space : Blank [' '] := fun c hc => by rw [List.mem_singleton.1 hc]; rfl
    have written : Expression (.binary .div up down)
        (parenthesize o ++ [' ', '/', ' '] ++ parenthesize p) := by
      simpa [Operator.symbol] using
        @Written.binary _ _ _ .div _ _ _ _ _ _ writtenUp writtenDown space space
    have run := Translates.ratio hk (FormulaText.passes hn) (FormulaText.passes hd)
      (FormulaText.tight hn) (FormulaText.tight hd) h₁ h₂ h₃ h₄ first second
    exact ⟨_, _, σ₂, .ratio openedAbove openedBelow isUp isDown, written, run⟩

theorem render_written {source : MeasureSource (StateM S)} (resolves : Resolves source)
    {e : Arithmetic Reference} {s before after : List Char} (h : FormulaText e s)
    (hb : Blank before) (ha : Blank after) (σ : S) :
    ∃ o e' σ', (render source (String.ofList (before ++ s ++ after))).run σ =
      (.complete (String.ofList o), σ') ∧ Opened (Answers source) e e' ∧ Expression e' o := by
  obtain ⟨o, e', σ', opened, written, translates⟩ := exists_translates resolves h σ
  have run := translates.run [] (by simp)
  rw [List.append_nil, parse_nil] at run
  have whole : ((parse s).evaluate source).run σ = ((o, []), σ') := by
    rw [run]
    exact congrArg (fun known => ((known, []), σ')) (List.append_nil o)
  refine ⟨o, e', σ', ?_, opened, written⟩
  rw [render, String.toList_ofList, Text.trim_of_tight (FormulaText.tight h) hb ha,
    run_bind_eq whole]
  simp only [Text.trim_tight (tight_expression written)]
  rfl

/-- Every formula is rendered completely. Read back, the expression has the formula's division
calls as quotients exactly when no call is divided by, raised to a power or an exponent; then it
is worth what the formula is worth, for all values of the references. -/
theorem render_preserves_value {source : MeasureSource (StateM S)} (resolves : Resolves source)
    (order : PowerOrder) {e : Arithmetic Reference} (formed : e.WellFormed order)
    {text : String} {s before after : List Char} (layout : text.toList = before ++ s ++ after)
    (written : FormulaText e s) (hb : Blank before) (ha : Blank after) (σ : S) :
    ∃ expression σ', (render source text).run σ = (.complete expression, σ') ∧
      (e.Grouped → ∃ e', Arithmetic.read? order expression = some e' ∧
        ∀ (worth : Reference → ℚ) (worth' : String → ℚ),
          (∀ r name, Answers source r name → worth' name = worth r) →
            e'.value worth' = e.value worth) ∧
      ((∃ e', Arithmetic.read? order expression = some e' ∧ Opened (Answers source) e e') ↔
        e.Grouped) := by
  obtain ⟨o, e', σ', run, opened, expression⟩ := render_written resolves written hb ha σ
  rw [← layout, String.ofList_toList] at run
  have read (grouped : e.Grouped) : Arithmetic.read? order (String.ofList o) = some e' :=
    Arithmetic.read?_of_wellFormed expression (opened.wellFormed formed grouped).1
  refine ⟨String.ofList o, σ', run, fun grouped => ?_, ?_, fun grouped => ?_⟩
  · exact ⟨e', read grouped, fun worth worth' agree => opened.value_eq agree⟩
  -- Whatever is read is well formed, and quotients in a well-formed tree can only come from a
  -- grouped one.
  · rintro ⟨other, found, same⟩
    obtain ⟨tokens, -, parsed⟩ := Option.bind_eq_some_iff.1 found
    exact Arithmetic.grouped_of_opened same (Arithmetic.wellFormed_of_readTokens parsed)
  · exact ⟨e', read grouped, opened⟩

/-- Names every measure by its words and every aggregation by those of its table and column. -/
def wordSource : MeasureSource (StateM Unit) where
  measure name := pure (some (Identifier.sanitize name))
  aggregate call := pure (some (Identifier.sanitize (call.table ++ " " ++ call.column.getD "")))

theorem resolves_wordSource : Resolves wordSource := by
  intro r σ
  cases r with
  | measure name => exact ⟨_, σ, rfl, Identifier.isWord_sanitize name⟩
  | aggregate call => exact ⟨_, σ, rfl, Identifier.isWord_sanitize _⟩

def scaledRatio : Arithmetic Reference :=
  .binary .mul (.number ⟨['2'], rfl⟩)
    (.ratio (.reference (.measure (String.ofList ['A'])))
      (.binary .add (.reference (.measure (String.ofList ['B']))) (.number ⟨['1'], rfl⟩)))

theorem render_preserves_value_scaledRatio :
    ∃ expression σ' e', (render wordSource " 2 * Divide( [A], [B]+1 )").run () =
        (.complete expression, σ') ∧
      Arithmetic.read? .fromLeft expression = some e' ∧
        ∀ (worth : Reference → ℚ) (worth' : String → ℚ),
          (∀ r name, Answers wordSource r name → worth' name = worth r) →
            e'.value worth' = scaledRatio.value worth := by
  have space : Blank [' '] := fun c hc => by rw [List.mem_singleton.1 hc]; rfl
  have name {c : Char} (h : isPlain c = true) : IsName [c] := fun d hd => by
    rwa [List.mem_singleton.1 hd]
  have below : FormulaText (.binary .add _ _) _ := .binary
    (.reference (Spelling.measure (name (c := 'B') rfl))) (.number ⟨['1'], rfl⟩) Blank.nil Blank.nil
  have keyword : IsDivision "Divide".toList := rfl
  have ratio := Written.ratio keyword
    (.reference (Spelling.measure (name (c := 'A') rfl))) below space Blank.nil space space
  have written : FormulaText scaledRatio "2 * Divide( [A], [B]+1 )".toList :=
    .binary (.number ⟨['2'], rfl⟩) ratio space space
  have formed : scaledRatio.WellFormed .fromLeft := by
    simp [scaledRatio, Arithmetic.WellFormed, Arithmetic.leading, Arithmetic.trailing,
      Operator.before, Operator.after, Operator.level]
  have layout : " 2 * Divide( [A], [B]+1 )".toList =
      [' '] ++ "2 * Divide( [A], [B]+1 )".toList ++ [] := rfl
  obtain ⟨expression, σ', run, value, -⟩ := render_preserves_value resolves_wordSource .fromLeft
    formed layout written space Blank.nil ()
  obtain ⟨e', read, same⟩ := value (by simp [scaledRatio, Arithmetic.Grouped,
    Arithmetic.isQuotient])
  exact ⟨expression, σ', e', run, read, same⟩

/-- A call that is divided by falls apart: `8 / (4 / 2)` is 4 and `8 / 4 / 2` is 1. -/
example : ((render wordSource "8 / DIVIDE(4, 2)").run ()).1 = .complete "8 / 4 / 2" := by
  decide +kernel

end SemanticLayer.Formula
