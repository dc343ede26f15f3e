import SemanticLayer.Proofs.Text.Search
import SemanticLayer.Settings.Environment

set_option autoImplicit false

namespace SemanticLayer.Environment

inductive Piece where
  | text (s : List Char)
  | braced (name : List Char)
  | bare (name : List Char)
  | dollar
  deriving DecidableEq

namespace Piece

def chars : Piece → List Char
  | text s => s
  | braced name => '$' :: '{' :: (name ++ ['}'])
  | bare name => '$' :: name
  | dollar => ['$']

/-- Whether a piece ends where its writer meant it to, before some other text. -/
def Ends (rest : List Char) : Piece → Prop
  | text s => '$' ∉ s
  | braced name => '}' ∉ name
  | bare name => name ≠ [] ∧ (∀ c ∈ name, isNameChar c = true) ∧
      ∀ c ∈ rest.head?, isNameChar c = false
  | dollar => ∀ c ∈ rest.head?, c ≠ '{' ∧ isNameChar c = false

instance (rest : List Char) : DecidablePred (Ends rest)
  | text s => inferInstanceAs (Decidable ('$' ∉ s))
  | braced name => inferInstanceAs (Decidable ('}' ∉ name))
  | bare name =>
    decidable_of_iff (name ≠ [] ∧ name.all isNameChar ∧ rest.head?.all (!isNameChar ·))
      (by simp [Ends, Option.all_eq_true])
  | dollar =>
    decidable_of_iff (rest.head?.all fun c => c ≠ '{' && !isNameChar c)
      (by simp [Ends, Option.all_eq_true])

def reference? : Piece → Option String
  | braced name => some (String.ofList name)
  | bare name => some (String.ofList name)
  | text _ => none
  | dollar => none

def unset? (environment : Environment) (piece : Piece) : Option String :=
  piece.reference?.filter fun name => (environment.value? name).isNone

def value (environment : Environment) : Piece → String
  | text s => String.ofList s
  | braced name => (environment.value? (String.ofList name)).getD ""
  | bare name => (environment.value? (String.ofList name)).getD ""
  | dollar => "$"

def segments : Piece → List Segment
  | text s => s.map .literal
  | braced name => [.variable (String.ofList name)]
  | bare name => [.variable (String.ofList name)]
  | dollar => [.literal '$']

end Piece

def render (template : List Piece) : List Char := template.flatMap Piece.chars

/-- Every piece can be told from what is written after it. -/
def WellFormed : List Piece → Prop
  | [] => True
  | piece :: rest => piece.Ends (render rest) ∧ WellFormed rest

instance decidableWellFormed : DecidablePred WellFormed
  | [] => .isTrue trivial
  | piece :: rest =>
    have := decidableWellFormed rest
    inferInstanceAs (Decidable (piece.Ends (render rest) ∧ WellFormed rest))

section Reading

variable {s name rest : List Char}

theorem segments_text (plain : '$' ∉ s) :
    segments (s ++ rest) = s.map .literal ++ segments rest := by
  induction s with
  | nil => rfl
  | cons c s ih =>
    obtain ⟨other, plain⟩ := List.ne_and_not_mem_of_not_mem_cons plain
    rw [List.cons_append, segments, ih plain, List.map_cons, List.cons_append]
    · exact fun _ dollar _ => other dollar.symm
    · exact fun dollar => other dollar.symm

theorem segments_braced (closed : '}' ∉ name) :
    segments ('$' :: '{' :: (name ++ '}' :: rest)) =
      .variable (String.ofList name) :: segments rest := by
  obtain ⟨taken, dropped⟩ := Text.takeWhile_of_notMem closed rest
  rw [segments, taken, dropped, List.drop_one, List.tail_cons]

theorem segments_bare (named : name ≠ []) (word : ∀ c ∈ name, isNameChar c = true)
    (stop : ∀ c ∈ rest.head?, isNameChar c = false) :
    segments ('$' :: (name ++ rest)) = .variable (String.ofList name) :: segments rest := by
  obtain ⟨taken, dropped⟩ := Text.takeWhile_of_head word stop
  cases name with
  | nil => exact (named rfl).elim
  | cons c name =>
    have bare : c ≠ '{' := by
      rintro rfl
      exact absurd (word '{' List.mem_cons_self) (by decide)
    rw [segments, taken, dropped]
    exact fun _ brace => bare (List.cons.inj brace).1

theorem segments_dollar (stop : ∀ c ∈ rest.head?, c ≠ '{' ∧ isNameChar c = false) :
    segments ('$' :: rest) = .literal '$' :: segments rest := by
  have nameless : rest.takeWhile isNameChar = [] :=
    (Text.takeWhile_of_head (List.forall_mem_nil _) fun c hc => (stop c hc).2).1
  rw [segments, nameless]
  rintro r rfl
  exact (stop '{' rfl).1 rfl

theorem segments_piece {piece : Piece} (ends : piece.Ends rest) :
    segments (piece.chars ++ rest) = piece.segments ++ segments rest := by
  cases piece with
  | text s => exact segments_text ends
  | braced name =>
    rw [Piece.chars, List.cons_append, List.cons_append, List.append_assoc]
    exact segments_braced ends
  | bare name => exact segments_bare ends.1 ends.2.1 ends.2.2
  | dollar => exact segments_dollar ends

theorem segments_render {template : List Piece} (h : WellFormed template) :
    segments (render template) = template.flatMap Piece.segments := by
  induction template with
  | nil => exact segments.eq_1
  | cons piece rest ih =>
    -- Where a piece ends depends on the whole text after it, which is again a template's.
    rw [render, List.flatMap_cons, List.flatMap_cons, ← render, segments_piece h.1, ih h.2]

end Reading

section Substitution

variable {environment : Environment}

theorem substitute_append (value? : String → Option String) (s t : List Segment) :
    substitute value? (s ++ t) = (do
      let first ← substitute value? s
      let second ← substitute value? t
      return first ++ second) := by
  induction s with
  | nil =>
    rw [List.nil_append, substitute]
    cases substitute value? t with
    | error name => rfl
    | ok text => exact congrArg Except.ok String.empty_append.symm
  | cons segment s ih =>
    obtain c | name := segment
    · simp only [List.cons_append, substitute, ih, bind_assoc, pure_bind, String.append_assoc]
    · rw [List.cons_append, substitute, substitute]
      cases value? name with
      | none => rfl
      | some value => simp only [ih, bind_assoc, pure_bind, String.append_assoc]

theorem substitute_literals (value? : String → Option String) (s : List Char) :
    substitute value? (s.map .literal) = .ok (String.ofList s) := by
  induction s with
  | nil => rfl
  | cons c s ih => simp [substitute, ih]

theorem substitute_variable (name : String) :
    substitute environment.value? [.variable name] =
      match (some name).filter fun name => (environment.value? name).isNone with
      | some name => .error name
      | none => .ok ((environment.value? name).getD "") := by
  rw [substitute, Option.filter_some]
  cases environment.value? name with
  | none => rfl
  | some value => simp [substitute]

theorem substitute_piece (piece : Piece) :
    substitute environment.value? piece.segments =
      match piece.unset? environment with
      | some name => .error name
      | none => .ok (piece.value environment) := by
  cases piece with
  | text s => exact substitute_literals _ s
  | braced name => exact substitute_variable _
  | bare name => exact substitute_variable _
  | dollar => rfl

theorem substitute_pieces (template : List Piece) :
    substitute environment.value? (template.flatMap Piece.segments) =
      match template.findSome? (Piece.unset? environment) with
      | some name => .error name
      | none => .ok (String.join (template.map (Piece.value environment))) := by
  induction template with
  | nil => rfl
  | cons piece rest ih =>
    rw [List.flatMap_cons, substitute_append, substitute_piece, ih, List.findSome?_cons]
    cases piece.unset? environment with
    | some name => rfl
    | none =>
      cases rest.findSome? (Piece.unset? environment) with
      | some name => rfl
      | none => exact congrArg Except.ok String.join_cons.symm

end Substitution

/-- Expanding a template that is well formed gives what its pieces stand for, one after the other,
or the first of its variables that has no value. What a variable holds is put in as it is. -/
theorem expand_render (environment : Environment) (template : List Piece)
    (h : WellFormed template) :
    environment.expand (String.ofList (render template)) =
      match template.findSome? (Piece.unset? environment) with
      | some name => .error name
      | none => .ok (String.join (template.map (Piece.value environment))) := by
  rw [expand, String.toList_ofList, segments_render h, substitute_pieces]

/-- A value that looks like a reference stays as it is, and of two unset names the first is told. -/
theorem expand_render_warehouse :
    let environment := Environment.ofPairs [("WAREHOUSE", "a$ZONE"), ("ZONE", "eu")]
    environment.expand "prod_$\x7bWAREHOUSE\x7d_$ZONE! $" = .ok "prod_a$ZONE_eu! $" ∧
      environment.expand "$ZONE/$REGION/$\x7bSITE\x7d" = .error "REGION" := by
  intro environment
  have set := expand_render environment [.text "prod_".toList, .braced "WAREHOUSE".toList,
    .text "_".toList, .bare "ZONE".toList, .text "! ".toList, .dollar] (by decide +kernel)
  have missing := expand_render environment [.bare "ZONE".toList, .text "/".toList,
    .bare "REGION".toList, .text "/".toList, .braced "SITE".toList] (by decide +kernel)
  exact ⟨set.trans (by decide +kernel), missing.trans (by decide +kernel)⟩

end SemanticLayer.Environment
