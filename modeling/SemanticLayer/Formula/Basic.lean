import SemanticLayer.Formula.Aggregate
import SemanticLayer.Formula.Name
import SemanticLayer.Formula.Normal

set_option autoImplicit false

/-!
Formulas as far as they are understood: runs of arithmetic between references to measures,
aggregations and two-argument divisions. `Formula.parse` reads on until a text that is none of
these and keeps the rest.
-/
namespace SemanticLayer

namespace Formula

inductive Reference where
  | measure (name : String)
  | aggregate (call : AggregateCall)
  deriving DecidableEq, Repr

end Formula

/-- A formula read from the left. Each step keeps the arithmetic before it and, as `here`, the
whole text that starts with it; `stop` keeps the text that is not understood. -/
inductive Formula where
  | stop (run rest : List Char)
  | reference (run here : List Char) (target : Formula.Reference) (tail : Formula)
  | ratio (run here : List Char) (numerator denominator tail : Formula)
  deriving DecidableEq, Repr

namespace Formula

def isArithmetic (c : Char) : Bool :=
  c.isDigit || Text.isBlank c || c = '+' || c = '-' || c = '*' || c = '/' || c = '^' ||
    c = '(' || c = ')' || c = '.'

/-- The leading operators, digits, points, parentheses and blanks. -/
def arithmeticRun (s : List Char) : List Char := s.takeWhile isArithmetic

def ratioKeyword : List Char := ['d', 'i', 'v', 'i', 'd', 'e', '(']

/-- The two arguments of a division at the start of a text, trimmed, and the text after it. -/
def ratioArguments (s : List Char) : Option (List Char × List Char × List Char) :=
  if Text.startsFold ratioKeyword s then
    match splitArguments (s.drop 6) with
    | some ⟨[numerator, denominator], rest⟩ =>
      some (Text.trim numerator, Text.trim denominator, rest)
    | _ => none
  else none

/-- The call that a function makes of the text between its parentheses. -/
def AggregateFunction.call? (f : AggregateFunction) (body : List Char) : Option AggregateCall :=
  if body.contains '(' then none
  else if f = .countRows then
    let table := unquoteTable body
    if body.contains '[' || body.contains ']' || table.isEmpty then none
    else some ⟨f, String.ofList table, none⟩
  else if body.count '[' = 1 && body.count ']' = 1 then
    (columnRef body).map fun (table, column) =>
      ⟨f, String.ofList table, some (String.ofList column)⟩
  else none

/-- An aggregation call at the start of a text, up to the first closing parenthesis, and the text
after it. -/
def aggregateCall? (s : List Char) : Option (AggregateCall × List Char) := do
  let f ← AggregateFunction.all.find? fun f => Text.startsFold (f.keyword.toList ++ ['(']) s
  let (body, rest) ← Text.splitFirst [')'] (s.drop (f.keyword.length + 1))
  let call ← f.call? body
  return (call, rest)

/-- The reference that a text starts with, and the text after it. -/
def reference? (s : List Char) : Option (Reference × List Char) :=
  match bracketName s with
  | some (name, rest) => some (.measure (String.ofList name), rest)
  | none => (aggregateCall? s).map fun (call, rest) => (.aggregate call, rest)

theorem ratioArguments_length {s numerator denominator rest : List Char}
    (h : ratioArguments s = some (numerator, denominator, rest)) :
    numerator.length + denominator.length + rest.length < s.length := by
  unfold ratioArguments at h
  split at h
  · split at h
    · rename_i n d r found
      cases h
      have bound := Text.splitArguments_size _ found
      have hn := Text.trim_length_le n
      have hd := Text.trim_length_le d
      simp only [Text.Arguments.size, List.flatten_cons, List.flatten_nil, List.length_append,
        List.length_nil, List.length_drop] at bound
      omega
    · simp at h
  · simp at h

theorem aggregateCall?_length {s rest : List Char} {call : AggregateCall}
    (h : aggregateCall? s = some (call, rest)) : rest.length < s.length := by
  simp only [aggregateCall?, Option.bind_eq_bind, Option.bind_eq_some_iff] at h
  obtain ⟨f, -, ⟨body, after⟩, hs, c, -, he⟩ := h
  cases he
  have bound := Text.splitFirst_length hs
  simp only [List.length_drop, List.length_cons, List.length_nil] at bound ⊢
  omega

theorem reference?_length {s rest : List Char} {target : Reference}
    (h : reference? s = some (target, rest)) : rest.length < s.length := by
  unfold reference? at h
  split at h
  · rename_i hb
    cases h
    have := bracketName_length hb
    omega
  · obtain ⟨⟨call, after⟩, ha, he⟩ := Option.map_eq_some_iff.1 h
    cases he
    exact aggregateCall?_length ha

/-- Reads a formula from the left. A division is tried first; a text that starts with its keyword
starts with no reference, so the order does not matter. -/
def parse (s : List Char) : Formula :=
  match _hr : ratioArguments (s.dropWhile isArithmetic) with
  | some (numerator, denominator, rest) =>
    .ratio (arithmeticRun s) (s.dropWhile isArithmetic) (parse numerator) (parse denominator)
      (parse rest)
  | none =>
    match _ht : reference? (s.dropWhile isArithmetic) with
    | some (target, rest) =>
      .reference (arithmeticRun s) (s.dropWhile isArithmetic) target (parse rest)
    | none => .stop (arithmeticRun s) (s.dropWhile isArithmetic)
termination_by s.length
decreasing_by
  all_goals have shorter := (List.dropWhile_suffix (l := s) isArithmetic).length_le
  · have := ratioArguments_length _hr
    omega
  · have := ratioArguments_length _hr
    omega
  · have := ratioArguments_length _hr
    omega
  · have := reference?_length _ht
    omega

/-- Whether the whole formula is one division call, whatever its arguments are. -/
def isRatio (text : List Char) : Bool :=
  let s := Text.trim text
  Text.startsFold ratioKeyword s && isWrapped (s.drop 6)

def singleAggregate (text : List Char) : Option AggregateCall :=
  match aggregateCall? (normalize text) with
  | some (call, []) => some call
  | _ => none

end Formula

end SemanticLayer
