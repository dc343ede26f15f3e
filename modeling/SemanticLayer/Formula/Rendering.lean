import SemanticLayer.Formula.Basic

set_option autoImplicit false

/-!
Expressions over metrics, computed from formulas.

What a reference becomes is asked of a `MeasureSource`, which may keep a state: it is asked from
left to right and no further once it has no answer.
-/
namespace SemanticLayer.Formula

structure MeasureSource (m : Type → Type) where
  aggregate : AggregateCall → m (Option String)
  measure : String → m (Option String)

inductive Rendering where
  | complete (text : String)
  | incomplete (rendered remainder : String)
  deriving DecidableEq, Repr

def Rendering.isComplete : Rendering → Bool
  | .complete _ => true
  | .incomplete _ _ => false

def Rendering.complete? : Rendering → Option String
  | .complete text => some text
  | .incomplete _ _ => none

def measureReference (identifier : String) : String := "[Measures].[" ++ identifier ++ "]"

def referenceStart : List Char := "[Measures].[".toList

/-- Whether a text writes exactly one metric. -/
def isMeasureReference (s : List Char) : Bool :=
  referenceStart.isPrefixOf s && s.getLast? = some ']' &&
    Text.countOf [']', '.', '['] 0 s = 1

/-- Digits with at most one point among them, after at most one sign. -/
def isNumber (s : List Char) : Bool :=
  let unsigned := match s with
    | '+' :: r => r
    | '-' :: r => r
    | r => r
  unsigned.any Char.isDigit && unsigned.all (fun c => c.isDigit || c = '.') &&
    unsigned.count '.' ≤ 1

/-- Parentheses around an operand, unless it is one metric, one number or one group already. -/
def parenthesize (s : List Char) : List Char :=
  let s := Text.trim s
  if isMeasureReference s || isNumber s || isWrapped s then s else '(' :: s ++ [')']

section Evaluate

variable {m : Type → Type} [Monad m]

def Reference.resolve (source : MeasureSource m) : Reference → m (Option String)
  | .measure name => source.measure name
  | .aggregate call => source.aggregate call

/-- The expression as far as every reference has an answer, and the text that is left. A division
counts only as a whole: both arguments are written and leave nothing. -/
def evaluate (source : MeasureSource m) : Formula → m (List Char × List Char)
  | .stop run rest => pure (run, rest)
  | .reference run here target tail => do
    let some identifier ← target.resolve source | return (run, here)
    let (text, rest) ← tail.evaluate source
    return (run ++ (measureReference identifier).toList ++ text, rest)
  | .ratio run here numerator denominator tail => do
    if numerator = .stop [] [] then return (run, here)
    let (above, []) ← numerator.evaluate source | return (run, here)
    if denominator = .stop [] [] then return (run, here)
    let (below, []) ← denominator.evaluate source | return (run, here)
    let (text, rest) ← tail.evaluate source
    return (run ++ parenthesize above ++ [' ', '/', ' '] ++ parenthesize below ++ text, rest)

def render (source : MeasureSource m) (text : String) : m Rendering := do
  let (text, rest) ← (parse (Text.trim text.toList)).evaluate source
  let rendered := String.ofList (Text.trim text)
  if rest.isEmpty then return .complete rendered
  return .incomplete rendered (String.ofList rest)

end Evaluate

end SemanticLayer.Formula
