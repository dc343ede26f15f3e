import Mathlib.Algebra.Field.Rat
import Mathlib.Algebra.GroupWithZero.Basic
import SemanticLayer.Text.Alphanumeric

set_option autoImplicit false

/-!
Arithmetic over references: trees, the tokens that write them, and the rational numbers that they
are worth.

A tree is well formed when its tokens mean it under the usual precedence: powers before signs,
signs before products, products before sums. Two customs exist for powers in a row, and all that is
said here holds for both of them.
-/
namespace SemanticLayer

def isNumeral (s : List Char) : Bool :=
  s.any Char.isDigit && s.all (fun c => c.isDigit || c = '.') && s.count '.' ≤ 1

structure Numeral where
  text : List Char
  valid : isNumeral text = true
  deriving DecidableEq

def Numeral.value (n : Numeral) : ℚ :=
  let digits := (n.text.filter Char.isDigit).map fun c => c.toNat - '0'.toNat
  let decimals := ((n.text.dropWhile (· ≠ '.')).filter Char.isDigit).length
  (Text.ofDigits 10 digits : ℚ) / 10 ^ decimals

/-- How `a ^ b ^ c` is grouped. -/
inductive PowerOrder where
  | fromLeft
  | fromRight
  deriving DecidableEq

inductive Operator where
  | add
  | sub
  | mul
  | div
  | pow
  deriving DecidableEq, Repr

namespace Operator

def symbol : Operator → Char
  | add => '+'
  | sub => '-'
  | mul => '*'
  | div => '/'
  | pow => '^'

/-- Sums bind loosest. Signs are at level 3 and operands without any operator at level 5. -/
def level : Operator → Nat
  | add | sub => 1
  | mul | div => 2
  | pow => 4

/-- The least level that is met on the left. -/
def before (order : PowerOrder) : Operator → Nat
  | pow => if order = .fromLeft then 4 else 5
  | op => op.level

/-- The least level that is met on the right. -/
def after (order : PowerOrder) : Operator → Nat
  | pow => if order = .fromLeft then 5 else 4
  | op => op.level + 1

theorem level_le_before (order : PowerOrder) (op : Operator) : op.level ≤ op.before order := by
  cases op <;> cases order <;> decide

theorem level_le_after (order : PowerOrder) (op : Operator) : op.level ≤ op.after order := by
  cases op <;> cases order <;> decide

theorem after_le (order : PowerOrder) (op : Operator) : op.after order ≤ 5 := by
  cases op <;> cases order <;> decide

/-- An operator ends the operand of another one exactly when it may follow the result of that
one. -/
theorem level_lt_after_iff (order : PowerOrder) (op next : Operator) :
    next.level < op.after order ↔ next.before order ≤ op.level := by
  cases op <;> cases next <;> cases order <;> decide

theorem level_lt_three_iff (order : PowerOrder) (op : Operator) :
    op.level < 3 ↔ op.before order ≤ 3 := by
  cases op <;> cases order <;> decide

theorem before_le (order : PowerOrder) (op : Operator) : op.before order ≤ 5 := by
  cases op <;> cases order <;> decide

theorem after_pos (order : PowerOrder) (op : Operator) : 0 < op.after order := by
  cases op <;> cases order <;> decide

/-- Divisions by zero and powers to a fraction are worth nothing. -/
def apply : Operator → ℚ → ℚ → Option ℚ
  | add, x, y => some (x + y)
  | sub, x, y => some (x - y)
  | mul, x, y => some (x * y)
  | div, x, y => if y = 0 then none else some (x / y)
  | pow, x, y => if y.den = 1 ∧ ¬(x = 0 ∧ y < 0) then some (x ^ y.num) else none

end Operator

/-- `ratio` is the call of a division with two arguments. -/
inductive Arithmetic (α : Type) where
  | number (n : Numeral)
  | reference (r : α)
  | group (e : Arithmetic α)
  | negate (e : Arithmetic α)
  | binary (op : Operator) (left right : Arithmetic α)
  | ratio (numerator denominator : Arithmetic α)
  deriving DecidableEq

namespace Arithmetic

variable {α : Type}

def value (worth : α → ℚ) : Arithmetic α → Option ℚ
  | number n => some n.value
  | reference r => some (worth r)
  | group e => e.value worth
  | negate e => (e.value worth).map fun x => -x
  | binary op left right =>
    (left.value worth).bind fun x => (right.value worth).bind fun y => op.apply x y
  | ratio numerator denominator =>
    (numerator.value worth).bind fun x => (denominator.value worth).bind fun y =>
      Operator.div.apply x y

/-- How tightly a tree holds together against an operator before it. -/
def leading : Arithmetic α → Nat
  | binary op _ _ => op.level
  | _ => 5

/-- How tightly a tree holds together against an operator after it. -/
def trailing : Arithmetic α → Nat
  | binary op _ right => min op.level right.trailing
  | negate e => min 3 e.trailing
  | _ => 5

/-- Whether every operand binds tightly enough to stand where it does without parentheses. -/
def WellFormed (order : PowerOrder) : Arithmetic α → Prop
  | number _ | reference _ => True
  | group e => e.WellFormed order
  | negate e => 3 ≤ e.leading ∧ e.WellFormed order
  | binary op left right =>
    op.before order ≤ left.trailing ∧ op.after order ≤ right.leading ∧
      left.WellFormed order ∧ right.WellFormed order
  | ratio numerator denominator =>
    numerator.WellFormed order ∧ denominator.WellFormed order

theorem trailing_le_leading (e : Arithmetic α) : e.trailing ≤ e.leading := by
  cases e with
  | binary op left right => exact Nat.min_le_left _ _
  | negate e => exact (Nat.min_le_left 3 _).trans (show 3 ≤ 5 by decide)
  | number _ | reference _ | group _ | ratio _ _ => exact le_refl _

theorem WellFormed.min_leading_le_trailing {order : PowerOrder} {e : Arithmetic α}
    (h : e.WellFormed order) : min 3 e.leading ≤ e.trailing := by
  induction e with
  | number _ | reference _ | group _ | ratio _ _ =>
    exact (Nat.min_le_left 3 _).trans (show 3 ≤ 5 by decide)
  | negate e ih =>
    have inner := ih h.2
    have tight := h.1
    change min 3 5 ≤ min 3 e.trailing
    omega
  | binary op left right _ ihr =>
    have inner := ihr h.2.2.2
    have tight := (op.level_le_after order).trans h.2.1
    change min 3 op.level ≤ min op.level right.trailing
    omega

inductive Token (α : Type) where
  | number (n : Numeral)
  | reference (r : α)
  | operator (op : Operator)
  | opening
  | closing
  | divide
  | comma
  deriving DecidableEq

def tokens : Arithmetic α → List (Token α)
  | number n => [.number n]
  | reference r => [.reference r]
  | group e => .opening :: (e.tokens ++ [.closing])
  | negate e => .operator .sub :: e.tokens
  | binary op left right => left.tokens ++ .operator op :: right.tokens
  | ratio numerator denominator =>
    .divide :: (numerator.tokens ++ .comma :: (denominator.tokens ++ [.closing]))

end Arithmetic

end SemanticLayer
