import SemanticLayer.Document.Decoding
import SemanticLayer.Readers.Toml.Lexeme

set_option autoImplicit false

namespace SemanticLayer.Toml

/-- Digits without the underscores between them. -/
def plainDigits? (valid : Char → Bool) : List Char → Option (List Char)
  | [] => none
  | [c] => if valid c then some [c] else none
  | c :: d :: r =>
    if !valid c then none
    else if d = '_' then
      match r with
      | [] => none
      | e :: r => (plainDigits? valid (e :: r)).map (c :: ·)
    else (plainDigits? valid (d :: r)).map (c :: ·)

/-- Decimal digits without a zero in front. -/
def decimalDigits? (s : List Char) : Option (List Char) :=
  match s with
  | '0' :: _ :: _ => none
  | _ => plainDigits? Char.isDigit s

def numeral? (base : Nat) (valid : Char → Bool) (s : List Char) : Option Nat :=
  (plainDigits? valid s).bind (Text.numeral? base)

def unsigned : List Char → List Char
  | '+' :: r => r
  | '-' :: r => r
  | r => r

def decimalNumeral? (s : List Char) : Option Nat :=
  (decimalDigits? s).bind (Text.numeral? 10)

/-- The least integer of 128 bits with a sign. -/
def minInteger : Int := -170141183460469231731687303715884105728

/-- The greatest integer of 128 bits without a sign. -/
def maxInteger : Int := 340282366920938463463374607431768211455

def writtenInteger? (s : List Char) : Option Int :=
  match s with
  | '0' :: 'x' :: r => (numeral? 16 Text.isHexDigit r).map Int.ofNat
  | '0' :: 'o' :: r => (numeral? 8 (fun c => '0' ≤ c && c ≤ '7') r).map Int.ofNat
  | '0' :: 'b' :: r => (numeral? 2 (fun c => c = '0' || c = '1') r).map Int.ofNat
  | '-' :: r => (decimalNumeral? r).map fun n => -(n : Int)
  | s => (decimalNumeral? (unsigned s)).map Int.ofNat

def integer? (s : List Char) : Option Int :=
  (writtenInteger? s).filter fun n => minInteger ≤ n && n ≤ maxInteger

def isExponentMark (c : Char) : Bool := c = 'e' || c = 'E'

structure Decimal where
  digits : List Char
  exponent : Int
  deriving DecidableEq, Repr

/-- The decimal that a text without a sign writes, with a fraction, an exponent or both. -/
def decimal? (s : List Char) : Option Decimal := do
  let mantissa := s.takeWhile (!isExponentMark ·)
  let whole := mantissa.takeWhile (· ≠ '.')
  let wholeDigits ← decimalDigits? whole
  let fraction ←
    match mantissa.dropWhile (· ≠ '.') with
    | [] => some []
    | _ :: fraction => plainDigits? Char.isDigit fraction
  let exponent ←
    match s.dropWhile (!isExponentMark ·) with
    | [] => some 0
    | _ :: '-' :: r => (numeral? 10 Char.isDigit r).map fun n => -(n : Int)
    | _ :: r => (numeral? 10 Char.isDigit (unsigned r)).map Int.ofNat
  if whole = s then none else return ⟨wholeDigits ++ fraction, exponent - fraction.length⟩

/-- Half-way between the greatest double and the power of two after it. A number from here on has
no double next to it. -/
def doubleBound : Nat := 0x3FFFFFFFFFFFFF <<< 970

/-- How many digits the whole numbers just below the bound of doubles have. -/
def doubleBoundDigits : Nat := 309

/-- Whether a double is next to a decimal. Only a decimal with as many whole digits as the bound is
compared with it. -/
def Decimal.isFinite (d : Decimal) : Bool :=
  let digits := d.digits.dropWhile (· = '0')
  let places : Int := digits.length + d.exponent
  if digits.isEmpty || places < doubleBoundDigits then true
  else if doubleBoundDigits < places then false
  else
    let whole := (digits ++ List.replicate doubleBoundDigits '0').take doubleBoundDigits
    (Text.numeral? 10 whole).any (· < doubleBound)

def isDecimal (s : List Char) : Bool :=
  let s := unsigned s
  if s = "inf".toList || s = "nan".toList then true else (decimal? s).any Decimal.isFinite

def fixedNatural (width : Nat) : Lexer Nat := fun s =>
  let digits := s.take width
  if digits.length = width ∧ digits.all Char.isDigit then
    (Text.numeral? 10 digits).map (·, s.drop width)
  else none

def isLeap (year : Nat) : Bool := year % 4 = 0 && (year % 100 ≠ 0 || year % 400 = 0)

def daysIn (year month : Nat) : Nat :=
  if month = 2 then if isLeap year then 29 else 28
  else if [4, 6, 9, 11].contains month then 30
  else 31

def date : Lexer Unit := fun s => do
  let (year, s) ← fixedNatural 4 s
  let (month, s) ← fixedNatural 2 (← mark '-' s)
  let (day, s) ← fixedNatural 2 (← mark '-' s)
  if 1 ≤ month ∧ month ≤ 12 ∧ 1 ≤ day ∧ day ≤ daysIn year month then some ((), s) else none

def seconds : Lexer Unit := fun s => do
  let (second, s) ← fixedNatural 2 s
  if 60 < second then none
  else
    match s with
    | '.' :: c :: r => if c.isDigit then some ((), r.dropWhile Char.isDigit) else none
    | '.' :: [] => none
    | s => some ((), s)

def clock : Lexer Unit := fun s => do
  let (hour, s) ← fixedNatural 2 s
  let (minute, s) ← fixedNatural 2 (← mark ':' s)
  if 23 < hour ∨ 59 < minute then none
  else
    match s with
    | ':' :: s => seconds s
    | s => some ((), s)

/-- Whether a text is the distance from universal time, or empty. -/
def isOffset : List Char → Bool
  | [] => true
  | [c] => c = 'Z' || c = 'z'
  | c :: s =>
    (c = '+' || c = '-') &&
      match fixedNatural 2 s with
      | some (hour, ':' :: s) =>
        match fixedNatural 2 s with
        | some (minute, []) => hour ≤ 23 && minute ≤ 59
        | _ => false
      | _ => false

/-- Dates and times, alone or together. -/
def isMoment (s : List Char) : Bool :=
  match date s with
  | some ((), []) => true
  | some ((), c :: s) =>
    (c = 'T' || c = 't' || c = ' ') &&
      match clock s with
      | some ((), s) => isOffset s
      | none => false
  | none =>
    match clock s with
    | some ((), []) => true
    | _ => false

def isScalarChar (c : Char) : Bool :=
  c.isAlphanum || c = '_' || c = '+' || c = '-' || c = '.' || c = ':'

/-- The characters of a value without quotes. A blank goes on with the time after a date. -/
def scalarText (s : List Char) : List Char × List Char :=
  let word := s.takeWhile isScalarChar
  match s.dropWhile isScalarChar with
  | ' ' :: c :: r =>
    if c.isDigit && (date word).any (·.2.isEmpty) then
      (word ++ ' ' :: (c :: r).takeWhile isScalarChar, (c :: r).dropWhile isScalarChar)
    else (word, ' ' :: c :: r)
  | rest => (word, rest)

def scalar : Lexer Document := fun s =>
  let (word, rest) := scalarText s
  if word = "true".toList then some (.flag true, rest)
  else if word = "false".toList then some (.flag false, rest)
  else
    match integer? word with
    | some n => some (.integer n, rest)
    | none =>
      if isMoment word then some (.moment (String.ofList word), rest)
      else if isDecimal word then some (.decimal (String.ofList word), rest)
      else none

end SemanticLayer.Toml
