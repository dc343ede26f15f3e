import SemanticLayer.Sql
import SemanticLayer.Text.Alphanumeric
import SemanticLayer.Text.Blank

set_option autoImplicit false

/-!
The tokens of queries: words, names in quotes or brackets, numbers and marks. Words are kept in
capitals, since only keywords are ever compared. Brackets hold a name in one dialect; in the generic
one they hold lists, and subscripts after an operand.
-/
namespace SemanticLayer.Sql

inductive Token where
  | word (capitals : List Char)
  /-- A name in quotes or brackets, which is never a keyword. -/
  | quoted
  /-- A number, with its value when it is written with digits only. -/
  | number (whole : Option Nat)
  /-- A dollar sign with a name, which stands for a value. -/
  | placeholder
  /-- Two at signs on their own, which are an operator. -/
  | doubleAt
  | mark (c : Char)
  deriving DecidableEq, Repr

def isWordStart (c : Char) : Bool := Text.isAlphabetic c || c = '_'

def isWordChar (c : Char) : Bool :=
  isWordStart c || c.isDigit || c = '@' || c = '#' || c = '$'

/-- The capitals of a letter. Some letters beyond Z have plain capitals too; the others are left
alone, since no keyword has them. -/
def capitals (c : Char) : List Char :=
  match c with
  | 'ı' => ['I']
  | 'ſ' => ['S']
  | 'ß' => ['S', 'S']
  | 'ﬀ' => ['F', 'F']
  | 'ﬁ' => ['F', 'I']
  | 'ﬂ' => ['F', 'L']
  | 'ﬃ' => ['F', 'F', 'I']
  | 'ﬄ' => ['F', 'F', 'L']
  | 'ﬅ' | 'ﬆ' => ['S', 'T']
  | c => [c.toUpper]

def skipExponent (s : List Char) : List Char :=
  let skipDigits : List Char → List Char
    | c :: r => if c.isDigit then r.dropWhile Char.isDigit else s
    | [] => s
  match s with
  | e :: sign :: r =>
    if e = 'e' ∨ e = 'E' then
      if sign = '+' ∨ sign = '-' then skipDigits r else skipDigits (sign :: r)
    else s
  | _ => s

def skipLongMark : List Char → List Char
  | 'L' :: r => r
  | r => r

/-- The token at the start of a text that begins with a digit or a point, and the text after it. A
point without digits on either side is a mark. -/
def numberOrPoint (s : List Char) : Token × List Char :=
  let digits := s.takeWhile Char.isDigit
  match s.dropWhile Char.isDigit with
  | '.' :: r =>
    if digits.isEmpty && !(r.head?.any Char.isDigit) then (.mark '.', r)
    else (.number none, skipLongMark (skipExponent (r.dropWhile Char.isDigit)))
  | r =>
    if digits = ['0'] ∧ r.head? = some 'x' then
      (.number none, (r.drop 1).dropWhile Text.isHexDigit)
    else
      let rest := skipExponent r
      (.number (if rest = r then Text.numeral? 10 digits else none), skipLongMark rest)

def word (start rest : List Char) : Token × List Char :=
  (.word ((start ++ rest.takeWhile isWordChar).flatMap capitals), rest.dropWhile isWordChar)

/-- The token that begins with an at sign or a number sign. Such a sign makes a word with whatever
comes after it, unless that is a space. -/
def signOrWord (sign : Char) : List Char → Token × List Char
  | '@' :: [] => if sign = '@' then (.doubleAt, []) else word [sign, '@'] []
  | '@' :: c :: r =>
    if sign ≠ '@' then word [sign, '@'] (c :: r)
    else if c = ' ' then (.doubleAt, c :: r)
    else word [sign, '@', c] r
  | c :: r => if c = ' ' then (.mark sign, c :: r) else word [sign, c] r
  | [] => (.mark sign, [])

/-- The text after the name of a placeholder, which no other dollar sign follows. -/
def afterPlaceholder? (s : List Char) : Option (List Char) :=
  let rest := s.dropWhile fun c => Text.isAlphanumeric c || c = '_'
  if rest.head? = some '$' then none else some rest

/-- The tokens of a text, or nothing when a quotation does not end. Two hyphens begin a comment,
which takes the rest of the line. -/
def tokens (dialect : Dialect) : (budget : Nat) → List Char → Option (List Token)
  | 0, _ => none
  | _ + 1, [] => some []
  | budget + 1, c :: r =>
    if Text.isBlank c then tokens dialect budget r
    else if isWordStart c then
      let (token, rest) := word [c] r
      (tokens dialect budget rest).map (token :: ·)
    else if c = '@' ∨ c = '#' then
      let (token, rest) := signOrWord c r
      (tokens dialect budget rest).map (token :: ·)
    else if c.isDigit || c = '.' then
      let (token, rest) := numberOrPoint (c :: r)
      (tokens dialect budget rest).map (token :: ·)
    else if c = '$' then do
      let rest ← afterPlaceholder? r
      return .placeholder :: (← tokens dialect budget rest)
    else if c = '"' then do
      let (_, rest) ← Text.splitClose '"' r
      return .quoted :: (← tokens dialect budget rest)
    else if c = '[' ∧ dialect = .transact then do
      let (_, rest) ← Text.splitClose ']' r
      return .quoted :: (← tokens dialect budget rest)
    else if c = '-' ∧ r.head? = some '-' then tokens dialect budget (r.dropWhile (· ≠ '\n'))
    else (tokens dialect budget r).map (.mark c :: ·)

def tokenize (dialect : Dialect) (text : String) : Option (List Token) :=
  tokens dialect (text.toList.length + 1) text.toList

end SemanticLayer.Sql
