import SemanticLayer.Readers.Sql.Token

set_option autoImplicit false

/-!
Expressions: operands with operators between them, which bind with different strengths. Any word is
an operand, so that words which elsewhere begin a clause are read as columns here, and a word after
an operand is an operator whenever it can be one.
-/
namespace SemanticLayer.Sql

abbrev Reader := List Token → Option (List Token)

def keywordOf (words : List String) : Reader
  | .word text :: rest => if words.contains (String.ofList text) then some rest else none
  | _ => none

def keyword (word : String) : Reader := keywordOf [word]

def mark (c : Char) : Reader
  | .mark d :: rest => if c = d then some rest else none
  | _ => none

def optionally (read : Reader) (ts : List Token) : List Token := (read ts).getD ts

/-- What a keyword begins, or nothing where it is missing. -/
def clause (word : String) (read : Reader) : Reader := fun ts =>
  match keyword word ts with
  | some rest => read rest
  | none => some ts

def commaSeparated (read : Reader) : (budget : Nat) → Reader
  | 0, _ => none
  | budget + 1, ts => do
    match ← read ts with
    | .mark ',' :: rest => commaSeparated read budget rest
    | rest => return rest

def name : Reader
  | .word _ :: rest => some rest
  | .quoted :: rest => some rest
  | _ => none

/-- A name with the names that it belongs to in front of it, and points between them. -/
def path : Reader
  | .word _ :: .mark '.' :: rest => path rest
  | .quoted :: .mark '.' :: rest => path rest
  | ts => name ts

def wildcard : Reader
  | .mark '*' :: rest => some rest
  | .word _ :: .mark '.' :: rest => wildcard rest
  | .quoted :: .mark '.' :: rest => wildcard rest
  | _ => none

inductive Infix where
  /-- One operand on the right, with all operators in it that bind more tightly. -/
  | binary (binding : Nat)
  | between
  /-- A pattern, in which characters may be given a new meaning when `escapable`. -/
  | pattern (escapable : Bool)
  | subscript
  /-- Something else than an expression, which is not part of these queries. -/
  | special (binding : Nat)
  deriving DecidableEq, Repr

def Infix.binding : Infix → Nat
  | .binary binding => binding
  | .between => 20
  | .pattern _ => 19
  | .subscript => 50
  | .special binding => binding

def Infix.ofWord? : String → Option Infix
  | "OR" => some (.binary 5)
  | "AND" => some (.binary 10)
  | "IS" => some (.special 17)
  | "LIKE" | "ILIKE" => some (.pattern true)
  | "RLIKE" | "REGEXP" => some (.pattern false)
  | "SIMILAR" => some (.special 19)
  | "BETWEEN" => some .between
  | "IN" | "OPERATOR" => some (.special 20)
  | "XOR" => some (.binary 24)
  | "DIV" => some (.special 40)
  | _ => none

def Infix.ofMark? : Char → Option Infix
  | '=' => some (.binary 20)
  | '#' => some (.special 22)
  | '+' | '-' => some (.binary 30)
  | '*' | '/' | '%' => some (.binary 40)
  | '[' => some .subscript
  | _ => none

def Infix.ofToken? : Token → Option Infix
  | .word text => ofWord? (String.ofList text)
  | .mark c => ofMark? c
  | .doubleAt => some (.binary 16)
  | _ => none

/-- What follows an operator. Expressions on the right are read by `inner`, which is given the
binding that their operators exceed. -/
def Infix.operands (inner : Nat → Reader) : Infix → Reader
  | .binary binding, ts => inner binding ts
  | .between, ts => do inner 20 (← keyword "AND" (← inner 20 ts))
  | .pattern escapable, ts => do
    let rest ← inner 19 ts
    if escapable && (keyword "ESCAPE" rest).isSome then none else some rest
  | .subscript, ts => do mark ']' (← inner 0 ts)
  | .special _, _ => none

def operators (inner : Nat → Reader) (limit : Nat) : (budget : Nat) → Reader
  | 0, _ => none
  | _ + 1, [] => some []
  | budget + 1, token :: rest =>
    match Infix.ofToken? token with
    | none => some (token :: rest)
    | some operator =>
      if operator.binding ≤ limit then some (token :: rest)
      else do operators inner limit budget (← operator.operands inner rest)

/-- An argument of a function, or two with `VALUE` between them. -/
def argument (inner : Nat → Reader) : Reader := fun ts => do
  let one : Reader := fun ts => (wildcard ts).or (inner 0 ts)
  return optionally (fun ts => (keyword "VALUE" ts).bind one) (← one ts)

def arguments (inner : Nat → Reader) : Reader := fun ts =>
  match mark ')' ts with
  | some rest => some rest
  | none => do
    let rest ← commaSeparated (argument inner) ts.length ts
    mark ')' (← clause "LIMIT" (inner 0) rest)

def reference (inner : Nat → Reader) : Reader := fun ts => do
  let rest ← path ts
  match mark '(' rest with
  | some rest => arguments inner rest
  | none => return rest

def listItems (inner : Nat → Reader) : Reader := fun ts =>
  match mark ']' ts with
  | some rest => some rest
  | none => do mark ']' (← commaSeparated (inner 0) ts.length ts)

def afterMark (inner : Nat → Reader) (c : Char) : Reader := fun ts =>
  if c = '-' ∨ c = '+' then inner 40 ts
  else if c = '[' then listItems inner ts
  else if c = '@' then
    match ts with
    | .number _ :: rest => some rest
    | ts => name ts
  else none

def dateParts : List String := [
  "CENTURY", "DAY", "DECADE", "DOW", "DOY", "EPOCH", "HOUR", "ISODOW", "ISOYEAR", "JULIAN",
  "MICROSECOND", "MICROSECONDS", "MILLENIUM", "MILLENNIUM", "MILLISECOND", "MILLISECONDS",
  "MINUTE", "MONTH", "NANOSECOND", "NANOSECONDS", "QUARTER", "SECOND", "TIMEZONE",
  "TIMEZONE_HOUR", "TIMEZONE_MINUTE", "WEEK", "YEAR"]

/-- The unit of an interval and the one that it goes down to; each may be missing. -/
def intervalUnits (dialect : Dialect) : Reader := fun ts =>
  clause "TO" (if dialect = .generic then name else keywordOf dateParts)
    (optionally (keywordOf dateParts) ts)

/-- The order of characters to compare by, which may be given after an operand. -/
def collation : Reader := clause "COLLATE" path

/-- An operand. The words `EXISTS` and `TRIM` are never names of columns, and neither is `STRUCT`
in the generic dialect; `INTERVAL` always goes on with an operand, and `NOT` is a name where no
expression follows. -/
def operand (dialect : Dialect) (inner : Nat → Reader) : Reader
  | .number _ :: rest => collation rest
  | .placeholder :: rest => collation rest
  | .mark c :: rest => (afterMark inner c rest).bind collation
  | .quoted :: rest => (reference inner (.quoted :: rest)).bind collation
  | .word text :: rest =>
    let plain := (reference inner (.word text :: rest)).bind collation
    if text = "EXISTS".toList ∨ text = "TRIM".toList then none
    else if text = "STRUCT".toList ∧ dialect = .generic then none
    else if text = "INTERVAL".toList then
      (operand dialect inner rest).bind (intervalUnits dialect)
    else if text = "NOT".toList then ((inner 15 rest).bind collation).or plain
    else plain
  | _ => none

/-- An expression whose operators bind more tightly than a limit, in which expressions stand inside
each other no deeper than another limit. -/
def expression (dialect : Dialect) : (depth limit : Nat) → Reader
  | 0, _, _ => none
  | depth + 1, limit, ts => do
    let rest ← operand dialect (expression dialect depth) ts
    operators (expression dialect depth) limit (rest.length + 1) rest

end SemanticLayer.Sql
