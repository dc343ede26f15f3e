import SemanticLayer.Text.Alphanumeric

set_option autoImplicit false

namespace SemanticLayer.Toml

abbrev Lexer (α : Type) := List Char → Option (α × List Char)

def isSpace (c : Char) : Bool := c = ' ' || c = '\t'

def skipSpaces (s : List Char) : List Char := s.dropWhile isSpace

/-- Control characters, which texts and comments do not hold; the tab is none. -/
def isControl (c : Char) : Bool := (c.toNat < 0x20 && c ≠ '\t') || c.toNat == 0x7F

/-- The text after an end of line. -/
def afterNewline? : List Char → Option (List Char)
  | '\n' :: r => some r
  | '\r' :: '\n' :: r => some r
  | _ => none

def skipVoid : (inComment : Bool) → List Char → Option (List Char)
  | _, [] => some []
  | _, '\n' :: r => skipVoid false r
  | _, '\r' :: '\n' :: r => skipVoid false r
  | true, c :: r => if isControl c then none else skipVoid true r
  | false, c :: r =>
    if isSpace c then skipVoid false r
    else if c = '#' then skipVoid true r
    else some (c :: r)

def skipLineEnd (s : List Char) : Option (List Char) :=
  match skipSpaces s with
  | [] => some []
  | '#' :: r => skipVoid true r
  | r => afterNewline? r

/-- The character with a code point written in so many hexadecimal digits. -/
def codePoint (width : Nat) : Lexer Char := fun s =>
  if s.length < width then none
  else do
    let code ← Text.numeral? 16 (s.take width)
    if code.isValidChar then some (Char.ofNat code, s.drop width) else none

theorem codePoint_length_le {width : Nat} {s rest : List Char} {c : Char}
    (h : codePoint width s = some (c, rest)) : rest.length ≤ s.length := by
  unfold codePoint at h
  split at h
  · simp at h
  · obtain ⟨code, -, he⟩ := Option.bind_eq_some_iff.1 h
    split at he
    · cases he
      simp
    · simp at he

def simpleEscape? : Char → Option Char
  | 'b' => some '\x08'
  | 'e' => some '\x1b'
  | 't' => some '\t'
  | 'n' => some '\n'
  | 'f' => some '\x0c'
  | 'r' => some '\r'
  | '"' => some '"'
  | '\\' => some '\\'
  | _ => none

/-- The character that an escape stands for, read after its backslash. -/
def escape : Lexer Char
  | 'x' :: r => codePoint 2 r
  | 'u' :: r => codePoint 4 r
  | 'U' :: r => codePoint 8 r
  | c :: r => (simpleEscape? c).map (·, r)
  | [] => none

theorem escape_length {s rest : List Char} {c : Char} (h : escape s = some (c, rest)) :
    rest.length < s.length := by
  unfold escape at h
  split at h
  · exact Nat.lt_succ_of_le (codePoint_length_le h)
  · exact Nat.lt_succ_of_le (codePoint_length_le h)
  · exact Nat.lt_succ_of_le (codePoint_length_le h)
  · obtain ⟨_, -, he⟩ := Option.map_eq_some_iff.1 h
    cases he
    simp
  · simp at h

def push (c : Char) (read : List Char × List Char) : List Char × List Char := (c :: read.1, read.2)

/-- The rest of a text on one line, read after its opening quote. -/
def basicText (s : List Char) : Option (List Char × List Char) :=
  match s with
  | [] => none
  | '"' :: r => some ([], r)
  | '\\' :: r =>
    match _he : escape r with
    | some (c, rest) => (basicText rest).map (push c)
    | none => none
  | c :: r => if isControl c then none else (basicText r).map (push c)
termination_by s.length
decreasing_by
  · have := escape_length _he
    simp only [List.length_cons]
    omega
  · simp

def literalText : Lexer (List Char)
  | [] => none
  | '\'' :: r => some ([], r)
  | c :: r => if isControl c then none else (literalText r).map (push c)

/-- The quotes that stand before the three that close a text: two at most. -/
def closingQuotes (quote : Char) : List Char → List Char × List Char
  | c :: d :: r =>
    if c = quote then if d = quote then ([c, d], r) else ([c], d :: r) else ([], c :: d :: r)
  | [c] => if c = quote then ([c], []) else ([], [c])
  | [] => ([], [])

/-- Whether nothing but blanks is left of the line. -/
def endsLine (s : List Char) : Bool := (afterNewline? (skipSpaces s)).isSome

/-- The text after blanks and ends of lines. -/
def skipLines : List Char → List Char
  | '\r' :: '\n' :: r => skipLines r
  | c :: r => if isSpace c || c = '\n' then skipLines r else c :: r
  | [] => []

theorem skipLines_length_le (s : List Char) : (skipLines s).length ≤ s.length := by
  fun_induction skipLines s with
  | case1 r ih =>
    simp only [List.length_cons]
    omega
  | case2 c r _ _ ih =>
    simp only [List.length_cons]
    omega
  | case3 => exact Nat.le_refl _
  | case4 => exact Nat.le_refl _

/-- The rest of a text over several lines, read after its opening quotes. The ends of lines belong
to the text as they are written; a backslash at the end of a line joins it to the next text. -/
def basicLines (s : List Char) : Option (List Char × List Char) :=
  match s with
  | [] => none
  | '"' :: '"' :: '"' :: r => some (closingQuotes '"' r)
  | '\r' :: '\n' :: r => (basicLines r).map fun read => push '\r' (push '\n' read)
  | '\\' :: r =>
    if endsLine r then basicLines (skipLines r)
    else
      match _he : escape r with
      | some (c, rest) => (basicLines rest).map (push c)
      | none => none
  | c :: r => if isControl c && c ≠ '\n' then none else (basicLines r).map (push c)
termination_by s.length
decreasing_by
  · simp only [List.length_cons]
    omega
  · have := skipLines_length_le r
    simp only [List.length_cons]
    omega
  · have := escape_length _he
    simp only [List.length_cons]
    omega
  · simp

def literalLines : Lexer (List Char)
  | [] => none
  | '\'' :: '\'' :: '\'' :: r => some (closingQuotes '\'' r)
  | '\r' :: '\n' :: r => (literalLines r).map fun read => push '\r' (push '\n' read)
  | c :: r => if isControl c && c ≠ '\n' then none else (literalLines r).map (push c)

/-- The text without the end of line that may come right after the opening quotes. -/
def afterOpening (s : List Char) : List Char := (afterNewline? s).getD s

/-- A quoted text of any form. -/
def quotedText : Lexer (List Char)
  | '"' :: '"' :: '"' :: r => basicLines (afterOpening r)
  | '\'' :: '\'' :: '\'' :: r => literalLines (afterOpening r)
  | '"' :: r => basicText r
  | '\'' :: r => literalText r
  | _ => none

def isKeyChar (c : Char) : Bool := c.isAlphanum || c = '_' || c = '-'

def keyPart : Lexer String
  | '"' :: r => (basicText r).map fun (text, rest) => (String.ofList text, rest)
  | '\'' :: r => (literalText r).map fun (text, rest) => (String.ofList text, rest)
  | s =>
    match s.takeWhile isKeyChar with
    | [] => none
    | name => some (String.ofList name, s.dropWhile isKeyChar)

/-- The parts of a key, no more than a limit, with points between them and blanks around all of
them. -/
def key : (limit : Nat) → Lexer (List String)
  | 0, _ => none
  | limit + 1, s => do
    let (part, rest) ← keyPart (skipSpaces s)
    match skipSpaces rest with
    | '.' :: rest => do
      let (parts, rest) ← key limit rest
      return (part :: parts, rest)
    | rest => return ([part], rest)

def mark (c : Char) : List Char → Option (List Char)
  | d :: r => if c = d then some r else none
  | [] => none

end SemanticLayer.Toml
