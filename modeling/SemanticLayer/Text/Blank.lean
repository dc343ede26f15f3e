set_option autoImplicit false

namespace SemanticLayer.Text

/-- White space of every script. The zero-width space is not among it. -/
def isBlank (c : Char) : Bool :=
  let n := c.toNat
  (9 ≤ n && n ≤ 13) || n == 0x20 || n == 0x85 || n == 0xA0 || n == 0x1680 ||
    (0x2000 ≤ n && n ≤ 0x200A) || n == 0x2028 || n == 0x2029 || n == 0x202F ||
    n == 0x205F || n == 0x3000

def trimStart (s : List Char) : List Char := s.dropWhile isBlank

/-- The text without its trailing blanks; a blank stays when a character that is not follows it. -/
def trimEnd : List Char → List Char
  | [] => []
  | c :: r =>
    match trimEnd r with
    | [] => if isBlank c then [] else [c]
    | kept => c :: kept

def trim (s : List Char) : List Char := trimEnd (trimStart s)

theorem trimStart_length_le (s : List Char) : (trimStart s).length ≤ s.length :=
  (List.dropWhile_suffix _).length_le

theorem trimEnd_length_le (s : List Char) : (trimEnd s).length ≤ s.length := by
  induction s with
  | nil => simp [trimEnd]
  | cons c r ih =>
    unfold trimEnd
    split
    · split <;> simp
    · simp_all

theorem trim_length_le (s : List Char) : (trim s).length ≤ s.length :=
  Nat.le_trans (trimEnd_length_le _) (trimStart_length_le _)

def isBlankText (s : String) : Bool := s.toList.all isBlank

def trimmed (s : String) : String := String.ofList (trim s.toList)

def runs (keep : Char → Bool) : List Char → List (List Char)
  | [] => []
  | c :: r =>
    if keep c then
      match r, runs keep r with
      | d :: _, w :: ws => if keep d then (c :: w) :: ws else [c] :: w :: ws
      | _, ws => [c] :: ws
    else runs keep r

def words (s : List Char) : List (List Char) := runs (fun c => !isBlank c) s

/-- The pieces between the occurrences of one character; there is always at least one. -/
def splitAt (separator : Char) : List Char → List (List Char)
  | [] => [[]]
  | c :: r =>
    if c = separator then [] :: splitAt separator r
    else
      match splitAt separator r with
      | [] => [[c]]
      | piece :: rest => (c :: piece) :: rest

/-- The lines of a text. A line ends at a line feed, together with a carriage return before it;
a carriage return elsewhere ends nothing, and an end at the very end opens no further line. -/
def lines : List Char → List (List Char)
  | [] => []
  | c :: r =>
    if c = '\n' then [] :: lines r
    else
      match r, lines r with
      | '\n' :: _, l :: ls => (if c = '\r' then l else c :: l) :: ls
      | _, l :: ls => (c :: l) :: ls
      | _, [] => [[c]]

end SemanticLayer.Text
