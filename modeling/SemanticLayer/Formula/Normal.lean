import SemanticLayer.Text.Arguments
import SemanticLayer.Text.Blank
import SemanticLayer.Text.Search

set_option autoImplicit false

/-!
The normal form of a formula: no comments, single blanks, no parentheses around the whole.
-/
namespace SemanticLayer.Formula

/-- Calls of formulas: only parentheses nest, and names in brackets, quoted tables and texts are
skipped. -/
def argumentStyle : Text.ArgumentStyle where
  opens c := c = '('
  closes c := c = ')'
  regionEnd
    | '[' => some ']'
    | '\'' => some '\''
    | '"' => some '"'
    | _ => none

def splitArguments (s : List Char) : Option Text.Arguments := Text.splitArguments argumentStyle s

/-- Whether a text is one group whose first parenthesis is closed by its last character. -/
def isWrapped (s : List Char) : Bool :=
  match splitArguments s with
  | some found => found.after.isEmpty
  | none => false

def cutComment : List Char → List Char
  | [] => []
  | '/' :: '/' :: _ => []
  | '-' :: '-' :: _ => []
  | c :: r => c :: cutComment r

/-- Without the parentheses that enclose the whole text, however many there are. -/
def unwrap (s : List Char) : List Char :=
  if isWrapped s then unwrap (Text.trim (s.drop 1).dropLast) else s
termination_by s.length
decreasing_by
  rename_i h
  have shorter : (Text.trim (s.drop 1).dropLast).length ≤ (s.drop 1).dropLast.length :=
    Text.trim_length_le _
  cases s with
  | nil => simp [isWrapped, splitArguments, Text.splitArguments] at h
  | cons c r =>
    simp only [List.drop_succ_cons, List.drop_zero, List.length_dropLast,
      List.length_cons] at shorter ⊢
    omega

/-- The words of the lines without their comments, one blank between them. -/
def flatten (s : List Char) : List Char :=
  [' '].intercalate (Text.words ([' '].intercalate ((Text.lines s).map cutComment)))

def normalize (s : List Char) : List Char := unwrap (flatten s)

end SemanticLayer.Formula
