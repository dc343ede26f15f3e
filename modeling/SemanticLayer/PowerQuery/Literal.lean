import SemanticLayer.Text.Arguments
import SemanticLayer.Text.Search

set_option autoImplicit false

namespace SemanticLayer.PowerQuery

/-- Calls of Power Query expressions: parentheses, lists and records nest, string literals are
skipped. -/
def argumentStyle : Text.ArgumentStyle where
  opens c := c = '(' || c = '[' || c = '{'
  closes c := c = ')' || c = ']' || c = '}'
  regionEnd
    | '"' => some '"'
    | _ => none

def splitArguments (s : List Char) : Option Text.Arguments := Text.splitArguments argumentStyle s

/-- The escapes of a literal and what they stand for, in the order in which they are resolved. -/
def escapes : List (List Char × List Char) := [
  (['"', '"'], ['"']),
  ("#(cr,lf)".toList, ['\r', '\n']),
  ("#(lf)".toList, ['\n']),
  ("#(cr)".toList, ['\r']),
  ("#(tab)".toList, ['\t']),
  ("#(#)".toList, ['#'])]

def unescape (raw : List Char) : List Char :=
  escapes.foldl (fun text (written, meant) => Text.replaceAll written meant text) raw

/-- The string literal at the start of a text: its length in bytes, the text that it stands for, and
what follows it. -/
def readLiteral : List Char → Option (Nat × List Char × List Char)
  | '"' :: r => (Text.splitClose '"' r).map fun (inside, rest) =>
      (Text.byteLength inside + 2, unescape inside, rest)
  | _ => none

def stringLiteral (s : List Char) : Option (List Char × List Char) := (readLiteral s).map (·.2)

theorem readLiteral_eq_some {s text rest : List Char} {bytes : Nat}
    (h : readLiteral s = some (bytes, text, rest)) : ∃ inside,
      Text.splitClose '"' (inside ++ '"' :: rest) = some (inside, rest) ∧
        s = '"' :: (inside ++ '"' :: rest) ∧ bytes = Text.byteLength inside + 2 ∧
          text = unescape inside := by
  unfold readLiteral at h
  split at h
  · obtain ⟨⟨inside, after⟩, closed, shape⟩ := Option.map_eq_some_iff.1 h
    cases shape
    have split := Text.splitClose_eq_append closed
    exact ⟨inside, split ▸ closed, congrArg _ split, rfl, rfl⟩
  · cases h

theorem byteLength_of_readLiteral {s text rest : List Char} {bytes : Nat}
    (h : readLiteral s = some (bytes, text, rest)) :
    Text.byteLength s = bytes + Text.byteLength rest := by
  obtain ⟨inside, -, rfl, rfl, -⟩ := readLiteral_eq_some h
  have quote : '"'.utf8Size = 1 := rfl
  rw [Text.byteLength, Text.byteLength_append, Text.byteLength, quote]
  omega

theorem stringLiteral_length {s text rest : List Char}
    (h : stringLiteral s = some (text, rest)) : rest.length + 1 < s.length := by
  obtain ⟨⟨bytes, _, _⟩, read, shape⟩ := Option.map_eq_some_iff.1 h
  cases shape
  obtain ⟨inside, -, rfl, -⟩ := readLiteral_eq_some read
  simp only [List.length_cons, List.length_append]
  omega

end SemanticLayer.PowerQuery
