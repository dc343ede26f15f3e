import SemanticLayer.Text.CaseTable

set_option autoImplicit false

/-!
Two foldings of case: `equalFold` and `lowerAscii` touch the letters A to Z only and decide which
references meet which names, `lower` follows Unicode and decides which identifiers collide.
-/
namespace SemanticLayer.Text

def lowerAscii (s : String) : String := String.ofList (s.toList.map Char.toLower)

def equalFold (a b : String) : Bool := a.toList.map Char.toLower == b.toList.map Char.toLower

theorem equalFold_iff (a b : String) : equalFold a b = true ↔ lowerAscii a = lowerAscii b := by
  simp [equalFold, lowerAscii, String.ofList_inj]

theorem equalFold_refl (a : String) : equalFold a a = true := by
  simp [equalFold]

private def inRanges (ranges : List (Nat × Nat)) (c : Char) : Bool :=
  ranges.any fun (lo, hi) => lo ≤ c.toNat && c.toNat ≤ hi

def isCased (c : Char) : Bool :=
  if c.toNat < 0x80 then c.isAlpha else inRanges casedRanges c

def isCaseIgnorable (c : Char) : Bool := inRanges caseIgnorableRanges c

def CaseRun.covers (run : CaseRun) (n : Nat) : Bool :=
  run.first ≤ n && n ≤ run.last && (n - run.first) % run.step == 0

/-- The lower-case form of a character that has a single one. -/
def lowerChar (c : Char) : Char :=
  if c.toNat < 0x80 then c.toLower
  else
    match caseRuns.find? (CaseRun.covers · c.toNat) with
    | some run => Char.ofNat (c.toNat + run.shift).toNat
    | none => c

/-- Whether a cased letter comes first once the characters that do not interrupt a word are
skipped. -/
def casedFirst (s : List Char) : Bool :=
  match s.dropWhile isCaseIgnorable with
  | [] => false
  | c :: _ => isCased c

/-- Lower-cases a text whose characters before it are given last one first. A capital sigma
becomes the final form where a word ends at it; the dotted capital I keeps its dot as a mark. -/
def lowerFrom (before : List Char) : List Char → List Char
  | [] => []
  | c :: r =>
    if c = 'Σ' then
      (if casedFirst before && !casedFirst r then 'ς' else 'σ') :: lowerFrom (c :: before) r
    else if c = 'İ' then
      'i' :: '\u0307' :: lowerFrom (c :: before) r
    else
      lowerChar c :: lowerFrom (c :: before) r

def lower (s : String) : String := String.ofList (lowerFrom [] s.toList)

end SemanticLayer.Text
