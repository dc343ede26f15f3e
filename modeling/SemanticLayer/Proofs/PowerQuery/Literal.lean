import Mathlib.Data.List.Infix
import SemanticLayer.PowerQuery.Literal
import SemanticLayer.Proofs.Text.Delimited

set_option autoImplicit false

/-!
What a literal denotes, and that a text between its quotes is read back.

`Denotes` reads a literal once, from left to right. The escapes are resolved one after the other
over the whole text, so what the first ones put in could be read again by the later ones, or a piece
of one escape be taken for another. `Escape.Apart` and `Escape.Fresh` exclude this and hold of every
escape and each later one, so `unescape_eq_iff`. `Spells` says how a name is written so that it is
read back, and `encode` writes every text.
-/
namespace SemanticLayer.PowerQuery

/-- What is written, and what it stands for. -/
abbrev Escape := List Char × List Char

namespace Escape

/-- An escape that a hash starts goes on with a parenthesis, and none stands for one. -/
def Proper (e : Escape) : Prop :=
  e.1 ≠ [] ∧ (e.1.head? = some '#' → e.1[1]? = some '(') ∧ e.2 ≠ [] ∧ e.2.head? ≠ some '('

instance (e : Escape) : Decidable e.Proper := by unfold Proper; infer_instance

/-- Resolving the first of two escapes neither touches nor starts the other one. -/
def Apart (e later : Escape) : Prop :=
  (∀ c ∈ e.2, later.1.head? ≠ some c) ∧
    ∀ t ∈ later.1.tails, t ≠ [] → ¬t <+: e.1 ∧ ¬e.1 <+: t

instance (e later : Escape) : Decidable (e.Apart later) :=
  have : Decidable (∀ c ∈ e.2, later.1.head? ≠ some c) := List.decidableBAll _ _
  inferInstanceAs (Decidable (_ ∧ _))

/-- What an escape stands for has no character that occurs in a later one. -/
def Fresh (e later : Escape) : Prop := ∀ c ∈ e.2, c ∉ later.1

instance (e later : Escape) : Decidable (e.Fresh later) :=
  List.decidableBAll _ _

end Escape

theorem proper_escapes : ∀ e ∈ escapes, Escape.Proper e := by decide +kernel

theorem apart_escapes : escapes.Pairwise Escape.Apart := by decide +kernel

theorem fresh_escapes : escapes.Pairwise Escape.Fresh := by decide +kernel

/-- A text in which each escape is what it stands for, and every other character is itself. -/
inductive Denotes (pending : List Escape) : List Char → List Char → Prop where
  | nil : Denotes pending [] []
  | plain {c : Char} {raw text : List Char} (free : ∀ e ∈ pending, ¬e.1 <+: c :: raw)
      (rest : Denotes pending raw text) : Denotes pending (c :: raw) (c :: text)
  | escape {e : Escape} {raw text : List Char} (mem : e ∈ pending)
      (rest : Denotes pending raw text) : Denotes pending (e.1 ++ raw) (e.2 ++ text)

section Resolving

variable {e : Escape} {pending : List Escape}

theorem replaceAll_escape (he : e.Proper) (rest : List Char) :
    Text.replaceAll e.1 e.2 (e.1 ++ rest) = e.2 ++ Text.replaceAll e.1 e.2 rest := by
  obtain ⟨c, tail, hc⟩ := List.exists_cons_of_ne_nil he.1
  rw [hc]
  exact Text.replaceAll_append_self c tail e.2 rest

theorem replaceAll_apart {later : Escape} (apart : e.Apart later) (rest : List Char) :
    Text.replaceAll e.1 e.2 (later.1 ++ rest) = later.1 ++ Text.replaceAll e.1 e.2 rest :=
  Text.replaceAll_append (fun t ht => apart.2 t ((List.mem_tails t later.1).2 ht)) e.2 rest

/-- Resolving an escape makes no text that has no character of what it stands for. -/
theorem prefix_of_prefix_replaceAll (he : e.Proper) {t raw : List Char}
    (fresh : ∀ c ∈ e.2, c ∉ t) (h : t <+: Text.replaceAll e.1 e.2 raw) : t <+: raw := by
  induction t generalizing raw with
  | nil => exact List.nil_prefix
  | cons c t ih =>
    cases raw with
    | nil => exact h
    | cons d raw =>
      by_cases here : e.1 <+: d :: raw
      · obtain ⟨rest, same⟩ := here
        obtain ⟨m, meant, hm⟩ := List.exists_cons_of_ne_nil he.2.2.1
        rw [← same, replaceAll_escape he, hm] at h
        have first : c = m := (List.cons_prefix_cons.1 h).1
        exact absurd (first ▸ List.mem_cons_self) (fresh m (hm ▸ List.mem_cons_self))
      · rw [Text.replaceAll_cons_of_absent here] at h
        obtain ⟨rfl, later⟩ := List.cons_prefix_cons.1 h
        have rest : ∀ x ∈ e.2, x ∉ t := fun x hx inner =>
          fresh x hx (List.mem_cons_of_mem c inner)
        exact List.cons_prefix_cons.2 ⟨rfl, ih rest later⟩

theorem Denotes.chars {s raw text : List Char} (proper : ∀ x ∈ pending, Escape.Proper x)
    (free : ∀ c ∈ s, ∀ x ∈ pending, c ∉ x.1) (h : Denotes pending raw text) :
    Denotes pending (s ++ raw) (s ++ text) := by
  induction s with
  | nil => exact h
  | cons c s ih =>
    refine .plain (fun x hx start => ?_) (ih fun d hd => free d (List.mem_cons_of_mem c hd))
    obtain ⟨d, tail, hd⟩ := List.exists_cons_of_ne_nil (proper x hx).1
    rw [hd] at start
    have first : d = c := (List.cons_prefix_cons.1 start).1
    exact free c List.mem_cons_self x hx (by rw [hd, first]; exact List.mem_cons_self)

theorem Denotes.replaceAll (proper : ∀ x ∈ e :: pending, Escape.Proper x)
    (apart : ∀ later ∈ pending, e.Apart later) (fresh : ∀ later ∈ pending, e.Fresh later)
    {raw text : List Char} (h : Denotes (e :: pending) raw text) :
    Denotes pending (Text.replaceAll e.1 e.2 raw) text := by
  have he := proper e List.mem_cons_self
  have later (x : Escape) (hx : x ∈ pending) := proper x (List.mem_cons_of_mem e hx)
  induction h with
  | nil => exact .nil
  | @plain c raw text free _ ih =>
    have here := Text.replaceAll_cons_of_absent (free e List.mem_cons_self) e.2
    rw [here]
    refine .plain (fun x hx start => ?_) ih
    rw [← here] at start
    exact free x (List.mem_cons_of_mem e hx) (prefix_of_prefix_replaceAll he (fresh x hx) start)
  | @escape x raw text mem _ ih =>
    obtain rfl | among := List.mem_cons.1 mem
    · rw [replaceAll_escape he]
      exact ih.chars later fun c hc y hy => fresh y hy c hc
    · rw [replaceAll_apart (apart x among)]
      exact .escape among ih

theorem Denotes.eq {raw text : List Char} (h : Denotes [] raw text) : raw = text := by
  induction h with
  | nil => rfl
  | plain _ _ ih => rw [ih]
  | escape mem _ _ => cases mem

theorem Denotes.resolve (proper : ∀ x ∈ pending, Escape.Proper x)
    (apart : pending.Pairwise Escape.Apart) (fresh : pending.Pairwise Escape.Fresh)
    {raw text : List Char} (h : Denotes pending raw text) :
    pending.foldl (fun s e => Text.replaceAll e.1 e.2 s) raw = text := by
  induction pending generalizing raw with
  | nil => exact h.eq
  | cons e pending ih =>
    obtain ⟨first, others⟩ := List.pairwise_cons.1 apart
    obtain ⟨firstFresh, othersFresh⟩ := List.pairwise_cons.1 fresh
    exact ih (fun x hx => proper x (List.mem_cons_of_mem e hx)) others othersFresh
      (h.replaceAll proper first firstFresh)

theorem exists_denotes (proper : ∀ x ∈ pending, Escape.Proper x) (raw : List Char) :
    ∃ text, Denotes pending raw text := by
  induction length : raw.length using Nat.strong_induction_on generalizing raw with
  | _ n ih =>
    subst length
    by_cases found : ∃ e ∈ pending, e.1 <+: raw
    · obtain ⟨e, mem, rest, rfl⟩ := found
      have shorter : rest.length < (e.1 ++ rest).length := by
        have nonempty := List.length_pos_iff.2 (proper e mem).1
        rw [List.length_append]
        omega
      obtain ⟨text, h⟩ := ih rest.length shorter rest rfl
      exact ⟨e.2 ++ text, .escape mem h⟩
    · cases raw with
      | nil => exact ⟨[], .nil⟩
      | cons c raw =>
        obtain ⟨text, h⟩ := ih raw.length (by simp) raw rfl
        exact ⟨c :: text, .plain (fun e mem start => found ⟨e, mem, start⟩) h⟩

end Resolving

/-- Resolving the escapes one after the other is reading a text once. -/
theorem unescape_eq_iff {raw text : List Char} :
    unescape raw = text ↔ Denotes escapes raw text := by
  have resolved {t : List Char} (h : Denotes escapes raw t) : unescape raw = t :=
    h.resolve proper_escapes apart_escapes fresh_escapes
  constructor
  · intro same
    obtain ⟨t, h⟩ := exists_denotes proper_escapes raw
    rw [← same, resolved h]
    exact h
  · exact resolved

/-- A character that starts no escape. A hash is one if no parenthesis follows it. -/
def Plain (pending : List Escape) (c : Char) (rest : List Char) : Prop :=
  ∀ e ∈ pending, e.1.head? = some c → c = '#' ∧ rest.head? ≠ some '('

/-- A name, character by character or by some of the escapes. -/
inductive Spells (pending : List Escape) : List Char → List Char → Prop where
  | nil : Spells pending [] []
  | plain {c : Char} {raw name : List Char} (free : Plain pending c raw)
      (rest : Spells pending raw name) : Spells pending (c :: raw) (c :: name)
  | escape {e : Escape} {raw name : List Char} (mem : e ∈ pending)
      (rest : Spells pending raw name) : Spells pending (e.1 ++ raw) (e.2 ++ name)

theorem Spells.chars {pending : List Escape} {s raw name : List Char}
    (free : ∀ c ∈ s, ∀ e ∈ pending, e.1.head? ≠ some c) (h : Spells pending raw name) :
    Spells pending (s ++ raw) (s ++ name) := by
  induction s with
  | nil => exact h
  | cons c s ih =>
    refine .plain (fun e he start => absurd start (free c List.mem_cons_self e he)) ?_
    exact ih fun d hd => free d (List.mem_cons_of_mem c hd)

theorem Spells.prepend {s raw name : List Char} (quotes : '"' ∉ s) (hashes : '#' ∉ s)
    (h : Spells escapes raw name) : Spells escapes (s ++ raw) (s ++ name) := by
  have free : ∀ c ∈ s, ∀ e ∈ escapes, e.1.head? ≠ some c := by
    intro c hc e he start
    have marks : ∀ e ∈ escapes, e.1.head? = some '"' ∨ e.1.head? = some '#' := by decide
    obtain quote | hash := marks e he
    · exact quotes (Option.some.inj (quote.symm.trans start) ▸ hc)
    · exact hashes (Option.some.inj (hash.symm.trans start) ▸ hc)
  exact .chars free h

theorem Spells.of_plain {s : List Char} (quotes : '"' ∉ s) (hashes : '#' ∉ s) :
    Spells escapes s s := by
  simpa using Spells.prepend quotes hashes .nil

theorem Plain.not_start {e : Escape} {pending : List Escape} (mem : e ∈ pending) (he : e.Proper)
    {c : Char} {raw : List Char} (free : Plain pending c raw) : ¬e.1 <+: c :: raw := by
  obtain ⟨nonempty, hash, -⟩ := he
  intro start
  obtain ⟨d, tail, hd⟩ := List.exists_cons_of_ne_nil nonempty
  rw [hd] at start
  obtain ⟨rfl, below⟩ := List.cons_prefix_cons.1 start
  obtain ⟨rfl, next⟩ := free e mem (by rw [hd]; rfl)
  have parenthesis : tail.head? = some '(' := by
    simpa [hd, List.head?_eq_getElem?] using hash (by rw [hd]; rfl)
  obtain ⟨more, rfl⟩ := List.head?_eq_some_iff.1 parenthesis
  obtain ⟨rest, rfl⟩ := below
  exact next rfl

theorem Spells.denotes {pending : List Escape} (proper : ∀ x ∈ pending, Escape.Proper x)
    {raw name : List Char} (h : Spells pending raw name) : Denotes pending raw name := by
  induction h with
  | nil => exact .nil
  | plain free _ ih => exact .plain (fun e mem => free.not_start mem (proper e mem)) ih
  | escape mem _ ih => exact .escape mem ih

theorem Plain.ne_quote {c : Char} {raw : List Char} (free : Plain escapes c raw) : c ≠ '"' := by
  rintro rfl
  have hash := (free (['"', '"'], ['"']) (by decide) rfl).1
  revert hash
  decide

/-- Quotes come in pairs, and no escape but the first one holds any. -/
theorem quotes_of_mem {e : Escape} (h : e ∈ escapes) : e.1 = ['"', '"'] ∨ '"' ∉ e.1 := by
  revert e
  decide

theorem Spells.paired {raw name : List Char} (h : Spells escapes raw name) :
    Text.Paired '"' raw := by
  induction h with
  | nil => exact .nil
  | plain free _ ih => exact .char free.ne_quote ih
  | @escape e raw _ mem _ ih =>
    obtain quotes | none := quotes_of_mem mem
    · rw [quotes]
      exact .pair ih
    · exact ih.append_of_notMem none

def IsLiteral (s text : List Char) : Prop :=
  ∃ raw, Text.Paired '"' raw ∧ Denotes escapes raw text ∧ s = '"' :: (raw ++ ['"'])

theorem Spells.isLiteral {raw name : List Char} (h : Spells escapes raw name) :
    IsLiteral ('"' :: (raw ++ ['"'])) name :=
  ⟨raw, h.paired, h.denotes proper_escapes, rfl⟩

theorem stringLiteral_eq_some_iff {s text rest : List Char} :
    stringLiteral s = some (text, rest) ↔
      ∃ literal, IsLiteral literal text ∧ rest.head? ≠ some '"' ∧ s = literal ++ rest := by
  constructor
  · intro found
    obtain ⟨⟨bytes, _, _⟩, read, same⟩ := Option.map_eq_some_iff.1 found
    cases same
    obtain ⟨raw, closed, rfl, -, rfl⟩ := readLiteral_eq_some read
    obtain ⟨paired, apart, -⟩ := Text.splitClose_eq_some_iff.1 closed
    exact ⟨_, ⟨raw, paired, unescape_eq_iff.1 rfl, rfl⟩, apart, by simp⟩
  · rintro ⟨literal, ⟨raw, paired, denotes, rfl⟩, apart, rfl⟩
    simp [stringLiteral, readLiteral, paired.splitClose apart, unescape_eq_iff.2 denotes]

/-- A literal is read back, unless its closing quote runs into another one. -/
theorem stringLiteral_spelled {raw name rest : List Char} (h : Spells escapes raw name)
    (after : rest.head? ≠ some '"') :
    stringLiteral ('"' :: (raw ++ '"' :: rest)) = some (name, rest) :=
  stringLiteral_eq_some_iff.2 ⟨_, h.isLiteral, after, by simp⟩

def encodeChar : Char → List Char
  | '"' => ['"', '"']
  | '#' => "#(#)".toList
  | '\n' => "#(lf)".toList
  | '\r' => "#(cr)".toList
  | '\t' => "#(tab)".toList
  | c => [c]

def encode (s : List Char) : List Char := s.flatMap encodeChar

def quoted (s : List Char) : List Char := '"' :: (encode s ++ ['"'])

theorem encodeChar_cases (c : Char) :
    (encodeChar c, [c]) ∈ escapes ∨ encodeChar c = [c] ∧ c ≠ '"' ∧ c ≠ '#' := by
  unfold encodeChar
  split
  · exact Or.inl (by decide)
  · exact Or.inl (by decide)
  · exact Or.inl (by decide)
  · exact Or.inl (by decide)
  · exact Or.inl (by decide)
  · rename_i quote hash _ _ _
    exact Or.inr ⟨rfl, quote, hash⟩

theorem spells_encode (s : List Char) : Spells escapes (encode s) s := by
  induction s with
  | nil => exact .nil
  | cons c s ih =>
    change Spells escapes (encodeChar c ++ encode s) ([c] ++ s)
    rcases encodeChar_cases c with escape | ⟨same, quote, hash⟩
    · exact .escape escape ih
    · rw [same]
      exact ih.prepend (by simpa using Ne.symm quote) (by simpa using Ne.symm hash)

/-- A text is read back from its literal, and exactly the bytes of the literal are read. -/
theorem stringLiteral_quoted (s : List Char) {rest : List Char} (after : rest.head? ≠ some '"') :
    readLiteral (quoted s ++ rest) = some (Text.byteLength (quoted s), s, rest) ∧
      stringLiteral (quoted s ++ rest) = some (s, rest) := by
  have found : stringLiteral (quoted s ++ rest) = some (s, rest) :=
    stringLiteral_eq_some_iff.2 ⟨quoted s, (spells_encode s).isLiteral, after, rfl⟩
  obtain ⟨⟨bytes, _, _⟩, read, shape⟩ := Option.map_eq_some_iff.1 found
  cases shape
  have length := byteLength_of_readLiteral read
  rw [Text.byteLength_append] at length
  rw [read, Nat.add_right_cancel length]
  exact ⟨rfl, found⟩

/-- A text that looks like an escape is not taken for one. -/
theorem stringLiteral_quoted_escape :
    ", null".toList.head? ≠ some '"' ∧
      readLiteral "\"#(#)(lf) \"\"é\"\"#(lf)\", null".toList =
        some (22, "#(lf) \"é\"\n".toList, ", null".toList) := by
  have after : ", null".toList.head? ≠ some '"' := by decide
  exact ⟨after, (stringLiteral_quoted "#(lf) \"é\"\n".toList after).1⟩

end SemanticLayer.PowerQuery
