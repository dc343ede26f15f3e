import Mathlib.Data.Fin.VecNotation
import SemanticLayer.Proofs.Identifier.Key
import SemanticLayer.Proofs.Text.LowerCase

set_option autoImplicit false

/-!
How far keys tell source objects apart. Keys fold case by the rules of Unicode and lookups fold the
letters A to Z only, and names are put into keys as they are, separators included; so keys identify
what is equal in lower case as long as no name holds a separator that ends it.
-/
namespace SemanticLayer.Identifier

open Text (lower equalFold IsAscii)

/-- The ways to build a key, by the number of names that they take. -/
inductive Builder : Nat → Type where
  | catalog : Builder 1
  | connection : Builder 1
  | model : Builder 1
  | dataset : Builder 1
  | dimension : Builder 1
  | aggregate : Builder 3
  | measure : Builder 2
  | hierarchy : Builder 2
  | level : Builder 2
  | secondaryAttribute : Builder 2
  | relationship : Builder 4
  | embeddedRelationship : Builder 4
  | selfRelationship : Builder 1
  | perspective : Builder 1

namespace Builder

def key : {n : Nat} → Builder n → (Fin n → String) → String
  | _, catalog, c => Key.catalog (c 0)
  | _, connection, c => Key.connection (c 0)
  | _, model, c => Key.model (c 0)
  | _, dataset, c => Key.dataset (c 0)
  | _, dimension, c => Key.dimension (c 0)
  | _, aggregate, c => Key.aggregate (c 0) (c 1) (c 2)
  | _, measure, c => Key.measure (c 0) (c 1)
  | _, hierarchy, c => Key.hierarchy (c 0) (c 1)
  | _, level, c => Key.level (c 0) (c 1)
  | _, secondaryAttribute, c => Key.secondaryAttribute (c 0) (c 1)
  | _, relationship, c => Key.relationship (c 0) (c 1) (c 2) (c 3)
  | _, embeddedRelationship, c => Key.embeddedRelationship (c 0) (c 1) (c 2) (c 3)
  | _, selfRelationship, c => Key.selfRelationship (c 0)
  | _, perspective, c => Key.perspective (c 0)

/-- No name holds the separator that ends it in the key. The last name of a key is ended by
nothing. -/
def Separable : {n : Nat} → Builder n → (Fin n → String) → Prop
  | _, aggregate, c => Key.Plain (c 0) ∧ Key.Plain (c 1)
  | _, measure, c | _, hierarchy, c | _, level, c | _, secondaryAttribute, c => Key.Plain (c 0)
  | _, relationship, c | _, embeddedRelationship, c =>
    '.' ∉ (lower (c 0)).toList ∧ ¬"->".toList <:+: (lower (c 1)).toList ∧
      '.' ∉ (lower (c 2)).toList
  | _, _, _ => True

/-- Whether names make a key look as if another builder had made it. -/
def Mimics : {n m : Nat} → Builder n → (Fin n → String) → Builder m → Prop
  | _, _, relationship, c, selfRelationship | _, _, embeddedRelationship, c, selfRelationship =>
    "self:".toList <+: (lower (c 0)).toList
  | _, _, relationship, c, embeddedRelationship =>
    ":embedded".toList <:+ (lower (c 3)).toList
  | _, _, _, _, _ => False

theorem key_congr {n : Nat} (b : Builder n) {c c' : Fin n → String}
    (h : ∀ i, lower (c i) = lower (c' i)) : b.key c = b.key c' := by
  cases b with
  | catalog | connection | model | dataset | dimension | perspective | selfRelationship =>
    exact Key.located_congr _ (congrArg (fun x => [x]) (h 0))
  | measure | hierarchy | level | secondaryAttribute =>
    exact Key.located_congr _ (congrArg₂ (fun x y => [x, y]) (h 0) (h 1))
  | aggregate =>
    refine Key.located_congr _ ?_
    rw [List.map_cons, List.map_cons, List.map_singleton, h 0, h 1, h 2]
    rfl
  | relationship => exact Key.relationship_congr (h 0) (h 1) (h 2) (h 3)
  | embeddedRelationship =>
    exact congrArg (· ++ ":embedded") (Key.relationship_congr (h 0) (h 1) (h 2) (h 3))

theorem append_mark_inj {mark : Char} {a b r q : List Char} (ha : mark ∉ a) (hb : mark ∉ b)
    (h : a ++ mark :: r = b ++ mark :: q) : a = b ∧ r = q := by
  induction a generalizing b with
  | nil =>
    cases b with
    | nil => exact ⟨rfl, (List.cons.inj h).2⟩
    | cons y b => exact absurd ((List.cons.inj h).1 ▸ List.mem_cons_self) hb
  | cons x a ih =>
    cases b with
    | nil => exact absurd ((List.cons.inj h).1 ▸ List.mem_cons_self) ha
    | cons y b =>
      obtain ⟨rfl, rest⟩ := List.cons.inj h
      obtain ⟨rfl, same⟩ := ih (List.not_mem_of_not_mem_cons ha) (List.not_mem_of_not_mem_cons hb)
        rest
      exact ⟨rfl, same⟩

theorem append_arrow_inj {a b r q : List Char} (ha : ¬['-', '>'] <:+: a) (hb : ¬['-', '>'] <:+: b)
    (h : a ++ '-' :: '>' :: r = b ++ '-' :: '>' :: q) : a = b ∧ r = q := by
  induction a generalizing b with
  | nil =>
    match b with
    | [] => exact ⟨rfl, (List.cons.inj (List.cons.inj h).2).2⟩
    | [y] => cases (List.cons.inj (List.cons.inj h).2).1
    | y :: z :: b =>
      obtain ⟨rfl, rest⟩ := List.cons.inj h
      obtain ⟨rfl, -⟩ := List.cons.inj rest
      exact absurd (List.prefix_append ['-', '>'] b).isInfix hb
  | cons x a ih =>
    cases b with
    | nil =>
      obtain ⟨rfl, rest⟩ := List.cons.inj h
      cases a with
      | nil => cases (List.cons.inj rest).1
      | cons z a =>
        obtain ⟨rfl, -⟩ := List.cons.inj rest
        exact absurd (List.prefix_append ['-', '>'] a).isInfix ha
    | cons y b =>
      obtain ⟨rfl, rest⟩ := List.cons.inj h
      obtain ⟨rfl, same⟩ := ih (fun inside => ha (inside.trans (List.suffix_cons _ _).isInfix))
        (fun inside => hb (inside.trans (List.suffix_cons _ _).isInfix)) rest
      exact ⟨rfl, same⟩

theorem toList_relationship (a b c d : String) : (Key.relationship a b c d).toList =
    "relationship:".toList ++ ((lower a).toList ++ '.' :: ((lower b).toList ++
      '-' :: '>' :: ((lower c).toList ++ '.' :: (lower d).toList))) := by
  have dot : ".".toList = ['.'] := rfl
  have arrow : "->".toList = ['-', '>'] := rfl
  unfold Key.relationship
  simp only [String.toList_append, dot, arrow, List.append_assoc, List.cons_append,
    List.nil_append]

theorem relationship_inj {c c' : Fin 4 → String} (separable : relationship.Separable c)
    (separable' : relationship.Separable c')
    (h : relationship.key c = relationship.key c') : ∀ i, lower (c i) = lower (c' i) := by
  have texts := congrArg String.toList h
  rw [key, key, toList_relationship, toList_relationship] at texts
  obtain ⟨first, texts⟩ := append_mark_inj separable.1 separable'.1 (List.append_cancel_left texts)
  obtain ⟨second, texts⟩ := append_arrow_inj separable.2.1 separable'.2.1 texts
  obtain ⟨third, fourth⟩ := append_mark_inj separable.2.2 separable'.2.2 texts
  rw [Fin.forall_fin_succ, Fin.forall_fin_succ, Fin.forall_fin_two]
  exact ⟨String.toList_inj.1 first, String.toList_inj.1 second, String.toList_inj.1 third,
    String.toList_inj.1 fourth⟩

theorem key_inj {n : Nat} (b : Builder n) {c c' : Fin n → String} (separable : b.Separable c)
    (separable' : b.Separable c') (h : b.key c = b.key c') : ∀ i, lower (c i) = lower (c' i) := by
  have one {kind : String} {i j : String} (h : Key.located kind [i] = Key.located kind [j]) :
      lower i = lower j := by
    rw [Key.located_one, Key.located_one] at h
    exact (String.append_right_inj _).1 h
  cases b with
  | catalog | connection | model | dataset | dimension | perspective | selfRelationship =>
    exact Fin.forall_fin_one.2 (one h)
  | measure => exact Fin.forall_fin_two.2 (Key.measure_inj separable separable' h)
  | hierarchy => exact Fin.forall_fin_two.2 (Key.hierarchy_inj separable separable' h)
  | level => exact Fin.forall_fin_two.2 (Key.level_inj separable separable' h)
  | secondaryAttribute =>
    exact Fin.forall_fin_two.2 (Key.secondaryAttribute_inj separable separable' h)
  | aggregate =>
    rw [Fin.forall_fin_succ, Fin.forall_fin_two]
    exact Key.aggregate_inj separable.1 separable'.1 separable.2 separable'.2 h
  | relationship => exact relationship_inj separable separable' h
  | embeddedRelationship =>
    exact relationship_inj separable separable' ((String.append_left_inj _).1 h)

def word : {n : Nat} → Builder n → String
  | _, catalog => "catalog"
  | _, connection => "connection"
  | _, model => "model"
  | _, dataset => "dataset"
  | _, dimension => "dimension"
  | _, aggregate => "aggregate"
  | _, measure => "measure"
  | _, hierarchy => "hierarchy"
  | _, level => "level"
  | _, secondaryAttribute => "attribute"
  | _, relationship | _, embeddedRelationship | _, selfRelationship => "relationship"
  | _, perspective => "perspective"

theorem word_key {n : Nat} (b : Builder n) (c : Fin n → String) : Key.word (b.key c) = b.word := by
  cases b with
  | catalog => exact Key.word_catalog _
  | connection => exact Key.word_connection _
  | model => exact Key.word_model _
  | dataset => exact Key.word_dataset _
  | dimension => exact Key.word_dimension _
  | aggregate => exact Key.word_aggregate _ _ _
  | measure => exact Key.word_measure _ _
  | hierarchy => exact Key.word_hierarchy _ _
  | level => exact Key.word_level _ _
  | secondaryAttribute => exact Key.word_secondaryAttribute _ _
  | relationship => exact Key.word_relationship _ _ _ _
  | embeddedRelationship => exact Key.word_embeddedRelationship _ _ _ _
  | selfRelationship => exact Key.word_selfRelationship _
  | perspective => exact Key.word_perspective _

theorem starts_self {a b c d rest table : String}
    (h : Key.relationship a b c d ++ rest = Key.selfRelationship table) :
    "self:".toList <+: (lower a).toList := by
  have texts := congrArg String.toList h
  have start : Key.selfRelationship table = "relationship:" ++ ("self:" ++ lower table) := by
    rw [← String.append_assoc]
    rfl
  rw [start, String.toList_append, String.toList_append, String.toList_append, toList_relationship,
    List.append_assoc, List.append_assoc] at texts
  rcases List.append_eq_append_iff.1 (List.append_cancel_left texts) with
    ⟨z, same, next⟩ | ⟨z, same, -⟩
  · -- The table would end inside the word, where there is no dot.
    cases z with
    | nil => exact ⟨[], by rw [same, List.append_nil, List.append_nil]⟩
    | cons mark z =>
      obtain ⟨rfl, -⟩ := List.cons.inj next
      have inside : '.' ∈ "self:".toList := same ▸ List.mem_append_right _ List.mem_cons_self
      exact absurd inside (by decide)
  · exact ⟨z, same.symm⟩

theorem embedded_suffix {a b c d key : String} (h : Key.relationship a b c d = key ++ ":embedded") :
    ":embedded".toList <:+ (lower d).toList := by
  obtain ⟨start, shape⟩ : ∃ start, Key.relationship a b c d = start ++ "." ++ lower d := by
    unfold Key.relationship
    exact ⟨_, rfl⟩
  have texts : start.toList ++ '.' :: (lower d).toList = key.toList ++ ":embedded".toList := by
    rw [shape] at h
    have dot : ".".toList = ['.'] := rfl
    simpa only [String.toList_append, dot, List.append_assoc, List.singleton_append] using
      congrArg String.toList h
  rcases List.append_eq_append_iff.1 texts with ⟨z, -, next⟩ | ⟨z, -, same⟩
  · cases z with
    | nil => exact absurd (List.cons.inj next).1 (by decide)
    | cons mark z => exact ⟨z, (List.cons.inj next).2.symm⟩
  · have inside : '.' ∈ ":embedded".toList := same ▸ List.mem_append_right _ List.mem_cons_self
    exact absurd inside (by decide)

theorem word_eq_relationship {n m : Nat} {b : Builder n} {b' : Builder m}
    (other : (⟨n, b⟩ : Sigma Builder) ≠ ⟨m, b'⟩) (h : b.word = b'.word) :
    b.word = "relationship" := by
  cases b <;> cases b' <;> first | rfl | exact absurd rfl other | exact absurd h (by decide)

theorem mimics_of_key_eq {n m : Nat} {b : Builder n} {b' : Builder m} {c : Fin n → String}
    {c' : Fin m → String} (other : (⟨n, b⟩ : Sigma Builder) ≠ ⟨m, b'⟩) (h : b.key c = b'.key c') :
    b.Mimics c b' ∨ b'.Mimics c' b := by
  have same : b.word = b'.word := by rw [← word_key b c, ← word_key b' c', h]
  have first := word_eq_relationship other same
  have second := same ▸ first
  cases b with
  | relationship =>
    cases b' with
    | relationship => exact absurd rfl other
    | embeddedRelationship => exact Or.inl (embedded_suffix h)
    | selfRelationship => exact Or.inl (starts_self (String.append_empty.trans h))
    | _ => exact absurd second (by decide)
  | embeddedRelationship =>
    cases b' with
    | relationship => exact Or.inr (embedded_suffix h.symm)
    | embeddedRelationship => exact absurd rfl other
    | selfRelationship => exact Or.inl (starts_self h)
    | _ => exact absurd second (by decide)
  | selfRelationship =>
    cases b' with
    | relationship => exact Or.inr (starts_self (String.append_empty.trans h.symm))
    | embeddedRelationship => exact Or.inr (starts_self h.symm)
    | selfRelationship => exact absurd rfl other
    | _ => exact absurd second (by decide)
  | _ => exact absurd first (by decide)

/-- What keys tell of names, and of builders. -/
structure Identifies {n : Nat} (b : Builder n) : Prop where
  /-- Names that lookups take for equal are equal to keys, whatever they hold. -/
  folded : ∀ c c' : Fin n → String, (∀ i, equalFold (c i) (c' i) = true) → b.key c = b.key c'
  lowered : ∀ c c' : Fin n → String, (∀ i, lower (c i) = lower (c' i)) → b.key c = b.key c'
  apart : ∀ c c' : Fin n → String, b.Separable c → b.Separable c' →
    (b.key c = b.key c' ↔ ∀ i, lower (c i) = lower (c' i))
  ascii : ∀ c c' : Fin n → String, b.Separable c → b.Separable c' →
    (∀ i, IsAscii (c i)) → (∀ i, IsAscii (c' i)) →
      (b.key c = b.key c' ↔ ∀ i, equalFold (c i) (c' i) = true)
  builders : ∀ {m : Nat} (b' : Builder m) (c : Fin n → String) (c' : Fin m → String),
    (⟨n, b⟩ : Sigma Builder) ≠ ⟨m, b'⟩ → b.key c = b'.key c' → b.Mimics c b' ∨ b'.Mimics c' b

/-- Keys identify names in lower case, but for the separators and words that names may hold. -/
theorem identifies {n : Nat} (b : Builder n) : b.Identifies where
  folded _ _ same := b.key_congr fun i => Text.lower_eq_of_equalFold (same i)
  lowered _ _ := b.key_congr
  apart _ _ separable separable' := ⟨b.key_inj separable separable', b.key_congr⟩
  ascii c c' separable separable' first second := by
    have each (i : Fin n) := Text.lower_eq_iff_equalFold (first i) (second i)
    simp only [← each]
    exact ⟨b.key_inj separable separable', b.key_congr⟩
  builders _ _ _ := mimics_of_key_eq

/-- Names that lookups tell apart and keys do not: a letter beyond A to Z in either case, a
separator in either of two names, and the words of another builder. -/
theorem collisions :
    (equalFold "Ärea" "ärea" = false ∧ measure.key !["T", "Ärea"] = measure.key !["T", "ärea"]) ∧
    (equalFold "a:b" "a" = false ∧ measure.key !["a:b", "c"] = measure.key !["a", "b:c"]) ∧
    (equalFold "a.b" "a" = false ∧
      relationship.key !["a.b", "c", "d", "e"] = relationship.key !["a", "b.c", "d", "e"]) ∧
    relationship.key !["self:a", "b", "c", "d"] = selfRelationship.key !["a.b->c.d"] ∧
    relationship.key !["a", "b", "c", "d:embedded"] =
      embeddedRelationship.key !["a", "b", "c", "d"] := by
  decide +kernel

end Builder

end SemanticLayer.Identifier
