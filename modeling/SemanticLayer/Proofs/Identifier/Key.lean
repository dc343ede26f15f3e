import Mathlib.Data.List.Basic
import SemanticLayer.Identifier.Key

set_option autoImplicit false

namespace SemanticLayer.Identifier.Key

open Text (lower)

def word (key : String) : String := String.ofList (key.toList.takeWhile (· ≠ ':'))

theorem located_congr (kind : String) {names names' : List String}
    (h : names.map lower = names'.map lower) : located kind names = located kind names' := by
  rw [located, located, h]

theorem relationship_congr {a b c d a' b' c' d' : String} (ha : lower a = lower a')
    (hb : lower b = lower b') (hc : lower c = lower c') (hd : lower d = lower d') :
    relationship a b c d = relationship a' b' c' d' := by
  unfold relationship
  rw [ha, hb, hc, hd]

theorem located_one (kind a : String) : located kind [a] = kind ++ ":" ++ lower a :=
  rfl

theorem located_two (kind a b : String) :
    located kind [a, b] = kind ++ ":" ++ lower a ++ ":" ++ lower b :=
  rfl

theorem located_three (kind a b c : String) :
    located kind [a, b, c] = kind ++ ":" ++ lower a ++ ":" ++ lower b ++ ":" ++ lower c :=
  rfl

theorem takeWhile_colon {s : List Char} (free : ':' ∉ s) (rest : List Char) :
    (s ++ ':' :: rest).takeWhile (· ≠ ':') = s := by
  have other : ∀ c ∈ s, decide (c ≠ ':') = true := fun c hc => by
    simpa using fun eq : c = ':' => free (eq ▸ hc)
  rw [List.takeWhile_append_of_pos other, List.takeWhile_cons_of_neg (by simp), List.append_nil]

theorem word_append {kind : String} (free : ':' ∉ kind.toList) (rest : String) :
    word (kind ++ ":" ++ rest) = kind := by
  have start : (kind ++ ":" ++ rest).toList.takeWhile (· ≠ ':') = kind.toList := by
    rw [String.toList_append, String.toList_append, List.append_assoc]
    exact takeWhile_colon free rest.toList
  rw [word, start, String.ofList_toList]

/-- Texts without a colon agree when they agree up to a colon, and so does what follows. -/
theorem append_colon_inj {a b r q : String} (ha : ':' ∉ a.toList) (hb : ':' ∉ b.toList)
    (h : a ++ ":" ++ r = b ++ ":" ++ q) : a = b ∧ r = q := by
  obtain rfl : a = b := by rw [← word_append ha r, ← word_append hb q, h]
  exact ⟨rfl, (String.append_right_inj _).1 h⟩

def Plain (name : String) : Prop := ':' ∉ (lower name).toList

instance (name : String) : Decidable (Plain name) :=
  inferInstanceAs (Decidable (':' ∉ (lower name).toList))

theorem word_catalog (name : String) : word (catalog name) = "catalog" :=
  word_append (by decide) _

theorem word_connection (label : String) : word (connection label) = "connection" :=
  word_append (by decide) _

theorem word_model (name : String) : word (model name) = "model" :=
  word_append (by decide) _

theorem word_dataset (table : String) : word (dataset table) = "dataset" :=
  word_append (by decide) _

theorem word_dimension (table : String) : word (dimension table) = "dimension" :=
  word_append (by decide) _

theorem word_perspective (name : String) : word (perspective name) = "perspective" :=
  word_append (by decide) _

theorem word_located_two {kind : String} (free : ':' ∉ kind.toList) (a b : String) :
    word (located kind [a, b]) = kind := by
  simp only [located_two, String.append_assoc]
  rw [← String.append_assoc]
  exact word_append free _

theorem word_measure (table name : String) : word (measure table name) = "measure" :=
  word_located_two (by decide) _ _

theorem word_hierarchy (table name : String) :
    word (hierarchy table name) = "hierarchy" :=
  word_located_two (by decide) _ _

theorem word_level (table column : String) : word (level table column) = "level" :=
  word_located_two (by decide) _ _

theorem word_secondaryAttribute (table column : String) :
    word (secondaryAttribute table column) = "attribute" :=
  word_located_two (by decide) _ _

theorem word_aggregate (function table column : String) :
    word (aggregate function table column) = "aggregate" := by
  rw [aggregate, located_three]
  simp only [String.append_assoc]
  rw [← String.append_assoc]
  exact word_append (by decide) _

theorem word_of_start {start : String} (kind : String) (h : start = kind ++ ":")
    (free : ':' ∉ kind.toList) (rest : String) : word (start ++ rest) = kind := by
  subst h
  exact word_append free rest

theorem word_relationship (a b c d : String) :
    word (relationship a b c d) = "relationship" := by
  unfold relationship
  simp only [String.append_assoc]
  exact word_of_start "relationship" rfl (by decide) _

theorem word_embeddedRelationship (a b c d : String) :
    word (embeddedRelationship a b c d) = "relationship" := by
  unfold embeddedRelationship relationship
  simp only [String.append_assoc]
  exact word_of_start "relationship" rfl (by decide) _

theorem word_selfRelationship (table : String) :
    word (selfRelationship table) = "relationship" := by
  have start : "relationship:self" = "relationship" ++ ":" ++ "self" := rfl
  have shape :
      selfRelationship table = "relationship" ++ ":" ++ ("self" ++ ":" ++ lower table) := by
    rw [selfRelationship, located_one, start]
    simp only [String.append_assoc]
  rw [shape]
  exact @word_append "relationship" (by decide) _

theorem located_two_inj {kind a b c d : String} (free : ':' ∉ kind.toList) (ha : Plain a)
    (hc : Plain c) (h : located kind [a, b] = located kind [c, d]) :
    lower a = lower c ∧ lower b = lower d := by
  rw [located_two, located_two, String.append_assoc, String.append_assoc] at h
  have inner := (append_colon_inj free free (by simpa only [String.append_assoc] using h)).2
  exact append_colon_inj ha hc (by simpa only [String.append_assoc] using inner)

/-- Keys of aggregations tell the functions, whatever the tables are called. -/
theorem aggregate_function {f a c f' a' c' : String} (hf : Plain f) (hf' : Plain f')
    (h : aggregate f a c = aggregate f' a' c') :
    lower f = lower f' ∧ lower a ++ ":" ++ lower c = lower a' ++ ":" ++ lower c' := by
  have tail (f a c : String) :
      aggregate f a c = "aggregate" ++ ":" ++ (lower f ++ ":" ++ (lower a ++ ":" ++ lower c)) := by
    simp only [aggregate, located_three, String.append_assoc]
  rw [tail, tail] at h
  exact append_colon_inj hf hf' (append_colon_inj (by decide) (by decide) h).2

theorem aggregate_inj {f a c f' a' c' : String} (hf : Plain f) (hf' : Plain f') (ha : Plain a)
    (ha' : Plain a') (h : aggregate f a c = aggregate f' a' c') :
    lower f = lower f' ∧ lower a = lower a' ∧ lower c = lower c' :=
  (aggregate_function hf hf' h).imp_right (append_colon_inj ha ha')

theorem dataset_inj {a b : String} (h : dataset a = dataset b) : lower a = lower b :=
  (append_colon_inj (by decide) (by decide) h).2

theorem dimension_inj {a b : String} (h : dimension a = dimension b) : lower a = lower b :=
  (append_colon_inj (by decide) (by decide) h).2

theorem selfRelationship_inj {a b : String} (h : selfRelationship a = selfRelationship b) :
    lower a = lower b := by
  rw [selfRelationship, selfRelationship, located_one, located_one] at h
  exact (String.append_right_inj _).1 h

theorem perspective_inj {a b : String} (h : perspective a = perspective b) :
    lower a = lower b :=
  (append_colon_inj (by decide) (by decide) h).2

theorem level_inj {a b c d : String} (ha : Plain a) (hc : Plain c)
    (h : level a b = level c d) : lower a = lower c ∧ lower b = lower d :=
  located_two_inj (by decide) ha hc h

theorem measure_inj {a b c d : String} (ha : Plain a) (hc : Plain c)
    (h : measure a b = measure c d) : lower a = lower c ∧ lower b = lower d :=
  located_two_inj (by decide) ha hc h

theorem hierarchy_inj {a b c d : String} (ha : Plain a) (hc : Plain c)
    (h : hierarchy a b = hierarchy c d) : lower a = lower c ∧ lower b = lower d :=
  located_two_inj (by decide) ha hc h

theorem secondaryAttribute_inj {a b c d : String} (ha : Plain a) (hc : Plain c)
    (h : secondaryAttribute a b = secondaryAttribute c d) :
    lower a = lower c ∧ lower b = lower d :=
  located_two_inj (by decide) ha hc h

end SemanticLayer.Identifier.Key
