import Mathlib.Data.List.Forall2

set_option autoImplicit false

namespace SemanticLayer

section Option

variable {A B C : Type} {R : A → B → Prop} {a : Option A} {b : Option B} (h : Option.Rel R a b)
include h

theorem cases_of_rel : (a = none ∧ b = none) ∨ ∃ x y, a = some x ∧ b = some y ∧ R x y := by
  cases h with
  | none => exact Or.inl ⟨rfl, rfl⟩
  | some same => exact Or.inr ⟨_, _, rfl, rfl, same⟩

theorem isNone_of_rel : a.isNone = b.isNone := by
  cases h <;> rfl

theorem map_of_rel {f : A → C} {g : B → C} (same : ∀ x y, R x y → f x = g y) :
    a.map f = b.map g := by
  cases h with
  | none => rfl
  | some twin => exact congrArg some (same _ _ twin)

theorem filter_of_rel {p : A → Bool} {q : B → Bool} (same : ∀ x y, R x y → p x = q y) :
    Option.Rel R (a.filter p) (b.filter q) := by
  cases h with
  | none => exact .none
  | some twin =>
    rw [Option.filter, Option.filter, same _ _ twin]
    split
    · exact .some twin
    · exact .none

theorem rel_or {a' : Option A} {b' : Option B} (second : Option.Rel R a' b') :
    Option.Rel R (a.or a') (b.or b') := by
  cases h with
  | none => exact second
  | some first => exact .some first

end Option

section List

variable {A B C D : Type} {R : A → B → Prop} {as : List A} {bs : List B}
  (h : List.Forall₂ R as bs)
include h

theorem forall₂_trans {S : B → C → Prop} {T : A → C → Prop} {cs : List C}
    (trans : ∀ a b c, R a b → S b c → T a c) (h' : List.Forall₂ S bs cs) :
    List.Forall₂ T as cs := by
  induction h generalizing cs with
  | nil =>
    cases h'
    exact .nil
  | cons first _ ih =>
    cases h' with
    | cons second rest => exact .cons (trans _ _ _ first second) (ih rest)

theorem isEmpty_of_forall₂ : as.isEmpty = bs.isEmpty := by
  cases h <;> rfl

theorem exists_of_forall₂ : ∀ a ∈ as, ∃ b ∈ bs, R a b := by
  induction h with
  | nil => exact fun _ none => nomatch none
  | cons first _ ih =>
    intro a ha
    rcases List.mem_cons.1 ha with rfl | later
    · exact ⟨_, List.mem_cons_self, first⟩
    · obtain ⟨b, hb, related⟩ := ih a later
      exact ⟨b, List.mem_cons_of_mem _ hb, related⟩

theorem exists_left_of_forall₂ : ∀ b ∈ bs, ∃ a ∈ as, R a b :=
  exists_of_forall₂ (R := flip R) h.flip

theorem forall_of_forall₂ {p : A → Prop} (left : ∀ a b, R a b → p a) : ∀ a ∈ as, p a :=
  (List.forall₂_and_left as bs).1 (h.imp fun a b r => ⟨left a b r, r⟩) |>.1

theorem map_of_forall₂ {f : A → C} {g : B → C} (same : ∀ a b, R a b → f a = g b) :
    as.map f = bs.map g := by
  rw [← List.forall₂_eq_eq_eq]
  exact List.rel_map (fun a b => same a b) h

theorem nodup_map_of_forall₂ {f : A → C} {g : B → D} (once : (as.map f).Nodup)
    (inj : ∀ a b a' b', R a b → R a' b' → g b = g b' → f a = f a') : (bs.map g).Nodup := by
  induction h with
  | nil => exact .nil
  | cons first rest ih =>
    obtain ⟨new, once⟩ := List.nodup_cons.1 once
    refine List.nodup_cons.2 ⟨fun inside => ?_, ih once⟩
    obtain ⟨b, hb, same⟩ := List.mem_map.1 inside
    obtain ⟨a, ha, related⟩ := exists_left_of_forall₂ rest b hb
    exact new (List.mem_map.2 ⟨a, ha, inj _ _ _ _ related first same⟩)

theorem findSome?_of_forall₂ {P : C → D → Prop} {f : A → Option C} {g : B → Option D}
    (same : ∀ a b, R a b → Option.Rel P (f a) (g b)) :
    Option.Rel P (as.findSome? f) (bs.findSome? g) := by
  induction h with
  | nil => exact .none
  | @cons a b as bs first _ ih =>
    rw [List.findSome?_cons, List.findSome?_cons]
    obtain ⟨none, none'⟩ | ⟨x, y, found, found', related⟩ := cases_of_rel (same a b first)
    · rw [none, none']
      exact ih
    · rw [found, found']
      exact .some related

theorem forall₂_modify {f : B → B} (keeps : ∀ a b, R a b → R a (f b)) (n : Nat) :
    List.Forall₂ R as (bs.modify n f) := by
  induction h generalizing n with
  | nil => cases n <;> exact .nil
  | cons first rest ih =>
    cases n with
    | zero => exact .cons (keeps _ _ first) rest
    | succ n => exact .cons first (ih n)

section Test

variable {p : A → Bool} {q : B → Bool} (same : ∀ a b, R a b → p a = q b)
include same

theorem find?_of_forall₂ : Option.Rel R (as.find? p) (bs.find? q) := by
  induction h with
  | nil => exact .none
  | @cons a b as bs first _ ih =>
    rw [List.find?_cons, List.find?_cons, same a b first]
    split
    · exact .some first
    · exact ih

theorem any_of_forall₂ : as.any p = bs.any q := by
  induction h with
  | nil => rfl
  | @cons a b as bs first _ ih => rw [List.any_cons, List.any_cons, same a b first, ih]

theorem filter_of_forall₂ : List.Forall₂ R (as.filter p) (bs.filter q) :=
  List.rel_filter (fun a b r => Iff.of_eq (congrArg (· = true) (same a b r))) h

end Test

end List

end SemanticLayer
