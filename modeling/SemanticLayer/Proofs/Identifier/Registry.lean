import Mathlib.Data.List.Nodup
import SemanticLayer.Identifier.Registry
import SemanticLayer.Proofs.Identifier.Word
import SemanticLayer.Proofs.Text.Decimal

set_option autoImplicit false

/-!
Registries over a run of requests.

An answer lasts: `lookup_allocate` says what a request changes. While nothing is exhausted every
answer is held, and held identifiers are apart up to case, so that answers tell keys apart. All
identifiers are nonempty words that fit, given room for the numbers that suffixes may have.
-/
namespace SemanticLayer.Identifier

open Text (lower)

namespace Registry

/-- The answers that nobody holds: candidates for whose keys nothing was free. -/
def exhausted (r : Registry) : List (String × String) :=
  r.answers.filter fun (key, name) => !r.held.any fun g => g.key == key && g.name == name

theorem exhausted_eq_nil_iff {r : Registry} :
    r.exhausted = [] ↔ ∀ a ∈ r.answers, ∃ g ∈ r.held, g.key = a.1 ∧ g.name = a.2 := by
  simp [exhausted]

theorem allocate_of_lookup {r : Registry} {q : Request} {name : String}
    (h : r.lookup q.key = some name) : r.allocate q = (⟨name, .unchanged⟩, r) := by
  rw [allocate, h]

/-- What a request does: its key is known, or gets a free identifier, or there is none left. -/
inductive Allocates (r : Registry) (q : Request) : Allocation × Registry → Prop where
  | known {name : String} (h : r.lookup q.key = some name) :
    Allocates r q (⟨name, .unchanged⟩, r)
  | free {chosen : Allocation} (new : r.lookup q.key = none) (h : r.choose q = some chosen) :
    Allocates r q (chosen, r.register q chosen.name)
  | exhausted (new : r.lookup q.key = none) (h : r.choose q = none) :
    Allocates r q
      (⟨q.candidate, .exhausted⟩, { r with answers := (q.key, q.candidate) :: r.answers })

theorem allocates (r : Registry) (q : Request) : r.Allocates q (r.allocate q) := by
  cases known : r.lookup q.key with
  | some name =>
    rw [allocate_of_lookup known]
    exact .known known
  | none =>
    rw [allocate, known]
    cases chosen : r.choose q with
    | some allocation => exact .free known chosen
    | none => exact .exhausted known chosen

theorem lookup_cons_answer (answers : List (String × String)) (key name other : String) :
    ((key, name) :: answers).lookup other =
      if other = key then some name else answers.lookup other := by
  rw [List.lookup_cons]
  by_cases same : other = key
  · simp [same]
  · rw [if_neg same, beq_false_of_ne same]

theorem lookup_register (r : Registry) (q : Request) (name key : String) :
    (r.register q name).lookup key = if key = q.key then some name else r.lookup key := by
  exact lookup_cons_answer r.answers q.key name key

theorem lookup_allocate (r : Registry) (q : Request) (key : String) :
    (r.allocate q).2.lookup key =
      if key = q.key then some (r.allocate q).1.name else r.lookup key := by
  have step := r.allocates q
  generalize r.allocate q = answer at step ⊢
  cases step with
  | known known =>
    split
    · rename_i same
      rw [same, known]
    · rfl
  | @free chosen new h => exact lookup_register r q chosen.name key
  | exhausted new h => exact lookup_cons_answer r.answers q.key q.candidate key

theorem lookup_allocate_key (r : Registry) (q : Request) :
    (r.allocate q).2.lookup q.key = some (r.allocate q).1.name := by
  rw [lookup_allocate, if_pos rfl]

theorem lookup_allocate_of_lookup {r : Registry} {q : Request} {key name : String}
    (h : r.lookup key = some name) : (r.allocate q).2.lookup key = some name := by
  rw [lookup_allocate]
  split
  · rename_i same
    rw [allocate_of_lookup (same ▸ h)]
  · exact h

theorem exhausted_of_allocate {r : Registry} {q : Request}
    (h : (r.allocate q).2.exhausted = []) : r.exhausted = [] := by
  have step := r.allocates q
  generalize r.allocate q = answer at step h
  cases step with
  | known => exact h
  | free new =>
    refine exhausted_eq_nil_iff.2 fun a old => ?_
    obtain ⟨g, hg, key, name⟩ := exhausted_eq_nil_iff.1 h a (List.mem_cons_of_mem _ old)
    -- The identifier that is given out belongs to a key that had no answer before.
    rcases List.mem_cons.1 hg with rfl | held
    · have other := List.lookup_eq_none_iff.1 new a old
      exact absurd key (by simpa using other)
    · exact ⟨g, held, key, name⟩
  | exhausted =>
    exact exhausted_eq_nil_iff.2 fun a old =>
      exhausted_eq_nil_iff.1 h a (List.mem_cons_of_mem _ old)

def Apart (r : Registry) : Prop := (r.held.map (·.folded)).Nodup

theorem isFree_iff (r : Registry) (name : String) :
    r.isFree name = true ↔ lower name ∉ r.held.map (·.folded) := by
  simp [isFree, registration?]

theorem isFree_numberedFrom {r : Registry} {base name : String} {n tries : Nat}
    (h : r.numberedFrom base n tries = some name) :
    r.isFree name = true ∧ ∃ k, n ≤ k ∧ k < n + tries ∧
      name = withSuffix base ("_" ++ toString k) r.maxLength := by
  induction tries generalizing n with
  | zero => cases h
  | succ tries ih =>
    simp only [numberedFrom] at h
    split at h
    · rename_i free
      obtain rfl := Option.some.inj h
      exact ⟨free, n, Nat.le_refl n, by omega, rfl⟩
    · obtain ⟨free, k, low, high, shape⟩ := ih h
      exact ⟨free, k, by omega, by omega, shape⟩

/-- What a choice is: an identifier that is wished for, or one that was cut or numbered. -/
inductive Shape (r : Registry) (q : Request) : String → Prop where
  | whole {name : String} (h : name = sanitize q.candidate ∨ name = qualified q)
    (fits : r.fits name = true) : Shape r q name
  | cut {base : String} (h : base = sanitize q.candidate ∨ base = qualified q) :
    Shape r q (withSuffix base "" r.maxLength)
  | suffixed {base suffix : String} (h : base = sanitize q.candidate ∨ base = qualified q)
    (hs : suffix ∈ q.suffix) (fits : r.fits (withSuffix base suffix r.maxLength) = true) :
    Shape r q (withSuffix base suffix r.maxLength)
  | numbered {base : String} {k : Nat} (h : base = sanitize q.candidate ∨ base = qualified q)
    (hk : k ≤ r.maxSuffix) : Shape r q (withSuffix base ("_" ++ toString k) r.maxLength)

theorem numbered_shape {r : Registry} {q : Request} {base name : String}
    (hb : base = sanitize q.candidate ∨ base = qualified q) (h : r.numbered base = some name) :
    r.isFree name = true ∧ Shape r q name := by
  obtain ⟨free, k, low, high, rfl⟩ := isFree_numberedFrom h
  exact ⟨free, .numbered hb (by omega)⟩

theorem truncated_shape {r : Registry} {q : Request} {base name : String}
    (hb : base = sanitize q.candidate ∨ base = qualified q)
    (h : r.truncated base q.suffix = some name) : r.isFree name = true ∧ Shape r q name := by
  simp only [truncated] at h
  split at h
  · rename_i wished found
    cases h
    obtain ⟨suffixed, fitting⟩ := Option.filter_eq_some_iff.1 found
    obtain ⟨suffix, hs, rfl⟩ := Option.map_eq_some_iff.1 suffixed
    obtain ⟨fits, free⟩ := (Bool.and_eq_true _ _).mp fitting
    exact ⟨free, .suffixed hb hs fits⟩
  · split at h
    · rename_i free
      cases h
      exact ⟨free, .cut hb⟩
    · exact numbered_shape hb h

theorem choose_shape {r : Registry} {q : Request} {chosen : Allocation}
    (h : r.choose q = some chosen) :
    r.isFree chosen.name = true ∧ Shape r q chosen.name ∧ chosen.resolution ≠ .exhausted := by
  have renamed {name : Option String}
      (shape : ∀ n, name = some n → r.isFree n = true ∧ Shape r q n)
      (h : name.map (⟨·, .renamed⟩) = some chosen) :
      r.isFree chosen.name = true ∧ Shape r q chosen.name ∧ chosen.resolution ≠ .exhausted := by
    obtain ⟨n, found, rfl⟩ := Option.map_eq_some_iff.1 h
    obtain ⟨free, shape⟩ := shape n found
    exact ⟨free, shape, fun wrong => nomatch wrong⟩
  rw [choose, Option.orElse_eq_or, Option.orElse_eq_or, Option.or_eq_some_iff,
    Option.or_eq_some_iff] at h
  rcases h with clean | ⟨-, wished | ⟨-, last⟩⟩
  · simp only [chooseClean] at clean
    split at clean
    · cases clean
    rename_i normal
    have normal : q.candidate = sanitize q.candidate := (not_not.1 normal).symm
    split at clean
    · rename_i fits
      split at clean
      · rename_i free
        cases clean
        exact ⟨free, .whole (Or.inl normal) fits, fun wrong => nomatch wrong⟩
      · cases clean
    · exact renamed (fun _ => truncated_shape (Or.inl normal)) clean
  · simp only [chooseQualified] at wished
    split at wished
    · rename_i fits
      split at wished
      · rename_i free
        cases wished
        exact ⟨free, .whole (Or.inr rfl) fits, fun wrong => nomatch wrong⟩
      · cases wished
    · exact renamed (fun _ => truncated_shape (Or.inr rfl)) wished
  · exact renamed (fun _ => numbered_shape (Or.inr rfl)) last

theorem apart_allocate {r : Registry} (q : Request) (h : r.Apart) : (r.allocate q).2.Apart := by
  have step := r.allocates q
  generalize r.allocate q = answer at step ⊢
  cases step with
  | known => exact h
  | free new chosen =>
    exact List.nodup_cons.2 ⟨(isFree_iff r _).1 (choose_shape chosen).1, h⟩
  | exhausted => exact h

theorem mem_held_of_lookup {r : Registry} (fresh : r.exhausted = []) {key name : String}
    (h : r.lookup key = some name) : ∃ g ∈ r.held, g.key = key ∧ g.name = name := by
  obtain ⟨before, after, shape, -⟩ := List.lookup_eq_some_iff.1 h
  exact exhausted_eq_nil_iff.1 fresh (key, name) (by simp [shape])

theorem key_eq_of_lookup {r : Registry} (apart : r.Apart) (fresh : r.exhausted = [])
    {key key' name name' : String} (h : r.lookup key = some name) (h' : r.lookup key' = some name')
    (same : lower name = lower name') : key = key' := by
  obtain ⟨g, hg, rfl, rfl⟩ := mem_held_of_lookup fresh h
  obtain ⟨g', hg', rfl, rfl⟩ := mem_held_of_lookup fresh h'
  have folded : g.folded = g'.folded := by rw [g.folded_eq, g'.folded_eq, same]
  rw [List.inj_on_of_nodup_map apart hg hg' folded]

/-- Whether suffixes up to the greatest number fit into an identifier. -/
def Room (r : Registry) : Prop := 1 + (toString r.maxSuffix).length ≤ r.maxLength

/-- An identifier of a registry: a nonempty word that fits. -/
def Valid (r : Registry) (name : String) : Prop :=
  IsWord name ∧ name ≠ "" ∧ name.length ≤ r.maxLength

theorem isWord_withSuffix {base suffix : String} (hb : IsWord base) (hs : IsWord suffix)
    (maxLength : Nat) : IsWord (withSuffix base suffix maxLength) := by
  refine IsWord.append (fun c hc => hb c ?_) hs
  rw [String.toList_ofList] at hc
  exact List.mem_of_mem_take hc

theorem length_withSuffix (base suffix : String) (maxLength : Nat) :
    (withSuffix base suffix maxLength).length =
      min (maxLength - suffix.length) base.length + suffix.length := by
  rw [withSuffix, String.length_append, String.length_ofList, List.length_take,
    String.length_toList]

theorem isWord_number (k : Nat) : IsWord ("_" ++ toString k) := by
  refine IsWord.append (fun c hc => Or.inr ?_) fun c hc => Or.inl ?_
  · exact List.mem_singleton.1 hc
  · simp [isWordChar, Char.isAlphanum, Text.isDigit_of_mem_toString hc]

theorem length_number_le {k n : Nat} (h : k ≤ n) :
    ("_" ++ toString k).length ≤ 1 + (toString n).length := by
  have digits : k.repr.length ≤ n.repr.length :=
    (Nat.length_repr_le_iff Nat.length_repr_pos).2
      (Nat.lt_of_le_of_lt h ((Nat.length_repr_le_iff Nat.length_repr_pos).1 (Nat.le_refl _)))
  rw [String.length_append]
  exact Nat.add_le_add_left digits 1

theorem Shape.valid {r : Registry} {q : Request} {name : String} (h : Shape r q name)
    (room : r.Room) (suffix : ∀ suffix ∈ q.suffix, IsWord suffix) : r.Valid name := by
  have base {b : String} (hb : b = sanitize q.candidate ∨ b = qualified q) :
      IsWord b ∧ b ≠ "" := by
    have normal (n : String) : IsWord (sanitize n) ∧ sanitize n ≠ "" :=
      ⟨isWord_sanitize n, sanitize_ne_empty n⟩
    rcases hb with rfl | rfl
    · exact normal _
    · simp only [qualified]
      split <;> exact normal _
  have positive : 0 < r.maxLength := by
    have := room
    rw [Room] at this
    omega
  have nonempty {s : String} (h : 0 < s.length) : s ≠ "" := fun empty => by
    rw [empty] at h
    exact Nat.lt_irrefl 0 h
  have length {s : String} (h : s ≠ "") : 0 < s.length := by
    rw [← String.length_toList]
    exact List.length_pos_iff.2 fun empty => h (String.toList_inj.1 empty)
  -- A cut leaves room for its suffix, so the whole is no longer than allowed and not empty.
  cases h with
  | whole hb fits => exact ⟨(base hb).1, (base hb).2, of_decide_eq_true fits⟩
  | @cut b hb =>
    have long := length (base hb).2
    have cut := length_withSuffix b "" r.maxLength
    have none : "".length = 0 := rfl
    refine ⟨isWord_withSuffix (base hb).1 (by simp [IsWord]) _, nonempty ?_, ?_⟩ <;> omega
  | @suffixed b s hb hs fits =>
    have cut := length_withSuffix b s r.maxLength
    have long := length (base hb).2
    refine ⟨isWord_withSuffix (base hb).1 (suffix s hs) _, nonempty ?_, of_decide_eq_true fits⟩
    omega
  | @numbered b k hb hk =>
    have cut := length_withSuffix b ("_" ++ toString k) r.maxLength
    have short := Nat.le_trans (length_number_le hk) room
    have some : 0 < ("_" ++ toString k).length := by
      rw [String.length_append]
      exact Nat.add_pos_left Nat.one_pos _
    refine ⟨isWord_withSuffix (base hb).1 (isWord_number k) _, nonempty ?_, ?_⟩ <;> omega

/-- A registry after some requests, whose wished suffixes are words. -/
inductive Reaches (r : Registry) : Registry → Prop where
  | refl : Reaches r r
  | allocate {r' : Registry} (h : Reaches r r') (q : Request)
    (suffix : ∀ suffix ∈ q.suffix, IsWord suffix) : Reaches r (r'.allocate q).2

namespace Reaches

variable {r r' r'' : Registry}

theorem trans (h : Reaches r r') (h' : Reaches r' r'') : Reaches r r'' := by
  induction h' with
  | refl => exact h
  | allocate _ q suffix ih => exact ih.allocate q suffix

theorem lookup (h : Reaches r r') {key name : String} (known : r.lookup key = some name) :
    r'.lookup key = some name := by
  induction h with
  | refl => exact known
  | allocate _ q _ ih => exact lookup_allocate_of_lookup ih

theorem exhausted (h : Reaches r r') (fresh : r'.exhausted = []) : r.exhausted = [] := by
  induction h with
  | refl => exact fresh
  | allocate _ q _ ih => exact ih (exhausted_of_allocate fresh)

theorem apart (h : Reaches r r') (start : r.Apart) : r'.Apart := by
  induction h with
  | refl => exact start
  | allocate _ q _ ih => exact apart_allocate q ih

theorem limits_allocate (r : Registry) (q : Request) :
    (r.allocate q).2.maxLength = r.maxLength ∧ (r.allocate q).2.maxSuffix = r.maxSuffix := by
  have step := r.allocates q
  generalize r.allocate q = answer at step ⊢
  cases step <;> exact ⟨rfl, rfl⟩

theorem limits (h : Reaches r r') :
    r'.maxLength = r.maxLength ∧ r'.maxSuffix = r.maxSuffix := by
  induction h with
  | refl => exact ⟨rfl, rfl⟩
  | @allocate r' _ q _ ih =>
    obtain ⟨length, suffix⟩ := limits_allocate r' q
    exact ⟨length.trans ih.1, suffix.trans ih.2⟩

theorem valid (h : Reaches r r') (room : r.Room) (start : ∀ g ∈ r.held, r.Valid g.name) :
    ∀ g ∈ r'.held, r.Valid g.name := by
  induction h with
  | refl => exact start
  | @allocate r' before q suffix ih =>
    obtain ⟨length, numbers⟩ := before.limits
    have roomy : r'.Room := by rwa [Room, length, numbers]
    intro g hg
    have step := r'.allocates q
    generalize r'.allocate q = answer at step hg
    cases step with
    | known => exact ih g hg
    | free new chosen =>
      rcases List.mem_cons.1 hg with rfl | old
      · have new := (choose_shape chosen).2.1.valid roomy suffix
        rwa [Valid, length] at new
      · exact ih g old
    | exhausted => exact ih g hg

end Reaches

end Registry

end SemanticLayer.Identifier
