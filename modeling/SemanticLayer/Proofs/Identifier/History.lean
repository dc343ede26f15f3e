import Mathlib.Data.List.Dedup
import SemanticLayer.Proofs.Identifier.Registry

set_option autoImplicit false

namespace SemanticLayer.Identifier

open Text (lower)

abbrev History := List (Request × Allocation)

namespace History

def first? (history : History) (key : String) : Option (Request × Allocation) :=
  history.find? (·.1.key == key)

def IsSafe (history : History) (key : String) : Prop :=
  ∃ e ∈ history.first? key, e.2.resolution ≠ .exhausted

instance (history : History) : DecidablePred history.IsSafe := fun _ =>
  inferInstanceAs (Decidable (∃ e ∈ _, _))

def safeKeys (history : History) : List String :=
  (history.map (·.1.key)).dedup.filter (history.IsSafe ·)

variable {history : History} {key : String} {e : Request × Allocation}

theorem key_of_first? (h : history.first? key = some e) : e.1.key = key := by
  have matched : (e.1.key == key) = true :=
    List.find?_some (p := fun x : Request × Allocation => x.1.key == key) h
  exact eq_of_beq matched

theorem first?_append (history more : History) (key : String) :
    (history ++ more).first? key = (history.first? key).or (more.first? key) :=
  List.find?_append

theorem first?_singleton (e : Request × Allocation) (key : String) :
    first? [e] key = if e.1.key = key then some e else none := by
  rw [first?, List.find?_singleton]
  simp only [beq_iff_eq]

theorem first?_concat_of_some {q : Request} (old : history.first? q.key = some e)
    (answer : Allocation) (key : String) :
    (history ++ [(q, answer)]).first? key = history.first? key := by
  rw [first?_append, first?_singleton]
  split
  · rename_i same
    rw [← same, old, Option.some_or]
  · rw [Option.or_none]

theorem first?_concat_of_none {q : Request} (new : history.first? q.key = none)
    (answer : Allocation) (key : String) :
    (history ++ [(q, answer)]).first? key =
      if q.key = key then some (q, answer) else history.first? key := by
  rw [first?_append, first?_singleton]
  split
  · rename_i same
    rw [← same, new, Option.none_or]
  · rw [Option.or_none]

theorem mem_safeKeys : key ∈ history.safeKeys ↔ history.IsSafe key := by
  rw [safeKeys, List.mem_filter, List.mem_dedup, decide_eq_true_iff, and_iff_right_iff_imp]
  rintro ⟨e, found, -⟩
  exact List.mem_map.2 ⟨e, List.mem_of_find?_eq_some found, key_of_first? found⟩

end History

namespace Registry

/-- What a registry says about a history of requests. -/
structure Remembers (names : Registry) (history : History) : Prop where
  /-- Safe answers to different keys differ, whatever their case. -/
  apart : ∀ key key', key ≠ key' → history.IsSafe key → history.IsSafe key' →
    ∃ name name', names.lookup key = some name ∧ names.lookup key' = some name' ∧
      lower name ≠ lower name'
  /-- Every answer lasts: asking again gives it and changes nothing. -/
  lookup : ∀ e ∈ history, names.lookup e.1.key = some e.2.name
  again : ∀ e ∈ history, ∀ q, q.key = e.1.key →
    names.allocate q = (⟨e.2.name, .unchanged⟩, names)
  /-- A safe answer is held by the object that asked for it first. -/
  holder : ∀ key, ∀ e ∈ history.first? key, e.2.resolution ≠ .exhausted →
    ∃ name, names.lookup key = some name ∧ ∃ g, names.registration? name = some g ∧
      g.key = key ∧ g.kind = e.1.kind ∧ g.owner = e.1.owner
  size : names.size = history.safeKeys.length

/-- A registry holds the safe first answers of a history, and looks up its first answers. -/
structure Records (names : Registry) (history : History) : Prop where
  apart : names.Apart
  keys : (names.held.map (·.key)).Nodup
  lookup : ∀ key, names.lookup key = (history.first? key).map (·.2.name)
  held : ∀ g, g ∈ names.held ↔ ∃ e ∈ history.first? g.key, e.2.resolution ≠ .exhausted ∧
    g = ⟨e.2.name, lower e.2.name, e.1.kind, e.1.owner, e.1.key, rfl⟩
  answers : ∀ e ∈ history, names.lookup e.1.key = some e.2.name

namespace Records

variable {names : Registry} {history : History}

theorem empty (maxLength maxSuffix : Nat) : Records { maxLength, maxSuffix } [] where
  apart := List.nodup_nil
  keys := List.nodup_nil
  lookup _ := rfl
  held _ := ⟨fun h => (List.not_mem_nil h).elim, fun ⟨_, h, _⟩ => nomatch h⟩
  answers _ h := (List.not_mem_nil h).elim

theorem exists_first? (h : Records names history) {key name : String}
    (known : names.lookup key = some name) :
    ∃ e, history.first? key = some e ∧ e.2.name = name :=
  Option.map_eq_some_iff.1 ((h.lookup key).symm.trans known)

theorem first?_eq_none (h : Records names history) {key : String}
    (new : names.lookup key = none) : history.first? key = none :=
  Option.map_eq_none_iff.1 ((h.lookup key).symm.trans new)

theorem key_ne_of_lookup (h : Records names history) {key : String}
    (new : names.lookup key = none) {g : Registration} (hg : g ∈ names.held) : g.key ≠ key := by
  rintro rfl
  obtain ⟨e, found, -⟩ := (h.held g).1 hg
  cases (h.first?_eq_none new).symm.trans found

theorem nodup_keys_allocate (h : Records names history) (q : Request) :
    ((names.allocate q).2.held.map (·.key)).Nodup := by
  have step := names.allocates q
  generalize names.allocate q = answer at step ⊢
  cases step with
  | known => exact h.keys
  | free new =>
    refine List.nodup_cons.2 ⟨fun old => ?_, h.keys⟩
    obtain ⟨g, hg, same⟩ := List.mem_map.1 old
    exact h.key_ne_of_lookup new hg same
  | exhausted => exact h.keys

theorem lookup_allocate_concat (h : Records names history) (q : Request) (key : String) :
    (names.allocate q).2.lookup key =
      ((history ++ [(q, (names.allocate q).1)]).first? key).map (·.2.name) := by
  rw [lookup_allocate]
  cases known : names.lookup q.key with
  | some name =>
    obtain ⟨e, first, rfl⟩ := h.exists_first? known
    rw [History.first?_concat_of_some first, allocate_of_lookup known, h.lookup]
    split
    · rename_i same
      rw [same, first, Option.map_some]
    · rfl
  | none =>
    rw [History.first?_concat_of_none (h.first?_eq_none known), h.lookup]
    by_cases same : q.key = key
    · simp [same]
    · simp [same, Ne.symm same]

theorem mem_held_allocate_iff (h : Records names history) (q : Request) (g : Registration) :
    g ∈ (names.allocate q).2.held ↔
      ∃ e ∈ (history ++ [(q, (names.allocate q).1)]).first? g.key, e.2.resolution ≠ .exhausted ∧
        g = ⟨e.2.name, lower e.2.name, e.1.kind, e.1.owner, e.1.key, rfl⟩ := by
  have step := names.allocates q
  generalize names.allocate q = answer at step ⊢
  -- Only a free identifier adds to what is held, and it is the first answer to its key.
  cases step with
  | known known =>
    obtain ⟨e, first, -⟩ := h.exists_first? known
    rw [History.first?_concat_of_some first, h.held]
  | @free chosen new choice =>
    rw [History.first?_concat_of_none (h.first?_eq_none new)]
    change g ∈ _ :: names.held ↔ _
    rw [List.mem_cons]
    split
    · rename_i same
      constructor
      · rintro (rfl | old)
        · exact ⟨_, rfl, (choose_shape choice).2.2, rfl⟩
        · exact (h.key_ne_of_lookup new old same.symm).elim
      · rintro ⟨_, last, -, rfl⟩
        cases last
        exact Or.inl rfl
    · rename_i other
      rw [← h.held]
      exact or_iff_right fun made => other (made ▸ rfl)
  | exhausted new =>
    rw [History.first?_concat_of_none (h.first?_eq_none new)]
    change g ∈ names.held ↔ _
    split
    · rename_i same
      constructor
      · exact fun old => (h.key_ne_of_lookup new old same.symm).elim
      · rintro ⟨_, last, safe, -⟩
        cases last
        exact (safe rfl).elim
    · exact h.held g

theorem allocate (h : Records names history) (q : Request) :
    Records (names.allocate q).2 (history ++ [(q, (names.allocate q).1)]) where
  apart := apart_allocate q h.apart
  keys := h.nodup_keys_allocate q
  lookup := h.lookup_allocate_concat q
  held := h.mem_held_allocate_iff q
  answers e he := by
    rcases List.mem_append.1 he with old | new
    · exact lookup_allocate_of_lookup (h.answers e old)
    · rw [List.mem_singleton.1 new]
      exact lookup_allocate_key names q

theorem name_of_first? (h : Records names history) {key : String} {e : Request × Allocation}
    (found : history.first? key = some e) : names.lookup key = some e.2.name := by
  rw [h.lookup, found, Option.map_some]

theorem mem_held (h : Records names history) {key : String} {e : Request × Allocation}
    (found : history.first? key = some e) (safe : e.2.resolution ≠ .exhausted) :
    (⟨e.2.name, lower e.2.name, e.1.kind, e.1.owner, e.1.key, rfl⟩ : Registration) ∈
      names.held :=
  (h.held _).2 ⟨e, by rw [History.key_of_first? found]; exact found, safe, rfl⟩

theorem remembers (h : Records names history) : names.Remembers history where
  apart key key' other safe safe' := by
    obtain ⟨e, found, fine⟩ := safe
    obtain ⟨e', found', fine'⟩ := safe'
    refine ⟨_, _, h.name_of_first? found, h.name_of_first? found', fun same => other ?_⟩
    have twin := List.inj_on_of_nodup_map h.apart (h.mem_held found fine)
      (h.mem_held found' fine') same
    rw [← History.key_of_first? found, ← History.key_of_first? found']
    exact congrArg Registration.key twin
  lookup := h.answers
  again e he q same := allocate_of_lookup (same ▸ h.answers e he)
  holder key e found safe := by
    have held := h.mem_held found safe
    refine ⟨_, h.name_of_first? found, ?_⟩
    cases some : names.registration? e.2.name with
    | none =>
      have missing := List.find?_eq_none.1 some _ held
      exact (missing (beq_iff_eq.2 rfl)).elim
    | some g =>
      have folded : (g.folded == lower e.2.name) = true :=
        List.find?_some (p := fun x : Registration => x.folded == lower e.2.name) some
      obtain rfl := List.inj_on_of_nodup_map h.apart (List.mem_of_find?_eq_some some) held
        (eq_of_beq folded)
      exact ⟨_, rfl, History.key_of_first? found, rfl, rfl⟩
  size := by
    rw [Registry.size, ← List.length_map (·.key)]
    refine List.Perm.length_eq ((List.perm_ext_iff_of_nodup h.keys
      ((List.nodup_dedup _).filter _)).2 fun key => ?_)
    rw [← History.safeKeys, History.mem_safeKeys, List.mem_map]
    constructor
    · rintro ⟨g, hg, rfl⟩
      obtain ⟨e, found, safe, -⟩ := (h.held g).1 hg
      exact ⟨e, found, safe⟩
    · rintro ⟨e, found, safe⟩
      exact ⟨_, h.mem_held found safe, History.key_of_first? found⟩

end Records

def after (r : Registry) (requests : List Request) : Registry :=
  requests.foldl (fun r q => (r.allocate q).2) r

/-- Requests with the answers of a registry that hears them in turn. -/
def historyOf (r : Registry) : List Request → History
  | [] => []
  | q :: rest => (q, (r.allocate q).1) :: (r.allocate q).2.historyOf rest

theorem Records.after {names : Registry} {history : History} (h : Records names history)
    (requests : List Request) :
    Records (names.after requests) (history ++ names.historyOf requests) := by
  induction requests generalizing names history with
  | nil => rwa [historyOf, List.append_nil]
  | cons q rest ih =>
    rw [historyOf, List.append_cons]
    exact ih (h.allocate q)

/-- Whatever is asked of a new registry, it remembers its answers. -/
theorem remembers_after (maxLength maxSuffix : Nat) (requests : List Request) :
    let new : Registry := { maxLength, maxSuffix }
    (new.after requests).Remembers (new.historyOf requests) :=
  ((Records.empty maxLength maxSuffix).after requests).remembers

-- Without numbers the second object gets an unsafe answer, and gets it again.
example : (historyOf { maxSuffix := 0 } [⟨"Sales", "metric:a", .metric, "", none⟩,
    ⟨"SALES", "metric:b", .metric, "", none⟩, ⟨"Total", "metric:b", .metric, "", none⟩]).map (·.2) =
    [⟨"Sales", .unchanged⟩, ⟨"SALES", .exhausted⟩, ⟨"SALES", .unchanged⟩] := by decide +kernel

end Registry

end SemanticLayer.Identifier
