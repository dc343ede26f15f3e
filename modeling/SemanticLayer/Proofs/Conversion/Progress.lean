import SemanticLayer.Proofs.Conversion.Frame
import SemanticLayer.Proofs.Conversion.Moves

set_option autoImplicit false

/-!
How a conversion can end without a result. Steps that only name, log and look things up never do.
Of the others one is asked what it adds and from which states: as long as identifiers have not run
out, an object with a new name can be added.
-/
namespace SemanticLayer

namespace Output

variable {o : Output}

theorem Shelf.exists_insert {A : Type} {name : A → String} (shelf : Shelf name) {item : A}
    (new : name item ∉ (shelf.map o).values.map name) :
    ∃ o', (shelf.insert item).result o = .ok o' := by
  have written := shelf.run_insert item o
  rw [if_neg new] at written
  exact ⟨_, Writing.result_eq_ok_iff.2 written⟩

def joinNames (o : Output) : List String := o.relationships.map (·.uniqueName) ++ o.embedded

theorem holdsJoin_iff {name : String} : o.holdsJoin name = true ↔ name ∈ o.joinNames := by
  rw [holdsJoin, Bool.or_eq_true, NamedMap.contains_iff, List.contains_iff_mem, joinNames,
    List.mem_append]

theorem exists_addJoin {r : Relationship} (new : r.uniqueName ∉ o.joinNames) :
    ∃ o', o.addJoin r = .ok o' := by
  have written := run_insertJoin r o
  rw [if_neg (mt holdsJoin_iff.1 new)] at written
  exact ⟨_, Writing.result_eq_ok_iff.2 written⟩

theorem exists_addNestedJoin {owner : String} {r : Relationship}
    (new : r.uniqueName ∉ o.joinNames) (known : owner ∈ o.dimensions.map (·.uniqueName)) :
    ∃ o', o.addNestedJoin owner r = .ok o' := by
  have written := run_insertNestedJoin owner r o
  rw [if_neg (mt holdsJoin_iff.1 new), if_pos (hasDimension_iff.2 known)] at written
  exact ⟨_, Writing.result_eq_ok_iff.2 written⟩

end Output

namespace Conversion

open Identifier (Registry Request)
open Tabular (Table Measure)

variable {A B : Type} {s s' : State}

theorem bind_error {x : Run A} {f : A → Run B} {halt : Halt}
    (h : (x >>= f).run s = .error halt) :
    x.run s = .error halt ∨ ∃ a s₁, x.run s = .ok (a, s₁) ∧ (f a).run s₁ = .error halt := by
  rw [StateT.run_bind] at h
  cases first : x.run s with
  | error e =>
    rw [first] at h
    cases h
    exact Or.inl rfl
  | ok p =>
    rw [first] at h
    exact Or.inr ⟨p.1, p.2, rfl, h⟩

theorem Light.exists_ok {x : Run A} (h : Light x) (s : State) : ∃ a s', x.run s = .ok (a, s') := by
  induction h generalizing s with
  | pure a => exact ⟨a, s, rfl⟩
  | get => exact ⟨s, s, rfl⟩
  | log entries => exact ⟨⟨⟩, _, rfl⟩
  | uniqueName q _ => exact ⟨_, _, run_uniqueName q s⟩
  | @bind _ _ x f _ _ ihx ihf =>
    obtain ⟨a, s₁, first⟩ := ihx s
    obtain ⟨b, s₂, second⟩ := ihf a s₁
    refine ⟨b, s₂, ?_⟩
    rw [StateT.run_bind, first]
    exact second

/-- From a state a run ends without a result for one reason only, a path of dimensions that is too
long, and this only when `deep`. What it does once identifiers have run out is left open. -/
def Safe (deep : Prop) (x : Run A) (s : State) : Prop :=
  ∀ halt, x.run s = .error halt → halt.state.names.exhausted = [] →
    deep ∧ ∃ path, halt.error = .depthExceeded path

variable {deep : Prop}

theorem Light.safe {x : Run A} (h : Light x) (s : State) : Safe deep x s := fun halt ran => by
  obtain ⟨a, s', done⟩ := h.exists_ok s
  cases done.symm.trans ran

protected theorem Safe.uniqueName (q : Identifier.Request) (s : State) :
    Safe deep (uniqueName q) s :=
  fun _ ran => nomatch (run_uniqueName q s).symm.trans ran

theorem Safe.modify (f : State → State) : Safe deep (modify f : Run Unit) s :=
  fun _ ran => nomatch ran

theorem Safe.bind {x : Run A} {f : A → Run B} (hx : Safe deep x s)
    (hf : ∀ a s', x.run s = .ok (a, s') → Safe deep (f a) s') : Safe deep (x >>= f) s := by
  intro halt h fresh
  rcases bind_error h with first | ⟨a, s₁, first, second⟩
  · exact hx halt first fresh
  · exact hf a s₁ first halt second fresh

theorem Safe.get_bind {f : State → Run A} (h : Safe deep (f s) s) : Safe deep (get >>= f) s :=
  h

theorem Safe.store {change : Output → Except ConversionError Output}
    (h : s.names.exhausted = [] → ∃ o, change s.output = .ok o) :
    Safe deep (store change) s := by
  refine .get_bind fun halt ran fresh => ?_
  rcases bind_error ran with failed | ⟨_, _, -, wrong⟩
  · cases changed : change s.output with
    | error e =>
      rw [changed] at failed
      cases failed
      obtain ⟨o, done⟩ := h fresh
      cases changed.symm.trans done
    | ok o =>
      rw [changed] at failed
      cases failed
  · cases wrong

theorem Safe.lift {x : Except ConversionError A} (h : s.names.exhausted = [] → ∀ e, x = .error e →
    deep ∧ ∃ path, e = .depthExceeded path) : Safe deep (liftM x : Run A) s := by
  intro halt ran fresh
  cases made : x with
  | error e =>
    rw [made] at ran
    cases ran
    exact h fresh e made
  | ok a =>
    rw [made] at ran
    cases ran

/-- From states of a kind a run is safe, and it ends in states of that kind. -/
structure Guarded (deep : Prop) (I : State → Prop) (x : Run A) : Prop where
  safe : ∀ s, I s → Safe deep x s
  kept : ∀ s a s', x.run s = .ok (a, s') → I s → I s'

namespace Guarded

variable {I : State → Prop}

theorem pure (a : A) : Guarded deep I (pure a : Run A) where
  safe s _ := (Light.pure a).safe s
  kept s b s' h before := by
    obtain ⟨-, rfl⟩ := pure_ok h
    exact before

theorem get : Guarded deep I (get : Run State) where
  safe s _ := Light.get.safe s
  kept s a s' h before := by
    obtain ⟨-, rfl⟩ := get_ok h
    exact before

theorem bind {x : Run A} {f : A → Run B} (hx : Guarded deep I x) (hf : ∀ a, Guarded deep I (f a)) :
    Guarded deep I (x >>= f) where
  safe s before := (hx.safe s before).bind fun a s' first =>
    (hf a).safe s' (hx.kept s a s' first before)
  kept s b s' h before := by
    obtain ⟨a, s₁, first, second⟩ := bind_ok h
    exact (hf a).kept s₁ b s' second (hx.kept s a s₁ first before)

theorem bind_safe {x : Run A} {f : A → Run B} (hx : Guarded deep I x) (before : I s)
    (hf : ∀ a s', x.run s = .ok (a, s') → I s' → Safe deep (f a) s') :
    Safe deep (x >>= f) s :=
  (hx.safe s before).bind fun a s' ran => hf a s' ran (hx.kept s a s' ran before)

theorem composes : Composes (Guarded deep I) where
  pure := .pure
  bind := .bind

theorem forIn {xs : List A} {f : A → PUnit → Run (ForInStep PUnit)}
    (hf : ∀ x ∈ xs, Guarded deep I (f x ⟨⟩)) : Guarded deep I (forIn xs PUnit.unit f) :=
  composes.forIn hf

end Guarded

def Reliable (source : Source) (s : State) : Prop := s.names.exhausted = [] → Sound source s

theorem Moves.reliable {source : Source} {phase : Phase} (h : Moves source phase s s')
    (before : Reliable source s) : Reliable source s' := fun fresh =>
  h.sound fresh (before (h.extension.names.exhausted fresh))

/-- Nothing but identifiers and messages is new. -/
structure Asks (s s' : State) : Prop where
  lookup : ∀ key name, s.names.lookup key = some name → s'.names.lookup key = some name
  apart : s.names.Apart → s'.names.Apart
  exhausted : s'.names.exhausted = [] → s.names.exhausted = []
  output : s'.output = s.output

instance : Frame Asks where
  trans _ _ _ h h' := {
    lookup := fun key name known => h'.lookup key name (h.lookup key name known)
    apart := h'.apart ∘ h.apart
    exhausted := h.exhausted ∘ h'.exhausted
    output := h'.output.trans h.output }
  same _ _ names output _ := {
    lookup := fun _ _ known => by rwa [names]
    apart := fun apart => by rwa [names]
    exhausted := fun fresh => by rwa [names] at fresh
    output := output }
  name _ q := {
    lookup := fun _ _ => Registry.lookup_allocate_of_lookup
    apart := Registry.apart_allocate q
    exhausted := Registry.exhausted_of_allocate
    output := rfl }

theorem OnlyNames.asks (h : OnlyNames s s') : Asks s s' where
  lookup _ _ := h.names.lookup
  apart := h.names.apart
  exhausted := h.names.exhausted
  output := h.output

/-- The registry goes on, and what is new in a part of the result was answered to keys of a kind. -/
structure Gives (part : Output → List String) (kind : String → Prop) (s s' : State) : Prop where
  lookup : ∀ key name, s.names.lookup key = some name → s'.names.lookup key = some name
  apart : s.names.Apart → s'.names.Apart
  exhausted : s'.names.exhausted = [] → s.names.exhausted = []
  new : ∀ name ∈ part s'.output, name ∈ part s.output ∨
    ∃ key, kind key ∧ s'.names.lookup key = some name

/-- The answer to a key is new to a part of the result, since all that it holds answers to other
keys. -/
def Free (part : Output → List String) (key : String) (s : State) : Prop :=
  s.names.exhausted = [] → s.names.Apart ∧
    ∀ name ∈ part s.output, ∃ other, other ≠ key ∧ s.names.lookup other = some name

section Parts

variable {part : Output → List String} {kind kind' : String → Prop} {key name : String}

theorem Gives.trans {s'' : State} (h : Gives part kind s s') (h' : Gives part kind s' s'') :
    Gives part kind s s'' where
  lookup key name known := h'.lookup key name (h.lookup key name known)
  apart := h'.apart ∘ h.apart
  exhausted := h.exhausted ∘ h'.exhausted
  new name found := by
    rcases h'.new name found with old | new
    · exact (h.new name old).imp_right fun ⟨key, here, known⟩ =>
        ⟨key, here, h'.lookup key name known⟩
    · exact Or.inr new

theorem Asks.gives (h : Asks s s') : Gives part kind s s' where
  lookup := h.lookup
  apart := h.apart
  exhausted := h.exhausted
  new _ found := Or.inl (h.output ▸ found)

theorem Gives.imp (h : Gives part kind s s') (more : ∀ key, kind key → kind' key) :
    Gives part kind' s s' :=
  { h with new := fun name found => (h.new name found).imp_right fun ⟨key, here, known⟩ =>
      ⟨key, more key here, known⟩ }

instance : Frame (Gives part kind) where
  trans _ _ _ := .trans
  same _ _ names output _ := {
    lookup := fun _ _ known => by rwa [names]
    apart := fun apart => by rwa [names]
    exhausted := fun fresh => by rwa [names] at fresh
    new := fun _ found => Or.inl (output ▸ found) }
  name _ q := {
    lookup := fun _ _ => Registry.lookup_allocate_of_lookup
    apart := Registry.apart_allocate q
    exhausted := Registry.exhausted_of_allocate
    new := fun _ => Or.inl }

theorem Gives.of_output {o : Output} (same : part o = part s.output) :
    Gives part kind s { s with output := o } :=
  ⟨fun _ _ known => known, id, id, fun _ found => Or.inl (same ▸ found)⟩

theorem Free.of_nil (none : part s.output = []) (apart : s.names.Apart) : Free part key s :=
  fun _ => ⟨apart, fun name found => by
    rw [none] at found
    cases found⟩

theorem Free.gives (h : Free part key s) (gives : Gives part kind s s') (other : ¬kind key) :
    Free part key s' := fun fresh => by
  obtain ⟨apart, others⟩ := h (gives.exhausted fresh)
  refine ⟨gives.apart apart, fun name found => ?_⟩
  rcases gives.new name found with old | ⟨key', here, known⟩
  · obtain ⟨key', differ, known⟩ := others name old
    exact ⟨key', differ, gives.lookup key' name known⟩
  · exact ⟨key', fun same => other (same ▸ here), known⟩

theorem Free.asks (h : Free part key s) (asks : Asks s s') : Free part key s' := by
  have gives : Gives part (fun _ => False) s s' := asks.gives
  exact h.gives gives id

theorem Free.of_lookup (apart : s.names.Apart)
    (known : ∀ name ∈ part s.output, ∃ other, s.names.lookup other = some name)
    (absent : s.names.lookup key = Option.none) : Free part key s := fun _ =>
  ⟨apart, fun name found => by
    obtain ⟨other, answered⟩ := known name found
    refine ⟨other, fun same => ?_, answered⟩
    rw [same, absent] at answered
    cases answered⟩

theorem Free.notMem (h : Free part key s) (asks : Asks s s')
    (known : s'.names.lookup key = some name) (fresh : s'.names.exhausted = []) :
    name ∉ part s'.output := by
  intro found
  obtain ⟨apart, others⟩ := h (asks.exhausted fresh)
  rw [asks.output] at found
  obtain ⟨key', differ, known'⟩ := others name found
  exact differ
    (Registry.key_eq_of_lookup (asks.apart apart) fresh (asks.lookup _ _ known') known rfl)

/-- From a state a step is safe, and adds to a part of the result answers to its own keys only. -/
structure Adds (deep : Prop) (part : Output → List String) (keys : List String) (x : Run A)
    (s : State) : Prop where
  safe : Safe deep x s
  gives : ∀ a s', x.run s = .ok (a, s') → Gives part (· ∈ keys) s s'

theorem Adds.light {x : Run A} (h : Light x) (keys : List String) : Adds deep part keys x s where
  safe := h.safe s
  gives a s' ran := (h.keeps (R := Asks) s a s' ran).gives

protected theorem Adds.uniqueName (q : Identifier.Request) (keys : List String) :
    Adds deep part keys (uniqueName q) s where
  safe := .uniqueName q s
  gives a s' ran := (Keeps.uniqueName (R := Asks) q s a s' ran).gives

theorem Adds.imp {keys keys' : List String} {x : Run A} (h : Adds deep part keys x s)
    (more : keys ⊆ keys') : Adds deep part keys' x s :=
  ⟨h.safe, fun a s' ran => (h.gives a s' ran).imp fun _ known => more known⟩

theorem Adds.bind {keys : List String} {x : Run A} {f : A → Run B} (hx : Adds deep part keys x s)
    (hf : ∀ a s', x.run s = .ok (a, s') → Adds deep part keys (f a) s') :
    Adds deep part keys (x >>= f) s where
  safe := hx.safe.bind fun a s' ran => (hf a s' ran).safe
  gives b s' ran := by
    obtain ⟨a, s₁, first, second⟩ := bind_ok ran
    exact (hx.gives a s₁ first).trans ((hf a s₁ first).gives b s' second)

theorem Adds.get_bind {keys : List String} {f : State → Run B}
    (h : Adds deep part keys (f s) s) : Adds deep part keys (get >>= f) s where
  safe := .get_bind h.safe
  gives b s' ran := by
    obtain ⟨_, _, got, ran⟩ := bind_ok ran
    obtain ⟨rfl, rfl⟩ := get_ok got
    exact h.gives b s' ran

theorem Adds.modify {f : State → State} (names : (f s).names = s.names)
    (output : (f s).output = s.output) (keys : List String) :
    Adds deep part keys (modify f) s where
  safe := .modify f
  gives _ s' ran := by
    obtain rfl := modify_ok ran
    exact Asks.gives {
      lookup := fun _ _ known => by rwa [names]
      apart := fun apart => by rwa [names]
      exhausted := fun fresh => by rwa [names] at fresh
      output := output }

theorem Adds.store {s₁ : State} {keys : List String}
    {change : Output → Except ConversionError Output} (free : Free part key s) (own : key ∈ keys)
    (asks : Asks s s₁) (known : s₁.names.lookup key = some name)
    (possible : name ∉ part s₁.output → ∃ o, change s₁.output = .ok o)
    (grown : ∀ o, change s₁.output = .ok o → ∀ n ∈ part o, n ∈ part s₁.output ∨ n = name) :
    Adds deep part keys (store change) s₁ where
  safe := .store fun fresh => possible (free.notMem asks known fresh)
  gives _ s' ran := by
    obtain ⟨o, made, rfl⟩ := store_ok ran
    refine ⟨fun _ _ known => known, id, id, fun n hn => ?_⟩
    rcases grown o made n hn with old | rfl
    · exact Or.inl old
    · exact Or.inr ⟨key, own, known⟩

/-- A loop whose turns add answers to keys of their own is safe if each turn is, as long as it finds
its keys free. -/
theorem Adds.forIn {xs : List A} {f : A → PUnit → Run (ForInStep PUnit)} {keys : A → List String}
    {P : State → Prop} (distinct : (xs.flatMap keys).Nodup)
    (step : ∀ x ∈ xs, ∀ s, P s → (∀ key ∈ keys x, Free part key s) →
      Adds deep part (keys x) (f x ⟨⟩) s ∧ ∀ r s', (f x ⟨⟩).run s = .ok (r, s') → P s')
    (start : P s) (free : ∀ key ∈ xs.flatMap keys, Free part key s) :
    Adds deep part (xs.flatMap keys) (forIn xs PUnit.unit f) s := by
  induction xs generalizing s with
  | nil => exact .light (.pure _) _
  | cons x xs ih =>
    rw [List.flatMap_cons] at distinct free ⊢
    rw [List.forIn_cons]
    obtain ⟨here, kept⟩ := step x List.mem_cons_self s start fun key own =>
      free key (List.mem_append_left _ own)
    refine .bind ⟨here.safe, fun r s₁ turn => ?_⟩ fun r s₁ turn => ?_
    · exact (here.gives r s₁ turn).imp fun _ => List.mem_append_left _
    cases r with
    | done _ => exact .light (.pure _) _
    | yield _ =>
      -- What this turn has added answers to its own keys, and these are no keys of later turns.
      have later := ih distinct.of_append_right (fun y hy => step y (List.mem_cons_of_mem x hy))
        (kept _ s₁ turn) fun key own =>
          (free key (List.mem_append_right _ own)).gives (here.gives _ s₁ turn) fun mine =>
            List.disjoint_of_nodup_append distinct mine own
      exact later.imp (List.subset_append_right _ _)

end Parts

end Conversion

end SemanticLayer
