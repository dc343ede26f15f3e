import Mathlib.Data.List.Nodup
import SemanticLayer.PowerQuery.Rename

set_option autoImplicit false

/-!
Column names across calls that rename some of them.

The pairs of one call all refer to the names before it, while `addRename` takes up one pair after
the other. The two agree on a call none of whose former names is a new name that the call has given
out before (`Ordered`); such a call is the same as its pairs in calls of their own.
-/
namespace SemanticLayer.PowerQuery

abbrev Call := List (String × String)

/-- A name after one call. -/
def renamed (call : Call) (name : String) : String := (call.lookup name).getD name

def finalName (calls : List Call) (name : String) : String :=
  calls.foldl (fun name call => renamed call name) name

def isRenamed : List Call → String → Bool
  | [], _ => false
  | call :: calls, name => (call.lookup name).isSome || isRenamed calls (renamed call name)

/-- Distinct columns that exist get names that are distinct in the result. -/
structure Applies (call : Call) (columns : List String) : Prop where
  formers_nodup : (call.map Prod.fst).Nodup
  formers_subset : call.map Prod.fst ⊆ columns
  results_nodup : (columns.map (renamed call)).Nodup

instance (call : Call) (columns : List String) : Decidable (Applies call columns) :=
  decidable_of_iff ((call.map Prod.fst).Nodup ∧ call.map Prod.fst ⊆ columns ∧
      (columns.map (renamed call)).Nodup)
    ⟨fun ⟨formers, subset, results⟩ => ⟨formers, subset, results⟩,
      fun ⟨formers, subset, results⟩ => ⟨formers, subset, results⟩⟩

/-- Every call applies to what the calls before it leave. -/
def Apply : List Call → List String → Prop
  | [], columns => columns.Nodup
  | call :: calls, columns => Applies call columns ∧ Apply calls (columns.map (renamed call))

instance decidableApply : (calls : List Call) → (columns : List String) →
    Decidable (Apply calls columns)
  | [], columns => inferInstanceAs (Decidable columns.Nodup)
  | call :: calls, columns =>
    have := decidableApply calls (columns.map (renamed call))
    inferInstanceAs (Decidable (Applies call columns ∧ Apply calls (columns.map (renamed call))))

def Ordered (call : Call) : Prop := call.Pairwise fun earlier later => earlier.2 ≠ later.1

instance (call : Call) : Decidable (Ordered call) :=
  inferInstanceAs (Decidable (call.Pairwise fun earlier later => earlier.2 ≠ later.1))

/-- The column that ends up under a name, if a call has renamed it on the way. -/
def origin? (calls : List Call) (columns : List String) (name : String) : Option String :=
  columns.find? fun o => isRenamed calls o && finalName calls o == name

/-- The pairs lead from the final name of every column back to it, if a call has renamed it, and do
not know that name otherwise. -/
def Traced (calls : List Call) (columns : List String) (pairs : List (String × String)) : Prop :=
  ∀ o ∈ columns, pairs.find? (·.2 == finalName calls o) =
    if isRenamed calls o then some (o, finalName calls o) else none

def collect (pairs : List (String × String)) (renames : List (String × String)) :
    List (String × String) :=
  renames.foldl (fun pairs (former, renamed) => addRename former renamed pairs) pairs

theorem Apply.nodup {calls : List Call} {columns : List String} (h : Apply calls columns) :
    columns.Nodup := by
  cases calls with
  | nil => exact h
  | cons call calls => exact h.1.results_nodup.of_map (renamed call)

def singly (call : Call) : List Call := call.map fun pair => [pair]

theorem lookup_cons_of_ne {former name : String} (h : name ≠ former) (new : String)
    (call : Call) : List.lookup name ((former, new) :: call) = List.lookup name call := by
  rw [List.lookup_cons, beq_false_of_ne h]

theorem renamed_single (former new name : String) :
    renamed [(former, new)] name = if name = former then new else name := by
  by_cases h : name = former
  · rw [renamed, h, List.lookup_cons_self, if_pos rfl]
    rfl
  · rw [renamed, lookup_cons_of_ne h, if_neg h]
    rfl

theorem lookup_eq_none {call : Call} {name : String} (h : name ∉ call.map Prod.fst) :
    call.lookup name = none :=
  List.lookup_eq_none_iff.2 fun _ mem => bne_iff_ne.2 fun same =>
    h (same ▸ List.mem_map_of_mem mem)

theorem Ordered.notMem {former new : String} {call : Call}
    (h : Ordered ((former, new) :: call)) : new ∉ call.map Prod.fst := by
  intro mem
  obtain ⟨pair, later, same⟩ := List.mem_map.1 mem
  exact (List.pairwise_cons.1 h).1 pair later same.symm

theorem renamed_cons {former new : String} {call : Call} (h : Ordered ((former, new) :: call))
    (name : String) :
    renamed ((former, new) :: call) name = renamed call (renamed [(former, new)] name) := by
  rw [renamed_single]
  by_cases same : name = former
  · rw [if_pos same, same, renamed, List.lookup_cons_self, renamed, lookup_eq_none h.notMem]
    rfl
  · rw [if_neg same, renamed, lookup_cons_of_ne same]
    rfl

theorem finalName_singly {call : Call} (h : Ordered call) (calls : List Call) (name : String) :
    finalName (singly call ++ calls) name = finalName calls (renamed call name) := by
  induction call generalizing name with
  | nil => rfl
  | cons pair call ih =>
    rw [renamed_cons h]
    exact ih (List.pairwise_cons.1 h).2 (renamed [pair] name)

theorem isRenamed_singly {call : Call} (h : Ordered call) (calls : List Call) (name : String) :
    isRenamed (singly call ++ calls) name =
      ((call.lookup name).isSome || isRenamed calls (renamed call name)) := by
  induction call generalizing name with
  | nil => rfl
  | cons pair call ih =>
    have later := ih (List.pairwise_cons.1 h).2 (renamed [pair] name)
    rw [singly, List.map_cons, List.cons_append, isRenamed, renamed_cons h]
    change (_ || isRenamed (singly call ++ calls) _) = _
    rw [later]
    obtain ⟨former, new⟩ := pair
    by_cases same : name = former
    · rw [same, List.lookup_cons_self, List.lookup_cons_self]
      rfl
    · rw [renamed_single, if_neg same, lookup_cons_of_ne same, lookup_cons_of_ne same]
      rfl

theorem Applies.tail {former new : String} {call : Call} {columns : List String}
    (ordered : Ordered ((former, new) :: call)) (h : Applies ((former, new) :: call) columns) :
    Applies call (columns.map (renamed [(former, new)])) := by
  obtain ⟨other, distinct⟩ := List.nodup_cons.1 h.formers_nodup
  refine ⟨distinct, fun name mem => ?_, ?_⟩
  · have apart : name ≠ former := fun same => other (same ▸ mem)
    have still : renamed [(former, new)] name = name := by rw [renamed_single, if_neg apart]
    exact List.mem_map.2 ⟨name, h.formers_subset (List.mem_cons_of_mem former mem), still⟩
  · rw [List.map_map]
    exact (List.map_congr_left fun name _ => renamed_cons ordered name) ▸ h.results_nodup

theorem apply_singly {call : Call} {calls : List Call} {columns : List String}
    (ordered : Ordered call) (applies : Applies call columns)
    (later : Apply calls (columns.map (renamed call))) :
    Apply (singly call ++ calls) columns := by
  induction call generalizing columns with
  | nil =>
    have same : columns.map (renamed []) = columns := List.map_id columns
    exact same ▸ later
  | cons pair call ih =>
    obtain ⟨former, new⟩ := pair
    have rest := applies.tail ordered
    have still : (columns.map (renamed [(former, new)])).map (renamed call) =
        columns.map (renamed ((former, new) :: call)) := by
      rw [List.map_map]
      exact List.map_congr_left fun name _ => (renamed_cons ordered name).symm
    refine ⟨⟨List.nodup_singleton former, ?_, rest.results_nodup.of_map (renamed call)⟩, ?_⟩
    · exact fun name mem =>
      List.mem_singleton.1 mem ▸ applies.formers_subset List.mem_cons_self
    · exact ih (List.pairwise_cons.1 ordered).2 rest (still.symm ▸ later)

theorem flatten_singly {calls : List Call} {columns : List String}
    (ordered : ∀ call ∈ calls, Ordered call) (h : Apply calls columns) :
    Apply (singly calls.flatten) columns ∧
      (∀ name, finalName (singly calls.flatten) name = finalName calls name) ∧
      ∀ name, isRenamed (singly calls.flatten) name = isRenamed calls name := by
  induction calls generalizing columns with
  | nil => exact ⟨h, fun _ => rfl, fun _ => rfl⟩
  | cons call calls ih =>
    obtain ⟨applies, final, moved⟩ := ih (fun c hc => ordered c (List.mem_cons_of_mem call hc)) h.2
    have first := ordered call List.mem_cons_self
    have split : singly (call :: calls).flatten = singly call ++ singly calls.flatten := by
      rw [List.flatten_cons, singly, List.map_append]
      rfl
    rw [split]
    refine ⟨apply_singly first h.1 applies, fun name => ?_, fun name => ?_⟩
    · exact (finalName_singly first _ name).trans (final _)
    · rw [isRenamed_singly first, moved]
      rfl

/-- The names that columns bear now, and the columns that some call has renamed. -/
structure Tracks (columns : List String) (current : String → String) (moved : List String) :
    Prop where
  distinct : (columns.map current).Nodup
  still : ∀ o ∈ columns, o ∉ moved → current o = o
  subset : moved ⊆ columns
  nodup : moved.Nodup

def trail (current : String → String) (moved : List String) : List (String × String) :=
  moved.map fun o => (o, current o)

theorem addRename_of_notMem {former : String} {pairs : List (String × String)}
    (h : former ∉ pairs.map Prod.snd) (new : String) :
    addRename former new pairs = pairs ++ [(former, new)] := by
  induction pairs with
  | nil => rfl
  | cons pair pairs ih =>
    obtain ⟨other, h⟩ := List.ne_and_not_mem_of_not_mem_cons h
    rw [addRename, if_neg (Ne.symm other), ih h]
    rfl

theorem addRename_trail {current : String → String} {moved : List String} {o : String}
    (mem : o ∈ moved) (nodup : moved.Nodup) (only : ∀ x ∈ moved, current x = current o → x = o)
    (new : String) :
    addRename (current o) new (trail current moved) =
      trail (fun x => renamed [(current o, new)] (current x)) moved := by
  induction moved with
  | nil => cases mem
  | cons x moved ih =>
    obtain ⟨fresh, nodup⟩ := List.nodup_cons.1 nodup
    have later : ∀ y ∈ moved, current y = current o → y = o := fun y hy =>
      only y (List.mem_cons_of_mem x hy)
    by_cases same : current x = current o
    · obtain rfl := only x List.mem_cons_self same
      have rest : trail current moved =
          trail (fun y => renamed [(current x, new)] (current y)) moved := by
        refine List.map_congr_left fun y hy => ?_
        have other : current y ≠ current x := fun h => fresh (later y hy h ▸ hy)
        change (y, current y) = (y, renamed [(current x, new)] (current y))
        rw [renamed_single, if_neg other]
      change addRename (current x) new ((x, current x) :: trail current moved) = _
      rw [addRename, if_pos rfl, rest]
      change _ = (x, renamed [(current x, new)] (current x)) :: _
      rw [renamed_single, if_pos rfl]
      rfl
    · have later : o ∈ moved := by
        obtain rfl | later := List.mem_cons.1 mem
        · exact absurd rfl same
        · exact later
      change addRename (current o) new ((x, current x) :: trail current moved) = _
      rw [addRename, if_neg same, ih later nodup ‹_›]
      change _ = (x, renamed [(current o, new)] (current x)) :: _
      rw [renamed_single, if_neg same]
      rfl

theorem Tracks.eq_of_current {columns moved : List String} {current : String → String}
    (h : Tracks columns current moved) {x o : String} (hx : x ∈ columns) (ho : o ∈ columns)
    (same : current x = current o) : x = o :=
  List.inj_on_of_nodup_map h.distinct hx ho same

theorem Tracks.step {columns moved : List String} {current : String → String}
    (h : Tracks columns current moved) {former new : String}
    (applies : Applies [(former, new)] (columns.map current)) :
    ∃ next, addRename former new (trail current moved) =
        trail (fun x => renamed [(former, new)] (current x)) next ∧
      Tracks columns (fun x => renamed [(former, new)] (current x)) next ∧
      ∀ x ∈ columns, x ∈ next ↔ x ∈ moved ∨ current x = former := by
  obtain ⟨o, ho, rfl⟩ := List.mem_map.1 (applies.formers_subset List.mem_cons_self)
  have only {x : String} (hx : x ∈ columns) : current x = current o ↔ x = o :=
    ⟨h.eq_of_current hx ho, fun same => same ▸ rfl⟩
  have distinct : (columns.map fun x => renamed [(current o, new)] (current x)).Nodup := by
    have results := applies.results_nodup
    rw [List.map_map] at results
    exact results
  have still {x : String} (hx : x ∈ columns) (fresh : x ∉ moved) (other : x ≠ o) :
      renamed [(current o, new)] (current x) = x := by
    rw [renamed_single, if_neg fun same => other ((only hx).1 same), h.still x hx fresh]
  by_cases mem : o ∈ moved
  · refine ⟨moved, addRename_trail mem h.nodup (fun x hx => (only (h.subset hx)).1) new,
      ⟨distinct, fun x hx fresh => ?_, h.subset, h.nodup⟩, fun x hx => ?_⟩
    · exact still hx fresh fun same => fresh (same ▸ mem)
    · rw [only hx]
      exact ⟨.inl, fun mem' => mem'.elim id fun same => same ▸ mem⟩
  · have own : current o = o := h.still o ho mem
    have free : current o ∉ (trail current moved).map Prod.snd := by
      intro taken
      rw [trail, List.map_map] at taken
      obtain ⟨x, hx, same⟩ := List.mem_map.1 taken
      exact mem (h.eq_of_current (h.subset hx) ho same ▸ hx)
    have kept : trail current moved =
        trail (fun x => renamed [(current o, new)] (current x)) moved := by
      refine List.map_congr_left fun x hx => ?_
      have other : current x ≠ current o := fun same =>
        mem (h.eq_of_current (h.subset hx) ho same ▸ hx)
      change (x, current x) = (x, renamed [(current o, new)] (current x))
      rw [renamed_single, if_neg other]
    refine ⟨moved ++ [o], ?_, ⟨distinct, fun x hx fresh => ?_, ?_, ?_⟩, fun x hx => ?_⟩
    · rw [addRename_of_notMem free, kept, trail, trail, List.map_append, List.map_singleton,
        renamed_single, if_pos rfl, own]
    · simp only [List.mem_append, List.mem_singleton, not_or] at fresh
      exact still hx fresh.1 fresh.2
    · exact List.append_subset.2 ⟨h.subset, fun x hx => List.mem_singleton.1 hx ▸ ho⟩
    · rw [← List.concat_eq_append]
      exact List.Nodup.concat mem h.nodup
    · rw [only hx, List.mem_append, List.mem_singleton]

theorem Tracks.run {columns moved : List String} {current : String → String}
    (h : Tracks columns current moved) {renames : List (String × String)}
    (applies : Apply (singly renames) (columns.map current)) :
    ∃ next, collect (trail current moved) renames =
        trail (fun x => finalName (singly renames) (current x)) next ∧
      Tracks columns (fun x => finalName (singly renames) (current x)) next ∧
      ∀ x ∈ columns, x ∈ next ↔ x ∈ moved ∨ isRenamed (singly renames) (current x) = true := by
  induction renames generalizing current moved with
  | nil => exact ⟨moved, rfl, h, fun x _ => by simp [singly, isRenamed]⟩
  | cons pair renames ih =>
    obtain ⟨former, new⟩ := pair
    obtain ⟨first, later⟩ := applies
    obtain ⟨middle, added, tracks, members⟩ := h.step first
    rw [List.map_map] at later
    obtain ⟨next, collected, ends, all⟩ := ih tracks later
    refine ⟨next, (congrArg (collect · renames) added).trans collected, ends, fun x hx => ?_⟩
    rw [all x hx, members x hx, or_assoc]
    refine or_congr_right ?_
    change _ ↔ ((List.lookup (current x) [(former, new)]).isSome || _) = true
    by_cases same : current x = former
    · simp [same]
    · rw [lookup_cons_of_ne same]
      simp only [same, false_or, List.lookup_nil, Option.isSome_none, Bool.false_or]
      rfl

theorem Tracks.initial {columns : List String} (h : columns.Nodup) : Tracks columns id [] :=
  ⟨by rwa [List.map_id], fun _ _ _ => rfl, List.nil_subset columns, List.nodup_nil⟩

/-- The pairs of calls that are in order are the columns renamed by some call, with their final
names. -/
theorem collect_of_ordered {calls : List Call} {columns : List String}
    (ordered : ∀ call ∈ calls, Ordered call) (h : Apply calls columns) :
    ∃ moved, collect [] calls.flatten = trail (finalName calls) moved ∧
      Tracks columns (finalName calls) moved ∧
      ∀ o ∈ columns, o ∈ moved ↔ isRenamed calls o = true := by
  obtain ⟨applies, final, moves⟩ := flatten_singly ordered h
  have start := Tracks.initial h.nodup
  have all : Apply (singly calls.flatten) (columns.map id) := by rwa [List.map_id]
  obtain ⟨moved, collected, tracks, members⟩ := start.run all
  have same : (fun o => finalName (singly calls.flatten) (id o)) = finalName calls := funext final
  rw [same] at collected tracks
  refine ⟨moved, collected, tracks, fun o ho => ?_⟩
  rw [members o ho, ← moves o]
  simp

theorem Apply.inj {calls : List Call} {columns : List String} (h : Apply calls columns)
    {o x : String} (ho : o ∈ columns) (hx : x ∈ columns)
    (same : finalName calls o = finalName calls x) :
    o = x := by
  induction calls generalizing columns o x with
  | nil => exact same
  | cons call calls ih =>
    have next := ih h.2 (List.mem_map_of_mem ho) (List.mem_map_of_mem hx) same
    exact List.inj_on_of_nodup_map h.1.results_nodup ho hx next

theorem origin?_eq_some_iff {calls : List Call} {columns : List String} (h : Apply calls columns)
    {name o : String} : origin? calls columns name = some o ↔
      o ∈ columns ∧ isRenamed calls o = true ∧ finalName calls o = name := by
  constructor
  · intro found
    have holds := List.find?_some found
    simp only [Bool.and_eq_true, beq_iff_eq] at holds
    exact ⟨List.mem_of_find?_eq_some found, holds⟩
  · rintro ⟨ho, moved, rfl⟩
    cases found : origin? calls columns (finalName calls o) with
    | none =>
      have missed := List.find?_eq_none.1 found o ho
      simp [moved] at missed
    | some x =>
      have holds := List.find?_some found
      simp only [Bool.and_eq_true, beq_iff_eq] at holds
      rw [h.inj (List.mem_of_find?_eq_some found) ho holds.2]

theorem find?_collect {calls : List Call} {columns : List String}
    (ordered : ∀ call ∈ calls, Ordered call) (h : Apply calls columns) (name : String) :
    (collect [] calls.flatten).find? (·.2 == name) =
      (origin? calls columns name).map fun o => (o, name) := by
  obtain ⟨moved, collected, tracks, members⟩ := collect_of_ordered ordered h
  rw [collected]
  cases found : origin? calls columns name with
  | some o =>
    obtain ⟨ho, renamed, rfl⟩ := (origin?_eq_some_iff h).1 found
    have mem : (o, finalName calls o) ∈ trail (finalName calls) moved :=
      List.mem_map.2 ⟨o, (members o ho).2 renamed, rfl⟩
    cases seen : (trail (finalName calls) moved).find? (·.2 == finalName calls o) with
    | none => simpa using List.find?_eq_none.1 seen _ mem
    | some pair =>
      obtain ⟨x, hx, rfl⟩ := List.mem_map.1 (List.mem_of_find?_eq_some seen)
      have same : finalName calls x = finalName calls o := by
        simpa using List.find?_some seen
      rw [same, h.inj (tracks.subset hx) ho same]
      rfl
  | none =>
    refine List.find?_eq_none.2 fun pair mem same => ?_
    obtain ⟨x, hx, rfl⟩ := List.mem_map.1 mem
    have renamed := (members x (tracks.subset hx)).1 hx
    have this := (origin?_eq_some_iff h).2 ⟨tracks.subset hx, renamed, by simpa using same⟩
    rw [found] at this
    cases this

theorem traced_of_ordered {calls : List Call} {columns : List String}
    (ordered : ∀ call ∈ calls, Ordered call) (h : Apply calls columns) :
    Traced calls columns (collect [] calls.flatten) := by
  intro o ho
  rw [find?_collect ordered h]
  by_cases moved : isRenamed calls o = true
  · rw [if_pos moved, (origin?_eq_some_iff h).2 ⟨ho, moved, rfl⟩]
    rfl
  · rw [if_neg moved, Option.map_eq_none_iff, Option.eq_none_iff_forall_ne_some]
    intro x found
    obtain ⟨hx, renamed, same⟩ := (origin?_eq_some_iff h).1 found
    exact moved (h.inj hx ho same ▸ renamed)

theorem map_fst_addRename {former : String} {pairs : List (String × String)}
    (h : former ∈ pairs.map Prod.snd) (new : String) :
    (addRename former new pairs).map Prod.fst = pairs.map Prod.fst := by
  induction pairs with
  | nil => cases h
  | cons pair pairs ih =>
    by_cases same : pair.2 = former
    · rw [addRename, if_pos same]
      rfl
    · have later := (List.mem_cons.1 h).resolve_left (Ne.symm same)
      rw [addRename, if_neg same, List.map_cons, ih later]
      rfl

theorem map_fst_collect_subset (pairs : List (String × String)) (call : Call) :
    (collect pairs call).map Prod.fst ⊆ pairs.map Prod.fst ++ call.map Prod.fst := by
  induction call generalizing pairs with
  | nil => simp [collect]
  | cons pair call ih =>
    obtain ⟨former, new⟩ := pair
    intro name mem
    have next := ih (addRename former new pairs) mem
    by_cases known : former ∈ pairs.map Prod.snd
    · rw [map_fst_addRename known] at next
      simp only [List.map_cons, List.mem_append, List.mem_cons] at next ⊢
      exact next.imp_right .inr
    · rw [addRename_of_notMem known] at next
      simpa using next

/-- A pair that takes up the new name of an earlier one leaves no pair of its own. -/
theorem ordered_of_collect {earlier call : Call} (ordered : Ordered earlier)
    (distinct : ((earlier ++ call).map Prod.fst).Nodup)
    (kept : call.map Prod.fst ⊆ (collect earlier call).map Prod.fst) :
    Ordered (earlier ++ call) := by
  induction call generalizing earlier with
  | nil => rwa [List.append_nil]
  | cons pair call ih =>
    obtain ⟨former, new⟩ := pair
    by_cases known : former ∈ earlier.map Prod.snd
    · have mem := map_fst_collect_subset (addRename former new earlier) call
        (kept List.mem_cons_self)
      rw [map_fst_addRename known, List.mem_append] at mem
      rw [List.map_append, List.map_cons, List.nodup_middle, List.nodup_cons] at distinct
      exact absurd (List.mem_append.2 mem) distinct.1
    · have shape : earlier ++ (former, new) :: call = earlier ++ [(former, new)] ++ call := by simp
      rw [shape] at distinct ⊢
      refine ih ?_ distinct ?_
      · refine List.pairwise_append.2 ⟨ordered, List.pairwise_singleton _ _, ?_⟩
        rintro pair hp last hl same
        have former_eq : pair.2 = former := same.trans (congrArg Prod.fst (List.mem_singleton.1 hl))
        exact known (former_eq ▸ List.mem_map_of_mem hp)
      · rw [← addRename_of_notMem known new]
        exact fun name mem => kept (List.mem_cons_of_mem former mem)

/-- Of one call the pairs are right only if it is in order. -/
theorem ordered_of_traced {call : Call} {columns : List String} (h : Apply [call] columns)
    (traced : Traced [call] columns (collect [] call)) : Ordered call := by
  have none : Ordered [] := List.Pairwise.nil
  refine ordered_of_collect none h.1.formers_nodup ?_
  intro former mem
  have moved : isRenamed [call] former = true := by
    cases found : call.lookup former with
    | none =>
      obtain ⟨pair, hp, rfl⟩ := List.mem_map.1 mem
      simpa using List.lookup_eq_none_iff.1 found pair hp
    | some new => simp [isRenamed, found]
  have seen := traced former (h.1.formers_subset mem)
  rw [if_pos moved] at seen
  exact List.mem_map_of_mem (List.mem_of_find?_eq_some seen)

end SemanticLayer.PowerQuery
