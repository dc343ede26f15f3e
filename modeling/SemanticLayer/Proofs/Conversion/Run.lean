import SemanticLayer.Conversion.State
import SemanticLayer.Proofs.Identifier.Registry

set_option autoImplicit false

namespace SemanticLayer.Conversion

open Identifier (Request Registry)

theorem mem_of_lookup {A B : Type} [BEq A] [LawfulBEq A] {entries : List (A × B)} {key : A} {b : B}
    (h : entries.lookup key = some b) : (key, b) ∈ entries := by
  obtain ⟨before, after, rfl, -⟩ := List.lookup_eq_some_iff.1 h
  exact List.mem_append_right before List.mem_cons_self

variable {A B : Type} {s s' : State}

theorem bind_ok {x : Run A} {f : A → Run B} {b : B} (h : (x >>= f).run s = .ok (b, s')) :
    ∃ a s₁, x.run s = .ok (a, s₁) ∧ (f a).run s₁ = .ok (b, s') := by
  rw [StateT.run_bind] at h
  cases first : x.run s with
  | error e =>
    rw [first] at h
    cases h
  | ok p =>
    rw [first] at h
    exact ⟨p.1, p.2, rfl, h⟩

theorem pure_ok {a b : A} (h : (pure a : Run A).run s = .ok (b, s')) : a = b ∧ s = s' := by
  cases h
  exact ⟨rfl, rfl⟩

theorem get_ok {a : State} (h : (get : Run State).run s = .ok (a, s')) : s = a ∧ s = s' := by
  cases h
  exact ⟨rfl, rfl⟩

theorem modify_ok {f : State → State} {u : Unit} (h : (modify f : Run Unit).run s = .ok (u, s')) :
    s' = f s := by
  cases h
  rfl

theorem log_ok {entries : List Diagnostic} {u : Unit}
    (h : (log entries).run s = .ok (u, s')) :
    s' = { s with diagnostics := s.diagnostics ++ entries } :=
  modify_ok h

theorem lift_ok {x : Except ConversionError A} {a : A}
    (h : (liftM x : Run A).run s = .ok (a, s')) : x = .ok a ∧ s = s' := by
  cases x with
  | error e => cases h
  | ok known =>
    cases h
    exact ⟨rfl, rfl⟩

theorem run_store (change : Output → Except ConversionError Output) (s : State) :
    (store change).run s = match change s.output with
      | .ok output => .ok (⟨⟩, { s with output })
      | .error error => .error ⟨error, s⟩ := by
  change ((liftM (change s.output) : Run Output) >>= fun output =>
    set { s with output }).run s = _
  cases change s.output <;> rfl

theorem store_ok {change : Output → Except ConversionError Output} {u : Unit}
    (h : (store change).run s = .ok (u, s')) :
    ∃ output, change s.output = .ok output ∧ s' = { s with output } := by
  obtain ⟨_, _, got, h⟩ := bind_ok h
  obtain ⟨rfl, rfl⟩ := get_ok got
  obtain ⟨output, _, changed, h⟩ := bind_ok h
  obtain ⟨made, rfl⟩ := lift_ok changed
  cases h
  exact ⟨output, made, rfl⟩

theorem run_uniqueName (q : Request) (s : State) : (uniqueName q).run s =
    .ok ((s.names.allocate q).1.name, { s with
      names := (s.names.allocate q).2
      diagnostics := s.diagnostics ++ renameDiagnostics q (s.names.allocate q).1 }) :=
  rfl

theorem uniqueName_ok {q : Request} {name : String}
    (h : (uniqueName q).run s = .ok (name, s')) :
    (s.names.allocate q).1.name = name ∧ { s with
      names := (s.names.allocate q).2
      diagnostics := s.diagnostics ++ renameDiagnostics q (s.names.allocate q).1 } = s' :=
  Prod.mk.inj (Except.ok.inj ((run_uniqueName q s).symm.trans h))

theorem forIn_ok {xs : List A} {f : A → PUnit → Run (ForInStep PUnit)} {u : PUnit}
    {P : State → Prop} (start : P s)
    (step : ∀ x ∈ xs, ∀ s s' r, (f x ⟨⟩).run s = .ok (r, s') → P s → P s')
    (h : (forIn xs PUnit.unit f).run s = .ok (u, s')) : P s' := by
  induction xs generalizing s with
  | nil =>
    cases h
    exact start
  | cons x xs ih =>
    rw [List.forIn_cons] at h
    obtain ⟨r, s₁, first, h⟩ := bind_ok h
    have kept := step x List.mem_cons_self s s₁ r first start
    cases r with
    | done _ =>
      obtain ⟨-, rfl⟩ := pure_ok h
      exact kept
    | yield _ => exact ih kept (fun y hy => step y (List.mem_cons_of_mem x hy)) h

/-- A loop that is never left early establishes step by step what is said of the elements that it
has passed. -/
theorem forIn_steps {xs : List A} {f : A → PUnit → Run (ForInStep PUnit)} {u : PUnit}
    {P : List A → State → Prop} (start : P [] s)
    (step : ∀ x ∈ xs, ∀ done s s' r, (f x ⟨⟩).run s = .ok (r, s') → P done s →
      r = .yield ⟨⟩ ∧ P (done ++ [x]) s')
    (h : (forIn xs PUnit.unit f).run s = .ok (u, s')) : P xs s' := by
  have general (done : List A) (before : P done s) : P (done ++ xs) s' := by
    clear start
    induction xs generalizing s done with
    | nil =>
      cases h
      rwa [List.append_nil]
    | cons x xs ih =>
      rw [List.forIn_cons] at h
      obtain ⟨r, s₁, first, h⟩ := bind_ok h
      obtain ⟨rfl, made⟩ := step x List.mem_cons_self done s s₁ r first before
      have rest := ih (fun y hy => step y (List.mem_cons_of_mem x hy)) h (done ++ [x]) made
      rwa [List.append_assoc] at rest
  exact general [] start

/-- What the turn of an element establishes holds at the end, when later turns keep it. -/
theorem forIn_all {xs : List A} {f : A → PUnit → Run (ForInStep PUnit)} {u : PUnit}
    {P : State → Prop} {Q : A → State → Prop} (start : P s)
    (step : ∀ x ∈ xs, ∀ s s' r, (f x ⟨⟩).run s = .ok (r, s') → P s →
      r = .yield ⟨⟩ ∧ P s' ∧ Q x s' ∧ ∀ y, Q y s → Q y s')
    (h : (forIn xs PUnit.unit f).run s = .ok (u, s')) : P s' ∧ ∀ x ∈ xs, Q x s' := by
  refine forIn_steps (P := fun done s => P s ∧ ∀ x ∈ done, Q x s)
    ⟨start, fun x hx => nomatch hx⟩ (fun x hx done s s' r turn before => ?_) h
  obtain ⟨yielded, kept, made, later⟩ := step x hx s s' r turn before.1
  refine ⟨yielded, kept, fun y hy => ?_⟩
  rcases List.mem_append.1 hy with old | new
  · exact later y (before.2 y old)
  · rwa [List.mem_singleton.1 new]

/-- One turn after the other, for each element of a list. -/
inductive Turns (Turn : A → State → State → Prop) : List A → State → State → Prop
  | nil {s : State} : Turns Turn [] s s
  | cons {x : A} {xs : List A} {s s₁ s' : State} (first : Turn x s s₁)
      (rest : Turns Turn xs s₁ s') : Turns Turn (x :: xs) s s'

theorem Turns.of_forIn {Turn : A → State → State → Prop} {xs : List A}
    {f : A → PUnit → Run (ForInStep PUnit)} {u : PUnit}
    (turn : ∀ x s s' r, (f x ⟨⟩).run s = .ok (r, s') → r = .yield ⟨⟩ ∧ Turn x s s')
    (h : (forIn xs PUnit.unit f).run s = .ok (u, s')) : Turns Turn xs s s' := by
  induction xs generalizing s with
  | nil =>
    cases h
    exact .nil
  | cons x xs ih =>
    rw [List.forIn_cons] at h
    obtain ⟨r, s₁, first, h⟩ := bind_ok h
    obtain ⟨rfl, made⟩ := turn x s s₁ r first
    exact .cons made (ih h)

theorem Turns.keeps {Turn : A → State → State → Prop} {P : State → Prop} {xs : List A}
    (h : Turns Turn xs s s') (step : ∀ x ∈ xs, ∀ s s', Turn x s s' → P s → P s') (start : P s) :
    P s' := by
  induction h with
  | nil => exact start
  | cons first rest ih =>
    exact ih (fun y hy => step y (List.mem_cons_of_mem _ hy))
      (step _ List.mem_cons_self _ _ first start)

theorem Turns.all {Turn : A → State → State → Prop} {P : State → Prop} {Q : A → State → Prop}
    {xs : List A} (h : Turns Turn xs s s')
    (step : ∀ x ∈ xs, ∀ s s', Turn x s s' → P s → P s' ∧ Q x s' ∧ ∀ y, Q y s → Q y s')
    (start : P s) : P s' ∧ ∀ x ∈ xs, Q x s' := by
  suffices general : P s' ∧ (∀ y, Q y s → Q y s') ∧ ∀ x ∈ xs, Q x s' from
    ⟨general.1, general.2.2⟩
  induction h with
  | nil => exact ⟨start, fun _ => id, fun _ hx => nomatch hx⟩
  | cons first rest ih =>
    obtain ⟨kept, made, later⟩ := step _ List.mem_cons_self _ _ first start
    obtain ⟨last, keep, others⟩ := ih (fun y hy => step y (List.mem_cons_of_mem _ hy)) kept
    exact ⟨last, fun y old => keep y (later y old),
      List.forall_mem_cons.2 ⟨keep _ made, others⟩⟩

theorem foldlM_steps {xs : List A} {f : B → A → Run B} {b b' : B} {P : List A → B → State → Prop}
    (start : P [] b s)
    (step : ∀ x ∈ xs, ∀ done b s b' s', (f b x).run s = .ok (b', s') → P done b s →
      P (done ++ [x]) b' s')
    (h : (xs.foldlM f b).run s = .ok (b', s')) : P xs b' s' := by
  have general (done : List A) (before : P done b s) : P (done ++ xs) b' s' := by
    clear start
    induction xs generalizing s b done with
    | nil =>
      obtain ⟨rfl, rfl⟩ := pure_ok h
      rwa [List.append_nil]
    | cons x xs ih =>
      rw [List.foldlM_cons] at h
      obtain ⟨b₁, s₁, first, h⟩ := bind_ok h
      have next := ih (fun y hy => step y (List.mem_cons_of_mem x hy)) h (done ++ [x])
        (step x List.mem_cons_self done b s b₁ s₁ first before)
      rwa [List.append_assoc] at next
  exact general [] start

theorem foldlM_ok {xs : List A} {f : B → A → Run B} {b b' : B} {P : B → State → Prop}
    (start : P b s)
    (step : ∀ x ∈ xs, ∀ b s b' s', (f b x).run s = .ok (b', s') → P b s → P b' s')
    (h : (xs.foldlM f b).run s = .ok (b', s')) : P b' s' :=
  foldlM_steps (P := fun _ => P) start (fun x hx _ => step x hx) h

end SemanticLayer.Conversion
