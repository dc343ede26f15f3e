set_option autoImplicit false

namespace SemanticLayer

variable {A B E : Type} {e : E}

theorem bind_except_error {x : Except E A} {f : A → Except E B} (h : x >>= f = .error e) :
    x = .error e ∨ ∃ a, x = .ok a ∧ f a = .error e := by
  cases x with
  | error e' =>
    cases h
    exact Or.inl rfl
  | ok a => exact Or.inr ⟨a, rfl, h⟩

theorem bind_except_ok {x : Except E A} {f : A → Except E B} {b : B} (h : x >>= f = .ok b) :
    ∃ a, x = .ok a ∧ f a = .ok b := by
  cases x with
  | error e =>
    cases h
  | ok a => exact ⟨a, rfl, h⟩

theorem map_except_ok {x : Except E A} {f : A → B} {b : B} (h : x.map f = .ok b) :
    ∃ a, x = .ok a ∧ f a = b := by
  cases x with
  | error e => cases h
  | ok a => exact ⟨a, rfl, Except.ok.inj h⟩

theorem map_except_error {x : Except E A} {f : A → B} (h : x.map f = .error e) :
    x = .error e := by
  cases x with
  | error e' =>
    cases h
    rfl
  | ok a => cases h

theorem exists_except_ok {x : Except E A} {p : A → Prop} [DecidablePred p]
    (h : x.toOption.any (p ·)) : ∃ a, x = .ok a ∧ p a := by
  cases x with
  | error e => cases h
  | ok a => exact ⟨a, rfl, of_decide_eq_true h⟩

theorem foldlM_except_steps {xs : List A} {f : B → A → Except E B} {b b' : B}
    {P : List A → B → Prop} (start : P [] b)
    (step : ∀ done x rest, xs = done ++ x :: rest → ∀ b b', f b x = .ok b' → P done b →
      P (done ++ [x]) b')
    (h : xs.foldlM f b = .ok b') : P xs b' := by
  have general (done rest : List A) (split : xs = done ++ rest) (b : B)
      (h : rest.foldlM f b = .ok b') (before : P done b) : P xs b' := by
    induction rest generalizing done b with
    | nil =>
      cases h
      rwa [split, List.append_nil]
    | cons x rest ih =>
      rw [List.foldlM_cons] at h
      obtain ⟨b₁, first, h⟩ := bind_except_ok h
      exact ih (done ++ [x]) (by rw [split, List.append_assoc, List.singleton_append]) b₁ h
        (step done x rest split b b₁ first before)
  exact general [] xs rfl b h start

theorem foldlM_except_ok {xs : List A} {f : B → A → Except E B} {b b' : B} {P : B → Prop}
    (start : P b) (step : ∀ x ∈ xs, ∀ b b', f b x = .ok b' → P b → P b')
    (h : xs.foldlM f b = .ok b') : P b' := by
  refine foldlM_except_steps (P := fun _ => P) start (fun done x rest split => step x ?_) h
  rw [split]
  exact List.mem_append_right done List.mem_cons_self

theorem foldlM_except_error {xs : List A} {f : B → A → Except E B} {b : B}
    (h : xs.foldlM f b = .error e) : ∃ x ∈ xs, ∃ b', f b' x = .error e := by
  induction xs generalizing b with
  | nil => cases h
  | cons x xs ih =>
    rw [List.foldlM_cons] at h
    rcases bind_except_error h with first | ⟨b', -, later⟩
    · exact ⟨x, List.mem_cons_self, b, first⟩
    · obtain ⟨y, hy, failed⟩ := ih later
      exact ⟨y, List.mem_cons_of_mem x hy, failed⟩

theorem foldlM_except_mono {xs : List A} {f f' : B → A → Except E B} {b b' : B}
    (step : ∀ x ∈ xs, ∀ b b', f b x = .ok b' → f' b x = .ok b')
    (h : xs.foldlM f b = .ok b') : xs.foldlM f' b = .ok b' := by
  induction xs generalizing b with
  | nil => exact h
  | cons x xs ih =>
    rw [List.foldlM_cons] at h ⊢
    obtain ⟨b₁, first, h⟩ := bind_except_ok h
    rw [step x List.mem_cons_self b b₁ first]
    exact ih (fun y hy => step y (List.mem_cons_of_mem x hy)) h

theorem mapM_except_error {xs : List A} {f : A → Except E B} (h : xs.mapM f = .error e) :
    ∃ x ∈ xs, f x = .error e := by
  induction xs with
  | nil => cases h
  | cons x xs ih =>
    rw [List.mapM_cons] at h
    rcases bind_except_error h with first | ⟨b, -, later⟩
    · exact ⟨x, List.mem_cons_self, first⟩
    · rcases bind_except_error later with rest | ⟨_, -, wrong⟩
      · obtain ⟨y, hy, failed⟩ := ih rest
        exact ⟨y, List.mem_cons_of_mem x hy, failed⟩
      · cases wrong

theorem mapM_except_ok {xs : List A} {f : A → Except E B} {ys : List B}
    (h : xs.mapM f = .ok ys) : ∀ y ∈ ys, ∃ x ∈ xs, f x = .ok y := by
  induction xs generalizing ys with
  | nil =>
    cases h
    exact fun _ hy => nomatch hy
  | cons x xs ih =>
    rw [List.mapM_cons] at h
    obtain ⟨made, first, h⟩ := bind_except_ok h
    obtain ⟨rest, others, h⟩ := bind_except_ok h
    cases h
    intro y hy
    rcases List.mem_cons.1 hy with rfl | later
    · exact ⟨x, List.mem_cons_self, first⟩
    · obtain ⟨x', hx', same⟩ := ih others y later
      exact ⟨x', List.mem_cons_of_mem x hx', same⟩

end SemanticLayer
