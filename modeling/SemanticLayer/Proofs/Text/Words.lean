import Mathlib.Data.List.Basic
import SemanticLayer.Proofs.Text.Blank

set_option autoImplicit false

namespace SemanticLayer.Text

section Runs

variable {keep : Char → Bool}

theorem mem_runs {s word : List Char} (h : word ∈ runs keep s) :
    word ≠ [] ∧ ∀ c ∈ word, keep c = true := by
  induction s generalizing word with
  | nil => cases h
  | cons d r ih =>
    unfold runs at h
    by_cases first : keep d = true
    · rw [if_pos first] at h
      have alone : [d] ≠ [] ∧ ∀ c ∈ [d], keep c = true :=
        ⟨List.cons_ne_nil d [], fun c hc => by rwa [List.mem_singleton.1 hc]⟩
      split at h
      · rename_i known
        rw [known] at ih
        split at h
        · rcases List.mem_cons.1 h with rfl | later
          · refine ⟨List.cons_ne_nil d _, fun c hc => ?_⟩
            rcases List.mem_cons.1 hc with rfl | inside
            · exact first
            · exact (ih List.mem_cons_self).2 c inside
          · exact ih (List.mem_cons_of_mem _ later)
        · rcases List.mem_cons.1 h with rfl | later
          · exact alone
          · exact ih later
      · rcases List.mem_cons.1 h with rfl | later
        · exact alone
        · exact ih later
    · rw [if_neg first] at h
      exact ih h

theorem runs_cons_skipped {c : Char} (h : keep c = false) (s : List Char) :
    runs keep (c :: s) = runs keep s := by
  simp [runs, h]

theorem runs_cons_cons {d : Char} (hd : keep d = true) (e : Char) (r : List Char) :
    runs keep (d :: e :: r) =
      match runs keep (e :: r) with
      | w :: ws => if keep e then (d :: w) :: ws else [d] :: w :: ws
      | [] => [[d]] := by
  rw [runs.eq_def]
  cases found : runs keep (e :: r) with
  | nil => simp [hd, found]
  | cons w ws => simp [hd, found]

theorem runs_cons_last {d : Char} (hd : keep d = true) {r : List Char}
    (h : ∀ e ∈ r.head?, keep e = false) : runs keep (d :: r) = [d] :: runs keep r := by
  cases r with
  | nil => simp [runs, hd]
  | cons e r =>
    rw [runs_cons_cons hd, h e rfl]
    cases runs keep (e :: r) <;> rfl

theorem runs_cons_more {d e : Char} (hd : keep d = true) (he : keep e = true) (r : List Char) :
    ∃ w ws, runs keep (e :: r) = w :: ws ∧ runs keep (d :: e :: r) = (d :: w) :: ws := by
  have some : ∃ w ws, runs keep (e :: r) = w :: ws := by
    cases r with
    | nil => exact ⟨_, _, runs_cons_last he fun _ h => nomatch h⟩
    | cons f r =>
      rw [runs_cons_cons he]
      cases runs keep (f :: r) with
      | nil => exact ⟨_, _, rfl⟩
      | cons w ws => cases keep f <;> exact ⟨_, _, rfl⟩
  obtain ⟨w, ws, found⟩ := some
  refine ⟨w, ws, found, ?_⟩
  rw [runs_cons_cons hd, found, he]
  rfl

theorem runs_append {c : Char} (h : keep c = false) (s t : List Char) :
    runs keep (s ++ c :: t) = runs keep s ++ runs keep t := by
  induction s with
  | nil => exact runs_cons_skipped h t
  | cons d s ih =>
    cases hd : keep d with
    | false => rw [List.cons_append, runs_cons_skipped hd, runs_cons_skipped hd, ih]
    | true =>
      cases s with
      | nil =>
        have next : ∀ e ∈ (c :: t).head?, keep e = false := by simpa using h
        rw [List.singleton_append, runs_cons_last hd next,
          runs_cons_last hd fun _ none => (by simp at none), runs_cons_skipped h]
        rfl
      | cons e s =>
        cases he : keep e with
        | false =>
          have next (r : List Char) : ∀ x ∈ (e :: r).head?, keep x = false := by simpa using he
          rw [List.cons_append, List.cons_append, runs_cons_last hd (next _),
            runs_cons_last hd (next _), List.cons_append, ← ih]
          rfl
        | true =>
          obtain ⟨w, ws, whole, wholeMore⟩ := runs_cons_more hd he (s ++ c :: t)
          obtain ⟨w', ws', first, firstMore⟩ := runs_cons_more hd he s
          rw [List.cons_append, whole, first] at ih
          injection ih with sameWord sameRest
          rw [List.cons_append, List.cons_append, wholeMore, firstMore, sameWord, sameRest]
          rfl

theorem runs_intercalate {separator : Char} (h : keep separator = false)
    (pieces : List (List Char)) :
    runs keep ([separator].intercalate pieces) = pieces.flatMap (runs keep) := by
  induction pieces with
  | nil => rfl
  | cons p pieces ih =>
    cases pieces with
    | nil => simp [List.intercalate]
    | cons q pieces =>
      rw [List.intercalate_cons_cons, List.append_assoc, List.singleton_append, runs_append h, ih]
      rfl

theorem runs_of_kept {w : List Char} (full : w ≠ []) (kept : ∀ c ∈ w, keep c = true) :
    runs keep w = [w] := by
  induction w with
  | nil => exact absurd rfl full
  | cons c w ih =>
    have first := kept c List.mem_cons_self
    cases w with
    | nil => exact runs_cons_last first fun _ h => nomatch h
    | cons d w =>
      obtain ⟨v, vs, rest, more⟩ := runs_cons_more first (kept d (by simp)) w
      rw [ih (List.cons_ne_nil d w) fun e he => kept e (List.mem_cons_of_mem c he)] at rest
      cases rest
      exact more

theorem runs_of_skipped {s : List Char} (h : ∀ c ∈ s, keep c = false) : runs keep s = [] := by
  induction s with
  | nil => rfl
  | cons c s ih =>
    rw [runs_cons_skipped (h c List.mem_cons_self)]
    exact ih fun d hd => h d (List.mem_cons_of_mem c hd)

theorem runs_intercalate_of_kept {separator : Char} (h : keep separator = false)
    {words : List (List Char)} (kept : ∀ w ∈ words, w ≠ [] ∧ ∀ c ∈ w, keep c = true) :
    runs keep ([separator].intercalate words) = words := by
  have alone : words.flatMap (runs keep) = words.flatMap fun w => [w] :=
    List.flatMap_congr fun w hw => runs_of_kept (kept w hw).1 (kept w hw).2
  rw [runs_intercalate h, alone, List.flatMap_singleton']

end Runs

theorem words_cons_blank {c : Char} (h : isBlank c = true) (s : List Char) :
    words (c :: s) = words s :=
  runs_cons_skipped (by simp [h]) s

theorem words_cons_last {d : Char} (hd : isBlank d = false) {r : List Char}
    (h : ∀ e ∈ r.head?, isBlank e = true) : words (d :: r) = [d] :: words r :=
  runs_cons_last (by simp [hd]) fun e he => by simp [h e he]

theorem words_cons_more {d e : Char} (hd : isBlank d = false) (he : isBlank e = false)
    (r : List Char) : ∃ w ws, words (e :: r) = w :: ws ∧ words (d :: e :: r) = (d :: w) :: ws :=
  runs_cons_more (by simp [hd]) (by simp [he]) r

theorem words_append {c : Char} (h : isBlank c = true) (s t : List Char) :
    words (s ++ c :: t) = words s ++ words t :=
  runs_append (by simp [h]) s t

theorem words_concat {c : Char} (h : isBlank c = true) (s : List Char) :
    words (s ++ [c]) = words s := by
  rw [words_append h, show words [] = [] from rfl, List.append_nil]

theorem words_intercalate (pieces : List (List Char)) :
    words ([' '].intercalate pieces) = pieces.flatMap words :=
  runs_intercalate rfl pieces

theorem words_blank {b : List Char} (h : Blank b) : words b = [] :=
  runs_of_skipped fun c hc => by simp [h c hc]

end SemanticLayer.Text
