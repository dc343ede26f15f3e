import SemanticLayer.Proofs.Identifier.History
import SemanticLayer.Proofs.Text.Decimal
import SemanticLayer.Proofs.Text.Search

set_option autoImplicit false

/-!
When identifiers run out. The numbered forms of a base differ in what follows their last underscore,
however much of the base is cut away to make room for the number. So when all of them are taken, as
many identifiers are held as there are numbers to try, and before that every new object gets an
identifier of its own.
-/
namespace SemanticLayer.Identifier

open Text (lower)

theorem IsWord.isAscii {name : String} (h : IsWord name) : Text.IsAscii name := by
  intro c hc
  rcases h c hc with word | rfl
  · have alphanumeric : c.isAlpha = true ∨ c.isDigit = true := (Bool.or_eq_true _ _).mp word
    rcases alphanumeric with letter | digit
    · exact Text.toNat_lt_of_isAlpha letter
    · exact Nat.lt_of_le_of_lt (Char.isDigit_iff_toNat.1 digit).2 (by decide)
  · decide

theorem toList_lower_numbered {base : String} (word : IsWord base) (k maxLength : Nat) :
    ∃ kept : List Char, (lower (withSuffix base ("_" ++ toString k) maxLength)).toList =
      kept ++ '_' :: (toString k).toList := by
  have ascii := (Registry.isWord_withSuffix word (Registry.isWord_number k) maxLength).isAscii
  refine ⟨(base.toList.take (maxLength - ("_" ++ toString k).length)).map Char.toLower, ?_⟩
  rw [Text.lower_of_isAscii ascii, Text.lowerAscii, String.toList_ofList, withSuffix,
    String.toList_append, String.toList_ofList, String.toList_append, List.map_append,
    List.map_append, Text.map_toLower_toString]
  rfl

theorem numbered_inj {base : String} (word : IsWord base) (maxLength : Nat) :
    Function.Injective fun k : Nat => lower (withSuffix base ("_" ++ toString k) maxLength) := by
  intro i j h
  dsimp only at h
  obtain ⟨kept, first⟩ := toList_lower_numbered word i maxLength
  obtain ⟨kept', second⟩ := toList_lower_numbered word j maxLength
  have same : kept ++ '_' :: (toString i).toList = kept' ++ '_' :: (toString j).toList := by
    rw [← first, ← second, h]
  have last (kept : List Char) (k : Nat) :
      ((kept ++ '_' :: (toString k).toList).reverse.takeWhile (· ≠ '_')).reverse =
        (toString k).toList := by
    have free : '_' ∉ (toString k).toList.reverse := fun found =>
      Text.notMem_toString (by decide) (List.mem_reverse.1 found)
    rw [List.reverse_append, List.reverse_cons, List.append_assoc, List.singleton_append,
      (Text.takeWhile_of_notMem free _).1, List.reverse_reverse]
  refine Text.toString_toList_inj ?_
  rw [← last kept i, same, last]

theorem isWord_qualified (q : Request) : IsWord (Registry.qualified q) := by
  simp only [Registry.qualified]
  split <;> exact isWord_sanitize _

namespace Registry

variable {r : Registry} {q : Request}

theorem taken_of_numberedFrom {base : String} {n tries : Nat}
    (h : r.numberedFrom base n tries = none) (k : Nat) (low : n ≤ k) (high : k < n + tries) :
    lower (withSuffix base ("_" ++ toString k) r.maxLength) ∈ r.held.map (·.folded) := by
  induction tries generalizing n with
  | zero => omega
  | succ tries ih =>
    simp only [numberedFrom] at h
    split at h
    · cases h
    · rename_i taken
      by_cases first : k = n
      · subst first
        by_contra free
        exact taken ((isFree_iff r _).2 free)
      · exact ih h (by omega) (by omega)

theorem maxSuffix_le_size {base : String} (word : IsWord base) (h : r.numbered base = none) :
    r.maxSuffix ≤ r.size := by
  have few := Text.le_length_of_forms (numbered_inj word r.maxLength) (taken_of_numberedFrom h)
  rwa [List.length_map] at few

theorem numbered_of_choose (h : r.choose q = none) : r.numbered (qualified q) = none := by
  rw [choose, Option.orElse_eq_or, Option.orElse_eq_or, Option.or_eq_none_iff,
    Option.or_eq_none_iff] at h
  exact Option.map_eq_none_iff.1 h.2.2

/-- A request gets an identifier that was free, and holds it from then on. -/
structure Grants (r : Registry) (q : Request) : Prop where
  safe : (r.allocate q).1.resolution ≠ .exhausted
  free : r.registration? (r.allocate q).1.name = none
  holder : ∃ g, (r.allocate q).2.registration? (r.allocate q).1.name = some g ∧
    g.name = (r.allocate q).1.name ∧ g.kind = q.kind ∧ g.owner = q.owner ∧ g.key = q.key
  size : (r.allocate q).2.size = r.size + 1

theorem registration?_register (r : Registry) (q : Request) (name : String) :
    (r.register q name).registration? name =
      some ⟨name, lower name, q.kind, q.owner, q.key, rfl⟩ := by
  rw [registration?, register]
  exact List.find?_cons_of_pos (beq_iff_eq.2 rfl)

theorem grants_or_full (new : r.lookup q.key = none) :
    r.Grants q ∨ (r.allocate q).1.resolution = .exhausted ∧ r.maxSuffix ≤ r.size := by
  have step := r.allocates q
  generalize made : r.allocate q = answer at step
  cases step with
  | known known =>
    rw [new] at known
    cases known
  | @free chosen _ choice =>
    obtain ⟨free, -, safe⟩ := choose_shape choice
    refine Or.inl ⟨made ▸ safe, ?_, ?_, ?_⟩
    · rw [made]
      exact Option.isNone_iff_eq_none.1 free
    · rw [made]
      exact ⟨_, registration?_register r q chosen.name, rfl, rfl, rfl, rfl⟩
    · rw [made]
      rfl
  | exhausted _ choice =>
    exact Or.inr ⟨rfl, maxSuffix_le_size (isWord_qualified q) (numbered_of_choose choice)⟩

theorem limits_after (r : Registry) (requests : List Request) :
    (r.after requests).maxLength = r.maxLength ∧ (r.after requests).maxSuffix = r.maxSuffix := by
  induction requests generalizing r with
  | nil => exact ⟨rfl, rfl⟩
  | cons q rest ih =>
    obtain ⟨length, suffix⟩ := Reaches.limits_allocate r q
    exact ⟨(ih (r.allocate q).2).1.trans length, (ih (r.allocate q).2).2.trans suffix⟩

/-- Whatever was asked before, nothing is exhausted until as many identifiers are held as there are
numbers, and every new object gets an identifier of its own until then. -/
theorem exhausted_only_when_full (maxLength maxSuffix : Nat) (requests : List Request) (q : Request)
    (new : (after { maxLength, maxSuffix } requests).lookup q.key = none) :
    let r := after { maxLength, maxSuffix } requests
    ((r.allocate q).1.resolution = .exhausted → maxSuffix ≤ r.size) ∧
      (r.size < maxSuffix → r.Grants q) := by
  intro r
  have numbers : r.maxSuffix = maxSuffix := (limits_after _ requests).2
  rcases grants_or_full new with grants | ⟨-, full⟩
  · exact ⟨fun exhausted => (grants.safe exhausted).elim, fun _ => grants⟩
  · rw [numbers] at full
    exact ⟨fun _ => full, fun few => (Nat.not_le_of_lt few full).elim⟩

/-- With one number to try, the third object called "Sales" finds nothing, after two were held. -/
theorem exhausted_only_when_full_sales :
    let first : Request := ⟨"Sales", "metric:a", .metric, "", none⟩
    let second : Request := ⟨"SALES", "metric:b", .metric, "", none⟩
    let third : Request := ⟨"sales", "metric:c", .metric, "", none⟩
    let r : Registry := after { maxLength := 8, maxSuffix := 1 } [first, second]
    (r.allocate third).1.resolution = .exhausted ∧ 1 ≤ r.size ∧
      Grants (after { maxLength := 8, maxSuffix := 1 } []) first := by
  intro first second third
  dsimp only
  have exhausted : ((after { maxLength := 8, maxSuffix := 1 } [first, second]).allocate
      third).1.resolution = .exhausted := by decide +kernel
  have full := exhausted_only_when_full 8 1 [first, second] third (by decide +kernel)
  have granted := exhausted_only_when_full 8 1 [] first (by decide +kernel)
  dsimp only at full granted
  exact ⟨exhausted, full.1 exhausted, granted.2 (by decide +kernel)⟩

end Registry

end SemanticLayer.Identifier
