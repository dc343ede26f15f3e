import SemanticLayer.Proofs.Conversion.Notes
import SemanticLayer.Proofs.Text.Decimal

set_option autoImplicit false

/-!
Which notes are about an unknown table of a formula. The texts of all others part from these before
they come to a name, so a note tells by its text alone that there is a call of the table, and which
table that is.
-/
namespace SemanticLayer.Conversion

open Formula (AggregateCall)
open Tabular (Table Column Measure)

/-- The text parts from those about unknown tables before these come to the table. -/
def Diverges (message : String) : Prop :=
  ¬message.toList <+: tableRequest.toList ∧ ¬tableRequest.toList <+: message.toList

instance (message : String) : Decidable (Diverges message) :=
  inferInstanceAs (Decidable (¬_ ∧ ¬_))

theorem Diverges.append {message : String} (h : Diverges message) (rest : String) :
    Diverges (message ++ rest) := by
  rw [Diverges, String.toList_append]
  refine ⟨fun before => h.1 ((List.prefix_append _ _).trans before), fun before => ?_⟩
  exact (List.prefix_or_prefix_of_prefix before (List.prefix_append _ _)).elim h.2 h.1

theorem Diverges.around {first : String} (h : Diverges first) (middle last : String) :
    Diverges (first ++ middle ++ last) :=
  (h.append middle).append last

theorem Diverges.of_head {c : Char} {rest : List Char} (h : c ≠ 'f') :
    Diverges (String.ofList (c :: rest)) := by
  obtain ⟨others, request⟩ : ∃ others, tableRequest.toList = 'f' :: others :=
    ⟨_, String.toList_ofList⟩
  rw [Diverges, String.toList_ofList, request, List.cons_prefix_cons, List.cons_prefix_cons]
  exact ⟨fun before => h before.1, fun before => h before.1.symm⟩

theorem toList_unknownTableMessage (table : String) : (unknownTableMessage table).toList =
    tableRequest.toList ++ (table.toList ++ "'".toList) := by
  rw [unknownTableMessage, String.toList_append, String.toList_append, List.append_assoc]

theorem Diverges.ne {message : String} (h : Diverges message) (table : String) :
    message ≠ unknownTableMessage table := fun same => by
  refine h.2 ?_
  rw [same, toList_unknownTableMessage]
  exact List.prefix_append _ _

theorem unknownTableMessage_inj {table table' : String}
    (h : unknownTableMessage table = unknownTableMessage table') : table = table' := by
  have same := congrArg String.toList h
  rw [toList_unknownTableMessage, toList_unknownTableMessage] at same
  exact String.toList_inj.1 (List.append_cancel_right (List.append_cancel_left same))

section Diverges

variable {source : Source} {d : Diagnostic} {t : Table} {c : Column}

theorem diverges_of_renamed {q : Identifier.Request} {given : Identifier.Allocation}
    (h : d ∈ renameDiagnostics q given) : Diverges d.message := by
  have kind : ∀ k : Identifier.Kind, Diverges k.text := fun k => by
    cases k <;> exact .of_head (by decide)
  unfold renameDiagnostics at h
  split at h
  · cases h
  · rw [List.mem_singleton.1 h]
    exact ((kind q.kind).append _).around _ _
  · rw [List.mem_singleton.1 h]
    have start : Diverges "no free " := .of_head (by decide)
    exact (start.around _ _).around _ _

theorem diverges_of_partition (h : d ∈ partitionDiagnostics t) : Diverges d.message := by
  obtain ⟨p, -, noted⟩ := List.mem_filterMap.1 h
  obtain ⟨problem, found, rfl⟩ := Option.map_eq_some_iff.1 noted
  change Diverges problem
  unfold partitionProblem? at found
  split at found
  on_goal 2 => split at found
  all_goals
    cases found <;> exact .of_head (by decide)

theorem diverges_of_column (h : d ∈ columnDiagnostics t c) : Diverges d.message := by
  rcases List.mem_append.1 h with h | h
  · split at h
    · rw [List.mem_singleton.1 h]
      have start : Diverges "unsupported data type '" := .of_head (by decide)
      exact start.around _ _
    · cases h
  · split at h
    · rw [List.mem_singleton.1 h]
      exact .of_head (by decide)
    · cases h

theorem diverges_of_source (h : d ∈ sourceDiagnostics source t) :
    Diverges d.message := by
  unfold sourceDiagnostics at h
  split at h
  · cases h
  · split at h
    · obtain ⟨e, -, rfl⟩ := List.mem_map.1 h
      have start : Diverges "dataset SQL could not be parsed; verify it manually: " :=
        .of_head (by decide)
      exact start.append e
    · cases h
  · rw [List.mem_singleton.1 h]
    exact .of_head (by decide)

theorem diverges_of_dataset (h : d ∈ tableDiagnostics source t) :
    Diverges d.message := by
  rcases List.mem_append.1 h with h | h
  · rcases List.mem_append.1 h with h | h
    · obtain ⟨c, -, h⟩ := List.mem_flatMap.1 h
      exact diverges_of_column h
    · exact diverges_of_partition h
  · exact diverges_of_source h

theorem diverges_of_summary (h : d ∈ summaryDiagnostics t c) : Diverges d.message := by
  unfold summaryDiagnostics at h
  split at h
  · cases h
  have only {known : Prop} [Decidable known] {entry : Diagnostic}
      (h : d ∈ if known then [] else [entry]) : d = entry := by
    split at h
    · cases h
    · exact List.mem_singleton.1 h
  rw [only h]
  have start : Diverges "unknown summarizeBy '" := .of_head (by decide)
  exact start.around _ _

theorem diverges_of_join (h : d ∈ joinDiagnostics source t) : Diverges d.message := by
  obtain ⟨r, -, noted⟩ := List.mem_filterMap.1 h
  split at noted
  · cases noted
    have start : Diverges "relationship joins on unknown column '" := .of_head (by decide)
    exact start.around _ _
  · cases noted

theorem diverges_of_sort (h : d ∈ sortDiagnostics t c) : Diverges d.message := by
  unfold sortDiagnostics at h
  split at h
  · cases h
  split at h
  · cases h
  · rw [List.mem_singleton.1 h]
    have start : Diverges "sort-by column '" := .of_head (by decide)
    exact start.around _ _

theorem diverges_of_time {settings : Settings} {attributes : List LevelAttribute}
    (h : d ∈ timeDiagnostics settings t attributes) : Diverges d.message := by
  unfold timeDiagnostics at h
  dsimp only at h
  split at h
  · rw [List.mem_singleton.1 h]
    have start : Diverges "no time unit matches level(s) " := .of_head (by decide)
    exact start.around _ _
  · cases h

theorem diverges_of_skipped {model : Tabular.Model} {r : Tabular.Relationship}
    {severity : Severity} {reason : String} (h : joinEnds model r = .error (severity, reason)) :
    Diverges reason := by
  unfold joinEnds at h
  split at h
  · cases h
    exact .of_head (by decide)
  split at h
  · split at h
    · cases h
    · cases h
      exact .of_head (by decide)
  · cases h
    exact .of_head (by decide)

theorem diverges_remainderMessage (m : Measure) (remainder : String) :
    Diverges (remainderMessage m remainder) := by
  unfold remainderMessage
  dsimp only
  refine .around ?_ _ _
  split <;> decide +kernel

theorem diverges_repeated (count : Nat) :
    Diverges (toString count ++ " metric(s) repeat across unrelated dimensions") := by
  have digits : '\'' ∉ (toString count).toList := Text.notMem_toString rfl
  rw [Diverges, String.toList_append]
  refine ⟨fun before => ?_, fun before => ?_⟩
  · have bracket : '(' ∈ tableRequest.toList :=
      before.subset (List.mem_append_right _ (by decide +kernel))
    exact absurd bracket (by decide +kernel)
  · have mark : '\'' ∈ tableRequest.toList := by decide +kernel
    rcases List.mem_append.1 (before.subset mark) with found | found
    · exact digits found
    · exact absurd found (by decide +kernel)

theorem aggregateTarget_error {call : AggregateCall} {problem : String}
    (h : aggregateTarget source call = .error problem) : Diverges problem ∨
      problem = unknownTableMessage call.table ∧ source.model.table? call.table = none := by
  unfold aggregateTarget at h
  split at h
  · rename_i missing
    cases h
    exact .inr ⟨rfl, missing⟩
  dsimp only at h
  split at h
  · cases h
  split at h
  · cases h
    have start : Diverges "formula references unknown column '" := by decide +kernel
    exact .inl ((start.around _ _).around _ _)
  · cases h

end Diverges

theorem Remark.diverges_or_call {source : Source} {d : Diagnostic} (h : Remark source d) :
    Diverges d.message ∨ ∃ t ∈ source.model.tables, ∃ m ∈ t.measures, ∃ call ∈ calls m,
      d.message = unknownTableMessage call.table ∧ source.model.table? call.table = none := by
  cases h with
  | call measure called failed =>
    obtain ⟨t, ht, hm⟩ := measure
    exact (aggregateTarget_error failed).imp_right fun missing =>
      ⟨t, ht, _, hm, _, called, missing⟩
  | renamed _ _ h => exact .inl (diverges_of_renamed h)
  | dataset _ h => exact .inl (diverges_of_dataset h)
  | summary _ _ h => exact .inl (diverges_of_summary h)
  | join _ h => exact .inl (diverges_of_join h)
  | sort _ _ h => exact .inl (diverges_of_sort h)
  | skipped _ h => exact .inl (diverges_of_skipped h)
  | remainder m rest => exact .inl (diverges_remainderMessage m rest)
  | repeated _ count => exact .inl (diverges_repeated count)
  | level _ _ l =>
    exact .inl (.around (.around (.of_head (by decide)) _ _) _ _)
  | appended _ _ c => exact .inl (.around (.of_head (by decide)) _ _)
  | ambiguous _ through other =>
    exact .inl (.around (.around (.of_head (by decide)) _ _) _ _)
  | absentMeasure _ name => exact .inl (.around (.of_head (by decide)) _ _)
  | absentHierarchy _ name => exact .inl (.around (.of_head (by decide)) _ _)
  | normalized m =>
    have translated : Diverges
        "formula translated after removing comments and redundant parentheses" := by
      decide +kernel
    exact .inl translated
  | _ => exact .inl (.of_head (by decide))

theorem Note.diverges_or_call {source : Source} {d : Diagnostic} (h : Note source d) :
    Diverges d.message ∨ ∃ t ∈ source.model.tables, ∃ m ∈ t.measures, ∃ call ∈ calls m,
      d.message = unknownTableMessage call.table ∧ source.model.table? call.table = none := by
  cases h with
  | remark h => exact h.diverges_or_call
  | time _ _ h => exact .inl (diverges_of_time h)

end SemanticLayer.Conversion
