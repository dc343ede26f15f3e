import SemanticLayer.Proofs.Conversion.UnknownTables
import SemanticLayer.Proofs.TwoRuns.Whole

set_option autoImplicit false

namespace SemanticLayer

open Tabular (Database Table)
open Text (equalFold)

/-- A table without measures whose name, whatever its case, no table, no relationship and no
perspective of a model has. -/
structure Tabular.Table.Unrelated (t : Table) (m : Tabular.Model) : Prop where
  measureless : t.measures = []
  tables : ∀ u ∈ m.tables, equalFold t.name u.name = false
  relationships : ∀ r ∈ m.relationships,
    equalFold t.name r.fromTable = false ∧ equalFold t.name r.toTable = false
  perspectives : ∀ p ∈ m.perspectives, ∀ e ∈ p.tables, equalFold t.name e.name = false

/-- A call in a formula asks for a table that the model lacks, and the conversion has come to it.
Each such call is noted when it is met, as `Conversion.run_aggregateTarget?` shows. -/
structure Settings.Misses [Sql.Parser] (settings : Settings) (database : Database)
    (connection : String) (call : Formula.AggregateCall) : Prop where
  written : ∃ t ∈ database.model.tables, ∃ m ∈ t.measures, call ∈ Conversion.calls m
  noted : ∃ d ∈ settings.notes database connection, d.message = unknownTableMessage call.table

namespace Variation

def ofTable (t : Table) (measureless : t.measures = []) : Variation where
  Spelled := Eq
  Alike := Eq
  strangers := [t]
  folds a b same := same ▸ Text.equalFold_refl a
  alike _ _ _ same := same fun _ _ equal => equal
  measureless := by simpa using measureless
  distinct := List.nodup_singleton _

variable {t : Table} {measureless : t.measures = []}

theorem ofTable_plain {name : String} :
    (ofTable t measureless).Plain name ↔ equalFold t.name name = false :=
  ⟨fun h => h t List.mem_cons_self, fun h _ hu => List.mem_singleton.1 hu ▸ h⟩

instance : Std.Refl (ofTable t measureless).Spelled := ⟨fun _ => rfl⟩

theorem ofTable_sources [Sql.Parser] {m : Tabular.Model} (h : t.Unrelated m)
    {before after : List Table} (split : m.tables = before ++ after) (settings : Settings) :
    (ofTable t h.measureless).Sources ⟨m, settings⟩
      ⟨{ m with tables := before ++ t :: after }, settings⟩ := by
  have tables : ∀ u ∈ m.tables, (ofTable t h.measureless).Plain u.name := fun u hu =>
    ofTable_plain.2 (h.tables u hu)
  rw [split] at tables
  obtain ⟨first, second⟩ := List.forall_mem_append.1 tables
  refine ⟨rfl, rfl, ⟨before, after, before, after, split, ?_, ?_, ?_⟩, ?_, ?_⟩
  · exact (List.append_cons before t after)
  · exact List.forall₂_same.2 fun u hu => ⟨first u hu, Std.Refl.refl u⟩
  · exact List.forall₂_same.2 fun u hu => ⟨second u hu, Std.Refl.refl u⟩
  · refine List.forall₂_same.2 fun r hr => ⟨?_, Std.Refl.refl r⟩
    exact ⟨ofTable_plain.2 (h.relationships r hr).1, ofTable_plain.2 (h.relationships r hr).2⟩
  · exact List.forall₂_same.2 fun p hp => ⟨rfl, List.forall₂_same.2 fun e he =>
      ⟨ofTable_plain.2 (h.perspectives p hp e he), Std.Refl.refl e⟩⟩

end Variation

namespace Conversion

/-- A table that nothing refers to, formulas included, changes nothing but the log, wherever it
stands among the others. -/
theorem convertWith_unrelated [Sql.Parser] {settings : Settings} {database : Database}
    {connection : String}
    {before after : List Table} (split : database.model.tables = before ++ after) {t : Table}
    (unrelated : t.Unrelated database.model)
    (unsought : ∀ call, settings.Misses database connection call →
      equalFold t.name call.table = false) :
    let database' := { database with
      model := { database.model with tables := before ++ t :: after } }
    (∃ e, convertWith settings database connection = .error e ∧
      convertWith settings database' connection = .error e) ∨
    ∃ c earlier later, convertWith settings database connection = .ok c ∧
      c.diagnostics = earlier ++ later ∧
      convertWith settings database' connection = .ok { c with
        diagnostics := earlier ++
          ⟨.info, some t.name, "table is unused and was skipped"⟩ :: later } := by
  intro database'
  have sources : (Variation.ofTable t unrelated.measureless).Sources
      ⟨database.model, settings⟩ ⟨database'.model, settings⟩ :=
    Variation.ofTable_sources unrelated split settings
  have quiet : (Variation.ofTable t unrelated.measureless).Unsought
      (settings.notes database connection) := by
    intro d hd name asks
    rcases (note_of_mem_notes hd).diverges_or_call with other | ⟨u, hu, m, hm, call, called, own, -⟩
    · exact absurd asks (other.ne name)
    · obtain rfl := unknownTableMessage_inj (own.symm.trans asks)
      exact Variation.ofTable_plain.2 (unsought call ⟨⟨u, hu, m, hm, called⟩, d, hd, own⟩)
  refine (convertWith_related sources rfl rfl quiet).imp_right ?_
  rintro ⟨c, log, ran, ran', earlier, later, earlier', later', said, said', first, second⟩
  have same : (Variation.ofTable t unrelated.measureless).Alike = Eq := rfl
  rw [same, List.forall₂_eq_eq_eq] at first second
  refine ⟨c, earlier, later, ran, said, ?_⟩
  rw [ran', said', first, second, List.append_assoc]
  rfl

/-- A table of notes, after the sales of the shop. -/
def notes : Table := { name := "Notes", columns := [.data "Amount" "decimal"] }

def shopWithNotes : Database :=
  { shop with
    model := { shop.model with
      tables := shop.model.tables.take 1 ++ notes :: shop.model.tables.drop 1 } }

attribute [local instance] Sql.Parser.lenient

theorem convertWith_unrelated_notes : ∃ c earlier later,
    convertWith {} shop "warehouse" = .ok c ∧ c.diagnostics = earlier ++ later ∧
      convertWith {} shopWithNotes "warehouse" = .ok { c with
        diagnostics := earlier ++
          ⟨.info, some notes.name, "table is unused and was skipped"⟩ :: later } := by
  have unrelated : notes.Unrelated shop.model :=
    ⟨rfl, by decide +kernel, by decide +kernel, by decide +kernel⟩
  have other : ∀ t ∈ shop.model.tables, ∀ m ∈ t.measures, ∀ call ∈ calls m,
      equalFold notes.name call.table = false := by decide +kernel
  have unsought (call : Formula.AggregateCall) (missed : Settings.Misses {} shop "warehouse" call) :
      equalFold notes.name call.table = false := by
    obtain ⟨t, ht, m, hm, called⟩ := missed.written
    exact other t ht m hm call called
  have split := (List.take_append_drop 1 shop.model.tables).symm
  obtain ⟨c, made⟩ := exists_convertWith_shop
  rcases convertWith_unrelated split unrelated unsought with ⟨e, failed, -⟩ | same
  · rw [made] at failed
    cases failed
  · exact same

end Conversion

end SemanticLayer
