import SemanticLayer.Conversion.TableSource
import SemanticLayer.Proofs.PowerQuery.Renaming
import SemanticLayer.Proofs.PowerQuery.Steps
import SemanticLayer.Proofs.Tabular.Classification

set_option autoImplicit false

/-!
What a dataset selects from a source whose columns are renamed.

The pairs of an expression lead from every final name back to the column as long as each call is in
order; of a single call they do so only then. A call that exchanges two names, or moves a name on to
the next column, is read like a chain of calls.
-/
namespace SemanticLayer.Conversion

open PowerQuery (Apply Call Ordered Spells Steps Traced WrittenName WrittenPair WrittenPairs
  origin?)
open Tabular (Table)

/-- A final name, selected from the column that bears it in the end. -/
def projection (calls : List Call) (columns : List String) (name : String) : String :=
  match origin? calls columns name with
  | some former => Sql.quote former ++ " AS " ++ Sql.quote name
  | none => Sql.quote name

theorem renames_steps {text : String} {calls : List Call} (written : Steps text.toList calls)
    (stepped : calls ≠ []) :
    PowerQuery.renames text = .pairs (PowerQuery.collect [] calls.flatten) := by
  obtain ⟨call, others, rfl⟩ := List.exists_cons_of_ne_nil stepped
  simp only [PowerQuery.renames, written.read, PowerQuery.collect]

theorem renamedColumn_collect {calls : List Call} {columns : List String}
    (ordered : ∀ call ∈ calls, Ordered call) (applies : Apply calls columns) (name : String) :
    renamedColumn (PowerQuery.collect [] calls.flatten) name = projection calls columns name := by
  rw [renamedColumn, projection, PowerQuery.find?_collect ordered applies]
  cases origin? calls columns name <;> rfl

theorem mem_physicalNames {t : Table} {name : String} :
    name ∈ physicalNames t ↔ ∃ c ∈ t.columns, c.kind = .data ∧ c.physicalName = name := by
  simp [physicalNames, mem_foldl_insertName, and_assoc]

theorem renameWrapper_of_data {t : Table} (plain : ∃ c ∈ t.columns, c.kind = .data)
    (inner : String) (pairs : List (String × String)) :
    renameWrapper t inner pairs =
      "SELECT " ++ ", ".intercalate ((physicalNames t).map (renamedColumn pairs)) ++ " FROM (" ++
        inner ++ ") AS " ++ Sql.quote "renamed" := by
  obtain ⟨c, hc, data⟩ := plain
  have named : c.physicalName ∈ physicalNames t := mem_physicalNames.2 ⟨c, hc, data, rfl⟩
  obtain ⟨name, names, same⟩ := List.exists_cons_of_ne_nil (List.ne_nil_of_mem named)
  simp only [renameWrapper, renameProjections, same]

/-- The pairs of an expression compose its calls, if no call gives out a name before it takes it
from another column. Each plain column is then selected once, under its final name and from the
column that bears it, whether or not it was renamed. -/
theorem renames_compose {text : String} {calls : List Call} {columns : List String}
    (written : Steps text.toList calls) (stepped : calls ≠ []) (applies : Apply calls columns) :
    ∃ pairs, PowerQuery.renames text = .pairs pairs ∧
      ((∀ call ∈ calls, Ordered call) →
        Traced calls columns pairs ∧
        ∀ (t : Table) (inner : String), (∃ c ∈ t.columns, c.kind = .data) →
          ∃ names : List String, names.Nodup ∧
            (∀ name, name ∈ names ↔ ∃ c ∈ t.columns, c.kind = .data ∧ c.physicalName = name) ∧
            renameWrapper t inner pairs =
              "SELECT " ++ ", ".intercalate (names.map (projection calls columns)) ++ " FROM (" ++
                inner ++ ") AS " ++ Sql.quote "renamed") ∧
      ∀ call, calls = [call] → (Traced calls columns pairs ↔ Ordered call) := by
  have traced (ordered : ∀ call ∈ calls, Ordered call) :=
    PowerQuery.traced_of_ordered ordered applies
  refine ⟨_, renames_steps written stepped, fun ordered => ⟨traced ordered, ?_⟩, ?_⟩
  · intro t inner plain
    refine ⟨physicalNames t, nodup_foldl_insertName List.nodup_nil, fun _ => mem_physicalNames, ?_⟩
    have same : renamedColumn (PowerQuery.collect [] calls.flatten) = projection calls columns :=
      funext (renamedColumn_collect ordered applies)
    rw [renameWrapper_of_data plain, same]
  · rintro call rfl
    refine ⟨fun right => ?_, fun ordered => traced fun c hc => List.mem_singleton.1 hc ▸ ordered⟩
    rw [List.flatten_singleton] at right
    exact PowerQuery.ordered_of_traced applies right

/-- Two names are exchanged, and the second one is taken for what became of the first. -/
example :
    PowerQuery.renames "Table.RenameColumns(A,\x7b\x7b\"a\",\"b\"\x7d,\x7b\"b\",\"a\"\x7d\x7d)" =
      .pairs [("a", "a")] := by decide +kernel

/-- The second step takes up a name that the first one gave out, and gives out the one that the
first one took up. -/
def shopSteps : String :=
  "A = Table.RenameColumns(S, \x7b\x7b\"amt\",\"x\"\x7d\x7d)," ++
    " B = Table.RenameColumns(A, \x7b \x7b\"x\", \"\"\"net\"\"\"\x7d, \x7b\"id\",\"amt\"\x7d\x7d)"

def shopCalls : List Call := [[("amt", "x")], [("x", "\"net\""), ("id", "amt")]]

theorem shop_steps : Steps shopSteps.toList shopCalls := by
  have space : Text.Blank [' '] := fun c hc => List.mem_singleton.1 hc ▸ rfl
  have nil := Text.Blank.nil
  have pair {former renamed : List Char} {o n : String} (hf : WrittenName former o)
      (hr : WrittenName renamed n) :
      WrittenPair ('{' :: (former ++ ',' :: (renamed ++ ['}']))) (o, n) :=
    ⟨former, renamed, hf, hr, rfl⟩
  have net : WrittenName " \"\"\"net\"\"\"".toList "\"net\"" := by
    have quote : ((['"', '"'], ['"']) : PowerQuery.Escape) ∈ PowerQuery.escapes := by decide
    have spelt : Spells PowerQuery.escapes "\"\"net\"\"".toList "\"net\"".toList :=
      .escape quote (.prepend (s := "net".toList) (by decide) (by decide) (.escape quote .nil))
    exact ⟨[' '], _, [], space, spelt, nil, rfl⟩
  have amount : WrittenPair "\x7b\"amt\",\"x\"\x7d".toList ("amt", "x") :=
    pair (.of_plain (by decide) (by decide) nil) (.of_plain (by decide) (by decide) nil)
  have total : WrittenPair "\x7b\"x\", \"\"\"net\"\"\"\x7d".toList ("x", "\"net\"") :=
    pair (.of_plain (by decide) (by decide) nil) net
  have key : WrittenPair "\x7b\"id\",\"amt\"\x7d".toList ("id", "amt") :=
    pair (.of_plain (by decide) (by decide) nil) (.of_plain (by decide) (by decide) nil)
  have first := WrittenPairs.last nil amount nil
  have second := WrittenPairs.next space total nil (.last space key nil)
  have written := Steps.step (show ¬PowerQuery.renameFunction <:+: "A = ".toList by decide)
    (show '{' ∉ "(S, ".toList by decide) first
    (.step (show ¬PowerQuery.renameFunction <:+: "), B = ".toList by decide)
      (show '{' ∉ "(A, ".toList by decide) second (.done (s := [')']) (by decide)))
  refine Eq.subst (motive := fun s => Steps s shopCalls) ?_ written
  decide +kernel

def shopColumns : List String := ["id", "amt", "note"]

def shopTable : Table where
  name := "Sales"
  columns := [.data "\"net\"" "decimal", .data "amt" "int64", .data "note" "string"]

/-- The final `amt` is not the column that had the name at first. -/
theorem renames_compose_shop :
    Steps shopSteps.toList shopCalls ∧ shopCalls ≠ [] ∧ Apply shopCalls shopColumns ∧
      ∃ pairs, PowerQuery.renames shopSteps = .pairs pairs ∧
        pairs.find? (·.2 == "amt") = some ("id", "amt") ∧
        pairs.find? (·.2 == "\"net\"") = some ("amt", "\"net\"") ∧
        pairs.find? (·.2 == "note") = none ∧
        ∃ names : List String, names.Nodup ∧
          (∀ name, name ∈ names ↔ ∃ c ∈ shopTable.columns, c.kind = .data ∧ c.physicalName = name) ∧
          renameWrapper shopTable "SELECT * FROM T" pairs =
            "SELECT " ++ ", ".intercalate (names.map (projection shopCalls shopColumns)) ++
              " FROM (" ++ "SELECT * FROM T" ++ ") AS " ++ Sql.quote "renamed" := by
  have stepped : shopCalls ≠ [] := List.cons_ne_nil _ _
  have applies : Apply shopCalls shopColumns := by decide +kernel
  have ordered : ∀ call ∈ shopCalls, Ordered call := by decide +kernel
  have plain : ∃ c ∈ shopTable.columns, c.kind = .data := by decide +kernel
  obtain ⟨pairs, read, composed, -⟩ := renames_compose shop_steps stepped applies
  obtain ⟨traced, selected⟩ := composed ordered
  refine ⟨shop_steps, stepped, applies, pairs, read, ?_, ?_, ?_, selected _ _ plain⟩
  · exact (traced "id" (by decide)).trans (by decide +kernel)
  · exact (traced "amt" (by decide)).trans (by decide +kernel)
  · exact (traced "note" (by decide)).trans (by decide +kernel)

end SemanticLayer.Conversion
