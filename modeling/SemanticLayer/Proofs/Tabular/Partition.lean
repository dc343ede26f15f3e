import SemanticLayer.Proofs.Tabular.Classification

set_option autoImplicit false

namespace SemanticLayer

namespace TableLists

open Tabular (Table)

def namesOf (tables : List Table) (p : Table → Bool) : List String :=
  (tables.filter p).map (·.name)

theorem namesOf_sublist (tables : List Table) (p : Table → Bool) :
    (namesOf tables p).Sublist (tables.map (·.name)) :=
  List.filter_sublist.map _

theorem namesOf_concat (tables : List Table) (t : Table) (p : Table → Bool) :
    namesOf (tables ++ [t]) p = if p t then namesOf tables p ++ [t.name] else namesOf tables p := by
  rw [namesOf, List.filter_append, List.map_append, List.filter_singleton]
  cases p t
  · exact List.append_nil _
  · rfl

theorem mem_namesOf {tables : List Table} (distinct : (tables.map (·.name)).Nodup) {t : Table}
    (ht : t ∈ tables) {p : Table → Bool} : t.name ∈ namesOf tables p ↔ p t = true := by
  rw [namesOf, List.mem_map]
  constructor
  · rintro ⟨t', found, same⟩
    obtain ⟨ht', role⟩ := List.mem_filter.1 found
    rwa [List.inj_on_of_nodup_map distinct ht' ht same] at role
  · exact fun role => ⟨t, List.mem_filter.2 ⟨ht, role⟩, rfl⟩

theorem filter_namesOf {tables : List Table} {p q : Table → Bool} (keep : String → Bool)
    (h : ∀ t ∈ tables, q t = (p t && keep t.name)) :
    namesOf tables q = (namesOf tables p).filter keep := by
  rw [namesOf, namesOf, List.filter_map, List.filter_filter]
  refine congrArg _ (List.filter_congr fun t ht => ?_)
  rw [h t ht, Bool.and_comm]
  rfl

def Role.isUsed (r : Role) : Bool := r.isFact || r.isDimension || r.isMeasureOnly

/-- The lists of some tables whose roles are read off two sides. -/
def listed (start : TableLists) (backing : List String) (tables : List Table) : TableLists where
  left := start.left
  right := start.right
  fact := namesOf tables fun t => (role start backing t).isFact
  dimension := namesOf tables fun t => (role start backing t).isDimension
  measureOnly := namesOf tables fun t => (role start backing t).isMeasureOnly
  unused := namesOf tables fun t => !(role start backing t).isUsed

section Listed

variable {start : TableLists} {backing : List String} {tables : List Table} {t : Table}

theorem notMem_namesOf (fresh : t.name ∉ tables.map (·.name)) (p : Table → Bool) :
    t.name ∉ namesOf tables p :=
  fun found => fresh ((namesOf_sublist tables p).subset found)

theorem insertName_namesOf (fresh : t.name ∉ tables.map (·.name)) (p : Table → Bool) :
    (if p t then insertName (namesOf tables p) t.name else namesOf tables p) =
      namesOf (tables ++ [t]) p := by
  have absent : ¬(namesOf tables p).contains t.name = true := fun known =>
    notMem_namesOf fresh p (List.contains_iff_mem.1 known)
  rw [namesOf_concat, insertName, if_neg absent]

theorem contains_concat (fresh : t.name ∉ tables.map (·.name)) (p : Table → Bool) :
    (namesOf (tables ++ [t]) p).contains t.name = p t := by
  have absent := notMem_namesOf fresh p
  rw [namesOf_concat, Bool.eq_iff_iff, List.contains_iff_mem]
  split
  · simp_all
  · simp_all

theorem addTable_listed (fresh : t.name ∉ tables.map (·.name)) :
    addTable backing (listed start backing tables) t = listed start backing (tables ++ [t]) := by
  obtain ⟨left, right, dimension, fact, measureOnly⟩ :=
    addTable_lists backing (listed start backing tables) t
  -- Roles are read off the two sides, which the tables so far have left alone.
  have dimension : _ = (listed start backing (tables ++ [t])).dimension :=
    dimension.trans (insertName_namesOf fresh fun t => (role start backing t).isDimension)
  have fact : _ = (listed start backing (tables ++ [t])).fact :=
    fact.trans (insertName_namesOf fresh fun t => (role start backing t).isFact)
  have measureOnly : _ = (listed start backing (tables ++ [t])).measureOnly :=
    measureOnly.trans (insertName_namesOf fresh fun t => (role start backing t).isMeasureOnly)
  refine TableLists.ext ?_ left right measureOnly fact dimension
  rw [unused_addTable, fact, dimension, measureOnly]
  simp only [listed, contains_concat fresh]
  rw [← insertName_namesOf fresh]
  change (if (role start backing t).isUsed = true then _ else _) = _
  cases (role start backing t).isUsed <;> rfl

theorem foldl_addTable_listed {rest : List Table}
    (distinct : ((tables ++ rest).map (·.name)).Nodup) :
    rest.foldl (addTable backing) (listed start backing tables) =
      listed start backing (tables ++ rest) := by
  induction rest generalizing tables with
  | nil => rw [List.append_nil]; rfl
  | cons t rest ih =>
    have fresh : t.name ∉ tables.map (·.name) := by
      rw [List.map_append, List.nodup_append] at distinct
      exact fun found => distinct.2.2 _ found _ List.mem_cons_self rfl
    rw [List.append_cons] at distinct ⊢
    rw [List.foldl_cons, addTable_listed fresh]
    exact ih distinct

end Listed

theorem classify_eq {model : Tabular.Model} (distinct : (model.tables.map (·.name)).Nodup)
    (backing : List String) :
    classify model backing = listed (sides model) backing model.tables := by
  obtain ⟨unused, measureOnly, fact, dimension⟩ := onlySides_sides model
  have start : sides model = listed (sides model) backing [] :=
    TableLists.ext unused rfl rfl measureOnly fact dimension
  rw [classify]
  nth_rewrite 1 [start]
  exact foldl_addTable_listed distinct

/-- A table that backs a metric is a fact, and what it was besides a dimension it is no more. -/
theorem role_backing (start : TableLists) (backing : List String) (t : Table) :
    (role start backing t).isDimension = (role start [] t).isDimension ∧
    (role start backing t).isFact =
      ((role start [] t).isFact || backing.contains t.name) ∧
    (role start backing t).isMeasureOnly =
      ((role start [] t).isMeasureOnly && !backing.contains t.name) ∧
    (role start backing t).isUsed = ((role start [] t).isUsed || backing.contains t.name) := by
  simp only [role, Role.isUsed, List.contains_nil]
  generalize start.left.contains t.name = onLeft
  generalize start.right.contains t.name = onRight
  generalize hasVisibleColumns t = visible
  generalize t.measures.isEmpty = empty
  generalize backing.contains t.name = backs
  revert onLeft onRight visible empty backs
  decide

theorem role_of_isMeasureOnly {start : TableLists} {backing : List String} {t : Table}
    (h : (role start backing t).isMeasureOnly = true) :
    (role start backing t).isFact = false ∧ (role start backing t).isDimension = false := by
  obtain ⟨dimension, fact, measureOnly, -⟩ := role_backing start backing t
  rw [measureOnly, Bool.and_eq_true, Bool.not_eq_true'] at h
  have other : ¬((role start [] t).isFact = true ∨ (role start [] t).isDimension = true) := by
    intro used
    rw [(role_exclusive start t).1 used] at h
    cases h.1
  rw [not_or, Bool.not_eq_true, Bool.not_eq_true] at other
  rw [dimension, fact, other.1, other.2, h.2]
  exact ⟨rfl, rfl⟩

/-- Every table of a model stands in exactly one class, where facts and dimensions are one. -/
structure Partitions (model : Tabular.Model) (lists : TableLists) : Prop where
  covered : ∀ t ∈ model.tables, t.name ∈ lists.unused ∨ t.name ∈ lists.measureOnly ∨
    t.name ∈ lists.fact ∨ t.name ∈ lists.dimension
  unused : ∀ name ∈ lists.unused,
    name ∉ lists.measureOnly ∧ name ∉ lists.fact ∧ name ∉ lists.dimension
  measureOnly : ∀ name ∈ lists.measureOnly, name ∉ lists.fact ∧ name ∉ lists.dimension

/-- The classes name tables of a model, in its order. -/
structure Ordered (model : Tabular.Model) (lists : TableLists) : Prop where
  unused : lists.unused.Sublist (model.tables.map (·.name))
  measureOnly : lists.measureOnly.Sublist (model.tables.map (·.name))
  fact : lists.fact.Sublist (model.tables.map (·.name))
  dimension : lists.dimension.Sublist (model.tables.map (·.name))

/-- What it changes that tables back metrics: they are facts. -/
structure Extends (model : Tabular.Model) (backing : List String) (earlier later : TableLists) :
    Prop where
  left : later.left = earlier.left
  right : later.right = earlier.right
  dimension : later.dimension = earlier.dimension
  fact : later.fact = (model.tables.map (·.name)).filter fun name =>
    earlier.fact.contains name || backing.contains name
  unused : later.unused = earlier.unused.filter fun name => !backing.contains name
  measureOnly : later.measureOnly = earlier.measureOnly.filter fun name => !backing.contains name

section Whole

variable {model : Tabular.Model} (distinct : (model.tables.map (·.name)).Nodup)
  (backing : List String)
include distinct

theorem partitions_classify : Partitions model (classify model backing) := by
  rw [classify_eq distinct]
  have member {p : Table → Bool} {t : Table} (ht : t ∈ model.tables) :
      t.name ∈ namesOf model.tables p ↔ p t = true :=
    mem_namesOf distinct ht
  have known {p : Table → Bool} {name : String} (h : name ∈ namesOf model.tables p) :
      ∃ t ∈ model.tables, t.name = name := List.mem_map.1 ((namesOf_sublist _ _).subset h)
  refine ⟨fun t ht => ?_, fun name found => ?_, fun name found => ?_⟩
  · simp only [listed, member ht, Role.isUsed]
    generalize (role (sides model) backing t).isFact = fact
    generalize (role (sides model) backing t).isDimension = dimension
    generalize (role (sides model) backing t).isMeasureOnly = measureOnly
    revert fact dimension measureOnly
    decide
  · obtain ⟨t, ht, rfl⟩ := known found
    simp only [listed, member ht, Role.isUsed] at found ⊢
    simp only [Bool.not_eq_true', Bool.or_eq_false_iff] at found
    simp [found]
  · obtain ⟨t, ht, rfl⟩ := known found
    simp only [listed, member ht] at found ⊢
    simp [role_of_isMeasureOnly found]

theorem ordered_classify : Ordered model (classify model backing) := by
  rw [classify_eq distinct]
  exact ⟨namesOf_sublist _ _, namesOf_sublist _ _, namesOf_sublist _ _, namesOf_sublist _ _⟩

theorem extends_classify :
    Extends model backing (classify model []) (classify model backing) := by
  rw [classify_eq distinct, classify_eq distinct]
  have roles := role_backing (sides model) backing
  refine ⟨rfl, rfl, ?_, ?_, ?_, ?_⟩
  · exact congrArg (namesOf model.tables) (funext fun t => (roles t).1)
  · have all : model.tables.map (·.name) = namesOf model.tables fun _ => true := by
      rw [namesOf, List.filter_true]
    rw [all]
    refine filter_namesOf _ fun t ht => ?_
    rw [(roles t).2.1, Bool.true_and, Bool.eq_iff_iff]
    simp only [Bool.or_eq_true, List.contains_iff_mem, listed, mem_namesOf distinct ht]
  · exact filter_namesOf _ fun t _ => by rw [(roles t).2.2.2, Bool.not_or]
  · exact filter_namesOf _ fun t _ => (roles t).2.2.1

end Whole

/-- The classes are a partition of the tables in the order of the model, whatever tables back
metrics, and the ones that do are facts besides what was known without them. -/
theorem classify_partition {model : Tabular.Model}
    (distinct : (model.tables.map (·.name)).Nodup) (backing : List String) :
    Partitions model (classify model backing) ∧ Ordered model (classify model backing) ∧
      Extends model backing (classify model []) (classify model backing) :=
  ⟨partitions_classify distinct backing, ordered_classify distinct backing,
    extends_classify distinct backing⟩

/-- Orders of customers in regions, and a table of measures. -/
def regionalOrders : Tabular.Model where
  tables := [
    { name := "Region", columns := [.data "Id" "int64"] },
    { name := "Orders", columns := [.data "Customer" "int64"] },
    { name := "Notes", columns := [.data "Text" "string"] },
    { name := "Customer", columns := [.data "Id" "int64", .data "Region" "int64"] },
    { name := "Figures", measures := [{ name := "Total" }] }]
  relationships := [⟨none, "Orders", "Customer", "customer", "Id", true, none⟩,
    ⟨none, "CUSTOMER", "Region", "Region", "Id", true, none⟩]

theorem classify_partition_regionalOrders :
    classify regionalOrders [] = {
      unused := ["Notes"], left := ["Orders", "Customer"], right := ["Customer", "Region"],
      measureOnly := ["Figures"], fact := ["Orders"], dimension := ["Region", "Customer"] } ∧
    classify regionalOrders ["Notes", "Region"] = {
      unused := [], left := ["Orders", "Customer"], right := ["Customer", "Region"],
      measureOnly := ["Figures"], fact := ["Region", "Orders", "Notes"],
      dimension := ["Region", "Customer"] } ∧
    Partitions regionalOrders (classify regionalOrders ["Notes", "Region"]) ∧
    Ordered regionalOrders (classify regionalOrders ["Notes", "Region"]) ∧
    Extends regionalOrders ["Notes", "Region"] (classify regionalOrders [])
      (classify regionalOrders ["Notes", "Region"]) :=
  ⟨by decide +kernel, by decide +kernel,
    classify_partition (by decide) ["Notes", "Region"]⟩

end TableLists

end SemanticLayer
