import SemanticLayer.Proofs.Conversion.DrillPaths
import SemanticLayer.Proofs.Conversion.Notes

set_option autoImplicit false

namespace SemanticLayer

open Tabular (Table)

def errorsIn (log : List Diagnostic) : List Diagnostic := log.filter (·.severity == .error)

theorem errorsIn_append (log more : List Diagnostic) :
    errorsIn (log ++ more) = errorsIn log ++ errorsIn more :=
  List.filter_append log more

/-- Messages none of which is an error. -/
def Mild (entries : List Diagnostic) : Prop := ∀ d ∈ entries, d.severity ≠ .error

theorem Mild.append {entries more : List Diagnostic} (h : Mild entries) (h' : Mild more) :
    Mild (entries ++ more) :=
  List.forall_mem_append.2 ⟨h, h'⟩

theorem Mild.errorsIn {entries : List Diagnostic} (h : Mild entries) : errorsIn entries = [] :=
  List.filter_eq_nil_iff.2 fun d hd wrong => h d hd (eq_of_beq wrong)

theorem hasErrors_iff (log : List Diagnostic) : hasErrors log = true ↔ errorsIn log ≠ [] := by
  simp [hasErrors, errorsIn]

section Units

/-- A keyword stands somewhere in a label, whatever the case of letters. -/
def Mentions (label keyword : String) : Prop :=
  (Text.lower keyword).toList <:+: (Text.lower label).toList

theorem containsLower_iff {label keyword : String} :
    containsLower label keyword = true ↔ Mentions label keyword :=
  Text.occursIn_iff_infix

/-- A rule of the settings has its keyword in a label. -/
def DimensionSettings.Matches (s : DimensionSettings) (label : String) : Prop :=
  ∃ rule ∈ s.timeUnits, Mentions label rule.keyword

/-- A label has the unit of the first rule whose keyword it has. -/
def DimensionSettings.Gives (s : DimensionSettings) (label : String) (unit : TimeUnit) : Prop :=
  ∃ earlier rule later, s.timeUnits = earlier ++ rule :: later ∧
    (∀ other ∈ earlier, ¬Mentions label other.keyword) ∧ Mentions label rule.keyword ∧
    TimeUnit.ofName? rule.unit = some unit

/-- The labels of the levels of a dimension that no rule matches. -/
def unmatchedLabels (settings : Settings) (d : Dimension) : List String :=
  (d.levelAttributes.map (·.label)).filter fun label =>
    !settings.dimensions.timeUnits.any fun rule => containsLower label rule.keyword

def timeAlarm (settings : Settings) (t : Table) (d : Dimension) : Diagnostic :=
  ⟨.error, some t.name, "no time unit matches level(s) " ++
    ", ".intercalate (unmatchedLabels settings d) ++ "; emitted as a standard dimension"⟩

/-- The type of a dimension and the units of its levels are those of its table. -/
structure TimeTyped (settings : Settings) (t : Table) (d : Dimension) : Prop where
  time : d.type = .time ↔
    t.isTime = true ∧ ∀ a ∈ d.levelAttributes, settings.dimensions.Matches a.label
  units : d.type = .time → ∀ a ∈ d.levelAttributes, ∃ unit,
    a.timeUnit = some unit ∧ settings.dimensions.Gives a.label unit
  unitless : d.type = .standard → ∀ a ∈ d.levelAttributes, a.timeUnit = none

def timeAlarms (settings : Settings) (t : Table) (d : Dimension) : List Diagnostic :=
  if t.isTime && d.type == .standard then [timeAlarm settings t d] else []

theorem Settings.unit_of_valid {s : Settings} (valid : s.problem? = none) {rule : TimeUnitRule}
    (hr : rule ∈ s.dimensions.timeUnits) : ∃ unit, TimeUnit.ofName? rule.unit = some unit := by
  unfold problem? at valid
  split at valid
  · cases valid
  split at valid
  · cases valid
  split at valid
  · cases valid
  have known := List.find?_eq_none.1 (Option.map_eq_none_iff.1 valid) rule hr
  exact Option.ne_none_iff_exists'.1 (by simpa using known)

variable {settings : Settings} {t : Table} {attributes : List LevelAttribute} {d : Dimension}

theorem gives_of_inferTimeUnit {s : DimensionSettings} {label : String} {unit : TimeUnit}
    (h : s.inferTimeUnit label = some unit) : s.Gives label unit := by
  obtain ⟨rule, found, named⟩ := Option.bind_eq_some_iff.1 h
  obtain ⟨has, earlier, later, split, none⟩ := List.find?_eq_some_iff_append.1 found
  refine ⟨earlier, rule, later, split, fun other ho => ?_, containsLower_iff.1 has, named⟩
  rw [← containsLower_iff]
  simpa using none other ho

theorem inferTimeUnit_isNone (valid : settings.problem? = none) (label : String) :
    (settings.dimensions.inferTimeUnit label).isNone =
      !settings.dimensions.timeUnits.any fun rule => containsLower label rule.keyword := by
  rw [DimensionSettings.inferTimeUnit]
  cases found : settings.dimensions.timeUnits.find? fun rule =>
      containsLower label rule.keyword with
  | none =>
    rw [List.any_eq_false.2 (List.find?_eq_none.1 found)]
    rfl
  | some rule =>
    obtain ⟨unit, named⟩ := settings.unit_of_valid valid (List.mem_of_find?_eq_some found)
    have has : (settings.dimensions.timeUnits.any fun rule =>
        containsLower label rule.keyword) = true :=
      List.any_eq_true.2 ⟨rule, List.mem_of_find?_eq_some found,
        List.find?_some (p := fun rule : TimeUnitRule => containsLower label rule.keyword) found⟩
    rw [has, Option.bind_some, named]
    rfl

theorem labelsWithoutUnit_eq (valid : settings.problem? = none)
    (attributes : List LevelAttribute) : Conversion.labelsWithoutUnit settings attributes =
      (attributes.map (·.label)).filter fun label =>
        !settings.dimensions.timeUnits.any fun rule => containsLower label rule.keyword := by
  rw [Conversion.labelsWithoutUnit, List.filter_map]
  exact congrArg (List.map _) (List.filter_congr fun a _ => inferTimeUnit_isNone valid a.label)

theorem labelsWithoutUnit_isEmpty (valid : settings.problem? = none) :
    (Conversion.labelsWithoutUnit settings attributes).isEmpty = true ↔
      ∀ a ∈ attributes, settings.dimensions.Matches a.label := by
  rw [labelsWithoutUnit_eq valid, List.isEmpty_iff, List.filter_eq_nil_iff]
  simp [DimensionSettings.Matches, containsLower_iff]

theorem exists_unit (valid : settings.problem? = none) {label : String}
    (h : settings.dimensions.Matches label) :
    ∃ unit, settings.dimensions.inferTimeUnit label = some unit := by
  have found := inferTimeUnit_isNone valid label
  obtain ⟨rule, hr, mentioned⟩ := h
  have has : (settings.dimensions.timeUnits.any fun rule =>
      containsLower label rule.keyword) = true :=
    List.any_eq_true.2 ⟨rule, hr, containsLower_iff.2 mentioned⟩
  rw [has] at found
  exact Option.isSome_iff_exists.1 (by simpa using found)

section Typed

variable (valid : settings.problem? = none)
  (type : d.type = (Conversion.timeTyped settings t attributes).1)
  (levels : d.levelAttributes = (Conversion.timeTyped settings t attributes).2)
include valid type levels

theorem timeTyped_time
    (fit : (t.isTime && (Conversion.labelsWithoutUnit settings attributes).isEmpty) = true) :
    TimeTyped settings t d ∧
      Conversion.timeDiagnostics settings t attributes = timeAlarms settings t d := by
  rw [Conversion.timeTyped, if_pos fit] at type levels
  have time : d.type = .time := type
  obtain ⟨isTime, empty⟩ := (Bool.and_eq_true _ _).mp fit
  have all := (labelsWithoutUnit_isEmpty valid).1 empty
  refine ⟨{
    time := ⟨fun _ => ⟨isTime, fun a ha => ?_⟩, fun _ => time⟩
    units := fun _ a ha => ?_
    unitless := fun standard => absurd (time.symm.trans standard) (by decide) }, ?_⟩
  · rw [levels] at ha
    obtain ⟨b, hb, rfl⟩ := List.mem_map.1 ha
    exact all b hb
  · rw [levels] at ha
    obtain ⟨b, hb, rfl⟩ := List.mem_map.1 ha
    obtain ⟨unit, given⟩ := exists_unit valid (all b hb)
    exact ⟨unit, given, gives_of_inferTimeUnit given⟩
  · rw [Conversion.timeDiagnostics, timeAlarms, time, empty]
    simp

theorem timeTyped_standard (plain : ∀ a ∈ attributes, a.timeUnit = none)
    (unfit : ¬(t.isTime && (Conversion.labelsWithoutUnit settings attributes).isEmpty) = true) :
    TimeTyped settings t d ∧
      Conversion.timeDiagnostics settings t attributes = timeAlarms settings t d := by
  rw [Conversion.timeTyped, if_neg unfit] at type levels
  have standard : d.type = .standard := type
  refine ⟨{
    time := ⟨fun time => absurd (standard.symm.trans time) (by decide), fun fits => ?_⟩
    units := fun time => absurd (standard.symm.trans time) (by decide)
    unitless := fun _ => levels ▸ plain }, ?_⟩
  · obtain ⟨isTime, all⟩ := fits
    rw [levels] at all
    exact (unfit ((Bool.and_eq_true _ _).mpr
      ⟨isTime, (labelsWithoutUnit_isEmpty valid).2 all⟩)).elim
  · have unmatched : Conversion.labelsWithoutUnit settings attributes =
        unmatchedLabels settings d := by
      rw [labelsWithoutUnit_eq valid, unmatchedLabels, levels]
    rw [Conversion.timeDiagnostics, timeAlarms, timeAlarm, standard]
    cases isTime : t.isTime with
    | false => rfl
    | true =>
      rw [isTime, Bool.true_and, unmatched] at unfit
      simpa [unmatched] using unfit

theorem timeTyped_typed (plain : ∀ a ∈ attributes, a.timeUnit = none) :
    TimeTyped settings t d ∧
      Conversion.timeDiagnostics settings t attributes = timeAlarms settings t d := by
  by_cases fit : (t.isTime && (Conversion.labelsWithoutUnit settings attributes).isEmpty) = true
  · exact timeTyped_time valid type levels fit
  · exact timeTyped_standard valid type levels plain fit

end Typed

end Units

namespace Conversion

variable {source : Source} {t : Table} {d : Diagnostic} {s s' : State} {u : Unit}

section Mild

theorem mild_renamed (q : Identifier.Request) (given : Identifier.Allocation) :
    Mild (renameDiagnostics q given) := by
  unfold renameDiagnostics
  split <;> simp [Mild]

theorem mild_column (t : Table) (c : Tabular.Column) : Mild (columnDiagnostics t c) := by
  refine .append ?_ ?_ <;> split <;> simp [Mild]

theorem mild_partition (t : Table) : Mild (partitionDiagnostics t) := by
  intro d h
  obtain ⟨p, -, noted⟩ := List.mem_filterMap.1 h
  obtain ⟨problem, -, rfl⟩ := Option.map_eq_some_iff.1 noted
  exact fun wrong => nomatch wrong

theorem mild_source (source : Source) (t : Table) : Mild (sourceDiagnostics source t) := by
  unfold sourceDiagnostics
  split
  · simp [Mild]
  · split <;> simp [Mild]
  · simp [Mild]

theorem mild_dataset (source : Source) (t : Table) : Mild (tableDiagnostics source t) := by
  refine .append (.append (fun d h => ?_) (mild_partition t)) (mild_source source t)
  obtain ⟨c, -, h⟩ := List.mem_flatMap.1 h
  exact mild_column t c d h

theorem mild_summary (t : Table) (c : Tabular.Column) : Mild (summaryDiagnostics t c) := by
  unfold summaryDiagnostics
  split
  · simp [Mild]
  · dsimp only
    split <;> split <;> simp [Mild]

theorem mild_join (source : Source) (t : Table) : Mild (joinDiagnostics source t) := by
  intro d h
  obtain ⟨r, -, noted⟩ := List.mem_filterMap.1 h
  split at noted
  · cases noted
    exact fun wrong => nomatch wrong
  · cases noted

theorem mild_sort (t : Table) (c : Tabular.Column) : Mild (sortDiagnostics t c) := by
  unfold sortDiagnostics
  split
  · simp [Mild]
  · split <;> simp [Mild]

theorem mild_skipped {model : Tabular.Model} {r : Tabular.Relationship} {severity : Severity}
    {reason : String} (h : joinEnds model r = .error (severity, reason)) : severity ≠ .error := by
  unfold joinEnds at h
  repeat' split at h
  all_goals
    cases h <;> exact fun wrong => nomatch wrong

theorem Remark.mild (h : Remark source d) : d.severity ≠ .error := by
  cases h with
  | renamed q given h => exact mild_renamed q given d h
  | dataset t h => exact mild_dataset source t d h
  | summary t c h => exact mild_summary t c d h
  | join t h => exact mild_join source t d h
  | sort t c h => exact mild_sort t c d h
  | skipped r h => exact mild_skipped h
  | _ => exact fun wrong => nomatch wrong

theorem errorsIn_of_notes (source : Source) {A : Type} {x : Run A} {a : A}
    (hx : Notes (Remark source) x) (h : x.run s = .ok (a, s')) :
    errorsIn s'.diagnostics = errorsIn s.diagnostics := by
  obtain ⟨entries, added, remarks⟩ := hx s
  rw [h] at added
  have mild : Mild entries := fun d hd => (remarks d hd).mild
  change s'.diagnostics = _ at added
  rw [added, errorsIn_append, mild.errorsIn, List.append_nil]

end Mild

theorem errorsIn_timeAlarms (settings : Settings) (t : Table) (d : Dimension) :
    errorsIn (timeAlarms settings t d) = timeAlarms settings t d := by
  unfold timeAlarms
  split <;> rfl

theorem describeDimension_timed (valid : source.settings.problem? = none) {d : Dimension}
    (h : (describeDimension source t).run s = .ok (d, s')) :
    TimeTyped source.settings t d ∧
      errorsIn s'.diagnostics = errorsIn s.diagnostics ++ timeAlarms source.settings t d := by
  obtain @⟨_, dataset, _, _, levels, s₁, s₂, s₃, s₄, s₅, named, noted, placed, drafted, hung,
    timed⟩ := description_of_ok h
  obtain ⟨-, entries⟩ := hierarchies_follow (d := ⟨t, dataset⟩) drafted
  have plain : ∀ a ∈ levels.map Prod.snd, a.timeUnit = none := fun a ha => by
    obtain ⟨e, he, rfl⟩ := List.mem_map.1 ha
    obtain ⟨use, -, entry⟩ := exists_left_of_forall₂ entries e he
    exact entry.timeUnit
  have before : errorsIn s₅.diagnostics = errorsIn s.diagnostics := calc
    errorsIn s₅.diagnostics = errorsIn s₄.diagnostics :=
      errorsIn_of_notes source (.attachSecondaryAttributes _ _ _) hung
    _ = errorsIn s₃.diagnostics := errorsIn_of_notes source (.hierarchies _ _) drafted
    _ = errorsIn s₂.diagnostics := errorsIn_of_notes source (.datasetName _) placed
    _ = errorsIn s₁.diagnostics := errorsIn_of_notes source (.log fun _ => .join t) noted
    _ = errorsIn s.diagnostics := errorsIn_of_notes source (.dimensionName _) named
  refine And.imp id (fun said => ?_) (timeTyped_typed valid rfl rfl plain)
  rw [log_ok timed, errorsIn_append, before, said, errorsIn_timeAlarms]

/-- Dimensions are made of tables one by one, and typed; what is said of each is an error. -/
structure Timed (settings : Settings) (tables : List Table) (dimensions : List Dimension)
    (errors : List Diagnostic) : Prop where
  typed : List.Forall₂ (fun t d => d.label = t.name ∧ TimeTyped settings t d) tables dimensions
  errors : errors = (List.zipWith (timeAlarms settings) tables dimensions).flatten

namespace Timed

variable {settings : Settings} {tables : List Table} {dimensions dimensions' : List Dimension}
  {errors : List Diagnostic}

theorem concat {d : Dimension} (h : Timed settings tables dimensions errors)
    (label : d.label = t.name) (typed : TimeTyped settings t d) :
    Timed settings (tables ++ [t]) (dimensions ++ [d]) (errors ++ timeAlarms settings t d) where
  typed := List.rel_append h.typed (.cons ⟨label, typed⟩ .nil)
  errors := by
    rw [List.zipWith_append h.typed.length_eq, List.flatten_append, ← h.errors]
    simp

theorem joinless (h : Timed settings tables dimensions errors)
    (same : dimensions'.map (fun d => { d with relationships := [] }) =
      dimensions.map fun d => { d with relationships := [] }) :
    Timed settings tables dimensions' errors := by
  let R (t : Table) (d : Dimension) : Prop := d.label = t.name ∧ TimeTyped settings t d
  have typed (dimensions : List Dimension) : List.Forall₂ R tables dimensions ↔
      List.Forall₂ R tables (dimensions.map fun d => { d with relationships := [] }) := by
    rw [List.forall₂_map_right_iff]
    constructor
    · exact List.Forall₂.imp fun _ _ ⟨label, h⟩ => ⟨label, h.time, h.units, h.unitless⟩
    · exact List.Forall₂.imp fun _ _ ⟨label, h⟩ => ⟨label, h.time, h.units, h.unitless⟩
  have alarms (dimensions : List Dimension) :
      List.zipWith (timeAlarms settings) tables dimensions =
        List.zipWith (timeAlarms settings) tables
          (dimensions.map fun d => { d with relationships := [] }) := by
    rw [List.zipWith_map_right]
    rfl
  refine ⟨(typed dimensions').2 (same ▸ (typed dimensions).1 h.typed), ?_⟩
  rw [alarms, same, ← alarms]
  exact h.errors

end Timed

theorem resolveDimensions_timed (valid : source.settings.problem? = none)
    (none : s.output.dimensions = []) (h : (resolveDimensions source).run s = .ok (u, s')) :
    ∃ errors, errorsIn s'.diagnostics = errorsIn s.diagnostics ++ errors ∧
      Timed source.settings
        (source.model.tables.filter fun t => s.tables.dimension.contains t.name)
        s'.output.dimensions errors := by
  let P (done : List Table) (s' : State) : Prop :=
    ∃ errors, errorsIn s'.diagnostics = errorsIn s.diagnostics ++ errors ∧
      Timed source.settings done s'.output.dimensions errors
  have start : P [] s := ⟨[], (List.append_nil _).symm, none ▸ .nil, none ▸ rfl⟩
  refine resolveDimensions_steps (P := P) start
    (fun t _ done s₁ s₂ d _ _ before described _ => ?_) h
  obtain ⟨errors, said, before⟩ := before
  obtain ⟨typed, alarms⟩ := describeDimension_timed valid described
  obtain ⟨label, -⟩ := describeDimension_ok described
  refine ⟨errors ++ timeAlarms source.settings t d, ?_, before.concat label typed⟩
  change errorsIn s₂.diagnostics = _
  rw [alarms, said, List.append_assoc]

theorem run_timed (source : Source) {settings : Settings} {database : Tabular.Database}
    {connection : String} {catalog : Catalog} {m : Model} (valid : source.settings.problem? = none)
    (h : (run source database connection).run (.initial settings) = .ok ((catalog, m), s)) :
    ∃ isDimension : Table → Bool, Timed source.settings (source.model.tables.filter isDimension)
      s.output.dimensions (errorsIn s.diagnostics) := by
  rw [run_eq] at h
  obtain ⟨made, s₀, prepared, h⟩ := bind_ok h
  obtain ⟨_, s₁, reported, h⟩ := bind_ok h
  obtain ⟨_, s₂, classified, h⟩ := bind_ok h
  obtain ⟨_, s₃, described, finishing⟩ := bind_ok h
  have reporting : Spares (·.dimensions) s₀ s₁ :=
    Light.keeps .reportUnreferencedHelpers _ _ _ reported
  have none : s₂.output.dimensions = [] := by
    rw [reclassify_ok classified]
    exact reporting.trans (prepare_ok prepared).dimensionless
  have quiet : errorsIn s₂.diagnostics = [] := calc
    errorsIn s₂.diagnostics = errorsIn s₁.diagnostics :=
      errorsIn_of_notes source (.reclassify source) classified
    _ = errorsIn s₀.diagnostics := errorsIn_of_notes source .reportUnreferencedHelpers reported
    _ = errorsIn (State.initial settings).diagnostics :=
      errorsIn_of_notes source (.prepare source database connection) prepared
  obtain ⟨errors, said, timed⟩ := resolveDimensions_timed valid none described
  rw [quiet, List.nil_append] at said
  subst said
  have spared : joinlessDimensions s.output = joinlessDimensions s₃.output :=
    Keeps.afterDimensions (R := Spares joinlessDimensions) (fun _ _ => .addMetric rfl)
      (fun _ => .addPerspective rfl) (fun _ _ => rfl) (fun _ => .addJoin rfl) Spares.addNestedJoin
      source made _ _ _ _ finishing
  have last := timed.joinless spared
  rw [← errorsIn_of_notes source (.afterDimensions source made _) finishing] at last
  exact ⟨_, last⟩

section Demoted

variable {model : Tabular.Model} {settings : Settings} {c : Conversion}

def isDemoted (c : Conversion) (t : Table) : Bool :=
  t.isTime && c.dimensions.any fun d => d.label == t.name && d.type == .standard

theorem isDemoted_iff : isDemoted c t = true ↔ t.isTime = true ∧
    ∃ d ∈ c.dimensions, d.label = t.name ∧ d.type = .standard := by
  simp [isDemoted]

/-- What an error says: a time table has a standard dimension, by its levels without a unit. -/
def Alarms (settings : Settings) (c : Conversion) (t : Table) (e : Diagnostic) : Prop :=
  ∃ d ∈ c.dimensions, d.label = t.name ∧ d.type = .standard ∧ e = timeAlarm settings t d

/-- The time tables are what the types, the units and the errors of a conversion come from. -/
structure TypesTime (settings : Settings) (model : Tabular.Model) (c : Conversion) : Prop where
  tables : ∀ d ∈ c.dimensions, ∃ t ∈ model.tables, d.label = t.name
  typed : ∀ t ∈ model.tables, ∀ d ∈ c.dimensions, d.label = t.name → TimeTyped settings t d
  /-- There is one error for each table, and no other error. -/
  errors : List.Forall₂ (Alarms settings c) (model.tables.filter (isDemoted c))
    (errorsIn c.diagnostics)
  hasErrors : c.hasErrors = true ↔ ∃ t ∈ model.tables, t.isTime = true ∧
    ∃ d ∈ c.dimensions, d.label = t.name ∧ d.type = .standard

theorem forall₂_alarms (settings : Settings) {tables : List Table} {dimensions : List Dimension}
    (aligned : List.Forall₂ (fun t d => d ∈ c.dimensions ∧ d.label = t.name ∧
      isDemoted c t = (t.isTime && d.type == .standard)) tables dimensions) :
    List.Forall₂ (Alarms settings c) (tables.filter (isDemoted c))
      (List.zipWith (timeAlarms settings) tables dimensions).flatten := by
  induction aligned with
  | nil => exact .nil
  | @cons t d _ _ first _ ih =>
    obtain ⟨hd, label, agrees⟩ := first
    rw [List.zipWith_cons_cons, List.flatten_cons, timeAlarms, List.filter_cons, ← agrees]
    split
    · rename_i demoted
      rw [agrees, Bool.and_eq_true, beq_iff_eq] at demoted
      exact .cons ⟨d, hd, label, demoted.2, rfl⟩ ih
    · exact ih

variable {isDimension : Table → Bool} {errors : List Diagnostic}
  (distinct : model.TablesDistinct)
  (timed : Timed settings (model.tables.filter isDimension) c.dimensions errors)
include distinct timed

theorem Timed.labels_nodup : (c.dimensions.map (·.label)).Nodup := by
  rw [← map_of_forall₂ (f := Table.name) timed.typed fun _ _ h => h.1.symm]
  exact distinct.names_nodup.sublist (List.filter_sublist.map _)

theorem Timed.typed_of_label (ht : t ∈ model.tables) {d : Dimension} (hd : d ∈ c.dimensions)
    (label : d.label = t.name) : isDimension t = true ∧ TimeTyped settings t d := by
  obtain ⟨t', ht', label', typed⟩ := exists_left_of_forall₂ timed.typed d hd
  obtain ⟨ht', isDimension⟩ := List.mem_filter.1 ht'
  obtain rfl := distinct.eq_of_lower ht ht' (congrArg Text.lower (label.symm.trans label'))
  exact ⟨isDimension, typed⟩

theorem Timed.filter_isDemoted :
    (model.tables.filter isDimension).filter (isDemoted c) =
      model.tables.filter (isDemoted c) := by
  rw [List.filter_filter]
  refine List.filter_congr fun t ht => Bool.and_eq_left_iff_imp.2 fun demoted => ?_
  obtain ⟨-, d, hd, label, -⟩ := isDemoted_iff.1 demoted
  exact (timed.typed_of_label distinct ht hd label).1

theorem Timed.isDemoted_eq {d : Dimension} (hd : d ∈ c.dimensions) (label : d.label = t.name) :
    isDemoted c t = (t.isTime && d.type == .standard) := by
  refine congrArg (t.isTime && ·) (Bool.eq_iff_iff.2 ?_)
  rw [List.any_eq_true]
  constructor
  · rintro ⟨d', hd', same⟩
    rw [Bool.and_eq_true, beq_iff_eq] at same
    rw [List.inj_on_of_nodup_map (timed.labels_nodup distinct) hd hd' (label.trans same.1.symm)]
    exact same.2
  · exact fun standard => ⟨d, hd, (Bool.and_eq_true _ _).mpr ⟨beq_iff_eq.2 label, standard⟩⟩

theorem Timed.typesTime (same : errorsIn c.diagnostics = errors) :
    TypesTime settings model c := by
  have aligned : List.Forall₂ (fun t d => d ∈ c.dimensions ∧ d.label = t.name ∧
      isDemoted c t = (t.isTime && d.type == .standard)) (model.tables.filter isDimension)
        c.dimensions := by
    refine ((List.forall₂_and_left _ _).2 ⟨fun d hd => hd, timed.typed.flip⟩).flip.imp ?_
    exact fun t d ⟨hd, label, _⟩ => ⟨hd, label, timed.isDemoted_eq distinct hd label⟩
  have alarms := forall₂_alarms settings aligned
  rw [timed.filter_isDemoted distinct, ← timed.errors, ← same] at alarms
  refine {
    tables := fun d hd => ?_
    typed := fun t ht d hd label => (timed.typed_of_label distinct ht hd label).2
    errors := alarms
    hasErrors := (hasErrors_iff _).trans ?_ }
  · obtain ⟨t, ht, label, -⟩ := exists_left_of_forall₂ timed.typed d hd
    exact ⟨t, List.mem_of_mem_filter ht, label⟩
  · rw [ne_eq, ← List.isEmpty_iff, ← isEmpty_of_forall₂ alarms, List.isEmpty_iff,
      List.filter_eq_nil_iff]
    simp only [isDemoted_iff, not_forall, not_not, exists_prop]

end Demoted

theorem valid_of_convertWith [Sql.Parser] {settings : Settings} {database : Tabular.Database}
    {connection : String} {c : Conversion}
    (h : convertWith settings database connection = .ok c) : settings.problem? = none := by
  unfold convertWith at h
  split at h
  · cases h
  · exact Option.eq_none_iff_forall_ne_some.2 ‹_›

/-- A time table becomes a time dimension or an error, and nothing else becomes either. -/
theorem convertWith_timeTyped [Sql.Parser] {settings : Settings} {database : Tabular.Database}
    {connection : String} {c : Conversion} (distinct : database.model.TablesDistinct)
    (h : convertWith settings database connection = .ok c) :
    TypesTime settings database.model c := by
  have valid := valid_of_convertWith h
  obtain ⟨catalog, m, s, ran, rfl⟩ := convertWith_ok h
  obtain ⟨isDimension, timed⟩ := run_timed ⟨database.model, settings⟩ valid ran
  exact Timed.typesTime (c := ofOutput catalog m s) distinct timed rfl

/-- Orders by dates and by seasons. Nothing tells the unit of a season. -/
def calendar : Tabular.Database where
  name := "Calendar"
  model := {
    tables := [
      { name := "Orders"
        columns := [.data "Date Key" "int64", .data "Season Key" "int64",
          .data "Amount" "decimal"]
        measures := [{ name := "Total", expression := ⟨"SUM(Orders[Amount])"⟩ }] },
      { name := "Date"
        dataCategory := some "Time"
        columns := [{ Tabular.Column.data "Date Key" "int64" with isKey := true },
          .data "Year" "int64"]
        hierarchies := [.ofLevels "Calendar" [("Fiscal Year", "Year")]] },
      { name := "Season"
        dataCategory := some "Time"
        columns := [{ Tabular.Column.data "Season Key" "int64" with isKey := true },
          .data "Year" "int64"]
        hierarchies := [.ofLevels "Seasons" [("Year", "Year")]] }]
    relationships := [
      { fromTable := "Orders", fromColumn := "Date Key"
        toTable := "Date", toColumn := "Date Key" },
      { fromTable := "Orders", fromColumn := "Season Key"
        toTable := "Season", toColumn := "Season Key" }] }

attribute [local instance] Sql.Parser.lenient

/-- The dates become a time dimension, and the seasons a standard one with an error. -/
theorem convertWith_timeTyped_calendar : ∃ c, convertWith {} calendar "warehouse" = .ok c ∧
    TypesTime {} calendar.model c ∧
    (c.dimensions.map fun d => (d.label, d.type)) = [("Date", .time), ("Season", .standard)] ∧
    (c.dimensions.map fun d => d.levelAttributes.map fun a => (a.label, a.timeUnit)) =
      [[("Fiscal Year", some .year), ("Date Key", some .day)],
        [("Year", none), ("Season Key", none)]] ∧
    (errorsIn c.diagnostics).map Diagnostic.render = ["error: Season: no time unit matches " ++
      "level(s) Season Key; emitted as a standard dimension"] := by
  have typed : ∃ c, convertWith {} calendar "warehouse" = .ok c ∧
      (c.dimensions.map fun d => (d.label, d.type)) = [("Date", .time), ("Season", .standard)] ∧
      (c.dimensions.map fun d => d.levelAttributes.map fun a => (a.label, a.timeUnit)) =
        [[("Fiscal Year", some .year), ("Date Key", some .day)],
          [("Year", none), ("Season Key", none)]] ∧
      (errorsIn c.diagnostics).map Diagnostic.render = ["error: Season: no time unit matches " ++
        "level(s) Season Key; emitted as a standard dimension"] :=
    exists_convertWith (by decide +kernel)
  obtain ⟨c, h, said⟩ := typed
  exact ⟨c, h, convertWith_timeTyped (by decide +kernel) h, said⟩

end Conversion

end SemanticLayer
