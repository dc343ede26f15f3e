import SemanticLayer.Proofs.TwoRuns.Whole

set_option autoImplicit false

namespace SemanticLayer

open Tabular (Database)
open Text (equalFold)

namespace Variation

/-- References in another case. Messages may quote them. -/
def ofCase : Variation where
  Spelled a b := equalFold a b = true
  Alike d d' := d.severity = d'.severity
  strangers := []
  folds _ _ h := h
  alike _ _ severity _ := severity
  measureless _ h := nomatch h
  distinct := .nil

theorem ofCase_plain (name : String) : ofCase.Plain name := fun _ h => nomatch h

theorem ofCase_sources [Sql.Parser] {d d' : Database} (h : d.Respelled ofCase.Spelled d')
    (settings : Settings) : ofCase.Sources ⟨d.model, settings⟩ ⟨d'.model, settings⟩ := by
  obtain ⟨_, ⟨tables, _, _, tables', relationships, perspectives, rfl⟩, rfl⟩ := h
  refine ⟨rfl, rfl, ⟨d.model.tables, [], tables, [], ?_, ?_, ?_, .nil⟩, ?_, ?_⟩
  · exact (List.append_nil _).symm
  · exact ((List.append_nil _).trans (List.append_nil _)).symm
  · exact tables'.imp fun t _ same => ⟨ofCase_plain t.name, same⟩
  · exact relationships.imp fun r _ same => ⟨⟨ofCase_plain _, ofCase_plain _⟩, same⟩
  · refine perspectives.imp fun p _ same => ?_
    obtain ⟨_, entries, rfl⟩ := same
    exact ⟨rfl, entries.imp fun e _ same => ⟨ofCase_plain e.name, same⟩⟩

theorem ofCase_logs {log log' : List Diagnostic} (h : ofCase.Logs log log') :
    log'.map (·.severity) = log.map (·.severity) := by
  obtain ⟨before, after, before', after', rfl, rfl, first, second⟩ := h
  have severities {log log' : List Diagnostic} (h : List.Forall₂ ofCase.Alike log log') :
      log.map (·.severity) = log'.map (·.severity) :=
    map_of_forall₂ h fun _ _ same => same
  rw [List.map_append, List.map_append, List.map_append, severities first, severities second]
  exact congrArg (· ++ _) (List.append_nil _)

end Variation

namespace Conversion

/-- The case of references decides nothing. What is written in relationships, levels, sort columns
and perspectives may change its case: the conversion has the same error, or the same result and as
many messages, of the same severities one by one. -/
theorem convertWith_respelled [Sql.Parser] {settings : Settings} {database database' : Database}
    {connection : String} (h : database.Respelled (fun a b => equalFold a b = true) database') :
    (∃ e, convertWith settings database connection = .error e ∧
      convertWith settings database' connection = .error e) ∨
    ∃ c log, convertWith settings database connection = .ok c ∧
      convertWith settings database' connection = .ok { c with diagnostics := log } ∧
        log.map (·.severity) = c.diagnostics.map (·.severity) := by
  have sources := Variation.ofCase_sources h settings
  have quiet : Variation.ofCase.Unsought (settings.notes database connection) :=
    fun _ _ name _ => Variation.ofCase_plain name
  obtain ⟨_, ⟨_, _, _, -, -, -, rfl⟩, rfl⟩ := h
  refine (convertWith_related sources rfl rfl quiet).imp_right ?_
  rintro ⟨c, log, ran, ran', logs⟩
  exact ⟨c, log, ran, ran', Variation.ofCase_logs logs⟩

attribute [local instance] Sql.Parser.lenient

/-- The shop, and the same with all references in lower case. -/
theorem convertWith_respelled_shop : ∃ c log, convertWith {} shop "warehouse" = .ok c ∧
    convertWith {} (shop.mapReferences Text.lowerAscii) "warehouse" =
      .ok { c with diagnostics := log } ∧
    log.map (·.severity) = c.diagnostics.map (·.severity) := by
  have lower : shop.Respelled (fun a b => equalFold a b = true)
      (shop.mapReferences Text.lowerAscii) :=
    Database.respelled_mapReferences Text.equalFold_lowerAscii shop
  obtain ⟨c, made⟩ := exists_convertWith_shop
  refine (convertWith_respelled lower).resolve_left ?_
  rintro ⟨e, failed, -⟩
  rw [made] at failed
  cases failed

end Conversion

end SemanticLayer
