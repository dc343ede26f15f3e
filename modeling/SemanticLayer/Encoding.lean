import SemanticLayer.Catalog
import SemanticLayer.Document.Decoding
import SemanticLayer.Readers.Sql.Query
import SemanticLayer.Readers.Toml.Document

set_option autoImplicit false

/-!
The outer layer: the readers that a program runs with, and the written form of the objects of a
semantic layer. Fields without content are left out where the form allows it.
-/
namespace SemanticLayer

open Document

def DatasetColumn.encode (c : DatasetColumn) : Document := ofFields [
  ("name", some (.text c.name)),
  ("data_type", some (.text c.dataType.text)),
  ("sql", c.sql.map .text)]

def Dataset.encode (d : Dataset) : Document := ofFields [
  ("unique_name", some (.text d.uniqueName)),
  ("label", some (.text d.label)),
  ("connection_id", some (.text d.connectionId)),
  ("table", d.table.map .text),
  ("sql", d.sql.map .text),
  ("columns", some (.list (d.columns.map DatasetColumn.encode))),
  ("description", d.description.map .text),
  ("needs_materialization", if d.needsMaterialization then some (.flag true) else none)]

def Metric.encode (m : Metric) : Document := ofFields [
  ("unique_name", some (.text m.uniqueName)),
  ("label", some (.text m.label)),
  ("dataset", some (.text m.dataset)),
  ("column", some (.text m.column)),
  ("calculation_method", some (.text m.calculationMethod.text)),
  ("format", m.format.map .text),
  ("folder", m.folder.map .text),
  ("is_hidden", some (.flag m.isHidden)),
  ("description", m.description.map .text),
  ("unrelated_dimensions_handling", m.unrelatedDimensions.map (.text ·.text))]

def MetricCalc.encode (m : MetricCalc) : Document := ofFields [
  ("unique_name", some (.text m.uniqueName)),
  ("label", some (.text m.label)),
  ("expression", some (.text m.expression)),
  ("format", m.format.map .text),
  ("folder", m.folder.map .text),
  ("is_hidden", some (.flag m.isHidden)),
  ("description", m.description.map .text)]

def JoinSource.encode (j : JoinSource) : Document := .record [
  ("dataset", .text j.dataset),
  ("join_columns", ofTexts j.joinColumns)]

def JoinTarget.encode (j : JoinTarget) : Document := .record [
  ("dimension", .text j.dimension),
  ("level", .text j.level)]

def Relationship.encode (r : Relationship) : Document := .record [
  ("unique_name", .text r.uniqueName),
  ("from", r.source.encode),
  ("to", r.target.encode)]

def SecondaryAttribute.encode (a : SecondaryAttribute) : Document := ofFields [
  ("unique_name", some (.text a.uniqueName)),
  ("label", some (.text a.label)),
  ("dataset", some (.text a.dataset)),
  ("key_columns", some (ofTexts a.keyColumns)),
  ("name_column", some (.text a.nameColumn)),
  ("folder", a.folder.map .text),
  ("is_hidden", some (.flag a.isHidden))]

def Level.encode (l : Level) : Document := ofFields [
  ("unique_name", some (.text l.uniqueName)),
  ("is_hidden", some (.flag l.isHidden)),
  ("secondary_attributes", ofItems? SecondaryAttribute.encode l.secondaryAttributes)]

def LevelAttribute.encode (a : LevelAttribute) : Document := ofFields [
  ("unique_name", some (.text a.uniqueName)),
  ("label", some (.text a.label)),
  ("dataset", some (.text a.dataset)),
  ("key_columns", some (ofTexts a.keyColumns)),
  ("name_column", some (.text a.nameColumn)),
  ("sort_column", a.sortColumn.map .text),
  ("time_unit", a.timeUnit.map (.text ·.text)),
  ("is_hidden", some (.flag a.isHidden))]

def Hierarchy.encode (h : Hierarchy) : Document := ofFields [
  ("unique_name", some (.text h.uniqueName)),
  ("label", some (.text h.label)),
  ("folder", h.folder.map .text),
  ("levels", some (.list (h.levels.map Level.encode)))]

def Dimension.encode (d : Dimension) : Document := ofFields [
  ("unique_name", some (.text d.uniqueName)),
  ("label", some (.text d.label)),
  ("type", some (.text d.type.text)),
  ("description", d.description.map .text),
  ("hierarchies", some (.list (d.hierarchies.map Hierarchy.encode))),
  ("level_attributes", some (.list (d.levelAttributes.map LevelAttribute.encode))),
  ("relationships", ofItems? Relationship.encode d.relationships)]

def Catalog.encode (c : Catalog) : Document := .record [
  ("unique_name", .text c.uniqueName),
  ("label", .text c.label),
  ("version", .text c.version)]

def Connection.encode (c : Connection) : Document := .record [
  ("unique_name", .text c.uniqueName),
  ("label", .text c.label),
  ("as_connection", .text c.asConnection)]

def PerspectiveDimension.encode (d : PerspectiveDimension) : Document := ofFields [
  ("name", some (.text d.name)),
  ("hierarchies", ofItems? .text d.hierarchies)]

def Perspective.encode (p : Perspective) : Document := .record [
  ("unique_name", .text p.uniqueName),
  ("label", .text p.label),
  ("metrics", ofTexts p.metrics),
  ("dimensions", .list (p.dimensions.map PerspectiveDimension.encode))]

def Model.encode (m : Model) : Document := ofFields [
  ("unique_name", some (.text m.uniqueName)),
  ("label", some (.text m.label)),
  ("relationships", some (.list (m.relationships.map Relationship.encode))),
  ("metrics", some (.list (m.metrics.map fun name => .record [("unique_name", .text name)]))),
  ("dimensions", some (ofTexts m.dimensions)),
  ("perspectives", ofItems? Perspective.encode m.perspectives)]

end SemanticLayer
