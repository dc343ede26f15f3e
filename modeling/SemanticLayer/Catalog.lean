import SemanticLayer.Dataset
import SemanticLayer.Dimension
import SemanticLayer.Metric

set_option autoImplicit false

namespace SemanticLayer

structure Catalog where
  uniqueName : String
  label : String
  version : String
  deriving DecidableEq, Repr

structure Connection where
  uniqueName : String
  label : String
  /-- The name of the connection where the model is put to use. -/
  asConnection : String
  deriving DecidableEq, Repr

structure PerspectiveDimension where
  name : String
  hierarchies : List String := []
  deriving DecidableEq, Repr

structure Perspective where
  uniqueName : String
  label : String
  metrics : List String := []
  dimensions : List PerspectiveDimension := []
  deriving DecidableEq, Repr

structure Model where
  uniqueName : String
  label : String
  relationships : List Relationship := []
  metrics : List String := []
  dimensions : List String := []
  perspectives : List Perspective := []
  deriving DecidableEq, Repr

end SemanticLayer
