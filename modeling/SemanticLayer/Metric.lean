set_option autoImplicit false

namespace SemanticLayer

inductive CalculationMethod where
  | sum
  | average
  | minimum
  | maximum
  | countNonNull
  | countDistinct
  deriving DecidableEq, Repr

def CalculationMethod.text : CalculationMethod → String
  | .sum => "sum"
  | .average => "average"
  | .minimum => "minimum"
  | .maximum => "maximum"
  | .countNonNull => "count non-null"
  | .countDistinct => "count distinct"

/-- What a metric answers when it is sliced by a dimension that it cannot reach. -/
inductive UnrelatedDimensions where
  | error
  | empty
  | repeated
  deriving DecidableEq, Repr

def UnrelatedDimensions.text : UnrelatedDimensions → String
  | .error => "error"
  | .empty => "empty"
  | .repeated => "repeat"

structure Metric where
  uniqueName : String
  label : String
  dataset : String := ""
  column : String := ""
  calculationMethod : CalculationMethod := .sum
  format : Option String := none
  folder : Option String := none
  isHidden : Bool := false
  description : Option String := none
  unrelatedDimensions : Option UnrelatedDimensions := none
  deriving DecidableEq, Repr

structure MetricCalc where
  uniqueName : String
  label : String
  expression : String := ""
  format : Option String := none
  folder : Option String := none
  isHidden : Bool := false
  description : Option String := none
  deriving DecidableEq, Repr

end SemanticLayer
