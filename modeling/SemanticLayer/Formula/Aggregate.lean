import SemanticLayer.Metric
import SemanticLayer.Text.Blank
import SemanticLayer.Text.LowerCase

set_option autoImplicit false

namespace SemanticLayer.Formula

inductive AggregateFunction where
  | sum
  | average
  | min
  | max
  | count
  | countA
  | distinctCount
  | countRows
  deriving DecidableEq, Repr

namespace AggregateFunction

/-- Every function, the longer keyword before one that it starts with. -/
def all : List AggregateFunction :=
  [.distinctCount, .countRows, .countA, .count, .average, .sum, .min, .max]

theorem mem_all (f : AggregateFunction) : f ∈ all := by
  cases f <;> decide

def keyword : AggregateFunction → String
  | .sum => "sum"
  | .average => "average"
  | .min => "min"
  | .max => "max"
  | .count => "count"
  | .countA => "counta"
  | .distinctCount => "distinctcount"
  | .countRows => "countrows"

/-- The name written in the labels of metrics made for a column. -/
def label : AggregateFunction → String
  | .sum => "Sum"
  | .average => "Average"
  | .min => "Minimum"
  | .max => "Maximum"
  | .count | .countA => "Count"
  | .distinctCount => "Distinct Count"
  | .countRows => "Row Count"

/-- The aggregation that computes the function; rows are counted as a sum of ones. -/
def calculationMethod : AggregateFunction → CalculationMethod
  | .sum | .countRows => .sum
  | .average => .average
  | .min => .minimum
  | .max => .maximum
  | .count | .countA => .countNonNull
  | .distinctCount => .countDistinct

def ofName? (name : String) : Option AggregateFunction :=
  all.find? fun f => f.keyword == Text.lowerAscii (Text.trimmed name)

theorem keyword_ne_of_ne : ∀ f g : AggregateFunction, f ≠ g → f.keyword ≠ g.keyword := by
  intro f g
  cases f <;> cases g <;> decide

end AggregateFunction

/-- A call `FUNCTION(table[column])`, or a row count of a table, which has no column. -/
structure AggregateCall where
  function : AggregateFunction
  table : String
  column : Option String
  deriving DecidableEq, Repr

end SemanticLayer.Formula
