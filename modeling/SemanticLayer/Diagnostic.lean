set_option autoImplicit false

/-!
Messages for the reader of a conversion. They stop nothing; a log keeps them in order.
-/
namespace SemanticLayer

inductive Severity where
  /-- The result cannot show faithfully what the source says. -/
  | error
  /-- A fallback was taken and needs a look by hand. -/
  | warning
  /-- A decision was taken on the way. -/
  | info
  deriving DecidableEq, Repr

namespace Severity

def all : List Severity := [.error, .warning, .info]

def text : Severity → String
  | error => "error"
  | warning => "warning"
  | info => "info"

def ofText? (text : String) : Option Severity := all.find? fun s => s.text == text

end Severity

structure Diagnostic where
  severity : Severity
  object : Option String
  message : String
  deriving DecidableEq, Repr

/-- One line: severity, object if there is one, and message. -/
def Diagnostic.render (d : Diagnostic) : String :=
  match d.object with
  | some object => d.severity.text ++ ": " ++ object ++ ": " ++ d.message
  | none => d.severity.text ++ ": " ++ d.message

def hasErrors (log : List Diagnostic) : Bool := log.any (·.severity == .error)

end SemanticLayer
