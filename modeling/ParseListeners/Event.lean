import ParseListeners.Configurations
import ParseListeners.Fault

/-!
# Events

What a recognizer tells its listeners: a `SyntaxError`, or a `Report` on one of its decisions.
A report's `Finding` says what came out; all reports share the rest.
-/

namespace ParseListeners

/-- A point of the grammar where the parser chooses between alternatives. -/
structure Decision where
  /-- The number of the decision. -/
  number : UInt64
  /-- The number of the rule that it belongs to. -/
  rule : UInt64
  deriving DecidableEq

/-- Input that does not match the grammar. -/
structure SyntaxError where
  /-- The token that does not match. -/
  token : Option Token := none
  /-- The line of the error. -/
  line : UInt32
  /-- The column of the error. -/
  column : UInt32
  /-- The message for the reader. -/
  message : String
  /-- The fault behind the error. -/
  cause : Option Fault := none
  deriving DecidableEq

/-- What came out of a decision. -/
inductive Finding where
  /-- Several alternatives match; `exact` if the parser knows them to be precisely these. -/
  | ambiguity (exact : Bool) (alternatives : Alternatives)
  /-- The alternatives conflict, so the parser looks again with the whole calling context. -/
  | fullContext (conflicting : Alternatives)
  /-- With the whole calling context one alternative remains. -/
  | contextSensitivity (prediction : UInt64)
  deriving DecidableEq

/-- A report on a decision over a range of the input. -/
structure Report where
  /-- The decision. -/
  decision : Decision
  /-- The index of the first token looked at. -/
  start : UInt64
  /-- The index of the last token looked at. -/
  stop : UInt64
  /-- The configurations at the end of the range. -/
  configurations : Configurations
  /-- What came out. -/
  finding : Finding
  deriving DecidableEq

/-- What a recognizer tells its listeners. -/
inductive Event where
  /-- The input does not match the grammar. -/
  | syntaxError (error : SyntaxError)
  /-- A decision is worth knowing about. -/
  | report (report : Report)
  deriving DecidableEq

/-- The kinds of events. -/
inductive Event.Kind where
  /-- Input that does not match. -/
  | syntaxError
  /-- A report of several matching alternatives. -/
  | ambiguity
  /-- A report of a second look with the whole calling context. -/
  | fullContext
  /-- A report of a decision that hangs on the calling context. -/
  | contextSensitivity
  deriving DecidableEq

/-- The name of a kind of event. -/
def Event.Kind.name : Event.Kind → String
  | .syntaxError => "syntax_error"
  | .ambiguity => "ambiguity"
  | .fullContext => "full_context"
  | .contextSensitivity => "context_sensitivity"

/-- The kind of event that carries a finding. -/
def Finding.kind : Finding → Event.Kind
  | .ambiguity .. => .ambiguity
  | .fullContext .. => .fullContext
  | .contextSensitivity .. => .contextSensitivity

/-- The kind of an event. -/
def Event.kind : Event → Event.Kind
  | .syntaxError _ => .syntaxError
  | .report r => r.finding.kind

end ParseListeners
