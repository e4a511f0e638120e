import ParseListeners.Event

/-!
# Recorded events

A `Recorded` event is what a collecting listener keeps of an event: everything that outlives the
parse, with texts in place of tokens and faults.
-/

namespace ParseListeners

/-- What a collecting listener keeps of an event. -/
inductive Recorded where
  /-- A syntax error, with the texts of its token and of its cause. -/
  | syntaxError (offendingText : Option String) (line column : UInt32) (message : String)
      (cause : Option String)
  /-- An ambiguity, with the reported alternatives. -/
  | ambiguity (decision start stop : UInt64) (exact : Bool) (alternatives : Alternatives)
  /-- A second look with the whole calling context. -/
  | fullContext (decision start stop : UInt64) (alternatives : Alternatives)
  /-- A decision that hangs on the calling context; `fullContext` is that of the
  configurations. -/
  | contextSensitivity (decision start stop prediction : UInt64) (fullContext : Bool)
  deriving DecidableEq

namespace Recorded

/-- What is kept of a syntax error. -/
def ofSyntaxError (e : SyntaxError) : Recorded :=
  .syntaxError (e.token.map Token.text) e.line e.column e.message (e.cause.map Fault.render)

/-- What is kept of a report. -/
def ofReport (r : Report) : Recorded :=
  match r.finding with
  | .ambiguity exact alternatives =>
    .ambiguity r.decision.number r.start r.stop exact alternatives
  | .fullContext conflicting => .fullContext r.decision.number r.start r.stop conflicting
  | .contextSensitivity prediction =>
    .contextSensitivity r.decision.number r.start r.stop prediction r.configurations.fullContext

/-- What is kept of an event. -/
def ofEvent : Event → Recorded
  | .syntaxError e => ofSyntaxError e
  | .report r => ofReport r

/-- The kind of the event that was recorded. -/
def kind : Recorded → Event.Kind
  | .syntaxError .. => .syntaxError
  | .ambiguity .. => .ambiguity
  | .fullContext .. => .fullContext
  | .contextSensitivity .. => .contextSensitivity

/-- The recorded event is a syntax error. -/
def isSyntaxError (r : Recorded) : Bool := r.kind = .syntaxError

end Recorded

end ParseListeners
