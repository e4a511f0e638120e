import ParseListeners.Event

/-!
# Trace records

A trace record is a message with a level and named values.  An event has two: one for a listener
that traces it (`Event.trace`), one for a fan-out that passes it on (`Event.forwardingTrace`).
-/

namespace ParseListeners

namespace Trace

/-- How much a record matters. -/
inductive Level where
  /-- Worth a warning. -/
  | warn
  /-- Of use when something is looked into. -/
  | debug
  /-- Every step. -/
  | trace
  deriving DecidableEq

/-- The value of a field. -/
inductive Value where
  /-- A number. -/
  | number (n : Nat)
  /-- A truth value. -/
  | flag (b : Bool)
  /-- A text. -/
  | text (s : String)
  deriving DecidableEq

/-- A trace record. -/
structure Record where
  /-- How much it matters. -/
  level : Level
  /-- The message. -/
  message : String
  /-- The named values, in order. -/
  fields : List (String × Value)
  deriving DecidableEq

end Trace

open Trace

/-- The record of a syntax error; the cause has a field only if there is one. -/
def SyntaxError.trace (grammar : String) (e : SyntaxError) : Record where
  level := .warn
  message := e.message
  fields :=
    [("grammar", .text grammar), ("line", .number e.line.toNat),
      ("column", .number e.column.toNat)] ++
    match e.cause with
    | some cause => [("cause", .text cause.render)]
    | none => []

/-- The record of a report. -/
def Report.trace (grammar : String) (r : Report) : Record :=
  let place : List (String × Value) :=
    [("grammar", .text grammar), ("decision", .number r.decision.number.toNat),
      ("start", .number r.start.toNat), ("stop", .number r.stop.toNat)]
  match r.finding with
  | .ambiguity exact alternatives =>
    ⟨.debug, "ambiguity",
      place ++ [("exact", .flag exact), ("alts", .text alternatives.render)]⟩
  | .fullContext conflicting =>
    ⟨.trace, "attempting full context", place ++ [("alts", .text conflicting.render)]⟩
  | .contextSensitivity prediction =>
    ⟨.trace, "context sensitivity",
      place ++ [("prediction", .number prediction.toNat),
        ("full_context", .flag r.configurations.fullContext)]⟩

/-- The record of an event. -/
def Event.trace (grammar : String) : Event → Record
  | .syntaxError e => e.trace grammar
  | .report r => r.trace grammar

/-- The record of an event that is passed on to a number of delegates. -/
def Event.forwardingTrace (delegates : Nat) (e : Event) : Record :=
  let (message, fields) : String × List (String × Value) :=
    match e with
    | .syntaxError e =>
      ("forwarding syntax error",
        [("line", .number e.line.toNat), ("column", .number e.column.toNat)])
    | .report r =>
      let decision := ("decision", Value.number r.decision.number.toNat)
      match r.finding with
      | .ambiguity exact _ => ("forwarding ambiguity", [decision, ("exact", .flag exact)])
      | .fullContext _ => ("forwarding full-context attempt", [decision])
      | .contextSensitivity prediction =>
        ("forwarding context sensitivity", [decision, ("prediction", .number prediction.toNat)])
  ⟨.trace, message, ("delegates", .number delegates) :: fields⟩

end ParseListeners
