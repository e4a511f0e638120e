import ParseListeners.Fault

/-!
# Failures of listeners

A listener that cannot do its work answers with a `Failure`.  Failures nest: a fan-out over
several listeners gathers theirs, and a notification that went wrong carries what went wrong.
`Failure.message` is the text of a failure; `Failure.chain` lists the causes behind it, each with
a text that ends the one before.
-/

namespace ParseListeners

/-! ### Errors of the surroundings -/

/-- The kinds of input and output errors. -/
inductive IoError.Kind where
  /-- The reader at the other end is gone. -/
  | brokenPipe
  /-- There is no such thing. -/
  | notFound
  /-- It is not allowed. -/
  | permissionDenied
  /-- It took too long. -/
  | timedOut
  /-- The sink takes no more bytes. -/
  | writeZero
  /-- Anything else. -/
  | other
  deriving DecidableEq

/-- An error of input or output. -/
structure IoError where
  /-- The kind of error. -/
  kind : IoError.Kind
  /-- The text of the error. -/
  message : String
  deriving DecidableEq

/-- The error of a sink that takes no more bytes and gives no reason. -/
def IoError.writeZero : IoError := ⟨.writeZero, "failed to write whole buffer"⟩

/-- The reasons why a fan-out over listeners cannot be built. -/
inductive AssemblyError where
  /-- No list of listeners was given. -/
  | missingDelegates
  /-- The list of listeners is empty. -/
  | emptyDelegates
  deriving DecidableEq

/-- The text of an assembly error. -/
def AssemblyError.message : AssemblyError → String
  | .missingDelegates => "delegates is not provided"
  | .emptyDelegates => "delegates must contain at least one listener"

/-- A recognizer's own reasons for not passing a notification on. -/
inductive Refusal where
  /-- The input is at fault. -/
  | fault (fault : Fault)
  /-- The listeners to pass it to could not be put together. -/
  | assembly (error : AssemblyError)
  /-- A reason in words. -/
  | reason (text : String)
  deriving DecidableEq

/-- The text of a refusal. -/
def Refusal.message : Refusal → String
  | .fault f => f.render
  | .assembly e => e.message
  | .reason text => text

/-! ### Failures -/

/-- The ways in which a listener fails. -/
inductive Failure where
  /-- A line could not be written. -/
  | io (error : IoError)
  /-- The named listener does not accept the event. -/
  | rejected (listener reason : String)
  /-- A notification was passed on to a listener, which failed. -/
  | relayed (inner : Failure)
  /-- A notification was not passed on. -/
  | refused (cause : Refusal)
  /-- Several listeners failed, in this order. -/
  | aggregate (failures : List Failure)

namespace Failure

/-- The text before the cause of a notification that went wrong. -/
def notificationHeading : String := "recognizer failed to notify listeners: "

/-- The text of a failure. -/
def message : Failure → String
  | .io e => "failed to write diagnostic: " ++ e.message
  | .rejected listener reason => listener ++ " rejected event: " ++ reason
  | .relayed inner => notificationHeading ++ inner.message
  | .refused cause => notificationHeading ++ cause.message
  | .aggregate failures => toString failures.length ++ " listeners failed"

/-- Something that can stand behind a failure. -/
inductive Cause where
  /-- A failure of another listener. -/
  | failure (failure : Failure)
  /-- An error of input or output. -/
  | io (error : IoError)
  /-- A recognizer's own reason. -/
  | refusal (refusal : Refusal)

/-- The text of a cause. -/
def Cause.message : Cause → String
  | .failure f => f.message
  | .io e => e.message
  | .refusal r => r.message

/-- What stands directly behind a failure. -/
def source? : Failure → Option Cause
  | .io e => some (.io e)
  | .rejected .. => none
  | .relayed inner => some (.failure inner)
  | .refused cause => some (.refusal cause)
  | .aggregate _ => none

/-- What stands directly behind a cause; only failures have something behind them. -/
def Cause.source? : Cause → Option Cause
  | .failure f => f.source?
  | .io _ => none
  | .refusal _ => none

/-- Everything behind a failure, each entry being the source of the one before. -/
def chain : Failure → List Cause
  | .io e => [.io e]
  | .rejected .. => []
  | .relayed inner => .failure inner :: inner.chain
  | .refused cause => [.refusal cause]
  | .aggregate _ => []

/-- Several failures as one: none is none, one stands for itself, more are gathered in order. -/
def gather : List Failure → Except Failure Unit
  | [] => .ok ()
  | [f] => .error f
  | f :: g :: rest => .error (.aggregate (f :: g :: rest))

theorem gather_eq_ok_iff {failures : List Failure} : gather failures = .ok () ↔ failures = [] := by
  match failures with
  | [] => simp [gather]
  | [f] => simp [gather]
  | f :: g :: rest => simp [gather]

theorem gather_eq_error_iff {failures : List Failure} {f : Failure} :
    gather failures = .error f ↔
      failures = [f] ∨ (f = .aggregate failures ∧ 2 ≤ failures.length) := by
  match failures with
  | [] => simp [gather]
  | [g] => simp [gather]
  | g :: g' :: rest => simp [gather, eq_comm]

end Failure

end ParseListeners
