import ParseListeners.Description
import ParseListeners.Recognizer
import ParseListeners.Registry

/-!
# Sessions

A `Session` holds the declared listeners and the recognizers.  Its steps send events, and look
into single listeners; `Session.run` takes them in order, each with the memories that the one
before left.
-/

namespace ParseListeners

/-- A step of a session; listeners and recognizers are named by their positions. -/
inductive Step where
  /-- A recognizer sends an event to a listener. -/
  | deliver (listener recognizer : Nat) (event : Event)
  /-- A collecting listener is asked for its recorded events. -/
  | events (collector : Nat)
  /-- A collecting listener hands out its recorded events and holds none afterwards. -/
  | take (collector : Nat)
  /-- A collecting listener is asked how many events it holds. -/
  | counts (collector : Nat)
  /-- Two collecting listeners are compared by the events they hold. -/
  | sameEvents (collector other : Nat)
  /-- A diagnostic listener is asked whether it leaves out ambiguities that are not exact. -/
  | exactOnly (diagnostic : Nat)
  /-- A listener is described. -/
  | describe (listener : Nat) (layout : Layout)
  /-- The process is asked to show trace records.  A host program that receives them already goes
  on receiving them, so nothing changes. -/
  | startTracing

/-- The answer to a step. -/
inductive Answer where
  /-- An event was sent, and this came of it. -/
  | delivered (outcome : Except Failure Unit)
  /-- Recorded events, oldest first. -/
  | events (events : List Recorded)
  /-- How many events are recorded, whether there are none, and how many are syntax errors. -/
  | counts (events : Nat) (isEmpty : Bool) (syntaxErrors : Nat)
  /-- Yes or no. -/
  | flag (b : Bool)
  /-- A text. -/
  | text (s : String)
  /-- There is nothing to say. -/
  | nothing

/-- The reasons why a step has no answer. -/
inductive LookupError where
  /-- No listener was built at the position. -/
  | noListener (position : Nat)
  /-- There is no recognizer at the position. -/
  | noRecognizer (position : Nat)
  /-- The listener at the position does not collect events. -/
  | noCollector (position : Nat)
  /-- The listener at the position is not a diagnostic one. -/
  | noDiagnostic (position : Nat)
  /-- The listener at the position has no make to show. -/
  | noDescription (position : Nat)
  deriving DecidableEq

/-- The text of a lookup error. -/
def LookupError.message : LookupError → String
  | .noListener position => "no listener at " ++ toString position
  | .noRecognizer position => "no recognizer at " ++ toString position
  | .noCollector position => "no collecting listener at " ++ toString position
  | .noDiagnostic position => "no diagnostic listener at " ++ toString position
  | .noDescription position => "no description of the listener at " ++ toString position

/-- The listener at a position. -/
def Registry.lookup (r : Registry) (position : Nat) : Except LookupError Listener :=
  match r.get? position with
  | some l => .ok l
  | none => .error (.noListener position)

/-- The listeners and recognizers that work together. -/
structure Session where
  /-- The declared listeners. -/
  registry : Registry
  /-- The recognizers. -/
  recognizers : List Recognizer

namespace Session

/-! ### Looking things up -/

/-- The recognizer at a position. -/
def recognizer (s : Session) (position : Nat) : Except LookupError Recognizer :=
  match s.recognizers[position]? with
  | some r => .ok r
  | none => .error (.noRecognizer position)

/-- The number under which the collecting listener at a position keeps its events. -/
def collector (s : Session) (position : Nat) : Except LookupError Nat :=
  match s.registry.get? position with
  | some (.leaf (.collector id)) => .ok id
  | _ => .error (.noCollector position)

/-- The diagnostic listener at a position. -/
def diagnostic (s : Session) (position : Nat) : Except LookupError Diagnostic :=
  match s.registry.get? position with
  | some (.leaf (.diagnostic d)) => .ok d
  | _ => .error (.noDiagnostic position)

/-- The description of the listener at a position. -/
def description (s : Session) (position : Nat) : Except LookupError Description :=
  match (s.registry.get? position).bind Listener.describe? with
  | some d => .ok d
  | none => .error (.noDescription position)

/-- The session of some declared listeners and of recognizers that name listeners by position. -/
def build (declarations : List Declaration) (recognizers : List (Origin × Reply Nat)) :
    Except LookupError Session := do
  let registry := Registry.ofDeclarations declarations
  let resolved ← recognizers.mapM fun (origin, reply) =>
    (reply.resolve registry.lookup).map fun found =>
      ({ toOrigin := origin, reply := found } : Recognizer)
  return ⟨registry, resolved⟩

/-! ### Steps -/

/-- An answer that changes nothing and leaves no trace. -/
def reading (store : Store) (answer : Answer) : Run Answer := ⟨answer, [], store⟩

/-- The course of a step. -/
def perform (s : Session) (store : Store) : Step → Except LookupError (Run Answer)
  | .deliver position sender event => do
    let target ← s.registry.lookup position
    let r ← s.recognizer sender
    let run := r.deliver event target store
    return { run with result := .delivered run.result }
  | .events position => do
    let id ← s.collector position
    return reading store (.events (store.get id).recorded)
  | .take position => do
    let id ← s.collector position
    let memory := store.get id
    return reading (store.set id { memory with recorded := [] }) (.events memory.recorded)
  | .counts position => do
    let id ← s.collector position
    let recorded := (store.get id).recorded
    return reading store
      (.counts recorded.length recorded.isEmpty (recorded.countP Recorded.isSyntaxError))
  | .sameEvents position other => do
    let id ← s.collector position
    let otherId ← s.collector other
    return reading store (.flag ((store.get id).recorded = (store.get otherId).recorded))
  | .exactOnly position => do
    let d ← s.diagnostic position
    return reading store (.flag d.exactOnly)
  | .describe position layout => do
    let d ← s.description position
    return reading store (.text (d.render layout))
  | .startTracing => return reading store .nothing

theorem perform_deliver {s : Session} {position sender : Nat} {l : Listener} {r : Recognizer}
    (hl : s.registry.lookup position = .ok l) (hr : s.recognizer sender = .ok r)
    (store : Store) (event : Event) :
    s.perform store (.deliver position sender event) =
      .ok { r.deliver event l store with
        result := .delivered (r.deliver event l store).result } := by
  simp only [perform, hl, hr]
  rfl

/-- The courses of steps taken in order; a step without an answer changes nothing. -/
def run (s : Session) : List Step → Store → List (Except LookupError (Run Answer))
  | [], _ => []
  | step :: steps, store =>
    let course := s.perform store step
    let after := match course with
      | .ok done => done.store
      | .error _ => store
    course :: s.run steps after

end Session

end ParseListeners
