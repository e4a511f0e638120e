import ParseListeners.Listener
import ParseListeners.Trace

/-!
# The journal of an operation

Every operation leaves a journal of what happened, in order: calls of leaves, writes,
notifications, trace records, failures.  The host program sees a part of it
(`Entry.isObserved`): the calls of its own listeners, bytes written to its sinks, notifications,
and trace records if it asks for them.
-/

namespace ParseListeners

/-- Something that happens during an operation. -/
inductive Entry where
  /-- A leaf is given an event. -/
  | called (leaf : Leaf) (origin : Origin) (event : Event)
  /-- A trace record is made. -/
  | traced (record : Trace.Record)
  /-- The sink of a console takes bytes, or none at all. -/
  | wrote (console : Nat) (bytes : List UInt8)
  /-- The sink of a console is flushed. -/
  | flushed (console : Nat)
  /-- A line is printed to the standard error of the process. -/
  | printed (line : String)
  /-- A recognizer is given a message to pass on. -/
  | notified (recognizer : Nat) (message : String)
  /-- A failure arises. -/
  | failed (failure : Failure)

/-- The host program sees the entry, trace records only if `tracing`. -/
def Entry.isObserved (tracing : Bool) : Entry → Bool
  | .called (.host _ h) _ event => h.handles event.kind
  | .called _ _ _ => false
  | .traced _ => tracing
  | .wrote _ bytes => !bytes.isEmpty
  | .flushed _ => true
  | .printed _ => false
  | .notified .. => true
  | .failed _ => false

/-- The part of a journal that the host program sees. -/
def observed (tracing : Bool) (journal : List Entry) : List Entry :=
  journal.filter (Entry.isObserved tracing)

@[simp] theorem observed_append (tracing : Bool) (j k : List Entry) :
    observed tracing (j ++ k) = observed tracing j ++ observed tracing k :=
  List.filter_append ..

end ParseListeners
