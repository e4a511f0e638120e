import ParseListeners.Console
import ParseListeners.Diagnostic
import ParseListeners.Host

/-!
# Listeners

A `Listener` is a tree.  Its leaves take events themselves; its inner nodes fan an event out to
their delegates in order and have a `Policy` for failures.  Leaves with a memory carry the number
it is kept under, so a leaf that occurs several times, in one tree or in many, is one listener.
-/

namespace ParseListeners

/-- A listener that takes events itself. -/
inductive Leaf where
  /-- Takes every event and does nothing. -/
  | null
  /-- Makes a trace record of every event. -/
  | tracing
  /-- Prints syntax errors to the standard error of the process. -/
  | standardError
  /-- Turns reports into messages, which the recognizer passes on. -/
  | diagnostic (diagnostic : Diagnostic)
  /-- Keeps a record of every event. -/
  | collector (id : Nat)
  /-- Writes syntax errors to a sink. -/
  | console (id : Nat) (sink : Sink)
  /-- Belongs to the host program. -/
  | host (id : Nat) (host : Host)

namespace Leaf

/-- The number under which a leaf's memory is kept, for leaves that have one. -/
def id? : Leaf → Option Nat
  | .collector id => some id
  | .console id _ => some id
  | .host id _ => some id
  | .null => none
  | .tracing => none
  | .standardError => none
  | .diagnostic _ => none

/-- Two leaves are the same listener: they share a memory, or have none and behave alike. -/
def same : Leaf → Leaf → Bool
  | .null, .null => true
  | .tracing, .tracing => true
  | .standardError, .standardError => true
  | .diagnostic d, .diagnostic e => d = e
  | .collector i, .collector j => i = j
  | .console i _, .console j _ => i = j
  | .host i _, .host j _ => i = j
  | _, _ => false

end Leaf

/-- What a fan-out does when a delegate fails. -/
inductive Policy where
  /-- It stops and fails in the same way. -/
  | failFast
  /-- It goes on with the other delegates and gathers the failures. -/
  | collectAll
  deriving DecidableEq

instance : Inhabited Policy := ⟨.failFast⟩

/-- A tree of listeners. -/
inductive Listener where
  /-- A listener that takes events itself. -/
  | leaf (leaf : Leaf)
  /-- A listener that passes events on to its delegates, in order. -/
  | fanOut (policy : Policy) (delegates : List Listener)

namespace Listener

/-- To show something of every tree it is enough to show it of the leaves, and of each fan-out from
its delegates. -/
@[elab_as_elim, induction_eliminator]
theorem induction {motive : Listener → Prop} (leaf : ∀ l, motive (.leaf l))
    (fanOut : ∀ policy delegates, (∀ d ∈ delegates, motive d) → motive (.fanOut policy delegates)) :
    ∀ l, motive l
  | .leaf l => leaf l
  | .fanOut policy delegates => fanOut policy delegates fun d _ => induction leaf fanOut d

/-- A fan-out with a policy; it needs a delegate. -/
def withPolicy (policy : Policy) (delegates : List Listener) : Except AssemblyError Listener :=
  if delegates.isEmpty then .error .emptyDelegates else .ok (.fanOut policy delegates)

/-- A fan-out with the default policy. -/
def ofList (delegates : List Listener) : Except AssemblyError Listener :=
  withPolicy default delegates

/-- A fan-out with the default policy over a list that may be missing. -/
def ofOption : Option (List Listener) → Except AssemblyError Listener
  | none => .error .missingDelegates
  | some delegates => ofList delegates

theorem withPolicy_eq_ok_iff {policy : Policy} {delegates : List Listener} {l : Listener} :
    withPolicy policy delegates = .ok l ↔ delegates ≠ [] ∧ l = .fanOut policy delegates := by
  cases delegates with
  | nil => simp [withPolicy]
  | cons d ds => simp [withPolicy, eq_comm]

end Listener

end ParseListeners
