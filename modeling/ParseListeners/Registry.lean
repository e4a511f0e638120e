import ParseListeners.Listener

/-!
# The registry of listeners

Listeners are declared in order and named by their positions.  A fan-out is declared over earlier
listeners; those that could not be built are left out of its list.
-/

namespace ParseListeners

/-- How a fan-out is put together; listeners are named by their positions. -/
inductive Assembly where
  /-- Over a list, with the default policy. -/
  | plain (delegates : List Nat)
  /-- Over a list that may be missing, with the default policy. -/
  | optional (delegates : Option (List Nat))
  /-- Over a list, with a policy. -/
  | withPolicy (policy : Policy) (delegates : List Nat)

/-- The declaration of a listener. -/
inductive Declaration where
  /-- It takes every event and does nothing. -/
  | null
  /-- It makes a trace record of every event. -/
  | tracing
  /-- It prints syntax errors to the standard error of the process. -/
  | standardError
  /-- It turns reports into messages. -/
  | diagnostic (diagnostic : Diagnostic)
  /-- It keeps a record of every event. -/
  | collector
  /-- It writes syntax errors to a sink. -/
  | console (sink : Sink)
  /-- It belongs to the host program. -/
  | host (host : Host)
  /-- It passes events on to other listeners. -/
  | fanOut (assembly : Assembly)

/-- The listeners declared so far, each with the reason if it could not be built. -/
structure Registry where
  /-- The outcomes, by position. -/
  toList : List (Except AssemblyError Listener) := []

namespace Registry

/-- The listener at a position, if one was built there. -/
def get? (r : Registry) (position : Nat) : Option Listener :=
  match r.toList[position]? with
  | some (.ok listener) => some listener
  | some (.error _) => none
  | none => none

/-- The listeners at some positions, without those that could not be built. -/
def select (r : Registry) (positions : List Nat) : List Listener := positions.filterMap r.get?

/-- Puts a fan-out together. -/
def assemble (r : Registry) : Assembly → Except AssemblyError Listener
  | .plain delegates => Listener.ofList (r.select delegates)
  | .optional delegates => Listener.ofOption (delegates.map r.select)
  | .withPolicy policy delegates => Listener.withPolicy policy (r.select delegates)

/-- Builds a declared listener; what it remembers is kept under its position. -/
def build (r : Registry) : Declaration → Except AssemblyError Listener
  | .null => .ok (.leaf .null)
  | .tracing => .ok (.leaf .tracing)
  | .standardError => .ok (.leaf .standardError)
  | .diagnostic d => .ok (.leaf (.diagnostic d))
  | .collector => .ok (.leaf (.collector r.toList.length))
  | .console sink => .ok (.leaf (.console r.toList.length sink))
  | .host h => .ok (.leaf (.host r.toList.length h))
  | .fanOut assembly => r.assemble assembly

/-- The registry with one more declared listener. -/
def declare (r : Registry) (d : Declaration) : Registry := ⟨r.toList ++ [r.build d]⟩

/-- The registry of a list of declarations. -/
def ofDeclarations (ds : List Declaration) : Registry := ds.foldl declare {}

@[simp] theorem length_declare (r : Registry) (d : Declaration) :
    (r.declare d).toList.length = r.toList.length + 1 := by
  simp [declare]

/-- There is one outcome for every declaration. -/
theorem length_foldl_declare (ds : List Declaration) (r : Registry) :
    (ds.foldl declare r).toList.length = r.toList.length + ds.length := by
  induction ds generalizing r with
  | nil => simp
  | cons d ds ih => simp [ih, Nat.add_assoc, Nat.add_comm 1]

end Registry

end ParseListeners
