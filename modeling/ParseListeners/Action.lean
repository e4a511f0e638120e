import ParseListeners.Journal
import ParseListeners.Store

/-!
# Actions

An `Action` is what an operation does: from the memories of all listeners it makes new ones, a
journal, and success or a failure.  `Policy.combine` runs actions in order: fail-fast stops at
the first that fails, collect-all runs every one and gathers the failures.
-/

namespace ParseListeners

/-- The course of an operation. -/
structure Run (α : Type) where
  /-- What comes out. -/
  result : α
  /-- What happened, in order. -/
  journal : List Entry
  /-- The memories afterwards. -/
  store : Store

/-- Something that may happen to listeners, and may fail. -/
def Action : Type := Store → Run (Except Failure Unit)

namespace Action

/-! ### Single actions -/

/-- Nothing happens. -/
def done : Action := fun s => ⟨.ok (), [], s⟩

/-- One journal entry is made. -/
def note (e : Entry) : Action := fun s => ⟨.ok (), [e], s⟩

/-- A failure arises. -/
def fail (f : Failure) : Action := fun s => ⟨.error f, [.failed f], s⟩

/-- A failure arises if there is an error of input or output. -/
def failOn : Option IoError → Action
  | some e => fail (.io e)
  | none => done

/-- The listener `id` remembers something else. -/
def remember (id : Nat) (update : Memory → Memory) : Action := fun s =>
  ⟨.ok (), [], s.set id (update (s.get id))⟩

/-- What happens depends on what the listener `id` remembers. -/
def recalling (id : Nat) (act : Memory → Action) : Action := fun s => act (s.get id) s

/-- The same, with another failure. -/
def mapFailure (wrap : Failure → Failure) (a : Action) : Action := fun s =>
  let run := a s
  { run with result := run.result.mapError wrap }

/-! ### Several actions -/

/-- One action and, unless it fails, the next. -/
def andThen (a b : Action) : Action := fun s =>
  let first := a s
  match first.result with
  | .ok () =>
    let second := b first.store
    { second with journal := first.journal ++ second.journal }
  | .error _ => first

/-- The actions in order, up to the first that fails. -/
def inOrder : List Action → Action
  | [] => done
  | a :: as => a.andThen (inOrder as)

/-- All actions in order, with the failures of those that fail. -/
def everyOne : List Action → Store → Run (List Failure)
  | [], s => ⟨[], [], s⟩
  | a :: as, s =>
    let first := a s
    let rest := everyOne as first.store
    let failures := match first.result with
      | .ok () => rest.result
      | .error f => f :: rest.result
    ⟨failures, first.journal ++ rest.journal, rest.store⟩

/-- All actions in order; their failures are gathered. -/
def gathering (as : List Action) : Action := fun s =>
  let run := everyOne as s
  { run with result := Failure.gather run.result }

@[simp] theorem done_andThen (a : Action) : done.andThen a = a := rfl

end Action

/-- The actions of the delegates of a fan-out as one action. -/
def Policy.combine : Policy → List Action → Action
  | .failFast => Action.inOrder
  | .collectAll => Action.gathering

end ParseListeners
