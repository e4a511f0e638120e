import ParseListeners.Failure
import ParseListeners.Origin

/-!
# Listeners of the host program

A host program brings listeners of its own.  A `Host` answers each delivery from the deliveries it
has had before, which is all the state it needs; kinds of events that it does not handle pass it
by.  It sees the origin of an event and the event, and reaches neither the recognizer nor other
listeners.
-/

namespace ParseListeners

/-- An event with the recognizer it comes from. -/
structure Delivery where
  /-- Where the event comes from. -/
  origin : Origin
  /-- The event. -/
  event : Event

/-- A listener of the host program. -/
structure Host where
  /-- The name of the listener. -/
  name : String
  /-- The kinds of events that it handles; others pass it by. -/
  handles : Event.Kind → Bool
  /-- Its answer to a delivery, after the earlier ones, oldest first. -/
  respond : List Delivery → Delivery → Except Failure Unit

namespace Host

/-- A listener that handles all events and fails on the kinds `failOn`: the first `failAfter` of
those succeed, all later ones fail, with `failWith` or else by rejecting the event. -/
def failing (name : String) (failOn : List Event.Kind) (failWith : Option Failure)
    (failAfter : Nat) : Host where
  name := name
  handles _ := true
  respond earlier delivery :=
    let kind := delivery.event.kind
    if kind ∈ failOn ∧ failAfter ≤ earlier.countP (·.event.kind ∈ failOn) then
      .error (failWith.getD (.rejected name kind.name))
    else .ok ()

/-- A listener that handles context sensitivities alone and never fails. -/
def sensitivityOnly (name : String) : Host where
  name := name
  handles kind := kind = .contextSensitivity
  respond _ _ := .ok ()

end Host

end ParseListeners
