import ParseListeners.Host
import ParseListeners.Recorded

/-!
# The memories of listeners

A `Store` holds what each listener remembers from one operation to the next, by the number of the
listener.  Setting one memory leaves the others alone (`Store.get_set`).
-/

namespace ParseListeners

/-- What a listener remembers. -/
structure Memory where
  /-- The events that a collecting listener holds, oldest first. -/
  recorded : List Recorded := []
  /-- The bytes that the sink of a console has taken, oldest first. -/
  written : List UInt8 := []
  /-- The deliveries that a listener of the host program has handled, oldest first. -/
  heard : List Delivery := []

/-- The memories of all listeners. -/
structure Store where
  /-- The memory of the listener with a number. -/
  get : Nat → Memory

namespace Store

/-- Nothing has been remembered yet. -/
def empty : Store := ⟨fun _ => {}⟩

/-- The store with another memory for one listener. -/
def set (s : Store) (id : Nat) (m : Memory) : Store :=
  ⟨fun other => if other = id then m else s.get other⟩

@[ext] theorem ext {s t : Store} (h : ∀ id, s.get id = t.get id) : s = t := by
  obtain ⟨f⟩ := s
  obtain ⟨g⟩ := t
  exact congrArg Store.mk (funext h)

theorem get_set (s : Store) (id other : Nat) (m : Memory) :
    (s.set id m).get other = if other = id then m else s.get other := rfl

@[simp] theorem get_set_self (s : Store) (id : Nat) (m : Memory) : (s.set id m).get id = m := by
  simp [get_set]

end Store

end ParseListeners
