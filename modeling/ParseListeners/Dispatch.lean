import ParseListeners.Action

/-!
# Dispatch

How an event goes through a tree of listeners.  `Listener.traverse` visits the leaves in order,
under the policies of the fan-outs above them, and says what happens at each fan-out before its
delegates have their turn.

A leaf takes an event by itself (`Leaf.take`), with one exception: a diagnostic listener hands a
report back to the recognizer, as a message.  A syntax error is never handed back, so
`Listener.hearSyntaxError` knows no recognizer, while `Listener.hearReport` is given what the
recognizer does with a message.
-/

namespace ParseListeners

/-! ### Leaves -/

namespace Leaf

/-- A console writes a line and flushes its sink, unless the line did not get through. -/
def writeLine (id : Nat) (sink : Sink) (line : String) : Action :=
  .recalling id fun memory =>
    let bytes := utf8 line
    let used := memory.written.length
    let taken := sink.accepts used bytes
    (Action.remember id fun m => { m with written := m.written ++ taken }).andThen <|
    (Action.note (.wrote id taken)).andThen <|
      match sink.writeError? used bytes with
      | some e => .fail (.io e)
      | none => (Action.note (.flushed id)).andThen (.failOn sink.flushError)

/-- A listener of the host program answers a delivery. -/
def respond (id : Nat) (h : Host) (delivery : Delivery) : Action :=
  .recalling id fun memory =>
    (Action.remember id fun m => { m with heard := m.heard ++ [delivery] }).andThen <|
      match h.respond memory.heard delivery with
      | .ok () => .done
      | .error f => .fail f

/-- What a leaf does with an event by itself. -/
def take (origin : Origin) (event : Event) : Leaf → Action
  | .null => .done
  | .tracing => .note (.traced (event.trace origin.grammar))
  | .standardError =>
    match event with
    | .syntaxError e => .note (.printed e.consoleLine)
    | .report _ => .done
  | .diagnostic _ => .done
  | .collector id =>
    .remember id fun m => { m with recorded := m.recorded ++ [Recorded.ofEvent event] }
  | .console id sink =>
    match event with
    | .syntaxError e => writeLine id sink e.consoleLine
    | .report _ => .done
  | .host id h => if h.handles event.kind then respond id h ⟨origin, event⟩ else .done

/-- A leaf is given a syntax error. -/
def hearSyntaxError (origin : Origin) (e : SyntaxError) (leaf : Leaf) : Action :=
  (Action.note (.called leaf origin (.syntaxError e))).andThen
    (leaf.take origin (.syntaxError e))

/-- A leaf is given a report; `notify` is what the recognizer does with a message. -/
def hearReport (origin : Origin) (notify : String → Action) (r : Report) (leaf : Leaf) :
    Action :=
  (Action.note (.called leaf origin (.report r))).andThen <|
    match leaf with
    | .diagnostic d => if d.skips r then .done else notify (r.message origin)
    | other => other.take origin (.report r)

end Leaf

/-! ### Trees -/

namespace Listener

mutual

/-- Visits the leaves of a tree in order: `announce` happens at each fan-out, for its number of
delegates, and `visit` at each leaf. -/
def traverse (announce : Nat → Action) (visit : Leaf → Action) : Listener → Action
  | .leaf l => visit l
  | .fanOut policy delegates =>
    (announce delegates.length).andThen
      (policy.combine (traverseEach announce visit delegates))

/-- The visits to the delegates of a fan-out, one action for each. -/
def traverseEach (announce : Nat → Action) (visit : Leaf → Action) : List Listener → List Action
  | [] => []
  | d :: ds => traverse announce visit d :: traverseEach announce visit ds

end

theorem traverseEach_eq_map (announce : Nat → Action) (visit : Leaf → Action)
    (ds : List Listener) : traverseEach announce visit ds = ds.map (traverse announce visit) := by
  induction ds with
  | nil => simp [traverseEach]
  | cons d ds ih => simp [traverseEach, ih]

/-- A fan-out makes a trace record of what it passes on. -/
def announce (event : Event) (delegates : Nat) : Action :=
  .note (.traced (event.forwardingTrace delegates))

/-- A listener is given a syntax error. -/
def hearSyntaxError (origin : Origin) (e : SyntaxError) : Listener → Action :=
  traverse (announce (.syntaxError e)) (Leaf.hearSyntaxError origin e)

/-- A listener is given a report; `notify` is what the recognizer does with a message. -/
def hearReport (origin : Origin) (notify : String → Action) (r : Report) : Listener → Action :=
  traverse (announce (.report r)) (Leaf.hearReport origin notify r)

end Listener

end ParseListeners
