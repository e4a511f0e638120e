import ParseListeners.Dispatch

/-!
# Recognizers

A `Recognizer` sends events to listeners, and is sent messages back while it does so.  With a
message it can go on in silence, refuse, or forward it to some listener as a syntax error.  That
listener may be the very tree that is being visited: a syntax error is never handed back, so the
exchange ends there.
-/

namespace ParseListeners

/-- What a recognizer does with messages; `α` says how it names the listener it forwards to. -/
inductive Reply (α : Type) where
  /-- It goes on in silence. -/
  | accept
  /-- It refuses them. -/
  | refuse (cause : Refusal)
  /-- It forwards them, as syntax errors at a place. -/
  | forward (target : α) (line column : UInt32) (token : Option Token)

/-- The same reply under another naming of listeners, if the target has a name there. -/
def Reply.resolve {α β ε : Type} (find : α → Except ε β) : Reply α → Except ε (Reply β)
  | .accept => .ok .accept
  | .refuse cause => .ok (.refuse cause)
  | .forward target line column token =>
    (find target).map fun found => .forward found line column token

/-- A recognizer: what listeners can read of it, and what it does with their messages. -/
structure Recognizer extends Origin where
  /-- What it does with messages. -/
  reply : Reply Listener

namespace Recognizer

/-- What happens after a message has been handed over; a failure of the listener it is forwarded
to is wrapped. -/
def answer (r : Recognizer) (message : String) : Action :=
  match r.reply with
  | .accept => .done
  | .refuse cause => .fail (.refused cause)
  | .forward target line column token =>
    (target.hearSyntaxError r.toOrigin
      { token := token, line := line, column := column, message := message }).mapFailure .relayed

/-- The recognizer is handed a message to pass on. -/
def notify (r : Recognizer) (message : String) : Action :=
  (Action.note (.notified r.index message)).andThen (r.answer message)

/-- The recognizer sends an event to a listener. -/
def deliver (r : Recognizer) (event : Event) (listener : Listener) : Action :=
  match event with
  | .syntaxError e => listener.hearSyntaxError r.toOrigin e
  | .report report => listener.hearReport r.toOrigin r.notify report

end Recognizer

end ParseListeners
