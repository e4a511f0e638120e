import ParseListeners.Recognizer

/-!
# Single calls

What happens when one listener is called, and when one recognizer is handed a message.

A leaf that hands back a message (`Leaf.message?`) does nothing else; any other leaf deals with the
event by itself, and then it either succeeds, or raises a failure as the last thing it does
(`Leaf.take_cases`).  Failures are raised by listeners of the host program, by consoles and by
recognizers that refuse a message: `Breakdown` lists the entries that such a call leaves.
-/

namespace ParseListeners

/-- The entry is neither a call, nor a notification, nor a failure. -/
def Entry.isWork : Entry → Bool
  | .called .. => false
  | .traced _ => true
  | .wrote .. => true
  | .flushed _ => true
  | .printed _ => true
  | .notified .. => false
  | .failed _ => false

/-- The entries of a call that raises a failure, from the call to the failure. -/
inductive Breakdown : List Entry → Failure → Prop
  /-- A listener of the host program answers with a failure. -/
  | host {id : Nat} {h : Host} {origin : Origin} {event : Event} {f : Failure}
      (earlier : List Delivery) (hf : h.respond earlier ⟨origin, event⟩ = .error f) :
      Breakdown [.called (.host id h) origin event, .failed f] f
  /-- The sink of a console does not take the whole line. -/
  | write {id : Nat} {sink : Sink} {origin : Origin} {e : SyntaxError} {err : IoError}
      (used : Nat) (herr : sink.writeError? used (utf8 e.consoleLine) = some err) :
      Breakdown [.called (.console id sink) origin (.syntaxError e),
        .wrote id (sink.accepts used (utf8 e.consoleLine)), .failed (.io err)] (.io err)
  /-- The sink of a console takes the line and cannot be flushed. -/
  | flush {id : Nat} {sink : Sink} {origin : Origin} {e : SyntaxError} {err : IoError}
      (used : Nat) (hwrite : sink.writeError? used (utf8 e.consoleLine) = none)
      (herr : sink.flushError = some err) :
      Breakdown [.called (.console id sink) origin (.syntaxError e),
        .wrote id (sink.accepts used (utf8 e.consoleLine)), .flushed id, .failed (.io err)]
        (.io err)
  /-- A recognizer refuses a message. -/
  | refusal {recognizer : Nat} {message : String} {cause : Refusal} :
      Breakdown [.notified recognizer message, .failed (.refused cause)] (.refused cause)

/-! ### Leaves -/

namespace Leaf

/-- The message that a leaf hands back to the recognizer on an event, if it does. -/
def message? (origin : Origin) : Event → Leaf → Option String
  | .report report, .diagnostic d =>
    if d.skips report then none else some (report.message origin)
  | _, _ => none

@[simp] theorem message?_syntaxError (origin : Origin) (e : SyntaxError) (leaf : Leaf) :
    leaf.message? origin (.syntaxError e) = none := rfl

/-- What hands a message back is a diagnostic listener, and the event is a report. -/
theorem message?_eq_some_iff {origin : Origin} {event : Event} {leaf : Leaf} {m : String} :
    leaf.message? origin event = some m ↔
      ∃ d report, leaf = .diagnostic d ∧ event = .report report ∧ d.skips report = false ∧
        m = report.message origin := by
  cases event with
  | syntaxError e => simp
  | report report =>
    cases leaf with
    | diagnostic d =>
      cases h : d.skips report with
      | true => simp [message?, h]
      | false => simp [message?, h, eq_comm (a := m)]
    | _ => simp [message?]

/-- A console writes what its sink takes; it fails if that is not the whole line, and otherwise if
it cannot flush the sink. -/
theorem writeLine_cases (id : Nat) (sink : Sink) (line : String) (s : Store) :
    let used := (s.get id).written.length
    let taken := sink.accepts used (utf8 line)
    let after := s.set id { s.get id with written := (s.get id).written ++ taken }
    (∃ e, sink.writeError? used (utf8 line) = some e ∧
      writeLine id sink line s = ⟨.error (.io e), [.wrote id taken, .failed (.io e)], after⟩) ∨
    (∃ e, sink.writeError? used (utf8 line) = none ∧ sink.flushError = some e ∧
      writeLine id sink line s =
        ⟨.error (.io e), [.wrote id taken, .flushed id, .failed (.io e)], after⟩) ∨
    (sink.writeError? used (utf8 line) = none ∧ sink.flushError = none ∧
      writeLine id sink line s = ⟨.ok (), [.wrote id taken, .flushed id], after⟩) := by
  intro used taken after
  cases hw : sink.writeError? used (utf8 line) with
  | some e =>
    refine .inl ⟨e, rfl, ?_⟩
    simp only [used] at hw
    simp only [writeLine, Action.recalling, hw]
    rfl
  | none =>
    simp only [used] at hw
    cases hf : sink.flushError with
    | some e =>
      refine .inr (.inl ⟨e, rfl, rfl, ?_⟩)
      simp only [writeLine, Action.recalling, hw, hf]
      rfl
    | none =>
      refine .inr (.inr ⟨rfl, rfl, ?_⟩)
      simp only [writeLine, Action.recalling, hw, hf]
      rfl

theorem respond_cases (id : Nat) (h : Host) (delivery : Delivery) (s : Store) :
    let heard := (s.get id).heard
    let after := s.set id { s.get id with heard := heard ++ [delivery] }
    (∃ f, h.respond heard delivery = .error f ∧
      respond id h delivery s = ⟨.error f, [.failed f], after⟩) ∨
    (h.respond heard delivery = .ok () ∧ respond id h delivery s = ⟨.ok (), [], after⟩) := by
  intro heard after
  cases hr : h.respond heard delivery with
  | error f =>
    refine .inl ⟨f, rfl, ?_⟩
    simp only [heard] at hr
    simp only [respond, Action.recalling, hr]
    rfl
  | ok u =>
    refine .inr ⟨rfl, ?_⟩
    simp only [heard] at hr
    simp only [respond, Action.recalling, hr]
    rfl

/-- A leaf that deals with an event by itself succeeds, or raises a failure as the last thing it
does. -/
theorem take_cases (leaf : Leaf) (origin : Origin) (event : Event) (s : Store) :
    ((leaf.take origin event s).result = .ok () ∧
      ∀ e ∈ (leaf.take origin event s).journal, e.isWork = true) ∨
    ∃ f work, (leaf.take origin event s).result = .error f ∧
      (leaf.take origin event s).journal = work ++ [.failed f] ∧
      (∀ e ∈ work, e.isWork = true) ∧
      Breakdown (.called leaf origin event :: work ++ [.failed f]) f := by
  -- only consoles and listeners of the host program can fail
  cases leaf with
  | null => exact .inl ⟨rfl, by simp [take, Action.done]⟩
  | tracing => exact .inl ⟨rfl, by simp [take, Action.note, Entry.isWork]⟩
  | standardError =>
    cases event with
    | syntaxError e => exact .inl ⟨rfl, by simp [take, Action.note, Entry.isWork]⟩
    | report report => exact .inl ⟨rfl, by simp [take, Action.done]⟩
  | diagnostic d => exact .inl ⟨rfl, by simp [take, Action.done]⟩
  | collector id => exact .inl ⟨rfl, by simp [take, Action.remember]⟩
  | console id sink =>
    cases event with
    | report report => exact .inl ⟨rfl, by simp [take, Action.done]⟩
    | syntaxError e =>
      rcases writeLine_cases id sink e.consoleLine s with
        ⟨err, hw, hrun⟩ | ⟨err, hw, hf, hrun⟩ | ⟨-, -, hrun⟩
      · refine .inr ⟨.io err, [.wrote id _], ?_, ?_, ?_, .write _ hw⟩ <;>
          simp [take, hrun, Entry.isWork]
      · refine .inr ⟨.io err, [.wrote id _, .flushed id], ?_, ?_, ?_, .flush _ hw hf⟩ <;>
          simp [take, hrun, Entry.isWork]
      · exact .inl (by simp [take, hrun, Entry.isWork])
  | host id h =>
    cases hh : h.handles event.kind with
    | false => exact .inl (by simp [take, hh, Action.done])
    | true =>
      rcases respond_cases id h ⟨origin, event⟩ s with ⟨f, hr, hrun⟩ | ⟨-, hrun⟩
      · refine .inr ⟨f, [], ?_, ?_, by simp, .host _ hr⟩ <;> simp [take, hh, hrun]
      · exact .inl (by simp [take, hh, hrun])

theorem isWork_or_failed_of_mem_take {leaf : Leaf} {origin : Origin} {event : Event} {s : Store}
    {entry : Entry} (h : entry ∈ (leaf.take origin event s).journal) :
    entry.isWork = true ∨ ∃ f, entry = .failed f := by
  rcases leaf.take_cases origin event s with ⟨-, hwork⟩ | ⟨f, work, -, hjournal, hwork, -⟩
  · exact .inl (hwork entry h)
  · rw [hjournal] at h
    rcases List.mem_append.1 h with h | h
    · exact .inl (hwork entry h)
    · exact .inr ⟨f, List.mem_singleton.1 h⟩

end Leaf

/-! ### Fan-outs and recognizers -/

namespace Recognizer

variable {r : Recognizer} {event : Event} {leaf : Leaf} {m : String} {s : Store}

theorem deliver_leaf (r : Recognizer) (event : Event) (leaf : Leaf) :
    r.deliver event (.leaf leaf) =
      (Action.note (.called leaf r.toOrigin event)).andThen
        (match leaf.message? r.toOrigin event with
          | some message => r.notify message
          | none => leaf.take r.toOrigin event) := by
  cases event with
  | syntaxError e => rfl
  | report report =>
    cases leaf with
    | diagnostic d =>
      simp only [deliver, Listener.hearReport, Listener.traverse, Leaf.hearReport, Leaf.message?]
      cases d.skips report <;> rfl
    | _ => rfl

theorem deliver_leaf_of_none (h : leaf.message? r.toOrigin event = none) :
    r.deliver event (.leaf leaf) s =
      { leaf.take r.toOrigin event s with
        journal := .called leaf r.toOrigin event :: (leaf.take r.toOrigin event s).journal } := by
  rw [deliver_leaf, h]; rfl

theorem deliver_leaf_of_some (h : leaf.message? r.toOrigin event = some m) :
    r.deliver event (.leaf leaf) s =
      { r.notify m s with
        journal := .called leaf r.toOrigin event :: (r.notify m s).journal } := by
  rw [deliver_leaf, h]; rfl

theorem result_deliver_leaf_of_some (h : leaf.message? r.toOrigin event = some m) :
    (r.deliver event (.leaf leaf) s).result = (r.notify m s).result := by
  rw [deliver_leaf_of_some h]

theorem journal_deliver_leaf_of_some (h : leaf.message? r.toOrigin event = some m) :
    (r.deliver event (.leaf leaf) s).journal =
      .called leaf r.toOrigin event :: (r.notify m s).journal := by
  rw [deliver_leaf_of_some h]

/-- A fan-out makes a trace record; then its delegates have their turns, under its policy. -/
theorem deliver_fanOut (r : Recognizer) (event : Event) (policy : Policy) (ds : List Listener) :
    r.deliver event (.fanOut policy ds) =
      (Listener.announce event ds.length).andThen (policy.combine (ds.map (r.deliver event))) := by
  cases event with
  | syntaxError e =>
    simp only [deliver, Listener.hearSyntaxError, Listener.traverse, Listener.traverseEach_eq_map]
    rfl
  | report report =>
    simp only [deliver, Listener.hearReport, Listener.traverse, Listener.traverseEach_eq_map]
    rfl

theorem result_deliver_fanOut (policy : Policy) (ds : List Listener) :
    (r.deliver event (.fanOut policy ds) s).result =
      (policy.combine (ds.map (r.deliver event)) s).result := by
  rw [deliver_fanOut]; rfl

theorem journal_deliver_fanOut (policy : Policy) (ds : List Listener) :
    (r.deliver event (.fanOut policy ds) s).journal =
      .traced (event.forwardingTrace ds.length) ::
        (policy.combine (ds.map (r.deliver event)) s).journal := by
  rw [deliver_fanOut]; rfl

/-- The listener that a recognizer forwards a message to, and the syntax error that it becomes. -/
def forward? (r : Recognizer) (message : String) : Option (Listener × SyntaxError) :=
  match r.reply with
  | .accept => none
  | .refuse _ => none
  | .forward target line column token =>
    some (target, { token := token, line := line, column := column, message := message })

theorem reply_of_forward? {target : Listener} {e : SyntaxError}
    (h : r.forward? m = some (target, e)) :
    ∃ line column token, r.reply = .forward target line column token ∧
      e = { token := token, line := line, column := column, message := m } := by
  cases hr : r.reply with
  | accept => simp [forward?, hr] at h
  | refuse cause => simp [forward?, hr] at h
  | forward target' line column token =>
    simp only [forward?, hr, Option.some.injEq, Prod.mk.injEq] at h
    obtain ⟨rfl, rfl⟩ := h
    exact ⟨line, column, token, rfl, rfl⟩

theorem notify_of_accept (h : r.reply = .accept) :
    r.notify m s = ⟨.ok (), [.notified r.index m], s⟩ := by
  simp only [notify, answer, h]; rfl

theorem notify_of_refuse {cause : Refusal} (h : r.reply = .refuse cause) :
    r.notify m s =
      ⟨.error (.refused cause), [.notified r.index m, .failed (.refused cause)], s⟩ := by
  simp only [notify, answer, h]; rfl

/-- A message that is forwarded is sent on as a syntax error; a failure of the listener comes back
wrapped. -/
theorem notify_eq_of_forward {target : Listener} {e : SyntaxError}
    (h : r.forward? m = some (target, e)) :
    r.notify m = (Action.note (.notified r.index m)).andThen
      ((r.deliver (.syntaxError e) target).mapFailure .relayed) := by
  obtain ⟨line, column, token, hr, rfl⟩ := reply_of_forward? h
  simp only [notify, answer, hr]
  rfl

theorem notify_of_forward {target : Listener} {e : SyntaxError}
    (h : r.forward? m = some (target, e)) :
    r.notify m s =
      let run := r.deliver (.syntaxError e) target s
      ⟨run.result.mapError .relayed, .notified r.index m :: run.journal, run.store⟩ := by
  rw [notify_eq_of_forward h]; rfl

theorem result_notify_of_forward {target : Listener} {e : SyntaxError}
    (h : r.forward? m = some (target, e)) :
    (r.notify m s).result = (r.deliver (.syntaxError e) target s).result.mapError .relayed := by
  rw [notify_of_forward h]

theorem journal_notify_of_forward {target : Listener} {e : SyntaxError}
    (h : r.forward? m = some (target, e)) :
    (r.notify m s).journal =
      .notified r.index m :: (r.deliver (.syntaxError e) target s).journal := by
  rw [notify_of_forward h]

/-- A recognizer accepts messages, refuses them, or forwards each of them. -/
theorem reply_cases (r : Recognizer) (m : String) :
    (r.reply = .accept ∧ r.forward? m = none) ∨
      (∃ cause, r.reply = .refuse cause ∧ r.forward? m = none) ∨
      ∃ target e, r.forward? m = some (target, e) := by
  cases h : r.reply with
  | accept => exact .inl ⟨rfl, by simp only [forward?, h]⟩
  | refuse cause => exact .inr (.inl ⟨cause, rfl, by simp only [forward?, h]⟩)
  | forward target line column token =>
    exact .inr (.inr ⟨target, _, by simp only [forward?, h]; rfl⟩)

end Recognizer

end ParseListeners
