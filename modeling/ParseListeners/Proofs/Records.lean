import ParseListeners.Proofs.Delimiters
import ParseListeners.Proofs.Memories

/-!
# What a record tells of an event

A collecting listener keeps texts in place of tokens and faults, and leaves out what belongs to the
parse.  Its records tell two events apart exactly as far as the events differ in what is meant to be
kept (`Event.Agrees`).  Nothing is lost of the kind and the message of a fault, because the text of
a kind has no colon: a text without a colon is that of a fault without a message, and any other one
has the kind before its first colon (`Fault.render_inj`).
-/

namespace ParseListeners

/-! ### Texts of faults -/

namespace Fault

theorem Kind.text_inj {k l : Kind} : k.text = l.text ↔ k = l := by
  cases k <;> cases l <;> decide

theorem Kind.colon_not_mem_text (k : Kind) : ':' ∉ k.text.toList := by
  cases k <;> decide

theorem toList_render_of_ne {f : Fault} (h : f.message ≠ "") :
    f.render.toList = f.kind.text.toList ++ ':' :: ' ' :: f.message.toList := by
  rw [render, if_neg h]
  simp

/-- The text of a fault has no colon if the fault has no message. -/
theorem colon_not_mem_render_iff {f : Fault} : ':' ∉ f.render.toList ↔ f.message = "" := by
  by_cases h : f.message = ""
  · simp [render, h, f.kind.colon_not_mem_text]
  · simp [toList_render_of_ne h, h]

/-- The text of a fault tells its kind and its message. -/
theorem render_inj {f g : Fault} :
    f.render = g.render ↔ f.kind = g.kind ∧ f.message = g.message := by
  refine ⟨fun h => ?_, fun ⟨hkind, hmessage⟩ => by rw [render, render, hkind, hmessage]⟩
  have hempty : f.message = "" ↔ g.message = "" := by
    rw [← colon_not_mem_render_iff, h, colon_not_mem_render_iff]
  by_cases hf : f.message = ""
  · have hg := hempty.1 hf
    rw [render, render, if_pos hf, if_pos hg, Kind.text_inj] at h
    exact ⟨h, hf.trans hg.symm⟩
  · have hg := mt hempty.2 hf
    rw [← String.toList_inj, toList_render_of_ne hf, toList_render_of_ne hg,
      append_cons_inj_of_not_mem f.kind.colon_not_mem_text g.kind.colon_not_mem_text] at h
    obtain ⟨hkind, hmessage⟩ := h
    exact ⟨Kind.text_inj.1 (String.toList_inj.1 hkind),
      String.toList_inj.1 (List.cons.inj hmessage).2⟩

end Fault

/-! ### Agreement of events -/

/-- Two syntax errors agree in their places, their messages, the texts of their tokens and the kinds
and messages of their causes. -/
def SyntaxError.Agrees (e e' : SyntaxError) : Prop :=
  e.token.map Token.text = e'.token.map Token.text ∧ e.line = e'.line ∧ e.column = e'.column ∧
    e.message = e'.message ∧
    e.cause.map (fun f => (f.kind, f.message)) = e'.cause.map fun f => (f.kind, f.message)

/-- Two reports agree in the numbers of their decisions, their ranges and their findings.  Of the
alternatives the members count, and of the configurations the context that a decision hangs on. -/
def Report.Agrees (r r' : Report) : Prop :=
  r.decision.number = r'.decision.number ∧ r.start = r'.start ∧ r.stop = r'.stop ∧
    match r.finding, r'.finding with
    | .ambiguity exact alternatives, .ambiguity exact' alternatives' =>
      exact = exact' ∧ ∀ n, n ∈ alternatives ↔ n ∈ alternatives'
    | .fullContext conflicting, .fullContext conflicting' =>
      ∀ n, n ∈ conflicting ↔ n ∈ conflicting'
    | .contextSensitivity prediction, .contextSensitivity prediction' =>
      prediction = prediction' ∧ r.configurations.fullContext = r'.configurations.fullContext
    | _, _ => False

/-- Two events are of the same kind and agree in what a collecting listener is to keep of them. -/
def Event.Agrees : Event → Event → Prop
  | .syntaxError e, .syntaxError e' => e.Agrees e'
  | .report r, .report r' => r.Agrees r'
  | _, _ => False

namespace Recorded

theorem ofSyntaxError_eq_iff {e e' : SyntaxError} :
    ofSyntaxError e = ofSyntaxError e' ↔ e.Agrees e' := by
  have hcause : e.cause.map Fault.render = e'.cause.map Fault.render ↔
      e.cause.map (fun f => (f.kind, f.message)) = e'.cause.map fun f => (f.kind, f.message) := by
    cases e.cause <;> cases e'.cause <;> simp [Fault.render_inj]
  simp only [ofSyntaxError, syntaxError.injEq, SyntaxError.Agrees, hcause]

theorem ofReport_eq_iff {r r' : Report} : ofReport r = ofReport r' ↔ r.Agrees r' := by
  cases h : r.finding <;> cases h' : r'.finding <;>
    simp [ofReport, Report.Agrees, h, h', Alternatives.ext_mem_iff]

theorem ofSyntaxError_ne_ofReport (e : SyntaxError) (r : Report) :
    ofSyntaxError e ≠ ofReport r := by
  cases h : r.finding <;> simp [ofSyntaxError, ofReport, h]

theorem ofEvent_eq_iff {event event' : Event} :
    ofEvent event = ofEvent event' ↔ event.Agrees event' := by
  cases event with
  | syntaxError e =>
    cases event' with
    | syntaxError e' => exact ofSyntaxError_eq_iff
    | report r' => exact ⟨ofSyntaxError_ne_ofReport e r', False.elim⟩
  | report r =>
    cases event' with
    | syntaxError e' => exact ⟨fun h => ofSyntaxError_ne_ofReport e' r h.symm, False.elim⟩
    | report r' => exact ofReport_eq_iff

end Recorded

namespace Recognizer

theorem recorded_deliver_collector (r : Recognizer) (event : Event) (id : Nat) (s : Store) :
    ((r.deliver event (.leaf (.collector id)) s).store.get id).recorded =
      (s.get id).recorded ++ [.ofEvent event] := by
  have hmessage : (Leaf.collector id).message? r.toOrigin event = none := by
    cases event <;> rfl
  have hdelivered : (r.deliver event (.leaf (.collector id)) s).journal.filterMap
      (Entry.delivered? id) = [event] := by
    rw [deliver_leaf_of_none hmessage]
    simp [Leaf.take, Action.remember, Entry.delivered?]
  rw [r.recorded_deliver, hdelivered, List.map_singleton]

/-- **Records are faithful.**  Two events of any kinds are delivered to collecting listeners, which
each add one record to what they hold.  The records are equal if and only if the events are of the
same kind and agree in what is to be kept of them: places, messages, ranges and numbers as they are,
sets of alternatives by their members, and texts for tokens and faults.  The text of a fault stands
for its kind and its message, whatever characters the message has and also if it is empty. -/
theorem deliver_collector_faithful (r r' : Recognizer) (event event' : Event) (id id' : Nat)
    (s s' : Store) :
    ∃ record record' : Recorded,
      ((r.deliver event (.leaf (.collector id)) s).store.get id).recorded =
          (s.get id).recorded ++ [record] ∧
        ((r'.deliver event' (.leaf (.collector id')) s').store.get id').recorded =
          (s'.get id').recorded ++ [record'] ∧
        (record = record' ↔ event.Agrees event') ∧
        ∀ f g : Fault, f.render = g.render ↔ f.kind = g.kind ∧ f.message = g.message :=
  ⟨.ofEvent event, .ofEvent event', r.recorded_deliver_collector event id s,
    r'.recorded_deliver_collector event' id' s', Recorded.ofEvent_eq_iff,
    fun _ _ => Fault.render_inj⟩

end Recognizer

end ParseListeners
