import ParseListeners.Proofs.Memories
import ParseListeners.Proofs.Success
import ParseListeners.Proofs.Writing

/-!
# A console and a collecting listener

A fan-out has a console with an unlimited sink and a collecting listener among its delegates, once
each; the other delegates keep nothing.  The two are never called at the same time, and when a
recognizer refuses a message, a fail-fast fan-out does not call the delegates after the diagnostic
listener.  Still they do not get out of step (`Listener.courses_agree`): only reports are cut short,
and syntax errors always reach both.
-/

namespace ParseListeners

/-! ### Console and collecting listener -/

/-- What a console writes of an event that was recorded. -/
def Recorded.consoleBytes : Recorded → List UInt8
  | .syntaxError _ line column message _ => utf8 (placedMessage line column message ++ "\n")
  | .ambiguity .. => []
  | .fullContext .. => []
  | .contextSensitivity .. => []

@[simp] theorem Recorded.consoleBytes_ofEvent (event : Event) :
    (ofEvent event).consoleBytes = event.consoleBytes := by
  cases event with
  | syntaxError e => rfl
  | report report =>
    simp only [ofEvent, ofReport, Event.consoleBytes]
    cases report.finding <;> rfl

/-- The console has written the lines of the syntax errors that the collecting listener holds. -/
def Store.Agrees (s : Store) (console collector : Nat) : Prop :=
  (s.get console).written = (s.get collector).recorded.flatMap Recorded.consoleBytes

/-- The leaf keeps nothing and cannot fail by itself: it takes every event and does nothing, or
traces events, or turns reports into messages. -/
def Leaf.isSilent : Leaf → Bool
  | .null => true
  | .tracing => true
  | .diagnostic _ => true
  | _ => false

/-- Among the leaves there are a console with an unlimited sink that can be flushed, and a
collecting listener, once each and in any order; all others are silent. -/
structure Leaf.Paired (console : Nat) (sink : Sink) (collector : Nat) (leaves : List Leaf) :
    Prop where
  /-- The leaves, in some order. -/
  perm : ∃ others, leaves.Perm (.console console sink :: .collector collector :: others) ∧
    ∀ leaf ∈ others, leaf.isSilent = true
  /-- The sink has no limit. -/
  unlimited : sink.capacity = none
  /-- The sink can be flushed. -/
  flushes : sink.flushError = none

namespace Leaf

theorem filterMap_delivered?_entries (origin : Origin) (event : Event) (leaf : Leaf) (id : Nat) :
    (leaf.entries origin event).filterMap (Entry.delivered? id) =
      if leaf.collects id then [event] else [] := by
  cases leaf with
  | collector id' => by_cases h : id' = id <;> simp [entries, Entry.delivered?, collects, h]
  | _ => cases event <;> rfl

theorem flatMap_written_entries (origin : Origin) (event : Event) (leaf : Leaf) (id : Nat) :
    (leaf.entries origin event).flatMap (Entry.written id) =
      if leaf.writes id then event.consoleBytes else [] := by
  cases leaf with
  | console id' sink =>
    cases event with
    | report report => by_cases h : id' = id <;> simp [entries, Entry.written, writes, h]; rfl
    | syntaxError e => by_cases h : id' = id <;> simp [entries, Entry.written, writes, h]; rfl
  | _ => cases event <;> rfl

namespace Paired

variable {console collector : Nat} {sink : Sink} {leaves : List Leaf}

theorem cases_of_mem (h : Paired console sink collector leaves) {leaf : Leaf}
    (hleaf : leaf ∈ leaves) :
    leaf = .console console sink ∨ leaf = .collector collector ∨ leaf.isSilent = true := by
  obtain ⟨others, hperm, hsilent⟩ := h.perm
  rcases List.mem_cons.1 (hperm.mem_iff.1 hleaf) with rfl | hleaf
  · exact .inl rfl
  · rcases List.mem_cons.1 hleaf with rfl | hleaf
    · exact .inr (.inl rfl)
    · exact .inr (.inr (hsilent leaf hleaf))

theorem isReliable (h : Paired console sink collector leaves) :
    ∀ leaf ∈ leaves, leaf.isReliable = true := by
  intro leaf hleaf
  rcases h.cases_of_mem hleaf with rfl | rfl | hsilent
  · simp [Leaf.isReliable, h.unlimited, h.flushes]
  · rfl
  · cases leaf <;> simp_all [isSilent, Leaf.isReliable]

/-- What no silent leaf satisfies is satisfied by the two only. -/
theorem countP_eq (h : Paired console sink collector leaves) {p : Leaf → Bool}
    (hp : ∀ leaf, leaf.isSilent = true → p leaf = false) :
    leaves.countP p = [.console console sink, .collector collector].countP p := by
  obtain ⟨others, hperm, hsilent⟩ := h.perm
  have hothers : others.countP p = 0 :=
    List.countP_eq_zero.2 fun leaf hleaf => Bool.eq_false_iff.1 (hp leaf (hsilent leaf hleaf))
  rw [hperm.countP_eq, List.countP_cons, List.countP_cons, hothers, List.countP_cons,
    List.countP_cons, List.countP_nil]

theorem countP_collects (h : Paired console sink collector leaves) :
    leaves.countP (Leaf.collects collector) = 1 := by
  rw [h.countP_eq fun leaf hsilent => by cases leaf <;> simp_all [isSilent, collects]]
  simp [collects]

theorem countP_writes (h : Paired console sink collector leaves) :
    leaves.countP (Leaf.writes console) = 1 := by
  rw [h.countP_eq fun leaf hsilent => by cases leaf <;> simp_all [isSilent, writes]]
  simp [writes]

end Paired

end Leaf

/-! ### Out of step and in step again -/

namespace Recognizer

open Leaf (Paired)

variable {r : Recognizer} {console collector : Nat} {sink : Sink} {leaves : List Leaf}
  {policy : Policy} {s : Store}

/-- A syntax error reaches both: its line is written, and it is recorded. -/
theorem deliver_syntaxError_of_paired (h : Paired console sink collector leaves) (e : SyntaxError) :
    let run := r.deliver (.syntaxError e) (.fanOut policy (leaves.map .leaf)) s
    run.result = .ok () ∧
      (run.store.get console).written = (s.get console).written ++ utf8 e.consoleLine ∧
      (run.store.get collector).recorded = (s.get collector).recorded ++ [.ofSyntaxError e] := by
  intro run
  have hok : run.result = .ok () := by
    refine result_deliver_syntaxError_of_isReliable (fun leaf hleaf => ?_) e s
    rw [Listener.leaves_fanOut_leaves] at hleaf
    exact h.isReliable leaf hleaf
  have hjournal : run.journal = _ := journal_deliver_syntaxError_of_ok hok
  have hmemory := remembered_deliver r (.syntaxError e) (.fanOut policy (leaves.map .leaf)) s
  refine ⟨hok, ?_, ?_⟩
  · -- among the calls of all delegates, one is that of the console
    have hlines : run.journal.flatMap (Entry.written console) = utf8 e.consoleLine := by
      rw [hjournal, List.flatMap_cons, List.flatMap_assoc]
      simp only [Leaf.flatMap_written_entries, flatMap_ite_eq_flatten, h.countP_writes,
        Event.consoleBytes, Entry.written]
      simp
    rw [hmemory console, Memory.written_extend, hlines]
  · have hdelivered : run.journal.filterMap (Entry.delivered? collector) = [.syntaxError e] := by
      rw [hjournal, List.filterMap_cons_none rfl, List.filterMap_flatMap]
      simp only [Leaf.filterMap_delivered?_entries, flatMap_ite_eq_flatten, h.countP_collects]
      simp
    rw [recorded_deliver, hdelivered]
    rfl

theorem agrees_deliver_syntaxError (h : Paired console sink collector leaves)
    (hs : s.Agrees console collector) (e : SyntaxError) :
    (r.deliver (.syntaxError e) (.fanOut policy (leaves.map .leaf)) s).store.Agrees
      console collector := by
  obtain ⟨-, hwritten, hrecorded⟩ := @deliver_syntaxError_of_paired r _ _ _ _ policy s h e
  have hline : (Recorded.ofSyntaxError e).consoleBytes = utf8 e.consoleLine := rfl
  rw [Store.Agrees, hwritten, hrecorded, List.flatMap_append, List.flatMap_singleton, hline, hs]

theorem agrees_notify (h : Paired console sink collector leaves)
    (hto : ∀ m target e, r.forward? m = some (target, e) →
      target = .fanOut policy (leaves.map .leaf))
    (hs : s.Agrees console collector) (m : String) :
    (r.notify m s).store.Agrees console collector := by
  rcases r.reply_cases m with ⟨hr, -⟩ | ⟨cause, hr, -⟩ | ⟨target, e, hm⟩
  · rw [notify_of_accept hr]
    exact hs
  · rw [notify_of_refuse hr]
    exact hs
  · obtain rfl := hto m target e hm
    rw [notify_of_forward hm]
    exact agrees_deliver_syntaxError h hs e

theorem agrees_deliver_report (h : Paired console sink collector leaves)
    (hto : ∀ m target e, r.forward? m = some (target, e) →
      target = .fanOut policy (leaves.map .leaf))
    (hs : s.Agrees console collector) (report : Report) :
    (r.deliver (.report report) (.fanOut policy (leaves.map .leaf)) s).store.Agrees
      console collector := by
  have hkept : HandedOn fun s _ t => s.Agrees console collector → t.Agrees console collector :=
    { idle := fun _ hs => hs
      traced := fun _ _ hs => hs
      append := fun hj hk hs => hk (hj hs) }
  refine hkept.deliver (fun leaf hleaf s hs => ?_) s hs
  rw [Listener.leaves_fanOut_leaves] at hleaf
  cases hm : leaf.message? r.toOrigin (.report report) with
  | some m =>
    rw [deliver_leaf_of_some hm]
    exact agrees_notify h hto hs m
  | none =>
    -- the report adds nothing to what is written, and no line to what is recorded
    have hok : (r.deliver (.report report) (.leaf leaf) s).result = .ok () := by
      rw [deliver_leaf_of_none hm]
      exact Leaf.result_take_of_isReliable (h.isReliable leaf hleaf)
    have hmemory := remembered_deliver_leaf_of_none hm s
    rw [journal_deliver_leaf_of_ok hm hok] at hmemory
    rw [Store.Agrees, hmemory console, hmemory collector, Memory.written_extend,
      Memory.recorded_extend, Leaf.flatMap_written_entries, Leaf.filterMap_delivered?_entries, hs]
    cases leaf.writes console <;> cases leaf.collects collector <;> simp [Event.consoleBytes]

end Recognizer

namespace Listener

/-- **A console and a collecting listener stay in step.**  Events are sent to a fan-out that has
both among its delegates, by recognizers that accept messages, refuse them, or forward them to this
same fan-out.  After each event the console has written the lines of the syntax errors that the
collecting listener holds, in order, whether the event went through or not.  A syntax error always
goes through, and is the last that the collecting listener holds. -/
theorem courses_agree {console collector : Nat} {sink : Sink} {leaves : List Leaf}
    (h : Leaf.Paired console sink collector leaves) (policy : Policy)
    {sent : List (Recognizer × Event)}
    (hsent : ∀ r event, (r, event) ∈ sent → ∀ target line column token,
      r.reply = .forward target line column token → target = .fanOut policy (leaves.map .leaf))
    {s : Store} (hs : s.Agrees console collector) :
    let courses := (fanOut policy (leaves.map .leaf)).courses sent s
    courses.length = sent.length ∧
      ∀ (k : Nat) r event run, sent[k]? = some (r, event) → courses[k]? = some run →
        (run.store.get console).written =
            (run.store.get collector).recorded.flatMap Recorded.consoleBytes ∧
          ∀ e, event = .syntaxError e → run.result = .ok () ∧
            (run.store.get collector).recorded.getLast? = some (.ofSyntaxError e) := by
  intro courses
  refine ⟨length_courses, fun k r event run hk hrun => ?_⟩
  have hkept : ∀ r event t, (r, event) ∈ sent → t.Agrees console collector →
      (r.deliver event (.fanOut policy (leaves.map .leaf)) t).store.Agrees console collector := by
    intro r event t hmem ht
    cases event with
    | syntaxError e => exact Recognizer.agrees_deliver_syntaxError h ht e
    | report report =>
      refine Recognizer.agrees_deliver_report h (fun m target e hto => ?_) ht report
      obtain ⟨line, column, token, hreply, -⟩ := Recognizer.reply_of_forward? hto
      exact hsent r _ hmem target line column token hreply
  obtain ⟨t, ht, rfl⟩ := exists_of_courses (P := fun _ t => t.Agrees console collector) hs
    (fun _ r event t hmem ht => hkept r event t hmem ht) hk hrun
  refine ⟨hkept r event t (List.mem_of_getElem? hk) ht, ?_⟩
  rintro e rfl
  obtain ⟨hok, -, hrecorded⟩ :=
    @Recognizer.deliver_syntaxError_of_paired r _ _ _ _ policy t h e
  exact ⟨hok, by rw [hrecorded, List.getLast?_concat]⟩

/-- A diagnostic listener between a console and a collecting listener. -/
def sandwich : List Leaf := [.console 0 {}, .diagnostic ⟨false⟩, .tracing, .collector 1]

/-- Two reports: the first message is forwarded to a fan-out over these leaves, the second one is
refused. -/
def dispute : List (Recognizer × Event) :=
  let origin : Origin := .ofTexts 0 "Expr.g4" ["expr"] ["a", "b"] " "
  let report : Report :=
    { decision := ⟨3, 0⟩, start := 0, stop := 1, configurations := .empty true,
      finding := .contextSensitivity 1 }
  [({ toOrigin := origin, reply := .forward (fanOut .failFast (sandwich.map .leaf)) 1 0 none },
      .report report),
    ({ toOrigin := origin, reply := .refuse (.reason "enough") }, .report report)]

/-- The refusal keeps the second report from the collecting listener. -/
theorem courses_agree_dispute :
    Leaf.Paired 0 {} 1 sandwich ∧
      ∃ run, ((fanOut .failFast (sandwich.map .leaf)).courses dispute .empty)[1]? = some run ∧
        run.result = .error (.refused (.reason "enough")) ∧
        (run.store.get 0).written = (run.store.get 1).recorded.flatMap Recorded.consoleBytes := by
  have hpaired : Leaf.Paired 0 {} 1 sandwich := by
    refine ⟨⟨[.diagnostic ⟨false⟩, .tracing], .cons _ ?_, by simp [Leaf.isSilent]⟩, rfl, rfl⟩
    exact @List.perm_append_comm Leaf [.diagnostic ⟨false⟩, .tracing] [.collector 1]
  have hto : ∀ r event, (r, event) ∈ dispute → ∀ target line column token,
      r.reply = .forward target line column token →
        target = fanOut .failFast (sandwich.map .leaf) := by
    rintro r event hmem target line column token hreply
    obtain ⟨rfl, rfl⟩ | ⟨rfl, rfl⟩ : _ ∨ _ := by simpa [dispute] using hmem
    · cases hreply
      rfl
    · cases hreply
  obtain ⟨-, hcourses⟩ := @courses_agree 0 1 {} sandwich hpaired .failFast dispute hto .empty rfl
  obtain ⟨hagree, -⟩ := hcourses 1 _ _ _ rfl rfl
  exact ⟨hpaired, _, rfl, rfl, hagree⟩

end Listener

end ParseListeners
