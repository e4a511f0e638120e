import ParseListeners.Proofs.Turns

/-!
# The account of failures

A failure that comes out of a dispatch may be a failure of failures: fan-outs gather those of their
delegates, and a notification wraps the failure of the listener it was forwarded to.
`Failure.flatten` undoes both.

`Recognizer.attempts` lists the calls of leaves and the notifications of a dispatch, nested ones
included, each with what came of it.  The account is exact (`Recognizer.deliver_accounts`): the
dispatch succeeds if and only if every attempt does, and a failure that comes out, flattened, holds
what the attempts have raised (`Attempt.raised?`), in order and nothing else.
-/

namespace ParseListeners

/-! ### Flattened failures -/

namespace Failure

mutual

/-- The single failures that a failure consists of, in order: those of gathered failures one after
the other, those of the listener behind a notification, and any other failure itself. -/
def flatten : Failure → List Failure
  | .io e => [.io e]
  | .rejected listener reason => [.rejected listener reason]
  | .relayed inner => inner.flatten
  | .refused cause => [.refused cause]
  | .aggregate failures => flattenEach failures

/-- The single failures of a list of failures. -/
def flattenEach : List Failure → List Failure
  | [] => []
  | f :: fs => f.flatten ++ flattenEach fs

end

theorem flattenEach_eq_flatMap (fs : List Failure) : flattenEach fs = fs.flatMap flatten := by
  induction fs with
  | nil => rfl
  | cons f fs ih => rw [flattenEach, ih, List.flatMap_cons]

@[simp] theorem flatten_aggregate (fs : List Failure) :
    (aggregate fs).flatten = fs.flatMap flatten := by
  rw [flatten, flattenEach_eq_flatMap]

end Failure

/-- The single failures that came out of a run. -/
def Run.failures (run : Run (Except Failure Unit)) : List Failure :=
  run.failure?.toList.flatMap Failure.flatten

theorem Run.failures_eq {run : Run (Except Failure Unit)} {f : Failure}
    (h : run.result = .error f) : run.failures = f.flatten := by
  simp [failures, failure?_of_error h]

/-- Gathering failures keeps the single failures. -/
theorem Run.failures_of_gather {run : Run (Except Failure Unit)} {fs : List Failure}
    (h : run.result = Failure.gather fs) : run.failures = fs.flatMap Failure.flatten := by
  match fs with
  | [] => simp [failures, failure?_of_ok h]
  | [f] => simp [failures_eq h]
  | f :: g :: rest => rw [failures_eq h, Failure.flatten_aggregate]

/-! ### Attempts -/

/-- Something that is called. -/
inductive Call where
  /-- A leaf is called with an event. -/
  | leaf (leaf : Leaf) (origin : Origin) (event : Event)
  /-- A recognizer is handed a message. -/
  | notification (recognizer : Nat) (message : String)

/-- A call, with what came of it. -/
structure Attempt where
  /-- The call. -/
  call : Call
  /-- What came of it. -/
  result : Except Failure Unit

/-- The failure that the attempt raised itself: a listener of the host program or a console failed,
or a recognizer refused a message.  Other attempts fail only when one within them does. -/
def Attempt.raised? : Attempt → Option Failure
  | ⟨.leaf (.host ..) _ _, .error f⟩ => some f
  | ⟨.leaf (.console ..) _ _, .error f⟩ => some f
  | ⟨.notification .., .error (.refused cause)⟩ => some (.refused cause)
  | _ => none

/-- The call that an entry of a journal records, if it records one. -/
def Entry.call? : Entry → Option Call
  | .called leaf origin event => some (.leaf leaf origin event)
  | .notified recognizer message => some (.notification recognizer message)
  | _ => none

/-- The failure that an entry of a journal records, if it records one. -/
def Entry.failure? : Entry → Option Failure
  | .failed f => some f
  | _ => none

namespace Entry

@[simp] theorem call?_called (leaf : Leaf) (origin : Origin) (event : Event) :
    (called leaf origin event).call? = some (.leaf leaf origin event) := rfl

@[simp] theorem call?_notified (recognizer : Nat) (message : String) :
    (notified recognizer message).call? = some (.notification recognizer message) := rfl

@[simp] theorem call?_failed (f : Failure) : (failed f).call? = none := rfl

@[simp] theorem failure?_called (leaf : Leaf) (origin : Origin) (event : Event) :
    (called leaf origin event).failure? = none := rfl

@[simp] theorem failure?_notified (recognizer : Nat) (message : String) :
    (notified recognizer message).failure? = none := rfl

@[simp] theorem failure?_failed (f : Failure) : (failed f).failure? = some f := rfl

theorem call?_of_isWork {e : Entry} (h : e.isWork = true) : e.call? = none := by
  cases e with
  | called leaf origin event => simp [isWork] at h
  | notified recognizer message => simp [isWork] at h
  | _ => rfl

theorem failure?_of_isWork {e : Entry} (h : e.isWork = true) : e.failure? = none := by
  cases e with
  | failed f => simp [isWork] at h
  | _ => rfl

theorem filterMap_call?_of_isWork {work : List Entry} (h : ∀ e ∈ work, e.isWork = true) :
    work.filterMap call? = [] :=
  List.filterMap_eq_nil_iff.2 fun e he => call?_of_isWork (h e he)

theorem filterMap_failure?_of_isWork {work : List Entry} (h : ∀ e ∈ work, e.isWork = true) :
    work.filterMap failure? = [] :=
  List.filterMap_eq_nil_iff.2 fun e he => failure?_of_isWork (h e he)

end Entry

namespace Recognizer

variable (r : Recognizer)

/-- The attempts when an event is sent: the calls of the leaves in turn, each followed by those
that `handed` lists for a message that is handed back. -/
def attemptsWith (handed : String → Store → List Attempt) (event : Event) (l : Listener)
    (s : Store) : List Attempt :=
  (r.turns event l s).flatMap <| Turn.fold (fun _ => []) fun leaf t =>
    ⟨.leaf leaf r.toOrigin event, (r.deliver event (.leaf leaf) t).result⟩ ::
      match leaf.message? r.toOrigin event with
      | some message => handed message t
      | none => []

/-- The attempts when the recognizer is handed a message: the notification, and those of the syntax
error that the message becomes, on which nothing is handed back. -/
def notificationAttempts (message : String) (s : Store) : List Attempt :=
  ⟨.notification r.index message, (r.notify message s).result⟩ ::
    match r.forward? message with
    | some (target, e) => r.attemptsWith (fun _ _ => []) (.syntaxError e) target s
    | none => []

/-- The calls of leaves and the notifications when the recognizer sends an event, in order and with
those of nested dispatches in their places. -/
def attempts (event : Event) (l : Listener) (s : Store) : List Attempt :=
  r.attemptsWith r.notificationAttempts event l s

end Recognizer

/-! ### The account -/

/-- The attempts account for a run. -/
structure Accounted (run : Run (Except Failure Unit)) (attempts : List Attempt) : Prop where
  /-- They are the calls of the journal. -/
  calls : run.journal.filterMap Entry.call? = attempts.map Attempt.call
  /-- The run succeeds if and only if all of them do. -/
  ok_iff : run.result = .ok () ↔ ∀ a ∈ attempts, a.result = .ok ()
  /-- They raise the failures of the journal. -/
  raised : run.journal.filterMap Entry.failure? = attempts.filterMap Attempt.raised?
  /-- What they raise comes out. -/
  failures : run.failures = (attempts.filterMap Attempt.raised?).flatMap Failure.flatten

theorem Breakdown.raised? {leaf : Leaf} {origin : Origin} {event : Event} {rest : List Entry}
    {f : Failure} (h : Breakdown (.called leaf origin event :: rest) f) :
    Attempt.raised? ⟨.leaf leaf origin event, .error f⟩ = some f := by
  cases h <;> rfl

/-- A notification that is forwarded raises nothing itself, for a failure of the listener it is
forwarded to comes back wrapped. -/
theorem Accounted.relay {run : Run (Except Failure Unit)} {attempts : List Attempt}
    (h : Accounted run attempts) (recognizer : Nat) (message : String) :
    Accounted ⟨run.result.mapError .relayed, .notified recognizer message :: run.journal, run.store⟩
      (⟨.notification recognizer message, run.result.mapError .relayed⟩ :: attempts) := by
  obtain ⟨result, journal, store⟩ := run
  obtain ⟨hcalls, hok, hraised, hfailures⟩ := h
  have hself : Attempt.raised?
      ⟨.notification recognizer message, result.mapError .relayed⟩ = none := by
    cases result <;> rfl
  refine ⟨by simp [hcalls], ?_, ?_, ?_⟩
  · -- wrapping a failure does not make it a success
    rw [List.forall_mem_cons, ← hok]
    cases result with
    | ok u => simp [Except.mapError]
    | error f => simp [Except.mapError]
  · rw [List.filterMap_cons_none (Entry.failure?_notified ..), List.filterMap_cons_none hself]
    exact hraised
  · rw [List.filterMap_cons_none hself, ← hfailures]
    cases result with
    | ok u => rfl
    | error f => simp [Run.failures, Run.failure?, Except.mapError, Failure.flatten]

theorem Accounted.hand {run : Run (Except Failure Unit)} {attempts : List Attempt}
    (h : Accounted run attempts) {leaf : Leaf} {origin : Origin} {event : Event} {m : String}
    (hm : leaf.message? origin event = some m) :
    Accounted { run with journal := .called leaf origin event :: run.journal }
      (⟨.leaf leaf origin event, run.result⟩ :: attempts) := by
  obtain ⟨hcalls, hok, hraised, hfailures⟩ := h
  have hself : Attempt.raised? ⟨.leaf leaf origin event, run.result⟩ = none := by
    obtain ⟨d, report, rfl, rfl, -, -⟩ := Leaf.message?_eq_some_iff.1 hm
    rfl
  refine ⟨by simp [hcalls], ?_, ?_, ?_⟩
  · rw [List.forall_mem_cons, ← hok, and_self]
  · rw [List.filterMap_cons_none (Entry.failure?_called ..), List.filterMap_cons_none hself]
    exact hraised
  · rw [List.filterMap_cons_none hself]
    exact hfailures

namespace Recognizer

variable {r : Recognizer} {event : Event} {leaf : Leaf} {m : String} {s : Store}

theorem accounted_leaf_of_none (h : leaf.message? r.toOrigin event = none) :
    Accounted (r.deliver event (.leaf leaf) s)
      [⟨.leaf leaf r.toOrigin event, (r.deliver event (.leaf leaf) s).result⟩] := by
  rw [deliver_leaf_of_none h]
  rcases leaf.take_cases r.toOrigin event s with
    ⟨hok, hwork⟩ | ⟨f, work, herr, hjournal, hwork, hbreak⟩
  · have hcall := Entry.filterMap_call?_of_isWork hwork
    have hfail := Entry.filterMap_failure?_of_isWork hwork
    refine ⟨by simp [hcall], by simp, ?_, ?_⟩
    · rw [List.filterMap_cons_none (Entry.failure?_called ..), hfail]
      simp [hok, Attempt.raised?]
    · simp [Run.failures, Run.failure?, hok, Attempt.raised?]
  · have hcall := Entry.filterMap_call?_of_isWork hwork
    have hfail := Entry.filterMap_failure?_of_isWork hwork
    have hraised := hbreak.raised?
    refine ⟨by simp [hjournal, hcall], by simp, ?_, ?_⟩
    · rw [List.filterMap_cons_none (Entry.failure?_called ..), hjournal, List.filterMap_append,
        hfail]
      simp [herr, hraised]
    · simp [Run.failures, Run.failure?, herr, hraised]

theorem attemptsWith_leaf (handed : String → Store → List Attempt) :
    r.attemptsWith handed event (.leaf leaf) s =
      ⟨.leaf leaf r.toOrigin event, (r.deliver event (.leaf leaf) s).result⟩ ::
        match leaf.message? r.toOrigin event with
        | some message => handed message s
        | none => [] := by
  simp [attemptsWith, turns, Turn.fold]

/-- The attempts of a dispatch are those of the leaves in turn. -/
theorem attemptsWith_eq_flatMap (handed : String → Store → List Attempt) (l : Listener) :
    r.attemptsWith handed event l s = (r.turns event l s).flatMap
      (Turn.fold (fun _ => []) fun leaf t => r.attemptsWith handed event (.leaf leaf) t) := by
  simp only [attemptsWith_leaf]
  rfl

theorem forall_mem_attemptsWith {P : Attempt → Prop} {handed : String → Store → List Attempt}
    (hleaf : ∀ leaf t, P ⟨.leaf leaf r.toOrigin event, (r.deliver event (.leaf leaf) t).result⟩)
    (hhanded : ∀ m t, ∀ a ∈ handed m t, P a) (l : Listener) (s : Store) :
    ∀ a ∈ r.attemptsWith handed event l s, P a := by
  intro a ha
  rw [attemptsWith_eq_flatMap] at ha
  obtain ⟨t, -, ha⟩ := List.mem_flatMap.1 ha
  unfold Turn.fold at ha
  cases hl : t.listener with
  | fanOut policy ds => simp [hl] at ha
  | leaf leaf =>
    simp only [hl, attemptsWith_leaf, List.mem_cons] at ha
    rcases ha with rfl | ha
    · exact hleaf leaf t.store
    · cases hm : leaf.message? r.toOrigin event with
      | none => simp [hm] at ha
      | some m => exact hhanded m t.store a (by simpa [hm] using ha)

/-- What holds of the call of every leaf and of every notification holds of all attempts. -/
theorem forall_mem_attempts {P : Attempt → Prop}
    (hleaf : ∀ leaf event t,
      P ⟨.leaf leaf r.toOrigin event, (r.deliver event (.leaf leaf) t).result⟩)
    (hnotify : ∀ m t, P ⟨.notification r.index m, (r.notify m t).result⟩) (event : Event)
    (l : Listener) (s : Store) : ∀ a ∈ r.attempts event l s, P a := by
  refine forall_mem_attemptsWith (fun leaf t => hleaf leaf event t) (fun m t a ha => ?_) l s
  rcases List.mem_cons.1 ha with rfl | ha
  · exact hnotify m t
  · -- a message may become a syntax error, on which nothing is handed back
    cases hto : r.forward? m with
    | none => simp [hto] at ha
    | some found =>
      rw [hto] at ha
      exact forall_mem_attemptsWith (fun leaf t => hleaf leaf _ t) (by simp) _ _ a ha

theorem failures_deliver_fanOut (policy : Policy) (ds : List Listener) (s : Store) :
    (r.deliver event (.fanOut policy ds) s).failures =
      (policy.courses (ds.map (r.deliver event)) s).flatMap Run.failures := by
  have h : (r.deliver event (.fanOut policy ds) s).result =
      Failure.gather ((policy.courses (ds.map (r.deliver event)) s).filterMap Run.failure?) := by
    rw [result_deliver_fanOut, Policy.result_combine]
  rw [Run.failures_of_gather h, List.filterMap_eq_flatMap_toList, List.flatMap_assoc]
  rfl

/-- If each leaf in turn is accounted for, the dispatch is. -/
theorem accounted_deliver {handed : String → Store → List Attempt}
    (hleaf : ∀ leaf t, Accounted (r.deliver event (.leaf leaf) t)
      (r.attemptsWith handed event (.leaf leaf) t)) (l : Listener) (s : Store) :
    Accounted (r.deliver event l s) (r.attemptsWith handed event l s) := by
  rw [attemptsWith_eq_flatMap]
  -- every part of the account adds up over the turns
  refine ⟨?_, ?_, ?_, ?_⟩
  · rw [filterMap_journal_deliver (fun _ => rfl), List.map_flatMap]
    refine List.flatMap_congr fun t _ => ?_
    unfold Turn.fold
    cases t.listener with
    | leaf leaf => exact (hleaf leaf t.store).calls
    | fanOut policy ds => rfl
  · rw [result_deliver_eq_ok_iff, List.forall_mem_flatMap]
    refine forall₂_congr fun t _ => ?_
    unfold Turn.fold
    cases t.listener with
    | leaf leaf => simpa using (hleaf leaf t.store).ok_iff
    | fanOut policy ds => simp
  · rw [filterMap_journal_deliver (fun _ => rfl), List.filterMap_flatMap]
    refine List.flatMap_congr fun t _ => ?_
    unfold Turn.fold
    cases t.listener with
    | leaf leaf => exact (hleaf leaf t.store).raised
    | fanOut policy ds => rfl
  · rw [eq_flatMap_turns Run.failures (fun _ => []) failures_deliver_fanOut,
      List.filterMap_flatMap, List.flatMap_assoc]
    refine List.flatMap_congr fun t _ => ?_
    unfold Turn.fold
    cases t.listener with
    | leaf leaf => exact (hleaf leaf t.store).failures
    | fanOut policy ds => rfl

/-- The syntax error that a message becomes is accounted for without anything handed back. -/
theorem accounted_syntaxError (e : SyntaxError) (l : Listener) (s : Store) :
    Accounted (r.deliver (.syntaxError e) l s)
      (r.attemptsWith (fun _ _ => []) (.syntaxError e) l s) := by
  refine accounted_deliver (fun leaf t => ?_) l s
  rw [attemptsWith_leaf]
  exact accounted_leaf_of_none (Leaf.message?_syntaxError ..)

theorem accounted_notify (r : Recognizer) (m : String) (s : Store) :
    Accounted (r.notify m s) (r.notificationAttempts m s) := by
  unfold notificationAttempts
  rcases r.reply_cases m with ⟨hr, hto⟩ | ⟨cause, hr, hto⟩ | ⟨target, e, hto⟩
  · rw [hto, notify_of_accept hr]
    exact ⟨rfl, by simp, rfl, rfl⟩
  · rw [hto, notify_of_refuse hr]
    exact ⟨rfl, by simp, rfl, rfl⟩
  · rw [hto, notify_of_forward hto]
    exact (accounted_syntaxError e target s).relay r.index m

theorem accounted_leaf (r : Recognizer) (event : Event) (leaf : Leaf) (s : Store) :
    Accounted (r.deliver event (.leaf leaf) s)
      (r.attemptsWith r.notificationAttempts event (.leaf leaf) s) := by
  rw [attemptsWith_leaf]
  cases hm : leaf.message? r.toOrigin event with
  | none => exact accounted_leaf_of_none hm
  | some m =>
    rw [deliver_leaf_of_some hm]
    exact (r.accounted_notify m s).hand hm

/-- **The account of a dispatch is exact.**  The calls and notifications that its journal records
are its attempts.  It succeeds if and only if none of them fails; and the single failures of the
failure that it comes out with are those that listeners of the host program, consoles and refused
notifications raised meanwhile, in order. -/
theorem deliver_accounts (r : Recognizer) (event : Event) (l : Listener) (s : Store) :
    let run := r.deliver event l s
    let attempts := r.attempts event l s
    run.journal.filterMap Entry.call? = attempts.map Attempt.call ∧
      (run.result = .ok () ↔ ∀ a ∈ attempts, a.result = .ok ()) ∧
      run.journal.filterMap Entry.failure? = attempts.filterMap Attempt.raised? ∧
      ∀ f, run.result = .error f →
        f.flatten = (attempts.filterMap Attempt.raised?).flatMap Failure.flatten := by
  have h := accounted_deliver (fun leaf t => r.accounted_leaf event leaf t) l s
  refine ⟨h.calls, h.ok_iff, h.raised, fun f hf => ?_⟩
  rw [← Run.failures_eq hf]
  exact h.failures

end Recognizer

end ParseListeners
