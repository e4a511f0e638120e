import Mathlib.Data.List.Forall2
import ParseListeners.Proofs.Calls
import ParseListeners.Proofs.Steps

/-!
# Sessions with other listeners

`Session.replace` puts another listener in the place of each listener of a session, among those
that are declared and among those that recognizers forward messages to.  Names stay: what is found
under a name is the replacement of what was found there (`Registry.lookup_replace`,
`Session.recognizer_replace`).  `Session.Related` leaves open which listener takes the place of
another one: it may be a different one each time.

Two sessions that send the same events can be compared step by step.  If each step leaves both of
them with the same memories, so does a run (`Session.agree_run`), and it is enough to compare the
dispatches (`Session.forall₂_run_replace`, `Session.forall₂_run_related`).  And there it is enough
to compare trees, if what the leaves do is known to be the same: the messages that leaves hand back
are sent to such trees again (`Recognizer.Related.deliver`).
-/

namespace ParseListeners

/-! ### Replacing listeners -/

/-- The same reply with the listener it forwards to replaced. -/
def Reply.map {α β : Type} (f : α → β) : Reply α → Reply β
  | .accept => .accept
  | .refuse cause => .refuse cause
  | .forward target line column token => .forward (f target) line column token

/-- The recognizer with the listener that it forwards to replaced. -/
def Recognizer.replace (f : Listener → Listener) (r : Recognizer) : Recognizer :=
  { r with reply := r.reply.map f }

/-- The registry with every listener replaced. -/
def Registry.replace (f : Listener → Listener) (r : Registry) : Registry :=
  ⟨r.toList.map (Except.map f)⟩

/-- The session with every listener replaced. -/
def Session.replace (f : Listener → Listener) (s : Session) : Session :=
  ⟨s.registry.replace f, s.recognizers.map (Recognizer.replace f)⟩

theorem Recognizer.forward?_replace (r : Recognizer) (f : Listener → Listener) (m : String) :
    (r.replace f).forward? m = (r.forward? m).map fun (target, e) => (f target, e) := by
  cases h : r.reply with
  | accept => simp only [forward?, Recognizer.replace, h]; rfl
  | refuse cause => simp only [forward?, Recognizer.replace, h]; rfl
  | forward target line column token => simp only [forward?, Recognizer.replace, h]; rfl

theorem Registry.lookup_replace (registry : Registry) (f : Listener → Listener) (position : Nat) :
    (registry.replace f).lookup position = (registry.lookup position).map f := by
  simp only [lookup, get?, Registry.replace, List.getElem?_map]
  cases registry.toList[position]? with
  | none => rfl
  | some outcome =>
    cases outcome with
    | error e => rfl
    | ok l => rfl

theorem Session.recognizer_replace (session : Session) (f : Listener → Listener) (position : Nat) :
    (session.replace f).recognizer position =
      (session.recognizer position).map (Recognizer.replace f) := by
  simp only [recognizer, Session.replace, List.getElem?_map]
  cases session.recognizers[position]? with
  | none => rfl
  | some r => rfl

/-! ### Related listeners -/

/-- The same error comes out on both sides, or values that are related. -/
inductive SameOutcome {α β ε : Type} (R : α → β → Prop) : Except ε α → Except ε β → Prop
  /-- Both are the same error. -/
  | error (e : ε) : SameOutcome R (.error e) (.error e)
  /-- Both are values. -/
  | ok {a : α} {b : β} (h : R a b) : SameOutcome R (.ok a) (.ok b)

/-- The same reply, up to the listener that it forwards to. -/
inductive Reply.Related {α β : Type} (R : α → β → Prop) : Reply α → Reply β → Prop
  /-- Both go on in silence. -/
  | accept : Related R .accept .accept
  /-- Both refuse for the same reason. -/
  | refuse (cause : Refusal) : Related R (.refuse cause) (.refuse cause)
  /-- Both forward messages in the same way, to related listeners. -/
  | forward {target : α} {target' : β} (h : R target target') (line column : UInt32)
    (token : Option Token) :
    Related R (.forward target line column token) (.forward target' line column token)

/-- The same recognizer, up to the listener that it forwards to. -/
structure Recognizer.Related (R : Listener → Listener → Prop) (r r' : Recognizer) : Prop where
  /-- Listeners read the same of both. -/
  origin : r'.toOrigin = r.toOrigin
  /-- The replies are related. -/
  reply : Reply.Related R r.reply r'.reply

/-- Two sessions with the same names, under which related listeners and recognizers are found. -/
structure Session.Related (R : Listener → Listener → Prop) (s s' : Session) : Prop where
  /-- At each position both have a listener, or neither could be built. -/
  registry : List.Forall₂ (SameOutcome R) s.registry.toList s'.registry.toList
  /-- The recognizers are the same, up to the listeners that they forward to. -/
  recognizers : List.Forall₂ (Recognizer.Related R) s.recognizers s'.recognizers

theorem getElem?_of_forall₂ {α β : Type} {R : α → β → Prop} {as : List α} {bs : List β}
    (h : List.Forall₂ R as bs) (i : Nat) :
    (as[i]? = none ∧ bs[i]? = none) ∨ ∃ a b, as[i]? = some a ∧ bs[i]? = some b ∧ R a b := by
  induction h generalizing i with
  | nil => exact .inl ⟨rfl, rfl⟩
  | cons hab _ ih =>
    cases i with
    | zero => exact .inr ⟨_, _, rfl, rfl, hab⟩
    | succ i => exact ih i

namespace Session.Related

variable {R : Listener → Listener → Prop} {s s' : Session}

theorem lookup (h : s.Related R s') (position : Nat) :
    SameOutcome R (s.registry.lookup position) (s'.registry.lookup position) := by
  unfold Registry.lookup Registry.get?
  rcases getElem?_of_forall₂ h.registry position with ⟨hn, hn'⟩ | ⟨_, _, ho, ho', hR⟩
  · rw [hn, hn']
    exact .error _
  · rw [ho, ho']
    cases hR with
    | error e => exact .error _
    | ok hl => exact .ok hl

theorem recognizer (h : s.Related R s') (position : Nat) :
    SameOutcome (Recognizer.Related R) (s.recognizer position) (s'.recognizer position) := by
  unfold Session.recognizer
  rcases getElem?_of_forall₂ h.recognizers position with ⟨hn, hn'⟩ | ⟨_, _, hr, hr', hR⟩
  · rw [hn, hn']
    exact .error _
  · rw [hr, hr']
    exact .ok hR

end Session.Related

/-! ### Comparing dispatches -/

/-- What is the same stays so if the same happens before, and if a notification then fails. -/
structure Run.Congruence (same : Run (Except Failure Unit) → Run (Except Failure Unit) → Prop) :
    Prop where
  /-- A run is the same as itself. -/
  refl : ∀ run, same run run
  /-- The same may happen before. -/
  prepend : ∀ {run run'}, same run run' → ∀ start : List Entry,
    same { run with journal := start ++ run.journal } { run' with journal := start ++ run'.journal }
  /-- The failures may be those of listeners that a message is forwarded to. -/
  relay : ∀ {run run'}, same run run' →
    same { run with result := run.result.mapError .relayed }
      { run' with result := run'.result.mapError .relayed }

namespace Recognizer.Related

variable {same : Run (Except Failure Unit) → Run (Except Failure Unit) → Prop}
  {R : Listener → Listener → Prop} {r r' : Recognizer}

theorem notify (h : r.Related R r') (hsame : Run.Congruence same)
    (hsyntaxError : ∀ e target target', R target target' → ∀ s,
      same (r.deliver (.syntaxError e) target s) (r'.deliver (.syntaxError e) target' s))
    (m : String) (s : Store) : same (r.notify m s) (r'.notify m s) := by
  obtain ⟨origin, reply⟩ := r
  obtain ⟨origin', reply'⟩ := r'
  obtain ⟨rfl, hreply⟩ := h
  cases hreply with
  | accept => exact hsame.refl _
  | refuse cause => exact hsame.refl _
  | @forward target target' htarget line column token =>
    rw [notify_of_forward rfl, notify_of_forward rfl]
    exact hsame.prepend (hsame.relay (hsyntaxError _ _ _ htarget s)) [.notified _ m]

theorem deliver_leaf (h : r.Related R r') (hsame : Run.Congruence same) {event : Event}
    {leaf : Leaf} (hnotify : ∀ m, leaf.message? r.toOrigin event = some m →
      ∀ s, same (r.notify m s) (r'.notify m s)) (s : Store) :
    same (r.deliver event (.leaf leaf) s) (r'.deliver event (.leaf leaf) s) := by
  have horigin := h.origin
  cases hm : leaf.message? r.toOrigin event with
  | none =>
    rw [deliver_leaf_of_none hm, deliver_leaf_of_none (horigin ▸ hm), horigin]
    exact hsame.refl _
  | some m =>
    rw [deliver_leaf_of_some hm, deliver_leaf_of_some (horigin ▸ hm), horigin]
    exact hsame.prepend (hnotify m hm s) [.called leaf r.toOrigin event]

/-- **Related trees do the same**, for related recognizers, if they do so whenever their leaves
do. -/
theorem deliver (h : r.Related R r') (hsame : Run.Congruence same)
    (htrees : ∀ event,
      (∀ leaf s, same (r.deliver event (.leaf leaf) s) (r'.deliver event (.leaf leaf) s)) →
      ∀ l l', R l l' → ∀ s, same (r.deliver event l s) (r'.deliver event l' s))
    (event : Event) {l l' : Listener} (hl : R l l') (s : Store) :
    same (r.deliver event l s) (r'.deliver event l' s) := by
  -- a syntax error is not handed back, so every leaf deals with it by itself
  have hsyntaxError : ∀ e target target', R target target' → ∀ s,
      same (r.deliver (.syntaxError e) target s) (r'.deliver (.syntaxError e) target' s) :=
    fun e => htrees (.syntaxError e) fun leaf s => h.deliver_leaf hsame (by simp) s
  refine htrees event (fun leaf s => ?_) l l' hl s
  exact h.deliver_leaf hsame (fun m _ s => h.notify hsame hsyntaxError m s) s

end Recognizer.Related

/-! ### Comparing sessions -/

/-- The step sends an event. -/
def Step.sends : Step → Bool
  | .deliver .. => true
  | _ => false

/-- The courses of a step in two sessions agree, up to what `same` allows in a dispatch: both steps
have no answer, for the same reason, or both send an event. -/
inductive Course.Agree (same : Run (Except Failure Unit) → Run (Except Failure Unit) → Prop) :
    Except LookupError (Run Answer) → Except LookupError (Run Answer) → Prop
  /-- Neither step has an answer. -/
  | unanswered (e : LookupError) : Agree same (.error e) (.error e)
  /-- Both send an event, and what comes of it is the same. -/
  | delivered {run run' : Run (Except Failure Unit)} (h : same run run') :
      Agree same (.ok { run with result := .delivered run.result })
        (.ok { run' with result := .delivered run'.result })

namespace Session

variable {same : Run (Except Failure Unit) → Run (Except Failure Unit) → Prop}
  {session session' : Session} {f : Listener → Listener}

theorem storeAfter_singleton_of_agree (hstore : ∀ run run', same run run' → run.store = run'.store)
    {step : Step} {store : Store}
    (h : Course.Agree same (session.perform store step) (session'.perform store step)) :
    session'.storeAfter [step] store = session.storeAfter [step] store := by
  generalize hcourse : session.perform store step = course at h
  generalize hcourse' : session'.perform store step = course' at h
  cases h with
  | unanswered e => rw [storeAfter_of_error hcourse, storeAfter_of_error hcourse']
  | @delivered run run' h =>
    rw [storeAfter_of_ok hcourse, storeAfter_of_ok hcourse']
    exact (hstore run run' h).symm

/-- If each step agrees, whatever the memories, and leaves both sessions with the same memories,
all steps of a run agree, and so do the memories in the end. -/
theorem agree_run (hstore : ∀ run run', same run run' → run.store = run'.store)
    {steps : List Step} (hperform : ∀ step ∈ steps, ∀ store,
      Course.Agree same (session.perform store step) (session'.perform store step))
    (store : Store) :
    List.Forall₂ (Course.Agree same) (session.run steps store) (session'.run steps store) ∧
      session'.storeAfter steps store = session.storeAfter steps store := by
  induction steps generalizing store with
  | nil => exact ⟨.nil, rfl⟩
  | cons step steps ih =>
    rw [List.forall_mem_cons] at hperform
    have hstep := hperform.1 store
    -- the next step finds the same memories in both sessions
    have hnext := storeAfter_singleton_of_agree hstore hstep
    obtain ⟨hrun, hafter⟩ := ih hperform.2 (session.storeAfter [step] store)
    constructor
    · rw [run_cons, run_cons, hnext]
      exact .cons hstep hrun
    · rw [storeAfter_cons session', storeAfter_cons session, hnext, hafter]

theorem perform_deliver_eq_bind (s : Session) (store : Store) (position sender : Nat)
    (event : Event) :
    s.perform store (.deliver position sender event) =
      (s.registry.lookup position).bind fun l => (s.recognizer sender).bind fun r =>
        .ok { r.deliver event l store with
          result := .delivered (r.deliver event l store).result } := rfl

/-- If dispatches to related listeners are the same, up to what `same` allows, then so are the
courses of a step that sends an event. -/
theorem perform_related {R : Listener → Listener → Prop} (h : session.Related R session')
    (hdeliver : ∀ {l l' : Listener} {r r' : Recognizer}, R l l' → r.Related R r' →
      ∀ event store, same (r.deliver event l store) (r'.deliver event l' store))
    {step : Step} (hstep : step.sends = true) (store : Store) :
    Course.Agree same (session.perform store step) (session'.perform store step) := by
  cases step with
  | deliver position sender event =>
    rw [perform_deliver_eq_bind, perform_deliver_eq_bind]
    have hlookup := h.lookup position
    have hrecognizer := h.recognizer sender
    generalize session.registry.lookup position = found at hlookup
    generalize session'.registry.lookup position = found' at hlookup
    generalize session.recognizer sender = sent at hrecognizer
    generalize session'.recognizer sender = sent' at hrecognizer
    cases hlookup with
    | error e => exact .unanswered e
    | ok hl =>
      cases hrecognizer with
      | error e => exact .unanswered e
      | ok hr => exact .delivered (hdeliver hl hr event store)
  | _ => simp [Step.sends] at hstep

theorem perform_deliver_replace {position sender : Nat} {event : Event} {store : Store}
    (hdeliver : ∀ l r, session.registry.lookup position = .ok l →
      session.recognizer sender = .ok r →
        same (r.deliver event l store) ((r.replace f).deliver event (f l) store)) :
    Course.Agree same (session.perform store (.deliver position sender event))
      ((session.replace f).perform store (.deliver position sender event)) := by
  have hl' : (session.replace f).registry.lookup position = _ :=
    session.registry.lookup_replace f position
  rw [perform_deliver_eq_bind, perform_deliver_eq_bind, hl', recognizer_replace]
  cases hl : session.registry.lookup position with
  | error e => exact .unanswered e
  | ok l =>
    cases hr : session.recognizer sender with
    | error e => exact .unanswered e
    | ok r => exact .delivered (hdeliver l r hl hr)

theorem forall₂_run_replace (hstore : ∀ run run', same run run' → run.store = run'.store)
    (hdeliver : ∀ position sender l r,
      session.registry.lookup position = .ok l → session.recognizer sender = .ok r →
        ∀ event store, same (r.deliver event l store) ((r.replace f).deliver event (f l) store))
    {steps : List Step} (hsteps : ∀ step ∈ steps, step.sends = true) (store : Store) :
    List.Forall₂ (Course.Agree same) (session.run steps store)
      ((session.replace f).run steps store) := by
  refine (agree_run hstore (fun step hstep store => ?_) store).1
  cases step with
  | deliver position sender event =>
    exact perform_deliver_replace fun l r hl hr => hdeliver position sender l r hl hr event store
  | _ => simpa [Step.sends] using hsteps _ hstep

theorem forall₂_run_related {R : Listener → Listener → Prop} (h : session.Related R session')
    (hstore : ∀ run run', same run run' → run.store = run'.store)
    (hdeliver : ∀ {l l' : Listener} {r r' : Recognizer}, R l l' → r.Related R r' →
      ∀ event store, same (r.deliver event l store) (r'.deliver event l' store))
    {steps : List Step} (hsteps : ∀ step ∈ steps, step.sends = true) (store : Store) :
    List.Forall₂ (Course.Agree same) (session.run steps store) (session'.run steps store) :=
  (agree_run hstore
    (fun step hstep store => perform_related h hdeliver (hsteps step hstep) store) store).1

end Session

end ParseListeners
