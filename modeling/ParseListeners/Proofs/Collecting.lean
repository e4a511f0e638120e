import ParseListeners.Proofs.Accounting
import ParseListeners.Proofs.Memories
import ParseListeners.Proofs.Steps

/-!
# The books of a collecting listener

A collecting listener makes one record of each event that is delivered to it, and keeps the records
until it is told to hand them out.  So its books balance over any run of a session
(`Session.run_balances`): what it held at first and what has been delivered to it since is what it
has handed out and what it holds now, in the same order.

Deliveries are read off the calls that journals record (`Entry.delivered?`), those within
notifications included, and not off memories.
-/

namespace ParseListeners

theorem Recognizer.result_of_call_collector (r : Recognizer) (event : Event) (l : Listener)
    (s : Store) {id : Nat} : ∀ a ∈ r.attempts event l s, ∀ origin e,
      a.call = .leaf (.collector id) origin e → a.result = .ok () := by
  refine forall_mem_attempts (fun leaf event t origin e h => ?_) (fun m t origin e h => ?_) event
    l s
  · obtain ⟨rfl, -, -⟩ := Call.leaf.inj h
    rw [deliver_leaf_of_none (by cases event <;> rfl)]
    rfl
  · cases h

namespace Session

/-! ### Steps -/

/-- The events that are delivered to the collecting listener `id` in the course of a step. -/
def delivered (id : Nat) : Except LookupError (Run Answer) → List Event
  | .ok done => done.journal.filterMap (Entry.delivered? id)
  | .error _ => []

/-- The records that the collecting listener `id` hands out in a step, which its answer shows. -/
def handedOut (s : Session) (id : Nat) : Step × Except LookupError (Run Answer) → List Recorded
  | (.take position, .ok ⟨.events recorded, _, _⟩) =>
    if (s.collector position).toOption = some id then recorded else []
  | _ => []

theorem handedOut_of_looks {s : Session} {step : Step} (h : step.looks = true) (id : Nat)
    (course : Except LookupError (Run Answer)) : s.handedOut id (step, course) = [] := by
  cases step with
  | take position => simp [Step.looks] at h
  | _ => rfl

theorem handedOut_error (s : Session) (id : Nat) (step : Step) (e : LookupError) :
    s.handedOut id (step, .error e) = [] := by
  cases step <;> rfl

/-- The books balance over a step: what a collecting listener held before and what is delivered to
it is what it hands out and what it holds afterwards. -/
theorem balances_perform (s : Session) (id : Nat) (store : Store) (step : Step) :
    (store.get id).recorded ++ (delivered id (s.perform store step)).map .ofEvent =
      s.handedOut id (step, s.perform store step) ++
        ((s.storeAfter [step] store).get id).recorded := by
  cases h : s.perform store step with
  | error e =>
    rw [storeAfter_of_error h, handedOut_error]
    simp [delivered]
  | ok done =>
    rw [storeAfter_of_ok h]
    rcases perform_cases h with
      ⟨position, sender, event, l, r, rfl, hl, hr, rfl⟩ | ⟨position, id', rfl, hc, rfl⟩ |
      ⟨hlooks, answer, rfl⟩
    · exact (r.recorded_deliver event l store id).symm
    · by_cases hid : id' = id
      · subst hid
        simp [delivered, handedOut, hc, Except.toOption]
      · simp [delivered, handedOut, hc, Except.toOption, Store.get_set, hid, Ne.symm hid]
    · rw [handedOut_of_looks hlooks]
      simp [delivered]

/-! ### Runs -/

theorem balances_run (s : Session) (id : Nat) (steps : List Step) (store : Store) :
    (store.get id).recorded ++ ((s.run steps store).flatMap (delivered id)).map .ofEvent =
      (steps.zip (s.run steps store)).flatMap (s.handedOut id) ++
        ((s.storeAfter steps store).get id).recorded := by
  induction steps generalizing store with
  | nil => simp [run, storeAfter]
  | cons step steps ih =>
    have hstep := s.balances_perform id store step
    have hrest := ih (s.storeAfter [step] store)
    rw [run_cons, List.zip_cons_cons, List.flatMap_cons, List.flatMap_cons, List.map_append,
      ← List.append_assoc, hstep, List.append_assoc, hrest, List.append_assoc]
    rfl

/-- **The books of a collecting listener balance.**  Whatever the steps of a run: the records that a
collecting listener held at first, with one for each event that has been delivered to it since, are
those that it has handed out and those that it holds now, in order.  To look at these, or to count
them, changes nothing; to hand them out leaves it with none, and others with what they hold.  And no
delivery to it ever fails, in whatever dispatch. -/
theorem run_balances (session : Session) (steps : List Step) (store : Store) (id : Nat) :
    let courses := session.run steps store
    let now := session.storeAfter steps store
    let held := (now.get id).recorded
    (store.get id).recorded ++ (courses.flatMap (delivered id)).map .ofEvent =
        (steps.zip courses).flatMap (session.handedOut id) ++ held ∧
      (∀ position, session.collector position = .ok id →
        session.perform now (.events position) = .ok ⟨.events held, [], now⟩ ∧
        session.perform now (.counts position) =
          .ok ⟨.counts held.length held.isEmpty (held.countP Recorded.isSyntaxError), [], now⟩ ∧
        ∃ later, session.perform now (.take position) = .ok ⟨.events held, [], later⟩ ∧
          (later.get id).recorded = [] ∧ ∀ other, other ≠ id → later.get other = now.get other) ∧
      ∀ (r : Recognizer) event l t, ∀ a ∈ r.attempts event l t, ∀ origin e,
        a.call = .leaf (.collector id) origin e → a.result = .ok () := by
  intro courses now held
  refine ⟨session.balances_run id steps store, fun position hc => ?_,
    fun r event l t => r.result_of_call_collector event l t⟩
  refine ⟨by simp only [perform, hc]; rfl, by simp only [perform, hc]; rfl, _,
    by simp only [perform, hc]; rfl, by simp, fun other hother => ?_⟩
  rw [Store.get_set, if_neg hother]

/-- A collecting listener below two fan-outs, twice below the second one, to which a recognizer
forwards messages. -/
def shared : Session :=
  let collector : Listener := .leaf (.collector 0)
  let first : Listener := .fanOut .failFast [.leaf (.diagnostic ⟨false⟩), collector]
  let second : Listener := .fanOut .collectAll [collector, collector]
  let origin : Origin := .ofTexts 0 "Expr.g4" ["expr"] ["a", "b"] " "
  ⟨⟨[.ok collector, .ok first, .ok second]⟩,
    [{ toOrigin := origin, reply := .forward second 1 0 none }]⟩

/-- The report and the message that it becomes are handed out, the syntax error is still held. -/
theorem run_balances_shared :
    shared.collector 0 = .ok 0 ∧ ∀ (report : Report) (e : SyntaxError),
      let steps := [Step.deliver 1 0 (.report report), .take 0, .deliver 2 0 (.syntaxError e)]
      let courses := shared.run steps .empty
      let now := shared.storeAfter steps .empty
      let held := [Recorded.ofSyntaxError e, Recorded.ofSyntaxError e]
      ((courses.flatMap (delivered 0)).map .ofEvent =
          (steps.zip courses).flatMap (shared.handedOut 0) ++ held) ∧
        ((steps.zip courses).flatMap (shared.handedOut 0)).length = 3 ∧
        shared.perform now (.events 0) = .ok ⟨.events held, [], now⟩ := by
  refine ⟨rfl, fun report e => ?_⟩
  intro steps courses now held
  obtain ⟨hbooks, hlook, -⟩ := run_balances shared steps .empty 0
  exact ⟨hbooks, rfl, (hlook 0 rfl).1⟩

end Session

end ParseListeners
