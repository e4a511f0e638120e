import ParseListeners.Proofs.Flattening
import ParseListeners.Proofs.Rewriting
import ParseListeners.Proofs.Steps

/-!
# Listeners that make no difference

Two rules for trees keep all that a dispatch does, apart from trace records:

* a listener that does nothing may be put among the delegates of a fan-out, at any position
  (`Listener.WithIdle`);
* the listener at the end of a chain of fan-outs with a single delegate each may take the place of
  the chain (`Listener.Unwraps`).

They may be applied anywhere in a session (`Session.run_with_idle`, `Session.run_unwrapped`).
-/

namespace ParseListeners

/-! ### Listeners that do nothing -/

/-- The leaf does nothing with an event, or makes a trace record of it. -/
def Leaf.isIdle : Leaf → Bool
  | .null => true
  | .tracing => true
  | _ => false

/-- The entry is a trace record, or a call of a leaf that makes nothing but trace records. -/
def Entry.isIdle : Entry → Bool
  | .called leaf _ _ => leaf.isIdle
  | .traced _ => true
  | _ => false

/-- A leaf that does nothing is put among the delegates of a fan-out. -/
inductive Listener.WithIdle : Listener → Listener → Prop
  /-- It is put after the delegates `before`. -/
  | insert (policy : Policy) (before : List Listener) (leaf : Leaf) (h : leaf.isIdle = true)
    (after : List Listener) :
    WithIdle (.fanOut policy (before ++ after)) (.fanOut policy (before ++ .leaf leaf :: after))

/-- The host program cannot tell two dispatches apart, unless it looks at trace records.  Nor can
anybody else, unless he looks at calls of leaves that do nothing. -/
structure Run.SameToHost (run run' : Run (Except Failure Unit)) : Prop
    extends run.Alike (fun e => !e.isIdle) run' where
  /-- The host program sees the same. -/
  observed : observed false run.journal = observed false run'.journal

theorem observed_filter_not_isIdle (journal : List Entry) :
    observed false (journal.filter fun e => !e.isIdle) = observed false journal := by
  rw [observed, List.filter_filter]
  refine List.filter_congr fun e _ => ?_
  cases e with
  | called leaf origin event => cases leaf <;> simp [Entry.isObserved, Entry.isIdle, Leaf.isIdle]
  | _ => simp [Entry.isObserved, Entry.isIdle]

theorem Run.Alike.sameToHost {run run' : Run (Except Failure Unit)}
    (h : run.Alike (fun e => !e.isIdle) run') : run.SameToHost run' := by
  refine ⟨h, ?_⟩
  rw [← observed_filter_not_isIdle, h.journal, observed_filter_not_isIdle]

theorem Leaf.message?_of_isIdle {leaf : Leaf} (h : leaf.isIdle = true) (origin : Origin)
    (event : Event) : leaf.message? origin event = none := by
  cases leaf with
  | diagnostic d => simp [isIdle] at h
  | _ => cases event <;> rfl

namespace Recognizer

/-- Nothing is heard of a leaf that does nothing. -/
theorem alike_deliver_idle {leaf : Leaf} (h : leaf.isIdle = true) (r : Recognizer) (event : Event)
    (s : Store) : (r.deliver event (.leaf leaf) s).Alike (fun e => !e.isIdle) ⟨.ok (), [], s⟩ := by
  rw [deliver_leaf_of_none (leaf.message?_of_isIdle h r.toOrigin event)]
  cases leaf with
  | null => exact ⟨rfl, rfl, rfl⟩
  | tracing => exact ⟨rfl, rfl, rfl⟩
  | _ => simp [Leaf.isIdle] at h

theorem alike_deliver_withIdle {l l' : Listener} (h : l.WithIdle l') (r : Recognizer)
    (event : Event) (s : Store) :
    (r.deliver event l s).Alike (fun e => !e.isIdle) (r.deliver event l' s) := by
  obtain ⟨policy, before, leaf, hidle, after⟩ := h
  refine alike_deliver_fanOut_of_runEach (fun _ => rfl) (fun s => ?_) s
  simp only [List.map_append, List.map_cons]
  refine Policy.alike_runEach_append _ (fun s => ?_) s
  exact (Policy.alike_runEach_cons_idle (alike_deliver_idle hidle r event) _ s).symm

end Recognizer

theorem Course.Agree.imp {same same' : Run (Except Failure Unit) → Run (Except Failure Unit) → Prop}
    (himp : ∀ run run', same run run' → same' run run')
    {course course' : Except LookupError (Run Answer)} (h : Agree same course course') :
    Agree same' course course' := by
  cases h with
  | unanswered e => exact .unanswered e
  | delivered h => exact .delivered (himp _ _ h)

namespace Session

/-- The courses of those steps of a run that send events. -/
def sentCourses (s : Session) (steps : List Step) (store : Store) :
    List (Except LookupError (Run Answer)) :=
  ((steps.zip (s.run steps store)).filter fun (step, _) => step.sends).map Prod.snd

theorem sentCourses_eq_run (s : Session) {steps : List Step}
    (h : ∀ step ∈ steps, step.sends = true ∨ step = .startTracing) (store : Store) :
    s.sentCourses steps store = s.run (steps.filter Step.sends) store := by
  unfold sentCourses
  induction steps generalizing store with
  | nil => rfl
  | cons step steps ih =>
    rw [List.forall_mem_cons] at h
    rcases h with ⟨hstep | rfl, hsteps⟩
    · rw [List.filter_cons_of_pos hstep, run, run, List.zip_cons_cons]
      refine (congrArg (List.map Prod.snd) (List.filter_cons_of_pos hstep)).trans ?_
      rw [List.map_cons, ih hsteps]
    · exact ih hsteps store

variable {session session' : Session}

/-- **Listeners that do nothing make no difference.**  They may be put among the delegates of any
fan-outs of a session, of those that messages are forwarded to as well, as many as one likes and
at any positions; and trace records may be asked for between the steps.  Then each event that is
sent has the same result, the same happens apart from trace records, and all listeners remember the
same.  To ask for trace records does nothing by itself. -/
theorem run_with_idle (h : session.Related (Listener.Rewrites Listener.WithIdle) session')
    {steps : List Step} (hsteps : ∀ step ∈ steps, step.sends = true ∨ step = .startTracing)
    (store : Store) :
    List.Forall₂ (Course.Agree Run.SameToHost) (session.run (steps.filter Step.sends) store)
        (session'.sentCourses steps store) ∧
      ∀ k : Nat, steps[k]? = some .startTracing →
        (session'.run steps store)[k]? =
          some (.ok ⟨.nothing, [], session'.storeAfter (steps.take k) store⟩) := by
  refine ⟨?_, fun k hk => session'.getElem?_run hk store⟩
  rw [sentCourses_eq_run session' hsteps]
  have hsends : ∀ step ∈ steps.filter Step.sends, step.sends = true :=
    fun step hstep => (List.mem_filter.1 hstep).2
  have hrun := run_rewrites (fun _ => rfl)
    (fun h r event s => Recognizer.alike_deliver_withIdle h r event s) h hsends store
  exact hrun.imp fun _ _ hagree => hagree.imp fun _ _ halike => halike.sameToHost

/-- A fan-out with another one below it, to which a recognizer forwards messages: on a report a
diagnostic listener makes a listener of the host program fail. -/
def terse : Session :=
  let inner : Listener := .fanOut .failFast
    [.leaf (.diagnostic ⟨false⟩), .leaf (.host 0 (.failing "strict" [.syntaxError] none 0))]
  let outer : Listener := .fanOut .collectAll [inner, .leaf (.collector 1)]
  let origin : Origin := .ofTexts 0 "Expr.g4" ["expr"] ["a", "b"] " "
  ⟨⟨[.ok inner, .ok outer]⟩, [{ toOrigin := origin, reply := .forward outer 1 0 none }]⟩

/-- The same with listeners in between that do nothing. -/
def padded : Session :=
  let inner : Listener := .fanOut .failFast
    [.leaf (.diagnostic ⟨false⟩), .leaf .null,
      .leaf (.host 0 (.failing "strict" [.syntaxError] none 0))]
  let outer : Listener := .fanOut .collectAll
    [.leaf .tracing, inner, .leaf (.collector 1), .leaf .null]
  let origin : Origin := .ofTexts 0 "Expr.g4" ["expr"] ["a", "b"] " "
  ⟨⟨[.ok inner, .ok outer]⟩, [{ toOrigin := origin, reply := .forward outer 1 0 none }]⟩

theorem run_with_idle_padded :
    terse.Related (Listener.Rewrites Listener.WithIdle) padded ∧ ∀ first second store,
      let steps := [Step.startTracing, .deliver 1 0 first, .startTracing, .deliver 0 0 second]
      List.Forall₂ (Course.Agree Run.SameToHost)
          (terse.run [.deliver 1 0 first, .deliver 0 0 second] store)
          (padded.sentCourses steps store) ∧
        ∀ k : Nat, steps[k]? = some .startTracing →
          (padded.run steps store)[k]? =
            some (.ok ⟨.nothing, [], padded.storeAfter (steps.take k) store⟩) := by
  let host : Leaf := .host 0 (.failing "strict" [.syntaxError] none 0)
  -- one listener goes into the inner fan-out, and then two into the outer one
  have hinner : Listener.Rewrites Listener.WithIdle _ _ := .root
    (.insert .failFast [.leaf (.diagnostic ⟨false⟩)] .null rfl [.leaf host])
  have houter := Listener.Rewrites.delegate .collectAll [] hinner [.leaf (.collector 1)]
  have hfirst := houter.trans (.root (.insert .collectAll [] .tracing rfl _))
  have hlast := hfirst.trans
    (.root (.insert .collectAll [.leaf .tracing, _, .leaf (.collector 1)] .null rfl []))
  have h : terse.Related (Listener.Rewrites Listener.WithIdle) padded :=
    ⟨.cons (.ok hinner) (.cons (.ok hlast) .nil), .cons ⟨rfl, .forward hlast 1 0 none⟩ .nil⟩
  refine ⟨h, fun first second store => ?_⟩
  intro steps
  have hsteps : ∀ step ∈ steps, step.sends = true ∨ step = .startTracing := by
    simp [steps, Step.sends]
  exact run_with_idle h hsteps store

end Session

/-! ### Fan-outs with a single delegate -/

/-- Fan-outs with a single delegate each, one below the other, and a listener at the end. -/
def Listener.chain (policies : List Policy) (l : Listener) : Listener :=
  policies.foldr (fun policy d => .fanOut policy [d]) l

/-- The listener at the end of a chain takes the place of the chain. -/
inductive Listener.Unwraps : Listener → Listener → Prop
  /-- The fan-outs of the chain may have any policies. -/
  | chain (policies : List Policy) (l : Listener) : Unwraps (l.chain policies) l

namespace Recognizer

theorem alike_deliver_single (r : Recognizer) (event : Event) (policy : Policy) (l : Listener)
    (s : Store) :
    (r.deliver event (.fanOut policy [l]) s).Alike (fun e => !e.isTraced)
      (r.deliver event l s) := by
  refine (alike_deliver_fanOut (fun _ => rfl) r event policy [l] s).trans ?_
  rw [List.map_singleton, Policy.combine_singleton]
  exact .refl _

theorem alike_deliver_unwraps {l l' : Listener} (h : l.Unwraps l') (r : Recognizer) (event : Event)
    (s : Store) : (r.deliver event l s).Alike (fun e => !e.isTraced) (r.deliver event l' s) := by
  cases h with
  | chain policies =>
    induction policies with
    | nil => exact .refl _
    | cons policy policies ih => exact (alike_deliver_single r event policy _ s).trans ih

end Recognizer

namespace Session

variable {session session' : Session}

/-- **Fan-outs with a single delegate make no difference.**  Each chain of them may be replaced by
the listener at its end, wherever it occurs in a session: as a listener that events are sent to, as
a delegate, or as one that messages are forwarded to.  Then each event has the very same result, the
same happens apart from trace records, and all listeners remember the same. -/
theorem run_unwrapped (h : session.Related (Listener.Rewrites Listener.Unwraps) session')
    {steps : List Step} (hsteps : ∀ step ∈ steps, step.sends = true) (store : Store) :
    List.Forall₂ (Course.Agree (Run.Alike fun e => !e.isTraced)) (session.run steps store)
      (session'.run steps store) :=
  run_rewrites (fun _ => rfl) (fun h r event s => Recognizer.alike_deliver_unwraps h r event s) h
    hsteps store

/-- Chains of all kinds: events are sent to one, another one is a delegate, and messages are
forwarded to a third one. -/
def wrapped : Session :=
  let strict : Listener := .leaf (.host 0 (.failing "strict" [.syntaxError] none 0))
  let tree : Listener := .fanOut .collectAll
    [.leaf (.diagnostic ⟨false⟩), strict.chain [.failFast, .collectAll], strict]
  let origin : Origin := .ofTexts 0 "Expr.g4" ["expr"] ["a", "b"] " "
  ⟨⟨[.ok (tree.chain [.collectAll, .failFast])]⟩,
    [{ toOrigin := origin, reply := .forward (tree.chain [.collectAll]) 1 0 none }]⟩

/-- The same without chains. -/
def unwrapped : Session :=
  let strict : Listener := .leaf (.host 0 (.failing "strict" [.syntaxError] none 0))
  let tree : Listener := .fanOut .collectAll [.leaf (.diagnostic ⟨false⟩), strict, strict]
  let origin : Origin := .ofTexts 0 "Expr.g4" ["expr"] ["a", "b"] " "
  ⟨⟨[.ok tree]⟩, [{ toOrigin := origin, reply := .forward tree 1 0 none }]⟩

theorem run_unwrapped_chains :
    wrapped.Related (Listener.Rewrites Listener.Unwraps) unwrapped ∧ ∀ first second store,
      List.Forall₂ (Course.Agree (Run.Alike fun e => !e.isTraced))
        (wrapped.run [.deliver 0 0 first, .deliver 0 0 second] store)
        (unwrapped.run [.deliver 0 0 first, .deliver 0 0 second] store) := by
  let strict : Listener := .leaf (.host 0 (.failing "strict" [.syntaxError] none 0))
  have htree := Listener.Rewrites.delegate .collectAll [.leaf (.diagnostic ⟨false⟩)]
    (.root (Listener.Unwraps.chain [.failFast, .collectAll] strict)) [strict]
  have htarget := Listener.Rewrites.trans
    (.root (Listener.Unwraps.chain [.collectAll, .failFast] _)) htree
  have hforward := Listener.Rewrites.trans (.root (Listener.Unwraps.chain [.collectAll] _)) htree
  have h : wrapped.Related (Listener.Rewrites Listener.Unwraps) unwrapped :=
    ⟨.cons (.ok htarget) .nil, .cons ⟨rfl, .forward hforward 1 0 none⟩ .nil⟩
  refine ⟨h, fun first second store => run_unwrapped h ?_ store⟩
  simp [Step.sends]

end Session

end ParseListeners
