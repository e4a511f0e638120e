import ParseListeners.Proofs.Replacement
import ParseListeners.Proofs.Retelling
import ParseListeners.Proofs.Steps

/-!
# Ambiguities that are not exact

A diagnostic listener can be told to leave out ambiguities that are not exact.  This matters for
these events and for no others (`Session.run_exactOnly`): as long as all events that are sent are
such ambiguities, a listener that is told so could as well do nothing; and as long as none is, it
could as well have been told nothing.

`Listener.mapLeaves` exchanges leaves wherever they stand in a tree.  The exchanged leaves are
called in place of the others, and nothing else changes, if they hand back the same messages and do
the same by themselves (`Recognizer.deliver_mapLeaves`).
-/

namespace ParseListeners

/-! ### Other leaves -/

namespace Listener

mutual

/-- The tree with other leaves. -/
def mapLeaves (f : Leaf → Leaf) : Listener → Listener
  | .leaf l => .leaf (f l)
  | .fanOut policy delegates => .fanOut policy (mapLeavesEach f delegates)

/-- The trees with other leaves. -/
def mapLeavesEach (f : Leaf → Leaf) : List Listener → List Listener
  | [] => []
  | d :: ds => mapLeaves f d :: mapLeavesEach f ds

end

variable (f : Leaf → Leaf)

@[simp] theorem mapLeaves_leaf (l : Leaf) : (leaf l).mapLeaves f = .leaf (f l) := by
  rw [mapLeaves]

theorem mapLeaves_fanOut (policy : Policy) (ds : List Listener) :
    (fanOut policy ds).mapLeaves f = .fanOut policy (ds.map (mapLeaves f)) := by
  have h : mapLeavesEach f ds = ds.map (mapLeaves f) := by
    induction ds with
    | nil => rfl
    | cons d ds ih => rw [mapLeavesEach, ih, List.map_cons]
  rw [mapLeaves, h]

end Listener

/-- The entry with another leaf in a call. -/
def Entry.mapLeaf (f : Leaf → Leaf) : Entry → Entry
  | .called leaf origin event => .called (f leaf) origin event
  | e => e

theorem Entry.mapLeaf_of_not_called (f : Leaf → Leaf) {e : Entry}
    (h : e.isWork = true ∨ ∃ failure, e = .failed failure) : e.mapLeaf f = e := by
  rcases h with h | ⟨failure, rfl⟩
  · cases e with
    | called leaf origin event => simp [isWork] at h
    | _ => rfl
  · rfl

/-- The same comes out of two runs, all listeners remember the same and the same happens, except
that the second one has other leaves called; the host program cannot tell them apart. -/
structure Run.SameUpTo (f : Leaf → Leaf) (run run' : Run (Except Failure Unit)) : Prop where
  /-- The same comes out. -/
  result : run.result = run'.result
  /-- The same happens, with other leaves. -/
  journal : run.journal.map (Entry.mapLeaf f) = run'.journal
  /-- The host program sees the same, with trace records and without. -/
  observed : ∀ tracing, observed tracing run.journal = observed tracing run'.journal
  /-- All listeners remember the same. -/
  store : run.store = run'.store

namespace Recognizer

theorem notifyBy_replace (r : Recognizer) (g : Listener → Listener)
    (send : SyntaxError → Listener → Action) (m : String) :
    (r.replace g).notifyBy send m = r.notifyBy (fun e l => send e (g l)) m := by
  have hanswer : r.forward? m = none → (r.replace g).answer m = r.answer m := by
    intro hforward
    cases hr : r.reply with
    | accept => simp only [answer, replace, hr, Reply.map]
    | refuse cause => simp only [answer, replace, hr, Reply.map]
    | forward target line column token => simp [forward?, hr] at hforward
  rw [notifyBy, notifyBy, forward?_replace]
  cases hforward : r.forward? m with
  | some found => rfl
  | none => simp only [Option.map_none, hanswer hforward]; rfl

variable {f : Leaf → Leaf} {r : Recognizer} {event : Event}

theorem deliver_mapLeaves_leaf {leaf : Leaf}
    (htake : (f leaf).take r.toOrigin event = leaf.take r.toOrigin event)
    (hmessage : (f leaf).message? r.toOrigin event = leaf.message? r.toOrigin event)
    (hnotify : ∀ m, leaf.message? r.toOrigin event = some m →
      (r.notify m).retell (fun e => [e.mapLeaf f]) =
        (r.replace (Listener.mapLeaves f)).notify m) :
    (r.deliver event (.leaf leaf)).retell (fun e => [e.mapLeaf f]) =
      (r.replace (Listener.mapLeaves f)).deliver event (.leaf (f leaf)) := by
  have horigin : (r.replace (Listener.mapLeaves f)).toOrigin = r.toOrigin := rfl
  rw [deliver_leaf, deliver_leaf, Action.retell_andThen, horigin, hmessage, htake]
  congr 1
  cases hm : leaf.message? r.toOrigin event with
  | some m => exact hnotify m hm
  | none =>
    refine Action.retell_eq_self fun s e he => ?_
    rw [Entry.mapLeaf_of_not_called f (Leaf.isWork_or_failed_of_mem_take he)]

theorem deliver_mapLeaves_of_leaves
    (hleaf : ∀ leaf, (r.deliver event (.leaf leaf)).retell (fun e => [e.mapLeaf f]) =
      (r.replace (Listener.mapLeaves f)).deliver event (.leaf (f leaf))) (l : Listener) :
    (r.deliver event l).retell (fun e => [e.mapLeaf f]) =
      (r.replace (Listener.mapLeaves f)).deliver event (l.mapLeaves f) := by
  let told (l : Listener) : Action :=
    (r.replace (Listener.mapLeaves f)).deliver event (l.mapLeaves f)
  refine retell_deliver told (fun leaf => ?_) (fun policy ds => ?_) l
  · simp only [told, Listener.mapLeaves_leaf, hleaf]
  · simp only [told, Listener.mapLeaves_fanOut, deliver_fanOut, List.length_map, List.map_map,
      Listener.announce]
    rw [Action.retell_note rfl]
    rfl

/-- **Other leaves are called in the places of the leaves of a tree**, if they hand back the same
messages and otherwise do the same by themselves. -/
theorem deliver_mapLeaves (htake : ∀ leaf origin event,
      (f leaf).take origin event = leaf.take origin event)
    (hmessage : ∀ leaf, (f leaf).message? r.toOrigin event = leaf.message? r.toOrigin event)
    (l : Listener) :
    (r.deliver event l).retell (fun e => [e.mapLeaf f]) =
      (r.replace (Listener.mapLeaves f)).deliver event (l.mapLeaves f) := by
  -- nothing is handed back on a syntax error
  have hsyntaxError : ∀ e l, (r.deliver (.syntaxError e) l).retell (fun e => [e.mapLeaf f]) =
      (r.replace (Listener.mapLeaves f)).deliver (.syntaxError e) (l.mapLeaves f) :=
    fun e => deliver_mapLeaves_of_leaves fun leaf =>
      deliver_mapLeaves_leaf (htake leaf _ _) rfl (by simp)
  have hnotify : ∀ m, (r.notify m).retell (fun e => [e.mapLeaf f]) =
      (r.replace (Listener.mapLeaves f)).notify m := by
    intro m
    rw [notify_eq_notifyBy, retell_notifyBy (fun _ => rfl) (fun _ => rfl), notify_eq_notifyBy,
      notifyBy_replace]
    simp only [hsyntaxError]
  exact deliver_mapLeaves_of_leaves (fun leaf =>
    deliver_mapLeaves_leaf (htake leaf _ _) (hmessage leaf) fun m _ => hnotify m) l

end Recognizer

/-! ### Diagnostic listeners for exact ambiguities alone -/

/-- The step sends an ambiguity that is not exact. -/
def Step.isInexact : Step → Bool
  | .deliver _ _ (.report report) => report.isInexact
  | _ => false

/-- The leaf; or `other`, in the place of a diagnostic listener that leaves out ambiguities that are
not exact. -/
def Leaf.inPlaceOf (other leaf : Leaf) : Leaf :=
  match leaf with
  | .diagnostic d => if d.exactOnly then other else .diagnostic d
  | leaf => leaf

/-- The session with `other` in the place of each diagnostic listener that leaves out ambiguities
that are not exact: of those that events are sent to, of delegates of fan-outs, and of those that
messages are forwarded to. -/
def Session.exchange (other : Leaf) (s : Session) : Session :=
  s.replace (Listener.mapLeaves other.inPlaceOf)

namespace Leaf

theorem inPlaceOf_cases (other leaf : Leaf) :
    other.inPlaceOf leaf = leaf ∨
      ∃ d, leaf = .diagnostic d ∧ d.exactOnly = true ∧ other.inPlaceOf leaf = other := by
  cases leaf with
  | diagnostic d =>
    cases hd : d.exactOnly with
    | true => exact .inr ⟨d, rfl, hd, by simp [inPlaceOf, hd]⟩
    | false => exact .inl (by simp [inPlaceOf, hd])
  | _ => exact .inl rfl

variable {other : Leaf}

theorem take_inPlaceOf (hother : ∀ origin event, other.take origin event = .done) (leaf : Leaf)
    (origin : Origin) (event : Event) :
    (other.inPlaceOf leaf).take origin event = leaf.take origin event := by
  rcases other.inPlaceOf_cases leaf with heq | ⟨d, rfl, -, heq⟩
  · rw [heq]
  · rw [heq, hother]
    rfl

/-- A listener that does nothing hands back what is handed back of an ambiguity that is not exact by
one that leaves it out. -/
theorem message?_null_inPlaceOf {report : Report} (h : report.isInexact = true) (leaf : Leaf)
    (origin : Origin) :
    (null.inPlaceOf leaf).message? origin (.report report) =
      leaf.message? origin (.report report) := by
  rcases null.inPlaceOf_cases leaf with heq | ⟨d, rfl, hd, heq⟩
  · rw [heq]
  · have hskips : d.skips report = true := by simp [Diagnostic.skips, hd, h]
    rw [heq]
    simp [message?, hskips]

theorem message?_diagnostic_inPlaceOf {event : Event}
    (h : ∀ report, event = .report report → report.isInexact = false) (leaf : Leaf)
    (origin : Origin) :
    ((diagnostic ⟨false⟩).inPlaceOf leaf).message? origin event = leaf.message? origin event := by
  rcases (diagnostic ⟨false⟩).inPlaceOf_cases leaf with heq | ⟨d, rfl, -, heq⟩
  · rw [heq]
  · rw [heq]
    cases event with
    | syntaxError e => rfl
    | report report => simp [message?, Diagnostic.skips, h report rfl]

end Leaf

theorem observed_map_inPlaceOf {other : Leaf} {tracing : Bool}
    (hother : ∀ origin event, (Entry.called other origin event).isObserved tracing = false)
    (journal : List Entry) :
    observed tracing (journal.map (Entry.mapLeaf other.inPlaceOf)) = observed tracing journal := by
  have hentry : ∀ e : Entry, (e.mapLeaf other.inPlaceOf).isObserved tracing = e.isObserved tracing ∧
      (e.isObserved tracing = true → e.mapLeaf other.inPlaceOf = e) := by
    intro e
    cases e with
    | called leaf origin event =>
      rcases other.inPlaceOf_cases leaf with heq | ⟨d, rfl, -, heq⟩
      · simp [Entry.mapLeaf, heq]
      · simp only [Entry.mapLeaf, heq, hother]
        exact ⟨rfl, fun h => absurd h (by simp [Entry.isObserved])⟩
    | _ => exact ⟨rfl, fun _ => rfl⟩
  have hsame : Entry.isObserved tracing ∘ Entry.mapLeaf other.inPlaceOf =
      Entry.isObserved tracing := by
    funext e
    exact (hentry e).1
  rw [observed, List.filter_map, hsame, observed]
  refine (List.map_congr_left fun e he => ?_).trans (List.map_id _)
  exact (hentry e).2 (List.mem_filter.1 he).2

namespace Recognizer

/-- A dispatch is the same with another leaf in the places of diagnostic listeners, if it does
nothing by itself and hands back the same messages. -/
theorem sameUpTo_deliver_inPlaceOf {other : Leaf} {r : Recognizer} {event : Event}
    (htake : ∀ origin event, other.take origin event = .done)
    (hunseen : ∀ tracing origin event,
      (Entry.called other origin event).isObserved tracing = false)
    (hmessage : ∀ leaf, (other.inPlaceOf leaf).message? r.toOrigin event =
      leaf.message? r.toOrigin event) (l : Listener) (s : Store) :
    (r.deliver event l s).SameUpTo other.inPlaceOf
      ((r.replace (Listener.mapLeaves other.inPlaceOf)).deliver event
        (l.mapLeaves other.inPlaceOf) s) := by
  rw [← deliver_mapLeaves (Leaf.take_inPlaceOf htake) hmessage]
  have hjournal : ∀ journal : List Entry, (journal.flatMap fun e => [e.mapLeaf other.inPlaceOf]) =
      journal.map (Entry.mapLeaf other.inPlaceOf) := fun journal => List.map_eq_flatMap.symm
  refine ⟨rfl, (hjournal _).symm, fun tracing => ?_, rfl⟩
  exact ((congrArg (observed tracing) (hjournal _)).trans
    (observed_map_inPlaceOf (hunseen tracing) _)).symm

end Recognizer

namespace Session

theorem agree_perform_null (session : Session) {step : Step} (h : step.isInexact = true)
    (store : Store) :
    Course.Agree (Run.SameUpTo (Leaf.inPlaceOf .null)) (session.perform store step)
      ((session.exchange .null).perform store step) := by
  cases step with
  | deliver position sender event =>
    cases event with
    | syntaxError e => simp [Step.isInexact] at h
    | report report =>
      refine perform_deliver_replace fun l r _ _ => ?_
      exact r.sameUpTo_deliver_inPlaceOf (fun _ _ => rfl) (fun _ _ _ => rfl)
        (fun leaf => Leaf.message?_null_inPlaceOf h leaf _) l store
  | _ => simp [Step.isInexact] at h

theorem agree_perform_diagnostic (session : Session) {step : Step} (hsends : step.sends = true)
    (h : step.isInexact = false) (store : Store) :
    Course.Agree (Run.SameUpTo (Leaf.inPlaceOf (.diagnostic ⟨false⟩))) (session.perform store step)
      ((session.exchange (.diagnostic ⟨false⟩)).perform store step) := by
  cases step with
  | deliver position sender event =>
    refine perform_deliver_replace fun l r _ _ => ?_
    refine r.sameUpTo_deliver_inPlaceOf (fun _ _ => rfl) (fun _ _ _ => rfl) (fun leaf => ?_) l store
    refine Leaf.message?_diagnostic_inPlaceOf ?_ leaf _
    rintro report rfl
    exact h
  | _ => simp [Step.sends] at hsends

/-- **The choice to leave out ambiguities that are not exact matters for these alone.**  As long as
all events that are sent are such ambiguities, the diagnostic listeners that leave them out could as
well do nothing.  As long as none is, these listeners could as well leave out nothing.  That is,
each event has the same result, the same happens, whatever follows from the reports that are let
through, the host program sees the same and all listeners remember the same. -/
theorem run_exactOnly (session : Session) (steps : List Step) (store : Store) :
    ((∀ step ∈ steps, step.isInexact = true) →
      List.Forall₂ (Course.Agree (Run.SameUpTo (Leaf.inPlaceOf .null))) (session.run steps store)
          ((session.exchange .null).run steps store) ∧
        (session.exchange .null).storeAfter steps store = session.storeAfter steps store) ∧
    ((∀ step ∈ steps, step.sends = true ∧ step.isInexact = false) →
      List.Forall₂ (Course.Agree (Run.SameUpTo (Leaf.inPlaceOf (.diagnostic ⟨false⟩))))
          (session.run steps store)
          ((session.exchange (.diagnostic ⟨false⟩)).run steps store) ∧
        (session.exchange (.diagnostic ⟨false⟩)).storeAfter steps store =
          session.storeAfter steps store) := by
  have hstore : ∀ (f : Leaf → Leaf) run run', Run.SameUpTo f run run' → run.store = run'.store :=
    fun _ _ _ h => h.store
  refine ⟨fun hsteps => ?_, fun hsteps => ?_⟩
  · have hperform := fun step hstep => session.agree_perform_null (hsteps step hstep)
    exact agree_run (hstore _) hperform store
  · have hperform := fun step hstep =>
      session.agree_perform_diagnostic (hsteps step hstep).1 (hsteps step hstep).2
    exact agree_run (hstore _) hperform store

/-- A diagnostic listener that leaves out ambiguities that are not exact, and a recognizer that
forwards messages to it and to a listener of the host program, which they make fail. -/
def selective : Session :=
  let tree : Listener := .fanOut .collectAll
    [.leaf (.diagnostic ⟨true⟩), .leaf (.host 0 (.failing "strict" [.syntaxError] none 0)),
      .leaf (.collector 1)]
  let origin : Origin := .ofTexts 0 "Expr.g4" ["expr"] ["a", "b"] " "
  ⟨⟨[.ok tree]⟩, [{ toOrigin := origin, reply := .forward tree 1 0 none }]⟩

/-- A report on a decision is sent to it. -/
def reporting (finding : Finding) : Step :=
  .deliver 0 0 <| .report
    { decision := ⟨3, 0⟩, start := 0, stop := 1, configurations := .empty true, finding := finding }

theorem run_exactOnly_selective :
    let vague := [reporting (.ambiguity false ∅), reporting (.ambiguity false ∅)]
    let plain := [reporting (.ambiguity true ∅), reporting (.fullContext ∅)]
    (∀ step ∈ vague, step.isInexact = true) ∧
      (selective.exchange .null).storeAfter vague .empty = selective.storeAfter vague .empty ∧
      (∀ step ∈ plain, step.sends = true ∧ step.isInexact = false) ∧
      List.Forall₂ (Course.Agree (Run.SameUpTo (Leaf.inPlaceOf (.diagnostic ⟨false⟩))))
        (selective.run plain .empty)
        ((selective.exchange (.diagnostic ⟨false⟩)).run plain .empty) := by
  intro vague plain
  have hvague : ∀ step ∈ vague, step.isInexact = true := by
    simp [vague, reporting, Step.isInexact, Report.isInexact]
  have hplain : ∀ step ∈ plain, step.sends = true ∧ step.isInexact = false := by
    simp [plain, reporting, Step.sends, Step.isInexact, Report.isInexact]
  obtain ⟨hnull, -⟩ := run_exactOnly selective vague .empty
  obtain ⟨-, hdiagnostic⟩ := run_exactOnly selective plain .empty
  exact ⟨hvague, (hnull hvague).2, hplain, (hdiagnostic hplain).1⟩

end Session

end ParseListeners
