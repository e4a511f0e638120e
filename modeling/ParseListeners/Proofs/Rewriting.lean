import ParseListeners.Proofs.Replacement
import ParseListeners.Proofs.Sequencing
import ParseListeners.Proofs.Trees

/-!
# Rewriting trees of listeners

A rule says which tree may be put in the place of which other one.  `Listener.Rewrites` applies a
rule anywhere in a tree and any number of times.

Two runs are alike if they differ in entries that are not heard and in nothing else (`Run.Alike`).
A rule that keeps dispatches alike may be applied below any fan-outs, whatever their policies
(`Recognizer.alike_deliver_of_rewrites`), and in all trees of a session, those that messages are
forwarded to included (`Session.run_rewrites`).
-/

namespace ParseListeners

/-! ### Rules -/

/-- A rule is applied somewhere in a tree, any number of times. -/
inductive Listener.Rewrites (rule : Listener → Listener → Prop) : Listener → Listener → Prop
  /-- It is applied nowhere. -/
  | refl (l : Listener) : Rewrites rule l l
  /-- It is applied to the whole tree. -/
  | root {l l' : Listener} (h : rule l l') : Rewrites rule l l'
  /-- It is applied to a delegate of a fan-out. -/
  | delegate (policy : Policy) (before : List Listener) {d d' : Listener} (h : Rewrites rule d d')
    (after : List Listener) :
    Rewrites rule (.fanOut policy (before ++ d :: after)) (.fanOut policy (before ++ d' :: after))
  /-- It is applied first here and then there. -/
  | trans {l l' l'' : Listener} (h : Rewrites rule l l') (h' : Rewrites rule l' l'') :
    Rewrites rule l l''

/-! ### Runs that are alike -/

/-- The same comes out of two runs and all listeners remember the same; apart from entries that are
not heard, the same happens. -/
structure Run.Alike {α : Type} (heard : Entry → Bool) (run run' : Run α) : Prop where
  /-- The same comes out. -/
  result : run.result = run'.result
  /-- The entries that are heard are the same. -/
  journal : run.journal.filter heard = run'.journal.filter heard
  /-- All listeners remember the same. -/
  store : run.store = run'.store

namespace Run.Alike

variable {α β : Type} {heard : Entry → Bool} {run run' run'' : Run α}

theorem refl (run : Run α) : run.Alike heard run := ⟨rfl, rfl, rfl⟩

theorem symm (h : run.Alike heard run') : run'.Alike heard run :=
  ⟨h.result.symm, h.journal.symm, h.store.symm⟩

theorem trans (h : run.Alike heard run') (h' : run'.Alike heard run'') :
    run.Alike heard run'' :=
  ⟨h.result.trans h'.result, h.journal.trans h'.journal, h.store.trans h'.store⟩

theorem map (h : run.Alike heard run') (f : α → β) :
    Alike heard { run with result := f run.result } { run' with result := f run'.result } :=
  ⟨congrArg f h.result, h.journal, h.store⟩

theorem prepend (h : run.Alike heard run') (start : List Entry) :
    Alike heard { run with journal := start ++ run.journal }
      { run' with journal := start ++ run'.journal } := by
  refine ⟨h.result, ?_, h.store⟩
  simp only [List.filter_append, h.journal]

theorem congruence : Run.Congruence (Run.Alike heard) where
  refl := refl
  prepend h start := h.prepend start
  relay h := h.map (Except.mapError Failure.relayed)

end Run.Alike

/-! ### Actions under a policy -/

namespace Policy

variable {heard : Entry → Bool} {policy : Policy} {a b : Action} {as bs : List Action}

theorem alike_runEach_cons (ha : ∀ s, (a s).Alike heard (b s))
    (has : ∀ s, (policy.runEach as s).Alike heard (policy.runEach bs s)) (s : Store) :
    (policy.runEach (a :: as) s).Alike heard (policy.runEach (b :: bs) s) := by
  obtain ⟨hresult, hjournal, hstore⟩ := ha s
  have hfailure : (a s).failure? = (b s).failure? := by simp only [Run.failure?, hresult]
  cases hgo : policy.goesOn (a s).result with
  | true =>
    rw [runEach_cons_of_goesOn hgo, runEach_cons_of_goesOn (hresult ▸ hgo), hfailure, ← hstore]
    obtain ⟨hresults, hjournals, hstores⟩ := has (a s).store
    refine ⟨by rw [hresults], ?_, hstores⟩
    simp only [List.filter_append, hjournal, hjournals]
  | false =>
    rw [runEach_cons_of_stops hgo, runEach_cons_of_stops (hresult ▸ hgo), hfailure]
    exact ⟨rfl, hjournal, hstore⟩

theorem alike_runEach_append (xs : List Action)
    (h : ∀ s, (policy.runEach as s).Alike heard (policy.runEach bs s)) (s : Store) :
    (policy.runEach (xs ++ as) s).Alike heard (policy.runEach (xs ++ bs) s) := by
  induction xs generalizing s with
  | nil => exact h s
  | cons x xs ih => exact alike_runEach_cons (fun s => .refl (x s)) ih s

theorem alike_runEach_cons_idle (ha : ∀ s, (a s).Alike heard ⟨.ok (), [], s⟩) (as : List Action)
    (s : Store) : (policy.runEach (a :: as) s).Alike heard (policy.runEach as s) := by
  obtain ⟨hresult, hjournal, hstore⟩ := ha s
  have hgo : policy.goesOn (a s).result = true := by rw [hresult]; cases policy <;> rfl
  rw [runEach_cons_of_goesOn hgo, Run.failure?_of_ok hresult, hstore]
  exact ⟨rfl, by simp only [List.filter_append, hjournal]; rfl, rfl⟩

theorem alike_combine (h : ∀ s, (policy.runEach as s).Alike heard (policy.runEach bs s))
    (s : Store) : (policy.combine as s).Alike heard (policy.combine bs s) := by
  rw [combine_eq_runEach, combine_eq_runEach]
  exact (h s).map Failure.gather

end Policy

/-! ### Dispatches -/

namespace Recognizer

variable {heard : Entry → Bool} {r r' : Recognizer} {event : Event} {policy : Policy}
  {ds ds' : List Listener} {l l' : Listener}

/-- Of a fan-out its delegates are heard, if trace records are not. -/
theorem alike_deliver_fanOut (htraced : ∀ record, heard (.traced record) = false) (r : Recognizer)
    (event : Event) (policy : Policy) (ds : List Listener) (s : Store) :
    (r.deliver event (.fanOut policy ds) s).Alike heard
      (policy.combine (ds.map (r.deliver event)) s) := by
  rw [deliver_fanOut]
  refine ⟨rfl, ?_, rfl⟩
  exact List.filter_cons_of_neg (by simp [htraced])

theorem alike_deliver_fanOut_of_runEach (htraced : ∀ record, heard (.traced record) = false)
    (h : ∀ s, (policy.runEach (ds.map (r.deliver event)) s).Alike heard
      (policy.runEach (ds'.map (r'.deliver event)) s)) (s : Store) :
    (r.deliver event (.fanOut policy ds) s).Alike heard
      (r'.deliver event (.fanOut policy ds') s) :=
  (alike_deliver_fanOut htraced r event policy ds s).trans
    ((Policy.alike_combine h s).trans (alike_deliver_fanOut htraced r' event policy ds' s).symm)

theorem alike_deliver_fanOut_of_delegates (htraced : ∀ record, heard (.traced record) = false)
    (hds : ∀ d ∈ ds, ∀ s, (r.deliver event d s).Alike heard (r'.deliver event d s)) (s : Store) :
    (r.deliver event (.fanOut policy ds) s).Alike heard
      (r'.deliver event (.fanOut policy ds) s) := by
  refine alike_deliver_fanOut_of_runEach htraced (fun s => ?_) s
  induction ds generalizing s with
  | nil => exact .refl _
  | cons d ds ih =>
    rw [List.forall_mem_cons] at hds
    exact Policy.alike_runEach_cons hds.1 (ih hds.2) s

/-- If the leaves of a tree do the same for two recognizers, so does the tree. -/
theorem alike_deliver_of_leaves (htraced : ∀ record, heard (.traced record) = false)
    (hleaf : ∀ leaf ∈ l.leaves, ∀ s, (r.deliver event (.leaf leaf) s).Alike heard
      (r'.deliver event (.leaf leaf) s)) (s : Store) :
    (r.deliver event l s).Alike heard (r'.deliver event l s) := by
  induction l generalizing s with
  | leaf leaf => exact hleaf leaf (by simp) s
  | fanOut policy ds ih =>
    refine alike_deliver_fanOut_of_delegates htraced (fun d hd => ih d hd fun leaf hmem => ?_) s
    exact hleaf leaf (Listener.mem_leaves_fanOut hd hmem)

/-- **A rule that keeps dispatches alike may be applied anywhere in a tree.** -/
theorem alike_deliver_of_rewrites {rule : Listener → Listener → Prop}
    (htraced : ∀ record, heard (.traced record) = false)
    (hrule : ∀ {l l'}, rule l l' → ∀ s, (r.deliver event l s).Alike heard (r.deliver event l' s))
    (h : Listener.Rewrites rule l l') (s : Store) :
    (r.deliver event l s).Alike heard (r.deliver event l' s) := by
  induction h generalizing s with
  | refl l => exact .refl _
  | root h => exact hrule h s
  | @delegate policy before d d' _ after ih =>
    refine alike_deliver_fanOut_of_runEach htraced (fun s => ?_) s
    simp only [List.map_append, List.map_cons]
    exact Policy.alike_runEach_append _ (Policy.alike_runEach_cons ih fun s => .refl _) s
  | trans _ _ ih ih' => exact (ih s).trans (ih' s)

end Recognizer

/-! ### Sessions -/

theorem Session.run_rewrites {heard : Entry → Bool} {rule : Listener → Listener → Prop}
    {session session' : Session} (htraced : ∀ record, heard (.traced record) = false)
    (hrule : ∀ {l l'}, rule l l' → ∀ (r : Recognizer) event s,
      (r.deliver event l s).Alike heard (r.deliver event l' s))
    (h : session.Related (Listener.Rewrites rule) session') {steps : List Step}
    (hsteps : ∀ step ∈ steps, step.sends = true) (store : Store) :
    List.Forall₂ (Course.Agree (Run.Alike heard)) (session.run steps store)
      (session'.run steps store) := by
  refine forall₂_run_related h (fun _ _ h => h.store) ?_ hsteps store
  intro l l' r r' hl hr event store
  refine hr.deliver Run.Alike.congruence (fun event hleaf l l' hl s => ?_) event hl store
  -- first the recognizer is exchanged, and then the tree
  exact (Recognizer.alike_deliver_of_leaves htraced (fun leaf _ => hleaf leaf) s).trans
    (Recognizer.alike_deliver_of_rewrites htraced (fun h => hrule h r' event) hl s)

end ParseListeners
