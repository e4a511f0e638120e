import Mathlib.Data.List.Pairwise
import Mathlib.Data.List.Perm.Basic
import ParseListeners.Proofs.Footprint
import ParseListeners.Proofs.Gathering
import ParseListeners.Proofs.Rewriting

/-!
# Delegates in another order

A collect-all fan-out has all its delegates take their turns.  If no two of them can touch the same
memory (`Recognizer.Independent`), each does what it would do alone, with the memories from before
the dispatch (`Recognizer.answers_of_independent`), and any two of them commute.  So their order
makes no difference, up to the order of the failures that are gathered
(`Recognizer.deliver_reordered`).

The recognizer may forward messages to the fan-out itself, or to a tree with the fan-out in it, and
then the order changes there as well.  If a delegate hands back a message, its footprint has all
memories below the fan-out, so no other delegate has one; then only one of them can fail on a syntax
error (`Recognizer.length_failures_syntaxError_le_one`), and what comes of the message is the same
in any order (`Recognizer.alike_deliver_of_mem`).
-/

namespace ParseListeners

/-- The same fan-out with its delegates in another order. -/
inductive Listener.Reordered (ds ds' : List Listener) : Listener → Listener → Prop
  /-- It collects the failures of its delegates. -/
  | fanOut : Reordered ds ds' (.fanOut .collectAll ds) (.fanOut .collectAll ds')

theorem length_filterMap_le_one {α β : Type} {f : α → Option β} {before after : List α} {x : α}
    (h : ∀ y ∈ before ++ after, f y = none) :
    ((before ++ x :: after).filterMap f).length ≤ 1 := by
  rw [(List.perm_middle.filterMap f).length_eq, List.filterMap_cons, List.filterMap_eq_nil_iff.2 h]
  cases f x <;> simp

namespace Recognizer

variable {r r' : Recognizer} {event : Event} {e : SyntaxError} {d l l' : Listener}
  {ds ds' : List Listener} {s t : Store}

/-! ### Independent delegates -/

/-- An event that is sent to one of the delegates touches no memory that it touches when it is sent
to another one. -/
def Independent (r : Recognizer) (event : Event) (ds : List Listener) : Prop :=
  ds.Pairwise fun d d' => (r.footprint event d).Disjoint (r.footprint event d')

/-- Each delegate answers as it would alone. -/
theorem answers_of_independent (h : r.Independent event ds)
    (hst : ∀ d ∈ ds, s.AgreeOn (r.footprint event d) t) :
    r.answers event ds s = ds.map fun d => (d, (r.deliver event d t).failure?) := by
  induction ds generalizing s with
  | nil => rfl
  | cons d ds ih =>
    obtain ⟨hd, hds⟩ := List.pairwise_cons.1 h
    rw [List.forall_mem_cons] at hst
    have hconfined := r.confined_deliver event d
    have hfirst : (r.deliver event d s).failure? = (r.deliver event d t).failure? := by
      simp only [Run.failure?, hconfined.result_eq hst.1]
    rw [answers, List.map_cons, hfirst, ih hds]
    -- the others find in their footprints what was there before
    intro d' hd' id hid
    exact (hconfined.agreeOn_of_disjoint (hd d' hd') s id hid).trans (hst.2 d' hd' id hid)

theorem store_deliver_collectAll (r : Recognizer) (event : Event) (ds : List Listener) (s : Store) :
    (r.deliver event (.fanOut .collectAll ds) s).store =
      ds.foldl (fun t d => (r.deliver event d t).store) s := by
  have heach : ∀ s, (Action.everyOne (ds.map (r.deliver event)) s).store =
      ds.foldl (fun t d => (r.deliver event d t).store) s := by
    induction ds with
    | nil => exact fun s => rfl
    | cons d ds ih => exact fun s => ih _
  rw [deliver_fanOut]
  exact heach s

/-- Two listeners that are sent an event leave the same memories in either order. -/
def Commute (r : Recognizer) (event : Event) (d d' : Listener) : Prop :=
  ∀ s, (r.deliver event d' (r.deliver event d s).store).store =
    (r.deliver event d (r.deliver event d' s).store).store

instance : Std.Symm (r.Commute event) := ⟨fun _ _ h s => (h s).symm⟩

/-- Independent delegates leave the same memories in any order. -/
theorem store_deliver_perm (hperm : ds.Perm ds') (h : r.Independent event ds) (s : Store) :
    (r.deliver event (.fanOut .collectAll ds) s).store =
      (r.deliver event (.fanOut .collectAll ds') s).store := by
  have hcommute : ds.Pairwise (r.Commute event) := h.imp fun {d d'} hd =>
    (r.confined_deliver event d).commute (r.confined_deliver event d') hd
  rw [store_deliver_collectAll, store_deliver_collectAll]
  refine hperm.foldl_eq' (fun d hd d' hd' t => ?_) s
  exact hcommute.forall_of_forall (fun d _ s => rfl) hd hd' t

/-- Independent delegates answer the same in any order. -/
theorem answers_perm (hperm : ds.Perm ds') (h : r.Independent event ds) (s : Store) :
    (r.answers event ds s).Perm (r.answers event ds' s) := by
  have h' : r.Independent event ds' := (hperm.pairwise_iff List.disjoint_symm).1 h
  rw [answers_of_independent h fun d _ id _ => rfl, answers_of_independent h' fun d _ id _ => rfl]
  exact hperm.map _

/-! ### Messages that are forwarded to the fan-out -/

theorem eq_or_leaves_subset_of_rewrites
    (h : Listener.Rewrites (Listener.Reordered ds ds') l l') :
    l = l' ∨ ∀ d ∈ ds, d.leaves ⊆ l.leaves := by
  induction h with
  | refl l => exact .inl rfl
  | root h =>
    cases h
    exact .inr fun d hd leaf hleaf => Listener.mem_leaves_fanOut hd hleaf
  | delegate policy before h after ih =>
    rcases ih with rfl | hsub
    · exact .inl rfl
    · refine .inr fun d hd leaf hleaf => ?_
      exact Listener.mem_leaves_fanOut (by simp) (hsub d hd hleaf)
  | trans h h' ih ih' =>
    rcases ih with rfl | hsub
    · exact ih'
    · exact .inr hsub

theorem Related.eq_or_leaves_subset
    (hr : r.Related (Listener.Rewrites (Listener.Reordered ds ds')) r') :
    r = r' ∨ ∀ d ∈ ds, d.leaves ⊆ r.replyLeaves := by
  obtain ⟨origin, reply⟩ := r
  obtain ⟨origin', reply'⟩ := r'
  obtain ⟨rfl, hreply⟩ := hr
  cases hreply with
  | accept => exact .inl rfl
  | refuse cause => exact .inl rfl
  | forward htarget line column token =>
    rcases eq_or_leaves_subset_of_rewrites htarget with rfl | hsub
    · exact .inl rfl
    · exact .inr hsub

theorem Independent.syntaxError (h : r.Independent event ds) (e : SyntaxError) :
    r.Independent (.syntaxError e) ds := by
  have hsub : ∀ d, r.footprint (.syntaxError e) d ⊆ r.footprint event d := by
    intro d
    refine List.filterMap_subset _ ?_
    simp [reach]
  refine h.imp fun {d d'} hd => ?_
  exact List.disjoint_of_subset_left (hsub d) (List.disjoint_of_subset_right (hsub d') hd)

theorem result_deliver_syntaxError_of_id? (h : ∀ leaf ∈ d.leaves, leaf.id? = none)
    (e : SyntaxError) (s : Store) : (r.deliver (.syntaxError e) d s).result = .ok () := by
  refine result_deliver_syntaxError_of_isReliable (fun leaf hleaf => ?_) e s
  have hid := h leaf hleaf
  cases leaf with
  | console id sink => cases hid
  | host id host => cases hid
  | _ => rfl

/-- If a report is turned into a message that can reach the leaves of a delegate, the delegate is
independent of the one that hands the message back only if it has no memory. -/
theorem id?_eq_none_of_disjoint {report : Report} {d₀ : Listener}
    (hback : d₀.leaves.any Leaf.isDiagnostic = true) (hsub : d.leaves ⊆ r.replyLeaves)
    (hd : (r.footprint (.report report) d₀).Disjoint (r.footprint (.report report) d)) :
    ∀ leaf ∈ d.leaves, leaf.id? = none := by
  intro leaf hleaf
  rw [Option.eq_none_iff_forall_ne_some]
  intro id hid
  refine hd (a := id) (List.mem_filterMap.2 ⟨leaf, List.mem_append_right _ ?_, hid⟩)
    (List.mem_filterMap.2 ⟨leaf, List.mem_append_left _ hleaf, hid⟩)
  simpa only [hback, ↓reduceIte] using hsub hleaf

theorem length_failures_syntaxError_le_one {report : Report} {d₀ : Listener}
    (h : r.Independent (.report report) ds) (hd₀ : d₀ ∈ ds)
    (hback : d₀.leaves.any Leaf.isDiagnostic = true)
    (hsub : ∀ d ∈ ds, d.leaves ⊆ r.replyLeaves) (e : SyntaxError) (s : Store) :
    ((r.answers (.syntaxError e) ds s).filterMap Prod.snd).length ≤ 1 := by
  rw [answers_of_independent (h.syntaxError e) fun d _ id _ => rfl, List.filterMap_map]
  obtain ⟨before, after, rfl⟩ := List.append_of_mem hd₀
  -- the other delegates have no memory, and then a syntax error is no matter for complaint
  refine length_filterMap_le_one fun d hd => ?_
  have hmem : d ∈ before ++ d₀ :: after := List.perm_middle.mem_iff.2 (List.mem_cons_of_mem _ hd)
  have hdisjoint := (List.pairwise_cons.1 ((List.pairwise_middle List.disjoint_symm).1 h)).1 d hd
  have hid := id?_eq_none_of_disjoint hback (hsub d hmem) hdisjoint
  exact Run.failure?_of_ok (result_deliver_syntaxError_of_id? hid e s)

theorem result_deliver_perm (hperm : ds.Perm ds') (h : r.Independent event ds)
    (hone : ((r.answers event ds s).filterMap Prod.snd).length ≤ 1) :
    (r.deliver event (.fanOut .collectAll ds) s).result =
      (r.deliver event (.fanOut .collectAll ds') s).result := by
  have hfailures := (answers_perm hperm h s).filterMap Prod.snd
  rw [result_deliver_collectAll, result_deliver_collectAll]
  congr 1
  match hlist : (r.answers event ds s).filterMap Prod.snd with
  | [] => rw [hlist] at hfailures; exact hfailures.nil_eq
  | [f] => rw [hlist] at hfailures; exact List.singleton_perm.1 hfailures
  | f₁ :: f₂ :: rest => simp [hlist] at hone

theorem alike_deliver_of_mem (hperm : ds.Perm ds') (h : r.Independent event ds)
    (hr : r.Related (Listener.Rewrites (Listener.Reordered ds ds')) r') (hd : d ∈ ds) (s : Store) :
    (r.deliver event d s).Alike (fun _ => false) (r'.deliver event d s) := by
  rcases hr.eq_or_leaves_subset with rfl | hsub
  · exact .refl _
  refine alike_deliver_of_leaves (fun _ => rfl) (fun leaf hleaf s => ?_) s
  refine hr.deliver_leaf Run.Alike.congruence (fun m hm s => ?_) s
  obtain ⟨diagnostic, report, rfl, rfl, -, -⟩ := Leaf.message?_eq_some_iff.1 hm
  have hback : d.leaves.any Leaf.isDiagnostic = true := List.any_eq_true.2 ⟨_, hleaf, rfl⟩
  -- the message becomes a syntax error, of which at most one delegate complains
  refine hr.notify Run.Alike.congruence (fun e target target' htarget s => ?_) m s
  refine (alike_deliver_of_rewrites (fun _ => rfl) ?_ htarget s).trans
    (alike_deliver_of_leaves (fun _ => rfl) (fun leaf _ s => ?_) s)
  · rintro _ _ ⟨⟩ s
    exact ⟨result_deliver_perm hperm (h.syntaxError e)
      (length_failures_syntaxError_le_one h hd hback hsub e s), by simp,
      store_deliver_perm hperm (h.syntaxError e) s⟩
  · exact hr.deliver_leaf Run.Alike.congruence (by simp) s

theorem answers_of_alike
    (h : ∀ d ∈ ds, ∀ s, (r.deliver event d s).Alike (fun _ => false) (r'.deliver event d s))
    (s : Store) : r.answers event ds s = r'.answers event ds s := by
  induction ds generalizing s with
  | nil => rfl
  | cons d ds ih =>
    rw [List.forall_mem_cons] at h
    obtain ⟨hresult, -, hstore⟩ := h.1 s
    rw [answers, answers, ih h.2, hstore]
    simp only [Run.failure?, hresult]

/-! ### The order of delegates -/

/-- **The order of independent delegates makes no difference.**  Let the delegates of a collect-all
fan-out be taken in another order, wherever the fan-out occurs: the recognizer may forward messages
to it as well.  If no two of them can touch the same memory when the event is sent to them, all
listeners remember the same afterwards, and the dispatch succeeds for both orders or for neither.
Each delegate answers the same, and a failure that is the only one comes out in both cases. -/
theorem deliver_reordered (hperm : ds.Perm ds') (h : r.Independent event ds)
    (hr : r.Related (Listener.Rewrites (Listener.Reordered ds ds')) r') (s : Store) :
    let run := r.deliver event (.fanOut .collectAll ds) s
    let run' := r'.deliver event (.fanOut .collectAll ds') s
    run.store = run'.store ∧ (run.result = .ok () ↔ run'.result = .ok ()) ∧
      (r.answers event ds s).Perm (r'.answers event ds' s) ∧
      ∀ f, (r.answers event ds s).filterMap Prod.snd = [f] →
        run.result = .error f ∧ run'.result = .error f := by
  intro run run'
  have halike : ∀ d ∈ ds', ∀ s,
      (r.deliver event d s).Alike (fun _ => false) (r'.deliver event d s) :=
    fun d hd s => alike_deliver_of_mem hperm h hr (hperm.mem_iff.2 hd) s
  have hanswers : (r.answers event ds s).Perm (r'.answers event ds' s) :=
    answers_of_alike halike s ▸ answers_perm hperm h s
  have hfailures := hanswers.filterMap Prod.snd
  have hrun : run.result = Failure.gather _ := r.result_deliver_collectAll event ds s
  have hrun' : run'.result = Failure.gather _ := r'.result_deliver_collectAll event ds' s
  refine ⟨?_, ?_, hanswers, fun f hf => ?_⟩
  · exact (store_deliver_perm hperm h s).trans
      (alike_deliver_fanOut_of_delegates (fun _ => rfl) halike s).store
  · rw [hrun, hrun', Failure.gather_eq_ok_iff, Failure.gather_eq_ok_iff]
    constructor
    · intro hnil
      exact (hnil ▸ hfailures).nil_eq.symm
    · intro hnil
      exact (hnil ▸ hfailures).eq_nil
  · rw [hf, List.singleton_perm] at hfailures
    rw [hrun, hrun', hf, ← hfailures]
    exact ⟨rfl, rfl⟩

/-- A diagnostic listener, a listener of the host program that takes nothing, and a fan-out over a
collecting listener. -/
def strangers : List Listener :=
  [.leaf (.diagnostic ⟨false⟩),
    .leaf (.host 1 (.failing "shut" [.syntaxError, .ambiguity, .fullContext, .contextSensitivity]
      none 0)),
    .fanOut .failFast [.leaf (.collector 2)]]

/-- A recognizer that forwards messages to another collecting listener. -/
def recording : Recognizer where
  toOrigin := .ofTexts 0 "Expr.g4" ["expr"] ["a", "b"] " "
  reply := .forward (.leaf (.collector 3)) 1 0 none

theorem independent_strangers (event : Event) : recording.Independent event strangers := by
  cases event with
  | syntaxError e =>
    simp [Independent, strangers, footprint, reach, Leaf.id?, Listener.leaves_fanOut]
  | report report =>
    simp [Independent, strangers, footprint, reach, replyLeaves, recording, Leaf.isDiagnostic,
      Leaf.id?, Listener.leaves_fanOut]

/-- On a report the message of the diagnostic listener is recorded under the number 3, and the event
under the number 2; the other listener complains in both orders. -/
theorem deliver_reordered_strangers :
    strangers.Perm strangers.reverse ∧ ∀ event, recording.Independent event strangers ∧
      let run := recording.deliver event (.fanOut .collectAll strangers) .empty
      let run' := recording.deliver event (.fanOut .collectAll strangers.reverse) .empty
      let f := Failure.rejected "shut" event.kind.name
      run.store = run'.store ∧
        (recording.answers event strangers .empty).Perm
          (recording.answers event strangers.reverse .empty) ∧
        run.result = .error f ∧ run'.result = .error f := by
  have hperm := strangers.reverse_perm.symm
  have hr : recording.Related
      (Listener.Rewrites (Listener.Reordered strangers strangers.reverse)) recording :=
    ⟨rfl, .forward (.refl _) 1 0 none⟩
  refine ⟨hperm, fun event => ⟨independent_strangers event, ?_⟩⟩
  obtain ⟨hstore, -, hanswers, hsingle⟩ :=
    deliver_reordered hperm (independent_strangers event) hr .empty
  refine ⟨hstore, hanswers, hsingle _ ?_⟩
  -- what the other listener complains of hangs on the kind of the event
  cases event with
  | syntaxError e => rfl
  | report report =>
    obtain ⟨decision, start, stop, configurations, finding⟩ := report
    cases finding <;> rfl

end Recognizer

end ParseListeners
