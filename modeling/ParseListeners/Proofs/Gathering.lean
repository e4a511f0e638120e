import ParseListeners.Proofs.Acceptance
import ParseListeners.Proofs.Nesting
import ParseListeners.Proofs.Visits

/-!
# Gathered failures

What comes out of a dispatch may be a tree of failures: a collect-all fan-out gathers those of its
delegates, which may have gathered some themselves, and what a notification wraps may hold gathered
failures as well.  Each of these nodes goes back to one visit: some collect-all fan-out was sent an
event, `Recognizer.answers` lists what its delegates answered, and the node gathers the failures
among these answers, in the order of the delegates (`Recognizer.exists_visit_of_within`).

The step is from a fan-out to its delegates, and from a leaf to the listener that its message is
forwarded to: a node is made there, or it comes from below (`Recognizer.within_deliver_fanOut`,
`Recognizer.within_deliver_leaf`).  `Session.perform_gathers` says what follows for sessions that
are built from declarations.
-/

namespace ParseListeners

/-! ### Failures in failures -/

/-- A failure occurs in another one: it is that one, is among those that are gathered in it, or
stands behind a notification in it. -/
inductive Failure.Within (g : Failure) : Failure → Prop
  /-- It is that one. -/
  | self : Within g g
  /-- It occurs in what came out of a notification. -/
  | relayed {f : Failure} (h : Within g f) : Within g (.relayed f)
  /-- It occurs in one of the gathered failures. -/
  | aggregate {f : Failure} {fs : List Failure} (hf : f ∈ fs) (h : Within g f) :
    Within g (.aggregate fs)

namespace Failure

variable {f g : Failure} {fs gs : List Failure}

theorem within_relayed_iff : (aggregate gs).Within (.relayed f) ↔ (aggregate gs).Within f := by
  constructor
  · rintro (_ | h)
    exact h
  · exact .relayed

theorem within_of_gather (h : gather fs = .error f) (hg : g.Within f) :
    (∃ f' ∈ fs, g.Within f') ∨ (g = f ∧ f = .aggregate fs ∧ 2 ≤ fs.length) := by
  rcases gather_eq_error_iff.1 h with rfl | ⟨rfl, hseveral⟩
  · exact .inl ⟨f, List.mem_singleton_self f, hg⟩
  · cases hg with
    | self => exact .inr ⟨rfl, rfl, hseveral⟩
    | aggregate hf hg => exact .inl ⟨_, hf, hg⟩

end Failure

/-- No failure of the listener of the host program holds gathered failures. -/
def Host.Unaggregated (h : Host) : Prop :=
  ∀ earlier delivery f, h.respond earlier delivery = .error f →
    ∀ fs, ¬ (Failure.aggregate fs).Within f

/-- No failure that the leaf raises by itself holds gathered failures. -/
def Leaf.Unaggregated (leaf : Leaf) : Prop := ∀ id h, leaf = .host id h → h.Unaggregated

theorem Breakdown.not_within {leaf : Leaf} {origin : Origin} {event : Event} {rest : List Entry}
    {f : Failure} (h : Breakdown (.called leaf origin event :: rest) f) (hleaf : leaf.Unaggregated)
    (fs : List Failure) : ¬ (Failure.aggregate fs).Within f := by
  cases h with
  | host earlier hf => exact hleaf _ _ rfl earlier _ f hf fs
  | write used herr => rintro ⟨⟩
  | flush used hwrite herr => rintro ⟨⟩

/-- At most one action fails under fail-fast, since it is the last that is run. -/
theorem Policy.length_failures_failFast_le_one (as : List Action) (s : Store) :
    ((failFast.courses as s).filterMap Run.failure?).length ≤ 1 := by
  induction as generalizing s with
  | nil => simp [courses]
  | cons a as ih =>
    cases h : (a s).result with
    | ok u =>
      rw [courses_cons_of_goesOn (goesOn_failFast_iff.2 h),
        List.filterMap_cons_none (Run.failure?_of_ok h)]
      exact ih _
    | error f =>
      rw [courses_cons_of_stops (by rw [h]; rfl),
        List.filterMap_cons_some (Run.failure?_of_error h)]
      simp

namespace Recognizer

variable {r : Recognizer} {event : Event} {leaf : Leaf} {policy : Policy} {l d : Listener}
  {ds : List Listener} {s : Store} {f g : Failure} {gs : List Failure}

/-! ### The answers of delegates -/

/-- The delegates of a collect-all fan-out that is sent an event, in order, each with the failure
that it answers with, if it fails; a delegate finds the memories that the one before has left. -/
def answers (r : Recognizer) (event : Event) :
    List Listener → Store → List (Listener × Option Failure)
  | [], _ => []
  | d :: ds, s =>
    let run := r.deliver event d s
    (d, run.failure?) :: r.answers event ds run.store

theorem map_fst_answers (r : Recognizer) (event : Event) (ds : List Listener) (s : Store) :
    (r.answers event ds s).map Prod.fst = ds := by
  induction ds generalizing s with
  | nil => rfl
  | cons d ds ih => rw [answers, List.map_cons, ih]

theorem filterMap_snd_answers (r : Recognizer) (event : Event) (ds : List Listener) (s : Store) :
    (r.answers event ds s).filterMap Prod.snd =
      (Policy.collectAll.courses (ds.map (r.deliver event)) s).filterMap Run.failure? := by
  induction ds generalizing s with
  | nil => rfl
  | cons d ds ih =>
    rw [List.map_cons, Policy.courses_cons_of_goesOn (Policy.goesOn_collectAll _), answers,
      List.filterMap_cons, List.filterMap_cons, ih]

theorem result_deliver_collectAll (r : Recognizer) (event : Event) (ds : List Listener)
    (s : Store) : (r.deliver event (.fanOut .collectAll ds) s).result =
      Failure.gather ((r.answers event ds s).filterMap Prod.snd) := by
  rw [result_deliver_fanOut, Policy.result_combine, filterMap_snd_answers]

theorem length_failures_answers_le :
    ((r.answers event ds s).filterMap Prod.snd).length ≤ ds.length := by
  calc ((r.answers event ds s).filterMap Prod.snd).length
      ≤ (r.answers event ds s).length := List.length_filterMap_le _ _
    _ = ds.length := by rw [← List.length_map, map_fst_answers]

/-! ### Where gathered failures come from -/

/-- What occurs in a failure of a fan-out comes from a delegate, or the fan-out is a collect-all one
and has gathered several failures. -/
theorem within_deliver_fanOut (h : (r.deliver event (.fanOut policy ds) s).result = .error f)
    (hg : g.Within f) :
    (∃ t ∈ r.delegateTurns event policy 0 ds s, ∃ f',
      (r.deliver event t.listener t.store).result = .error f' ∧ g.Within f') ∨
    (policy = .collectAll ∧ g = f ∧
      f = .aggregate ((r.answers event ds s).filterMap Prod.snd) ∧
      2 ≤ ((r.answers event ds s).filterMap Prod.snd).length) := by
  rw [result_deliver_fanOut, Policy.result_combine] at h
  rcases Failure.within_of_gather h hg with ⟨f', hf', hwithin⟩ | ⟨rfl, rfl, hseveral⟩
  · obtain ⟨run, hrun, hf'⟩ := List.mem_filterMap.1 hf'
    rw [courses_map_deliver _ 0] at hrun
    obtain ⟨t, ht, rfl⟩ := List.mem_map.1 hrun
    exact .inl ⟨t, ht, f', Run.failure?_eq_some_iff.1 hf', hwithin⟩
  · cases policy with
    | failFast =>
      have hone := Policy.length_failures_failFast_le_one (ds.map (r.deliver event)) s
      omega
    | collectAll =>
      rw [← filterMap_snd_answers] at hseveral ⊢
      exact .inr ⟨rfl, rfl, rfl, hseveral⟩

theorem within_deliver_leaf (hleaf : leaf.Unaggregated)
    (h : (r.deliver event (.leaf leaf) s).result = .error f)
    (hg : (Failure.aggregate gs).Within f) :
    ∃ target e f', r.forwarded? event leaf = some (target, e) ∧
      (r.deliver (.syntaxError e) target s).result = .error f' ∧
      (Failure.aggregate gs).Within f' := by
  cases hm : leaf.message? r.toOrigin event with
  | none =>
    rw [deliver_leaf_of_none hm] at h
    rcases leaf.take_cases r.toOrigin event s with ⟨hok, -⟩ | ⟨f', work, herr, -, -, hbreak⟩
    · simp [hok] at h
    · obtain rfl : f' = f := by simpa [herr] using h
      exact absurd hg (hbreak.not_within hleaf gs)
  | some m =>
    rw [result_deliver_leaf_of_some hm] at h
    rcases r.reply_cases m with ⟨hr, -⟩ | ⟨cause, hr, -⟩ | ⟨target, e, hto⟩
    · simp [notify_of_accept hr] at h
    · obtain rfl : .refused cause = f := by simpa [notify_of_refuse hr] using h
      cases hg
    · rw [result_notify_of_forward hto] at h
      cases hrun : (r.deliver (.syntaxError e) target s).result with
      | ok u => simp [hrun, Except.mapError] at h
      | error f' =>
        obtain rfl : .relayed f' = f := by simpa [hrun, Except.mapError] using h
        exact ⟨target, e, f', by rw [forwarded?, hm, Option.bind_some, hto], hrun,
          Failure.within_relayed_iff.1 hg⟩

/-- **Wherever failures are gathered, they are the answers at one visit.**  If no leaf that is sent
an event raises gathered failures itself, each node of gathered failures in what comes out is what
came out of a visit to a collect-all fan-out: it holds the failures among the answers of the
delegates, and they are several. -/
theorem exists_visit_of_within
    (hleaf : ∀ path event' leaf, r.sent? event l path = some (event', .leaf leaf) →
      leaf.Unaggregated)
    (h : (r.deliver event l s).result = .error f) (hg : (Failure.aggregate gs).Within f) :
    ∃ v ∈ r.visits event l s, ∃ ds, v.listener = .fanOut .collectAll ds ∧
      gs = (r.answers v.event ds v.store).filterMap Prod.snd ∧ 2 ≤ gs.length := by
  induction event, l using r.sent_induction generalizing s f with
  | step event l ih =>
    -- what comes from directly below goes back to a visit there, with a longer path from here
    have hbelow : ∀ u ∈ r.visitsBelow event l s, ∀ f',
        (r.deliver u.event u.listener u.store).result = .error f' →
        (Failure.aggregate gs).Within f' →
        ∃ v ∈ r.visits event l s, ∃ ds, v.listener = .fanOut .collectAll ds ∧
          gs = (r.answers v.event ds v.store).filterMap Prod.snd ∧ 2 ≤ gs.length := by
      intro u hu f' hf' hg'
      obtain ⟨k, hk⟩ := List.mem_iff_getElem?.1 hu
      have hsent := (of_getElem?_visitsBelow hk).2
      obtain ⟨v, hv, hgathered⟩ := ih k u.event u.listener hsent
        (fun path event' leaf hpath => hleaf (k :: path) event' leaf
          (by rw [sent?_cons, hsent]; exact hpath)) hf' hg'
      exact ⟨v.below [k], mem_visits_iff.2 (.inr ⟨k, u, hk, v, hv, rfl⟩), hgathered⟩
    cases l with
    | leaf leaf =>
      obtain ⟨target, e, f', hto, hf', hg'⟩ := within_deliver_leaf (hleaf [] event leaf rfl) h hg
      exact hbelow ⟨[0], .syntaxError e, target, s⟩ (by simp [visitsBelow, hto]) f' hf' hg'
    | fanOut policy ds =>
      rcases within_deliver_fanOut h hg with ⟨t, ht, f', hf', hg'⟩ | ⟨rfl, hgf, rfl, hseveral⟩
      · exact hbelow _ (List.mem_map.2 ⟨t, ht, rfl⟩) f' hf' hg'
      · obtain rfl := Failure.aggregate.inj hgf
        exact ⟨_, mem_visits_iff.2 (.inl rfl), ds, rfl, rfl, hseveral⟩

end Recognizer

/-! ### Sessions -/

namespace Session

variable {declared : List Declaration} {replies : List (Origin × Reply Nat)} {session : Session}
  {position sender : Nat} {l d : Listener} {r : Recognizer} {event event' : Event}
  {path : List Nat}

theorem exists_get?_of_sent? (hbuild : build declared replies = .ok session)
    (hr : session.recognizer sender = .ok r) (hl : session.registry.get? position = some l)
    (h : r.sent? event l path = some (event', d)) :
    ∃ position', session.registry.get? position' = some d := by
  induction path generalizing event l position with
  | nil =>
    obtain ⟨-, rfl⟩ : event = event' ∧ l = d := by simpa [Recognizer.sent?] using h
    exact ⟨position, hl⟩
  | cons k path ih =>
    rw [Recognizer.sent?_cons] at h
    obtain ⟨⟨event₁, d₁⟩, hfirst, hrest⟩ := Option.bind_eq_some_iff.1 h
    suffices hget : ∃ position', session.registry.get? position' = some d₁ by
      obtain ⟨position', hget⟩ := hget
      exact ih hget hrest
    cases l with
    | leaf leaf =>
      rw [Recognizer.sent?_leaf_singleton] at hfirst
      split at hfirst
      · obtain ⟨⟨target, e⟩, hto, heq⟩ := Option.map_eq_some_iff.1 hfirst
        obtain ⟨-, rfl⟩ : .syntaxError e = event₁ ∧ target = d₁ := by simpa using heq
        obtain ⟨m, -, hto⟩ := Option.bind_eq_some_iff.1 hto
        obtain ⟨line, column, token, hreply, -⟩ := Recognizer.reply_of_forward? hto
        obtain ⟨position', htarget⟩ := exists_lookup_of_recognizer hbuild hr hreply
        exact ⟨position', Registry.lookup_eq_ok_iff.1 htarget⟩
      · cases hfirst
    | fanOut policy ds =>
      rw [Recognizer.sent?_fanOut_singleton, Option.map_eq_some_iff] at hfirst
      obtain ⟨d', hd', heq⟩ := hfirst
      obtain ⟨-, rfl⟩ : event = event₁ ∧ d' = d₁ := by simpa using heq
      rw [(of_build_eq_ok hbuild).1] at hl ⊢
      obtain ⟨position', -, hget⟩ :=
        (Registry.get?_ofDeclarations_fanOut hl).2 d' (List.mem_of_getElem? hd')
      exact ⟨position', hget⟩

theorem unaggregated_of_get? (hbuild : build declared replies = .ok session)
    (hplain : ∀ h, .host h ∈ declared → h.Unaggregated) {leaf : Leaf}
    (hl : session.registry.get? position = some (.leaf leaf)) : leaf.Unaggregated := by
  rintro id h rfl
  have hground := (grounded_of_lookup hbuild (Registry.lookup_eq_ok_iff.2 hl)).2
  exact hplain h (hground.host_mem id h (by simp))

/-- **Failures are gathered at collect-all fan-outs, from their delegates and in order.**  In a
session that is built from declarations, let no listener of the host program fail with gathered
failures.  Wherever there are gathered failures in what comes out of an event, they are several, and
they are those that the delegates of some collect-all fan-out of the session answered with at one
visit, in the order of the delegates; so there are no more of them than delegates.  If one delegate
alone fails, its failure comes out as it is.  If all fan-outs are fail-fast, nothing is gathered. -/
theorem perform_gathers (hbuild : build declared replies = .ok session)
    (hplain : ∀ h, .host h ∈ declared → h.Unaggregated)
    (hl : session.registry.lookup position = .ok l) (hr : session.recognizer sender = .ok r)
    (event : Event) (store : Store) :
    let run := r.deliver event l store
    session.perform store (.deliver position sender event) =
        .ok { run with result := .delivered run.result } ∧
      (∀ f fs, run.result = .error f → (Failure.aggregate fs).Within f →
        2 ≤ fs.length ∧ ∃ v ∈ r.visits event l store, ∃ position' ds,
          session.registry.get? position' = some (.fanOut .collectAll ds) ∧
            v.listener = .fanOut .collectAll ds ∧
            fs = (r.answers v.event ds v.store).filterMap Prod.snd ∧
            fs.length ≤ ds.length ∧
            (r.deliver v.event v.listener v.store).result = .error (.aggregate fs)) ∧
      (∀ event ds s, (r.answers event ds s).map Prod.fst = ds ∧
        ∀ f, (r.answers event ds s).filterMap Prod.snd = [f] →
          (r.deliver event (.fanOut .collectAll ds) s).result = .error f) ∧
      ((∀ position' ds, session.registry.get? position' ≠ some (.fanOut .collectAll ds)) →
        ∀ f fs, run.result = .error f → ¬ (Failure.aggregate fs).Within f) := by
  intro run
  have hget := Registry.lookup_eq_ok_iff.1 hl
  have hnode : ∀ f fs, run.result = .error f → (Failure.aggregate fs).Within f →
      ∃ v ∈ r.visits event l store, ∃ ds, v.listener = .fanOut .collectAll ds ∧
        fs = (r.answers v.event ds v.store).filterMap Prod.snd ∧ 2 ≤ fs.length := by
    intro f fs hf hfs
    refine Recognizer.exists_visit_of_within (fun path event' leaf hsent => ?_) hf hfs
    obtain ⟨position', hleaf⟩ := exists_get?_of_sent? hbuild hr hget hsent
    exact unaggregated_of_get? hbuild hplain hleaf
  have hregistered : ∀ v ∈ r.visits event l store,
      ∃ position', session.registry.get? position' = some v.listener :=
    fun v hv => exists_get?_of_sent? hbuild hr hget (Recognizer.sent?_of_mem_visits hv)
  refine ⟨perform_deliver hl hr store event, fun f fs hf hfs => ?_, fun event ds s => ⟨?_, ?_⟩, ?_⟩
  · obtain ⟨v, hv, ds, hlistener, rfl, hseveral⟩ := hnode f fs hf hfs
    obtain ⟨position', hposition⟩ := hregistered v hv
    refine ⟨hseveral, v, hv, position', ds, hlistener ▸ hposition, hlistener, rfl,
      Recognizer.length_failures_answers_le, ?_⟩
    rw [hlistener, Recognizer.result_deliver_collectAll]
    exact Failure.gather_eq_error_iff.2 (.inr ⟨rfl, hseveral⟩)
  · exact r.map_fst_answers event ds s
  · intro f hf
    rw [Recognizer.result_deliver_collectAll]
    exact Failure.gather_eq_error_iff.2 (.inl hf)
  · intro hnone f fs hf hfs
    obtain ⟨v, hv, ds, hlistener, -⟩ := hnode f fs hf hfs
    obtain ⟨position', hposition⟩ := hregistered v hv
    exact hnone position' ds (hlistener ▸ hposition)

/-- A diagnostic listener and, twice, a listener of the host program that takes no syntax errors,
under one fan-out. -/
def doubled : List Declaration :=
  [.diagnostic ⟨false⟩, .host (.failing "strict" [.syntaxError] none 0),
    .fanOut (.withPolicy .collectAll [0, 1, 1])]

theorem unaggregated_of_mem_doubled : ∀ h, .host h ∈ doubled → h.Unaggregated := by
  intro h hh earlier delivery f hf fs hfs
  obtain rfl : h = .failing "strict" [.syntaxError] none 0 := by simpa [doubled] using hh
  simp only [Host.failing, Option.getD_none] at hf
  split at hf
  · obtain rfl := Except.error.inj hf
    cases hfs
  · cases hf

/-- A report to that fan-out comes back to it as a syntax error, which both occurrences refuse; of
the report itself they have no complaint. -/
theorem perform_gathers_doubled :
    ∃ session l r, build doubled [circling] = .ok session ∧
      session.registry.lookup 2 = .ok l ∧ session.recognizer 0 = .ok r ∧ ∀ report,
        let fs := List.replicate 2 (Failure.rejected "strict" "syntax_error")
        (r.deliver (.report report) l .empty).result = .error (.relayed (.aggregate fs)) ∧
          ∃ v ∈ r.visits (.report report) l .empty, ∃ position' ds,
            session.registry.get? position' = some (.fanOut .collectAll ds) ∧
              v.listener = .fanOut .collectAll ds ∧
              fs = (r.answers v.event ds v.store).filterMap Prod.snd ∧
              fs.length ≤ ds.length ∧
              (r.deliver v.event v.listener v.store).result = .error (.aggregate fs) := by
  refine ⟨_, _, _, rfl, rfl, rfl, fun report => ?_⟩
  obtain ⟨-, hnode, -, -⟩ := @perform_gathers doubled [circling] _ 2 0 _ _ rfl
    unaggregated_of_mem_doubled rfl rfl (.report report) .empty
  refine (and_iff_left_of_imp fun hresult => (hnode _ _ hresult (.relayed .self)).2).2 ?_
  -- what the listener of the host program complains of hangs on the kind of the report
  obtain ⟨decision, start, stop, configurations, finding⟩ := report
  cases finding <;> rfl

end Session

end ParseListeners
