import ParseListeners.Proofs.Accounting
import ParseListeners.Proofs.Trees
import ParseListeners.Proofs.Uniform

/-!
# Flat fan-outs

A fan-out below another one passes events on to its delegates, which the other one could do as
well.  `Listener.flat` does away with the lower ones: it puts all leaves of a tree, in order and as
often as they occur, directly below its root.

If all fan-outs of a session have the same policy, this changes nothing but trace records and, under
collect-all, the way in which failures are gathered (`Session.run_flat`).  `Run.digest` is what then
stays of a dispatch.  Digests of actions that are taken in order, under a policy, can be linked
(`Policy.digest_combine_cons`), and since linking is associative (`Policy.link_assoc`), it does not
matter how the actions are grouped.
-/

namespace ParseListeners

/-! ### Flat trees -/

/-- The tree with its leaves directly below the root, in order and as often as they occur. -/
def Listener.flat : Listener → Listener
  | .leaf l => .leaf l
  | .fanOut policy delegates => .fanOut policy ((fanOut policy delegates).leaves.map .leaf)

/-- The session with flat trees, for events that are sent and for messages that are forwarded. -/
def Session.flat (s : Session) : Session := s.replace Listener.flat

/-- All fan-outs of the session have the policy: to give it to them changes nothing. -/
def Session.HasPolicy (policy : Policy) (s : Session) : Prop := s.uniform policy = s

theorem Listener.uniform_fanOut_eq_self_iff {policy other : Policy} {ds : List Listener} :
    (fanOut other ds).uniform policy = .fanOut other ds ↔
      policy = other ∧ ∀ d ∈ ds, d.uniform policy = d := by
  have hds : ds.map (uniform policy) = ds.map id ↔ ∀ d ∈ ds, d.uniform policy = d :=
    List.map_inj_left
  rw [uniform_fanOut, fanOut.injEq, ← hds, List.map_id]

/-! ### What stays of a dispatch -/

/-- The entry is a trace record. -/
def Entry.isTraced : Entry → Bool
  | .traced _ => true
  | _ => false

/-- A journal without its trace records. -/
def untraced (journal : List Entry) : List Entry := journal.filter fun e => !e.isTraced

@[simp] theorem untraced_append (j k : List Entry) : untraced (j ++ k) = untraced j ++ untraced k :=
  List.filter_append ..

/-- Two results are the same under a policy: under fail-fast they are equal; under collect-all both
are successes, or both are failures that consist of the same single failures, in order. -/
def Policy.SameResult : Policy → Except Failure Unit → Except Failure Unit → Prop
  | .failFast, x, y => x = y
  | .collectAll, x, y => x.mapError Failure.flatten = y.mapError Failure.flatten

/-- Two dispatches are the same under a policy: their results are, and apart from trace records the
same happens, and they leave the same memories. -/
structure Run.SameUnder (policy : Policy) (run run' : Run (Except Failure Unit)) : Prop where
  /-- The results are the same under the policy. -/
  result : policy.SameResult run.result run'.result
  /-- Apart from trace records the same happens. -/
  journal : untraced run.journal = untraced run'.journal
  /-- All listeners remember the same. -/
  store : run.store = run'.store

/-- What stays of a failure: under fail-fast the failure, under collect-all its single failures. -/
def Policy.view : Policy → Failure → List Failure
  | .failFast, f => [f]
  | .collectAll, f => f.flatten

theorem Policy.sameResult_iff (policy : Policy) {x y : Except Failure Unit} :
    policy.SameResult x y ↔ x.mapError policy.view = y.mapError policy.view := by
  cases policy with
  | failFast => cases x <;> cases y <;> simp [SameResult, view, Except.mapError]
  | collectAll => exact Iff.rfl

/-- What stays of a dispatch. -/
def Run.digest (policy : Policy) (run : Run (Except Failure Unit)) :
    Run (Except (List Failure) Unit) :=
  ⟨run.result.mapError policy.view, untraced run.journal, run.store⟩

theorem Run.sameUnder_iff {policy : Policy} {run run' : Run (Except Failure Unit)} :
    run.SameUnder policy run' ↔ run.digest policy = run'.digest policy := by
  rw [digest, digest, mk.injEq, ← Policy.sameResult_iff]
  exact ⟨fun h => ⟨h.result, h.journal, h.store⟩, fun ⟨hr, hj, hs⟩ => ⟨hr, hj, hs⟩⟩

namespace Run.SameUnder

variable {policy : Policy} {run run' : Run (Except Failure Unit)}

theorem refl (policy : Policy) (run : Run (Except Failure Unit)) : run.SameUnder policy run :=
  ⟨policy.sameResult_iff.2 rfl, rfl, rfl⟩

theorem prepend (h : run.SameUnder policy run') (start : List Entry) :
    SameUnder policy { run with journal := start ++ run.journal }
      { run' with journal := start ++ run'.journal } := by
  refine ⟨h.result, ?_, h.store⟩
  rw [untraced_append, untraced_append, h.journal]

theorem relay (h : run.SameUnder policy run') :
    SameUnder policy { run with result := run.result.mapError .relayed }
      { run' with result := run'.result.mapError .relayed } := by
  refine ⟨?_, h.journal, h.store⟩
  cases policy with
  | failFast => exact congrArg (Except.mapError Failure.relayed) h.result
  | collectAll =>
    -- the single failures of a failed notification are those of what has failed
    have hrelayed : ∀ x : Except Failure Unit,
        (x.mapError .relayed).mapError Failure.flatten = x.mapError Failure.flatten := by
      intro x
      cases x <;> rfl
    exact (hrelayed _).trans (h.result.trans (hrelayed _).symm)

theorem congruence (policy : Policy) : Run.Congruence (Run.SameUnder policy) where
  refl := refl policy
  prepend h start := h.prepend start
  relay h := h.relay

end Run.SameUnder

namespace Policy

variable {policy : Policy}

/-- Two results as one, with the failures of both. -/
def merge : Except (List Failure) Unit → Except (List Failure) Unit → Except (List Failure) Unit
  | .ok (), y => y
  | .error fs, .ok () => .error fs
  | .error fs, .error gs => .error (fs ++ gs)

theorem merge_assoc (x y z : Except (List Failure) Unit) :
    merge (merge x y) z = merge x (merge y z) := by
  cases x <;> cases y <;> cases z <;> simp [merge]

/-- What stays of two parts of a dispatch, the second of which depends on the memories that the
first one leaves. -/
def link (policy : Policy) (first : Run (Except (List Failure) Unit))
    (next : Store → Run (Except (List Failure) Unit)) : Run (Except (List Failure) Unit) :=
  let second := next first.store
  let both := ⟨merge first.result second.result, first.journal ++ second.journal, second.store⟩
  match policy, first.result with
  | .failFast, .ok () => both
  | .failFast, .error _ => first
  | .collectAll, _ => both

variable {first : Run (Except (List Failure) Unit)}
  {next : Store → Run (Except (List Failure) Unit)}

theorem link_of_ok (h : first.result = .ok ()) :
    policy.link first next =
      { next first.store with journal := first.journal ++ (next first.store).journal } := by
  cases policy with
  | failFast => simp only [link, h, merge]
  | collectAll => simp only [link, h, merge]

theorem link_failFast_of_error {fs : List Failure} (h : first.result = .error fs) :
    failFast.link first next = first := by
  simp only [link, h]

/-- It does not matter how the parts of a dispatch are grouped. -/
theorem link_assoc (policy : Policy) (first : Run (Except (List Failure) Unit))
    (next last : Store → Run (Except (List Failure) Unit)) :
    policy.link (policy.link first next) last =
      policy.link first fun s => policy.link (next s) last := by
  cases policy with
  | collectAll => simp only [link, merge_assoc, List.append_assoc]
  | failFast =>
    cases h : first.result with
    | error fs => rw [link_failFast_of_error h, link_failFast_of_error h, link_failFast_of_error h]
    | ok u =>
      cases h' : (next first.store).result with
      | error gs => simp only [link, h, h', merge]
      | ok u => simp only [link, h, h', merge, List.append_assoc]

theorem link_idle (policy : Policy) (first : Run (Except (List Failure) Unit)) :
    (policy.link first fun s => ⟨.ok (), [], s⟩) = first := by
  obtain ⟨result, journal, store⟩ := first
  cases policy <;> cases result <;> simp [link, merge]

theorem mapError_flatten_gather_cons (f : Failure) (fs : List Failure) :
    (Failure.gather (f :: fs)).mapError Failure.flatten =
      merge (.error f.flatten) ((Failure.gather fs).mapError Failure.flatten) := by
  match fs with
  | [] => rfl
  | [g] => simp [Failure.gather, Except.mapError, merge]
  | g :: g' :: rest => simp [Failure.gather, Except.mapError, merge]

variable {a : Action} {as bs : List Action} {s : Store}

theorem digest_combine_nil (policy : Policy) (s : Store) :
    (policy.combine [] s).digest policy = ⟨.ok (), [], s⟩ := by
  cases policy <;> rfl

theorem digest_combine_cons (policy : Policy) (a : Action) (as : List Action) (s : Store) :
    (policy.combine (a :: as) s).digest policy =
      policy.link ((a s).digest policy) fun t => (policy.combine as t).digest policy := by
  cases h : (a s).result with
  | ok u =>
    have hd : ((a s).digest policy).result = .ok () := by rw [Run.digest, h]; rfl
    rw [combine_cons_of_ok h, link_of_ok hd]
    simp only [Run.digest, untraced_append]
  | error f =>
    cases policy with
    | failFast =>
      have hd : ((a s).digest failFast).result = .error [f] := by rw [Run.digest, h]; rfl
      rw [combine_failFast_cons_of_error h, link_failFast_of_error hd]
    | collectAll =>
      simp only [link, combine, Action.gathering, Action.everyOne, h, Run.digest, untraced_append]
      exact congrArg (Run.mk · _ _) (mapError_flatten_gather_cons f _)

theorem digest_combine_singleton (policy : Policy) (a : Action) (s : Store) :
    (policy.combine [a] s).digest policy = (a s).digest policy := by
  rw [digest_combine_cons]
  simp only [digest_combine_nil, link_idle]

theorem digest_combine_append (policy : Policy) (as bs : List Action) (s : Store) :
    (policy.combine (as ++ bs) s).digest policy =
      policy.link ((policy.combine as s).digest policy)
        fun t => (policy.combine bs t).digest policy := by
  induction as generalizing s with
  | nil =>
    have h : ((policy.combine [] s).digest policy).result = .ok () := by rw [digest_combine_nil]
    rw [link_of_ok h, digest_combine_nil]
    rfl
  | cons a as ih =>
    rw [List.cons_append, digest_combine_cons, digest_combine_cons, link_assoc]
    simp only [ih]

end Policy

/-! ### Dispatches to flat trees -/

namespace Recognizer

variable {policy : Policy} {r r' : Recognizer} {event : Event}

/-- What stays of a fan-out is what stays of its delegates: its own trace record does not. -/
theorem digest_deliver_fanOut (r : Recognizer) (event : Event) (policy : Policy)
    (ds : List Listener) (s : Store) :
    (r.deliver event (.fanOut policy ds) s).digest policy =
      (policy.combine (ds.map (r.deliver event)) s).digest policy := by
  rw [deliver_fanOut]
  rfl

/-- If the same stays of each leaf, for two recognizers, then what stays of a tree is what stays of
its leaves in order. -/
theorem digest_deliver_eq_leaves (hleaf : ∀ leaf s,
      (r.deliver event (.leaf leaf) s).digest policy =
        (r'.deliver event (.leaf leaf) s).digest policy)
    {l : Listener} (hl : l.uniform policy = l) (s : Store) :
    (r.deliver event l s).digest policy =
      (policy.combine (l.leaves.map fun leaf => r'.deliver event (.leaf leaf)) s).digest
        policy := by
  induction l generalizing s with
  | leaf leaf =>
    rw [Listener.leaves_leaf, List.map_singleton, Policy.digest_combine_singleton, hleaf]
  | fanOut other ds ih =>
    obtain ⟨rfl, hds⟩ := Listener.uniform_fanOut_eq_self_iff.1 hl
    rw [digest_deliver_fanOut, Listener.leaves_fanOut]
    -- the leaves of the first delegate come first, and then those of the others
    clear hl
    induction ds generalizing s with
    | nil => rfl
    | cons d ds ihs =>
      rw [List.forall_mem_cons] at hds
      rw [List.map_cons, List.flatMap_cons, List.map_append, Policy.digest_combine_cons,
        Policy.digest_combine_append, ih d List.mem_cons_self hds.1]
      have hrest : ∀ t, _ := fun t => ihs (fun d' h => ih d' (List.mem_cons_of_mem d h)) t hds.2
      simp only [hrest]

theorem sameUnder_deliver_flat_of_leaf (hleaf : ∀ leaf s,
      (r.deliver event (.leaf leaf) s).SameUnder policy (r'.deliver event (.leaf leaf) s))
    {l : Listener} (hl : l.uniform policy = l) (s : Store) :
    (r.deliver event l s).SameUnder policy (r'.deliver event l.flat s) := by
  cases l with
  | leaf leaf => exact hleaf leaf s
  | fanOut other ds =>
    obtain ⟨rfl, -⟩ := Listener.uniform_fanOut_eq_self_iff.1 hl
    simp only [Run.sameUnder_iff] at hleaf ⊢
    rw [digest_deliver_eq_leaves hleaf hl, Listener.flat, digest_deliver_fanOut, List.map_map]
    rfl

/-- If all fan-outs that a recognizer forwards to have the policy, it is related to the one that
forwards to the flat trees. -/
theorem related_flat (hr : r.uniform policy = r) :
    r.Related (fun l l' => l.uniform policy = l ∧ l' = l.flat) (r.replace Listener.flat) := by
  obtain ⟨origin, reply⟩ := r
  have hreply : reply.map (Listener.uniform policy) = reply := congrArg Recognizer.reply hr
  refine ⟨rfl, ?_⟩
  cases reply with
  | accept => exact .accept
  | refuse cause => exact .refuse cause
  | forward target line column token =>
    have htarget : target.uniform policy = target := (Reply.forward.inj hreply).1
    exact .forward ⟨htarget, rfl⟩ line column token

/-- **A dispatch is the same with flat fan-outs**, if all fan-outs have the same policy. -/
theorem sameUnder_deliver_flat (hr : r.uniform policy = r) {l : Listener}
    (hl : l.uniform policy = l) (event : Event) (s : Store) :
    (r.deliver event l s).SameUnder policy
      ((r.replace Listener.flat).deliver event l.flat s) := by
  refine (related_flat hr).deliver (Run.SameUnder.congruence policy) ?_ event ⟨hl, rfl⟩ s
  rintro event hleaf l l' ⟨hl, rfl⟩ s
  exact sameUnder_deliver_flat_of_leaf hleaf hl s

end Recognizer

/-! ### Sessions -/

namespace Session

variable {policy : Policy} {session : Session}

theorem uniform_of_lookup (h : session.HasPolicy policy) {position : Nat} {l : Listener}
    (hl : session.registry.lookup position = .ok l) : l.uniform policy = l := by
  have hl' := Registry.lookup_uniform policy hl
  have hregistry : session.registry.uniform policy = session.registry := congrArg registry h
  rw [hregistry, hl] at hl'
  exact (Except.ok.inj hl').symm

theorem uniform_of_recognizer (h : session.HasPolicy policy) {sender : Nat} {r : Recognizer}
    (hr : session.recognizer sender = .ok r) : r.uniform policy = r := by
  have hr' := recognizer_uniform policy hr
  rw [h, hr] at hr'
  exact (Except.ok.inj hr').symm

/-- **Flat fan-outs do the same as nested ones.**  If all fan-outs of a session have the same
policy, and each is replaced by one fan-out over its leaves, in order and as often as they occur,
then whatever events are sent, each step has the same result (under fail-fast) or one with the same
single failures (under collect-all), the same happens apart from trace records, and all listeners
remember the same. -/
theorem run_flat (h : session.HasPolicy policy) {steps : List Step}
    (hsteps : ∀ step ∈ steps, step.sends = true) (store : Store) :
    List.Forall₂ (Course.Agree (Run.SameUnder policy)) (session.run steps store)
      (session.flat.run steps store) := by
  refine forall₂_run_replace (fun run run' hrun => hrun.store) ?_ hsteps store
  intro position sender l r hl hr event store
  exact Recognizer.sameUnder_deliver_flat (uniform_of_recognizer h hr) (uniform_of_lookup h hl)
    event store

/-- A fan-out that occurs twice below another one, and a recognizer that forwards messages to the
upper one: on a report each of two diagnostic listeners makes a listener of the host program fail
twice. -/
def nested : Session :=
  let inner : Listener := .fanOut .collectAll
    [.leaf (.diagnostic ⟨false⟩), .leaf (.host 0 (.failing "strict" [.syntaxError] none 0))]
  let outer : Listener := .fanOut .collectAll [inner, .leaf (.collector 1), inner]
  let origin : Origin := .ofTexts 0 "Expr.g4" ["expr"] ["a", "b"] " "
  ⟨⟨[.ok inner, .ok outer]⟩, [{ toOrigin := origin, reply := .forward outer 1 0 none }]⟩

theorem run_flat_nested :
    nested.HasPolicy .collectAll ∧ ∀ first second store,
      List.Forall₂ (Course.Agree (Run.SameUnder .collectAll))
        (nested.run [.deliver 1 0 first, .deliver 0 0 second] store)
        (nested.flat.run [.deliver 1 0 first, .deliver 0 0 second] store) := by
  have h : nested.HasPolicy .collectAll := rfl
  refine ⟨h, fun first second store => run_flat h ?_ store⟩
  simp [Step.sends]

end Session

end ParseListeners
