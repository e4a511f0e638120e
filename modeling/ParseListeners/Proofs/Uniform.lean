import ParseListeners.Proofs.Replacement
import ParseListeners.Proofs.Sequencing

/-!
# One policy for all

`Session.uniform` gives every fan-out of a session the same policy.  Under fail-fast a session does
what it does under collect-all up to the first call that breaks down, and then nothing more
(`Session.perform_uniform_cut`): `Run.Cut` says so of two runs.  If nothing breaks down the two runs
are the same.
-/

namespace ParseListeners

/-! ### Sessions with one policy -/

namespace Listener

mutual

/-- The tree with the same policy at every fan-out. -/
def uniform (policy : Policy) : Listener → Listener
  | .leaf l => .leaf l
  | .fanOut _ delegates => .fanOut policy (uniformEach policy delegates)

/-- The trees with the same policy at every fan-out. -/
def uniformEach (policy : Policy) : List Listener → List Listener
  | [] => []
  | d :: ds => uniform policy d :: uniformEach policy ds

end

@[simp] theorem uniform_leaf (policy : Policy) (l : Leaf) :
    (leaf l).uniform policy = .leaf l := by
  rw [uniform]

theorem uniform_fanOut (policy other : Policy) (ds : List Listener) :
    (fanOut other ds).uniform policy = .fanOut policy (ds.map (uniform policy)) := by
  have h : uniformEach policy ds = ds.map (uniform policy) := by
    induction ds with
    | nil => rfl
    | cons d ds ih => rw [uniformEach, ih, List.map_cons]
  rw [uniform, h]

end Listener

/-- The recognizer with the same policy at every fan-out that it forwards to. -/
def Recognizer.uniform (policy : Policy) (r : Recognizer) : Recognizer :=
  { r with reply := r.reply.map (Listener.uniform policy) }

/-- The registry with the same policy at every fan-out. -/
def Registry.uniform (policy : Policy) (r : Registry) : Registry :=
  ⟨r.toList.map (Except.map (Listener.uniform policy))⟩

/-- The session with the same policy at every fan-out. -/
def Session.uniform (policy : Policy) (s : Session) : Session :=
  ⟨s.registry.uniform policy, s.recognizers.map (Recognizer.uniform policy)⟩

theorem Recognizer.forward?_uniform (policy : Policy) (r : Recognizer) (m : String) :
    (r.uniform policy).forward? m =
      (r.forward? m).map fun (target, e) => (target.uniform policy, e) :=
  r.forward?_replace (Listener.uniform policy) m

theorem Registry.lookup_uniform {registry : Registry} {position : Nat} {l : Listener}
    (policy : Policy) (h : registry.lookup position = .ok l) :
    (registry.uniform policy).lookup position = .ok (l.uniform policy) := by
  have hl := registry.lookup_replace (Listener.uniform policy) position
  rwa [h] at hl

theorem Session.recognizer_uniform {session : Session} {position : Nat} {r : Recognizer}
    (policy : Policy) (h : session.recognizer position = .ok r) :
    (session.uniform policy).recognizer position = .ok (r.uniform policy) := by
  have hr := session.recognizer_replace (Listener.uniform policy) position
  rwa [h] at hr

/-! ### Runs that are cut short -/

namespace Run

/-- The run `short` does what the run `full` does, up to the first call that breaks down. -/
structure Cut (short full : Run (Except Failure Unit)) : Prop where
  /-- What happens in the short run happens first in the full one. -/
  journal_isPrefix : short.journal <+: full.journal
  /-- One succeeds exactly if the other does. -/
  ok_iff : short.result = .ok () ↔ full.result = .ok ()
  /-- Then nothing has failed, and the runs are the same. -/
  eq_of_ok : short.result = .ok () → short = full ∧ ∀ f, .failed f ∉ short.journal
  /-- Otherwise the short run ends with a call that breaks down, and nothing failed before. -/
  breaks_down : ∀ f, short.result = .error f → ∃ before call g,
    short.journal = before ++ call ∧ Breakdown call g ∧ ∀ f, .failed f ∉ before

namespace Cut

variable {short full : Run (Except Failure Unit)}

theorem prepend (h : short.Cut full) {start : List Entry} (hstart : ∀ f, .failed f ∉ start) :
    Cut { short with journal := start ++ short.journal }
      { full with journal := start ++ full.journal } := by
  refine ⟨?_, h.ok_iff, fun hok => ?_, fun f hf => ?_⟩
  · exact (List.prefix_append_right_inj start).2 h.journal_isPrefix
  · obtain ⟨rfl, hnone⟩ := h.eq_of_ok hok
    refine ⟨rfl, fun f hf => ?_⟩
    rcases List.mem_append.1 hf with hf | hf
    · exact hstart f hf
    · exact hnone f hf
  · obtain ⟨before, call, g, hj, hcall, hbefore⟩ := h.breaks_down f hf
    refine ⟨start ++ before, call, g, ?_, hcall, fun f hf => ?_⟩
    · change start ++ short.journal = _
      rw [hj, List.append_assoc]
    · rcases List.mem_append.1 hf with hf | hf
      · exact hstart f hf
      · exact hbefore f hf

theorem mapError (h : short.Cut full) (wrap : Failure → Failure) :
    Cut { short with result := short.result.mapError wrap }
      { full with result := full.result.mapError wrap } := by
  have hok : ∀ result : Except Failure Unit, result.mapError wrap = .ok () ↔ result = .ok () := by
    intro result
    cases result with
    | ok u => simp [Except.mapError]
    | error f => simp [Except.mapError]
  refine ⟨h.journal_isPrefix, ?_, fun hs => ?_, fun f hf => ?_⟩
  · rw [hok, hok, h.ok_iff]
  · obtain ⟨rfl, hnone⟩ := h.eq_of_ok ((hok _).1 hs)
    exact ⟨rfl, hnone⟩
  · cases hs : short.result with
    | ok u => simp [hs, Except.mapError] at hf
    | error g => exact h.breaks_down g hs

/-- A run that ends with the first call that breaks down may be followed by anything in the full
run. -/
theorem extend (h : short.Cut full) {f : Failure} (hf : short.result = .error f)
    {longer : Run (Except Failure Unit)} (hj : full.journal <+: longer.journal)
    (hr : longer.result ≠ .ok ()) : short.Cut longer := by
  have hs : short.result ≠ .ok () := by simp [hf]
  exact ⟨h.journal_isPrefix.trans hj, iff_of_false hs hr, fun hok => absurd hok hs, h.breaks_down⟩

/-- If each action of one list cuts short the one of the other list, the first list under fail-fast
cuts short the second under collect-all. -/
theorem combine {α : Type} {ds : List α} {a b : α → Action}
    (h : ∀ d ∈ ds, ∀ s, (a d s).Cut (b d s)) (s : Store) :
    (Policy.failFast.combine (ds.map a) s).Cut (Policy.collectAll.combine (ds.map b) s) := by
  induction ds generalizing s with
  | nil =>
    refine ⟨List.prefix_rfl, Iff.rfl, fun _ => ⟨rfl, fun f => List.not_mem_nil⟩, fun f hf => ?_⟩
    cases hf
  | cons d ds ih =>
    have hd := h d List.mem_cons_self s
    have hds := fun d' h' => h d' (List.mem_cons_of_mem d h')
    rw [List.map_cons, List.map_cons]
    cases hr : (a d s).result with
    | ok u =>
      obtain ⟨heq, hnone⟩ := hd.eq_of_ok hr
      rw [Policy.combine_cons_of_ok hr, Policy.combine_cons_of_ok (heq ▸ hr), ← heq]
      exact (ih hds _).prepend hnone
    | error f =>
      -- fail-fast stops here; collect-all goes on, and fails in the end
      rw [Policy.combine_failFast_cons_of_error hr]
      have hb : (b d s).result ≠ .ok () := fun hb => by simp [hd.ok_iff.2 hb] at hr
      have hcourses : Policy.collectAll.courses (b d :: ds.map b) s =
          b d s :: Policy.collectAll.courses (ds.map b) (b d s).store :=
        Policy.courses_cons_of_goesOn rfl
      refine hd.extend hr ?_ fun hok => ?_
      · rw [Policy.journal_combine, hcourses, List.flatMap_cons]
        exact List.prefix_append _ _
      · rw [Policy.result_combine_eq_ok_iff, hcourses] at hok
        exact hb (hok _ List.mem_cons_self)

end Cut

end Run

/-! ### Dispatches -/

namespace Recognizer

variable {r : Recognizer} {event : Event} {leaf : Leaf} {m : String} {s : Store}

theorem cut_deliver_leaf_of_none (r r' : Recognizer) (horigin : r'.toOrigin = r.toOrigin)
    (h : leaf.message? r.toOrigin event = none) (s : Store) :
    (r.deliver event (.leaf leaf) s).Cut (r'.deliver event (.leaf leaf) s) := by
  rw [deliver_leaf_of_none h, deliver_leaf_of_none (horigin ▸ h), horigin]
  rcases leaf.take_cases r.toOrigin event s with
    ⟨hok, hwork⟩ | ⟨f, work, herr, hjournal, hwork, hbreak⟩
  · refine ⟨List.prefix_rfl, Iff.rfl, fun _ => ⟨rfl, fun f hf => ?_⟩, fun f hf => ?_⟩
    · rcases List.mem_cons.1 hf with hf | hf
      · cases hf
      · simpa [Entry.isWork] using hwork _ hf
    · rw [hok] at hf; cases hf
  · refine ⟨List.prefix_rfl, Iff.rfl, fun hok => ?_, fun _ _ => ?_⟩
    · rw [herr] at hok; cases hok
    · refine ⟨[], _, f, ?_, hbreak, fun f => List.not_mem_nil⟩
      rw [hjournal]; rfl

/-- If the leaves of two sessions cut each other short, so do their trees, one under fail-fast and
the other under collect-all. -/
theorem cut_deliver_uniform {r r' : Recognizer}
    (hleaf : ∀ leaf s, (r.deliver event (.leaf leaf) s).Cut (r'.deliver event (.leaf leaf) s))
    (l : Listener) (s : Store) :
    (r.deliver event (l.uniform .failFast) s).Cut (r'.deliver event (l.uniform .collectAll) s) := by
  induction l generalizing s with
  | leaf leaf =>
    rw [Listener.uniform_leaf, Listener.uniform_leaf]
    exact hleaf leaf s
  | fanOut policy ds ih =>
    rw [Listener.uniform_fanOut, Listener.uniform_fanOut, deliver_fanOut, deliver_fanOut,
      List.length_map, List.length_map, List.map_map, List.map_map]
    have hannounce : ∀ f, .failed f ∉ [Entry.traced (event.forwardingTrace ds.length)] := by simp
    exact (Run.Cut.combine ih s).prepend hannounce

theorem cut_notify_uniform (r : Recognizer) (m : String) (s : Store) :
    ((r.uniform .failFast).notify m s).Cut ((r.uniform .collectAll).notify m s) := by
  rcases r.reply_cases m with ⟨hr, -⟩ | ⟨cause, hr, -⟩ | ⟨target, e, hto⟩
  · have hr' : ∀ policy, (r.uniform policy).reply = .accept := by simp [uniform, hr, Reply.map]
    rw [notify_of_accept (hr' _), notify_of_accept (hr' _)]
    refine ⟨List.prefix_rfl, Iff.rfl, fun _ => ⟨rfl, by simp⟩, fun f hf => ?_⟩
    cases hf
  · have hr' : ∀ policy, (r.uniform policy).reply = .refuse cause := by
      simp [uniform, hr, Reply.map]
    rw [notify_of_refuse (hr' _), notify_of_refuse (hr' _)]
    refine ⟨List.prefix_rfl, Iff.rfl, fun hok => ?_, fun f _ => ?_⟩
    · cases hok
    · exact ⟨[], _, _, rfl, .refusal, fun f => List.not_mem_nil⟩
  · have hto' : ∀ policy, (r.uniform policy).forward? m = some (target.uniform policy, e) := by
      simp [forward?_uniform, hto]
    rw [notify_of_forward (hto' _), notify_of_forward (hto' _)]
    have hnote : ∀ f, .failed f ∉ [Entry.notified r.index m] := by simp
    -- a syntax error is not handed back, so every leaf below the target deals with it by itself
    have hleaf : ∀ leaf s, ((r.uniform .failFast).deliver (.syntaxError e) (.leaf leaf) s).Cut
        ((r.uniform .collectAll).deliver (.syntaxError e) (.leaf leaf) s) := fun leaf s =>
      cut_deliver_leaf_of_none _ _ rfl (Leaf.message?_syntaxError _ e leaf) s
    exact ((cut_deliver_uniform hleaf target s).mapError .relayed).prepend hnote

/-- **Fail-fast does what collect-all does, up to the first call that breaks down.** -/
theorem deliver_uniform_cut (r : Recognizer) (event : Event) (l : Listener) (s : Store) :
    ((r.uniform .failFast).deliver event (l.uniform .failFast) s).Cut
      ((r.uniform .collectAll).deliver event (l.uniform .collectAll) s) := by
  refine cut_deliver_uniform (fun leaf s => ?_) l s
  cases hm : leaf.message? r.toOrigin event with
  | none => exact cut_deliver_leaf_of_none (r.uniform .failFast) (r.uniform .collectAll) rfl hm s
  | some m =>
    rw [deliver_leaf_of_some (r := r.uniform .failFast) hm,
      deliver_leaf_of_some (r := r.uniform .collectAll) hm]
    have hcall : ∀ f, .failed f ∉ [Entry.called leaf r.toOrigin event] := by simp
    exact (r.cut_notify_uniform m s).prepend hcall

end Recognizer

/-! ### Sessions -/

namespace Session

variable {session : Session} {position sender : Nat} {l : Listener} {r : Recognizer}

/-- **Under fail-fast a session does what it does under collect-all, up to the first call that
breaks down**, whatever the event, the listener, the recognizer and the memories. -/
theorem perform_uniform_cut (hl : session.registry.lookup position = .ok l)
    (hr : session.recognizer sender = .ok r) (store : Store) (event : Event) :
    ∃ short full : Run (Except Failure Unit), short.Cut full ∧
      (session.uniform .failFast).perform store (.deliver position sender event) =
        .ok { short with result := .delivered short.result } ∧
      (session.uniform .collectAll).perform store (.deliver position sender event) =
        .ok { full with result := .delivered full.result } :=
  ⟨_, _, r.deliver_uniform_cut event l store,
    perform_deliver (Registry.lookup_uniform .failFast hl) (recognizer_uniform .failFast hr) ..,
    perform_deliver (Registry.lookup_uniform .collectAll hl) (recognizer_uniform .collectAll hr) ..⟩

/-- A fan-out over a diagnostic listener and a listener of the host program that takes no syntax
errors, with a recognizer that forwards messages to that fan-out itself. -/
def echoing : Session :=
  let tree : Listener := .fanOut .collectAll
    [.leaf (.diagnostic ⟨false⟩), .leaf (.host 0 (.failing "strict" [.syntaxError] none 0))]
  let origin : Origin := .ofTexts 0 "Expr.g4" ["expr"] ["a", "b"] " "
  ⟨⟨[.ok tree]⟩, [{ toOrigin := origin, reply := .forward tree 1 0 none }]⟩

theorem perform_uniform_cut_echoing :
    ∃ l r, echoing.registry.lookup 0 = .ok l ∧ echoing.recognizer 0 = .ok r ∧
      ∀ store event, ∃ short full : Run (Except Failure Unit), short.Cut full ∧
        (echoing.uniform .failFast).perform store (.deliver 0 0 event) =
          .ok { short with result := .delivered short.result } ∧
        (echoing.uniform .collectAll).perform store (.deliver 0 0 event) =
          .ok { full with result := .delivered full.result } :=
  ⟨_, _, rfl, rfl, perform_uniform_cut rfl rfl⟩

end Session

end ParseListeners
