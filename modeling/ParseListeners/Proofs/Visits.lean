import ParseListeners.Proofs.Delivery

/-!
# Visits

When a recognizer sends an event to a tree of listeners, it visits listeners of the tree.  A leaf
may hand back a message, and the recognizer may forward it; then it visits listeners of another tree
before it goes on.  It is as if the leaf had a delegate: the listener that the message is forwarded
to.  So a `Visit` has a path, which leads from a fan-out to a delegate and from such a leaf to the
root of the other tree.  `Recognizer.visits` lists the visits.

* `Recognizer.pairwise_visits` : the visits come in the order of their paths, so what is visited
  below a listener is visited after it, and before the next delegate of the same fan-out is;
* `Recognizer.isVisited_snoc_iff` : a delegate is visited unless its fan-out is not, or is
  fail-fast and an earlier delegate is left out or fails;
* `Recognizer.journal_deliver_visits` : the journal is that of the visits.
-/

namespace ParseListeners

/-- The visit to a listener while an event is sent. -/
structure Visit where
  /-- The way to the listener: the positions of delegates, and 0 for a listener that a message is
  forwarded to. -/
  path : List Nat
  /-- The event that the listener is sent: of a message that is forwarded, the syntax error. -/
  event : Event
  /-- The listener. -/
  listener : Listener
  /-- The memories that it finds. -/
  store : Store

/-- The same visit, seen from where `path` leads on. -/
def Visit.below (path : List Nat) (v : Visit) : Visit := { v with path := path ++ v.path }

namespace Recognizer

/-- Where a message is forwarded to that a leaf hands back on an event, and the syntax error that it
becomes. -/
def forwarded? (r : Recognizer) (event : Event) (leaf : Leaf) : Option (Listener × SyntaxError) :=
  (leaf.message? r.toOrigin event).bind r.forward?

@[simp] theorem forwarded?_syntaxError (r : Recognizer) (e : SyntaxError) (leaf : Leaf) :
    r.forwarded? (.syntaxError e) leaf = none := rfl

/-- The event and the listener that a path leads to, when the recognizer sends an event. -/
def sent? (r : Recognizer) (event : Event) (l : Listener) : List Nat → Option (Event × Listener)
  | [] => some (event, l)
  | k :: path =>
    match l with
    | .fanOut _ delegates => delegates[k]?.bind fun d => r.sent? event d path
    | .leaf leaf =>
      if k = 0 then
        (r.forwarded? event leaf).bind fun (target, e) => r.sent? (.syntaxError e) target path
      else none

/-- The visits when an event is sent; `handed` lists those that are due to a message. -/
def visitsWith (r : Recognizer) (handed : Listener → SyntaxError → Store → List Visit)
    (event : Event) (l : Listener) (s : Store) : List Visit :=
  (r.turns event l s).flatMap fun t =>
    ⟨t.place, event, t.listener, t.store⟩ ::
      (t.fold (fun _ => []) fun leaf s =>
        match r.forwarded? event leaf with
        | some (target, e) => handed target e s
        | none => []).map (Visit.below (t.place ++ [0]))

/-- The visits when the recognizer sends an event, in order. -/
def visits (r : Recognizer) (event : Event) (l : Listener) (s : Store) : List Visit :=
  r.visitsWith (fun target e s => r.visitsWith (fun _ _ _ => []) (.syntaxError e) target s) event l
    s

/-- The visits directly below a listener that is visited. -/
def visitsBelow (r : Recognizer) (event : Event) : Listener → Store → List Visit
  | .fanOut policy delegates, s =>
    (r.delegateTurns event policy 0 delegates s).map fun u => ⟨u.place, event, u.listener, u.store⟩
  | .leaf leaf, s =>
    match r.forwarded? event leaf with
    | some (target, e) => [⟨[0], .syntaxError e, target, s⟩]
    | none => []

variable {r : Recognizer} {event : Event} {l : Listener} {s : Store} {k : Nat} {path : List Nat}
  {u v : Visit}

/-! ### One step of a path -/

theorem sent?_fanOut_singleton (policy : Policy) (ds : List Listener) :
    r.sent? event (.fanOut policy ds) [k] = ds[k]?.map fun d => (event, d) := by
  cases h : ds[k]? <;> simp [sent?, h]

theorem sent?_leaf_singleton (leaf : Leaf) :
    r.sent? event (.leaf leaf) [k] =
      if k = 0 then (r.forwarded? event leaf).map fun (target, e) => (.syntaxError e, target)
      else none := by
  cases h : r.forwarded? event leaf <;> simp [sent?, h]

theorem sent?_cons (r : Recognizer) (event : Event) (l : Listener) (k : Nat) (path : List Nat) :
    r.sent? event l (k :: path) =
      (r.sent? event l [k]).bind fun (event', d) => r.sent? event' d path := by
  cases l with
  | leaf leaf =>
    by_cases hk : k = 0
    · cases h : r.forwarded? event leaf <;> simp [sent?, h, hk]
    · simp [sent?, hk]
  | fanOut policy ds => cases h : ds[k]? <;> simp [sent?, h]

/-- What holds of a listener that is sent an event if it holds of all that are one step below it
holds of all listeners and events. -/
theorem sent_induction (r : Recognizer) {motive : Event → Listener → Prop}
    (step : ∀ event l, (∀ k event' d, r.sent? event l [k] = some (event', d) → motive event' d) →
      motive event l) (event : Event) (l : Listener) : motive event l := by
  have htrees : ∀ event, (∀ leaf, motive event (.leaf leaf)) → ∀ l, motive event l := by
    intro event hleaf l
    induction l with
    | leaf leaf => exact hleaf leaf
    | fanOut policy ds ih =>
      refine step _ _ fun k event' d hd => ?_
      rw [sent?_fanOut_singleton, Option.map_eq_some_iff] at hd
      obtain ⟨d, hget, rfl, rfl⟩ := hd
      exact ih d (List.mem_of_getElem? hget)
  -- no message is handed back on a syntax error
  have hsyntaxError : ∀ e l, motive (.syntaxError e) l :=
    fun e => htrees (.syntaxError e) fun leaf => step _ _ fun k _ _ h => by
      simp [sent?_leaf_singleton] at h
  refine htrees event (fun leaf => step _ _ fun k event' d hd => ?_) l
  obtain ⟨-, target, e, -, rfl, rfl⟩ : k = 0 ∧ ∃ target e, r.forwarded? event leaf =
      some (target, e) ∧ Event.syntaxError e = event' ∧ target = d := by
    simpa [sent?_leaf_singleton] using hd
  exact hsyntaxError e target

theorem of_getElem?_visitsBelow (h : (r.visitsBelow event l s)[k]? = some u) :
    u.path = [k] ∧ r.sent? event l [k] = some (u.event, u.listener) := by
  cases l with
  | leaf leaf =>
    cases hforwarded : r.forwarded? event leaf with
    | none => simp [visitsBelow, hforwarded] at h
    | some found =>
      obtain ⟨hk, rfl⟩ : k = 0 ∧ ⟨[0], .syntaxError found.2, found.1, s⟩ = u := by
        cases k with
        | zero => simpa [visitsBelow, hforwarded] using h
        | succ k => simp [visitsBelow, hforwarded] at h
      subst hk
      simp [sent?_leaf_singleton, hforwarded]
  | fanOut policy ds =>
    rw [visitsBelow, List.getElem?_map, Option.map_eq_some_iff] at h
    obtain ⟨t, ht, rfl⟩ := h
    obtain ⟨hplace, hget⟩ := of_getElem?_delegateTurns ht
    rw [Nat.zero_add] at hplace
    simp [sent?_fanOut_singleton, hplace, hget]

/-! ### The visits below a visit -/

theorem visitsWith_syntaxError (handed : Listener → SyntaxError → Store → List Visit)
    (e : SyntaxError) (l : Listener) (s : Store) :
    r.visitsWith handed (.syntaxError e) l s = r.visits (.syntaxError e) l s := by
  simp only [visits, visitsWith, forwarded?_syntaxError]

theorem visits_eq (r : Recognizer) (event : Event) (l : Listener) (s : Store) :
    r.visits event l s = ⟨[], event, l, s⟩ :: (r.visitsBelow event l s).flatMap
      fun u => (r.visits u.event u.listener u.store).map (Visit.below u.path) := by
  cases l with
  | leaf leaf =>
    rw [visits, visitsWith, turns, List.flatMap_singleton]
    cases h : r.forwarded? event leaf with
    | none => simp [Turn.fold, visitsBelow, h]
    | some found => simp [Turn.fold, visitsBelow, h, visitsWith_syntaxError]
  | fanOut policy ds =>
    rw [visits, visitsWith, turns_fanOut, List.flatMap_cons, List.flatMap_assoc, visitsBelow,
      List.flatMap_map]
    refine congrArg (List.cons _) (List.flatMap_congr fun u _ => ?_)
    rw [visits, visitsWith, List.flatMap_map, List.map_flatMap]
    refine List.flatMap_congr fun t _ => ?_
    -- seen from the fan-out, a path is longer by one position
    simp [Turn.fold, Visit.below, Function.comp_def]

/-- A visit is the first one, or one that is due to a visit directly below it. -/
theorem mem_visits_iff :
    v ∈ r.visits event l s ↔ v = ⟨[], event, l, s⟩ ∨
      ∃ k u, (r.visitsBelow event l s)[k]? = some u ∧
        ∃ v' ∈ r.visits u.event u.listener u.store, v = v'.below [k] := by
  rw [visits_eq, List.mem_cons, List.mem_flatMap]
  refine or_congr_right ?_
  constructor
  · rintro ⟨u, hu, hv⟩
    obtain ⟨v', hv', rfl⟩ := List.mem_map.1 hv
    obtain ⟨k, hk⟩ := List.mem_iff_getElem?.1 hu
    exact ⟨k, u, hk, v', hv', by rw [(of_getElem?_visitsBelow hk).1]⟩
  · rintro ⟨k, u, hk, v', hv', rfl⟩
    refine ⟨u, List.mem_of_getElem? hk, List.mem_map.2 ⟨v', hv', ?_⟩⟩
    rw [(of_getElem?_visitsBelow hk).1]

theorem pairwise_visits (r : Recognizer) (event : Event) (l : Listener) (s : Store) :
    (r.visits event l s).Pairwise fun v v' => v.path < v'.path := by
  induction event, l using r.sent_induction generalizing s with
  | step event l ih =>
    rw [visits_eq, List.pairwise_cons, List.pairwise_flatMap]
    refine ⟨fun v hv => ?_, fun u hu => ?_, ?_⟩
    · obtain ⟨u, hu, hv⟩ := List.mem_flatMap.1 hv
      obtain ⟨k, hk⟩ := List.mem_iff_getElem?.1 hu
      obtain ⟨v, -, rfl⟩ := List.mem_map.1 hv
      simp [Visit.below, (of_getElem?_visitsBelow hk).1]
    · obtain ⟨k, hk⟩ := List.mem_iff_getElem?.1 hu
      obtain ⟨hpath, hsent⟩ := of_getElem?_visitsBelow hk
      rw [List.pairwise_map]
      refine (ih k _ _ hsent u.store).imp fun {v v'} h => ?_
      simpa [Visit.below, hpath] using h
    · rw [List.pairwise_iff_getElem]
      intro i j hi hj hij x hx y hy
      obtain ⟨v, -, rfl⟩ := List.mem_map.1 hx
      obtain ⟨v', -, rfl⟩ := List.mem_map.1 hy
      simp only [Visit.below, (of_getElem?_visitsBelow (List.getElem?_eq_getElem hi)).1,
        (of_getElem?_visitsBelow (List.getElem?_eq_getElem hj)).1]
      exact List.cons_lt_cons_iff.2 (.inl hij)

/-! ### Visits by their paths -/

/-- A path leads to a listener that is visited. -/
def IsVisited (r : Recognizer) (event : Event) (l : Listener) (s : Store) (path : List Nat) :
    Prop :=
  ∃ v ∈ r.visits event l s, v.path = path

/-- A path leads to a listener that is visited and succeeds. -/
def IsServed (r : Recognizer) (event : Event) (l : Listener) (s : Store) (path : List Nat) : Prop :=
  ∃ v ∈ r.visits event l s, v.path = path ∧
    (r.deliver v.event v.listener v.store).result = .ok ()

theorem exists_mem_visits_nil {p : Event → Listener → Store → Prop} :
    (∃ v ∈ r.visits event l s, v.path = [] ∧ p v.event v.listener v.store) ↔ p event l s := by
  constructor
  · rintro ⟨v, hv, hpath, hp⟩
    rcases mem_visits_iff.1 hv with rfl | ⟨k, u, -, v, -, rfl⟩
    · exact hp
    · simp [Visit.below] at hpath
  · intro hp
    exact ⟨_, mem_visits_iff.2 (.inl rfl), rfl, hp⟩

/-- The visits at longer paths are due to what is visited directly below. -/
theorem exists_mem_visits_cons {p : Event → Listener → Store → Prop} :
    (∃ v ∈ r.visits event l s, v.path = k :: path ∧ p v.event v.listener v.store) ↔
      ∃ u, (r.visitsBelow event l s)[k]? = some u ∧
        ∃ v ∈ r.visits u.event u.listener u.store, v.path = path ∧
          p v.event v.listener v.store := by
  constructor
  · rintro ⟨v, hv, hpath, hp⟩
    rcases mem_visits_iff.1 hv with rfl | ⟨k', u, hu, v', hv', rfl⟩
    · simp at hpath
    · obtain ⟨rfl, rfl⟩ : k' = k ∧ v'.path = path := by simpa [Visit.below] using hpath
      exact ⟨u, hu, v', hv', rfl, hp⟩
  · rintro ⟨u, hu, v, hv, rfl, hp⟩
    exact ⟨v.below [k], mem_visits_iff.2 (.inr ⟨k, u, hu, v, hv, rfl⟩), rfl, hp⟩

theorem isVisited_nil : r.IsVisited event l s [] :=
  ⟨_, mem_visits_iff.2 (.inl rfl), rfl⟩

theorem isVisited_cons :
    r.IsVisited event l s (k :: path) ↔
      ∃ u, (r.visitsBelow event l s)[k]? = some u ∧
        r.IsVisited u.event u.listener u.store path := by
  have h : (∃ v ∈ r.visits event l s, v.path = k :: path ∧ True) ↔ _ :=
    exists_mem_visits_cons (p := fun _ _ _ => True)
  simpa only [IsVisited, and_true] using h

theorem isServed_nil : r.IsServed event l s [] ↔ (r.deliver event l s).result = .ok () :=
  exists_mem_visits_nil (p := fun event l s => (r.deliver event l s).result = .ok ())

theorem isServed_cons :
    r.IsServed event l s (k :: path) ↔
      ∃ u, (r.visitsBelow event l s)[k]? = some u ∧
        r.IsServed u.event u.listener u.store path :=
  exists_mem_visits_cons (p := fun event l s => (r.deliver event l s).result = .ok ())

/-- A visit is at the path that leads to its event and its listener. -/
theorem sent?_of_mem_visits (h : v ∈ r.visits event l s) :
    r.sent? event l v.path = some (v.event, v.listener) := by
  generalize hpath : v.path = path
  induction path generalizing event l s v with
  | nil =>
    obtain ⟨hevent, hlistener⟩ := (exists_mem_visits_nil
      (p := fun event l _ => event = v.event ∧ l = v.listener)).1 ⟨v, h, hpath, rfl, rfl⟩
    rw [sent?, hevent, hlistener]
  | cons k path ih =>
    obtain ⟨u, hu, v', hv', hpath', hevent, hlistener⟩ := (exists_mem_visits_cons
      (p := fun event l _ => event = v.event ∧ l = v.listener)).1 ⟨v, h, hpath, rfl, rfl⟩
    rw [sent?_cons, (of_getElem?_visitsBelow hu).2, Option.bind_some, ← hevent, ← hlistener]
    exact ih hv' hpath'

theorem isVisited_singleton_iff {x : Event × Listener} (h : r.sent? event l [k] = some x) :
    r.IsVisited event l s [k] ↔
      ∀ ds, l = .fanOut .failFast ds → ∀ j < k, r.IsServed event l s [j] := by
  have hvisited : r.IsVisited event l s [k] ↔ ∃ u, (r.visitsBelow event l s)[k]? = some u := by
    simp only [isVisited_cons, isVisited_nil, and_true]
  rw [hvisited]
  cases l with
  | leaf leaf =>
    by_cases hk : k = 0
    · rw [sent?_leaf_singleton, if_pos hk] at h
      obtain ⟨found, hfound, -⟩ := Option.map_eq_some_iff.1 h
      simp [visitsBelow, hfound, hk]
    · rw [sent?_leaf_singleton, if_neg hk] at h
      cases h
  | fanOut policy ds =>
    -- below a fan-out those are visited that have their turn
    have hlt : k < ds.length := by
      rw [sent?_fanOut_singleton, Option.map_eq_some_iff] at h
      obtain ⟨d, hd, -⟩ := h
      exact (List.getElem?_eq_some_iff.1 hd).1
    have hserved : ∀ j, r.IsServed event (.fanOut policy ds) s [j] ↔
        r.Succeeds event (.fanOut policy ds) s [j] := by
      intro j
      rw [isServed_cons, succeeds_fanOut_cons]
      simp [visitsBelow, isServed_nil, succeeds_nil]
    have hturn : (∃ u, (r.visitsBelow event (.fanOut policy ds) s)[k]? = some u) ↔
        ∃ u, (r.delegateTurns event policy 0 ds s)[k]? = some u := by
      simp [visitsBelow]
    rw [hturn, exists_delegateTurn_iff hlt]
    simp [hserved]

/-- **A delegate is visited** if its fan-out is, and, below a fail-fast fan-out, all delegates
before it are visited and succeed.  A listener that a message is forwarded to is visited if the leaf
is that hands it back. -/
theorem isVisited_snoc_iff {x : Event × Listener} (h : r.sent? event l (path ++ [k]) = some x) :
    r.IsVisited event l s (path ++ [k]) ↔
      r.IsVisited event l s path ∧
        ∀ ds, (r.sent? event l path).map Prod.snd = some (.fanOut .failFast ds) →
          ∀ j < k, r.IsServed event l s (path ++ [j]) := by
  induction path generalizing event l s with
  | nil =>
    rw [List.nil_append] at h
    simp [isVisited_singleton_iff h, isVisited_nil, sent?]
  | cons i path ih =>
    rw [List.cons_append, sent?_cons] at h
    obtain ⟨⟨event', d⟩, hd, h⟩ := Option.bind_eq_some_iff.1 h
    -- what is visited directly below at `i`, if anything is, is what the path leads to
    have hbelow : ∀ u, (r.visitsBelow event l s)[i]? = some u →
        u.event = event' ∧ u.listener = d := by
      intro u hu
      simpa [hd, eq_comm] using (of_getElem?_visitsBelow hu).2
    rw [List.cons_append, isVisited_cons, isVisited_cons, sent?_cons, hd, Option.bind_some]
    constructor
    · rintro ⟨u, hu, hvisited⟩
      obtain ⟨rfl, rfl⟩ := hbelow u hu
      obtain ⟨habove, hserved⟩ := (ih h).1 hvisited
      refine ⟨⟨u, hu, habove⟩, fun ds hds j hj => ?_⟩
      exact isServed_cons.2 ⟨u, hu, hserved ds hds j hj⟩
    · rintro ⟨⟨u, hu, habove⟩, hserved⟩
      obtain ⟨rfl, rfl⟩ := hbelow u hu
      refine ⟨u, hu, (ih h).2 ⟨habove, fun ds hds j hj => ?_⟩⟩
      obtain ⟨u', hu', hj'⟩ := isServed_cons.1 (hserved ds hds j hj)
      obtain rfl : u = u' := Option.some.inj (hu.symm.trans hu')
      exact hj'

/-! ### The journal of the visits -/

/-- What happens at a visit itself: a fan-out makes a trace record; a leaf is called, and then it
hands back a message, which the recognizer may refuse, or deals with the event by itself. -/
def ownEntries (r : Recognizer) (v : Visit) : List Entry :=
  match v.listener with
  | .fanOut _ delegates => [.traced (v.event.forwardingTrace delegates.length)]
  | .leaf leaf =>
    .called leaf r.toOrigin v.event ::
      match leaf.message? r.toOrigin v.event with
      | some m =>
        .notified r.index m ::
          match r.reply with
          | .refuse cause => [.failed (.refused cause)]
          | _ => []
      | none => (leaf.take r.toOrigin v.event v.store).journal

/-- The journal of a dispatch is that of its visits, one after the other. -/
theorem journal_deliver_visits (r : Recognizer) (event : Event) (l : Listener) (s : Store) :
    (r.deliver event l s).journal = (r.visits event l s).flatMap r.ownEntries := by
  induction event, l using r.sent_induction generalizing s with
  | step event l ih =>
    have hbelow : ∀ u ∈ r.visitsBelow event l s,
        ((r.visits u.event u.listener u.store).map (Visit.below u.path)).flatMap r.ownEntries =
          (r.deliver u.event u.listener u.store).journal := by
      intro u hu
      obtain ⟨k, hk⟩ := List.mem_iff_getElem?.1 hu
      rw [ih k _ _ (of_getElem?_visitsBelow hk).2, List.flatMap_map]
      rfl
    rw [visits_eq, List.flatMap_cons, List.flatMap_assoc, List.flatMap_congr hbelow]
    cases l with
    | leaf leaf =>
      cases hm : leaf.message? r.toOrigin event with
      | none => simp [deliver_leaf_of_none hm, ownEntries, visitsBelow, forwarded?, hm]
      | some m =>
        rw [journal_deliver_leaf_of_some hm]
        rcases r.reply_cases m with ⟨hr, hto⟩ | ⟨cause, hr, hto⟩ | ⟨target, e, hto⟩
        · simp [notify_of_accept hr, ownEntries, visitsBelow, forwarded?, hm, hr, hto]
        · simp [notify_of_refuse hr, ownEntries, visitsBelow, forwarded?, hm, hr, hto]
        · obtain ⟨line, column, token, hr, -⟩ := reply_of_forward? hto
          simp [journal_notify_of_forward hto, ownEntries, visitsBelow, forwarded?, hm, hr, hto]
    | fanOut policy ds =>
      rw [journal_deliver_fanOut, Policy.journal_combine, courses_map_deliver _ 0, visitsBelow,
        List.flatMap_map, List.flatMap_map]
      rfl

end Recognizer

end ParseListeners
