import Mathlib.Data.List.Sort
import ParseListeners.Proofs.Trees
import ParseListeners.Proofs.Turns

/-!
# Exact delivery

Which leaves of a tree are called when a recognizer sends an event, in terms of the tree: a leaf is
called unless, at some fail-fast fan-out above it, an earlier delegate was left out or failed.  The
leaves that are called are called in the order of the tree, each occurrence once, and with what the
recognizer has sent (`Recognizer.deliver_exact`).

A report may cause notifications, which may cause calls of their own with syntax errors.
`Entry.ownCall?` picks the calls that belong to the dispatch itself.
-/

namespace ParseListeners

/-- The leaf with its place, if it is a leaf that has its turn. -/
def Turn.occurrence? (t : Turn) : Option Occurrence :=
  match t.listener with
  | .leaf leaf => some ⟨t.place, leaf⟩
  | .fanOut .. => none

/-- What a leaf is called with, if the entry is a call and the call belongs to the dispatch of an
event: for a report, syntax errors are those of notifications. -/
def Entry.ownCall? (event : Event) : Entry → Option (Leaf × Origin × Event)
  | .called leaf origin sent =>
    match event, sent with
    | .report _, .syntaxError _ => none
    | _, _ => some (leaf, origin, sent)
  | _ => none

namespace Recognizer

/-- The places of the listeners that have a turn, when the recognizer sends an event. -/
def reached (r : Recognizer) (event : Event) (l : Listener) (s : Store) : List (List Nat) :=
  (r.turns event l s).map Turn.place

/-- The listener at a place has its turn and succeeds. -/
def Succeeds (r : Recognizer) (event : Event) (l : Listener) (s : Store) (place : List Nat) :
    Prop :=
  ∃ t ∈ r.turns event l s, t.place = place ∧ (r.deliver event t.listener t.store).result = .ok ()

variable {r : Recognizer} {event : Event} {policy : Policy} {l d : Listener} {ds : List Listener}
  {i k : Nat} {place : List Nat} {s : Store} {t u : Turn}

/-! ### The turns of delegates, by position -/

theorem of_getElem?_delegateTurns (h : (r.delegateTurns event policy i ds s)[k]? = some t) :
    t.place = [i + k] ∧ ds[k]? = some t.listener := by
  induction ds generalizing i k s with
  | nil => simp [delegateTurns] at h
  | cons d ds ih =>
    rw [delegateTurns] at h
    cases k with
    | zero =>
      obtain rfl : ⟨[i], d, s⟩ = t := by simpa using h
      exact ⟨rfl, rfl⟩
    | succ k =>
      rw [List.getElem?_cons_succ] at h
      split at h
      · obtain ⟨hplace, hk⟩ := ih h
        refine ⟨?_, hk⟩
        rw [hplace, Nat.add_assoc, Nat.add_comm 1 k]
      · simp at h

theorem exists_getElem?_delegateTurns_iff (hk : k < ds.length) :
    (∃ t, (r.delegateTurns event policy i ds s)[k]? = some t) ↔
      ∀ j < k, ∀ t, (r.delegateTurns event policy i ds s)[j]? = some t →
        policy.goesOn (r.deliver event t.listener t.store).result = true := by
  induction ds generalizing i k s with
  | nil => simp at hk
  | cons d ds ih =>
    cases k with
    | zero => simp [delegateTurns]
    | succ k =>
      have hk : k < ds.length := by simpa using hk
      cases hgo : policy.goesOn (r.deliver event d s).result with
      | true =>
        rw [delegateTurns_cons_of_goesOn hgo, List.getElem?_cons_succ, ih hk]
        constructor
        · rintro h (_ | j) hj t ht
          · obtain rfl : ⟨[i], d, s⟩ = t := by simpa using ht
            exact hgo
          · exact h j (by omega) t ht
        · intro h j hj t ht
          exact h (j + 1) (by omega) t ht
      | false =>
        rw [delegateTurns_cons_of_stops hgo]
        constructor
        · rintro ⟨t, ht⟩
          simp at ht
        · intro h
          have := h 0 (by omega) ⟨[i], d, s⟩ rfl
          simp [hgo] at this

/-! ### Turns and places -/

theorem root_mem_turns (l : Listener) (s : Store) : ⟨[], l, s⟩ ∈ r.turns event l s := by
  cases l with
  | leaf leaf => simp [turns]
  | fanOut policy ds => simp [turns]

theorem mem_turns_fanOut :
    t ∈ r.turns event (.fanOut policy ds) s ↔ t = ⟨[], .fanOut policy ds, s⟩ ∨
      ∃ k u, (r.delegateTurns event policy 0 ds s)[k]? = some u ∧
        ∃ t' ∈ r.turns event u.listener u.store, t = t'.below [k] := by
  rw [turns_fanOut, List.mem_cons, List.mem_flatMap]
  refine or_congr_right ?_
  constructor
  · rintro ⟨u, hu, ht⟩
    obtain ⟨t', ht', rfl⟩ := List.mem_map.1 ht
    obtain ⟨k, hk⟩ := List.mem_iff_getElem?.1 hu
    have hplace := (of_getElem?_delegateTurns hk).1
    rw [Nat.zero_add] at hplace
    exact ⟨k, u, hk, t', ht', by rw [hplace]⟩
  · rintro ⟨k, u, hk, t', ht', rfl⟩
    have hplace := (of_getElem?_delegateTurns hk).1
    rw [Nat.zero_add] at hplace
    exact ⟨u, List.mem_of_getElem? hk, List.mem_map.2 ⟨t', ht', by rw [hplace]⟩⟩

theorem at?_of_mem_turns (h : t ∈ r.turns event l s) : l.at? t.place = some t.listener := by
  induction l generalizing s t with
  | leaf leaf =>
    obtain rfl : t = ⟨[], .leaf leaf, s⟩ := by simpa [turns] using h
    rfl
  | fanOut policy ds ih =>
    rcases mem_turns_fanOut.1 h with rfl | ⟨k, u, hk, t', ht', rfl⟩
    · rfl
    · have hd := (of_getElem?_delegateTurns hk).2
      rw [Turn.place_below, List.singleton_append, Listener.at?_fanOut_cons, hd, Option.bind_some]
      exact ih u.listener (List.mem_of_getElem? hd) ht'

theorem eq_root_of_place_eq_nil (h : t ∈ r.turns event l s) (hplace : t.place = []) :
    t = ⟨[], l, s⟩ := by
  cases l with
  | leaf leaf => simpa [turns] using h
  | fanOut policy ds =>
    rcases mem_turns_fanOut.1 h with rfl | ⟨k, u, -, t', -, rfl⟩
    · rfl
    · simp at hplace

theorem exists_mem_turns_fanOut_cons {p : Listener → Store → Prop} :
    (∃ t ∈ r.turns event (.fanOut policy ds) s, t.place = k :: place ∧ p t.listener t.store) ↔
      ∃ u, (r.delegateTurns event policy 0 ds s)[k]? = some u ∧
        ∃ t ∈ r.turns event u.listener u.store, t.place = place ∧ p t.listener t.store := by
  constructor
  · rintro ⟨t, ht, hplace, hp⟩
    rcases mem_turns_fanOut.1 ht with rfl | ⟨k', u, hu, t', ht', rfl⟩
    · simp at hplace
    · obtain ⟨rfl, rfl⟩ : k' = k ∧ t'.place = place := by simpa using hplace
      exact ⟨u, hu, t', ht', rfl, hp⟩
  · rintro ⟨u, hu, t, ht, rfl, hp⟩
    exact ⟨t.below [k], mem_turns_fanOut.2 (.inr ⟨k, u, hu, t, ht, rfl⟩), rfl, hp⟩

theorem mem_reached_fanOut_cons :
    k :: place ∈ r.reached event (.fanOut policy ds) s ↔
      ∃ u, (r.delegateTurns event policy 0 ds s)[k]? = some u ∧
        place ∈ r.reached event u.listener u.store := by
  have h : (∃ t ∈ r.turns event (.fanOut policy ds) s, t.place = k :: place ∧ True) ↔ _ :=
    exists_mem_turns_fanOut_cons (p := fun _ _ => True)
  simpa only [reached, List.mem_map, and_true] using h

theorem succeeds_fanOut_cons :
    r.Succeeds event (.fanOut policy ds) s (k :: place) ↔
      ∃ u, (r.delegateTurns event policy 0 ds s)[k]? = some u ∧
        r.Succeeds event u.listener u.store place :=
  exists_mem_turns_fanOut_cons (p := fun d s => (r.deliver event d s).result = .ok ())

theorem succeeds_nil : r.Succeeds event l s [] ↔ (r.deliver event l s).result = .ok () := by
  constructor
  · rintro ⟨t, ht, hplace, hok⟩
    rwa [eq_root_of_place_eq_nil ht hplace] at hok
  · intro hok
    exact ⟨⟨[], l, s⟩, root_mem_turns l s, rfl, hok⟩

/-- A delegate has its turn unless the fan-out is fail-fast and one before it does not succeed. -/
theorem exists_delegateTurn_iff (hk : k < ds.length) :
    (∃ u, (r.delegateTurns event policy 0 ds s)[k]? = some u) ↔
      (policy = .failFast → ∀ j < k, r.Succeeds event (.fanOut policy ds) s [j]) := by
  constructor
  · rintro ⟨u, hu⟩ rfl j hj
    have hlt : j < (r.delegateTurns event .failFast 0 ds s).length :=
      Nat.lt_trans hj (List.getElem?_eq_some_iff.1 hu).1
    have hgo := (exists_getElem?_delegateTurns_iff hk).1 ⟨u, hu⟩ j hj _
      (List.getElem?_eq_getElem hlt)
    exact succeeds_fanOut_cons.2 ⟨_, List.getElem?_eq_getElem hlt,
      succeeds_nil.2 (Policy.goesOn_failFast_iff.1 hgo)⟩
  · intro h
    refine (exists_getElem?_delegateTurns_iff hk).2 fun j hj u hu => ?_
    cases policy with
    | collectAll => rfl
    | failFast =>
      obtain ⟨u', hu', hok⟩ := succeeds_fanOut_cons.1 (h rfl j hj)
      obtain rfl : u = u' := Option.some.inj (hu.symm.trans hu')
      exact Policy.goesOn_failFast_iff.2 (succeeds_nil.1 hok)

/-- A leaf has its turn if and only if, at each fail-fast fan-out above it, the earlier delegates
have theirs and succeed. -/
theorem mem_reached_iff {o : Occurrence} (ho : o ∈ l.occurrences) :
    o.place ∈ r.reached event l s ↔
      ∀ above i below ds, o.place = above ++ i :: below →
        l.at? above = some (.fanOut .failFast ds) →
          ∀ j < i, r.Succeeds event l s (above ++ [j]) := by
  induction l generalizing o s with
  | leaf leaf =>
    obtain rfl : o = ⟨[], leaf⟩ := by simpa [Listener.occurrences] using ho
    simp [reached, turns]
  | fanOut policy ds ih =>
    rw [Listener.occurrences] at ho
    obtain ⟨k, d, o, hd, ho, rfl⟩ := Listener.mem_occurrencesFrom.1 ho
    have hlt := (List.getElem?_eq_some_iff.1 hd).1
    -- above a leaf of the delegate `k` there are the root and the fan-outs within that delegate
    have hdelegate : ∀ u, (r.delegateTurns event policy 0 ds s)[k]? = some u → u.listener = d :=
      fun u hu => Option.some.inj ((of_getElem?_delegateTurns hu).2.symm.trans hd)
    rw [Nat.zero_add]
    change k :: o.place ∈ _ ↔ ∀ above i below ds', k :: o.place = _ → _
    rw [mem_reached_fanOut_cons]
    constructor
    · rintro ⟨u, hu, hreached⟩ above i below ds' hplace hat j hj
      cases above with
      | nil =>
        -- the fan-out is the root, and it has come to the delegate `k`
        obtain ⟨rfl, -⟩ : k = i ∧ o.place = below := by simpa using hplace
        obtain ⟨rfl, -⟩ : policy = .failFast ∧ ds = ds' := by simpa using hat
        exact (exists_delegateTurn_iff hlt).1 ⟨u, hu⟩ rfl j hj
      | cons k' above =>
        obtain ⟨rfl, htail⟩ : k = k' ∧ o.place = above ++ i :: below := by simpa using hplace
        obtain rfl := hdelegate u hu
        rw [Listener.at?_fanOut_cons, hd, Option.bind_some] at hat
        have hbelow := (ih u.listener (List.mem_of_getElem? hd) ho).1 hreached
        exact succeeds_fanOut_cons.2 ⟨u, hu, hbelow above i below ds' htail hat j hj⟩
    · intro h
      have hturn : ∃ u, (r.delegateTurns event policy 0 ds s)[k]? = some u := by
        refine (exists_delegateTurn_iff hlt).2 ?_
        rintro rfl j hj
        exact h [] k o.place ds rfl rfl j hj
      obtain ⟨u, hu⟩ := hturn
      obtain rfl := hdelegate u hu
      -- what holds of the places above the leaf holds of those within the delegate
      refine ⟨u, hu, (ih u.listener (List.mem_of_getElem? hd) ho).2 ?_⟩
      intro above i below ds' hplace hat j hj
      have hsucceeds := h (k :: above) i below ds' (by rw [hplace]; rfl)
        (by rw [Listener.at?_fanOut_cons, hd, Option.bind_some, hat]) j hj
      obtain ⟨u', hu', hok⟩ := succeeds_fanOut_cons.1 hsucceeds
      obtain rfl : u = u' := Option.some.inj (hu.symm.trans hu')
      exact hok

/-! ### The leaves in turn -/

theorem occurrence?_below (i : Nat) (t : Turn) :
    (t.below [i]).occurrence? = t.occurrence?.map (Occurrence.below i) := by
  cases h : t.listener with
  | leaf leaf => simp [Turn.occurrence?, h, Occurrence.below]
  | fanOut policy ds => simp [Turn.occurrence?, h]

/-- The leaves in turn are leaves of the tree, in the order of the tree. -/
theorem occurrences_turns_sublist (r : Recognizer) (event : Event) (l : Listener) (s : Store) :
    ((r.turns event l s).filterMap Turn.occurrence?).Sublist l.occurrences := by
  induction l generalizing s with
  | leaf leaf => simp [turns, Turn.occurrence?, Listener.occurrences]
  | fanOut policy ds ih =>
    rw [turns, Listener.occurrences, List.filterMap_cons_none rfl]
    suffices key : ∀ i s, ((r.turnsFrom event policy i ds s).filterMap Turn.occurrence?).Sublist
        (Listener.occurrencesFrom i ds) from key 0 s
    induction ds with
    | nil => intro i s; simp [turnsFrom, Listener.occurrencesFrom]
    | cons d ds ihs =>
      intro i s
      rw [turnsFrom, Listener.occurrencesFrom, List.filterMap_append, List.filterMap_map]
      refine List.Sublist.append ?_ ?_
      · have hhead := (ih d List.mem_cons_self s).map (Occurrence.below i)
        rw [List.map_filterMap] at hhead
        exact (List.filterMap_congr fun t _ => occurrence?_below i t) ▸ hhead
      · split
        · exact ihs (fun d' h => ih d' (List.mem_cons_of_mem d h)) (i + 1) _
        · simp

theorem mem_occurrences_turns_iff {o : Occurrence} (ho : o ∈ l.occurrences) :
    o ∈ (r.turns event l s).filterMap Turn.occurrence? ↔ o.place ∈ r.reached event l s := by
  rw [List.mem_filterMap, reached, List.mem_map]
  refine exists_congr fun t => and_congr_right fun ht => ?_
  have hat := at?_of_mem_turns ht
  constructor
  · intro h
    cases hl : t.listener with
    | leaf leaf =>
      simp only [Turn.occurrence?, hl, Option.some.injEq] at h
      rw [← h]
    | fanOut policy ds => simp [Turn.occurrence?, hl] at h
  · intro h
    rw [h, Listener.mem_occurrences_iff.1 ho] at hat
    simp only [Turn.occurrence?, ← Option.some.inj hat, h]

theorem filterMap_occurrence?_turns (l : Listener) (s : Store) :
    (r.turns event l s).filterMap Turn.occurrence? =
      l.occurrences.filter fun o => o.place ∈ r.reached event l s := by
  have hsub := r.occurrences_turns_sublist event l s
  have : Std.Irrefl fun o o' : Occurrence => o.place < o'.place :=
    ⟨fun o => List.lt_irrefl o.place⟩
  have : Std.Antisymm fun o o' : Occurrence => o.place < o'.place :=
    ⟨fun o o' h h' => absurd h (List.lt_asymm h')⟩
  -- both lists are in the order of the tree, so it is enough that they have the same elements
  refine (l.pairwise_occurrences.sublist hsub).eq_of_mem_iff
    (l.pairwise_occurrences.sublist List.filter_sublist) fun o => ?_
  rw [List.mem_filter, decide_eq_true_eq]
  constructor
  · intro h
    exact ⟨hsub.subset h, (mem_occurrences_turns_iff (hsub.subset h)).1 h⟩
  · rintro ⟨ho, hreached⟩
    exact (mem_occurrences_turns_iff ho).2 hreached

/-! ### The calls of a dispatch -/

theorem ownCall?_of_not_called {entry : Entry} (h : entry.isWork = true ∨ ∃ f, entry = .failed f) :
    entry.ownCall? event = none := by
  rcases h with h | ⟨f, rfl⟩
  · cases entry with
    | called leaf origin sent => simp [Entry.isWork] at h
    | _ => rfl
  · rfl

theorem ownCall?_of_mem_notify {report : Report} {m : String} {entry : Entry}
    (h : entry ∈ (r.notify m s).journal) : entry.ownCall? (.report report) = none := by
  rcases r.reply_cases m with ⟨hr, -⟩ | ⟨cause, hr, -⟩ | ⟨target, e, hto⟩
  · rw [notify_of_accept hr] at h
    obtain rfl := List.mem_singleton.1 h
    rfl
  · rw [notify_of_refuse hr] at h
    obtain rfl | rfl : entry = _ ∨ entry = _ := by simpa using h
    · rfl
    · rfl
  · rw [notify_of_forward hto] at h
    rcases List.mem_cons.1 h with rfl | h
    · rfl
    · rcases of_mem_journal_deliver_syntaxError h with ⟨leaf, rfl⟩ | hwork
      · rfl
      · exact ownCall?_of_not_called hwork

theorem filterMap_ownCall?_deliver_leaf (r : Recognizer) (event : Event) (leaf : Leaf) (s : Store) :
    (r.deliver event (.leaf leaf) s).journal.filterMap (Entry.ownCall? event) =
      [(leaf, r.toOrigin, event)] := by
  have hself : (Entry.called leaf r.toOrigin event).ownCall? event =
      some (leaf, r.toOrigin, event) := by
    cases event <;> rfl
  cases hm : leaf.message? r.toOrigin event with
  | none =>
    rw [deliver_leaf_of_none hm, List.filterMap_cons_some hself, List.filterMap_eq_nil_iff.2]
    exact fun entry h => ownCall?_of_not_called (Leaf.isWork_or_failed_of_mem_take h)
  | some m =>
    rw [deliver_leaf_of_some hm, List.filterMap_cons_some hself, List.filterMap_eq_nil_iff.2]
    intro entry h
    cases event with
    | syntaxError e => simp at hm
    | report report => exact ownCall?_of_mem_notify h

/-- The calls of a dispatch are those of the leaves in turn, with what the recognizer has sent. -/
theorem filterMap_ownCall?_deliver (r : Recognizer) (event : Event) (l : Listener) (s : Store) :
    (r.deliver event l s).journal.filterMap (Entry.ownCall? event) =
      ((r.turns event l s).filterMap Turn.occurrence?).map
        fun o => (o.leaf, r.toOrigin, event) := by
  rw [filterMap_journal_deliver (fun _ => rfl), List.filterMap_eq_flatMap_toList, List.map_flatMap]
  refine List.flatMap_congr fun t _ => ?_
  cases hl : t.listener with
  | leaf leaf =>
    simp [Turn.fold, Turn.occurrence?, hl, filterMap_ownCall?_deliver_leaf]
  | fanOut policy ds => simp [Turn.fold, Turn.occurrence?, hl]

/-- **Delivery is exact.**  The leaves of the tree are listed from left to right, by place.  One of
them has its turn if and only if, at each fail-fast fan-out above it, the earlier delegates have
theirs and succeed.  Those that have their turn are called, in this order and each occurrence once,
with the event and for the recognizer; and what happens is what happens at the turns, in order. -/
theorem deliver_exact (r : Recognizer) (event : Event) (l : Listener) (s : Store) :
    l.occurrences.Pairwise (fun o o' => o.place < o'.place) ∧
      (∀ o ∈ l.occurrences, o.place ∈ r.reached event l s ↔
        ∀ above i below ds, o.place = above ++ i :: below →
          l.at? above = some (.fanOut .failFast ds) →
            ∀ j < i, r.Succeeds event l s (above ++ [j])) ∧
      (r.deliver event l s).journal.filterMap (Entry.ownCall? event) =
        (l.occurrences.filter fun o => o.place ∈ r.reached event l s).map
          (fun o => (o.leaf, r.toOrigin, event)) ∧
      (r.deliver event l s).journal = (r.turns event l s).flatMap
        (Turn.fold (fun n => [.traced (event.forwardingTrace n)])
          fun leaf t => (r.deliver event (.leaf leaf) t).journal) := by
  refine ⟨l.pairwise_occurrences, fun o ho => mem_reached_iff ho, ?_, journal_deliver l s⟩
  rw [filterMap_ownCall?_deliver, filterMap_occurrence?_turns]

end Recognizer

end ParseListeners
