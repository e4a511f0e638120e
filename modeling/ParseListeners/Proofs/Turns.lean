import Mathlib.Data.List.Basic
import ParseListeners.Proofs.Calls
import ParseListeners.Proofs.Sequencing

/-!
# Turns

When a recognizer sends an event to a tree of listeners, the listeners of the tree have their turns
one after the other: first a fan-out, then its delegates in order, as long as its policy goes on.
A `Turn` says where in the tree a listener stands and which memories it finds; `Recognizer.turns`
lists the turns of a dispatch.  The notifications that a leaf causes belong to the turn of the leaf.

Each turn is a dispatch of its own, to a smaller tree.  What the whole dispatch does is what the
turns do, in order:

* `Recognizer.result_deliver_eq_ok_iff` : it succeeds exactly if every leaf in turn does;
* `Recognizer.eq_flatMap_turns` : what adds up over the courses of delegates adds up over the turns;
* `Recognizer.filterMap_journal_deliver` : hence a part of the journal that holds no trace records
  is that of the leaves in turn.
-/

namespace ParseListeners

/-! ### The turns of a dispatch -/

/-- The turn of a listener during a dispatch. -/
structure Turn where
  /-- The positions, among the delegates of each fan-out from the root on, that lead to it. -/
  place : List Nat
  /-- The listener. -/
  listener : Listener
  /-- The memories that it finds. -/
  store : Store

namespace Turn

/-- The same turn, seen from a tree that has the listener's tree at `place`. -/
def below (place : List Nat) (t : Turn) : Turn := { t with place := place ++ t.place }

/-- What `leaf` makes of a leaf in turn and the memories it finds, or `fanOut` of the number of
delegates of a fan-out. -/
def fold {α : Type} (fanOut : Nat → α) (leaf : Leaf → Store → α) (t : Turn) : α :=
  match t.listener with
  | .leaf l => leaf l t.store
  | .fanOut _ delegates => fanOut delegates.length

@[simp] theorem place_below (place : List Nat) (t : Turn) :
    (t.below place).place = place ++ t.place := rfl

@[simp] theorem listener_below (place : List Nat) (t : Turn) :
    (t.below place).listener = t.listener := rfl

@[simp] theorem store_below (place : List Nat) (t : Turn) : (t.below place).store = t.store := rfl

end Turn

namespace Recognizer

variable (r : Recognizer) (event : Event)

/-- The turns of the delegates of a fan-out themselves, from a position on. -/
def delegateTurns (policy : Policy) (position : Nat) : List Listener → Store → List Turn
  | [], _ => []
  | d :: ds, s =>
    let run := r.deliver event d s
    ⟨[position], d, s⟩ ::
      if policy.goesOn run.result then delegateTurns policy (position + 1) ds run.store else []

mutual

/-- The turns when the recognizer sends an event to a tree of listeners. -/
def turns : Listener → Store → List Turn
  | .leaf leaf, s => [⟨[], .leaf leaf, s⟩]
  | .fanOut policy delegates, s =>
    ⟨[], .fanOut policy delegates, s⟩ :: turnsFrom policy 0 delegates s

/-- The turns below a fan-out, of its delegates from a position on and below them. -/
def turnsFrom (policy : Policy) (position : Nat) : List Listener → Store → List Turn
  | [], _ => []
  | d :: ds, s =>
    let run := r.deliver event d s
    (turns d s).map (Turn.below [position]) ++
      if policy.goesOn run.result then turnsFrom policy (position + 1) ds run.store else []

end

variable {r event} {policy : Policy} {position : Nat} {d : Listener} {ds : List Listener}
  {s : Store} {t : Turn}

theorem delegateTurns_cons_of_goesOn (h : policy.goesOn (r.deliver event d s).result = true) :
    r.delegateTurns event policy position (d :: ds) s =
      ⟨[position], d, s⟩ ::
        r.delegateTurns event policy (position + 1) ds (r.deliver event d s).store := by
  simp only [delegateTurns, h, ↓reduceIte]

theorem delegateTurns_cons_of_stops (h : policy.goesOn (r.deliver event d s).result = false) :
    r.delegateTurns event policy position (d :: ds) s = [⟨[position], d, s⟩] := by
  simp only [delegateTurns, h, Bool.false_eq_true, ↓reduceIte]

theorem mem_of_mem_delegateTurns (h : t ∈ r.delegateTurns event policy position ds s) :
    t.listener ∈ ds := by
  induction ds generalizing position s with
  | nil => simp [delegateTurns] at h
  | cons d ds ih =>
    rcases List.mem_cons.1 h with rfl | h
    · exact List.mem_cons_self
    · split at h
      · exact List.mem_cons_of_mem _ (ih h)
      · simp at h

theorem courses_map_deliver (policy : Policy) (position : Nat) (ds : List Listener) (s : Store) :
    policy.courses (ds.map (r.deliver event)) s =
      (r.delegateTurns event policy position ds s).map
        fun t => r.deliver event t.listener t.store := by
  induction ds generalizing position s with
  | nil => rfl
  | cons d ds ih =>
    rw [List.map_cons]
    cases hgo : policy.goesOn (r.deliver event d s).result with
    | true =>
      rw [Policy.courses_cons_of_goesOn hgo, delegateTurns_cons_of_goesOn hgo, List.map_cons,
        ih (position + 1)]
    | false => rw [Policy.courses_cons_of_stops hgo, delegateTurns_cons_of_stops hgo]; rfl

theorem turnsFrom_eq_flatMap (policy : Policy) (position : Nat) (ds : List Listener) (s : Store) :
    r.turnsFrom event policy position ds s =
      (r.delegateTurns event policy position ds s).flatMap
        fun t => (r.turns event t.listener t.store).map (Turn.below t.place) := by
  induction ds generalizing position s with
  | nil => simp [turnsFrom, delegateTurns]
  | cons d ds ih =>
    rw [turnsFrom]
    cases hgo : policy.goesOn (r.deliver event d s).result with
    | true => simp [delegateTurns_cons_of_goesOn hgo, ih]
    | false => simp [delegateTurns_cons_of_stops hgo]

theorem turns_fanOut (policy : Policy) (ds : List Listener) (s : Store) :
    r.turns event (.fanOut policy ds) s =
      ⟨[], .fanOut policy ds, s⟩ :: (r.delegateTurns event policy 0 ds s).flatMap
        fun t => (r.turns event t.listener t.store).map (Turn.below t.place) := by
  rw [turns, turnsFrom_eq_flatMap]

/-! ### What a dispatch does, from its turns -/

/-- **A dispatch succeeds exactly if each leaf in turn does.** -/
theorem result_deliver_eq_ok_iff (l : Listener) (s : Store) :
    (r.deliver event l s).result = .ok () ↔
      ∀ t ∈ r.turns event l s, ∀ leaf, t.listener = .leaf leaf →
        (r.deliver event (.leaf leaf) t.store).result = .ok () := by
  induction l generalizing s with
  | leaf leaf => simp [turns]
  | fanOut policy ds ih =>
    rw [result_deliver_fanOut, Policy.result_combine_eq_ok_iff, courses_map_deliver _ 0,
      List.forall_mem_map, turns_fanOut, List.forall_mem_cons]
    simp only [reduceCtorEq, false_implies, implies_true, true_and, List.forall_mem_flatMap,
      List.forall_mem_map, Turn.listener_below, Turn.store_below]
    exact forall₂_congr fun t ht => ih t.listener (mem_of_mem_delegateTurns ht) t.store

/-- What adds up over the courses of the delegates of a fan-out adds up over the turns of a
dispatch, with `announced` for each fan-out in turn. -/
theorem eq_flatMap_turns {α : Type} (obs : Run (Except Failure Unit) → List α)
    (announced : Nat → List α)
    (hcombine : ∀ (policy : Policy) ds s, obs (r.deliver event (.fanOut policy ds) s) =
      announced ds.length ++ (policy.courses (ds.map (r.deliver event)) s).flatMap obs)
    (l : Listener) (s : Store) :
    obs (r.deliver event l s) = (r.turns event l s).flatMap
      (Turn.fold announced fun leaf t => obs (r.deliver event (.leaf leaf) t)) := by
  induction l generalizing s with
  | leaf leaf => simp [turns, Turn.fold]
  | fanOut policy ds ih =>
    -- both sides are sums over the delegates in turn, each with the memories that it finds
    rw [hcombine, turns_fanOut, List.flatMap_cons, courses_map_deliver _ 0, List.flatMap_map,
      List.flatMap_assoc]
    congr 1
    refine List.flatMap_congr fun t ht => ?_
    rw [ih t.listener (mem_of_mem_delegateTurns ht) t.store, List.flatMap_map]
    rfl

/-- The journal of a dispatch is that of its turns: of a fan-out the trace record that it makes, of
a leaf all that it does. -/
theorem journal_deliver (l : Listener) (s : Store) :
    (r.deliver event l s).journal = (r.turns event l s).flatMap
      (Turn.fold (fun n => [.traced (event.forwardingTrace n)])
        fun leaf t => (r.deliver event (.leaf leaf) t).journal) := by
  refine eq_flatMap_turns Run.journal _ (fun policy ds s => ?_) l s
  rw [journal_deliver_fanOut, Policy.journal_combine]
  rfl

/-- On a syntax error nothing is handed back: the leaves in turn are called, and they deal with it
by themselves. -/
theorem of_mem_journal_deliver_syntaxError {e : SyntaxError} {l : Listener} {entry : Entry}
    (h : entry ∈ (r.deliver (.syntaxError e) l s).journal) :
    (∃ leaf, entry = .called leaf r.toOrigin (.syntaxError e)) ∨ entry.isWork = true ∨
      ∃ f, entry = .failed f := by
  rw [journal_deliver] at h
  obtain ⟨t, -, ht⟩ := List.mem_flatMap.1 h
  cases hl : t.listener with
  | leaf leaf =>
    simp only [Turn.fold, hl, deliver_leaf_of_none (Leaf.message?_syntaxError ..),
      List.mem_cons] at ht
    rcases ht with rfl | ht
    · exact .inl ⟨leaf, rfl⟩
    · exact .inr (Leaf.isWork_or_failed_of_mem_take ht)
  | fanOut policy ds =>
    simp only [Turn.fold, hl, List.mem_singleton] at ht
    exact .inr (.inl (by rw [ht]; rfl))

theorem filterMap_journal_deliver {α : Type} {f : Entry → Option α}
    (hf : ∀ record, f (.traced record) = none) (l : Listener) (s : Store) :
    (r.deliver event l s).journal.filterMap f = (r.turns event l s).flatMap
      (Turn.fold (fun _ => [])
        fun leaf t => (r.deliver event (.leaf leaf) t).journal.filterMap f) := by
  rw [journal_deliver, List.filterMap_flatMap]
  refine List.flatMap_congr fun t _ => ?_
  unfold Turn.fold
  cases t.listener with
  | leaf leaf => rfl
  | fanOut policy ds => simp [hf]

end Recognizer

end ParseListeners
