import Mathlib.Data.List.Basic
import ParseListeners.Listener

/-!
# Trees of listeners

The shape of a tree: its leaves, its height and what stands where.  A place in a tree is the list of
positions, among the delegates of each fan-out from the root on, that lead there.

`Listener.occurrences` lists the leaves with their places.  A listener that is a delegate twice
occurs twice, at two places; the places are all different, and in the order of the list
(`Listener.pairwise_occurrences`).
-/

namespace ParseListeners

namespace Listener

/-! ### Leaves and height -/

mutual

/-- The leaves of a tree, from left to right. -/
def leaves : Listener → List Leaf
  | .leaf l => [l]
  | .fanOut _ delegates => leavesEach delegates

/-- The leaves of some trees. -/
def leavesEach : List Listener → List Leaf
  | [] => []
  | d :: ds => leaves d ++ leavesEach ds

end

mutual

/-- The number of fan-outs above the deepest leaf. -/
def height : Listener → Nat
  | .leaf _ => 0
  | .fanOut _ delegates => heightEach delegates + 1

/-- The height of the highest of some trees. -/
def heightEach : List Listener → Nat
  | [] => 0
  | d :: ds => max (height d) (heightEach ds)

end

@[simp] theorem leaves_leaf (l : Leaf) : (leaf l).leaves = [l] := by rw [leaves]

@[simp] theorem height_leaf (l : Leaf) : (leaf l).height = 0 := by rw [height]

theorem leaves_fanOut (policy : Policy) (ds : List Listener) :
    (fanOut policy ds).leaves = ds.flatMap leaves := by
  have h : leavesEach ds = ds.flatMap leaves := by
    induction ds with
    | nil => rfl
    | cons d ds ih => rw [leavesEach, ih, List.flatMap_cons]
  rw [leaves, h]

@[simp] theorem leaves_fanOut_leaves (policy : Policy) (ls : List Leaf) :
    (fanOut policy (ls.map .leaf)).leaves = ls := by
  rw [leaves_fanOut, List.flatMap_map]
  simp

theorem mem_leaves_fanOut {policy : Policy} {ds : List Listener} {d : Listener} {l : Leaf}
    (hd : d ∈ ds) (hl : l ∈ d.leaves) : l ∈ (fanOut policy ds).leaves := by
  rw [leaves_fanOut]
  exact List.mem_flatMap.2 ⟨d, hd, hl⟩

theorem height_fanOut_le_iff {policy : Policy} {ds : List Listener} {n : Nat} :
    (fanOut policy ds).height ≤ n + 1 ↔ ∀ d ∈ ds, d.height ≤ n := by
  have h : heightEach ds ≤ n ↔ ∀ d ∈ ds, d.height ≤ n := by
    induction ds with
    | nil => simp [heightEach]
    | cons d ds ih => rw [heightEach, Nat.max_le, ih, List.forall_mem_cons]
  rw [height, Nat.add_le_add_iff_right, h]

theorem height_lt_of_mem {policy : Policy} {ds : List Listener} {d : Listener} (h : d ∈ ds) :
    d.height < (fanOut policy ds).height := by
  have hpos : (fanOut policy ds).height = heightEach ds + 1 := by rw [height]
  have hd := height_fanOut_le_iff.1 (Nat.le_of_eq hpos) d h
  omega

/-! ### Places -/

/-- What stands at a place of a tree. -/
def at? (l : Listener) : List Nat → Option Listener
  | [] => some l
  | i :: place =>
    match l with
    | .leaf _ => none
    | .fanOut _ delegates => delegates[i]?.bind fun d => d.at? place

@[simp] theorem at?_nil (l : Listener) : l.at? [] = some l := by
  cases l <;> rfl

@[simp] theorem at?_fanOut_cons (policy : Policy) (ds : List Listener) (i : Nat)
    (place : List Nat) :
    (fanOut policy ds).at? (i :: place) = ds[i]?.bind fun d => d.at? place := rfl

end Listener

/-- A leaf at a place of a tree. -/
structure Occurrence where
  /-- The place. -/
  place : List Nat
  /-- The leaf. -/
  leaf : Leaf

/-- The same leaf, seen from a fan-out that has the tree at a position. -/
def Occurrence.below (position : Nat) (o : Occurrence) : Occurrence :=
  { o with place := position :: o.place }

namespace Listener

mutual

/-- The leaves of a tree with their places, from left to right. -/
def occurrences : Listener → List Occurrence
  | .leaf l => [⟨[], l⟩]
  | .fanOut _ delegates => occurrencesFrom 0 delegates

/-- The leaves of the delegates of a fan-out from a position on. -/
def occurrencesFrom (position : Nat) : List Listener → List Occurrence
  | [] => []
  | d :: ds =>
    (occurrences d).map (Occurrence.below position) ++ occurrencesFrom (position + 1) ds

end

theorem mem_occurrencesFrom {ds : List Listener} {i : Nat} {o : Occurrence} :
    o ∈ occurrencesFrom i ds ↔
      ∃ (k : Nat) (d : Listener) (o' : Occurrence),
        ds[k]? = some d ∧ o' ∈ d.occurrences ∧ o = o'.below (i + k) := by
  induction ds generalizing i with
  | nil => simp [occurrencesFrom]
  | cons d ds ih =>
    rw [occurrencesFrom, List.mem_append, List.mem_map, ih]
    constructor
    · rintro (⟨o', ho', rfl⟩ | ⟨k, d', o', hk, ho', rfl⟩)
      · exact ⟨0, d, o', rfl, ho', rfl⟩
      · exact ⟨k + 1, d', o', hk, ho', by rw [Nat.add_assoc, Nat.add_comm 1 k]⟩
    · rintro ⟨k, d', o', hk, ho', rfl⟩
      cases k with
      | zero =>
        obtain rfl : d = d' := by simpa using hk
        exact .inl ⟨o', ho', rfl⟩
      | succ k => exact .inr ⟨k, d', o', hk, ho', by rw [Nat.add_assoc, Nat.add_comm 1 k]⟩

/-- The leaves are listed with the places where they stand. -/
theorem mem_occurrences_iff {l : Listener} {o : Occurrence} :
    o ∈ l.occurrences ↔ l.at? o.place = some (.leaf o.leaf) := by
  obtain ⟨place, leaf⟩ := o
  induction l generalizing place with
  | leaf l =>
    cases place with
    | nil => simp [occurrences, eq_comm]
    | cons i place => simp [occurrences, at?]
  | fanOut policy ds ih =>
    rw [occurrences, mem_occurrencesFrom]
    cases place with
    | nil => simp [Occurrence.below]
    | cons i place =>
      rw [at?_fanOut_cons, Option.bind_eq_some_iff]
      constructor
      · rintro ⟨k, d, ⟨place', leaf'⟩, hk, ho, heq⟩
        obtain ⟨⟨rfl, rfl⟩, rfl⟩ : (i = k ∧ place = place') ∧ leaf = leaf' := by
          simpa [Occurrence.below] using heq
        exact ⟨d, hk, (ih d (List.mem_of_getElem? hk) place).1 ho⟩
      · rintro ⟨d, hd, hat⟩
        have ho := (ih d (List.mem_of_getElem? hd) place).2 hat
        exact ⟨i, d, ⟨place, leaf⟩, hd, ho, by rw [Nat.zero_add]; rfl⟩

/-- The leaves below a fan-out that has no other fan-outs below it stand at its positions. -/
theorem occurrences_fanOut_leaves (policy : Policy) (ls : List Leaf) :
    (fanOut policy (ls.map .leaf)).occurrences = ls.zipIdx.map fun (l, i) => ⟨[i], l⟩ := by
  rw [occurrences]
  generalize 0 = i
  induction ls generalizing i with
  | nil => simp [occurrencesFrom]
  | cons l ls ih =>
    simp [occurrencesFrom, occurrences, Occurrence.below, ih, List.zipIdx_cons]

theorem exists_occurrences_eq (policy : Policy) (before : List Leaf) (l : Leaf)
    (after : List Leaf) :
    ∃ os os', (fanOut policy ((before ++ l :: after).map .leaf)).occurrences =
        os ++ ⟨[before.length], l⟩ :: os' ∧
      os.map Occurrence.leaf = before ∧ os'.map Occurrence.leaf = after := by
  refine ⟨before.zipIdx.map fun (l, i) => ⟨[i], l⟩,
    (after.zipIdx (before.length + 1)).map fun (l, i) => ⟨[i], l⟩, ?_, ?_, ?_⟩
  · rw [occurrences_fanOut_leaves, List.zipIdx_append, List.zipIdx_cons, List.map_append,
      List.map_cons, Nat.zero_add]
  · rw [List.map_map]
    exact List.zipIdx_map_fst 0 before
  · rw [List.map_map]
    exact List.zipIdx_map_fst (before.length + 1) after

/-- The places of the leaves are listed in order, each once. -/
theorem pairwise_occurrences (l : Listener) :
    l.occurrences.Pairwise fun o o' => o.place < o'.place := by
  induction l with
  | leaf l => simp [occurrences]
  | fanOut policy ds ih =>
    rw [occurrences]
    suffices key : ∀ i, (occurrencesFrom i ds).Pairwise fun o o' => o.place < o'.place from key 0
    induction ds with
    | nil => intro i; exact List.Pairwise.nil
    | cons d ds ihs =>
      intro i
      rw [occurrencesFrom, List.pairwise_append, List.pairwise_map]
      refine ⟨?_, ihs (fun d' h => ih d' (List.mem_cons_of_mem d h)) _, ?_⟩
      · refine (ih d List.mem_cons_self).imp fun {o o'} h => ?_
        exact List.cons_lt_cons_iff.2 (.inr ⟨rfl, h⟩)
      · rintro o ho o' ho'
        obtain ⟨p, -, rfl⟩ := List.mem_map.1 ho
        obtain ⟨k, d', p', -, -, rfl⟩ := mem_occurrencesFrom.1 ho'
        refine List.cons_lt_cons_iff.2 (.inl ?_)
        omega

end Listener

end ParseListeners
