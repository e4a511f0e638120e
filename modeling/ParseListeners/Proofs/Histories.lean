import Mathlib.Data.List.Dedup
import ParseListeners.Alternatives

/-!
# Sets of alternatives as finite sets

A set of alternatives is made by putting numbers in, into a new set or one made before.  Whatever
its `History` is, it is the set that collecting the numbers put in makes
(`History.outcome_eq_ofList`).  That set keeps each number once, in ascending order, so sets made in
different ways are equal as soon as they have the same members (`History.outcome_refines`).
-/

namespace ParseListeners

namespace Alternatives

/-- A way to make a set of alternatives. -/
inductive History where
  /-- It is new. -/
  | new
  /-- It is the default one. -/
  | default
  /-- It is collected from numbers that come in this order. -/
  | collected (ns : List UInt64)
  /-- It is a copy of another one. -/
  | copied (h : History)
  /-- A number is put in. -/
  | inserted (h : History) (n : UInt64)

namespace History

/-- The set that is made. -/
def outcome : History → Alternatives
  | .new => ∅
  | .default => Inhabited.default
  | .collected ns => ofList ns
  | .copied h => h.outcome
  | .inserted h n => (h.outcome.add n).2

/-- The numbers that are put in, the first one first. -/
def given : History → List UInt64
  | .new => []
  | .default => []
  | .collected ns => ns
  | .copied h => h.given
  | .inserted h n => h.given ++ [n]

end History

/-! ### Collecting -/

theorem ofList_concat (ns : List UInt64) (n : UInt64) :
    ofList (ns ++ [n]) = (ofList ns).insert n := by
  rw [ofList, List.foldl_append, List.foldl_cons, List.foldl_nil, ofList]

/-- The list that is kept is made from the empty one by putting number after number in. -/
theorem toList_ofList (ns : List UInt64) :
    (ofList ns).toList = ns.foldl (fun ms n => (put n ms).2) [] :=
  (List.foldl_hom toList fun s n => (toList_insert s n).symm).symm

theorem nodup (s : Alternatives) : s.toList.Nodup :=
  s.ascending.imp fun {_ _} hlt heq => UInt64.ne_of_lt hlt heq

theorem toList_ofList_perm (ns : List UInt64) : (ofList ns).toList.Perm ns.dedup := by
  refine (List.perm_ext_iff_of_nodup (ofList ns).nodup ns.nodup_dedup).2 fun k => ?_
  rw [List.mem_dedup, ← mem_def, mem_ofList]

theorem ofList_eq_iff {ns ms : List UInt64} : ofList ns = ofList ms ↔ ∀ k, k ∈ ns ↔ k ∈ ms := by
  simp only [ext_mem_iff, mem_ofList]

theorem insert_eq_self_iff {s : Alternatives} {n : UInt64} : s.insert n = s ↔ n ∈ s :=
  ⟨fun h => h ▸ mem_insert.2 (.inl rfl), insert_of_mem⟩

/-! ### Histories -/

namespace History

/-- Copies and detours do not matter: the set is the one that is collected from the numbers put
in. -/
theorem outcome_eq_ofList (h : History) : h.outcome = ofList h.given := by
  induction h with
  | new => rfl
  | default => rfl
  | collected ns => rfl
  | copied h ih => exact ih
  | inserted h n ih => rw [outcome, given, ofList_concat, ih, insert]

/-- **A set of alternatives is the finite set of the numbers put in**, however it was made.  What is
kept is what putting number after number in the empty list gives.  It is strictly ascending and has
each number once that was put in.  The size is how many different ones these are, and the set is
empty if there are none.  Putting a number in tells whether it was new, adds it and nothing else,
and leaves the set as it is if and only if it was not new.  Two sets are equal if and only if the
same numbers were put in, and what is collected from two lists is the same if and only if they
differ in order and repetitions alone. -/
theorem outcome_refines (h : History) :
    let s := h.outcome
    s.toList = h.given.foldl (fun ms n => (put n ms).2) [] ∧
      s.toList.Pairwise (· < ·) ∧ s.toList.Perm h.given.dedup ∧
      (∀ k, k ∈ s ↔ k ∈ h.given) ∧
      s.size = h.given.dedup.length ∧
      (s.isEmpty = true ↔ ∀ k, k ∉ s) ∧
      (∀ n, ((s.add n).1 = true ↔ n ∉ s) ∧ (∀ k, k ∈ (s.add n).2 ↔ k = n ∨ k ∈ s) ∧
        ((s.add n).1 = false ↔ (s.add n).2 = s)) ∧
      (∀ other : History, s = other.outcome ↔ ∀ k, k ∈ h.given ↔ k ∈ other.given) ∧
      ∀ ns ms, ofList ns = ofList ms ↔ ns.dedup.Perm ms.dedup := by
  intro s
  have hs : s = ofList h.given := h.outcome_eq_ofList
  have hperm : s.toList.Perm h.given.dedup := hs ▸ toList_ofList_perm h.given
  refine ⟨?_, s.ascending, hperm, fun k => ?_, hperm.length_eq, isEmpty_iff, fun n => ?_,
    fun other => ?_, fun ns ms => ?_⟩
  · rw [hs, toList_ofList]
  · rw [hs, mem_ofList]
  · rw [add_eq]
    refine ⟨decide_eq_true_iff, fun k => mem_insert, ?_⟩
    rw [insert_eq_self_iff, decide_eq_false_iff_not, not_not]
  · rw [hs, outcome_eq_ofList, ofList_eq_iff]
  · rw [ofList_eq_iff, List.perm_ext_iff_of_nodup ns.nodup_dedup ms.nodup_dedup]
    simp only [List.mem_dedup]

example : (inserted (collected [130, 3, 64, 1, 3]) 18446744073709551615).outcome.toList =
    [1, 3, 64, 130, 18446744073709551615] := by
  decide +kernel

end History

end Alternatives

end ParseListeners
