import Mathlib.Algebra.GroupWithZero.Nat
import ParseListeners.Proofs.Construction
import ParseListeners.Proofs.Success

/-!
# Which fan-outs can be built

A fan-out is declared over earlier listeners, and those that could not be built are left out of its
list.  If nothing is left, the fan-out cannot be built either, so a refusal may bring down later
declarations.

The outcome of a declaration hangs on the earlier ones alone (`Registry.getElem?_ofDeclarations`),
and what holds of all listeners of a registry is shown from the earlier ones to the later.  All of
them have leaves (`Registry.occurrences_ne_nil`): a fan-out has those of its delegates, as often as
these are named (`Listener.length_occurrences_fanOut`).  So no event is lost in a fan-out that could
be built (`Registry.ofDeclarations_fanOut`).
-/

namespace ParseListeners

/-! ### Leaves -/

namespace Listener

theorem length_occurrences_fanOut (policy : Policy) (ds : List Listener) :
    (fanOut policy ds).occurrences.length = (ds.map fun d => d.occurrences.length).sum := by
  rw [occurrences]
  generalize 0 = i
  induction ds generalizing i with
  | nil => simp [occurrencesFrom]
  | cons d ds ih => simp [occurrencesFrom, ih]

theorem occurrences_fanOut_ne_nil (policy : Policy) {ds : List Listener} (hne : ds ≠ [])
    (h : ∀ d ∈ ds, d.occurrences ≠ []) : (fanOut policy ds).occurrences ≠ [] := by
  obtain ⟨d, rest, rfl⟩ := List.exists_cons_of_ne_nil hne
  have hd := List.length_pos_iff.2 (h d List.mem_cons_self)
  rw [← List.length_pos_iff, length_occurrences_fanOut, List.map_cons, List.sum_cons]
  omega

end Listener

theorem Entry.eq_called_of_ownCall? {entry : Entry} {event sent : Event} {leaf : Leaf}
    {origin : Origin} (h : entry.ownCall? event = some (leaf, origin, sent)) :
    entry = .called leaf origin sent := by
  cases entry with
  | called leaf' origin' sent' =>
    simp only [ownCall?] at h
    split at h
    · cases h
    · obtain ⟨rfl, rfl, rfl⟩ := by simpa using h
      rfl
  | _ => cases h

namespace Recognizer

variable {r : Recognizer} {event : Event} {l : Listener} {s : Store}

/-- If nothing fails, each leaf of the tree is called, from left to right. -/
theorem filterMap_ownCall?_of_ok (h : (r.deliver event l s).result = .ok ()) :
    (r.deliver event l s).journal.filterMap (Entry.ownCall? event) =
      l.occurrences.map fun o => (o.leaf, r.toOrigin, event) := by
  rw [filterMap_ownCall?_deliver, occurrences_turns_of_ok h]

/-- An event that is sent to a tree with leaves reaches one of them, even if something fails. -/
theorem exists_called (h : l.occurrences ≠ []) :
    ∃ leaf, .called leaf r.toOrigin event ∈ (r.deliver event l s).journal := by
  by_contra hnone
  -- no leaf has its turn, so none of them fails, but then all of them have their turns
  have hok : (r.deliver event l s).result = .ok () := by
    rw [result_deliver_eq_ok_iff]
    intro t ht leaf hleaf
    refine absurd ⟨leaf, ?_⟩ hnone
    rw [journal_deliver, List.mem_flatMap]
    refine ⟨t, ht, ?_⟩
    simp only [Turn.fold, hleaf, deliver_leaf]
    exact List.mem_append_left _ (List.mem_singleton.2 rfl)
  obtain ⟨o, rest, ho⟩ := List.exists_cons_of_ne_nil h
  have hcall : (o.leaf, r.toOrigin, event) ∈
      (r.deliver event l s).journal.filterMap (Entry.ownCall? event) := by
    rw [filterMap_ownCall?_of_ok hok, ho]
    exact List.mem_cons_self
  obtain ⟨entry, hentry, hown⟩ := List.mem_filterMap.1 hcall
  rw [Entry.eq_called_of_ownCall? hown] at hentry
  exact hnone ⟨o.leaf, hentry⟩

end Recognizer

/-! ### How fan-outs are put together -/

namespace Assembly

/-- The list that a fan-out is put together over, if there is one. -/
def delegates? : Assembly → Option (List Nat)
  | .plain delegates => some delegates
  | .optional delegates => delegates
  | .withPolicy _ delegates => some delegates

/-- The policy of a fan-out. -/
def policy : Assembly → Policy
  | .plain _ => default
  | .optional _ => default
  | .withPolicy policy _ => policy

theorem delegates?_eq_none_iff {assembly : Assembly} :
    assembly.delegates? = none ↔ assembly = .optional none := by
  cases assembly with
  | plain delegates => simp [delegates?]
  | optional delegates => simp [delegates?]
  | withPolicy policy delegates => simp [delegates?]

end Assembly

theorem Listener.withPolicy_eq_error_iff {policy : Policy} {ds : List Listener}
    {e : AssemblyError} : withPolicy policy ds = .error e ↔ e = .emptyDelegates ∧ ds = [] := by
  cases ds with
  | nil => simp [withPolicy, eq_comm (a := e)]
  | cons d ds => simp [withPolicy]

namespace Registry

variable {r : Registry} {assembly : Assembly} {positions : List Nat}

theorem assemble_of_some (h : assembly.delegates? = some positions) :
    r.assemble assembly = Listener.withPolicy assembly.policy (r.select positions) := by
  cases assembly with
  | plain delegates =>
    obtain rfl : delegates = positions := by simpa [Assembly.delegates?] using h
    rfl
  | optional delegates =>
    obtain rfl : delegates = some positions := h
    rfl
  | withPolicy policy delegates =>
    obtain rfl : delegates = positions := by simpa [Assembly.delegates?] using h
    rfl

theorem assemble_eq_error_iff {e : AssemblyError} :
    r.assemble assembly = .error e ↔
      (e = .missingDelegates ∧ assembly = .optional none) ∨
        (e = .emptyDelegates ∧
          ∃ positions, assembly.delegates? = some positions ∧ r.select positions = []) := by
  cases h : assembly.delegates? with
  | none =>
    obtain rfl := Assembly.delegates?_eq_none_iff.1 h
    simp [assemble, Listener.ofOption, eq_comm (a := e)]
  | some positions =>
    have hgiven : assembly ≠ .optional none := by
      rintro rfl
      cases h
    rw [assemble_of_some h, Listener.withPolicy_eq_error_iff]
    simp [hgiven]

theorem assemble_eq_ok_iff {l : Listener} :
    r.assemble assembly = .ok l ↔
      ∃ positions, assembly.delegates? = some positions ∧ r.select positions ≠ [] ∧
        l = .fanOut assembly.policy (r.select positions) := by
  cases h : assembly.delegates? with
  | none =>
    obtain rfl := Assembly.delegates?_eq_none_iff.1 h
    simp [assemble, Listener.ofOption]
  | some positions =>
    rw [assemble_of_some h, Listener.withPolicy_eq_ok_iff]
    simp

/-! ### From one declaration to the next -/

theorem isPrefix_foldl_declare (ds : List Declaration) (r : Registry) :
    r.toList <+: (ds.foldl declare r).toList := by
  induction ds generalizing r with
  | nil => exact List.prefix_rfl
  | cons d ds ih => exact (List.prefix_append _ _).trans (ih (r.declare d))

variable {declared : List Declaration} {i p : Nat}

theorem getElem?_ofDeclarations (declared : List Declaration) (i : Nat) :
    (ofDeclarations declared).toList[i]? =
      declared[i]?.map (ofDeclarations (declared.take i)).build := by
  by_cases hi : i < declared.length
  · let before := ofDeclarations (declared.take i)
    have hlen : before.toList.length = i := by
      rw [length_ofDeclarations, List.length_take_of_le (by omega)]
    have hsplit : ofDeclarations declared =
        (declared.drop (i + 1)).foldl declare (before.declare declared[i]) := by
      calc ofDeclarations declared
        _ = ofDeclarations (declared.take i ++ declared.drop i) := by rw [List.take_append_drop]
        _ = (declared.drop i).foldl declare before := List.foldl_append
        _ = _ := by rw [List.drop_eq_getElem_cons hi, List.foldl_cons]
    obtain ⟨later, hlater⟩ :=
      isPrefix_foldl_declare (declared.drop (i + 1)) (before.declare declared[i])
    rw [hsplit, ← hlater, List.getElem?_eq_getElem hi, Option.map_some, declare,
      List.append_assoc, List.getElem?_append_right (by omega), hlen, Nat.sub_self]
    rfl
  · rw [List.getElem?_eq_none (by rw [length_ofDeclarations]; omega),
      List.getElem?_eq_none (by omega), Option.map_none]

theorem get?_ofDeclarations_take (hp : p < i) :
    (ofDeclarations (declared.take i)).get? p = (ofDeclarations declared).get? p := by
  have hlist : (ofDeclarations (declared.take i)).toList[p]? =
      (ofDeclarations declared).toList[p]? := by
    rw [getElem?_ofDeclarations, getElem?_ofDeclarations, List.getElem?_take_of_lt hp,
      List.take_take, Nat.min_eq_left (by omega)]
  simp only [get?, hlist]

theorem select_ofDeclarations_take (hpositions : ∀ p ∈ positions, p < i) :
    (ofDeclarations (declared.take i)).select positions =
      (ofDeclarations declared).select positions :=
  List.filterMap_congr fun p hp => get?_ofDeclarations_take (hpositions p hp)

theorem get?_ofDeclarations_fanOut {policy : Policy} {ds : List Listener}
    (h : (ofDeclarations declared).get? i = some (.fanOut policy ds)) :
    ds ≠ [] ∧ ∀ d ∈ ds, ∃ p < i, (ofDeclarations declared).get? p = some d := by
  rw [get?_eq_some_iff, getElem?_ofDeclarations, Option.map_eq_some_iff] at h
  obtain ⟨declaration, -, hbuild⟩ := h
  cases declaration with
  | fanOut assembly =>
    obtain ⟨positions, -, hne, heq⟩ := assemble_eq_ok_iff.1 hbuild
    obtain ⟨rfl, rfl⟩ := Listener.fanOut.inj heq
    refine ⟨hne, fun d hd => ?_⟩
    obtain ⟨p, -, hget⟩ := mem_select_iff.1 hd
    have hlt := lt_length_of_get? hget
    rw [length_ofDeclarations, List.length_take] at hlt
    have hp : p < i := by omega
    exact ⟨p, hp, get?_ofDeclarations_take hp ▸ hget⟩
  | _ => cases hbuild

theorem occurrences_ne_nil {l : Listener} (h : (ofDeclarations declared).get? i = some l) :
    l.occurrences ≠ [] := by
  induction i using Nat.strong_induction_on generalizing l with
  | _ i ih =>
    cases l with
    | leaf leaf => simp [Listener.occurrences]
    | fanOut policy ds =>
      obtain ⟨hne, hbefore⟩ := get?_ofDeclarations_fanOut h
      refine Listener.occurrences_fanOut_ne_nil policy hne fun d hd => ?_
      obtain ⟨p, hp, hget⟩ := hbefore d hd
      exact ih p hp hget

/-! ### Refusals -/

/-- The listener at the position could not be built. -/
def Refused (r : Registry) (position : Nat) : Prop :=
  ∃ e, r.toList[position]? = some (.error e)

theorem refused_iff (hp : p < r.toList.length) : r.Refused p ↔ r.get? p = none := by
  unfold Refused get?
  cases h : r.toList[p]? with
  | none =>
    rw [List.getElem?_eq_none_iff] at h
    omega
  | some outcome =>
    cases outcome with
    | ok l => simp
    | error e => simp

/-- Nothing is left of a list exactly if none of the listeners on it could be built. -/
theorem select_eq_nil_iff (hpositions : ∀ p ∈ positions, p < r.toList.length) :
    r.select positions = [] ↔ ∀ p ∈ positions, r.Refused p := by
  rw [select, List.filterMap_eq_nil_iff]
  exact forall₂_congr fun p hp => (refused_iff (hpositions p hp)).symm

/-- Fan-outs are declared over listeners that are declared before. -/
def InOrder (declared : List Declaration) : Prop :=
  ∀ (i : Nat) assembly, declared[i]? = some (.fanOut assembly) →
    ∀ positions, assembly.delegates? = some positions → ∀ p ∈ positions, p < i

/-- The outcome of a fan-out, from the outcomes of the listeners that it is declared over. -/
theorem getElem?_fanOut (horder : InOrder declared) (hi : declared[i]? = some (.fanOut assembly)) :
    (ofDeclarations declared).toList[i]? = some ((ofDeclarations declared).assemble assembly) := by
  rw [getElem?_ofDeclarations, hi, Option.map_some, build]
  cases h : assembly.delegates? with
  | none =>
    obtain rfl := Assembly.delegates?_eq_none_iff.1 h
    rfl
  | some positions =>
    rw [assemble_of_some h, assemble_of_some h,
      select_ofDeclarations_take (horder i assembly hi positions h)]

/-- **A fan-out is built unless nothing is left to build it from**, and then it loses no event.
Listeners of other kinds can always be built.  A fan-out is refused exactly if the list that it is
declared over is missing, or if all listeners on the list were refused; this is so for every way to
put it together.  Otherwise its delegates are those listeners on the list that could be built, in
order and as often as they are named; its tree is finite, no higher than its position, and has as
many leaves as the trees of its delegates together, at least one.  So an event that is sent to it
reaches a leaf, and if nothing fails, it reaches all of them, from left to right. -/
theorem ofDeclarations_fanOut (horder : InOrder declared) :
    let registry := ofDeclarations declared
    registry.toList.length = declared.length ∧
      ∀ i d, declared[i]? = some d →
        ((∀ assembly, d ≠ .fanOut assembly) → ∃ leaf, registry.get? i = some (.leaf leaf)) ∧
          ∀ assembly, d = .fanOut assembly →
            (∀ e, registry.toList[i]? = some (.error e) ↔
              (e = .missingDelegates ∧ assembly = .optional none) ∨
                (e = .emptyDelegates ∧
                  ∃ positions, assembly.delegates? = some positions ∧
                    registry.select positions = [])) ∧
            (∀ positions, assembly.delegates? = some positions →
              (registry.select positions = [] ↔ ∀ p ∈ positions, registry.Refused p)) ∧
            ∀ l, registry.get? i = some l →
              ∃ positions, assembly.delegates? = some positions ∧
                let ds := registry.select positions
                ds ≠ [] ∧ l = .fanOut assembly.policy ds ∧ l.height ≤ i ∧
                  l.occurrences ≠ [] ∧
                  l.occurrences.length = (ds.map fun d => d.occurrences.length).sum ∧
                  ∀ (r : Recognizer) event s,
                    (∃ leaf, .called leaf r.toOrigin event ∈ (r.deliver event l s).journal) ∧
                      ((r.deliver event l s).result = .ok () →
                        (r.deliver event l s).journal.filterMap (Entry.ownCall? event) =
                          l.occurrences.map fun o => (o.leaf, r.toOrigin, event)) := by
  intro registry
  refine ⟨length_ofDeclarations declared, fun i d hi => ⟨fun hleaf => ?_, ?_⟩⟩
  · have houtcome : registry.toList[i]? = _ := getElem?_ofDeclarations declared i
    rw [hi, Option.map_some] at houtcome
    cases d with
    | fanOut assembly => exact absurd rfl (hleaf assembly)
    | _ => exact ⟨_, get?_eq_some_iff.2 houtcome⟩
  · rintro assembly rfl
    have houtcome : registry.toList[i]? = some (registry.assemble assembly) :=
      getElem?_fanOut horder hi
    have hlt := (List.getElem?_eq_some_iff.1 hi).1
    refine ⟨fun e => ?_, fun positions hpositions => ?_, fun l hl => ?_⟩
    · rw [houtcome, Option.some_inj, assemble_eq_error_iff]
    · refine select_eq_nil_iff fun p hp => ?_
      have hp := horder i assembly hi positions hpositions p hp
      rw [length_ofDeclarations]
      omega
    · rw [get?_eq_some_iff, houtcome, Option.some_inj] at hl
      have hget : registry.get? i = some l := by rw [get?_eq_some_iff, houtcome, hl]
      have hleaves := occurrences_ne_nil hget
      obtain ⟨positions, hpositions, hne, rfl⟩ := assemble_eq_ok_iff.1 hl
      refine ⟨positions, hpositions, hne, rfl, ?_, hleaves, ?_, fun r event s => ?_⟩
      · exact ((grounded_ofDeclarations declared) i _ hget).height_le
      · exact Listener.length_occurrences_fanOut _ _
      · exact ⟨Recognizer.exists_called hleaves, Recognizer.filterMap_ownCall?_of_ok⟩

/-- A refusal brings down a second fan-out but not a third one, which has another delegate as well;
the last fan-out has that one twice. -/
def cascade : List Declaration :=
  [.fanOut (.optional none), .fanOut (.plain [0, 0]), .collector,
    .fanOut (.withPolicy .collectAll [1, 2]), .fanOut (.optional (some [3, 2, 0, 3]))]

theorem inOrder_cascade : InOrder cascade := by
  intro i assembly hi positions hpositions p hp
  rcases i with _ | _ | _ | _ | _ | i <;>
    simp only [cascade, List.getElem?_cons_zero, List.getElem?_cons_succ, List.getElem?_nil,
      Option.some.injEq, Declaration.fanOut.injEq, reduceCtorEq] at hi <;>
    subst hi <;> cases hpositions <;> simp at hp <;> omega

theorem ofDeclarations_fanOut_cascade :
    InOrder cascade ∧
      let registry := ofDeclarations cascade
      registry.toList[1]? = some (.error .emptyDelegates) ∧
        ∃ l, registry.get? 4 = some l ∧ l.occurrences.length = 3 ∧
          ∀ (r : Recognizer) event s,
            ∃ leaf, .called leaf r.toOrigin event ∈ (r.deliver event l s).journal := by
  obtain ⟨-, houtcomes⟩ := ofDeclarations_fanOut inOrder_cascade
  refine ⟨inOrder_cascade, ?_, ?_⟩
  · -- the only listener on the list was refused
    obtain ⟨hrefused, -, -⟩ := (houtcomes 1 _ rfl).2 _ rfl
    exact (hrefused .emptyDelegates).2 (.inr ⟨rfl, [0, 0], rfl, rfl⟩)
  · obtain ⟨-, -, hbuilt⟩ := (houtcomes 4 _ rfl).2 _ rfl
    obtain ⟨positions, hpositions, -, -, -, -, hlength, hcalled⟩ := hbuilt _ rfl
    cases hpositions
    exact ⟨_, rfl, hlength, fun r event s => (hcalled r event s).1⟩

end Registry

end ParseListeners
