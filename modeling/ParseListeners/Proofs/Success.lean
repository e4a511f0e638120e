import ParseListeners.Proofs.Delivery

/-!
# Dispatches in which nothing fails

What happens in a dispatch hangs on the memories of listeners in two ways only: they decide whether
a listener fails, and how much of a line its sink takes.  If nothing fails, neither matters.  A leaf
that deals with an event by itself leaves the same entries each time (`Leaf.journal_take_of_ok`),
and each leaf of a tree has its turn (`Recognizer.occurrences_turns_of_ok`).
-/

namespace ParseListeners

namespace Leaf

variable {leaf : Leaf} {origin : Origin} {event : Event} {s : Store}

/-- The entries of a call of a leaf that deals with an event by itself and does not fail. -/
def entries (origin : Origin) (event : Event) (leaf : Leaf) : List Entry :=
  .called leaf origin event ::
    match leaf, event with
    | .tracing, _ => [.traced (event.trace origin.grammar)]
    | .standardError, .syntaxError e => [.printed e.consoleLine]
    | .console id _, .syntaxError e => [.wrote id (utf8 e.consoleLine), .flushed id]
    | _, _ => []

theorem journal_take_of_ok (h : (leaf.take origin event s).result = .ok ()) :
    .called leaf origin event :: (leaf.take origin event s).journal =
      leaf.entries origin event := by
  cases leaf with
  | console id sink =>
    cases event with
    | report report => rfl
    | syntaxError e =>
      rcases writeLine_cases id sink e.consoleLine s with
        ⟨err, -, hrun⟩ | ⟨err, -, -, hrun⟩ | ⟨hwrite, -, hrun⟩
      · simp [take, hrun] at h
      · simp [take, hrun] at h
      · -- the sink has taken the whole line
        rw [Sink.writeError?_eq_none_iff.1 hwrite] at hrun
        simp only [take, hrun, entries]
  | host id h' =>
    cases hh : h'.handles event.kind with
    | false => simp [take, hh, Action.done, entries]
    | true =>
      rcases respond_cases id h' ⟨origin, event⟩ s with ⟨f, -, hrun⟩ | ⟨-, hrun⟩
      · simp [take, hh, hrun] at h
      · simp [take, hh, hrun, entries]
  | _ => cases event <;> rfl

/-- The leaf never fails by itself: it does not belong to the host program, and its sink takes
everything. -/
def isReliable : Leaf → Bool
  | .host .. => false
  | .console _ sink => sink.capacity.isNone && sink.flushError.isNone
  | _ => true

theorem result_take_of_isReliable (h : leaf.isReliable = true) :
    (leaf.take origin event s).result = .ok () := by
  cases leaf with
  | host id h' => simp [isReliable] at h
  | console id sink =>
    cases event with
    | report report => rfl
    | syntaxError e =>
      simp only [isReliable, Bool.and_eq_true, Option.isNone_iff_eq_none] at h
      have hwrite : ∀ used, sink.writeError? used (utf8 e.consoleLine) = none := fun used =>
        Sink.writeError?_eq_none_iff.2 (Sink.accepts_of_unlimited h.1 ..)
      rcases writeLine_cases id sink e.consoleLine s with
        ⟨err, herr, -⟩ | ⟨err, -, herr, -⟩ | ⟨-, -, hrun⟩
      · simp [hwrite] at herr
      · simp [h.2] at herr
      · simp [take, hrun]
  | _ => cases event <;> rfl

end Leaf

theorem flatMap_ite_eq_flatten {α β : Type} (xs : List α) (p : α → Bool) (ys : List β) :
    (xs.flatMap fun x => if p x then ys else []) = (List.replicate (xs.countP p) ys).flatten := by
  induction xs with
  | nil => rfl
  | cons x xs ih =>
    rw [List.flatMap_cons, ih, List.countP_cons]
    cases p x <;> simp [List.replicate_succ]

namespace Recognizer

variable {r : Recognizer} {event : Event} {policy : Policy} {l : Listener} {s : Store}

theorem journal_deliver_leaf_of_ok {leaf : Leaf} (hm : leaf.message? r.toOrigin event = none)
    (h : (r.deliver event (.leaf leaf) s).result = .ok ()) :
    (r.deliver event (.leaf leaf) s).journal = leaf.entries r.toOrigin event := by
  rw [deliver_leaf_of_none hm] at h ⊢
  exact Leaf.journal_take_of_ok h

/-- A syntax error that all delegates of a fan-out take is taken by each of them, in order. -/
theorem journal_deliver_syntaxError_of_ok {e : SyntaxError} {leaves : List Leaf}
    (h : (r.deliver (.syntaxError e) (.fanOut policy (leaves.map .leaf)) s).result = .ok ()) :
    (r.deliver (.syntaxError e) (.fanOut policy (leaves.map .leaf)) s).journal =
      .traced ((Event.syntaxError e).forwardingTrace leaves.length) ::
        leaves.flatMap (Leaf.entries r.toOrigin (.syntaxError e)) := by
  rw [result_deliver_fanOut, List.map_map] at h
  rw [journal_deliver_fanOut, List.length_map, List.map_map, Policy.journal_combine_of_ok _ h]
  exact fun leaf _ t ht => journal_deliver_leaf_of_ok (Leaf.message?_syntaxError ..) ht

/-- If no leaf of a tree ever fails on an event, the dispatch to the tree does not. -/
theorem result_deliver_of_leaves_ok
    (h : ∀ leaf ∈ l.leaves, ∀ t, (r.deliver event (.leaf leaf) t).result = .ok ()) (s : Store) :
    (r.deliver event l s).result = .ok () := by
  induction l generalizing s with
  | leaf leaf => exact h leaf (by simp) s
  | fanOut policy ds ih =>
    rw [result_deliver_fanOut]
    refine Policy.result_combine_of_ok (fun a ha t => ?_) s
    obtain ⟨d, hd, rfl⟩ := List.mem_map.1 ha
    exact ih d hd (fun leaf hleaf => h leaf (Listener.mem_leaves_fanOut hd hleaf)) t

theorem result_deliver_syntaxError_of_isReliable (h : ∀ leaf ∈ l.leaves, leaf.isReliable = true)
    (e : SyntaxError) (s : Store) : (r.deliver (.syntaxError e) l s).result = .ok () := by
  refine result_deliver_of_leaves_ok (fun leaf hleaf t => ?_) s
  rw [deliver_leaf_of_none (Leaf.message?_syntaxError ..)]
  exact Leaf.result_take_of_isReliable (h leaf hleaf)

theorem result_notify_of_isReliable {m : String} {target : Listener} {e : SyntaxError}
    (hto : r.forward? m = some (target, e)) (h : ∀ leaf ∈ target.leaves, leaf.isReliable = true)
    (s : Store) : (r.notify m s).result = .ok () := by
  rw [result_notify_of_forward hto, result_deliver_syntaxError_of_isReliable h]
  rfl

/-- If nothing fails, each leaf of the tree has its turn. -/
theorem occurrences_turns_of_ok (h : (r.deliver event l s).result = .ok ()) :
    (r.turns event l s).filterMap Turn.occurrence? = l.occurrences := by
  induction l generalizing s with
  | leaf leaf => simp [turns, Turn.occurrence?, Listener.occurrences]
  | fanOut policy ds ih =>
    rw [result_deliver_fanOut] at h
    rw [turns, Listener.occurrences, List.filterMap_cons_none rfl]
    generalize 0 = i
    induction ds generalizing i s with
    | nil => simp [turnsFrom, Listener.occurrencesFrom]
    | cons d ds ihs =>
      rw [List.map_cons, Policy.result_combine_cons_eq_ok_iff] at h
      rw [turnsFrom, Listener.occurrencesFrom, List.filterMap_append, List.filterMap_map]
      have hgo : policy.goesOn (r.deliver event d s).result = true := by
        rw [h.1]; cases policy <;> rfl
      rw [if_pos hgo, ihs (fun d' hd' => ih d' (List.mem_cons_of_mem d hd')) h.2,
        ← ih d List.mem_cons_self h.1, List.map_filterMap]
      congr 1
      exact List.filterMap_congr fun t _ => occurrence?_below i t

end Recognizer

end ParseListeners
