import ParseListeners.Proofs.Calls
import ParseListeners.Proofs.Sequencing
import ParseListeners.Proofs.Trees

/-!
# What listeners remember

A journal says what everybody remembers afterwards.  `Memory.extend` adds to the memory of a
listener what a journal has for it: the events that it was called with, if it collects them or
belongs to the host program, and the bytes that its sink has taken.  A dispatch does this to every
memory, and nothing else (`Recognizer.remembered_deliver`).

Such a property of a dispatch is handed on by its parts: it holds of the whole if it holds of each
leaf (`HandedOn.deliver`).
-/

namespace ParseListeners

/-! ### Properties that parts hand on to the whole -/

/-- Parts of an operation hand on a relation between the memories that it finds, what happens, and
the memories that it leaves. -/
structure HandedOn (R : Store → List Entry → Store → Prop) : Prop where
  /-- It holds if nothing happens. -/
  idle : ∀ s, R s [] s
  /-- It holds if a trace record is made. -/
  traced : ∀ s record, R s [.traced record] s
  /-- It holds of two parts in order if it holds of each. -/
  append : ∀ {s j t k u}, R s j t → R t k u → R s (j ++ k) u

namespace HandedOn

variable {R : Store → List Entry → Store → Prop}

theorem combine (hR : HandedOn R) (policy : Policy) {as : List Action}
    (h : ∀ a ∈ as, ∀ s, R s (a s).journal (a s).store) (s : Store) :
    R s (policy.combine as s).journal (policy.combine as s).store := by
  induction as generalizing s with
  | nil => cases policy <;> exact hR.idle s
  | cons a as ih =>
    rw [List.forall_mem_cons] at h
    have hrest := ih h.2 (a s).store
    cases ha : (a s).result with
    | ok u =>
      rw [Policy.combine_cons_of_ok ha]
      exact hR.append (h.1 s) hrest
    | error f =>
      cases policy with
      | failFast =>
        rw [Policy.combine_failFast_cons_of_error ha]
        exact h.1 s
      | collectAll => exact hR.append (h.1 s) hrest

/-- What holds of the dispatch to each leaf of a tree holds of the dispatch to the tree. -/
theorem deliver (hR : HandedOn R) {r : Recognizer} {event : Event} {l : Listener}
    (h : ∀ leaf ∈ l.leaves, ∀ s,
      R s (r.deliver event (.leaf leaf) s).journal (r.deliver event (.leaf leaf) s).store)
    (s : Store) : R s (r.deliver event l s).journal (r.deliver event l s).store := by
  induction l generalizing s with
  | leaf leaf => exact h leaf (by simp) s
  | fanOut policy ds ih =>
    rw [Recognizer.deliver_fanOut]
    refine hR.append (hR.traced s _) (hR.combine policy (fun a ha s => ?_) s)
    obtain ⟨d, hd, rfl⟩ := List.mem_map.1 ha
    exact ih d hd (fun leaf hleaf => h leaf (Listener.mem_leaves_fanOut hd hleaf)) s

end HandedOn

/-! ### What a journal adds to a memory -/

namespace Memory

/-- The memory of the listener `id` after an entry of a journal. -/
def learn (id : Nat) (m : Memory) : Entry → Memory
  | .called (.collector id') _ event =>
    if id' = id then { m with recorded := m.recorded ++ [.ofEvent event] } else m
  | .called (.host id' h) origin event =>
    if id' = id ∧ h.handles event.kind then { m with heard := m.heard ++ [⟨origin, event⟩] } else m
  | .wrote id' bytes => if id' = id then { m with written := m.written ++ bytes } else m
  | _ => m

/-- The memory of the listener `id` with what a journal adds to it. -/
def extend (id : Nat) (m : Memory) (journal : List Entry) : Memory := journal.foldl (learn id) m

@[simp] theorem extend_nil (id : Nat) (m : Memory) : m.extend id [] = m := rfl

@[simp] theorem extend_cons (id : Nat) (m : Memory) (e : Entry) (journal : List Entry) :
    m.extend id (e :: journal) = (m.learn id e).extend id journal := rfl

theorem extend_append (id : Nat) (m : Memory) (j k : List Entry) :
    m.extend id (j ++ k) = (m.extend id j).extend id k := List.foldl_append

end Memory

/-- The leaf is the collecting listener `id`. -/
def Leaf.collects (id : Nat) : Leaf → Bool
  | .collector id' => id' = id
  | _ => false

/-- The leaf is the console `id`. -/
def Leaf.writes (id : Nat) : Leaf → Bool
  | .console id' _ => id' = id
  | _ => false

/-- The event that is delivered to the collecting listener `id`. -/
def Entry.delivered? (id : Nat) : Entry → Option Event
  | .called (.collector id') _ event => if id' = id then some event else none
  | _ => none

/-- The bytes that the sink of the console `id` takes. -/
def Entry.written (id : Nat) : Entry → List UInt8
  | .wrote id' bytes => if id' = id then bytes else []
  | _ => []

namespace Memory

variable (id : Nat) (m : Memory) (journal : List Entry)

theorem recorded_learn (e : Entry) :
    (m.learn id e).recorded = m.recorded ++ (e.delivered? id).toList.map .ofEvent := by
  cases e with
  | called leaf origin event =>
    cases leaf with
    | collector id' => by_cases h : id' = id <;> simp [learn, Entry.delivered?, h]
    | host id' h => simp only [learn, Entry.delivered?]; split <;> simp
    | _ => simp [learn, Entry.delivered?]
  | wrote id' bytes => simp only [learn, Entry.delivered?]; split <;> simp
  | _ => simp [learn, Entry.delivered?]

theorem written_learn (e : Entry) : (m.learn id e).written = m.written ++ e.written id := by
  cases e with
  | called leaf origin event =>
    cases leaf with
    | collector id' => simp only [learn, Entry.written]; split <;> simp
    | host id' h => simp only [learn, Entry.written]; split <;> simp
    | _ => simp [learn, Entry.written]
  | wrote id' bytes => by_cases h : id' = id <;> simp [learn, Entry.written, h]
  | _ => simp [learn, Entry.written]

theorem recorded_extend :
    (m.extend id journal).recorded =
      m.recorded ++ (journal.filterMap (Entry.delivered? id)).map .ofEvent := by
  induction journal generalizing m with
  | nil => simp
  | cons e journal ih =>
    rw [extend_cons, ih, recorded_learn, List.filterMap_cons, List.append_assoc]
    cases e.delivered? id <;> rfl

theorem written_extend :
    (m.extend id journal).written = m.written ++ journal.flatMap (Entry.written id) := by
  induction journal generalizing m with
  | nil => simp
  | cons e journal ih => rw [extend_cons, ih, written_learn, List.flatMap_cons, List.append_assoc]

end Memory

/-- Every listener remembers what it did before, and what the journal adds. -/
def Remembered (before : Store) (journal : List Entry) (after : Store) : Prop :=
  ∀ id, after.get id = (before.get id).extend id journal

theorem handedOn_remembered : HandedOn Remembered where
  idle _ _ := rfl
  traced _ _ _ := rfl
  append hj hk id := by rw [hk id, hj id, Memory.extend_append]

theorem Leaf.remembered_take (leaf : Leaf) (origin : Origin) (event : Event) (s : Store) :
    Remembered s (.called leaf origin event :: (leaf.take origin event s).journal)
      (leaf.take origin event s).store := by
  intro id
  cases leaf with
  | null => rfl
  | tracing => rfl
  | standardError => cases event <;> rfl
  | diagnostic d => rfl
  | collector id' =>
    by_cases h : id' = id
    · subst h
      simp [take, Action.remember, Memory.learn]
    · simp [take, Action.remember, Memory.learn, Store.get_set, h, Ne.symm h]
  | console id' sink =>
    cases event with
    | report report => rfl
    | syntaxError e =>
      -- however the line ends, the sink has taken the bytes that the journal says
      rcases writeLine_cases id' sink e.consoleLine s with
        ⟨err, -, hrun⟩ | ⟨err, -, -, hrun⟩ | ⟨-, -, hrun⟩ <;>
      · by_cases h : id' = id
        · subst h
          simp [take, hrun, Memory.learn]
        · simp [take, hrun, Memory.learn, Store.get_set, h, Ne.symm h]
  | host id' h =>
    cases hh : h.handles event.kind with
    | false => simp [take, hh, Action.done, Memory.learn]
    | true =>
      rcases respond_cases id' h ⟨origin, event⟩ s with ⟨f, -, hrun⟩ | ⟨-, hrun⟩ <;>
      · by_cases hid : id' = id
        · subst hid
          simp [take, hh, hrun, Memory.learn]
        · simp [take, hh, hrun, Memory.learn, Store.get_set, hid, Ne.symm hid]

namespace Recognizer

variable {r : Recognizer} {event : Event} {leaf : Leaf}

theorem remembered_deliver_leaf_of_none (h : leaf.message? r.toOrigin event = none) (s : Store) :
    Remembered s (r.deliver event (.leaf leaf) s).journal
      (r.deliver event (.leaf leaf) s).store := by
  rw [deliver_leaf_of_none h]
  exact leaf.remembered_take r.toOrigin event s

theorem remembered_notify (r : Recognizer) (m : String) (s : Store) :
    Remembered s (r.notify m s).journal (r.notify m s).store := by
  rcases r.reply_cases m with ⟨hr, -⟩ | ⟨cause, hr, -⟩ | ⟨target, e, hto⟩
  · rw [notify_of_accept hr]
    exact fun _ => rfl
  · rw [notify_of_refuse hr]
    exact fun _ => rfl
  · rw [notify_of_forward hto]
    exact handedOn_remembered.deliver
      (fun leaf _ => remembered_deliver_leaf_of_none (Leaf.message?_syntaxError ..)) s

/-- **The journal of a dispatch says what everybody remembers.** -/
theorem remembered_deliver (r : Recognizer) (event : Event) (l : Listener) (s : Store) :
    Remembered s (r.deliver event l s).journal (r.deliver event l s).store := by
  refine handedOn_remembered.deliver (fun leaf _ s => ?_) s
  cases hm : leaf.message? r.toOrigin event with
  | none => exact remembered_deliver_leaf_of_none hm s
  | some m =>
    rw [deliver_leaf_of_some hm]
    -- a diagnostic listener remembers nothing
    obtain ⟨d, report, rfl, rfl, -, -⟩ := Leaf.message?_eq_some_iff.1 hm
    exact r.remembered_notify m s

/-- A collecting listener holds one more record for each delivery, in order. -/
theorem recorded_deliver (r : Recognizer) (event : Event) (l : Listener) (s : Store) (id : Nat) :
    ((r.deliver event l s).store.get id).recorded = (s.get id).recorded ++
      ((r.deliver event l s).journal.filterMap (Entry.delivered? id)).map .ofEvent := by
  rw [r.remembered_deliver event l s id, Memory.recorded_extend]

end Recognizer

end ParseListeners
