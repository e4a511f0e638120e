import ParseListeners.Proofs.Construction
import ParseListeners.Proofs.Turns

/-!
# Nested dispatches

A listener may hand a message back to the recognizer, which may send it on to any listener, the one
that is being visited included.  This ends all the same, and nests once: a report causes
notifications, a notification causes a syntax error, and a syntax error causes nothing further.

* `Recognizer.deliverWithin` makes the calls with a bound on how many are open at a time;
  `Recognizer.deliverWithin_eq` says that the height of the trees is bound enough;
* `Recognizer.exchanged_deliver` : each message that is handed back is notified, once;
* `Recognizer.notificationDepth_deliver_le_one` : no failure that comes out holds a failed
  notification in another.

`Session.perform_nests_once` puts these together for sessions that are built from declarations.
-/

namespace ParseListeners

/-! ### Open calls -/

namespace Recognizer

/-- Sends an event as the listeners pass it on, with at most `depth` calls of listeners open at a
time: a fan-out calls its delegates, and a leaf that hands back a message has the recognizer call
the listener that it forwards the message to. -/
def deliverWithin (r : Recognizer) : Nat → Event → Listener → Option Action
  | 0, _, _ => none
  | depth + 1, event, .fanOut policy ds =>
    (ds.mapM (r.deliverWithin depth event)).map fun calls =>
      (Listener.announce event ds.length).andThen (policy.combine calls)
  | depth + 1, event, .leaf leaf =>
    let answer? := match leaf.message? r.toOrigin event with
      | none => some (leaf.take r.toOrigin event)
      | some message =>
        match r.forward? message with
        | none => some (r.notify message)
        | some (target, e) =>
          (r.deliverWithin depth (.syntaxError e) target).map fun (call : Action) =>
            (Action.note (.notified r.index message)).andThen (call.mapFailure .relayed)
    answer?.map (Action.note (.called leaf r.toOrigin event)).andThen

/-- How much higher the calls may pile up when messages are handed back. -/
def replyHeight (r : Recognizer) : Nat :=
  match r.reply with
  | .accept => 0
  | .refuse _ => 0
  | .forward target .. => target.height + 1

variable {r : Recognizer} {event : Event} {e : SyntaxError} {m : String} {target l : Listener}
  {n depth : Nat}

theorem lt_replyHeight (h : r.forward? m = some (target, e)) : target.height < r.replyHeight := by
  obtain ⟨line, column, token, hr, -⟩ := reply_of_forward? h
  simp only [replyHeight, hr]
  omega

theorem mapM_eq_some_map {α β : Type} {f : α → Option β} {g : α → β} {xs : List α}
    (h : ∀ x ∈ xs, f x = some (g x)) : xs.mapM f = some (xs.map g) := by
  induction xs with
  | nil => rfl
  | cons x xs ih =>
    rw [List.forall_mem_cons] at h
    rw [List.mapM_cons, h.1, ih h.2]
    rfl

theorem deliverWithin_of_leaves
    (hleaf : ∀ depth, n < depth → ∀ leaf,
      r.deliverWithin depth event (.leaf leaf) = some (r.deliver event (.leaf leaf)))
    (h : l.height + n < depth) : r.deliverWithin depth event l = some (r.deliver event l) := by
  induction l generalizing depth with
  | leaf leaf =>
    rw [Listener.height_leaf, Nat.zero_add] at h
    exact hleaf depth h leaf
  | fanOut policy ds ih =>
    -- the fan-out itself takes one of the open calls
    obtain ⟨depth, rfl⟩ := Nat.exists_eq_add_one_of_ne_zero (Nat.ne_zero_of_lt h)
    have hds : ds.mapM (r.deliverWithin depth event) = some (ds.map (r.deliver event)) := by
      refine mapM_eq_some_map fun d hd => ih d hd ?_
      have hlt : d.height < (Listener.fanOut policy ds).height := Listener.height_lt_of_mem hd
      omega
    rw [deliverWithin, hds, deliver_fanOut]
    rfl

/-- A syntax error piles up no more calls than the tree is high. -/
theorem deliverWithin_syntaxError (h : l.height < depth) :
    r.deliverWithin depth (.syntaxError e) l = some (r.deliver (.syntaxError e) l) := by
  refine deliverWithin_of_leaves (n := 0) (fun depth hdepth leaf => ?_) h
  obtain ⟨depth, rfl⟩ := Nat.exists_eq_add_one_of_ne_zero (Nat.ne_zero_of_lt hdepth)
  rw [deliverWithin, deliver_leaf, Leaf.message?_syntaxError]
  rfl

/-- A report piles up as many, and then those of the syntax errors that messages become. -/
theorem deliverWithin_eq (h : l.height + r.replyHeight < depth) :
    r.deliverWithin depth event l = some (r.deliver event l) := by
  refine deliverWithin_of_leaves (fun depth hdepth leaf => ?_) h
  obtain ⟨depth, rfl⟩ := Nat.exists_eq_add_one_of_ne_zero (Nat.ne_zero_of_lt hdepth)
  rw [deliverWithin, deliver_leaf]
  cases hm : leaf.message? r.toOrigin event with
  | none => rfl
  | some m =>
    cases hto : r.forward? m with
    | none => simp only [hto]; rfl
    | some forwarded =>
      obtain ⟨target, e⟩ := forwarded
      -- the message is forwarded, and nothing is handed back below the target
      have hlt := lt_replyHeight hto
      have hcall : r.deliverWithin depth (.syntaxError e) target = _ :=
        deliverWithin_syntaxError (Nat.lt_of_lt_of_le hlt (Nat.le_of_lt_succ hdepth))
      simp only [hto, hcall, notify_eq_of_forward hto]
      rfl

end Recognizer

/-! ### Notifications -/

namespace Entry

/-- The message that is handed back, if the entry is a call of a leaf that hands one back. -/
def handedBack? : Entry → Option String
  | .called leaf origin event => leaf.message? origin event
  | _ => none

/-- The entry is a call that hands a message back, or a notification. -/
def inExchange : Entry → Bool
  | .called leaf origin event => (leaf.message? origin event).isSome
  | .notified .. => true
  | _ => false

/-- What should become of an entry: a call that hands a message back is followed by the
notification of the recognizer. -/
def exchange (recognizer : Nat) (entry : Entry) : List Entry :=
  match entry.handedBack? with
  | some message => [entry, .notified recognizer message]
  | none => []

theorem exchange_of_not_inExchange {entry : Entry} (h : entry.inExchange = false)
    (recognizer : Nat) : entry.exchange recognizer = [] := by
  cases entry with
  | called leaf origin event =>
    have hm : leaf.message? origin event = none := by simpa [inExchange] using h
    simp only [exchange, handedBack?, hm]
  | _ => rfl

theorem not_inExchange_of_isWork {entry : Entry}
    (h : entry.isWork = true ∨ ∃ f, entry = .failed f) : entry.inExchange = false := by
  rcases h with h | ⟨f, rfl⟩
  · cases entry with
    | called leaf origin event => simp [isWork] at h
    | notified recognizer message => simp [isWork] at h
    | _ => rfl
  · rfl

end Entry

/-- The messages that are handed back in a journal are notified, in order and each once, and nothing
else is. -/
def Exchanged (recognizer : Nat) (journal : List Entry) : Prop :=
  journal.filter Entry.inExchange = journal.flatMap (Entry.exchange recognizer)

namespace Exchanged

variable {recognizer : Nat} {journal rest : List Entry}

theorem append (h : Exchanged recognizer journal) (hrest : Exchanged recognizer rest) :
    Exchanged recognizer (journal ++ rest) := by
  rw [Exchanged, List.filter_append, List.flatMap_append, h, hrest]

theorem flatMap {α : Type} {f : α → List Entry} {xs : List α}
    (h : ∀ x ∈ xs, Exchanged recognizer (f x)) : Exchanged recognizer (xs.flatMap f) := by
  rw [Exchanged, List.filter_flatMap, List.flatMap_assoc]
  exact List.flatMap_congr h

theorem of_not_inExchange (h : ∀ entry ∈ journal, entry.inExchange = false) :
    Exchanged recognizer journal := by
  rw [Exchanged, List.filter_eq_nil_iff.2 fun entry he => by simp [h entry he],
    List.flatMap_eq_nil_iff.2 fun entry he => Entry.exchange_of_not_inExchange (h entry he) _]

theorem hand {leaf : Leaf} {origin : Origin} {event : Event} {m : String}
    (h : leaf.message? origin event = some m) :
    Exchanged recognizer [.called leaf origin event, .notified recognizer m] := by
  simp [Exchanged, Entry.inExchange, Entry.exchange, Entry.handedBack?, h]

end Exchanged

namespace Recognizer

variable {r : Recognizer} {event : Event} {e : SyntaxError} {l : Listener} {s : Store}

theorem not_inExchange_of_mem_deliver_syntaxError {entry : Entry}
    (h : entry ∈ (r.deliver (.syntaxError e) l s).journal) : entry.inExchange = false := by
  rcases of_mem_journal_deliver_syntaxError h with ⟨leaf, rfl⟩ | hwork
  · rfl
  · exact Entry.not_inExchange_of_isWork hwork

theorem notified_notMem_deliver_syntaxError (r : Recognizer) (e : SyntaxError) (l : Listener)
    (s : Store) (recognizer : Nat) (m : String) :
    .notified recognizer m ∉ (r.deliver (.syntaxError e) l s).journal := by
  intro h
  have hquiet := not_inExchange_of_mem_deliver_syntaxError h
  simp [Entry.inExchange] at hquiet

/-- After a notification there is no other. -/
theorem journal_notify (r : Recognizer) (m : String) (s : Store) :
    ∃ rest, (r.notify m s).journal = .notified r.index m :: rest ∧
      ∀ entry ∈ rest, entry.inExchange = false := by
  rcases r.reply_cases m with ⟨hr, -⟩ | ⟨cause, hr, -⟩ | ⟨target, e, hto⟩
  · exact ⟨[], by rw [notify_of_accept hr], by simp⟩
  · exact ⟨[.failed (.refused cause)], by rw [notify_of_refuse hr], by simp [Entry.inExchange]⟩
  · refine ⟨(r.deliver (.syntaxError e) target s).journal, by rw [notify_of_forward hto], ?_⟩
    exact fun entry h => not_inExchange_of_mem_deliver_syntaxError h

theorem exchanged_deliver_leaf (r : Recognizer) (event : Event) (leaf : Leaf) (s : Store) :
    Exchanged r.index (r.deliver event (.leaf leaf) s).journal := by
  cases hm : leaf.message? r.toOrigin event with
  | none =>
    rw [deliver_leaf_of_none hm]
    refine .of_not_inExchange (List.forall_mem_cons.2 ⟨by simp [Entry.inExchange, hm], ?_⟩)
    exact fun entry h => Entry.not_inExchange_of_isWork (Leaf.isWork_or_failed_of_mem_take h)
  | some m =>
    obtain ⟨rest, hjournal, hrest⟩ := r.journal_notify m s
    rw [deliver_leaf_of_some hm, hjournal]
    exact (Exchanged.hand hm).append (.of_not_inExchange hrest)

/-- Each message that is handed back is notified, once; and nothing else is. -/
theorem exchanged_deliver (r : Recognizer) (event : Event) (l : Listener) (s : Store) :
    Exchanged r.index (r.deliver event l s).journal := by
  rw [journal_deliver]
  refine .flatMap fun t _ => ?_
  unfold Turn.fold
  cases t.listener with
  | leaf leaf => exact r.exchanged_deliver_leaf event leaf t.store
  | fanOut policy ds => exact .of_not_inExchange (by simp [Entry.inExchange])

end Recognizer

/-! ### Failures in failures -/

namespace Failure

mutual

/-- How many failed notifications are nested in a failure: `0` if it holds none, and more than `1`
if the failure behind a notification holds another one. -/
def notificationDepth : Failure → Nat
  | .io _ => 0
  | .rejected .. => 0
  | .relayed inner => notificationDepth inner + 1
  | .refused _ => 1
  | .aggregate failures => notificationDepthEach failures

/-- How many are nested in any of some failures. -/
def notificationDepthEach : List Failure → Nat
  | [] => 0
  | f :: fs => max (notificationDepth f) (notificationDepthEach fs)

end

theorem notificationDepth_relayed (f : Failure) :
    (relayed f).notificationDepth = f.notificationDepth + 1 := by rw [notificationDepth]

theorem notificationDepth_aggregate_le_iff {fs : List Failure} {n : Nat} :
    (aggregate fs).notificationDepth ≤ n ↔ ∀ f ∈ fs, f.notificationDepth ≤ n := by
  rw [notificationDepth]
  induction fs with
  | nil => simp [notificationDepthEach]
  | cons f fs ih => rw [notificationDepthEach, Nat.max_le, ih, List.forall_mem_cons]

theorem notificationDepth_le_of_gather {fs : List Failure} {f : Failure} {n : Nat}
    (h : ∀ g ∈ fs, g.notificationDepth ≤ n) (hf : gather fs = .error f) :
    f.notificationDepth ≤ n := by
  rcases gather_eq_error_iff.1 hf with rfl | ⟨rfl, -⟩
  · exact h f List.mem_cons_self
  · exact notificationDepth_aggregate_le_iff.2 h

end Failure

/-- A listener of the host program that knows nothing of notifications: its failures hold none. -/
def Host.Plain (h : Host) : Prop :=
  ∀ earlier delivery f, h.respond earlier delivery = .error f → f.notificationDepth = 0

/-- A leaf whose failures hold no notification. -/
def Leaf.Plain (leaf : Leaf) : Prop := ∀ id h, leaf = .host id h → h.Plain

theorem Breakdown.notificationDepth_eq_zero {leaf : Leaf} {origin : Origin} {event : Event}
    {rest : List Entry} {f : Failure} (h : Breakdown (.called leaf origin event :: rest) f)
    (hleaf : leaf.Plain) : f.notificationDepth = 0 := by
  cases h with
  | host earlier hf => exact hleaf _ _ rfl earlier _ f hf
  | write used herr => rw [Failure.notificationDepth]
  | flush used hwrite herr => rw [Failure.notificationDepth]

namespace Recognizer

variable {r : Recognizer} {event : Event} {l : Listener} {n : Nat} {s : Store} {f : Failure}

/-- Gathering failures nests no notifications. -/
theorem notificationDepth_deliver_le
    (hleaf : ∀ leaf ∈ l.leaves, ∀ t f,
      (r.deliver event (.leaf leaf) t).result = .error f → f.notificationDepth ≤ n)
    (h : (r.deliver event l s).result = .error f) : f.notificationDepth ≤ n := by
  induction l generalizing s f with
  | leaf leaf => exact hleaf leaf (by simp) s f h
  | fanOut policy ds ih =>
    rw [result_deliver_fanOut, Policy.result_combine, courses_map_deliver _ 0] at h
    -- what comes out gathers the failures of the delegates in turn
    refine Failure.notificationDepth_le_of_gather (fun g hg => ?_) h
    obtain ⟨run, hrun, hg⟩ := List.mem_filterMap.1 hg
    obtain ⟨t, ht, rfl⟩ := List.mem_map.1 hrun
    have hd := mem_of_mem_delegateTurns ht
    refine ih t.listener hd (fun leaf hl => hleaf leaf ?_) (Run.failure?_eq_some_iff.1 hg)
    rw [Listener.leaves_fanOut]
    exact List.mem_flatMap.2 ⟨t.listener, hd, hl⟩

theorem notificationDepth_deliver_leaf_of_none {leaf : Leaf} (hleaf : leaf.Plain)
    (hm : leaf.message? r.toOrigin event = none)
    (h : (r.deliver event (.leaf leaf) s).result = .error f) : f.notificationDepth = 0 := by
  rw [deliver_leaf_of_none hm] at h
  rcases leaf.take_cases r.toOrigin event s with ⟨hok, -⟩ | ⟨g, work, herr, -, -, hbreak⟩
  · simp [hok] at h
  · obtain rfl : g = f := by simpa [herr] using h
    exact hbreak.notificationDepth_eq_zero hleaf

theorem notificationDepth_deliver_syntaxError {e : SyntaxError} (hl : ∀ leaf ∈ l.leaves, leaf.Plain)
    (h : (r.deliver (.syntaxError e) l s).result = .error f) : f.notificationDepth = 0 := by
  refine Nat.eq_zero_of_le_zero (notificationDepth_deliver_le (fun leaf hleaf t g hg => ?_) h)
  exact Nat.le_of_eq
    (notificationDepth_deliver_leaf_of_none (hl leaf hleaf) (Leaf.message?_syntaxError ..) hg)

theorem notificationDepth_notify_le {m : String}
    (hto : ∀ target e, r.forward? m = some (target, e) → ∀ leaf ∈ target.leaves, leaf.Plain)
    (h : (r.notify m s).result = .error f) : f.notificationDepth ≤ 1 := by
  rcases r.reply_cases m with ⟨hr, -⟩ | ⟨cause, hr, -⟩ | ⟨target, e, hforward⟩
  · rw [notify_of_accept hr] at h
    cases h
  · rw [notify_of_refuse hr] at h
    cases h
    exact Nat.le_of_eq (by rw [Failure.notificationDepth])
  · rw [notify_of_forward hforward] at h
    cases hrun : (r.deliver (.syntaxError e) target s).result with
    | ok u => simp [hrun, Except.mapError] at h
    | error g =>
      obtain rfl : Failure.relayed g = f := by simpa [hrun, Except.mapError] using h
      have hg := notificationDepth_deliver_syntaxError (hto target e hforward) hrun
      exact Nat.le_of_eq (by rw [Failure.notificationDepth_relayed, hg])

/-- What comes out of any event holds no failed notification in another. -/
theorem notificationDepth_deliver_le_one (hl : ∀ leaf ∈ l.leaves, leaf.Plain)
    (hto : ∀ m target e, r.forward? m = some (target, e) → ∀ leaf ∈ target.leaves, leaf.Plain)
    (h : (r.deliver event l s).result = .error f) : f.notificationDepth ≤ 1 := by
  refine notificationDepth_deliver_le (fun leaf hleaf t g hg => ?_) h
  cases hm : leaf.message? r.toOrigin event with
  | none =>
    rw [notificationDepth_deliver_leaf_of_none (hl leaf hleaf) hm hg]
    exact Nat.zero_le 1
  | some m =>
    rw [deliver_leaf_of_some hm] at hg
    exact notificationDepth_notify_le (hto m) hg

end Recognizer

/-! ### Sessions -/

namespace Session

variable {declared : List Declaration} {replies : List (Origin × Reply Nat)} {session : Session}
  {position sender : Nat} {l : Listener} {r : Recognizer}

theorem grounded_of_lookup (hbuild : build declared replies = .ok session)
    (hl : session.registry.lookup position = .ok l) :
    position < declared.length ∧ l.Grounded declared position := by
  have hget := Registry.lookup_eq_ok_iff.1 hl
  rw [(of_build_eq_ok hbuild).1] at hget
  have hlt := Registry.lt_length_of_get? hget
  rw [Registry.length_ofDeclarations] at hlt
  exact ⟨hlt, Registry.grounded_ofDeclarations declared position l hget⟩

theorem exists_lookup_of_recognizer (hbuild : build declared replies = .ok session)
    (hr : session.recognizer sender = .ok r) {target : Listener} {line column : UInt32}
    {token : Option Token} (hreply : r.reply = .forward target line column token) :
    ∃ position, session.registry.lookup position = .ok target := by
  have hmem : r ∈ session.recognizers := by
    unfold recognizer at hr
    cases hget : session.recognizers[sender]? with
    | none => simp [hget] at hr
    | some r' =>
      obtain rfl : r' = r := by simpa [hget] using hr
      exact List.mem_of_getElem? hget
  obtain ⟨position, hget⟩ := (of_build_eq_ok hbuild).2 r hmem target line column token hreply
  exact ⟨position, Registry.lookup_eq_ok_iff.2 hget⟩

theorem replyHeight_le (hbuild : build declared replies = .ok session)
    (hr : session.recognizer sender = .ok r) : r.replyHeight ≤ declared.length := by
  unfold Recognizer.replyHeight
  cases hreply : r.reply with
  | accept => exact Nat.zero_le _
  | refuse cause => exact Nat.zero_le _
  | forward target line column token =>
    obtain ⟨position, htarget⟩ := exists_lookup_of_recognizer hbuild hr hreply
    obtain ⟨hlt, hground⟩ := grounded_of_lookup hbuild htarget
    have hheight := hground.height_le
    change target.height + 1 ≤ declared.length
    omega

/-- If no listener of the host program fails with a notification, no leaf of a session does. -/
theorem plain_of_lookup (hbuild : build declared replies = .ok session)
    (hplain : ∀ h, .host h ∈ declared → h.Plain)
    (hl : session.registry.lookup position = .ok l) : ∀ leaf ∈ l.leaves, leaf.Plain := by
  rintro leaf hleaf id h rfl
  exact hplain h ((grounded_of_lookup hbuild hl).2.host_mem id h hleaf)

/-- **A dispatch ends, and nests once.**  In a session that is built from declarations, sending an
event needs no more open calls than twice the number of declarations, whatever the recognizer
forwards to.  On a syntax error nobody is notified; on a report each message that is handed back is
notified once, and nothing else is.  Unless listeners of the host program fail with notifications, a
syntax error does not, and no failed notification holds another. -/
theorem perform_nests_once (hbuild : build declared replies = .ok session)
    (hl : session.registry.lookup position = .ok l) (hr : session.recognizer sender = .ok r)
    (event : Event) (store : Store) :
    let run := r.deliver event l store
    session.perform store (.deliver position sender event) =
        .ok { run with result := .delivered run.result } ∧
      r.deliverWithin (2 * declared.length) event l = some (r.deliver event l) ∧
      (∀ e, event = .syntaxError e → ∀ recognizer m, .notified recognizer m ∉ run.journal) ∧
      Exchanged r.index run.journal ∧
      ((∀ h, .host h ∈ declared → h.Plain) → ∀ f, run.result = .error f →
        (∀ e, event = .syntaxError e → f.notificationDepth = 0) ∧ f.notificationDepth ≤ 1) := by
  refine ⟨perform_deliver hl hr store event, ?_, ?_, r.exchanged_deliver event l store, ?_⟩
  · -- both trees are lower than the number of declarations
    obtain ⟨hlt, hground⟩ := grounded_of_lookup hbuild hl
    have hheight := hground.height_le
    have hreply := replyHeight_le hbuild hr
    exact r.deliverWithin_eq (by omega)
  · rintro e rfl
    exact r.notified_notMem_deliver_syntaxError e l store
  · intro hplain f hf
    have hleaves := plain_of_lookup hbuild hplain hl
    refine ⟨?_, Recognizer.notificationDepth_deliver_le_one hleaves (fun m target e hto => ?_) hf⟩
    · rintro e rfl
      exact Recognizer.notificationDepth_deliver_syntaxError hleaves hf
    · obtain ⟨line, column, token, hreply, -⟩ := Recognizer.reply_of_forward? hto
      obtain ⟨position, htarget⟩ := exists_lookup_of_recognizer hbuild hr hreply
      exact plain_of_lookup hbuild hplain htarget

/-- A diagnostic listener and a listener of the host program that takes no syntax errors, under one
fan-out. -/
def circle : List Declaration :=
  [.diagnostic ⟨false⟩, .host (.failing "strict" [.syntaxError] none 0),
    .fanOut (.withPolicy .collectAll [0, 1])]

/-- A recognizer that forwards messages to that fan-out. -/
def circling : Origin × Reply Nat :=
  (.ofTexts 0 "Expr.g4" ["expr"] ["a", "b"] " ", .forward 2 1 0 none)

theorem plain_of_mem_circle : ∀ h, .host h ∈ circle → h.Plain := by
  intro h hh earlier delivery f hf
  obtain rfl : h = .failing "strict" [.syntaxError] none 0 := by simpa [circle] using hh
  simp only [Host.failing] at hf
  split at hf
  · cases hf
    rw [Option.getD_none, Failure.notificationDepth]
  · cases hf

theorem perform_nests_once_circling :
    ∃ session l r, build circle [circling] = .ok session ∧
      session.registry.lookup 2 = .ok l ∧ session.recognizer 0 = .ok r ∧ ∀ event store,
        let run := r.deliver event l store
        session.perform store (.deliver 2 0 event) =
            .ok { run with result := .delivered run.result } ∧
          r.deliverWithin 6 event l = some (r.deliver event l) ∧
          (∀ e, event = .syntaxError e → ∀ recognizer m, .notified recognizer m ∉ run.journal) ∧
          Exchanged r.index run.journal ∧
          ∀ f, run.result = .error f →
            (∀ e, event = .syntaxError e → f.notificationDepth = 0) ∧ f.notificationDepth ≤ 1 := by
  refine ⟨_, _, _, rfl, rfl, rfl, fun event store => ?_⟩
  obtain ⟨hrun, hends, hquiet, hexchanged, hdepth⟩ :=
    @perform_nests_once circle [circling] _ 2 0 _ _ rfl rfl rfl event store
  exact ⟨hrun, hends, hquiet, hexchanged, hdepth plain_of_mem_circle⟩

end Session

end ParseListeners
