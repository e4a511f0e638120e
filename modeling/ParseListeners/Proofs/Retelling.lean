import Mathlib.Data.List.Basic
import ParseListeners.Proofs.Calls

/-!
# Journals told differently

`Action.retell` has every journal entry told in another way: as another entry, as several ones, or
not at all.  The same is done and the same comes out, so an action that is made of others is told
differently by telling these differently (`Policy.retell_combine`).  The journal of a dispatch is
told differently by telling that of each leaf differently (`Recognizer.retell_deliver`), where a
message that is forwarded is a dispatch again (`Recognizer.retell_notifyBy`).
-/

namespace ParseListeners

/-! ### Runs and actions -/

/-- The run with each entry of its journal told as `tell` says. -/
def Run.retell {α : Type} (tell : Entry → List Entry) (run : Run α) : Run α :=
  { run with journal := run.journal.flatMap tell }

namespace Action

/-- The action with each entry of its journal told as `tell` says. -/
def retell (tell : Entry → List Entry) (a : Action) : Action := fun s => (a s).retell tell

variable {tell : Entry → List Entry}

theorem retell_note {e : Entry} (h : tell e = [e]) : (note e).retell tell = note e := by
  funext s
  simp [retell, Run.retell, note, h]

theorem retell_andThen (a b : Action) :
    (a.andThen b).retell tell = (a.retell tell).andThen (b.retell tell) := by
  funext s
  cases h : (a s).result with
  | error f => simp only [retell, Run.retell, andThen, h]
  | ok u => simp only [retell, Run.retell, andThen, h, List.flatMap_append]

theorem retell_inOrder (as : List Action) :
    (inOrder as).retell tell = inOrder (as.map (retell tell)) := by
  induction as with
  | nil => rfl
  | cons a as ih => rw [inOrder, retell_andThen, ih, List.map_cons, inOrder]

theorem retell_everyOne (as : List Action) (s : Store) :
    (everyOne as s).retell tell = everyOne (as.map (retell tell)) s := by
  induction as generalizing s with
  | nil => rfl
  | cons a as ih =>
    rw [List.map_cons, everyOne, everyOne]
    simp only [retell, Run.retell] at ih ⊢
    rw [← ih, List.flatMap_append]

/-- What an action tells by itself stays as it is if all its entries do. -/
theorem retell_eq_self {a : Action} (h : ∀ s, ∀ e ∈ (a s).journal, tell e = [e]) :
    a.retell tell = a := by
  funext s
  have hjournal : (a s).journal.flatMap tell = (a s).journal := by
    rw [List.flatMap_congr (h s), List.flatMap_singleton']
  simp only [retell, Run.retell, hjournal]

end Action

theorem Policy.retell_combine {tell : Entry → List Entry} (policy : Policy) (as : List Action) :
    (policy.combine as).retell tell = policy.combine (as.map (Action.retell tell)) := by
  cases policy with
  | failFast => exact Action.retell_inOrder as
  | collectAll =>
    funext s
    simp only [combine, Action.gathering, ← Action.retell_everyOne]
    rfl

/-! ### Dispatches -/

namespace Recognizer

/-- The recognizer is handed a message to pass on; if it forwards it, `send` is how it sends the
syntax error. -/
def notifyBy (r : Recognizer) (send : SyntaxError → Listener → Action) (message : String) :
    Action :=
  (Action.note (.notified r.index message)).andThen
    (match r.forward? message with
      | some (target, e) => (send e target).mapFailure .relayed
      | none => r.answer message)

theorem notify_eq_notifyBy (r : Recognizer) (m : String) :
    r.notify m = r.notifyBy (fun e => r.deliver (.syntaxError e)) m := by
  cases h : r.forward? m with
  | none => simp only [notify, notifyBy, h]
  | some found =>
    obtain ⟨target, e⟩ := found
    rw [notify_eq_of_forward h]
    simp only [notifyBy, h]

variable {tell : Entry → List Entry} {r : Recognizer}

theorem retell_notifyBy (hnotified : ∀ m, tell (.notified r.index m) = [.notified r.index m])
    (hfailed : ∀ f, tell (.failed f) = [.failed f])
    (send : SyntaxError → Listener → Action) (m : String) :
    (r.notifyBy send m).retell tell = r.notifyBy (fun e l => (send e l).retell tell) m := by
  rw [notifyBy, Action.retell_andThen, Action.retell_note (hnotified m), notifyBy]
  cases h : r.forward? m with
  | some found => rfl
  | none =>
    have hanswer : (r.answer m).retell tell = r.answer m := by
      refine Action.retell_eq_self fun s e he => ?_
      cases hr : r.reply with
      | accept => simp [answer, hr, Action.done] at he
      | refuse cause =>
        obtain rfl : e = .failed (.refused cause) := by
          simpa [answer, hr, Action.fail] using he
        exact hfailed _
      | forward target line column token => simp [forward?, hr] at h
    rw [hanswer]

/-- What is told of the leaves and of the trace record of each fan-out is told of a tree. -/
theorem retell_deliver {event : Event} (told : Listener → Action)
    (hleaf : ∀ leaf, (r.deliver event (.leaf leaf)).retell tell = told (.leaf leaf))
    (hfanOut : ∀ policy ds, told (.fanOut policy ds) =
      ((Listener.announce event ds.length).retell tell).andThen (policy.combine (ds.map told)))
    (l : Listener) : (r.deliver event l).retell tell = told l := by
  induction l with
  | leaf leaf => exact hleaf leaf
  | fanOut policy ds ih =>
    have hds : (ds.map (r.deliver event)).map (Action.retell tell) = ds.map told := by
      rw [List.map_map]
      exact List.map_congr_left ih
    rw [deliver_fanOut, Action.retell_andThen, Policy.retell_combine, hds, hfanOut]

end Recognizer

end ParseListeners
