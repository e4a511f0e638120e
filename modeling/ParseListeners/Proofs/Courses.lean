import ParseListeners.Recognizer

/-!
# Events sent one after the other

`Listener.courses` lists what comes of events that are sent to one listener, each with the memories
that the one before left.

What holds of the memories at first and is kept by each dispatch holds all along
(`Listener.exists_of_courses`); it may speak of the events that have been sent so far.
-/

namespace ParseListeners

/-- The courses of events that recognizers send to a listener, in order. -/
def Listener.courses (l : Listener) :
    List (Recognizer × Event) → Store → List (Run (Except Failure Unit))
  | [], _ => []
  | (r, event) :: sent, s =>
    let run := r.deliver event l s
    run :: l.courses sent run.store

namespace Listener

variable {l : Listener} {sent : List (Recognizer × Event)} {s : Store}

@[simp] theorem length_courses : (l.courses sent s).length = sent.length := by
  induction sent generalizing s with
  | nil => rfl
  | cons first sent ih => rw [courses, List.length_cons, List.length_cons, ih]

/-- What holds of nothing sent and the memories at first, and is kept whenever an event is sent,
holds of the events before each course and the memories that it finds. -/
theorem exists_of_courses {P : List (Recognizer × Event) → Store → Prop} (hnil : P [] s)
    (hsend : ∀ earlier r event t, (r, event) ∈ sent → P earlier t →
      P (earlier ++ [(r, event)]) (r.deliver event l t).store)
    {k : Nat} {r : Recognizer} {event : Event} {run : Run (Except Failure Unit)}
    (hk : sent[k]? = some (r, event)) (hrun : (l.courses sent s)[k]? = some run) :
    ∃ t, P (sent.take k) t ∧ run = r.deliver event l t := by
  induction sent generalizing s k P with
  | nil => simp at hk
  | cons first sent ih =>
    obtain ⟨r₁, event₁⟩ := first
    rw [courses] at hrun
    cases k with
    | zero =>
      obtain ⟨rfl, rfl⟩ : r₁ = r ∧ event₁ = event := by simpa using hk
      exact ⟨s, hnil, by simpa using hrun.symm⟩
    | succ k =>
      -- after the first event the same holds, with that event before all others
      refine ih (P := fun earlier => P ((r₁, event₁) :: earlier))
        (hsend [] r₁ event₁ s List.mem_cons_self hnil) (fun earlier r event t hmem => ?_) hk hrun
      exact hsend ((r₁, event₁) :: earlier) r event t (List.mem_cons_of_mem _ hmem)

end Listener

end ParseListeners
