import ParseListeners.Session

/-!
# What steps do

A step sends an event, or has a collecting listener hand out its records, or only looks at
something (`Session.perform_cases`).  `Session.storeAfter` is what the listeners remember after
some steps; it is what the next step of a run finds (`Session.getElem?_run`).
-/

namespace ParseListeners

theorem exists_of_bind_eq_ok {α β ε : Type} {x : Except ε α} {f : α → Except ε β} {b : β}
    (h : x >>= f = .ok b) : ∃ a, x = .ok a ∧ f a = .ok b := by
  cases x with
  | error e => cases h
  | ok a => exact ⟨a, rfl, h⟩

/-- The step sends no event and has no records handed out. -/
def Step.looks : Step → Bool
  | .deliver .. => false
  | .take _ => false
  | _ => true

namespace Session

/-- What a step that has an answer does: it sends an event, or has a collecting listener hand out
its records, or only looks at something. -/
theorem perform_cases {s : Session} {store : Store} {step : Step} {done : Run Answer}
    (h : s.perform store step = .ok done) :
    (∃ position sender event l r, step = .deliver position sender event ∧
      s.registry.lookup position = .ok l ∧ s.recognizer sender = .ok r ∧
      done = { r.deliver event l store with
        result := .delivered (r.deliver event l store).result }) ∨
    (∃ position id, step = .take position ∧ s.collector position = .ok id ∧
      done = ⟨.events (store.get id).recorded, [],
        store.set id { store.get id with recorded := [] }⟩) ∨
    (step.looks = true ∧ ∃ answer, done = ⟨answer, [], store⟩) := by
  cases step with
  | deliver position sender event =>
    obtain ⟨l, hl, h⟩ := exists_of_bind_eq_ok h
    obtain ⟨r, hr, h⟩ := exists_of_bind_eq_ok h
    exact .inl ⟨position, sender, event, l, r, rfl, hl, hr, (Except.ok.inj h).symm⟩
  | take position =>
    obtain ⟨id, hc, h⟩ := exists_of_bind_eq_ok h
    exact .inr (.inl ⟨position, id, rfl, hc, (Except.ok.inj h).symm⟩)
  | events position =>
    obtain ⟨id, -, h⟩ := exists_of_bind_eq_ok h
    exact .inr (.inr ⟨rfl, _, (Except.ok.inj h).symm⟩)
  | counts position =>
    obtain ⟨id, -, h⟩ := exists_of_bind_eq_ok h
    exact .inr (.inr ⟨rfl, _, (Except.ok.inj h).symm⟩)
  | sameEvents position other =>
    obtain ⟨id, -, h⟩ := exists_of_bind_eq_ok h
    obtain ⟨id', -, h⟩ := exists_of_bind_eq_ok h
    exact .inr (.inr ⟨rfl, _, (Except.ok.inj h).symm⟩)
  | exactOnly position =>
    obtain ⟨d, -, h⟩ := exists_of_bind_eq_ok h
    exact .inr (.inr ⟨rfl, _, (Except.ok.inj h).symm⟩)
  | describe position layout =>
    obtain ⟨d, -, h⟩ := exists_of_bind_eq_ok h
    exact .inr (.inr ⟨rfl, _, (Except.ok.inj h).symm⟩)
  | startTracing => exact .inr (.inr ⟨rfl, _, (Except.ok.inj h).symm⟩)

/-- What the listeners of a session remember after some steps. -/
def storeAfter (s : Session) (steps : List Step) (store : Store) : Store :=
  steps.foldl (fun store step =>
    match s.perform store step with
    | .ok done => done.store
    | .error _ => store) store

theorem storeAfter_of_ok {s : Session} {store : Store} {step : Step} {done : Run Answer}
    (h : s.perform store step = .ok done) : s.storeAfter [step] store = done.store := by
  simp only [storeAfter, List.foldl, h]

theorem storeAfter_of_error {s : Session} {store : Store} {step : Step} {e : LookupError}
    (h : s.perform store step = .error e) : s.storeAfter [step] store = store := by
  simp only [storeAfter, List.foldl, h]

theorem run_cons (s : Session) (step : Step) (steps : List Step) (store : Store) :
    s.run (step :: steps) store =
      s.perform store step :: s.run steps (s.storeAfter [step] store) := rfl

theorem storeAfter_cons (s : Session) (step : Step) (steps : List Step) (store : Store) :
    s.storeAfter (step :: steps) store = s.storeAfter steps (s.storeAfter [step] store) := rfl

/-- Each step of a run finds the memories that the steps before it have left. -/
theorem getElem?_run (s : Session) {steps : List Step} {k : Nat} {step : Step}
    (h : steps[k]? = some step) (store : Store) :
    (s.run steps store)[k]? = some (s.perform (s.storeAfter (steps.take k) store) step) := by
  induction steps generalizing k store with
  | nil => simp at h
  | cons first steps ih =>
    cases k with
    | zero =>
      obtain rfl : first = step := by simpa using h
      rfl
    | succ k => exact ih h _

end Session

end ParseListeners
