import ParseListeners.Action

/-!
# Actions under a policy

The two policies of a fan-out differ in when they stop, and in nothing else: `Policy.runEach` runs
actions as long as a policy goes on, and gathers their failures in the end
(`Policy.combine_eq_runEach`).  `Policy.courses` lists the courses of the actions that are run;
what comes out of `Policy.combine` can be read off that list:

* `Policy.journal_combine` : the journal is that of the courses, one after the other;
* `Policy.result_combine` : the result gathers the failures of the courses, so it is a success
  exactly if every course is one (`Policy.result_combine_eq_ok_iff`).
-/

namespace ParseListeners

/-- The failure that came out of a run, if it failed. -/
def Run.failure? (run : Run (Except Failure Unit)) : Option Failure :=
  match run.result with
  | .ok () => none
  | .error f => some f

theorem Run.failure?_of_ok {run : Run (Except Failure Unit)} (h : run.result = .ok ()) :
    run.failure? = none := by
  simp only [failure?, h]

theorem Run.failure?_of_error {run : Run (Except Failure Unit)} {f : Failure}
    (h : run.result = .error f) : run.failure? = some f := by
  simp only [failure?, h]

theorem Run.failure?_eq_none_iff {run : Run (Except Failure Unit)} :
    run.failure? = none ↔ run.result = .ok () := by
  cases h : run.result with
  | ok u => simp [failure?_of_ok h]
  | error f => simp [failure?_of_error h]

theorem Run.failure?_eq_some_iff {run : Run (Except Failure Unit)} {f : Failure} :
    run.failure? = some f ↔ run.result = .error f := by
  cases h : run.result with
  | ok u => simp [failure?_of_ok h]
  | error g => simp [failure?_of_error h]

theorem Run.gather_failure? (run : Run (Except Failure Unit)) :
    Failure.gather run.failure?.toList = run.result := by
  cases h : run.result with
  | ok u => rw [failure?_of_ok h]; rfl
  | error f => rw [failure?_of_error h]; rfl

namespace Policy

/-- After an action with this result the next one is run as well. -/
def goesOn : Policy → Except Failure Unit → Bool
  | .failFast, .ok _ => true
  | .failFast, .error _ => false
  | .collectAll, _ => true

/-- The courses of the actions that are run, in order. -/
def courses (policy : Policy) : List Action → Store → List (Run (Except Failure Unit))
  | [], _ => []
  | a :: as, s =>
    a s :: if policy.goesOn (a s).result then policy.courses as (a s).store else []

@[simp] theorem goesOn_collectAll (result : Except Failure Unit) :
    collectAll.goesOn result = true := rfl

@[simp] theorem goesOn_failFast_error (f : Failure) : failFast.goesOn (.error f) = false := rfl

theorem goesOn_failFast_iff {result : Except Failure Unit} :
    failFast.goesOn result = true ↔ result = .ok () := by
  cases result with
  | ok u => simp [goesOn]
  | error f => simp

variable {policy : Policy} {a : Action} {as : List Action} {s : Store}

theorem courses_cons_of_goesOn (h : policy.goesOn (a s).result = true) :
    policy.courses (a :: as) s = a s :: policy.courses as (a s).store := by
  simp only [courses, h, ↓reduceIte]

theorem courses_cons_of_stops (h : policy.goesOn (a s).result = false) :
    policy.courses (a :: as) s = [a s] := by
  simp only [courses, h, Bool.false_eq_true, ↓reduceIte]

/-- The actions in order, as long as the policy goes on, with the failures of those that fail. -/
def runEach (policy : Policy) : List Action → Store → Run (List Failure)
  | [], s => ⟨[], [], s⟩
  | a :: as, s =>
    let first := a s
    let rest := if policy.goesOn first.result then runEach policy as first.store
      else ⟨[], [], first.store⟩
    ⟨first.failure?.toList ++ rest.result, first.journal ++ rest.journal, rest.store⟩

theorem runEach_cons_of_goesOn (h : policy.goesOn (a s).result = true) :
    policy.runEach (a :: as) s =
      ⟨(a s).failure?.toList ++ (policy.runEach as (a s).store).result,
        (a s).journal ++ (policy.runEach as (a s).store).journal,
        (policy.runEach as (a s).store).store⟩ := by
  simp only [runEach, h, ↓reduceIte]

theorem runEach_cons_of_stops (h : policy.goesOn (a s).result = false) :
    policy.runEach (a :: as) s = ⟨(a s).failure?.toList, (a s).journal, (a s).store⟩ := by
  simp [runEach, h]

theorem everyOne_eq_runEach (as : List Action) (s : Store) :
    Action.everyOne as s = collectAll.runEach as s := by
  induction as generalizing s with
  | nil => rfl
  | cons a as ih =>
    rw [runEach_cons_of_goesOn (goesOn_collectAll _), Action.everyOne, ih]
    cases h : (a s).result with
    | ok u => simp only [Run.failure?_of_ok h]; rfl
    | error f => simp only [Run.failure?_of_error h]; rfl

theorem inOrder_eq_runEach (as : List Action) (s : Store) :
    Action.inOrder as s =
      { failFast.runEach as s with
        result := Failure.gather (failFast.runEach as s).result } := by
  induction as generalizing s with
  | nil => rfl
  | cons a as ih =>
    cases h : (a s).result with
    | ok u =>
      rw [runEach_cons_of_goesOn (goesOn_failFast_iff.2 h), Run.failure?_of_ok h]
      simp only [Action.inOrder, Action.andThen, h, ih]
      rfl
    | error f =>
      have hstops : failFast.goesOn (a s).result = false := by rw [h]; rfl
      rw [runEach_cons_of_stops hstops, Run.failure?_of_error h]
      simp only [Action.inOrder, Action.andThen, h]
      exact congrArg (Run.mk · _ _) h

/-- Under either policy, what comes out gathers the failures of the actions that are run. -/
theorem combine_eq_runEach (policy : Policy) (as : List Action) (s : Store) :
    policy.combine as s =
      { policy.runEach as s with result := Failure.gather (policy.runEach as s).result } := by
  cases policy with
  | failFast => exact inOrder_eq_runEach as s
  | collectAll => simp only [combine, Action.gathering, everyOne_eq_runEach]

theorem runEach_eq_courses (policy : Policy) (as : List Action) (s : Store) :
    (policy.runEach as s).result = (policy.courses as s).filterMap Run.failure? ∧
      (policy.runEach as s).journal = (policy.courses as s).flatMap Run.journal := by
  induction as generalizing s with
  | nil => exact ⟨rfl, rfl⟩
  | cons a as ih =>
    obtain ⟨hr, hj⟩ := ih (a s).store
    cases h : policy.goesOn (a s).result with
    | true =>
      rw [runEach_cons_of_goesOn h, courses_cons_of_goesOn h, List.flatMap_cons, ← hj]
      refine ⟨?_, rfl⟩
      cases hf : (a s).failure? <;> simp [hf, hr]
    | false =>
      rw [runEach_cons_of_stops h, courses_cons_of_stops h]
      cases hf : (a s).failure? <;> simp [hf]

/-- What comes out gathers the failures of the courses. -/
theorem result_combine (policy : Policy) (as : List Action) (s : Store) :
    (policy.combine as s).result =
      Failure.gather ((policy.courses as s).filterMap Run.failure?) := by
  rw [combine_eq_runEach, (runEach_eq_courses policy as s).1]

/-- The journal is that of the courses, one after the other. -/
theorem journal_combine (policy : Policy) (as : List Action) (s : Store) :
    (policy.combine as s).journal = (policy.courses as s).flatMap Run.journal := by
  rw [combine_eq_runEach, (runEach_eq_courses policy as s).2]

/-- A policy makes no difference to a single action. -/
theorem combine_singleton (policy : Policy) (a : Action) : policy.combine [a] = a := by
  funext s
  have heach : policy.runEach [a] s = ⟨(a s).failure?.toList, (a s).journal, (a s).store⟩ := by
    cases policy.goesOn (a s).result <;> simp [runEach]
  rw [combine_eq_runEach, heach, Run.gather_failure?]

theorem combine_cons_of_ok (h : (a s).result = .ok ()) :
    policy.combine (a :: as) s =
      { policy.combine as (a s).store with
        journal := (a s).journal ++ (policy.combine as (a s).store).journal } := by
  cases policy with
  | failFast => simp only [combine, Action.inOrder, Action.andThen, h]
  | collectAll => simp only [combine, Action.gathering, Action.everyOne, h]

theorem combine_failFast_cons_of_error {f : Failure} (h : (a s).result = .error f) :
    failFast.combine (a :: as) s = a s := by
  simp only [combine, Action.inOrder, Action.andThen, h]

theorem result_combine_eq_ok_iff :
    (policy.combine as s).result = .ok () ↔ ∀ run ∈ policy.courses as s, run.result = .ok () := by
  rw [result_combine, Failure.gather_eq_ok_iff, List.filterMap_eq_nil_iff]
  simp only [Run.failure?_eq_none_iff]

theorem result_combine_cons_eq_ok_iff :
    (policy.combine (a :: as) s).result = .ok () ↔
      (a s).result = .ok () ∧ (policy.combine as (a s).store).result = .ok () := by
  cases h : (a s).result with
  | ok u => rw [combine_cons_of_ok h]; simp
  | error f =>
    have hmem : a s ∈ policy.courses (a :: as) s := by rw [courses]; exact List.mem_cons_self
    rw [result_combine_eq_ok_iff]
    refine iff_of_false (fun hall => ?_) (by simp)
    have hok := hall _ hmem
    simp [h] at hok

theorem result_combine_of_ok (h : ∀ a ∈ as, ∀ t, (a t).result = .ok ()) (s : Store) :
    (policy.combine as s).result = .ok () := by
  induction as generalizing s with
  | nil => cases policy <;> rfl
  | cons a as ih =>
    rw [List.forall_mem_cons] at h
    exact result_combine_cons_eq_ok_iff.2 ⟨h.1 s, ih h.2 _⟩

/-- If all actions succeed, and what each of them does then does not depend on the memories that it
finds, the journal is known from the actions. -/
theorem journal_combine_of_ok {α : Type} {xs : List α} {f : α → Action} {entries : α → List Entry}
    (h : ∀ x ∈ xs, ∀ t, (f x t).result = .ok () → (f x t).journal = entries x)
    (hok : (policy.combine (xs.map f) s).result = .ok ()) :
    (policy.combine (xs.map f) s).journal = xs.flatMap entries := by
  induction xs generalizing s with
  | nil => cases policy <;> rfl
  | cons x xs ih =>
    rw [List.forall_mem_cons] at h
    rw [List.map_cons] at hok ⊢
    obtain ⟨hx, hxs⟩ := result_combine_cons_eq_ok_iff.1 hok
    rw [combine_cons_of_ok hx, List.flatMap_cons, ← h.1 s hx, ← ih h.2 hxs]

end Policy

end ParseListeners
