import ParseListeners.Configurations
import ParseListeners.Proofs.Histories

/-!
# Configurations as lists and as sets of alternatives

Configurations begin as new ones, as the default ones or as those collected from a list, and then
one after another is pushed.  Whoever goes through them meets all that was collected and pushed, in
order, and their flag is that of the beginning (`Configurations.History.outcome_eq`).

Their alternatives are a set, in which a push puts one number (`Configurations.alternatives_push`).
It hangs on which alternatives occur and on nothing else (`Configurations.alternatives_eq_iff`), so
different histories may end in the same set.
-/

namespace ParseListeners

namespace Configurations

/-- A way to make configurations. -/
inductive History where
  /-- They are new, found with (`true`) or without the whole calling context. -/
  | new (fullContext : Bool)
  /-- They are the default ones. -/
  | default
  /-- They are collected from configurations that come in this order. -/
  | collected (cs : List Configuration)
  /-- One more is pushed. -/
  | pushed (h : History) (c : Configuration)

namespace History

/-- The configurations that are made. -/
def outcome : History → Configurations
  | .new fullContext => empty fullContext
  | .default => Inhabited.default
  | .collected cs => ofList cs
  | .pushed h c => h.outcome.push c

/-- The configurations that are collected and pushed, the first one first. -/
def given : History → List Configuration
  | .new _ => []
  | .default => []
  | .collected cs => cs
  | .pushed h c => h.given ++ [c]

/-- The flag that is given in the beginning.  Only new configurations are given one. -/
def context : History → Bool
  | .new fullContext => fullContext
  | .default => false
  | .collected _ => false
  | .pushed h _ => h.context

theorem outcome_eq (h : History) : h.outcome = ⟨h.given, h.context⟩ := by
  induction h with
  | new fullContext => rfl
  | default => rfl
  | collected cs => exact ofList_eq cs
  | pushed h c ih => rw [outcome, ih, push, given, context]

end History

/-! ### Alternatives -/

/-- A push puts one number in the set of alternatives. -/
theorem alternatives_push (s : Configurations) (c : Configuration) :
    (s.push c).alternatives = s.alternatives.insert c.alternative := by
  rw [alternatives, push, List.map_append, List.map_singleton, Alternatives.ofList_concat,
    alternatives]

theorem alternatives_eq_iff {s t : Configurations} :
    s.alternatives = t.alternatives ↔
      ∀ n, (∃ c ∈ s.toList, c.alternative = n) ↔ ∃ c ∈ t.toList, c.alternative = n := by
  simp only [Alternatives.ext_mem_iff, mem_alternatives]

namespace History

/-- **Configurations keep a list and show a set.**  However they are made, they are those that were
collected and pushed, in order and with repetitions, and their flag is the one of the beginning.
Their alternatives are the numbers that occur in them as alternatives, each one once and in
ascending order.  A push puts one number in that set.  After two histories the sets of alternatives
are equal if and only if the same alternatives occur in the configurations, whatever their order,
repetitions, states and flags. -/
theorem outcome_keeps_list (h : History) :
    let s := h.outcome
    s.toList = h.given ∧ s.fullContext = h.context ∧
      (∀ n, n ∈ s.alternatives ↔ ∃ c ∈ h.given, c.alternative = n) ∧
      s.alternatives.toList.Pairwise (· < ·) ∧
      s.alternatives.toList.Perm (h.given.map Configuration.alternative).dedup ∧
      (∀ c, (pushed h c).outcome.alternatives = s.alternatives.insert c.alternative) ∧
      ∀ other : History, s.alternatives = other.outcome.alternatives ↔
        ∀ n, (∃ c ∈ h.given, c.alternative = n) ↔ ∃ c ∈ other.given, c.alternative = n := by
  intro s
  have hs : s = ⟨h.given, h.context⟩ := h.outcome_eq
  have hlist : s.toList = h.given := congrArg toList hs
  refine ⟨hlist, congrArg fullContext hs, fun n => ?_, s.alternatives.ascending, ?_,
    s.alternatives_push, fun other => ?_⟩
  · rw [mem_alternatives, hlist]
  · rw [← hlist]
    exact Alternatives.toList_ofList_perm _
  · rw [alternatives_eq_iff, hlist, other.outcome_eq]

example :
    let s := (pushed (pushed (collected [⟨10, 2⟩, ⟨11, 1⟩]) ⟨12, 2⟩) ⟨10, 2⟩).outcome
    s.toList.length = 4 ∧ s.alternatives.toList = [1, 2] := by
  decide +kernel

end History

end Configurations

end ParseListeners
