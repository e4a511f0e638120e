import ParseListeners.Alternatives

/-!
# Configurations

While it decides, a parser holds `Configurations`: the states it may be in, each with the
alternative that leads there.  The order and repetitions of the configurations are kept;
`Configurations.alternatives` forgets them.
-/

namespace ParseListeners

/-- A state the parser may be in, and the alternative that leads there. -/
structure Configuration where
  /-- The number of the state. -/
  state : UInt64
  /-- The number of the alternative. -/
  alternative : UInt64
  deriving DecidableEq

/-- The configurations of a decision under way. -/
structure Configurations where
  /-- The configurations, oldest first. -/
  toList : List Configuration := []
  /-- They were found with the whole calling context in view. -/
  fullContext : Bool := false
  deriving DecidableEq, Inhabited

namespace Configurations

/-- No configurations, found with (`true`) or without the whole calling context. -/
def empty (fullContext : Bool) : Configurations := ⟨[], fullContext⟩

/-- One configuration more, at the end. -/
def push (s : Configurations) (c : Configuration) : Configurations :=
  { s with toList := s.toList ++ [c] }

/-- The configurations of a list, found without the whole calling context. -/
def ofList (cs : List Configuration) : Configurations := cs.foldl push (empty false)

/-- The alternatives that occur in some configuration. -/
def alternatives (s : Configurations) : Alternatives :=
  Alternatives.ofList (s.toList.map Configuration.alternative)

/-- Pushing a list appends it and keeps the flag. -/
theorem foldl_push (cs : List Configuration) (s : Configurations) :
    cs.foldl push s = ⟨s.toList ++ cs, s.fullContext⟩ := by
  induction cs generalizing s with
  | nil => simp
  | cons c cs ih => simp [ih, push]

@[simp] theorem ofList_eq (cs : List Configuration) : ofList cs = ⟨cs, false⟩ := by
  simp [ofList, foldl_push, empty]

theorem mem_alternatives {s : Configurations} {n : UInt64} :
    n ∈ s.alternatives ↔ ∃ c ∈ s.toList, c.alternative = n := by
  simp [alternatives]

end Configurations

end ParseListeners
