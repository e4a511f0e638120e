import ParseListeners.Origin

/-!
# Diagnostic messages

A diagnostic listener turns reports into messages for the recognizer to pass on.  It can be told
to leave out ambiguities that are not exact.
-/

namespace ParseListeners

/-- The alternatives that a report on an ambiguity names: the reported ones, or if there are none
those of the configurations. -/
def Report.effective (r : Report) (alternatives : Alternatives) : Alternatives :=
  if alternatives.isEmpty then r.configurations.alternatives else alternatives

/-- The message that a report becomes. -/
def Report.message (origin : Origin) (r : Report) : String :=
  let decision := origin.describe r.decision
  let input := ", input='" ++ origin.inputText r.start r.stop ++ "'"
  match r.finding with
  | .ambiguity _ alternatives =>
    "reportAmbiguity d=" ++ decision ++ ": ambigAlts=" ++ (r.effective alternatives).render ++
      input
  | .fullContext _ => "reportAttemptingFullContext d=" ++ decision ++ input
  | .contextSensitivity _ => "reportContextSensitivity d=" ++ decision ++ input

/-- The report is an ambiguity that is not exact. -/
def Report.isInexact (r : Report) : Bool :=
  match r.finding with
  | .ambiguity exact _ => !exact
  | .fullContext _ => false
  | .contextSensitivity _ => false

/-- What a diagnostic listener leaves out. -/
structure Diagnostic where
  /-- Ambiguities that are not exact are left out. -/
  exactOnly : Bool := true
  deriving DecidableEq, Inhabited

/-- The diagnostic listener leaves the report out. -/
def Diagnostic.skips (d : Diagnostic) (r : Report) : Bool := d.exactOnly && r.isInexact

end ParseListeners
