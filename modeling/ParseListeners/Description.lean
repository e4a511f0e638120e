import ParseListeners.Listener

/-!
# Descriptions of listeners

A `Description` shows the make of a listener, for people who look for a mistake: a bare name, or
a name with fields.  It is written on one line, or with every field on a line of its own.
-/

namespace ParseListeners

/-- The ways to write a description. -/
inductive Layout where
  /-- All on one line. -/
  | compact
  /-- Every field on a line of its own, four blanks deeper than what it belongs to. -/
  | pretty
  deriving DecidableEq

/-- A description, as its text in a layout at a depth of nesting. -/
def Description : Type := Layout → Nat → String

namespace Description

/-- The text of a description. -/
def render (d : Description) (layout : Layout) : String := d layout 0

/-- The blanks at the start of a line. -/
def indent (depth : Nat) : String := String.ofList (List.replicate (4 * depth) ' ')

/-- A word or a number. -/
def atom (text : String) : Description := fun _ _ => text

/-- A name whose fields are not shown. -/
def elided (name : String) : Description := atom (name ++ " \x7b .. \x7d")

/-- A name with fields. -/
def record (name : String) (fields : List (String × Description)) : Description
  | .compact, depth =>
    name ++ " \x7b " ++
      ", ".intercalate (fields.map fun (label, d) => label ++ ": " ++ d .compact depth) ++ " \x7d"
  | .pretty, depth =>
    name ++ " \x7b\n" ++
      String.join (fields.map fun (label, d) =>
        indent (depth + 1) ++ label ++ ": " ++ d .pretty (depth + 1) ++ ",\n") ++
      indent depth ++ "\x7d"

end Description

open Description

/-- The name of a policy. -/
def Policy.describe : Policy → Description
  | .failFast => atom "FailFast"
  | .collectAll => atom "CollectAll"

/-- The make of a leaf; collecting listeners and those of the host program have none to show. -/
def Leaf.describe? : Leaf → Option Description
  | .null => some (atom "NullListener")
  | .tracing => some (atom "TracingListener")
  | .standardError => some (elided "ConsoleListener")
  | .diagnostic d =>
    some (record "DiagnosticListener" [("exact_only", atom (toString d.exactOnly))])
  | .collector _ => none
  | .console .. => some (elided "ConsoleListener")
  | .host .. => none

/-- The make of a listener, if it has one to show; of its delegates a fan-out shows the number. -/
def Listener.describe? : Listener → Option Description
  | .leaf l => l.describe?
  | .fanOut policy delegates =>
    some (record "ProxyListener"
      [("delegates", atom (toString delegates.length)),
        ("config", record "ProxyConfig" [("failure_policy", policy.describe)])])

end ParseListeners
