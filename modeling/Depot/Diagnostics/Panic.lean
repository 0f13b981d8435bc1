import Depot.Text.Quoted

/-!
# Panic messages

What is shown of the value that a panic carries: its text if it is a text of the two usual kinds, and a
placeholder for anything else.
-/

namespace Depot

/-- The value that a panic carries. -/
inductive PanicPayload
  /-- A text built for the occasion. -/
  | built (text : String)
  /-- A text that was there from the start. -/
  | fixed (text : String)
  /-- Anything else. -/
  | foreign
  deriving DecidableEq, Repr

namespace PanicPayload

/-- The message of a panic. -/
def message : PanicPayload → String
  | built text => text
  | fixed text => text
  | foreign => "<non-string panic>"

/-- The message of a panic in diagnostics. -/
def debug (p : PanicPayload) : String := "PanicMessage(" ++ Text.Quoted.encode p.message ++ ")"

end PanicPayload

end Depot
