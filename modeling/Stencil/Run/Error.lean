import Stencil.Location
import Stencil.Text.Quoted
import Stencil.Value.Json

/-!
# Errors of a run

Why the run of a template fails. An error is a cause with the values and names it is about; most
carry the location of the node to blame. All wording is in `RunError.message`.
-/

namespace Stencil

/-- **Why a run fails.** What an error says is all that its message needs: names, the value that was
found, and for most of them a location. -/
inductive RunError
  /-- a call of a function that is not registered -/
  | unknownFunction (loc : Location) (name : String)
  /-- an inclusion of a template that the set does not have -/
  | unknownTemplate (loc : Location) (name : String)
  /-- the template to run is not in the set -/
  | missingTemplate (name : String)
  /-- a property of what has none -/
  | notAMapping (loc : Location) (property : String) (found : Value)
  /-- a range over what has no items -/
  | notIterable (loc : Location) (found : Value)
  /-- an inclusion whose name is not a string -/
  | templateName (loc : Location) (found : Value)
  /-- a function that says it cannot -/
  | functionFailed (loc : Location) (name reason : String)
  /-- a statement where an expression belongs -/
  | notAnExpression (loc : Location)
  /-- an expression where a statement belongs -/
  | notAStatement (loc : Location)
  /-- output that the sink does not take -/
  | write
  deriving DecidableEq, Repr

namespace RunError

/-- The location of the node to blame, if there is one: the template that was asked for is not in a
source, and neither is the sink. -/
def loc? : RunError → Option Location
  | .unknownFunction loc _ | .unknownTemplate loc _ | .notAMapping loc _ _ | .notIterable loc _
  | .templateName loc _ | .functionFailed loc _ _ | .notAnExpression loc | .notAStatement loc =>
    some loc
  | .missingTemplate _ | .write => none

/-- What went wrong. -/
def explanation : RunError → String
  | .unknownFunction _ name => "no function named " ++ Text.quoted name
  | .unknownTemplate _ name => "no template named " ++ Text.quoted name
  | .missingTemplate name => "no template named " ++ Text.quoted name
  | .notAMapping _ property found =>
    "cannot look up property " ++ Text.quoted property ++ " on " ++ found.description
  | .notIterable _ found => "cannot range over " ++ found.description
  | .templateName _ found => "template name must be a string, got " ++ found.description
  | .functionFailed _ name reason => "function " ++ Text.quoted name ++ " failed: " ++ reason
  | .notAnExpression _ => "statement used where an expression is required"
  | .notAStatement _ => "expression used where a statement is required"
  | .write => "failed to write template output"

/-- The message: the location with a colon, if there is one, and what went wrong. -/
def message (e : RunError) : String :=
  match e.loc? with
  | some loc => loc.text ++ ": " ++ e.explanation
  | none => e.explanation

end RunError

end Stencil
