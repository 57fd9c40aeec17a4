import Stencil.Location
import Stencil.Text.Quoted

/-!
# Errors of a source

Why a source cannot be read. Cutting it into text and directives fails in one way only; what
a directive says, and how the directives fit together, fails in many (`Fault`). An error is a cause
with a location, and all wording is in `Fault.message` and `SourceError.message`.
-/

namespace Stencil

/-- **Why directives cannot be read**, with the texts that the message shows. Where the directive
stands is not among them: a location is added to the fault. -/
inductive Fault
  /-- a literal that no quote closes, from its opening quote on -/
  | unterminatedLiteral (rest : String)
  /-- the expression ends where an operand belongs -/
  | missingOperand (expression : String)
  /-- something else stands where an operand belongs -/
  | unexpectedLexeme (found expression : String)
  /-- a parenthesis is missing, before what is found or at the end -/
  | expectedParen (paren : Char) (found : Option String)
  /-- the expression ends where a function name belongs -/
  | missingName (expression : String)
  /-- something else stands where a function name belongs -/
  | expectedName (found : String)
  /-- a word that begins with a dot and is no property chain -/
  | malformedReference (word : String)
  /-- a literal with a backslash before what names no character -/
  | unknownEscape (sequence literal : String)
  /-- a literal whose last backslash takes nothing along -/
  | danglingBackslash (literal : String)
  /-- text after a whole expression -/
  | trailingContent (consumed remainder : String)
  /-- a definition whose name is not a literal -/
  | nameNotLiteral (expression : String)
  /-- a name that is defined already -/
  | redefinition (name : String)
  /-- a definition after other content or inside it -/
  | misplacedDefine
  /-- more than the bare keyword in a directive that ends a body -/
  | contentAfterKeyword (directive : String)
  /-- the source ends inside a block or definition -/
  | missingEnd
  /-- another directive where a block or definition has to end -/
  | expectedEnd (found : String)
  /-- content that belongs to no template -/
  | unparsedContent (rest : String)
  deriving DecidableEq, Repr

/-- The wording of a fault. -/
def Fault.message : Fault → String
  | .unterminatedLiteral rest => "unterminated string literal " ++ rest
  | .missingOperand expression => "missing expression part at end of " ++ expression
  | .unexpectedLexeme found expression =>
    "unexpected " ++ found ++ " in expression " ++ expression
  | .expectedParen paren none => "Expected " ++ String.singleton paren ++ " at end of input"
  | .expectedParen paren (some found) =>
    "Expected " ++ String.singleton paren ++ ", got " ++ found
  | .missingName expression => "missing function name at end of " ++ expression
  | .expectedName found => "expected function name but got " ++ found
  | .malformedReference word => "malformed reference " ++ word
  | .unknownEscape sequence literal =>
    "invalid escape sequence \\" ++ sequence ++ " in " ++ literal
  | .danglingBackslash literal => "invalid string literal " ++ literal
  | .trailingContent consumed remainder =>
    "Trailing content in expression: " ++ consumed ++ "^" ++ remainder
  | .nameNotLiteral expression => "expected name as quoted string, not " ++ expression
  | .redefinition name => "Redefinition of " ++ Text.quoted name
  | .misplacedDefine =>
    "\x7b\x7bdefine\x7d\x7d is only allowed at the top level, before other content"
  | .contentAfterKeyword directive => "unexpected content in " ++ directive
  | .missingEnd => "Expected \x7b\x7bend\x7d\x7d at end of input"
  | .expectedEnd found => "Expected \x7b\x7bend\x7d\x7d, got " ++ found
  | .unparsedContent rest => "unparsed content " ++ rest

/-- **Why a source cannot be read**, and where. The first kind is found while the source is cut, the
second while what was cut is read. -/
inductive SourceError
  /-- a directive begins here and never closes -/
  | unterminatedDirective (loc : Location)
  /-- the directives are not those of a template -/
  | malformed (loc : Location) (fault : Fault)
  deriving DecidableEq, Repr

namespace SourceError

/-- Where a source went wrong. -/
def loc : SourceError → Location
  | .unterminatedDirective loc => loc
  | .malformed loc _ => loc

/-- What is wrong there. -/
def explanation : SourceError → String
  | .unterminatedDirective _ => "unterminated directive: missing \x7d\x7d"
  | .malformed _ fault => fault.message

/-- The message: location, colon, and what is wrong there. -/
def message (e : SourceError) : String :=
  e.loc.text ++ ": " ++ e.explanation

end SourceError

end Stencil
