import Stencil.Node.Basic
import Stencil.Text.Literal

/-!
# Trees as source

The source form of a tree. A call of one argument is written as a pipeline, and a literal between
double quotes; apart from spacing and such choices between two spellings this is what a tree is
read from.
-/

namespace Stencil.Node

open Text (Literal.write)

/-- A directive around its interior. -/
def directive (interior : List Char) : List Char :=
  ['{', '{'] ++ interior ++ ['}', '}']

/-- A property chain: each property behind a dot, and a lone dot for the empty chain. -/
def pathSource (path : List String) : List Char :=
  '.' :: (List.intersperse ['.'] (path.map String.toList)).flatten

mutual

/-- **The source form of a tree.** It is made for any tree, also for one that no source has; such a
form then is read as something else, or not at all. -/
def source : Node → List Char
  | .text _ content => content.toList
  | .interpolation _ expr => directive expr.source
  | .reference _ path => pathSource path
  | .call _ name [arg] => arg.source ++ [' ', '|', ' '] ++ name.toList
  | .call _ name args =>
    name.toList ++ '(' :: ((List.intersperse [',', ' '] (sources args)).flatten ++ [')'])
  | .literal _ value => Literal.write value.toList
  | .inclusion _ name none => directive ("template ".toList ++ name.source)
  | .inclusion _ name (some data) =>
    directive ("template ".toList ++ name.source ++ ' ' :: data.source)
  | .block _ kind expr body none =>
    directive (kind.keyword.toList ++ ' ' :: expr.source) ++ body.source
      ++ directive "end".toList
  | .block _ kind expr body (some orElse) =>
    directive (kind.keyword.toList ++ ' ' :: expr.source) ++ body.source
      ++ directive "else".toList ++ orElse.source ++ directive "end".toList
  | .list _ items => (sources items).flatten

/-- The source forms of a row of trees. -/
def sources : List Node → List (List Char)
  | [] => []
  | node :: nodes => node.source :: sources nodes

end

/-- The source form of a tree, as a string. -/
def sourceText (node : Node) : String :=
  String.ofList node.source

instance : ToString Node := ⟨sourceText⟩

end Stencil.Node
