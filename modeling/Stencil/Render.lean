import Stencil.Document.Reader
import Stencil.Run.Execute
import Stencil.Segment.Splitter

/-!
# From source to output

Reading the templates of a source, and the short way from the source of one template to its output.
-/

namespace Stencil

/-- **Reads the templates of a source.** What follows its definitions is the body of the template
that is named from outside; without a name nothing may follow. The set has no functions. -/
def TemplateSet.ofSource (src code : String) (name? : Option String) :
    Except SourceError TemplateSet :=
  let chars := Text.normalize code.toList
  match Segmentation.ofSource src chars with
  | .error e => .error e
  | .ok cut =>
    match (DocumentReader.ofSegments src cut.segments cut.endLine).read name? with
    | (.error e, _) => .error e
    | (.ok templates, _) => .ok ⟨.empty, templates⟩

/-- **Why a source has no output.** Both parts keep their own error, so its location and its message
stay what they were. -/
inductive RenderError
  /-- it cannot be read -/
  | source (error : SourceError)
  /-- its run stops -/
  | halt (reason : Halt)
  deriving DecidableEq, Repr

/-- **The output of one template**, from its source and its data. The template's name is the name of
the source also, so it is what locations show. -/
def renderSource (depth : Nat) (name code : String) (data : Value) : Except RenderError String :=
  match TemplateSet.ofSource name code (some name) with
  | .error e => .error (.source e)
  | .ok set => ((set.env data).render depth name).mapError .halt

end Stencil
