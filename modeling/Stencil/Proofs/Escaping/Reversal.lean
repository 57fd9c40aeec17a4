import Mathlib.Logic.Function.Iterate
import Stencil.Proofs.Escaping.Html
import Stencil.Run.Evaluate

/-!
# Escaping taken back

The answer of the escaper for HTML tells what it was asked: reading the entities in it from left to
right yields the output text of the value (`Text.Html.unescape_escape`). So values of different
texts have different answers, and the texts it may answer are those that are safe in HTML. What went
through the escaper several times, be it a value or the expression of an interpolation, comes back
by reading as many times (`html_escaper_is_reversible`).
-/

namespace Stencil

open Text.Html (escape unescape IsSafe isSpecial)

/-! ### Once

The escaper sees of a value its output text only, so all is said of texts. A text as HTML has it can
be read back, and this is what makes the escaper injective; safe texts are its image. -/

/-- Every value but null has a text. -/
theorem Value.exists_output? {value : Value} (h : value ≠ .null) :
    ∃ text, value.output? = some text := by
  cases value with
  | null => exact absurd rfl h
  | _ => exact ⟨_, rfl⟩

/-- **A text as HTML has it**, with its special characters replaced. -/
def htmlText (text : String) : String :=
  String.ofList (escape text.toList)

@[simp] theorem toList_htmlText (text : String) : (htmlText text).toList = escape text.toList :=
  String.toList_ofList

theorem unescape_htmlText (text : String) : unescape (htmlText text).toList = text.toList := by
  rw [toList_htmlText, Text.Html.unescape_escape]

theorem htmlText_injective : Function.Injective htmlText := by
  intro text other h
  apply String.toList_injective
  rw [← unescape_htmlText text, h, unescape_htmlText]

/-- Texts are written one after the other. -/
theorem htmlText_append (text other : String) :
    htmlText (text ++ other) = htmlText text ++ htmlText other := by
  apply String.toList_injective
  simp

/-- Only texts without special characters stay what they are. -/
theorem htmlText_eq_self_iff {text : String} :
    htmlText text = text ↔ ∀ c ∈ text.toList, isSpecial c = false := by
  rw [← Text.Html.escape_eq_self_iff, ← toList_htmlText, String.toList_inj]

/-- What the escaper answers to a value, by the text of the value. -/
def htmlAnswer : Option String → Value
  | none => .null
  | some text => .string (htmlText text)

/-- **The escaper answers every value**, and knows of it the text only: values of one text have one
answer. -/
theorem htmlEscaper_eq (value : Value) :
    htmlEscaper [value] = .ok (htmlAnswer value.output?) := by
  rw [htmlEscaper]
  cases value.output? <;> rfl

theorem output?_htmlAnswer (text? : Option String) :
    (htmlAnswer text?).output? = text?.map htmlText := by
  cases text? <;> rfl

theorem htmlAnswer_injective : Function.Injective htmlAnswer := by
  intro text? other? h
  have houtput := congrArg Value.output? h
  rw [output?_htmlAnswer, output?_htmlAnswer] at houtput
  exact Option.map_injective htmlText_injective houtput

/-- **Values of different texts have different answers**, so nothing is lost but the kind of the
value. -/
theorem htmlEscaper_eq_iff (value other : Value) :
    htmlEscaper [value] = htmlEscaper [other] ↔ value.output? = other.output? := by
  rw [htmlEscaper_eq, htmlEscaper_eq, Except.ok.injEq, htmlAnswer_injective.eq_iff]

/-- **The texts the escaper may answer are the safe ones**: all of them are answers, each to the
text that it is read as. -/
theorem exists_htmlEscaper_eq_iff (written : String) :
    (∃ value, htmlEscaper [value] = .ok (.string written)) ↔ IsSafe written.toList := by
  constructor
  · rintro ⟨value, h⟩
    exact isSafe_of_htmlEscaper h rfl
  · intro hsafe
    -- a safe text is what escaping makes of what is read from it
    refine ⟨.string (String.ofList (unescape written.toList)), ?_⟩
    rw [htmlEscaper_eq]
    have hwritten : htmlText (String.ofList (unescape written.toList)) = written := by
      apply String.toList_injective
      rw [toList_htmlText, String.toList_ofList, hsafe.escape_unescape]
    exact congrArg (fun text => Except.ok (Value.string text)) hwritten

/-! ### Several times

Escaping a value again escapes the text that came out of it, and escaping an interpolation again
puts one more call around its expression. Both are iterations of one function, and
`Function.Semiconj` carries an equation about one step over to any number of them. -/

/-- **A value that goes through the escaper** a number of times, each time the answer of the time
before. -/
def escapedTimes : Nat → Value → Except String Value
  | 0, value => .ok value
  | k + 1, value => (escapedTimes k value).bind fun answer => htmlEscaper [answer]

/-- The escaper never fails on the way, and writes the text as often. -/
theorem exists_escapedTimes_eq (k : Nat) (value : Value) :
    ∃ answer, escapedTimes k value = .ok answer ∧
      answer.output? = value.output?.map htmlText^[k] := by
  induction k with
  | zero => exact ⟨value, rfl, by simp⟩
  | succ k ih =>
    obtain ⟨answer, hanswer, houtput⟩ := ih
    refine ⟨htmlAnswer answer.output?, ?_, ?_⟩
    · rw [escapedTimes, hanswer]
      exact htmlEscaper_eq answer
    · rw [output?_htmlAnswer, houtput, Option.map_map, Function.iterate_succ']

/-- **Reading as often takes it back**: the text can be had from what was written if it is known how
often it went through. -/
theorem unescape_iterate_htmlText (k : Nat) (text : String) :
    unescape^[k] (htmlText^[k] text).toList = text.toList := by
  have hlist : Function.Semiconj String.toList htmlText escape := toList_htmlText
  rw [hlist.iterate_right k]
  exact Function.LeftInverse.iterate Text.Html.unescape_escape k text.toList

/-- An expression whose value goes through the escaper a number of times. -/
def escapedExpr (loc : Location) (k : Nat) (expr : Node) : Node :=
  (fun inner => .call loc htmlEscaperName [inner])^[k] expr

/-- Escaping an interpolation several times escapes its expression as often. -/
theorem escapeThrough_iterate_interpolation (loc : Location) (k : Nat) (expr : Node) :
    (Node.escapeThrough htmlEscaperName)^[k] (.interpolation loc expr)
      = .interpolation loc (escapedExpr loc k expr) := by
  have hone : Function.Semiconj (Node.interpolation loc)
      (fun inner => .call loc htmlEscaperName [inner]) (Node.escapeThrough htmlEscaperName) :=
    fun inner => (Node.escapeThrough_interpolation htmlEscaperName loc inner).symm
  exact (hone.iterate_right k expr).symm

/-- **The value of an expression goes through the escaper as often** as the expression does, from
the inside out. -/
theorem evaluate_escapedExpr {env : Env} {loc : Location} {expr : Node} {value : Value}
    (hbound : env.set.functions.find? htmlEscaperName = some htmlEscaper)
    (hvalue : evaluate env expr = .ok value) (k : Nat) {answer : Value}
    (hanswer : escapedTimes k value = .ok answer) :
    evaluate env (escapedExpr loc k expr) = .ok answer := by
  induction k generalizing answer with
  | zero =>
    cases hanswer
    exact hvalue
  | succ k ih =>
    -- all calls but the outermost, on the same value
    obtain ⟨before, hbefore, -⟩ := exists_escapedTimes_eq k value
    rw [escapedTimes, hbefore] at hanswer
    have hinner : evaluateAll env [escapedExpr loc k expr] = .ok [before] := by
      rw [evaluateAll_cons, ih hbefore]
      rfl
    rw [escapedExpr, Function.iterate_succ_apply']
    exact evaluate_call_eq_ok.2 ⟨htmlEscaper, [before], hbound, hinner, hanswer⟩

/-! ### There and back -/

/-- **The escaper for HTML is safe and reversible.** It answers every value but null with a text
that is safe in HTML and read back as the text of the value, and that is this text itself if and
only if no character in it is special. Values of different texts have different answers; safe texts
are answers, and no others; texts one after the other are written one after the other. A value goes
through the escaper any number of times, as does the expression of an interpolation that is escaped
as often, and then reading its text as often takes it back. -/
theorem html_escaper_is_reversible :
    (∀ value ≠ Value.null, ∃ text written : String,
      value.output? = some text ∧ htmlEscaper [value] = .ok (.string written) ∧
        IsSafe written.toList ∧ unescape written.toList = text.toList ∧
        (written = text ↔ ∀ c ∈ text.toList, isSpecial c = false)) ∧
    (∀ value other,
      htmlEscaper [value] = htmlEscaper [other] ↔ value.output? = other.output?) ∧
    (∀ written : String,
      (∃ value, htmlEscaper [value] = .ok (.string written)) ↔ IsSafe written.toList) ∧
    (∀ text other : String, ∃ written written',
      htmlEscaper [.string text] = .ok (.string written) ∧
        htmlEscaper [.string other] = .ok (.string written') ∧
        htmlEscaper [.string (text ++ other)] = .ok (.string (written ++ written'))) ∧
    ∀ k value, ∃ answer, escapedTimes k value = .ok answer ∧
      (∀ text, value.output? = some text → ∃ written, answer.output? = some written ∧
        unescape^[k] written.toList = text.toList) ∧
      ∀ (env : Env) loc expr, env.set.functions.find? htmlEscaperName = some htmlEscaper →
        evaluate env expr = .ok value →
          ∃ inner, evaluate env inner = .ok answer ∧
            (Node.escapeThrough htmlEscaperName)^[k] (.interpolation loc expr)
              = .interpolation loc inner := by
  refine ⟨?_, htmlEscaper_eq_iff, exists_htmlEscaper_eq_iff, ?_, ?_⟩
  · intro value hvalue
    obtain ⟨text, htext⟩ := Value.exists_output? hvalue
    have hanswer : htmlEscaper [value] = .ok (.string (htmlText text)) := by
      rw [htmlEscaper_eq, htext]
      rfl
    exact ⟨text, htmlText text, htext, hanswer, isSafe_of_htmlEscaper hanswer rfl,
      unescape_htmlText text, htmlText_eq_self_iff⟩
  · intro text other
    refine ⟨htmlText text, htmlText other, htmlEscaper_eq _, htmlEscaper_eq _, ?_⟩
    rw [← htmlText_append]
    exact htmlEscaper_eq _
  · intro k value
    obtain ⟨answer, hanswer, houtput⟩ := exists_escapedTimes_eq k value
    refine ⟨answer, hanswer, fun text htext => ?_, fun env loc expr hbound hvalue => ?_⟩
    · refine ⟨htmlText^[k] text, ?_, unescape_iterate_htmlText k text⟩
      rw [houtput, htext, Option.map_some]
    · exact ⟨escapedExpr loc k expr, evaluate_escapedExpr hbound hvalue k hanswer,
        escapeThrough_iterate_interpolation loc k expr⟩

/-- A tag that is interpolated through the escaper twice comes back by reading twice. -/
theorem tag_escaped_twice_is_read_back :
    let env := (TemplateSet.register ∅ htmlEscaperName htmlEscaper).env (.string "<b>")
    let expr := Node.reference ⟨"t", 1⟩ []
    Value.string "<b>" ≠ .null ∧
      env.set.functions.find? htmlEscaperName = some htmlEscaper ∧
      evaluate env expr = .ok (.string "<b>") ∧
      htmlEscaper [.string "<b>"] = .ok (.string "&lt;b&gt;") ∧
      IsSafe "&lt;b&gt;".toList ∧
      ∃ inner, (Node.escapeThrough htmlEscaperName)^[2] (.interpolation ⟨"t", 1⟩ expr)
          = .interpolation ⟨"t", 1⟩ inner ∧
        evaluate env inner = .ok (.string "&amp;lt;b&amp;gt;") ∧
        unescape^[2] "&amp;lt;b&amp;gt;".toList = "<b>".toList := by
  intro env expr
  obtain ⟨honce, -, -, -, hoften⟩ := html_escaper_is_reversible
  have hne : Value.string "<b>" ≠ .null := nofun
  obtain ⟨text, written, -, hwritten, hsafe, -⟩ := honce (.string "<b>") hne
  have hfirst : htmlEscaper [.string "<b>"] = .ok (.string "&lt;b&gt;") := rfl
  rw [hfirst] at hwritten
  cases hwritten
  obtain ⟨answer, hanswer, hread, hinner⟩ := hoften 2 (.string "<b>")
  have hsecond : escapedTimes 2 (.string "<b>") = .ok (.string "&amp;lt;b&amp;gt;") := rfl
  rw [hsecond] at hanswer
  cases hanswer
  obtain ⟨written, hwritten, hback⟩ := hread "<b>" rfl
  cases hwritten
  have hbound : env.set.functions.find? htmlEscaperName = some htmlEscaper := rfl
  have hvalue : evaluate env expr = .ok (.string "<b>") := rfl
  obtain ⟨inner, hevaluates, htree⟩ := hinner env ⟨"t", 1⟩ expr hbound hvalue
  exact ⟨hne, hbound, hvalue, hfirst, hsafe, inner, htree, hevaluates, hback⟩

end Stencil
