import Mathlib.Tactic.SplitIfs
import ReleaseFlow.Proofs.Flow.Run
import ReleaseFlow.Proofs.Text.Places
import ReleaseFlow.Runner

/-!
# Failures as lines

The runner reads a failure from one line of the standard output. So that a message cannot end its
line, percent signs and line ends are written by number, which the runner undoes.

* `escapedText`, `escapedText_eq_replace`: the text of a message behind the command, and the same by
  three replacements, one after another;
* `unescape`, `unescape_escapedText`: **the message is read back from its text**;
* `reportFailure_line`: **a failure is one line, and different messages are different lines**.
-/

namespace ReleaseFlow

/-- The message behind the command. -/
def escapedText (message : String) : String :=
  String.ofList (message.toList.flatMap escapedChar)

theorem toList_escapedText (message : String) :
    (escapedText message).toList = message.toList.flatMap escapedChar :=
  String.toList_ofList

/-- The message with each of the three characters replaced in the whole text before the next one.
The percent signs are replaced first, as the numbers of the others begin with one. -/
theorem escapedText_eq_replace (message : String) : escapedText message =
    Template.replace "\n" "%0A" (Template.replace "\r" "%0D"
      (Template.replace "%" "%25" message)) := by
  have hreplace : ∀ (mark : Char) (value text : String),
      (Template.replace (String.singleton mark) value text).toList =
        text.toList.flatMap fun c => if c = mark then value.toList else [c] := by
    intro mark value text
    rw [Template.replace, String.toList_ofList, String.toList_singleton,
      Template.fill_ofChars_singleton]
  have hpercent : "%" = String.singleton '%' := rfl
  have hreturn : "\r" = String.singleton '\r' := rfl
  have hnewline : "\n" = String.singleton '\n' := rfl
  refine String.toList_inj.1 ?_
  rw [toList_escapedText, hpercent, hreturn, hnewline, hreplace, hreplace, hreplace,
    List.flatMap_assoc, List.flatMap_assoc]
  refine List.flatMap_congr fun c _ => ?_
  -- no number holds a character that is replaced after it
  by_cases hc : c = '%'
  · subst hc
    decide
  by_cases hr : c = '\r'
  · subst hr
    decide
  by_cases hn : c = '\n'
  · subst hn
    decide
  · simp [escapedChar, hc, hr, hn]

theorem line_end_not_mem_escapedText (message : String) :
    '\r' ∉ (escapedText message).toList ∧ '\n' ∉ (escapedText message).toList := by
  have hchar : ∀ c, '\r' ∉ escapedChar c ∧ '\n' ∉ escapedChar c := by
    intro c
    unfold escapedChar
    split_ifs with hc hr hn
    · decide
    · decide
    · decide
    · exact ⟨fun h => hr (List.mem_singleton.1 h).symm, fun h => hn (List.mem_singleton.1 h).symm⟩
  rw [toList_escapedText]
  constructor
  · intro h
    obtain ⟨c, -, hc⟩ := List.mem_flatMap.1 h
    exact (hchar c).1 hc
  · intro h
    obtain ⟨c, -, hc⟩ := List.mem_flatMap.1 h
    exact (hchar c).2 hc

/-! ## Reading back -/

/-- The text with the three numbers replaced by their characters, in one pass from the left. -/
def unescape : List Char → List Char
  | '%' :: '2' :: '5' :: cs => '%' :: unescape cs
  | '%' :: '0' :: 'D' :: cs => '\r' :: unescape cs
  | '%' :: '0' :: 'A' :: cs => '\n' :: unescape cs
  | c :: cs => c :: unescape cs
  | [] => []

theorem unescape_cons {c : Char} (hc : c ≠ '%') (cs : List Char) :
    unescape (c :: cs) = c :: unescape cs := by
  rw [unescape]
  · rintro _ rfl
    exact absurd rfl hc
  · rintro _ rfl
    exact absurd rfl hc
  · rintro _ rfl
    exact absurd rfl hc

theorem unescape_escapedChar (c : Char) (cs : List Char) :
    unescape (escapedChar c ++ cs) = c :: unescape cs := by
  unfold escapedChar
  split_ifs with hc hr hn
  · rw [hc]
    rfl
  · rw [hr]
    rfl
  · rw [hn]
    rfl
  · exact unescape_cons hc cs

/-- **The message is read back from its text.** -/
theorem unescape_escapedText (message : String) :
    unescape (escapedText message).toList = message.toList := by
  rw [toList_escapedText]
  induction message.toList with
  | nil => rfl
  | cons c cs ih => rw [List.flatMap_cons, unescape_escapedChar, ih]

theorem escapedText_inj {message other : String} :
    escapedText other = escapedText message ↔ other = message := by
  refine ⟨fun h => String.toList_inj.1 ?_, congrArg escapedText⟩
  rw [← unescape_escapedText other, h, unescape_escapedText]

/-- **A failure is one line.** Behind the command stands the message with percent signs, carriage
returns and line feeds replaced in this order. What is left has no line end, and reading the numbers
back from the left gives the message, so that different messages are different lines. -/
theorem reportFailure_line {S : Service} {σ : Type} (host : Host S σ) (s : σ) (w : World)
    (message : String) :
    let text := Template.replace "\n" "%0A" (Template.replace "\r" "%0D"
      (Template.replace "%" "%25" message))
    (reportFailure message).run host s w = (.done (), s,
      (w.note (.log .error message)).note (.print ("::error::" ++ text ++ "\n"))) ∧
    ('\r' ∉ text.toList ∧ '\n' ∉ text.toList) ∧ unescape text.toList = message.toList ∧
    ∀ other, errorCommand other = errorCommand message ↔ other = message := by
  intro text
  have htext : text = escapedText message := (escapedText_eq_replace message).symm
  rw [htext]
  refine ⟨rfl, line_end_not_mem_escapedText message, unescape_escapedText message, fun other => ?_⟩
  have hcommand : ∀ m, errorCommand m = "::error::" ++ escapedText m := fun _ => rfl
  rw [hcommand, hcommand, String.append_right_inj, escapedText_inj]

end ReleaseFlow
