import Mathlib.Data.List.Basic
import ReleaseFlow.Forge.Memory
import ReleaseFlow.Proofs.Files.Collected
import ReleaseFlow.Proofs.Runner.Reports
import ReleaseFlow.Proofs.Text.Pieces

/-!
# Reading outputs back

The file of the outputs is a text of lines. A line with an equals sign is an output; any other line
opens a value of several lines, which goes on up to the delimiter.

* `Unwritable`: the values that cannot be written;
* `Outputs.read?`, `Outputs.ofText?`: the outputs that lines stand for, and those of a whole text;
* `read?_entry`: **the lines of an output stand for it, whatever follows**;
* `Runner.setOutputs`: outputs one after another, failures as values;
* `outputs_read_back`: **the file tells all outputs that were accepted, in order**.
-/

namespace ReleaseFlow

/-! ## Values and entries -/

/-- The value has several lines and holds the delimiter. -/
def Unwritable (value : String) : Prop :=
  '\n' ∈ value.toList ∧ delimiter.toList <:+: value.toList

instance : DecidablePred Unwritable := fun value =>
  decidable_of_iff ('\n' ∈ value.toList ∧ Text.hasInfix delimiter.toList value.toList = true)
    (and_congr_right' Text.hasInfix_iff)

/-- The failure of an output whose value cannot be written. -/
def delimiterFailure (name : String) : Failure :=
  .environment ("Output '" ++ name ++ "' contains the reserved delimiter")

/-- What stands after the name of a value of several lines. -/
def opening : List Char := "<<".toList ++ delimiter.toList

/-- The characters that an output adds to the file. -/
def entryChars (name value : String) : List Char :=
  if '\n' ∈ value.toList then
    name.toList ++ opening ++ '\n' :: (value.toList ++ '\n' :: (delimiter.toList ++ ['\n']))
  else name.toList ++ '=' :: (value.toList ++ ['\n'])

variable {name value : String}

theorem outputEntry_of_unwritable (h : Unwritable value) :
    outputEntry name value = .error (delimiterFailure name) := by
  obtain ⟨hline, hinfix⟩ := h
  rw [outputEntry, if_pos (List.contains_iff_mem.2 hline), if_pos (Text.hasInfix_iff.2 hinfix)]
  rfl

theorem outputEntry_of_writable (h : ¬ Unwritable value) :
    outputEntry name value = .ok (String.ofList (entryChars name value)) := by
  rw [outputEntry, entryChars]
  by_cases hline : '\n' ∈ value.toList
  · have hinfix : ¬ Text.hasInfix delimiter.toList value.toList = true :=
      fun hi => h ⟨hline, Text.hasInfix_iff.1 hi⟩
    rw [if_pos (List.contains_iff_mem.2 hline), if_neg hinfix, if_pos hline]
    refine congrArg Except.ok (String.toList_inj.1 ?_)
    simp [opening]
  · rw [if_neg (mt List.contains_iff_mem.1 hline), if_neg hline]
    refine congrArg Except.ok (String.toList_inj.1 ?_)
    simp

/-! ## Reading -/

namespace Outputs

/-- The name in front of the opening of a value of several lines. -/
def openedName? (line : List Char) : Option (List Char) :=
  if opening <:+ line then some (line.take (line.length - opening.length)) else none

/-- The outputs that lines stand for, the last of which is the empty one after the last line end.
The first argument is the name and the lines already read of a value of several lines. -/
def read? : Option (List Char × List (List Char)) → List (List Char) →
    Option (List (String × String))
  | _, [] => none
  | none, [[]] => some []
  | none, line :: rest =>
    if '=' ∈ line then
      (read? none rest).map ((String.ofList (line.takeWhile (· ≠ '=')),
        String.ofList (line.dropWhile (· ≠ '=')).tail) :: ·)
    else (openedName? line).bind fun name => read? (some (name, [])) rest
  | some (name, value), line :: rest =>
    if line = delimiter.toList then
      (read? none rest).map
        ((String.ofList name, String.ofList (List.intercalate ['\n'] value)) :: ·)
    else read? (some (name, value ++ [line])) rest

/-- The outputs of a text. -/
def ofText? (text : String) : Option (List (String × String)) :=
  read? none (List.splitOn '\n' text.toList)

theorem read?_none {line : List Char} {rest : List (List Char)} (h : rest ≠ []) :
    read? none (line :: rest) =
      if '=' ∈ line then
        (read? none rest).map ((String.ofList (line.takeWhile (· ≠ '=')),
          String.ofList (line.dropWhile (· ≠ '=')).tail) :: ·)
      else (openedName? line).bind fun name => read? (some (name, [])) rest := by
  rw [read?]
  exact fun _ hrest => absurd hrest h

theorem openedName?_append (name : List Char) : openedName? (name ++ opening) = some name := by
  rw [openedName?, if_pos (List.suffix_append name opening), List.length_append,
    Nat.add_sub_cancel, List.take_left]

/-- A value goes on up to the first line that is the delimiter. -/
theorem read?_some (name : List Char) {lines : List (List Char)}
    (h : delimiter.toList ∉ lines) (value rest : List (List Char)) :
    read? (some (name, value)) (lines ++ delimiter.toList :: rest) =
      (read? none rest).map
        ((String.ofList name, String.ofList (List.intercalate ['\n'] (value ++ lines))) :: ·) := by
  induction lines generalizing value with
  | nil => rw [List.nil_append, read?, if_pos rfl, List.append_nil]
  | cons line lines ih =>
    have hline : line ≠ delimiter.toList := fun he => h (he ▸ List.mem_cons_self)
    have hlines : delimiter.toList ∉ lines := fun hm => h (List.mem_cons_of_mem _ hm)
    rw [List.cons_append, read?, if_neg hline, ih hlines, List.append_assoc, List.singleton_append]

/-- **The lines of an output stand for it, whatever follows.** -/
theorem read?_entry (hname : '=' ∉ name.toList ∧ '\n' ∉ name.toList) (hvalue : ¬ Unwritable value)
    (rest : List Char) :
    read? none (List.splitOn '\n' (entryChars name value ++ rest)) =
      (read? none (List.splitOn '\n' rest)).map ((name, value) :: ·) := by
  obtain ⟨hequals, hend⟩ := hname
  have hne := List.splitOn_ne_nil '\n' rest
  rw [entryChars]
  by_cases hline : '\n' ∈ value.toList
  -- a line of the value that were the delimiter would make the value unwritable
  · have hopen : '\n' ∉ name.toList ++ opening := by
      rw [List.mem_append]
      exact not_or.2 ⟨hend, by decide⟩
    have hplain : '=' ∉ name.toList ++ opening := by
      rw [List.mem_append]
      exact not_or.2 ⟨hequals, by decide⟩
    have hdelimiter : delimiter.toList ∉ List.splitOn '\n' value.toList :=
      fun hm => hvalue ⟨hline, Text.infix_of_mem_splitOn hm⟩
    have hlines : List.splitOn '\n' (name.toList ++ opening ++
        '\n' :: (value.toList ++ '\n' :: (delimiter.toList ++ ['\n'])) ++ rest) =
          (name.toList ++ opening) :: (List.splitOn '\n' value.toList ++
            delimiter.toList :: List.splitOn '\n' rest) := by
      rw [List.append_assoc, List.cons_append, List.splitOn_append_cons_self_of_not_mem hopen,
        List.append_assoc, List.cons_append, List.splitOn_append_cons_self, List.append_assoc,
        List.singleton_append, List.splitOn_append_cons_self_of_not_mem (by decide)]
    rw [if_pos hline, hlines, read?_none (by simp), if_neg hplain, openedName?_append,
      Option.bind_some, read?_some _ hdelimiter, List.nil_append, List.intercalate_splitOn,
      String.ofList_toList, String.ofList_toList]
  · have hplain : '\n' ∉ name.toList ++ '=' :: value.toList := by
      simp [hend, hline]
    have hlines : List.splitOn '\n' (name.toList ++ '=' :: (value.toList ++ ['\n']) ++ rest) =
        (name.toList ++ '=' :: value.toList) :: List.splitOn '\n' rest := by
      rw [← List.splitOn_append_cons_self_of_not_mem hplain]
      simp
    have hbefore : ∀ c ∈ name.toList, decide (c ≠ '=') = true :=
      fun c hc => decide_eq_true fun he => hequals (he ▸ hc)
    rw [if_neg hline, hlines, read?_none hne, if_pos (by simp),
      List.takeWhile_append_of_pos hbefore, List.dropWhile_append_of_pos hbefore]
    simp

theorem ofText?_flatMap {outputs : List (String × String)}
    (hnames : ∀ c ∈ outputs, '=' ∉ c.1.toList ∧ '\n' ∉ c.1.toList)
    (hvalues : ∀ c ∈ outputs, ¬ Unwritable c.2) :
    ofText? (String.ofList (outputs.flatMap fun c => entryChars c.1 c.2)) = some outputs := by
  rw [ofText?, String.toList_ofList]
  induction outputs with
  | nil => rfl
  | cons c outputs ih =>
    rw [List.flatMap_cons, read?_entry (hnames c List.mem_cons_self) (hvalues c List.mem_cons_self),
      ih (fun d hd => hnames d (List.mem_cons_of_mem _ hd))
        (fun d hd => hvalues d (List.mem_cons_of_mem _ hd))]
    rfl

end Outputs

/-! ## Writing -/

namespace Runner

variable {S : Service} {σ : Type} (host : Host S σ) (s : σ) {w : World} {r : Runner}
  {path text : String}

theorem run_setOutput_of_unwritable (hr : r.outputFile = some path) (h : Unwritable value) :
    (r.setOutput name value).run host s w = (.failed (delimiterFailure name), s, w) := by
  rw [setOutput, hr]
  dsimp only
  rw [outputEntry_of_unwritable h, Flow.run_ofExcept_error_bind]

theorem run_setOutput_of_writable (hr : r.outputFile = some path) (hw : w.files.Holds path text)
    (h : ¬ Unwritable value) :
    ∃ files, (r.setOutput name value).run host s w = (.done (), s, { w with files }) ∧
      files.Holds path (text ++ String.ofList (entryChars name value)) := by
  obtain ⟨files, hfiles, hheld⟩ :=
    FileTree.append_of_holds hw (String.ofList (entryChars name value))
  refine ⟨files, ?_, hheld⟩
  rw [setOutput, hr]
  dsimp only
  rw [outputEntry_of_writable h, Flow.run_ofExcept_ok_bind]
  exact run_appendFile_of_ok host s w (by rw [appendTo, hfiles])

/-- Outputs one after another. A failure ends none of the later ones. -/
def setOutputs (r : Runner) : List (String × String) → Flow S (List (Except Failure Unit))
  | [] => pure []
  | (name, value) :: rest => do
    let result ← (r.setOutput name value).attempt
    let results ← setOutputs r rest
    return result :: results

/-- What becomes of an output. -/
def outputResult (c : String × String) : Except Failure Unit :=
  if Unwritable c.2 then .error (delimiterFailure c.1) else .ok ()

/-- The characters that outputs add to the file. -/
def acceptedChars (outputs : List (String × String)) : List Char :=
  (outputs.filter fun c => ¬ Unwritable c.2).flatMap fun c => entryChars c.1 c.2

theorem run_setOutputs (hr : r.outputFile = some path) (hw : w.files.Holds path text)
    (outputs : List (String × String)) :
    ∃ w', (r.setOutputs outputs).run host s w = (.done (outputs.map outputResult), s, w') ∧
      w'.files.Holds path (text ++ String.ofList (acceptedChars outputs)) := by
  induction outputs generalizing w text with
  | nil => exact ⟨w, rfl, by simpa [acceptedChars] using hw⟩
  | cons c rest ih =>
    obtain ⟨name, value⟩ := c
    rw [setOutputs]
    by_cases h : Unwritable value
    · have hrun : ((r.setOutput name value).attempt).run host s w =
          (.done (.error (delimiterFailure name)), s, w) :=
        Flow.run_attempt_of_failed (run_setOutput_of_unwritable host s hr h)
      obtain ⟨w', hrest, hheld⟩ := ih hw
      refine ⟨w', ?_, ?_⟩
      · rw [Flow.run_bind_of_done _ hrun, Flow.run_bind_of_done _ hrest, List.map_cons,
          outputResult, if_pos h]
        rfl
      · simpa [acceptedChars, h] using hheld
    · obtain ⟨files, hset, hfiles⟩ := run_setOutput_of_writable host s hr hw h
      have hrun : ((r.setOutput name value).attempt).run host s w =
          (.done (.ok ()), s, { w with files }) := Flow.run_attempt_of_done hset
      obtain ⟨w', hrest, hheld⟩ := ih (w := { w with files }) hfiles
      refine ⟨w', ?_, ?_⟩
      · rw [Flow.run_bind_of_done _ hrun, Flow.run_bind_of_done _ hrest, List.map_cons,
          outputResult, if_neg h]
        rfl
      · rw [String.append_assoc, ← String.ofList_append] at hheld
        simpa [acceptedChars, h] using hheld

/-- **The file tells all outputs that were accepted, in order.** An output is refused exactly when
its value has several lines and holds the delimiter; then nothing changes. Any other output is added
after what the file holds. -/
theorem outputs_read_back (hr : r.outputFile = some path) (hw : w.files.Holds path "")
    (outputs : List (String × String))
    (hnames : ∀ c ∈ outputs, '=' ∉ c.1.toList ∧ '\n' ∉ c.1.toList) :
    ∃ w' content, (r.setOutputs outputs).run host s w =
        (.done (outputs.map outputResult), s, w') ∧
      w'.files.Holds path content ∧
      Outputs.ofText? content = some (outputs.filter fun c => ¬ Unwritable c.2) ∧
      ∀ name value,
        (Unwritable value → (r.setOutput name value).run host s w' =
          (.failed (delimiterFailure name), s, w')) ∧
        (¬ Unwritable value → ∃ files more,
          (r.setOutput name value).run host s w' = (.done (), s, { w' with files }) ∧
          files.Holds path (content ++ more)) := by
  obtain ⟨w', hrun, hheld⟩ := run_setOutputs host s hr hw outputs
  rw [String.empty_append] at hheld
  refine ⟨w', _, hrun, hheld, ?_, fun name value => ⟨?_, ?_⟩⟩
  · refine Outputs.ofText?_flatMap (fun c hc => hnames c (List.mem_of_mem_filter hc)) ?_
    intro c hc
    simpa using List.of_mem_filter hc
  · exact run_setOutput_of_unwritable host s hr
  · intro h
    obtain ⟨files, hset, hfiles⟩ := run_setOutput_of_writable host s hr hheld h
    exact ⟨files, _, hset, hfiles⟩

/-- A value with lines that look like other outputs hides none, and one that holds the delimiter is
refused. -/
theorem outputs_read_back_lines :
    ∃ w' content,
      ((⟨some "output", none⟩ : Runner).setOutputs [("notes", "one\ntag=2.0.0\n"),
          ("late", "\nRELEASE_TAGGER_EOF"), ("tag", "<<RELEASE_TAGGER_EOF")]).run
        Memory.host {} {} = (.done [.ok (), .error (delimiterFailure "late"), .ok ()], {}, w') ∧
      w'.files.Holds "output" content ∧
      Outputs.ofText? content =
        some [("notes", "one\ntag=2.0.0\n"), ("tag", "<<RELEASE_TAGGER_EOF")] := by
  have hr : (⟨some "output", none⟩ : Runner).outputFile = some "output" := rfl
  have hw : ({} : FileTree).Holds "output" "" := ⟨["output"], by decide, Or.inr ⟨rfl, rfl⟩⟩
  obtain ⟨w', content, hrun, hheld, hread, -⟩ := outputs_read_back Memory.host {} hr (w := {}) hw
    [("notes", "one\ntag=2.0.0\n"), ("late", "\nRELEASE_TAGGER_EOF"),
      ("tag", "<<RELEASE_TAGGER_EOF")] (by decide)
  exact ⟨w', content, hrun.trans rfl, hheld, hread.trans (by decide)⟩

end Runner

end ReleaseFlow
