import ReleaseFlow.Flow
import ReleaseFlow.Repository
import ReleaseFlow.Text.Infix

/-!
# The job runner

What a job tells its runner: outputs for later steps, blocks of its summary, and failures. Without
a file to write to, outputs and summary go to the log.

* `Runner`: the files of the runner;
* `outputEntry`: the lines of one output;
* `Runner.setOutput`, `Runner.appendSummary`: write to the files;
* `errorCommand`, `reportFailure`: a failure as one line;
* `Environment`: the variables of the job.
-/

namespace ReleaseFlow

/-- The files in which the runner collects outputs and the summary, where it has them. -/
structure Runner where
  outputFile : Option String := none
  summaryFile : Option String := none
  deriving DecidableEq, Repr

def delimiter : String := "RELEASE_TAGGER_EOF"

/-- The lines of one output. A value of several lines stands between two delimiters and must not
hold one. -/
def outputEntry (name value : String) : Except Failure String :=
  if value.toList.contains '\n' then
    if Text.hasInfix delimiter.toList value.toList then
      .error (.environment ("Output '" ++ name ++ "' contains the reserved delimiter"))
    else .ok (name ++ "<<" ++ delimiter ++ "\n" ++ value ++ "\n" ++ delimiter ++ "\n")
  else .ok (name ++ "=" ++ value ++ "\n")

/-- The text that stands for a character of a message: percent signs and line ends are written by
number. -/
def escapedChar (c : Char) : List Char :=
  if c = '%' then ['%', '2', '5']
  else if c = '\r' then ['%', '0', 'D']
  else if c = '\n' then ['%', '0', 'A']
  else [c]

/-- A failure as a line for the runner. -/
def errorCommand (message : String) : String :=
  "::error::" ++ String.ofList (message.toList.flatMap escapedChar)

namespace Runner

variable {S : Service}

def setOutput (r : Runner) (name value : String) : Flow S Unit :=
  match r.outputFile with
  | none => Flow.log .info ("output " ++ name ++ "=" ++ value)
  | some path => do
    let entry ← Flow.ofExcept (outputEntry name value)
    Flow.appendFile path entry

/-- Appends a block to the summary. -/
def appendSummary (r : Runner) (markdown : String) : Flow S Unit :=
  match r.summaryFile with
  | none => Flow.log .info ("summary:\n" ++ markdown)
  | some path => Flow.appendFile path markdown

end Runner

/-- Reports a failure to the log and to the runner. -/
def reportFailure {S : Service} (message : String) : Flow S Unit := do
  Flow.log .error message
  Flow.print (errorCommand message ++ "\n")

/-! ## The environment -/

/-- The variables of the job. -/
structure Environment where
  values : List (String × Content) := []

namespace Environment

/-- The text of a variable, if it is more than blanks. -/
def get? (e : Environment) (name : String) : Option String :=
  match e.values.lookup name with
  | some (.text value) => if Text.allBlank value then none else some value
  | _ => none

/-- The text of a variable that must be set. -/
def require (e : Environment) (name : String) : Except Failure String :=
  match e.get? name with
  | some value => .ok value
  | none => .error (.environment (name ++ " is not set"))

def repository (e : Environment) : Except Failure Repository :=
  (e.require "GITHUB_REPOSITORY").bind Repository.parse

def runner (e : Environment) : Runner :=
  ⟨e.get? "GITHUB_OUTPUT", e.get? "GITHUB_STEP_SUMMARY"⟩

end Environment

end ReleaseFlow
