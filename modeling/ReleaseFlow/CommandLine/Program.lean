import ReleaseFlow.CommandLine.Arguments
import ReleaseFlow.CommandLine.Surroundings
import ReleaseFlow.Config.Location
import ReleaseFlow.Forge.Rest
import ReleaseFlow.Version.Grammar
import ReleaseFlow.Workflow.Notes
import ReleaseFlow.Workflow.Regression
import ReleaseFlow.Workflow.Tagging

/-!
# The program

* `execute`: what a line asks for, as a flow;
* `program`: the whole program as a flow that gives its exit code.
-/

namespace ReleaseFlow.CommandLine

/-- A flow whose failure is a text for the user. -/
abbrev Told := ExceptT String (Flow Http.service)

/-- The flow, with a failure as a text for the user that begins with the context. -/
def told {α : Type} (context : Option String) (flow : Flow Http.service α) : Told α :=
  ExceptT.mk do
    match ← flow.attempt with
    | .ok a => return .ok a
    | .error failure =>
      return .error ((context.map (· ++ ": ")).getD "" ++ failure.chain)

/-- The service and the context of a workflow, from the environment. -/
def connection (around : Surroundings) (config : Config) (dryRun : Bool) :
    Except Failure (Rest.Endpoint × Context) := do
  let environment := around.environment
  let token ← environment.require "GITHUB_TOKEN"
  let address := (environment.get? "GITHUB_API_URL").getD Rest.publicAddress
  let repository ← environment.repository
  return (Rest.Endpoint.of token address,
    { repository, config, runner := environment.runner, dryRun, palette := around.palette })

/-- A workflow with the service of the environment. -/
def online {α : Type} (around : Surroundings) (config : Config) (dryRun : Bool)
    (context : String) (workflow : Context → Flow Forge.service α) : Told α := do
  let (endpoint, ctx) ← told none (Flow.ofExcept (connection around config dryRun))
  told (some context) (Rest.connect endpoint (workflow ctx))

def say (text : String) : Told Unit :=
  ExceptT.lift (Flow.print text)

/-- What a line asks for. -/
def execute (around : Surroundings) (i : Invocation) : Told Unit := do
  let config ← told (some "Error loading config") (Config.load around.settingsDirectory i.config)
  match i.command with
  | .bump version labels =>
    let current ← told none (Flow.ofExcept (Version.parse version))
    let decision ← told none (Flow.ofExcept (config.labels.decide current labels))
    say (Console.decisionLines around.palette decision)
    say (decision.next.text ++ "\n")
  | .tag sha =>
    let result ← online around config i.dryRun "Failed to create release tag"
      fun ctx => Workflow.createTag ctx sha
    say ("\n" ++ Console.successLine around.palette ("Published tag " ++ result.tag ++
      " (previous version " ++ result.previous.text ++ ")") ++ "\n")
  | .notes previous =>
    let result ← online around config i.dryRun "Failed to create release notes"
      fun ctx => do Workflow.createNotes ctx previous (← Flow.today)
    if let some url := result.url then
      say (url ++ "\n")
  | .mergeData sha =>
    let data ← online around config i.dryRun "Error processing PR data"
      fun ctx => Workflow.mergeData ctx sha
    say ("pr: #" ++ Text.decimal data.number.toNat ++ " " ++ data.url ++ "\n")
    say ("label: " ++ data.label.getD "none" ++ "\n")
    say ("bump: " ++ data.bump.text ++ "\n")
    say ("current: " ++ data.current.text ++ "\n")
    say ("next: " ++ data.next.text ++ "\n")
    say ("release branch sha: " ++ data.head ++ "\n")
  | .regression name =>
    let _ ← online around config i.dryRun "Regression run failed"
      fun ctx => Workflow.regression ctx name

def versionLine : String := "release-tagger 0.1.0\n"

/-- The lines that tell how the program is used. -/
def helpLines : String :=
  "release-tagger [--config FILE] [--dry-run] [--verbose] COMMAND\n\n" ++
    "  tag [--sha SHA]\n" ++
    "  notes [--previous-version VERSION]\n" ++
    "  pr-data [--sha SHA]\n" ++
    "  regression [--environment NAME]\n" ++
    "  bump VERSION [LABEL]...\n"

/-- The whole program, with its exit code: 0 for success, 1 for a failure and 2 for arguments that
are rejected. -/
def program (around : Surroundings) (args : List String) : Flow Http.service UInt32 := do
  match read around.environment args with
  | .rejected => return 2
  | .version =>
    Flow.print versionLine
    return 0
  | .help =>
    Flow.print helpLines
    return 0
  | .run i =>
    match ← (execute around i).run with
    | .ok () => return 0
    | .error message =>
      reportFailure message
      return 1

end ReleaseFlow.CommandLine
