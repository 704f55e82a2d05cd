import ReleaseFlow.Labels
import ReleaseFlow.Text.Template
import ReleaseFlow.Toml.Reader

/-!
# Configuration

The settings of a project, read from a TOML document. Every setting has a default, which holds
when the document does not mention it. A section that is missing has a default of its own.

* `Config`: the settings, in three sections;
* `Config.ofToml?`: the settings of a document, `none` when a value is of the wrong kind;
* `Config.parse`: the same from text.
-/

namespace ReleaseFlow

namespace ReleaseSettings

def defaultVariable : String := "RELEASE_VERSION"

def defaultBranch : String := "release"

def defaultTagPattern : String := "\x7bversion\x7d"

def defaultNotesConfig : String := ".github/release.yaml"

end ReleaseSettings

/-- Where the version is stored and how tags and releases are made. -/
structure ReleaseSettings where
  /-- The repository variable that holds the last released version. -/
  versionVariable : String := ReleaseSettings.defaultVariable
  /-- The branch whose head is tagged. -/
  branch : String := ReleaseSettings.defaultBranch
  tagPattern : String := ReleaseSettings.defaultTagPattern
  /-- The file that tells the hosting service how to write release notes. -/
  notesConfig : String := ReleaseSettings.defaultNotesConfig
  draft : Bool := true
  deriving DecidableEq, Repr

namespace RegressionSettings

def defaultWorkflow : String := "regression.yml"

def defaultRef : String := "master"

def defaultJobName : String := "Test in \x7benvironment\x7d"

def defaultInitialDelay : UInt64 := 5

def defaultDiscoveryInterval : UInt64 := 1

def defaultPollInterval : UInt64 := 30

def defaultTimeout : UInt64 := 3600

end RegressionSettings

/-- The regression workflow that is run after a deployment, times in seconds. -/
structure RegressionSettings where
  /-- The owner of the repository with the workflow, when it is not the current one. -/
  owner : Option String := none
  /-- The name of the repository with the workflow, when it is not the current one. -/
  repo : Option String := none
  workflow : String := RegressionSettings.defaultWorkflow
  ref : String := RegressionSettings.defaultRef
  /-- The name of the job that is reported, with a place for the environment. -/
  jobName : String := RegressionSettings.defaultJobName
  initialDelay : UInt64 := RegressionSettings.defaultInitialDelay
  discoveryInterval : UInt64 := RegressionSettings.defaultDiscoveryInterval
  pollInterval : UInt64 := RegressionSettings.defaultPollInterval
  timeout : UInt64 := RegressionSettings.defaultTimeout
  deriving DecidableEq, Repr

/-- The settings of a project. -/
structure Config where
  labels : LabelClasses := {}
  release : ReleaseSettings := {}
  regression : RegressionSettings := {}
  deriving DecidableEq, Repr

def RegressionSettings.jobNameFor (s : RegressionSettings) (environment : String) : String :=
  Template.replace "\x7benvironment\x7d" environment s.jobName

/-! ## From documents -/

namespace Toml

def text? : Toml → Option String
  | string s => some s
  | _ => none

def boolean? : Toml → Option Bool
  | boolean b => some b
  | _ => none

/-- The value of an integer that 64 bits without a sign hold. -/
def natural? : Toml → Option UInt64
  | integer n => if 0 ≤ n ∧ n < UInt64.size then some (UInt64.ofNat n.toNat) else none
  | _ => none

/-- The texts of an array of strings. -/
def texts? : Toml → Option (List String)
  | array vs => vs.mapM text?
  | _ => none

/-- The setting with this name and place, read by `read?`, or its default when it is absent. -/
def setting {α : Type} (read? : Toml → Option α) (default : α) (name : String) (place : Nat)
    (record : Toml) : Option α :=
  (record.field? name place).bind fun value? =>
    match value? with
    | some v => read? v
    | none => some default

end Toml

/-- The label classes of a document's section. -/
def LabelClasses.ofToml? (t : Toml) : Option LabelClasses := do
  return {
    major := ← t.setting Toml.texts? defaultMajor "major" 0
    patch := ← t.setting Toml.texts? defaultPatch "patch" 1 }

/-- The release settings of a document's section. -/
def ReleaseSettings.ofToml? (t : Toml) : Option ReleaseSettings := do
  return {
    versionVariable := ← t.setting Toml.text? defaultVariable "variable" 0
    branch := ← t.setting Toml.text? defaultBranch "branch" 1
    tagPattern := ← t.setting Toml.text? defaultTagPattern "tag_pattern" 2
    notesConfig := ← t.setting Toml.text? defaultNotesConfig "notes_config" 3
    draft := ← t.setting Toml.boolean? true "draft" 4 }

/-- The regression settings of a document's section. -/
def RegressionSettings.ofToml? (t : Toml) : Option RegressionSettings := do
  return {
    owner := ← t.setting (Option.map some ∘ Toml.text?) none "owner" 0
    repo := ← t.setting (Option.map some ∘ Toml.text?) none "repo" 1
    workflow := ← t.setting Toml.text? defaultWorkflow "workflow" 2
    ref := ← t.setting Toml.text? defaultRef "ref" 3
    jobName := ← t.setting Toml.text? defaultJobName "job_name" 4
    initialDelay := ← t.setting Toml.natural? defaultInitialDelay "initial_delay_secs" 5
    discoveryInterval := ←
      t.setting Toml.natural? defaultDiscoveryInterval "discovery_interval_secs" 6
    pollInterval := ← t.setting Toml.natural? defaultPollInterval "poll_interval_secs" 7
    timeout := ← t.setting Toml.natural? defaultTimeout "timeout_secs" 8 }

namespace Config

/-- The settings of a document, unless a value is of the wrong kind. -/
def ofToml? (t : Toml) : Option Config := do
  return {
    labels := ← t.setting LabelClasses.ofToml? {} "labels" 0
    release := ← t.setting ReleaseSettings.ofToml? {} "release" 1
    regression := ← t.setting RegressionSettings.ofToml? {} "regression" 2 }

/-- The settings of a text. -/
def parse (text : String) : Except Failure Config :=
  match Toml.read text with
  | none => .error (.config "the text is no TOML document")
  | some t =>
    match ofToml? t with
    | none => .error (.config "a setting has a value of the wrong kind")
    | some config => .ok config

end Config

end ReleaseFlow
