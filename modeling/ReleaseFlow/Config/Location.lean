import ReleaseFlow.Config
import ReleaseFlow.Flow

/-!
# Where the settings are

The settings are read from the first of three places: a file named by the user, a file in the
working directory, and a file in the user's directory of settings.

* `Config.fileName`: the name of the file;
* `Config.load`: the settings of the first place that is there.
-/

namespace ReleaseFlow.Config

def fileName : String := "release-tagger.toml"

/-- The settings of the file at a path. -/
def loadFile {S : Service} (path : String) : Flow S Config := do
  let text ← Flow.readFile path
  Flow.ofExcept (parse text)

/-- The settings of the first place that is there. A file named by the user must be there. -/
def load {S : Service} (userDirectory : Option String) (path : Option String) : Flow S Config := do
  match path with
  | some path => loadFile path
  | none =>
    if ← Flow.findFile fileName then loadFile fileName
    else
      match userDirectory with
      | none => return {}
      | some directory =>
        let path := directory ++ "/" ++ fileName
        if ← Flow.findFile path then loadFile path else return {}

end ReleaseFlow.Config
