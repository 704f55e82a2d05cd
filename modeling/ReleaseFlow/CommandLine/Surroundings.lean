import ReleaseFlow.Console
import ReleaseFlow.Runner

/-!
# What the program finds when it starts

* `Surroundings`: the variables, and whether the output is shown on a terminal;
* `Surroundings.palette`: whether lines are colored;
* `Surroundings.settingsDirectory`: the user's directory of settings.
-/

namespace ReleaseFlow

/-- The text of a variable, blank or not. -/
def Environment.text? (e : Environment) (name : String) : Option String :=
  match e.values.lookup name with
  | some (.text value) => some value
  | _ => none

namespace CommandLine

/-- What the program finds when it starts. -/
structure Surroundings where
  environment : Environment
  /-- The standard output is a terminal that shows colors. -/
  terminal : Bool := false

namespace Surroundings

/-- Lines are colored on a terminal, unless `CLICOLOR` is `0`, and everywhere when `CLICOLOR_FORCE`
is set to anything else than `0`. -/
def palette (around : Surroundings) : Console.Palette :=
  let wanted := (around.environment.text? "CLICOLOR").getD "1" != "0"
  let forced := (around.environment.text? "CLICOLOR_FORCE").getD "0" != "0"
  if (around.terminal && wanted) || forced then .colored else .plain

/-- The user's directory of settings: `XDG_CONFIG_HOME` when it is an absolute path, or else
`.config` in the home directory. -/
def settingsDirectory (around : Surroundings) : Option String :=
  match (around.environment.text? "XDG_CONFIG_HOME").filter (·.toList.head? == some '/') with
  | some directory => some directory
  | none => ((around.environment.text? "HOME").filter (· != "")).map (· ++ "/.config")

end Surroundings

end CommandLine

end ReleaseFlow
