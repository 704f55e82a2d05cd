import ReleaseFlow.Config
import ReleaseFlow.Console
import ReleaseFlow.Runner
import ReleaseFlow.TagPattern

/-!
# What every workflow is given

* `Context`: the repository, the settings, the runner, and whether anything may be changed;
* `Context.tagPattern`: the pattern of the settings;
* `Context.success`, `Context.status`, `Context.warning`: the lines that tell how it goes.
-/

namespace ReleaseFlow

/-- What every workflow is given. -/
structure Context where
  repository : Repository
  config : Config := {}
  runner : Runner := {}
  /-- Reads everything and changes nothing. -/
  dryRun : Bool := false
  /-- Whether the lines for the user are colored. -/
  palette : Console.Palette := .plain
  /-- The number of tries in a wait that nothing else bounds. -/
  patience : Nat := 1000000
  /-- Whether the arithmetic of waits is checked. -/
  checked : Bool := false
  deriving DecidableEq, Repr

namespace Context

def tagPattern (ctx : Context) : Except Failure TagPattern :=
  TagPattern.ofText ctx.config.release.tagPattern

variable {S : Service}

def success (ctx : Context) (message : String) : Flow S Unit :=
  Flow.print (Console.successLine ctx.palette message)

def status (ctx : Context) (message : String) : Flow S Unit :=
  Flow.print (Console.statusLine ctx.palette message)

def warning (ctx : Context) (w : Warning) : Flow S Unit :=
  Flow.warn (Console.warningLine ctx.palette w)

end Context

end ReleaseFlow
