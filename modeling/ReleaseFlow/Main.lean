import ReleaseFlow.CommandLine.Program
import Std.Time.DateTime.Timestamp

/-!
# The command line

The program on a computer: its steps act on real files, streams and clocks. This build has no
transport for HTTP, so every exchange fails as one for which no connection could be made.

* `Perform.act`, `Perform.flow`: a step and a whole flow on the computer;
* `main`: the program.
-/

namespace ReleaseFlow.Perform

/-- The fault that an error of the system stands for. -/
def fault (e : IO.Error) : FileFault :=
  match e with
  | .noFileOrDirectory .. => .notFound
  | .inappropriateType _ code _ =>
    if code = 21 then .isDirectory
    else if code = 20 then .notADirectory
    else .other (toString e)
  | _ => .other (toString e)

def readFile (path : String) : IO (Except FileFault String) := do
  if path.toList.contains '\x00' then return .error .nullInName
  try
    let bytes ← IO.FS.readBinFile path
    match String.fromUTF8? bytes with
    | some text => return .ok text
    | none => return .error .notText
  catch e => return .error (fault e)

def findFile (path : String) : IO Bool := do
  if path.toList.contains '\x00' then return false
  try
    let _ ← IO.FS.Handle.mk path .read
    return true
  catch e => return fault e != .notFound && fault e != .notADirectory

def appendFile (path text : String) : IO (Except FileFault Unit) := do
  if path.toList.contains '\x00' then return .error .nullInName
  try
    let handle ← IO.FS.Handle.mk path .append
    handle.putStr text
    return .ok ()
  catch e => return .error (fault e)

def now : IO Instant := do
  let t ← Std.Time.Timestamp.now
  let nanos := t.toNanosecondsSinceUnixEpoch.val
  return ⟨nanos.fdiv 1000000000, (nanos.fmod 1000000000).toNat⟩

/-- The date at an instant; the start of 1970 when the calendar does not reach it. -/
def dateAt (t : Instant) : Date :=
  t.date?.getD ⟨1970, 1, 1, by decide, by decide, by decide⟩

/-- A step on the computer. -/
def act (verbose : Bool) : (a : Act Http.service) → IO a.Reply
  | .ask _ => return (.error (.http "no connection could be made") : Except Failure Http.Response)
  | .print text => do
    let out ← IO.getStdout
    out.putStr text
    out.flush
  | .warn text => IO.eprint text
  | .log .debug text => if verbose then IO.eprintln ("DEBUG " ++ text) else return ()
  | .log .info text => IO.eprintln ("INFO " ++ text)
  | .log .error text => IO.eprintln ("ERROR " ++ text)
  | .readFile path => readFile path
  | .findFile path => findFile path
  | .appendFile path text => appendFile path text
  | .uptime => IO.monoMsNow
  | .now => now
  | .today => return dateAt (← now)
  | .sleep span => IO.sleep (UInt32.ofNat (min span 4294967295))

/-- A whole flow on the computer, `none` when it does not come to a result. -/
def flow {α : Type} (verbose : Bool) : Flow Http.service α → IO (Option α)
  | .done a => return some a
  | .failed _ => return none
  | .stalled => return none
  | .step a next => do
    let reply ← act verbose a
    flow verbose (next reply)

def variableNames : List String :=
  ["GITHUB_TOKEN", "GITHUB_API_URL", "GITHUB_REPOSITORY", "GITHUB_OUTPUT", "GITHUB_STEP_SUMMARY",
    "GITHUB_SHA", "previousVersion", "ENVIRONMENT", "XDG_CONFIG_HOME", "HOME", "CLICOLOR",
    "CLICOLOR_FORCE"]

/-- What the program finds when it starts. -/
def surroundings : IO CommandLine.Surroundings := do
  let values ← variableNames.filterMapM fun name => do
    return (← IO.getEnv name).map fun value => (name, Content.text value)
  let colorless := (← IO.getEnv "NO_COLOR").isSome || (← IO.getEnv "TERM") == some "dumb"
  let terminal := (← (← IO.getStdout).isTty) && !colorless
  return { environment := ⟨values⟩, terminal }

end ReleaseFlow.Perform

/-- The program. -/
def main (args : List String) : IO UInt32 := do
  let around ← ReleaseFlow.Perform.surroundings
  let verbose :=
    match ReleaseFlow.CommandLine.read around.environment args with
    | .run i => i.verbose
    | _ => false
  let code ← ReleaseFlow.Perform.flow verbose (ReleaseFlow.CommandLine.program around args)
  return code.getD 1
