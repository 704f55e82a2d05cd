import ReleaseFlow.Flow

/-!
# Running flows on values

A world holds what the steps of a flow act on: files, a clock that only waits move, and a record of
all that was written. A service is run by a function on its own state.

* `World`, `Event`: the world and its record;
* `Host`: a service run on values;
* `Act.perform`: one step;
* `Flow.run`: a whole flow, and its `Outcome`.
-/

namespace ReleaseFlow

/-- Something that was written. -/
inductive Event where
  | print (text : String)
  | warn (text : String)
  | log (level : Level) (text : String)
  deriving DecidableEq, Repr

/-- What the steps of a flow act on. -/
structure World where
  files : FileTree := {}
  /-- The milliseconds since the start. -/
  uptime : Nat := 0
  /-- The time of day at the start. -/
  started : Instant := ⟨0, 0⟩
  /-- The date at the start. -/
  date : Date := ⟨1970, 1, 1, by decide, by decide, by decide⟩
  /-- All that was written, the oldest first. -/
  record : List Event := []

/-- Instants, in milliseconds since the start, lie before this one: their seconds fit into 64 bits
with a sign. -/
def horizon : Nat := 9223372036854775807 * 1000

/-- The instant that lies a span after another, if it can be represented. -/
def later? (instant span : Nat) : Option Nat :=
  if instant + span < horizon then some (instant + span) else none

/-- How long a wait lasts whose end cannot be represented: thirty years. -/
def longestWait : Nat := 86400 * 365 * 30 * 1000

/-- When a wait of the given span ends. -/
def wakeUp (instant span : Nat) : Nat :=
  (later? instant span).getD (instant + longestWait)

namespace World

def note (w : World) (e : Event) : World :=
  { w with record := w.record ++ [e] }

def now (w : World) : Instant :=
  let nanos := w.started.nanos + w.uptime % 1000 * 1000000
  ⟨w.started.seconds + w.uptime / 1000 + nanos / 1000000000, nanos % 1000000000⟩

def output (w : World) : String :=
  String.join (w.record.filterMap fun e => if let .print text := e then some text else none)

def errors (w : World) : String :=
  String.join (w.record.filterMap fun e => if let .warn text := e then some text else none)

def logged (w : World) : List (Level × String) :=
  w.record.filterMap fun e => if let .log level text := e then some (level, text) else none

end World

/-- A service run on values of a type. -/
abbrev Host (S : Service) (σ : Type) :=
  (q : S.Query) → σ → Except Failure (S.Answer q) × σ

/-- One step: its reply, and the service and the world after it. -/
def Act.perform {S : Service} {σ : Type} (host : Host S σ) :
    (act : Act S) → σ → World → act.Reply × σ × World
  | .ask q, s, w => let (reply, s) := host q s; (reply, s, w)
  | .print text, s, w => ((), s, w.note (.print text))
  | .warn text, s, w => ((), s, w.note (.warn text))
  | .log level text, s, w => ((), s, w.note (.log level text))
  | .readFile path, s, w => (w.files.readText path, s, w)
  | .findFile path, s, w => (w.files.occupied path, s, w)
  | .appendFile path text, s, w =>
    match w.files.append path text with
    | .ok files => (.ok (), s, { w with files })
    | .error fault => (.error fault, s, w)
  | .uptime, s, w => (w.uptime, s, w)
  | .now, s, w => (w.now, s, w)
  | .today, s, w => (w.date, s, w)
  | .sleep span, s, w => ((), s, { w with uptime := wakeUp w.uptime span })

/-- How a flow ended. -/
inductive Outcome (α : Type) where
  | done (result : α)
  | failed (failure : Failure)
  | stalled
  deriving DecidableEq, Repr

/-- A whole flow: how it ended, and the service and the world after it. -/
def Flow.run {S : Service} {σ α : Type} (host : Host S σ) :
    Flow S α → σ → World → Outcome α × σ × World
  | done a, s, w => (.done a, s, w)
  | failed e, s, w => (.failed e, s, w)
  | stalled, s, w => (.stalled, s, w)
  | step act next, s, w =>
    let (reply, s, w) := act.perform host s w
    (next reply).run host s w

end ReleaseFlow
