import ReleaseFlow.Calendar
import ReleaseFlow.Failure
import ReleaseFlow.Files

/-!
# Flows

A flow is a command as data: what it does step by step, each step depending on the answers to the
earlier ones. The same flow can be run on a computer, run on values, or run step by step beside
another one.

* `Service`: questions and the types of their answers;
* `Act`, `Act.Reply`: the single steps;
* `Flow`: the steps of a command and its end;
* `Flow.bind`: one flow after another;
* `Flow.attempt`: a failure as a value;
* `Flow.through`: the questions of one service asked by way of another.
-/

namespace ReleaseFlow

/-- The questions that can be asked, and the type of the answer to each. -/
structure Service where
  Query : Type
  Answer : Query → Type

/-- The importance of a line in the log. -/
inductive Level where
  | debug
  | info
  | error
  deriving DecidableEq, Repr

/-- A step of a flow. -/
inductive Act (S : Service) where
  /-- Asks the service. -/
  | ask (query : S.Query)
  /-- Writes to the standard output. -/
  | print (text : String)
  /-- Writes to the standard error. -/
  | warn (text : String)
  /-- Writes a line to the log. -/
  | log (level : Level) (text : String)
  | readFile (path : String)
  /-- Asks whether anything lies at a path. -/
  | findFile (path : String)
  | appendFile (path text : String)
  /-- The milliseconds since the start, by a clock that never goes back. -/
  | uptime
  /-- The time of day. -/
  | now
  /-- The date where the command runs. -/
  | today
  /-- Waits for a number of milliseconds. -/
  | sleep (span : Nat)

/-- The type of what a step gives back. -/
def Act.Reply {S : Service} : Act S → Type
  | ask query => Except Failure (S.Answer query)
  | print _ => Unit
  | warn _ => Unit
  | log _ _ => Unit
  | readFile _ => Except FileFault String
  | findFile _ => Bool
  | appendFile _ _ => Except FileFault Unit
  | uptime => Nat
  | now => Instant
  | today => Date
  | sleep _ => Unit

/-- A command as data. -/
inductive Flow (S : Service) (α : Type) : Type where
  /-- The command has come to its result. -/
  | done (result : α)
  /-- The command ended early. -/
  | failed (failure : Failure)
  /-- The command broke off in a wait: nothing bounds it, or its tries cannot be counted. -/
  | stalled
  /-- A step, and how to go on after its reply. -/
  | step (act : Act S) (next : act.Reply → Flow S α)

namespace Flow

variable {S T : Service} {α β γ : Type}

/-- One flow after another. -/
def bind : Flow S α → (α → Flow S β) → Flow S β
  | done a, f => f a
  | failed e, _ => failed e
  | stalled, _ => stalled
  | step act next, f => step act fun r => (next r).bind f

instance : Monad (Flow S) where
  pure := done
  bind := bind

theorem bind_done (m : Flow S α) : m.bind done = m := by
  induction m with
  | done => rfl
  | failed => rfl
  | stalled => rfl
  | step act next ih => simp only [bind, ih]

theorem bind_assoc (m : Flow S α) (f : α → Flow S β) (g : β → Flow S γ) :
    (m.bind f).bind g = m.bind fun a => (f a).bind g := by
  induction m with
  | done => rfl
  | failed => rfl
  | stalled => rfl
  | step act next ih => simp only [bind, ih]

instance : LawfulMonad (Flow S) :=
  LawfulMonad.mk' _ bind_done (fun _ _ => rfl) bind_assoc

/-- The flow with a failure as a value. -/
def attempt : Flow S α → Flow S (Except Failure α)
  | done a => done (.ok a)
  | failed e => done (.error e)
  | stalled => stalled
  | step act next => step act fun r => (next r).attempt

/-- A flow without steps that ends as given. -/
def ofExcept : Except Failure α → Flow S α
  | .ok a => done a
  | .error e => failed e

/-! ## Single steps -/

/-- Asks the service; no answer ends the flow. -/
def ask (query : S.Query) : Flow S (S.Answer query) :=
  step (.ask query) fun (r : Except Failure (S.Answer query)) => ofExcept r

/-- Asks the service; no answer is a value. -/
def tryAsk (query : S.Query) : Flow S (Except Failure (S.Answer query)) :=
  step (.ask query) fun (r : Except Failure (S.Answer query)) => done r

def print (text : String) : Flow S Unit :=
  step (.print text) fun _ => done ()

def warn (text : String) : Flow S Unit :=
  step (.warn text) fun _ => done ()

def log (level : Level) (text : String) : Flow S Unit :=
  step (.log level text) fun _ => done ()

/-- A flow without steps; a fault of a file ends it. -/
def ofFile : Except FileFault α → Flow S α
  | .ok a => done a
  | .error fault => failed (.io fault.message)

def readFile (path : String) : Flow S String :=
  step (.readFile path) fun (r : Except FileFault String) => ofFile r

def findFile (path : String) : Flow S Bool :=
  step (.findFile path) fun (r : Bool) => done r

/-- Appends text to a file. -/
def appendFile (path text : String) : Flow S Unit :=
  step (.appendFile path text) fun (r : Except FileFault Unit) => ofFile r

def uptime : Flow S Nat :=
  step .uptime fun (r : Nat) => done r

def now : Flow S Instant :=
  step .now fun (r : Instant) => done r

def today : Flow S Date :=
  step .today fun (r : Date) => done r

def sleep (span : Nat) : Flow S Unit :=
  step (.sleep span) fun _ => done ()

/-! ## One service by way of another -/

/-- The flow with every question handed to `answer`, which may ask another service. -/
def through (answer : (q : S.Query) → Flow T (S.Answer q)) : Flow S α → Flow T α
  | done a => done a
  | failed e => failed e
  | stalled => stalled
  | step (.ask q) next => (answer q).attempt.bind fun r => (next r).through answer
  | step (.print text) next => step (.print text) fun r => (next r).through answer
  | step (.warn text) next => step (.warn text) fun r => (next r).through answer
  | step (.log level text) next => step (.log level text) fun r => (next r).through answer
  | step (.readFile path) next => step (.readFile path) fun r => (next r).through answer
  | step (.findFile path) next => step (.findFile path) fun r => (next r).through answer
  | step (.appendFile path text) next =>
    step (.appendFile path text) fun r => (next r).through answer
  | step .uptime next => step .uptime fun r => (next r).through answer
  | step .now next => step .now fun r => (next r).through answer
  | step .today next => step .today fun r => (next r).through answer
  | step (.sleep span) next => step (.sleep span) fun r => (next r).through answer

end Flow

end ReleaseFlow
