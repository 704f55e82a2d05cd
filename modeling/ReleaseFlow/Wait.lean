import ReleaseFlow.World

/-!
# Waiting with a deadline

A wait tries something again and again, at fixed intervals, until it gives a value or the next try
would come after the deadline. The tries are counted in 32 bits.

* `Wait`: what is waited for, how often it is tried and how long;
* `Wait.limit`: a number of tries that is never used up while time passes;
* `Wait.count?`: the number of the next try;
* `Wait.poll`: the wait as a flow.
-/

namespace ReleaseFlow

/-- A wait, times in milliseconds. -/
structure Wait where
  /-- What is waited for, as messages call it. -/
  what : String
  /-- The time between two tries. -/
  interval : Nat
  /-- The time from the start to the deadline. -/
  timeout : Nat
  /-- The number of tries when neither the interval nor the deadline bounds it. -/
  patience : Nat
  /-- Whether the arithmetic is checked: then a wait breaks off at a try whose number does not fit
  into 32 bits, and else the count begins again at zero. -/
  checked : Bool := false
  deriving DecidableEq, Repr

namespace Wait

def isOver (w : Wait) (deadline now : Nat) : Bool :=
  match later? now w.interval with
  | some next => deadline < next
  | none => true

/-- A number of tries that is enough. With a deadline and an interval, the try that comes after
`timeout / interval` intervals is the last one, since the next would be too late. -/
def limit (w : Wait) (deadline : Option Nat) : Nat :=
  if deadline.isSome && 0 < w.interval then w.timeout / w.interval + 1 else w.patience

/-- The number of the try that comes after this one. -/
def count? (w : Wait) (made : UInt32) : Option UInt32 :=
  if w.checked && made == 4294967295 then none else some (made + 1)

/-- The line that tells the number of the try that gave a value. -/
def readyLine (w : Wait) (tries : UInt32) : String :=
  w.what ++ " ready after " ++ Text.decimal tries.toNat ++ " attempt(s)"

variable {S : Service} {α : Type}

/-- The rest of a wait, with at most `left` tries to come; `made` is the number of the last one. -/
def loop (w : Wait) (deadline : Option Nat) (attempt : Flow S (Option α)) : Nat → UInt32 → Flow S α
  | 0, _ => .stalled
  | left + 1, made =>
    match w.count? made with
    | none => .stalled
    | some tries => do
      match ← attempt with
      | some value =>
        Flow.log .debug (w.readyLine tries)
        return value
      | none =>
        match deadline with
        | none =>
          Flow.sleep w.interval
          loop w deadline attempt left tries
        | some d =>
          let now ← Flow.uptime
          if w.isOver d now then
            Flow.failed (.timeout w.what (w.timeout / 1000))
          else
            Flow.sleep w.interval
            loop w deadline attempt left tries

/-- Tries until a value is given or the deadline has come. A timeout too long to be represented
means no deadline. -/
def poll (w : Wait) (attempt : Flow S (Option α)) : Flow S α := do
  let start ← Flow.uptime
  let deadline := later? start w.timeout
  w.loop deadline attempt (w.limit deadline) 0

end Wait

end ReleaseFlow
