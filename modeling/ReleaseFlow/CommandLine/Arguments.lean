import ReleaseFlow.Runner

/-!
# Arguments of the command line

The arguments are options for all commands, the name of a command, and then options and words of
that command. The first argument that fits nowhere rejects the whole line.

* `Command`, `Invocation`: what a line asks for;
* `Token`, `tokens?`: one argument that begins with a dash;
* `scan`: the arguments up to the name of a command, or those after it;
* `Reading`, `read`: the whole line.
-/

namespace ReleaseFlow.CommandLine

/-- The names of the commands. -/
inductive Verb where
  | tag
  | notes
  | mergeData
  | regression
  | bump
  deriving DecidableEq, Repr

def Verb.ofName? (name : String) : Option Verb :=
  if name = "tag" then some tag
  else if name = "notes" then some notes
  else if name = "pr-data" then some mergeData
  else if name = "regression" then some regression
  else if name = "bump" then some bump
  else none

/-- The option that only some commands have, and the variable that stands in for it. -/
def Verb.ownOption? : Verb → Option (String × String)
  | tag | mergeData => some ("sha", "GITHUB_SHA")
  | notes => some ("previous-version", "previousVersion")
  | regression => some ("environment", "ENVIRONMENT")
  | bump => none

/-- A command with what it needs. -/
inductive Command where
  | tag (sha : String)
  | notes (previous : Option String)
  | mergeData (sha : String)
  | regression (environment : String)
  | bump (version : String) (labels : List String)
  deriving DecidableEq, Repr

/-- What a line asks for. -/
structure Invocation where
  config : Option String
  dryRun : Bool
  verbose : Bool
  command : Command
  deriving DecidableEq, Repr

/-- What a line comes to. -/
inductive Reading where
  | run (invocation : Invocation)
  | version
  | help
  | rejected
  deriving DecidableEq, Repr

/-! ## Single arguments -/

/-- An option without a value. -/
inductive Switch where
  | dryRun
  | verbose
  | version
  | help
  deriving DecidableEq, Repr

/-- An option with a value. -/
inductive Field where
  | config
  /-- The option that the command has of its own. -/
  | own
  deriving DecidableEq, Repr

/-- A piece of an argument that begins with a dash. -/
inductive Token where
  | switch (s : Switch)
  /-- An option, with its value when that is attached. -/
  | field (f : Field) (value : Option String)
  | unknown
  deriving DecidableEq, Repr

/-- The token of an option's long name. Before the name of a command, `verb` is absent. -/
def longToken (verb : Option Verb) (name : String) (value : Option String) : Token :=
  if name = "config" then .field .config value
  else if (verb.bind Verb.ownOption?).map Prod.fst = some name then .field .own value
  else if value.isSome then .unknown
  else if name = "dry-run" then .switch .dryRun
  else if name = "verbose" then .switch .verbose
  else if name = "help" then .switch .help
  else if name = "version" && verb.isNone then .switch .version
  else .unknown

/-- The value attached to a short name: an equals sign in front is not part of it. -/
def attached : List Char → Option String
  | [] => none
  | '=' :: cs => some (String.ofList cs)
  | cs => some (String.ofList cs)

/-- The tokens of short names that are written together. -/
def shortTokens (verb : Option Verb) : List Char → List Token
  | [] => []
  | 'c' :: cs => [.field .config (attached cs)]
  | 'v' :: cs => .switch .verbose :: shortTokens verb cs
  | 'h' :: cs => .switch .help :: shortTokens verb cs
  | 'V' :: cs => (if verb.isNone then .switch .version else .unknown) :: shortTokens verb cs
  | _ :: _ => [.unknown]

/-- The tokens of an argument, `none` when it is a word. -/
def tokens? (verb : Option Verb) (arg : String) : Option (List Token) :=
  match arg.toList with
  | '-' :: '-' :: cs =>
    let name := String.ofList (cs.takeWhile (· != '='))
    match cs.dropWhile (· != '=') with
    | [] => some [longToken verb name none]
    | _ :: value => some [longToken verb name (some (String.ofList value))]
  | '-' :: c :: cs => some (shortTokens verb (c :: cs))
  | _ => none

/-! ## The whole line -/

/-- What has been seen. -/
structure Seen where
  config : Option String := none
  dryRun : Bool := false
  verbose : Bool := false
  /-- The value of the command's own option. -/
  own : Option String := none
  words : List String := []
  deriving DecidableEq, Repr

/-- Sets the value of an option, unless it was set before. -/
def Seen.set (seen : Seen) (value : String) : Field → Except Reading Seen
  | .config => if seen.config.isSome then .error .rejected else .ok { seen with config := value }
  | .own => if seen.own.isSome then .error .rejected else .ok { seen with own := value }

/-- Turns an option on, unless it was on before. Version and help end the reading. -/
def Seen.turnOn (seen : Seen) : Switch → Except Reading Seen
  | .dryRun => if seen.dryRun then .error .rejected else .ok { seen with dryRun := true }
  | .verbose => if seen.verbose then .error .rejected else .ok { seen with verbose := true }
  | .version => .error .version
  | .help => .error .help

/-- The effect of an argument's tokens, and the option that wants the next argument. -/
def Seen.addTokens : Seen → List Token → Except Reading (Seen × Option Field)
  | seen, [] => .ok (seen, none)
  | seen, .switch s :: ts => (seen.turnOn s).bind fun seen => seen.addTokens ts
  | seen, .field f (some value) :: ts => (seen.set value f).bind fun seen => seen.addTokens ts
  | seen, .field f none :: _ => .ok (seen, some f)
  | _, .unknown :: _ => .error .rejected

/-- Reads the arguments before a command, or those after its name. `open?` is the option that wants
the argument in front, and after `--` all arguments are words. The reading ends with the line or
with the name of a command. -/
def scan (verb : Option Verb) :
    Seen → (open? : Option Field) → (onlyWords : Bool) → List String →
      Except Reading (Seen × Option (Verb × List String))
  | seen, none, _, [] => .ok (seen, none)
  | _, some _, _, [] => .error .rejected
  | seen, some f, onlyWords, arg :: args =>
    if arg = "--" || (tokens? verb arg).isSome then .error .rejected
    else (seen.set arg f).bind fun seen => scan verb seen none onlyWords args
  | seen, none, onlyWords, arg :: args =>
    if !onlyWords && arg = "--" then
      if verb.isNone then .error .rejected else scan verb seen none true args
    else
      match if onlyWords then none else tokens? verb arg with
      | some tokens =>
        (seen.addTokens tokens).bind fun (seen, open?) => scan verb seen open? onlyWords args
      | none =>
        match verb with
        | some .bump => scan verb { seen with words := seen.words ++ [arg] } none onlyWords args
        | some _ => .error .rejected
        | none =>
          match Verb.ofName? arg with
          | some verb => .ok (seen, some (verb, args))
          | none =>
            if arg = "help" && args.all (fun a => (Verb.ofName? a).isSome || a = "help") &&
                args.length ≤ 1 then
              .error .help
            else .error .rejected

/-- The value of a command's own option: from the line, or else from its variable. -/
def ownValue (environment : Environment) (verb : Verb) (seen : Seen) :
    Except Reading (Option String) :=
  match seen.own, verb.ownOption? with
  | some value, _ => .ok (some value)
  | none, none => .ok none
  | none, some (_, variableName) =>
    match environment.values.lookup variableName with
    | none => .ok none
    | some (.text value) => .ok (some value)
    | some (.binary _) => .error .rejected

/-- The command with what was seen for it. -/
def command (verb : Verb) (own : Option String) (words : List String) : Except Reading Command :=
  match verb, own, words with
  | .tag, some sha, _ => .ok (.tag sha)
  | .mergeData, some sha, _ => .ok (.mergeData sha)
  | .regression, some environment, _ => .ok (.regression environment)
  | .notes, previous, _ => .ok (.notes previous)
  | .bump, _, version :: labels => .ok (.bump version labels)
  | _, _, _ => .error .rejected

/-- What a line asks for, or why it is not run. -/
def invocation (environment : Environment) (args : List String) : Except Reading Invocation := do
  let (before, rest) ← scan none {} none false args
  match rest with
  | none => throw .rejected
  | some (verb, args) =>
    let (after, _) ← scan (some verb) {} none false args
    let own ← ownValue environment verb after
    let command ← command verb own after.words
    return {
      config := after.config.or before.config
      dryRun := before.dryRun || after.dryRun
      verbose := before.verbose || after.verbose
      command }

/-- What a line comes to. -/
def read (environment : Environment) (args : List String) : Reading :=
  match invocation environment args with
  | .ok i => .run i
  | .error r => r

end ReleaseFlow.CommandLine
