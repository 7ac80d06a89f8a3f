import GroupStore.World
import GroupStore.Config.Build

/-!
# Commands of an operator

A command opens the repository that a configuration file describes, performs one call, prints its
result, and stops the repository again, whatever the call and the printing did.  Results are lines
of JSON; a failure is one line of text.

* `Command.ofArguments?` — the command line;
* `Command.Output`, `Command.print` — where lines go, which may refuse one;
* `Command.run` — what a command does to a world, and its report.
-/

namespace GroupStore

/-! ### The command line -/

/-- What a command does. -/
inductive Command.Action where
  /-- List the groups that have a result, with the ids of the results. -/
  | keys
  /-- Show the result of a group. -/
  | get (key : String)
  /-- Drop the results that carry an id. -/
  | confirm (id : String)
  /-- Drop the result of a group. -/
  | remove (key : String)
  /-- Check the configuration only. -/
  | validate
deriving DecidableEq

/-- A command, and where its configuration is, if it says so. -/
structure Command where
  action : Command.Action
  config : Option String
deriving DecidableEq

namespace Command

/-- What follows the words of a command. -/
structure Arguments where
  config : Option String
  values : List String
deriving DecidableEq

/-- The option that says where the configuration is. -/
def configOption : String := "--config"

/-- Whether an argument is an option rather than a value. -/
def isOption (argument : String) : Bool :=
  match argument.toList with
  | '-' :: _ :: _ => true
  | _ => false

/-- The value of the configuration option if an argument holds both. -/
def joinedConfig? (argument : String) : Option String :=
  let start := configOption.toList ++ ['=']
  if start.isPrefixOf argument.toList then
    some (String.ofList (argument.toList.drop start.length))
  else none

/-- Set the configuration, which may be done once and not to nothing. -/
def Arguments.setConfig? (a : Arguments) (path : String) : Option Arguments :=
  if path = "" || a.config.isSome then none else some { a with config := some path }

/-- Read arguments; after two hyphens that stand alone there are only values. -/
def Arguments.read? (onlyValues : Bool) (a : Arguments) : List String → Option Arguments
  | [] => some a
  | argument :: rest =>
    if onlyValues then read? true { a with values := a.values ++ [argument] } rest
    else if argument = "--" then read? true a rest
    else if argument = configOption then
      match rest with
      | [] => none
      | path :: rest =>
        if isOption path then none
        else
          match a.setConfig? path with
          | none => none
          | some a => read? false a rest
    else
      match joinedConfig? argument with
      | some path =>
        match a.setConfig? path with
        | none => none
        | some a => read? false a rest
      | none =>
        if isOption argument then none
        else read? false { a with values := a.values ++ [argument] } rest

/-- A command without a value. -/
def plain? (action : Action) (arguments : List String) : Option Command :=
  match Arguments.read? false ⟨none, []⟩ arguments with
  | some ⟨config, []⟩ => some ⟨action, config⟩
  | _ => none

/-- A command with one value. -/
def valued? (action : String → Action) (arguments : List String) : Option Command :=
  match Arguments.read? false ⟨none, []⟩ arguments with
  | some ⟨config, [value]⟩ => some ⟨action value, config⟩
  | _ => none

/-- The command of a command line; none if it is not well formed. -/
def ofArguments? : List String → Option Command
  | "keys" :: rest => plain? .keys rest
  | "get" :: rest => valued? .get rest
  | "confirm" :: rest => valued? .confirm rest
  | "remove" :: rest => valued? .remove rest
  | "config" :: "validate" :: rest => plain? .validate rest
  | _ => none

/-! ### Failures and reports -/

/-- Why a command fails. -/
inductive Failure where
  | load (cause : ConfigError)
  | build (cause : ConfigError)
  | start (cause : RepositoryError)
  | scan (cause : RepositoryError)
  | get (cause : RepositoryError)
  | confirm (cause : RepositoryError)
  | remove (cause : RepositoryError)
  | stop (cause : RepositoryError)
  /-- A line could not be printed. -/
  | output (text : String)
deriving DecidableEq

/-- The wording of a failure. -/
def Failure.message : Failure → String
  | load cause => "failed to load config: " ++ cause.message
  | build cause => "failed to build repository: " ++ cause.message
  | start cause => "failed to start repository: " ++ cause.message
  | scan cause => "scan failed: " ++ cause.message
  | get cause => "get failed: " ++ cause.message
  | confirm cause => "confirm failed: " ++ cause.message
  | remove cause => "remove failed: " ++ cause.message
  | stop cause => "failed to stop repository: " ++ cause.message
  | output text => "failed to write to stdout: " ++ text

/-- How a command ended: the lines that it printed, and its failure. -/
structure Report where
  lines : List String
  failure : Option Failure
deriving DecidableEq

/-- The exit code of a report. -/
def Report.exitCode (r : Report) : Nat := if r.failure.isSome then 1 else 0

/-! ### Output -/

/-- A scanned result as a line. -/
def identityLine (i : Identity) : String :=
  (Json.object [("aggregation_key", .string i.aggregationKey),
    ("exchange_id", .string i.exchangeId)]).text

/-- A shown result as a line. -/
def foundLine (key : String) (found : Option Exchange) : String :=
  (Json.object ([("aggregation_key", .string key), ("found", .bool found.isSome)]
    ++ (found.map fun x => ("exchange", x.toJson)).toList)).text

/-- The counters of a confirmation as a line. -/
def confirmationLine (id : String) (c : Confirmation) : String :=
  (Json.object [("exchange_id", .string id), ("matched", .int c.matched),
    ("deleted", .int c.deleted), ("stale", .int c.stale)]).text

/-- A removal as a line. -/
def removalLine (key : String) : String :=
  (Json.object [("aggregation_key", .string key), ("removed", .bool true)]).text

/-- What a valid configuration prints. -/
def validLine : String := "config valid"

/-- Where lines go: the text of the failure to print a line after others, if printing it fails. -/
abbrev Output := List String → String → Option String

/-- An output that takes every line. -/
def Output.reliable : Output := fun _ _ => none

/-- An output that takes some lines and fails at the next one. -/
def Output.failingAfter (count : Nat) (text : String) : Output := fun printed _ =>
  if printed.length = count then some text else none

/-- Print lines after others, up to the first that is refused: what is printed then, and the
failure. -/
def print (out : Output) (printed : List String) : List String → List String × Option Failure
  | [] => (printed, none)
  | line :: rest =>
    match out printed line with
    | some text => (printed, some (.output text))
    | none => print out (printed ++ [line]) rest

/-! ### Running -/

/-- The lines of a call's result, or how the call failed. -/
abbrev Outcome := Except Failure (List String)

/-- The call of an action and the lines of its result. -/
def perform (r : Running Handle Exchange) : Action → Program Handle Outcome
  | .keys => r.scan.map fun result =>
    (result.map fun identities => identities.map identityLine).mapError .scan
  | .get key => (r.get key).map fun result =>
    (result.map fun found => [foundLine key found]).mapError .get
  | .confirm id => (r.confirm id).map fun result =>
    (result.map fun c => [confirmationLine id c]).mapError .confirm
  | .remove key => (r.remove key).map fun result =>
    (result.map fun _ => [removalLine key]).mapError .remove
  | .validate => .done (.ok [])

/-- Print the lines of a result; a call that failed prints nothing. -/
def printResult (out : Output) : Outcome → List String × Option Failure
  | .error failure => ([], some failure)
  | .ok lines => print out [] lines

/-- The report of a call, of the printing of its result and of the stop after it; an earlier failure
counts more. -/
def report (out : Output) (outcome : Outcome) (stopped : Option RepositoryError) : Report :=
  let (lines, failure) := printResult out outcome
  ⟨lines, failure.or (stopped.map .stop)⟩

/-- Start a repository, perform an action, print its result and stop the repository. -/
def session (out : Output) (r : Repository Handle Exchange) (action : Action) :
    Program Handle Report :=
  r.start.bind fun
    | .error e => .done ⟨[], some (.start e)⟩
    | .ok running =>
      (perform running action).bind fun outcome =>
      running.stop.bind fun stopped =>
      match stopped with
      | .ok _ => .done (report out outcome none)
      | .error e => .done (report out outcome (some e))

/-- The codec of commands. -/
def codec : Codec Exchange := Payload.codec Payload.defaultLimit

/-- Run an action on the repository that a configuration describes. -/
def runConfigured (out : Output) (c : Config) (action : Action) (w : World) : Report × World :=
  match c.build codec .standard w.files with
  | (.error e, files) => (⟨[], some (.build e)⟩, { w with files })
  | (.ok a, files) =>
    World.run { w with files } ⟨a.connector, .system, a.sink⟩ (session out a.repository action)

/-- Run a command; `environment` is where the environment says that the configuration is. -/
def run (c : Command) (out : Output) (environment : Option String) (w : World) : Report × World :=
  match Config.load c.config environment w.files with
  | .error e => (⟨[], some (.load e)⟩, w)
  | .ok config =>
    match c.action with
    | .validate => (report out (.ok [validLine]) none, w)
    | action => runConfigured out config action w

end Command

end GroupStore
