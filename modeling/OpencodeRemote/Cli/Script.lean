import OpencodeRemote.Cli.Python

/-! # opencode-remote-cli.sh

The shell functions that change the configuration file, and the Python programs in their
here-documents. Values of Python are mutable; here a changed value is put back into the one
that contains it. A program prints at its end, so it prints a document or nothing.

The file system is taken to work: `cp`, `mktemp`, `cat` and `mv` succeed.
-/

namespace OpencodeRemote.Cli

open Python

def pluginName : Str := lit "opencode-remote-provider"

/-- What the configuration file holds: the user's own text, a document that one of the
    programs has printed, or nothing. -/
inductive Contents where
  | original
  | printed (data : Value)
  | empty

/-- What does not change during a run. -/
structure Setting where
  /-- What `json.load` makes of the user's text, unless it raises an exception. -/
  loaded : Option Value
  /-- How deep a document `json.dumps` can print before the interpreter's stack is full. -/
  maxDepth : Nat
  /-- `REMOTE_SSH_HOST` as the caller's environment has it, empty if it is not set. -/
  sshHost : Str

section Programs

variable (setting : Setting)

/-- `json.load`, which wants at least one value. -/
def load : Contents → Except Exception Value
  | .original =>
      match setting.loaded with
      | some data => .ok data
      | none => .error .valueError
  | .printed data => .ok data
  | .empty => .error .valueError

/-- `print(json.dumps(data, indent=2))`. -/
def dumps (data : Value) : Except Exception Contents :=
  if data.depth ≤ setting.maxDepth then .ok (.printed data) else .error .recursionError

/-- `isinstance(entry, list) and entry and entry[0] == plugin_name`. -/
def isEntry : Value → Bool
  | .list (target :: _) => target.isStr pluginName
  | _ => false

/-- `data.get("plugin", [])`. -/
def plugins (data : Value) : Except Exception (List Value) := do
  let fields ← data.asDict
  (fields.get (lit "plugin") (.list [])).iter

/-! ## assert_supported_config_mode -/

def isPath (target : Str) : Bool :=
  decide (lit "/plugin" <:+: target) || decide (lit "/plugin" <:+ target) || decide (lit "\\plugin" <:+ target)

/-- One round of the loop, on `package_entry` and `path_entries`. -/
def classify : Bool × List Str → Value → Bool × List Str
  | (packageEntry, pathEntries), .list (target :: _) =>
      if target.isStr pluginName then (true, pathEntries)
      else
        match target with
        | .str path => if isPath path then (packageEntry, pathEntries ++ [path]) else (packageEntry, pathEntries)
        | _ => (packageEntry, pathEntries)
  | state, _ => state

def supportedMode (data : Value) : Except Exception Unit := do
  let (packageEntry, pathEntries) := (← plugins data).foldl classify (false, [])
  if pathEntries ≠ [] ∧ packageEntry = false then throw (.systemExit 2)
  else pure ()

/-! ## has_plugin -/

/-- The loop ends with status 0 at the first entry of the plugin, the program with 1. -/
def hasPluginLoop : List Value → Except Exception Unit
  | [] => throw (.systemExit 1)
  | entry :: rest => if isEntry entry then throw (.systemExit 0) else hasPluginLoop rest

def hasPluginProgram (config : Contents) : Except Exception Unit := do
  let data ← load setting config
  hasPluginLoop (← plugins data)

/-! ## init_plugin -/

def emptyOptions : Value := .dict [(lit "providers", .dict [])]

def initProgram (stdin : Contents) : Except Exception Contents := do
  let data ← load setting stdin
  let fields ← data.asDict
  let plugins := fields.get (lit "plugin") (.list [])
  let entries ← plugins.iter
  if entries.any isEntry then dumps setting (.dict (fields.setItem (lit "plugin") plugins))
  else
    match plugins with
    | .list items =>
        dumps setting (.dict (fields.setItem (lit "plugin")
          (.list (items ++ [.list [.str pluginName, emptyOptions]]))))
    | _ => throw .attributeError

/-! ## The edits of cmd_add and cmd_remove -/

/-- The loop over the plugin entries: the first one of the plugin is edited. -/
def editFirst (edit : List Value → Except Exception (List Value)) : List Value → Except Exception (List Value)
  | [] => pure []
  | entry :: rest =>
      if isEntry entry then
        match entry with
        | .list items => do
            let edited ← edit items
            pure (.list edited :: rest)
        | _ => pure (entry :: rest)
      else do
        let edited ← editFirst edit rest
        pure (entry :: edited)

/-- The items of a string and the keys of a dictionary are no entries. -/
def editDocument (edit : List Value → Except Exception (List Value)) (data : Value) :
    Except Exception Value := do
  let fields ← data.asDict
  match fields.get (lit "plugin") (.list []) with
  | .list entries =>
      let edited ← editFirst edit entries
      if (fields.find (lit "plugin")).isSome then pure (.dict (fields.setItem (lit "plugin") (.list edited)))
      else pure data
  | other =>
      let _ ← other.iter
      pure data

/-- `[item for item in hosts if item.get("name") != host]`, on the items. -/
def othersLoop (host : Str) : List Value → Except Exception (List Value)
  | [] => pure []
  | item :: rest => do
      let fields ← item.asDict
      let others ← othersLoop host rest
      if (fields.get (lit "name") .none).isStr host then pure others else pure (item :: others)

def others (host : Str) (hosts : Value) : Except Exception (List Value) := do
  othersLoop host (← hosts.iter)

def newProvider : Value := .dict [(lit "strategy", .str (lit "first_available")), (lit "hosts", .list [])]

/-- `host_entry`. -/
def hostEntry (host sshHost user : Str) (port : Int) (identity : Str) : Value :=
  .dict [(lit "name", .str host), (lit "ssh", .dict
    ([(lit "host", .str sshHost), (lit "user", .str user), (lit "port", .int port)] ++
      if identity ≠ [] then [(lit "identityFile", .str identity)] else []))]

/-- An entry without options cannot be assigned any. -/
def addToEntry (provider host : Str) (entry : Value) : List Value → Except Exception (List Value)
  | name :: options :: more => do
      let fields ← options.asDict
      let providers ← (fields.get (lit "providers") (.dict [])).asDict
      let config ← (providers.get provider newProvider).asDict
      let kept ← others host (config.get (lit "hosts") (.list []))
      let config := config.setItem (lit "hosts") (.list (kept ++ [entry]))
      let providers := providers.setItem provider (.dict config)
      pure (name :: .dict (fields.setItem (lit "providers") (.dict providers)) :: more)
  | _ => throw .indexError

def removeFromEntry (provider host : Str) : List Value → Except Exception (List Value)
  | name :: options :: more => do
      let fields ← options.asDict
      let providers := fields.get (lit "providers") (.dict [])
      if ← providers.contains provider then
        match providers with
        | .dict configs =>
            let config ← (Fields.get configs provider .none).asDict
            let kept ← others host (config.get (lit "hosts") (.list []))
            let config := config.setItem (lit "hosts") (.list kept)
            let configs := Fields.setItem configs provider (.dict config)
            pure (name :: .dict (fields.setItem (lit "providers") (.dict configs)) :: more)
        | _ => throw .typeError
      else pure (name :: options :: more)
  | items => pure items

/-- The arguments as the environment of the programs has them; an argument that is not there is
    the empty string. -/
structure Arguments where
  provider : Str
  host : Str
  user : Str
  port : Str
  identity : Str

/-- `${value:-default}`. -/
def orElse (value default : Str) : Str := if value = [] then default else value

def Arguments.ofList (args : List Str) : Arguments :=
  { provider := args.getD 0 []
    host := args.getD 1 []
    user := args.getD 2 []
    port := orElse (args.getD 3 []) (lit "22")
    identity := args.getD 4 [] }

def addProgram (arguments : Arguments) (config : Contents) : Except Exception Contents := do
  let port ← int arguments.port
  let data ← load setting config
  let entry := hostEntry arguments.host (orElse setting.sshHost arguments.host) arguments.user port
    arguments.identity
  dumps setting (← editDocument (addToEntry arguments.provider arguments.host entry) data)

def removeProgram (arguments : Arguments) (config : Contents) : Except Exception Contents := do
  let data ← load setting config
  dumps setting (← editDocument (removeFromEntry arguments.provider arguments.host) data)

end Programs

/-! ## The shell functions -/

/-- A command may end the script with its status, as a failing one does under `set -e`. -/
abbrev Shell := ExceptT Nat (StateM Contents)

namespace Shell

/-- The status of `python3` after an exception. -/
def status : Except Exception Unit → Nat
  | .ok () => 0
  | .error (.systemExit status) => status
  | .error _ => 1

/-- A program run for its status, which ends the script unless it is 0. -/
def check (program : Contents → Except Exception Unit) : Shell Unit := do
  let status := status (program (← get))
  if status ≠ 0 then throw status

/-- A program run as a condition. -/
def succeeds (program : Contents → Except Exception Unit) : Shell Bool := do
  pure (status (program (← get)) = 0)

/-- What a program leaves in a pipe. -/
def output : Except Exception Contents → Contents
  | .ok printed => printed
  | .error _ => .empty

/-- `python3 .. | write_config`: the file becomes what the program has printed. The status of the
    program is lost. -/
def writeConfig (program : Except Exception Contents) : Shell Unit := set (output program)

def die {α : Type} : Shell α := throw 1

end Shell

section Commands

open Shell

variable (setting : Setting)

def assertSupportedConfigMode : Shell Unit :=
  check fun config => do supportedMode (← load setting config)

def hasPlugin : Shell Bool := succeeds (hasPluginProgram setting)

/-- What `sys.stdin` still has for a program that `python3 -` has read from a here-document: the
    here-document has taken the place of the pipe, and it has been read to its end. -/
def stdinBehindHereDocument (_piped : Contents) : Contents := .empty

def initPlugin (config : Contents) : Shell Unit :=
  writeConfig (initProgram setting (stdinBehindHereDocument config))

def cmdInit : Shell Unit := do
  assertSupportedConfigMode setting
  if ← hasPlugin setting then pure ()
  else initPlugin setting (← get)

def cmdAdd (args : List Str) : Shell Unit := do
  if args.length < 3 then die
  assertSupportedConfigMode setting
  if !(← hasPlugin setting) then initPlugin setting (← get)
  writeConfig (addProgram setting (.ofList args) (← get))

def cmdRemove (args : List Str) : Shell Unit := do
  if args.length < 2 then die
  assertSupportedConfigMode setting
  if !(← hasPlugin setting) then die
  writeConfig (removeProgram setting (.ofList args) (← get))

inductive Invocation where
  | init
  | add (args : List Str)
  | remove (args : List Str)

def command : Invocation → Shell Unit
  | .init => cmdInit setting
  | .add args => cmdAdd setting args
  | .remove args => cmdRemove setting args

/-- The configuration file when the script has ended. -/
def configAfter (invocation : Invocation) : Contents := ((command setting invocation).run.run .original).2

end Commands

end OpencodeRemote.Cli
