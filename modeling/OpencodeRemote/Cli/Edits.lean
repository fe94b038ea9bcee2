import OpencodeRemote.Cli.Script

/-! # Edits of the configuration

What the commands are asked to do to a document, stated without the programs that do it, and
when the script does that.
-/

namespace OpencodeRemote.Cli

open Python

/-! ## The plugin's entry -/

def firstEntry : List Value → Option (List Value)
  | [] => none
  | .list (target :: more) :: rest =>
      if target.isStr pluginName then some (target :: more) else firstEntry rest
  | _ :: rest => firstEntry rest

/-- The items of the plugin's entry. -/
def pluginEntry : Value → Option (List Value)
  | .dict fields =>
      match Fields.get fields (lit "plugin") (.list []) with
      | .list entries => firstEntry entries
      | _ => none
  | _ => none

def replaceFirst (items : List Value) : List Value → List Value
  | [] => []
  | entry :: rest => if isEntry entry then .list items :: rest else entry :: replaceFirst items rest

/-- The document with other items in the plugin's entry. -/
def replaceEntry (items : List Value) : Value → Value
  | .dict fields =>
      match Fields.get fields (lit "plugin") (.list []) with
      | .list entries => .dict (Fields.setItem fields (lit "plugin") (.list (replaceFirst items entries)))
      | _ => .dict fields
  | other => other

/-! ## The edits -/

/-- The document with an entry for the plugin, a new one at the end if there is none. -/
def withEntry : Value → Option Value
  | .dict fields =>
      match Fields.get fields (lit "plugin") (.list []) with
      | .list entries =>
          if (firstEntry entries).isSome then some (.dict fields)
          else some (.dict (Fields.setItem fields (lit "plugin")
            (.list (entries ++ [.list [.str pluginName, emptyOptions]]))))
      | _ => none
  | _ => none

def isNamed (host : Str) : Value → Bool
  | .dict fields => (Fields.get fields (lit "name") .none).isStr host
  | _ => false

/-- The hosts of other names; whatever is no list has no hosts. -/
def otherHosts (host : Str) : Option Value → List Value
  | some (.list hosts) => hosts.filter fun item => !isNamed host item
  | _ => []

/-- A field of a dictionary, which may be a new one. -/
def within (key : Str) (f : Option Value → Option Value) : Option Value → Option Value
  | none => (f none).map fun value => .dict [(key, value)]
  | some (.dict fields) => (f (Fields.find fields key)).map fun value => .dict (Fields.setItem fields key value)
  | some _ => none

/-- The provider with this host set; a new provider takes the first available host. -/
def setHost (host : Str) (entry : Value) : Option Value → Option Value
  | none => some (.dict [(lit "strategy", .str (lit "first_available")), (lit "hosts", .list [entry])])
  | some (.dict config) => some (.dict (Fields.setItem config (lit "hosts")
      (.list (otherHosts host (Fields.find config (lit "hosts")) ++ [entry]))))
  | some _ => none

def setInEntry (provider host : Str) (entry : Value) : List Value → Option (List Value)
  | [name] => (within (lit "providers") (within provider (setHost host entry)) none).map fun options =>
      [name, options]
  | name :: options :: more =>
      (within (lit "providers") (within provider (setHost host entry)) (some options)).map fun options =>
        name :: options :: more
  | [] => none

/-- A field of a dictionary, if it is there. -/
def updated (key : Str) (f : Value → Value) : Value → Value
  | .dict fields =>
      match Fields.find fields key with
      | some value => .dict (Fields.setItem fields key (f value))
      | none => .dict fields
  | other => other

def withoutHost (host : Str) : Value → Value
  | .list hosts => .list (hosts.filter fun item => !isNamed host item)
  | other => other

def removedInEntry (provider host : Str) : List Value → List Value
  | name :: options :: more =>
      name :: updated (lit "providers") (updated provider (updated (lit "hosts") (withoutHost host))) options ::
        more
  | items => items

/-- The document that the user asks for. -/
def requested (setting : Setting) : Invocation → Value → Option Value
  | .init, data => withEntry data
  | .add args, data => do
      let arguments := Arguments.ofList args
      let port ← (int arguments.port).toOption
      let entry := hostEntry arguments.host (orElse setting.sshHost arguments.host) arguments.user port
        arguments.identity
      let data ← withEntry data
      let items ← pluginEntry data
      let items ← setInEntry arguments.provider arguments.host entry items
      pure (replaceEntry items data)
  | .remove args, data =>
      let arguments := Arguments.ofList args
      match pluginEntry data with
      | some items => some (replaceEntry (removedInEntry arguments.provider arguments.host items) data)
      | none => some data

/-- The file is as it was, or it holds the document that was asked for. -/
def Preserves (setting : Setting) (invocation : Invocation) : Prop :=
  configAfter setting invocation = .original ∨
    ∃ data edited, setting.loaded = some data ∧ requested setting invocation data = some edited ∧
      load setting (configAfter setting invocation) = .ok edited

/-! ## Documents that can be edited -/

def IsDict (value : Value) : Prop := ∃ fields, value = .dict fields

/-- What can be gone through as a list of hosts. -/
def IsHosts (value : Value) : Prop := ∃ items, value.iter = .ok items ∧ ∀ item ∈ items, IsDict item

/-- The entry has options, and whatever is on the way to the provider's hosts is a dictionary. -/
def Addable (provider : Str) : List Value → Prop
  | _ :: options :: _ => ∃ fields providers config, options = .dict fields ∧
      Fields.get fields (lit "providers") (.dict []) = .dict providers ∧
      Fields.get providers provider newProvider = .dict config ∧
      IsHosts (Fields.get config (lit "hosts") (.list []))
  | _ => False

/-- The options are a dictionary without this provider or with a list of its hosts. -/
def Removable (provider : Str) : List Value → Prop
  | _ :: options :: _ => ∃ fields, options = .dict fields ∧
      let providers := Fields.get fields (lit "providers") (.dict [])
      (providers.contains provider = .ok false ∨
        ∃ configs config hosts, providers = .dict configs ∧ Fields.find configs provider = some (.dict config) ∧
          Fields.find config (lit "hosts") = some (.list hosts) ∧ ∀ item ∈ hosts, IsDict item)
  | _ => True

/-- The document that was asked for can be printed. -/
def Printable (setting : Setting) (invocation : Invocation) (data : Value) : Prop :=
  ∀ edited, requested setting invocation data = some edited → edited.depth ≤ setting.maxDepth

/-- The configuration comes through: the script does not get as far as to write it, or it has an
    entry for the plugin and the program can edit that. -/
def Safe (setting : Setting) (invocation : Invocation) : Prop :=
  ∀ data, setting.loaded = some data → supportedMode data = .ok () →
    match invocation with
    | .init => ∃ items, pluginEntry data = some items
    | .add args => 3 ≤ args.length → ∃ items port, pluginEntry data = some items ∧
        Addable (Arguments.ofList args).provider items ∧ int (Arguments.ofList args).port = .ok port ∧
        Printable setting invocation data
    | .remove args => 2 ≤ args.length → ∀ items, pluginEntry data = some items →
        Removable (Arguments.ofList args).provider items ∧ Printable setting invocation data

end OpencodeRemote.Cli
