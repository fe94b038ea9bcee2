import OpencodeRemote.Cli.Preservation
import OpencodeRemote.Data.NamedItems

/-! # The edits of the options

On options of the documented shape the edits of `cmd_add` and `cmd_remove` never fail. To the
hosts of a provider each of them is a replacement of the items of one name.
-/

namespace OpencodeRemote.Cli

open Python Data

/-! ## Edits -/

inductive Edit where
  | add (provider host sshHost user : Str) (port : Int) (identity : Str)
  | remove (provider host : Str)

namespace Edit

def provider : Edit → Str
  | .add provider _ _ _ _ _ => provider
  | .remove provider _ => provider

def host : Edit → Str
  | .add _ host _ _ _ _ => host
  | .remove _ host => host

/-- The entry that an edit puts at the end. -/
def entry : Edit → Option Value
  | .add _ host sshHost user port identity => some (hostEntry host sshHost user port identity)
  | .remove _ _ => none

def program : Edit → List Value → Except Exception (List Value)
  | .add provider host sshHost user port identity =>
      addToEntry provider host (hostEntry host sshHost user port identity)
  | .remove provider host => removeFromEntry provider host

/-- What the Python program makes of the document. -/
def apply (edit : Edit) (data : Value) : Except Exception Value := editDocument edit.program data

/-- Between reading and printing, the programs of the script are edits. -/
theorem addProgram_eq (setting : Setting) {arguments : Arguments} {port : Int}
    (converted : int arguments.port = .ok port) (config : Contents) :
    addProgram setting arguments config = (do
      let data ← load setting config
      let edit : Edit := .add arguments.provider arguments.host (orElse setting.sshHost arguments.host)
        arguments.user port arguments.identity
      dumps setting (← edit.apply data)) := by
  rw [addProgram, converted]
  rfl

theorem removeProgram_eq (setting : Setting) (arguments : Arguments) (config : Contents) :
    removeProgram setting arguments config = (do
      let data ← load setting config
      dumps setting (← (Edit.remove arguments.provider arguments.host).apply data)) := rfl

/-- The edit as one of a list of hosts. -/
def replacement (edit : Edit) : Replacement isNamed where
  name := edit.host
  item := edit.entry
  own := by
    cases edit with
    | add provider host sshHost user port identity =>
        rintro _ ⟨⟩
        simp [Edit.host, hostEntry, isNamed, Fields.get, Fields.find, Value.isStr]
    | remove provider host =>
        rintro _ ⟨⟩

theorem isDict_of_entry (edit : Edit) {item : Value} (added : item ∈ edit.entry) : IsDict item := by
  cases edit with
  | add =>
      cases added
      exact ⟨_, rfl⟩
  | remove => cases added

end Edit

/-- No host goes by two names. -/
theorem isNamed_unique (name other : Str) (item : Value) (first : isNamed name item = true)
    (second : isNamed other item = true) : name = other := by
  cases item with
  | dict fields =>
      simp only [isNamed] at first second
      cases value : Fields.get fields (lit "name") .none <;> rw [value] at first second <;>
        simp_all [Value.isStr]
  | _ => cases first

/-! ## Options -/

def providersOf (options : Fields) : Fields :=
  match options.get (lit "providers") (.dict []) with
  | .dict providers => providers
  | _ => []

def configOf (options : Fields) (provider : Str) : Option Fields :=
  match (providersOf options).find provider with
  | some (.dict config) => some config
  | _ => none

def hostsOf (config : Fields) : List Value :=
  match Fields.get config (lit "hosts") (.list []) with
  | .list hosts => hosts
  | _ => []

/-- The documented shape of a provider: its hosts are a list of objects, or there are none. -/
def IsProvider (value : Value) : Prop := ∃ config hosts, value = .dict config ∧
  Fields.get config (lit "hosts") (.list []) = .list hosts ∧ ∀ host ∈ hosts, IsDict host

structure Documented (options : Fields) : Prop where
  providers : ∃ providers, options.get (lit "providers") (.dict []) = .dict providers
  configs : ∀ provider value, (providersOf options).find provider = some value → IsProvider value

/-- The options with these hosts in a provider of which this is the rest. -/
def setHosts (options : Fields) (provider : Str) (config : Fields) (hosts : List Value) : Fields :=
  options.setItem (lit "providers") (.dict ((providersOf options).setItem provider
    (.dict (config.setItem (lit "hosts") (.list hosts)))))

def newConfig : Fields := [(lit "strategy", .str (lit "first_available")), (lit "hosts", .list [])]

namespace Edit

/-- What an edit makes of a provider that is not there. -/
def fresh : Edit → Option Fields
  | .add .. => some newConfig
  | .remove .. => none

/-- The provider that is edited. -/
def config (edit : Edit) (options : Fields) : Option Fields := (configOf options edit.provider).or edit.fresh

def applyTo (edit : Edit) (options : Fields) : Fields :=
  match edit.config options with
  | some config => setHosts options edit.provider config (edit.replacement.apply (hostsOf config))
  | none => options

end Edit

/-- The programs go through the hosts of a provider. -/
theorem IsProvider.others {config : Fields} (isProvider : IsProvider (.dict config)) (host : Str) :
    others host (Fields.get config (lit "hosts") (.list [])) =
      .ok ((hostsOf config).filter fun item => !isNamed host item) := by
  obtain ⟨_, hosts, same, found, dicts⟩ := isProvider
  cases same
  rw [hostsOf, found, Cli.others, Value.iter, ok_bind, othersLoop_eq dicts]

section Options

variable {options : Fields} (documented : Documented options)

include documented

theorem get_providers : options.get (lit "providers") (.dict []) = .dict (providersOf options) := by
  obtain ⟨providers, found⟩ := documented.providers
  rw [providersOf, found]

/-- The provider that an edit changes, as the programs find it. -/
theorem isProvider_config {edit : Edit} {config : Fields} (found : edit.config options = some config) :
    IsProvider (.dict config) := by
  rcases Option.or_eq_some_iff.mp found with present | ⟨-, fresh⟩
  · rw [configOf] at present
    split at present
    · rename_i stored
      cases present
      exact documented.configs _ _ stored
    · cases present
  · cases edit with
    | add =>
        cases fresh
        exact ⟨newConfig, [], rfl, rfl, fun _ impossible => nomatch impossible⟩
    | remove => cases fresh

theorem find_provider (provider : Str) :
    (providersOf options).find provider = (configOf options provider).map Value.dict := by
  rw [configOf]
  cases stored : (providersOf options).find provider with
  | none => rfl
  | some value =>
      obtain ⟨config, hosts, rfl, -⟩ := documented.configs provider value stored
      rfl

/-- An addition has a provider to change, the one that `setdefault` gives the program. -/
theorem added_config (provider host sshHost user : Str) (port : Int) (identity : Str) :
    ∃ config, (Edit.add provider host sshHost user port identity).config options = some config ∧
      (providersOf options).get provider newProvider = .dict config := by
  rw [Fields.get, find_provider documented provider]
  cases present : configOf options provider with
  | none => exact ⟨newConfig, by rw [Edit.config, Edit.provider, present]; rfl, rfl⟩
  | some config => exact ⟨config, by rw [Edit.config, Edit.provider, present]; rfl, rfl⟩

theorem program_eq (edit : Edit) (name : Value) (more : List Value) :
    edit.program (name :: .dict options :: more) = .ok (name :: .dict (edit.applyTo options) :: more) := by
  have providers := get_providers documented
  cases edit with
  | add provider host sshHost user port identity =>
      obtain ⟨config, chosen, given⟩ := added_config documented provider host sshHost user port identity
      have kept := (isProvider_config documented chosen).others host
      simp only [Edit.program, addToEntry, Value.asDict, ok_bind, providers, given, kept, Edit.applyTo, chosen]
      rfl
  | remove provider host =>
      have stored := find_provider documented provider
      cases present : configOf options provider with
      | none =>
          rw [present] at stored
          simp only [Edit.program, removeFromEntry, Value.asDict, ok_bind, providers, Value.contains, stored,
            Edit.provider, present, Edit.applyTo, Edit.config]
          rfl
      | some config =>
          have chosen : (Edit.remove provider host).config options = some config := by
            rw [Edit.config, Edit.provider, present]
            rfl
          have kept := (isProvider_config documented chosen).others host
          rw [present, Option.map_some] at stored
          simp only [Edit.program, removeFromEntry, Value.asDict, ok_bind, providers, Value.contains, stored,
            Edit.applyTo, chosen, Option.isSome_some, if_true]
          rw [Fields.get, stored, Option.getD_some]
          simp only [ok_bind, kept, pure_eq_ok, setHosts, Edit.provider, Replacement.apply, Edit.replacement,
            Edit.host, Edit.entry, Option.toList_none, List.append_nil]

end Options

/-! ## What an edit changes in the options -/

section Changes

variable (options : Fields) (provider : Str) (config : Fields) (hosts : List Value)

@[simp] theorem hostsOf_setItem : hostsOf (config.setItem (lit "hosts") (.list hosts)) = hosts := by
  rw [hostsOf, Fields.get, Fields.find_setItem_self]
  rfl

theorem hostsOf_newConfig : hostsOf newConfig = [] := rfl

@[simp] theorem providersOf_setItem (providers : Fields) :
    providersOf (options.setItem (lit "providers") (.dict providers)) = providers := by
  rw [providersOf, Fields.get, Fields.find_setItem_self]
  rfl

theorem configOf_setHosts (other : Str) : configOf (setHosts options provider config hosts) other =
    if other = provider then some (config.setItem (lit "hosts") (.list hosts)) else configOf options other := by
  rw [configOf, setHosts, providersOf_setItem, Fields.find_setItem]
  by_cases same : other = provider
  · rw [if_pos same, if_pos same]
  · rw [if_neg same, if_neg same, configOf]

variable (edit : Edit)

theorem configOf_applyTo_self : configOf (edit.applyTo options) edit.provider =
    (edit.config options).map fun config =>
      config.setItem (lit "hosts") (.list (edit.replacement.apply (hostsOf config))) := by
  cases chosen : edit.config options with
  | some config =>
      rw [Edit.applyTo, chosen]
      dsimp only
      rw [configOf_setHosts, if_pos rfl, Option.map_some]
  | none =>
      rw [Edit.applyTo, chosen]
      exact (Option.or_eq_none_iff.mp chosen).1

theorem configOf_applyTo_of_ne {other : Str} (different : other ≠ edit.provider) :
    configOf (edit.applyTo options) other = configOf options other := by
  cases chosen : edit.config options with
  | some config =>
      rw [Edit.applyTo, chosen]
      dsimp only
      rw [configOf_setHosts, if_neg different]
  | none => rw [Edit.applyTo, chosen]

/-- The hosts of a provider, none if it is not there. -/
def hostsIn (options : Fields) (provider : Str) : List Value := ((configOf options provider).map hostsOf).getD []

/-- To the hosts of its provider, an edit is a replacement. -/
theorem hostsIn_applyTo (other : Str) : hostsIn (edit.applyTo options) other =
    if other = edit.provider then edit.replacement.apply (hostsIn options other) else hostsIn options other := by
  by_cases same : other = edit.provider
  · rw [if_pos same, same, hostsIn, configOf_applyTo_self, hostsIn, Edit.config]
    cases present : configOf options edit.provider with
    | some config => simp
    | none =>
        cases edit with
        | add => simp [Edit.fresh, hostsOf_newConfig]
        | remove => rfl
  · rw [if_neg same, hostsIn, configOf_applyTo_of_ne options edit same, hostsIn]

theorem Documented.applyTo {options : Fields} (documented : Documented options) (edit : Edit) :
    Documented (edit.applyTo options) := by
  cases chosen : edit.config options with
  | none =>
      rw [Edit.applyTo, chosen]
      exact documented
  | some config =>
      obtain ⟨_, hosts, same, listed, dicts⟩ := isProvider_config documented chosen
      rw [Edit.applyTo, chosen]
      dsimp only
      refine ⟨⟨_, by rw [setHosts, Fields.get, Fields.find_setItem_self]; rfl⟩, ?_⟩
      intro provider value stored
      rw [setHosts, providersOf_setItem, Fields.find_setItem] at stored
      split at stored
      · cases stored
        refine ⟨_, _, rfl, by rw [Fields.get, Fields.find_setItem_self]; rfl, fun host member => ?_⟩
        cases same
        rw [hostsOf, listed] at member
        rcases List.mem_append.mp member with kept | added
        · exact dicts host (List.mem_of_mem_filter kept)
        · exact edit.isDict_of_entry (Option.mem_toList.mp added)
      · exact documented.configs provider value stored

end Changes

/-! ## Two edits of one host -/

theorem setItem_setItem (fields : Fields) (key : Str) (first second : Value) :
    (fields.setItem key first).setItem key second = fields.setItem key second :=
  OrderedMap.writeEntry_writeEntry key first second fields

theorem setHosts_setHosts (options : Fields) (provider : Str) (config : Fields) (first second : List Value) :
    setHosts (setHosts options provider config first) provider (config.setItem (lit "hosts") (.list first)) second =
      setHosts options provider config second := by
  simp only [setHosts, providersOf_setItem, setItem_setItem]

/-- The second edit finds the provider that the first one has left, and only it matters. -/
theorem applyTo_applyTo {first second : Edit} (provider : first.provider = second.provider)
    (host : first.host = second.host) {options config : Fields} (found : first.config options = some config) :
    second.applyTo (first.applyTo options) =
      setHosts options second.provider config (second.replacement.apply (hostsOf config)) := by
  have chosen : second.config (first.applyTo options) =
      some (config.setItem (lit "hosts") (.list (first.replacement.apply (hostsOf config)))) := by
    rw [Edit.config, ← provider, configOf_applyTo_self, found]
    rfl
  have left : first.applyTo options =
      setHosts options second.provider config (first.replacement.apply (hostsOf config)) := by
    rw [Edit.applyTo, found, provider]
  rw [Edit.applyTo, chosen, left]
  dsimp only
  have named : first.replacement.name = second.replacement.name := host
  rw [setHosts_setHosts, hostsOf_setItem, Replacement.apply_apply named]

/-- `d.setdefault(key, default)`. -/
def setdefault (fields : Fields) (key : Str) (default : Value) : Fields :=
  fields.setItem key (fields.get key default)

/-- The options with the provider, a new one if it is not there. -/
def ensured (provider : Str) (options : Fields) : Fields :=
  options.setItem (lit "providers") (.dict (setdefault (providersOf options) provider newProvider))

theorem Documented.ensured {options : Fields} (documented : Documented options) (provider : Str) :
    Documented (ensured provider options) := by
  refine ⟨⟨_, by rw [Cli.ensured, Fields.get, Fields.find_setItem_self]; rfl⟩, fun other value stored => ?_⟩
  rw [Cli.ensured, providersOf_setItem, setdefault, Fields.find_setItem] at stored
  split at stored
  · cases stored
    rw [Fields.get]
    cases present : (providersOf options).find provider with
    | none => exact ⟨newConfig, [], rfl, rfl, fun _ impossible => nomatch impossible⟩
    | some value => exact documented.configs provider value present
  · exact documented.configs other value stored

theorem add_add {add : Edit} (adds : add.fresh = some newConfig) (options : Fields) :
    add.applyTo (add.applyTo options) = add.applyTo options := by
  obtain ⟨config, found⟩ : ∃ config, add.config options = some config := by
    rw [Edit.config, adds]
    cases configOf options add.provider <;> exact ⟨_, rfl⟩
  rw [applyTo_applyTo rfl rfl found, Edit.applyTo, found]

theorem remove_add {options : Fields} (documented : Documented options) (provider host sshHost user : Str)
    (port : Int) (identity : Str) :
    (Edit.remove provider host).applyTo ((Edit.add provider host sshHost user port identity).applyTo options) =
      (Edit.remove provider host).applyTo (ensured provider options) := by
  obtain ⟨config, found, given⟩ := added_config documented provider host sshHost user port identity
  have present : (Edit.remove provider host).config (ensured provider options) = some config := by
    rw [Edit.config, ensured, setdefault, given, configOf, providersOf_setItem, Edit.provider,
      Fields.find_setItem_self]
    rfl
  have both := @applyTo_applyTo (.add provider host sshHost user port identity) (.remove provider host) rfl rfl
    options config found
  rw [both, Edit.applyTo, present]
  simp only [Edit.provider, setHosts, ensured, setdefault, given, providersOf_setItem, setItem_setItem]

end OpencodeRemote.Cli
