import OpencodeRemote.Cli.Algebra
import OpencodeRemote.Plugin.Config

/-! # From the command line to the plugin

The plugin is given the options of its entry as they stand in the configuration file, and
takes them to be of the type that it declares. For options that are, the edits of the script
are followed to the hosts that the plugin offers: an added host is offered as it was given, a
removed one is not, and the others are offered as before.

Numbers and strings are taken to survive being printed by Python and read by JavaScript.
-/

namespace OpencodeRemote.Cli

open Python Data
open Plugin (SSHInput HostInput ProviderInput PluginConfig SelectionStrategy HostConfig ResolvedPluginConfig
  ProviderConfig truthy validHost validProvider resolveConfig)

/-! ## The declared types -/

def IsText (value : Value) (text : String) : Prop := value = .str (lit text)

/-- JavaScript has this number exactly up to 2^53, far above any port. -/
def IsNumber (value : Value) (number : Nat) : Prop := value = .int number

def IsStrategy (value : Value) (_strategy : SelectionStrategy) : Prop := value = .str (lit "first_available")

section Containers

variable {α : Type}

def IsArray (is : Value → α → Prop) (value : Value) (elements : List α) : Prop :=
  ∃ items, value = .list items ∧ List.Forall₂ is items elements

def IsObject (has : Fields → α → Prop) (value : Value) (object : α) : Prop :=
  ∃ fields, value = .dict fields ∧ has fields object

/-- A property that may be missing. -/
def Property (is : Value → α → Prop) (key : String) (fields : Fields) (property : Option α) : Prop :=
  Option.Rel is (fields.find (lit key)) property

theorem Property.cases {is : Value → α → Prop} {key : String} {fields : Fields} {property : Option α}
    (holds : Property is key fields property) : fields.find (lit key) = none ∧ property = none ∨
      ∃ value a, fields.find (lit key) = some value ∧ property = some a ∧ is value a := by
  rw [Property] at holds
  cases stored : fields.find (lit key) <;> rw [stored] at holds <;> cases holds
  · exact .inl ⟨rfl, rfl⟩
  · rename_i holds
    exact .inr ⟨_, _, rfl, rfl, holds⟩

end Containers

structure SSHFields (fields : Fields) (ssh : SSHInput) : Prop where
  host : Property IsText "host" fields ssh.host
  user : Property IsText "user" fields ssh.user
  port : Property IsNumber "port" fields ssh.port
  identityFile : Property IsText "identityFile" fields ssh.identityFile
  proxyJump : Property IsText "proxyJump" fields ssh.proxyJump

structure HostFields (fields : Fields) (host : HostInput) : Prop where
  name : Property IsText "name" fields host.name
  aliases : Property (IsArray IsText) "aliases" fields host.aliases
  ssh : Property (IsObject SSHFields) "ssh" fields host.ssh
  labels : Property (IsArray IsText) "labels" fields host.labels

structure ProviderFields (fields : Fields) (provider : ProviderInput) : Prop where
  strategy : Property IsStrategy "strategy" fields provider.strategy
  labels : Property (IsArray IsText) "labels" fields provider.labels
  hosts : Property (IsArray (IsObject HostFields)) "hosts" fields provider.hosts

/-- The order in which JavaScript enumerates the properties is another one. -/
structure ProvidersFields (fields : Fields) (providers : OrderedMap String ProviderInput) : Prop where
  named : ∀ key value, fields.find key = some value → ∃ name, key = lit name
  each : ∀ name, Property (IsObject ProviderFields) name fields (providers.get name)

theorem providersFields_empty : ProvidersFields [] .empty := by
  refine ⟨fun key value stored => ?_, fun name => .none⟩
  cases stored

/-- The options are of the type that the plugin declares. The edits leave the rest of them alone. -/
def Reads (options : Fields) (input : PluginConfig) : Prop :=
  Property (IsObject ProvidersFields) "providers" options input.providers

/-! ## What is read is determined -/

theorem lit_injective : Function.Injective lit := by
  intro s s' same
  have chars : s.toList = s'.toList := List.map_injective_iff.mpr (fun c c' => Char.toNat_inj.mp) same
  exact String.toList_inj.mp chars

section Unique

open Relator

variable {α : Type}

theorem isText_unique : RightUnique IsText := by
  rintro _ text text' rfl same
  exact lit_injective (Value.str.inj same)

theorem isNumber_unique : RightUnique IsNumber := by
  rintro _ number number' rfl same
  exact Int.ofNat_inj.mp (Value.int.inj same)

theorem isArray_unique {is : Value → α → Prop} (unique : RightUnique is) : RightUnique (IsArray is) := by
  rintro _ elements elements' ⟨items, rfl, each⟩ ⟨_, same, each'⟩
  cases same
  exact unique.forall₂ each each'

theorem isObject_unique {has : Fields → α → Prop} (unique : RightUnique has) : RightUnique (IsObject has) := by
  rintro _ object object' ⟨fields, rfl, holds⟩ ⟨_, same, holds'⟩
  cases same
  exact unique holds holds'

theorem property_unique {is : Value → α → Prop} (unique : RightUnique is) (key : String) :
    RightUnique (Property is key) := by
  intro fields property property' first second
  rcases first.cases with ⟨absent, rfl⟩ | ⟨value, a, stored, rfl, holds⟩ <;>
    rcases second.cases with ⟨absent', rfl⟩ | ⟨value', a', stored', rfl, holds'⟩
  · rfl
  · cases absent.symm.trans stored'
  · cases absent'.symm.trans stored
  · cases stored.symm.trans stored'
    rw [unique holds holds']

theorem sshFields_unique : RightUnique SSHFields := by
  rintro fields ⟨⟩ ⟨⟩ first second
  cases property_unique isText_unique _ first.host second.host
  cases property_unique isText_unique _ first.user second.user
  cases property_unique isNumber_unique _ first.port second.port
  cases property_unique isText_unique _ first.identityFile second.identityFile
  cases property_unique isText_unique _ first.proxyJump second.proxyJump
  rfl

theorem hostFields_unique : RightUnique HostFields := by
  rintro fields ⟨⟩ ⟨⟩ first second
  cases property_unique isText_unique _ first.name second.name
  cases property_unique (isArray_unique isText_unique) _ first.aliases second.aliases
  cases property_unique (isObject_unique sshFields_unique) _ first.ssh second.ssh
  cases property_unique (isArray_unique isText_unique) _ first.labels second.labels
  rfl

end Unique

/-! ## What is offered -/

def listedIn (input : PluginConfig) (provider : String) : List HostInput :=
  ((input.providers.bind fun providers => providers.get provider).bind ProviderInput.hosts).getD []

/-- The hosts that the plugin offers in a provider, none if it does not know it. -/
def offeredIn (config : ResolvedPluginConfig) (provider : String) : List HostConfig :=
  ((config.providers.get provider).map ProviderConfig.hosts).getD []

section Offered

variable (resolve : String → String) (defaultStubBinary : String) (input : PluginConfig) (provider : String)

theorem hosts_of_validProvider (provider : ProviderInput) :
    ((validProvider provider).map ProviderConfig.hosts).getD [] = (provider.hosts.getD []).filterMap validHost := by
  rw [validProvider]
  split
  · rfl
  · rename_i none
    exact (not_not.mp none).symm

/-- The provider with its valid hosts, if it has any. -/
theorem get_resolveConfig : (resolveConfig resolve defaultStubBinary input).providers.get provider =
    (input.providers.bind fun providers => providers.get provider).bind validProvider := by
  unfold resolveConfig
  split
  · rename_i none
    rw [none]
    rfl
  · rename_i providers given
    rw [given, Option.bind_some]
    split
    · rename_i empty
      have none : providers.get provider = none := by rw [OrderedMap.get, List.map_eq_nil_iff.mp empty, List.lookup_nil]
      rw [none]
      rfl
    · dsimp only
      have found := OrderedMap.get_foldl_set validProvider providers.keysNodup .empty provider
      rw [OrderedMap.get_empty, Option.or_none] at found
      convert found using 3
      · funext validProviders entry
        cases validProvider entry.2 <;> rfl
      · rfl

theorem offeredIn_resolveConfig : offeredIn (resolveConfig resolve defaultStubBinary input) provider =
    (listedIn input provider).filterMap validHost := by
  rw [offeredIn, listedIn, get_resolveConfig]
  cases input.providers.bind fun providers => providers.get provider with
  | none => rfl
  | some provider => exact hosts_of_validProvider provider

end Offered

theorem name_of_validHost {input : HostInput} {host : HostConfig} (valid : validHost input = some host) :
    input.name = some host.name := by
  simp only [validHost, Option.bind_eq_bind, Option.bind_eq_some_iff] at valid
  obtain ⟨name, named, ssh, -, address, -, user, -, made⟩ := valid
  split at made
  · cases made
    exact named
  · cases made

/-- Names may be looked at before the hosts are checked. -/
theorem filter_validHost (p : Option String → Bool) (listed : List HostInput) :
    ((listed.filterMap validHost).filter fun host => p (some host.name)) =
      (listed.filter fun input => p input.name).filterMap validHost := by
  rw [List.filter_filterMap, List.filterMap_filter]
  refine List.filterMap_congr fun input _ => ?_
  cases valid : validHost input with
  | none => simp
  | some host =>
      rw [name_of_validHost valid, Option.filter_some]

/-! ## Options that are read -/

theorem isDict_of_each {α : Type} {has : Fields → α → Prop} {items : List Value} {objects : List α}
    (each : List.Forall₂ (IsObject has) items objects) : ∀ item ∈ items, IsDict item := by
  induction each with
  | nil => simp
  | cons first _ ih =>
      obtain ⟨fields, rfl, -⟩ := first
      exact List.forall_mem_cons.mpr ⟨⟨fields, rfl⟩, ih⟩

theorem ProviderFields.listed {fields : Fields} {provider : ProviderInput} (holds : ProviderFields fields provider) :
    Fields.get fields (lit "hosts") (.list []) = .list (hostsOf fields) ∧
      List.Forall₂ (IsObject HostFields) (hostsOf fields) (provider.hosts.getD []) := by
  rw [hostsOf, Fields.get]
  rcases holds.hosts.cases with ⟨absent, none⟩ | ⟨_, hosts, stored, given, items, rfl, each⟩
  · rw [absent, none]
    exact ⟨rfl, .nil⟩
  · rw [stored, given]
    exact ⟨rfl, each⟩

section Readable

variable {options : Fields} {input : PluginConfig} (reads : Reads options input)

include reads

theorem providers_of_reads : ∃ providers : OrderedMap String ProviderInput,
    ProvidersFields (providersOf options) providers ∧
      Fields.get options (lit "providers") (.dict []) = .dict (providersOf options) ∧
      ∀ name, (input.providers.bind fun providers => providers.get name) = providers.get name := by
  rw [providersOf, Fields.get]
  rcases reads.cases with ⟨absent, none⟩ | ⟨_, providers, stored, given, fields, rfl, holds⟩
  · rw [absent, none]
    exact ⟨.empty, providersFields_empty, rfl, fun _ => rfl⟩
  · rw [stored, given]
    exact ⟨providers, holds, rfl, fun _ => rfl⟩

theorem documented_of_reads : Documented options := by
  obtain ⟨providers, holds, given, -⟩ := providers_of_reads reads
  refine ⟨⟨_, given⟩, fun key value stored => ?_⟩
  obtain ⟨name, rfl⟩ := holds.named key value stored
  rcases (holds.each name).cases with ⟨absent, -⟩ | ⟨_, provider, stored', -, config, rfl, is⟩
  · cases absent.symm.trans stored
  · cases stored'.symm.trans stored
    obtain ⟨hosts, each⟩ := is.listed
    exact ⟨config, hostsOf config, rfl, hosts, isDict_of_each each⟩

theorem config_of_reads (name : String) :
    Option.Rel ProviderFields (configOf options (lit name)) (input.providers.bind fun providers => providers.get name) := by
  obtain ⟨providers, holds, -, same⟩ := providers_of_reads reads
  rw [configOf, same]
  rcases (holds.each name).cases with ⟨absent, none⟩ | ⟨_, provider, stored, given, config, rfl, is⟩
  · rw [absent, none]
    exact .none
  · rw [stored, given]
    exact .some is

theorem hosts_of_reads (provider : String) :
    List.Forall₂ (IsObject HostFields) (hostsIn options (lit provider)) (listedIn input provider) := by
  have read := config_of_reads reads provider
  rw [hostsIn, listedIn]
  generalize configOf options (lit provider) = config at read
  generalize (input.providers.bind fun providers => providers.get provider) = given at read
  cases read with
  | none => exact .nil
  | some is => exact is.listed.2

end Readable

/-! ## Edits that can be read -/

/-- The arguments are texts and the port is not negative. -/
inductive Edit.Typed : Edit → Prop
  | add (provider host sshHost user : String) (port : Nat) (identity : String) :
      Typed (.add (lit provider) (lit host) (lit sshHost) (lit user) port (lit identity))
  | remove (provider host : String) : Typed (.remove (lit provider) (lit host))

/-- The entry of an added host as the plugin reads it. -/
def addedInput (host sshHost user : String) (port : Nat) (identity : String) : HostInput :=
  ⟨some host, none, some ⟨some sshHost, some user, some port, truthy (some identity), none⟩, none⟩

theorem isObject_hostEntry (host sshHost user : String) (port : Nat) (identity : String) :
    IsObject HostFields (hostEntry (lit host) (lit sshHost) (lit user) port (lit identity))
      (addedInput host sshHost user port identity) := by
  refine ⟨_, rfl, .some rfl, .none, .some ⟨_, rfl, ?_⟩, .none⟩
  by_cases empty : identity = ""
  · subst empty
    exact ⟨.some rfl, .some rfl, .some rfl, .none, .none⟩
  · have given : lit identity ≠ [] := fun none => empty (lit_injective none)
    change SSHFields _ ⟨some sshHost, some user, some port, truthy (some identity), none⟩
    rw [if_pos given, Plugin.truthy_some empty]
    exact ⟨.some rfl, .some rfl, .some rfl, .some rfl, .none⟩

/-- The host goes by this name. -/
def goesBy (name : Str) (input : HostInput) : Bool := input.name.any fun text => lit text = name

theorem isNamed_eq_goesBy {item : Value} {input : HostInput} (is : IsObject HostFields item input) (name : Str) :
    isNamed name item = goesBy name input := by
  obtain ⟨fields, rfl, holds⟩ := is
  rw [isNamed, goesBy, Fields.get]
  rcases holds.name.cases with ⟨absent, none⟩ | ⟨_, text, stored, given, rfl⟩
  · rw [absent, none]
    rfl
  · rw [stored, given]
    rfl

/-- Hosts may be filtered before they are read. -/
theorem each_filter {p : Value → Bool} {q : HostInput → Bool}
    (same : ∀ {item input}, IsObject HostFields item input → p item = q input) {items : List Value}
    {inputs : List HostInput} (each : List.Forall₂ (IsObject HostFields) items inputs) :
    List.Forall₂ (IsObject HostFields) (items.filter p) (inputs.filter q) := by
  refine List.rel_filter (fun item input is => ?_) each
  change p item = true ↔ q input = true
  rw [same is]

section Step

variable {options : Fields} {input : PluginConfig} {edit : Edit}

theorem exists_read_entry (typed : edit.Typed) :
    ∃ added, List.Forall₂ (IsObject HostFields) edit.entry.toList added := by
  cases typed with
  | add provider host sshHost user port identity =>
      exact ⟨_, .cons (isObject_hostEntry host sshHost user port identity) .nil⟩
  | remove provider host => exact ⟨_, .nil⟩

theorem exists_read_config (reads : Reads options input) {name : String} (own : edit.provider = lit name)
    {config : Fields} (found : edit.config options = some config) : ∃ provider, ProviderFields config provider := by
  rcases Option.or_eq_some_iff.mp found with present | ⟨-, fresh⟩
  · have read := config_of_reads reads name
    rw [← own, present] at read
    generalize (input.providers.bind fun providers => providers.get name) = given at read
    cases read with
    | some is => exact ⟨_, is⟩
  · cases edit with
    | add =>
        cases fresh
        exact ⟨⟨some .firstAvailable, none, some []⟩, .some rfl, .none, .some ⟨_, rfl, .nil⟩⟩
    | remove => cases fresh

/-- Other hosts in a provider. -/
theorem ProviderFields.setHosts {config : Fields} {provider : ProviderInput} (is : ProviderFields config provider)
    {items : List Value} {hosts : List HostInput} (each : List.Forall₂ (IsObject HostFields) items hosts) :
    ProviderFields (config.setItem (lit "hosts") (.list items)) { provider with hosts := some hosts } where
  strategy := by
    rw [Property, Fields.find_setItem, if_neg (by decide)]
    exact is.strategy
  labels := by
    rw [Property, Fields.find_setItem, if_neg (by decide)]
    exact is.labels
  hosts := by
    rw [Property, Fields.find_setItem_self]
    exact .some ⟨items, rfl, each⟩

theorem ProvidersFields.set {fields config : Fields} {providers : OrderedMap String ProviderInput}
    (holds : ProvidersFields fields providers) (name : String) {provider : ProviderInput}
    (is : ProviderFields config provider) :
    ProvidersFields (fields.setItem (lit name) (.dict config)) (providers.set name provider) where
  named key value stored := by
    rw [Fields.find_setItem] at stored
    split at stored
    · rename_i same
      exact ⟨name, same⟩
    · exact holds.named key value stored
  each other := by
    rw [Property, Fields.find_setItem, OrderedMap.get_set]
    by_cases same : other = name
    · subst same
      rw [if_pos rfl, if_pos rfl]
      exact .some ⟨config, rfl, is⟩
    · rw [if_neg (lit_injective.ne same), if_neg same]
      exact holds.each other

/-- An edit leaves options that can be read. -/
theorem exists_reads_applyTo (typed : edit.Typed) (reads : Reads options input) :
    ∃ input', Reads (edit.applyTo options) input' := by
  rw [Edit.applyTo]
  cases found : edit.config options with
  | none => exact ⟨input, reads⟩
  | some config =>
      obtain ⟨name, own⟩ : ∃ name, edit.provider = lit name := by cases typed <;> exact ⟨_, rfl⟩
      obtain ⟨provider, is⟩ := exists_read_config reads own found
      obtain ⟨added, entries⟩ := exists_read_entry typed
      obtain ⟨providers, holds, -, -⟩ := providers_of_reads reads
      have kept := each_filter (p := fun item => !isNamed edit.host item) (q := fun input => !goesBy edit.host input)
        (fun is => by rw [isNamed_eq_goesBy is]) is.listed.2
      let hosts := (provider.hosts.getD []).filter (fun input => !goesBy edit.host input) ++ added
      have edited := holds.set name (is.setHosts (List.rel_append kept entries : List.Forall₂ _ _ hosts))
      refine ⟨{ input with providers := some (providers.set name { provider with hosts := some hosts }) }, ?_⟩
      dsimp only
      rw [Reads, Property, setHosts, Fields.find_setItem_self, own]
      exact .some ⟨_, rfl, edited⟩

theorem exists_reads_applyAllTo {edits : List Edit} (typed : ∀ edit ∈ edits, edit.Typed) (reads : Reads options input) :
    ∃ input', Reads (applyAllTo edits options) input' := by
  induction edits generalizing options input with
  | nil => exact ⟨input, reads⟩
  | cons first rest ih =>
      obtain ⟨here, later⟩ := List.forall_mem_cons.mp typed
      obtain ⟨input', reads'⟩ := exists_reads_applyTo here reads
      exact ih later reads'

end Step

/-! ## What the edits come to -/

/-- One of the edits is about the host. -/
def edited (edits : List Edit) (provider name : String) : Bool :=
  edits.any fun edit => edit.provider = lit provider && edit.host = lit name

/-- What a sequence of edits makes of the hosts that the plugin offers in each provider. -/
structure HandedOver (edits : List Edit) (offered offered' : String → List HostConfig) : Prop where
  /-- A host that was added last is offered as it was given, if the plugin takes it to be valid. -/
  added : ∀ provider host sshHost user port identity, lastEdit (lit provider) (lit host) edits =
      some (.add (lit provider) (lit host) (lit sshHost) (lit user) (port : Nat) (lit identity)) →
    (offered' provider).filter (fun item => item.name = host) =
      (validHost (addedInput host sshHost user port identity)).toList
  removed : ∀ provider host,
    lastEdit (lit provider) (lit host) edits = some (.remove (lit provider) (lit host)) →
      (offered' provider).filter (fun item => item.name = host) = []
  untouched : ∀ provider, ((offered' provider).filter fun item => !edited edits provider item.name) =
    (offered provider).filter fun item => !edited edits provider item.name

section Outcome

variable {resolve : String → String} {defaultStubBinary : String} {edits : List Edit} {options options' : Fields}
  {input input' : PluginConfig} {provider : String}

/-- Of a host that was edited, what the last edit has put there is offered. -/
theorem filter_offeredIn_of_last (outcome : Outcome edits options options') (reads' : Reads options' input')
    {host : String} {edit : Edit} (found : lastEdit (lit provider) (lit host) edits = some edit)
    {added : List HostInput} (entries : List.Forall₂ (IsObject HostFields) edit.entry.toList added) :
    (offeredIn (resolveConfig resolve defaultStubBinary input') provider).filter (fun item => item.name = host) =
      added.filterMap validHost := by
  have each := each_filter (fun is => isNamed_eq_goesBy is (lit host)) (hosts_of_reads reads' provider)
  rw [outcome.last _ _ _ found] at each
  have same := (isObject_unique hostFields_unique).forall₂ each entries
  have named := filter_validHost (fun name => name.any fun text => lit text = lit host) (listedIn input' provider)
  rw [offeredIn_resolveConfig, ← same]
  refine Eq.trans (List.filter_congr fun item _ => ?_) named
  exact decide_eq_decide.mpr lit_injective.eq_iff.symm

theorem filter_offeredIn_of_untouched (outcome : Outcome edits options options') (reads : Reads options input)
    (reads' : Reads options' input') :
    ((offeredIn (resolveConfig resolve defaultStubBinary input') provider).filter fun item =>
        !edited edits provider item.name) =
      (offeredIn (resolveConfig resolve defaultStubBinary input) provider).filter fun item =>
        !edited edits provider item.name := by
  let free (name : Option String) : Bool :=
    edits.all fun edit => edit.provider ≠ lit provider || !name.any fun text => lit text = edit.host
  have alike {item : Value} {input : HostInput} (is : IsObject HostFields item input) :
      (edits.all fun edit => edit.provider ≠ lit provider || !isNamed edit.host item) = free input.name := by
    refine List.all_congr rfl fun edit => ?_
    rw [isNamed_eq_goesBy is, goesBy]
  have each := each_filter (q := fun input => free input.name) alike (hosts_of_reads reads provider)
  have each' := each_filter (q := fun input => free input.name) alike (hosts_of_reads reads' provider)
  rw [outcome.order] at each'
  have same := (isObject_unique hostFields_unique).forall₂ each' each
  have kept (name : String) : (!edited edits provider name) = free (some name) := by
    rw [edited, List.not_any_eq_all_not]
    refine List.all_congr rfl fun edit => ?_
    simp [eq_comm]
  simp only [offeredIn_resolveConfig, kept]
  rw [filter_validHost free, filter_validHost free, same]

end Outcome

namespace Frame

theorem optionsOf_document (frame : Frame) (options : Fields) : optionsOf (frame.document options) = some options := by
  rw [optionsOf, document, (frame.located options).pluginEntry]

end Frame

section Documents

variable {data : Value} {options : Fields} {input : PluginConfig} {edits : List Edit}
  (found : optionsOf data = some options) (reads : Reads options input)

include found reads

/-- The edits do not fail, and they are made to the options. -/
theorem applyAll_of_reads (edits : List Edit) : ∃ data', applyAll edits data = .ok data' ∧
    optionsOf data' = some (applyAllTo edits options) := by
  obtain ⟨frame, rfl⟩ := framed found
  exact ⟨_, frame.applyAll_document (documented_of_reads reads) edits, frame.optionsOf_document _⟩

theorem handed_over {data' : Value} {options' : Fields} (applied : applyAll edits data = .ok data')
    (found' : optionsOf data' = some options') {input' : PluginConfig} (reads' : Reads options' input')
    (resolve : String → String) (defaultStubBinary : String) :
    HandedOver edits (offeredIn (resolveConfig resolve defaultStubBinary input))
      (offeredIn (resolveConfig resolve defaultStubBinary input')) := by
  obtain ⟨_, applied', found''⟩ := applyAll_of_reads found reads edits
  cases applied.symm.trans applied'
  cases found'.symm.trans found''
  have outcome := outcome_applyAllTo edits options
  refine ⟨?_, ?_, fun provider => filter_offeredIn_of_untouched outcome reads reads'⟩
  · intro provider host sshHost user port identity last
    refine (filter_offeredIn_of_last outcome reads' last
      (.cons (isObject_hostEntry host sshHost user port identity) .nil)).trans ?_
    cases valid : validHost (addedInput host sshHost user port identity) <;> simp [valid]
  · intro provider host last
    exact filter_offeredIn_of_last outcome reads' last .nil

end Documents

/-- The script leaves options that the plugin can read, and the plugin offers the hosts that the
    edits ask for. -/
theorem edits_reach_the_plugin {data : Value} {options : Fields} {input : PluginConfig} {edits : List Edit}
    (found : optionsOf data = some options) (reads : Reads options input) (typed : ∀ edit ∈ edits, edit.Typed) :
    ∃ data' options', applyAll edits data = .ok data' ∧ optionsOf data' = some options' ∧
      (∃ input', Reads options' input') ∧ ∀ input', Reads options' input' → ∀ resolve defaultStubBinary,
        HandedOver edits (offeredIn (resolveConfig resolve defaultStubBinary input))
          (offeredIn (resolveConfig resolve defaultStubBinary input')) := by
  obtain ⟨data', applied, found'⟩ := applyAll_of_reads found reads edits
  exact ⟨data', _, applied, found', exists_reads_applyAllTo typed reads,
    fun _ reads' => handed_over found reads applied found' reads'⟩

/-! A host is added to a provider that has none. -/

def labInput (hosts : Option (List HostInput)) : PluginConfig :=
  ⟨none, none, none, none, some (OrderedMap.empty.set "lab" ⟨none, none, hosts⟩)⟩

def webAdded : List Edit := [.add (lit "lab") (lit "web") (lit "10.0.0.2") (lit "ops") (22 : Nat) (lit "")]

theorem reads_labInput : Reads [(lit "providers", .dict [(lit "lab", .dict [])])] (labInput none) := by
  have bare : ProviderFields [] ⟨none, none, none⟩ := ⟨.none, .none, .none⟩
  exact .some ⟨_, rfl, providersFields_empty.set "lab" bare⟩

theorem typed_webAdded : ∀ edit ∈ webAdded, edit.Typed :=
  List.forall_mem_singleton.mpr (.add "lab" "web" "10.0.0.2" "ops" 22 "")

/-- The options that the script leaves. -/
def webOptions : Fields :=
  [(lit "providers", .dict [(lit "lab", .dict
    [(lit "hosts", .list [hostEntry (lit "web") (lit "10.0.0.2") (lit "ops") (22 : Nat) (lit "")])])])]

theorem reads_webOptions : Reads webOptions (labInput (some [addedInput "web" "10.0.0.2" "ops" 22 ""])) := by
  have bare : ProviderFields [] ⟨none, none, none⟩ := ⟨.none, .none, .none⟩
  have added := isObject_hostEntry "web" "10.0.0.2" "ops" 22 ""
  exact .some ⟨_, rfl, providersFields_empty.set "lab" (bare.setHosts (.cons added .nil))⟩

theorem webAdded_reaches_the_plugin :
    ∃ data' options', applyAll webAdded twoPlugins = .ok data' ∧ optionsOf data' = some options' ∧
      (∃ input', Reads options' input') ∧ ∀ input', Reads options' input' → ∀ resolve defaultStubBinary,
        HandedOver webAdded (offeredIn (resolveConfig resolve defaultStubBinary (labInput none)))
          (offeredIn (resolveConfig resolve defaultStubBinary input')) :=
  edits_reach_the_plugin rfl reads_labInput typed_webAdded

end OpencodeRemote.Cli
