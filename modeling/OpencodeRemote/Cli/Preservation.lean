import OpencodeRemote.Cli.Edits

/-! # When the configuration is preserved -/

namespace OpencodeRemote.Cli

open Python

/-! ## The shell's part -/

theorem not_isEntry {entry : Value} (other : ∀ target more, entry = .list (target :: more) → False) :
    isEntry entry = false := by
  cases entry with
  | list items =>
      cases items with
      | nil => rfl
      | cons target more => exact absurd rfl (other target more)
  | _ => rfl

theorem firstEntry_isSome (entries : List Value) : (firstEntry entries).isSome = entries.any isEntry := by
  fun_induction firstEntry entries with
  | case1 => rfl
  | case2 target more rest own => simp [isEntry, own]
  | case3 target more rest other ih => simp [isEntry, other, ih]
  | case4 entry rest other ih =>
      simp [not_isEntry other, ih]

theorem hasPluginLoop_status (entries : List Value) :
    Shell.status (hasPluginLoop entries) = 0 ↔ entries.any isEntry = true := by
  induction entries with
  | nil => simp [hasPluginLoop, Shell.status]
  | cons entry rest ih =>
      by_cases own : isEntry entry = true
      · simp [hasPluginLoop, own, Shell.status]
      · simp [hasPluginLoop, own, ih]

namespace Shell

variable {α β : Type}

theorem run_bind (first : Shell α) (next : α → Shell β) (config : Contents) :
    (first >>= next).run.run config = match first.run.run config with
      | (.ok a, config') => (next a).run.run config'
      | (.error status, config') => (.error status, config') := by
  change (ExceptT.bindCont next (first.run.run config).1).run (first.run.run config).2 = _
  obtain ⟨outcome, config'⟩ := first.run.run config
  cases outcome <;> rfl

theorem run_check (program : Contents → Except Exception Unit) (config : Contents) :
    (check program).run.run config =
      (if status (program config) = 0 then .ok () else .error (status (program config)), config) := by
  by_cases ok : status (program config) = 0
  · rw [if_pos ok]
    change ((if status (program config) ≠ 0 then throw _ else pure ()) : Shell Unit).run.run config = _
    rw [if_neg (not_not.mpr ok)]
    rfl
  · rw [if_neg ok]
    change ((if status (program config) ≠ 0 then throw _ else pure ()) : Shell Unit).run.run config = _
    rw [if_pos ok]
    rfl

theorem run_succeeds (program : Contents → Except Exception Unit) (config : Contents) :
    (succeeds program).run.run config = (.ok (decide (status (program config) = 0)), config) := rfl

end Shell

/-! ## Entries -/

theorem plugins_of_supported {data : Value} (supported : supportedMode data = .ok ()) :
    ∃ entries, plugins data = .ok entries := by
  cases listed : plugins data with
  | error e => simp [supportedMode, listed] at supported
  | ok entries => exact ⟨entries, rfl⟩

theorem supported_of_status {data : Value} (passed : Shell.status (supportedMode data) = 0) :
    supportedMode data = .ok () := by
  cases listed : plugins data with
  | error e =>
      have raised : e = .attributeError ∨ e = .typeError := by
        cases data with
        | dict fields =>
            simp only [plugins, Value.asDict, ok_bind] at listed
            cases value : Fields.get fields (lit "plugin") (.list []) <;> rw [value] at listed <;> cases listed <;>
              exact .inr rfl
        | _ =>
            cases listed
            exact .inl rfl
      rw [supportedMode, listed] at passed
      cases raised with
      | inl noAttribute => simp [noAttribute, Shell.status] at passed
      | inr wrongType => simp [wrongType, Shell.status] at passed
  | ok entries =>
      simp only [supportedMode, listed, ok_bind] at passed ⊢
      split at passed
      · cases passed
      · rename_i single
        rw [if_neg single]
        rfl

/-- The entry is found by the programs if there is one. -/
theorem pluginEntry_isSome {data : Value} {entries : List Value} (listed : plugins data = .ok entries) :
    (pluginEntry data).isSome = entries.any isEntry := by
  cases data with
  | dict fields =>
      simp only [plugins, Value.asDict, ok_bind] at listed
      simp only [pluginEntry]
      cases value : Fields.get fields (lit "plugin") (.list []) with
      | list items =>
          rw [value] at listed
          cases listed
          exact firstEntry_isSome entries
      | str s =>
          rw [value] at listed
          cases listed
          simp [isEntry]
      | dict fields =>
          rw [value] at listed
          cases listed
          simp [isEntry]
      | _ =>
          rw [value] at listed
          cases listed
  | _ => cases listed

section Runs

variable {setting : Setting} {data : Value}

theorem hasPlugin_iff (loaded : setting.loaded = some data) (supported : supportedMode data = .ok ()) :
    Shell.status (hasPluginProgram setting .original) = 0 ↔ (pluginEntry data).isSome = true := by
  obtain ⟨entries, listed⟩ := plugins_of_supported supported
  rw [pluginEntry_isSome listed, ← hasPluginLoop_status]
  simp only [hasPluginProgram, load, loaded, ok_bind, listed]

/-- The check of the mode, when it passes. -/
theorem run_assertSupportedConfigMode (loaded : setting.loaded = some data)
    (supported : supportedMode data = .ok ()) :
    (assertSupportedConfigMode setting).run.run .original = (.ok (), .original) := by
  rw [assertSupportedConfigMode, Shell.run_check]
  simp [load, loaded, supported, Shell.status]

/-- Both checks at the beginning of a command, when the first one passes. -/
theorem run_checks (loaded : setting.loaded = some data) (supported : supportedMode data = .ok ())
    (next : Bool → Shell Unit) :
    (assertSupportedConfigMode setting >>= fun _ => hasPlugin setting >>= next).run.run .original =
      (next (pluginEntry data).isSome).run.run .original := by
  have found : decide (Shell.status (hasPluginProgram setting .original) = 0) = (pluginEntry data).isSome := by
    rw [Bool.eq_iff_iff, decide_eq_true_eq]
    exact hasPlugin_iff loaded supported
  rw [Shell.run_bind, run_assertSupportedConfigMode loaded supported]
  dsimp only
  rw [Shell.run_bind, hasPlugin, Shell.run_succeeds, found]

/-- Unless the configuration can be loaded and is of the supported kind, nothing is written. -/
theorem configAfter_unsupported (invocation : Invocation)
    (unsupported : ∀ data, setting.loaded = some data → supportedMode data ≠ .ok ()) :
    configAfter setting invocation = .original := by
  have stops : ∃ status, (assertSupportedConfigMode setting).run.run .original = (.error status, .original) := by
    rw [assertSupportedConfigMode, Shell.run_check]
    refine ⟨_, congrArg (·, _) (if_neg fun passed => ?_)⟩
    cases loaded : setting.loaded with
    | none => simp [load, loaded, Shell.status] at passed
    | some data =>
        simp only [load, loaded, ok_bind] at passed
        exact unsupported data loaded (supported_of_status passed)
  obtain ⟨status, stops⟩ := stops
  cases invocation with
  | init => simp only [configAfter, command, cmdInit, Shell.run_bind, stops]
  | add args =>
      simp only [configAfter, command, cmdAdd]
      split
      · rfl
      · simp only [Shell.run_bind, stops]
  | remove args =>
      simp only [configAfter, command, cmdRemove]
      split
      · rfl
      · simp only [Shell.run_bind, stops]

theorem configAfter_init (loaded : setting.loaded = some data) (supported : supportedMode data = .ok ()) :
    configAfter setting .init = if (pluginEntry data).isSome then .original else .empty := by
  rw [configAfter, command, cmdInit, run_checks loaded supported]
  cases (pluginEntry data).isSome with
  | true => rfl
  | false => rfl

theorem configAfter_add {args : List Str} (enough : 3 ≤ args.length) (loaded : setting.loaded = some data)
    (supported : supportedMode data = .ok ()) :
    configAfter setting (.add args) = if (pluginEntry data).isSome then
      Shell.output (addProgram setting (.ofList args) .original) else .empty := by
  simp only [configAfter, command, cmdAdd, if_neg (Nat.not_lt.mpr enough)]
  rw [run_checks loaded supported]
  cases (pluginEntry data).isSome with
  | true => rfl
  | false =>
      change Shell.output (addProgram setting (.ofList args) .empty) = .empty
      rw [addProgram]
      cases int (Arguments.ofList args).port <;> rfl

theorem configAfter_remove {args : List Str} (enough : 2 ≤ args.length) (loaded : setting.loaded = some data)
    (supported : supportedMode data = .ok ()) :
    configAfter setting (.remove args) = if (pluginEntry data).isSome then
      Shell.output (removeProgram setting (.ofList args) .original) else .original := by
  simp only [configAfter, command, cmdRemove, if_neg (Nat.not_lt.mpr enough)]
  rw [run_checks loaded supported]
  cases (pluginEntry data).isSome with
  | true => rfl
  | false => rfl

end Runs

/-! ## The programs' part -/

theorem editFirst_eq {edit : List Value → Except Exception (List Value)} {entries items : List Value}
    (found : firstEntry entries = some items) :
    editFirst edit entries = (edit items).map fun edited => replaceFirst edited entries := by
  fun_induction firstEntry entries with
  | case1 => cases found
  | case2 target more rest own =>
      cases found
      cases edited : edit (target :: more) <;> simp [editFirst, replaceFirst, isEntry, own, edited, Except.map]
  | case3 target more rest other ih =>
      rw [editFirst, ih found]
      cases edit items <;> simp [replaceFirst, isEntry, other, Except.map]
  | case4 entry rest other ih =>
      have none := not_isEntry other
      unfold editFirst
      rw [none, if_neg Bool.false_ne_true, ih found]
      cases edit items <;> simp [replaceFirst, none, Except.map]

/-- An edit of the document is one of the plugin's entry. -/
theorem editDocument_eq {edit : List Value → Except Exception (List Value)} {data : Value} {items : List Value}
    (found : pluginEntry data = some items) :
    editDocument edit data = (edit items).map fun edited => replaceEntry edited data := by
  cases data with
  | dict fields =>
      simp only [pluginEntry] at found
      cases value : Fields.get fields (lit "plugin") (.list []) with
      | list entries =>
          rw [value] at found
          have stored : (Fields.find fields (lit "plugin")).isSome = true := by
            cases absent : Fields.find fields (lit "plugin") with
            | some _ => rfl
            | none =>
                rw [Fields.get, absent] at value
                cases value
                cases found
          simp only [editDocument, Value.asDict, ok_bind, value, editFirst_eq found, stored, if_true]
          cases edit items with
          | ok edited => simp [replaceEntry, value, Except.map]
          | error e => rfl
      | _ =>
          rw [value] at found
          cases found
  | _ => cases found

section Hosts

variable {host : Str}

theorem othersLoop_eq {items : List Value} (dicts : ∀ item ∈ items, IsDict item) :
    othersLoop host items = .ok (items.filter fun item => !isNamed host item) := by
  induction items with
  | nil => rfl
  | cons item rest ih =>
      obtain ⟨fields, rfl⟩ := dicts item (List.mem_cons_self ..)
      have later := ih fun other member => dicts other (List.mem_cons_of_mem _ member)
      simp only [othersLoop, Value.asDict, ok_bind, later]
      cases named : (Fields.get fields (lit "name") .none).isStr host <;> simp [isNamed, named]

theorem othersLoop_error {items : List Value} (other : ¬∀ item ∈ items, IsDict item) :
    ∃ e, othersLoop host items = .error e := by
  induction items with
  | nil => simp at other
  | cons item rest ih =>
      by_cases here : IsDict item
      · obtain ⟨fields, rfl⟩ := here
        have below : ¬∀ item ∈ rest, IsDict item := by
          intro dicts
          exact other (List.forall_mem_cons.mpr ⟨⟨fields, rfl⟩, dicts⟩)
        obtain ⟨e, raised⟩ := ih below
        exact ⟨e, by simp only [othersLoop, Value.asDict, ok_bind, raised, error_bind]⟩
      · cases item with
        | dict fields => exact absurd ⟨fields, rfl⟩ here
        | _ => exact ⟨_, rfl⟩

theorem others_error {hosts : Value} (other : ¬IsHosts hosts) : ∃ e, others host hosts = .error e := by
  cases listed : hosts.iter with
  | error e => exact ⟨e, by rw [others, listed, error_bind]⟩
  | ok items =>
      rw [others, listed, ok_bind]
      exact othersLoop_error fun dicts => other ⟨items, listed, dicts⟩

/-- What is gone through as a list of hosts without being one is empty. -/
theorem others_eq {config : Fields} (hosts : IsHosts (config.get (lit "hosts") (.list []))) :
    others host (config.get (lit "hosts") (.list [])) = .ok (otherHosts host (config.find (lit "hosts"))) := by
  obtain ⟨items, listed, dicts⟩ := hosts
  rw [others, listed, ok_bind, othersLoop_eq dicts]
  cases found : config.find (lit "hosts") with
  | none =>
      rw [Fields.get, found] at listed
      cases listed
      rfl
  | some value =>
      rw [Fields.get, found, Option.getD_some] at listed
      cases value with
      | list hosts =>
          cases listed
          rfl
      | str s =>
          cases listed
          cases s with
          | nil => rfl
          | cons c rest =>
              obtain ⟨fields, impossible⟩ := dicts (.str [c]) (List.mem_cons_self ..)
              cases impossible
      | dict fields =>
          cases listed
          cases fields with
          | nil => rfl
          | cons field rest =>
              obtain ⟨fields, impossible⟩ := dicts (.str field.1) (List.mem_cons_self ..)
              cases impossible
      | _ => cases listed

/-- A new provider gets its first host. -/
theorem newProvider_set (entry : Value) :
    ∃ config, newProvider = .dict config ∧ otherHosts host (Fields.find config (lit "hosts")) = [] ∧
      Fields.setItem config (lit "hosts") (.list [entry]) =
        [(lit "strategy", .str (lit "first_available")), (lit "hosts", .list [entry])] := by
  have distinct : lit "strategy" ≠ lit "hosts" := by decide
  have found : Fields.find [(lit "strategy", .str (lit "first_available")), (lit "hosts", .list [])]
      (lit "hosts") = some (.list []) := rfl
  refine ⟨_, rfl, ?_, ?_⟩
  · rw [found]
    rfl
  · simp [Fields.setItem, Data.OrderedMap.writeEntry, distinct]

variable {provider : Str} {entry : Value} {items : List Value}

theorem within_provider {providers config : Fields}
    (found : providers.get provider newProvider = .dict config) :
    within provider (setHost host entry) (some (.dict providers)) =
      some (.dict (providers.setItem provider (.dict (config.setItem (lit "hosts")
        (.list (otherHosts host (config.find (lit "hosts")) ++ [entry])))))) := by
  cases stored : providers.find provider with
  | none =>
      obtain ⟨new, same, nobody, set⟩ := @newProvider_set host entry
      rw [Fields.get, stored, Option.getD_none, same] at found
      cases found
      simp [within, stored, setHost, nobody, set]
  | some value =>
      rw [Fields.get, stored, Option.getD_some] at found
      subst found
      simp [within, stored, setHost]

theorem within_providers {fields providers : Fields} {f : Option Value → Option Value}
    (found : fields.get (lit "providers") (.dict []) = .dict providers) :
    within (lit "providers") (within provider f) (some (.dict fields)) =
      (within provider f (some (.dict providers))).map fun value =>
        .dict (fields.setItem (lit "providers") value) := by
  cases stored : fields.find (lit "providers") with
  | none =>
      rw [Fields.get, stored, Option.getD_none] at found
      cases found
      simp only [within, stored]
      rfl
  | some value =>
      rw [Fields.get, stored, Option.getD_some] at found
      subst found
      rw [within, stored]

/-- Where the program of `cmd_add` can go on to the hosts, it does what was asked for. -/
theorem addToEntry_eq (addable : Addable provider items) :
    ∃ edited, addToEntry provider host entry items = .ok edited ∧
      setInEntry provider host entry items = some edited := by
  match items, addable with
  | name :: options :: more, ⟨fields, providers, config, same, foundProviders, foundConfig, hosts⟩ =>
      subst same
      let hosts' := otherHosts host (Fields.find config (lit "hosts")) ++ [entry]
      let providers' := Fields.setItem providers provider (.dict (Fields.setItem config (lit "hosts") (.list hosts')))
      refine ⟨name :: .dict (Fields.setItem fields (lit "providers") (.dict providers')) :: more, ?_, ?_⟩
      · simp only [addToEntry, Value.asDict, ok_bind, foundProviders, foundConfig, others_eq hosts, pure_eq_ok,
          hosts', providers']
      · simp only [setInEntry, within_providers foundProviders, within_provider foundConfig, Option.map_some,
          hosts', providers']

/-- Everywhere else it raises an exception. -/
theorem addToEntry_error (fails : ¬Addable provider items) :
    ∃ e, addToEntry provider host entry items = .error e := by
  match items with
  | [] => exact ⟨_, rfl⟩
  | [name] => exact ⟨_, rfl⟩
  | name :: options :: more =>
      cases options with
      | dict fields =>
          cases foundProviders : Fields.get fields (lit "providers") (.dict []) with
          | dict providers =>
              cases foundConfig : Fields.get providers provider newProvider with
              | dict config =>
                  have other : ¬IsHosts (Fields.get config (lit "hosts") (.list [])) := fun hosts =>
                    fails ⟨fields, providers, config, rfl, foundProviders, foundConfig, hosts⟩
                  obtain ⟨e, raised⟩ := @others_error host _ other
                  exact ⟨e, by simp [addToEntry, Value.asDict, foundProviders, foundConfig, raised]⟩
              | _ => exact ⟨.attributeError, by simp [addToEntry, Value.asDict, foundProviders, foundConfig]⟩
          | _ => exact ⟨.attributeError, by simp [addToEntry, Value.asDict, foundProviders]⟩
      | _ => exact ⟨_, rfl⟩

theorem updated_some {fields : Fields} {key : Str} {value : Value} (stored : fields.find key = some value)
    (f : Value → Value) : updated key f (.dict fields) = .dict (fields.setItem key (f value)) := by
  rw [updated, stored]

theorem updated_none {fields : Fields} {key : Str} (absent : fields.find key = none) (f : Value → Value) :
    updated key f (.dict fields) = .dict fields := by
  rw [updated, absent]

theorem find_updated (fields : Fields) (key : Str) (f : Value → Value) :
    ∃ fields', updated key f (.dict fields) = .dict fields' ∧
      Fields.find fields' key = (fields.find key).map f := by
  cases stored : fields.find key with
  | none => exact ⟨fields, updated_none stored f, stored⟩
  | some value => exact ⟨_, updated_some stored f, Fields.find_setItem_self fields key (f value)⟩

/-- Where the provider is not configured there is nothing to remove. -/
theorem updated_absent {fields : Fields} {f : Value → Value}
    (absent : (fields.get (lit "providers") (.dict [])).contains provider = .ok false) :
    updated (lit "providers") (updated provider f) (.dict fields) = .dict fields := by
  cases stored : fields.find (lit "providers") with
  | none => exact updated_none stored _
  | some value =>
      rw [Fields.get, stored, Option.getD_some] at absent
      have same : updated provider f value = value := by
        cases value with
        | dict configs =>
            have missing : Fields.find configs provider = none := by simpa [Value.contains] using absent
            exact updated_none missing f
        | _ => rfl
      rw [updated_some stored, same, Fields.setItem_eq_self stored]

theorem find_of_configured {fields configs : Fields} {config : Value}
    (found : fields.get (lit "providers") (.dict []) = .dict configs)
    (configured : configs.find provider = some config) :
    fields.find (lit "providers") = some (.dict configs) := by
  cases stored : fields.find (lit "providers") with
  | none =>
      rw [Fields.get, stored, Option.getD_none] at found
      cases found
      cases configured
  | some value =>
      rw [Fields.get, stored, Option.getD_some] at found
      rw [found]

/-- Where the provider has a list of hosts, or is not there, the program of `cmd_remove` does
    what was asked for. -/
theorem removeFromEntry_eq (removable : Removable provider items) :
    removeFromEntry provider host items = .ok (removedInEntry provider host items) := by
  match items, removable with
  | [], _ => rfl
  | [name], _ => rfl
  | name :: options :: more, ⟨fields, same, reach⟩ =>
      subst same
      cases reach with
      | inl absent =>
          simp only [removeFromEntry, Value.asDict, ok_bind, absent, removedInEntry, updated_absent absent]
          rfl
      | inr present =>
          obtain ⟨configs, config, hosts, found, configured, listed, dicts⟩ := present
          have stored := find_of_configured found configured
          have isHosts : IsHosts (Fields.get config (lit "hosts") (.list [])) := by
            rw [Fields.get, listed]
            exact ⟨hosts, rfl, dicts⟩
          have given : Fields.get configs provider .none = .dict config := by
            rw [Fields.get, configured, Option.getD_some]
          simp only [removeFromEntry, Value.asDict, ok_bind, found, Value.contains, configured,
            Option.isSome_some, if_true, given, others_eq isHosts, removedInEntry, updated_some stored,
            updated_some configured, updated_some listed, listed, otherHosts, withoutHost, pure_eq_ok]

/-- The hosts of the provider. -/
def hostsAt (provider : Str) : List Value → Option Value
  | _ :: .dict fields :: _ =>
      match Fields.find fields (lit "providers") with
      | some (.dict configs) =>
          match Fields.find configs provider with
          | some (.dict config) => Fields.find config (lit "hosts")
          | _ => none
      | _ => none
  | _ => none

/-- Hosts that are gone through, but not because they are a list of objects, are not a list. -/
theorem not_list {config : Fields} (hosts : IsHosts (config.get (lit "hosts") (.list [])))
    (other : ∀ hosts, config.find (lit "hosts") = some (.list hosts) → ¬∀ item ∈ hosts, IsDict item) :
    ∀ kept, (config.find (lit "hosts")).map (withoutHost host) ≠ some (.list kept) := by
  intro kept same
  cases stored : config.find (lit "hosts") with
  | none => simp [stored] at same
  | some value =>
      rw [stored, Option.map_some, Option.some.injEq] at same
      cases value with
      | list items =>
          obtain ⟨listed, iterated, dicts⟩ := hosts
          rw [Fields.get, stored] at iterated
          cases iterated
          exact other items stored dicts
      | _ => cases same

private theorem removeFromEntry_differs_present {name : Value} {more : List Value} {fields : Fields}
    (fails : ¬Removable provider (name :: .dict fields :: more))
    (contained : (fields.get (lit "providers") (.dict [])).contains provider = .ok true) :
    (∃ e, removeFromEntry provider host (name :: .dict fields :: more) = .error e) ∨
      ∃ edited, removeFromEntry provider host (name :: .dict fields :: more) = .ok edited ∧
        edited ≠ removedInEntry provider host (name :: .dict fields :: more) := by
  cases found : fields.get (lit "providers") (.dict []) with
  | dict configs =>
      have configured : ∃ value, Fields.find configs provider = some value := by
        rw [found] at contained
        simpa [Value.contains, Option.isSome_iff_exists] using contained
      obtain ⟨value, configured⟩ := configured
      have given : Fields.get configs provider .none = value := by
        rw [Fields.get, configured, Option.getD_some]
      rw [found] at contained
      cases value with
      | dict config =>
          by_cases hosts : IsHosts (Fields.get config (lit "hosts") (.list []))
          · have stored := find_of_configured found configured
            have other : ∀ hosts, Fields.find config (lit "hosts") = some (.list hosts) →
                ¬∀ item ∈ hosts, IsDict item := fun hosts listed dicts =>
              fails ⟨fields, rfl, .inr ⟨configs, config, hosts, found, configured, listed, dicts⟩⟩
            let kept := otherHosts host (Fields.find config (lit "hosts"))
            let configs' := Fields.setItem configs provider (.dict (Fields.setItem config (lit "hosts") (.list kept)))
            refine .inr ⟨name :: .dict (fields.setItem (lit "providers") (.dict configs')) :: more, ?_, ?_⟩
            · simp only [removeFromEntry, Value.asDict, ok_bind, found, contained, if_true, given,
                others_eq hosts, pure_eq_ok, kept, configs']
            · intro same
              obtain ⟨config', changed, hosts'⟩ := find_updated config (lit "hosts") (withoutHost host)
              have left : hostsAt provider (name :: .dict (fields.setItem (lit "providers") (.dict configs')) ::
                  more) = some (.list kept) := by simp [hostsAt, configs']
              have right : hostsAt provider (removedInEntry provider host (name :: .dict fields :: more)) =
                  (Fields.find config (lit "hosts")).map (withoutHost host) := by
                rw [removedInEntry, updated_some stored, updated_some configured, changed]
                simp [hostsAt, hosts']
              rw [← same, left] at right
              exact not_list hosts other kept right.symm
          · obtain ⟨e, raised⟩ := @others_error host _ hosts
            exact .inl ⟨e, by simp [removeFromEntry, Value.asDict, found, contained, given, raised]⟩
      | _ => exact .inl ⟨.attributeError, by simp [removeFromEntry, Value.asDict, found, contained, given]⟩
  | _ =>
      rw [found] at contained
      exact .inl ⟨.typeError, by simp [removeFromEntry, Value.asDict, found, contained]⟩

/-- Everywhere else it raises an exception, or it puts a list of hosts where there is none. -/
theorem removeFromEntry_differs (fails : ¬Removable provider items) :
    (∃ e, removeFromEntry provider host items = .error e) ∨
      ∃ edited, removeFromEntry provider host items = .ok edited ∧ edited ≠ removedInEntry provider host items := by
  match items with
  | [] => exact absurd trivial fails
  | [name] => exact absurd trivial fails
  | name :: options :: more =>
      cases options with
      | dict fields =>
          cases contained : (Fields.get fields (lit "providers") (.dict [])).contains provider with
          | error e => exact .inl ⟨e, by simp only [removeFromEntry, Value.asDict, ok_bind, contained, error_bind]⟩
          | ok present =>
              cases present with
              | false => exact absurd ⟨fields, rfl, .inl contained⟩ fails
              | true => exact removeFromEntry_differs_present fails contained
      | _ => exact .inl ⟨_, rfl⟩

end Hosts

/-! ## Both halves together -/

theorem replaceFirst_injective {entries items first second : List Value}
    (found : firstEntry entries = some items) (same : replaceFirst first entries = replaceFirst second entries) :
    first = second := by
  fun_induction firstEntry entries with
  | case1 => cases found
  | case2 target more rest own =>
      simp [replaceFirst, isEntry, own] at same
      exact same
  | case3 target more rest other ih =>
      simp [replaceFirst, isEntry, other] at same
      exact ih found same
  | case4 entry rest other ih =>
      simp [replaceFirst, not_isEntry other] at same
      exact ih found same

theorem pluginEntry_some {data : Value} {items : List Value} (found : pluginEntry data = some items) :
    ∃ fields entries, data = .dict fields ∧ Fields.get fields (lit "plugin") (.list []) = .list entries ∧
      firstEntry entries = some items := by
  cases data with
  | dict fields =>
      rw [pluginEntry] at found
      cases value : Fields.get fields (lit "plugin") (.list []) with
      | list entries =>
          rw [value] at found
          exact ⟨fields, entries, rfl, value, found⟩
      | _ =>
          rw [value] at found
          cases found
  | _ => cases found

theorem replaceEntry_injective {data : Value} {items first second : List Value}
    (found : pluginEntry data = some items) (same : replaceEntry first data = replaceEntry second data) :
    first = second := by
  obtain ⟨fields, entries, rfl, value, entry⟩ := pluginEntry_some found
  simp only [replaceEntry, value, Value.dict.injEq] at same
  have entries_same := congrArg (fun fields => Fields.find fields (lit "plugin")) same
  simp only [Fields.find_setItem_self, Option.some.injEq, Value.list.injEq] at entries_same
  exact replaceFirst_injective entry entries_same

theorem withEntry_eq {data : Value} {items : List Value} (found : pluginEntry data = some items) :
    withEntry data = some data := by
  obtain ⟨fields, entries, rfl, value, entry⟩ := pluginEntry_some found
  simp [withEntry, value, entry]

section Preserved

variable {setting : Setting} {invocation : Invocation} {data : Value}

theorem not_preserves_of_empty (written : configAfter setting invocation = .empty) :
    ¬Preserves setting invocation := by
  rintro (same | ⟨data, edited, -, -, loads⟩)
  · rw [written] at same
    cases same
  · rw [written] at loads
    cases loads

/-- A program that comes to its end has preserved the configuration if it has printed what was
    asked for. -/
theorem preserves_iff_of_dumps {edited : Value} (loaded : setting.loaded = some data)
    (written : configAfter setting invocation = Shell.output (dumps setting edited)) :
    Preserves setting invocation ↔
      requested setting invocation data = some edited ∧ edited.depth ≤ setting.maxDepth := by
  by_cases shallow : edited.depth ≤ setting.maxDepth
  · rw [dumps, if_pos shallow] at written
    simp [Preserves, written, loaded, load, shallow, Shell.output]
  · rw [dumps, if_neg shallow] at written
    exact iff_of_false (not_preserves_of_empty written) (by simp [shallow])

theorem preserves_init (loaded : setting.loaded = some data) (supported : supportedMode data = .ok ()) :
    Preserves setting .init ↔ ∃ items, pluginEntry data = some items := by
  have written := configAfter_init loaded supported
  cases found : pluginEntry data with
  | none =>
      rw [found] at written
      exact iff_of_false (not_preserves_of_empty written) (by simp)
  | some items =>
      rw [found] at written
      exact iff_of_true (.inl written) ⟨items, rfl⟩

theorem preserves_add {args : List Str} (enough : 3 ≤ args.length) (loaded : setting.loaded = some data)
    (supported : supportedMode data = .ok ()) :
    Preserves setting (.add args) ↔ ∃ items port, pluginEntry data = some items ∧
      Addable (Arguments.ofList args).provider items ∧ int (Arguments.ofList args).port = .ok port ∧
      Printable setting (.add args) data := by
  have written := configAfter_add enough loaded supported
  cases found : pluginEntry data with
  | none =>
      rw [found] at written
      exact iff_of_false (not_preserves_of_empty written) (by simp)
  | some items =>
      simp only [found, Option.isSome_some, if_true, addProgram] at written
      cases converted : int (Arguments.ofList args).port with
      | error e =>
          rw [converted] at written
          exact iff_of_false (not_preserves_of_empty written) (by simp)
      | ok port =>
          simp only [converted, ok_bind, load, loaded, editDocument_eq found] at written
          let arguments := Arguments.ofList args
          let entry := hostEntry arguments.host (orElse setting.sshHost arguments.host) arguments.user port
            arguments.identity
          by_cases addable : Addable arguments.provider items
          · obtain ⟨edited, program, asked⟩ := @addToEntry_eq arguments.host arguments.provider entry items addable
            have wanted : requested setting (.add args) data = some (replaceEntry edited data) := by
              simp only [requested, converted, Except.toOption, withEntry_eq found, found, Option.bind_eq_bind,
                Option.bind_some, asked, entry, arguments]
              rfl
            rw [program] at written
            rw [preserves_iff_of_dumps loaded written]
            simp [wanted, Printable, addable, arguments]
          · obtain ⟨e, raised⟩ := @addToEntry_error arguments.host arguments.provider entry items addable
            rw [raised] at written
            refine iff_of_false (not_preserves_of_empty written) ?_
            rintro ⟨_, _, same, other, -⟩
            cases same
            exact addable other

theorem preserves_remove {args : List Str} (enough : 2 ≤ args.length) (loaded : setting.loaded = some data)
    (supported : supportedMode data = .ok ()) :
    Preserves setting (.remove args) ↔ ∀ items, pluginEntry data = some items →
      Removable (Arguments.ofList args).provider items ∧ Printable setting (.remove args) data := by
  have written := configAfter_remove enough loaded supported
  cases found : pluginEntry data with
  | none =>
      rw [found] at written
      exact iff_of_true (.inl written) (by simp)
  | some items =>
      let arguments := Arguments.ofList args
      have wanted : requested setting (.remove args) data =
          some (replaceEntry (removedInEntry arguments.provider arguments.host items) data) := by
        simp only [requested, found, arguments]
      simp only [found, Option.isSome_some, if_true, removeProgram, load, loaded, ok_bind,
        editDocument_eq found] at written
      by_cases removable : Removable arguments.provider items
      · rw [removeFromEntry_eq removable] at written
        rw [preserves_iff_of_dumps loaded written]
        simp [wanted, Printable, removable, arguments]
      · have unfit : ¬∀ items', some items = some items' →
            Removable (Arguments.ofList args).provider items' ∧ Printable setting (.remove args) data :=
          fun fits => removable (fits items rfl).1
        cases @removeFromEntry_differs arguments.host arguments.provider items removable with
        | inl fails =>
            obtain ⟨e, raised⟩ := fails
            rw [raised] at written
            exact iff_of_false (not_preserves_of_empty written) unfit
        | inr differs =>
            obtain ⟨edited, program, other⟩ := differs
            rw [program] at written
            rw [preserves_iff_of_dumps loaded written, wanted]
            refine iff_of_false (fun both => ?_) unfit
            exact other (replaceEntry_injective found (Option.some.inj both.1)).symm

end Preserved

section Unwritten

variable {setting : Setting} {data : Value}

/-- With too few arguments the script ends before it has looked at the configuration. -/
theorem configAfter_add_few {args : List Str} (few : args.length < 3) :
    configAfter setting (.add args) = .original := by
  simp only [configAfter, command, cmdAdd, if_pos few]
  rfl

theorem configAfter_remove_few {args : List Str} (few : args.length < 2) :
    configAfter setting (.remove args) = .original := by
  simp only [configAfter, command, cmdRemove, if_pos few]
  rfl

/-- A condition on the loaded document is one on this document. -/
theorem forall_loaded {P : Value → Prop} (loaded : setting.loaded = some data)
    (supported : supportedMode data = .ok ()) :
    (∀ data, setting.loaded = some data → supportedMode data = .ok () → P data) ↔ P data := by
  constructor
  · intro holds
    exact holds data loaded supported
  · intro holds other same _
    rw [loaded] at same
    cases same
    exact holds

end Unwritten

end OpencodeRemote.Cli
