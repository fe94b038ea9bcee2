import OpencodeRemote.Cli.Handover
import OpencodeRemote.Plugin.Provenance

/-! # Hosts of the configuration

Every host that a call contacts is one of those that the configuration offers in the provider
that the call was asked for. Where the script has edited the configuration, it is a host that
was added as it is contacted, or one that was there before and was not edited.
-/

namespace OpencodeRemote.Plugin

open Concurrency Data

/-! ## Contacted hosts -/

section Offered

variable {config : ResolvedPluginConfig}

theorem mem_offeredIn_of_offered {request : HostSelectionRequest} {host : HostConfig}
    (offered : host ∈ ProviderRegistry.offered config request) : host ∈ Cli.offeredIn config request.provider := by
  unfold ProviderRegistry.offered at offered
  rw [Cli.offeredIn]
  split at offered
  · cases offered
  · rename_i provider known
    rw [known]
    unfold ProviderRegistry.candidates at offered
    split at offered <;> exact (List.mem_filter.mp offered).1

end Offered

/-! ## Edited configurations -/

section Edited

open Python (lit)

variable {edits : List Cli.Edit} {offered offered' : String → List HostConfig} {provider : String} {host : HostConfig}

/-- Where a host comes from that is offered once the edits are made. -/
inductive Sanctioned (edits : List Cli.Edit) (offered : String → List HostConfig) (provider : String)
    (host : HostConfig) : Prop
  | kept (untouched : Cli.lastEdit (lit provider) (lit host.name) edits = none) (before : host ∈ offered provider)
  | added (port : Nat) (identity : String)
      (last : Cli.lastEdit (lit provider) (lit host.name) edits = some (.add (lit provider) (lit host.name)
        (lit host.ssh.host) (lit host.ssh.user) port (lit identity)))
      (given : host.ssh = ⟨host.ssh.host, host.ssh.user, some port, truthy (some identity), none,
        host.ssh.hostGiven, host.ssh.userGiven⟩)

theorem not_edited_of_lastEdit {name : String} (none : Cli.lastEdit (lit provider) (lit name) edits = none) :
    Cli.edited edits provider name = false := by
  rw [Cli.lastEdit, List.find?_eq_none] at none
  exact List.any_eq_false.mpr fun edit member => none edit (List.mem_reverse.mpr member)

theorem Sanctioned.of_valid {name sshHost user identity : String} {port : Nat}
    (last : Cli.lastEdit (lit provider) (lit name) edits =
      some (.add (lit provider) (lit name) (lit sshHost) (lit user) port (lit identity)))
    (valid : validHost (Cli.addedInput name sshHost user port identity) = some host) :
    Sanctioned edits offered provider host := by
  simp only [validHost, Cli.addedInput, Option.bind_eq_bind, Option.bind_some] at valid
  split at valid
  · cases valid
    exact .added port identity last rfl
  · cases valid

theorem sanctioned_of_offered (handed : Cli.HandedOver edits offered offered') (typed : ∀ edit ∈ edits, edit.Typed)
    (inside : host ∈ offered' provider) : Sanctioned edits offered provider host := by
  cases last : Cli.lastEdit (lit provider) (lit host.name) edits with
  | none =>
      have free := not_edited_of_lastEdit last
      have among : host ∈ (offered' provider).filter fun item => !Cli.edited edits provider item.name :=
        List.mem_filter.mpr ⟨inside, by rw [free]; rfl⟩
      rw [handed.untouched] at among
      exact .kept last (List.mem_filter.mp among).1
  | some edit =>
      have about := List.find?_some last
      rw [Bool.and_eq_true, decide_eq_true_eq, decide_eq_true_eq] at about
      have among : host ∈ (offered' provider).filter fun item => item.name = host.name :=
        List.mem_filter.mpr ⟨inside, decide_eq_true rfl⟩
      cases typed edit (List.mem_reverse.mp (List.mem_of_find?_eq_some last)) with
      | add provider' name sshHost user port identity =>
          obtain ⟨sameProvider, sameName⟩ := about
          cases Cli.lit_injective sameProvider
          cases Cli.lit_injective sameName
          rw [handed.added _ _ _ _ _ _ last] at among
          exact .of_valid last (Option.mem_toList.mp among)
      | remove provider' name =>
          obtain ⟨sameProvider, sameName⟩ := about
          cases Cli.lit_injective sameProvider
          cases Cli.lit_injective sameName
          rw [handed.removed _ _ last] at among
          cases among

end Edited

/-! ## In every run -/

/-- Whatever is contacted over ssh is such a host. -/
def Contacted (log : PluginLog) (among : String → HostConfig → Prop) : Prop :=
  ∀ k thread event, At log k thread event →
    (∀ args command, event.op = .remote (.ssh args command) →
      ∃ provider host, among provider host ∧ SSHManager.Reaches host.ssh args) ∧
    (∀ args, event.op = .remote (.spawn args) →
      ∃ provider host, among provider host ∧ SSHManager.Reaches host.ssh args) ∧
    ∀ args, event.op = .remote (.scp args) →
      ∃ provider host path, among provider host ∧ SSHManager.CopiesTo host.ssh path args

theorem Contacted.mono {log : PluginLog} {among among' : String → HostConfig → Prop} (contacted : Contacted log among)
    (wider : ∀ provider host, among provider host → among' provider host) : Contacted log among' := by
  intro k thread event here
  obtain ⟨logins, tunnels, copies⟩ := contacted k thread event here
  refine ⟨fun args command same => ?_, fun args same => ?_, fun args same => ?_⟩
  · obtain ⟨provider, host, inside, reaches⟩ := logins args command same
    exact ⟨provider, host, wider _ _ inside, reaches⟩
  · obtain ⟨provider, host, inside, reaches⟩ := tunnels args same
    exact ⟨provider, host, wider _ _ inside, reaches⟩
  · obtain ⟨provider, host, path, inside, copied⟩ := copies args same
    exact ⟨provider, host, path, wider _ _ inside, copied⟩

section Runs

variable (manager : SSHManager) (s : Store) (labels : List PluginLabel)

/-- What a call has leased is offered in some provider. -/
theorem offered_of_leased_in_run {k thread : Nat} {selection : ResolvedHost}
    (leased : Leased (policy.evidence (past (((plugin manager).run s labels).log.take k) thread)) selection) :
    ∃ provider, selection.host ∈ Cli.offeredIn manager.config provider := by
  obtain ⟨request, member⟩ := leased
  obtain ⟨k', event, here, recorded⟩ := Policy.mem_evidence_past member
  obtain ⟨before, entry⟩ := (at_take.mp here).2
  obtain ⟨env, answered⟩ := Machine.run_answered s labels _ (List.mem_of_getElem? entry)
  rw [answered] at recorded
  exact ⟨request.provider, mem_offeredIn_of_offered (offered_of_leased recorded)⟩

theorem contacted_offered : Contacted ((plugin manager).run s labels).log fun provider host =>
    host ∈ Cli.offeredIn manager.config provider := by
  intro k thread event here
  have may := allowed_run manager here
  refine ⟨fun args command same => ?_, fun args same => ?_, fun args same => ?_⟩ <;> rw [same] at may
  · obtain ⟨selection, leased, reaches⟩ := may
    obtain ⟨provider, inside⟩ := offered_of_leased_in_run manager s labels leased
    exact ⟨provider, selection.host, inside, reaches⟩
  · obtain ⟨selection, leased, reaches⟩ := may
    obtain ⟨provider, inside⟩ := offered_of_leased_in_run manager s labels leased
    exact ⟨provider, selection.host, inside, reaches⟩
  · obtain ⟨selection, path, leased, copies⟩ := may
    obtain ⟨provider, inside⟩ := offered_of_leased_in_run manager s labels leased
    exact ⟨provider, selection.host, path, inside, copies⟩

end Runs

/-- A plugin that runs with the edited configuration contacts a host only as the last edit of the
    host says, or as before if there is none. -/
theorem follows_edits_in_every_run {data data' : Python.Value} {options options' : Python.Fields}
    {input input' : PluginConfig} {edits : List Cli.Edit} (found : Cli.optionsOf data = some options)
    (reads : Cli.Reads options input) (typed : ∀ edit ∈ edits, edit.Typed)
    (applied : Cli.applyAll edits data = .ok data') (found' : Cli.optionsOf data' = some options')
    (reads' : Cli.Reads options' input') {resolve : String → String} {defaultStubBinary : String}
    {manager : SSHManager} (configured : manager.config = resolveConfig resolve defaultStubBinary input')
    (s : Store) (labels : List PluginLabel) :
    Contacted ((plugin manager).run s labels).log
      (Sanctioned edits (Cli.offeredIn (resolveConfig resolve defaultStubBinary input))) := by
  have handed := Cli.handed_over found reads applied found' reads' resolve defaultStubBinary
  refine (contacted_offered manager s labels).mono fun provider host inside => ?_
  rw [configured] at inside
  exact sanctioned_of_offered handed typed inside

theorem follows_webAdded_in_creation :
    Contacted ((plugin ⟨resolveConfig id "/opt/stub" (Cli.labInput (some
        [Cli.addedInput "web" "10.0.0.2" "ops" 22 ""])), some "/home/ops", "/tmp", 7⟩).run .empty (creation 0 "v")).log
      (Sanctioned Cli.webAdded (Cli.offeredIn (resolveConfig id "/opt/stub" (Cli.labInput none)))) :=
  @follows_edits_in_every_run Cli.twoPlugins _ _ _ _ _ _ rfl Cli.reads_labInput Cli.typed_webAdded rfl rfl
    Cli.reads_webOptions _ _ _ rfl .empty (creation 0 "v")

end OpencodeRemote.Plugin
