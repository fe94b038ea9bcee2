import OpencodeRemote.Plugin.Conduct

/-! # Provenance

Every call heeds the policy. So in any interleaving of calls, and over restarts, hosts are
contacted under a lease of the same call, tokens only go where their stub is, only the
plugin's own tunnels are killed, and what is stored or handed out has been probed.
-/

namespace OpencodeRemote.Plugin

open Concurrency Data Throwing

/-! ## Sessions and workspaces of a stub -/

section Stub

variable {kept : List Evidence} {binding : WorkspaceBinding}

theorem heeds_send (founded : Founded (Read kept) kept binding) (method path : String) (body : Option RemoteBody) :
    Heeds remotePolicy kept (Remote.fetch ⟨method, binding.localPort, path, some binding.token, body⟩)
      fun _ _ => True := by
  refine (Remote.heeds_fetch ?_).mono fun _ _ _ _ => trivial
  rintro _ ⟨⟩
  exact ⟨binding.host, founded.entitled⟩

theorem heeds_createRemoteSession (founded : Founded (Read kept) kept binding) (title : String) :
    Heeds remotePolicy kept (createRemoteSession binding title) fun _ _ => True := by
  have timed : Heeds remotePolicy kept (Remote.call .now) fun _ _ => True :=
    Remote.heeds_call trivial fun _ => trivial
  refine timed.bind fun kept' now grown _ => ?_
  refine (heeds_send (founded.mono grown) _ _ _).bind fun kept'' response _ _ => ?_
  split
  · exact heeds_pure trivial
  · exact (Remote.heeds_read _).bind fun _ _ _ _ => heeds_throw _

theorem heeds_ensureSession (fit : Fit kept binding) : Heeds remotePolicy kept (ensureSession binding) Fit := by
  unfold ensureSession
  split
  · exact heeds_pure fit
  · refine (Remote.heeds_await (heeds_createRemoteSession fit.1 _)).bind fun kept' sessionID grown _ => ?_
    exact heeds_pure ((fit.mono grown).withSession _)

theorem heeds_createRemoteWorkspace (founded : Founded (Read kept) kept binding) :
    Heeds remotePolicy kept (createRemoteWorkspace binding) fun _ _ => True := by
  refine (heeds_send founded _ _ _).bind fun kept' response _ _ => ?_
  split
  · exact heeds_pure trivial
  · exact (Remote.heeds_read _).bind fun _ _ _ _ => heeds_throw _

theorem heeds_bestEffortDelete (founded : Founded (Read kept) kept binding) (path : String) :
    Heeds remotePolicy kept (bestEffortDelete binding path) fun _ _ => True := by
  refine Heeds.tryCatch ?_ fun _ _ _ => heeds_pure trivial
  exact (heeds_send founded _ _ _).bind fun _ _ _ _ => heeds_pure trivial

theorem heeds_removeRemoteWorkspace (founded : Founded (Read kept) kept binding) :
    Heeds remotePolicy kept (removeRemoteWorkspace binding) fun _ _ => True := by
  unfold removeRemoteWorkspace
  split
  · exact (heeds_bestEffortDelete founded _).bind fun kept' _ grown _ =>
      heeds_bestEffortDelete (founded.mono grown) _
  · exact heeds_bestEffortDelete founded _

end Stub

/-! ## Operations on the tables -/

namespace Async

variable {α : Type} {kept : List Evidence}

theorem heeds_outside {f : Remote α} {post : List Evidence → α → Prop} (heeds : Heeds remotePolicy kept f post) :
    Heeds policy kept (outside f) post := Program.Heeds.hoist (fun _ _ => rfl) heeds

theorem heeds_remote {f : Remote α} {post : List Evidence → α → Prop} (heeds : Heeds remotePolicy kept f post) :
    Heeds policy kept (remote f) post := heeds_outside (Remote.heeds_await heeds)

theorem heeds_await {f : Async α} {post : List Evidence → α → Prop} (heeds : Heeds policy kept f post) :
    Heeds policy kept (await f) post := heeds.followed (fun _ => rfl) fun _ => trivial

theorem heeds_outcome {f : Async α} {post : List Evidence → α → Prop} (heeds : Heeds policy kept f post) :
    Heeds policy kept (outcome f) fun kept' result => ∀ a, result = .ok a → post kept' a := by
  refine heeds.finished (fun _ a _ holds => ?_) fun _ e _ => ?_
  · rintro _ ⟨⟩
    exact holds
  · exact fun a none => nomatch none

theorem heeds_now : Heeds policy kept now fun _ _ => True := ⟨trivial, fun _ => trivial⟩

theorem heeds_acquireResolved (request : HostSelectionRequest) (workspaceID : String) :
    Heeds policy kept (acquireResolved request workspaceID) fun kept' selection =>
      .leased request selection ∈ kept' := by
  refine ⟨trivial, fun result => ?_⟩
  cases result with
  | ok selection => exact List.mem_append_right _ (List.mem_singleton_self _)
  | error e => trivial

theorem heeds_release (host workspaceID : String) : Heeds policy kept (release host workspaceID) fun _ _ => True :=
  ⟨trivial, fun _ => trivial⟩

theorem heeds_drop (host workspaceID : String) : Heeds policy kept (drop host workspaceID) fun _ _ => True := by
  refine ⟨trivial, fun saved => ?_⟩
  cases saved <;> trivial

theorem heeds_deleteBinding (workspaceID : String) :
    Heeds policy kept (deleteBinding workspaceID) fun _ _ => True := by
  refine ⟨trivial, fun saved => ?_⟩
  cases saved <;> trivial

theorem heeds_setBinding {binding : WorkspaceBinding} (fit : Fit kept binding) :
    Heeds policy kept (setBinding binding) fun _ _ => True := by
  refine ⟨fit, fun saved => ?_⟩
  cases saved <;> trivial

theorem heeds_replaceBinding {binding : WorkspaceBinding} (fit : Fit kept binding) :
    Heeds policy kept (replaceBinding binding) fun _ _ => True := by
  refine ⟨fit, fun saved => ?_⟩
  cases saved <;> trivial

theorem heeds_getBinding (workspaceID : String) :
    Heeds policy kept (getBinding workspaceID) fun kept' found => ∀ binding ∈ found, Read kept' binding := by
  refine ⟨trivial, fun found binding here => List.mem_append_right _ ?_⟩
  cases here
  exact List.mem_singleton_self _

theorem heeds_listBindings :
    Heeds policy kept listBindings fun kept' bindings => ∀ binding ∈ bindings, Read kept' binding := by
  refine ⟨trivial, fun bindings binding member => List.mem_append_right _ ?_⟩
  exact List.mem_map_of_mem member

end Async

/-! ## The calls -/

section Calls

open Async

variable (manager : SSHManager) {kept : List Evidence}

theorem fit_newBinding {selection : ResolvedHost} {result : BootstrapResult}
    (booted : SSHManager.Booted selection kept result) (workspaceID : String) :
    Fit kept (newBinding manager workspaceID selection result) := by
  obtain ⟨pid, own, linked⟩ := booted.opened
  refine ⟨⟨⟨booted.issued.tokenOf, .inr ⟨pid, linked⟩⟩, fun other same => ?_⟩, booted.healthy⟩
  obtain rfl : pid = other := Option.some.inj (own.symm.trans same)
  exact linked.owned

theorem heeds_createConnectedBinding (providerName : String) (host : Option String) (workspaceName : String) :
    Heeds policy kept (createConnectedBinding manager providerName host workspaceName) Fit := by
  refine heeds_now.bind fun kept₁ now _ _ => (heeds_acquireResolved _ _).bind fun kept₂ selection _ leased => ?_
  refine Heeds.tryCatch ?_ fun _ e _ => (heeds_release _ _).bind fun _ _ _ _ => heeds_throw e
  refine (heeds_remote (manager.heeds_bootstrap ⟨_, leased⟩ _)).bind fun kept₃ result _ booted => ?_
  have fit := fit_newBinding manager booted (mintWorkspaceID now workspaceName)
  refine (heeds_remote (heeds_createRemoteWorkspace fit.1)).bind fun kept₄ _ grown₄ _ => ?_
  refine (heeds_remote (heeds_createRemoteSession (fit.mono grown₄).1 _)).bind fun kept₅ sessionID grown₅ _ => ?_
  have connected := ((fit.mono grown₄).mono grown₅).withSession (some sessionID)
  exact (heeds_setBinding connected).bind fun _ _ grown _ => heeds_pure (connected.mono grown)

/-- What is found, if anything is, is fit. -/
def FitIfAny (kept : List Evidence) (found : Option WorkspaceBinding) : Prop := ∀ binding ∈ found, Fit kept binding

theorem fitIfAny_none : FitIfAny kept none := fun _ same => absurd same (Option.some_ne_none _).symm

theorem fitIfAny_some {binding : WorkspaceBinding} (fit : Fit kept binding) : FitIfAny kept (some binding) := by
  rintro _ ⟨⟩
  exact fit

theorem heeds_reuseOrDrop (providerName : String) (host : Option String) {binding : WorkspaceBinding}
    (read : Read kept binding) : Heeds policy kept (reuseOrDrop manager providerName host binding) FitIfAny := by
  refine Heeds.tryCatch ?_ fun _ _ _ => (heeds_drop _ _).bind fun _ _ _ _ => heeds_pure fitIfAny_none
  refine (heeds_acquireResolved _ _).bind fun kept₁ selection grown₁ leased => ?_
  split
  · exact (heeds_release _ _).bind fun _ _ _ _ => heeds_pure fitIfAny_none
  · rename_i same
    have resolves : Resolves kept₁ binding.host selection := .inl ⟨⟨_, leased⟩, not_not.mp same⟩
    have founded : Founded (Read kept₁) kept₁ binding := founded_of_known (grown₁ read)
    refine (heeds_remote (manager.heeds_ensureRecoveredBinding founded resolves)).bind fun kept₂ recovered _ fit => ?_
    refine (heeds_outside (heeds_ensureSession fit)).bind fun kept₃ reusable _ fit => ?_
    exact (heeds_replaceBinding fit).bind fun _ _ grown _ => heeds_pure (fitIfAny_some (fit.mono grown))

theorem heeds_findReusableBindingLoop (providerName : String) (host : Option String)
    (bindings : List WorkspaceBinding) (read : ∀ binding ∈ bindings, Read kept binding) :
    Heeds policy kept (findReusableBindingLoop manager providerName host bindings) FitIfAny := by
  induction bindings generalizing kept with
  | nil => exact heeds_pure fitIfAny_none
  | cons binding rest ih =>
      unfold findReusableBindingLoop
      split
      · exact ih fun other member => read other (List.mem_cons_of_mem _ member)
      · refine (heeds_reuseOrDrop manager providerName host (read binding List.mem_cons_self)).bind
          fun kept' found grown fit => ?_
        cases found with
        | none => exact ih fun other member => grown (read other (List.mem_cons_of_mem _ member))
        | some reusable => exact heeds_pure fit

theorem heeds_findReusableBinding (providerName : String) (host : Option String) :
    Heeds policy kept (findReusableBinding manager providerName host) FitIfAny :=
  heeds_listBindings.bind fun _ bindings _ read => heeds_findReusableBindingLoop manager _ _ bindings read

theorem heeds_ensureBindingReady {binding : WorkspaceBinding} (read : Read kept binding) :
    Heeds policy kept (ensureBindingReady manager binding) Fit := by
  refine (heeds_acquireResolved _ _).bind fun kept₁ selection grown leased => ?_
  have resolves : Resolves kept₁ binding.host selection := .inr ⟨_, leased⟩
  have founded : Founded (Read kept₁) kept₁ binding := founded_of_known (grown read)
  have recovers := Remote.heeds_and_yields (manager.heeds_ensureRecoveredBinding founded resolves)
    (manager.ensureRecoveredBinding_yields binding selection)
  refine (heeds_remote recovers).bind fun kept₂ recovered grown₂ found => ?_
  obtain ⟨fit, localPort, tunnelPID, status, rfl, -⟩ := found
  split
  · exact (heeds_replaceBinding fit).bind fun _ _ grown _ => heeds_pure (fit.mono grown)
  · rename_i same
    obtain ⟨rfl, -⟩ : localPort = binding.localPort ∧ tunnelPID = binding.tunnelPID := by
      simp only [ne_eq, not_or, not_not] at same
      exact ⟨same.1, same.2.1⟩
    exact heeds_pure ⟨founded.mono grown₂, fit.2⟩

theorem heeds_removeBinding {binding : WorkspaceBinding} (founded : Founded (Read kept) kept binding) :
    Heeds policy kept (removeBinding binding) fun _ _ => True := by
  refine (heeds_remote (heeds_removeRemoteWorkspace founded)).bind fun kept' _ grown _ => ?_
  refine (heeds_remote (SSHManager.heeds_closeRecoveredBinding (founded.mono grown))).bind fun _ _ _ _ => ?_
  exact heeds_drop _ _

theorem heeds_bootstrapAndBind {selection : ResolvedHost} (leased : Leased kept selection) (workspaceID : String) :
    Heeds policy kept (bootstrapAndBind manager workspaceID selection) fun _ _ => True := by
  refine Heeds.tryCatch ?_ fun _ e _ => (heeds_release _ _).bind fun _ _ _ _ => heeds_throw e
  refine (heeds_remote (manager.heeds_bootstrap leased _)).bind fun kept' result _ booted => ?_
  exact heeds_setBinding (fit_newBinding manager booted workspaceID)

/-! ## Replies -/

/-- Whatever connection the reply hands out has been probed by this call. -/
def Attested (kept : List Evidence) : Reply → Prop
  | .target targetURL header =>
      ∃ binding, Verified kept binding ∧ targetURL = url binding ∧ header = authorization binding
  | .switched targetURL header binding _ =>
      Verified kept binding ∧ targetURL = url binding ∧ header = authorization binding
  | .status _ workspaces => ∀ binding, .recovered binding ∈ workspaces → Verified kept binding
  | .health binding _ _ => Verified kept binding
  | .listed workspaces => ∀ binding ∈ workspaces, Verified kept binding
  | _ => True

theorem Attested.mono {kept' : List Evidence} {reply : Reply} (attested : Attested kept reply)
    (grown : kept ⊆ kept') : Attested kept' reply := by
  cases reply with
  | target targetURL header =>
      obtain ⟨binding, verified, rest⟩ := attested
      exact ⟨binding, verified.mono grown, rest⟩
  | switched targetURL header binding message => exact ⟨attested.1.mono grown, attested.2⟩
  | status connected workspaces => exact fun binding member => (attested binding member).mono grown
  | health binding reused health => exact Verified.mono attested grown
  | listed workspaces => exact fun binding member => (attested binding member).mono grown
  | _ => trivial

theorem heeds_reporting {f : Async Reply} (heeds : Heeds policy kept f Attested) :
    Heeds policy kept (reporting f) Attested := heeds.tryCatch fun _ _ _ => heeds_pure trivial

theorem heeds_getTarget (workspace : WorkspaceInfo) :
    Heeds policy kept (getTarget manager workspace) Attested := by
  have ready : Heeds policy kept (getReadyBinding manager workspace.id) FitIfAny := by
    refine (heeds_getBinding _).bind fun kept' found _ read => ?_
    cases found with
    | none => exact heeds_pure fitIfAny_none
    | some binding =>
        refine (heeds_await (heeds_ensureBindingReady manager (read binding rfl))).bind fun _ _ _ fit => ?_
        exact heeds_pure (fitIfAny_some fit)
  refine (heeds_await ready).bind fun kept' found _ fit => ?_
  cases found with
  | none => exact heeds_throw _
  | some binding => exact heeds_pure ⟨binding, (fit binding rfl).2, rfl, rfl⟩

theorem heeds_remoteWorkspaceCreate (workspaceName : String) (provider host : Option String) :
    Heeds policy kept (remoteWorkspaceCreate manager workspaceName provider host) Attested := by
  apply heeds_reporting
  split
  · exact heeds_throw _
  · refine heeds_now.bind fun _ now _ _ => (heeds_acquireResolved _ _).bind fun _ selection _ leased => ?_
    exact (heeds_bootstrapAndBind manager ⟨_, leased⟩ _).bind fun _ _ _ _ => heeds_pure trivial

theorem heeds_remoteSwitch (host provider : Option String) :
    Heeds policy kept (remoteSwitch manager host provider) Attested := by
  refine heeds_reporting ((heeds_await (heeds_findReusableBinding manager _ _)).bind fun kept' found _ fit => ?_)
  cases found with
  | none =>
      refine (heeds_await (heeds_createConnectedBinding manager _ _ _)).bind fun _ binding _ fit => ?_
      exact heeds_pure ⟨fit.2, rfl, rfl⟩
  | some binding => exact heeds_pure ⟨(fit binding rfl).2, rfl, rfl⟩

theorem heeds_statusLoop (bindings : List WorkspaceBinding) (read : ∀ binding ∈ bindings, Read kept binding) :
    Heeds policy kept (statusLoop manager bindings) fun kept' entries =>
      ∀ binding, .recovered binding ∈ entries → Verified kept' binding := by
  induction bindings generalizing kept with
  | nil => exact heeds_pure (by simp)
  | cons binding rest ih =>
      have answered : Heeds policy kept (do
          try
            let ready ← await (ensureBindingReady manager binding)
            pure (.recovered ready)
          catch error => do
            deleteBinding binding.workspaceID
            release binding.host binding.workspaceID
            pure (.failed binding.workspaceID binding.provider binding.host error))
          fun kept' entry => ∀ ready, entry = StatusEntry.recovered ready → Verified kept' ready := by
        refine Heeds.tryCatch ?_ fun _ _ _ => ?_
        · refine (heeds_await (heeds_ensureBindingReady manager (read binding List.mem_cons_self))).bind
            fun _ ready _ fit => heeds_pure ?_
          rintro _ ⟨⟩
          exact fit.2
        · exact (heeds_deleteBinding _).bind fun _ _ _ _ => (heeds_release _ _).bind fun _ _ _ _ => heeds_pure (by simp)
      refine answered.bind fun kept₁ entry grown first => ?_
      refine (ih fun other member => grown (read other (List.mem_cons_of_mem _ member))).bind
        fun kept₂ entries further later => heeds_pure fun ready member => ?_
      cases List.mem_cons.mp member with
      | inl same => exact further (first ready same.symm)
      | inr member => exact later ready member

theorem heeds_listLoop (bindings : List WorkspaceBinding) (read : ∀ binding ∈ bindings, Read kept binding) :
    Heeds policy kept (listLoop manager bindings) fun kept' recovered =>
      ∀ binding ∈ recovered, Verified kept' binding := by
  induction bindings generalizing kept with
  | nil => exact heeds_pure (by simp)
  | cons binding rest ih =>
      refine (heeds_await (heeds_ensureBindingReady manager (read binding List.mem_cons_self))).bind
        fun kept₁ ready grown fit => ?_
      refine (ih fun other member => grown (read other (List.mem_cons_of_mem _ member))).bind
        fun kept₂ recovered further later => heeds_pure fun other member => ?_
      cases List.mem_cons.mp member with
      | inl same => exact same ▸ fit.2.mono further
      | inr member => exact later other member

theorem heeds_disconnectLoop (bindings : List WorkspaceBinding) (read : ∀ binding ∈ bindings, Read kept binding) :
    Heeds policy kept (disconnectLoop bindings) fun _ _ => True := by
  induction bindings generalizing kept with
  | nil => exact heeds_pure trivial
  | cons binding rest ih =>
      have founded : Founded (Read kept) kept binding := founded_of_known (read binding List.mem_cons_self)
      refine (heeds_await (heeds_removeBinding founded)).bind fun _ _ grown _ => ih fun other member => ?_
      exact grown (read other (List.mem_cons_of_mem _ member))

theorem heeds_remoteDisconnect (workspaceID : Option String) :
    Heeds policy kept (remoteDisconnect workspaceID) Attested := by
  refine heeds_listBindings.bind fun kept' bindings _ read => ?_
  dsimp only
  split
  · exact heeds_pure trivial
  · refine (heeds_disconnectLoop _ fun binding member => read binding ?_).bind fun _ _ _ _ => heeds_pure trivial
    unfold toDisconnect at member
    split at member
    · exact List.mem_of_mem_filter member
    · exact member

theorem heeds_doctorHealth {binding : WorkspaceBinding} (fit : Fit kept binding) (created : Bool) :
    Heeds policy kept (doctorHealth binding created) Attested := by
  have asked : Heeds policy kept (outside (Remote.fetch
      ⟨"GET", binding.localPort, "/global/health", some binding.token, none⟩)) fun _ _ => True :=
    heeds_outside (heeds_send fit.1 _ _ _)
  refine asked.bind fun kept₁ response grown _ => ?_
  split
  · exact (heeds_outside (Remote.heeds_read _)).bind fun _ _ further _ =>
      heeds_pure ((fit.mono grown).mono further).2
  · exact (heeds_outside (Remote.heeds_read _)).bind fun _ _ _ _ => heeds_throw _

theorem heeds_doctorBinding (providerName : String) (host : Option String) :
    Heeds policy kept (doctorBinding manager providerName host) fun kept' connection => Fit kept' connection.1 := by
  refine (heeds_await (heeds_findReusableBinding manager _ _)).bind fun kept' found _ fit => ?_
  cases found with
  | none =>
      exact (heeds_await (heeds_createConnectedBinding manager _ _ _)).bind fun _ _ _ fit => heeds_pure fit
  | some binding => exact heeds_pure (fit binding rfl)

theorem heeds_remoteDoctor (host provider : Option String) :
    Heeds policy kept (remoteDoctor manager host provider) Attested := by
  refine (heeds_outcome (heeds_doctorBinding manager _ _)).bind fun kept' result _ connected => ?_
  cases result with
  | error e => exact heeds_pure trivial
  | ok connection =>
      obtain ⟨binding, created⟩ := connection
      have fit : Fit kept' binding := connected _ rfl
      refine (heeds_reporting (heeds_doctorHealth fit created)).bind fun kept'' reply grown attested => ?_
      split
      · have removed : Heeds policy kept'' (do try await (removeBinding binding) catch _ => pure ())
            fun _ _ => True :=
          (heeds_await (heeds_removeBinding (fit.mono grown).1)).tryCatch fun _ _ _ => heeds_pure trivial
        exact removed.bind fun _ _ later _ => heeds_pure (attested.mono later)
      · exact heeds_pure attested

theorem heeds_serve (request : Request) : Heeds policy kept (serve manager request) Attested := by
  cases request with
  | configure workspace =>
      have configured : Heeds policy kept (configureWorkspace workspace) fun _ _ => True := by
        refine (heeds_of_except fun _ _ => trivial).bind fun _ request _ (_ : True) => ?_
        exact (heeds_acquireResolved _ _).bind fun _ _ _ _ => heeds_pure trivial
      exact configured.bind fun _ _ _ _ => heeds_pure trivial
  | create workspace =>
      have created : Heeds policy kept (createWorkspace manager workspace) fun _ _ => True := by
        refine (heeds_of_except fun _ _ => trivial).bind fun _ request _ (_ : True) => ?_
        refine (heeds_acquireResolved _ _).bind fun _ selection _ leased => ?_
        exact heeds_bootstrapAndBind manager ⟨_, leased⟩ _
      exact created.bind fun _ _ _ _ => heeds_pure trivial
  | remove workspace =>
      have removed : Heeds policy kept (removeWorkspace workspace) fun _ _ => True := by
        refine (heeds_getBinding _).bind fun kept' found _ read => ?_
        cases found with
        | none => exact heeds_pure trivial
        | some binding => exact heeds_await (heeds_removeBinding (founded_of_known (read binding rfl)))
      exact removed.bind fun _ _ _ _ => heeds_pure trivial
  | target workspace => exact heeds_getTarget manager workspace
  | remoteWorkspaceCreate workspaceName provider host =>
      exact heeds_remoteWorkspaceCreate manager workspaceName provider host
  | remoteSwitch host provider => exact heeds_remoteSwitch manager host provider
  | remoteStatus =>
      refine heeds_listBindings.bind fun kept' bindings _ read => ?_
      exact (heeds_statusLoop manager bindings read).bind fun _ _ _ entries => heeds_pure entries
  | remoteDisconnect workspaceID => exact heeds_remoteDisconnect workspaceID
  | remoteDoctor host provider => exact heeds_remoteDoctor manager host provider
  | remoteWorkspaceList =>
      refine heeds_listBindings.bind fun kept' bindings _ read => ?_
      exact (heeds_listLoop manager bindings read).bind fun _ _ _ verified => heeds_pure verified
  | remoteWorkspaceRemove workspaceID =>
      refine (heeds_getBinding _).bind fun kept' found _ read => ?_
      cases found with
      | none => exact heeds_pure trivial
      | some binding =>
          have founded : Founded (Read kept') kept' binding := founded_of_known (read binding rfl)
          exact (heeds_await (heeds_removeBinding founded)).bind fun _ _ _ _ => heeds_pure trivial

end Calls

/-! ## One operation -/

section Step

variable {config : ResolvedPluginConfig} {env : Env} {o : Op} {s : Store}

/-- What a call reads is in the table. -/
theorem read_recorded {binding : WorkspaceBinding}
    (recorded : .read binding ∈ policy.record o (exec config env o s).1) : binding ∈ s.state.list := by
  cases o with
  | remote o => exact absurd rfl ((Evidence.ofRemote_foreign recorded).1 binding)
  | stateGet workspaceID =>
      obtain ⟨found, here, same⟩ := List.mem_map.mp recorded
      cases same
      have here : s.state.get workspaceID = some binding := Option.mem_toList.mp here
      exact RuntimeState.mem_list.mpr (s.state.keyed workspaceID binding here ▸ here)
  | stateList =>
      obtain ⟨found, here, same⟩ := List.mem_map.mp recorded
      cases same
      exact here
  | acquireResolved request workspaceID =>
      have recorded : .read binding ∈ Evidence.of (.acquireResolved request workspaceID)
        (ProviderRegistry.acquireResolved config request workspaceID env.now s.leases).1 := recorded
      cases outcome : (ProviderRegistry.acquireResolved config request workspaceID env.now s.leases).1 <;>
        simp [outcome, Evidence.of] at recorded
  | _ => cases recorded

theorem mem_of_pick {leases : LeaseManager} {mode : LeaseMode} {workspaceID : String} {hosts : List HostConfig}
    {host : HostConfig} (picked : ProviderRegistry.pick leases mode workspaceID hosts = some host) :
    host ∈ hosts := by
  unfold ProviderRegistry.pick at picked
  split at picked
  · exact List.mem_of_find?_eq_some picked
  · rcases Option.or_eq_some_iff.mp picked with held | ⟨-, free⟩
    · exact List.mem_of_find?_eq_some held
    · exact List.mem_of_find?_eq_some free

/-- What is given is one of the hosts that the request can be given. -/
theorem offered_of_acquireResolved {request : HostSelectionRequest} {workspaceID : String} {now : Nat}
    {leases : LeaseManager} {selection : ResolvedHost}
    (given : (ProviderRegistry.acquireResolved config request workspaceID now leases).1 = .ok selection) :
    selection.host ∈ ProviderRegistry.offered config request := by
  cases picked : ProviderRegistry.pick leases config.defaults.leaseMode workspaceID
      (ProviderRegistry.offered config request) with
  | none =>
      obtain ⟨message, failed⟩ :=
        ProviderRegistry.acquireResolved_of_no_pick config request workspaceID now leases picked
      rw [failed] at given
      cases given
  | some item =>
      obtain ⟨other, rfl, -, taken⟩ :=
        ProviderRegistry.acquireResolved_of_pick config request workspaceID now leases picked
      rw [taken] at given
      cases given
      exact mem_of_pick picked

/-- A host that is given for a name is known under that name. -/
theorem identified_of_offered {request : HostSelectionRequest} {host : String} {item : HostConfig}
    (named : truthy request.host = some host) (offered : item ∈ ProviderRegistry.offered config request) :
    ProviderRegistry.IdentifiedBy host item := by
  unfold ProviderRegistry.offered at offered
  split at offered
  · cases offered
  · rw [ProviderRegistry.candidates, named] at offered
    exact of_decide_eq_true (List.mem_filter.mp offered).2

/-- Only an acquisition puts a lease on record. -/
theorem offered_of_leased {request : HostSelectionRequest} {selection : ResolvedHost}
    (recorded : .leased request selection ∈ policy.record o (exec config env o s).1) :
    selection.host ∈ ProviderRegistry.offered config request := by
  cases o with
  | remote o => exact absurd rfl ((Evidence.ofRemote_foreign recorded).2 request selection)
  | acquireResolved asked workspaceID =>
      have recorded : .leased request selection ∈ Evidence.of (.acquireResolved asked workspaceID)
        (ProviderRegistry.acquireResolved config asked workspaceID env.now s.leases).1 := recorded
      cases given : (ProviderRegistry.acquireResolved config asked workspaceID env.now s.leases).1 with
      | ok other =>
          rw [given] at recorded
          cases List.mem_singleton.mp recorded
          exact offered_of_acquireResolved given
      | error message => simp [given, Evidence.of] at recorded
  | stateGet workspaceID =>
      obtain ⟨found, -, same⟩ := List.mem_map.mp recorded
      cases same
  | stateList =>
      obtain ⟨found, -, same⟩ := List.mem_map.mp recorded
      cases same
  | _ => cases recorded

theorem mem_list_set {state : RuntimeState} {binding other : WorkspaceBinding}
    (listed : other ∈ (state.set binding).list) : other ∈ state.list ∨ other = binding := by
  rw [RuntimeState.mem_list, RuntimeState.get_set] at listed
  split at listed
  · cases listed
    exact .inr rfl
  · exact .inl (RuntimeState.mem_list.mpr listed)

theorem mem_list_delete {state : RuntimeState} {workspaceID : String} {other : WorkspaceBinding}
    (listed : other ∈ (state.delete workspaceID).list) : other ∈ state.list := by
  rw [RuntimeState.mem_list, RuntimeState.get_delete] at listed
  split at listed
  · cases listed
  · exact RuntimeState.mem_list.mpr listed

/-- A binding of the table was there before, or it has just been stored. -/
theorem listed_after {binding : WorkspaceBinding} (listed : binding ∈ (exec config env o s).2.state.list) :
    binding ∈ s.state.list ∨ o = .stateSet binding ∨ o = .stateReplace binding := by
  cases o with
  | stateSet other =>
      rcases mem_list_set listed with older | rfl
      · exact .inl older
      · exact .inr (.inl rfl)
  | stateReplace other =>
      rcases mem_list_set listed with older | rfl
      · exact .inl older
      · exact .inr (.inr rfl)
  | stateDelete workspaceID => exact .inl (mem_list_delete listed)
  | drop host workspaceID => exact .inl (mem_list_delete listed)
  | _ => exact .inl listed

/-- A start takes over entries that name a host. -/
theorem named_of_loaded {parsed : List WorkspaceBinding} :
    ∀ binding ∈ (RuntimeState.load parsed).list, binding.host ≠ "" := by
  refine List.foldlRecOn (motive := fun (state : RuntimeState) => ∀ binding ∈ state.list, binding.host ≠ "")
    parsed _ (fun _ none => nomatch none) ?_
  intro state named first _ binding listed
  split at listed
  · exact named binding listed
  · rename_i complete
    rcases mem_list_set listed with older | rfl
    · exact named binding older
    · exact fun empty => complete (.inr (.inr (.inl empty)))

end Step

/-! ## Every run -/

/-- The runs whose starts find only such bindings in the state file. -/
def startsFinding (known : WorkspaceBinding → Prop) : Scope Request Env :=
  { reboot := fun env => ∀ binding ∈ (RuntimeState.load env.loaded).list, known binding }

section Properties

variable (known : WorkspaceBinding → Prop) (log : PluginLog)

/-- A call contacts a host over ssh after it has leased it. -/
def LeasesFirst : Prop :=
  ∀ k thread event, At log k thread event →
    (∀ args command, event.op = .remote (.ssh args command) →
      Contacts (policy.evidence (past (log.take k) thread)) args) ∧
    (∀ args, event.op = .remote (.spawn args) → Contacts (policy.evidence (past (log.take k) thread)) args) ∧
    ∀ args, event.op = .remote (.scp args) → ∃ selection path,
      Leased (policy.evidence (past (log.take k) thread)) selection ∧
        SSHManager.CopiesTo selection.host.ssh path args

/-- A process that is killed is one that was started before or that a known binding names. -/
def KillsOwn : Prop :=
  ∀ k thread event pid, At log k thread event → event.op = .remote (.kill pid) →
    (∃ args, .started args pid ∈ policy.evidence (history (log.take k))) ∨
      ∃ old, known old ∧ old.tunnelPID = some pid

/-- A token is sent to the port of a known binding which has it, or through a tunnel to a host
    that is known by the name of the one where the token is the stub's. -/
def ConfinesTokens : Prop :=
  ∀ k thread event request token, At log k thread event → event.op = .remote (.fetch request) →
    request.token = some token → ∃ host, TokenOf known (policy.evidence (history (log.take k))) host token ∧
      ((∃ old, known old ∧ old.host = host ∧ old.localPort = request.localPort ∧ old.token = token) ∨
        ∃ selection args pid remotePort, Leased (policy.evidence (history (log.take k))) selection ∧
          ProviderRegistry.IdentifiedBy host selection.host ∧
          .started args pid ∈ policy.evidence (history (log.take k)) ∧
          Forwards request.localPort remotePort args ∧
          SSHManager.Reaches selection.host.ssh args)

/-- What is stored was probed before by the call that stores it. -/
def ProbesFirst : Prop :=
  ∀ k thread event binding, At log k thread event →
    (event.op = .stateSet binding ∨ event.op = .stateReplace binding) →
      Verified (policy.evidence (past (log.take k) thread)) binding

/-- Every connection that a reply hands out was probed by its call. -/
def Attests (pool : PluginPool) : Prop :=
  ∀ i request started reply, pool.threads[i]? = some ⟨request, started, some (.pure (.ok reply))⟩ →
    Attested (policy.evidence (past pool.log i)) reply

end Properties

section Runs

variable (manager : SSHManager) (known : WorkspaceBinding → Prop)

/-- The bindings that a start finds and takes over. -/
def Adopted (binding : WorkspaceBinding) : Prop := known binding ∧ binding.host ≠ ""

/-- Everything in the table, and everything that was ever read from it, is founded by what was
    done before, and has been probed by the call that stored it. -/
structure Traced (s : Store) (log : PluginLog) : Prop where
  table : ∀ binding ∈ s.state.list, Founded (Adopted known) (policy.evidence (history log)) binding
  reads : Grounded (fun earlier event => ∀ binding, .read binding ∈ policy.record event.op event.res →
    Founded (Adopted known) (policy.evidence earlier) binding) log
  choices : ∀ request selection host, .leased request selection ∈ policy.evidence (history log) →
    truthy request.host = some host → ProviderRegistry.IdentifiedBy host selection.host
  probed : ∀ binding ∈ s.state.list, known binding ∨
    ∃ thread, Verified (policy.evidence (past log thread)) binding

variable {known}

/-- What a thread goes by is founded by everything that was done. -/
theorem founded_of_read {log : PluginLog} {thread : Nat}
    (reads : Grounded (fun earlier event => ∀ binding, .read binding ∈ policy.record event.op event.res →
      Founded (Adopted known) (policy.evidence earlier) binding) log) {binding : WorkspaceBinding}
    (read : Read (policy.evidence (past log thread)) binding) :
    Founded (Adopted known) (policy.evidence (history log)) binding := by
  obtain ⟨k, event, here, recorded⟩ := Policy.mem_evidence_past read
  exact (reads k thread event here binding recorded).ground
    (policy.evidence_mono (history_take_subset log k)) fun old => founded_of_known

/-- What a thread stores or does on its own evidence is founded by everything that was done. -/
theorem grounded_of_reads {log : PluginLog} {thread : Nat}
    (reads : Grounded (fun earlier event => ∀ binding, .read binding ∈ policy.record event.op event.res →
      Founded (Adopted known) (policy.evidence earlier) binding) log) :
    policy.evidence (past log thread) ⊆ policy.evidence (history log) ∧
      ∀ old, Read (policy.evidence (past log thread)) old →
        Founded (Adopted known) (policy.evidence (history log)) old :=
  ⟨policy.evidence_mono (past_subset_history log thread), fun _ read => founded_of_read reads read⟩

private theorem traced_preserved : (plugin manager).Preserves
    (fun earlier event => policy.allowed (policy.evidence earlier) event.op) (startsFinding known)
    (Traced known) := by
  intro s log thread o env _ lawful traced
  have may := lawful_last lawful
  change Traced known (exec manager.config env o s).2
    (log ++ [⟨thread, s, ⟨o, (exec manager.config env o s).1⟩⟩])
  have shown : policy.evidence (history (log ++ [⟨thread, s, ⟨o, (exec manager.config env o s).1⟩⟩])) =
      policy.evidence (history log) ++ policy.record o (exec manager.config env o s).1 := by
    rw [history_snoc, policy.evidence_append, policy.evidence_singleton]
  have stored (binding : WorkspaceBinding) (now : o = .stateSet binding ∨ o = .stateReplace binding) :
      Fit (policy.evidence (past log thread)) binding := by
    rcases now with rfl | rfl <;> exact may
  obtain ⟨grown, founded⟩ := @grounded_of_reads known log thread traced.reads
  refine ⟨fun binding listed => ?_, grounded_snoc traced.reads fun binding recorded => ?_,
    fun request selection host leased named => ?_, fun binding listed => ?_⟩
  · have holds : Founded (Adopted known) (policy.evidence (history log)) binding := by
      rcases listed_after listed with older | now
      · exact traced.table binding older
      · exact (stored binding now).1.ground grown founded
    rw [shown]
    exact holds.ground (List.subset_append_left _ _) fun old => founded_of_known
  · exact traced.table binding (read_recorded recorded)
  · rw [shown] at leased
    cases List.mem_append.mp leased with
    | inl older => exact traced.choices request selection host older named
    | inr recorded => exact identified_of_offered named (offered_of_leased recorded)
  · have further (other : Nat) := policy.evidence_mono
      (past_subset_snoc log ⟨thread, s, ⟨o, (exec manager.config env o s).1⟩⟩ other)
    rcases listed_after listed with older | now
    · exact (traced.probed binding older).imp_right fun seen => seen.imp fun other verified => further other verified
    · exact .inr ⟨thread, further thread (stored binding now).2⟩

private theorem traced_run {labels : List PluginLabel} (within : ∀ label ∈ labels, label.Within (startsFinding known)) :
    Traced known ((plugin manager).run .empty labels).store ((plugin manager).run .empty labels).log := by
  refine Machine.run_invariant (Traced known) (traced_preserved manager)
    (fun request _ => (heeds_serve manager request).obeys) (fun s log env found traced => ?_) ?_ within
  · refine ⟨fun binding listed => founded_of_known ⟨found binding listed, named_of_loaded binding listed⟩,
      traced.reads, traced.choices, fun binding listed => .inl (found binding listed)⟩
  · exact ⟨fun _ listed => absurd listed List.not_mem_nil, grounded_nil _,
      fun _ _ _ earlier => absurd earlier List.not_mem_nil, fun _ listed => absurd listed List.not_mem_nil⟩

variable {labels : List PluginLabel}

/-- The machine's programs keep the policy. -/
private theorem plugin_heeds (request : Request) : ((plugin manager).serve request).Heeds policy []
    (Ended Attested fun _ _ => True) := heeds_serve manager request

theorem allowed_run {s : Store} {k thread : Nat} {event : PluginEvent}
    (here : At ((plugin manager).run s labels).log k thread event) :
    allowed (policy.evidence (past (((plugin manager).run s labels).log.take k) thread)) event.op :=
  Machine.run_allowed (fun request _ => plugin_heeds manager request) (fun label _ => label.within_default)
    k thread event here

theorem leasesFirst_in_every_run (s : Store) (labels : List PluginLabel) :
    LeasesFirst ((plugin manager).run s labels).log := by
  intro k thread event here
  have may := allowed_run manager here
  refine ⟨fun args command same => ?_, fun args same => ?_, fun args same => ?_⟩ <;>
    · rw [same] at may
      exact may

theorem attests_in_every_run (s : Store) (labels : List PluginLabel) :
    Attests ((plugin manager).run s labels) :=
  fun _ _ _ _ answered => Machine.run_attested (fun request _ => plugin_heeds manager request)
    (fun label _ => label.within_default) answered

/-- The plugin starts with one binding; a second workspace is created, the first one removed. -/
def restarted : List PluginLabel :=
  .reboot { world true true with loaded := [boundTo "w" "web"] } ::
    (creation 0 "v" ++ call 1 10 (.remove (inLab "w")) (world true false))

private theorem within_restarted :
    ∀ label ∈ restarted, label.Within (startsFinding fun binding => binding = boundTo "w" "web") := by
  refine List.forall_mem_cons.mpr ⟨?_, fun label member => ?_⟩
  · show ∀ binding ∈ (RuntimeState.load [boundTo "w" "web"]).list, binding = boundTo "w" "web"
    decide
  · have admitted : ∀ label ∈ creation 0 "v" ++ call 1 10 (.remove (inLab "w")) (world true false),
        admits (fun _ => true) label := by decide
    have welcome := within_callsOf admitted label member
    cases label with
    | arrive request env => exact ⟨trivial, fun _ => trivial⟩
    | resume thread env => exact fun _ => trivial
    | reboot env => cases welcome

theorem killsOwn_in_every_run (within : ∀ label ∈ labels, label.Within (startsFinding known)) :
    KillsOwn known ((plugin manager).run .empty labels).log := by
  intro k thread event pid here kills
  have may := allowed_run manager here
  rw [kills] at may
  obtain ⟨grown, founded⟩ := @grounded_of_reads known _ thread ((traced_run manager within).reads.take k)
  rcases Owned.ground grown founded may with started | ⟨old, adopted, same⟩
  · exact .inl started
  · exact .inr ⟨old, adopted.1, same⟩

theorem killsOwn_after_restart :
    KillsOwn (fun binding => binding = boundTo "w" "web") ((plugin labManager).run .empty restarted).log ∧
      (((plugin labManager).run .empty restarted).log.any fun entry =>
        match entry.event.op with
        | .remote (.kill pid) => pid = 8
        | _ => false) = true :=
  ⟨killsOwn_in_every_run labManager within_restarted, by decide +kernel⟩

theorem confinesTokens_in_every_run (within : ∀ label ∈ labels, label.Within (startsFinding known)) :
    ConfinesTokens known ((plugin manager).run .empty labels).log := by
  intro k thread event request token here fetches carried
  have traced := traced_run manager within
  have may := allowed_run manager here
  rw [fetches] at may
  obtain ⟨host, sent⟩ := may token carried
  obtain ⟨grown, founded⟩ := @grounded_of_reads known _ thread (traced.reads.take k)
  obtain ⟨tokenOf, reaches⟩ := sent.ground grown founded
  have named : host ≠ "" := by
    rcases tokenOf with ⟨selection, same, -⟩ | ⟨old, adopted, same, -⟩
    · exact same ▸ selection.host.named
    · exact same ▸ adopted.2
  refine ⟨host, tokenOf.imp_right fun given => ?_, reaches.imp (fun given => ?_) fun linked => ?_⟩
  · obtain ⟨old, adopted, same⟩ := given
    exact ⟨old, adopted.1, same⟩
  · obtain ⟨old, adopted, same⟩ := given
    exact ⟨old, adopted.1, same⟩
  · obtain ⟨pid, selection, args, remotePort, resolves, started, forwards, last⟩ := linked
    refine ⟨selection, args, pid, remotePort, resolves.leased, ?_, started, forwards, last⟩
    rcases resolves with ⟨-, same⟩ | ⟨provider, leased⟩
    · exact .inl same
    · have earlier := policy.evidence_mono (history_take_subset _ k) leased
      exact traced.choices _ _ _ earlier (truthy_some named)

theorem confinesTokens_after_restart :
    ConfinesTokens (fun binding => binding = boundTo "w" "web") ((plugin labManager).run .empty restarted).log ∧
      (((plugin labManager).run .empty restarted).log.any fun entry =>
        match entry.event.op with
        | .remote (.fetch request) => request.token = some "token" ∧ request.localPort = 39274
        | _ => false) = true :=
  ⟨confinesTokens_in_every_run labManager within_restarted, by decide +kernel⟩

theorem probed_in_every_run (within : ∀ label ∈ labels, label.Within (startsFinding known)) :
    ProbesFirst ((plugin manager).run .empty labels).log ∧
    ∀ binding ∈ ((plugin manager).run .empty labels).store.state.list, known binding ∨
      ∃ thread, Verified (policy.evidence (past ((plugin manager).run .empty labels).log thread)) binding := by
  refine ⟨fun k thread event binding here stores => ?_, (traced_run manager within).probed⟩
  have may := allowed_run manager here
  rcases stores with same | same <;>
    · rw [same] at may
      exact may.2

theorem probed_after_restart :
    (ProbesFirst ((plugin labManager).run .empty restarted).log ∧
      ∀ binding ∈ ((plugin labManager).run .empty restarted).store.state.list,
        binding = boundTo "w" "web" ∨ ∃ thread,
          Verified (policy.evidence (past ((plugin labManager).run .empty restarted).log thread)) binding) ∧
      ((plugin labManager).run .empty restarted).store.state.list.map WorkspaceBinding.workspaceID = ["v"] :=
  ⟨probed_in_every_run labManager within_restarted, by decide +kernel⟩

end Runs

end OpencodeRemote.Plugin
