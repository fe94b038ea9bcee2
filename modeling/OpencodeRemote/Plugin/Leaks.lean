import OpencodeRemote.Plugin.Accounting

/-! # Leases between the calls

Between two calls every lease is accounted for, except for those of workspaces which have been
configured and neither created nor removed since. That takes some care: removing a workspace
which has no binding does not give its lease back.
-/

namespace OpencodeRemote.Plugin

open Concurrency Data

/-- The bindings are stored on the hosts that they name. -/
def InUse (bindings : List WorkspaceBinding) (uses : String → Option String) : Prop :=
  ∀ binding ∈ bindings, uses binding.workspaceID = some binding.host

theorem inUse_list (state : RuntimeState) : InUse state.list state.uses :=
  fun binding member => uses_eq_some.mpr ⟨binding, member, rfl, rfl⟩

theorem inUse_of_get {state : RuntimeState} {workspaceID : String} {binding : WorkspaceBinding}
    (found : state.get workspaceID = some binding) : InUse [binding] state.uses := by
  intro other member
  rw [List.mem_singleton.mp member]
  have keyed := state.keyed workspaceID binding found
  exact uses_eq_some.mpr ⟨binding, RuntimeState.mem_list.mpr (keyed ▸ found), rfl, rfl⟩

theorem InUse.tail {binding : WorkspaceBinding} {rest : List WorkspaceBinding} {uses : String → Option String}
    (inUse : InUse (binding :: rest) uses) : InUse rest uses :=
  fun other member => inUse other (List.mem_cons_of_mem _ member)

theorem InUse.update {binding : WorkspaceBinding} {rest : List WorkspaceBinding} {uses : String → Option String}
    (inUse : InUse (binding :: rest) uses)
    (distinct : ((binding :: rest).map WorkspaceBinding.workspaceID).Nodup) :
    InUse rest (Function.update uses binding.workspaceID none) := by
  intro other member
  have apart : other.workspaceID ≠ binding.workspaceID := by
    intro same
    rw [List.map_cons, List.nodup_cons] at distinct
    exact distinct.1 (same ▸ List.mem_map_of_mem member)
  rw [Function.update_of_ne apart]
  exact inUse other (List.mem_cons_of_mem _ member)

theorem Owing.settled_of_bound {owner host workspaceID : String} {s : Store} (owing : Owing owner host workspaceID s)
    (bound : s.state.uses owner = some host) : Settled workspaceID s := by
  intro leased held
  rcases owing leased held with used | ⟨rfl, rfl⟩
  · exact used
  · exact bound

theorem Owing.settled_or_owner {owner host workspaceID : String} {s : Store}
    (owing : Owing owner host workspaceID s) : workspaceID = owner ∨ Settled workspaceID s := by
  by_cases own : workspaceID = owner
  · exact .inl own
  · exact .inr fun leased held => (owing leased held).resolve_right fun debt => own debt.1

/-- A workspace without a binding leases nothing. -/
def Unleased (workspaceID : String) (s : Store) : Prop :=
  s.state.get workspaceID = none → ∀ host ∈ s.leases.keys, s.leases.holder host ≠ some workspaceID

/-- The host that a creation of this workspace would be given. -/
def selected (config : ResolvedPluginConfig) (workspace : WorkspaceInfo) (s : Store) : Option String :=
  match providerRequestForWorkspace workspace with
  | .ok request => (ProviderRegistry.pick s.leases config.defaults.leaseMode workspace.id
      (ProviderRegistry.offered config request)).map HostConfig.name
  | .error _ => none

/-- A workspace that is created leases no host but that of its binding and the one that it is
    given now. -/
def Claimed (config : ResolvedPluginConfig) (workspace : WorkspaceInfo) (s : Store) : Prop :=
  ∀ host ∈ s.leases.keys, s.leases.holder host = some workspace.id →
    s.state.uses workspace.id = some host ∨ selected config workspace s = some host

namespace Async

section Calls

variable {manager : SSHManager} {workspaceID : String}

/-- An acquisition by a workspace whose leases are settled. -/
theorem holds_acquire_of_settled (request : HostSelectionRequest) (owner : String)
    (K : (String → Option String) → Prop) :
    Holds manager.config (fun s => K s.state.uses ∧ Settled workspaceID s) (acquireResolved request owner)
      (fun selection s => K s.state.uses ∧ Owing owner selection.host.name workspaceID s ∧
        ∀ bound, s.state.uses owner = some bound → request.host = some bound → selection.host.name = bound)
      (fun s => K s.state.uses ∧ Settled workspaceID s) :=
  (holds_acquireResolved request owner K).mono (fun _ pre => ⟨pre.1, fun leased held => .inl (pre.2 leased held)⟩)
    (fun _ _ => id) fun _ => id

/-- What is owed is paid back before the exception goes on. -/
theorem holds_giveUp (host owner : String) {α : Type} {returned : α → Store → Prop} (e : String) :
    Holds manager.config (Owing owner host workspaceID) (do release host owner; throw e) returned
      (Settled workspaceID) :=
  Holds.bind ((holds_release host owner fun _ => True).mono (fun _ owing => ⟨trivial, owing⟩)
    (fun _ _ => And.right) fun _ => id) fun _ => holds_throw e

theorem holds_bootstrapAndBind (owner : String) (selection : ResolvedHost) :
    Holds manager.config (Owing owner selection.host.name workspaceID) (bootstrapAndBind manager owner selection)
      (fun _ => Settled workspaceID) (Settled workspaceID) := by
  refine Holds.tryCatch (m := Owing owner selection.host.name workspaceID) ?_ fun e => holds_giveUp _ _ e
  refine (holds_remote_silent _ _).bind fun bootstrap => ?_
  refine (holds_setBinding (newBinding manager owner selection bootstrap)).mono ?_ (fun _ _ => id) ?_
  · exact fun s owing => owing.settled_or_owner
  · exact fun s settled => settled.owing _ _

/-- A workspace that has just been bound is settled, whatever it owed. -/
theorem holds_bootstrapAndBind_self (owner : String) (selection : ResolvedHost) :
    Holds manager.config (fun _ => True) (bootstrapAndBind manager owner selection)
      (fun _ => Settled owner) fun _ => True := by
  refine Holds.tryCatch (m := fun _ => True) ?_ fun e => (holds_trivial _).bind fun _ => holds_throw e
  refine (holds_remote_silent _ _).bind fun bootstrap => ?_
  exact (holds_setBinding (newBinding manager owner selection bootstrap)).mono (fun _ _ => .inl rfl)
    (fun _ _ => id) fun _ _ => trivial

theorem holds_createConnectedBinding (providerName : String) (host : Option String) (workspaceName : String) :
    Holds manager.config (Settled workspaceID)
      (createConnectedBinding manager providerName host workspaceName) (fun _ => Settled workspaceID)
      (Settled workspaceID) := by
  refine (holds_now _).bind fun now => ?_
  refine Holds.bind ((holds_acquire_of_settled _ _ fun _ => True).mono (fun _ settled => ⟨trivial, settled⟩)
    (fun selection s post => post.2.1) fun _ => And.right) fun selection => ?_
  refine Holds.tryCatch (m := Owing (mintWorkspaceID now workspaceName) selection.host.name workspaceID) ?_
    fun e => holds_giveUp _ _ e
  refine (holds_remote_silent _ _).bind fun bootstrap => (holds_remote_silent _ _).bind fun _ =>
    (holds_remote_silent _ _).bind fun sessionID => Holds.bind ?_ fun _ => holds_pure _
  refine (holds_setBinding _).mono ?_ (fun _ _ => id) fun s settled => settled.owing _ _
  exact fun s owing => owing.settled_or_owner

/-! ## Reuse and recovery -/

theorem holds_reuseBinding (providerName : String) (host : Option String) (binding : WorkspaceBinding)
    (rest : List WorkspaceBinding) :
    Holds manager.config (fun s => InUse (binding :: rest) s.state.uses ∧ Settled workspaceID s)
      (reuseBinding manager providerName host binding)
      (fun _ s => InUse (binding :: rest) s.state.uses ∧ Settled workspaceID s)
      (fun s => InUse (binding :: rest) s.state.uses ∧ Settled workspaceID s) := by
  refine (holds_acquire_of_settled _ _ _).bind fun selection => ?_
  dsimp only
  split
  · refine Holds.bind ((holds_release _ _ (InUse (binding :: rest))).mono (fun _ post => ⟨post.1, post.2.1⟩)
      (fun _ _ => id) fun _ => id) fun _ _ _ post _ => post
  · rename_i same
    have own : selection.host.name = binding.host := not_not.mp same
    refine Holds.mono (p := fun s => InUse (binding :: rest) s.state.uses ∧ Settled workspaceID s) ?_ ?_
      (fun _ _ => id) fun _ => id
    · refine (holds_remote (manager.ensureRecoveredBinding_yields binding selection) _).bind fun recovered => ?_
      refine Holds.of_pure fun recovery => (holds_outside (ensureSession_yields recovered) _).bind fun reusable => ?_
      refine Holds.of_pure fun session => Holds.bind ?_ fun _ => holds_pure _
      obtain ⟨localPort, tunnelPID, status, changed, -⟩ := recovery
      obtain ⟨sessionID, opened⟩ := session
      refine (holds_replaceBinding reusable _).mono (fun s post => ⟨post.1, ?_, post.2⟩) (fun _ _ => id)
        fun _ => id
      rw [opened, changed]
      exact post.1 binding List.mem_cons_self
    · rintro s ⟨inUse, owing, -⟩
      exact ⟨inUse, owing.settled_of_bound (own ▸ inUse binding List.mem_cons_self)⟩

theorem holds_findReusableBindingLoop (providerName : String) (host : Option String)
    {bindings : List WorkspaceBinding} (distinct : (bindings.map WorkspaceBinding.workspaceID).Nodup) :
    Holds manager.config (fun s => InUse bindings s.state.uses ∧ Settled workspaceID s)
      (findReusableBindingLoop manager providerName host bindings) (fun _ => Settled workspaceID)
      (Settled workspaceID) := by
  induction bindings with
  | nil => exact (holds_pure none).mono (fun _ => And.right) (fun _ _ => id) fun _ => id
  | cons binding rest ih =>
      have later := ih (List.nodup_cons.mp distinct).2
      rw [findReusableBindingLoop]
      split
      · refine later.mono (fun s pre => ⟨pre.1.tail, pre.2⟩) (fun _ _ => id) fun _ => id
      · have dropped : ∀ e : String, Holds manager.config
            (fun s => InUse (binding :: rest) s.state.uses ∧ Settled workspaceID s)
            (do drop binding.host binding.workspaceID; pure none)
            (fun (_ : Option WorkspaceBinding) s => InUse rest s.state.uses ∧ Settled workspaceID s)
            (Settled workspaceID) := by
          intro e
          refine Holds.bind ((holds_drop binding.host binding.workspaceID (InUse rest)).mono
            (fun s pre => ⟨pre.1.update distinct, .inr pre.2⟩) (fun _ _ => And.left) fun _ => And.right)
            fun _ _ _ post _ => post
        refine Holds.bind (Holds.tryCatch ((holds_reuseBinding providerName host binding rest).mono
          (fun _ => id) (fun _ _ post => ⟨post.1.tail, post.2⟩) fun _ => id) dropped) fun outcome => ?_
        cases outcome with
        | some reusable => exact (holds_pure _).mono (fun _ => And.right) (fun _ _ => id) fun _ => id
        | none => exact later

theorem holds_findReusableBinding (providerName : String) (host : Option String) :
    Holds manager.config (Settled workspaceID) (findReusableBinding manager providerName host)
      (fun _ => Settled workspaceID) (Settled workspaceID) := by
  refine (holds_listBindings _).bind fun all => ?_
  rintro env s ⟨rfl, settled⟩ guarded
  exact holds_findReusableBindingLoop providerName host s.state.list_distinct env s ⟨inUse_list s.state, settled⟩
    guarded

theorem holds_ensureBindingReady (binding : WorkspaceBinding) (rest : List WorkspaceBinding) :
    Holds manager.config (fun s => InUse (binding :: rest) s.state.uses ∧ Settled workspaceID s)
      (ensureBindingReady manager binding)
      (fun _ s => InUse (binding :: rest) s.state.uses ∧ Settled workspaceID s)
      (fun s => InUse (binding :: rest) s.state.uses ∧ Settled workspaceID s) := by
  refine (holds_acquire_of_settled _ _ _).bind fun selection => ?_
  refine Holds.mono (p := fun s => InUse (binding :: rest) s.state.uses ∧ Settled workspaceID s) ?_ ?_
    (fun _ _ => id) fun _ => id
  · refine (holds_remote (manager.ensureRecoveredBinding_yields binding selection) _).bind fun recovered => ?_
    refine Holds.of_pure fun recovery => ?_
    obtain ⟨localPort, tunnelPID, status, changed, -⟩ := recovery
    split
    · refine Holds.bind ?_ fun _ => holds_pure recovered
      refine (holds_replaceBinding recovered _).mono (fun s post => ⟨post.1, ?_, post.2⟩) (fun _ _ => id)
        fun _ => id
      rw [changed]
      exact post.1 binding List.mem_cons_self
    · exact holds_pure binding
  · rintro s ⟨inUse, owing, named⟩
    have bound := inUse binding List.mem_cons_self
    exact ⟨inUse, owing.settled_of_bound (named binding.host bound rfl ▸ bound)⟩

theorem holds_getReadyBinding (asked : String) :
    Holds manager.config (Settled workspaceID) (getReadyBinding manager asked) (fun _ => Settled workspaceID)
      (Settled workspaceID) := by
  refine (holds_getBinding _ _).bind fun found => ?_
  cases found with
  | none => exact fun _ _ post _ => post.2
  | some binding =>
      refine Holds.bind (Holds.await ((holds_ensureBindingReady binding []).mono
        (fun s pre => ⟨inUse_of_get pre.1, pre.2⟩) (fun _ _ => And.right) fun _ => And.right))
        fun _ => holds_pure _

theorem holds_statusLoop {bindings : List WorkspaceBinding}
    (distinct : (bindings.map WorkspaceBinding.workspaceID).Nodup) :
    Holds manager.config (fun s => InUse bindings s.state.uses ∧ Settled workspaceID s)
      (statusLoop manager bindings) (fun _ => Settled workspaceID) (Settled workspaceID) := by
  induction bindings with
  | nil => exact fun _ _ post _ => post.2
  | cons binding rest ih =>
      have later := ih (List.nodup_cons.mp distinct).2
      refine Holds.bind (m := fun _ s => InUse rest s.state.uses ∧ Settled workspaceID s) ?_
        fun entry => later.bind fun entries => holds_pure _
      refine Holds.tryCatch (m := fun s => InUse (binding :: rest) s.state.uses ∧ Settled workspaceID s) ?_
        fun e => ?_
      · exact (holds_ensureBindingReady binding rest).await.bind fun ready _ _ post _ => ⟨post.1.tail, post.2⟩
      · refine Holds.bind ((holds_deleteBinding binding.host binding.workspaceID (InUse rest)).mono
          (fun s pre => ⟨pre.1.update distinct, pre.1 binding List.mem_cons_self, pre.2⟩) (fun _ _ => id)
          fun _ => id) fun _ => ?_
        exact (holds_release _ _ (InUse rest)).bind fun _ _ _ post _ => post

theorem holds_remoteStatus : Holds manager.config (Settled workspaceID) (remoteStatus manager)
    (fun _ => Settled workspaceID) (Settled workspaceID) := by
  refine (holds_listBindings _).bind fun all => Holds.bind (m := fun _ => Settled workspaceID) ?_
    fun _ => holds_pure _
  rintro env s ⟨rfl, settled⟩ guarded
  exact holds_statusLoop s.state.list_distinct env s ⟨inUse_list s.state, settled⟩ guarded

theorem holds_listLoop (bindings : List WorkspaceBinding) :
    Holds manager.config (fun s => InUse bindings s.state.uses ∧ Settled workspaceID s) (listLoop manager bindings)
      (fun _ => Settled workspaceID) (Settled workspaceID) := by
  induction bindings with
  | nil => exact fun _ _ post _ => post.2
  | cons binding rest ih =>
      refine Holds.bind (m := fun _ s => InUse rest s.state.uses ∧ Settled workspaceID s) ?_
        fun entry => ih.bind fun entries => holds_pure _
      exact (holds_ensureBindingReady binding rest).await.mono (fun _ => id)
        (fun _ _ post => ⟨post.1.tail, post.2⟩) fun _ => And.right

theorem holds_remoteWorkspaceList : Holds manager.config (Settled workspaceID) (remoteWorkspaceList manager)
    (fun _ => Settled workspaceID) (Settled workspaceID) := by
  refine (holds_listBindings _).bind fun all => Holds.bind (m := fun _ => Settled workspaceID) ?_
    fun _ => holds_pure _
  rintro env s ⟨rfl, settled⟩ guarded
  exact holds_listLoop s.state.list env s ⟨inUse_list s.state, settled⟩ guarded

/-! ## Removal -/

/-- A removal that returns settles its workspace, and it has no binding left. -/
theorem holds_removeBinding_self (binding : WorkspaceBinding) :
    Holds manager.config (fun _ => True) (removeBinding binding)
      (fun _ s => Settled binding.workspaceID s ∧ s.state.uses binding.workspaceID = none) fun _ => True := by
  refine (holds_remote_silent _ _).bind fun _ => (holds_remote_silent _ _).bind fun _ => ?_
  exact (holds_drop _ _ fun _ => True).mono (fun _ _ => ⟨trivial, .inl rfl⟩)
    (fun _ _ post => ⟨post.1.2, post.2⟩) fun _ _ => trivial

theorem holds_removeBinding (binding : WorkspaceBinding) :
    Holds manager.config (Settled workspaceID) (removeBinding binding) (fun _ => Settled workspaceID)
      (Settled workspaceID) := by
  refine (holds_remote_silent _ _).bind fun _ => (holds_remote_silent _ _).bind fun _ => ?_
  exact (holds_drop _ _ fun _ => True).mono (fun _ settled => ⟨trivial, .inr settled⟩)
    (fun _ _ post => post.1.2) fun _ => And.right

theorem holds_disconnectLoop (bindings : List WorkspaceBinding) :
    Holds manager.config (Settled workspaceID) (disconnectLoop bindings) (fun _ => Settled workspaceID)
      (Settled workspaceID) := by
  induction bindings with
  | nil => exact holds_pure ()
  | cons binding rest ih => exact (holds_removeBinding binding).await.bind fun _ => ih

theorem holds_disconnectLoop_mem {bindings : List WorkspaceBinding}
    (member : workspaceID ∈ bindings.map WorkspaceBinding.workspaceID) :
    Holds manager.config (fun _ => True) (disconnectLoop bindings) (fun _ => Settled workspaceID) fun _ => True := by
  induction bindings with
  | nil => cases member
  | cons binding rest ih =>
      rw [List.map_cons, List.mem_cons] at member
      rcases member with rfl | later
      · refine (holds_removeBinding_self binding).await.bind fun _ => ?_
        exact (holds_disconnectLoop rest).mono (fun _ => And.left) (fun _ _ => id) fun _ _ => trivial
      · exact (holds_trivial _).bind fun _ => ih later

theorem holds_remoteDisconnect (asked : Option String) :
    Holds manager.config (Settled workspaceID) (remoteDisconnect asked) (fun _ => Settled workspaceID)
      (Settled workspaceID) := by
  refine (holds_listBindings _).bind fun all => ?_
  dsimp only
  split
  · exact fun _ _ post _ => post.2
  · exact ((holds_disconnectLoop _).mono (fun _ => And.right) (fun _ _ => id) fun _ => id).bind fun _ => holds_pure _

theorem holds_doctorBinding (providerName : String) (host : Option String) :
    Holds manager.config (Settled workspaceID) (doctorBinding manager providerName host)
      (fun _ => Settled workspaceID) (Settled workspaceID) := by
  refine (holds_findReusableBinding _ _).await.bind fun found => ?_
  cases found with
  | some binding => exact holds_pure _
  | none => exact (holds_createConnectedBinding _ _ _).await.bind fun _ => holds_pure _

theorem holds_doctorHealth (binding : WorkspaceBinding) (createdForDoctor : Bool) (pre : Store → Prop) :
    Holds manager.config pre (doctorHealth binding createdForDoctor) (fun _ => pre) pre := by
  refine (holds_silent _ _).bind fun response => ?_
  dsimp only
  split
  · exact (holds_silent _ _).bind fun _ => holds_pure _
  · exact (holds_silent _ _).bind fun _ => holds_throw _

/-- A call whose exceptions become replies. -/
theorem holds_reporting {f : Async Reply} {pre post : Store → Prop}
    (holds : Holds manager.config pre f (fun _ => post) post) (thrown : Store → Prop) :
    Holds manager.config pre (reporting f) (fun _ => post) thrown :=
  holds.tryCatch fun _ => holds_pure _

theorem holds_remoteDoctor (host provider : Option String) :
    Holds manager.config (Settled workspaceID) (remoteDoctor manager host provider) (fun _ => Settled workspaceID)
      (Settled workspaceID) := by
  refine Holds.bind ((holds_doctorBinding _ host).outcome (Settled workspaceID)) fun made => ?_
  cases made with
  | error e => exact holds_pure _
  | ok made =>
      obtain ⟨binding, createdForDoctor⟩ := made
      refine Holds.bind (holds_reporting (holds_doctorHealth binding createdForDoctor _) _) fun reply => ?_
      cases createdForDoctor with
      | true =>
          refine Holds.bind (Holds.tryCatch (holds_removeBinding binding).await fun _ => holds_pure ()) fun _ => ?_
          exact holds_pure reply
      | false => exact holds_pure reply

/-! ## The calls -/

theorem holds_getTarget (workspace : WorkspaceInfo) : Holds manager.config (Settled workspaceID)
    (getTarget manager workspace) (fun _ => Settled workspaceID) (Settled workspaceID) := by
  refine (holds_getReadyBinding _).await.bind fun found => ?_
  cases found with
  | none => exact holds_throw _
  | some binding => exact holds_pure _

theorem holds_remoteSwitch (host provider : Option String) : Holds manager.config (Settled workspaceID)
    (remoteSwitch manager host provider) (fun _ => Settled workspaceID) (Settled workspaceID) := by
  refine holds_reporting (Holds.bind (holds_findReusableBinding _ _).await fun found => ?_) _
  cases found with
  | some binding => exact (holds_pure binding).bind fun _ => holds_pure _
  | none => exact (holds_createConnectedBinding _ _ _).await.bind fun _ => holds_pure _

theorem holds_remoteWorkspaceCreate (workspaceName : String) (provider host : Option String) :
    Holds manager.config (Settled workspaceID) (remoteWorkspaceCreate manager workspaceName provider host)
      (fun _ => Settled workspaceID) (Settled workspaceID) := by
  refine holds_reporting ?_ _
  cases (truthy provider).or (firstProvider manager) with
  | none => exact holds_throw _
  | some providerName =>
      refine (holds_now _).bind fun now => ?_
      refine Holds.bind ((holds_acquire_of_settled _ _ fun _ => True).mono (fun _ settled => ⟨trivial, settled⟩)
        (fun selection s post => post.2.1) fun _ => And.right) fun selection => ?_
      exact (holds_bootstrapAndBind _ selection).bind fun _ => holds_pure _

/-- What the tool has created is settled. -/
theorem holds_remoteWorkspaceCreate_self (workspaceName : String) (provider host : Option String) :
    Holds manager.config (fun _ => True) (remoteWorkspaceCreate manager workspaceName provider host)
      (fun reply s => ∀ created providerName on message,
        reply = .created created providerName on message → Settled created s) fun _ => True := by
  refine Holds.tryCatch (m := fun _ => True) ?_ fun e env s _ _ => ?_
  · cases (truthy provider).or (firstProvider manager) with
    | none => exact holds_throw _
    | some providerName =>
        refine (holds_trivial _).bind fun now => (holds_trivial _).bind fun selection => ?_
        refine (holds_bootstrapAndBind_self _ selection).bind fun _ env s settled _ => ?_
        rintro created providerName on message ⟨⟩
        exact settled
  · intro created providerName on message impossible
    cases impossible

theorem holds_removeWorkspace (workspace : WorkspaceInfo) : Holds manager.config (Settled workspaceID)
    (removeWorkspace workspace) (fun _ => Settled workspaceID) (Settled workspaceID) := by
  refine (holds_getBinding _ _).bind fun found => ?_
  cases found with
  | none => exact fun _ _ post _ => post.2
  | some binding =>
      exact (holds_removeBinding binding).await.mono (fun _ => And.right) (fun _ _ => id) fun _ => id

theorem holds_removeWorkspace_self (workspace : WorkspaceInfo) :
    Holds manager.config (Unleased workspace.id) (removeWorkspace workspace)
      (fun _ s => ∀ host, s.leases.holder host ≠ some workspace.id) fun _ => True := by
  refine (holds_getBinding _ _).bind fun found => ?_
  cases found with
  | none =>
      rintro env s ⟨absent, unleased⟩ - host held
      exact unleased absent host (mem_keys_of_holder held) held
  | some binding =>
      rintro env s ⟨found, -⟩ guarded
      have keyed : binding.workspaceID = workspace.id := s.state.keyed _ binding found
      have removed : Holds manager.config (fun _ => True) (await (removeBinding binding))
          (fun _ s => ∀ host, s.leases.holder host ≠ some workspace.id) fun _ => True := by
        refine (holds_removeBinding_self binding).await.mono (fun _ => id) (fun _ s post host held => ?_) fun _ => id
        rw [keyed] at post
        have bound := post.1 host held
        rw [post.2] at bound
        cases bound
      exact removed env s trivial guarded

theorem holds_remoteWorkspaceRemove (asked : String) : Holds manager.config (Settled workspaceID)
    (remoteWorkspaceRemove asked) (fun _ => Settled workspaceID) (Settled workspaceID) := by
  refine (holds_getBinding _ _).bind fun found => ?_
  cases found with
  | none => exact fun _ _ post _ => post.2
  | some binding =>
      refine Holds.bind ((holds_removeBinding binding).await.mono (fun _ => And.right) (fun _ _ => id) fun _ => id)
        fun _ => holds_pure _

theorem holds_remoteWorkspaceRemove_self (asked : String) :
    Holds manager.config (fun _ => True) (remoteWorkspaceRemove asked)
      (fun reply s => ∀ message, reply = .removed message → Settled asked s) fun _ => True := by
  refine (holds_getBinding _ _).bind fun found => ?_
  cases found with
  | none =>
      intro env s _ _ message impossible
      cases impossible
  | some binding =>
      rintro env s ⟨found, -⟩ guarded
      have keyed : binding.workspaceID = asked := s.state.keyed _ binding found
      have removed : Holds manager.config (fun _ => True) (do
          await (removeBinding binding)
          pure (Reply.removed s!"Workspace {asked} removed"))
          (fun reply s => ∀ message, reply = Reply.removed message → Settled asked s) fun _ => True :=
        (holds_removeBinding_self binding).await.bind fun _ env s post _ message _ => keyed ▸ post.1
      exact removed env s trivial guarded

theorem holds_remoteDisconnect_self (workspaceID : String) (asked : Option String) :
    Holds manager.config (fun _ => True) (remoteDisconnect asked)
      (fun reply s => ∀ removed message, reply = .disconnected removed message → workspaceID ∈ removed →
        Settled workspaceID s) fun _ => True := by
  refine (holds_trivial _).bind fun all => ?_
  dsimp only
  split
  · intro env s _ _ removed message impossible
    cases impossible
  · by_cases member : workspaceID ∈ (toDisconnect asked all).map WorkspaceBinding.workspaceID
    · refine (holds_disconnectLoop_mem member).bind fun _ env s settled _ removed message _ _ => settled
    · refine (holds_trivial _).bind fun _ env s _ _ removed message same here => ?_
      cases same
      exact absurd here member

theorem holds_createWorkspace_self (workspace : WorkspaceInfo) :
    Holds manager.config (Claimed manager.config workspace) (createWorkspace manager workspace)
      (fun _ => Settled workspace.id) (Settled workspace.id) := by
  cases requested : providerRequestForWorkspace workspace with
  | error e =>
      have ran : createWorkspace manager workspace = throw e := by
        rw [createWorkspace, requested]
        rfl
      rw [ran]
      intro env s claimed _ host held
      rcases claimed host (mem_keys_of_holder held) held with bound | given
      · exact bound
      · rw [selected, requested] at given
        cases given
  | ok request =>
      have ran : createWorkspace manager workspace =
          acquireResolved request workspace.id >>= bootstrapAndBind manager workspace.id := by
        rw [createWorkspace, requested]
        rfl
      rw [ran]
      refine Holds.bind ((holds_acquireResolved request workspace.id fun _ => True).mono ?_
        (fun selection s post => post.2.1) fun _ => And.right) fun selection => holds_bootstrapAndBind _ selection
      refine fun s claimed => ⟨trivial, fun leased held => ?_⟩
      rcases claimed leased (mem_keys_of_holder held) held with bound | given
      · exact .inl bound
      · rw [selected, requested] at given
        obtain ⟨picked, found, same⟩ := Option.map_eq_some_iff.mp given
        exact .inr ⟨rfl, picked, found, same⟩

theorem holds_createWorkspace (workspace : WorkspaceInfo) : Holds manager.config (Settled workspaceID)
    (createWorkspace manager workspace) (fun _ => Settled workspaceID) (Settled workspaceID) := by
  refine (holds_given (providerRequestForWorkspace workspace)).bind fun request => ?_
  refine Holds.bind ((holds_acquire_of_settled _ _ fun _ => True).mono (fun _ settled => ⟨trivial, settled⟩)
    (fun selection s post => post.2.1) fun _ => And.right) fun selection => holds_bootstrapAndBind _ selection

theorem holds_configureWorkspace (workspace : WorkspaceInfo) : Holds manager.config (Settled workspaceID)
    (configureWorkspace workspace) (fun _ s => workspaceID = workspace.id ∨ Settled workspaceID s)
      (Settled workspaceID) := by
  refine (holds_given (providerRequestForWorkspace workspace)).bind fun request => ?_
  refine Holds.bind ((holds_acquire_of_settled _ _ fun _ => True).mono (fun _ settled => ⟨trivial, settled⟩)
    (fun selection s post => post.2.1) fun _ => And.right) fun selection _ _ owing _ => ?_
  exact owing.settled_or_owner

end Calls

end Async

/-! ## Sequences of calls -/

structure Call where
  request : Request
  env : Nat → Env

/-- The workspace that a call has configured. -/
def opens : Request → Except String Reply → List String
  | .configure workspace, .ok _ => [workspace.id]
  | _, _ => []

/-- The workspaces that a call has created, failed to create or removed. -/
def closes : Request → Except String Reply → List String
  | .create workspace, _ => [workspace.id]
  | .remove workspace, .ok _ => [workspace.id]
  | .remoteWorkspaceCreate .., .ok (.created workspaceID ..) => [workspaceID]
  | .remoteWorkspaceRemove workspaceID, .ok (.removed _) => [workspaceID]
  | .remoteDisconnect _, .ok (.disconnected removed _) => removed
  | _, _ => []

/-- The tables after some calls, and the workspaces that are configured and nothing more. -/
structure Ledger where
  store : Store
  configured : List String

namespace Ledger

def empty : Ledger := ⟨.empty, []⟩

def next (manager : SSHManager) (ledger : Ledger) (call : Call) : Ledger :=
  let (result, store, _) := Async.alone manager.config (serve manager call.request) call.env ledger.store
  ⟨store, (opens call.request result ++ ledger.configured).filter
    fun workspaceID => !(closes call.request result).contains workspaceID⟩

/-- The ledger after calls that come one after the other. -/
def after (manager : SSHManager) (ledger : Ledger) (calls : List Call) : Ledger := calls.foldl (next manager) ledger

end Ledger

/-- The call strands no lease, and what it creates or removes has leased no other host. -/
def Prudent (manager : SSHManager) (s : Store) (call : Call) : Prop :=
  (match call.request with
    | .create workspace => Claimed manager.config workspace s
    | .remove workspace => Unleased workspace.id s
    | _ => True) ∧
  (serve manager call.request).run.Guarded (exec manager.config) (Tidy manager.config) call.env s

def AllPrudent (manager : SSHManager) : Ledger → List Call → Prop
  | _, [] => True
  | ledger, call :: rest =>
      Prudent manager ledger.store call ∧ AllPrudent manager (ledger.next manager call) rest

instance (workspaceID : String) (s : Store) : Decidable (Unleased workspaceID s) :=
  inferInstanceAs (Decidable (_ → ∀ _ ∈ s.leases.keys, _))

instance (config : ResolvedPluginConfig) (workspace : WorkspaceInfo) (s : Store) :
    Decidable (Claimed config workspace s) := inferInstanceAs (Decidable (∀ _ ∈ s.leases.keys, _))

instance (manager : SSHManager) (s : Store) : (call : Call) → Decidable (Prudent manager s call)
  | ⟨.create workspace, _⟩ => inferInstanceAs (Decidable (Claimed manager.config workspace s ∧ _))
  | ⟨.remove workspace, _⟩ => inferInstanceAs (Decidable (Unleased workspace.id s ∧ _))
  | ⟨.configure _, _⟩ | ⟨.target _, _⟩ | ⟨.remoteWorkspaceCreate .., _⟩ | ⟨.remoteSwitch .., _⟩
  | ⟨.remoteStatus, _⟩ | ⟨.remoteDisconnect _, _⟩ | ⟨.remoteDoctor .., _⟩ | ⟨.remoteWorkspaceList, _⟩
  | ⟨.remoteWorkspaceRemove _, _⟩ => inferInstanceAs (Decidable (True ∧ _))

def decidableAllPrudent (manager : SSHManager) (ledger : Ledger) :
    (calls : List Call) → Decidable (AllPrudent manager ledger calls)
  | [] => .isTrue trivial
  | call :: rest =>
      have := decidableAllPrudent manager (ledger.next manager call) rest
      inferInstanceAs (Decidable (Prudent manager ledger.store call ∧ _))

instance (manager : SSHManager) (ledger : Ledger) (calls : List Call) : Decidable (AllPrudent manager ledger calls) :=
  decidableAllPrudent manager ledger calls

section Sequences

variable {manager : SSHManager} {workspaceID : String}

open Async

variable (manager workspaceID) in
/-- A call leaves the accounts of all workspaces settled, but for the one that it configures. -/
theorem holds_serve (request : Request) : Holds manager.config (Settled workspaceID) (serve manager request)
    (fun reply s => workspaceID ∈ opens request (.ok reply) ∨ Settled workspaceID s) (Settled workspaceID) := by
  have keeps : ∀ {f : Async Reply}, Holds manager.config (Settled workspaceID) f (fun _ => Settled workspaceID)
      (Settled workspaceID) → Holds manager.config (Settled workspaceID) f
        (fun reply s => workspaceID ∈ opens request (.ok reply) ∨ Settled workspaceID s) (Settled workspaceID) :=
    fun holds => holds.mono (fun _ => id) (fun _ _ => .inr) fun _ => id
  cases request with
  | configure workspace =>
      refine (holds_configureWorkspace workspace).bind fun configured env s post _ => ?_
      exact post.imp_left fun own => List.mem_singleton.mpr own
  | create workspace => exact keeps ((holds_createWorkspace workspace).bind fun _ => holds_pure _)
  | remove workspace => exact keeps ((holds_removeWorkspace workspace).bind fun _ => holds_pure _)
  | target workspace => exact keeps (holds_getTarget workspace)
  | remoteWorkspaceCreate workspaceName provider host =>
      exact keeps (holds_remoteWorkspaceCreate workspaceName provider host)
  | remoteSwitch host provider => exact keeps (holds_remoteSwitch host provider)
  | remoteStatus => exact keeps holds_remoteStatus
  | remoteDisconnect asked => exact keeps (holds_remoteDisconnect asked)
  | remoteDoctor host provider => exact keeps (holds_remoteDoctor host provider)
  | remoteWorkspaceList => exact keeps holds_remoteWorkspaceList
  | remoteWorkspaceRemove asked => exact keeps (holds_remoteWorkspaceRemove asked)

variable (manager workspaceID) in
/-- Where a call ends the time of a configured workspace, the accounts of that are settled. -/
theorem holds_serve_closed (request : Request) : Holds manager.config
    (fun s => match request with
      | .create workspace => Claimed manager.config workspace s
      | .remove workspace => Unleased workspace.id s
      | _ => True)
    (serve manager request)
    (fun reply s => workspaceID ∈ closes request (.ok reply) → Settled workspaceID s)
    (fun s => ∀ e, workspaceID ∈ closes request (.error e) → Settled workspaceID s) := by
  have silent : ∀ {pre : Store → Prop}, (∀ result, workspaceID ∉ closes request result) →
      Holds manager.config pre (serve manager request)
        (fun reply s => workspaceID ∈ closes request (.ok reply) → Settled workspaceID s)
        (fun s => ∀ e, workspaceID ∈ closes request (.error e) → Settled workspaceID s) :=
    fun open_ => (holds_trivial _).mono (fun _ => id) (fun _ _ _ member => absurd member (open_ _))
      fun _ _ _ member => absurd member (open_ _)
  cases request with
  | create workspace =>
      refine Holds.bind ((holds_createWorkspace_self workspace).mono (fun _ => id) (fun _ _ => id) ?_) ?_
      · rintro s settled e member
        exact List.mem_singleton.mp member ▸ settled
      · intro _ env s settled _ member
        exact List.mem_singleton.mp member ▸ settled
  | remove workspace =>
      refine Holds.bind ((holds_removeWorkspace_self workspace).mono (fun _ => id) (fun _ _ => id) ?_) ?_
      · intro s _ e member
        cases member
      · intro _ env s unleased _ member host held
        exact absurd (List.mem_singleton.mp member ▸ held) (unleased host)
  | remoteWorkspaceCreate workspaceName provider host =>
      refine (holds_remoteWorkspaceCreate_self workspaceName provider host).mono (fun _ => id) ?_ ?_
      · intro reply s settled member
        cases reply with
        | created created provider on message =>
            exact List.mem_singleton.mp member ▸ settled created provider on message rfl
        | _ => cases member
      · intro s _ e member
        cases member
  | remoteDisconnect asked =>
      refine (holds_remoteDisconnect_self workspaceID asked).mono (fun _ _ => trivial) ?_ ?_
      · intro reply s settled member
        cases reply with
        | disconnected removed message => exact settled removed message rfl member
        | _ => cases member
      · intro s _ e member
        cases member
  | remoteWorkspaceRemove asked =>
      refine (holds_remoteWorkspaceRemove_self asked).mono (fun _ => id) ?_ ?_
      · intro reply s settled member
        cases reply with
        | removed message => exact List.mem_singleton.mp member ▸ settled message rfl
        | _ => cases member
      · intro s _ e member
        cases member
  | configure workspace => exact silent fun result => by cases result <;> exact List.not_mem_nil
  | target workspace => exact silent fun result => by cases result <;> exact List.not_mem_nil
  | remoteSwitch host provider => exact silent fun result => by cases result <;> exact List.not_mem_nil
  | remoteStatus => exact silent fun result => by cases result <;> exact List.not_mem_nil
  | remoteDoctor host provider => exact silent fun result => by cases result <;> exact List.not_mem_nil
  | remoteWorkspaceList => exact silent fun result => by cases result <;> exact List.not_mem_nil

/-- One call keeps the books. -/
theorem settled_next {ledger : Ledger} {call : Call} (prudent : Prudent manager ledger.store call)
    (before : workspaceID ∈ ledger.configured ∨ Settled workspaceID ledger.store) :
    workspaceID ∈ (ledger.next manager call).configured ∨
      Settled workspaceID (ledger.next manager call).store := by
  obtain ⟨due, guarded⟩ := prudent
  have served := holds_serve manager workspaceID call.request call.env ledger.store
  have closed := holds_serve_closed manager workspaceID call.request call.env ledger.store due guarded
  rw [Ledger.next, alone]
  generalize (serve manager call.request).run.run (exec manager.config) call.env ledger.store = ran
    at served closed ⊢
  obtain ⟨result, s', env'⟩ := ran
  dsimp only at served closed ⊢
  have listed {opened : List String} (open_ : workspaceID ∉ closes call.request result)
      (member : workspaceID ∈ opened) :
      workspaceID ∈ opened.filter fun other => !(closes call.request result).contains other := by
    rw [List.mem_filter]
    exact ⟨member, by simpa using open_⟩
  by_cases ends : workspaceID ∈ closes call.request result
  · cases result with
    | ok reply => exact .inr (closed ends)
    | error e => exact .inr (closed e ends)
  · rcases before with waiting | settled
    · exact .inl (listed ends (List.mem_append_right _ waiting))
    · have kept := served settled guarded
      cases result with
      | ok reply => exact kept.imp_left fun opened => listed ends (List.mem_append_left _ opened)
      | error e => exact .inr kept

theorem settled_after {ledger : Ledger} {calls : List Call} (prudent : AllPrudent manager ledger calls)
    (before : workspaceID ∈ ledger.configured ∨ Settled workspaceID ledger.store) :
    workspaceID ∈ (ledger.after manager calls).configured ∨
      Settled workspaceID (ledger.after manager calls).store := by
  induction calls generalizing ledger with
  | nil => exact before
  | cons call rest ih => exact ih prudent.2 (settled_next prudent.1 before)

theorem allPrudent_append {ledger : Ledger} {earlier later : List Call} :
    AllPrudent manager ledger (earlier ++ later) ↔
      AllPrudent manager ledger earlier ∧ AllPrudent manager (ledger.after manager earlier) later := by
  induction earlier generalizing ledger with
  | nil => exact (true_and _).symm.to_iff
  | cons call rest ih =>
      rw [List.cons_append, AllPrudent, AllPrudent, ih, and_assoc]
      rfl

end Sequences

/-- If all calls are prudent, leases are accounted for after any number of calls, and a workspace
    that has been removed has none. -/
theorem accounted_of_prudent (manager : SSHManager) (calls : List Call)
    (prudent : AllPrudent manager .empty calls) :
    (∀ host workspaceID, (Ledger.empty.after manager calls).store.leases.holder host = some workspaceID →
      workspaceID ∉ (Ledger.empty.after manager calls).configured →
        ∃ binding ∈ (Ledger.empty.after manager calls).store.state.list,
          binding.workspaceID = workspaceID ∧ binding.host = host) ∧
    ∀ earlier workspace env reply, calls = earlier ++ [⟨.remove workspace, env⟩] →
      (Async.alone manager.config (serve manager (.remove workspace)) env
        (Ledger.empty.after manager earlier).store).1 = .ok reply →
      ∀ host, (Ledger.empty.after manager calls).store.leases.holder host ≠ some workspace.id := by
  constructor
  · intro host workspaceID held done
    have settled := (settled_after prudent (.inr (settled_empty workspaceID))).resolve_left done
    exact uses_eq_some.mp (settled host held)
  · rintro earlier workspace env reply rfl returned
    obtain ⟨-, last, -⟩ := allPrudent_append.mp prudent
    obtain ⟨unleased, guarded⟩ := last
    have removed : Async.Holds manager.config (Unleased workspace.id) (serve manager (.remove workspace))
        (fun _ s => ∀ host, s.leases.holder host ≠ some workspace.id) fun _ => True :=
      (Async.holds_removeWorkspace_self workspace).bind fun _ => Async.holds_pure _
    have after := removed env _ unleased guarded
    rw [Async.alone] at returned
    rw [returned] at after
    rw [Ledger.after, List.foldl_append]
    exact after

/-- A host that answers once a tunnel has been opened. -/
def warming (n : Nat) : Env := world true (decide (31 ≤ n))

/-- Configured, created, used and removed. -/
def lifetime : List Call :=
  [⟨.configure (inLab "w"), fun _ => world true true⟩, ⟨.create (inLab "w"), warming⟩,
    ⟨.target (inLab "w"), fun _ => world true true⟩, ⟨.remove (inLab "w"), fun _ => world true false⟩]

theorem accounted_over_lifetime :
    (∀ host workspaceID, (Ledger.empty.after labManager lifetime).store.leases.holder host = some workspaceID →
      ∃ binding ∈ (Ledger.empty.after labManager lifetime).store.state.list,
        binding.workspaceID = workspaceID ∧ binding.host = host) ∧
    ∀ host, (Ledger.empty.after labManager lifetime).store.leases.holder host ≠ some "w" := by
  obtain ⟨accounts, removed⟩ := accounted_of_prudent labManager lifetime (by decide +kernel)
  have closed : (Ledger.empty.after labManager lifetime).configured = [] := by decide +kernel
  exact ⟨fun host workspaceID held => accounts host workspaceID held (by simp [closed]),
    removed (lifetime.take 3) (inLab "w") _ .done rfl rfl⟩

/-- A workspace is configured and then removed without having been created. -/
def abandoned : List Call :=
  [⟨.configure (inLab "w"), fun _ => world true true⟩, ⟨.remove (inLab "w"), fun _ => world true true⟩]

theorem not_accounted_after_abandoning :
    ¬∀ (manager : SSHManager) (calls : List Call), manager.config.defaults.leaseMode = .exclusive →
      (Ledger.empty.after manager calls).configured = [] →
      ∀ host workspaceID, (Ledger.empty.after manager calls).store.leases.holder host = some workspaceID →
        ∃ binding ∈ (Ledger.empty.after manager calls).store.state.list,
          binding.workspaceID = workspaceID ∧ binding.host = host := by
  intro always_accounted
  have accounted := always_accounted labManager abandoned rfl (by decide +kernel) "web" "w" (by decide +kernel)
  have unbound : (Ledger.empty.after labManager abandoned).store.state.uses "w" = none := by decide +kernel
  rw [uses_eq_some.mpr accounted] at unbound
  cases unbound

end OpencodeRemote.Plugin
