import OpencodeRemote.Plugin.Index

/-! # Acquiring before binding

A call that stores a new binding has chosen its workspace before: the acquisition of a host
in the workspace's name is among the earlier operations of the same call. `Permitted` says
of an asynchronous function under which workspace ids it may store a binding.
-/

namespace OpencodeRemote.Plugin

open Concurrency Data

def Chosen (past : List PluginEvent) (workspaceID : String) : Prop :=
  ∃ request result, ⟨.acquireResolved request workspaceID, result⟩ ∈ past

/-- `setBinding` comes after an acquisition for the same workspace. -/
def ChosenFirst (past : List PluginEvent) (event : PluginEvent) : Prop :=
  ∀ binding, event.op = .stateSet binding → Chosen past binding.workspaceID

namespace Async

variable {α β : Type} {chosen : List String}

/-- Run by a call that has chosen these workspace ids, the function stores new bindings for
    workspaces chosen before only. -/
def Permitted (chosen : List String) (f : Async α) : Prop :=
  ∀ past, (∀ workspaceID ∈ chosen, Chosen past workspaceID) →
    f.run.Obeys ChosenFirst past fun past' _ => past ⊆ past'

theorem permitted_pure (a : α) : Permitted chosen (pure a : Async α) := fun _ _ => List.Subset.refl _

theorem permitted_throw (e : String) : Permitted chosen (throw e : Async α) :=
  fun _ _ => List.Subset.refl _

private theorem obeys_seq {γ δ : Type} {t : Program Op Res γ} {k : γ → Program Op Res δ}
    {past : List PluginEvent} (known : ∀ workspaceID ∈ chosen, Chosen past workspaceID)
    (first : t.Obeys ChosenFirst past fun past' _ => past ⊆ past')
    (next : ∀ c past', (∀ workspaceID ∈ chosen, Chosen past' workspaceID) →
      (k c).Obeys ChosenFirst past' fun past'' _ => past' ⊆ past'') :
    (t.bind k).Obeys ChosenFirst past fun past' _ => past ⊆ past' := by
  refine Program.obeys_bind.mpr (first.mono fun past' c grown => ?_)
  have still : ∀ workspaceID ∈ chosen, Chosen past' workspaceID := by
    intro workspaceID member
    obtain ⟨request, result, acquired⟩ := known workspaceID member
    exact ⟨request, result, grown acquired⟩
  exact (next c past' still).mono fun _ _ further _ member => further (grown member)

theorem Permitted.bind {f : Async α} {g : α → Async β} (first : Permitted chosen f)
    (next : ∀ a, Permitted chosen (g a)) : Permitted chosen (f >>= g) := by
  intro past known
  apply obeys_seq (k := ExceptT.bindCont g) known (first past known)
  intro outcome past' still
  cases outcome with
  | ok a => exact next a past' still
  | error e => exact List.Subset.refl _

theorem Permitted.tryCatch {f : Async α} {handler : String → Async α} (first : Permitted chosen f)
    (next : ∀ e, Permitted chosen (handler e)) : Permitted chosen (tryCatch f handler) := by
  intro past known
  rw [run_tryCatch]
  apply obeys_seq known (first past known)
  intro outcome past' still
  cases outcome with
  | ok a => exact List.Subset.refl _
  | error e => exact next e past' still

/-- After the acquisition the workspace id is a chosen one. -/
theorem permitted_acquire {request : HostSelectionRequest} {workspaceID : String}
    {g : ResolvedHost → Async α} (next : ∀ selection, Permitted (workspaceID :: chosen) (g selection)) :
    Permitted chosen (acquireResolved request workspaceID >>= g) := by
  intro past known result
  refine ⟨fun _ same => (by cases same), ?_⟩
  have grown : past ⊆ past ++ [⟨.acquireResolved request workspaceID, result⟩] := List.subset_append_left ..
  cases result with
  | error e => exact grown
  | ok selection =>
      have still : ∀ other ∈ workspaceID :: chosen,
          Chosen (past ++ [⟨.acquireResolved request workspaceID, .ok selection⟩]) other := by
        intro other member
        cases List.mem_cons.mp member with
        | inl same => exact ⟨request, .ok selection, by simp [same]⟩
        | inr older =>
            obtain ⟨earlier, answer, acquired⟩ := known other older
            exact ⟨earlier, answer, grown acquired⟩
      exact (next selection _ still).mono fun _ _ further _ member => further (grown member)

theorem permitted_setBinding {binding : WorkspaceBinding} (choice : binding.workspaceID ∈ chosen) :
    Permitted chosen (setBinding binding) := by
  intro past known result
  refine ⟨fun other same => ?_, List.subset_append_left ..⟩
  cases same
  exact known _ choice

/-- Every other operation is permitted at any time. -/
theorem permitted_op (o : Op) (other : ∀ binding, o ≠ .stateSet binding) {γ : Type}
    (k : Res o → Except String γ) :
    Permitted chosen (ExceptT.mk ((Program.perform o).bind fun r => .pure (k r)) : Async γ) :=
  fun _ _ _ => ⟨fun binding same => absurd same (other binding), List.subset_append_left ..⟩

theorem permitted_now : Permitted chosen now := permitted_op (.remote .now) (by simp) .ok

theorem permitted_acquireResolved (request : HostSelectionRequest) (workspaceID : String) :
    Permitted chosen (acquireResolved request workspaceID) :=
  permitted_op (.acquireResolved request workspaceID) (by simp) id

theorem permitted_release (host workspaceID : String) : Permitted chosen (release host workspaceID) :=
  permitted_op (.release host workspaceID) (by simp) .ok

theorem permitted_drop (host workspaceID : String) : Permitted chosen (drop host workspaceID) :=
  permitted_op (.drop host workspaceID) (by simp) id

theorem permitted_replaceBinding (binding : WorkspaceBinding) :
    Permitted chosen (replaceBinding binding) := permitted_op (.stateReplace binding) (by simp) id

theorem permitted_getBinding (workspaceID : String) : Permitted chosen (getBinding workspaceID) :=
  permitted_op (.stateGet workspaceID) (by simp) .ok

theorem permitted_listBindings : Permitted chosen listBindings := permitted_op .stateList (by simp) .ok

theorem permitted_deleteBinding (workspaceID : String) : Permitted chosen (deleteBinding workspaceID) :=
  permitted_op (.stateDelete workspaceID) (by simp) id

theorem permitted_outside (f : Remote α) : Permitted chosen (outside f) :=
  fun _ _ => Program.obeys_hoist f.run (fun _ _ _ _ same => by cases same) fun _ _ _ => List.subset_append_left ..

theorem permitted_remote (f : Remote α) : Permitted chosen (remote f) := permitted_outside _

theorem Permitted.await {f : Async α} (first : Permitted chosen f) : Permitted chosen (await f) := by
  intro past known
  refine obeys_seq known (first past known) fun outcome past' _ => ?_
  exact fun _ => ⟨fun _ same => (by cases same), List.subset_append_left ..⟩

theorem Permitted.outcome {f : Async α} (first : Permitted chosen f) : Permitted chosen (outcome f) := by
  intro past known
  exact obeys_seq known (first past known) fun _ _ _ => List.Subset.refl _

end Async

/-! ## The calls -/

section Calls

open Async

variable (manager : SSHManager) {chosen : List String}

theorem permitted_createConnectedBinding (providerName : String) (host : Option String)
    (workspaceName : String) :
    Permitted chosen (createConnectedBinding manager providerName host workspaceName) := by
  refine permitted_now.bind fun now => permitted_acquire fun selection => .tryCatch ?_ fun e => ?_
  · refine (permitted_remote _).bind fun bootstrap => (permitted_remote _).bind fun _ => ?_
    refine (permitted_remote _).bind fun sessionID => .bind ?_ fun _ => permitted_pure _
    exact permitted_setBinding (by simp [newBinding])
  · exact (permitted_release _ _).bind fun _ => permitted_throw e

theorem permitted_reuseOrDrop (providerName : String) (host : Option String) (binding : WorkspaceBinding) :
    Permitted chosen (reuseOrDrop manager providerName host binding) := by
  refine .tryCatch (.bind (permitted_acquireResolved _ _) fun selection => ?_) fun e => ?_
  · split
    · exact (permitted_release _ _).bind fun _ => permitted_pure _
    · apply (permitted_remote _).bind
      intro recovered
      apply (permitted_outside _).bind
      intro reusable
      exact (permitted_replaceBinding _).bind fun _ => permitted_pure _
  · exact (permitted_drop _ _).bind fun _ => permitted_pure _

theorem permitted_findReusableBindingLoop (providerName : String) (host : Option String)
    (bindings : List WorkspaceBinding) :
    Permitted chosen (findReusableBindingLoop manager providerName host bindings) := by
  induction bindings with
  | nil => exact permitted_pure _
  | cons binding rest ih =>
      unfold findReusableBindingLoop
      split
      · exact ih
      · apply (permitted_reuseOrDrop manager providerName host binding).bind
        intro found
        cases found with
        | none => exact ih
        | some reusable => exact permitted_pure _

theorem permitted_findReusableBinding (providerName : String) (host : Option String) :
    Permitted chosen (findReusableBinding manager providerName host) :=
  permitted_listBindings.bind fun bindings => permitted_findReusableBindingLoop manager _ _ bindings

theorem permitted_ensureBindingReady (binding : WorkspaceBinding) :
    Permitted chosen (ensureBindingReady manager binding) := by
  apply (permitted_acquireResolved _ _).bind
  intro selection
  apply (permitted_remote _).bind
  intro recovered
  split
  · exact (permitted_replaceBinding _).bind fun _ => permitted_pure _
  · exact permitted_pure _

theorem permitted_removeBinding (binding : WorkspaceBinding) : Permitted chosen (removeBinding binding) :=
  (permitted_remote _).bind fun _ => (permitted_remote _).bind fun _ => permitted_drop _ _

theorem permitted_bootstrapAndBind {workspaceID : String} (choice : workspaceID ∈ chosen)
    (selection : ResolvedHost) : Permitted chosen (bootstrapAndBind manager workspaceID selection) :=
  .tryCatch ((permitted_remote _).bind fun _ => permitted_setBinding choice)
    fun e => (permitted_release _ _).bind fun _ => permitted_throw e

theorem permitted_reporting {f : Async Reply} (permitted : Permitted chosen f) :
    Permitted chosen (reporting f) := permitted.tryCatch fun _ => permitted_pure _

theorem permitted_request (workspace : WorkspaceInfo) : Permitted chosen
    (ExceptT.mk (pure (providerRequestForWorkspace workspace)) : Async HostSelectionRequest) :=
  fun _ _ => List.Subset.refl _

theorem permitted_configureWorkspace (workspace : WorkspaceInfo) :
    Permitted chosen (configureWorkspace workspace) :=
  (permitted_request workspace).bind fun _ => (permitted_acquireResolved _ _).bind fun _ => permitted_pure _

theorem permitted_createWorkspace (workspace : WorkspaceInfo) :
    Permitted chosen (createWorkspace manager workspace) :=
  (permitted_request workspace).bind fun _ => permitted_acquire fun selection =>
    permitted_bootstrapAndBind manager (by simp) selection

theorem permitted_removeWorkspace (workspace : WorkspaceInfo) :
    Permitted chosen (removeWorkspace workspace) := by
  apply (permitted_getBinding _).bind
  intro found
  cases found with
  | none => exact permitted_pure _
  | some binding => exact (permitted_removeBinding binding).await

theorem permitted_getTarget (workspace : WorkspaceInfo) :
    Permitted chosen (getTarget manager workspace) := by
  have ready : Permitted chosen (getReadyBinding manager workspace.id) := by
    apply (permitted_getBinding _).bind
    intro found
    cases found with
    | none => exact permitted_pure _
    | some binding => exact (permitted_ensureBindingReady manager binding).await.bind fun _ => permitted_pure _
  apply ready.await.bind
  intro found
  cases found with
  | none => exact permitted_throw _
  | some binding => exact permitted_pure _

theorem permitted_remoteWorkspaceCreate (workspaceName : String) (provider host : Option String) :
    Permitted chosen (remoteWorkspaceCreate manager workspaceName provider host) := by
  apply permitted_reporting
  split
  · exact permitted_throw _
  · apply permitted_now.bind
    intro now
    apply permitted_acquire
    intro selection
    exact (permitted_bootstrapAndBind manager (by simp) selection).bind fun _ => permitted_pure _

theorem permitted_remoteSwitch (host provider : Option String) :
    Permitted chosen (remoteSwitch manager host provider) := by
  refine permitted_reporting ((permitted_findReusableBinding manager _ _).await.bind fun found => ?_)
  cases found with
  | none => exact (permitted_createConnectedBinding manager _ _ _).await.bind fun _ => permitted_pure _
  | some binding => exact permitted_pure _

theorem permitted_statusLoop (bindings : List WorkspaceBinding) :
    Permitted chosen (statusLoop manager bindings) := by
  induction bindings with
  | nil => exact permitted_pure _
  | cons binding rest ih =>
      refine .bind (.tryCatch ?_ fun e => ?_) fun entry => ih.bind fun _ => permitted_pure _
      · exact (permitted_ensureBindingReady manager binding).await.bind fun _ => permitted_pure _
      · exact (permitted_deleteBinding _).bind fun _ => (permitted_release _ _).bind fun _ => permitted_pure _

theorem permitted_disconnectLoop (bindings : List WorkspaceBinding) :
    Permitted chosen (disconnectLoop bindings) := by
  induction bindings with
  | nil => exact permitted_pure _
  | cons binding rest ih => exact (permitted_removeBinding binding).await.bind fun _ => ih

theorem permitted_listLoop (bindings : List WorkspaceBinding) :
    Permitted chosen (listLoop manager bindings) := by
  induction bindings with
  | nil => exact permitted_pure _
  | cons binding rest ih =>
      exact (permitted_ensureBindingReady manager binding).await.bind fun _ => ih.bind fun _ => permitted_pure _

theorem permitted_remoteDisconnect (workspaceID : Option String) :
    Permitted chosen (remoteDisconnect workspaceID) := by
  apply permitted_listBindings.bind
  intro bindings
  dsimp only
  split
  · exact permitted_pure _
  · exact (permitted_disconnectLoop _).bind fun _ => permitted_pure _

theorem permitted_remoteDoctor (host provider : Option String) :
    Permitted chosen (remoteDoctor manager host provider) := by
  have connected : Permitted chosen (doctorBinding manager (providerOrDefault manager provider) host) := by
    apply (permitted_findReusableBinding manager _ _).await.bind
    intro found
    cases found with
    | none => exact (permitted_createConnectedBinding manager _ _ _).await.bind fun _ => permitted_pure _
    | some binding => exact permitted_pure _
  have checked : ∀ binding created, Permitted chosen (doctorHealth binding created) := by
    intro binding created
    apply (permitted_outside _).bind
    intro response
    split
    · exact (permitted_outside _).bind fun _ => permitted_pure _
    · exact (permitted_outside _).bind fun _ => permitted_throw _
  apply connected.outcome.bind
  intro outcome
  cases outcome with
  | error e => exact permitted_pure _
  | ok connection =>
      apply (permitted_reporting (checked _ _)).bind
      intro reply
      split
      · refine .bind (.tryCatch (permitted_removeBinding _).await fun _ => permitted_pure _) fun _ => ?_
        exact permitted_pure _
      · exact permitted_pure _

theorem permitted_remoteWorkspaceRemove (workspaceID : String) :
    Permitted chosen (remoteWorkspaceRemove workspaceID) := by
  apply (permitted_getBinding _).bind
  intro found
  cases found with
  | none => exact permitted_pure _
  | some binding => exact (permitted_removeBinding binding).await.bind fun _ => permitted_pure _

/-- Every call stores new bindings only for workspaces that it has chosen. -/
theorem serve_obeys (request : Request) : ((plugin manager).serve request).Obeys ChosenFirst []
    fun _ _ => True := by
  have permitted : Permitted [] (serve manager request) := by
    cases request with
    | configure workspace => exact (permitted_configureWorkspace workspace).bind fun _ => permitted_pure _
    | create workspace => exact (permitted_createWorkspace manager workspace).bind fun _ => permitted_pure _
    | remove workspace => exact (permitted_removeWorkspace workspace).bind fun _ => permitted_pure _
    | target workspace => exact permitted_getTarget manager workspace
    | remoteWorkspaceCreate workspaceName provider host =>
        exact permitted_remoteWorkspaceCreate manager workspaceName provider host
    | remoteSwitch host provider => exact permitted_remoteSwitch manager host provider
    | remoteStatus =>
        exact permitted_listBindings.bind fun _ => (permitted_statusLoop manager _).bind fun _ => permitted_pure _
    | remoteDisconnect workspaceID => exact permitted_remoteDisconnect workspaceID
    | remoteDoctor host provider => exact permitted_remoteDoctor manager host provider
    | remoteWorkspaceList =>
        exact permitted_listBindings.bind fun _ => (permitted_listLoop manager _).bind fun _ => permitted_pure _
    | remoteWorkspaceRemove workspaceID => exact permitted_remoteWorkspaceRemove workspaceID
  exact (permitted [] (by simp)).mono fun _ _ _ => trivial

end Calls

end OpencodeRemote.Plugin
