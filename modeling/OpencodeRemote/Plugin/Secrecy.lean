import OpencodeRemote.Concurrency.Evidence
import OpencodeRemote.Plugin.Exclusivity
import OpencodeRemote.Plugin.Tokens

/-! # Secrecy of the tokens

A run of the plugin does not depend on the values of the tokens. With other tokens the same
calls, answered the same, perform the same operations: each command line, path, port and
pid is what it was, and a token shows only where a token is meant to be.
-/

namespace OpencodeRemote.Plugin

open Concurrency Data Throwing

variable {ρ : String → String}

/-! ## Sessions and workspaces of a stub -/

section Stub

theorem alike_createRemoteSession (binding : WorkspaceBinding) (title : String) :
    Alike (remoteTokens ρ) Eq (createRemoteSession binding title) (createRemoteSession (binding.retoken ρ) title) := by
  refine (Remote.alike_call .now).then fun now => (Remote.alike_fetch _).bind fun response _ same => ?_
  subst same
  split
  · exact alike_pure rfl
  · exact (Remote.alike_read _).then fun _ => alike_throw _

theorem alike_ensureSession (binding : WorkspaceBinding) :
    Alike (remoteTokens ρ) (Retokened ρ) (ensureSession binding) (ensureSession (binding.retoken ρ)) := by
  unfold ensureSession
  dsimp only [WorkspaceBinding.retoken]
  split
  · exact alike_pure rfl
  · refine (Remote.alike_await (alike_createRemoteSession binding _)).bind fun sessionID _ same => ?_
    subst same
    exact alike_pure rfl

theorem alike_createRemoteWorkspace (binding : WorkspaceBinding) :
    Alike (remoteTokens ρ) Eq (createRemoteWorkspace binding) (createRemoteWorkspace (binding.retoken ρ)) := by
  refine (Remote.alike_fetch _).bind fun response _ same => ?_
  subst same
  split
  · exact alike_pure rfl
  · exact (Remote.alike_read _).then fun _ => alike_throw _

theorem alike_bestEffortDelete (binding : WorkspaceBinding) (path : String) :
    Alike (remoteTokens ρ) Eq (bestEffortDelete binding path) (bestEffortDelete (binding.retoken ρ) path) := by
  refine Alike.tryCatch ?_ fun _ => alike_pure rfl
  exact (Remote.alike_fetch _).bind fun _ _ _ => alike_pure rfl

theorem alike_removeRemoteWorkspace (binding : WorkspaceBinding) :
    Alike (remoteTokens ρ) Eq (removeRemoteWorkspace binding) (removeRemoteWorkspace (binding.retoken ρ)) := by
  unfold removeRemoteWorkspace
  dsimp only [WorkspaceBinding.retoken]
  split
  · exact (alike_bestEffortDelete binding _).bind fun _ _ _ => alike_bestEffortDelete binding _
  · exact alike_bestEffortDelete binding _

end Stub

/-! ## Operations on the tables -/

namespace Async

variable {α β : Type} {post : α → β → Prop}

theorem hoist_alike {t : Program RemoteOp RemoteRes α} {t' : Program RemoteOp RemoteRes β}
    (alike : t.Alike (remoteTokens ρ) post t') :
    (t.hoist Op.remote fun _ answer => answer : Program Op Res α).Alike (tokens ρ) post
      (t'.hoist Op.remote fun _ answer => answer) := by
  induction t generalizing t' with
  | pure a =>
      obtain ⟨b, rfl, holds⟩ := alike
      exact ⟨b, rfl, holds⟩
  | op o next ih =>
      obtain ⟨next', rfl, later⟩ := alike
      exact ⟨_, rfl, fun r => ih r (later r)⟩

theorem alike_outside {f : Remote α} {f' : Remote β} (alike : Alike (remoteTokens ρ) post f f') :
    Alike (tokens ρ) post (outside f) (outside f') := hoist_alike alike

theorem alike_remote {f : Remote α} {f' : Remote β} (alike : Alike (remoteTokens ρ) post f f') :
    Alike (tokens ρ) post (remote f) (remote f') := alike_outside (Remote.alike_await alike)

theorem alike_await {f : Async α} {f' : Async β} (alike : Alike (tokens ρ) post f f') :
    Alike (tokens ρ) post (await f) (await f') :=
  Program.alike_bind alike fun _ _ paired => ⟨_, rfl, fun _ => Program.alike_pure paired⟩

theorem alike_outcome {f : Async α} {f' : Async β} (alike : Alike (tokens ρ) post f f') :
    Alike (tokens ρ) (Paired post) (outcome f) (outcome f') :=
  Program.alike_bind alike fun _ _ paired => Program.alike_pure paired

theorem alike_now : Alike (tokens ρ) Eq now now := ⟨_, rfl, fun _ => ⟨_, rfl, rfl⟩⟩

theorem alike_acquireResolved (request : HostSelectionRequest) (workspaceID : String) :
    Alike (tokens ρ) Eq (acquireResolved request workspaceID) (acquireResolved request workspaceID) := by
  refine ⟨_, rfl, fun outcome => ⟨outcome, rfl, ?_⟩⟩
  cases outcome <;> rfl

theorem alike_release (host workspaceID : String) :
    Alike (tokens ρ) Eq (release host workspaceID) (release host workspaceID) := ⟨_, rfl, fun _ => ⟨_, rfl, rfl⟩⟩

theorem alike_drop (host workspaceID : String) :
    Alike (tokens ρ) Eq (drop host workspaceID) (drop host workspaceID) := by
  refine ⟨_, rfl, fun saved => ⟨saved, rfl, ?_⟩⟩
  cases saved <;> rfl

theorem alike_deleteBinding (workspaceID : String) :
    Alike (tokens ρ) Eq (deleteBinding workspaceID) (deleteBinding workspaceID) := by
  refine ⟨_, rfl, fun saved => ⟨saved, rfl, ?_⟩⟩
  cases saved <;> rfl

theorem alike_setBinding (binding : WorkspaceBinding) :
    Alike (tokens ρ) Eq (setBinding binding) (setBinding (binding.retoken ρ)) := by
  refine ⟨_, rfl, fun saved => ⟨saved, rfl, ?_⟩⟩
  cases saved <;> rfl

theorem alike_replaceBinding (binding : WorkspaceBinding) :
    Alike (tokens ρ) Eq (replaceBinding binding) (replaceBinding (binding.retoken ρ)) := by
  refine ⟨_, rfl, fun saved => ⟨saved, rfl, ?_⟩⟩
  cases saved <;> rfl

/-- The same is found, with other tokens. -/
def Found (ρ : String → String) (found found' : Option WorkspaceBinding) : Prop :=
  found' = found.map (WorkspaceBinding.retoken ρ)

def Listed (ρ : String → String) (bindings bindings' : List WorkspaceBinding) : Prop :=
  bindings' = bindings.map (WorkspaceBinding.retoken ρ)

theorem alike_getBinding (workspaceID : String) :
    Alike (tokens ρ) (Found ρ) (getBinding workspaceID) (getBinding workspaceID) := ⟨_, rfl, fun _ => ⟨_, rfl, rfl⟩⟩

theorem alike_listBindings : Alike (tokens ρ) (Listed ρ) listBindings listBindings :=
  ⟨_, rfl, fun _ => ⟨_, rfl, rfl⟩⟩

end Async

/-! ## The calls -/

section Calls

open Async

variable (manager : SSHManager)

theorem alike_createConnectedBinding (providerName : String) (host : Option String) (workspaceName : String) :
    Alike (tokens ρ) (Retokened ρ) (createConnectedBinding manager providerName host workspaceName)
      (createConnectedBinding manager providerName host workspaceName) := by
  refine alike_now.then fun now => (alike_acquireResolved _ _).then fun selection => ?_
  refine Alike.tryCatch ?_ fun e => (alike_release _ _).then fun _ => alike_throw e
  refine (alike_remote (manager.alike_bootstrap _ _)).bind fun result _ same => ?_
  subst same
  let binding := newBinding manager (mintWorkspaceID now workspaceName) selection result
  refine (alike_remote (alike_createRemoteWorkspace binding)).bind fun _ _ _ => ?_
  refine (alike_remote (alike_createRemoteSession binding _)).bind fun sessionID _ same => ?_
  subst same
  exact (alike_setBinding { binding with sessionID := some sessionID }).bind fun _ _ _ => alike_pure rfl

theorem alike_reuseOrDrop (providerName : String) (host : Option String) (binding : WorkspaceBinding) :
    Alike (tokens ρ) (Found ρ) (reuseOrDrop manager providerName host binding)
      (reuseOrDrop manager providerName host (binding.retoken ρ)) := by
  refine Alike.tryCatch ?_ fun _ => (alike_drop _ _).then fun _ => alike_pure rfl
  refine (alike_acquireResolved _ _).then fun selection => ?_
  refine alike_ite Iff.rfl ?_ ?_
  · exact (alike_release _ _).then fun _ => alike_pure rfl
  · refine (alike_remote (manager.alike_ensureRecoveredBinding binding selection)).bind fun recovered _ same => ?_
    subst same
    refine (alike_outside (alike_ensureSession recovered)).bind fun reusable _ same => ?_
    subst same
    exact (alike_replaceBinding reusable).bind fun _ _ _ => alike_pure rfl

theorem alike_findReusableBindingLoop (providerName : String) (host : Option String)
    (bindings : List WorkspaceBinding) :
    Alike (tokens ρ) (Found ρ) (findReusableBindingLoop manager providerName host bindings)
      (findReusableBindingLoop manager providerName host (bindings.map (WorkspaceBinding.retoken ρ))) := by
  induction bindings with
  | nil => exact alike_pure rfl
  | cons binding rest ih =>
      rw [List.map_cons]
      refine alike_ite Iff.rfl ?_ ?_
      · exact ih
      · refine (alike_reuseOrDrop manager providerName host binding).bind fun found _ same => ?_
        subst same
        cases found with
        | none => exact ih
        | some reusable => exact alike_pure rfl

theorem alike_findReusableBinding (providerName : String) (host : Option String) :
    Alike (tokens ρ) (Found ρ) (findReusableBinding manager providerName host)
      (findReusableBinding manager providerName host) := by
  refine alike_listBindings.bind fun bindings _ same => ?_
  subst same
  exact alike_findReusableBindingLoop manager providerName host bindings

theorem alike_ensureBindingReady (binding : WorkspaceBinding) :
    Alike (tokens ρ) (Retokened ρ) (ensureBindingReady manager binding)
      (ensureBindingReady manager (binding.retoken ρ)) := by
  refine (alike_acquireResolved _ _).then fun selection => ?_
  refine (alike_remote (manager.alike_ensureRecoveredBinding binding selection)).bind fun recovered _ same => ?_
  subst same
  refine alike_ite Iff.rfl ?_ ?_
  · exact (alike_replaceBinding recovered).bind fun _ _ _ => alike_pure rfl
  · exact alike_pure rfl

theorem alike_removeBinding (binding : WorkspaceBinding) :
    Alike (tokens ρ) Eq (removeBinding binding) (removeBinding (binding.retoken ρ)) := by
  refine (alike_remote (alike_removeRemoteWorkspace binding)).bind fun _ _ _ => ?_
  refine (alike_remote (SSHManager.alike_closeRecoveredBinding binding)).bind fun _ _ _ => ?_
  exact alike_drop binding.host binding.workspaceID

theorem alike_bootstrapAndBind (workspaceID : String) (selection : ResolvedHost) :
    Alike (tokens ρ) Eq (bootstrapAndBind manager workspaceID selection)
      (bootstrapAndBind manager workspaceID selection) := by
  refine Alike.tryCatch ?_ fun e => (alike_release _ _).then fun _ => alike_throw e
  refine (alike_remote (manager.alike_bootstrap _ _)).bind fun result _ same => ?_
  subst same
  exact alike_setBinding (newBinding manager workspaceID selection result)

/-! ## Replies -/

def StatusEntry.retoken (ρ : String → String) : StatusEntry → StatusEntry
  | .recovered binding => .recovered (binding.retoken ρ)
  | entry => entry

/-- The second reply is the first one with other tokens. -/
inductive Reply.Retokened (ρ : String → String) : Reply → Reply → Prop where
  | target (binding : WorkspaceBinding) : Retokened ρ (.target (url binding) (authorization binding))
      (.target (url binding) (authorization (binding.retoken ρ)))
  | switched (binding : WorkspaceBinding) (message : String) :
      Retokened ρ (.switched (url binding) (authorization binding) binding message)
        (.switched (url binding) (authorization (binding.retoken ρ)) (binding.retoken ρ) message)
  | status (connected : Bool) (workspaces : List StatusEntry) :
      Retokened ρ (.status connected workspaces) (.status connected (workspaces.map (StatusEntry.retoken ρ)))
  | health (binding : WorkspaceBinding) (reused : Bool) (health : String) :
      Retokened ρ (.health binding reused health) (.health (binding.retoken ρ) reused health)
  | listed (workspaces : List WorkspaceBinding) :
      Retokened ρ (.listed workspaces) (.listed (workspaces.map (WorkspaceBinding.retoken ρ)))
  | configured (workspace : WorkspaceInfo) : Retokened ρ (.configured workspace) (.configured workspace)
  | done : Retokened ρ .done .done
  | failure (error : String) : Retokened ρ (.failure error) (.failure error)
  | created (workspaceID provider host message : String) :
      Retokened ρ (.created workspaceID provider host message) (.created workspaceID provider host message)
  | disconnected (removed : List String) (message : String) :
      Retokened ρ (.disconnected removed message) (.disconnected removed message)
  | removed (message : String) : Retokened ρ (.removed message) (.removed message)

theorem alike_reporting {f f' : Async Reply} (alike : Alike (tokens ρ) (Reply.Retokened ρ) f f') :
    Alike (tokens ρ) (Reply.Retokened ρ) (reporting f) (reporting f') :=
  alike.tryCatch fun e => alike_pure (.failure e)

theorem alike_configureWorkspace (workspace : WorkspaceInfo) :
    Alike (tokens ρ) Eq (configureWorkspace workspace) (configureWorkspace workspace) :=
  (alike_of_except _).then fun _ => (alike_acquireResolved _ _).then fun _ => alike_pure rfl

theorem alike_createWorkspace (workspace : WorkspaceInfo) :
    Alike (tokens ρ) Eq (createWorkspace manager workspace) (createWorkspace manager workspace) :=
  (alike_of_except _).then fun _ => (alike_acquireResolved _ _).then fun _ => alike_bootstrapAndBind manager _ _

theorem alike_removeWorkspace (workspace : WorkspaceInfo) :
    Alike (tokens ρ) Eq (removeWorkspace workspace) (removeWorkspace workspace) := by
  refine (alike_getBinding _).bind fun found _ same => ?_
  subst same
  cases found with
  | none => exact alike_pure rfl
  | some binding => exact alike_await (alike_removeBinding binding)

theorem alike_getTarget (workspace : WorkspaceInfo) :
    Alike (tokens ρ) (Reply.Retokened ρ) (getTarget manager workspace) (getTarget manager workspace) := by
  have ready : Alike (tokens ρ) (Found ρ) (getReadyBinding manager workspace.id)
      (getReadyBinding manager workspace.id) := by
    refine (alike_getBinding _).bind fun found _ same => ?_
    subst same
    cases found with
    | none => exact alike_pure rfl
    | some binding =>
        refine (alike_await (alike_ensureBindingReady manager binding)).bind fun ready _ same => ?_
        subst same
        exact alike_pure rfl
  refine (alike_await ready).bind fun found _ same => ?_
  subst same
  cases found with
  | none => exact alike_throw _
  | some binding => exact alike_pure (.target binding)

theorem alike_remoteWorkspaceCreate (workspaceName : String) (provider host : Option String) :
    Alike (tokens ρ) (Reply.Retokened ρ) (remoteWorkspaceCreate manager workspaceName provider host)
      (remoteWorkspaceCreate manager workspaceName provider host) := by
  apply alike_reporting
  split
  · exact alike_throw _
  · refine alike_now.then fun now => (alike_acquireResolved _ _).then fun selection => ?_
    exact (alike_bootstrapAndBind manager _ _).then fun _ => alike_pure (.created _ _ _ _)

theorem alike_remoteSwitch (host provider : Option String) :
    Alike (tokens ρ) (Reply.Retokened ρ) (remoteSwitch manager host provider) (remoteSwitch manager host provider) := by
  refine alike_reporting ((alike_await (alike_findReusableBinding manager _ _)).bind fun found _ same => ?_)
  subst same
  cases found with
  | none =>
      refine (alike_await (alike_createConnectedBinding manager _ _ _)).bind fun binding _ same => ?_
      subst same
      exact alike_pure (.switched binding _)
  | some binding => exact alike_pure (.switched binding _)

theorem alike_statusLoop (bindings : List WorkspaceBinding) :
    Alike (tokens ρ) (fun entries entries' => entries' = entries.map (StatusEntry.retoken ρ))
      (statusLoop manager bindings) (statusLoop manager (bindings.map (WorkspaceBinding.retoken ρ))) := by
  induction bindings with
  | nil => exact alike_pure rfl
  | cons binding rest ih =>
      rw [List.map_cons]
      unfold statusLoop
      refine Alike.bind (?_ : Alike (tokens ρ) (fun entry entry' => entry' = StatusEntry.retoken ρ entry) _ _)
        fun entry _ same => ?_
      · refine Alike.tryCatch ?_ fun _ => ?_
        · refine (alike_await (alike_ensureBindingReady manager binding)).bind fun ready _ same => ?_
          subst same
          exact alike_pure rfl
        · exact (alike_deleteBinding binding.workspaceID).then fun _ =>
            (alike_release binding.host binding.workspaceID).then fun _ => alike_pure rfl
      · subst same
        refine ih.bind fun entries _ same => ?_
        subst same
        exact alike_pure rfl

theorem ready_retoken (entry : StatusEntry) : (entry.retoken ρ).ready = entry.ready := by
  cases entry <;> rfl

theorem alike_remoteStatus :
    Alike (tokens ρ) (Reply.Retokened ρ) (remoteStatus manager) (remoteStatus manager) := by
  refine alike_listBindings.bind fun bindings _ same => ?_
  subst same
  refine (alike_statusLoop manager bindings).bind fun entries _ same => ?_
  subst same
  have any : (entries.map (StatusEntry.retoken ρ)).any StatusEntry.ready = entries.any StatusEntry.ready := by
    simp [List.any_map, Function.comp_def, ready_retoken]
  refine alike_pure ?_
  rw [any]
  exact .status _ entries

theorem alike_disconnectLoop (bindings : List WorkspaceBinding) :
    Alike (tokens ρ) Eq (disconnectLoop bindings)
      (disconnectLoop (bindings.map (WorkspaceBinding.retoken ρ))) := by
  induction bindings with
  | nil => exact alike_pure rfl
  | cons binding rest ih => exact (alike_await (alike_removeBinding binding)).bind fun _ _ _ => ih

theorem toDisconnect_retoken (workspaceID : Option String) (bindings : List WorkspaceBinding) :
    toDisconnect workspaceID (bindings.map (WorkspaceBinding.retoken ρ)) =
      (toDisconnect workspaceID bindings).map (WorkspaceBinding.retoken ρ) := by
  unfold toDisconnect
  split
  · rw [List.filter_map]
    rfl
  · rfl

theorem alike_remoteDisconnect (workspaceID : Option String) :
    Alike (tokens ρ) (Reply.Retokened ρ) (remoteDisconnect workspaceID) (remoteDisconnect workspaceID) := by
  refine alike_listBindings.bind fun bindings _ same => ?_
  subst same
  rw [toDisconnect_retoken]
  simp only [List.map_eq_nil_iff]
  split
  · exact alike_pure (.failure _)
  · refine (alike_disconnectLoop _).bind fun _ _ _ => alike_pure ?_
    rw [List.map_map]
    exact .disconnected _ _

theorem alike_doctorBinding (providerName : String) (host : Option String) :
    Alike (tokens ρ) (fun found found' => found' = (found.1.retoken ρ, found.2)) (doctorBinding manager providerName host)
      (doctorBinding manager providerName host) := by
  refine (alike_await (alike_findReusableBinding manager _ _)).bind fun found _ same => ?_
  subst same
  cases found with
  | none =>
      refine (alike_await (alike_createConnectedBinding manager _ _ _)).bind fun binding _ same => ?_
      subst same
      exact alike_pure rfl
  | some binding => exact alike_pure rfl

theorem alike_doctorHealth (binding : WorkspaceBinding) (createdForDoctor : Bool) :
    Alike (tokens ρ) (Reply.Retokened ρ) (doctorHealth binding createdForDoctor)
      (doctorHealth (binding.retoken ρ) createdForDoctor) := by
  refine (alike_outside (Remote.alike_fetch ⟨"GET", binding.localPort, "/global/health", some binding.token, none⟩)).bind
    fun response _ same => ?_
  subst same
  split
  · exact (alike_outside (Remote.alike_read _)).then fun health => alike_pure (.health binding _ health)
  · exact (alike_outside (Remote.alike_read _)).then fun _ => alike_throw _

theorem alike_remoteDoctor (host provider : Option String) :
    Alike (tokens ρ) (Reply.Retokened ρ) (remoteDoctor manager host provider) (remoteDoctor manager host provider) := by
  refine (alike_outcome (alike_doctorBinding manager _ host)).bind fun found found' paired => ?_
  cases found with
  | error e =>
      cases found' with
      | ok _ => cases paired
      | error e' =>
          cases paired
          exact alike_pure (.failure e)
  | ok found =>
      cases found' with
      | error _ => cases paired
      | ok _ =>
          cases paired
          obtain ⟨binding, createdForDoctor⟩ := found
          refine (alike_reporting (alike_doctorHealth binding createdForDoctor)).bind fun reply reply' related => ?_
          refine alike_ite Iff.rfl ?_ (alike_pure related)
          exact ((alike_await (alike_removeBinding binding)).tryCatch fun _ => alike_pure rfl).bind
            fun _ _ _ => alike_pure related

theorem alike_listLoop (bindings : List WorkspaceBinding) :
    Alike (tokens ρ) (Listed ρ) (listLoop manager bindings)
      (listLoop manager (bindings.map (WorkspaceBinding.retoken ρ))) := by
  induction bindings with
  | nil => exact alike_pure rfl
  | cons binding rest ih =>
      refine (alike_await (alike_ensureBindingReady manager binding)).bind fun ready _ same => ?_
      subst same
      refine ih.bind fun recovered _ same => ?_
      subst same
      exact alike_pure rfl

theorem alike_remoteWorkspaceRemove (workspaceID : String) :
    Alike (tokens ρ) (Reply.Retokened ρ) (remoteWorkspaceRemove workspaceID) (remoteWorkspaceRemove workspaceID) := by
  refine (alike_getBinding _).bind fun found _ same => ?_
  subst same
  cases found with
  | none => exact alike_pure (.failure _)
  | some binding => exact (alike_await (alike_removeBinding binding)).bind fun _ _ _ => alike_pure (.removed _)

/-- No call depends on the tokens. -/
theorem alike_serve (request : Request) :
    Alike (tokens ρ) (Reply.Retokened ρ) (serve manager request) (serve manager request) := by
  cases request with
  | configure workspace => exact (alike_configureWorkspace workspace).then fun _ => alike_pure (.configured _)
  | create workspace => exact (alike_createWorkspace manager workspace).then fun _ => alike_pure .done
  | remove workspace => exact (alike_removeWorkspace workspace).then fun _ => alike_pure .done
  | target workspace => exact alike_getTarget manager workspace
  | remoteWorkspaceCreate workspaceName provider host =>
      exact alike_remoteWorkspaceCreate manager workspaceName provider host
  | remoteSwitch host provider => exact alike_remoteSwitch manager host provider
  | remoteStatus => exact alike_remoteStatus manager
  | remoteDisconnect workspaceID => exact alike_remoteDisconnect workspaceID
  | remoteDoctor host provider => exact alike_remoteDoctor manager host provider
  | remoteWorkspaceList =>
      refine alike_listBindings.bind fun bindings _ same => ?_
      subst same
      refine (alike_listLoop manager bindings).bind fun recovered _ same => ?_
      subst same
      exact alike_pure (.listed recovered)
  | remoteWorkspaceRemove workspaceID => exact alike_remoteWorkspaceRemove workspaceID

end Calls

/-! ## The tables -/

section Tables

variable (ρ)

def RuntimeState.retoken (state : RuntimeState) : RuntimeState :=
  ⟨state.bindings.mapValues (WorkspaceBinding.retoken ρ), fun workspaceID binding found => by
    rw [OrderedMap.get_mapValues] at found
    obtain ⟨old, stored, rfl⟩ := Option.map_eq_some_iff.mp found
    exact state.keyed workspaceID old stored⟩

def Store.retoken (s : Store) : Store := { s with state := s.state.retoken ρ }

theorem RuntimeState.get_retoken (state : RuntimeState) (workspaceID : String) :
    (state.retoken ρ).get workspaceID = (state.get workspaceID).map (WorkspaceBinding.retoken ρ) :=
  OrderedMap.get_mapValues _ state.bindings workspaceID

theorem RuntimeState.list_retoken (state : RuntimeState) :
    (state.retoken ρ).list = state.list.map (WorkspaceBinding.retoken ρ) :=
  OrderedMap.values_mapValues _ state.bindings

theorem RuntimeState.set_retoken (state : RuntimeState) (binding : WorkspaceBinding) :
    (state.set binding).retoken ρ = (state.retoken ρ).set (binding.retoken ρ) := by
  have mapped := OrderedMap.mapValues_set (WorkspaceBinding.retoken ρ) state.bindings binding.workspaceID binding
  rw [retoken, RuntimeState.mk.injEq]
  exact mapped

theorem RuntimeState.delete_retoken (state : RuntimeState) (workspaceID : String) :
    (state.delete workspaceID).retoken ρ = (state.retoken ρ).delete workspaceID := by
  have mapped := OrderedMap.mapValues_erase (WorkspaceBinding.retoken ρ) state.bindings workspaceID
  rw [retoken, RuntimeState.mk.injEq]
  exact mapped

theorem RuntimeState.load_concat (earlier : List WorkspaceBinding) (binding : WorkspaceBinding) :
    load (earlier ++ [binding]) =
      if binding.workspaceID = "" ∨ binding.provider = "" ∨ binding.host = "" ∨ binding.token = "" then load earlier
      else (load earlier).set binding := by
  rw [load, List.foldl_append]
  rfl

variable {ρ}

/-- A token that makes an entry of the state file valid has to stay one. -/
theorem RuntimeState.load_retoken (nonempty : ∀ token, ρ token = "" ↔ token = "") (parsed : List WorkspaceBinding) :
    load (parsed.map (WorkspaceBinding.retoken ρ)) = (load parsed).retoken ρ := by
  induction parsed using List.reverseRecOn with
  | nil => rfl
  | append_singleton earlier binding ih =>
      rw [List.map_append, List.map_singleton, load_concat, load_concat, ih, ← set_retoken]
      simp only [WorkspaceBinding.retoken, nonempty]
      split <;> rfl

end Tables

/-! ## Runs -/

/-- The second environment answers as the first one does, and chooses other tokens. -/
structure Env.Retokened (ρ : String → String) (env env' : Env) : Prop where
  now : env'.now = env.now
  save : env'.save = env.save
  loaded : env'.loaded = env.loaded.map (WorkspaceBinding.retoken ρ)
  answer : ∀ o : RemoteOp, env'.answer (o.retoken ρ) = o.retokenAnswer ρ (env.answer o)

theorem exec_retoken (config : ResolvedPluginConfig) {env env' : Env} (matched : env.Retokened ρ env') (o : Op)
    (s : Store) : exec config env' (o.retoken ρ) (s.retoken ρ) =
      (o.retokenAnswer ρ (exec config env o s).1, (exec config env o s).2.retoken ρ) := by
  cases o with
  | remote o => exact Prod.ext (matched.answer o) rfl
  | acquireResolved request workspaceID =>
      simp only [Op.retoken, exec, matched.now]
      rfl
  | release host workspaceID => rfl
  | drop host workspaceID =>
      simp only [Op.retoken, exec, matched.save, Store.retoken, RuntimeState.delete_retoken]
      rfl
  | stateSet binding =>
      simp only [Op.retoken, exec, matched.save, Store.retoken, RuntimeState.set_retoken]
      rfl
  | stateReplace binding =>
      simp only [Op.retoken, exec, matched.save, Store.retoken, RuntimeState.replace, RuntimeState.set_retoken]
      rfl
  | stateGet workspaceID =>
      simp only [Op.retoken, exec, Store.retoken, RuntimeState.get_retoken]
      rfl
  | stateList =>
      simp only [Op.retoken, exec, Store.retoken, RuntimeState.list_retoken]
      rfl
  | stateDelete workspaceID =>
      simp only [Op.retoken, exec, matched.save, Store.retoken, RuntimeState.delete_retoken]
      rfl

theorem rehydrate_retoken (now : Nat) (state : RuntimeState) :
    Store.rehydrate now (state.retoken ρ) = (Store.rehydrate now state).retoken ρ := by
  simp only [Store.rehydrate, Store.retoken, RuntimeState.list_retoken, List.foldl_map]
  rfl

theorem plugin_equivariant (manager : SSHManager) (nonempty : ∀ token, ρ token = "" ↔ token = "") :
    (plugin manager).Equivariant (tokens ρ) (Store.retoken ρ) (Env.Retokened ρ) (Paired (Reply.Retokened ρ)) where
  exec env env' o s matched := exec_retoken manager.config matched o s
  suspends o := by
    cases o with
    | remote o => cases o <;> rfl
    | _ => rfl
  serve request := alike_serve manager request
  reboot env env' s matched := by
    simp only [plugin]
    rw [matched.now, matched.loaded, RuntimeState.load_retoken nonempty, rehydrate_retoken]

/-- What is seen of the command lines by other users of the machines. -/
def commandLine : Op → Option (List String)
  | .remote (.ssh args command) => some (args ++ [command])
  | .remote (.scp args) => some args
  | .remote (.spawn args) => some args
  | _ => none

def commandLines (log : PluginLog) : List (List String) := log.filterMap fun entry => commandLine entry.event.op

theorem commandLine_retoken (o : Op) : commandLine (o.retoken ρ) = commandLine o := by
  cases o with
  | remote o => cases o <;> rfl
  | _ => rfl

/-- The second run is the first one with other tokens: operation for operation and reply
    for reply, and on the command lines nothing is different. -/
structure SameButTokens (ρ : String → String) (pool pool' : PluginPool) : Prop where
  renamed : pool.Matches (tokens ρ) (Store.retoken ρ) (Paired (Reply.Retokened ρ)) pool'
  commands : commandLines pool'.log = commandLines pool.log

/-- Tokens are opaque: with other tokens, and the same answers, a run is the same. -/
theorem sameButTokens_in_every_run (manager : SSHManager) (nonempty : ∀ token, ρ token = "" ↔ token = "") (s : Store)
    {labels labels' : List PluginLabel} (same : List.Forall₂ (Label.Matches (Env.Retokened ρ)) labels labels') :
    SameButTokens ρ ((plugin manager).run s labels) ((plugin manager).run (s.retoken ρ) labels') := by
  have matched := Machine.run_matches (plugin_equivariant manager nonempty) s same
  refine ⟨matched, ?_⟩
  rw [commandLines, matched.log, List.filterMap_map]
  exact congrArg (fun f => List.filterMap f _) (funext fun entry => commandLine_retoken entry.event.op)

/-- The environment with other tokens, if it does not look at those of requests. -/
def Env.redrawn (ρ : String → String) (env : Env) : Env :=
  { env with
    answer
      | .randomToken => ρ (env.answer .randomToken)
      | o => env.answer o
    loaded := env.loaded.map (WorkspaceBinding.retoken ρ) }

def redrawn (ρ : String → String) : PluginLabel → PluginLabel
  | .arrive request env => .arrive request fun n => (env n).redrawn ρ
  | .resume thread env => .resume thread fun n => (env n).redrawn ρ
  | .reboot env => .reboot (env.redrawn ρ)

theorem retokened_world (reachable up : Bool) (loaded : List WorkspaceBinding) :
    Env.Retokened ρ { world reachable up with loaded } (Env.redrawn ρ { world reachable up with loaded }) := by
  refine ⟨rfl, rfl, rfl, fun o => ?_⟩
  cases o <;> rfl

/-- A start finds one workspace, and another one is created. -/
def foundAndCreated : List PluginLabel :=
  .reboot { world true true with loaded := [boundTo "w" "web"] } :: creation 0 "v"

theorem foundAndCreated_redrawn :
    List.Forall₂ (Label.Matches (Env.Retokened ρ)) foundAndCreated (foundAndCreated.map (redrawn ρ)) := by
  rw [List.forall₂_map_right_iff, List.forall₂_same]
  refine List.forall_mem_cons.mpr ⟨retokened_world true true _, fun label member => ?_⟩
  simp only [creation, call, resumes, List.cons_append, List.mem_cons, List.mem_append, List.mem_replicate] at member
  rcases member with rfl | ⟨-, rfl⟩ | ⟨-, rfl⟩
  · exact ⟨rfl, fun _ => retokened_world true false []⟩
  · exact ⟨rfl, fun _ => retokened_world true false []⟩
  · exact ⟨rfl, fun _ => retokened_world true true []⟩

theorem sameButTokens_doubled :
    SameButTokens (fun token => token ++ token) ((plugin labManager).run .empty foundAndCreated)
        ((plugin labManager).run (Store.empty.retoken fun token => token ++ token)
          (foundAndCreated.map (redrawn fun token => token ++ token))) ∧
      ((plugin labManager).run (Store.empty.retoken fun token => token ++ token)
          (foundAndCreated.map (redrawn fun token => token ++ token))).store.state.list.map
        WorkspaceBinding.token = ["tokentoken", "tokentoken"] :=
  ⟨sameButTokens_in_every_run labManager (fun token => by simp) .empty foundAndCreated_redrawn, by decide +kernel⟩

end OpencodeRemote.Plugin
