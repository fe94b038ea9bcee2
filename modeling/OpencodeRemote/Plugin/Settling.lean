import OpencodeRemote.Plugin.Custody

/-! # Calls end with nothing in custody

The monitor of a whole call also remembers which pids the call has read from the bindings,
and that storing a binding ends the custody of its tunnel. `Settles` is the rule that every
call is shown to keep; what a tunnel in custody allows in between is up to `Keeps`.
-/

namespace OpencodeRemote.Plugin

open Concurrency Data

/-- What the monitor of a call remembers: the pids of the bindings that the call has read,
    and what is in custody. -/
structure Watch where
  known : List Nat
  custody : Custody
  deriving DecidableEq

def pids (bindings : List WorkspaceBinding) : List Nat :=
  bindings.filterMap fun binding => truthyPid binding.tunnelPID

theorem mem_pids {bindings : List WorkspaceBinding} {binding : WorkspaceBinding} {pid : Nat}
    (member : binding ∈ bindings) (truthy : truthyPid binding.tunnelPID = some pid) : pid ∈ pids bindings :=
  List.mem_filterMap.mpr ⟨binding, member, truthy⟩

def watch : Monitor Op Res Watch
  | m, .remote o, answer => (m.custody.after m.known o answer).map (Watch.mk m.known)
  | m, .stateGet _, found => some { m with known := pids found.toList ++ m.known }
  | m, .stateList, found => some { m with known := pids found ++ m.known }
  | m, .stateSet binding, _ => some { m with custody := m.custody.stored binding }
  | m, .stateReplace binding, _ => some { m with custody := m.custody.stored binding }
  | m, .acquireResolved _ _, _ | m, .release _ _, _ | m, .drop _ _, _ | m, .stateDelete _, _ => some m

namespace Async

variable {α β : Type} {known : List Nat} {custody : Custody}

/-- Started with this in custody, by a call that knows these pids, the function ends with
    nothing in custody. -/
def Settles (known : List Nat) (custody : Custody) (f : Async α) : Prop :=
  ∀ m : Watch, m.custody = custody → known ⊆ m.known →
    f.run.Watched watch m fun m' _ => m'.custody = .none ∧ m.known ⊆ m'.known

theorem settles_pure (a : α) : Settles known .none (pure a : Async α) :=
  fun _ idle _ => ⟨idle, List.Subset.refl _⟩

theorem settles_throw (e : String) : Settles known .none (throw e : Async α) :=
  fun _ idle _ => ⟨idle, List.Subset.refl _⟩

private theorem settles_seq {γ δ : Type} {t : Program Op Res γ} {k : γ → Program Op Res δ} {m : Watch}
    (first : t.Watched watch m fun m' _ => m'.custody = .none ∧ m.known ⊆ m'.known)
    (next : ∀ c (m' : Watch), m'.custody = .none → m.known ⊆ m'.known →
      (k c).Watched watch m' fun m'' _ => m''.custody = .none ∧ m'.known ⊆ m''.known) :
    (t.bind k).Watched watch m fun m' _ => m'.custody = .none ∧ m.known ⊆ m'.known := by
  refine Program.watched_bind.mpr (first.mono fun m' c settled => ?_)
  refine (next c m' settled.1 settled.2).mono fun m'' _ further => ?_
  exact ⟨further.1, List.Subset.trans settled.2 further.2⟩

theorem Settles.bind {f : Async α} {g : α → Async β} (first : Settles known custody f)
    (next : ∀ a, Settles known .none (g a)) : Settles known custody (f >>= g) := by
  intro m same knows
  apply settles_seq (k := ExceptT.bindCont g) (first m same knows)
  intro outcome m' idle grown
  cases outcome with
  | ok a => exact next a m' idle (List.Subset.trans knows grown)
  | error e => exact ⟨idle, List.Subset.refl _⟩

theorem Settles.tryCatch {f : Async α} {handler : String → Async α} (first : Settles known custody f)
    (next : ∀ e, Settles known .none (handler e)) : Settles known custody (tryCatch f handler) := by
  intro m same knows
  rw [run_tryCatch]
  apply settles_seq (first m same knows)
  intro outcome m' idle grown
  cases outcome with
  | ok a => exact ⟨idle, List.Subset.refl _⟩
  | error e => exact next e m' idle (List.Subset.trans knows grown)

theorem Settles.await {f : Async α} (first : Settles known custody f) : Settles known custody (await f) := by
  intro m same knows
  apply settles_seq (first m same knows)
  intro outcome m' idle _ _ m'' followed
  cases followed
  exact ⟨idle, List.Subset.refl _⟩

theorem Settles.outcome {f : Async α} (first : Settles known custody f) :
    Settles known custody (outcome f) := by
  intro m same knows
  apply settles_seq (first m same knows)
  exact fun _ m' idle _ => ⟨idle, List.Subset.refl _⟩

/-- An operation that the monitor does not care about. -/
theorem settles_op (o : Op) {γ : Type} (k : Res o → Except String γ)
    (quiet : ∀ m r, m.custody = .none → watch m o r = some m) :
    Settles known .none (ExceptT.mk ((Program.perform o).bind fun r => .pure (k r)) : Async γ) := by
  intro m idle _ r m' followed
  rw [quiet m r idle] at followed
  cases followed
  exact ⟨idle, List.Subset.refl _⟩

theorem settles_now : Settles known .none now := settles_op (.remote .now) .ok fun _ _ _ => rfl

theorem settles_acquireResolved (request : HostSelectionRequest) (workspaceID : String) :
    Settles known .none (acquireResolved request workspaceID) :=
  settles_op (.acquireResolved request workspaceID) id fun _ _ _ => rfl

theorem settles_release (host workspaceID : String) : Settles known .none (release host workspaceID) :=
  settles_op (.release host workspaceID) .ok fun _ _ _ => rfl

theorem settles_drop (host workspaceID : String) : Settles known .none (drop host workspaceID) :=
  settles_op (.drop host workspaceID) id fun _ _ _ => rfl

theorem settles_deleteBinding (workspaceID : String) : Settles known .none (deleteBinding workspaceID) :=
  settles_op (.stateDelete workspaceID) id fun _ _ _ => rfl

theorem settles_setBinding {binding : WorkspaceBinding} (minded : custody.stored binding = .none) :
    Settles known custody (setBinding binding) := by
  intro m same _ r m' followed
  cases followed
  exact ⟨same ▸ minded, List.Subset.refl _⟩

theorem settles_replaceBinding {binding : WorkspaceBinding} (minded : custody.stored binding = .none) :
    Settles known custody (replaceBinding binding) := by
  intro m same _ r m' followed
  cases followed
  exact ⟨same ▸ minded, List.Subset.refl _⟩

/-- What a call reads it knows from then on. -/
theorem settles_reading (o : Op) (seen : Res o → List Nat) {g : Res o → Async β}
    (reads : ∀ m r, watch m o r = some { m with known := seen r ++ m.known })
    (next : ∀ r, Settles (seen r ++ known) .none (g r)) :
    Settles known .none (ExceptT.mk ((Program.perform o).bind fun r => .pure (.ok r)) >>= g) := by
  intro m idle knows r m' followed
  rw [reads] at followed
  cases followed
  have wider : seen r ++ known ⊆ seen r ++ m.known :=
    List.append_subset.mpr ⟨List.subset_append_left .., List.Subset.trans knows (List.subset_append_right ..)⟩
  refine (next r ⟨seen r ++ m.known, m.custody⟩ idle wider).mono fun m'' _ settled => ?_
  exact ⟨settled.1, List.Subset.trans (List.subset_append_right ..) settled.2⟩

theorem settles_listBindings {g : List WorkspaceBinding → Async β}
    (next : ∀ bindings, Settles (pids bindings ++ known) .none (g bindings)) :
    Settles known .none (listBindings >>= g) := settles_reading .stateList pids (fun _ _ => rfl) next

theorem settles_getBinding {workspaceID : String} {g : Option WorkspaceBinding → Async β}
    (next : ∀ found, Settles (pids found.toList ++ known) .none (g found)) :
    Settles known .none (getBinding workspaceID >>= g) :=
  settles_reading (.stateGet workspaceID) (fun found => pids found.toList) (fun _ _ => rfl) next

theorem settles_outside {f : Remote α} {g : α → Async β}
    (leaves : ∀ known', known ⊆ known' → f.Leaves known' custody fun custody' outcome =>
      match outcome with
      | .ok a => Settles known' custody' (g a)
      | .error _ => custody' = .none) : Settles known custody (outside f >>= g) := by
  rintro ⟨known', custody⟩ rfl knows
  refine Program.watched_bind.mpr (Program.Watched.hoist (fun _ _ _ => rfl)
    ((leaves known' knows).mono fun custody' outcome holds => ?_))
  cases outcome with
  | ok a => exact holds _ rfl (List.Subset.refl _)
  | error e => exact ⟨holds, List.Subset.refl _⟩

theorem settles_idle {f : Remote α} (idle : ∀ known, f.Idle known) : Settles known .none (outside f) := by
  rintro ⟨known', custody⟩ rfl knows
  refine Program.Watched.hoist (fun _ _ _ => rfl) ((idle known').mono ?_)
  exact fun custody' _ idle => ⟨idle, List.Subset.refl _⟩

/-- Calls that know more settle as well. -/
theorem Settles.widen {f : Async α} (settles : Settles known custody f) {known' : List Nat}
    (wider : known ⊆ known') : Settles known' custody f :=
  fun m same knows => settles m same (List.Subset.trans wider knows)

/-- A healthy tunnel is in custody, or nothing is. -/
def Healthy (custody : Custody) : Prop := custody = .none ∨ ∃ pid, custody = .holding pid .healthy

/-- The function leaves such a custody alone, and the monitor gives up where it fails with
    a tunnel in custody. -/
def Keeps (f : Remote α) : Prop :=
  ∀ known custody, Healthy custody → f.Leaves known custody fun custody' outcome =>
    custody' = custody ∧ ∀ e, outcome = .error e → custody = .none

theorem keeps_fetch {request : FetchRequest} {g : Response → Remote α}
    (accepts : ∀ response, response.ok → ∃ a, g response = pure a)
    (idle : ∀ response known, (g response).Idle known) : Keeps (Remote.fetch request >>= g) := by
  intro known custody healthy
  refine Remote.leaves_bind fun answer custody' followed => ?_
  obtain rfl | ⟨pid, rfl⟩ := healthy
  · cases followed
    cases answer with
    | error e => exact ⟨rfl, fun _ _ => rfl⟩
    | ok response =>
        refine (idle response known).mono fun custody'' outcome idle => ?_
        exact ⟨idle, fun _ _ => rfl⟩
  · simp only [Custody.after, Custody.answered] at followed
    split at followed
    · rename_i up
      cases followed
      cases answer with
      | error e => cases up
      | ok response =>
          obtain ⟨a, accepted⟩ := accepts response up
          change Remote.Leaves known _ (g response) _
          rw [accepted]
          exact ⟨rfl, by simp⟩
    · cases followed

theorem keeps_createRemoteSession (binding : WorkspaceBinding) (title : String) :
    Keeps (createRemoteSession binding title) := by
  intro known custody healthy
  refine Remote.leaves_bind fun time custody' followed => ?_
  cases followed
  refine keeps_fetch (fun response up => ⟨_, if_pos up⟩) (fun response known => ?_) known custody healthy
  split
  · exact Remote.idle_pure _
  · exact (Remote.idle_read _).bind fun _ => Remote.idle_throw _

theorem keeps_createRemoteWorkspace (binding : WorkspaceBinding) : Keeps (createRemoteWorkspace binding) := by
  refine keeps_fetch (fun response up => ⟨_, if_pos up⟩) fun response known => ?_
  split
  · exact Remote.idle_pure ()
  · exact (Remote.idle_read _).bind fun _ => Remote.idle_throw _

theorem Keeps.await {f : Remote α} (keeps : Keeps f) : Keeps (Remote.await f) :=
  fun known custody healthy => (keeps known custody healthy).await

theorem keeps_ensureSession (binding : WorkspaceBinding) : Keeps (ensureSession binding) := by
  unfold ensureSession
  split
  · exact fun known custody _ => ⟨rfl, by simp⟩
  · intro known custody healthy
    refine Remote.leaves_bind (((keeps_createRemoteSession binding "Remote Session").await known custody
      healthy).mono fun custody' outcome kept => ?_)
    obtain ⟨rfl, failed⟩ := kept
    cases outcome with
    | ok sessionID => exact ⟨rfl, by simp⟩
    | error e => exact ⟨rfl, fun _ _ => failed e rfl⟩

theorem Keeps.settles_of_yields {f : Remote α} {g : α → Async β} {post : α → Prop} (keeps : Keeps f)
    (yields : f.Yields post) (healthy : Healthy custody)
    (next : ∀ a, post a → Settles known custody (g a)) : Settles known custody (outside f >>= g) := by
  refine settles_outside fun known' wider => ?_
  refine ((keeps known' custody healthy).and_returns yields).mono fun custody' outcome kept => ?_
  obtain ⟨⟨rfl, failed⟩, yielding⟩ := kept
  cases outcome with
  | ok a => exact (next a yielding).widen wider
  | error e => exact failed e rfl

theorem Keeps.settles {f : Remote α} {g : α → Async β} (keeps : Keeps f) (healthy : Healthy custody)
    (next : ∀ a, Settles known custody (g a)) : Settles known custody (outside f >>= g) := by
  have yields : f.Yields fun _ => True := Program.returns_of_forall (fun outcome => by cases outcome <;> trivial) _
  exact keeps.settles_of_yields yields healthy fun a _ => next a

end Async

section Calls

open Async SSHManager

variable (manager : SSHManager) {known : List Nat}

theorem SSHManager.Delivers.stored {α : Type} {custody : Custody} {phase : Phase}
    {tunnelPID : α → Option Nat} {a : α} {binding : WorkspaceBinding}
    (delivers : Delivers known phase tunnelPID custody (.ok a)) (same : binding.tunnelPID = tunnelPID a) :
    custody.stored binding = .none := by
  obtain rfl | ⟨pid, -, rfl, truthy⟩ := delivers
  · rfl
  · simp only [Custody.stored, same, (truthyPid_eq_some.mp truthy).1, if_true]

theorem SSHManager.Delivers.healthy {α : Type} {custody : Custody} {tunnelPID : α → Option Nat} {a : α}
    (delivers : Delivers known .healthy tunnelPID custody (.ok a)) : Healthy custody :=
  delivers.imp id fun ⟨pid, _, holding, _⟩ => ⟨pid, holding⟩

theorem settles_createConnectedBinding (providerName : String) (host : Option String)
    (workspaceName : String) :
    Settles known .none (createConnectedBinding manager providerName host workspaceName) := by
  refine settles_now.bind fun now => (settles_acquireResolved _ _).bind fun selection => .tryCatch ?_ fun e => ?_
  · refine settles_outside fun known' _ => (manager.bootstrap_leaves _ selection).await.mono
      fun custody outcome delivers => ?_
    cases outcome with
    | error e => exact delivers
    | ok bootstrap =>
        refine (keeps_createRemoteWorkspace _).await.settles delivers.healthy fun _ => ?_
        refine (keeps_createRemoteSession _ _).await.settles delivers.healthy fun sessionID => ?_
        exact (settles_setBinding (delivers.stored rfl)).bind fun _ => settles_pure _
  · exact (settles_release _ _).bind fun _ => settles_throw e

theorem settles_bootstrapAndBind (workspaceID : String) (selection : ResolvedHost) :
    Settles known .none (bootstrapAndBind manager workspaceID selection) := by
  refine .tryCatch ?_ fun e => (settles_release _ _).bind fun _ => settles_throw e
  refine settles_outside fun known' _ => (manager.bootstrap_leaves _ selection).await.mono
    fun custody outcome delivers => ?_
  cases outcome with
  | error e => exact delivers
  | ok bootstrap => exact settles_setBinding (delivers.stored rfl)

theorem settles_reuseOrDrop (providerName : String) (host : Option String) (binding : WorkspaceBinding) :
    Settles known .none (reuseOrDrop manager providerName host binding) := by
  refine .tryCatch (.bind (settles_acquireResolved _ _) fun selection => ?_) fun e => ?_
  · split
    · exact (settles_release _ _).bind fun _ => settles_pure _
    · refine settles_outside fun known' _ => (manager.ensureRecoveredBinding_leaves binding selection).await.mono
        fun custody outcome delivers => ?_
      cases outcome with
      | error e => exact delivers
      | ok recovered =>
          refine (keeps_ensureSession recovered).settles_of_yields (ensureSession_yields recovered)
            delivers.healthy fun reusable same => ?_
          obtain ⟨sessionID, rfl⟩ := same
          exact (settles_replaceBinding (delivers.stored rfl)).bind fun _ => settles_pure _
  · exact (settles_drop _ _).bind fun _ => settles_pure _

theorem settles_findReusableBindingLoop (providerName : String) (host : Option String)
    (bindings : List WorkspaceBinding) :
    Settles known .none (findReusableBindingLoop manager providerName host bindings) := by
  induction bindings with
  | nil => exact settles_pure _
  | cons binding rest ih =>
      unfold findReusableBindingLoop
      split
      · exact ih
      · apply (settles_reuseOrDrop manager providerName host binding).bind
        intro found
        cases found with
        | none => exact ih
        | some reusable => exact settles_pure _

theorem settles_findReusableBinding (providerName : String) (host : Option String) :
    Settles known .none (findReusableBinding manager providerName host) :=
  settles_listBindings fun bindings => settles_findReusableBindingLoop manager _ _ bindings

/-- The call knows the processes of these bindings. -/
def Knows (known : List Nat) (bindings : List WorkspaceBinding) : Prop := pids bindings ⊆ known

theorem Knows.tail {binding : WorkspaceBinding} {rest : List WorkspaceBinding}
    (knows : Knows known (binding :: rest)) : Knows known rest := by
  refine List.Subset.trans (fun pid member => ?_) knows
  obtain ⟨other, late, truthy⟩ := List.mem_filterMap.mp member
  exact mem_pids (List.mem_cons_of_mem _ late) truthy

theorem settles_ensureBindingReady {binding : WorkspaceBinding} {rest : List WorkspaceBinding}
    (knows : Knows known (binding :: rest)) : Settles known .none (ensureBindingReady manager binding) := by
  refine (settles_acquireResolved _ _).bind fun selection => ?_
  refine settles_outside fun known' wider => (manager.ensureRecoveredBinding_leaves binding selection).await.mono
    fun custody outcome delivers => ?_
  cases outcome with
  | error e => exact delivers
  | ok recovered =>
      dsimp only
      split
      · exact (settles_replaceBinding (delivers.stored rfl)).bind fun _ => settles_pure _
      · rename_i unchanged
        obtain rfl | ⟨pid, fresh, -, truthy⟩ := delivers
        · exact settles_pure _
        · -- a process that the call did not know is not the old one
          simp only [ne_eq, not_or, not_not] at unchanged
          rw [unchanged.2.1] at truthy
          exact absurd (wider (knows (mem_pids (List.mem_cons_self ..) truthy))) fresh

theorem settles_removeBinding (binding : WorkspaceBinding) :
    Settles known .none (removeBinding binding) := by
  refine .bind (settles_idle fun known => ?_) fun _ =>
    (settles_idle fun known => (idle_closeRecoveredBinding binding).await).bind fun _ => settles_drop _ _
  have idle_delete (path : String) : Remote.Idle known (bestEffortDelete binding path) :=
    ((Remote.idle_fetch _).bind fun _ => Remote.idle_pure ()).tryCatch fun _ => Remote.idle_pure ()
  refine Remote.Idle.await ?_
  unfold removeRemoteWorkspace
  split
  · exact (idle_delete _).bind fun _ => idle_delete _
  · exact (Remote.idle_pure ()).bind fun _ => idle_delete _

theorem settles_reporting {f : Async Reply} (settles : Settles known .none f) :
    Settles known .none (reporting f) := settles.tryCatch fun _ => settles_pure _

theorem settles_request (workspace : WorkspaceInfo) : Settles known .none
    (ExceptT.mk (pure (providerRequestForWorkspace workspace)) : Async HostSelectionRequest) :=
  fun _ idle _ => ⟨idle, List.Subset.refl _⟩

theorem settles_getTarget (workspace : WorkspaceInfo) :
    Settles known .none (getTarget manager workspace) := by
  have ready : Settles known .none (getReadyBinding manager workspace.id) := by
    apply settles_getBinding
    intro found
    cases found with
    | none => exact settles_pure _
    | some binding =>
        have knows : Knows (pids [binding] ++ known) [binding] := List.subset_append_left ..
        exact (settles_ensureBindingReady manager knows).await.bind fun _ => settles_pure _
  apply ready.await.bind
  intro found
  cases found with
  | none => exact settles_throw _
  | some binding => exact settles_pure _

theorem settles_statusLoop {bindings : List WorkspaceBinding} (knows : Knows known bindings) :
    Settles known .none (statusLoop manager bindings) := by
  induction bindings with
  | nil => exact settles_pure _
  | cons binding rest ih =>
      refine .bind (.tryCatch ?_ fun e => ?_) fun entry => (ih knows.tail).bind fun _ => settles_pure _
      · exact (settles_ensureBindingReady manager knows).await.bind fun _ => settles_pure _
      · exact (settles_deleteBinding _).bind fun _ => (settles_release _ _).bind fun _ => settles_pure _

theorem settles_listLoop {bindings : List WorkspaceBinding} (knows : Knows known bindings) :
    Settles known .none (listLoop manager bindings) := by
  induction bindings with
  | nil => exact settles_pure _
  | cons binding rest ih =>
      refine (settles_ensureBindingReady manager knows).await.bind fun _ => ?_
      exact (ih knows.tail).bind fun _ => settles_pure _

theorem settles_disconnectLoop (bindings : List WorkspaceBinding) :
    Settles known .none (disconnectLoop bindings) := by
  induction bindings with
  | nil => exact settles_pure _
  | cons binding rest ih => exact (settles_removeBinding binding).await.bind fun _ => ih

theorem settles_remoteWorkspaceCreate (workspaceName : String) (provider host : Option String) :
    Settles known .none (remoteWorkspaceCreate manager workspaceName provider host) := by
  apply settles_reporting
  split
  · exact settles_throw _
  · refine settles_now.bind fun now => (settles_acquireResolved _ _).bind fun selection => ?_
    exact (settles_bootstrapAndBind manager _ selection).bind fun _ => settles_pure _

theorem settles_remoteSwitch (host provider : Option String) :
    Settles known .none (remoteSwitch manager host provider) := by
  refine settles_reporting ((settles_findReusableBinding manager _ _).await.bind fun found => ?_)
  cases found with
  | none => exact (settles_createConnectedBinding manager _ _ _).await.bind fun _ => settles_pure _
  | some binding => exact settles_pure _

theorem settles_remoteDoctor (host provider : Option String) :
    Settles known .none (remoteDoctor manager host provider) := by
  have connected : Settles known .none (doctorBinding manager (providerOrDefault manager provider) host) := by
    apply (settles_findReusableBinding manager _ _).await.bind
    intro found
    cases found with
    | none => exact (settles_createConnectedBinding manager _ _ _).await.bind fun _ => settles_pure _
    | some binding => exact settles_pure _
  have checked : ∀ binding created, Settles known .none (doctorHealth binding created) := by
    intro binding created
    apply (settles_idle fun _ => Remote.idle_fetch _).bind
    intro response
    split
    · exact (settles_idle fun _ => Remote.idle_read _).bind fun _ => settles_pure _
    · exact (settles_idle fun _ => Remote.idle_read _).bind fun _ => settles_throw _
  apply connected.outcome.bind
  intro outcome
  cases outcome with
  | error e => exact settles_pure _
  | ok connection =>
      apply (settles_reporting (checked _ _)).bind
      intro reply
      split
      · refine .bind (.tryCatch (settles_removeBinding _).await fun _ => settles_pure _) fun _ => ?_
        exact settles_pure _
      · exact settles_pure _

theorem settles_serve (request : Request) : Settles known .none (serve manager request) := by
  cases request with
  | configure workspace =>
      refine .bind ?_ fun _ => settles_pure _
      exact (settles_request workspace).bind fun _ => (settles_acquireResolved _ _).bind fun _ => settles_pure _
  | create workspace =>
      refine .bind ?_ fun _ => settles_pure _
      refine (settles_request workspace).bind fun _ => (settles_acquireResolved _ _).bind fun selection => ?_
      exact settles_bootstrapAndBind manager _ selection
  | remove workspace =>
      refine .bind (settles_getBinding fun found => ?_) fun _ => settles_pure _
      cases found with
      | none => exact settles_pure _
      | some binding => exact (settles_removeBinding binding).await
  | target workspace => exact settles_getTarget manager workspace
  | remoteWorkspaceCreate workspaceName provider host =>
      exact settles_remoteWorkspaceCreate manager workspaceName provider host
  | remoteSwitch host provider => exact settles_remoteSwitch manager host provider
  | remoteStatus =>
      refine settles_listBindings fun bindings => .bind ?_ fun _ => settles_pure _
      exact settles_statusLoop manager (List.subset_append_left ..)
  | remoteDisconnect workspaceID =>
      refine settles_listBindings fun bindings => ?_
      dsimp only
      split
      · exact settles_pure _
      · exact (settles_disconnectLoop _).bind fun _ => settles_pure _
  | remoteDoctor host provider => exact settles_remoteDoctor manager host provider
  | remoteWorkspaceList =>
      refine settles_listBindings fun bindings => .bind ?_ fun _ => settles_pure _
      exact settles_listLoop manager (List.subset_append_left ..)
  | remoteWorkspaceRemove workspaceID =>
      refine settles_getBinding fun found => ?_
      cases found with
      | none => exact settles_pure _
      | some binding => exact (settles_removeBinding binding).await.bind fun _ => settles_pure _

/-- A call whose monitor has not given up ends with nothing in custody. -/
theorem serve_watched (request : Request) :
    ((plugin manager).serve request).Obeys (fun _ _ => True) [] fun past _ =>
      ∀ m, Monitor.follow watch ⟨[], .none⟩ past = some m → m.custody = .none := by
  refine Program.Watched.obeys fun m start => ?_
  cases start
  exact (settles_serve manager request _ rfl (List.nil_subset _)).mono fun m' _ settled => settled.1

end Calls

end OpencodeRemote.Plugin
