import OpencodeRemote.Link.Sessions
import OpencodeRemote.Plugin.Reuse
import OpencodeRemote.Stub.Server

/-! # Connections that can be reused

`findReusableBinding` asks the stub for a session if the binding has none, and the stub wants
to know the session's workspace. Of the three ways to create a binding only one tells the
stub about its workspace; it also creates the session right away.
-/

namespace OpencodeRemote.Link

open Concurrency Data

section Reuse

variable {manager : Plugin.SSHManager} (startedAt : Int)

/-! ## Looking for the only binding -/

/-- The request for this identifier is given the binding's own host. -/
def ResolvesTo (config : Plugin.ResolvedPluginConfig) (leases : Plugin.LeaseManager)
    (binding : Plugin.WorkspaceBinding) (identifier : String) : Prop :=
  ∃ host, Plugin.ProviderRegistry.pick leases config.defaults.leaseMode binding.workspaceID
    (Plugin.requestedHosts config binding.provider identifier) = some host ∧ host.name = binding.host

/-- The connection is alone and in order: its host is leased, its tunnel up and its token valid. -/
structure Healthy (manager : Plugin.SSHManager) (binding : Plugin.WorkspaceBinding) (identifier : String)
    (env : Nat → Contribution) (s : Plugin.Store) : Prop where
  only : s.state.list = [binding]
  leased : s.leases.holder binding.host = some binding.workspaceID
  resolves : ResolvesTo manager.config s.leases binding identifier
  authorized : ∀ n, Authorized (env n) binding.token

/-- A session for the binding, and the binding written back. -/
def sessionAndReplace (binding : Plugin.WorkspaceBinding) : Plugin.Async (Option Plugin.WorkspaceBinding) := do
  let reusable ← Plugin.Async.outside (Plugin.ensureSession binding)
  Plugin.Async.replaceBinding reusable
  pure (some reusable)

variable {binding : Plugin.WorkspaceBinding} {identifier : String} {env : Nat → Contribution} {s : Plugin.Store}

theorem linked_reuseBinding (healthy : Healthy manager binding identifier env s) (σ : Stub.State) :
    linked manager.config startedAt (Plugin.reuseBinding manager binding.provider (some identifier) binding)
        (fun n => env (n + 1)) (s, σ) =
      linked manager.config startedAt (sessionAndReplace binding) (fun n => env (n + 5)) (s, σ) := by
  obtain ⟨host, picked, own⟩ := healthy.resolves
  obtain ⟨selection, rfl, -, result⟩ := Plugin.ProviderRegistry.acquireResolved_of_pick manager.config
    ⟨binding.provider, some identifier, none⟩ binding.workspaceID (env 1).plugin.now s.leases picked
  have kept : s.granted manager.config binding (env 1).plugin.now selection.host.name = s :=
    Plugin.granted_own healthy.leased _ own
  have acquired : linked manager.config startedAt (Plugin.Async.acquireResolved
      ⟨binding.provider, some identifier, none⟩ binding.workspaceID) (fun n => env (n + 1)) (s, σ) =
        (.ok selection, (s, σ), fun n => env (n + 2)) := by
    rw [linked_acquireResolved, zero_add, result]
    exact congrArg (fun s => (_, (s, σ), _)) kept
  have recovered : linked manager.config startedAt (Plugin.Async.remote
      (manager.ensureRecoveredBinding binding selection)) (fun n => env (n + 2)) (s, σ) =
        (.ok binding, (s, σ), fun n => env (n + 5)) :=
    linked_ensureRecoveredBinding startedAt (healthy.authorized 2) selection (s, σ)
  simp only [Plugin.reuseBinding, Option.getD_some, linked_bind, acquired, own, ne_eq, not_true_eq_false,
    if_false, recovered, sessionAndReplace]

/-- What is found is found in the binding's turn; a binding that is dropped there is not found. -/
theorem linked_findReusableBinding (healthy : Healthy manager binding identifier env s)
    (ready : binding.status = .ready) (σ : Stub.State) {reusable : Plugin.WorkspaceBinding} {both : Both}
    {env' : Nat → Contribution} :
    linked manager.config startedAt (Plugin.findReusableBinding manager binding.provider (some identifier))
        env (s, σ) = (.ok (some reusable), both, env') ↔
      linked manager.config startedAt (sessionAndReplace binding) (fun n => env (n + 5)) (s, σ) =
        (.ok (some reusable), both, env') := by
  have listed : linked manager.config startedAt Plugin.Async.listBindings env (s, σ) =
      (.ok [binding], (s, σ), fun n => env (n + 1)) := by
    rw [← healthy.only]
    rfl
  have considered : ¬(binding.status = .removed ∨ binding.provider ≠ binding.provider) := by simp [ready]
  simp only [Plugin.findReusableBinding, linked_bind, listed, Plugin.findReusableBindingLoop, considered,
    if_false, Plugin.reuseOrDrop, linked_tryCatch, linked_reuseBinding startedAt healthy]
  obtain ⟨outcome, ⟨s', σ'⟩, env''⟩ :=
    linked manager.config startedAt (sessionAndReplace binding) (fun n => env (n + 5)) (s, σ)
  cases outcome with
  | ok found =>
      cases found with
      | some _ => rfl
      | none => simp [linked_pure]
  | error e =>
      simp only [linked_drop]
      cases (env'' 0).plugin.save <;> simp [linked_pure]

/-- The binding is found, with a session that the stub has in its workspace, and kept. -/
def Reused (manager : Plugin.SSHManager) (startedAt : Int) (binding : Plugin.WorkspaceBinding)
    (identifier : String) (env : Nat → Contribution) (s : Plugin.Store) (σ : Stub.State) : Prop :=
  ∃ sessionID s' σ' env', linked manager.config startedAt
      (Plugin.findReusableBinding manager binding.provider (some identifier)) env (s, σ) =
        (.ok (some { binding with sessionID := some sessionID }), (s', σ'), env') ∧
    OnStub σ' sessionID binding.workspaceID ∧
    s'.state.get binding.workspaceID = some { binding with sessionID := some sessionID }

theorem replaced_kept (reusable : Plugin.WorkspaceBinding) (state : Plugin.RuntimeState) :
    (state.replace reusable).get reusable.workspaceID = some reusable := by
  rw [Plugin.RuntimeState.replace, Plugin.RuntimeState.get_set, if_pos rfl]

private theorem reused_iff_of_ensured (healthy : Healthy manager binding identifier env s)
    (ready : binding.status = .ready) {σ σ' : Stub.State} {sessionID : String} {env' : Nat → Contribution}
    (ensured : linked manager.config startedAt (Plugin.Async.outside (Plugin.ensureSession binding))
      (fun n => env (n + 5)) (s, σ) = (.ok { binding with sessionID := some sessionID }, (s, σ'), env')) :
    Reused manager startedAt binding identifier env s σ ↔
      OnStub σ' sessionID binding.workspaceID ∧ (env' 0).plugin.save = .ok () := by
  simp only [Reused, linked_findReusableBinding startedAt healthy ready, sessionAndReplace, linked_bind,
    ensured, linked_replaceBinding]
  cases (env' 0).plugin.save with
  | error e => simp
  | ok _ =>
      simp only [and_true]
      constructor
      · rintro ⟨found, s', σ'', _, returned, stored, -⟩
        cases returned
        exact stored
      · intro stored
        refine ⟨sessionID, _, σ', _, rfl, stored, ?_⟩
        exact replaced_kept { binding with sessionID := some sessionID } s.state

/-- A binding with a session is reused if the stub knows this session and the state file
    can be written. -/
theorem reused_iff_of_session (healthy : Healthy manager binding identifier env s)
    (ready : binding.status = .ready) (σ : Stub.State) {sessionID : String}
    (held : Plugin.truthy binding.sessionID = some sessionID) :
    Reused manager startedAt binding identifier env s σ ↔
      OnStub σ sessionID binding.workspaceID ∧ (env 5).plugin.save = .ok () :=
  reused_iff_of_ensured startedAt healthy ready (linked_ensureSession_held startedAt held _ _ _)

/-- A binding without a session is reused if the stub creates one, which takes its
    workspace, and the state file can be written. -/
theorem reused_iff_of_no_session (healthy : Healthy manager binding identifier env s)
    (ready : binding.status = .ready) (σ : Stub.State)
    (missing : Plugin.truthy binding.sessionID = none) :
    Reused manager startedAt binding identifier env s σ ↔
      Accepts (env 6) σ binding.workspaceID ∧ (env 8).plugin.save = .ok () := by
  have here : Authorized ((fun n => env (n + 5)) 1) binding.token := healthy.authorized 6
  obtain ⟨sessionID, σ', outcome⟩ := linked_ensureSession_new startedAt manager.config
    (fun n => env (n + 5)) missing here s σ
  cases outcome with
  | inl created =>
      obtain ⟨accepted, stored, ran⟩ := created
      rw [reused_iff_of_ensured startedAt healthy ready ran]
      exact and_congr_left fun _ => iff_of_true stored accepted
  | inr refused =>
      obtain ⟨refusal, e, ran⟩ := refused
      refine iff_of_false ?_ fun both => refusal both.1
      rintro ⟨found, s', σ'', env', returned, -, -⟩
      rw [linked_findReusableBinding startedAt healthy ready, sessionAndReplace, linked_bind, ran] at returned
      cases returned

end Reuse

/-! ## Creating bindings -/

/-- The calls that create bindings. -/
inductive Creation where
  | adaptorCreate (workspace : Plugin.WorkspaceInfo)
  | remoteWorkspaceCreate (workspaceName : String) (provider host : Option String)
  | remoteSwitch (host provider : Option String)

def Creation.request : Creation → Plugin.Request
  | .adaptorCreate workspace => .create workspace
  | .remoteWorkspaceCreate workspaceName provider host => .remoteWorkspaceCreate workspaceName provider host
  | .remoteSwitch host provider => .remoteSwitch host provider

def Creation.opensSession : Creation → Bool
  | .adaptorCreate _ => false
  | .remoteWorkspaceCreate _ _ _ => false
  | .remoteSwitch _ _ => true

/-- The binding that an event stores as a new one. -/
def creates (event : Plugin.PluginEvent) : Option Plugin.WorkspaceBinding :=
  match event.op with
  | .stateSet binding => some binding
  | _ => none

section Created

variable (config : Plugin.ResolvedPluginConfig) (startedAt : Int) {α β : Type}

/-- The bindings that a call creates. -/
def created (f : Plugin.Async α) (env : Nat → Contribution) (both : Both) : List Plugin.WorkspaceBinding :=
  (f.run.trace (exec config startedAt) env both).filterMap creates

theorem created_bind (f : Plugin.Async α) (g : α → Plugin.Async β) (env : Nat → Contribution) (both : Both) :
    created config startedAt (f >>= g) env both = created config startedAt f env both ++
      match linked config startedAt f env both with
      | (.ok a, both', env') => created config startedAt (g a) env' both'
      | (.error _, _, _) => [] := by
  have split : (f >>= g).run.trace (exec config startedAt) env both = _ :=
    Program.trace_bind (exec config startedAt) f.run (ExceptT.bindCont g) env both
  rw [created, split, List.filterMap_append]
  refine congrArg (_ ++ ·) ?_
  rw [linked]
  obtain ⟨outcome, both', env'⟩ := f.run.run (exec config startedAt) env both
  cases outcome <;> rfl

theorem created_tryCatch (f : Plugin.Async α) (handler : String → Plugin.Async α) (env : Nat → Contribution)
    (both : Both) :
    created config startedAt (tryCatch f handler) env both = created config startedAt f env both ++
      match linked config startedAt f env both with
      | (.ok _, _, _) => []
      | (.error e, both', env') => created config startedAt (handler e) env' both' := by
  rw [created, Plugin.Async.run_tryCatch, Program.trace_bind, List.filterMap_append]
  refine congrArg (_ ++ ·) ?_
  rw [linked]
  obtain ⟨outcome, both', env'⟩ := f.run.run (exec config startedAt) env both
  cases outcome <;> rfl

theorem created_outside (f : Plugin.Remote α) (env : Nat → Contribution) (both : Both) :
    created config startedAt (Plugin.Async.outside f) env both = [] := by
  have silent : (Plugin.Async.outside f).run.Obeys (fun _ event => creates event = none) []
      fun _ _ => True := Program.obeys_hoist f.run (fun _ _ _ => rfl) fun _ _ _ => trivial
  exact List.filterMap_eq_nil_iff.mpr (silent.trace env both)

theorem created_await (f : Plugin.Async α) (env : Nat → Contribution) (both : Both) :
    created config startedAt (Plugin.Async.await f) env both = created config startedAt f env both := by
  have split : (Plugin.Async.await f).run.trace (exec config startedAt) env both = _ :=
    Program.trace_bind (exec config startedAt) f.run _ env both
  rw [created, split, List.filterMap_append]
  exact List.append_nil _

/-- A call that creates no binding. -/
def Quiet (f : Plugin.Async α) : Prop := ∀ env both, created config startedAt f env both = []

section Quiet

variable {config startedAt}

theorem Quiet.bind {f : Plugin.Async α} {g : α → Plugin.Async β} (first : Quiet config startedAt f)
    (next : ∀ a, Quiet config startedAt (g a)) : Quiet config startedAt (f >>= g) := by
  intro env both
  rw [created_bind, first, List.nil_append]
  split
  · exact next ..
  · rfl

theorem Quiet.tryCatch {f : Plugin.Async α} {handler : String → Plugin.Async α}
    (first : Quiet config startedAt f) (next : ∀ e, Quiet config startedAt (handler e)) :
    Quiet config startedAt (tryCatch f handler) := by
  intro env both
  rw [created_tryCatch, first, List.nil_append]
  split
  · rfl
  · exact next ..

theorem quiet_findReusableBinding (manager : Plugin.SSHManager) (providerName : String) (host : Option String) :
    Quiet manager.config startedAt (Plugin.findReusableBinding manager providerName host) := by
  refine .bind (fun _ _ => rfl) fun bindings => ?_
  induction bindings with
  | nil => exact fun _ _ => rfl
  | cons binding rest ih =>
      unfold Plugin.findReusableBindingLoop
      split
      · exact ih
      · have turn : Quiet manager.config startedAt (Plugin.reuseOrDrop manager providerName host binding) := by
          refine .tryCatch (.bind (fun _ _ => rfl) fun selection => ?_) fun e =>
            .bind (fun _ _ => rfl) fun _ _ _ => rfl
          split
          · exact .bind (fun _ _ => rfl) fun _ _ _ => rfl
          · refine .bind (created_outside _ _ _) fun recovered => .bind (created_outside _ _ _) fun reusable => ?_
            exact .bind (fun _ _ => rfl) fun _ _ _ => rfl
        refine turn.bind fun found => ?_
        cases found with
        | none => exact ih
        | some reusable => exact fun _ _ => rfl

end Quiet

/-- A call that leaves the stub alone. -/
def Still (f : Plugin.Async α) : Prop :=
  ∀ env both, (linked config startedAt f env both).2.1.2 = both.2

/-- The bindings that a call creates satisfy `post` in the stub's state at its end. -/
def Delivers (f : Plugin.Async α) (post : Plugin.WorkspaceBinding → Stub.State → Prop) : Prop :=
  ∀ env both, ∀ binding ∈ created config startedAt f env both,
    post binding (linked config startedAt f env both).2.1.2

section Delivers

variable {config startedAt} {post : Plugin.WorkspaceBinding → Stub.State → Prop}

theorem Still.bind {f : Plugin.Async α} {g : α → Plugin.Async β} (first : Still config startedAt f)
    (next : ∀ a, Still config startedAt (g a)) : Still config startedAt (f >>= g) := by
  intro env both
  have same := first env both
  rw [linked_bind]
  generalize linked config startedAt f env both = result at same ⊢
  obtain ⟨outcome, both', env'⟩ := result
  cases outcome with
  | ok a => exact (next a env' both').trans same
  | error e => exact same

theorem Quiet.delivers {f : Plugin.Async α} (quiet : Quiet config startedAt f) :
    Delivers config startedAt f post := by
  intro env both binding member
  rw [quiet] at member
  cases member

theorem Delivers.after {f : Plugin.Async α} {g : α → Plugin.Async β} (quiet : Quiet config startedAt f)
    (next : ∀ a, Delivers config startedAt (g a) post) : Delivers config startedAt (f >>= g) post := by
  intro env both binding member
  rw [created_bind, quiet, List.nil_append] at member
  rw [linked_bind]
  generalize linked config startedAt f env both = result at member ⊢
  obtain ⟨outcome, both', env'⟩ := result
  cases outcome with
  | ok a => exact next a env' both' binding member
  | error e => cases member

theorem Delivers.bind {f : Plugin.Async α} {g : α → Plugin.Async β} (delivers : Delivers config startedAt f post)
    (quiet : ∀ a, Quiet config startedAt (g a)) (still : ∀ a, Still config startedAt (g a)) :
    Delivers config startedAt (f >>= g) post := by
  intro env both binding member
  have earlier := delivers env both binding
  rw [created_bind, List.mem_append] at member
  rw [linked_bind]
  generalize linked config startedAt f env both = result at member earlier ⊢
  obtain ⟨outcome, both', env'⟩ := result
  cases outcome with
  | ok a =>
      dsimp only at member earlier ⊢
      rw [quiet, List.mem_nil_iff, or_false] at member
      rw [still]
      exact earlier member
  | error e => exact earlier (member.resolve_right List.not_mem_nil)

theorem Delivers.tryCatch {f : Plugin.Async α} {handler : String → Plugin.Async α}
    (delivers : Delivers config startedAt f post) (quiet : ∀ e, Quiet config startedAt (handler e))
    (still : ∀ e, Still config startedAt (handler e)) : Delivers config startedAt (tryCatch f handler) post := by
  intro env both binding member
  have earlier := delivers env both binding
  rw [created_tryCatch, List.mem_append] at member
  rw [linked_tryCatch]
  generalize linked config startedAt f env both = result at member earlier ⊢
  obtain ⟨outcome, both', env'⟩ := result
  cases outcome with
  | ok a => exact earlier (member.resolve_right List.not_mem_nil)
  | error e =>
      dsimp only at member earlier ⊢
      rw [quiet, List.mem_nil_iff, or_false] at member
      rw [still]
      exact earlier member

theorem Delivers.await {f : Plugin.Async α} (delivers : Delivers config startedAt f post) :
    Delivers config startedAt (Plugin.Async.await f) post := by
  intro env both binding member
  rw [created_await] at member
  rw [linked_await]
  exact delivers env both binding member

end Delivers

/-! ## The three ways -/

/-- A new binding has a session on the stub, or none at all. -/
def Fresh (session : Bool) (binding : Plugin.WorkspaceBinding) (σ : Stub.State) : Prop :=
  binding.status = .ready ∧
    if session then ∃ sessionID, Plugin.truthy binding.sessionID = some sessionID ∧
      OnStub σ sessionID binding.workspaceID
    else binding.sessionID = none

variable (manager : Plugin.SSHManager)

theorem bootstrapAndBind_delivers (workspaceID : String) (selection : Plugin.ResolvedHost) :
    Delivers manager.config startedAt (Plugin.bootstrapAndBind manager workspaceID selection) (Fresh false) := by
  refine .tryCatch (.after (created_outside _ _ _) fun bootstrap => ?_)
    (fun e => .bind (fun _ _ => rfl) fun _ _ _ => rfl) fun e _ _ => rfl
  intro env both binding member
  cases List.mem_singleton.mp member
  exact ⟨rfl, rfl⟩

theorem connect_delivers (binding : Plugin.WorkspaceBinding) (ready : binding.status = .ready) :
    Delivers manager.config startedAt (do
      let sessionID ← Plugin.Async.remote (Plugin.createRemoteSession binding)
      Plugin.Async.setBinding { binding with sessionID := some sessionID }
      pure { binding with sessionID := some sessionID }) (Fresh true) := by
  intro env both connected member
  rw [created_bind, Plugin.Async.remote, created_outside, List.nil_append] at member
  rw [linked_bind, Plugin.Async.remote]
  rw [linked_outside_await] at member ⊢
  generalize session : linked manager.config startedAt (Plugin.Async.outside
    (Plugin.createRemoteSession binding)) env both = result at member ⊢
  obtain ⟨outcome, both', env'⟩ := result
  cases outcome with
  | error e => cases member
  | ok sessionID =>
      obtain ⟨named, stored⟩ := onStub_of_createRemoteSession startedAt session
      have given : sessionID ≠ "" := fun empty => named (by rw [empty]; rfl)
      have same : connected = { binding with sessionID := some sessionID } := by
        dsimp only at member
        rw [created_bind, List.mem_append] at member
        refine List.mem_singleton.mp (member.resolve_right fun later => ?_)
        split at later <;> cases later
      have still : Still manager.config startedAt (do
          Plugin.Async.setBinding { binding with sessionID := some sessionID }
          pure { binding with sessionID := some sessionID }) := .bind (fun _ _ => rfl) fun _ _ _ => rfl
      subst same
      exact ⟨ready, sessionID, Plugin.truthy_some given, (still _ both').symm ▸ stored⟩

theorem createConnectedBinding_delivers (providerName : String) (host : Option String)
    (workspaceName : String) : Delivers manager.config startedAt
      (Plugin.createConnectedBinding manager providerName host workspaceName) (Fresh true) := by
  refine .after (fun _ _ => rfl) fun now => .after (fun _ _ => rfl) fun selection => ?_
  refine .tryCatch ?_ (fun e => .bind (fun _ _ => rfl) fun _ _ _ => rfl) fun e _ _ => rfl
  refine .after (created_outside _ _ _) fun bootstrap => .after (created_outside _ _ _) fun _ => ?_
  exact connect_delivers startedAt manager _ rfl

theorem quiet_request (workspace : Plugin.WorkspaceInfo) : Quiet manager.config startedAt
    (ExceptT.mk (pure (Plugin.providerRequestForWorkspace workspace)) :
      Plugin.Async Plugin.HostSelectionRequest) := fun _ _ => rfl

theorem serve_delivers (creation : Creation) : Delivers manager.config startedAt
    (Plugin.serve manager creation.request) (Fresh creation.opensSession) := by
  cases creation with
  | adaptorCreate workspace =>
      refine .bind ?_ (fun _ _ _ => rfl) fun _ _ _ => rfl
      exact .after (quiet_request startedAt manager workspace) fun request =>
        .after (fun _ _ => rfl) fun selection => bootstrapAndBind_delivers startedAt manager _ _
  | remoteWorkspaceCreate workspaceName provider host =>
      refine .tryCatch ?_ (fun _ _ _ => rfl) fun _ _ _ => rfl
      split
      · exact Quiet.delivers fun _ _ => rfl
      · refine .after (fun _ _ => rfl) fun now => .after (fun _ _ => rfl) fun selection => ?_
        exact .bind (bootstrapAndBind_delivers startedAt manager _ _) (fun _ _ _ => rfl) fun _ _ _ => rfl
  | remoteSwitch host provider =>
      refine .tryCatch ?_ (fun _ _ _ => rfl) fun _ _ _ => rfl
      refine .after (fun env both => ?_) fun found => ?_
      · rw [created_await]
        exact quiet_findReusableBinding manager _ _ env both
      · cases found with
        | some binding => exact Quiet.delivers fun _ _ => rfl
        | none =>
            dsimp only
            exact .bind (createConnectedBinding_delivers startedAt manager _ _ _).await (fun _ _ _ => rfl)
              fun _ _ _ => rfl

end Created

/-! ## Agreement of the two programs -/

/-- What a binding needs to be reused: the session of its creation, or a stub that makes it
    one, with the seventh operation of the call; and a state file that can be written, which
    comes sixth or ninth. -/
def Provided (creation : Creation) (binding : Plugin.WorkspaceBinding) (env : Nat → Contribution)
    (σ : Stub.State) : Prop :=
  if creation.opensSession then
    OnStub σ (binding.sessionID.getD "") binding.workspaceID ∧ (env 5).plugin.save = .ok ()
  else Accepts (env 6) σ binding.workspaceID ∧ (env 8).plugin.save = .ok ()

/-- A healthy connection is reused exactly if it is provided for. Only `remote-switch` sees to
    that: when it ends the stub has the session. After the others the stub may not even know
    the workspace. -/
theorem reused_iff_provided (manager : Plugin.SSHManager) (startedAt : Int) (creation : Creation)
    (env₀ : Nat → Contribution) (both₀ : Both) (binding : Plugin.WorkspaceBinding)
    (made : binding ∈ created manager.config startedAt (Plugin.serve manager creation.request) env₀ both₀) :
    (∀ identifier env s σ, Healthy manager binding identifier env s →
      (Reused manager startedAt binding identifier env s σ ↔ Provided creation binding env σ)) ∧
    (creation.opensSession = true → OnStub (linked manager.config startedAt
      (Plugin.serve manager creation.request) env₀ both₀).2.1.2 (binding.sessionID.getD "") binding.workspaceID) := by
  obtain ⟨ready, fresh⟩ := serve_delivers startedAt manager creation env₀ both₀ binding made
  unfold Provided
  cases opens : creation.opensSession with
  | true =>
      rw [opens, if_pos rfl] at fresh
      obtain ⟨sessionID, held, stored⟩ := fresh
      have named : binding.sessionID.getD "" = sessionID := by
        rw [(Option.filter_eq_some_iff.mp held).1, Option.getD_some]
      rw [named]
      refine ⟨fun identifier env s σ healthy => ?_, fun _ => stored⟩
      rw [if_pos rfl]
      exact reused_iff_of_session startedAt healthy ready σ held
  | false =>
      rw [opens, if_neg Bool.false_ne_true] at fresh
      refine ⟨fun identifier env s σ healthy => ?_, nofun⟩
      rw [if_neg Bool.false_ne_true]
      exact reused_iff_of_no_session startedAt healthy ready σ (by rw [fresh]; rfl)

/-- The host is reachable; local ports are from some operation on. -/
def surroundings (first n : Nat) : Contribution :=
  { plugin := Plugin.world true true
    reaches := first ≤ n
    token := utf8 "token"
    stub := fun _ => Stub.calm 5
    text := .ok ""
    json := .ok ""
    restarts := false }

/-- A creation on the first host, with no bindings and an empty stub before. -/
def afterwards (creation : Creation) : Both :=
  (linked Plugin.labManager.config 0 (Plugin.serve Plugin.labManager creation.request) (surroundings 31)
    (.empty, .new (Stub.lit "/root") .empty)).2.1

def switched : Plugin.WorkspaceBinding :=
  { workspaceID := "remote-5-web", provider := "lab", host := "web", remotePort := 39217,
    localPort := 39023, token := "token", leaseMode := .exclusive, status := .ready, tunnelPID := some 9,
    sessionID := some "sess_5" }

def adapted : Plugin.WorkspaceBinding :=
  { switched with workspaceID := "w", localPort := 39465, sessionID := none }

theorem reused_after_switch :
    Reused Plugin.labManager 0 switched "web" (surroundings 0)
      (afterwards (.remoteSwitch (some "web") (some "lab"))).1
      (afterwards (.remoteSwitch (some "web") (some "lab"))).2 := by
  have provided := reused_iff_provided Plugin.labManager 0 (.remoteSwitch (some "web") (some "lab"))
    (surroundings 31) (.empty, .new (Stub.lit "/root") .empty) switched (by decide +kernel)
  have healthy : Healthy Plugin.labManager switched "web" (surroundings 0)
      (afterwards (.remoteSwitch (some "web") (some "lab"))).1 :=
    ⟨by decide +kernel, by decide +kernel, ⟨Plugin.web, by decide +kernel, rfl⟩,
      fun n => ⟨by simp [surroundings], rfl⟩⟩
  unfold afterwards at healthy ⊢
  exact (provided.1 "web" (surroundings 0) _ _ healthy).mpr ⟨provided.2 rfl, rfl⟩

/-- The adaptor does not tell the stub about the workspace, so the stub refuses a session and
    the healthy connection is dropped. -/
theorem not_reused_after_adaptor_create :
    ¬∀ (manager : Plugin.SSHManager) (startedAt : Int) (creation : Creation) (env₀ : Nat → Contribution)
      (both₀ : Both) (binding : Plugin.WorkspaceBinding) (identifier : String) (env : Nat → Contribution)
      (s : Plugin.Store),
      binding ∈ created manager.config startedAt (Plugin.serve manager creation.request) env₀ both₀ →
      Healthy manager binding identifier env s →
      Reused manager startedAt binding identifier env s (linked manager.config startedAt
        (Plugin.serve manager creation.request) env₀ both₀).2.1.2 := by
  intro always_reused
  have healthy : Healthy Plugin.labManager adapted "web" (surroundings 0)
      (afterwards (.adaptorCreate (Plugin.inLab "w"))).1 :=
    ⟨by decide +kernel, by decide +kernel, ⟨Plugin.web, by decide +kernel, rfl⟩,
      fun n => ⟨by simp [surroundings], rfl⟩⟩
  have reused := always_reused Plugin.labManager 0 (.adaptorCreate (Plugin.inLab "w")) (surroundings 31)
    (.empty, .new (Stub.lit "/root") .empty) adapted "web" (surroundings 0) _ (by decide +kernel) healthy
  have accepts := ((reused_iff_of_no_session 0 healthy rfl _ rfl).mp reused).1.1
  exact accepts (by decide +kernel)

end OpencodeRemote.Link
