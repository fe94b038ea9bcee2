import OpencodeRemote.Link.Wire

/-! # Sessions on both sides -/

namespace OpencodeRemote.Link

open Concurrency Data

/-! ## What the stub answers -/

/-- The request carries the stub's token. -/
def Authorized (c : Contribution) (token : String) : Prop := c.reaches = true ∧ c.token = utf8 token

/-- The session is known to the stub, in this workspace. -/
def OnStub (σ : Stub.State) (sessionID workspaceID : String) : Prop :=
  ∃ session, σ.getSession (utf8 sessionID) = some session ∧ session.workspaceID = utf8 workspaceID

theorem health_answered (startedAt : Int) {c : Contribution} {token : String}
    (authorized : Authorized c token) (localPort : Int) (σ : Stub.State) :
    answer startedAt c ⟨"GET", localPort, "/global/health", some token, none⟩ σ =
      (⟨200, c.text, c.json⟩, σ) := by
  have path : utf8 "/global/health" = Stub.lit "/global/health" := by decide
  have clean : Stub.cleanPath (Stub.lit "/global/health") = Stub.lit "/global/health" := by decide
  simp only [answer, authorization, ← authorized.2]
  rw [mux_of_bearer (Service.bearer_sent c.token)]
  simp only [wire, path, clean, Stub.serve, ne_eq, not_true_eq_false, if_false, if_true]
  rfl

theorem serve_session (startedAt : Int) {r : Stub.Request} (path : r.path = Stub.lit "/session") :
    Stub.serve startedAt r = Stub.sessionCreate r := by
  have others : Stub.cleanPath (Stub.lit "/session") = Stub.lit "/session" ∧
      Stub.lit "/session" ≠ Stub.lit "/global/health" ∧ Stub.lit "/session" ≠ Stub.lit "/global/event" ∧
      Stub.lit "/session" ≠ Stub.lit "/experimental/workspace/adaptor" ∧
      Stub.lit "/session" ≠ Stub.lit "/experimental/workspace" ∧
      Stub.lit "/session" ≠ Stub.lit "/experimental/workspace/status" := by decide
  obtain ⟨clean, health, event, adaptor, workspace, status⟩ := others
  simp only [Stub.serve, path, clean, health, event, adaptor, workspace, status, ne_eq, not_true_eq_false,
    if_false, if_true]

/-- The stub creates sessions in the workspace: it knows the workspace, and the file that the
    sixth operation of the handler writes can be written. -/
def Accepts (c : Contribution) (σ : Stub.State) (workspaceID : String) : Prop :=
  σ.getWorkspace (utf8 workspaceID) ≠ none ∧ (c.stub 5).write = .ok

private theorem createSession_outcome (env : Stub.Env) (se : Stub.Session) (σ : Stub.State) :
    (env.write = .ok ∧ (σ.createSession env se).1 = none ∧
        (σ.createSession env se).2.getSession se.id = some se) ∨
      (env.write ≠ .ok ∧ (σ.createSession env se).1 = some env.errText) := by
  cases written : env.write <;>
    simp [Stub.State.createSession, Stub.State.saveSession, Stub.writeFile, Stub.State.getSession, written]

/-- `POST /session` for a session of the plugin. -/
def sessionRequest (localPort : Int) (token sessionID title workspaceID : String) : Plugin.FetchRequest :=
  ⟨"POST", localPort, "/session", some token, some (.session sessionID title workspaceID)⟩

private def served (c : Contribution) (σ : Stub.State) (sessionID title workspaceID : String) :
    Stub.Response × Stub.State × (Nat → Stub.Env) :=
  (Stub.sessionCreate ⟨Stub.methodPost, Stub.lit "/session",
    decode (some (.session sessionID title workspaceID))⟩).run Stub.exec c.stub σ

private theorem served_outcome (c : Contribution) (σ : Stub.State) {sessionID : String}
    (given : utf8 sessionID ≠ []) (title workspaceID : String) :
    ((served c σ sessionID title workspaceID).1.code = 200 ∧ Accepts c σ workspaceID ∧
        OnStub (served c σ sessionID title workspaceID).2.1 sessionID workspaceID) ∨
      (400 ≤ (served c σ sessionID title workspaceID).1.code ∧ ¬Accepts c σ workspaceID) := by
  simp only [served, Stub.sessionCreate, decode, ne_eq, not_true_eq_false, if_false, Stub.call,
    Program.bind_eq, Program.perform_bind, Program.run_op, Stub.exec]
  cases known : σ.getWorkspace (utf8 workspaceID) with
  | none => simp [Accepts, Stub.error, Stub.json, known]
  | some ws =>
      simp only [Program.run_op, Stub.exec, Nat.reduceAdd]
      generalize created : Stub.newSession ⟨utf8 sessionID, utf8 title, utf8 workspaceID⟩ _ _ _ _ = se
      have id : se.id = utf8 sessionID ∧ se.workspaceID = utf8 workspaceID := by
        subst created
        exact ⟨if_neg given, rfl⟩
      cases createSession_outcome (c.stub 5) se σ with
      | inl saved =>
          obtain ⟨written, result, stored⟩ := saved
          simp only [result]
          exact .inl ⟨rfl, ⟨by simp [known], written⟩, se, id.1 ▸ stored, id.2⟩
      | inr failed =>
          obtain ⟨written, result⟩ := failed
          simp [Accepts, Stub.error, Stub.json, result, written]

private theorem session_path : utf8 "/session" = Stub.lit "/session" ∧ utf8 "POST" = Stub.methodPost := by decide

/-- The request is served, or the token check refuses it. -/
private theorem answer_session (startedAt : Int) (c : Contribution) (localPort : Int)
    (token : String) (σ : Stub.State) (sessionID title workspaceID : String) :
    answer startedAt c (sessionRequest localPort token sessionID title workspaceID) σ =
        (⟨(served c σ sessionID title workspaceID).1.code, c.text, c.json⟩,
          (served c σ sessionID title workspaceID).2.1) ∨
      answer startedAt c (sessionRequest localPort token sessionID title workspaceID) σ =
        (⟨401, c.text, c.json⟩, σ) ∧ c.token ≠ utf8 token := by
  obtain ⟨path, method⟩ := session_path
  have wired : wire (sessionRequest localPort token sessionID title workspaceID) =
      ⟨Stub.methodPost, Stub.lit "/session", decode (some (.session sessionID title workspaceID))⟩ := by
    simp only [wire, sessionRequest, path, method]
  have carried : authorization (sessionRequest localPort token sessionID title workspaceID) =
      Stub.lit "Bearer " ++ utf8 token := rfl
  have handled := serve_session startedAt (congrArg Stub.Request.path wired)
  rw [answer, carried]
  by_cases valid : c.token = utf8 token
  · rw [← valid, mux_of_bearer (Service.bearer_sent c.token), handled, wired]
    exact .inl rfl
  · rcases mux_cases c.token startedAt (Stub.lit "Bearer " ++ utf8 token)
      (wire (sessionRequest localPort token sessionID title workspaceID)) with passed | ⟨message, refused⟩
    · rw [passed, handled, wired]
      exact .inl rfl
    · rw [refused]
      exact .inr ⟨rfl, valid⟩

theorem session_answered (startedAt : Int) {c : Contribution} {token : String}
    (authorized : Authorized c token) (localPort : Int) (σ : Stub.State) {sessionID : String}
    (given : utf8 sessionID ≠ []) (title workspaceID : String) :
    ∃ response σ', answer startedAt c (sessionRequest localPort token sessionID title workspaceID) σ =
        (response, σ') ∧
      (response.ok = true ↔ Accepts c σ workspaceID) ∧
      (response.ok = true → OnStub σ' sessionID workspaceID) := by
  have result := (answer_session startedAt c localPort token σ sessionID title workspaceID).resolve_right
    fun refused => refused.2 authorized.2
  refine ⟨_, _, result, ?_⟩
  simp only [Plugin.Response.ok]
  cases served_outcome c σ given title workspaceID with
  | inl created => simp [created]
  | inr refused =>
      have late : ¬(served c σ sessionID title workspaceID).1.code < 300 := by omega
      simp [refused.2, late]

/-- Whoever asks, and whether or not the token is right: a session that the stub says it has
    created is there. -/
theorem session_stored (startedAt : Int) (c : Contribution) (localPort : Int) (token : String)
    (σ : Stub.State) {sessionID : String} (given : utf8 sessionID ≠ []) (title workspaceID : String)
    (accepted : (answer startedAt c (sessionRequest localPort token sessionID title workspaceID) σ).1.ok = true) :
    OnStub (answer startedAt c (sessionRequest localPort token sessionID title workspaceID) σ).2
      sessionID workspaceID := by
  cases answer_session startedAt c localPort token σ sessionID title workspaceID with
  | inl result =>
      simp only [result, Plugin.Response.ok, decide_eq_true_eq] at accepted ⊢
      cases served_outcome c σ given title workspaceID with
      | inl created => exact created.2.2
      | inr refused => omega
  | inr refused =>
      rw [refused.1] at accepted
      cases accepted

/-! ## What the plugin makes of it -/

section Linked

variable {manager : Plugin.SSHManager} (startedAt : Int)

section Steps

variable {config : Plugin.ResolvedPluginConfig} {α β : Type}

theorem linked_pure (a : α) (env : Nat → Contribution) (both : Both) :
    linked config startedAt (pure a : Plugin.Async α) env both = (.ok a, both, env) := rfl

theorem linked_bind (f : Plugin.Async α) (g : α → Plugin.Async β) (env : Nat → Contribution) (both : Both) :
    linked config startedAt (f >>= g) env both = match linked config startedAt f env both with
      | (.ok a, both', env') => linked config startedAt (g a) env' both'
      | (.error e, both', env') => (.error e, both', env') := by
  unfold linked
  rw [Plugin.Async.run_bind]
  split <;> simp [*]

theorem linked_tryCatch (f : Plugin.Async α) (handler : String → Plugin.Async α) (env : Nat → Contribution)
    (both : Both) :
    linked config startedAt (tryCatch f handler) env both = match linked config startedAt f env both with
      | (.ok a, both', env') => (.ok a, both', env')
      | (.error e, both', env') => linked config startedAt (handler e) env' both' := by
  unfold linked
  rw [Plugin.Async.run_caught]
  split <;> simp [*]

theorem linked_await (f : Plugin.Async α) (env : Nat → Contribution) (both : Both) :
    linked config startedAt (Plugin.Async.await f) env both = match linked config startedAt f env both with
      | (outcome, both', env') => (outcome, both', fun n => env' (n + 1)) :=
  Program.run_bind (exec config startedAt) f.run _ env both

theorem linked_outside_await (f : Plugin.Remote α) (env : Nat → Contribution) (both : Both) :
    linked config startedAt (Plugin.Async.outside (Plugin.Remote.await f)) env both =
      match linked config startedAt (Plugin.Async.outside f) env both with
      | (outcome, both', env') => (outcome, both', fun n => env' (n + 1)) := by
  unfold linked
  have split : (Plugin.Async.outside (Plugin.Remote.await f)).run = _ := Program.hoist_bind f.run _
  rw [split, Program.run_bind]
  rfl

theorem linked_acquireResolved (request : Plugin.HostSelectionRequest) (workspaceID : String)
    (env : Nat → Contribution) (s : Plugin.Store) (σ : Stub.State) :
    linked config startedAt (Plugin.Async.acquireResolved request workspaceID) env (s, σ) =
      let (result, leases) := Plugin.ProviderRegistry.acquireResolved config request workspaceID
        (env 0).plugin.now s.leases
      (result, ({ s with leases }, σ), fun n => env (n + 1)) := rfl

theorem linked_replaceBinding (binding : Plugin.WorkspaceBinding) (env : Nat → Contribution)
    (s : Plugin.Store) (σ : Stub.State) :
    linked config startedAt (Plugin.Async.replaceBinding binding) env (s, σ) =
      ((env 0).plugin.save, ({ s with state := s.state.replace binding }, σ), fun n => env (n + 1)) := rfl

theorem linked_drop (host workspaceID : String) (env : Nat → Contribution) (s : Plugin.Store) (σ : Stub.State) :
    linked config startedAt (Plugin.Async.drop host workspaceID) env (s, σ) =
      ((env 0).plugin.save, (⟨s.leases.release host workspaceID, s.state.delete workspaceID⟩, σ),
        fun n => env (n + 1)) := rfl

theorem linked_now (env : Nat → Contribution) (both : Both) :
    linked config startedAt (Plugin.Async.outside (Plugin.Remote.call .now) : Plugin.Async Nat) env both =
      (.ok ((env 0).plugin.answer .now), both, fun n => env (n + 1)) := rfl

theorem linked_fetch {env : Nat → Contribution} (reaches : (env 0).reaches = true)
    (request : Plugin.FetchRequest) (s : Plugin.Store) (σ : Stub.State) :
    linked config startedAt (Plugin.Async.outside (Plugin.Remote.fetch request)) env (s, σ) =
      (.ok (answer startedAt (env 0) request σ).1, (s, (answer startedAt (env 0) request σ).2),
        fun n => env (n + 1)) := by
  change Program.run _ (.op (Plugin.Op.remote (.fetch request)) _) _ _ = _
  rw [Program.run_op, exec, if_pos reaches]
  rfl

theorem linked_fetch_refused {env : Nat → Contribution} (cut : ¬(env 0).reaches = true)
    (request : Plugin.FetchRequest) (both : Both) :
    linked config startedAt (Plugin.Async.outside (Plugin.Remote.fetch request)) env both =
      (.error "ECONNREFUSED", both, fun n => env (n + 1)) := by
  change Program.run _ (.op (Plugin.Op.remote (.fetch request)) _) _ _ = _
  rw [Program.run_op, exec, if_neg cut]
  rfl

end Steps

theorem linked_ensureRecoveredBinding {env : Nat → Contribution} {binding : Plugin.WorkspaceBinding}
    (authorized : Authorized (env 0) binding.token) (selection : Plugin.ResolvedHost) (both : Both) :
    linked manager.config startedAt (Plugin.Async.remote (manager.ensureRecoveredBinding binding selection))
      env both = (.ok binding, both, fun n => env (n + 3)) := by
  obtain ⟨s, σ⟩ := both
  have healthy : linked manager.config startedAt (Plugin.Async.outside (Plugin.Remote.fetch ⟨"GET",
      binding.localPort, "/global/health", some binding.token, none⟩)) env (s, σ) =
      (.ok ⟨200, (env 0).text, (env 0).json⟩, (s, σ), fun n => env (n + 1)) := by
    rw [linked_fetch _ authorized.1, health_answered startedAt authorized]
  have reachable : linked manager.config startedAt (Plugin.Async.outside (Plugin.SSHManager.isHealthReachable
      binding.localPort binding.token)) env (s, σ) = (.ok true, (s, σ), fun n => env (n + 1)) := by
    simp only [Plugin.SSHManager.isHealthReachable, Plugin.Async.outside_tryCatch, linked_tryCatch,
      Plugin.Async.outside_bind, linked_bind, healthy]
    rfl
  simp only [Plugin.Async.remote, Plugin.SSHManager.ensureRecoveredBinding, linked_outside_await,
    Plugin.Async.outside_bind, linked_bind, reachable]
  rfl

/-- The id that `createRemoteSession` mints. -/
def mintSessionID (now : Nat) : String := s!"sess_{now}"

theorem mintSessionID_nonempty (now : Nat) : utf8 (mintSessionID now) ≠ [] := by
  have member : 's' ∈ (toString "sess_").toList := by decide
  intro empty
  apply String.utf8EncodeChar_ne_nil (List.flatMap_eq_nil_iff.mp empty 's' _)
  simp only [mintSessionID, String.toList_append, List.mem_append, member, true_or]

/-- The session is created and its id returned, or the stub refuses it. -/
theorem linked_createRemoteSession (config : Plugin.ResolvedPluginConfig) (env : Nat → Contribution)
    {binding : Plugin.WorkspaceBinding} (authorized : Authorized (env 1) binding.token) (s : Plugin.Store)
    (σ : Stub.State) :
    ∃ sessionID σ', utf8 sessionID ≠ [] ∧
      ((Accepts (env 1) σ binding.workspaceID ∧ OnStub σ' sessionID binding.workspaceID ∧
          linked config startedAt (Plugin.Async.outside (Plugin.createRemoteSession binding)) env (s, σ) =
            (.ok sessionID, (s, σ'), fun n => env (n + 2))) ∨
        (¬Accepts (env 1) σ binding.workspaceID ∧ ∃ e, linked config startedAt
          (Plugin.Async.outside (Plugin.createRemoteSession binding)) env (s, σ) =
            (.error e, (s, σ'), fun n => env (n + 3)))) := by
  have named := mintSessionID_nonempty ((env 0).plugin.answer .now)
  obtain ⟨response, σ', answered, accepted, stored⟩ := session_answered startedAt authorized
    binding.localPort σ named "Remote Session" binding.workspaceID
  have posted : linked config startedAt (Plugin.Async.outside (Plugin.Remote.fetch (sessionRequest
      binding.localPort binding.token (mintSessionID ((env 0).plugin.answer .now)) "Remote Session"
        binding.workspaceID))) (fun n => env (n + 1)) (s, σ) =
      (.ok response, (s, σ'), fun n => env (n + 2)) := by
    rw [linked_fetch _ authorized.1, answered]
  refine ⟨_, σ', named, ?_⟩
  rw [mintSessionID, sessionRequest] at *
  simp only [Plugin.createRemoteSession, Plugin.Async.outside_bind, linked_bind, linked_now, posted]
  by_cases ok : response.ok = true
  · simp only [ok, if_true]
    exact .inl ⟨accepted.mp ok, stored ok, rfl⟩
  · simp only [ok]
    refine .inr ⟨fun both => ok (accepted.mpr both), ?_⟩
    cases response.text <;> exact ⟨_, rfl⟩

/-- Whatever the surroundings do, a session that the plugin has created is on the stub. -/
theorem onStub_of_createRemoteSession {config : Plugin.ResolvedPluginConfig} {env env' : Nat → Contribution}
    {binding : Plugin.WorkspaceBinding} {both both' : Both} {sessionID : String}
    (created : linked config startedAt (Plugin.Async.outside (Plugin.createRemoteSession binding)) env both =
      (.ok sessionID, both', env')) :
    utf8 sessionID ≠ [] ∧ OnStub both'.2 sessionID binding.workspaceID := by
  have named := mintSessionID_nonempty ((env 0).plugin.answer .now)
  have stored := session_stored startedAt (env 1) binding.localPort binding.token both.2 named
    "Remote Session" binding.workspaceID
  rw [mintSessionID, sessionRequest] at *
  simp only [Plugin.createRemoteSession, Plugin.Async.outside_bind, linked_bind, linked_now] at created
  by_cases reaches : (env 1).reaches = true
  · obtain ⟨s, σ⟩ := both
    rw [linked_fetch startedAt reaches] at created
    by_cases ok : (answer startedAt (env 1) ⟨"POST", binding.localPort, "/session", some binding.token,
        some (.session (toString "sess_" ++ toString ((env 0).plugin.answer .now)) "Remote Session"
          binding.workspaceID)⟩ σ).1.ok = true
    · simp only [zero_add, ok, if_true] at created
      cases created
      exact ⟨named, stored ok⟩
    · simp only [zero_add, ok] at created
      generalize (answer startedAt (env 1) _ σ).1.text = text at created
      cases text <;> cases created
  · rw [linked_fetch_refused startedAt reaches] at created
    cases created

theorem linked_ensureSession_held {binding : Plugin.WorkspaceBinding} {sessionID : String}
    (held : Plugin.truthy binding.sessionID = some sessionID) (config : Plugin.ResolvedPluginConfig)
    (env : Nat → Contribution) (both : Both) :
    linked config startedAt (Plugin.Async.outside (Plugin.ensureSession binding)) env both =
      (.ok { binding with sessionID := some sessionID }, both, env) := by
  have same : { binding with sessionID := some sessionID } = binding := by
    rw [← (Option.filter_eq_some_iff.mp held).1]
  simp only [Plugin.ensureSession, held, same]
  rfl

theorem linked_ensureSession_new (config : Plugin.ResolvedPluginConfig) (env : Nat → Contribution)
    {binding : Plugin.WorkspaceBinding} (missing : Plugin.truthy binding.sessionID = none)
    (authorized : Authorized (env 1) binding.token) (s : Plugin.Store) (σ : Stub.State) :
    ∃ sessionID σ', (Accepts (env 1) σ binding.workspaceID ∧ OnStub σ' sessionID binding.workspaceID ∧
        linked config startedAt (Plugin.Async.outside (Plugin.ensureSession binding)) env (s, σ) =
          (.ok { binding with sessionID := some sessionID }, (s, σ'), fun n => env (n + 3))) ∨
      (¬Accepts (env 1) σ binding.workspaceID ∧ ∃ e, linked config startedAt
        (Plugin.Async.outside (Plugin.ensureSession binding)) env (s, σ) =
          (.error e, (s, σ'), fun n => env (n + 4))) := by
  obtain ⟨sessionID, σ', -, outcome⟩ := linked_createRemoteSession startedAt config env authorized s σ
  refine ⟨sessionID, σ', ?_⟩
  simp only [Plugin.ensureSession, missing, Plugin.Async.outside_bind, linked_bind,
    linked_outside_await]
  cases outcome with
  | inl created =>
      obtain ⟨accepted, stored, ran⟩ := created
      refine .inl ⟨accepted, stored, ?_⟩
      simp only [ran]
      rfl
  | inr refused =>
      obtain ⟨refusal, e, ran⟩ := refused
      refine .inr ⟨refusal, e, ?_⟩
      simp only [ran]

end Linked

end OpencodeRemote.Link
