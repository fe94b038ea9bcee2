import OpencodeRemote.Link.Cleanup

/-! # Removal of a binding

The deletes on the stub come first. Then the tunnel is closed, which can be refused, and
only then the lease and the binding are given up.
-/

namespace OpencodeRemote.Link

open Concurrency Data
open Stub (GoString lit)

/-! ## Closing the tunnel -/

/-- How many operations the loop takes which waits for the port, if it finds it closed: a
    probe and the turn after it, and a pause between two rounds. -/
def polled : Nat → (Nat → Contribution) → Option Nat
  | 0, _ => none
  | rounds + 1, env =>
      if (env 0).reaches then (polled rounds fun n => env (n + 3)).map (· + 3) else some 2

/-- How many operations it takes to close the tunnel; `none` if that is refused: without a
    pid the port has to be closed already, with one the process has to be killed, or else the
    port closed, and in both cases a round of the wait has to find it so. -/
def closing (binding : Plugin.WorkspaceBinding) (env : Nat → Contribution) : Option Nat :=
  match Plugin.truthyPid binding.tunnelPID with
  | none => if (env 0).reaches then none else some 2
  | some pid =>
      match (env 0).plugin.answer (.kill pid) with
      | .ok () => (polled ((env 2).plugin.answer (.rounds 5000)) fun n => env (n + 3)).map (· + 5)
      | .error _ =>
          if (env 1).reaches then none
          else (polled ((env 4).plugin.answer (.rounds 5000)) fun n => env (n + 5)).map (· + 7)

section Closing

variable (config : Plugin.ResolvedPluginConfig) (startedAt : Int) (env : Nat → Contribution) (both : Both)

/-- The run returns after so many operations, or throws, and leaves both stores alone. -/
def Ends (f : Plugin.Remote Unit) (spent : Option Nat) : Prop :=
  match spent with
  | some n => transmitted config startedAt (Plugin.Async.outside f) env both = (.ok (), both, fun k => env (k + n))
  | none => ∃ e env', transmitted config startedAt (Plugin.Async.outside f) env both = (.error e, both, env')

variable {config startedAt env both}

theorem Ends.await {f : Plugin.Remote Unit} {spent : Option Nat} (ends : Ends config startedAt env both f spent) :
    Ends config startedAt env both (Plugin.Remote.await f) (spent.map (· + 1)) := by
  cases spent with
  | none =>
      obtain ⟨e, env', ran⟩ := ends
      exact ⟨e, _, by rw [transmitted_outside_await, ran]⟩
  | some n =>
      have ran : transmitted config startedAt (Plugin.Async.outside f) env both = _ := ends
      change transmitted config startedAt (Plugin.Async.outside (Plugin.Remote.await f)) env both = _
      rw [transmitted_outside_await, ran]
      refine congrArg (fun env' => (Except.ok (), both, env')) (funext fun k => congrArg env ?_)
      change k + 1 + n = k + (n + 1)
      omega

/-- A step whose result is known comes first. -/
theorem Ends.step {α : Type} {f : Plugin.Remote α} {g : α → Plugin.Remote Unit} {a : α} {n : Nat}
    {spent : Option Nat}
    (first : transmitted config startedAt (Plugin.Async.outside f) env both = (.ok a, both, fun k => env (k + n)))
    (rest : Ends config startedAt (fun k => env (k + n)) both (g a) spent) :
    Ends config startedAt env both (f >>= g) (spent.map (· + n)) := by
  have split : transmitted config startedAt (Plugin.Async.outside (f >>= g)) env both =
      transmitted config startedAt (Plugin.Async.outside (g a)) (fun k => env (k + n)) both := by
    rw [transmitted] at first ⊢
    rw [Plugin.Async.outside_bind, Plugin.Async.run_bind, first]
    rfl
  cases spent with
  | none =>
      obtain ⟨e, env', ran⟩ := rest
      exact ⟨e, env', split.trans ran⟩
  | some m =>
      refine split.trans (Eq.trans rest ?_)
      simp only [Nat.add_assoc]

/-- Two steps that may throw. -/
theorem Ends.bind {f : Plugin.Remote Unit} {g : Unit → Plugin.Remote Unit} {spent : Option Nat}
    {more : Nat → Option Nat}
    (first : Ends config startedAt env both f spent)
    (rest : ∀ n, Ends config startedAt (fun k => env (k + n)) both (g ()) (more n)) :
    Ends config startedAt env both (f >>= g) (spent.bind fun n => (more n).map (· + n)) := by
  cases spent with
  | none =>
      obtain ⟨e, env', ran⟩ := first
      refine ⟨e, env', ?_⟩
      rw [transmitted] at ran ⊢
      rw [Plugin.Async.outside_bind, Plugin.Async.run_bind, ran]
  | some n => exact Ends.step first (rest n)

theorem ends_pure : Ends config startedAt env both (pure ()) (some 0) := rfl

theorem ends_throw (e : String) : Ends config startedAt env both (throw e) none := ⟨e, env, rfl⟩

variable (config startedAt env both) in
/-- A probe carries no token, and the stub answers that. -/
theorem transmitted_isPortReachable (localPort : Int) :
    transmitted config startedAt (Plugin.Async.outside (Plugin.SSHManager.isPortReachable localPort)) env both =
      (.ok (env 0).reaches, both, fun k => env (k + 1)) := by
  obtain ⟨s, σ⟩ := both
  have sent := transmitted_fetch startedAt config ⟨"GET", localPort, "/global/health", none, none⟩ env s σ
  rw [transmitted] at sent
  rw [Plugin.SSHManager.isPortReachable, Plugin.Async.outside_tryCatch, transmitted, Plugin.Async.run_caught,
    Plugin.Async.outside_bind, Plugin.Async.run_bind, sent]
  by_cases reaches : (env 0).reaches = true
  · have fixed : utf8 "/global/health" = lit "/global/health" ∧
        Stub.cleanPath (lit "/global/health") = lit "/global/health" ∧ lit "/global/health" ∈ routes := by decide
    obtain ⟨path, clean, routed⟩ := fixed
    have answered : answer startedAt (env 0) ⟨"GET", localPort, "/global/health", none, none⟩ σ =
        (⟨401, (env 0).text, (env 0).json⟩, σ) := by
      simp only [answer, mux, wire, path, clean, routed, authorization, true_or, and_self, if_true, Service.Require]
      rfl
    have faithful : Url.Faithful (utf8 (⟨"GET", localPort, "/global/health", none, none⟩ : Plugin.FetchRequest).path) :=
      faithful_fixed "/global/health" (by simp)
    rw [fetch_of_faithful startedAt reaches faithful, answered, reaches]
    rfl
  · rw [fetch, if_neg reaches, Bool.of_not_eq_true reaches]
    rfl

variable (config startedAt env both) in
theorem transmitted_probe (localPort : Int) :
    transmitted config startedAt (Plugin.Async.outside
      (Plugin.Remote.await (Plugin.SSHManager.isPortReachable localPort))) env both =
      (.ok (env 0).reaches, both, fun k => env (k + 2)) := by
  rw [transmitted_outside_await, transmitted_isPortReachable config startedAt env both]

/-- The loop, for a test that comes out true once the port is closed. -/
theorem ends_poll {ready : Plugin.Remote Bool} {late : String} (rounds : Nat)
    (probe : ∀ env, transmitted config startedAt (Plugin.Async.outside ready) env both =
      (.ok !(env 0).reaches, both, fun k => env (k + 2))) :
    Ends config startedAt env both (Plugin.SSHManager.poll ready 200 late rounds) (polled rounds env) := by
  induction rounds generalizing env with
  | zero => exact ends_throw _
  | succ rounds ih =>
      let again (closed : Bool) : Plugin.Remote Unit :=
        if closed = true then pure () else
          Plugin.Remote.call (.sleep 200) >>= fun _ => Plugin.SSHManager.poll ready 200 late rounds
      change Ends config startedAt env both (ready >>= again) _
      have probed := probe env
      rw [polled]
      by_cases reaches : (env 0).reaches = true
      · rw [reaches] at probed
        have later : Ends config startedAt (fun n => env (n + 3)) both _ (polled rounds fun n => env (n + 3)) := ih
        have paused : Ends config startedAt (fun k => env (k + 2)) both (again !true)
            ((polled rounds fun n => env (n + 3)).map (· + 1)) :=
          Ends.step (f := Plugin.Remote.call (.sleep 200))
            (g := fun _ => Plugin.SSHManager.poll ready 200 late rounds) (a := ()) (n := 1) rfl later
        have composed : (polled rounds fun n => env (n + 3)).map (· + 3) =
            ((polled rounds fun n => env (n + 3)).map (· + 1)).map (· + 2) := by
          rw [Option.map_map]
          rfl
        rw [if_pos reaches, composed]
        exact Ends.step probed paused
      · rw [Bool.of_not_eq_true reaches] at probed
        rw [if_neg reaches]
        change Ends config startedAt env both _ ((some 0).map (· + 2))
        exact Ends.step (g := again) probed ends_pure

theorem ends_waitForPortClosed (localPort : Int) : Ends config startedAt env both
    (Plugin.SSHManager.waitForPortClosed localPort)
    ((polled ((env 0).plugin.answer (.rounds 5000)) fun n => env (n + 1)).map (· + 1)) := by
  refine Ends.step (f := Plugin.Remote.call (.rounds 5000)) (n := 1) rfl (ends_poll _ fun env => ?_)
  have probed := transmitted_probe config startedAt env both localPort
  rw [transmitted] at probed ⊢
  rw [Plugin.Async.outside_bind, Plugin.Async.run_bind, probed]
  rfl

/-- What is refused if the port is found open. -/
theorem ends_refusal (localPort : Int) (message : String) : Ends config startedAt env both
    (Plugin.Remote.await (Plugin.SSHManager.isPortReachable localPort) >>= fun reachable =>
      if reachable = true then throw message else pure ())
    (if (env 0).reaches then none else some 2) := by
  have probed := transmitted_probe config startedAt env both localPort
  by_cases reaches : (env 0).reaches = true
  · rw [reaches] at probed
    rw [if_pos reaches]
    change Ends config startedAt env both _ (Option.map (· + 2) none)
    exact Ends.step probed (ends_throw message)
  · rw [Bool.of_not_eq_true reaches] at probed
    rw [if_neg reaches]
    change Ends config startedAt env both _ ((some 0).map (· + 2))
    exact Ends.step probed ends_pure

variable (config startedAt env both) in
theorem transmitted_killed (pid : Nat) :
    transmitted config startedAt (Plugin.Async.outside do
      try (do Plugin.Remote.kill pid; pure true) catch _ => pure false) env both =
      (.ok (((env 0).plugin.answer (.kill pid)).toOption.isSome), both, fun k => env (k + 1)) := by
  have signalled : transmitted config startedAt (Plugin.Async.outside (Plugin.Remote.kill pid)) env both =
      ((env 0).plugin.answer (.kill pid), both, fun k => env (k + 1)) := rfl
  rw [transmitted] at signalled ⊢
  rw [Plugin.Async.outside_tryCatch, Plugin.Async.run_caught, Plugin.Async.outside_bind, Plugin.Async.run_bind,
    signalled]
  cases (env 0).plugin.answer (.kill pid) <;> rfl

variable (config startedAt env both) in
/-- A pid that cannot be killed is as good as none. -/
theorem ends_closeTunnel (localPort : Int) {tunnelPID : Option Nat} {pid : Nat}
    (tracked : Plugin.truthyPid tunnelPID = some pid) : Ends config startedAt env both
      (Plugin.SSHManager.closeTunnel localPort tunnelPID)
      (match (env 0).plugin.answer (.kill pid) with
        | .ok () => some 1
        | .error _ => if (env 1).reaches then none else some 3) := by
  have killed := transmitted_killed config startedAt env both pid
  rw [Plugin.SSHManager.closeTunnel, tracked]
  cases signalled : (env 0).plugin.answer (.kill pid) with
  | ok =>
      rw [signalled] at killed
      change Ends config startedAt env both _ ((some 0).map (· + 1))
      exact Ends.step killed ends_pure
  | error e =>
      rw [signalled] at killed
      have later : (if (env 1).reaches then none else some 3 : Option Nat) =
          (if (env 1).reaches then none else some 2).map (· + 1) := by
        split <;> rfl
      dsimp only
      rw [later]
      exact Ends.step killed (ends_refusal localPort _)

variable (config startedAt env both) in
theorem ends_closeRecoveredBinding (binding : Plugin.WorkspaceBinding) :
    Ends config startedAt env both (Plugin.SSHManager.closeRecoveredBinding binding) (closing binding env) := by
  rw [Plugin.SSHManager.closeRecoveredBinding, closing]
  cases tracked : Plugin.truthyPid binding.tunnelPID with
  | none => exact ends_refusal binding.localPort _
  | some pid =>
      have closed := (ends_closeTunnel config startedAt env both binding.localPort tracked).await
      have torn : Ends config startedAt env both (Plugin.Remote.await (Plugin.SSHManager.teardown binding)) _ :=
        (closed.bind (g := fun _ => Plugin.Remote.await (Plugin.SSHManager.waitForPortClosed binding.localPort))
          fun n => (ends_waitForPortClosed binding.localPort).await).await
      dsimp only
      cases signalled : (env 0).plugin.answer (.kill pid) with
      | ok =>
          simp only [signalled, Option.map_some, Option.bind_some, Option.map_map, Function.comp_def] at torn
          exact torn
      | error e =>
          by_cases reaches : (env 1).reaches = true
          · simp only [signalled, reaches, if_true, Option.map_none, Option.bind_none] at torn
            simpa only [reaches, if_true] using torn
          · simp only [signalled, reaches, Bool.false_eq_true, if_false, Option.map_some, Option.bind_some,
              Option.map_map, Function.comp_def] at torn
            rw [if_neg reaches]
            exact torn

end Closing

/-! ## All or nothing -/

/-- What the call leaves: nothing if it returns, and if it throws the binding and the lease that
    were there, with the resources that the stub had. -/
structure AllOrNothing (binding : Plugin.WorkspaceBinding) (before : Both) (outcome : Except String Unit)
    (after : Both) : Prop where
  returned : outcome = .ok () → after.1.state.get binding.workspaceID = none ∧
    after.1.leases.holder binding.host ≠ some binding.workspaceID
  thrown : ∀ e, outcome = .error e →
    (before.1.state.get binding.workspaceID = some binding →
      after.1.state.get binding.workspaceID = some binding) ∧
    (before.1.leases.holder binding.host = some binding.workspaceID →
      after.1.leases.holder binding.host = some binding.workspaceID) ∧
    ∀ resource ∈ ownResources binding, before.2.lookup resource ≠ none → after.2.lookup resource ≠ none

/-- The plugin knows neither the binding nor a lease of its workspace. -/
def Unknown (binding : Plugin.WorkspaceBinding) (s : Plugin.Store) : Prop :=
  s.state.get binding.workspaceID ≠ some binding ∧ s.leases.holder binding.host ≠ some binding.workspaceID

/-- None of the deletes gets to a resource which the stub has. -/
def Spared (binding : Plugin.WorkspaceBinding) (env : Nat → Contribution) (σ : Stub.State) : Prop :=
  ∀ resource ∈ ownResources binding, σ.lookup resource ≠ none →
    hits binding (deletePaths binding) env resource = false

theorem spared_iff (startedAt : Int) {binding : Plugin.WorkspaceBinding} {env : Nat → Contribution}
    {σ : Stub.State} : Spared binding env σ ↔
      ∀ resource ∈ ownResources binding, σ.lookup resource ≠ none →
        (deleteAll startedAt binding (deletePaths binding) env σ).lookup resource ≠ none := by
  refine forall_congr' fun resource => forall_congr' fun _ => forall_congr' fun present => ?_
  rw [lookup_deleteAll]
  cases hits binding (deletePaths binding) env resource
  · simpa using present
  · simp

/-- How the call ends, after the deletes. -/
def Safe (binding : Plugin.WorkspaceBinding) (env : Nat → Contribution) (s : Plugin.Store) (σ : Stub.State) :
    Prop :=
  let deletes := (deletePaths binding).length
  match closing binding fun n => env (n + 1 + deletes) with
  | some spent =>
      (env (spent + 2 + deletes)).plugin.save = .ok () ∨ Unknown binding s ∧ Spared binding env σ
  | none => Spared binding env σ

theorem transmitted_drop (config : Plugin.ResolvedPluginConfig) (startedAt : Int) (host workspaceID : String)
    (env : Nat → Contribution) (s : Plugin.Store) (σ : Stub.State) :
    transmitted config startedAt (Plugin.Async.drop host workspaceID) env (s, σ) =
      ((env 0).plugin.save, (⟨s.leases.release host workspaceID, s.state.delete workspaceID⟩, σ),
        fun n => env (n + 1)) := rfl

theorem dropped_gone (binding : Plugin.WorkspaceBinding) (s : Plugin.Store) :
    (s.state.delete binding.workspaceID).get binding.workspaceID = none ∧
      (s.leases.release binding.host binding.workspaceID).holder binding.host ≠ some binding.workspaceID := by
  rw [Plugin.RuntimeState.get_delete, if_pos rfl, Plugin.LeaseManager.holder_release]
  refine ⟨rfl, fun held => ?_⟩
  split at held
  · rw [Function.update_self] at held
    cases held
  · rename_i other
    exact other held

section Removal

variable (config : Plugin.ResolvedPluginConfig) (startedAt : Int) {binding : Plugin.WorkspaceBinding}
  {env : Nat → Contribution} (s : Plugin.Store) (σ : Stub.State)

/-- What is left to do behind the deletes. -/
theorem transmitted_removeBinding :
    transmitted config startedAt (Plugin.removeBinding binding) env (s, σ) =
      transmitted config startedAt (do
          Plugin.Async.remote (Plugin.SSHManager.closeRecoveredBinding binding)
          Plugin.Async.drop binding.host binding.workspaceID)
        (fun n => env (n + 1 + (deletePaths binding).length))
        (s, deleteAll startedAt binding (deletePaths binding) env σ) := by
  have removed := transmitted_removeRemoteWorkspace startedAt binding config env s σ
  rw [transmitted] at removed
  rw [Plugin.removeBinding, transmitted, Plugin.Async.run_bind, removed]
  rfl

/-- If the tunnel may not be closed, the tables stay, and the deletes have been sent. -/
theorem allOrNothing_of_refused
    (refused : closing binding (fun n => env (n + 1 + (deletePaths binding).length)) = none) :
    AllOrNothing binding (s, σ) (transmitted config startedAt (Plugin.removeBinding binding) env (s, σ)).1
        (transmitted config startedAt (Plugin.removeBinding binding) env (s, σ)).2.1 ↔
      Spared binding env σ := by
  have closed := (ends_closeRecoveredBinding config startedAt (fun n => env (n + 1 + (deletePaths binding).length))
    (s, deleteAll startedAt binding (deletePaths binding) env σ) binding).await
  rw [refused] at closed
  obtain ⟨e, env', ran⟩ := closed
  rw [transmitted, ← Plugin.Async.remote] at ran
  rw [transmitted_removeBinding, transmitted, Plugin.Async.run_bind, ran, spared_iff startedAt]
  refine ⟨fun whole => (whole.thrown e rfl).2.2, fun spared => ⟨fun returned => ?_, fun _ _ => ⟨id, id, spared⟩⟩⟩
  cases returned

/-- If it is closed, the binding and the lease are given up, whether that can be saved or not. -/
theorem allOrNothing_of_closed {spent : Nat}
    (closes : closing binding (fun n => env (n + 1 + (deletePaths binding).length)) = some spent) :
    AllOrNothing binding (s, σ) (transmitted config startedAt (Plugin.removeBinding binding) env (s, σ)).1
        (transmitted config startedAt (Plugin.removeBinding binding) env (s, σ)).2.1 ↔
      (env (spent + 2 + (deletePaths binding).length)).plugin.save = .ok () ∨
        Unknown binding s ∧ Spared binding env σ := by
  have closed := (ends_closeRecoveredBinding config startedAt (fun n => env (n + 1 + (deletePaths binding).length))
    (s, deleteAll startedAt binding (deletePaths binding) env σ) binding).await
  rw [closes] at closed
  have ran : transmitted config startedAt (Plugin.Async.remote (Plugin.SSHManager.closeRecoveredBinding binding))
    _ _ = _ := closed
  have dropped := transmitted_drop config startedAt binding.host binding.workspaceID
    (fun k => env (k + (spent + 1) + 1 + (deletePaths binding).length)) s
    (deleteAll startedAt binding (deletePaths binding) env σ)
  have last : 0 + (spent + 1) + 1 + (deletePaths binding).length =
      spent + 2 + (deletePaths binding).length := by omega
  have gone := dropped_gone binding s
  rw [transmitted] at ran dropped
  rw [last] at dropped
  rw [transmitted_removeBinding, transmitted, Plugin.Async.run_bind, ran]
  dsimp only
  rw [dropped, spared_iff startedAt]
  cases saved : (env (spent + 2 + (deletePaths binding).length)).plugin.save with
  | ok =>
      refine iff_of_true ⟨fun _ => gone, fun e failed => ?_⟩ (.inl rfl)
      cases failed
  | error e =>
      constructor
      · intro whole
        obtain ⟨bound, held, spared⟩ := whole.thrown e rfl
        refine .inr ⟨⟨fun there => ?_, fun own => gone.2 (held own)⟩, spared⟩
        have left := bound there
        rw [gone.1] at left
        cases left
      · intro lost
        cases lost with
        | inl written => cases written
        | inr lost =>
            obtain ⟨unknown, spared⟩ := lost
            refine ⟨fun returned => ?_, fun _ _ =>
              ⟨fun there => absurd there unknown.1, fun own => absurd own unknown.2, spared⟩⟩
            cases returned

end Removal

/-- Removal is all or nothing if the tunnel closes and the state file is written, and otherwise
    exactly if there was nothing to lose. -/
theorem allOrNothing_iff_safe (config : Plugin.ResolvedPluginConfig) (startedAt : Int)
    (binding : Plugin.WorkspaceBinding) (env : Nat → Contribution) (s : Plugin.Store) (σ : Stub.State) :
    AllOrNothing binding (s, σ) (transmitted config startedAt (Plugin.removeBinding binding) env (s, σ)).1
        (transmitted config startedAt (Plugin.removeBinding binding) env (s, σ)).2.1 ↔
      Safe binding env s σ := by
  rw [Safe]
  cases closes : closing binding fun n => env (n + 1 + (deletePaths binding).length) with
  | none => exact allOrNothing_of_refused config startedAt s σ closes
  | some spent => exact allOrNothing_of_closed config startedAt s σ closes

/-- The stub is up, but the process with the tunnel's pid may not be killed. -/
def stubborn (n : Nat) : Contribution :=
  { surroundings 0 n with
    plugin := { Plugin.world true true with
      answer
        | .kill _ => .error "EPERM"
        | o => (Plugin.world true true).answer o } }

/-- The call throws when the session and the workspace on the stub are gone already. -/
theorem not_allOrNothing_under_refusal :
    ¬∀ (config : Plugin.ResolvedPluginConfig) (startedAt : Int) (binding : Plugin.WorkspaceBinding)
      (env : Nat → Contribution) (s : Plugin.Store) (σ : Stub.State),
      AllOrNothing binding (s, σ) (transmitted config startedAt (Plugin.removeBinding binding) env (s, σ)).1
        (transmitted config startedAt (Plugin.removeBinding binding) env (s, σ)).2.1 := by
  intro always
  obtain ⟨both, env, made⟩ := connected_eq "web" switched connected_switched
  have own : Stub.Resource.workspace (utf8 switched.workspaceID) ∈ ownResources switched := List.mem_cons_self
  have there := (of_createConnectedBinding made).2 _ own
  have refused : closing switched (fun n => stubborn (n + 1 + (deletePaths switched).length)) = none := by
    decide +kernel
  have spared := (allOrNothing_of_refused Plugin.labManager.config 0 both.1 both.2 refused).mp
    (always Plugin.labManager.config 0 switched stubborn both.1 both.2)
  have struck : hits switched (deletePaths switched) stubborn (.workspace (utf8 switched.workspaceID)) = true := by
    decide +kernel
  exact Bool.false_ne_true ((spared _ own there).symm.trans struck)

end OpencodeRemote.Link
