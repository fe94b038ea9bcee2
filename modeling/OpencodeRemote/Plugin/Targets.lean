import OpencodeRemote.Plugin.Custody
import OpencodeRemote.Plugin.Exclusivity

/-! # Targets

The target that `getTarget` returns has just been probed with its token, and it is the one
that the state holds. `Notes` is what a call remembers for that: the last health probe with
a token and the last process started. `Shadow` adds the state as the call itself must see it
while nobody else touches it.
-/

namespace OpencodeRemote.Plugin

open Concurrency Data Throwing

/-- Port, token and success of a health probe that carries a token. -/
def probed : (o : RemoteOp) → RemoteRes o → Option (Int × String × Bool)
  | .fetch request, answer =>
      if request.path = "/global/health" then
        request.token.map fun token => (request.localPort, token, Custody.isOk answer)
      else none
  | _, _ => none

/-- Arguments and pid of a process that is started. -/
def opened : (o : RemoteOp) → RemoteRes o → Option (List String × Option Nat)
  | .spawn args, pid => some (args, pid)
  | _, _ => none

structure Notes where
  probe : Option (Int × String × Bool)
  tunnel : Option (List String × Option Nat)

/-- The process forwards the local port to the port of the stub. -/
def Forwards (localPort : Int) (remotePort : Nat) (args : List String) : Prop :=
  ["-L", s!"{localPort}:127.0.0.1:{remotePort}"] <:+: args

namespace Notes

def add (notes : Notes) (o : RemoteOp) (r : RemoteRes o) : Notes :=
  ⟨(probed o r).or notes.probe, (opened o r).or notes.tunnel⟩

def after : Monitor RemoteOp RemoteRes Notes := fun notes o r => some (notes.add o r)

/-- The last process started forwards the port and has this pid. -/
def Carries (notes : Notes) (localPort : Int) (remotePort pid : Nat) : Prop :=
  ∃ args, notes.tunnel = some (args, some pid) ∧ Forwards localPort remotePort args

/-- The last probe has reached the stub of the binding, and if a process was started, the last
    one is the tunnel of the binding. -/
structure Verifies (notes : Notes) (binding : WorkspaceBinding) : Prop where
  probe : notes.probe = some (binding.localPort, binding.token, true)
  tunnel : ∀ args tunnelPID, notes.tunnel = some (args, tunnelPID) → binding.tunnelPID = tunnelPID ∧
    tunnelPID ≠ none ∧ Forwards binding.localPort binding.remotePort args

end Notes

/-! ## Functions that talk to the outside -/

namespace Remote

variable {α β : Type} {notes : Notes}

/-- With these notes when the function starts, `post` holds of the notes and the result if it
    returns. -/
def Ensures (notes : Notes) (f : Remote α) (post : Notes → α → Prop) : Prop :=
  Ends Notes.after notes f post fun _ _ => True

theorem Ensures.bind {f : Remote α} {g : α → Remote β} {between : Notes → α → Prop}
    {post : Notes → β → Prop} (first : Ensures notes f between)
    (next : ∀ notes a, between notes a → Ensures notes (g a) post) : Ensures notes (f >>= g) post :=
  Ends.bind first next

theorem Ensures.tryCatch {f : Remote α} {handler : String → Remote α} {post : Notes → α → Prop}
    (first : Ensures notes f post) (handled : ∀ notes e, Ensures notes (handler e) post) :
    Ensures notes (tryCatch f handler) post :=
  Ends.tryCatch first fun notes e _ => handled notes e

theorem Ensures.mono {f : Remote α} {post post' : Notes → α → Prop} (ensures : Ensures notes f post)
    (weaken : ∀ notes a, post notes a → post' notes a) : Ensures notes f post' :=
  Ends.mono ensures weaken fun _ _ holds => holds

theorem Ensures.and_yields {f : Remote α} {post : Notes → α → Prop} {post' : α → Prop}
    (ensures : Ensures notes f post) (yields : f.Yields post') :
    Ensures notes f fun notes a => post notes a ∧ post' a := by
  refine Program.Watched.mono (Program.Watched.and_returns ensures yields) fun notes outcome holds => ?_
  cases outcome with
  | ok a => exact holds
  | error e => trivial

theorem Ensures.await {f : Remote α} {post : Notes → α → Prop} (ensures : Ensures notes f post) :
    Ensures notes (await f) post := watched_await (fun _ => rfl) ensures

theorem ensures_trivial (f : Remote α) : Ensures notes f fun _ _ => True := by
  refine Program.watched_of_forall (fun _ outcome => ?_) f.run notes
  cases outcome <;> trivial

theorem ensures_call (o : RemoteOp) {post : Notes → RemoteRes o → Prop}
    (holds : ∀ r, post (notes.add o r) r) : Ensures notes (call o) post := by
  intro r notes' followed
  cases followed
  exact holds r

end Remote

namespace SSHManager

open Remote

variable (manager : SSHManager) {notes : Notes}

theorem isPortReachable_ensures (localPort : Int) :
    Ensures notes (isPortReachable localPort) fun notes' _ => notes' = notes := by
  intro answer notes' followed
  cases followed
  cases answer <;> rfl

/-- A probe with a token is what the notes remember last. -/
theorem isHealthReachable_ensures (localPort : Int) (token : String) :
    Ensures notes (isHealthReachable localPort token) fun notes' ok =>
      notes' = { notes with probe := some (localPort, token, ok) } := by
  intro answer notes' followed
  cases followed
  cases answer <;> rfl

/-- A loop that polls what keeps `before` and ends in `done` once it is ready. -/
theorem poll_ensures {ready : Remote Bool} {before done : Notes → Prop}
    (polled : ∀ notes, before notes → Ensures notes ready fun notes' up =>
      before notes' ∧ (up = true → done notes')) (pause : Nat) (late : String) (rounds : Nat)
    (start : before notes) : Ensures notes (poll ready pause late rounds) fun notes' _ => done notes' := by
  induction rounds generalizing notes with
  | zero => exact ends_throw trivial
  | succ rounds ih =>
      refine (polled notes start).bind fun notes' up holds => ?_
      split
      · rename_i up
        exact ends_pure (holds.2 up)
      · have slept : Ensures notes' (Remote.call (.sleep pause)) fun notes'' _ => before notes'' :=
          ensures_call (RemoteOp.sleep pause) fun _ => holds.1
        exact slept.bind fun _ _ start => ih start

theorem waitForHealth_ensures (localPort : Int) (token : String) :
    Ensures notes (manager.waitForHealth localPort token) fun notes' _ =>
      notes' = { notes with probe := some (localPort, token, true) } := by
  have counted : Ensures notes (Remote.call (.rounds manager.config.tunnel.healthTimeoutMs)) fun notes' _ =>
      notes'.tunnel = notes.tunnel := ensures_call (RemoteOp.rounds _) fun _ => rfl
  have polled (middle : Notes) (same : middle.tunnel = notes.tunnel) :
      Ensures middle (isHealthReachable localPort token) fun notes' up => notes'.tunnel = notes.tunnel ∧
        (up = true → notes' = { notes with probe := some (localPort, token, true) }) := by
    refine (isHealthReachable_ensures localPort token).mono fun _ up after => ?_
    subst after
    exact ⟨same, fun ok => by rw [ok, same]⟩
  exact counted.bind fun _ rounds start => poll_ensures polled _ _ rounds start

theorem waitForPortReachable_ensures (localPort : Int) :
    Ensures notes (manager.waitForPortReachable localPort) fun notes' _ => notes' = notes := by
  have counted : Ensures notes (Remote.call (.rounds manager.config.tunnel.connectTimeoutMs)) fun notes' _ =>
      notes' = notes := ensures_call (RemoteOp.rounds _) fun _ => rfl
  have polled (middle : Notes) (same : middle = notes) :
      Ensures middle (await (isPortReachable localPort)) fun notes' up => notes' = notes ∧
        (up = true → notes' = notes) := by
    refine (isPortReachable_ensures localPort).await.mono fun _ _ kept => ?_
    exact ⟨kept.trans same, fun _ => kept.trans same⟩
  exact counted.bind fun _ rounds start => poll_ensures polled _ _ rounds start

/-! ## Tunnels -/

/-- A tunnel that comes up is the last process started. -/
theorem tryStartTunnel_ensures (sshConfig : SSHConfig) (identityFile : Option String) (localPort : Int)
    (remotePort : Nat) :
    Ensures notes (manager.tryStartTunnel sshConfig identityFile localPort remotePort)
      fun notes' tunnelPID => ∀ pid, truthyPid tunnelPID = some pid → notes'.Carries localPort remotePort pid := by
  refine (ensures_trivial _).bind fun _ reachable _ => ?_
  split
  · exact ends_pure fun pid none => nomatch none
  refine (ensures_trivial _).bind fun _ identity _ => ?_
  let carries := fun (notes' : Notes) (child : Option Nat) =>
    ∀ pid, truthyPid child = some pid → notes'.Carries localPort remotePort pid
  have started (args : List String) (forwards : Forwards localPort remotePort args) (notes : Notes) :
      Ensures notes (Remote.call (.spawn args)) carries := by
    refine ensures_call (RemoteOp.spawn args) fun child pid truthy => ⟨args, ?_, forwards⟩
    rw [Notes.add, (truthyPid_eq_some.mp truthy).1]
    rfl
  refine (started _ ?forwards _).bind fun notes' child holds => ?_
  case forwards =>
    simp only [Forwards, List.append_assoc]
    exact ⟨["-N", "-o", "BatchMode=yes", "-o", "NumberOfPasswordPrompts=0", "-o", "ExitOnForwardFailure=yes",
      "-o", "ServerAliveInterval=10"], _, rfl⟩
  refine Ensures.tryCatch ?_ fun _ _ => ?_
  · refine (manager.waitForPortReachable_ensures localPort).await.bind fun _ _ same => ends_pure ?_
    exact same ▸ holds
  · split
    · exact ends_pure fun pid none => nomatch none
    · exact (ensures_trivial _).bind fun _ _ _ => ends_pure fun pid none => nomatch none

/-- What the tunnel functions return is a port and the process that forwards it. -/
def Tunnelled (remotePort : Nat) (notes : Notes) (tunnel : Int × Option Nat) : Prop :=
  ∃ pid, tunnel.2 = some pid ∧ notes.Carries tunnel.1 remotePort pid

theorem ensureTunnelLoop_ensures (sshConfig : SSHConfig) (identityFile : Option String) (remotePort : Nat)
    (initialPort : Int) (attempt remaining : Nat) :
    Ensures notes (manager.ensureTunnelLoop sshConfig identityFile remotePort initialPort attempt remaining)
      (Tunnelled remotePort) := by
  induction remaining generalizing notes attempt with
  | zero => exact ends_throw trivial
  | succ remaining ih =>
      refine (manager.tryStartTunnel_ensures sshConfig identityFile _ remotePort).await.bind
        fun notes' tunnelPID holds => ?_
      split
      · rename_i pid truthy
        exact ends_pure ⟨pid, rfl, holds pid truthy⟩
      · exact ih (attempt + 1)

theorem ensureSpecificOrFallbackTunnel_ensures (workspaceID host : String) (sshConfig : SSHConfig)
    (identityFile : Option String) (remotePort : Nat) (preferredLocalPort : Int) :
    Ensures notes (manager.ensureSpecificOrFallbackTunnel workspaceID host sshConfig identityFile remotePort
      preferredLocalPort) (Tunnelled remotePort) := by
  refine (manager.tryStartTunnel_ensures sshConfig identityFile _ remotePort).await.bind
    fun notes' tunnelPID holds => ?_
  split
  · rename_i pid truthy
    exact ends_pure ⟨pid, rfl, holds pid truthy⟩
  · exact Ensures.await (manager.ensureTunnelLoop_ensures sshConfig identityFile remotePort _ 0 _)

/-! ## Recovery -/

/-- A binding whose health is good is kept; another one is recovered. -/
theorem unlessHealthy_ensures (binding : WorkspaceBinding) (fresh : notes.tunnel = none)
    {next : Remote WorkspaceBinding}
    (recovers : ∀ notes, notes.tunnel = none → Ensures notes next Notes.Verifies) :
    Ensures notes (do
      if ← Remote.await (isHealthReachable binding.localPort binding.token) then pure binding else next)
      Notes.Verifies := by
  refine (isHealthReachable_ensures binding.localPort binding.token).await.bind fun notes' ok after => ?_
  subst after
  split
  · rename_i ok
    refine ends_pure ⟨by rw [ok], fun args tunnelPID started => ?_⟩
    rw [fresh] at started
    cases started
  · exact recovers _ fresh

theorem reconnect_ensures (binding : WorkspaceBinding) (target : ResolvedHost) (fresh : notes.tunnel = none) :
    Ensures notes (manager.reconnect binding target) Notes.Verifies := by
  refine unlessHealthy_ensures binding fresh fun notes _ => ?_
  have opened := @ensureSpecificOrFallbackTunnel_ensures manager notes binding.workspaceID target.host.name
    target.host.ssh (manager.identityFile target.host.ssh) binding.remotePort binding.localPort
  refine (Ensures.await opened).bind fun carrying tunnel tunnelled => ?_
  obtain ⟨pid, own, args, last, forwards⟩ := tunnelled
  refine (manager.waitForHealth_ensures tunnel.1 binding.token).await.bind fun healthy _ after => ?_
  subst after
  refine ends_pure ⟨rfl, fun args' tunnelPID started => ?_⟩
  cases last.symm.trans started
  exact ⟨own, Option.some_ne_none pid, forwards⟩

theorem ensureRecoveredBinding_ensures (binding : WorkspaceBinding) (target : ResolvedHost)
    (fresh : notes.tunnel = none) :
    Ensures notes (manager.ensureRecoveredBinding binding target) Notes.Verifies :=
  unlessHealthy_ensures binding fresh fun _ fresh => (manager.reconnect_ensures binding target fresh).await

end SSHManager

/-! ## The call and the state -/

/-- The error of a write of the state file that fails. -/
def failedWrite : (o : Op) → Res o → Option String
  | .stateSet _, .error e | .stateReplace _, .error e | .stateDelete _, .error e | .drop _ _, .error e => some e
  | _, _ => none

/-- What remote operations show. -/
def onRemote {β : Type} (shows : (o : RemoteOp) → RemoteRes o → Option β) : (o : Op) → Res o → Option β
  | .remote o, r => shows o r
  | _, _ => none

structure Shadow where
  state : RuntimeState
  notes : Notes
  /-- The error of the last write that failed. -/
  failed : Option String

namespace Shadow

/-- Somebody else has changed the state if it is read and differs from the shadow's. -/
def after : Monitor Op Res Shadow := fun shadow o r =>
  let failed := (failedWrite o r).or shadow.failed
  match o with
  | .remote o => some { shadow with notes := shadow.notes.add o r }
  | .acquireResolved _ _ | .release _ _ => some shadow
  | .drop _ workspaceID | .stateDelete workspaceID =>
      some { shadow with state := shadow.state.delete workspaceID, failed }
  | .stateSet binding => some { shadow with state := shadow.state.set binding, failed }
  | .stateReplace binding => some { shadow with state := shadow.state.replace binding, failed }
  | .stateGet workspaceID => if r = shadow.state.get workspaceID then some shadow else none
  | .stateList => if r = shadow.state.list then some shadow else none

/-- The shadow of a call that starts. -/
def start (state : RuntimeState) : Shadow := ⟨state, ⟨none, none⟩, none⟩

end Shadow

/-- The notes that are made of some events. -/
def notesOf (events : List PluginEvent) : Notes :=
  ⟨lastShown (onRemote probed) events, lastShown (onRemote opened) events⟩

section Alone

variable (config : ResolvedPluginConfig)

theorem after_exec (shadow : Shadow) (env : Env) (o : Op) (s : Store) (same : shadow.state = s.state) :
    Shadow.after shadow o (exec config env o s).1 = some
      ⟨(exec config env o s).2.state,
        ⟨(onRemote probed o (exec config env o s).1).or shadow.notes.probe,
          (onRemote opened o (exec config env o s).1).or shadow.notes.tunnel⟩,
        (failedWrite o (exec config env o s).1).or shadow.failed⟩ := by
  obtain ⟨state, notes, failed⟩ := shadow
  subst same
  cases o with
  | stateGet workspaceID => exact if_pos rfl
  | stateList => exact if_pos rfl
  | _ => rfl

/-- The shadow of a call alone is the state, together with what its events show. -/
theorem follow_alone {α : Type} (t : Program Op Res α) (shadow : Shadow) (env : Nat → Env) (s : Store)
    (same : shadow.state = s.state) :
    Monitor.follow Shadow.after shadow (t.trace (exec config) env s) = some
      ⟨(t.run (exec config) env s).2.1.state,
        ⟨(lastShown (onRemote probed) (t.trace (exec config) env s)).or shadow.notes.probe,
          (lastShown (onRemote opened) (t.trace (exec config) env s)).or shadow.notes.tunnel⟩,
        (lastShown failedWrite (t.trace (exec config) env s)).or shadow.failed⟩ := by
  induction t generalizing shadow env s with
  | pure a =>
      simp only [Program.trace_pure, Program.run_pure, Monitor.follow_nil, lastShown_nil, Option.none_or,
        ← same]
  | op o next ih =>
      rw [Program.trace_op, Program.run_op, Monitor.follow, after_exec config shadow (env 0) o s same,
        Option.bind_some, ih _ _ _ _ rfl]
      simp only [lastShown_cons, Option.or_assoc]

/-- What is shown of a call from its start on, its result satisfies when it has been alone. -/
theorem Ends.alone {α : Type} {f : Async α} {returned : Shadow → α → Prop} {thrown : Shadow → String → Prop}
    {s : Store} (ends : Ends Shadow.after (.start s.state) f returned thrown) (env : Nat → Env) :
    Ended returned thrown
      ⟨(Async.alone config f env s).2.1.state, notesOf (f.run.trace (exec config) env s),
        lastShown failedWrite (f.run.trace (exec config) env s)⟩ (Async.alone config f env s).1 := by
  refine Program.Watched.run ends env s ?_
  rw [follow_alone config f.run (.start s.state) env s rfl]
  simp only [Shadow.start, Option.or_none, notesOf]
  rfl

end Alone

namespace Async

variable {α : Type} {shadow : Shadow} {returned : Shadow → α → Prop} {thrown : Shadow → String → Prop}

theorem ends_await {f : Async α} (ends : Ends Shadow.after shadow f returned thrown) :
    Ends Shadow.after shadow (await f) returned thrown := by
  refine Program.watched_bind.mpr (Program.Watched.mono ends fun shadow' outcome holds => ?_)
  intro _ _ followed
  cases followed
  exact holds

/-- What a remote function makes of the notes, it makes of the shadow's notes. -/
theorem ends_remote {f : Remote α} {post : Notes → α → Prop} (ensures : Remote.Ensures shadow.notes f post) :
    Ends Shadow.after shadow (remote f) (fun shadow' a => shadow' = { shadow with notes := shadow'.notes } ∧
      post shadow'.notes a) fun shadow' _ => shadow' = { shadow with notes := shadow'.notes } := by
  let lift (notes : Notes) : Shadow := { shadow with notes }
  change Program.Watched Shadow.after _ (lift shadow.notes) _
  refine Program.Watched.hoist (fun _ _ _ => rfl)
    (Program.Watched.mono ensures.await fun notes' outcome holds => ?_)
  cases outcome with
  | ok a => exact ⟨rfl, holds⟩
  | error e => rfl

theorem ends_acquireResolved {request : HostSelectionRequest} {workspaceID : String}
    {returned : Shadow → ResolvedHost → Prop} (acquired : ∀ selection, returned shadow selection)
    (refused : ∀ e, thrown shadow e) :
    Ends Shadow.after shadow (acquireResolved request workspaceID) returned thrown := by
  intro answer shadow' followed
  cases followed
  cases answer with
  | ok selection => exact acquired selection
  | error e => exact refused e

/-- The state is replaced, whether or not that can be written. -/
theorem ends_replaceBinding {binding : WorkspaceBinding} {returned : Shadow → Unit → Prop}
    (written : returned { shadow with state := shadow.state.replace binding } ())
    (failed : ∀ e, thrown { shadow with state := shadow.state.replace binding, failed := some e } e) :
    Ends Shadow.after shadow (replaceBinding binding) returned thrown := by
  intro answer shadow' followed
  cases followed
  cases answer with
  | ok _ => exact written
  | error e => exact failed e

end Async

/-! ## The target -/

section Target

variable (manager : SSHManager)

/-- The state holds the target, and the call has verified it. -/
structure Recorded (workspaceID : String) (target : WorkspaceBinding) (state : RuntimeState)
    (notes : Notes) : Prop where
  held : state.get workspaceID = some target
  verified : notes.Verifies target

/-- A call that throws has left the state as it was, or its last step, the write of the verified
    binding, has failed. -/
def Abandoned (state : RuntimeState) (workspaceID : String) (shadow : Shadow) (e : String) : Prop :=
  shadow.state = state ∨ shadow.failed = some e ∧
    ∃ target, shadow.state = state.replace target ∧ Recorded workspaceID target shadow.state shadow.notes

theorem ensureBindingReady_ends {state : RuntimeState} {binding : WorkspaceBinding}
    (bound : state.get binding.workspaceID = some binding) :
    Ends Shadow.after (.start state) (ensureBindingReady manager binding)
      (fun shadow ready => Recorded binding.workspaceID ready shadow.state shadow.notes)
      (Abandoned state binding.workspaceID) := by
  have acquired := @Async.ends_acquireResolved (.start state) (Abandoned state binding.workspaceID)
    ⟨binding.provider, some binding.host, none⟩ binding.workspaceID (fun shadow _ => shadow = .start state)
    (fun _ => rfl) fun _ => .inl rfl
  refine acquired.bind fun _ selection started => ?_
  subst started
  have fresh : (Shadow.start state).notes.tunnel = none := rfl
  have recovers := (manager.ensureRecoveredBinding_ensures binding selection fresh).and_yields
    (manager.ensureRecoveredBinding_yields binding selection)
  refine Ends.bind (Ends.mono (Async.ends_remote recovers) (fun _ _ holds => holds) ?kept)
    fun shadow recovered holds => ?_
  case kept =>
    intro shadow e same
    rw [same]
    exact .inl rfl
  obtain ⟨same, verified, localPort, tunnelPID, status, rfl, -⟩ := holds
  split
  · have recorded : Recorded binding.workspaceID { binding with localPort, tunnelPID, status }
        (shadow.state.replace { binding with localPort, tunnelPID, status }) shadow.notes :=
      ⟨(RuntimeState.get_set ..).trans (if_pos rfl), verified⟩
    refine Ends.bind (Async.ends_replaceBinding ?written ?failed) fun _ _ holds => ends_pure holds
    case written => exact recorded
    case failed => exact fun e => .inr ⟨rfl, _, by rw [same]; rfl, recorded⟩
  · rename_i unchanged
    simp only [ne_eq, not_or, not_not] at unchanged
    obtain ⟨rfl, rfl, rfl⟩ := unchanged
    refine ends_pure ⟨?_, verified⟩
    rw [same]
    exact bound

theorem getReadyBinding_ends (workspaceID : String) (state : RuntimeState) :
    Ends Shadow.after (.start state) (getReadyBinding manager workspaceID)
      (fun shadow found => match found with
        | none => shadow.state = state
        | some target => Recorded workspaceID target shadow.state shadow.notes)
      (Abandoned state workspaceID) := by
  intro found shadow followed
  -- the call reads what the state holds
  obtain ⟨bound, same⟩ := Option.ite_none_right_eq_some.mp followed
  cases same
  cases found with
  | none => exact ends_pure rfl
  | some binding =>
      obtain rfl : binding.workspaceID = workspaceID := state.keyed _ _ bound.symm
      refine Ends.bind (Async.ends_await (ensureBindingReady_ends manager bound.symm))
        fun shadow target recorded => ?_
      exact ends_pure recorded

theorem getTarget_ends (workspace : WorkspaceInfo) (state : RuntimeState) :
    Ends Shadow.after (.start state) (getTarget manager workspace)
      (fun shadow reply => ∃ target, reply = .target (url target) (authorization target) ∧
        Recorded workspace.id target shadow.state shadow.notes)
      (Abandoned state workspace.id) := by
  refine Ends.bind (Async.ends_await (getReadyBinding_ends manager workspace.id state))
    fun shadow found holds => ?_
  cases found with
  | none => exact ends_throw (.inl holds)
  | some target => exact ends_pure ⟨target, rfl, holds⟩

/-- Whatever the probes are answered and the attempts at a tunnel come to: the target that a
    call alone returns is verified and recorded. A call that throws has left the state as it
    was, unless it throws the error of writing the state file. -/
theorem getTarget_verifies (workspace : WorkspaceInfo) (env : Nat → Env) (s : Store) :
    let events := (getTarget manager workspace).run.trace (exec manager.config) env s
    match Async.alone manager.config (getTarget manager workspace) env s with
    | (.ok reply, s', _) => ∃ target, reply = .target (url target) (authorization target) ∧
        Recorded workspace.id target s'.state (notesOf events)
    | (.error e, s', _) => s'.state = s.state ∨ lastShown failedWrite events = some e ∧
        ∃ target, s'.state = s.state.replace target ∧ Recorded workspace.id target s'.state (notesOf events) := by
  have ended := Ends.alone manager.config (getTarget_ends manager workspace s.state) env
  generalize Async.alone manager.config (getTarget manager workspace) env s = outcome at ended ⊢
  obtain ⟨result, s', rest⟩ := outcome
  cases result <;> exact ended

/-- The tunnel of the binding has to be opened again, and then the state file cannot be written. -/
def writeProtected (n : Nat) : Env := { world true (8 < n) with save := .error "ENOSPC" }

/-- The state holds what could not be written, although the call throws. -/
theorem state_changed_by_failed_write : ¬ ∀ (manager : SSHManager) (workspace : WorkspaceInfo)
    (env : Nat → Env) (s : Store), s.state.get workspace.id ≠ none →
      ∀ e, (Async.alone manager.config (getTarget manager workspace) env s).1 = .error e →
        (Async.alone manager.config (getTarget manager workspace) env s).2.1.state = s.state := by
  intro unchanged
  have kept := unchanged labManager (inLab "w") writeProtected
    ⟨.empty, RuntimeState.empty.set (boundTo "w" "web")⟩ (by decide +kernel) "ENOSPC" rfl
  exact absurd kept (by decide +kernel)

end Target

end OpencodeRemote.Plugin
