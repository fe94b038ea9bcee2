import OpencodeRemote.Concurrency.Monitor
import OpencodeRemote.Plugin.Index

/-! # Who minds a tunnel

A tunnel is a process that a call starts long before it stores a binding with its pid.
Meanwhile nobody but the call knows of it. `Custody` is what a monitor remembers of that:
the pid and how far the call has got with it. The monitor gives up when a step fails after
the tunnel has come up, for then the call forgets the process. Every other way through
every call ends with nothing in custody.
-/

namespace OpencodeRemote.Plugin

open Concurrency Data

inductive Phase where
  /-- The process has been started. -/
  | starting
  /-- The local port answers. -/
  | reachable
  /-- The stub's health is polled; so many answers may still be bad. -/
  | waiting (left : Nat)
  | healthy
  deriving DecidableEq

inductive Custody where
  | none
  | holding (pid : Nat) (phase : Phase)
  /-- A second process was started on top; no call does that. -/
  | lost
  deriving DecidableEq

namespace Custody

/-- A binding that the call has read minds the processes of its own pid. -/
def started (known : List Nat) (pid : Option Nat) : Custody → Custody
  | .none =>
      match truthyPid pid with
      | some pid => if pid ∈ known then .none else .holding pid .starting
      | Option.none => .none
  | .holding _ _ => .lost
  | .lost => .lost

def killed (pid : Nat) : Custody → Custody
  | .holding own .starting => if own = pid then .none else .holding own .starting
  | custody => custody

/-- The start of a polling loop. -/
def polls (rounds : Nat) : Custody → Option Custody
  | .holding pid .reachable =>
      match rounds with
      | 0 => Option.none
      | rounds + 1 => some (.holding pid (.waiting rounds))
  | custody => some custody

def isReachable : Except String Response → Bool
  | .ok response => response.ok || response.status = 401 || response.status = 403
  | .error _ => false

def isOk : Except String Response → Bool
  | .ok response => response.ok
  | .error _ => false

/-- The answer to a request through the tunnel. -/
def answered (answer : Except String Response) : Custody → Option Custody
  | .holding pid .starting => some (.holding pid (if isReachable answer then .reachable else .starting))
  | .holding pid (.waiting left) =>
      if isOk answer then some (.holding pid .healthy)
      else match left with
        | 0 => Option.none
        | left + 1 => some (.holding pid (.waiting left))
  | .holding pid .healthy => if isOk answer then some (.holding pid .healthy) else Option.none
  | custody => some custody

def after (known : List Nat) (custody : Custody) : (o : RemoteOp) → RemoteRes o → Option Custody
  | .spawn _, pid => some (custody.started known pid)
  | .kill pid, _ => some (custody.killed pid)
  | .rounds _, rounds => custody.polls rounds
  | .fetch _, answer => custody.answered answer
  | .now, _ | .tick, _ | .sleep _, _ | .randomToken, _ | .file _, _ | .exists _, _ | .ssh _ _, _
  | .scp _, _ => some custody

/-- Storing a binding with the pid ends the call's custody. -/
def stored (binding : WorkspaceBinding) : Custody → Custody
  | .holding pid phase => if binding.tunnelPID = some pid then .none else .holding pid phase
  | custody => custody

theorem after_none {known : List Nat} {o : RemoteOp} {r : RemoteRes o} (other : ∀ args, o ≠ .spawn args) :
    after known .none o r = some .none := by
  cases o with
  | spawn args => exact absurd rfl (other args)
  | _ => rfl

end Custody

/-! ## Functions that talk to the outside -/

namespace Remote

variable {α β : Type} {known : List Nat} {custody : Custody}

/-- To a monitor that does not mind turns, awaiting a function is running it. -/
theorem watched_await {M : Type} {monitor : Monitor RemoteOp RemoteRes M} {m : M}
    (quiet : ∀ m, monitor m .tick () = some m) {f : Remote α} {post : M → Except String α → Prop}
    (watched : f.run.Watched monitor m post) : (await f).run.Watched monitor m post := by
  refine Program.watched_bind.mpr (Program.Watched.mono watched fun m' outcome holds => ?_)
  intro _ m'' followed
  cases (quiet m').symm.trans followed
  exact holds

/-- With this in custody when the function starts, `post` holds of what is in custody at
    its end and of its outcome. -/
def Leaves (known : List Nat) (custody : Custody) (f : Remote α)
    (post : Custody → Except String α → Prop) : Prop := f.run.Watched (Custody.after known) custody post

theorem leaves_bind {f : Remote α} {g : α → Remote β} {post : Custody → Except String β → Prop}
    (leaves : Leaves known custody f fun custody' outcome =>
      match outcome with
      | .ok a => Leaves known custody' (g a) post
      | .error e => post custody' (.error e)) : Leaves known custody (f >>= g) post := by
  refine Program.watched_bind.mpr (Program.Watched.mono leaves fun custody' outcome holds => ?_)
  cases outcome <;> exact holds

theorem leaves_tryCatch {f : Remote α} {handler : String → Remote α}
    {post : Custody → Except String α → Prop}
    (leaves : Leaves known custody f fun custody' outcome =>
      match outcome with
      | .ok a => post custody' (.ok a)
      | .error e => Leaves known custody' (handler e) post) :
    Leaves known custody (tryCatch f handler) post := by
  refine Program.watched_bind.mpr (Program.Watched.mono leaves fun custody' outcome holds => ?_)
  cases outcome <;> exact holds

theorem Leaves.await {f : Remote α} {post : Custody → Except String α → Prop}
    (leaves : Leaves known custody f post) : Leaves known custody (await f) post :=
  watched_await (fun _ => rfl) leaves

theorem Leaves.mono {f : Remote α} {post post' : Custody → Except String α → Prop}
    (leaves : Leaves known custody f post) (weaken : ∀ custody outcome, post custody outcome →
      post' custody outcome) : Leaves known custody f post' := Program.Watched.mono leaves weaken

/-- With nothing in custody before, there is nothing in custody afterwards. -/
def Idle (known : List Nat) (f : Remote α) : Prop := Leaves known .none f fun custody _ => custody = .none

theorem idle_pure (a : α) : Idle known (pure a : Remote α) := rfl

theorem idle_throw (e : String) : Idle known (throw e : Remote α) := rfl

/-- A start that leaves nothing in custody, whatever comes after. -/
theorem Idle.leads {f : Remote α} {g : α → Remote β} {post : Custody → Except String β → Prop}
    (first : Idle known f) (next : ∀ a, Leaves known .none (g a) post)
    (failed : ∀ e, post .none (.error e)) : Leaves known .none (f >>= g) post := by
  refine leaves_bind (first.mono fun custody outcome idle => ?_)
  subst idle
  cases outcome with
  | ok a => exact next a
  | error e => exact failed e

theorem Idle.bind {f : Remote α} {g : α → Remote β} (first : Idle known f) (next : ∀ a, Idle known (g a)) :
    Idle known (f >>= g) := first.leads next fun _ => rfl

theorem Idle.tryCatch {f : Remote α} {handler : String → Remote α} (first : Idle known f)
    (next : ∀ e, Idle known (handler e)) : Idle known (tryCatch f handler) := by
  refine leaves_tryCatch (first.mono fun custody outcome idle => ?_)
  subst idle
  cases outcome with
  | ok a => rfl
  | error e => exact next e

theorem Idle.await {f : Remote α} (first : Idle known f) : Idle known (await f) := Leaves.await first

/-- An operation that starts no process. -/
theorem idle_op (o : RemoteOp) (other : ∀ args, o ≠ .spawn args) (k : RemoteRes o → Except String α) :
    Idle known (ExceptT.mk ((RemoteOp.perform o).bind fun r => .pure (k r)) : Remote α) := by
  intro r custody followed
  rw [Custody.after_none other] at followed
  cases followed
  rfl

theorem idle_call (o : RemoteOp) (other : ∀ args, o ≠ .spawn args) : Idle known (call o) :=
  idle_op o other .ok

theorem idle_ssh (args : List String) (command : String) : Idle known (ssh args command) :=
  idle_op (.ssh args command) (by simp) id

theorem idle_scp (args : List String) : Idle known (scp args) := idle_op (.scp args) (by simp) id

theorem idle_file (call : FileCall) : Idle known (file call) := idle_op (.file call) (by simp) id

theorem idle_kill (pid : Nat) : Idle known (kill pid) := idle_op (.kill pid) (by simp) id

theorem idle_fetch (request : FetchRequest) : Idle known (fetch request) :=
  idle_op (.fetch request) (by simp) id

theorem idle_read (body : Except String String) : Idle known (read body) := by
  refine Idle.await ?_
  cases body <;> rfl

end Remote

/-! ## Tunnels -/

namespace SSHManager

open Remote

variable (manager : SSHManager) {known : List Nat} {pid : Nat}

/-- With nothing in custody before: at the end the process of the result is in custody, or
    nothing is. -/
def Delivers {α : Type} (known : List Nat) (phase : Phase) (tunnelPID : α → Option Nat)
    (custody : Custody) : Except String α → Prop
  | .ok a => custody = .none ∨
      ∃ pid, pid ∉ known ∧ custody = .holding pid phase ∧ truthyPid (tunnelPID a) = some pid
  | .error _ => custody = .none

theorem truthyPid_eq_some {tunnelPID : Option Nat} :
    truthyPid tunnelPID = some pid ↔ tunnelPID = some pid ∧ pid ≠ 0 := by
  simp [truthyPid, Option.filter_eq_some_iff]

theorem truthyPid_some {tunnelPID : Option Nat} (truthy : truthyPid tunnelPID = some pid) :
    truthyPid (some pid) = some pid := truthyPid_eq_some.mpr ⟨rfl, (truthyPid_eq_some.mp truthy).2⟩

theorem idle_isPortReachable (localPort : Int) : Idle known (isPortReachable localPort) :=
  .tryCatch ((idle_fetch _).bind fun _ => idle_pure _) fun _ => idle_pure _

theorem idle_isHealthReachable (localPort : Int) (token : String) :
    Idle known (isHealthReachable localPort token) :=
  .tryCatch ((idle_fetch _).bind fun _ => idle_pure _) fun _ => idle_pure _

theorem idle_poll {ready : Remote Bool} (idle : Idle known ready) (pause : Nat) (late : String)
    (rounds : Nat) : Idle known (poll ready pause late rounds) := by
  induction rounds with
  | zero => exact idle_throw late
  | succ rounds ih =>
      apply idle.bind
      intro up
      split
      · exact idle_pure ()
      · exact (idle_call (.sleep pause) (by simp)).bind fun _ => ih

theorem idle_waitForPortReachable (localPort : Int) : Idle known (manager.waitForPortReachable localPort) :=
  (idle_call (.rounds _) (by simp)).bind fun _ => idle_poll (idle_isPortReachable _).await _ _ _

theorem idle_waitForPortClosed (localPort : Int) : Idle known (waitForPortClosed localPort) :=
  (idle_call (.rounds _) (by simp)).bind fun _ =>
    idle_poll ((idle_isPortReachable _).await.bind fun _ => idle_pure _) _ _ _

theorem idle_waitForHealth (localPort : Int) (token : String) :
    Idle known (manager.waitForHealth localPort token) :=
  (idle_call (.rounds _) (by simp)).bind fun _ => idle_poll (idle_isHealthReachable _ _) _ _ _

theorem idle_identityArgs (identityFile : Option String) : Idle known (identityArgs identityFile) := by
  unfold identityArgs
  split
  · exact idle_pure _
  · exact idle_pure _
  · apply (idle_call (.exists _) (by simp)).bind
    intro found
    split <;> exact idle_pure _

theorem isPortReachable_leaves (localPort : Int) :
    Leaves known (.holding pid .starting) (isPortReachable localPort) fun custody outcome =>
      ∃ up, outcome = .ok up ∧ custody = .holding pid (if up then .reachable else .starting) := by
  refine leaves_tryCatch (leaves_bind fun answer custody followed => ?_)
  cases followed
  cases answer with
  | error e => exact ⟨false, rfl, rfl⟩
  | ok response => exact ⟨_, rfl, rfl⟩

theorem waitForPortReachable_leaves (localPort : Int) :
    Leaves known (.holding pid .starting) (manager.waitForPortReachable localPort) fun custody outcome =>
      custody = .holding pid (if outcome.isOk then .reachable else .starting) := by
  refine leaves_bind fun rounds custody followed => ?_
  cases followed
  dsimp only
  induction rounds with
  | zero => rfl
  | succ rounds ih =>
      refine leaves_bind ((isPortReachable_leaves localPort).await.mono fun custody outcome holds => ?_)
      obtain ⟨up, rfl, rfl⟩ := holds
      cases up with
      | true => rfl
      | false =>
          refine leaves_bind fun _ custody followed => ?_
          cases followed
          exact ih

/-- A new process is in custody, unless there is none or its pid is known. -/
theorem started_cases (known : List Nat) (child : Option Nat) :
    Custody.started known child .none = .none ∨ ∃ pid, pid ∉ known ∧ truthyPid child = some pid ∧
      Custody.started known child .none = .holding pid .starting := by
  unfold Custody.started
  cases truthy : truthyPid child with
  | none => exact .inl rfl
  | some pid =>
      by_cases old : pid ∈ known
      · exact .inl (if_pos old)
      · exact .inr ⟨pid, old, rfl, if_neg old⟩

/-- A tunnel that comes up is in custody; one that does not is killed. -/
theorem tryStartTunnel_leaves (sshConfig : SSHConfig) (identityFile : Option String) (localPort : Int)
    (remotePort : Nat) :
    Leaves known .none (manager.tryStartTunnel sshConfig identityFile localPort remotePort)
      (Delivers known .reachable id) := by
  refine leaves_bind ((idle_isPortReachable localPort).await.mono fun custody outcome idle => ?_)
  subst idle
  match outcome with
  | .error e => rfl
  | .ok true => exact .inl rfl
  | .ok false =>
      refine leaves_bind ((idle_identityArgs identityFile).mono fun custody outcome idle => ?_)
      subst idle
      cases outcome with
      | error e => rfl
      | ok identity =>
          refine leaves_bind fun child custody followed => ?_
          cases followed
          obtain nobody | ⟨pid, fresh, truthy, holding⟩ := started_cases known child
          · rw [nobody]
            refine leaves_tryCatch (leaves_bind ((manager.idle_waitForPortReachable localPort).await.mono
              fun custody outcome idle => ?_))
            subst idle
            cases outcome with
            | ok _ => exact .inl rfl
            | error e =>
                dsimp only
                split
                · exact .inl rfl
                · refine leaves_bind (((idle_kill _).tryCatch fun _ => idle_pure _).mono
                    fun custody outcome idle => ?_)
                  subst idle
                  cases outcome with
                  | ok _ => exact .inl rfl
                  | error e => rfl
          · rw [holding]
            refine leaves_tryCatch (leaves_bind ((manager.waitForPortReachable_leaves localPort).await.mono
              fun custody outcome reached => ?_))
            subst reached
            cases outcome with
            | ok _ => exact .inr ⟨pid, fresh, rfl, truthy⟩
            | error e =>
                dsimp only
                simp only [truthy]
                refine leaves_bind (leaves_tryCatch fun answer custody followed => ?_)
                cases followed
                simp only [Except.isOk, Except.toBool, Bool.false_eq_true, if_false, Custody.killed, if_true]
                cases answer <;> exact .inl rfl

/-- A tunnel that comes up is taken; without one, something else is tried. -/
theorem triedTunnel_leaves (sshConfig : SSHConfig) (identityFile : Option String) (localPort : Int)
    (remotePort : Nat) {next : Remote (Int × Option Nat)}
    (fallback : Leaves known .none next (Delivers known .reachable Prod.snd)) :
    Leaves known .none (do
      let tunnelPID ← Remote.await (manager.tryStartTunnel sshConfig identityFile localPort remotePort)
      match truthyPid tunnelPID with
      | some pid => pure (localPort, some pid)
      | none => next) (Delivers known .reachable Prod.snd) := by
  refine leaves_bind ((manager.tryStartTunnel_leaves sshConfig identityFile _ remotePort).await.mono
    fun custody outcome delivers => ?_)
  cases outcome with
  | error e => exact delivers
  | ok tunnelPID =>
      obtain rfl | ⟨pid, fresh, rfl, truthy⟩ := delivers
      · dsimp only
        split
        · exact .inl rfl
        · exact fallback
      · simp only [id] at truthy
        simp only [truthy]
        exact .inr ⟨pid, fresh, rfl, truthyPid_some truthy⟩

theorem ensureTunnelLoop_leaves (sshConfig : SSHConfig) (identityFile : Option String)
    (remotePort : Nat) (initialPort : Int) (attempt remaining : Nat) :
    Leaves known .none (manager.ensureTunnelLoop sshConfig identityFile remotePort initialPort attempt
      remaining) (Delivers known .reachable Prod.snd) := by
  induction remaining generalizing attempt with
  | zero => rfl
  | succ remaining ih => exact manager.triedTunnel_leaves sshConfig identityFile _ remotePort (ih (attempt + 1))

theorem ensureTunnel_leaves (workspaceID host : String) (sshConfig : SSHConfig)
    (identityFile : Option String) (remotePort : Nat) :
    Leaves known .none (manager.ensureTunnel workspaceID host sshConfig identityFile remotePort)
      (Delivers known .reachable Prod.snd) :=
  manager.ensureTunnelLoop_leaves sshConfig identityFile remotePort _ 0 _

theorem ensureSpecificOrFallbackTunnel_leaves (workspaceID host : String) (sshConfig : SSHConfig)
    (identityFile : Option String) (remotePort : Nat) (preferredLocalPort : Int) :
    Leaves known .none (manager.ensureSpecificOrFallbackTunnel workspaceID host sshConfig identityFile
      remotePort preferredLocalPort) (Delivers known .reachable Prod.snd) :=
  manager.triedTunnel_leaves sshConfig identityFile preferredLocalPort remotePort
    (manager.ensureTunnel_leaves workspaceID host sshConfig identityFile remotePort).await

theorem isHealthReachable_leaves (localPort : Int) (token : String) (left : Nat) :
    Leaves known (.holding pid (.waiting left)) (isHealthReachable localPort token) fun custody outcome =>
      outcome = .ok true ∧ custody = .holding pid .healthy ∨
        ∃ fewer, left = fewer + 1 ∧ outcome = .ok false ∧ custody = .holding pid (.waiting fewer) := by
  refine leaves_tryCatch (leaves_bind fun answer custody followed => ?_)
  simp only [Custody.after, Custody.answered] at followed
  cases up : Custody.isOk answer with
  | true =>
      rw [if_pos up] at followed
      cases followed
      cases answer with
      | error e => cases up
      | ok response => exact .inl ⟨congrArg Except.ok up, rfl⟩
  | false =>
      rw [if_neg (by simp [up])] at followed
      cases left with
      | zero => cases followed
      | succ fewer =>
          cases followed
          cases answer with
          | error e => exact .inr ⟨fewer, rfl, rfl, rfl⟩
          | ok response => exact .inr ⟨fewer, rfl, congrArg Except.ok up, rfl⟩

/-- The monitor gives up where a health wait does. -/
theorem waitForHealth_leaves (localPort : Int) (token : String) :
    Leaves known (.holding pid .reachable) (manager.waitForHealth localPort token) fun custody outcome =>
      custody = .holding pid .healthy ∧ outcome = .ok () := by
  refine leaves_bind fun rounds custody followed => ?_
  cases rounds with
  | zero => cases followed
  | succ rounds =>
      cases followed
      dsimp only
      induction rounds with
      | zero =>
          refine leaves_bind ((isHealthReachable_leaves localPort token 0).mono fun custody outcome holds => ?_)
          obtain ⟨rfl, rfl⟩ | ⟨fewer, impossible, -⟩ := holds
          · exact ⟨rfl, rfl⟩
          · cases impossible
      | succ rounds ih =>
          refine leaves_bind ((isHealthReachable_leaves localPort token _).mono fun custody outcome holds => ?_)
          obtain ⟨rfl, rfl⟩ | ⟨fewer, same, rfl, rfl⟩ := holds
          · exact ⟨rfl, rfl⟩
          · cases same
            refine leaves_bind fun _ custody followed => ?_
            cases followed
            exact ih

/-- A tunnel in custody survives the health wait after it. -/
theorem Delivers.waitForHealth {tunnelPID : Option Nat} {custody : Custody} (localPort : Int)
    (token : String) (minded : custody = .none ∨
      ∃ pid, pid ∉ known ∧ custody = .holding pid .reachable ∧ truthyPid tunnelPID = some pid) :
    Leaves known custody (manager.waitForHealth localPort token)
      (Delivers known .healthy fun _ => tunnelPID) := by
  obtain rfl | ⟨pid, fresh, rfl, truthy⟩ := minded
  · refine (manager.idle_waitForHealth localPort token).mono fun custody outcome idle => ?_
    cases outcome with
    | ok _ => exact .inl idle
    | error e => exact idle
  · refine (manager.waitForHealth_leaves localPort token).mono fun custody outcome holds => ?_
    obtain ⟨rfl, rfl⟩ := holds
    exact .inr ⟨pid, fresh, rfl, truthy⟩

/-- A binding that is healthy is taken as it is. -/
theorem unlessHealthy_leaves (binding : WorkspaceBinding) {next : Remote WorkspaceBinding}
    (otherwise : Leaves known .none next (Delivers known .healthy WorkspaceBinding.tunnelPID)) :
    Leaves known .none (do
      if ← Remote.await (isHealthReachable binding.localPort binding.token) then pure binding
      else next) (Delivers known .healthy WorkspaceBinding.tunnelPID) := by
  refine leaves_bind ((idle_isHealthReachable _ _).await.mono fun custody outcome idle => ?_)
  subst idle
  match outcome with
  | .error e => rfl
  | .ok true => exact .inl rfl
  | .ok false => exact otherwise

theorem reconnect_leaves (binding : WorkspaceBinding) (target : ResolvedHost) :
    Leaves known .none (manager.reconnect binding target)
      (Delivers known .healthy WorkspaceBinding.tunnelPID) := by
  apply unlessHealthy_leaves
  refine leaves_bind ((manager.ensureSpecificOrFallbackTunnel_leaves binding.workspaceID
    target.host.name target.host.ssh _ binding.remotePort binding.localPort).await.mono
    fun custody outcome delivers => ?_)
  cases outcome with
  | error e => exact delivers
  | ok tunnel =>
      refine leaves_bind ((Delivers.waitForHealth manager tunnel.1 binding.token delivers).await.mono
        fun custody outcome delivers => ?_)
      cases outcome with
      | error e => exact delivers
      | ok _ => exact delivers

theorem ensureRecoveredBinding_leaves (binding : WorkspaceBinding) (target : ResolvedHost) :
    Leaves known .none (manager.ensureRecoveredBinding binding target)
      (Delivers known .healthy WorkspaceBinding.tunnelPID) :=
  unlessHealthy_leaves binding (manager.reconnect_leaves binding target).await

/-! ## Bootstrapping -/

theorem idle_buildSSHArgs (sshConfig : SSHConfig) (identityFile : Option String) :
    Idle known (manager.buildSSHArgs sshConfig identityFile) :=
  (idle_identityArgs identityFile).bind fun _ => idle_pure _

theorem idle_execSSH (sshArgs : List String) (command : String) : Idle known (execSSH sshArgs command) :=
  (idle_ssh _ _).bind fun _ => idle_pure _

theorem idle_execSSHAllowFailure (sshArgs : List String) (command : String) :
    Idle known (execSSHAllowFailure sshArgs command) :=
  (idle_execSSH _ _).await.tryCatch fun _ => idle_pure _

theorem idle_copy (localPath : String) (sshConfig : SSHConfig) (identityFile : Option String)
    (destination : String) : Idle known (manager.scp localPath sshConfig identityFile destination) :=
  (idle_identityArgs identityFile).bind fun _ => idle_scp _

theorem idle_installStub (localPath : String) (sshArgs : List String) (sshConfig : SSHConfig)
    (identityFile : Option String) (remotePath : String) :
    Idle known (manager.installStub localPath sshArgs sshConfig identityFile remotePath) :=
  (idle_call .now (by simp)).bind fun _ => (manager.idle_copy _ _ _ _).await.bind fun _ =>
    (idle_execSSH _ _).await.bind fun _ => idle_pure ()

theorem idle_remoteStubHash (sshArgs : List String) (remotePath : String) :
    Idle known (remoteStubHash sshArgs remotePath) :=
  (idle_execSSHAllowFailure _ _).await.bind fun _ => idle_pure _

theorem idle_resolveRemoteHome (sshConfig : SSHConfig) (identityFile : Option String) :
    Idle known (manager.resolveRemoteHome sshConfig identityFile) := by
  apply (manager.idle_buildSSHArgs _ _).bind
  intro sshArgs
  apply (idle_execSSH _ _).await.bind
  intro home
  split
  · exact idle_throw _
  · exact idle_pure _

theorem idle_andFinally {α : Type} {f : Remote α} {cleanup : Remote Unit} (first : Idle known f)
    (last : Idle known cleanup) : Idle known (andFinally f cleanup) := by
  refine Program.watched_bind.mpr (Program.Watched.mono first fun custody outcome idle => ?_)
  subst idle
  refine Program.watched_bind.mpr (Program.Watched.mono last fun custody outcome idle => ?_)
  subst idle
  cases outcome <;> rfl

theorem bootstrap_leaves (workspaceID : String) (target : ResolvedHost) :
    Leaves known .none (manager.bootstrap workspaceID target)
      (Delivers known .healthy BootstrapResult.tunnelPID) := by
  have failed : ∀ e, Delivers known .healthy BootstrapResult.tunnelPID .none (.error e) := fun _ => rfl
  have then_run {α : Type} {f : Remote α} {g : α → Remote BootstrapResult} (first : Idle known f)
      (next : ∀ a, Leaves known .none (g a) (Delivers known .healthy BootstrapResult.tunnelPID)) :=
    first.leads next failed
  have optionally {c : Prop} [Decidable c] {f : Remote PUnit} {g : PUnit → Remote BootstrapResult}
      (first : Idle known f)
      (next : Leaves known .none (g ()) (Delivers known .healthy BootstrapResult.tunnelPID)) :
      Leaves known .none (if c then f >>= g else g ()) (Delivers known .healthy BootstrapResult.tunnelPID) := by
    split
    · exact then_run first fun _ => next
    · exact next
  refine then_run (manager.idle_resolveRemoteHome _ _).await fun remoteHome => ?_
  refine then_run (idle_call .randomToken (by simp)) fun token => ?_
  refine then_run (manager.idle_buildSSHArgs _ _) fun sshArgs => ?_
  refine then_run (idle_file _) fun tokenDir => then_run (idle_execSSH _ _).await fun _ => ?_
  refine then_run (idle_call (.exists _) (by simp)) fun found => optionally (idle_throw _) ?_
  refine then_run (idle_file _) fun localStubHash => then_run (idle_remoteStubHash _ _).await fun remoteHash => ?_
  refine optionally (manager.idle_installStub _ _ _ _ _).await ?_
  refine then_run (idle_file _) fun _ => then_run (idle_file _) fun _ => ?_
  have cleanup (path : String) : Idle known (andFinally (do let _ ← file (.unlink path))
      (do let _ ← file (.removeTree tokenDir))) :=
    idle_andFinally ((idle_file _).bind fun _ => idle_pure ()) ((idle_file _).bind fun _ => idle_pure ())
  refine then_run (idle_andFinally (manager.idle_copy _ _ _ _).await (cleanup _)) fun _ => ?_
  refine then_run (idle_execSSHAllowFailure _ _).await fun _ => then_run (idle_execSSH _ _).await fun _ => ?_
  refine then_run (idle_execSSH _ _).await fun _ => ?_
  refine leaves_bind ((manager.ensureTunnel_leaves workspaceID target.host.name _ _ _).await.mono
    fun custody outcome delivers => ?_)
  cases outcome with
  | error e => exact delivers
  | ok tunnel =>
      refine leaves_bind ((Delivers.waitForHealth manager tunnel.1 token delivers).await.mono
        fun custody outcome delivers => ?_)
      cases outcome with
      | error e => exact delivers
      | ok _ => exact delivers

theorem idle_closeTunnel (localPort : Int) (tunnelPID : Option Nat) :
    Idle known (closeTunnel localPort tunnelPID) := by
  have checked (killed : Bool) : Idle known (if killed then pure ()
      else do
        if ← await (isPortReachable localPort) then
          throw s!"Tunnel on local port {localPort} is reachable but no tracked PID is available for teardown"
        else pure ()) := by
    split
    · exact idle_pure ()
    · apply (idle_isPortReachable _).await.bind
      intro up
      split
      · exact idle_throw _
      · exact idle_pure ()
  unfold closeTunnel
  dsimp only
  split
  · exact (((idle_kill _).bind fun _ => idle_pure _).tryCatch fun _ => idle_pure _).bind checked
  · exact (idle_pure false).bind checked

theorem idle_closeRecoveredBinding (binding : WorkspaceBinding) :
    Idle known (closeRecoveredBinding binding) := by
  unfold closeRecoveredBinding
  dsimp only
  split
  · exact ((idle_closeTunnel _ _).await.bind fun _ => (idle_waitForPortClosed _).await).await
  · apply (idle_isPortReachable _).await.bind
    intro up
    split
    · exact idle_throw _
    · exact idle_pure ()

end SSHManager

end OpencodeRemote.Plugin
