import OpencodeRemote.Plugin.Exclusivity
import OpencodeRemote.Plugin.Settling

/-! # Orphan tunnels

A tunnel process that runs on without a binding is out of the plugin's reach. While calls
are in progress a process may be in the custody of the call that has started it; once all
have ended, bindings alone can mind processes. Which processes have died by themselves is
left to the environment: `death i` is the length of the log by which the process that entry
`i` has started was dead.
-/

namespace OpencodeRemote.Plugin

open Concurrency Data

/-- The pid of the process that is started. -/
def spawned : PluginEvent → Option Nat
  | ⟨.remote (.spawn _), pid⟩ => truthyPid pid
  | _ => none

/-- The pid of the process that is killed. -/
def kills : PluginEvent → Option Nat
  | ⟨.remote (.kill pid), .ok _⟩ => some pid
  | _ => none

/-- The pid of the process that could not be killed. -/
def spares : PluginEvent → Option Nat
  | ⟨.remote (.kill pid), .error _⟩ => some pid
  | _ => none

def spawnedAt (log : PluginLog) (i : Nat) : Option Nat := observe (fun _ event => spawned event) log i

def killedAt (log : PluginLog) (i : Nat) : Option Nat := observe (fun _ event => kills event) log i

/-- The process of this pid that entry `i` has started was killed later, or it has died. -/
def Ended (death : Nat → Option Nat) (log : PluginLog) (i pid : Nat) : Prop :=
  (∃ j < log.length, i < j ∧ killedAt log j = some pid) ∨ ∃ n ∈ death i, n ≤ log.length

instance (death : Nat → Option Nat) (log : PluginLog) (i pid : Nat) : Decidable (Ended death log i pid) :=
  inferInstanceAs (Decidable (_ ∨ _))

/-- Every process that still runs is that of a binding. -/
def NoOrphans (death : Nat → Option Nat) (state : RuntimeState) (log : PluginLog) : Prop :=
  ∀ i < log.length, ∀ pid ∈ spawnedAt log i,
    Ended death log i pid ∨ ∃ binding ∈ state.list, binding.tunnelPID = some pid

instance (death : Nat → Option Nat) (state : RuntimeState) (log : PluginLog) :
    Decidable (NoOrphans death state log) :=
  inferInstanceAs (Decidable (∀ i < log.length, ∀ pid ∈ spawnedAt log i, _ ∨ _))

/-- No call is in progress. -/
def Quiescent (pool : PluginPool) : Prop :=
  ∀ thread ∈ pool.threads, ∃ reply, thread.rest = some (.pure reply)

/-- The bindings after an operation. -/
def Op.writes : Op → RuntimeState → RuntimeState
  | .drop _ workspaceID, state => state.delete workspaceID
  | .stateDelete workspaceID, state => state.delete workspaceID
  | .stateSet binding, state => state.set binding
  | .stateReplace binding, state => state.replace binding
  | .remote _, state | .acquireResolved _ _, state | .release _ _, state | .stateGet _, state
  | .stateList, state => state

theorem exec_state (config : ResolvedPluginConfig) (env : Env) (o : Op) (s : Store) :
    (exec config env o s).2.state = o.writes s.state := by cases o <;> rfl

/-- What the monitor of a call remembers of it. -/
def watched (log : PluginLog) (thread : Nat) : Option Watch :=
  Monitor.follow watch ⟨[], .none⟩ (past log thread)

/-- All processes of this pid have ended. -/
def AllEnded (death : Nat → Option Nat) (log : PluginLog) (pid : Nat) : Prop :=
  ∀ i < log.length, spawnedAt log i = some pid → Ended death log i pid

instance (death : Nat → Option Nat) (log : PluginLog) (pid : Nat) : Decidable (AllEnded death log pid) :=
  inferInstanceAs (Decidable (∀ i < log.length, _ → _))

/-- An entry at which no tunnel gets lost. -/
structure Cautious (death : Nat → Option Nat) (log : PluginLog) (entry : Entry Store Op Res) : Prop where
  /-- It is not the failure of a call whose tunnel has come up and is not stored yet. -/
  smooth : ∀ m ∈ watched log entry.thread, watch m entry.event.op entry.event.res ≠ none
  /-- A new process does not get a pid of a binding that the call has read, but which has
      gone meanwhile. -/
  fresh : ∀ m ∈ watched log entry.thread, ∀ pid ∈ spawned entry.event, pid ∈ m.known →
    ∃ binding ∈ entry.before.state.list, binding.tunnelPID = some pid
  /-- What cannot be killed is dead. -/
  spared : ∀ pid ∈ spares entry.event, AllEnded death log pid
  /-- A binding is dropped or overwritten only when the process of its tunnel has ended. -/
  abandoned : ∀ binding ∈ entry.before.state.list, ∀ pid ∈ binding.tunnelPID,
    (∀ other ∈ (entry.event.op.writes entry.before.state).list, other.tunnelPID ≠ some pid) →
      AllEnded death log pid

instance (death : Nat → Option Nat) (log : PluginLog) (entry : Entry Store Op Res) :
    Decidable (Cautious death log entry) :=
  decidable_of_iff
    ((∀ m ∈ watched log entry.thread, watch m entry.event.op entry.event.res ≠ none) ∧
      (∀ m ∈ watched log entry.thread, ∀ pid ∈ spawned entry.event, pid ∈ m.known →
        ∃ binding ∈ entry.before.state.list, binding.tunnelPID = some pid) ∧
      (∀ pid ∈ spares entry.event, AllEnded death log pid) ∧
      ∀ binding ∈ entry.before.state.list, ∀ pid ∈ binding.tunnelPID,
        (∀ other ∈ (entry.event.op.writes entry.before.state).list, other.tunnelPID ≠ some pid) →
          AllEnded death log pid)
    ⟨fun ⟨smooth, fresh, spared, abandoned⟩ => ⟨smooth, fresh, spared, abandoned⟩,
      fun ⟨smooth, fresh, spared, abandoned⟩ => ⟨smooth, fresh, spared, abandoned⟩⟩

def Careful (death : Nat → Option Nat) (log : PluginLog) : Prop :=
  ∀ k < log.length, ∀ entry ∈ log[k]?, Cautious death (log.take k) entry

instance (death : Nat → Option Nat) (log : PluginLog) : Decidable (Careful death log) :=
  inferInstanceAs (Decidable (∀ k < log.length, ∀ entry ∈ log[k]?, Cautious death (log.take k) entry))

/-! ## The invariant -/

def Custody.Covers (pid : Nat) : Custody → Prop
  | .none => False
  | .holding own _ => own = pid
  | .lost => True

/-- Every process has ended, or a binding or the call that started it minds it. -/
def Minded (death : Nat → Option Nat) (state : RuntimeState) (log : PluginLog) : Prop :=
  ∀ i pid, spawnedAt log i = some pid → Ended death log i pid ∨
    (∃ binding ∈ state.list, binding.tunnelPID = some pid) ∨
    ∃ thread event m, At log i thread event ∧ watched log thread = some m ∧ m.custody.Covers pid

section Invariant

variable {death : Nat → Option Nat} {log : PluginLog} {entry : Entry Store Op Res} {i pid : Nat}

theorem Ended.append (ended : Ended death log i pid) : Ended death (log ++ [entry]) i pid := by
  obtain ⟨j, inside, after, killed⟩ | ⟨n, dies, past⟩ := ended
  · exact .inl ⟨j, by simp; omega, after, observe_mono killed⟩
  · exact .inr ⟨n, dies, by simp; omega⟩

theorem Careful.init (careful : Careful death (log ++ [entry])) : Careful death log := by
  intro k inside other member
  have here := careful k (by simp; omega) other (by rwa [List.getElem?_append_left inside])
  rwa [List.take_append_of_le_length (Nat.le_of_lt inside)] at here

theorem Careful.last (careful : Careful death (log ++ [entry])) : Cautious death log entry := by
  have here := careful log.length (by simp) entry (by simp)
  rwa [List.take_left' rfl] at here

variable (log) in
theorem watched_own (thread : Nat) (s : Store) (event : PluginEvent) :
    watched (log ++ [⟨thread, s, event⟩]) thread =
      (watched log thread).bind fun m => watch m event.op event.res := by
  rw [watched, past_own, Monitor.follow_snoc]
  rfl

theorem watched_other {thread other : Nat} (different : thread ≠ other) (s : Store) (event : PluginEvent) :
    watched (log ++ [⟨thread, s, event⟩]) other = watched log other := by
  simp [watched, past, different]

/-- Up to a careful entry no monitor gives up. -/
theorem Careful.watched (careful : Careful death log) (thread : Nat) :
    ∃ m, OpencodeRemote.Plugin.watched log thread = some m := by
  induction log using List.reverseRecOn with
  | nil => exact ⟨_, rfl⟩
  | append_singleton earlier entry ih =>
      obtain ⟨m, before⟩ := ih careful.init
      obtain ⟨own, s, event⟩ := entry
      by_cases same : own = thread
      · subst same
        have goes_on := careful.last.smooth m before
        obtain ⟨m', here⟩ := Option.ne_none_iff_exists'.mp goes_on
        exact ⟨m', by rw [watched_own, before]; exact here⟩
      · exact ⟨m, by rw [watched_other same, before]⟩

/-- Talking to the outside ends custody only by killing the process, or trying to. -/
theorem covers_after {known : List Nat} {custody custody' : Custody} {o : RemoteOp} {r : RemoteRes o}
    (covered : custody.Covers pid) (followed : custody.after known o r = some custody') :
    custody'.Covers pid ∨ kills ⟨.remote o, r⟩ = some pid ∨ spares ⟨.remote o, r⟩ = some pid := by
  cases o with
  | spawn args =>
      cases followed
      cases custody with
      | none => exact covered.elim
      | holding own phase => exact .inl trivial
      | lost => exact .inl trivial
  | kill other =>
      cases followed
      by_cases own : custody = .holding other .starting
      · subst own
        cases covered
        cases r with
        | ok _ => exact .inr (.inl rfl)
        | error e => exact .inr (.inr rfl)
      · have kept : custody.killed other = custody := by
          unfold Custody.killed
          split
          · rename_i own'
            exact if_neg fun same => own (by rw [same])
          · rfl
        exact .inl (kept.symm ▸ covered)
  | rounds ms =>
      refine .inl ?_
      simp only [Custody.after, Custody.polls] at followed
      split at followed
      · split at followed <;> cases followed
        exact covered
      · cases followed
        exact covered
  | fetch request =>
      refine .inl ?_
      simp only [Custody.after, Custody.answered] at followed
      split at followed
      · cases followed
        exact covered
      · split at followed
        · cases followed
          exact covered
        · split at followed <;> cases followed
          exact covered
      · split at followed <;> cases followed
        exact covered
      · cases followed
        exact covered
  | _ =>
      cases followed
      exact .inl covered

theorem covers_stored {custody : Custody} (covered : custody.Covers pid) (binding : WorkspaceBinding) :
    (custody.stored binding).Covers pid ∨ binding.tunnelPID = some pid := by
  cases custody with
  | none => exact covered.elim
  | holding own phase =>
      cases covered
      by_cases minded : binding.tunnelPID = some pid
      · exact .inr minded
      · exact .inl (by rw [Custody.stored, if_neg minded]; rfl)
  | lost => exact .inl trivial

/-- The ways out of custody: the process is killed, it cannot be killed, or a binding with
    its pid is stored. -/
theorem covers_step {m m' : Watch} {o : Op} {r : Res o} (covered : m.custody.Covers pid)
    (followed : watch m o r = some m') : m'.custody.Covers pid ∨ kills ⟨o, r⟩ = some pid ∨
      spares ⟨o, r⟩ = some pid ∨ ∀ state, ∃ binding ∈ (o.writes state).list, binding.tunnelPID = some pid := by
  have listed (state : RuntimeState) (binding : WorkspaceBinding) : binding ∈ (state.set binding).list :=
    RuntimeState.mem_list.mpr (by simp [RuntimeState.get_set])
  cases o with
  | remote o =>
      obtain ⟨custody', here, rfl⟩ := Option.map_eq_some_iff.mp followed
      obtain still | killed | spared := covers_after covered here
      · exact .inl still
      · exact .inr (.inl killed)
      · exact .inr (.inr (.inl spared))
  | stateSet binding =>
      cases followed
      obtain still | minded := covers_stored covered binding
      · exact .inl still
      · exact .inr (.inr (.inr fun state => ⟨binding, listed state binding, minded⟩))
  | stateReplace binding =>
      cases followed
      obtain still | minded := covers_stored covered binding
      · exact .inl still
      · exact .inr (.inr (.inr fun state => ⟨binding, listed state binding, minded⟩))
  | _ =>
      cases followed
      exact .inl covered

/-- A process is in the custody of the call that starts it, or a binding has its pid. -/
theorem covers_spawned {m m' : Watch} {o : Op} {r : Res o} (started : spawned ⟨o, r⟩ = some pid)
    (followed : watch m o r = some m') : m'.custody.Covers pid ∨ pid ∈ m.known := by
  cases o with
  | remote o =>
      obtain ⟨custody', here, rfl⟩ := Option.map_eq_some_iff.mp followed
      cases o with
      | spawn args =>
          cases here
          simp only [spawned] at started
          cases custody : m.custody with
          | none =>
              by_cases old : pid ∈ m.known
              · exact .inr old
              · exact .inl (by simp [Custody.started, started, old, Custody.Covers])
          | holding own phase => exact .inl trivial
          | lost => exact .inl trivial
      | _ => cases started
  | _ => cases started

theorem minded_preserved (manager : SSHManager) (death : Nat → Option Nat) :
    (plugin manager).Preserves (fun _ _ => True) oneProcess fun s log =>
      Careful death log → Minded death s.state log := by
  intro s log thread o env _ _ inv careful i pid started
  have minded := inv careful.init
  have cautious := careful.last
  obtain ⟨m, before⟩ := careful.init.watched thread
  obtain ⟨m', followed⟩ := Option.ne_none_iff_exists'.mp (cautious.smooth m before)
  have now := watched_own log thread s ⟨o, ((plugin manager).exec env o s).1⟩
  rw [before, Option.bind_some, followed] at now
  have state : ((plugin manager).exec env o s).2.state = o.writes s.state :=
    exec_state manager.config env o s
  rw [state]
  obtain older | ⟨rfl, newest⟩ := observe_snoc.mp started
  · have ended_now (ended : AllEnded death log pid) :
        Ended death (log ++ [⟨thread, s, ⟨o, ((plugin manager).exec env o s).1⟩⟩]) i pid :=
      (ended i (observe_lt older) older).append
    obtain ended | ⟨binding, member, tunnel⟩ | ⟨owner, event, m₀, here, remembered, covered⟩ := minded i pid older
    · exact .inl ended.append
    · by_cases kept : ∃ other ∈ (o.writes s.state).list, other.tunnelPID = some pid
      · exact .inr (.inl kept)
      · simp only [not_exists, not_and] at kept
        exact .inl (ended_now (cautious.abandoned binding member pid tunnel kept))
    · by_cases same : thread = owner
      · subst same
        rw [before] at remembered
        cases remembered
        obtain still | killed | spared | stored := covers_step covered followed
        · exact .inr (.inr ⟨thread, event, m', here.append _, now, still⟩)
        · have at_end : killedAt (log ++ [⟨thread, s, ⟨o, ((plugin manager).exec env o s).1⟩⟩]) log.length =
              some pid := observe_snoc.mpr (.inr ⟨rfl, killed⟩)
          exact .inl (.inl ⟨log.length, by simp, observe_lt older, at_end⟩)
        · exact .inl (ended_now (cautious.spared pid spared))
        · exact .inr (.inl (stored s.state))
      · refine .inr (.inr ⟨owner, event, m₀, here.append _, ?_, covered⟩)
        rw [watched_other same, remembered]
  · obtain covered | old := covers_spawned newest followed
    · exact .inr (.inr ⟨thread, _, m', at_last log thread s _, now, covered⟩)
    · have same : o.writes s.state = s.state := by
        cases o with
        | remote o => rfl
        | _ => cases newest
      exact .inr (.inl (same.symm ▸ cautious.fresh m before pid newest old))

end Invariant

/-! ## Runs -/

/-- In every run of careful steps, calls may overlap or not, no tunnel is an orphan once all
    calls have ended. -/
theorem noOrphans_of_careful (manager : SSHManager) (death : Nat → Option Nat) (s : Store)
    (labels : List PluginLabel) (running : ∀ label ∈ labels, label.Within oneProcess)
    (careful : Careful death ((plugin manager).run s labels).log)
    (quiescent : Quiescent ((plugin manager).run s labels)) :
    NoOrphans death ((plugin manager).run s labels).store.state ((plugin manager).run s labels).log := by
  have minded := Machine.run_invariant _ (minded_preserved manager death)
    (fun _ _ => Program.obeys_free _ _) (fun _ _ _ impossible => impossible.elim)
    (fun _ i pid started => absurd (observe_lt started) (Nat.not_lt_zero i)) running careful
  intro i inside pid started
  obtain ended | owned | ⟨thread, event, m, here, remembered, covered⟩ := minded i pid started
  · exact .inl ended
  · exact .inr owned
  · -- the call that started the process has ended, so it has nothing in custody
    obtain ⟨before, here⟩ := here
    have known := Machine.run_known running _ (List.mem_of_getElem? here)
    have found := List.getElem?_eq_getElem known
    obtain ⟨reply, answered⟩ := quiescent _ (List.getElem_mem known)
    generalize ((plugin manager).run s labels).threads[thread] = call at found answered
    obtain ⟨request, started, rest⟩ := call
    cases answered
    have idle := Machine.run_post (fun request _ => serve_watched manager request) running found m remembered
    rw [idle] at covered
    exact covered.elim

theorem quiescent_of_answered {pool : PluginPool} (answered : pool.threads.all fun call =>
    match call.rest with
    | some (.pure _) => true
    | _ => false) : Quiescent pool := by
  intro call member
  have done := List.all_eq_true.mp answered call member
  split at done
  · rename_i reply rest
    exact ⟨reply, rest⟩
  · cases done

/-- A workspace is created and removed again. -/
def createdAndRemoved : List PluginLabel := creation 0 "w" ++ call 1 20 (.remove (inLab "w")) (world true false)

theorem noOrphans_after_removal :
    NoOrphans (fun _ => none) ((plugin labManager).run Store.empty createdAndRemoved).store.state
      ((plugin labManager).run Store.empty createdAndRemoved).log :=
  noOrphans_of_careful labManager (fun _ => none) Store.empty createdAndRemoved (within_callsOf (by decide))
    (by decide +kernel) (quiescent_of_answered (by decide +kernel))

/-- The tunnel comes up, but the stub does not become healthy in time. -/
def unhealthyCreation : List PluginLabel :=
  call 0 20 (.create (inLab "w")) (world true false) ++ resumes 0 1 (world true true) ++
    resumes 0 10 (world true false)

theorem not_noOrphans_when_unhealthy :
    ¬∀ (manager : SSHManager) (death : Nat → Option Nat) (s : Store) (labels : List PluginLabel),
      (∀ label ∈ labels, label.Within oneProcess) → Quiescent ((plugin manager).run s labels) →
      NoOrphans death ((plugin manager).run s labels).store.state ((plugin manager).run s labels).log := by
  intro never_orphans
  have orphaned : ¬NoOrphans (fun _ => none) ((plugin labManager).run Store.empty unhealthyCreation).store.state
      ((plugin labManager).run Store.empty unhealthyCreation).log := by decide +kernel
  exact orphaned (never_orphans labManager (fun _ => none) Store.empty unhealthyCreation
    (within_callsOf (by decide)) (quiescent_of_answered (by decide +kernel)))

end OpencodeRemote.Plugin
