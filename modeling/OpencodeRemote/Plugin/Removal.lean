import OpencodeRemote.Plugin.Exclusivity
import OpencodeRemote.Plugin.Protocol

/-! # Removed workspaces

A call that recovers a connection holds a binding across its awaits and writes it back at
the end. If the binding is removed in between, the write brings it back. What follows is
about one run's log; which threads create and which remove is given by two predicates.
-/

namespace OpencodeRemote.Plugin

open Concurrency Data

/-- Entry `k` is the end of a removal of the workspace. -/
def RemovedAt (removes : Nat → Prop) (log : PluginLog) (k : Nat) (workspaceID : String) : Prop :=
  ∃ thread host, removes thread ∧ At log k thread ⟨.drop host workspaceID, .ok ()⟩

/-- Entry `j` is the start of a creation of the workspace, the choice of its host. -/
def CreationAt (creates : Nat → Prop) (log : PluginLog) (j thread : Nat) (workspaceID : String) : Prop :=
  creates thread ∧ ∃ request result, At log j thread ⟨.acquireResolved request workspaceID, result⟩

/-- A creation of the workspace that started before entry `k` stores its binding after it. -/
def CreationAround (creates : Nat → Prop) (log : PluginLog) (k : Nat) (workspaceID : String) : Prop :=
  ∃ j n thread binding result, CreationAt creates log j thread workspaceID ∧ j < k ∧ k < n ∧
    At log n thread ⟨.stateSet binding, result⟩ ∧ binding.workspaceID = workspaceID

/-- Once it is removed, and unless it was just being created, a workspace has no binding
    until its next creation starts. -/
def StaysGone (creates removes : Nat → Prop) (s : Store) (log : PluginLog) : Prop :=
  ∀ k workspaceID, RemovedAt removes log k workspaceID → ¬CreationAround creates log k workspaceID →
    s.state.get workspaceID ≠ none → ∃ j thread, k < j ∧ CreationAt creates log j thread workspaceID

/-- If the operation writes a binding back, the workspace still has one. -/
def WritesPresent (s : Store) : Op → Prop
  | .stateReplace binding => s.state.get binding.workspaceID ≠ none
  | _ => True

instance (s : Store) : (o : Op) → Decidable (WritesPresent s o)
  | .stateReplace binding => inferInstanceAs (Decidable (s.state.get binding.workspaceID ≠ none))
  | .remote _ | .acquireResolved _ _ | .release _ _ | .drop _ _ | .stateSet _ | .stateGet _ | .stateList
  | .stateDelete _ => inferInstanceAs (Decidable True)

/-- A binding is written back only while the workspace has one, and calls other than
    creations store new bindings only for workspaces that have not been removed. -/
structure Orderly (creates removes : Nat → Prop) (log : PluginLog) : Prop where
  present : ∀ entry ∈ log, WritesPresent entry.before entry.event.op
  unused : ∀ n thread binding result, At log n thread ⟨.stateSet binding, result⟩ → ¬creates thread →
    ∀ k < n, ¬RemovedAt removes log k binding.workspaceID

section Log

variable {creates removes : Nat → Prop} {log : PluginLog} {k : Nat} {workspaceID : String}

theorem RemovedAt.append (removed : RemovedAt removes log k workspaceID) (more : PluginLog) :
    RemovedAt removes (log ++ more) k workspaceID := by
  obtain ⟨thread, host, remover, here⟩ := removed
  exact ⟨thread, host, remover, here.append more⟩

theorem CreationAt.append {j thread : Nat} (creation : CreationAt creates log j thread workspaceID)
    (more : PluginLog) : CreationAt creates (log ++ more) j thread workspaceID := by
  obtain ⟨creator, request, result, here⟩ := creation
  exact ⟨creator, request, result, here.append more⟩

theorem CreationAround.append (around : CreationAround creates log k workspaceID) (more : PluginLog) :
    CreationAround creates (log ++ more) k workspaceID := by
  obtain ⟨j, n, thread, binding, result, creation, before, after, here, same⟩ := around
  exact ⟨j, n, thread, binding, result, creation.append more, before, after, here.append more, same⟩

theorem Orderly.init {entry : Entry Store Op Res} (orderly : Orderly creates removes (log ++ [entry])) :
    Orderly creates removes log := by
  refine ⟨fun older member => orderly.present older (List.mem_append_left _ member), ?_⟩
  intro n thread binding result here other k before removed
  exact orderly.unused n thread binding result (here.append _) other k before (removed.append _)

/-- An operation binds a workspace that had no binding only by storing one. -/
theorem bound_before {config : ResolvedPluginConfig} {env : Env} {o : Op} {s : Store}
    (bound : (exec config env o s).2.state.get workspaceID ≠ none) :
    s.state.get workspaceID ≠ none ∨ ∃ binding, binding.workspaceID = workspaceID ∧
      (o = .stateSet binding ∨ o = .stateReplace binding) := by
  cases o with
  | stateSet binding =>
      simp only [exec, RuntimeState.get_set] at bound
      split at bound
      · rename_i same
        exact .inr ⟨binding, same.symm, .inl rfl⟩
      · exact .inl bound
  | stateReplace binding =>
      simp only [exec, RuntimeState.replace, RuntimeState.get_set] at bound
      split at bound
      · rename_i same
        exact .inr ⟨binding, same.symm, .inr rfl⟩
      · exact .inl bound
  | stateDelete other =>
      simp only [exec, RuntimeState.get_delete] at bound
      split at bound
      · exact absurd rfl bound
      · exact .inl bound
  | drop host other =>
      simp only [exec, RuntimeState.get_delete] at bound
      split at bound
      · exact absurd rfl bound
      · exact .inl bound
  | _ => exact .inl bound

theorem staysGone_preserved (manager : SSHManager) (creates removes : Nat → Prop) :
    (plugin manager).Preserves ChosenFirst oneProcess fun s log =>
      Orderly creates removes log → StaysGone creates removes s log := by
  intro s log thread o env _ lawful inv orderly k workspaceID removed undisturbed bound
  change (exec manager.config env o s).2.state.get workspaceID ≠ none at bound
  obtain ⟨remover, host, removes_it, here⟩ := removed
  cases at_snoc.mp here with
  | inr newest =>
      -- the removal itself leaves no binding
      have same := congrArg Event.op newest.2.2
      subst same
      simp [exec, RuntimeState.get_delete] at bound
  | inl older =>
      have removed : RemovedAt removes log k workspaceID := ⟨remover, host, removes_it, older⟩
      have earlier : s.state.get workspaceID ≠ none → ∃ j thread', k < j ∧ CreationAt creates
          (log ++ [⟨thread, s, ⟨o, ((plugin manager).exec env o s).1⟩⟩]) j thread' workspaceID := by
        intro had
        obtain ⟨j, creator, after, creation⟩ := inv orderly.init k workspaceID removed
          (fun around => undisturbed (around.append _)) had
        exact ⟨j, creator, after, creation.append _⟩
      cases bound_before bound with
      | inl had => exact earlier had
      | inr stored =>
          obtain ⟨binding, rfl, set | replaced⟩ := stored
          · subst set
            have now := at_last log thread s ⟨.stateSet binding, ((plugin manager).exec env _ s).1⟩
            have creator : creates thread := by
              by_contra other
              exact orderly.unused log.length thread binding _ now other k older.lt (removed.append _)
            -- its own acquisition came after the removal, or the creation would be around it
            obtain ⟨request, result, chosen⟩ := lawful_last lawful binding rfl
            obtain ⟨j, acquired⟩ := mem_past.mp chosen
            have creation : CreationAt creates log j thread binding.workspaceID :=
              ⟨creator, request, result, acquired⟩
            rcases Nat.lt_trichotomy j k with before | same | after
            · have around : CreationAround creates _ k binding.workspaceID :=
                ⟨j, log.length, thread, binding, _, creation.append _, before, older.lt, now, rfl⟩
              exact absurd around undisturbed
            · subst same
              cases (older.unique acquired).2
            · exact ⟨j, thread, after, creation.append _⟩
          · subst replaced
            exact earlier (orderly.present _ (List.mem_append_right _ (List.mem_singleton.mpr rfl)))

end Log

/-! ## Runs -/

def Request.creates : Request → Bool
  | .create _ | .remoteWorkspaceCreate _ _ _ => true
  | _ => false

def Request.removes : Request → Bool
  | .remove _ | .remoteDisconnect _ | .remoteWorkspaceRemove _ => true
  | _ => false

/-- The thread serves a call of this kind. -/
def Serves (pool : PluginPool) (kind : Request → Bool) (thread : Nat) : Prop :=
  (pool.threads[thread]?).any fun call => kind call.request

instance (pool : PluginPool) (kind : Request → Bool) (thread : Nat) :
    Decidable (Serves pool kind thread) := inferInstanceAs (Decidable (_ = true))

def StaysRemoved (pool : PluginPool) : Prop :=
  StaysGone (Serves pool Request.creates) (Serves pool Request.removes) pool.store pool.log

/-- In every run of one process whose writes are orderly, removed workspaces stay removed. -/
theorem staysRemoved_of_orderly (manager : SSHManager) (s : Store) (labels : List PluginLabel)
    (running : ∀ label ∈ labels, label.Within oneProcess)
    (orderly : Orderly (Serves ((plugin manager).run s labels) Request.creates)
      (Serves ((plugin manager).run s labels) Request.removes) ((plugin manager).run s labels).log) :
    StaysRemoved ((plugin manager).run s labels) := by
  refine Machine.run_invariant _ (staysGone_preserved manager _ _) (fun request _ => serve_obeys manager request)
    (fun _ _ _ impossible => impossible.elim) (fun _ k workspaceID removed => ?_) running orderly
  obtain ⟨thread, host, -, here⟩ := removed
  exact absurd here.lt (Nat.not_lt_zero k)

/-- A removal and the calls that can recover a connection in the meantime. -/
def Request.meetsRemoval : Request → Bool
  | .target _ | .remoteStatus | .remoteWorkspaceList | .remoteSwitch _ _ => true
  | request => request.removes

/-- Workspace `w` on the first host; its tunnel may be up or down. -/
def oneBound : Store :=
  ⟨.set .empty "web" ⟨"web", "w", .exclusive, 1⟩, RuntimeState.empty.set (boundTo "w" "web")⟩

/-- A call for the target that finds the tunnel down and opens a new one, in two parts. -/
def target : List PluginLabel := call 0 0 (.target (inLab "w")) (world true false)

def reopening : List PluginLabel := resumes 0 6 (world true false) ++ resumes 0 12 (world true true)

def removal : List PluginLabel := call 1 20 (.remove (inLab "w")) (world true false)

/-- The thread that stores new bindings in a log, if it is always the same. -/
def storedBy (thread : Nat) (log : PluginLog) : Bool :=
  log.all fun entry => match entry.event.op with
    | .stateSet _ => entry.thread = thread
    | _ => true

theorem unused_of_storedBy {creates removes : Nat → Prop} {log : PluginLog} {thread : Nat}
    (stored : storedBy thread log) (creator : creates thread) :
    ∀ n other binding result, At log n other ⟨.stateSet binding, result⟩ → ¬creates other →
      ∀ k < n, ¬RemovedAt removes log k binding.workspaceID := by
  intro n other binding result here foreign
  obtain ⟨s, here⟩ := here
  have own := List.all_eq_true.mp stored _ (List.mem_of_getElem? here)
  simp only [decide_eq_true_eq] at own
  exact absurd (own ▸ creator) foreign

/-- The tunnel is opened again, the workspace is removed and then created anew. -/
theorem staysRemoved_when_recovered_before :
    StaysRemoved ((plugin labManager).run oneBound (target ++ reopening ++ removal ++ creation 2 "w")) :=
  staysRemoved_of_orderly labManager oneBound _ (within_callsOf (by decide))
    ⟨by decide +kernel, @unused_of_storedBy _ _ _ 2 (by decide +kernel) (by decide +kernel)⟩

theorem not_serves {pool : PluginPool} {kind : Request → Bool}
    (other : pool.threads.all fun call => !kind call.request) (thread : Nat) : ¬Serves pool kind thread := by
  intro serves
  obtain ⟨call, found, matched⟩ := (Option.any_eq_true _ _).mp serves
  have unmatched := List.all_eq_true.mp other call (List.mem_of_getElem? found)
  simp [matched] at unmatched

def endsRemoval (thread : Nat) (host workspaceID : String) : Entry Store Op Res → Bool
  | ⟨own, _, ⟨.drop h w, .ok ()⟩⟩ => own = thread && h = host && w = workspaceID
  | _ => false

theorem at_drop {log : PluginLog} {k thread : Nat} {host workspaceID : String}
    (ends : (log[k]?).any (endsRemoval thread host workspaceID)) :
    At log k thread ⟨.drop host workspaceID, .ok ()⟩ := by
  obtain ⟨⟨own, s, ⟨o, answer⟩⟩, found, matched⟩ := (Option.any_eq_true _ _).mp ends
  cases o with
  | drop h w =>
      cases answer with
      | error message => cases matched
      | ok done =>
          simp only [endsRemoval, Bool.and_eq_true, decide_eq_true_eq] at matched
          obtain ⟨⟨rfl, rfl⟩, rfl⟩ := matched
          exact ⟨s, found⟩
  | _ => cases matched

/-- The workspace is removed while the call is opening its tunnel again. -/
def removedMeanwhile : PluginPool := (plugin labManager).run oneBound (target ++ removal ++ reopening)

theorem not_staysRemoved_when_recovered_meanwhile :
    ¬∀ (manager : SSHManager) (s : Store) (labels : List PluginLabel),
      (∀ label ∈ labels, label.Within (callsOf Request.meetsRemoval)) →
        StaysRemoved ((plugin manager).run s labels) := by
  intro always_removed
  have stays : StaysRemoved removedMeanwhile :=
    always_removed labManager oneBound _ (within_callsOf (by decide))
  have removed : At removedMeanwhile.log 13 1 ⟨.drop "web" "w", .ok ()⟩ := at_drop (by decide +kernel)
  have remover : Serves removedMeanwhile Request.removes 1 := by decide +kernel
  have bound : removedMeanwhile.store.state.get "w" ≠ none := by decide +kernel
  have uncreated := @not_serves removedMeanwhile Request.creates (by decide +kernel)
  have undisturbed : ¬CreationAround (Serves removedMeanwhile Request.creates) removedMeanwhile.log 13 "w" := by
    rintro ⟨-, -, thread, -, -, ⟨creates, -⟩, -⟩
    exact uncreated thread creates
  obtain ⟨-, thread, -, creates, -⟩ := stays 13 "w" ⟨1, "web", remover, removed⟩ undisturbed bound
  exact uncreated thread creates

end OpencodeRemote.Plugin
