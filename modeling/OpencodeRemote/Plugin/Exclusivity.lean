import OpencodeRemote.Plugin.Index

/-! # Exclusive use of hosts

Leases and bindings are two tables, and a binding stands on its host's lease. The invariant
is that of users and exclusive resources; for each operation the rules say exactly when it
is kept.
-/

namespace OpencodeRemote.Plugin

open Concurrency Data

/-- No two bindings share a host, and the lease on a binding's host is its workspace's. -/
structure Exclusive (s : Store) : Prop where
  distinct : ∀ first ∈ s.state.list, ∀ second ∈ s.state.list, first.host = second.host → first = second
  leased : ∀ binding ∈ s.state.list,
    ∃ lease, s.leases.get binding.host = some lease ∧ lease.workspaceID = binding.workspaceID

/-- A binding is stored only by the workspace that holds the lease on its host, and a
    workspace releases a host only if it has no binding on it. -/
def Rightful (s : Store) : Op → Prop
  | .stateSet binding => s.leases.holder binding.host = some binding.workspaceID
  | .stateReplace binding => s.leases.holder binding.host = some binding.workspaceID
  | .release host workspaceID => s.state.uses workspaceID ≠ some host
  | _ => True

instance (s : Store) : (o : Op) → Decidable (Rightful s o)
  | .stateSet binding => inferInstanceAs (Decidable (s.leases.holder binding.host = _))
  | .stateReplace binding => inferInstanceAs (Decidable (s.leases.holder binding.host = _))
  | .release host workspaceID => inferInstanceAs (Decidable (s.state.uses workspaceID ≠ some host))
  | .remote _ | .acquireResolved _ _ | .drop _ _ | .stateGet _ | .stateList | .stateDelete _ =>
      inferInstanceAs (Decidable True)

theorem uses_eq_some {state : RuntimeState} {workspaceID host : String} :
    state.uses workspaceID = some host ↔
      ∃ binding ∈ state.list, binding.workspaceID = workspaceID ∧ binding.host = host := by
  simp only [RuntimeState.uses, Option.map_eq_some_iff]
  constructor
  · rintro ⟨binding, found, on⟩
    have keyed := state.keyed workspaceID binding found
    exact ⟨binding, RuntimeState.mem_list.mpr (keyed ▸ found), keyed, on⟩
  · rintro ⟨binding, member, rfl, on⟩
    exact ⟨binding, RuntimeState.mem_list.mp member, on⟩

/-- Exclusive use says that bindings are users and leased hosts are resources. -/
theorem exclusive_iff_backed {s : Store} : Exclusive s ↔ Backed s.leases.holder s.state.uses := by
  constructor
  · intro exclusive workspaceID host used
    obtain ⟨binding, member, rfl, rfl⟩ := uses_eq_some.mp used
    obtain ⟨lease, found, own⟩ := exclusive.leased binding member
    simp only [LeaseManager.holder, found, Option.map_some, own]
  · intro backed
    constructor
    · intro first member second member' same
      have used : s.state.uses first.workspaceID = some second.host :=
        uses_eq_some.mpr ⟨first, member, rfl, same⟩
      have equal := backed.injective used (uses_eq_some.mpr ⟨second, member', rfl, rfl⟩)
      have found := RuntimeState.mem_list.mp member
      rw [equal, RuntimeState.mem_list.mp member'] at found
      exact (Option.some.inj found).symm
    · intro binding member
      have held := backed _ _ (uses_eq_some.mpr ⟨binding, member, rfl, rfl⟩)
      exact Option.map_eq_some_iff.mp held

theorem backed_release_iff {s : Store} (backed : Backed s.leases.holder s.state.uses)
    (host workspaceID : String) :
    Backed (LeaseManager.holder (s.leases.release host workspaceID)) s.state.uses ↔
      s.state.uses workspaceID ≠ some host := by
  rw [LeaseManager.holder_release]
  by_cases held : s.leases.holder host = some workspaceID
  · rw [if_pos held, backed.release_iff]
    constructor
    · exact fun unused => unused workspaceID
    · intro unused user used
      have own := backed user host used
      rw [held, Option.some.injEq] at own
      exact unused (own ▸ used)
  · rw [if_neg held]
    constructor
    · exact fun _ used => held (backed workspaceID host used)
    · exact fun _ => backed

/-- In exclusive mode, one operation keeps the exclusive use exactly if it is rightful. -/
theorem exclusive_step_iff {config : ResolvedPluginConfig}
    (mode : config.defaults.leaseMode = .exclusive) (env : Env) (o : Op) {s : Store}
    (exclusive : Exclusive s) : Exclusive (exec config env o s).2 ↔ Rightful s o := by
  have backed := exclusive_iff_backed.mp exclusive
  cases o with
  | remote o => exact iff_of_true exclusive trivial
  | stateGet workspaceID => exact iff_of_true exclusive trivial
  | stateList => exact iff_of_true exclusive trivial
  | acquireResolved request workspaceID =>
      refine iff_of_true (exclusive_iff_backed.mpr ?_) trivial
      simp only [exec]
      cases ProviderRegistry.holder_acquireResolved config mode request workspaceID env.now s.leases with
      | inl same => exact same ▸ backed
      | inr taken =>
          obtain ⟨host, free, taken⟩ := taken
          exact taken ▸ backed.take free workspaceID
  | release host workspaceID =>
      rw [exclusive_iff_backed]
      exact backed_release_iff backed host workspaceID
  | drop host workspaceID =>
      refine iff_of_true (exclusive_iff_backed.mpr ?_) trivial
      have retired : Backed s.leases.holder (s.state.delete workspaceID).uses := by
        rw [RuntimeState.uses_delete]
        exact backed.retire workspaceID
      refine (backed_release_iff (s := ⟨s.leases, s.state.delete workspaceID⟩) retired host workspaceID).mpr ?_
      simp [RuntimeState.uses_delete]
  | stateSet binding =>
      rw [exclusive_iff_backed]
      simp only [exec, RuntimeState.uses_set]
      exact backed.assign_iff
  | stateReplace binding =>
      rw [exclusive_iff_backed]
      simp only [exec, RuntimeState.replace, RuntimeState.uses_set]
      exact backed.assign_iff
  | stateDelete workspaceID =>
      refine iff_of_true (exclusive_iff_backed.mpr ?_) trivial
      simp only [exec, RuntimeState.uses_delete]
      exact backed.retire workspaceID

/-- In every run of one process from empty tables, hosts are in exclusive use as long as
    every operation is rightful. -/
theorem exclusive_of_rightful (manager : SSHManager)
    (mode : manager.config.defaults.leaseMode = .exclusive) (labels : List PluginLabel)
    (running : ∀ label ∈ labels, label.Within oneProcess)
    (rightful : ∀ entry ∈ ((plugin manager).run Store.empty labels).log,
      Rightful entry.before entry.event.op) :
    Exclusive ((plugin manager).run Store.empty labels).store := by
  have preserves : (plugin manager).Preserves (fun _ _ => True) oneProcess fun s log =>
      (∀ entry ∈ log, Rightful entry.before entry.event.op) → Exclusive s := by
    intro s log thread o env _ _ inv rightful
    have before := inv fun entry member => rightful entry (List.mem_append_left _ member)
    have newest := rightful _ (List.mem_append_right _ (List.mem_singleton.mpr rfl))
    exact (exclusive_step_iff mode env o before).mpr newest
  have start : Exclusive Store.empty := exclusive_iff_backed.mpr (Backed.empty _)
  exact Machine.run_invariant _ preserves (fun request _ => Program.obeys_free _ _)
    (fun _ _ _ impossible => impossible.elim) (fun _ => start) running rightful

def labManager : SSHManager :=
  ⟨oneProvider "lab" [web, db] (List.cons_ne_nil _ _), some "/home/me", "/tmp", 7⟩

/-- Two workspaces are created, one after the other. -/
theorem exclusive_after_two_creations :
    Exclusive ((plugin labManager).run Store.empty (creation 0 "w" ++ creation 1 "v")).store :=
  exclusive_of_rightful labManager rfl _ (within_callsOf (by decide)) (by decide +kernel)

/-- A workspace is created again and its host cannot be reached the second time: the
    failing call gives up the lease that the binding stands on. -/
theorem not_exclusive_after_failing_recreation :
    ¬∀ (manager : SSHManager) (labels : List PluginLabel),
      manager.config.defaults.leaseMode = .exclusive →
      (∀ label ∈ labels, label.Within oneProcess) →
      Exclusive ((plugin manager).run Store.empty labels).store := by
  intro always_exclusive
  have exclusive := always_exclusive labManager
    (creation 0 "w" ++ call 1 5 (.create (inLab "w")) (world false false)) rfl (within_callsOf (by decide))
  have bound : ((plugin labManager).run Store.empty (creation 0 "w" ++
      call 1 5 (.create (inLab "w")) (world false false))).store.state.uses "w" = some "web" := by
    decide +kernel
  have free : ((plugin labManager).run Store.empty (creation 0 "w" ++
      call 1 5 (.create (inLab "w")) (world false false))).store.leases.holder "web" = none := by
    decide +kernel
  have held := exclusive_iff_backed.mp exclusive "w" "web" bound
  rw [free] at held
  cases held

end OpencodeRemote.Plugin
