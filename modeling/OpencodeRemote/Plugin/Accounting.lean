import OpencodeRemote.Concurrency.Guarded
import OpencodeRemote.Plugin.Exclusivity

/-! # What a lease is for

A lease is accounted for if its workspace has a binding on the leased host. The calls take
and release leases at different places; here is what each of their parts does to the leases
of one workspace, if no other call comes in between and no operation strands a lease.
-/

namespace OpencodeRemote.Plugin

open Concurrency Data

/-! ## Leases of a workspace -/

/-- Every lease of the workspace is on the host that it is bound to. -/
def Settled (workspaceID : String) (s : Store) : Prop :=
  ∀ host, s.leases.holder host = some workspaceID → s.state.uses workspaceID = some host

/-- The same but for one lease, which is taken and not bound yet. -/
def Owing (owner host workspaceID : String) (s : Store) : Prop :=
  ∀ leased, s.leases.holder leased = some workspaceID →
    s.state.uses workspaceID = some leased ∨ workspaceID = owner ∧ leased = host

/-- The workspace leases this host at most. -/
def LeasesOnly (workspaceID host : String) (s : Store) : Prop :=
  ∀ leased ∈ s.leases.keys, s.leases.holder leased = some workspaceID → leased = host

/-- No operation strands a lease: a binding is stored or given up only if its workspace has
    leased no other host, one that failed is given up with the state file written, and a bound
    workspace that asks for its host by name is given that. -/
def Tidy (config : ResolvedPluginConfig) (env : Env) (s : Store) : Op → Prop
  | .stateSet binding => LeasesOnly binding.workspaceID binding.host s
  | .drop host workspaceID => LeasesOnly workspaceID host s
  | .stateDelete _ => env.save = .ok ()
  | .acquireResolved request workspaceID => ∀ bound ∈ s.state.uses workspaceID, request.host = some bound →
      ∀ picked ∈ ProviderRegistry.pick s.leases config.defaults.leaseMode workspaceID
        (ProviderRegistry.offered config request), picked.name = bound
  | _ => True

instance (workspaceID host : String) (s : Store) : Decidable (LeasesOnly workspaceID host s) :=
  inferInstanceAs (Decidable (∀ _ ∈ s.leases.keys, _))

instance (config : ResolvedPluginConfig) (env : Env) (s : Store) : (o : Op) → Decidable (Tidy config env s o)
  | .stateSet binding => inferInstanceAs (Decidable (LeasesOnly binding.workspaceID binding.host s))
  | .drop host workspaceID => inferInstanceAs (Decidable (LeasesOnly workspaceID host s))
  | .stateDelete _ => inferInstanceAs (Decidable (env.save = .ok ()))
  | .acquireResolved _ _ => inferInstanceAs (Decidable (∀ _ ∈ _, _))
  | .remote _ | .release _ _ | .stateReplace _ | .stateGet _ | .stateList => inferInstanceAs (Decidable True)

theorem mem_keys_of_holder {leases : LeaseManager} {host workspaceID : String}
    (held : leases.holder host = some workspaceID) : host ∈ leases.keys := by
  obtain ⟨lease, found, -⟩ := Option.map_eq_some_iff.mp held
  exact List.mem_map_of_mem (OrderedMap.mem_entries.mpr found)

theorem LeasesOnly.eq {workspaceID host leased : String} {s : Store} (only : LeasesOnly workspaceID host s)
    (held : s.leases.holder leased = some workspaceID) : leased = host :=
  only leased (mem_keys_of_holder held) held

theorem Settled.owing {workspaceID : String} {s : Store} (settled : Settled workspaceID s) (owner host : String) :
    Owing owner host workspaceID s :=
  fun leased held => .inl (settled leased held)

theorem settled_empty (workspaceID : String) : Settled workspaceID .empty := by
  intro host held
  cases held

/-! ## Triples -/

namespace Async

variable {config : ResolvedPluginConfig} {α β : Type}

/-- A run of tidy operations from `pre` returns as `returned` says, or throws as `thrown` says. -/
def Holds (config : ResolvedPluginConfig) (pre : Store → Prop) (f : Async α) (returned : α → Store → Prop)
    (thrown : Store → Prop) : Prop :=
  f.run.Ensures (exec config) (Tidy config) pre fun
    | .ok a => returned a
    | .error _ => thrown

variable {pre thrown : Store → Prop} {returned : α → Store → Prop}

theorem holds_pure (a : α) : Holds config pre (pure a) (fun _ => pre) thrown :=
  fun _ _ holds _ => holds

/-- What is given from the start, a value or an exception, touches nothing. -/
theorem holds_given (outcome : Except String α) :
    Holds config pre (ExceptT.mk (pure outcome)) (fun _ => pre) pre := by
  cases outcome <;> exact fun _ _ post _ => post

theorem holds_throw (e : String) : Holds config thrown (throw e : Async α) returned thrown :=
  fun _ _ holds _ => holds

theorem Holds.bind {f : Async α} {g : α → Async β} {m : α → Store → Prop}
    {returned : β → Store → Prop} (first : Holds config pre f m thrown)
    (next : ∀ a, Holds config (m a) (g a) returned thrown) :
    Holds config pre (f >>= g) returned thrown := by
  refine Program.Ensures.bind first fun outcome => ?_
  cases outcome with
  | ok a => exact next a
  | error e => exact fun _ _ post _ => post

theorem Holds.tryCatch {f : Async α} {handler : String → Async α} {m : Store → Prop}
    (first : Holds config pre f returned m) (handled : ∀ e, Holds config m (handler e) returned thrown) :
    Holds config pre (tryCatch f handler) returned thrown := by
  rw [Holds, run_tryCatch]
  refine Program.Ensures.bind first fun outcome => ?_
  cases outcome with
  | ok a => exact fun _ _ post _ => post
  | error e => exact handled e

theorem Holds.mono {f : Async α} {p p' thrown' : Store → Prop} {returned' : α → Store → Prop}
    (holds : Holds config p f returned thrown) (stronger : ∀ s, p' s → p s)
    (weaker : ∀ a s, returned a s → returned' a s) (weaker' : ∀ s, thrown s → thrown' s) :
    Holds config p' f returned' thrown' := by
  refine Program.Ensures.mono holds stronger fun outcome s post => ?_
  cases outcome with
  | ok a => exact weaker a s post
  | error e => exact weaker' s post

theorem Holds.of_pure {p : Prop} {f : Async α} (holds : p → Holds config pre f returned thrown) :
    Holds config (fun s => p ∧ pre s) f returned thrown :=
  Program.ensures_of_pure holds

theorem Holds.await {f : Async α} (holds : Holds config pre f returned thrown) :
    Holds config pre (await f) returned thrown :=
  Program.Ensures.bind holds fun _ _ _ post _ => post

theorem Holds.outcome {f : Async α} (holds : Holds config pre f returned thrown) (impossible : Store → Prop) :
    Holds config pre (outcome f) (fun | .ok a => returned a | .error _ => thrown) impossible :=
  Program.Ensures.bind holds fun _ _ _ post _ => post

/-- A function that only talks to the outside leaves the tables alone. -/
theorem holds_outside {f : Remote α} {post : α → Prop} (yields : f.Yields post) (pre : Store → Prop) :
    Holds config pre (outside f) (fun a s => post a ∧ pre s) pre := by
  intro env s holds _
  obtain ⟨result, env', ran, post⟩ := alone_outside config yields env s
  rw [alone] at ran
  rw [ran]
  cases result with
  | ok a => exact ⟨post, holds⟩
  | error e => exact holds

theorem holds_remote {f : Remote α} {post : α → Prop} (yields : f.Yields post) (pre : Store → Prop) :
    Holds config pre (remote f) (fun a s => post a ∧ pre s) pre :=
  holds_outside yields.await pre

theorem holds_silent (f : Remote α) (pre : Store → Prop) :
    Holds config pre (outside f) (fun _ => pre) pre := by
  have yields : f.Yields fun _ => True :=
    Program.returns_of_forall (fun outcome => by cases outcome <;> trivial) f.run
  exact (holds_outside yields pre).mono (fun _ => id) (fun _ _ => And.right) (fun _ => id)

theorem holds_remote_silent (f : Remote α) (pre : Store → Prop) :
    Holds config pre (remote f) (fun _ => pre) pre := holds_silent (Remote.await f) pre

theorem holds_trivial (f : Async α) : Holds config pre f (fun _ _ => True) fun _ => True := by
  intro env s _ _
  cases (f.run.run (exec config) env s).1 <;> trivial

theorem holds_now (pre : Store → Prop) : Holds config pre now (fun _ => pre) thrown :=
  fun _ _ holds _ => holds

theorem holds_getBinding (workspaceID : String) (pre : Store → Prop) : Holds config pre (getBinding workspaceID)
    (fun found s => s.state.get workspaceID = found ∧ pre s) thrown :=
  fun _ _ holds _ => ⟨rfl, holds⟩

theorem holds_listBindings (pre : Store → Prop) : Holds config pre listBindings
    (fun all s => s.state.list = all ∧ pre s) thrown :=
  fun _ _ holds _ => ⟨rfl, holds⟩

/-! ## Operations -/

section Operations

open ProviderRegistry

variable {workspaceID : String}

/-- An acquisition makes its workspace owe the host it is given. -/
theorem holds_acquireResolved (request : HostSelectionRequest) (owner : String)
    (K : (String → Option String) → Prop) :
    Holds config (fun s => K s.state.uses ∧ ∀ leased, s.leases.holder leased = some workspaceID →
        s.state.uses workspaceID = some leased ∨ workspaceID = owner ∧
          ∃ picked, pick s.leases config.defaults.leaseMode owner (offered config request) = some picked ∧
            picked.name = leased)
      (acquireResolved request owner)
      (fun selection s => K s.state.uses ∧ Owing owner selection.host.name workspaceID s ∧
        ∀ bound, s.state.uses owner = some bound → request.host = some bound → selection.host.name = bound)
      (fun s => K s.state.uses ∧ Settled workspaceID s) := by
  rintro env s ⟨frame, covered⟩ guarded
  have tidy := guarded.1
  have ran := alone_acquireResolved config request owner env s
  rw [alone] at ran
  rw [ran]
  cases picked : pick s.leases config.defaults.leaseMode owner (offered config request) with
  | none =>
      obtain ⟨message, result⟩ :=
        acquireResolved_of_no_pick config request owner (env 0).now s.leases picked
      rw [result]
      refine ⟨frame, fun leased held => ?_⟩
      rcases covered leased held with bound | ⟨-, other, given, -⟩
      · exact bound
      · rw [picked] at given
        cases given
  | some host =>
      obtain ⟨selection, rfl, -, result⟩ :=
        acquireResolved_of_pick config request owner (env 0).now s.leases picked
      rw [result]
      refine ⟨frame, fun leased held => ?_, fun bound used named => tidy bound used named _ picked⟩
      change (grant s.leases _ owner _ selection.host.name).holder leased = some workspaceID at held
      have before : leased = selection.host.name ∧ workspaceID = owner ∨
          s.leases.holder leased = some workspaceID := by
        rw [holder_grant] at held
        split at held
        · exact .inr held
        · by_cases same : leased = selection.host.name
          · rw [same, Function.update_self] at held
            exact .inl ⟨same, (Option.some.inj held).symm⟩
          · rw [Function.update_of_ne same] at held
            exact .inr held
      rcases before with ⟨same, own⟩ | before
      · exact .inr ⟨own, same⟩
      · rcases covered leased before with bound | ⟨own, other, given, same⟩
        · exact .inl bound
        · rw [picked] at given
          cases given
          exact .inr ⟨own, same.symm⟩

/-- A release pays what is owed, and takes no account away that is settled. -/
theorem holds_release (host owner : String) (K : (String → Option String) → Prop) :
    Holds config (fun s => K s.state.uses ∧ Owing owner host workspaceID s) (release host owner)
      (fun _ s => K s.state.uses ∧ Settled workspaceID s) thrown := by
  rintro env s ⟨frame, owing⟩ -
  refine ⟨frame, fun leased after => ?_⟩
  obtain ⟨held, kept⟩ := LeaseManager.held_of_release after
  exact (owing leased held).resolve_right kept

/-- Storing a binding settles the account of its workspace. -/
theorem holds_setBinding (binding : WorkspaceBinding) :
    Holds config (fun s => workspaceID = binding.workspaceID ∨ Settled workspaceID s) (setBinding binding)
      (fun _ => Settled workspaceID) (Settled workspaceID) := by
  intro env s before guarded
  have tidy : LeasesOnly binding.workspaceID binding.host s := guarded.1
  have settled : Settled workspaceID { s with state := s.state.set binding } := by
    intro leased held
    change (s.state.set binding).uses workspaceID = some leased
    rw [RuntimeState.uses_set]
    by_cases own : workspaceID = binding.workspaceID
    · rw [own] at held ⊢
      rw [Function.update_self, tidy.eq held]
    · rw [Function.update_of_ne own]
      exact before.resolve_left own leased held
  have ran : (setBinding binding).run.run (exec config) env s =
      ((env 0).save, { s with state := s.state.set binding }, fun n => env (n + 1)) := rfl
  rw [ran]
  cases (env 0).save <;> exact settled

/-- A binding on the same host makes no difference to the accounts. -/
theorem holds_replaceBinding (binding : WorkspaceBinding) (K : (String → Option String) → Prop) :
    Holds config (fun s => K s.state.uses ∧ s.state.uses binding.workspaceID = some binding.host ∧
        Settled workspaceID s) (replaceBinding binding)
      (fun _ s => K s.state.uses ∧ Settled workspaceID s) (fun s => K s.state.uses ∧ Settled workspaceID s) := by
  rintro env s ⟨frame, bound, settled⟩ -
  have same : (s.state.replace binding).uses = s.state.uses := by
    rw [RuntimeState.replace, RuntimeState.uses_set, ← bound, Function.update_eq_self]
  have post : K (s.state.replace binding).uses ∧
      Settled workspaceID { s with state := s.state.replace binding } := by
    rw [same]
    exact ⟨frame, fun leased held => (congrFun same workspaceID).trans (settled leased held)⟩
  have ran := alone_replaceBinding config binding env s
  rw [alone] at ran
  rw [ran]
  cases (env 0).save <;> exact post

/-- A workspace whose binding is given up has no lease left. -/
theorem holds_drop (host owner : String) (K : (String → Option String) → Prop) :
    Holds config (fun s => K (Function.update s.state.uses owner none) ∧
        (workspaceID = owner ∨ Settled workspaceID s))
      (drop host owner)
      (fun _ s => (K s.state.uses ∧ Settled workspaceID s) ∧ s.state.uses owner = none)
      (fun s => K s.state.uses ∧ Settled workspaceID s) := by
  rintro env s ⟨frame, before⟩ guarded
  have tidy : LeasesOnly owner host s := guarded.1
  have settled : Settled workspaceID ⟨s.leases.release host owner, s.state.delete owner⟩ := by
    intro leased after
    obtain ⟨held, kept⟩ := LeaseManager.held_of_release after
    change (s.state.delete owner).uses workspaceID = some leased
    rw [RuntimeState.uses_delete]
    by_cases own : workspaceID = owner
    · exact absurd ⟨own, tidy.eq (own ▸ held)⟩ kept
    · rw [Function.update_of_ne own]
      exact before.resolve_left own leased held
  have uses : (s.state.delete owner).uses = Function.update s.state.uses owner none := RuntimeState.uses_delete ..
  have post : K (s.state.delete owner).uses ∧
      Settled workspaceID ⟨s.leases.release host owner, s.state.delete owner⟩ :=
    ⟨uses ▸ frame, settled⟩
  have ran := alone_drop config host owner env s
  rw [alone] at ran
  rw [ran]
  cases (env 0).save with
  | ok => exact ⟨post, by rw [uses, Function.update_self]⟩
  | error e => exact post

/-- A binding that is deleted leaves its lease behind. -/
theorem holds_deleteBinding (host owner : String) (K : (String → Option String) → Prop) :
    Holds config (fun s => K (Function.update s.state.uses owner none) ∧ s.state.uses owner = some host ∧
        Settled workspaceID s) (deleteBinding owner)
      (fun _ s => K s.state.uses ∧ Owing owner host workspaceID s) thrown := by
  rintro env s ⟨frame, bound, settled⟩ guarded
  have saved : (env 0).save = .ok () := guarded.1
  have uses : (s.state.delete owner).uses = Function.update s.state.uses owner none := RuntimeState.uses_delete ..
  have ran := alone_deleteBinding config owner env s
  rw [alone] at ran
  rw [ran, saved]
  refine ⟨uses ▸ frame, fun leased held => ?_⟩
  change (s.state.delete owner).uses workspaceID = some leased ∨ _
  have was := settled leased held
  rw [uses]
  by_cases own : workspaceID = owner
  · refine .inr ⟨own, ?_⟩
    rw [own, bound] at was
    exact (Option.some.inj was).symm
  · rw [Function.update_of_ne own]
    exact .inl was

end Operations

end Async

end OpencodeRemote.Plugin
