import OpencodeRemote.Plugin.Exclusivity

/-! # Looking for a reusable connection

`findReusableBinding` asks for the requested host on behalf of one binding after the other.
`Round` lists what one binding's turn can come to. A binding is dropped when its connection
cannot be recovered, and also when the requested host cannot be leased in its name, whether
it has anything to do with that host or not.
-/

namespace OpencodeRemote.Plugin

open Concurrency Data ProviderRegistry

/-- The hosts that a request for this host string can be given. -/
def requestedHosts (config : ResolvedPluginConfig) (providerName host : String) : List HostConfig :=
  offered config ⟨providerName, some host, none⟩

/-- The bindings that the loop does not skip. -/
def Considered (providerName : String) (binding : WorkspaceBinding) : Prop :=
  binding.status ≠ .removed ∧ binding.provider = providerName

instance (providerName : String) (binding : WorkspaceBinding) :
    Decidable (Considered providerName binding) := inferInstanceAs (Decidable (_ ∧ _))

/-- The binding is on a host that the request designates. -/
def Designated (config : ResolvedPluginConfig) (providerName host : String)
    (binding : WorkspaceBinding) : Prop :=
  binding.provider = providerName ∧
    binding.host ∈ (requestedHosts config providerName host).map HostConfig.name

instance (config : ResolvedPluginConfig) (providerName host : String) (binding : WorkspaceBinding) :
    Decidable (Designated config providerName host binding) := inferInstanceAs (Decidable (_ ∧ _))

/-- The bindings on other hosts are as before, and so are their leases. -/
def Spares (config : ResolvedPluginConfig) (providerName host : String) (s s' : Store) : Prop :=
  ∀ binding ∈ s.state.list, ¬Designated config providerName host binding →
    s'.state.get binding.workspaceID = some binding ∧
      s'.leases.holder binding.host = some binding.workspaceID

/-- The workspace of the binding has leased the host, and the host is free once the loop
    has passed the binding by. An empty workspace id gives up the binding's own host only. -/
def GivesUp (leases : LeaseManager) (binding : WorkspaceBinding) (host : String) : Prop :=
  leases.holder host = some binding.workspaceID ∧ (binding.workspaceID ≠ "" ∨ binding.host = host)

instance (leases : LeaseManager) (binding : WorkspaceBinding) (host : String) :
    Decidable (GivesUp leases binding host) := inferInstanceAs (Decidable (_ ∧ _))

/-- One of the hosts can be had for the binding once the loop has come to it. -/
def Attainable (leases : LeaseManager) (hosts : List HostConfig) (providerName : String)
    (before : List WorkspaceBinding) (binding : WorkspaceBinding) : Prop :=
  ∃ host ∈ hosts, leases.holder host.name = none ∨
    (binding.workspaceID ≠ "" ∧ leases.holder host.name = some binding.workspaceID) ∨
    ∃ earlier ∈ before, Considered providerName earlier ∧ GivesUp leases earlier host.name

instance (leases : LeaseManager) (hosts : List HostConfig) (providerName : String)
    (before : List WorkspaceBinding) (binding : WorkspaceBinding) :
    Decidable (Attainable leases hosts providerName before binding) :=
  inferInstanceAs (Decidable (∃ host ∈ hosts, _))

/-- The bindings of the provider that the request does not designate can all be passed by. -/
def Passable (config : ResolvedPluginConfig) (providerName host : String) (leases : LeaseManager)
    (before : List WorkspaceBinding) : List WorkspaceBinding → Prop
  | [] => True
  | binding :: rest =>
      (Considered providerName binding → ¬Designated config providerName host binding →
        Attainable leases (requestedHosts config providerName host) providerName before binding) ∧
      Passable config providerName host leases (before ++ [binding]) rest

instance decidablePassable (config : ResolvedPluginConfig) (providerName host : String)
    (leases : LeaseManager) : (before rest : List WorkspaceBinding) →
    Decidable (Passable config providerName host leases before rest)
  | _, [] => inferInstanceAs (Decidable True)
  | before, binding :: rest =>
      have := decidablePassable config providerName host leases (before ++ [binding]) rest
      inferInstanceAs (Decidable (_ ∧ _))

/-! ## One binding's turn -/

/-- The tables after a workspace has got a host. -/
def Store.granted (t : Store) (config : ResolvedPluginConfig) (binding : WorkspaceBinding) (now : Nat)
    (host : String) : Store :=
  { t with leases := grant t.leases config.defaults.leaseMode binding.workspaceID now host }

def Store.dropped (t : Store) (binding : WorkspaceBinding) : Store :=
  ⟨t.leases.release binding.host binding.workspaceID, t.state.delete binding.workspaceID⟩

/-- What a binding's turn can come to: the request is refused, it is given another host, it
    is given the binding's own host and the connection is recovered or not. A turn that
    drops the binding ends like writing the state file does. -/
inductive Round (config : ResolvedPluginConfig) (hosts : List HostConfig)
    (binding : WorkspaceBinding) (t : Store) :
    Except String (Option WorkspaceBinding) → Store → Prop where
  | refused (save : Except String Unit)
      (unavailable : pick t.leases config.defaults.leaseMode binding.workspaceID hosts = none) :
      Round config hosts binding t (save.map fun _ => none) (t.dropped binding)
  | elsewhere (now : Nat) (host : HostConfig)
      (picked : pick t.leases config.defaults.leaseMode binding.workspaceID hosts = some host)
      (other : host.name ≠ binding.host) :
      Round config hosts binding t (.ok none)
        { t.granted config binding now host.name with
          leases := (t.granted config binding now host.name).leases.release host.name
            binding.workspaceID }
  | recovered (now : Nat) (host : HostConfig) (reusable : WorkspaceBinding)
      (picked : pick t.leases config.defaults.leaseMode binding.workspaceID hosts = some host)
      (own : host.name = binding.host) (same : reusable.workspaceID = binding.workspaceID) :
      Round config hosts binding t (.ok (some reusable))
        { t.granted config binding now host.name with state := t.state.replace reusable }
  | lost (now : Nat) (host : HostConfig) (state : RuntimeState) (save : Except String Unit)
      (picked : pick t.leases config.defaults.leaseMode binding.workspaceID hosts = some host)
      (own : host.name = binding.host)
      (others : ∀ workspaceID, workspaceID ≠ binding.workspaceID →
        state.get workspaceID = t.state.get workspaceID) :
      Round config hosts binding t (save.map fun _ => none)
        ({ t.granted config binding now host.name with state }.dropped binding)

variable (manager : SSHManager) (providerName host : String)

private theorem alone_handler (config : ResolvedPluginConfig) (binding : WorkspaceBinding)
    (env : Nat → Env) (t : Store) :
    ∃ env', Async.alone config (do
      Async.drop binding.host binding.workspaceID
      pure none : Async (Option WorkspaceBinding)) env t =
        ((env 0).save.map fun _ => none, t.dropped binding, env') := by
  rw [Async.alone_bind, Async.alone_drop]
  cases (env 0).save <;> exact ⟨_, rfl⟩

/-- Recovering the connection writes the binding itself at most, and only success returns. -/
private theorem alone_recovery (binding : WorkspaceBinding) (selection : ResolvedHost)
    (env : Nat → Env) (t : Store) :
    ∃ outcome state env', Async.alone manager.config (do
        let recovered ← Async.remote (manager.ensureRecoveredBinding binding selection)
        let reusable ← Async.outside (ensureSession recovered)
        Async.replaceBinding reusable
        pure (some reusable) : Async (Option WorkspaceBinding)) env t = (outcome, { t with state }, env') ∧
      (∀ workspaceID, workspaceID ≠ binding.workspaceID →
        state.get workspaceID = t.state.get workspaceID) ∧
      ∀ found, outcome = .ok found → ∃ reusable : WorkspaceBinding, found = some reusable ∧
        reusable.workspaceID = binding.workspaceID ∧ state = t.state.replace reusable := by
  rw [Async.alone_bind]
  obtain ⟨recovery, env₁, ran, yielding⟩ := Async.alone_remote manager.config
    (manager.ensureRecoveredBinding_yields binding selection) env t
  rw [ran]
  cases recovery with
  | error e => exact ⟨_, t.state, _, rfl, fun _ _ => rfl, by simp⟩
  | ok recovered =>
      obtain ⟨localPort, tunnelPID, status, rfl, -⟩ := yielding
      simp only [Async.alone_bind]
      obtain ⟨session, env₂, ran, yielding⟩ := Async.alone_outside manager.config
        (ensureSession_yields { binding with localPort, tunnelPID, status }) env₁ t
      rw [ran]
      cases session with
      | error e => exact ⟨_, t.state, _, rfl, fun _ _ => rfl, by simp⟩
      | ok reusable =>
          obtain ⟨sessionID, rfl⟩ := yielding
          simp only [Async.alone_replaceBinding]
          have others : ∀ workspaceID, workspaceID ≠ binding.workspaceID →
              (t.state.replace { binding with localPort, tunnelPID, status, sessionID }).get workspaceID =
                t.state.get workspaceID := by
            intro workspaceID different
            simp [RuntimeState.replace, RuntimeState.get_set, different]
          cases (env₂ 0).save with
          | error e => exact ⟨_, _, _, rfl, others, by simp⟩
          | ok _ =>
              refine ⟨_, _, _, rfl, others, fun found returned => ?_⟩
              cases returned
              exact ⟨_, rfl, rfl, rfl⟩

theorem round (host : Option String) (binding : WorkspaceBinding) (env : Nat → Env) (t : Store) :
    Round manager.config (requestedHosts manager.config providerName (host.getD binding.host)) binding t
      (Async.alone manager.config (reuseOrDrop manager providerName host binding) env t).1
      (Async.alone manager.config (reuseOrDrop manager providerName host binding) env t).2.1 := by
  unfold reuseOrDrop reuseBinding
  rw [Async.alone_tryCatch, Async.alone_bind, Async.alone_acquireResolved]
  cases picked : pick t.leases manager.config.defaults.leaseMode binding.workspaceID
      (requestedHosts manager.config providerName (host.getD binding.host)) with
  | none =>
      obtain ⟨message, result⟩ := acquireResolved_of_no_pick manager.config _ binding.workspaceID
        (env 0).now t.leases picked
      obtain ⟨_, dropped⟩ := alone_handler manager.config binding (fun n => env (n + 1)) t
      simp only [result, dropped]
      exact .refused _ picked
  | some taken =>
      obtain ⟨selection, rfl, -, result⟩ := acquireResolved_of_pick manager.config _ binding.workspaceID
        (env 0).now t.leases picked
      simp only [result]
      by_cases other : selection.host.name ≠ binding.host
      · rw [if_pos other]
        exact .elsewhere (env 0).now selection.host picked other
      · rw [if_neg other]
        obtain ⟨outcome, state, env', ran, others, success⟩ := alone_recovery manager binding selection
          (fun n => env (n + 1)) (t.granted manager.config binding (env 0).now selection.host.name)
        change Async.alone _ _ _ ⟨grant .., t.state⟩ = _ at ran
        rw [ran]
        cases outcome with
        | ok found =>
            obtain ⟨reusable, rfl, same, rfl⟩ := success found rfl
            exact .recovered _ selection.host reusable picked (not_not.mp other) same
        | error e =>
            obtain ⟨_, dropped⟩ := alone_handler manager.config binding env'
              { t.granted manager.config binding (env 0).now selection.host.name with state }
            simp only [dropped]
            exact .lost _ selection.host state _ picked (not_not.mp other) others

/-! ## What a turn does to the tables -/

section Turn

variable {config : ResolvedPluginConfig} {hosts : List HostConfig} {binding : WorkspaceBinding}
  {t t' : Store} {outcome : Except String (Option WorkspaceBinding)}

theorem Round.others (turn : Round config hosts binding t outcome t') {workspaceID : String}
    (different : workspaceID ≠ binding.workspaceID) :
    t'.state.get workspaceID = t.state.get workspaceID := by
  cases turn with
  | refused save unavailable => simp [Store.dropped, RuntimeState.get_delete, different]
  | elsewhere now host picked other => rfl
  | recovered now host reusable picked own same =>
      simp [RuntimeState.replace, RuntimeState.get_set, same, different]
  | lost now host state save picked own others =>
      simp [Store.dropped, RuntimeState.get_delete, different, others]

theorem holder_dropped (held : t.leases.holder binding.host = some binding.workspaceID) :
    (t.dropped binding).leases.holder = Function.update t.leases.holder binding.host none := by
  rw [Store.dropped, LeaseManager.holder_release, if_pos held]

/-- A binding that holds its host's lease gets nothing new by asking for it. -/
theorem granted_own (held : t.leases.holder binding.host = some binding.workspaceID) (now : Nat)
    {host : String} (own : host = binding.host) : t.granted config binding now host = t := by
  simp only [Store.granted, grant, own, held, or_true, if_true]

theorem holder_returned {host : String} (now : Nat) (ours : t.leases.holder host = none ∨
      binding.workspaceID ≠ "" ∧ t.leases.holder host = some binding.workspaceID) :
    LeaseManager.holder ((t.granted config binding now host).leases.release host binding.workspaceID) =
      Function.update t.leases.holder host none := by
  rw [LeaseManager.holder_release, Store.granted, holder_grant]
  by_cases nameless : binding.workspaceID = ""
  · have free := ours.resolve_right fun held => held.1 nameless
    simp only [nameless, if_true, free, reduceCtorEq, if_false]
    rw [← free, Function.update_eq_self]
  · simp [nameless]

/-- A turn takes nothing from anybody but the binding whose turn it is. -/
theorem Round.holder (mode : config.defaults.leaseMode = .exclusive)
    (held : t.leases.holder binding.host = some binding.workspaceID)
    (turn : Round config hosts binding t outcome t') (host : String) :
    t'.leases.holder host = t.leases.holder host ∨
      t.leases.holder host = some binding.workspaceID ∧ t'.leases.holder host = none := by
  have own_host : Function.update t.leases.holder binding.host none host = t.leases.holder host ∨
      t.leases.holder host = some binding.workspaceID ∧
        Function.update t.leases.holder binding.host none host = none := by
    by_cases same : host = binding.host
    · subst same
      exact .inr ⟨held, Function.update_self ..⟩
    · exact .inl (Function.update_of_ne same ..)
  cases turn with
  | refused save unavailable => rwa [holder_dropped held]
  | elsewhere now taken picked other =>
      rw [mode] at picked
      have ours := (pick_some picked).2
      dsimp only
      rw [holder_returned now ours]
      by_cases same : host = taken.name
      · subst same
        cases ours with
        | inl free => exact .inl (by rw [Function.update_self, free])
        | inr leased => exact .inr ⟨leased.2, Function.update_self ..⟩
      · exact .inl (Function.update_of_ne same ..)
  | recovered now taken reusable picked own same => exact .inl (by rw [granted_own held now own])
  | lost now taken state save picked own others =>
      rw [granted_own held now own, holder_dropped (t := { t with state }) held]
      exact own_host

/-- A binding which the request does not designate, but which can have one of the hosts,
    is passed by. -/
theorem Round.passes (mode : config.defaults.leaseMode = .exclusive)
    (turn : Round config hosts binding t outcome t')
    (elsewhere : binding.host ∉ hosts.map HostConfig.name)
    (available : pick t.leases .exclusive binding.workspaceID hosts ≠ none) :
    t'.state = t.state ∧ t'.leases.holder binding.host = t.leases.holder binding.host := by
  cases turn with
  | refused save unavailable => exact absurd (mode ▸ unavailable) available
  | elsewhere now taken picked other =>
      rw [mode] at picked
      refine ⟨rfl, ?_⟩
      dsimp only
      rw [holder_returned now (pick_some picked).2]
      exact Function.update_of_ne (Ne.symm other) ..
  | recovered now taken reusable picked own same =>
      exact absurd (List.mem_map.mpr ⟨taken, (pick_some (mode ▸ picked)).1, own⟩) elsewhere
  | lost now taken state save picked own others =>
      exact absurd (List.mem_map.mpr ⟨taken, (pick_some (mode ▸ picked)).1, own⟩) elsewhere

/-- If the binding gives up one of the hosts, one of them is free for the next. -/
theorem Round.frees (mode : config.defaults.leaseMode = .exclusive)
    (held : t.leases.holder binding.host = some binding.workspaceID)
    (turn : Round config hosts binding t (.ok none) t') {host : HostConfig} (member : host ∈ hosts)
    (given : t.leases.holder host.name = none ∨ GivesUp t.leases binding host.name) :
    ∃ free ∈ hosts, t'.leases.holder free.name = none := by
  generalize same : (.ok none : Except String (Option WorkspaceBinding)) = outcome at turn
  cases turn with
  | refused save unavailable =>
      have taken := pick_eq_none.mp (mode ▸ unavailable) host member
      have gives := given.resolve_left taken.1
      have own := gives.2.resolve_left fun named => taken.2 named gives.1
      refine ⟨host, member, ?_⟩
      rw [holder_dropped held, ← own, Function.update_self]
  | elsewhere now taken picked other =>
      rw [mode] at picked
      refine ⟨taken, (pick_some picked).1, ?_⟩
      dsimp only
      rw [holder_returned now (pick_some picked).2, Function.update_self]
  | recovered now taken reusable picked own id => cases same
  | lost now taken state save picked own others =>
      refine ⟨taken, (pick_some (mode ▸ picked)).1, ?_⟩
      rw [granted_own held now own, holder_dropped (t := { t with state }) held, own, Function.update_self]

end Turn

/-! ## The loop -/

/-- Where the loop stands: `s` were the tables when it started, `t` are they now, and the
    bindings in `before` have had their turn. -/
structure Underway (config : ResolvedPluginConfig) (providerName host : String) (s : Store)
    (before rest : List WorkspaceBinding) (t : Store) : Prop where
  listed : ∀ binding ∈ rest, binding ∈ s.state.list
  distinct : (rest.map WorkspaceBinding.workspaceID).Nodup
  waiting : ∀ binding ∈ rest, t.leases.holder binding.host = some binding.workspaceID
  released : ∀ host, t.leases.holder host = s.leases.holder host ∨ t.leases.holder host = none
  spared : Spares config providerName host s t
  freed : ∀ candidate ∈ requestedHosts config providerName host,
    (s.leases.holder candidate.name = none ∨
      ∃ earlier ∈ before, Considered providerName earlier ∧ GivesUp s.leases earlier candidate.name) →
    ∃ free ∈ requestedHosts config providerName host, t.leases.holder free.name = none

section Loop

variable {manager providerName host} {s t t' : Store} {before rest : List WorkspaceBinding}
  {binding : WorkspaceBinding} {outcome : Except String (Option WorkspaceBinding)}

/-- A binding that can have one of the hosts is not refused. -/
theorem Underway.available {config : ResolvedPluginConfig}
    (underway : Underway config providerName host s before (binding :: rest) t)
    (attainable : Attainable s.leases (requestedHosts config providerName host) providerName before binding) :
    pick t.leases .exclusive binding.workspaceID (requestedHosts config providerName host) ≠ none := by
  intro none
  have taken := pick_eq_none.mp none
  obtain ⟨candidate, member, reason⟩ := attainable
  have not_freed : ¬∃ free ∈ requestedHosts config providerName host, t.leases.holder free.name = Option.none := by
    rintro ⟨free, member, unleased⟩
    exact (taken free member).1 unleased
  cases reason with
  | inl unleased => exact not_freed (underway.freed candidate member (.inl unleased))
  | inr reason =>
      cases reason with
      | inl own =>
          cases underway.released candidate.name with
          | inl same => exact (taken candidate member).2 own.1 (same.trans own.2)
          | inr unleased => exact (taken candidate member).1 unleased
      | inr given => exact not_freed (underway.freed candidate member (.inr given))

theorem Underway.spares {config : ResolvedPluginConfig} (mode : config.defaults.leaseMode = .exclusive)
    (underway : Underway config providerName host s before (binding :: rest) t)
    (considered : Considered providerName binding)
    (passable : ¬Designated config providerName host binding →
      Attainable s.leases (requestedHosts config providerName host) providerName before binding)
    (turn : Round config (requestedHosts config providerName host) binding t outcome t') :
    Spares config providerName host s t' := by
  intro other member undesignated
  obtain ⟨stored, held⟩ := underway.spared other member undesignated
  by_cases same : other.workspaceID = binding.workspaceID
  · have listed := RuntimeState.mem_list.mp (underway.listed binding (List.mem_cons_self ..))
    rw [← same, RuntimeState.mem_list.mp member, Option.some.injEq] at listed
    subst listed
    have elsewhere : other.host ∉ (requestedHosts config providerName host).map HostConfig.name :=
      fun on => undesignated ⟨considered.2, on⟩
    obtain ⟨state, lease⟩ := turn.passes mode elsewhere (underway.available (passable undesignated))
    rw [state, lease]
    exact ⟨stored, held⟩
  · refine ⟨(turn.others same).trans stored, ?_⟩
    cases turn.holder mode (underway.waiting binding (List.mem_cons_self ..)) other.host with
    | inl kept => exact kept.trans held
    | inr lost => exact absurd (Option.some.inj (held.symm.trans lost.1)) same

theorem Underway.next {config : ResolvedPluginConfig} (mode : config.defaults.leaseMode = .exclusive)
    (underway : Underway config providerName host s before (binding :: rest) t)
    (spared : Spares config providerName host s t')
    (turn : Round config (requestedHosts config providerName host) binding t (.ok none) t') :
    Underway config providerName host s (before ++ [binding]) rest t' := by
  have held := underway.waiting binding (List.mem_cons_self ..)
  obtain ⟨absent, distinct⟩ := List.nodup_cons.mp underway.distinct
  refine ⟨fun other member => underway.listed other (List.mem_cons_of_mem _ member), distinct,
    fun other member => ?_, fun host => ?_, spared, fun candidate member reason => ?_⟩
  · have waiting := underway.waiting other (List.mem_cons_of_mem _ member)
    cases turn.holder mode held other.host with
    | inl kept => exact kept.trans waiting
    | inr lost =>
        have same := Option.some.inj (waiting.symm.trans lost.1)
        exact absurd (List.mem_map.mpr ⟨other, member, same⟩) absent
  · cases turn.holder mode held host with
    | inl kept => exact kept ▸ underway.released host
    | inr lost => exact .inr lost.2
  · have persists : (∃ free ∈ requestedHosts config providerName host, t.leases.holder free.name = none) →
        ∃ free ∈ requestedHosts config providerName host, t'.leases.holder free.name = none := by
      rintro ⟨free, listed, unleased⟩
      exact turn.frees mode held listed (.inl unleased)
    cases reason with
    | inl unleased => exact persists (underway.freed candidate member (.inl unleased))
    | inr given =>
        obtain ⟨earlier, past, considered, gives⟩ := given
        cases List.mem_append.mp past with
        | inl older => exact persists (underway.freed candidate member (.inr ⟨earlier, older, considered, gives⟩))
        | inr newest =>
            cases List.mem_singleton.mp newest
            cases underway.released candidate.name with
            | inl same => exact turn.frees mode held member (.inr ⟨same.trans gives.1, gives.2⟩)
            | inr unleased => exact persists ⟨candidate, member, unleased⟩

/-- The loop at a binding that it does not skip: a turn, and the rest if nothing came of it. -/
private theorem loop_turn (considered : Considered providerName binding) (env : Nat → Env) (t : Store) :
    ∃ outcome t' env', Round manager.config (requestedHosts manager.config providerName host) binding t
        outcome t' ∧
      Async.alone manager.config (findReusableBindingLoop manager providerName (some host) (binding :: rest))
          env t = match outcome with
        | .error e => (.error e, t', env')
        | .ok (some reusable) => (.ok (some reusable), t', env')
        | .ok none => Async.alone manager.config
            (findReusableBindingLoop manager providerName (some host) rest) env' t' := by
  have turn := round manager providerName (some host) binding env t
  rw [findReusableBindingLoop, if_neg (by simp [considered.1, considered.2]), Async.alone_bind]
  generalize Async.alone manager.config (reuseOrDrop manager providerName (some host) binding) env t =
    result at turn ⊢
  obtain ⟨outcome, t', env'⟩ := result
  refine ⟨outcome, t', env', turn, ?_⟩
  match outcome with
  | .error e => rfl
  | .ok (some reusable) => rfl
  | .ok none => rfl

/-- The loop at a binding that it skips. -/
private theorem loop_skip (skipped : ¬Considered providerName binding) :
    findReusableBindingLoop manager providerName (some host) (binding :: rest) =
      findReusableBindingLoop manager providerName (some host) rest := by
  rw [findReusableBindingLoop, if_pos]
  simpa [Considered, or_iff_not_imp_left] using skipped

theorem spares_of_passable (mode : manager.config.defaults.leaseMode = .exclusive)
    (underway : Underway manager.config providerName host s before rest t)
    (passable : Passable manager.config providerName host s.leases before rest) (env : Nat → Env) :
    Spares manager.config providerName host s (Async.alone manager.config
      (findReusableBindingLoop manager providerName (some host) rest) env t).2.1 := by
  induction rest generalizing before t env with
  | nil => exact underway.spared
  | cons binding rest ih =>
      obtain ⟨here, later⟩ := passable
      by_cases considered : Considered providerName binding
      · obtain ⟨outcome, t', env', turn, ran⟩ := @loop_turn manager providerName host rest binding considered env t
        rw [ran]
        have spared := underway.spares mode considered (here considered) turn
        match outcome with
        | .error e => exact spared
        | .ok (some reusable) => exact spared
        | .ok none => exact ih (underway.next mode spared turn) later env'
      · rw [loop_skip considered]
        apply ih _ later
        refine ⟨fun other member => underway.listed other (List.mem_cons_of_mem _ member),
          (List.nodup_cons.mp underway.distinct).2,
          fun other member => underway.waiting other (List.mem_cons_of_mem _ member), underway.released,
          underway.spared, fun candidate member reason => underway.freed candidate member ?_⟩
        refine reason.imp_right fun ⟨earlier, past, reached, gives⟩ => ?_
        cases List.mem_append.mp past with
        | inl older => exact ⟨earlier, older, reached, gives⟩
        | inr newest =>
            cases List.mem_singleton.mp newest
            exact absurd reached considered

/-- The loop leaves bindings alone that are not on its list. -/
theorem loop_others {host : Option String} {workspaceID : String}
    (absent : workspaceID ∉ rest.map WorkspaceBinding.workspaceID) (env : Nat → Env) :
    (Async.alone manager.config (findReusableBindingLoop manager providerName host rest) env
      t).2.1.state.get workspaceID = t.state.get workspaceID := by
  induction rest generalizing t env with
  | nil => rfl
  | cons binding rest ih =>
      simp only [List.map_cons, List.mem_cons, not_or] at absent
      obtain ⟨different, later⟩ := absent
      unfold findReusableBindingLoop
      split
      · exact ih later env
      · have turn := round manager providerName host binding env t
        rw [Async.alone_bind]
        generalize Async.alone manager.config (reuseOrDrop manager providerName host binding) env t =
          result at turn ⊢
        obtain ⟨outcome, t', env'⟩ := result
        have same := turn.others different
        match outcome with
        | .error e => exact same
        | .ok (some reusable) => exact same
        | .ok none => exact (ih later env').trans same

/-- Where the state file can be written, a turn ends without an exception. -/
theorem reuseOrDrop_returns {e : Env} (saved : e.save = .ok ()) :
    ∃ found, (Async.alone manager.config (reuseOrDrop manager providerName (some host) binding)
      (fun _ => e) t).1 = .ok found := by
  have constant := Program.run_const (exec manager.config)
    (reuseBinding manager providerName (some host) binding).run e t
  change (Async.alone manager.config _ _ t).2.2 = _ at constant
  unfold reuseOrDrop
  rw [Async.alone_tryCatch]
  generalize Async.alone manager.config (reuseBinding manager providerName (some host) binding)
    (fun _ => e) t = result at constant ⊢
  obtain ⟨outcome, t', env'⟩ := result
  cases outcome with
  | ok found => exact ⟨found, rfl⟩
  | error message =>
      change env' = fun _ => e at constant
      subst constant
      obtain ⟨_, dropped⟩ := alone_handler manager.config binding (fun _ => e) t'
      exact ⟨none, by simp only [dropped, saved, Except.map]⟩

/-- A binding for which none of the hosts can be had is dropped, and the loop goes on. -/
theorem loop_refused (mode : manager.config.defaults.leaseMode = .exclusive) {e : Env}
    (saved : e.save = .ok ()) (considered : Considered providerName binding)
    (taken : ∀ candidate ∈ requestedHosts manager.config providerName host,
      t.leases.holder candidate.name ≠ none ∧
        (binding.workspaceID ≠ "" → t.leases.holder candidate.name ≠ some binding.workspaceID)) :
    Async.alone manager.config (findReusableBindingLoop manager providerName (some host) (binding :: rest))
        (fun _ => e) t =
      Async.alone manager.config (findReusableBindingLoop manager providerName (some host) rest)
        (fun _ => e) (t.dropped binding) := by
  have unavailable := pick_eq_none.mpr taken
  have turn := round manager providerName (some host) binding (fun _ => e) t
  rw [Option.getD_some] at turn
  obtain ⟨found, returned⟩ := @reuseOrDrop_returns manager providerName host t binding e saved
  have constant := Program.run_const (exec manager.config)
    (reuseOrDrop manager providerName (some host) binding).run e t
  change (Async.alone manager.config _ _ t).2.2 = _ at constant
  rw [findReusableBindingLoop, if_neg (by simp [considered.1, considered.2]), Async.alone_bind]
  generalize Async.alone manager.config (reuseOrDrop manager providerName (some host) binding)
    (fun _ => e) t = result at turn returned constant ⊢
  obtain ⟨outcome, t', env'⟩ := result
  simp only at turn returned constant
  subst returned constant
  generalize same : (.ok found : Except String (Option WorkspaceBinding)) = outcome at turn
  cases turn with
  | refused save none =>
      cases save with
      | error message => cases same
      | ok _ =>
          cases same
          rfl
  | elsewhere now host picked other => rw [mode, unavailable] at picked; cases picked
  | recovered now host reusable picked own id => rw [mode, unavailable] at picked; cases picked
  | lost now host state save picked own others => rw [mode, unavailable] at picked; cases picked

/-- Bindings that give up none of the requested hosts leave these as they were. -/
theorem loop_reaches (mode : manager.config.defaults.leaseMode = .exclusive) {e : Env}
    (saved : e.save = .ok ()) (todo : List WorkspaceBinding)
    (unchanged : ∀ candidate ∈ requestedHosts manager.config providerName host,
      t.leases.holder candidate.name = s.leases.holder candidate.name)
    (leased : ∀ candidate ∈ requestedHosts manager.config providerName host,
      s.leases.holder candidate.name ≠ none)
    (keep : ∀ earlier ∈ todo, Considered providerName earlier →
      ∀ candidate ∈ requestedHosts manager.config providerName host,
        ¬GivesUp s.leases earlier candidate.name) :
    ∃ t', (∀ candidate ∈ requestedHosts manager.config providerName host,
        t'.leases.holder candidate.name = s.leases.holder candidate.name) ∧
      Async.alone manager.config (findReusableBindingLoop manager providerName (some host) (todo ++ rest))
          (fun _ => e) t =
        Async.alone manager.config (findReusableBindingLoop manager providerName (some host) rest)
          (fun _ => e) t' := by
  induction todo generalizing t with
  | nil => exact ⟨t, unchanged, rfl⟩
  | cons earlier todo ih =>
      have later := fun other member => keep other (List.mem_cons_of_mem _ member)
      by_cases considered : Considered providerName earlier
      · have keeps := keep earlier (List.mem_cons_self ..) considered
        have taken : ∀ candidate ∈ requestedHosts manager.config providerName host,
            t.leases.holder candidate.name ≠ none ∧
              (earlier.workspaceID ≠ "" → t.leases.holder candidate.name ≠ some earlier.workspaceID) := by
          intro candidate member
          rw [unchanged candidate member]
          exact ⟨leased candidate member, fun named held => keeps candidate member ⟨held, .inl named⟩⟩
        rw [List.cons_append, loop_refused mode saved considered taken]
        refine ih (fun candidate member => ?_) later
        rw [← unchanged candidate member, Store.dropped, LeaseManager.holder_release]
        split
        · rename_i held
          have different : candidate.name ≠ earlier.host := by
            intro same
            rw [← same, unchanged candidate member] at held
            exact keeps candidate member ⟨held, .inr same.symm⟩
          exact Function.update_of_ne different ..
        · rfl
      · rw [List.cons_append, loop_skip considered]
        exact ih unchanged later

end Loop

theorem exists_of_not_passable {config : ResolvedPluginConfig} {providerName host : String}
    {leases : LeaseManager} {before rest : List WorkspaceBinding}
    (stuck : ¬Passable config providerName host leases before rest) :
    ∃ earlier binding later, rest = earlier ++ binding :: later ∧ Considered providerName binding ∧
      ¬Designated config providerName host binding ∧
      ¬Attainable leases (requestedHosts config providerName host) providerName (before ++ earlier)
        binding := by
  induction rest generalizing before with
  | nil => exact absurd trivial stuck
  | cons binding rest ih =>
      by_cases here : Considered providerName binding → ¬Designated config providerName host binding →
          Attainable leases (requestedHosts config providerName host) providerName before binding
      · obtain ⟨earlier, found, later, split, blocked⟩ := ih fun passable => stuck ⟨here, passable⟩
        exact ⟨binding :: earlier, found, later, by rw [split, List.cons_append], by simpa using blocked⟩
      · simp only [not_forall] at here
        obtain ⟨considered, undesignated, blocked⟩ := here
        exact ⟨[], binding, rest, rfl, considered, undesignated, by simpa using blocked⟩

/-- With every binding on a host that its workspace has leased, looking for a connection to
    a host spares the bindings on other hosts, whatever the remote calls come to, exactly
    if all of them can be passed by. -/
theorem spares_iff_passable (manager : SSHManager)
    (mode : manager.config.defaults.leaseMode = .exclusive) (providerName host : String) (s : Store)
    (holding : ∀ binding ∈ s.state.list, s.leases.holder binding.host = some binding.workspaceID) :
    (∀ env, Spares manager.config providerName host s (Async.alone manager.config
      (findReusableBinding manager providerName (some host)) env s).2.1) ↔
      Passable manager.config providerName host s.leases [] s.state.list := by
  have start : ∀ env, Async.alone manager.config (findReusableBinding manager providerName (some host)) env s =
      Async.alone manager.config (findReusableBindingLoop manager providerName (some host) s.state.list)
        (fun n => env (n + 1)) s := fun env => rfl
  constructor
  · intro spared
    by_contra stuck
    obtain ⟨earlier, binding, later, split, considered, undesignated, blocked⟩ := exists_of_not_passable stuck
    simp only [Attainable, List.nil_append, not_exists, not_and, not_or] at blocked
    have saved : (world true true).save = .ok () := rfl
    have member : binding ∈ s.state.list := by simp [split]
    have kept := (spared (fun _ => world true true) binding member undesignated).1
    obtain ⟨t, unchanged, reached⟩ := @loop_reaches manager providerName host s s (binding :: later) mode
      _ saved earlier (fun _ _ => rfl) (fun candidate listed => (blocked candidate listed).1)
      (fun other past considered candidate listed =>
        (blocked candidate listed).2.2 other past considered)
    have taken : ∀ candidate ∈ requestedHosts manager.config providerName host,
        t.leases.holder candidate.name ≠ none ∧
          (binding.workspaceID ≠ "" → t.leases.holder candidate.name ≠ some binding.workspaceID) := by
      intro candidate listed
      rw [unchanged candidate listed]
      exact ⟨(blocked candidate listed).1, (blocked candidate listed).2.1⟩
    have distinct := s.state.list_distinct
    rw [split, List.map_append, List.map_cons] at distinct
    have absent := (List.nodup_cons.mp (List.nodup_append.mp distinct).2.1).1
    rw [start, split, reached, loop_refused mode saved considered taken, loop_others absent] at kept
    simp [Store.dropped, RuntimeState.get_delete] at kept
  · intro passable env
    rw [start]
    refine spares_of_passable mode ⟨fun _ member => member, s.state.list_distinct, holding,
      fun _ => .inl rfl, ?_, ?_⟩ passable _
    · exact fun binding member _ => ⟨RuntimeState.mem_list.mp member, holding binding member⟩
    · rintro candidate member (free | ⟨earlier, past, -⟩)
      · exact ⟨candidate, member, free⟩
      · cases past

/-- Workspace `w` on the first host and `v` on the second. -/
def twoBound : Store :=
  ⟨.set (.set .empty "web" ⟨"web", "w", .exclusive, 1⟩) "db" ⟨"db", "v", .exclusive, 2⟩,
    (RuntimeState.empty.set (boundTo "w" "web")).set (boundTo "v" "db")⟩

theorem spares_on_first_host :
    Spares labManager.config "lab" "web" twoBound (Async.alone labManager.config
      (findReusableBinding labManager "lab" (some "web")) (fun _ => world true false) twoBound).2.1 :=
  (spares_iff_passable labManager rfl "lab" "web" twoBound (by decide)).mpr (by decide)
    fun _ => world true false

/-- Asking for the second host drops the binding on the first one, though all is well with it. -/
theorem not_spares_on_second_host :
    ¬∀ (manager : SSHManager) (providerName host : String) (s : Store) (env : Nat → Env),
      manager.config.defaults.leaseMode = .exclusive →
      (∀ binding ∈ s.state.list, s.leases.holder binding.host = some binding.workspaceID) →
      Spares manager.config providerName host s (Async.alone manager.config
        (findReusableBinding manager providerName (some host)) env s).2.1 := by
  intro always_spares
  have spares := always_spares labManager "lab" "db" twoBound (fun _ => world true true) rfl (by decide)
  have kept := (spares (boundTo "w" "web") (by decide) (by decide)).1
  have dropped : (Async.alone labManager.config (findReusableBinding labManager "lab" (some "db"))
      (fun _ => world true true) twoBound).2.1.state.get "w" = none := by decide +kernel
  rw [show (boundTo "w" "web").workspaceID = "w" from rfl, dropped] at kept
  cases kept

end OpencodeRemote.Plugin
