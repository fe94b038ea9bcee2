import OpencodeRemote.Plugin.Reuse

/-! # What a status check leaves behind

Starting up gives each binding of the state file a lease on its host, and of several on one
host the last one wins. `remote-status` then asks for every binding's host in turn, and a
binding that cannot have it or cannot be connected is dropped. `Midway` says where the loop
stands after some of the bindings: the ones it has kept hold their hosts, and every lease
belongs to a binding that is still there.
-/

namespace OpencodeRemote.Plugin

open Concurrency Data ProviderRegistry

/-- A name, ssh host or alias means one host of a provider at most. -/
def Unambiguous (config : ResolvedPluginConfig) : Prop :=
  ∀ name provider, config.providers.get name = some provider →
    ∀ identifier, ∀ item ∈ provider.hosts, ∀ other ∈ provider.hosts,
      IdentifiedBy identifier item → IdentifiedBy identifier other → item = other

/-- The binding's host is known under that name, or not at all. -/
def Canonical (config : ResolvedPluginConfig) (binding : WorkspaceBinding) : Prop :=
  ∀ provider, config.providers.get binding.provider = some provider →
    (∃ item ∈ provider.hosts, item.name = binding.host) ∨
      ∀ item ∈ provider.hosts, ¬IdentifiedBy binding.host item

instance (config : ResolvedPluginConfig) (binding : WorkspaceBinding) :
    Decidable (Canonical config binding) :=
  inferInstanceAs (Decidable (∀ provider ∈ config.providers.get binding.provider, _ ∨ _))

def StatusEntry.workspaceID : StatusEntry → String
  | .recovered binding => binding.workspaceID
  | .failed workspaceID .. => workspaceID

/-- The binding of an entry that is not reported as failed. -/
def StatusEntry.kept : StatusEntry → Option WorkspaceBinding
  | .recovered binding => if binding.status = .failed then none else some binding
  | .failed .. => none

/-- What a report says about the tables after it, given what the state file held. -/
structure Converged (persisted : List WorkspaceBinding) (entries : List StatusEntry) (s : Store) :
    Prop where
  reported : s.state.list = entries.filterMap StatusEntry.kept
  apart : (s.state.list.map WorkspaceBinding.host).Nodup
  leased : ∀ binding ∈ s.state.list, s.leases.holder binding.host = some binding.workspaceID
  released : ∀ binding ∈ persisted, s.state.get binding.workspaceID = none →
    ∀ host, s.leases.holder host ≠ some binding.workspaceID
  complete : entries.map StatusEntry.workspaceID =
    (persisted.filter RuntimeState.WellFormed).map WorkspaceBinding.workspaceID

/-- A binding that the loop still has to look at. -/
structure Pending (config : ResolvedPluginConfig) (binding : WorkspaceBinding) : Prop where
  wellFormed : RuntimeState.WellFormed binding
  ready : binding.status = .ready
  canonical : Canonical config binding

/-- The loop has kept some of the bindings and has others before it. -/
structure Midway (config : ResolvedPluginConfig) (kept rest : List WorkspaceBinding) (t : Store) :
    Prop where
  listed : t.state.list = kept ++ rest
  owned : ∀ host workspaceID, t.leases.holder host = some workspaceID →
    ∃ binding ∈ kept ++ rest, binding.workspaceID = workspaceID ∧ binding.host = host
  leased : ∀ binding ∈ kept, t.leases.holder binding.host = some binding.workspaceID
  ready : ∀ binding ∈ kept, binding.status = .ready
  pending : ∀ binding ∈ rest, Pending config binding

/-! ## Starting up -/

theorem rehydrate_owned {now : Nat} {state : RuntimeState} {host workspaceID : String}
    (held : (Store.rehydrate now state).leases.holder host = some workspaceID) :
    ∃ binding ∈ state.list, binding.workspaceID = workspaceID ∧ binding.host = host := by
  simp only [Store.rehydrate] at held
  generalize state.list = bindings at held ⊢
  induction bindings using List.reverseRecOn with
  | nil => cases held
  | append_singleton earlier binding ih =>
      have older (still : LeaseManager.holder (earlier.foldl (fun leases (binding : WorkspaceBinding) =>
          if binding.status = .removed then leases
          else (leases.restore binding.host binding.workspaceID binding.leaseMode none now).2) .empty) host =
            some workspaceID) :
          ∃ other ∈ earlier ++ [binding], other.workspaceID = workspaceID ∧ other.host = host := by
        obtain ⟨other, member, same⟩ := ih still
        exact ⟨other, List.mem_append_left _ member, same⟩
      rw [List.foldl_append, List.foldl_cons, List.foldl_nil] at held
      split at held
      · exact older held
      · simp only [LeaseManager.restore, LeaseManager.holder_set] at held
        by_cases here : host = binding.host
        · subst here
          rw [Function.update_self, Option.some.injEq] at held
          exact ⟨binding, by simp, held, rfl⟩
        · exact older (by rwa [Function.update_of_ne here] at held)

theorem midway_rehydrate {config : ResolvedPluginConfig} {persisted : List WorkspaceBinding} (now : Nat)
    (distinct : (persisted.map WorkspaceBinding.workspaceID).Nodup)
    (ready : ∀ binding ∈ persisted, binding.status = .ready)
    (canonical : ∀ binding ∈ persisted, Canonical config binding) :
    Midway config [] (persisted.filter RuntimeState.WellFormed) (.rehydrate now (.load persisted)) where
  listed := RuntimeState.list_load distinct
  owned host workspaceID held := RuntimeState.list_load distinct ▸ rehydrate_owned held
  leased binding member := by cases member
  ready binding member := by cases member
  pending binding member := by
    obtain ⟨stored, wellFormed⟩ := List.mem_filter.mp member
    exact ⟨of_decide_eq_true wellFormed, ready binding stored, canonical binding stored⟩

/-! ## One binding -/

section Binding

variable {config : ResolvedPluginConfig} {kept rest : List WorkspaceBinding}
  {binding : WorkspaceBinding} {t : Store}

theorem Midway.distinct (midway : Midway config kept (binding :: rest) t) :
    ∀ other ∈ kept ++ rest, other.workspaceID ≠ binding.workspaceID := by
  have distinct := t.state.list_distinct
  rw [midway.listed, List.map_append, List.map_cons] at distinct
  obtain ⟨-, tail, apart⟩ := List.nodup_append.mp distinct
  intro other member same
  cases List.mem_append.mp member with
  | inl early => exact apart _ (List.mem_map_of_mem early) _ (List.mem_cons_self ..) same
  | inr late => exact (List.nodup_cons.mp tail).1 (List.mem_map.mpr ⟨other, late, same⟩)

/-- The host that a pending binding is given is its own. -/
theorem Pending.host_eq (pending : Pending config binding) (unambiguous : Unambiguous config)
    {host : HostConfig} (offer : host ∈ requestedHosts config binding.provider binding.host) :
    host.name = binding.host := by
  simp only [requestedHosts, offered] at offer
  cases known : config.providers.get binding.provider with
  | none => simp [known] at offer
  | some provider =>
      simp only [known, candidates, truthy_some pending.wellFormed.2.2.1, List.mem_filter,
        decide_eq_true_eq] at offer
      cases pending.canonical provider known with
      | inl canonical =>
          obtain ⟨item, member, name⟩ := canonical
          rw [unambiguous _ _ known binding.host host offer.1 item member offer.2 (.inl name), name]
      | inr unknown => exact absurd offer.2 (unknown host offer.1)

theorem Midway.granted (midway : Midway config kept (binding :: rest) t)
    (mode : config.defaults.leaseMode = .exclusive) (unambiguous : Unambiguous config) (now : Nat)
    {host : HostConfig} (picked : pick t.leases config.defaults.leaseMode binding.workspaceID
      (requestedHosts config binding.provider binding.host) = some host) :
    Midway config kept (binding :: rest) (t.granted config binding now host.name) ∧
      (t.granted config binding now host.name).leases.holder binding.host = some binding.workspaceID := by
  have pending := midway.pending binding (List.mem_cons_self ..)
  rw [mode] at picked
  obtain ⟨offer, ours⟩ := pick_some picked
  have own := pending.host_eq unambiguous offer
  have holder : (t.granted config binding now host.name).leases.holder =
      Function.update t.leases.holder binding.host (some binding.workspaceID) := by
    rw [Store.granted, holder_grant, if_neg pending.wellFormed.1, own]
  refine ⟨⟨midway.listed, fun other workspaceID held => ?_, fun other member => ?_, midway.ready,
    midway.pending⟩, by rw [holder, Function.update_self]⟩
  · rw [holder] at held
    by_cases here : other = binding.host
    · subst here
      rw [Function.update_self, Option.some.injEq] at held
      exact ⟨binding, by simp, held, rfl⟩
    · rw [Function.update_of_ne here] at held
      exact midway.owned other workspaceID held
  · -- the host was free or this binding's before, so it is not that of a binding kept
    have held := midway.leased other member
    have different : other.host ≠ binding.host := by
      intro same
      rw [own, ← same, held] at ours
      have foreign := midway.distinct other (List.mem_append_left _ member)
      simp [foreign] at ours
    rw [holder, Function.update_of_ne different, held]

theorem Midway.replaced (midway : Midway config kept (binding :: rest) t) {localPort : Int}
    {tunnelPID : Option Nat} :
    Midway config kept ({ binding with localPort, tunnelPID } :: rest)
      { t with state := t.state.replace { binding with localPort, tunnelPID } } where
  listed := RuntimeState.list_replace midway.listed rfl
  owned host workspaceID held := by
    obtain ⟨other, member, id, at_host⟩ := midway.owned host workspaceID held
    simp only [List.mem_append, List.mem_cons] at member ⊢
    obtain early | rfl | late := member
    · exact ⟨other, .inl early, id, at_host⟩
    · exact ⟨_, .inr (.inl rfl), id, at_host⟩
    · exact ⟨other, .inr (.inr late), id, at_host⟩
  leased := midway.leased
  ready := midway.ready
  pending other member := by
    cases List.mem_cons.mp member with
    | inl same =>
        subst same
        have pending := midway.pending binding (List.mem_cons_self ..)
        exact ⟨pending.wellFormed, pending.ready, pending.canonical⟩
    | inr late => exact midway.pending other (List.mem_cons_of_mem _ late)

theorem Midway.dropped (midway : Midway config kept (binding :: rest) t) :
    Midway config kept rest (t.dropped binding) := by
  have holder := LeaseManager.holder_release t.leases binding.host binding.workspaceID
  have holds : ∀ host, (t.dropped binding).leases.holder host =
      if host = binding.host ∧ t.leases.holder host = some binding.workspaceID then none
      else t.leases.holder host := by
    intro host
    rw [Store.dropped, holder]
    by_cases here : host = binding.host
    · subst here
      split <;> simp [*]
    · split <;> simp [here]
  refine ⟨RuntimeState.list_delete midway.listed, fun host workspaceID held => ?_, fun other member => ?_,
    midway.ready, fun other member => midway.pending other (List.mem_cons_of_mem _ member)⟩
  · rw [holds] at held
    split at held
    · cases held
    · rename_i foreign
      obtain ⟨other, member, id, at_host⟩ := midway.owned host workspaceID held
      simp only [List.mem_append, List.mem_cons] at member ⊢
      obtain early | rfl | late := member
      · exact ⟨other, .inl early, id, at_host⟩
      · exact absurd ⟨at_host.symm, id ▸ held⟩ foreign
      · exact ⟨other, .inr late, id, at_host⟩
  · have held := midway.leased other member
    have foreign := midway.distinct other (List.mem_append_left _ member)
    rw [holds, held, if_neg (by simp [foreign])]

theorem Midway.passed (midway : Midway config kept (binding :: rest) t)
    (held : t.leases.holder binding.host = some binding.workspaceID) :
    Midway config (kept ++ [binding]) rest t where
  listed := by rw [midway.listed, List.append_assoc, List.singleton_append]
  owned host workspaceID found := by
    rw [List.append_assoc, List.singleton_append]
    exact midway.owned host workspaceID found
  leased other member := by
    cases List.mem_append.mp member with
    | inl early => exact midway.leased other early
    | inr last => exact List.mem_singleton.mp last ▸ held
  ready other member := by
    cases List.mem_append.mp member with
    | inl early => exact midway.ready other early
    | inr last =>
        cases List.mem_singleton.mp last
        exact (midway.pending binding (List.mem_cons_self ..)).ready
  pending other member := midway.pending other (List.mem_cons_of_mem _ member)

end Binding

section Loop

variable {manager : SSHManager} {kept rest : List WorkspaceBinding} {binding : WorkspaceBinding} {t : Store}

/-- Getting a binding ready leaves it at the head of the ones to come, in its present form;
    what is returned is that form, and then it holds its host. -/
theorem ensureBindingReady_keeps (mode : manager.config.defaults.leaseMode = .exclusive)
    (unambiguous : Unambiguous manager.config)
    (midway : Midway manager.config kept (binding :: rest) t) (env : Nat → Env) :
    ∃ outcome t' env' current,
      Async.alone manager.config (ensureBindingReady manager binding) env t = (outcome, t', env') ∧
        Midway manager.config kept (current :: rest) t' ∧
        current.workspaceID = binding.workspaceID ∧ current.host = binding.host ∧
        ∀ ready, outcome = .ok ready →
          ready = current ∧ t'.leases.holder current.host = some current.workspaceID := by
  unfold ensureBindingReady
  rw [Async.alone_bind, Async.alone_acquireResolved]
  cases picked : pick t.leases manager.config.defaults.leaseMode binding.workspaceID
      (requestedHosts manager.config binding.provider binding.host) with
  | none =>
      obtain ⟨message, refused⟩ := acquireResolved_of_no_pick manager.config _ binding.workspaceID
        (env 0).now t.leases picked
      rw [refused]
      exact ⟨_, _, _, binding, rfl, midway, rfl, rfl, by simp⟩
  | some host =>
      obtain ⟨selection, -, -, taken⟩ := acquireResolved_of_pick manager.config _ binding.workspaceID
        (env 0).now t.leases picked
      obtain ⟨granted, held⟩ := midway.granted mode unambiguous (env 0).now picked
      simp only [taken, Async.alone_bind]
      obtain ⟨recovery, env₁, ran, yielding⟩ := Async.alone_remote manager.config
        (manager.ensureRecoveredBinding_yields binding selection) (fun n => env (n + 1))
        (t.granted manager.config binding (env 0).now host.name)
      change Async.alone _ _ _ ⟨grant .., t.state⟩ = _ at ran
      rw [ran]
      cases recovery with
      | error e => exact ⟨_, _, _, binding, rfl, granted, rfl, rfl, by simp⟩
      | ok recovered =>
          obtain ⟨localPort, tunnelPID, status, rfl, settled⟩ := yielding
          have ready := (midway.pending binding (List.mem_cons_self ..)).ready
          have same : status = binding.status := settled.elim id fun ready' => ready'.trans ready.symm
          subst same
          dsimp only
          split
          · -- the tunnel is another one, so the binding is stored anew
            rw [Async.alone_bind, Async.alone_replaceBinding]
            cases (env₁ 0).save with
            | error e => exact ⟨_, _, _, _, rfl, granted.replaced, rfl, rfl, by simp⟩
            | ok _ =>
                refine ⟨_, _, _, _, rfl, granted.replaced, rfl, rfl, fun found returned => ?_⟩
                cases returned
                exact ⟨rfl, held⟩
          · refine ⟨_, _, _, binding, rfl, granted, rfl, rfl, fun found returned => ?_⟩
            cases returned
            exact ⟨rfl, held⟩

/-- One turn of the loop: the entry for the binding, and the binding dropped if it failed. -/
def probe (manager : SSHManager) (binding : WorkspaceBinding) : Async StatusEntry := do
  try
    let ready ← Async.await (ensureBindingReady manager binding)
    pure (.recovered ready)
  catch error => do
    Async.deleteBinding binding.workspaceID
    Async.release binding.host binding.workspaceID
    pure (.failed binding.workspaceID binding.provider binding.host error)

theorem statusLoop_cons : statusLoop manager (binding :: rest) =
    probe manager binding >>= fun entry =>
      statusLoop manager rest >>= fun entries => pure (entry :: entries) := rfl

/-- A turn keeps the binding or drops it, or it cannot write the state file. -/
theorem probe_keeps (mode : manager.config.defaults.leaseMode = .exclusive)
    (unambiguous : Unambiguous manager.config)
    (midway : Midway manager.config kept (binding :: rest) t) (env : Nat → Env) :
    match Async.alone manager.config (probe manager binding) env t with
    | (.ok entry, t', _) => Midway manager.config (kept ++ entry.kept.toList) rest t' ∧
        entry.workspaceID = binding.workspaceID
    | (.error e, _, _) => ∃ n, (env n).save = .error e := by
  obtain ⟨spent, left⟩ := Async.alone_rest manager.config (ensureBindingReady manager binding) env t
  obtain ⟨outcome, t', env', current, ran, kept', id, at_host, success⟩ :=
    ensureBindingReady_keeps mode unambiguous midway env
  rw [ran] at left
  dsimp only at left
  subst left
  unfold probe
  rw [Async.alone_tryCatch, Async.alone_bind, Async.alone_await, ran]
  cases outcome with
  | ok ready =>
      obtain ⟨rfl, held⟩ := success ready rfl
      have status := (kept'.pending ready (List.mem_cons_self ..)).ready
      have entry : (StatusEntry.recovered ready).kept = some ready := by simp [StatusEntry.kept, status]
      exact ⟨entry ▸ kept'.passed held, id⟩
  | error e =>
      have dropped := kept'.dropped
      simp only [Store.dropped, id, at_host] at dropped
      simp only [Async.alone_bind, Async.alone_deleteBinding]
      cases saved : (env (spent + (0 + 1))).save with
      | error e => exact ⟨_, saved⟩
      | ok _ => exact ⟨by simpa [StatusEntry.kept] using dropped, rfl⟩

theorem statusLoop_keeps (mode : manager.config.defaults.leaseMode = .exclusive)
    (unambiguous : Unambiguous manager.config)
    (midway : Midway manager.config kept rest t) (env : Nat → Env) :
    match Async.alone manager.config (statusLoop manager rest) env t with
    | (.ok entries, t', _) => Midway manager.config (kept ++ entries.filterMap StatusEntry.kept) [] t' ∧
        entries.map StatusEntry.workspaceID = rest.map WorkspaceBinding.workspaceID
    | (.error e, _, _) => ∃ n, (env n).save = .error e := by
  induction rest generalizing kept t env with
  | nil => exact ⟨by simpa using midway, rfl⟩
  | cons binding rest ih =>
      have turn := probe_keeps mode unambiguous midway env
      obtain ⟨spent, left⟩ := Async.alone_rest manager.config (probe manager binding) env t
      rw [statusLoop_cons, Async.alone_bind]
      generalize Async.alone manager.config (probe manager binding) env t = result at turn left ⊢
      obtain ⟨outcome, t', env'⟩ := result
      cases outcome with
      | error e => exact turn
      | ok entry =>
          obtain ⟨next, id⟩ := turn
          dsimp only at left
          subst left
          have later := ih next fun n => env (spent + n)
          simp only [Async.alone_bind]
          generalize Async.alone manager.config (statusLoop manager rest) (fun n => env (spent + n)) t' =
            result at later ⊢
          obtain ⟨outcome, t'', env''⟩ := result
          cases outcome with
          | error e =>
              obtain ⟨n, failed⟩ := later
              exact ⟨spent + n, failed⟩
          | ok entries =>
              obtain ⟨done, ids⟩ := later
              refine ⟨?_, by rw [List.map_cons, List.map_cons, id, ids]⟩
              cases kept_entry : entry.kept with
              | none => simpa [kept_entry] using done
              | some current => simpa [kept_entry] using done

end Loop

theorem Midway.converged {config : ResolvedPluginConfig} {persisted : List WorkspaceBinding}
    {entries : List StatusEntry} {t : Store}
    (midway : Midway config (entries.filterMap StatusEntry.kept) [] t)
    (complete : entries.map StatusEntry.workspaceID =
      (persisted.filter RuntimeState.WellFormed).map WorkspaceBinding.workspaceID) :
    Converged persisted entries t := by
  have listed : t.state.list = entries.filterMap StatusEntry.kept := by
    rw [midway.listed, List.append_nil]
  have leased : ∀ binding ∈ t.state.list, t.leases.holder binding.host = some binding.workspaceID :=
    fun binding member => midway.leased binding (listed ▸ member)
  refine ⟨listed, ?_, leased, fun binding _ gone host held => ?_, complete⟩
  · have distinct := t.state.list_distinct
    refine (List.nodup_map_iff_inj_on distinct.of_map).mpr fun binding member other member' same => ?_
    have id : some binding.workspaceID = some other.workspaceID := by
      rw [← leased binding member, ← leased other member', same]
    exact List.inj_on_of_nodup_map distinct member member' (Option.some.inj id)
  · obtain ⟨owner, member, id, -⟩ := midway.owned host binding.workspaceID held
    rw [← midway.listed] at member
    rw [← id, RuntimeState.mem_list.mp member] at gone
    cases gone

/-- After starting up and one status check that nothing overlaps, the report and the tables
    agree, whatever came of the connections; only writing the state file can get in the way. -/
theorem remoteStatus_converges (manager : SSHManager)
    (mode : manager.config.defaults.leaseMode = .exclusive) (unambiguous : Unambiguous manager.config)
    (persisted : List WorkspaceBinding)
    (distinct : (persisted.map WorkspaceBinding.workspaceID).Nodup)
    (ready : ∀ binding ∈ persisted, binding.status = .ready)
    (canonical : ∀ binding ∈ persisted, Canonical manager.config binding) (now : Nat) (env : Nat → Env) :
    match Async.alone manager.config (remoteStatus manager) env (.rehydrate now (.load persisted)) with
    | (.ok (.status _ entries), s, _) => Converged persisted entries s
    | (.ok _, _, _) => False
    | (.error e, _, _) => ∃ n, (env n).save = .error e := by
  have start : Midway manager.config [] _ _ := midway_rehydrate now distinct ready canonical
  have loop := statusLoop_keeps mode unambiguous start fun n => env (n + 1)
  have listed : Async.alone manager.config (remoteStatus manager) env (.rehydrate now (.load persisted)) =
      Async.alone manager.config (statusLoop manager (persisted.filter RuntimeState.WellFormed) >>=
        fun entries => pure (.status (entries.any StatusEntry.ready) entries)) (fun n => env (n + 1))
        (.rehydrate now (.load persisted)) := by
    rw [← RuntimeState.list_load distinct]
    rfl
  rw [listed, Async.alone_bind]
  generalize Async.alone manager.config (statusLoop manager (persisted.filter RuntimeState.WellFormed))
    (fun n => env (n + 1)) (.rehydrate now (.load persisted)) = result at loop ⊢
  obtain ⟨outcome, s, env'⟩ := result
  cases outcome with
  | error e =>
      obtain ⟨n, failed⟩ := loop
      exact ⟨n + 1, failed⟩
  | ok entries => exact Midway.converged (by simpa using loop.1) loop.2

/-- Two bindings want the first host, one is on a host nobody knows. -/
def crowded : List WorkspaceBinding :=
  [boundTo "w" "web", boundTo "v" "web", boundTo "u" "gone", boundTo "x" "db"]

theorem lab_unambiguous : Unambiguous labManager.config := by
  intro name provider known identifier item member other member' first second
  have hosts : provider.hosts = [web, db] := by
    simp only [labManager, oneProvider, OrderedMap.get_set] at known
    split at known <;> cases known
    rfl
  simp only [hosts, List.mem_cons, List.not_mem_nil, or_false] at member member'
  obtain rfl | rfl := member <;> obtain rfl | rfl := member'
  · rfl
  · simp only [IdentifiedBy, web, db, plainHost, Option.getD_none, List.not_mem_nil, or_false] at first second
    obtain rfl | rfl := first <;> simp at second
  · simp only [IdentifiedBy, web, db, plainHost, Option.getD_none, List.not_mem_nil, or_false] at first second
    obtain rfl | rfl := first <;> simp at second
  · rfl

/-- Nothing can be reached but what is connected already. -/
theorem converges_when_crowded :
    match Async.alone labManager.config (remoteStatus labManager) (fun _ => world false true)
      (.rehydrate 3 (.load crowded)) with
    | (.ok (.status _ entries), s, _) => Converged crowded entries s
    | (.ok _, _, _) => False
    | (.error e, _, _) => ∃ n, ((fun _ => world false true : Nat → Env) n).save = .error e :=
  remoteStatus_converges labManager rfl lab_unambiguous crowded (by decide) (by decide) (by decide) 3
    fun _ => world false true

end OpencodeRemote.Plugin
