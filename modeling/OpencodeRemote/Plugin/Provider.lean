import OpencodeRemote.Plugin.Leases

/-! # Choosing and leasing a host

`resolveWithLease` filters the hosts of a provider and leases the first candidate it can.
`acquireResolved_eq` restates the loop: a candidate that the workspace has leased already
comes first, then the first one whose lease can be had.
-/

namespace OpencodeRemote.Plugin

structure HostSelectionRequest where
  provider : String
  host : Option String
  labels : Option (List String)
  deriving DecidableEq

structure ResolvedHost where
  provider : String
  host : HostConfig
  labels : List String
  strategy : SelectionStrategy
  deriving DecidableEq

structure Resolution where
  selection : ResolvedHost
  lease : Option LeaseRecord

namespace ProviderRegistry

/-- A host is known under its name, its ssh host and its aliases. -/
def IdentifiedBy (requestedHost : String) (item : HostConfig) : Prop :=
  item.name = requestedHost ∨ item.ssh.host = requestedHost ∨ requestedHost ∈ item.aliases.getD []

instance (requestedHost : String) (item : HostConfig) : Decidable (IdentifiedBy requestedHost item) :=
  inferInstanceAs (Decidable (_ ∨ _))

def matchesLabels (host : HostConfig) (labels : List String) : Bool :=
  labels.all fun label => label ∈ host.labels.getD []

/-- The set of required labels, in insertion order. -/
def requiredLabels (provider : ProviderConfig) (request : HostSelectionRequest) : List String :=
  (provider.labels.getD [] ++ request.labels.getD []).eraseDups

def candidates (provider : ProviderConfig) (request : HostSelectionRequest) : List HostConfig :=
  match truthy request.host with
  | some requestedHost => provider.hosts.filter (IdentifiedBy requestedHost)
  | none => provider.hosts.filter (matchesLabels · (requiredLabels provider request))

def toResolved (provider : String) (labels : List String) (host : HostConfig)
    (strategy : SelectionStrategy) : ResolvedHost :=
  ⟨provider, host, host.labels.getD labels, strategy⟩

/-- The loop over the candidates; a candidate that cannot be leased is passed over. -/
def acquireFirst (mode : LeaseMode) (workspaceID : String) (now : Nat) (leases : LeaseManager) :
    List HostConfig → Option (HostConfig × LeaseRecord × LeaseManager)
  | [] => none
  | host :: rest =>
      match leases.acquire host.name workspaceID mode now with
      | .ok (lease, leases) => some (host, lease, leases)
      | .error _ => acquireFirst mode workspaceID now leases rest

def notAvailable (request : HostSelectionRequest) : String :=
  s!"No available host found in provider '{request.provider}'"

def resolveWithLease (config : ResolvedPluginConfig) (request : HostSelectionRequest)
    (workspaceID : Option String) (now : Nat) (leases : LeaseManager) :
    Except String Resolution × LeaseManager :=
  match config.providers.get request.provider with
  | none => (.error s!"Unknown provider '{request.provider}'", leases)
  | some provider =>
      let strategy := provider.strategy.getD config.defaults.selectionStrategy
      let requestedLabels := requiredLabels provider request
      let candidates := candidates provider request
      if candidates = [] then
        match truthy request.host with
        | some host => (.error s!"Host '{host}' not found in provider '{request.provider}'", leases)
        | none => (.error (notAvailable request), leases)
      else
        match truthy workspaceID with
        | none =>
            match candidates.find? fun candidate => leases.get candidate.name = none with
            | none => (.error (notAvailable request), leases)
            | some host => (.ok ⟨toResolved request.provider requestedLabels host strategy, none⟩, leases)
        | some workspaceID =>
            match candidates.find? fun candidate => leases.holder candidate.name = some workspaceID with
            | some existingHost =>
                (.ok ⟨toResolved request.provider requestedLabels existingHost strategy,
                  leases.get existingHost.name⟩, leases)
            | none =>
                match acquireFirst config.defaults.leaseMode workspaceID now leases candidates with
                | some (host, lease, leases) =>
                    (.ok ⟨toResolved request.provider requestedLabels host strategy, some lease⟩, leases)
                | none =>
                    match truthy request.host with
                    | some host => (.error s!"Host '{host}' is already leased", leases)
                    | none => (.error (notAvailable request), leases)

def resolve (config : ResolvedPluginConfig) (request : HostSelectionRequest) (leases : LeaseManager) :
    Except String ResolvedHost :=
  -- without a workspace nothing is leased, so the time does not matter
  (resolveWithLease config request none 0 leases).1.map Resolution.selection

def acquireResolved (config : ResolvedPluginConfig) (request : HostSelectionRequest)
    (workspaceID : String) (now : Nat) (leases : LeaseManager) :
    Except String ResolvedHost × LeaseManager :=
  let (resolution, leases) := resolveWithLease config request (some workspaceID) now leases
  (resolution.map Resolution.selection, leases)

/-! ## Which host is taken -/

theorem acquireFirst_eq (mode : LeaseMode) (workspaceID : String) (now : Nat) (leases : LeaseManager)
    (hosts : List HostConfig) :
    acquireFirst mode workspaceID now leases hosts =
      (hosts.find? fun host => leases.Available mode host.name).map fun host =>
        (host, ⟨host.name, workspaceID, mode, now⟩,
          leases.set host.name ⟨host.name, workspaceID, mode, now⟩) := by
  induction hosts with
  | nil => rfl
  | cons host rest ih =>
      by_cases available : leases.Available mode host.name
      · simp [acquireFirst, LeaseManager.acquire_of_available available, available]
      · obtain ⟨message, failed⟩ := LeaseManager.acquire_of_unavailable available workspaceID now
        simp [acquireFirst, failed, available, ih]

/-- The hosts a request can be given, none if the provider is unknown. -/
def offered (config : ResolvedPluginConfig) (request : HostSelectionRequest) : List HostConfig :=
  match config.providers.get request.provider with
  | none => []
  | some provider => candidates provider request

/-- The host that an acquisition takes. -/
def pick (leases : LeaseManager) (mode : LeaseMode) (workspaceID : String)
    (hosts : List HostConfig) : Option HostConfig :=
  if workspaceID = "" then hosts.find? fun host => leases.get host.name = none
  else (hosts.find? fun host => leases.holder host.name = some workspaceID).or
    (hosts.find? fun host => leases.Available mode host.name)

/-- The lease table after a workspace has got a host: as before if the workspace is the
    empty string, which leases nothing, or if it had the host already. -/
def grant (leases : LeaseManager) (mode : LeaseMode) (workspaceID : String) (now : Nat)
    (host : String) : LeaseManager :=
  if workspaceID = "" ∨ leases.holder host = some workspaceID then leases
  else leases.set host ⟨host, workspaceID, mode, now⟩

theorem holder_grant (leases : LeaseManager) (mode : LeaseMode) (workspaceID : String) (now : Nat)
    (host : String) : (grant leases mode workspaceID now host).holder =
      if workspaceID = "" then leases.holder
      else Function.update leases.holder host (some workspaceID) := by
  by_cases nameless : workspaceID = ""
  · simp only [grant, nameless, true_or, if_true]
  · by_cases held : leases.holder host = some workspaceID
    · rw [if_neg nameless, ← held, Function.update_eq_self, grant, if_pos (.inr held)]
    · rw [if_neg nameless, grant, if_neg (by simp [nameless, held]), LeaseManager.holder_set]

section Outcome

variable (config : ResolvedPluginConfig) (request : HostSelectionRequest) (workspaceID : String)
  (now : Nat) (leases : LeaseManager)

theorem acquireResolved_of_pick {host : HostConfig}
    (picked : pick leases config.defaults.leaseMode workspaceID (offered config request) = some host) :
    ∃ selection, selection.host = host ∧ selection.provider = request.provider ∧
      acquireResolved config request workspaceID now leases =
        (.ok selection, grant leases config.defaults.leaseMode workspaceID now host.name) := by
  cases known : config.providers.get request.provider with
  | none => simp [pick, offered, known] at picked
  | some provider =>
      have nonempty : candidates provider request ≠ [] := by
        intro empty
        simp [pick, offered, known, empty] at picked
      refine ⟨toResolved request.provider (requiredLabels provider request) host
        (provider.strategy.getD config.defaults.selectionStrategy), rfl, rfl, ?_⟩
      simp only [offered, known, pick] at picked
      simp only [acquireResolved, resolveWithLease, known, nonempty, if_false]
      by_cases nameless : workspaceID = ""
      · rw [if_pos nameless] at picked
        simp [nameless, picked, grant, Except.map]
      · rw [if_neg nameless] at picked
        cases leased : (candidates provider request).find? fun candidate =>
            leases.holder candidate.name = some workspaceID with
        | some existingHost =>
            rw [leased, Option.some_or, Option.some.injEq] at picked
            subst picked
            have held := List.find?_some leased
            simp only [decide_eq_true_eq] at held
            simp [truthy_some nameless, leased, grant, held, Except.map]
        | none =>
            rw [leased, Option.none_or] at picked
            have foreign := List.find?_eq_none.mp leased host (List.mem_of_find?_eq_some picked)
            simp only [decide_eq_true_eq] at foreign
            simp [truthy_some nameless, leased, acquireFirst_eq, picked, grant, nameless, foreign,
              Except.map]

theorem acquireResolved_of_no_pick
    (none : pick leases config.defaults.leaseMode workspaceID (offered config request) = none) :
    ∃ message, acquireResolved config request workspaceID now leases = (.error message, leases) := by
  cases known : config.providers.get request.provider with
  | none => exact ⟨_, by simp only [acquireResolved, resolveWithLease, known]; rfl⟩
  | some provider =>
      simp only [offered, known, pick] at none
      simp only [acquireResolved, resolveWithLease, known]
      split
      · cases truthy request.host <;> exact ⟨_, rfl⟩
      · by_cases nameless : workspaceID = ""
        · rw [if_pos nameless] at none
          simp [nameless, none, Except.map]
        · rw [if_neg nameless, Option.or_eq_none_iff] at none
          simp only [truthy_some nameless, none.1, acquireFirst_eq, none.2, Option.map_none]
          cases truthy request.host <;> exact ⟨_, rfl⟩

end Outcome

theorem pick_some {leases : LeaseManager} {workspaceID : String} {hosts : List HostConfig}
    {host : HostConfig} (picked : pick leases .exclusive workspaceID hosts = some host) :
    host ∈ hosts ∧ (leases.holder host.name = none ∨
      workspaceID ≠ "" ∧ leases.holder host.name = some workspaceID) := by
  by_cases nameless : workspaceID = ""
  · rw [pick, if_pos nameless] at picked
    have free := List.find?_some picked
    simp only [decide_eq_true_eq] at free
    exact ⟨List.mem_of_find?_eq_some picked, .inl (LeaseManager.holder_eq_none.mpr free)⟩
  · rw [pick, if_neg nameless, Option.or_eq_some_iff] at picked
    cases picked with
    | inl leased =>
        have held := List.find?_some leased
        simp only [decide_eq_true_eq] at held
        exact ⟨List.mem_of_find?_eq_some leased, .inr ⟨nameless, held⟩⟩
    | inr found =>
        have available := List.find?_some found.2
        simp only [decide_eq_true_eq] at available
        exact ⟨List.mem_of_find?_eq_some found.2, .inl (available.resolve_left LeaseMode.noConfusion)⟩

theorem pick_eq_none {leases : LeaseManager} {workspaceID : String} {hosts : List HostConfig} :
    pick leases .exclusive workspaceID hosts = none ↔ ∀ host ∈ hosts, leases.holder host.name ≠ none ∧
      (workspaceID ≠ "" → leases.holder host.name ≠ some workspaceID) := by
  by_cases nameless : workspaceID = ""
  · simp [pick, nameless, LeaseManager.holder_eq_none]
  · simp only [pick, nameless, if_false, Option.or_eq_none_iff, List.find?_eq_none, decide_eq_true_eq,
      LeaseManager.Available, reduceCtorEq, false_or, ne_eq, not_false_eq_true, forall_const]
    constructor
    · exact fun none host member => ⟨none.2 host member, none.1 host member⟩
    · exact fun taken => ⟨fun host member => (taken host member).2, fun host member => (taken host member).1⟩

/-- In exclusive mode an acquisition hands out a free host at most. -/
theorem holder_acquireResolved (config : ResolvedPluginConfig)
    (exclusive : config.defaults.leaseMode = .exclusive) (request : HostSelectionRequest)
    (workspaceID : String) (now : Nat) (leases : LeaseManager) :
    (acquireResolved config request workspaceID now leases).2.holder = leases.holder ∨
      ∃ host, leases.holder host = none ∧
        (acquireResolved config request workspaceID now leases).2.holder =
          Function.update leases.holder host (some workspaceID) := by
  cases picked : pick leases config.defaults.leaseMode workspaceID (offered config request) with
  | none =>
      obtain ⟨message, result⟩ := acquireResolved_of_no_pick config request workspaceID now leases picked
      exact .inl (by rw [result])
  | some host =>
      obtain ⟨selection, -, -, result⟩ :=
        acquireResolved_of_pick config request workspaceID now leases picked
      rw [result]
      by_cases kept : workspaceID = "" ∨ leases.holder host.name = some workspaceID
      · exact .inl (by simp only [grant, if_pos kept])
      · rw [exclusive] at picked
        have free := (pick_some picked).2.resolve_right fun own => kept (.inr own.2)
        exact .inr ⟨host.name, free, by simp only [grant, if_neg kept, LeaseManager.holder_set]⟩

end ProviderRegistry

end OpencodeRemote.Plugin
