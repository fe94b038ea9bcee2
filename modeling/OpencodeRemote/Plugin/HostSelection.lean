import OpencodeRemote.Plugin.Provider

/-! # Requests that name a host

A host is also identified by its ssh host and its aliases, so a request for one host's name
can have other candidates. The candidates of such a request are the rivals configured
before the named host, the host itself and the rivals after it.
-/

namespace OpencodeRemote.Plugin

namespace ProviderRegistry

/-- The request is refused, or it is given exactly the named host, and no other host's
    lease is touched. -/
def Honoured (leases : LeaseManager) (workspaceID : String) (named : HostConfig)
    (result : Except String ResolvedHost × LeaseManager) : Prop :=
  (∀ selection, result.1 = .ok selection →
      selection.host = named ∧ result.2.holder named.name = some workspaceID) ∧
    ∀ host, host ≠ named.name → result.2.get host = leases.get host

/-- The named host has the property and no rival before it has. -/
def Foremost (p : HostConfig → Prop) (earlier : List HostConfig) (named : HostConfig) : Prop :=
  p named ∧ ∀ rival ∈ earlier, ¬p rival

instance (p : HostConfig → Prop) [DecidablePred p] (earlier : List HostConfig) (named : HostConfig) :
    Decidable (Foremost p earlier named) := inferInstanceAs (Decidable (_ ∧ _))

/-- Nothing comes between the workspace and the host it names. A host that the workspace
    has leased already goes before all others, then the first one that can be leased is
    taken; the empty workspace id is given a free host without a lease. -/
def Unrivalled (leases : LeaseManager) (mode : LeaseMode) (workspaceID : String)
    (earlier : List HostConfig) (named : HostConfig) (later : List HostConfig) : Prop :=
  if workspaceID = "" then ∀ host ∈ earlier ++ named :: later, leases.get host.name ≠ none
  else Foremost (fun host => leases.holder host.name = some workspaceID) earlier named ∨
    (∀ host ∈ earlier ++ named :: later, leases.holder host.name ≠ some workspaceID) ∧
      (Foremost (fun host => leases.Available mode host.name) earlier named ∨
        ∀ host ∈ earlier ++ named :: later, ¬leases.Available mode host.name)

instance (leases : LeaseManager) (mode : LeaseMode) (workspaceID : String)
    (earlier : List HostConfig) (named : HostConfig) (later : List HostConfig) :
    Decidable (Unrivalled leases mode workspaceID earlier named later) :=
  inferInstanceAs (Decidable (ite _ _ _))

/-- The hosts of a list which a request for the name of `named` can be given. -/
def rivals (named : HostConfig) (hosts : List HostConfig) : List HostConfig :=
  hosts.filter (IdentifiedBy named.name)

section Search

variable {p : HostConfig → Prop} [DecidablePred p] {earlier : List HostConfig} {named : HostConfig}

theorem find?_none_iff {hosts : List HostConfig} :
    (hosts.find? fun host => p host) = none ↔ ∀ host ∈ hosts, ¬p host := by
  simp only [List.find?_eq_none, decide_eq_true_eq]

theorem find?_eq_named (absent : named ∉ earlier) (later : List HostConfig) :
    ((earlier ++ named :: later).find? fun host => p host) = some named ↔ Foremost p earlier named := by
  rw [List.find?_append]
  cases found : earlier.find? fun host => p host with
  | some rival =>
      have other : rival ≠ named := by
        intro same
        exact absent (same ▸ List.mem_of_find?_eq_some found)
      have holds := List.find?_some found
      simp only [decide_eq_true_eq] at holds
      simp only [Option.some_or, Option.some.injEq, other, false_iff]
      intro foremost
      exact foremost.2 rival (List.mem_of_find?_eq_some found) holds
  | none =>
      by_cases holds : p named
      · simp only [Option.none_or, List.find?_cons, holds, decide_true, Foremost, true_and, true_iff]
        exact find?_none_iff.mp found
      · simp only [Option.none_or, List.find?_cons, holds, decide_false, Foremost, false_and, iff_false]
        intro later_named
        have := List.find?_some later_named
        simp [holds] at this

theorem find?_eq_named_or_none (absent : named ∉ earlier) (later : List HostConfig) :
    (∀ host, ((earlier ++ named :: later).find? fun host => p host) = some host → host = named) ↔
      Foremost p earlier named ∨ ∀ host ∈ earlier ++ named :: later, ¬p host := by
  rw [← find?_eq_named absent later]
  cases found : (earlier ++ named :: later).find? fun host => p host with
  | none =>
      simp only [reduceCtorEq, false_implies, implies_true, true_iff]
      exact .inr (find?_none_iff.mp found)
  | some host =>
      have holds := List.find?_some found
      simp only [decide_eq_true_eq] at holds
      simp only [Option.some.injEq, forall_eq']
      constructor
      · exact .inl
      · rintro (same | none_at_all)
        · exact same
        · exact absurd holds (none_at_all host (List.mem_of_find?_eq_some found))

end Search

theorem pick_named_iff {leases : LeaseManager} {mode : LeaseMode} {workspaceID : String}
    {earlier later : List HostConfig} {named : HostConfig} (absent : named ∉ earlier) :
    (∀ host, pick leases mode workspaceID (earlier ++ named :: later) = some host →
      workspaceID ≠ "" ∧ host = named) ↔ Unrivalled leases mode workspaceID earlier named later := by
  by_cases nameless : workspaceID = ""
  · simp only [pick, Unrivalled, nameless, if_true, ne_eq, not_true_eq_false, false_and, imp_false]
    rw [← Option.eq_none_iff_forall_ne_some, find?_none_iff]
  · simp only [pick, Unrivalled, nameless, if_false, ne_eq, not_false_eq_true, true_and]
    cases leased : (earlier ++ named :: later).find? fun host =>
        leases.holder host.name = some workspaceID with
    | some host =>
        have member := List.mem_of_find?_eq_some leased
        have held := List.find?_some leased
        simp only [decide_eq_true_eq] at held
        rw [← find?_eq_named absent later, leased]
        simp only [Option.some_or, Option.some.injEq, forall_eq']
        constructor
        · exact .inl
        · rintro (same | ⟨unleased, -⟩)
          · exact same
          · exact absurd held (unleased host member)
    | none =>
        have unleased := find?_none_iff.mp leased
        have own : ¬Foremost (fun host => leases.holder host.name = some workspaceID) earlier named :=
          fun foremost => unleased named (by simp) foremost.1
        rw [Option.none_or, find?_eq_named_or_none absent later]
        simp only [own, false_or]
        exact (and_iff_right unleased).symm

theorem get_grant_ne (leases : LeaseManager) (mode : LeaseMode) (workspaceID : String) (now : Nat)
    {host other : String} (different : other ≠ host) :
    (grant leases mode workspaceID now host).get other = leases.get other := by
  unfold grant
  split
  · rfl
  · exact Data.OrderedMap.get_set_ne leases _ different

theorem honoured_iff_pick {config : ResolvedPluginConfig} {request : HostSelectionRequest}
    {workspaceID : String} {now : Nat} {leases : LeaseManager} {named : HostConfig} :
    Honoured leases workspaceID named (acquireResolved config request workspaceID now leases) ↔
      ∀ host, pick leases config.defaults.leaseMode workspaceID (offered config request) = some host →
        workspaceID ≠ "" ∧ host = named := by
  cases picked : pick leases config.defaults.leaseMode workspaceID (offered config request) with
  | none =>
      obtain ⟨message, result⟩ := acquireResolved_of_no_pick config request workspaceID now leases picked
      simp [result, Honoured]
  | some host =>
      obtain ⟨selection, rfl, -, result⟩ :=
        acquireResolved_of_pick config request workspaceID now leases picked
      simp only [result, Honoured, Except.ok.injEq, forall_eq', Option.some.injEq]
      constructor
      · rintro ⟨⟨same, held⟩, -⟩
        refine ⟨?_, same⟩
        rintro rfl
        -- the empty id was given a host that nobody has leased
        have free := List.find?_some (by simpa [pick] using picked)
        simp only [decide_eq_true_eq] at free
        rw [← same] at held
        simp [grant, LeaseManager.holder, free] at held
      · rintro ⟨given, rfl⟩
        have held := holder_grant leases config.defaults.leaseMode workspaceID now selection.host.name
        rw [if_neg given] at held
        refine ⟨⟨rfl, by rw [held, Function.update_self]⟩, fun other different => ?_⟩
        exact get_grant_ne leases _ workspaceID now different

/-- In a provider whose host names are unique, a request by name is honoured exactly when
    the named host is unrivalled. -/
theorem honoured_iff_unrivalled (config : ResolvedPluginConfig) (leases : LeaseManager)
    (workspaceID : String) (now : Nat) (request : HostSelectionRequest) {provider : ProviderConfig}
    (known : config.providers.get request.provider = some provider)
    (unique : (provider.hosts.map HostConfig.name).Nodup) {before after : List HostConfig}
    {named : HostConfig} (order : provider.hosts = before ++ named :: after)
    (requested : request.host = some named.name) :
    Honoured leases workspaceID named (acquireResolved config request workspaceID now leases) ↔
      Unrivalled leases config.defaults.leaseMode workspaceID (rivals named before) named
        (rivals named after) := by
  have absent : named ∉ rivals named before := by
    intro member
    rw [order, List.map_append, List.map_cons] at unique
    have distinct := (List.nodup_append.mp unique).2.2
    exact distinct named.name (List.mem_map_of_mem (List.mem_of_mem_filter member)) named.name (by simp) rfl
  have identified : IdentifiedBy named.name named := .inl rfl
  have hosts : offered config request = rivals named before ++ named :: rivals named after := by
    simp [offered, known, candidates, requested, truthy_some named.named, order, rivals, identified]
  rw [honoured_iff_pick, hosts, pick_named_iff absent]

/-- A host whose ssh host is the name of the other one. -/
def jump : HostConfig := plainHost "jump" web.name (by decide) web.named

def lab : ResolvedPluginConfig := oneProvider "lab" [jump, web] (List.cons_ne_nil _ _)

/-- While the rival is leased by another workspace, the host named is the host used. -/
theorem honoured_while_rival_leased :
    Honoured (Data.OrderedMap.empty.set "jump" ⟨"jump", "v", .exclusive, 1⟩) "w" web
      (acquireResolved lab ⟨"lab", some "web", none⟩ "w" 2
        (Data.OrderedMap.empty.set "jump" ⟨"jump", "v", .exclusive, 1⟩)) :=
  (@honoured_iff_unrivalled lab _ "w" 2 ⟨"lab", some "web", none⟩ _ (Data.OrderedMap.get_set_self ..)
    (by decide) [jump] [] web rfl rfl).mpr (by decide +kernel)

/-- With nothing leased, the rival configured first is used instead. -/
theorem not_honoured_with_free_rival :
    ¬∀ (config : ResolvedPluginConfig) (leases : LeaseManager) (workspaceID : String) (now : Nat)
      (request : HostSelectionRequest) (provider : ProviderConfig) (named : HostConfig),
      config.providers.get request.provider = some provider →
      (provider.hosts.map HostConfig.name).Nodup → named ∈ provider.hosts →
      request.host = some named.name →
      Honoured leases workspaceID named (acquireResolved config request workspaceID now leases) := by
  intro always_honoured
  have honoured := always_honoured lab .empty "w" 0 ⟨"lab", some "web", none⟩ _ web
    (Data.OrderedMap.get_set_self ..) (by decide) (by decide) rfl
  have returned : (acquireResolved lab ⟨"lab", some "web", none⟩ "w" 0 .empty).1 =
      .ok ⟨"lab", jump, [], .firstAvailable⟩ := by decide +kernel
  have same := (honoured.1 _ returned).1
  revert same
  decide

end ProviderRegistry

end OpencodeRemote.Plugin
