import OpencodeRemote.Plugin.HostSelection

/-! # What host selection is for

The hosts that suit a request, the one among them that a workspace is to be given, and that
`acquireResolved` gives it that one.
-/

namespace OpencodeRemote.Plugin

namespace ProviderRegistry

/-- The host is one that the request asks for, by any of its names or by all required labels. -/
def Suits (provider : ProviderConfig) (request : HostSelectionRequest) (host : HostConfig) : Prop :=
  (∀ requestedHost ∈ truthy request.host,
    host.name = requestedHost ∨ host.ssh.host = requestedHost ∨ requestedHost ∈ host.aliases.getD []) ∧
  (truthy request.host = none →
    (∀ label ∈ provider.labels.getD [], label ∈ host.labels.getD []) ∧
      ∀ label ∈ request.labels.getD [], label ∈ host.labels.getD [])

instance (provider : ProviderConfig) (request : HostSelectionRequest) (host : HostConfig) :
    Decidable (Suits provider request host) := inferInstanceAs (Decidable (_ ∧ _))

/-- The hosts that suit the request, in configured order. -/
def suitable (config : ResolvedPluginConfig) (request : HostSelectionRequest) : List HostConfig :=
  match config.providers.get request.provider with
  | none => []
  | some provider => provider.hosts.filter (Suits provider request)

/-- The host is the first of the list with the property. -/
def First (p : HostConfig → Prop) (hosts : List HostConfig) (host : HostConfig) : Prop :=
  ∃ before after, hosts = before ++ host :: after ∧ Foremost p before host

/-- The host that a workspace is to be given: one that it has leased, or else one that nobody has. -/
def Due (leases : LeaseManager) (workspaceID : String) (hosts : List HostConfig) (host : HostConfig) : Prop :=
  First (fun host => leases.holder host.name = some workspaceID) hosts host ∨
    (∀ host ∈ hosts, leases.holder host.name ≠ some workspaceID) ∧
      First (fun host => leases.holder host.name = none) hosts host

theorem find?_eq_some_iff_first {p : HostConfig → Prop} [DecidablePred p] {hosts : List HostConfig}
    {host : HostConfig} : (hosts.find? fun host => p host) = some host ↔ First p hosts host := by
  rw [List.find?_eq_some_iff_append]
  simp only [decide_eq_true_eq, Bool.not_eq_eq_eq_not, Bool.not_true, decide_eq_false_iff_not, First, Foremost]
  constructor
  · rintro ⟨holds, before, after, split, none⟩
    exact ⟨before, after, split, holds, none⟩
  · rintro ⟨before, after, split, holds, none⟩
    exact ⟨holds, before, after, split, none⟩

theorem offered_eq_suitable (config : ResolvedPluginConfig) (request : HostSelectionRequest) :
    offered config request = suitable config request := by
  rw [offered, suitable]
  cases config.providers.get request.provider with
  | none => rfl
  | some provider =>
      dsimp only
      rw [candidates]
      cases named : truthy request.host with
      | some requestedHost =>
          refine List.filter_congr fun host _ => decide_eq_decide.mpr ?_
          simp [Suits, IdentifiedBy, named]
      | none =>
          refine List.filter_congr fun host _ => ?_
          rw [Bool.eq_iff_iff, decide_eq_true_eq]
          simp only [matchesLabels, requiredLabels, List.all_eq_true, decide_eq_true_eq, List.mem_eraseDups,
            List.forall_mem_append, Suits, named, Option.not_mem_none, false_implies, implies_true, true_and,
            forall_const]

/-- In exclusive mode a workspace with a name is given the host that is due to it. -/
theorem pick_eq_some_iff_due {leases : LeaseManager} {workspaceID : String} (named : workspaceID ≠ "")
    {hosts : List HostConfig} {host : HostConfig} :
    pick leases .exclusive workspaceID hosts = some host ↔ Due leases workspaceID hosts host := by
  rw [pick, if_neg named, Option.or_eq_some_iff, find?_eq_some_iff_first, find?_none_iff, Due]
  simp only [LeaseManager.Available, reduceCtorEq, false_or]
  rw [find?_eq_some_iff_first]

theorem First.mem {p : HostConfig → Prop} {hosts : List HostConfig} {host : HostConfig}
    (first : First p hosts host) : host ∈ hosts ∧ p host := by
  obtain ⟨before, after, rfl, holds, -⟩ := first
  exact ⟨by simp, holds⟩

/-- Once it is leased by the workspace, the host that was due is due again. -/
theorem Due.again {leases leases' : LeaseManager} {workspaceID : String} {hosts : List HostConfig}
    {host : HostConfig} (due : Due leases workspaceID hosts host)
    (leased : leases'.holder = Function.update leases.holder host.name (some workspaceID)) :
    Due leases' workspaceID hosts host := by
  rcases due with held | ⟨none, free⟩
  · have same : leases'.holder = leases.holder := by
      rw [leased, ← held.mem.2, Function.update_eq_self]
    rw [Due, same]
    exact .inl held
  · obtain ⟨before, after, rfl, unleased, taken⟩ := free
    have own : leases'.holder host.name = some workspaceID := by rw [leased, Function.update_self]
    refine .inl ⟨before, after, rfl, own, fun earlier member held => ?_⟩
    -- an earlier host of the same name would have been free as well
    have other : earlier.name ≠ host.name := by
      intro same
      refine taken earlier member ?_
      change leases.holder earlier.name = Option.none
      rw [same, unleased]
    rw [leased, Function.update_of_ne other] at held
    exact none earlier (List.mem_append_left _ member) held

/-- What a request for a host comes to. -/
structure Meets (config : ResolvedPluginConfig) (request : HostSelectionRequest) (workspaceID : String)
    (leases : LeaseManager) (result : Except String ResolvedHost × LeaseManager) : Prop where
  refused : (∃ message, result.1 = .error message) ↔ config.providers.get request.provider = none ∨
    ∀ host ∈ suitable config request, ∃ other, leases.holder host.name = some other ∧ other ≠ workspaceID
  unchanged : ∀ message, result.1 = .error message → result.2 = leases
  due : ∀ selection, result.1 = .ok selection →
    Due leases workspaceID (suitable config request) selection.host ∧ selection.provider = request.provider
  leased : ∀ selection, result.1 = .ok selection → result.2.holder selection.host.name = some workspaceID ∧
    ∀ other, other ≠ selection.host.name → result.2.get other = leases.get other
  kept : ∀ selection, result.1 = .ok selection → leases.holder selection.host.name = some workspaceID →
    result.2 = leases

/-- Nothing is picked exactly if others have leased all hosts that suit, as none do of an unknown
    provider. -/
theorem pick_eq_none_iff_taken (config : ResolvedPluginConfig) (request : HostSelectionRequest)
    {workspaceID : String} (named : workspaceID ≠ "") (leases : LeaseManager) :
    pick leases .exclusive workspaceID (suitable config request) = none ↔
      config.providers.get request.provider = none ∨ ∀ host ∈ suitable config request,
        ∃ other, leases.holder host.name = some other ∧ other ≠ workspaceID := by
  have taken : pick leases .exclusive workspaceID (suitable config request) = none ↔
      ∀ host ∈ suitable config request,
        ∃ other, leases.holder host.name = some other ∧ other ≠ workspaceID := by
    rw [pick_eq_none]
    refine forall_congr' fun host => forall_congr' fun _ => ?_
    cases leases.holder host.name with
    | none => simp
    | some other => simp [named]
  rw [taken]
  refine ⟨.inr, fun refused => refused.elim (fun unknown => ?_) id⟩
  rw [suitable, unknown]
  exact List.forall_mem_nil _

section Specification

variable (config : ResolvedPluginConfig) (mode : config.defaults.leaseMode = .exclusive)
  (request : HostSelectionRequest) {workspaceID : String} (named : workspaceID ≠ "") (now : Nat)
  (leases : LeaseManager)

include mode named

theorem acquireResolved_of_due {host : HostConfig} (due : Due leases workspaceID (suitable config request) host) :
    ∃ selection, selection.host = host ∧ selection.provider = request.provider ∧
      acquireResolved config request workspaceID now leases =
        (.ok selection, grant leases .exclusive workspaceID now host.name) := by
  have picked := (pick_eq_some_iff_due named).mpr due
  rw [← offered_eq_suitable, ← mode] at picked
  rw [← mode]
  exact acquireResolved_of_pick config request workspaceID now leases picked

theorem acquireResolved_meets :
    Meets config request workspaceID leases (acquireResolved config request workspaceID now leases) := by
  have refusal := pick_eq_none_iff_taken config request named leases
  cases picked : pick leases .exclusive workspaceID (suitable config request) with
  | none =>
      rw [picked] at refusal
      rw [← offered_eq_suitable, ← mode] at picked
      obtain ⟨message, result⟩ := acquireResolved_of_no_pick config request workspaceID now leases picked
      rw [result]
      refine ⟨iff_of_true ⟨message, rfl⟩ (refusal.mp rfl), fun _ _ => rfl, ?_, ?_, fun _ _ _ => rfl⟩
      all_goals
        intro selection impossible
        cases impossible
  | some host =>
      rw [picked] at refusal
      have due := (pick_eq_some_iff_due named).mp picked
      obtain ⟨selection, rfl, provider, result⟩ := acquireResolved_of_due config mode request named now leases due
      have held := holder_grant leases .exclusive workspaceID now selection.host.name
      rw [if_neg named] at held
      rw [result]
      constructor
      · refine iff_of_false (fun refused => ?_) fun taken => Option.some_ne_none _ (refusal.mpr taken)
        obtain ⟨message, impossible⟩ := refused
        cases impossible
      · intro message impossible
        cases impossible
      · rintro _ ⟨⟩
        exact ⟨due, provider⟩
      · rintro _ ⟨⟩
        refine ⟨by rw [held, Function.update_self], fun other different => ?_⟩
        exact get_grant_ne leases _ workspaceID now different
      · rintro _ ⟨⟩ own
        exact if_pos (.inr own)

/-- In exclusive mode a selection meets its specification, and asking again changes nothing. -/
theorem acquireResolved_meets_and_repeats :
    Meets config request workspaceID leases (acquireResolved config request workspaceID now leases) ∧
      ∀ selection later, (acquireResolved config request workspaceID now leases).1 = .ok selection →
        ∃ again, again.host = selection.host ∧
          acquireResolved config request workspaceID later
            (acquireResolved config request workspaceID now leases).2 =
              (.ok again, (acquireResolved config request workspaceID now leases).2) := by
  have meets := acquireResolved_meets config mode request named now leases
  refine ⟨meets, fun selection later returned => ?_⟩
  obtain ⟨due, -⟩ := meets.due selection returned
  obtain ⟨first, same, -, result⟩ := acquireResolved_of_due config mode request named now leases due
  have held := holder_grant leases .exclusive workspaceID now selection.host.name
  rw [if_neg named] at held
  rw [result]
  obtain ⟨again, same', -, result'⟩ := acquireResolved_of_due config mode request named later
    (grant leases .exclusive workspaceID now selection.host.name) (due.again held)
  refine ⟨again, same', ?_⟩
  rw [result']
  refine congrArg (Prod.mk _) (if_pos (.inr ?_))
  rw [held, Function.update_self]

end Specification

/-- The host that the workspace has leased is second in the list, and it is given that again. -/
theorem meets_and_repeats_for_leased :
    Meets lab ⟨"lab", some "web", none⟩ "w" (Data.OrderedMap.empty.set "web" ⟨"web", "w", .exclusive, 1⟩)
      (acquireResolved lab ⟨"lab", some "web", none⟩ "w" 2
        (Data.OrderedMap.empty.set "web" ⟨"web", "w", .exclusive, 1⟩)) :=
  (acquireResolved_meets_and_repeats lab rfl ⟨"lab", some "web", none⟩ (by decide) 2 _).1

end ProviderRegistry

end OpencodeRemote.Plugin
