import Mathlib.Data.Fintype.EquivFin
import OpencodeRemote.Plugin.Ssh

/-! # Leases and machines

A lease is on a configured name; what has to be protected is the machine behind it, where
`bootstrap` stops the stub of whoever was there before. The two agree as long as hosts that
can be selected are one machine only if they have one name.
-/

namespace OpencodeRemote.Plugin

open Data

/-- What the ssh client is pointed at. -/
structure Endpoint where
  user : String
  host : String
  port : Nat
  deriving DecidableEq

def HostConfig.endpoint (host : HostConfig) : Endpoint :=
  ⟨host.ssh.user, host.ssh.host, SSHManager.port host.ssh⟩

inductive SelectionCall where
  | acquireResolved (request : HostSelectionRequest) (workspaceID : String) (now : Nat)
  | release (host workspaceID : String)

/-- The leases, and the hosts selected for workspaces under the leases they have now. -/
structure Tenure where
  leases : LeaseManager
  selected : List (String × HostConfig)

namespace Tenure

/-- The workspace has a lease for which this host was selected. -/
def Holds (t : Tenure) (workspaceID : String) (host : HostConfig) : Prop :=
  (workspaceID, host) ∈ t.selected ∧ t.leases.holder host.name = some workspaceID

def step (config : ResolvedPluginConfig) (t : Tenure) : SelectionCall → Tenure
  | .acquireResolved request workspaceID now =>
      match ProviderRegistry.acquireResolved config request workspaceID now t.leases with
      | (.ok selection, leases) => ⟨leases, (workspaceID, selection.host) :: t.selected⟩
      | (.error _, leases) => ⟨leases, t.selected⟩
  | .release host workspaceID =>
      ⟨t.leases.release host workspaceID,
        t.selected.filter fun entry => ¬(entry.1 = workspaceID ∧ entry.2.name = host)⟩

def after (config : ResolvedPluginConfig) (calls : List SelectionCall) : Tenure :=
  calls.foldl (step config) ⟨.empty, []⟩

/-- At no time do two workspaces hold leases for one machine. -/
def Protected (config : ResolvedPluginConfig) : Prop :=
  ∀ calls first second one other, first ≠ second → (after config calls).Holds first one →
    (after config calls).Holds second other → one.endpoint ≠ other.endpoint

/-- Some request is offered this host before any other of its name. -/
def Selectable (config : ResolvedPluginConfig) (host : HostConfig) : Prop :=
  ∃ request, ((ProviderRegistry.offered config request).find? fun candidate => candidate.name = host.name) =
    some host

/-- Hosts that can be selected are one machine only under one name. -/
def Distinct (config : ResolvedPluginConfig) : Prop :=
  ∀ one other, Selectable config one → Selectable config other → one.endpoint = other.endpoint →
    one.name = other.name

variable {config : ResolvedPluginConfig}

theorem after_append (calls more : List SelectionCall) :
    after config (calls ++ more) = more.foldl (step config) (after config calls) := List.foldl_append ..

theorem after_concat (calls : List SelectionCall) (newest : SelectionCall) :
    after config (calls ++ [newest]) = (after config calls).step config newest := after_append ..

/-! ## What is selected can be selected -/

/-- A pick goes by names only. -/
theorem selectable_of_pick {leases : LeaseManager} {mode : LeaseMode} {workspaceID : String}
    {request : HostSelectionRequest} {host : HostConfig}
    (picked : ProviderRegistry.pick leases mode workspaceID (ProviderRegistry.offered config request) =
      some host) : Selectable config host := by
  refine ⟨request, ?_⟩
  have first : ∀ p : String → Bool, ((ProviderRegistry.offered config request).find? fun candidate =>
      p candidate.name) = some host → ((ProviderRegistry.offered config request).find? fun candidate =>
      candidate.name = host.name) = some host := by
    intro p found
    obtain ⟨holds, earlier, later, split, rejected⟩ := List.find?_eq_some_iff_append.mp found
    refine List.find?_eq_some_iff_append.mpr ⟨by simp, earlier, later, split, fun rival member => ?_⟩
    have fails := rejected rival member
    simp only [Bool.not_eq_eq_eq_not, Bool.not_true, decide_eq_false_iff_not]
    intro same
    simp [same, holds] at fails
  by_cases nameless : workspaceID = ""
  · rw [ProviderRegistry.pick, if_pos nameless] at picked
    exact first (fun name => leases.get name = none) picked
  · rw [ProviderRegistry.pick, if_neg nameless, Option.or_eq_some_iff] at picked
    rcases picked with leased | ⟨-, available⟩
    · exact first (fun name => leases.holder name = some workspaceID) leased
    · exact first (fun name => leases.Available mode name) available

theorem step_of_pick {t : Tenure} {request : HostSelectionRequest} {workspaceID : String} {host : HostConfig}
    (now : Nat) (picked : ProviderRegistry.pick t.leases config.defaults.leaseMode workspaceID
      (ProviderRegistry.offered config request) = some host) :
    t.step config (.acquireResolved request workspaceID now) =
      ⟨ProviderRegistry.grant t.leases config.defaults.leaseMode workspaceID now host.name,
        (workspaceID, host) :: t.selected⟩ := by
  obtain ⟨selection, rfl, -, result⟩ :=
    ProviderRegistry.acquireResolved_of_pick config request workspaceID now t.leases picked
  simp only [step, result]

theorem step_of_no_pick {t : Tenure} {request : HostSelectionRequest} {workspaceID : String} (now : Nat)
    (none : ProviderRegistry.pick t.leases config.defaults.leaseMode workspaceID
      (ProviderRegistry.offered config request) = none) :
    t.step config (.acquireResolved request workspaceID now) = t := by
  obtain ⟨message, result⟩ :=
    ProviderRegistry.acquireResolved_of_no_pick config request workspaceID now t.leases none
  simp only [step, result]

theorem selectable_of_selected (calls : List SelectionCall) :
    ∀ entry ∈ (after config calls).selected, Selectable config entry.2 := by
  induction calls using List.reverseRecOn with
  | nil =>
      intro entry member
      cases member
  | append_singleton calls newest ih =>
      rw [after_concat]
      cases newest with
      | release host workspaceID =>
          intro entry member
          exact ih entry (List.mem_filter.mp member).1
      | acquireResolved request workspaceID now =>
          cases picked : ProviderRegistry.pick (after config calls).leases config.defaults.leaseMode
              workspaceID (ProviderRegistry.offered config request) with
          | none =>
              rw [step_of_no_pick now picked]
              exact ih
          | some host =>
              rw [step_of_pick now picked]
              intro entry member
              cases List.mem_cons.mp member with
              | inl newest => exact newest ▸ selectable_of_pick picked
              | inr older => exact ih entry older

theorem protected_of_distinct (distinct : Distinct config) : Protected config := by
  intro calls first second one other different holds holds' same
  have equal := distinct one other (selectable_of_selected calls _ holds.1)
    (selectable_of_selected calls _ holds'.1) same
  have held := holds.2
  rw [equal, holds'.2] at held
  exact different (Option.some.inj held).symm

/-! ## One machine under two names -/

/-- There is always a workspace that has no lease. -/
theorem exists_newcomer (leases : LeaseManager) (known : String) :
    ∃ workspaceID, workspaceID ≠ "" ∧ workspaceID ≠ known ∧ ∀ host, leases.holder host ≠ some workspaceID := by
  obtain ⟨workspaceID, fresh⟩ := Infinite.exists_notMem_finset
    ("" :: known :: leases.values.map LeaseRecord.workspaceID).toFinset
  simp only [List.mem_toFinset, List.mem_cons, List.mem_map, not_or] at fresh
  refine ⟨workspaceID, fresh.1, fresh.2.1, fun host held => ?_⟩
  obtain ⟨lease, found, own⟩ := Option.map_eq_some_iff.mp held
  exact fresh.2.2 ⟨lease, OrderedMap.mem_values.mpr ⟨host, found⟩, own⟩

/-- A workspace without a lease is given the first free host. -/
theorem pick_newcomer {leases : LeaseManager} {workspaceID : String} (nonempty : workspaceID ≠ "")
    (newcomer : ∀ host, leases.holder host ≠ some workspaceID) {earlier : List HostConfig}
    {host : HostConfig} (taken : ∀ rival ∈ earlier, leases.holder rival.name ≠ none)
    (free : leases.holder host.name = none) (later : List HostConfig) :
    ProviderRegistry.pick leases .exclusive workspaceID (earlier ++ host :: later) = some host := by
  have own : ((earlier ++ host :: later).find? fun host => leases.holder host.name = some workspaceID) = none :=
    List.find?_eq_none.mpr fun host _ => by simpa using newcomer host.name
  have first : ((earlier ++ host :: later).find? fun host => leases.Available .exclusive host.name) = some host := by
    refine List.find?_eq_some_iff_append.mpr ⟨by simp [LeaseManager.Available, free], earlier, later, rfl, ?_⟩
    intro rival member
    simpa [LeaseManager.Available] using taken rival member
  rw [ProviderRegistry.pick, if_neg nonempty, own, first, Option.none_or]

theorem step_newcomer (exclusive : config.defaults.leaseMode = .exclusive) {t : Tenure}
    {request : HostSelectionRequest} {workspaceID : String} (nonempty : workspaceID ≠ "")
    (newcomer : ∀ host, t.leases.holder host ≠ some workspaceID) {earlier later : List HostConfig}
    {host : HostConfig} (offer : ProviderRegistry.offered config request = earlier ++ host :: later)
    (taken : ∀ rival ∈ earlier, t.leases.holder rival.name ≠ none)
    (free : t.leases.holder host.name = none) (now : Nat) :
    (t.step config (.acquireResolved request workspaceID now)).selected = (workspaceID, host) :: t.selected ∧
      (t.step config (.acquireResolved request workspaceID now)).leases.holder =
        Function.update t.leases.holder host.name (some workspaceID) := by
  have picked := pick_newcomer nonempty newcomer taken free later
  rw [← exclusive, ← offer] at picked
  rw [step_of_pick now picked]
  exact ⟨rfl, by simp only [ProviderRegistry.holder_grant, if_neg nonempty]⟩

/-- Nothing that was held has been given up. -/
structure Extends (before after : Tenure) : Prop where
  selected : ∀ entry ∈ before.selected, entry ∈ after.selected
  kept : ∀ host, before.leases.holder host ≠ none → after.leases.holder host = before.leases.holder host

theorem Extends.refl (t : Tenure) : Extends t t := ⟨fun _ member => member, fun _ _ => rfl⟩

theorem Extends.trans {first second third : Tenure} (one : Extends first second)
    (two : Extends second third) : Extends first third := by
  refine ⟨fun entry member => two.selected entry (one.selected entry member), fun host held => ?_⟩
  have same := one.kept host held
  rw [two.kept host (same ▸ held), same]

theorem Extends.holds {before after : Tenure} (grown : Extends before after) {workspaceID : String}
    {host : HostConfig} (holds : before.Holds workspaceID host) : after.Holds workspaceID host := by
  refine ⟨grown.selected _ holds.1, ?_⟩
  rw [grown.kept host.name (by simp [holds.2]), holds.2]

theorem extends_of_update {t t' : Tenure} {workspaceID name : String} {host : HostConfig}
    (free : t.leases.holder name = none) (selected : t'.selected = (workspaceID, host) :: t.selected)
    (holder : t'.leases.holder = Function.update t.leases.holder name (some workspaceID)) :
    Extends t t' := by
  refine ⟨fun entry member => selected ▸ List.mem_cons_of_mem _ member, fun other held => ?_⟩
  have different : other ≠ name := fun same => held (same ▸ free)
  rw [holder, Function.update_of_ne different]

/-- Newcomers take all hosts at the head of an offer and leave the others alone. -/
theorem exists_full (exclusive : config.defaults.leaseMode = .exclusive) (request : HostSelectionRequest)
    (calls : List SelectionCall) (earlier later : List HostConfig)
    (offer : ProviderRegistry.offered config request = earlier ++ later) :
    ∃ more, Extends (after config calls) (after config (calls ++ more)) ∧
      (∀ rival ∈ earlier, (after config (calls ++ more)).leases.holder rival.name ≠ none) ∧
      ∀ name, name ∉ earlier.map HostConfig.name →
        (after config (calls ++ more)).leases.holder name = (after config calls).leases.holder name := by
  induction earlier using List.reverseRecOn generalizing later with
  | nil =>
      refine ⟨[], ?_⟩
      rw [List.append_nil]
      exact ⟨Extends.refl _, fun _ impossible => absurd impossible List.not_mem_nil, fun _ _ => rfl⟩
  | append_singleton earlier next ih =>
      rw [List.append_assoc, List.singleton_append] at offer
      obtain ⟨more, grown, full, others⟩ := ih (next :: later) offer
      by_cases free : (after config (calls ++ more)).leases.holder next.name = none
      · obtain ⟨workspaceID, nonempty, -, newcomer⟩ :=
          exists_newcomer (after config (calls ++ more)).leases ""
        obtain ⟨selected, holder⟩ := step_newcomer exclusive nonempty newcomer offer full free 0
        rw [← after_concat, List.append_assoc] at selected holder
        have larger := extends_of_update free selected holder
        refine ⟨more ++ [.acquireResolved request workspaceID 0], grown.trans larger, ?_, ?_⟩
        · intro rival member
          cases List.mem_append.mp member with
          | inl early => exact larger.kept rival.name (full rival early) ▸ full rival early
          | inr last =>
              rw [List.mem_singleton.mp last, holder, Function.update_self]
              exact Option.some_ne_none _
        · intro name absent
          simp only [List.map_append, List.map_cons, List.map_nil, List.mem_append, List.mem_singleton,
            not_or] at absent
          rw [holder, Function.update_of_ne absent.2, others name absent.1]
      · refine ⟨more, grown, ?_, ?_⟩
        · intro rival member
          cases List.mem_append.mp member with
          | inl early => exact full rival early
          | inr last => exact List.mem_singleton.mp last ▸ free
        · intro name absent
          simp only [List.map_append, List.mem_append, not_or] at absent
          exact others name absent.1

/-- Whatever is held, a selectable host that is free can be made some other workspace's. -/
theorem exists_holder (exclusive : config.defaults.leaseMode = .exclusive) {host : HostConfig}
    (selectable : Selectable config host) (calls : List SelectionCall)
    (free : (after config calls).leases.holder host.name = none) (known : String) :
    ∃ more workspaceID, workspaceID ≠ known ∧
      Extends (after config calls) (after config (calls ++ more)) ∧
      (after config (calls ++ more)).Holds workspaceID host := by
  obtain ⟨request, found⟩ := selectable
  obtain ⟨-, earlier, later, offer, others⟩ := List.find?_eq_some_iff_append.mp found
  obtain ⟨more, grown, full, same⟩ := exists_full exclusive request calls earlier (host :: later) offer
  have absent : host.name ∉ earlier.map HostConfig.name := by
    intro member
    obtain ⟨rival, early, equal⟩ := List.mem_map.mp member
    simpa [equal] using others rival early
  have still : (after config (calls ++ more)).leases.holder host.name = none := (same _ absent).trans free
  obtain ⟨workspaceID, nonempty, different, newcomer⟩ :=
    exists_newcomer (after config (calls ++ more)).leases known
  obtain ⟨selected, holder⟩ := step_newcomer exclusive nonempty newcomer offer full still 0
  rw [← after_concat, List.append_assoc] at selected holder
  refine ⟨_, workspaceID, different, grown.trans (extends_of_update still selected holder), ?_, ?_⟩
  · rw [selected]
    exact List.mem_cons_self ..
  · rw [holder, Function.update_self]

/-- Two hosts of different names can be held at the same time. -/
theorem exists_both (exclusive : config.defaults.leaseMode = .exclusive) {one other : HostConfig}
    (selectable : Selectable config one) (selectable' : Selectable config other)
    (different : one.name ≠ other.name) :
    ∃ calls first second, first ≠ second ∧ (after config calls).Holds first one ∧
      (after config calls).Holds second other := by
  obtain ⟨calls, first, -, -, holds⟩ := exists_holder exclusive selectable [] rfl ""
  -- whoever took the other host on the way gives it up
  obtain ⟨more, free, kept⟩ : ∃ more, (after config (calls ++ more)).leases.holder other.name = none ∧
      (after config (calls ++ more)).Holds first one := by
    cases taken : (after config calls).leases.holder other.name with
    | none => exact ⟨[], by rwa [List.append_nil], by rwa [List.append_nil]⟩
    | some occupant =>
        refine ⟨[.release other.name occupant], ?_⟩
        simp only [after_concat, Holds, step, LeaseManager.holder_release, taken, if_true,
          Function.update_self, Function.update_of_ne different, List.mem_filter, decide_eq_true_eq,
          true_and]
        exact ⟨⟨holds.1, fun own => different own.2⟩, holds.2⟩
  obtain ⟨rest, second, apart, grown, holds'⟩ :=
    exists_holder exclusive selectable' (calls ++ more) free first
  exact ⟨_, first, second, apart.symm, grown.holds kept, holds'⟩

/-- The machines are protected exactly if one machine cannot be selected under two names. -/
theorem protected_iff_distinct (exclusive : config.defaults.leaseMode = .exclusive) :
    Protected config ↔ Distinct config := by
  constructor
  · intro guarded one other selectable selectable' same
    by_contra different
    obtain ⟨calls, first, second, apart, holds, holds'⟩ :=
      exists_both exclusive selectable selectable' different
    exact guarded calls first second one other apart holds holds' same
  · exact protected_of_distinct

theorem mem_hosts_of_selectable {host : HostConfig} (selectable : Selectable config host) :
    ∃ name provider, config.providers.get name = some provider ∧ host ∈ provider.hosts := by
  obtain ⟨request, found⟩ := selectable
  have member := List.mem_of_find?_eq_some found
  cases known : config.providers.get request.provider with
  | none => simp [ProviderRegistry.offered, known] at member
  | some provider =>
      simp only [ProviderRegistry.offered, known, ProviderRegistry.candidates] at member
      refine ⟨request.provider, provider, known, ?_⟩
      split at member <;> exact (List.mem_filter.mp member).1

theorem protected_of_two_machines : Protected (oneProvider "lab" [web, db] (List.cons_ne_nil _ _)) := by
  have only : ∀ host, Selectable (oneProvider "lab" [web, db] (List.cons_ne_nil _ _)) host →
      host = web ∨ host = db := by
    intro host selectable
    obtain ⟨name, provider, known, member⟩ := mem_hosts_of_selectable selectable
    simp only [oneProvider, OrderedMap.get_set, OrderedMap.get_empty] at known
    split at known
    · cases known
      simpa using member
    · cases known
  apply (protected_iff_distinct rfl).mpr
  intro one other selectable selectable' same
  rcases only one selectable with rfl | rfl <;> rcases only other selectable' with rfl | rfl
  · rfl
  · exact absurd same (by decide)
  · exact absurd same (by decide)
  · rfl

/-- One machine, entered under two names. -/
def enteredTwice : PluginConfig :=
  let entry (name : String) : HostInput :=
    ⟨some name, none, some ⟨some "10.0.0.2", some "ops", none, none, none⟩, none⟩
  ⟨none, none, none, none,
    some (OrderedMap.empty.set "lab" ⟨none, none, some [entry "web", entry "www"]⟩)⟩

/-- Two workspaces lease the machine under its two names. -/
theorem not_protected_of_entered_twice :
    ¬∀ (resolve : String → String) (defaultStubBinary : String) (input : PluginConfig),
      (resolveConfig resolve defaultStubBinary input).defaults.leaseMode = .exclusive →
      Protected (resolveConfig resolve defaultStubBinary input) := by
  intro always_protected
  have guarded := always_protected id "/opt/stub" enteredTwice rfl
  refine guarded [.acquireResolved ⟨"lab", some "web", none⟩ "w" 1,
    .acquireResolved ⟨"lab", some "www", none⟩ "v" 2] "w" "v" ?_ ?_ (by decide) ?_ ?_ ?_
  · exact ⟨"web", none, ⟨"10.0.0.2", "ops", none, none, none, by decide, by decide⟩, none, by decide⟩
  · exact ⟨"www", none, ⟨"10.0.0.2", "ops", none, none, none, by decide, by decide⟩, none, by decide⟩
  · simp only [Holds]
    decide
  · simp only [Holds]
    decide
  · rfl

end Tenure

end OpencodeRemote.Plugin
