import OpencodeRemote.Stub.Accounts

/-! # Confinement to approved subtrees

A lookup compares strings while a command runs in a directory. The first part says for
which spellings a textual match is a descent in the tree; the second carries this through
whole runs, from a command back to the reply which approved it.
-/

namespace OpencodeRemote.Stub

open Concurrency Data Filepath

/-! ## Spellings -/

/-- The directory of a subtree pattern. -/
def directory (pattern : GoString) : GoString := pattern.take (pattern.length - subtree.length)

@[simp] theorem directory_subtree (d : GoString) : directory (d ++ subtree) = d := by
  simp [directory]

/-- `d` is a directory, and what `cwd` says after `d/` comes back to it: as many levels
    as it climbs out of `d`, it descends again by the same names. -/
def StaysBelow (d cwd : GoString) : Prop :=
  d ≠ [] ∧
    let suffix := relative (cwd.drop (d.length + 1))
    (clean d).comps.drop ((clean d).comps.length - suffix.1) <+: suffix.2

instance (d cwd : GoString) : Decidable (StaysBelow d cwd) := inferInstanceAs (Decidable (_ ∧ _))

/-- A suffix without `..` stays below whatever directory it is read from. -/
theorem staysBelow_of_level {d cwd : GoString} (nonempty : d ≠ [])
    (level : (relative (cwd.drop (d.length + 1))).1 = 0) : StaysBelow d cwd := by
  refine ⟨nonempty, ?_⟩
  simp [level]

private theorem prefix_take_append {names below : List GoString} {n : Nat} :
    names <+: names.take n ++ below ↔ names.drop n <+: below := by
  conv_lhs => lhs; rw [← List.take_append_drop n names]
  exact List.prefix_append_right_inj _

/-- For an absolute `cwd` which `d/**` matches, `StaysBelow` decides between a descendant
    of `d` and a place outside. -/
theorem staysBelow_iff {d cwd : GoString} (rooted : isAbs cwd = true)
    (matched : matchPattern (d ++ subtree) cwd = true) :
    StaysBelow d cwd ↔ (clean d).Under (clean cwd) := by
  rcases matchPattern_subtree.mp matched with rfl | ⟨rest, rfl⟩
  · have nonempty : cwd ≠ [] := by
      rintro rfl
      cases rooted
    have level : (relative (cwd.drop (cwd.length + 1))).1 = 0 := by
      rw [List.drop_of_length_le (by omega)]
      rfl
    exact ⟨fun _ => CleanPath.under_refl _, fun _ => staysBelow_of_level nonempty level⟩
  · simp only [List.append_assoc, List.singleton_append] at rooted ⊢
    by_cases empty : d = []
    · subst empty
      constructor
      · intro stays
        exact absurd rfl stays.1
      · intro under
        cases under.1.trans rooted
    · have rooted_d : isAbs d = true := by rwa [isAbs_append _ empty] at rooted
      have suffix : (d ++ slash :: rest).drop (d.length + 1) = rest := by simp
      simp only [StaysBelow, suffix, clean_append_rooted rooted_d, CleanPath.Under,
        prefix_take_append]
      exact ⟨fun stays => ⟨rooted_d, stays.2⟩, fun under => ⟨empty, under.2⟩⟩

/-! ## Runs -/

/-- `a` answers a lookup of this workspace and directory. -/
def Covers (a : Approval) (workspaceID cwd : GoString) : Prop :=
  a.workspaceID = workspaceID ∧ matchPattern a.pattern cwd = true

instance (a : Approval) (workspaceID cwd : GoString) : Decidable (Covers a workspaceID cwd) :=
  inferInstanceAs (Decidable (_ ∧ _))

/-- A lookup for an absolute directory which some approval answers meets an approval
    whose directory the spelling does not leave. -/
def SoundLookup (s : State) (workspaceID cwd : GoString) : Prop :=
  isAbs cwd = true → (∃ entry ∈ s.approvals.entries, Covers entry.2 workspaceID cwd) →
    ∃ entry ∈ s.approvals.entries,
      Covers entry.2 workspaceID cwd ∧ StaysBelow (directory entry.2.pattern) cwd

instance (s : State) (workspaceID cwd : GoString) : Decidable (SoundLookup s workspaceID cwd) :=
  inferInstanceAs (Decidable (_ → _ → _))

def lookedUp : Op → Option (GoString × GoString)
  | .consumeApproval workspaceID cwd => some (workspaceID, cwd)
  | _ => none

def SoundEntry (entry : StubEntry) : Prop :=
  ∀ lookup ∈ lookedUp entry.event.op, SoundLookup entry.before lookup.1 lookup.2

instance (entry : StubEntry) : Decidable (SoundEntry entry) :=
  inferInstanceAs (Decidable (∀ lookup ∈ lookedUp entry.event.op, _))

/-- An approving reply before entry `i`, to a request of the workspace whose operation
    asked for a directory at or above `cwd`. -/
def Authorised (log : Log) (i : Nat) (workspaceID cwd : GoString) : Prop :=
  ∃ k p reply m asked, k < i ∧ replied log k = some (p, reply) ∧ Approving reply ∧
    m < k ∧ raised log m = some (p, asked) ∧ p.workspaceID = workspaceID ∧
    (clean asked).Under (clean cwd)

/-- Every command that ran in an absolute directory was authorised. -/
def Confined (log : Log) : Prop :=
  ∀ i se cwd, ran log i = some (se, cwd) → isAbs cwd = true → Authorised log i se.workspaceID cwd

theorem Authorised.mono {log : Log} {entry : StubEntry} {i : Nat} {workspaceID cwd : GoString}
    (authorised : Authorised log i workspaceID cwd) : Authorised (log ++ [entry]) i workspaceID cwd := by
  obtain ⟨k, p, reply, m, asked, early, answered, approving, earlier, filed, own, under⟩ := authorised
  exact ⟨k, p, reply, m, asked, early, observe_mono answered, approving, earlier,
    observe_mono filed, own, under⟩

/-- A sound lookup of an absolute directory that finds anything is authorised by what is
    in memory at that moment. -/
theorem soundLookup_authorised {s : State} {log : Log} (lawful : Lawful Protocol log)
    (requests : RequestsRaised s log) (accounted : Accounted s log) {workspaceID cwd : GoString}
    (sound : SoundLookup s workspaceID cwd) (rooted : isAbs cwd = true)
    (some : ∃ entry ∈ s.approvals.entries, Covers entry.2 workspaceID cwd) :
    Authorised log log.length workspaceID cwd := by
  obtain ⟨⟨id, a⟩, member, ⟨own, matched⟩, stays⟩ := sound rooted some
  obtain ⟨k, p, m, asked, early, answered, approving, earlier, filed, same, spelled⟩ :=
    approval_provenance lawful requests accounted (OrderedMap.mem_entries.mp member)
  simp only [spelled, directory_subtree] at matched stays
  exact ⟨k, p, a.mode, m, asked, early, answered, approving, earlier, filed, same.trans own,
    (staysBelow_iff rooted matched).mp stays⟩

/-- While all lookups are sound, whatever a lookup of an absolute directory finds is
    authorised. -/
structure Confining (s : State) (log : Log) : Prop where
  requests : RequestsRaised s log
  accounted : Accounted s log
  authorised : (∀ entry ∈ log, SoundEntry entry) → ∀ i workspaceID cwd a,
    found log i = some (workspaceID, cwd, a) → isAbs cwd = true → Authorised log i workspaceID cwd

theorem confining_preserved (startedAt : Int) (scope : StubScope) :
    (server startedAt).Preserves Protocol scope Confining := by
  intro s log thread o env within lawful inv
  have requests := requestsRaised_preserved startedAt scope s log thread o env within lawful inv.requests
  have accounted := accounted_preserved startedAt scope s log thread o env within lawful inv.accounted
  refine ⟨requests, accounted, ?_⟩
  intro sound i workspaceID cwd a lookup rooted
  rcases observe_snoc.mp lookup with older | ⟨rfl, seen⟩
  · have before : ∀ entry ∈ log, SoundEntry entry :=
      fun entry member => sound entry (List.mem_append_left _ member)
    exact (inv.authorised before i workspaceID cwd a older rooted).mono
  · apply Authorised.mono
    have here := sound _ (List.mem_append_right _ (List.mem_singleton.mpr rfl))
    obtain ⟨rfl, -, id, hit⟩ := consumeApproval_of_foundView seen
    obtain ⟨stored, own, matched⟩ := State.findApproval_some hit
    apply soundLookup_authorised (lawful_init lawful) inv.requests inv.accounted (here _ rfl) rooted
    exact ⟨(id, a), OrderedMap.mem_entries.mpr stored, own, matched⟩

/-- In every run of a stub that starts without approvals, while every lookup of an absolute
    directory is sound, commands run only in directories at or below approved ones. -/
theorem confined_of_sound_lookups (startedAt : Int) (root : GoString)
    (disk : OrderedMap CleanPath FileData) (none : (State.startUp root disk).approvals = .empty)
    (labels : List StubLabel) (running : ∀ label ∈ labels, label.Within oneProcess)
    (sound : ∀ entry ∈ ((server startedAt).run (State.startUp root disk) labels).log, SoundEntry entry) :
    Confined ((server startedAt).run (State.startUp root disk) labels).log := by
  have confining := run_preserved running (fun _ => not_false) (confining_preserved startedAt oneProcess)
    ⟨startUp_requestsRaised root disk, startUp_accounted none, fun _ _ _ _ _ lookup => by cases lookup⟩
  have lawful : Lawful Protocol ((server startedAt).run (State.startUp root disk) labels).log :=
    run_protocol running
  intro i se cwd executed rooted
  obtain ⟨k, early, a, lookup, -⟩ := ran_found lawful executed
  obtain ⟨j, p, reply, m, asked, before, rest⟩ := confining.authorised sound k _ _ a lookup rooted
  exact ⟨j, p, reply, m, asked, by omega, rest⟩

/-- A session of `w` asks for `/srv/app` at 3 and is approved once; at 5 it asks for `cwd`. -/
def approvedThen (cwd : GoString) : Log :=
  ((server 0).run (State.startUp (lit "/state") .empty) (script [
    (1, workspacePost (lit "w")), (2, sessionPost (lit "s") (lit "w")),
    (3, shellPost (lit "s") (lit "/srv/app")), (4, replyPost (lit "perm_3") once),
    (5, shellPost (lit "s") cwd)])).log

theorem confined_below_approved :
    (ran (approvedThen (lit "/srv/app/logs/../etc")) 26).isSome ∧
      Confined (approvedThen (lit "/srv/app/logs/../etc")) :=
  ⟨by decide +kernel, confined_of_sound_lookups 0 (lit "/state") .empty rfl _ (script_oneProcess _)
    (by decide +kernel)⟩

/-- Approved for `/srv/app`, run in `/etc`. -/
theorem not_confined_after_climbing :
    ¬∀ startedAt root disk, (State.startUp root disk).approvals = .empty → ∀ labels,
      (∀ label ∈ labels, label.Within oneProcess) →
        Confined ((server startedAt).run (State.startUp root disk) labels).log := by
  intro always_confined
  have confined : Confined (approvedThen (lit "/srv/app/../../etc")) :=
    always_confined 0 _ .empty rfl _ (script_oneProcess _)
  have executed : ran (approvedThen (lit "/srv/app/../../etc")) 26 =
      some (⟨lit "s", lit "w", [], lit "/root", ⟨lit "idle", []⟩, 2, 2⟩, lit "/srv/app/../../etc") := by
    decide +kernel
  have only : ∀ m < (approvedThen (lit "/srv/app/../../etc")).length,
      ∀ request ∈ raised (approvedThen (lit "/srv/app/../../etc")) m, request.2 = lit "/srv/app" := by
    decide +kernel
  obtain ⟨-, p, -, m, asked, -, -, -, -, filed, -, under⟩ := confined 26 _ _ executed (by decide)
  have asked_app : asked = lit "/srv/app" := only m (observe_lt filed) (p, asked) filed
  subst asked_app
  revert under
  decide

end OpencodeRemote.Stub
