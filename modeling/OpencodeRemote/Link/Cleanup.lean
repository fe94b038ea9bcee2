import OpencodeRemote.Link.Fetch
import OpencodeRemote.Link.Reuse

/-! # Removing what was created

The id of a workspace has the name in it that the user gave. It goes to the stub in a JSON
body when the workspace is created and as a part of a URL when it is removed.
-/

namespace OpencodeRemote.Link

open Concurrency Data
open Stub (GoString lit slash dot dotdot elements)
open Stub.Strings (hasSuffix)

def workspaceDir : GoString := lit "/experimental/workspace/"
def sessionDir : GoString := lit "/session/"

/-! ## Names -/

theorem utf8_append (s t : String) : utf8 (s ++ t) = utf8 s ++ utf8 t := by
  rw [utf8, String.toList_append, List.flatMap_append, utf8, utf8]

/-- A byte below 128 is a character of its own. -/
theorem ascii_of_mem_utf8EncodeChar {c : Char} {b : UInt8} (member : b ∈ String.utf8EncodeChar c) (small : b < 128) :
    b.toNat = c.toNat := by
  have value : c.val.toNat = c.toNat := rfl
  have bound : b.toNat < 128 := small
  have wide : c.toNat < 0x110000 := by
    rcases c.valid with low | high
    · have := low
      simp only [Char.toNat, UInt32.toNat] at *
      omega
    · exact high.2
  simp only [String.utf8EncodeChar, value] at member
  repeat' split at member
  all_goals
    simp only [List.mem_cons, List.not_mem_nil, or_false] at member
    rcases member with rfl | rfl | rfl | rfl <;> simp [UInt8.toNat_ofNat'] at bound ⊢ <;> omega

theorem char_of_mem_utf8 {s : String} {b : UInt8} (member : b ∈ utf8 s) (small : b < 128) :
    ∃ c ∈ s.toList, b.toNat = c.toNat := by
  obtain ⟨c, inside, encoded⟩ := List.mem_flatMap.mp member
  exact ⟨c, inside, ascii_of_mem_utf8EncodeChar encoded small⟩

/-- A number is written in digits. -/
theorem digit_of_mem_utf8 {n : Nat} {b : UInt8} (member : b ∈ utf8 (toString n)) : 48 ≤ b ∧ b ≤ 57 := by
  obtain ⟨c, inside, encoded⟩ := List.mem_flatMap.mp member
  have digits : (toString n).toList = Nat.toDigits 10 n := by
    simp [Nat.repr]
  rw [digits] at inside
  have digit := Nat.isDigit_of_mem_toDigits (by decide) (by decide) inside
  have range : 48 ≤ c.toNat ∧ c.toNat ≤ 57 := by
    simpa [Char.isDigit, UInt32.le_iff_toNat_le] using digit
  have value : c.val.toNat = c.toNat := rfl
  have short : c.val.toNat ≤ 127 := by omega
  rw [String.utf8EncodeChar, if_pos short, List.mem_singleton, value] at encoded
  subst encoded
  rw [UInt8.le_iff_toNat_le, UInt8.le_iff_toNat_le]
  simp
  omega

/-! ## Paths of workspaces -/

theorem splitOn_append {front : GoString} (free : slash ∉ front) (rest : GoString) :
    (front ++ rest).splitOn slash = (rest.splitOn slash).modifyHead (front ++ ·) := by
  induction front with
  | nil =>
      rw [List.nil_append]
      cases rest.splitOn slash <;> rfl
  | cons c front ih =>
      simp only [List.mem_cons, not_or] at free
      have other : ¬(c == slash) = true := fun same => free.1 (eq_of_beq same).symm
      rw [List.cons_append, List.splitOn_cons_eq_if_modifyHead, if_neg other, ih free.2, List.modifyHead_modifyHead]
      rfl

theorem splitOn_word {word : GoString} (free : slash ∉ word) (rest : GoString) :
    (word ++ slash :: rest).splitOn slash = word :: rest.splitOn slash := by
  rw [splitOn_append free, List.splitOn_cons_eq_if_modifyHead, if_pos (beq_self_eq_true slash), List.modifyHead_cons,
    List.append_nil]

theorem elements_workspaceDir (id : GoString) :
    elements (workspaceDir ++ id) = lit "experimental" :: lit "workspace" :: id.splitOn slash := by
  have written : (workspaceDir ++ id).drop 1 = lit "experimental" ++ slash :: (lit "workspace" ++ slash :: id) := rfl
  rw [elements, written, splitOn_word (by decide), splitOn_word (by decide)]

theorem elements_sessionDir (id : GoString) : elements (sessionDir ++ id) = lit "session" :: id.splitOn slash := by
  have written : (sessionDir ++ id).drop 1 = lit "session" ++ slash :: id := rfl
  rw [elements, written, splitOn_word (by decide)]

/-- What comes before the name in the id of a workspace. -/
def minted (now : Nat) : GoString := lit "remote-" ++ (utf8 (toString now) ++ lit "-")

theorem utf8_mintWorkspaceID (now : Nat) (name : String) :
    utf8 (Plugin.mintWorkspaceID now name) = minted now ++ utf8 (Plugin.dashSpaces name) := by
  have front : utf8 (toString "remote-") = lit "remote-" := by decide
  have dash : utf8 (toString "-") = lit "-" := by decide
  simp only [Plugin.mintWorkspaceID, utf8_append, front, dash, minted, List.append_assoc]
  rfl

/-- A byte that means nothing in a URL. -/
def Plainspoken (c : UInt8) : Prop :=
  32 < c ∧ Url.isTabOrNewline c = false ∧ c ≠ 63 ∧ c ≠ 35 ∧ c ≠ Url.backslash ∧ c ≠ Url.percent ∧ c ≠ slash

instance (c : UInt8) : Decidable (Plainspoken c) := inferInstanceAs (Decidable (_ ∧ _))

theorem plainspoken_of_digit {c : UInt8} (digit : 48 ≤ c ∧ c ≤ 57) : Plainspoken c := by
  revert c
  apply Url.forall_byte
  decide +kernel

theorem plainspoken_minted {now : Nat} {c : UInt8} (member : c ∈ minted now) : Plainspoken c := by
  have letters : ∀ c ∈ lit "remote-", Plainspoken c := by decide +kernel
  have dash : ∀ c ∈ lit "-", Plainspoken c := by decide +kernel
  rcases List.mem_append.mp member with front | rest
  · exact letters c front
  rcases List.mem_append.mp rest with number | last
  · exact plainspoken_of_digit (digit_of_mem_utf8 number)
  · exact dash c last

/-- A name that can stand in a path as it is: no mark of a URL, nothing at the end that is left
    out, no piece between slashes that cleaning takes away, and not the suffix of another route. -/
structure Addressable (name : GoString) : Prop where
  last : ∀ c ∈ name.getLast?, 32 < c
  marks : ∀ c ∈ name, c ≠ 63 ∧ c ≠ 35 ∧ c ≠ Url.backslash ∧ c ≠ Url.percent
  plain : ∀ piece ∈ (name.splitOn slash).tail, piece ≠ [dot] ∧ piece ≠ dotdot
  whole : ∀ piece ∈ (name.splitOn slash).tail.dropLast, piece ≠ []
  routed : hasSuffix name (lit "/session-restore") = false

theorem minted_append_ne (now : Nat) (s : GoString) :
    minted now ++ s ≠ [] ∧ minted now ++ s ≠ [dot] ∧ minted now ++ s ≠ dotdot ∧
      minted now ++ s ≠ lit "adaptor" ∧ minted now ++ s ≠ lit "status" := by
  have first : (minted now ++ s).head? = some 114 := rfl
  refine ⟨?_, ?_, ?_, ?_, ?_⟩ <;>
  · intro same
    rw [same] at first
    exact absurd first (by decide)

theorem canonical_minted_iff (now : Nat) (s : GoString) : Stub.Canonical (workspaceDir ++ (minted now ++ s)) ↔
    (∀ piece ∈ (s.splitOn slash).tail, piece ≠ [dot] ∧ piece ≠ dotdot) ∧
      ∀ piece ∈ (s.splitOn slash).tail.dropLast, piece ≠ [] := by
  have free : slash ∉ minted now := fun inside => (plainspoken_minted inside).2.2.2.2.2.2 rfl
  obtain ⟨first, rest, split⟩ := List.exists_cons_of_ne_nil (List.splitOn_ne_nil slash s)
  have names : elements (workspaceDir ++ (minted now ++ s)) =
      lit "experimental" :: lit "workspace" :: (minted now ++ first) :: rest := by
    rw [elements_workspaceDir, splitOn_append free, split, List.modifyHead_cons]
  have words : (lit "experimental" ≠ [] ∧ lit "workspace" ≠ []) ∧ (lit "experimental" ≠ [dot] ∧
      lit "experimental" ≠ dotdot) ∧ lit "workspace" ≠ [dot] ∧ lit "workspace" ≠ dotdot := by decide
  obtain ⟨⟨experimental, workspace⟩, experimental', workspace'⟩ := words
  obtain ⟨nonempty, notDot, notDotdot, -, -⟩ := minted_append_ne now first
  rw [split, List.tail_cons]
  constructor
  · intro canonical
    have plain := canonical.plain
    have whole := canonical.whole
    rw [names] at plain whole
    refine ⟨fun piece member => plain piece (by simp [member]), fun piece member => whole piece ?_⟩
    cases rest with
    | nil => cases member
    | cons second rest => simp [List.dropLast, member]
  · intro ⟨plain, whole⟩
    refine ⟨rfl, ?_, ?_⟩
    · rw [names]
      cases rest with
      | nil => simp [List.dropLast, experimental, workspace]
      | cons second rest =>
          simp only [List.dropLast_cons_cons, List.forall_mem_cons]
          exact ⟨experimental, workspace, nonempty, whole⟩
    · rw [names]
      simp only [List.forall_mem_cons]
      exact ⟨experimental', workspace', ⟨notDot, notDotdot⟩, plain⟩

theorem hasSuffix_append {front : GoString} (free : slash ∉ front) (s rest : GoString) :
    hasSuffix (front ++ s) (slash :: rest) = hasSuffix s (slash :: rest) := by
  rw [Bool.eq_iff_iff, hasSuffix, hasSuffix, List.isSuffixOf_iff_suffix, List.isSuffixOf_iff_suffix]
  constructor
  · intro ends
    rcases List.suffix_or_suffix_of_suffix ends (List.suffix_append front s) with inside | ⟨more, same⟩
    · exact inside
    · cases more with
      | nil => exact same ▸ List.suffix_refl _
      | cons c more =>
          obtain ⟨before, whole⟩ := ends
          cases (List.cons.inj same).1
          rw [← same, ← List.append_assoc] at whole
          have inside : slash ∈ before ++ slash :: more := by simp
          exact absurd (List.append_cancel_right whole ▸ inside) free
  · exact fun inside => inside.trans (List.suffix_append front s)

theorem addressable_iff (now : Nat) {s : GoString} (solid : ∀ c ∈ s, Url.isTabOrNewline c = false) :
    Addressable s ↔ Url.Faithful (workspaceDir ++ (minted now ++ s)) ∧
      hasSuffix (minted now ++ s) (lit "/session-restore") = false := by
  have free : slash ∉ minted now := fun inside => (plainspoken_minted inside).2.2.2.2.2.2 rfl
  have suffix : hasSuffix (minted now ++ s) (lit "/session-restore") = hasSuffix s (lit "/session-restore") :=
    hasSuffix_append free s (lit "session-restore")
  have dir : ∀ c ∈ workspaceDir, 32 < c ∧ Url.isTabOrNewline c = false ∧ c ≠ 63 ∧ c ≠ 35 ∧ c ≠ Url.backslash ∧
      c ≠ Url.percent := by decide +kernel
  have written : workspaceDir ++ (minted now ++ s) = (workspaceDir ++ minted now) ++ s := (List.append_assoc ..).symm
  rw [suffix]
  constructor
  · intro addressable
    refine ⟨⟨(canonical_minted_iff now s).mpr ⟨addressable.plain, addressable.whole⟩, ?_, ?_⟩, addressable.routed⟩
    · intro c ends
      cases s using List.reverseRecOn with
      | nil =>
          rw [List.append_nil] at ends
          rcases List.mem_append.mp (List.mem_of_getLast? ends) with front | last
          · exact (dir c front).1
          · exact (plainspoken_minted last).1
      | append_singleton s d => 
          rw [← List.append_assoc, ← List.append_assoc, List.getLast?_concat] at ends
          exact addressable.last c (by rw [List.getLast?_concat]; exact ends)
    · intro c member
      rcases List.mem_append.mp member with front | rest
      · exact (dir c front).2
      rcases List.mem_append.mp rest with front | inside
      · obtain ⟨-, tab, query, fragment, back, escape, -⟩ := plainspoken_minted front
        exact ⟨tab, query, fragment, back, escape⟩
      · exact ⟨solid c inside, addressable.marks c inside⟩
  · intro ⟨faithful, routed⟩
    obtain ⟨plain, whole⟩ := (canonical_minted_iff now s).mp faithful.canonical
    refine ⟨?_, ?_, plain, whole, routed⟩
    · intro c ends
      refine faithful.last c ?_
      rw [written, List.getLast?_append, Option.mem_def.mp ends]
      rfl
    · intro c inside
      exact (faithful.marks c (by simp [inside])).2

/-! ## The paths of the deletes -/

theorem target_workspace_iff (now : Nat) {s : GoString} (solid : ∀ c ∈ s, Url.isTabOrNewline c = false) :
    target (workspaceDir ++ (minted now ++ s)) = some (.workspace (minted now ++ s)) ↔ Addressable s := by
  obtain ⟨-, -, -, adaptor, status⟩ := minted_append_ne now s
  rw [addressable_iff now solid, ← Url.faithful_iff rfl, target]
  simp only [Option.bind_eq_some_iff, Stub.addressee_workspace_iff]
  constructor
  · rintro ⟨path, read, clean, -, -, routed⟩
    exact ⟨⟨path, read, clean⟩, routed⟩
  · rintro ⟨⟨path, read, clean⟩, routed⟩
    exact ⟨path, read, clean, adaptor, status, routed⟩

theorem utf8_mintSessionID (now : Nat) : utf8 (mintSessionID now) = lit "sess_" ++ utf8 (toString now) := by
  have front : utf8 (toString "sess_") = lit "sess_" := by decide
  simp only [mintSessionID, utf8_append, front]

theorem target_session (now : Nat) : target (sessionDir ++ utf8 (mintSessionID now)) =
    some (.session (utf8 (mintSessionID now))) := by
  have letters : ∀ c ∈ lit "sess_", Plainspoken c := by decide +kernel
  have plain : ∀ c ∈ utf8 (mintSessionID now), Plainspoken c := by
    rw [utf8_mintSessionID]
    intro c member
    rcases List.mem_append.mp member with front | number
    · exact letters c front
    · exact plainspoken_of_digit (digit_of_mem_utf8 number)
  have flat : slash ∉ utf8 (mintSessionID now) := fun inside => (plain slash inside).2.2.2.2.2.2 rfl
  have differs : ∀ other : GoString, other.take 5 ≠ lit "sess_" → utf8 (mintSessionID now) ≠ other := by
    rintro _ other rfl
    exact other (by rw [utf8_mintSessionID, List.take_left' (by decide)])
  have dir : ∀ c ∈ sessionDir, 32 < c ∧ Url.isTabOrNewline c = false ∧ c ≠ 63 ∧ c ≠ 35 ∧ c ≠ Url.backslash ∧
      c ≠ Url.percent := by decide +kernel
  have names : elements (sessionDir ++ utf8 (mintSessionID now)) = [lit "session", utf8 (mintSessionID now)] := by
    have whole := splitOn_append flat []
    rw [List.append_nil] at whole
    rw [elements_sessionDir, whole]
    simp
  have faithful : Url.Faithful (sessionDir ++ utf8 (mintSessionID now)) := by
    refine ⟨⟨rfl, ?_, ?_⟩, ?_, ?_⟩
    · rw [names]
      simp only [List.dropLast, List.mem_singleton, forall_eq]
      decide
    · rw [names]
      simp only [List.forall_mem_cons]
      exact ⟨by decide, ⟨differs _ (by decide), differs _ (by decide)⟩, by simp⟩
    · intro c ends
      rcases List.mem_append.mp (List.mem_of_getLast? ends) with front | last
      · exact (dir c front).1
      · exact (plain c last).1
    · intro c member
      rcases List.mem_append.mp member with front | inside
      · exact (dir c front).2
      · obtain ⟨-, tab, query, fragment, back, escape, -⟩ := plain c inside
        exact ⟨tab, query, fragment, back, escape⟩
  rw [target, Url.requestPath_of_faithful faithful, Option.bind_some, Stub.cleanPath_of_canonical faithful.canonical]
  exact Stub.addressee_session flat (differs _ (by decide))

/-! ## What a creation leaves on the stub -/

section Creation

variable (startedAt : Int) (c : Contribution) (localPort : Int) (token : String) (σ : Stub.State)

def workspaceRequest (id provider host : String) : Plugin.FetchRequest :=
  ⟨"POST", localPort, "/experimental/workspace", some token,
    some (.workspace id "ssh-provider" "Remote Workspace" provider host)⟩

theorem serve_workspace {r : Stub.Request} (path : r.path = lit "/experimental/workspace") :
    Stub.serve startedAt r = Stub.workspaceList r := by
  have others : Stub.cleanPath (lit "/experimental/workspace") = lit "/experimental/workspace" ∧
      lit "/experimental/workspace" ≠ lit "/global/health" ∧ lit "/experimental/workspace" ≠ lit "/global/event" ∧
      lit "/experimental/workspace" ≠ lit "/experimental/workspace/adaptor" := by decide
  obtain ⟨clean, health, event, adaptor⟩ := others
  simp only [Stub.serve, path, clean, health, event, adaptor, ne_eq, not_true_eq_false, if_false, if_true]

/-- A workspace that the stub says it has created is there. -/
theorem workspace_stored (id provider host : String)
    (accepted : (answer startedAt c (workspaceRequest localPort token id provider host) σ).1.ok = true) :
    (answer startedAt c (workspaceRequest localPort token id provider host) σ).2.lookup (.workspace (utf8 id)) ≠
      none := by
  have fixed : utf8 "/experimental/workspace" = lit "/experimental/workspace" ∧ utf8 "POST" = Stub.methodPost ∧
      Stub.methodPost ≠ Stub.methodGet := by decide
  obtain ⟨path, method, get⟩ := fixed
  have wired : wire (workspaceRequest localPort token id provider host) = ⟨Stub.methodPost,
      lit "/experimental/workspace",
      decode (some (.workspace id "ssh-provider" "Remote Workspace" provider host))⟩ := by
    simp only [wire, workspaceRequest, path, method]
  have handled := serve_workspace startedAt (congrArg Stub.Request.path wired)
  rw [answer] at accepted ⊢
  rcases mux_cases c.token startedAt (authorization (workspaceRequest localPort token id provider host))
    (wire (workspaceRequest localPort token id provider host)) with served | ⟨message, refused⟩
  · have stored : ∀ (env : Stub.Env) (ws : Stub.Workspace),
        (σ.createWorkspace env ws).2.lookup (.workspace ws.id) ≠ none := by
      intro env ws
      simp [Stub.State.lookup, Stub.State.getWorkspace, Stub.State.createWorkspace, Stub.State.saveWorkspace]
    rw [served, handled, wired]
    simp only [Stub.workspaceList, get, if_false, if_true, decode, Stub.call, Program.bind_eq, Program.perform_bind,
      Program.run_op, Stub.exec]
    generalize made : Stub.newWorkspace _ _ = ws
    have named : utf8 id = ws.id := by
      subst made
      rfl
    rw [named]
    cases (σ.createWorkspace (c.stub (0 + 1)) ws).1 with
    | some err => exact stored _ ws
    | none => exact stored _ ws
  · rw [refused] at accepted
    cases accepted

/-- Creating a session is about no other resource. -/
theorem session_answer_lookup (sessionID title workspaceID : String) {resource : Stub.Resource}
    (other : ∀ id, resource ≠ .session id) :
    (answer startedAt c (sessionRequest localPort token sessionID title workspaceID) σ).2.lookup resource =
      σ.lookup resource := by
  have fixed : utf8 "/session" = lit "/session" ∧ utf8 "POST" = Stub.methodPost ∧
      lit "/session" ≠ lit "/experimental/workspace" ∧ Stub.methodPost ≠ Stub.methodDelete := by decide
  obtain ⟨path, method, workspace, delete⟩ := fixed
  let names : Stub.Naming := ⟨fun resource => ∃ id, resource = .session id, fun _ => False⟩
  have allowed : names.Allows (wire (sessionRequest localPort token sessionID title workspaceID)) := by
    refine ⟨fun here => ?_, fun _ _ req _ => ⟨fun _ minted => ⟨_, rfl⟩, fun _ => ⟨_, rfl⟩⟩, fun deletion => ?_⟩
    · simp only [wire, sessionRequest, path] at here
      exact absurd here workspace
    · simp only [wire, sessionRequest, method] at deletion
      exact absurd deletion delete
  have created : ¬names.creates resource := by
    rintro ⟨id, same⟩
    exact other id same
  have kept := Stub.serve_lookup names startedAt allowed created not_false c.stub σ
  rw [answer]
  rcases mux_cases c.token startedAt (authorization (sessionRequest localPort token sessionID title workspaceID))
    (wire (sessionRequest localPort token sessionID title workspaceID)) with served | ⟨message, refused⟩
  · rw [served]
    exact kept
  · rw [refused]
    rfl

end Creation

/-! ## Creation and removal -/

section Cleanup

variable {startedAt : Int} {config : Plugin.ResolvedPluginConfig} {env env' : Nat → Contribution}
  {binding : Plugin.WorkspaceBinding} {both both' : Both}

theorem of_transmitted_remote {α : Type} {f : Plugin.Remote α} {a : α}
    (ran : transmitted config startedAt (Plugin.Async.remote f) env both = (.ok a, both', env')) :
    ∃ env₁, transmitted config startedAt (Plugin.Async.outside f) env both = (.ok a, both', env₁) := by
  rw [Plugin.Async.remote, transmitted_outside_await] at ran
  generalize transmitted config startedAt (Plugin.Async.outside f) env both = bare at ran ⊢
  obtain ⟨result, both₁, env₁⟩ := bare
  cases ran
  exact ⟨env₁, rfl⟩

/-- A request of the plugin with a fixed path that has been answered. -/
theorem of_transmitted_fetch {request : Plugin.FetchRequest} {response : Plugin.Response}
    (ran : transmitted config startedAt (Plugin.Async.outside (Plugin.Remote.fetch request)) env both =
      (.ok response, both', env')) (faithful : Url.Faithful (utf8 request.path)) :
    response = (answer startedAt (env 0) request both.2).1 ∧
      both'.2 = (answer startedAt (env 0) request both.2).2 := by
  obtain ⟨s, σ⟩ := both
  rw [transmitted_fetch] at ran
  by_cases reaches : (env 0).reaches = true
  · rw [fetch_of_faithful startedAt reaches faithful] at ran
    cases ran
    exact ⟨rfl, rfl⟩
  · rw [fetch, if_neg reaches] at ran
    cases ran

theorem faithful_fixed : ∀ path ∈ ["/experimental/workspace", "/session", "/global/health"], Url.Faithful (utf8 path) := by
  have fixed : ∀ path ∈ ["/experimental/workspace", "/session", "/global/health"], Stub.cleanPath (utf8 path) = utf8 path ∧
      (utf8 path).head? = some slash ∧ ∀ c ∈ utf8 path, 32 < c ∧ Url.isTabOrNewline c = false ∧ c ≠ 63 ∧ c ≠ 35 ∧
        c ≠ Url.backslash ∧ c ≠ Url.percent := by decide +kernel
  intro path listed
  obtain ⟨clean, rooted, marks⟩ := fixed path listed
  exact ⟨(Stub.cleanPath_eq_self_iff rooted).mp clean, fun c last => (marks c (List.mem_of_getLast? last)).1,
    fun c member => (marks c member).2⟩

theorem of_createRemoteWorkspace
    (ran : transmitted config startedAt (Plugin.Async.remote (Plugin.createRemoteWorkspace binding)) env both =
      (.ok (), both', env')) : both'.2.lookup (.workspace (utf8 binding.workspaceID)) ≠ none := by
  obtain ⟨env₁, ran⟩ := of_transmitted_remote ran
  rw [Plugin.createRemoteWorkspace, Plugin.Async.outside_bind] at ran
  obtain ⟨response, both₁, env₂, posted, rest⟩ := Plugin.Async.of_run_bind _ ran
  obtain ⟨answered, left⟩ := of_transmitted_fetch posted (faithful_fixed "/experimental/workspace" (by simp))
  by_cases ok : response.ok = true
  · rw [if_pos ok] at rest
    cases rest
    rw [left]
    exact workspace_stored startedAt (env 0) binding.localPort binding.token both.2 _ _ _ (answered ▸ ok)
  · rw [if_neg ok, Plugin.Async.outside_bind] at rest
    obtain ⟨text, both₂, env₃, -, last⟩ := Plugin.Async.of_run_bind _ rest
    cases last

theorem of_createRemoteSession {sessionID : String}
    (ran : transmitted config startedAt (Plugin.Async.remote (Plugin.createRemoteSession binding)) env both =
      (.ok sessionID, both', env')) : ∃ now, sessionID = mintSessionID now ∧
        both'.2.lookup (.session (utf8 sessionID)) ≠ none ∧
          ∀ resource, (∀ id, resource ≠ .session id) → both'.2.lookup resource = both.2.lookup resource := by
  obtain ⟨env₁, ran⟩ := of_transmitted_remote ran
  rw [Plugin.createRemoteSession, Plugin.Async.outside_bind] at ran
  obtain ⟨now, both₁, env₂, read, ran⟩ := Plugin.Async.of_run_bind _ ran
  cases read
  rw [Plugin.Async.outside_bind] at ran
  obtain ⟨response, both₂, env₃, posted, rest⟩ := Plugin.Async.of_run_bind _ ran
  obtain ⟨answered, left⟩ := of_transmitted_fetch posted (faithful_fixed "/session" (by simp))
  by_cases ok : response.ok = true
  · rw [if_pos ok] at rest
    cases rest
    refine ⟨(env 0).plugin.answer .now, rfl, ?_, fun resource other => ?_⟩
    · rw [left]
      let sessionID := mintSessionID ((env 0).plugin.answer .now)
      have named := mintSessionID_nonempty ((env 0).plugin.answer .now)
      obtain ⟨session, stored, -⟩ := session_stored startedAt (env 1) binding.localPort binding.token both.2 named
        "Remote Session" binding.workspaceID (by rw [← ok, answered]; rfl)
      have there : (answer startedAt (env 1) (sessionRequest binding.localPort binding.token sessionID "Remote Session"
          binding.workspaceID) both.2).2.lookup (.session (utf8 sessionID)) = some (.inr session) := by
        rw [Stub.State.lookup, stored, Option.map_some]
      exact fun gone => Option.some_ne_none _ (there.symm.trans gone)
    · rw [left]
      exact session_answer_lookup startedAt (env 1) binding.localPort binding.token both.2 _ _ _ other
  · rw [if_neg ok, Plugin.Async.outside_bind] at rest
    obtain ⟨text, both₃, env₄, -, last⟩ := Plugin.Async.of_run_bind _ rest
    cases last

/-- The resources that a binding stands for. -/
def ownResources (binding : Plugin.WorkspaceBinding) : List Stub.Resource :=
  .workspace (utf8 binding.workspaceID) ::
    (Plugin.truthy binding.sessionID).toList.map fun sessionID => .session (utf8 sessionID)

/-- The binding's resources are gone, and all others are as they were. -/
def Removed (binding : Plugin.WorkspaceBinding) (before after : Stub.State) : Prop :=
  ∀ resource, after.lookup resource = if resource ∈ ownResources binding then none else before.lookup resource

theorem of_createConnectedBinding {manager : Plugin.SSHManager} {providerName : String} {host : Option String}
    {workspaceName : String}
    (ran : transmitted manager.config startedAt
      (Plugin.createConnectedBinding manager providerName host workspaceName) env both = (.ok binding, both', env')) :
    (∃ now now', binding.workspaceID = Plugin.mintWorkspaceID now workspaceName ∧
        binding.sessionID = some (mintSessionID now')) ∧
      ∀ resource ∈ ownResources binding, both'.2.lookup resource ≠ none := by
  obtain ⟨now, both₁, env₁, -, ran⟩ := Plugin.Async.of_run_bind _ ran
  obtain ⟨selection, both₂, env₂, -, ran⟩ := Plugin.Async.of_run_bind _ ran
  have body := Plugin.Async.of_run_caught _ (fun e env s => ⟨e, rfl⟩) ran
  obtain ⟨bootstrap, both₃, env₃, -, body⟩ := Plugin.Async.of_run_bind _ body
  obtain ⟨⟨⟩, both₄, env₄, workspace, body⟩ := Plugin.Async.of_run_bind _ body
  obtain ⟨sessionID, both₅, env₅, session, body⟩ := Plugin.Async.of_run_bind _ body
  obtain ⟨⟨⟩, both₆, env₆, set, last⟩ := Plugin.Async.of_run_bind _ body
  have created := of_createRemoteWorkspace workspace
  obtain ⟨now', rfl, opened, kept⟩ := of_createRemoteSession session
  have left : both₆.2 = both₅.2 := (congrArg (fun result => result.2.1.2) set).symm
  cases last
  have given : mintSessionID now' ≠ "" := fun empty => mintSessionID_nonempty now' (by rw [empty]; rfl)
  refine ⟨⟨now, now', rfl, rfl⟩, ?_⟩
  rw [left]
  simp only [ownResources, Plugin.truthy_some given, Option.toList_some, List.map_cons, List.map_nil,
    List.forall_mem_cons]
  refine ⟨?_, opened, by simp⟩
  rw [kept _ (by simp)]
  exact created

/-- All deletes get through to the stub whose token the binding has. -/
def Working (binding : Plugin.WorkspaceBinding) (env : Nat → Contribution) : Prop :=
  ∀ n, Authorized (env n) binding.token

theorem solid_dashSpaces (name : String) : ∀ c ∈ utf8 (Plugin.dashSpaces name), Url.isTabOrNewline c = false := by
  intro c member
  by_contra blank
  have cases_ : c = 9 ∨ c = 10 ∨ c = 13 := of_decide_eq_true (Bool.of_not_eq_false blank)
  have small : c < 128 := by
    rcases cases_ with rfl | rfl | rfl <;> decide
  obtain ⟨char, inside, same⟩ := char_of_mem_utf8 member small
  have solid := Plugin.dashSpaces_solid inside
  have value : char.toNat = 9 ∨ char.toNat = 10 ∨ char.toNat = 13 := by
    rcases cases_ with rfl | rfl | rfl
    · exact .inl same.symm
    · exact .inr (.inl same.symm)
    · exact .inr (.inr same.symm)
  rcases value with tab | feed | ret
  · simp [Plugin.isSpace, tab] at solid
  · simp [Plugin.isSpace, feed] at solid
  · simp [Plugin.isSpace, ret] at solid

/-- What the deletes of a created binding get to. -/
theorem hits_iff {now now' : Nat} {name : String} (named : binding.workspaceID = Plugin.mintWorkspaceID now name)
    (opened : binding.sessionID = some (mintSessionID now')) (working : Working binding env)
    (resource : Stub.Resource) :
    hits binding (deletePaths binding) env resource = true ↔ resource = .session (utf8 (mintSessionID now')) ∨
      target (workspaceDir ++ (minted now ++ utf8 (Plugin.dashSpaces name))) = some resource := by
  have given : mintSessionID now' ≠ "" := fun empty => mintSessionID_nonempty now' (by rw [empty]; rfl)
  have front : utf8 (toString "/session/") = sessionDir ∧ utf8 "/experimental/workspace/" = workspaceDir := by decide
  have session : target (utf8 (toString "/session/" ++ toString (mintSessionID now'))) =
      some (.session (utf8 (mintSessionID now'))) := by
    rw [utf8_append, front.1]
    exact target_session now'
  have workspace : utf8 ("/experimental/workspace/" ++ binding.workspaceID) =
      workspaceDir ++ (minted now ++ utf8 (Plugin.dashSpaces name)) := by
    rw [utf8_append, front.2, named, utf8_mintWorkspaceID]
  have first := working 0
  have second := working (0 + 1)
  simp only [deletePaths, opened, Plugin.truthy_some given, Option.toList_some, List.map_cons, List.map_nil,
    List.cons_append, List.nil_append, hits, session, workspace, first, second, true_and, Bool.or_false,
    Bool.or_eq_true, decide_eq_true_eq, Option.some.injEq]
  exact or_congr_left eq_comm

/-- A resource that no delete gets to stays. -/
theorem hits_of_removed {σ : Stub.State} {resource : Stub.Resource} (own : resource ∈ ownResources binding)
    (present : σ.lookup resource ≠ none)
    (removed : Removed binding σ (deleteAll startedAt binding (deletePaths binding) env σ)) :
    hits binding (deletePaths binding) env resource = true := by
  have gone := removed resource
  rw [lookup_deleteAll, if_pos own] at gone
  by_contra missed
  rw [if_neg missed] at gone
  exact present gone

/-- What is created is removed exactly if the name can stand in a path. Otherwise the workspace
    stays, and nobody hears of it. -/
theorem removed_iff_addressable (manager : Plugin.SSHManager) (startedAt : Int) (providerName : String)
    (host : Option String) (workspaceName : String) {env env' : Nat → Contribution} {both both' : Both}
    {binding : Plugin.WorkspaceBinding}
    (created : transmitted manager.config startedAt
      (Plugin.createConnectedBinding manager providerName host workspaceName) env both = (.ok binding, both', env')) :
    (∀ resource ∈ ownResources binding, both'.2.lookup resource ≠ none) ∧
      ∀ later s σ, Working binding later → ∃ σ' later', transmitted manager.config startedAt
          (Plugin.Async.remote (Plugin.removeRemoteWorkspace binding)) later (s, σ) = (.ok (), (s, σ'), later') ∧
        (Addressable (utf8 (Plugin.dashSpaces workspaceName)) → Removed binding σ σ') ∧
        (σ.lookup (.workspace (utf8 binding.workspaceID)) ≠ none → Removed binding σ σ' →
          Addressable (utf8 (Plugin.dashSpaces workspaceName))) := by
  obtain ⟨⟨now, now', named, opened⟩, there⟩ := of_createConnectedBinding created
  refine ⟨there, fun later s σ working => ⟨_, _, transmitted_removeRemoteWorkspace .., ?_, ?_⟩⟩
  all_goals
    have hit := hits_iff named opened working
    have reached := target_workspace_iff now (solid_dashSpaces workspaceName)
    have own : Stub.Resource.workspace (utf8 binding.workspaceID) =
        .workspace (minted now ++ utf8 (Plugin.dashSpaces workspaceName)) := by rw [named, utf8_mintWorkspaceID]
  · intro addressable resource
    have given : mintSessionID now' ≠ "" := fun empty => mintSessionID_nonempty now' (by rw [empty]; rfl)
    have same : hits binding (deletePaths binding) later resource = true ↔ resource ∈ ownResources binding := by
      rw [hit, reached.mpr addressable, ownResources, own, opened, Plugin.truthy_some given, Option.some.injEq]
      simp only [Option.toList_some, List.map_cons, List.map_nil, List.mem_cons, List.not_mem_nil, or_false]
      rw [or_comm, eq_comm]
    rw [lookup_deleteAll]
    simp only [same]
  · intro present removed
    rcases (hit _).mp (hits_of_removed List.mem_cons_self present removed) with other | here
    · cases other
    · exact reached.mp (own ▸ here)

end Cleanup

/-- A connection to the first host under this name, with no bindings and an empty stub before. -/
def connected (workspaceName : String) : Except String Plugin.WorkspaceBinding × Both × (Nat → Contribution) :=
  transmitted Plugin.labManager.config 0
    (Plugin.createConnectedBinding Plugin.labManager "lab" (some "web") workspaceName) (surroundings 31)
    (.empty, .new (lit "/root") .empty)

theorem connected_eq (workspaceName : String) (binding : Plugin.WorkspaceBinding)
    (made : (connected workspaceName).1 = .ok binding) : ∃ both env,
      transmitted Plugin.labManager.config 0
        (Plugin.createConnectedBinding Plugin.labManager "lab" (some "web") workspaceName) (surroundings 31)
        (.empty, .new (lit "/root") .empty) = (.ok binding, both, env) := by
  unfold connected at made
  generalize transmitted _ _ _ _ _ = result at made ⊢
  obtain ⟨outcome, both, env⟩ := result
  exact ⟨both, env, congrArg (·, both, env) made⟩

theorem connected_switched : (connected "web").1 = .ok switched := by decide +kernel

theorem working_surroundings {binding : Plugin.WorkspaceBinding} (own : binding.token = "token") :
    Working binding (surroundings 0) := by
  intro n
  rw [own]
  exact ⟨by simp [surroundings], rfl⟩

theorem removed_under_plain_name : ∃ both env, transmitted Plugin.labManager.config 0
      (Plugin.createConnectedBinding Plugin.labManager "lab" (some "web") "web") (surroundings 31)
      (.empty, .new (lit "/root") .empty) = (.ok switched, both, env) ∧
    ∃ σ later, transmitted Plugin.labManager.config 0
        (Plugin.Async.remote (Plugin.removeRemoteWorkspace switched)) (surroundings 0) (both.1, both.2) =
          (.ok (), (both.1, σ), later) ∧
      Removed switched both.2 σ := by
  obtain ⟨both, env, made⟩ := connected_eq "web" switched connected_switched
  have addressable : Addressable (utf8 (Plugin.dashSpaces "web")) := by
    have name : utf8 (Plugin.dashSpaces "web") = lit "web" := by decide +kernel
    rw [name]
    constructor <;> decide +kernel
  obtain ⟨σ, later, ran, removed, -⟩ := (removed_iff_addressable Plugin.labManager 0 "lab" (some "web") "web" made).2
    (surroundings 0) both.1 both.2 (working_surroundings rfl)
  exact ⟨both, env, made, σ, later, ran, removed addressable⟩

def queried : Plugin.WorkspaceBinding :=
  { switched with workspaceID := "remote-5-a?b", localPort := 39487 }

/-- The name has a question mark in it, and what follows is not in the path any more. -/
theorem not_removed_under_query :
    ¬∀ (manager : Plugin.SSHManager) (startedAt : Int) (providerName : String) (host : Option String)
      (workspaceName : String) (env env' : Nat → Contribution) (both both' : Both)
      (binding : Plugin.WorkspaceBinding),
      transmitted manager.config startedAt (Plugin.createConnectedBinding manager providerName host workspaceName)
        env both = (.ok binding, both', env') →
      ∀ later s, Working binding later → Removed binding both'.2 (transmitted manager.config startedAt
        (Plugin.Async.remote (Plugin.removeRemoteWorkspace binding)) later (s, both'.2)).2.1.2 := by
  intro always_removed
  obtain ⟨both, env, made⟩ := connected_eq "a?b" queried (by decide +kernel)
  have there := (of_createConnectedBinding made).2 (.workspace (utf8 queried.workspaceID)) List.mem_cons_self
  have removed := always_removed Plugin.labManager 0 "lab" (some "web") "a?b" _ _ _ _ queried made
    (surroundings 0) .empty (working_surroundings rfl)
  rw [transmitted_removeRemoteWorkspace] at removed
  dsimp only at removed
  have missed : hits queried (deletePaths queried) (surroundings 0) (.workspace (utf8 queried.workspaceID)) =
      false := by decide +kernel
  have struck : hits queried (deletePaths queried) (surroundings 0) (.workspace (utf8 queried.workspaceID)) = true :=
    hits_of_removed List.mem_cons_self there removed
  exact Bool.false_ne_true (missed.symm.trans struck)

end OpencodeRemote.Link
