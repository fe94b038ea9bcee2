import OpencodeRemote.Plugin.Plain

/-! # The token file

To copy the token of a stub to its host, bootstrapping writes it to a file on the local disk.
The file is there as long as the copy takes: it is made private first, only the copy is
made while it is there, and it is removed whether or not the copy succeeds.
-/

namespace OpencodeRemote.Plugin

open Concurrency Data Throwing

/-- How far a call has got with its token file. -/
inductive Upload where
  | idle
  /-- There is a directory for it. -/
  | made (tokenDir : String)
  | written (tokenDir tokenPath : String)
  /-- It can be read by its owner only. -/
  | secured (tokenDir tokenPath : String)
  /-- Its removal has been tried, and that of the directory is next. -/
  | unlinked (tokenDir : String)
  deriving DecidableEq

namespace Upload

def next : Upload → (o : Op) → Res o → Upload
  | .made tokenDir, .remote (.file (.writeFile tokenPath _)), .ok _ => .written tokenDir tokenPath
  | .written tokenDir tokenPath, .remote (.file (.chmod _)), .ok _ => .secured tokenDir tokenPath
  -- the call gives up and leaves the file where it is
  | .written _ _, .remote (.file (.chmod _)), .error _ => .idle
  | .secured tokenDir _, .remote (.file (.unlink _)), _ => .unlinked tokenDir
  | .unlinked _, .remote (.file (.removeTree _)), _ => .idle
  | _, .remote (.file (.mkdtemp _)), .ok tokenDir => .made tokenDir
  | upload, _, _ => upload

/-- There is no file to mind. -/
def Resting : Upload → Prop
  | .idle | .made _ => True
  | _ => False

/-- What a call may do at this stage. -/
def Permits : Upload → Op → Prop
  | .made tokenDir, .remote (.file (.writeFile tokenPath _)) => tokenPath = s!"{tokenDir}/stub.token"
  | .written _ tokenPath, o => o = .remote (.file (.chmod tokenPath))
  | .secured _ tokenPath, .remote (.scp args) => ∃ destination, [tokenPath, destination] <:+ args
  | .secured _ tokenPath, .remote (.file call) => call = .unlink tokenPath
  | .secured _ _, .remote (.exists _) | .secured _ _, .remote .tick => True
  | .secured _ _, _ => False
  | .unlinked tokenDir, o => o = .remote (.file (.removeTree tokenDir))
  | _, .remote (.file (.mkdtemp _)) | _, .remote (.file (.sha256 _)) => True
  | _, .remote (.file _) => False
  | _, _ => True

end Upload

def upload (past : List PluginEvent) : Upload := past.foldl (fun upload event => upload.next event.op event.res) .idle

@[simp] theorem upload_snoc (past : List PluginEvent) (o : Op) (r : Res o) :
    upload (past ++ [⟨o, r⟩]) = (upload past).next o r := by
  simp [upload]

/-- A call does what is permitted at each stage. -/
def uploading : Policy Op Res PluginEvent := .ofPast fun past o => (upload past).Permits o

namespace Upload

theorem Resting.cases {u : Upload} (resting : u.Resting) : u = .idle ∨ ∃ tokenDir, u = .made tokenDir := by
  cases u with
  | idle => exact .inl rfl
  | made tokenDir => exact .inr ⟨tokenDir, rfl⟩
  | _ => cases resting

/-- Only in a directory of its own does a call write a file. -/
theorem made_of_writes {u : Upload} {tokenPath token : String}
    (permitted : u.Permits (.remote (.file (.writeFile tokenPath token)))) : ∃ tokenDir, u = .made tokenDir := by
  cases u with
  | made tokenDir => exact ⟨tokenDir, rfl⟩
  | idle => cases permitted
  | written => cases permitted
  | secured => cases permitted
  | unlinked => cases permitted

/-- At rest, operations on other things than files are permitted and make no difference. -/
theorem Resting.other {u : Upload} (resting : u.Resting) {o : Op} (other : ∀ call, o ≠ .remote (.file call)) :
    u.Permits o ∧ ∀ r, u.next o r = u := by
  obtain rfl | ⟨tokenDir, rfl⟩ := resting.cases <;> cases o with
  | remote o =>
      cases o with
      | file call => exact absurd rfl (other call)
      | _ => exact ⟨trivial, fun _ => rfl⟩
  | _ => exact ⟨trivial, fun _ => rfl⟩

end Upload

/-- `stage` is a condition on how far a call has got, under which there is no file. -/
theorem harmless_at_rest {stage : Upload → Prop} (rests : ∀ u, stage u → u.Resting) {o : Op}
    (other : ∀ call, o ≠ .remote (.file call)) : uploading.Harmless (fun past => stage (upload past)) o := by
  intro past here
  obtain ⟨permits, stays⟩ := (rests _ here).other other
  refine ⟨permits, fun r => ?_⟩
  show stage (upload (past ++ [⟨o, r⟩]))
  rwa [upload_snoc, stays]

/-! ## Bootstrapping -/

namespace SSHManager

open Remote

variable (manager : SSHManager)

section AtRest

variable {stage : Upload → Prop} (rests : ∀ u, stage u → u.Resting)

include rests

theorem plain_at_rest (o : Op) (plain : Plain o) : uploading.Harmless (fun past => stage (upload past)) o := by
  refine harmless_at_rest rests ?_
  rintro call rfl
  cases plain

theorem runs_at_rest (sshArgs : List String) (command : String) :
    uploading.Harmless (fun past => stage (upload past)) (.remote (.ssh sshArgs command)) :=
  harmless_at_rest rests nofun

theorem rests_installStub (localPath : String) (sshArgs : List String) (sshConfig : SSHConfig)
    (identityFile : Option String) (remotePath : String) :
    Remote.Upholds uploading (fun past => stage (upload past))
      (manager.installStub localPath sshArgs sshConfig identityFile remotePath) := by
  have plain := plain_at_rest rests
  have copied (args : List String) :
      Remote.Upholds uploading (fun past => stage (upload past)) (Remote.scp args) :=
    harmless_at_rest rests (o := .remote (.scp args)) nofun
  refine (upholds_call plain (o := .now) trivial).bind fun now => ?_
  refine (upholds_await plain ((upholds_identityArgs plain identityFile).bind fun _ => copied _)).bind fun _ => ?_
  exact (upholds_await plain (upholds_execSSH (runs_at_rest rests _ _))).bind fun _ => upholds_pure _

theorem rests_remoteStubHash (sshArgs : List String) (remotePath : String) :
    Remote.Upholds uploading (fun past => stage (upload past)) (remoteStubHash sshArgs remotePath) := by
  have plain := plain_at_rest rests
  exact (upholds_await plain (upholds_execSSHAllowFailure plain (runs_at_rest rests _ _))).bind fun _ => upholds_pure _

end AtRest

/-- The condition between the functions of a call. -/
abbrev atRest (past : List PluginEvent) : Prop := (upload past).Resting

abbrev remoteUploading : Policy RemoteOp RemoteRes PluginEvent := uploading.restrict Op.remote fun _ answer => answer

variable {past : List PluginEvent}

theorem guards_file {call : FileCall} (post : Upload → String → Prop)
    (permitted : (upload past).Permits (.remote (.file call)))
    (done : ∀ answer, post ((upload past).next (.remote (.file call)) (.ok answer)) answer)
    (failed : ∀ e, ((upload past).next (.remote (.file call)) (.error e)).Resting) :
    Guards remoteUploading atRest past (file call) fun past' answer => post (upload past') answer := by
  refine ⟨permitted, fun outcome => ?_⟩
  cases outcome with
  | ok answer =>
      show post (upload (past ++ [_])) answer
      rw [upload_snoc]
      exact done answer
  | error e =>
      show (upload (past ++ [_])).Resting
      rw [upload_snoc]
      exact failed e

theorem guards_mkdtemp (template : String) (resting : atRest past) :
    Guards remoteUploading atRest past (file (.mkdtemp template)) fun past' tokenDir =>
      upload past' = .made tokenDir := by
  refine guards_file (fun u tokenDir => u = .made tokenDir) ?_ ?_ ?_
  all_goals obtain here | ⟨tokenDir, here⟩ := Upload.Resting.cases resting <;> rw [here]
  all_goals first | trivial | exact fun _ => rfl | exact fun _ => trivial

theorem guards_writeFile {tokenDir : String} (made : upload past = .made tokenDir) (token : String) :
    Guards remoteUploading atRest past (file (.writeFile s!"{tokenDir}/stub.token" token)) fun past' _ =>
      upload past' = .written tokenDir s!"{tokenDir}/stub.token" := by
  refine guards_file (fun u _ => u = .written tokenDir s!"{tokenDir}/stub.token") ?_ ?_ ?_ <;> rw [made]
  · exact rfl
  · exact fun _ => rfl
  · exact fun _ => trivial

theorem guards_chmod {tokenDir tokenPath : String} (written : upload past = .written tokenDir tokenPath) :
    Guards remoteUploading atRest past (file (.chmod tokenPath)) fun past' _ =>
      upload past' = .secured tokenDir tokenPath := by
  refine guards_file (fun u _ => u = .secured tokenDir tokenPath) ?_ ?_ ?_ <;> rw [written]
  · exact rfl
  · exact fun _ => rfl
  · exact fun _ => trivial

/-- While the file is there, nothing happens but the copy. -/
theorem upholds_copy {tokenDir tokenPath : String} (sshConfig : SSHConfig) (identityFile : Option String)
    (destination : String) : Remote.Upholds uploading (fun past => upload past = .secured tokenDir tokenPath)
      (await (manager.scp tokenPath sshConfig identityFile destination)) := by
  have harmless {o : Op} (permitted : (Upload.secured tokenDir tokenPath).Permits o)
      (stays : ∀ r, (Upload.secured tokenDir tokenPath).next o r = .secured tokenDir tokenPath) :
      uploading.Harmless (fun past => upload past = .secured tokenDir tokenPath) o := by
    intro past secured
    refine ⟨?_, fun r => ?_⟩
    · show (upload past).Permits o
      rwa [secured]
    · show upload (past ++ [⟨o, r⟩]) = _
      rw [upload_snoc, secured, stays]
  have identified : Remote.Upholds uploading (fun past => upload past = .secured tokenDir tokenPath)
      (identityArgs identityFile) := by
    fun_cases identityArgs identityFile with
    | case1 => exact upholds_pure _
    | case2 => exact upholds_pure _
    | case3 file given =>
        have asked : Remote.Upholds uploading (fun past => upload past = .secured tokenDir tokenPath)
            (Remote.call (.exists file)) := harmless (o := .remote (.exists file)) trivial fun _ => rfl
        refine asked.bind fun found => ?_
        split <;> exact upholds_pure _
  refine Upholds.followed (harmless (o := .remote .tick) trivial fun _ => rfl) (identified.bind fun identity => ?_)
  have sent (front : List String) : Remote.Upholds uploading (fun past => upload past = .secured tokenDir tokenPath)
      (Remote.scp (front ++ [tokenPath, destination])) :=
    harmless (o := .remote (.scp _)) ⟨destination, List.suffix_append _ _⟩ fun _ => rfl
  exact sent _

/-- A cleanup runs however the rest ended. -/
theorem heeds_andFinally {α : Type} {f : Remote α} {cleanup : Remote Unit} {middle last : List PluginEvent → Prop}
    (first : f.run.Heeds remoteUploading past fun past' _ => middle past')
    (then_ : ∀ past', middle past' → cleanup.run.Heeds remoteUploading past' fun past'' _ => last past'') :
    (andFinally f cleanup).run.Heeds remoteUploading past fun past' _ => last past' := by
  refine Program.heeds_bind.mpr (first.mono fun past' outcome reached => ?_)
  refine Program.heeds_bind.mpr ((then_ past' reached).mono fun past'' outcome' done => ?_)
  cases outcome' <;> exact done

/-- A removal, whatever comes of it. -/
theorem heeds_removal {call : FileCall} {u : Upload} (permitted : (upload past).Permits (.remote (.file call)))
    (done : ∀ r, (upload past).next (.remote (.file call)) r = u) :
    (do let _ ← file call : Remote Unit).run.Heeds remoteUploading past fun past' _ => upload past' = u := by
  refine Program.heeds_bind.mpr ⟨permitted, fun outcome => ?_⟩
  have reached : upload (past ++ [⟨.remote (.file call), outcome⟩]) = u := (upload_snoc past _ _).trans (done outcome)
  cases outcome <;> exact reached

theorem guards_copyToken {tokenDir tokenPath : String} (secured : upload past = .secured tokenDir tokenPath)
    (sshConfig : SSHConfig) (identityFile : Option String) (destination : String) :
    Guards remoteUploading atRest past (andFinally
      (await (manager.scp tokenPath sshConfig identityFile destination))
      (andFinally (do let _ ← file (.unlink tokenPath)) (do let _ ← file (.removeTree tokenDir))))
      fun past' _ => atRest past' := by
  have ended : (andFinally (await (manager.scp tokenPath sshConfig identityFile destination))
      (andFinally (do let _ ← file (.unlink tokenPath)) (do let _ ← file (.removeTree tokenDir)))).run.Heeds
      remoteUploading past fun past' _ => upload past' = .idle := by
    refine heeds_andFinally (manager.upholds_copy sshConfig identityFile destination past secured) fun past₁ there => ?_
    refine heeds_andFinally (heeds_removal (u := .unlinked tokenDir) ?_ ?_) fun past₂ gone => heeds_removal ?_ ?_
    · rw [there]
      exact rfl
    · rw [there]
      exact fun _ => rfl
    · rw [gone]
      exact rfl
    · rw [gone]
      exact fun _ => rfl
  refine ended.mono fun past' outcome idle => ?_
  have resting : atRest past' := by rw [atRest, idle]; trivial
  cases outcome <;> exact resting

/-- A step that is left out if its condition does not hold. -/
theorem guards_when {α : Type} {p : Prop} [Decidable p] {f : Remote Unit} {next : Unit → Remote α}
    {post : List PluginEvent → α → Prop} (held : List PluginEvent → Prop) (here : held past)
    (first : Guards remoteUploading atRest past f fun past' _ => held past')
    (then_ : ∀ past', held past' → Guards remoteUploading atRest past' (next ()) post) :
    Guards remoteUploading atRest past (if p then f >>= next else next ()) post := by
  split
  · exact first.bind fun past' _ _ held => then_ past' held
  · exact then_ past here

theorem upholds_bootstrap (workspaceID : String) (target : ResolvedHost) :
    Remote.Upholds uploading atRest (manager.bootstrap workspaceID target) := by
  refine upholds_of_guards fun past resting => ?_
  have resting_stays : ∀ u : Upload, u.Resting → u.Resting := fun _ resting => resting
  have plain := plain_at_rest resting_stays
  have still {α : Type} {past : List PluginEvent} {f : Remote α} (upholds : Remote.Upholds uploading atRest f)
      (resting : atRest past) := upholds.guards resting fun _ resting => resting
  have ran (args : List String) (command : String) : uploading.Harmless atRest (.remote (.ssh args command)) :=
    runs_at_rest resting_stays args command
  have homed := manager.upholds_resolveRemoteHome plain target.host.ssh (manager.identityFile target.host.ssh)
    fun args => ran args _
  refine (still (upholds_await plain homed) resting).bind fun past₁ remoteHome _ resting => ?_
  refine (still (upholds_call plain (o := .randomToken) trivial) resting).bind fun past₂ token _ resting => ?_
  refine (still (upholds_buildSSHArgs plain manager _ _) resting).bind fun past₃ sshArgs _ resting => ?_
  refine (guards_mkdtemp _ resting).bind fun past₄ tokenDir _ made => ?_
  -- the binary, with the directory made
  have rests : ∀ u, u = Upload.made tokenDir → u.Resting := by
    rintro _ rfl
    trivial
  have plain' := plain_at_rest rests
  have waiting {α : Type} {past : List PluginEvent} {f : Remote α}
      (upholds : Remote.Upholds uploading (fun past => upload past = .made tokenDir) f)
      (made : upload past = .made tokenDir) := upholds.guards made fun past made => rests (upload past) made
  refine (waiting (upholds_await plain' (upholds_execSSH (runs_at_rest rests _ _))) made).bind fun past₅ _ _ made => ?_
  refine (waiting (upholds_call plain' (o := .exists _) trivial) made).bind fun past₆ found _ made => ?_
  refine guards_when (fun past => upload past = .made tokenDir) made (guards_throw (rests _ made)) fun past₇ made => ?_
  have hashed : Guards remoteUploading atRest past₇ (file (.sha256 manager.config.stubBinaryPath))
      fun past' _ => upload past' = .made tokenDir := by
    refine guards_file (fun u _ => u = .made tokenDir) ?_ ?_ ?_ <;> rw [made]
    · trivial
    · exact fun _ => rfl
    · exact fun _ => trivial
  refine hashed.bind fun past₈ localStubHash _ made => ?_
  refine (waiting (upholds_await plain' (rests_remoteStubHash rests _ _)) made).bind fun past₉ remoteHash _ made => ?_
  refine guards_when (fun past => upload past = .made tokenDir) made
    (waiting (upholds_await plain' (manager.rests_installStub rests _ _ _ _ _)) made) fun past₁₀ made => ?_
  -- the token
  refine (guards_writeFile made token).bind fun past₁₁ _ _ written => ?_
  refine (guards_chmod written).bind fun past₁₂ _ _ secured => ?_
  refine (manager.guards_copyToken secured _ _ _).bind fun past₁₃ _ _ resting => ?_
  -- the start
  refine (still (upholds_await plain (upholds_execSSHAllowFailure plain (ran _ _))) resting).bind fun past₁₄ _ _ resting => ?_
  refine (still (upholds_await plain (upholds_execSSH (ran _ _))) resting).bind fun past₁₅ _ _ resting => ?_
  refine (still (upholds_await plain (upholds_execSSH (ran _ _))) resting).bind fun past₁₆ _ _ resting => ?_
  refine (still (upholds_await plain (upholds_ensureTunnelLoop plain manager _ _ _ _ 0 _)) resting).bind
    fun past₁₇ tunnel _ resting => ?_
  exact (still (upholds_await plain (upholds_waitForHealth plain manager _ _)) resting).bind
    fun _ _ _ resting => guards_pure resting

end SSHManager

/-! ## In every run -/

/-- The events are permitted one after the other. -/
def Allows : Upload → List PluginEvent → Prop
  | _, [] => True
  | u, event :: rest => u.Permits event.op ∧ Allows (u.next event.op event.res) rest

/-- The file is removed, or at least that is tried. -/
def Removes (tokenPath : String) (event : PluginEvent) : Prop := event.op = .remote (.file (.unlink tokenPath))

/-- Access to the file could not be restricted. -/
def Exposes (tokenPath : String) (event : PluginEvent) : Prop :=
  ∃ e, event = ⟨.remote (.file (.chmod tokenPath)), .error e⟩

/-- Whoever has written a file and gets to an end has removed it. -/
theorem removed_of_resting {tokenDir tokenPath : String} {u : Upload} {events : List PluginEvent}
    (there : u = .written tokenDir tokenPath ∨ u = .secured tokenDir tokenPath) (allows : Allows u events)
    (ends : (events.foldl (fun u event => u.next event.op event.res) u).Resting) :
    ∃ event ∈ events, Removes tokenPath event ∨ Exposes tokenPath event := by
  induction events generalizing u with
  | nil => rcases there with rfl | rfl <;> cases ends
  | cons event rest ih =>
      obtain ⟨o, r⟩ := event
      obtain ⟨permitted, later⟩ := allows
      have goesOn (stays : u.next o r = .secured tokenDir tokenPath) :
          ∃ event ∈ ⟨o, r⟩ :: rest, Removes tokenPath event ∨ Exposes tokenPath event := by
        obtain ⟨event, member, found⟩ := ih (.inr stays) later ends
        exact ⟨event, List.mem_cons_of_mem _ member, found⟩
      rcases there with rfl | rfl
      · obtain rfl : o = .remote (.file (.chmod tokenPath)) := permitted
        cases r with
        | ok answer => exact goesOn rfl
        | error e => exact ⟨_, List.mem_cons_self, .inr ⟨e, rfl⟩⟩
      · cases o with
        | remote o =>
            cases o with
            | file call =>
                obtain rfl : call = .unlink tokenPath := permitted
                exact ⟨_, List.mem_cons_self, .inl rfl⟩
            | _ => exact goesOn rfl
        | _ => exact goesOn rfl

theorem allows_append {u : Upload} {first second : List PluginEvent} : Allows u (first ++ second) ↔
    Allows u first ∧ Allows (first.foldl (fun u event => u.next event.op event.res) u) second := by
  induction first generalizing u with
  | nil => simp [Allows]
  | cons event rest ih => simp only [List.cons_append, Allows, ih, List.foldl_cons, and_assoc]

theorem allows_past {log : PluginLog} (lawful : Lawful (fun past event => (upload past).Permits event.op) log)
    (thread : Nat) : Allows .idle (past log thread) := by
  induction log using List.reverseRecOn with
  | nil => trivial
  | append_singleton log entry ih =>
      have before := ih (lawful_init lawful)
      obtain ⟨thread', s, event⟩ := entry
      by_cases own : thread' = thread
      · subst own
        rw [past_own, allows_append]
        exact ⟨before, lawful_last lawful, trivial⟩
      · rw [past_append]
        simpa [past, own] using before

/-- What comes before an entry, the entry and what comes after it. -/
theorem past_around {log : PluginLog} {k thread : Nat} {event : PluginEvent} (here : At log k thread event) :
    past log thread = past (log.take k) thread ++ event :: past (log.drop (k + 1)) thread := by
  obtain ⟨s, entry⟩ := here
  obtain ⟨inside, same⟩ := List.getElem?_eq_some_iff.mp entry
  conv_lhs => rw [← List.take_append_drop k log, List.drop_eq_getElem_cons inside, same]
  rw [past_append]
  simp [past]

/-- The token file is there for the copy only: each call does what is permitted, stage by
    stage, and before it is answered it removes the file, unless it could not be made
    private. -/
structure MindsTokenFile (pool : PluginPool) : Prop where
  permitted : ∀ k thread event, At pool.log k thread event →
    (upload (past (pool.log.take k) thread)).Permits event.op
  removed : ∀ k thread tokenPath token answer,
    At pool.log k thread ⟨.remote (.file (.writeFile tokenPath token)), .ok answer⟩ →
    ∀ request started result, pool.threads[thread]? = some ⟨request, started, some (.pure result)⟩ →
      ∃ j > k, ∃ event, At pool.log j thread event ∧ (Removes tokenPath event ∨ Exposes tokenPath event)

theorem mindsTokenFile_in_every_run (manager : SSHManager) (s : Store) (labels : List PluginLabel) :
    MindsTokenFile ((plugin manager).run s labels) := by
  have serves (request : Request) : ((plugin manager).serve request).Heeds uploading [] fun past _ =>
      (upload past).Resting := by
    refine upholds_serve (SSHManager.plain_at_rest fun _ resting => resting) manager ?_ request [] trivial
    exact fun workspaceID target => manager.upholds_bootstrap workspaceID target
  have lawful : Lawful (fun past event => (upload past).Permits event.op) ((plugin manager).run s labels).log := by
    intro k thread event here
    have allowed := Machine.run_allowed (fun request _ => serves request) (fun label _ => label.within_default)
      k thread event here
    rwa [uploading, Policy.evidence_ofPast] at allowed
  refine ⟨lawful, fun k thread tokenPath token answer here request started result answered => ?_⟩
  have resting := Machine.run_attested (fun request _ => serves request) (fun label _ => label.within_default) answered
  rw [uploading, Policy.evidence_ofPast, past_around here, upload, List.foldl_append] at resting
  have allows := allows_past lawful thread
  rw [past_around here, allows_append] at allows
  obtain ⟨-, writes, later⟩ := allows
  obtain ⟨tokenDir, made⟩ := Upload.made_of_writes writes
  rw [made] at later
  rw [List.foldl_cons, made] at resting
  obtain ⟨event, member, gone⟩ := removed_of_resting (.inl rfl) later resting
  obtain ⟨j, s', entry⟩ := mem_past.mp member
  rw [List.getElem?_drop] at entry
  exact ⟨k + 1 + j, by omega, event, ⟨s', entry⟩, gone⟩

end OpencodeRemote.Plugin
