import OpencodeRemote.Plugin.Plain
import OpencodeRemote.Plugin.Quoting

/-! # Starting a stub

Before a stub is started on a host, its token has been copied to the file that it is told to
read, its binary has been compared with the plugin's own or replaced by it, and what may be
left of an older stub has been killed.
-/

namespace OpencodeRemote.Plugin

open Concurrency Data Throwing

namespace SSHManager

def StartsStub (command : String) : Prop :=
  ∃ installRoot remotePort, command = buildRemoteStartCommand installRoot remotePort

theorem starts_python {command : String} (starts : StartsStub command) : ['p', 'y'] <+: command.toList := by
  obtain ⟨installRoot, remotePort, rfl⟩ := starts
  rw [buildRemoteStartCommand, String.intercalate_cons_cons, String.append_assoc, String.toList_append]
  exact List.IsPrefix.trans (by decide) (List.prefix_append _ _)

/-- No command that begins in another way starts a stub. -/
theorem not_starts (front rest : String) (other : ¬['p', 'y'] <+: front.toList)
    (long : 2 ≤ front.toList.length) : ¬StartsStub (front ++ rest) := by
  intro starts
  have python := starts_python starts
  rw [String.toList_append] at python
  exact other (List.prefix_of_prefix_length_le python (List.prefix_append _ _) long)

theorem not_starts_hash (path : String) : ¬StartsStub (hashCommand path) := by
  unfold hashCommand
  simp only [String.append_assoc]
  exact not_starts "if [ -f '" _ (by decide) (by decide)

theorem not_starts_install (tempPath path : String) : ¬StartsStub (installCommand tempPath path) := by
  unfold installCommand
  simp only [String.append_assoc]
  exact not_starts "chmod +x '" _ (by decide) (by decide)

theorem not_starts_pkill : ¬StartsStub "pkill -f 'opencode-remote-stub' 2>/dev/null || true" := fun starts => by
  have python := starts_python starts
  revert python
  decide

theorem not_starts_home : ¬StartsStub "printf '%s' \"$HOME\"" := fun starts => by
  have python := starts_python starts
  revert python
  decide

/-! ## What a start needs -/

section Needs

variable (manager : SSHManager) (past : List PluginEvent) (sshConfig : SSHConfig) (args : List String)

/-- A token that was minted by the call has been copied to the file. -/
def Uploaded (tokenFile : String) : Prop :=
  ∃ token tokenPath copied answer, ⟨.remote .randomToken, token⟩ ∈ past ∧
    ⟨.remote (.file (.writeFile tokenPath token)), .ok answer⟩ ∈ past ∧
    ⟨.remote (.scp copied), .ok ()⟩ ∈ past ∧ [tokenPath, login sshConfig ++ ":" ++ tokenFile] <:+ copied

/-- The binary on the host has the hash of the plugin's own. -/
def Matches (stubBinary : String) : Prop :=
  ∃ localStubHash output, ⟨.remote (.file (.sha256 manager.config.stubBinaryPath)), .ok localStubHash⟩ ∈ past ∧
    ⟨.remote (.ssh args (hashCommand stubBinary)), .ok output⟩ ∈ past ∧ trim (trim output) = localStubHash

/-- The plugin's own binary has been copied to the host and put in place. -/
def Installed (stubBinary : String) : Prop :=
  ∃ tempPath copied output, ⟨.remote (.scp copied), .ok ()⟩ ∈ past ∧
    [manager.config.stubBinaryPath, login sshConfig ++ ":" ++ tempPath] <:+ copied ∧
    ⟨.remote (.ssh args (installCommand tempPath stubBinary)), .ok output⟩ ∈ past

def Genuine (stubBinary : String) : Prop :=
  Matches manager past args stubBinary ∨ Installed manager past sshConfig args stubBinary

/-- The host is ready for a stub under this root. -/
structure Prepared (installRoot : String) : Prop where
  reaches : Reaches sshConfig args
  uploaded : Uploaded past sshConfig s!"{installRoot}/run/stub.token"
  genuine : Genuine manager past sshConfig args s!"{installRoot}/bin/opencode-remote-stub"
  killed : ∃ answer, ⟨.remote (.ssh args "pkill -f 'opencode-remote-stub' 2>/dev/null || true"), answer⟩ ∈ past

/-- A stub is started where everything is ready for it. -/
def MayStart (o : Op) : Prop :=
  ∀ args command, o = .remote (.ssh args command) → StartsStub command → ∃ sshConfig installRoot remotePort,
    command = buildRemoteStartCommand installRoot remotePort ∧ Prepared manager past sshConfig args installRoot

end Needs

def starting (manager : SSHManager) : Policy Op Res PluginEvent := .ofPast (MayStart manager)

abbrev remoteStarting (manager : SSHManager) : Policy RemoteOp RemoteRes PluginEvent :=
  (starting manager).restrict Op.remote fun _ answer => answer

section Growth

variable {manager : SSHManager} {past past' : List PluginEvent} {sshConfig : SSHConfig} {args : List String}

theorem Uploaded.mono {tokenFile : String} (uploaded : Uploaded past sshConfig tokenFile) (grown : past ⊆ past') :
    Uploaded past' sshConfig tokenFile := by
  obtain ⟨token, tokenPath, copied, answer, minted, wrote, sent, ends⟩ := uploaded
  exact ⟨token, tokenPath, copied, answer, grown minted, grown wrote, grown sent, ends⟩

theorem Matches.mono {stubBinary : String} (same : Matches manager past args stubBinary) (grown : past ⊆ past') :
    Matches manager past' args stubBinary := by
  obtain ⟨localStubHash, output, hashed, asked, equal⟩ := same
  exact ⟨localStubHash, output, grown hashed, grown asked, equal⟩

theorem Installed.mono {stubBinary : String} (installed : Installed manager past sshConfig args stubBinary)
    (grown : past ⊆ past') : Installed manager past' sshConfig args stubBinary := by
  obtain ⟨tempPath, copied, output, sent, ends, moved⟩ := installed
  exact ⟨tempPath, copied, output, grown sent, ends, grown moved⟩

theorem Genuine.mono {stubBinary : String} (genuine : Genuine manager past sshConfig args stubBinary)
    (grown : past ⊆ past') : Genuine manager past' sshConfig args stubBinary :=
  genuine.imp (fun same => same.mono grown) fun installed => installed.mono grown

end Growth

namespace Starting

open Remote

variable {manager : SSHManager} {past : List PluginEvent} {sshConfig : SSHConfig} {args : List String}

theorem harmless_unless_starting {o : Op} (other : ∀ args command, o = .remote (.ssh args command) →
    ¬StartsStub command) : (starting manager).Harmless (fun _ => True) o :=
  fun _ _ => ⟨fun args command same starts => absurd starts (other args command same), fun _ => trivial⟩

theorem plain_starting (o : Op) (plain : Plain o) : (starting manager).Harmless (fun _ => True) o := by
  refine harmless_unless_starting ?_
  rintro args command rfl
  cases plain

theorem heeds_of_upholds {α : Type} {f : Remote α} (upholds : Remote.Upholds (starting manager) (fun _ => True) f) :
    Heeds (remoteStarting manager) past f fun _ _ => True := by
  refine (upholds past trivial).mono fun _ outcome _ => ?_
  cases outcome <;> trivial

theorem mayStart_of_not_ssh {o : RemoteOp} (other : ∀ args command, o ≠ .ssh args command) :
    MayStart manager past (.remote o) := by
  rintro args command same
  cases same
  exact absurd rfl (other args command)

theorem mayStart_of_not_starts {command : String} (other : ¬StartsStub command) :
    MayStart manager past (.remote (.ssh args command)) := by
  rintro args command same starts
  cases same
  exact absurd starts other

theorem heeds_call {o : RemoteOp} (other : ∀ args command, o ≠ .ssh args command) :
    Heeds (remoteStarting manager) past (Remote.call o) fun past' r => ⟨.remote o, r⟩ ∈ past' :=
  ⟨mayStart_of_not_ssh other, fun _ => List.mem_append_right _ (List.mem_singleton_self _)⟩

theorem heeds_file (call : FileCall) : Heeds (remoteStarting manager) past (file call) fun past' answer =>
    ⟨.remote (.file call), .ok answer⟩ ∈ past' := by
  refine ⟨mayStart_of_not_ssh nofun, fun outcome => ?_⟩
  cases outcome with
  | ok answer => exact List.mem_append_right _ (List.mem_singleton_self _)
  | error e => trivial

/-- What is on record stays there while the rest of the process has its turn. -/
theorem heeds_await {α : Type} {f : Remote α} {post : List PluginEvent → α → Prop}
    (stays : ∀ past past' a, past ⊆ past' → post past a → post past' a)
    (heeds : Heeds (remoteStarting manager) past f post) : Heeds (remoteStarting manager) past (await f) post := by
  refine Program.heeds_bind.mpr (Program.Heeds.mono heeds fun past' outcome holds => ?_)
  refine ⟨mayStart_of_not_ssh nofun, fun turn => ?_⟩
  cases outcome with
  | ok a => exact stays past' _ a (List.subset_append_left _ _) holds
  | error e => trivial

theorem heeds_execSSH {command : String} (may : MayStart manager past (.remote (.ssh args command))) :
    Heeds (remoteStarting manager) past (execSSH args command) fun past' output =>
      ∃ answer, ⟨.remote (.ssh args command), .ok answer⟩ ∈ past' ∧ output = trim answer := by
  have ran : Heeds (remoteStarting manager) past (Remote.ssh args command) fun past' answer =>
      ⟨.remote (.ssh args command), .ok answer⟩ ∈ past' := by
    refine ⟨may, fun outcome => ?_⟩
    cases outcome with
    | ok answer => exact List.mem_append_right _ (List.mem_singleton_self _)
    | error e => trivial
  exact ran.bind fun _ answer _ answered => heeds_pure ⟨answer, answered, rfl⟩

theorem heeds_scp (localPath destination : String) (identityFile : Option String) :
    Heeds (remoteStarting manager) past (manager.scp localPath sshConfig identityFile destination) fun past' _ =>
      ∃ copied, ⟨.remote (.scp copied), .ok ()⟩ ∈ past' ∧ [localPath, destination] <:+ copied := by
  refine (heeds_of_upholds (upholds_identityArgs plain_starting identityFile)).bind fun past' identity _ _ => ?_
  have sent (front : List String) : Heeds (remoteStarting manager) past'
      (Remote.scp (front ++ [localPath, destination])) fun past'' _ =>
        ∃ copied, ⟨.remote (.scp copied), .ok ()⟩ ∈ past'' ∧ [localPath, destination] <:+ copied := by
    refine ⟨mayStart_of_not_ssh nofun, fun outcome => ?_⟩
    cases outcome with
    | ok done => exact ⟨_, List.mem_append_right _ (List.mem_singleton_self _), List.suffix_append _ _⟩
    | error e => trivial
  exact sent _

theorem heeds_installStub (identityFile : Option String) (remotePath : String) :
    Heeds (remoteStarting manager) past
      (manager.installStub manager.config.stubBinaryPath args sshConfig identityFile remotePath) fun past' _ =>
        Installed manager past' sshConfig args remotePath := by
  refine (heeds_call (o := .now) nofun).bind fun past₁ now _ _ => ?_
  refine (heeds_await ?_ (heeds_scp _ _ identityFile)).bind fun past₂ _ grown copied => ?_
  · rintro past past' - grown ⟨copied, sent, ends⟩
    exact ⟨copied, grown sent, ends⟩
  obtain ⟨copied, sent, ends⟩ := copied
  refine (heeds_await ?_ (heeds_execSSH (mayStart_of_not_starts (not_starts_install _ remotePath)))).bind
    fun past₃ _ grown moved => ?_
  · rintro past past' output grown ⟨answer, answered, same⟩
    exact ⟨answer, grown answered, same⟩
  obtain ⟨answer, answered, -⟩ := moved
  exact heeds_pure ⟨_, copied, answer, grown sent, ends, answered⟩

theorem heeds_remoteStubHash (remotePath : String) :
    Heeds (remoteStarting manager) past (remoteStubHash args remotePath) fun past' hash => ∀ localStubHash,
      hash = some localStubHash → ∃ output, ⟨.remote (.ssh args (hashCommand remotePath)), .ok output⟩ ∈ past' ∧
        trim (trim output) = localStubHash := by
  let read := fun (past' : List PluginEvent) (output : String) => output = "" ∨
    ∃ answer, ⟨.remote (.ssh args (hashCommand remotePath)), .ok answer⟩ ∈ past' ∧ output = trim answer
  have stays (past past' : List PluginEvent) (output : String) (grown : past ⊆ past') (held : read past output) :
      read past' output := by
    rcases held with none | ⟨answer, answered, same⟩
    · exact .inl none
    · exact .inr ⟨answer, grown answered, same⟩
  have ran : Heeds (remoteStarting manager) past (execSSHAllowFailure args (hashCommand remotePath)) read := by
    refine Heeds.tryCatch ?_ fun _ _ _ => heeds_pure (.inl rfl)
    refine heeds_await stays ((heeds_execSSH (mayStart_of_not_starts (not_starts_hash remotePath))).mono ?_)
    exact fun _ _ _ answered => .inr answered
  refine (heeds_await stays ran).bind fun past' output _ held => heeds_pure fun localStubHash same => ?_
  rcases held with rfl | ⟨answer, answered, rfl⟩
  · cases same
  · refine ⟨answer, answered, ?_⟩
    by_cases empty : trim (trim answer) = ""
    · rw [empty] at same
      cases same
    · rw [truthy_some empty] at same
      exact Option.some.inj same

/-- Killing what is left of an older stub may fail, but it is tried. -/
theorem heeds_pkill : Heeds (remoteStarting manager) past
    (execSSHAllowFailure args "pkill -f 'opencode-remote-stub' 2>/dev/null || true") fun past' _ =>
      ∃ answer, ⟨.remote (.ssh args "pkill -f 'opencode-remote-stub' 2>/dev/null || true"), answer⟩ ∈ past' := by
  refine ⟨mayStart_of_not_starts not_starts_pkill, fun answer => ?_⟩
  have tried (turn : Unit) : ∃ result, ⟨.remote (.ssh args "pkill -f 'opencode-remote-stub' 2>/dev/null || true"),
      result⟩ ∈ past ++ [⟨.remote (.ssh args "pkill -f 'opencode-remote-stub' 2>/dev/null || true"), answer⟩] ++
        [(⟨.remote .tick, turn⟩ : PluginEvent)] :=
    ⟨answer, List.mem_append_left _ (List.mem_append_right _ (List.mem_singleton_self _))⟩
  cases answer <;>
    · refine ⟨mayStart_of_not_ssh nofun, fun turn => ?_⟩
      exact tried turn

/-- What holds after the first part holds after the cleanup. -/
theorem heeds_andFinally {α : Type} {f : Remote α} {cleanup : Remote Unit} {post : List PluginEvent → α → Prop}
    (stays : ∀ past past' a, past ⊆ past' → post past a → post past' a)
    (first : Heeds (remoteStarting manager) past f post)
    (then_ : Remote.Upholds (starting manager) (fun _ => True) cleanup) :
    Heeds (remoteStarting manager) past (andFinally f cleanup) post := by
  refine first.finished (fun past' a _ holds => ?_) fun past' e _ => ?_
  · exact (heeds_of_upholds then_).finished (fun past'' _ grown _ => stays past' past'' a grown holds)
      fun _ _ _ => trivial
  · exact (heeds_of_upholds then_).finished (fun _ _ _ _ => trivial) fun _ _ _ => trivial

theorem heeds_copyToken (tokenPath tokenFile tokenDir : String) (identityFile : Option String) :
    Heeds (remoteStarting manager) past (andFinally
      (await (manager.scp tokenPath sshConfig identityFile (login sshConfig ++ ":" ++ tokenFile)))
      (andFinally (do let _ ← file (.unlink tokenPath)) (do let _ ← file (.removeTree tokenDir))))
      fun past' _ => ∃ copied, ⟨.remote (.scp copied), .ok ()⟩ ∈ past' ∧
        [tokenPath, login sshConfig ++ ":" ++ tokenFile] <:+ copied := by
  have stays (past past' : List PluginEvent) (done : Unit) (grown : past ⊆ past')
      (held : ∃ copied, ⟨.remote (.scp copied), .ok ()⟩ ∈ past ∧
        [tokenPath, login sshConfig ++ ":" ++ tokenFile] <:+ copied) :
      ∃ copied, ⟨.remote (.scp copied), .ok ()⟩ ∈ past' ∧
        [tokenPath, login sshConfig ++ ":" ++ tokenFile] <:+ copied := by
    obtain ⟨copied, sent, ends⟩ := held
    exact ⟨copied, grown sent, ends⟩
  have removed (call : FileCall) : Remote.Upholds (starting manager) (fun _ => True) (do let _ ← file call) := by
    have done : Remote.Upholds (starting manager) (fun _ => True) (file call) :=
      harmless_unless_starting (o := .remote (.file call)) nofun
    exact done.bind fun _ => upholds_pure _
  exact heeds_andFinally stays (heeds_await stays (heeds_scp _ _ identityFile))
    (upholds_andFinally (removed _) (removed _))

/-- A step that is left out where its result is there already. -/
theorem heeds_unless {α : Type} {p : Prop} [Decidable p] {f : Remote Unit} {next : Unit → Remote α}
    {post : List PluginEvent → α → Prop} (held : List PluginEvent → Prop)
    (first : Heeds (remoteStarting manager) past f fun past' _ => held past') (spared : ¬p → held past)
    (then_ : ∀ past', past ⊆ past' → held past' → Heeds (remoteStarting manager) past' (next ()) post) :
    Heeds (remoteStarting manager) past (if p then f >>= next else next ()) post := by
  split
  · exact first.bind fun past' _ grown held => then_ past' grown held
  · rename_i absent
    exact then_ past (List.Subset.refl _) (spared absent)

/-! The steps of bootstrapping which start nothing. -/

theorem heeds_idle {α : Type} {f : Remote α} (upholds : Remote.Upholds (starting manager) (fun _ => True) f) :
    Heeds (remoteStarting manager) past (await f) fun _ _ => True :=
  heeds_of_upholds (upholds_await plain_starting upholds)

theorem upholds_mkdir (args : List String) (path : String) :
    Remote.Upholds (starting manager) (fun _ => True) (execSSH args ("mkdir -p " ++ path)) := by
  refine upholds_execSSH (harmless_unless_starting ?_)
  rintro _ _ ⟨⟩
  exact not_starts "mkdir -p " path (by decide) (by decide)

theorem heeds_resolveRemoteHome (sshConfig : SSHConfig) (identityFile : Option String) :
    Heeds (remoteStarting manager) past (await (manager.resolveRemoteHome sshConfig identityFile)) fun _ _ => True := by
  refine heeds_idle (manager.upholds_resolveRemoteHome plain_starting sshConfig identityFile fun args => ?_)
  refine harmless_unless_starting ?_
  rintro _ _ ⟨⟩
  exact not_starts_home

theorem heeds_buildSSHArgs (sshConfig : SSHConfig) (identityFile : Option String) :
    Heeds (remoteStarting manager) past (manager.buildSSHArgs sshConfig identityFile) fun _ args =>
      Reaches sshConfig args :=
  (heeds_of_upholds (upholds_identityArgs plain_starting _)).bind fun _ identity _ _ =>
    heeds_pure (reaches_of_suffix (List.suffix_iff_eq_drop.mpr rfl) identity _)

theorem heeds_bootstrap (workspaceID : String) (target : ResolvedHost) :
    Heeds (remoteStarting manager) past (manager.bootstrap workspaceID target) fun _ _ => True := by
  let sshConfig := target.host.ssh
  refine (heeds_resolveRemoteHome sshConfig _).bind fun past₁ remoteHome _ _ => ?_
  refine (heeds_call (o := .randomToken) nofun).bind fun past₂ token _ minted => ?_
  refine (heeds_buildSSHArgs sshConfig _).bind fun past₃ args grown₃ reaches => ?_
  refine (heeds_file _).bind fun past₄ tokenDir grown₄ _ => ?_
  -- the binary
  refine (heeds_idle (?mkdir : Remote.Upholds (starting manager) (fun _ => True) (execSSH args _))).bind
    fun past₅ _ grown₅ _ => ?_
  case mkdir =>
    simp only [String.append_assoc]
    exact upholds_mkdir args _
  refine (heeds_call (o := .exists manager.config.stubBinaryPath) nofun).bind fun past₆ found grown₆ _ => ?_
  refine heeds_unless (fun _ => True) (heeds_throw _) (fun _ => trivial) fun past₇ grown₇ _ => ?_
  refine (heeds_file _).bind fun past₈ localStubHash grown₈ hashed => ?_
  refine (heeds_await ?stays (heeds_remoteStubHash _)).bind fun past₉ remoteHash grown₉ asked => ?_
  case stays =>
    rintro past past' hash grown asked localStubHash same
    obtain ⟨output, answered, equal⟩ := asked localStubHash same
    exact ⟨output, grown answered, equal⟩
  let installRoot := manager.expandInstallRoot remoteHome
  refine heeds_unless (fun past => Genuine manager past sshConfig args s!"{installRoot}/bin/opencode-remote-stub") ?_
    (fun same => .inl ?_) fun past₁₀ grown₁₀ genuine => ?_
  · exact heeds_await (fun _ _ _ grown genuine => genuine.mono grown)
      ((heeds_installStub _ _).mono fun _ _ _ installed => .inr installed)
  · obtain ⟨output, answered, equal⟩ := asked localStubHash (not_not.mp same)
    exact ⟨localStubHash, output, grown₉ hashed, answered, equal⟩
  replace minted := grown₁₀ (grown₉ (grown₈ (grown₇ (grown₆ (grown₅ (grown₄ (grown₃ minted)))))))
  -- the token
  refine (heeds_file _).bind fun past₁₁ answer grown₁₁ wrote => ?_
  refine (heeds_file _).bind fun past₁₂ _ grown₁₂ _ => ?_
  refine (heeds_copyToken _ _ _ _).bind fun past₁₃ _ grown₁₃ copied => ?_
  obtain ⟨copied, sent, ends⟩ := copied
  have uploaded : Uploaded past₁₃ sshConfig s!"{installRoot}/run/stub.token" :=
    ⟨token, _, copied, answer, grown₁₃ (grown₁₂ (grown₁₁ minted)), grown₁₃ (grown₁₂ wrote), sent, ends⟩
  replace genuine := ((genuine.mono grown₁₁).mono grown₁₂).mono grown₁₃
  -- the start
  refine (heeds_await ?_ heeds_pkill).bind fun past₁₄ _ grown₁₄ killed => ?_
  · rintro past past' output grown ⟨answer, tried⟩
    exact ⟨answer, grown tried⟩
  refine (heeds_idle (?logs : Remote.Upholds (starting manager) (fun _ => True) (execSSH args _))).bind
    fun past₁₅ _ grown₁₅ _ => ?_
  case logs =>
    simp only [String.append_assoc]
    exact upholds_mkdir args _
  have prepared : Prepared manager past₁₅ sshConfig args installRoot :=
    ⟨reaches, (uploaded.mono grown₁₄).mono grown₁₅, (genuine.mono grown₁₄).mono grown₁₅,
      killed.imp fun _ tried => grown₁₅ tried⟩
  have may : MayStart manager past₁₅ (.remote (.ssh args
      (buildRemoteStartCommand installRoot manager.config.defaults.stubPort))) := by
    rintro _ _ ⟨⟩ -
    exact ⟨sshConfig, installRoot, manager.config.defaults.stubPort, rfl, prepared⟩
  refine (heeds_await (fun _ _ _ _ _ => trivial) ((heeds_execSSH may).mono fun _ _ _ _ => trivial)).bind
    fun past₁₆ _ _ (_ : True) => ?_
  refine (heeds_idle (upholds_ensureTunnelLoop plain_starting manager _ _ _ _ 0 _)).bind fun past₁₇ tunnel _ _ => ?_
  exact (heeds_idle (upholds_waitForHealth plain_starting manager _ _)).bind fun _ _ _ _ => heeds_pure trivial

theorem upholds_bootstrap (workspaceID : String) (target : ResolvedHost) :
    Remote.Upholds (starting manager) (fun _ => True) (manager.bootstrap workspaceID target) :=
  fun _ _ => Program.Heeds.mono (heeds_bootstrap workspaceID target) fun _ _ _ => trivial

end Starting

end SSHManager

/-! ## In every run -/

/-- Whoever starts a stub has prepared the host for it. -/
def StartsPrepared (manager : SSHManager) (log : PluginLog) : Prop :=
  ∀ k thread args command answer, At log k thread ⟨.remote (.ssh args command), answer⟩ →
    SSHManager.StartsStub command → ∃ sshConfig installRoot remotePort,
      command = SSHManager.buildRemoteStartCommand installRoot remotePort ∧
      SSHManager.Prepared manager (past (log.take k) thread) sshConfig args installRoot

/-- A stub is started on a host only after its token has been copied there, its binary has
    been found to be the plugin's own or been replaced by it, and older ones were killed. -/
theorem startsPrepared_in_every_run (manager : SSHManager) (s : Store) (labels : List PluginLabel) :
    StartsPrepared manager ((plugin manager).run s labels).log := by
  intro k thread args command answer here starts
  have serves (request : Request) :
      ((plugin manager).serve request).Heeds (SSHManager.starting manager) [] fun _ _ => True :=
    upholds_serve SSHManager.Starting.plain_starting manager SSHManager.Starting.upholds_bootstrap request [] trivial
  have may := Machine.run_allowed (fun request _ => serves request) (fun label _ => label.within_default)
    k thread _ here
  rw [SSHManager.starting, Policy.evidence_ofPast] at may
  exact may args command rfl starts

end OpencodeRemote.Plugin
