import OpencodeRemote.Plugin.Evidence

/-! # Conduct of the connections

Every function which only talks to the outside heeds the policy, from `execSSH` up to
bootstrapping and recovery.
-/

namespace OpencodeRemote.Plugin

open Concurrency Data

namespace Remote

open Throwing

variable {α : Type} {kept : List Evidence}

theorem heeds_call {o : RemoteOp} {post : List Evidence → RemoteRes o → Prop} (may : allowed kept (.remote o))
    (holds : ∀ r, post (kept ++ Evidence.ofRemote o r) r) : Heeds remotePolicy kept (call o) post :=
  ⟨may, holds⟩

theorem heeds_await {f : Remote α} {post : List Evidence → α → Prop} (heeds : Heeds remotePolicy kept f post) :
    Heeds remotePolicy kept (await f) post :=
  heeds.followed (fun _ => rfl) fun _ => trivial

theorem heeds_ssh {args : List String} (command : String) (contacts : Contacts kept args) :
    Heeds remotePolicy kept (ssh args command) fun _ _ => True := by
  refine ⟨contacts, fun outcome => ?_⟩
  cases outcome <;> trivial

theorem heeds_scp {args : List String} (may : allowed kept (.remote (.scp args))) :
    Heeds remotePolicy kept (scp args) fun kept' _ => .copied args ∈ kept' := by
  refine ⟨may, fun outcome => ?_⟩
  cases outcome with
  | ok _ => exact List.mem_append_right _ (List.mem_singleton_self _)
  | error e => trivial

theorem heeds_file (call : FileCall) : Heeds remotePolicy kept (file call) fun kept' _ =>
    ∀ path content, call = .writeFile path content → .wrote path content ∈ kept' := by
  refine ⟨trivial, fun outcome => ?_⟩
  cases outcome with
  | ok answer =>
      rintro path content rfl
      exact List.mem_append_right _ (List.mem_singleton_self _)
  | error e => trivial

theorem heeds_kill {pid : Nat} (owned : Owned (Read kept) kept pid) :
    Heeds remotePolicy kept (kill pid) fun _ _ => True := by
  refine ⟨owned, fun outcome => ?_⟩
  cases outcome <;> trivial

theorem heeds_fetch {request : FetchRequest} (may : allowed kept (.remote (.fetch request))) :
    Heeds remotePolicy kept (fetch request) fun kept' response => ∀ token, request.token = some token →
      request.method = "GET" → request.path = "/global/health" → response.ok = true →
        .healthy request.localPort token ∈ kept' := by
  refine ⟨may, fun outcome => ?_⟩
  cases outcome with
  | ok response =>
      intro token carried method path ok
      have recorded : Evidence.healthy request.localPort token ∈ Evidence.ofRemote (.fetch request) (.ok response) := by
        simp [Evidence.ofRemote, method, path, ok, carried]
      exact List.mem_append_right _ recorded
  | error e => trivial

theorem heeds_and_yields {f : Remote α} {post : List Evidence → α → Prop} {post' : α → Prop}
    (heeds : Heeds remotePolicy kept f post) (yields : f.Yields post') :
    Heeds remotePolicy kept f fun kept' a => post kept' a ∧ post' a := by
  refine (Program.Heeds.and_returns heeds yields).mono fun kept' outcome holds => ?_
  cases outcome with
  | ok a => exact holds
  | error e => trivial

theorem heeds_read (body : Except String String) : Heeds remotePolicy kept (read body) fun _ _ => True :=
  heeds_await (heeds_of_except fun _ _ => trivial)

/-- A step that is left out if its condition does not hold. -/
theorem heeds_when {p : Prop} [Decidable p] {f : Remote Unit} {next : Unit → Remote α}
    {post : List Evidence → α → Prop} (first : Heeds remotePolicy kept f fun _ _ => True)
    (then_ : ∀ kept', kept ⊆ kept' → Heeds remotePolicy kept' (next ()) post) :
    Heeds remotePolicy kept (if p then f >>= next else next ()) post := by
  split
  · exact first.bind fun kept' _ grown _ => then_ kept' grown
  · exact then_ kept (List.Subset.refl _)

/-- The cleanup may fail, but it takes nothing back. -/
theorem heeds_andFinally {f : Remote α} {cleanup : Remote Unit} {post : List Evidence → α → Prop}
    (stays : ∀ kept kept' a, kept ⊆ kept' → post kept a → post kept' a) (first : Heeds remotePolicy kept f post)
    (then_ : ∀ kept', kept ⊆ kept' → Heeds remotePolicy kept' cleanup fun _ _ => True) :
    Heeds remotePolicy kept (SSHManager.andFinally f cleanup) post := by
  refine first.finished (fun kept' a grown holds => ?_) fun kept' e grown => ?_
  · exact (then_ kept' grown).finished (fun kept'' _ further _ => stays kept' kept'' a further holds)
      fun _ _ _ => trivial
  · exact (then_ kept' grown).finished (fun _ _ _ _ => trivial) fun _ _ _ => trivial

end Remote

namespace SSHManager

open Remote Throwing

variable (manager : SSHManager) {kept : List Evidence} {selection : ResolvedHost}

theorem heeds_identityArgs (identityFile : Option String) :
    Heeds remotePolicy kept (identityArgs identityFile) fun _ _ => True := by
  fun_cases identityArgs identityFile with
  | case1 => exact heeds_pure trivial
  | case2 => exact heeds_pure trivial
  | case3 file given =>
      have asked : Heeds remotePolicy kept (Remote.call (.exists file)) fun _ _ => True :=
        heeds_call trivial fun _ => trivial
      refine asked.bind fun _ found _ _ => ?_
      split <;> exact heeds_pure trivial

theorem heeds_buildSSHArgs (sshConfig : SSHConfig) (identityFile : Option String) :
    Heeds remotePolicy kept (manager.buildSSHArgs sshConfig identityFile) fun _ args =>
      Reaches sshConfig args :=
  (heeds_identityArgs identityFile).bind fun _ identity _ _ =>
    heeds_pure (reaches_of_suffix (List.suffix_iff_eq_drop.mpr rfl) identity _)

theorem heeds_execSSH {sshArgs : List String} (command : String) (contacts : Contacts kept sshArgs) :
    Heeds remotePolicy kept (execSSH sshArgs command) fun _ _ => True :=
  (heeds_ssh command contacts).bind fun _ _ _ _ => heeds_pure trivial

theorem heeds_execSSHAllowFailure {sshArgs : List String} (command : String) (contacts : Contacts kept sshArgs) :
    Heeds remotePolicy kept (execSSHAllowFailure sshArgs command) fun _ _ => True :=
  (heeds_await (heeds_execSSH command contacts)).tryCatch fun _ _ _ => heeds_pure trivial

/-- The copy goes to a path on the host. -/
theorem heeds_scp (leased : Leased kept selection) (localPath path : String) (identityFile : Option String) :
    Heeds remotePolicy kept (manager.scp localPath selection.host.ssh identityFile
      (login selection.host.ssh ++ ":" ++ path)) fun kept' _ =>
        ∃ args, .copied args ∈ kept' ∧ [localPath, login selection.host.ssh ++ ":" ++ path] <:+ args := by
  refine (heeds_identityArgs identityFile).bind fun kept' identity grown _ => ?_
  refine (Remote.heeds_scp ⟨selection, path, leased.mono grown, ?copies⟩).mono fun kept'' _ _ copied => ?_
  case copies => exact copiesTo_of_suffix (List.suffix_iff_eq_drop.mpr rfl) identity _ localPath path
  exact ⟨_, copied, List.suffix_append _ _⟩

theorem heeds_installStub (leased : Leased kept selection) {sshArgs : List String}
    (reaches : Reaches selection.host.ssh sshArgs) (localPath : String)
    (identityFile : Option String) (remotePath : String) :
    Heeds remotePolicy kept (manager.installStub localPath sshArgs selection.host.ssh identityFile remotePath)
      fun _ _ => True := by
  have timed : Heeds remotePolicy kept (Remote.call .now) fun _ _ => True := heeds_call trivial fun _ => trivial
  refine timed.bind fun kept' now grown _ => ?_
  refine (heeds_await (heeds_scp manager (leased.mono grown) _ _ _)).bind fun kept'' _ further _ => ?_
  have contacts : Contacts kept'' sshArgs := ⟨selection, (leased.mono grown).mono further, reaches⟩
  exact (heeds_await (heeds_execSSH _ contacts)).bind fun _ _ _ _ => heeds_pure trivial

theorem heeds_remoteStubHash {sshArgs : List String} (contacts : Contacts kept sshArgs) (remotePath : String) :
    Heeds remotePolicy kept (remoteStubHash sshArgs remotePath) fun _ _ => True :=
  (heeds_await (heeds_execSSHAllowFailure _ contacts)).bind fun _ _ _ _ => heeds_pure trivial

theorem heeds_resolveRemoteHome (leased : Leased kept selection) (identityFile : Option String) :
    Heeds remotePolicy kept (manager.resolveRemoteHome selection.host.ssh identityFile) fun _ _ => True := by
  refine (heeds_buildSSHArgs manager _ _).bind fun kept' sshArgs grown reaches => ?_
  have contacts : Contacts kept' sshArgs := ⟨selection, leased.mono grown, reaches⟩
  refine (heeds_await (heeds_execSSH _ contacts)).bind fun _ home _ _ => ?_
  split
  · exact heeds_throw _
  · exact heeds_pure trivial

/-! ## Probes -/

theorem heeds_isPortReachable (localPort : Int) :
    Heeds remotePolicy kept (isPortReachable localPort) fun _ _ => True := by
  refine Heeds.tryCatch ?_ fun _ _ _ => heeds_pure trivial
  have free : allowed kept (.remote (.fetch ⟨"GET", localPort, "/global/health", none, none⟩)) := by
    rintro _ ⟨⟩
  exact (heeds_fetch free).bind fun _ _ _ _ => heeds_pure trivial

theorem heeds_isHealthReachable {host token : String} {localPort : Int}
    (entitled : Entitled (Read kept) kept host localPort token) :
    Heeds remotePolicy kept (isHealthReachable localPort token) fun kept' ok =>
      ok = true → .healthy localPort token ∈ kept' := by
  refine Heeds.tryCatch ?_ fun _ _ _ => heeds_pure (by simp)
  refine (heeds_fetch ?_).bind fun kept' response _ healthy => heeds_pure fun ok => healthy token rfl rfl rfl ok
  rintro _ ⟨⟩
  exact ⟨host, entitled⟩

/-- A polling loop ends with what a round that succeeds puts on record. -/
theorem heeds_poll {ready : Remote Bool} {done : List Evidence → Prop} (pause : Nat) (late : String)
    (rounds : Nat) (polled : ∀ kept', kept ⊆ kept' → Heeds remotePolicy kept' ready fun kept'' up =>
      up = true → done kept'') :
    Heeds remotePolicy kept (poll ready pause late rounds) fun kept' _ => done kept' := by
  induction rounds generalizing kept with
  | zero => exact heeds_throw _
  | succ rounds ih =>
      refine (polled kept (List.Subset.refl _)).bind fun kept' up grown holds => ?_
      split
      · rename_i ready
        exact heeds_pure (holds ready)
      · have slept : Heeds remotePolicy kept' (Remote.call (.sleep pause)) fun _ _ => True :=
          heeds_call trivial fun _ => trivial
        refine slept.bind fun kept'' _ further _ => ih fun later last => ?_
        exact polled later (List.Subset.trans (List.Subset.trans grown further) last)

theorem heeds_poll_idle {ready : Remote Bool} (pause : Nat) (late : String) (rounds : Nat)
    (polled : ∀ kept', Heeds remotePolicy kept' ready fun _ _ => True) :
    Heeds remotePolicy kept (poll ready pause late rounds) fun _ _ => True :=
  heeds_poll pause late rounds fun kept' _ => (polled kept').mono fun _ _ _ _ _ => trivial

theorem heeds_waitForHealth {host token : String} {localPort : Int}
    (entitled : Entitled (Read kept) kept host localPort token) :
    Heeds remotePolicy kept (manager.waitForHealth localPort token) fun kept' _ =>
      .healthy localPort token ∈ kept' := by
  have counted : Heeds remotePolicy kept (Remote.call (.rounds manager.config.tunnel.healthTimeoutMs))
      fun _ _ => True := heeds_call trivial fun _ => trivial
  refine counted.bind fun kept' rounds grown _ => heeds_poll _ _ _ fun kept'' further => ?_
  exact heeds_isHealthReachable (entitled.mono (List.Subset.trans grown further))

theorem heeds_waitForPortReachable (localPort : Int) :
    Heeds remotePolicy kept (manager.waitForPortReachable localPort) fun _ _ => True := by
  have counted : Heeds remotePolicy kept (Remote.call (.rounds manager.config.tunnel.connectTimeoutMs))
      fun _ _ => True := heeds_call trivial fun _ => trivial
  exact counted.bind fun kept' rounds _ _ => heeds_poll_idle _ _ _ fun _ => heeds_await (heeds_isPortReachable _)

theorem heeds_waitForPortClosed (localPort : Int) :
    Heeds remotePolicy kept (waitForPortClosed localPort) fun _ _ => True := by
  have counted : Heeds remotePolicy kept (Remote.call (.rounds 5000)) fun _ _ => True :=
    heeds_call trivial fun _ => trivial
  refine counted.bind fun kept' rounds _ _ => heeds_poll_idle _ _ _ fun _ => ?_
  exact (heeds_await (heeds_isPortReachable _)).bind fun _ _ _ _ => heeds_pure trivial

/-! ## Tunnels -/

theorem heeds_tryStartTunnel {host : String} (resolves : Resolves kept host selection)
    (identityFile : Option String) (localPort : Int) (remotePort : Nat) :
    Heeds remotePolicy kept (manager.tryStartTunnel selection.host.ssh identityFile localPort remotePort)
      fun kept' tunnelPID => ∀ pid, truthyPid tunnelPID = some pid → Linked kept' host localPort pid := by
  refine (heeds_await (heeds_isPortReachable localPort)).bind fun kept₁ reachable grown _ => ?_
  split
  · exact heeds_pure nofun
  refine (heeds_identityArgs identityFile).bind fun kept₂ identity further _ => ?_
  have resolves := resolves.mono (List.Subset.trans grown further)
  let linked := fun (kept' : List Evidence) (child : Option Nat) =>
    ∀ pid, child = some pid → Linked kept' host localPort pid
  have started (args : List String) (forwards : Forwards localPort remotePort args)
      (reaches : Reaches selection.host.ssh args) :
      Heeds remotePolicy kept₂ (Remote.call (.spawn args)) linked := by
    refine heeds_call ⟨selection, resolves.leased, reaches⟩ ?_
    rintro child pid rfl
    exact ⟨selection, args, remotePort, resolves.mono (List.subset_append_left _ _),
      List.mem_append_right _ (List.mem_singleton_self _), forwards, reaches⟩
  refine (started _ ?forwards ?reaches).bind fun kept₃ child _ holds => ?_
  case forwards =>
    simp only [Forwards, List.append_assoc]
    exact ⟨["-N", "-o", "BatchMode=yes", "-o", "NumberOfPasswordPrompts=0", "-o", "ExitOnForwardFailure=yes",
      "-o", "ServerAliveInterval=10"], _, rfl⟩
  case reaches =>
    refine ⟨List.infix_append_of_infix_right ?_, ?_⟩
    · exact ⟨["-o", "StrictHostKeyChecking=accept-new", "-o", _], [login selection.host.ssh], rfl⟩
    · simp only [List.getLast?_append, List.getLast?_cons_cons, List.getLast?_singleton, Option.some_or]
  have up : Heeds remotePolicy kept₃ (do
      await (manager.waitForPortReachable localPort)
      pure child) fun kept' tunnelPID => ∀ pid, truthyPid tunnelPID = some pid → Linked kept' host localPort pid := by
    refine (heeds_await (heeds_waitForPortReachable manager localPort)).bind fun _ _ later _ => ?_
    exact heeds_pure fun pid same => (holds pid (truthyPid_eq_some.mp same).1).mono later
  refine up.tryCatch fun kept₄ _ later => ?_
  split
  · exact heeds_pure nofun
  · rename_i pid same
    have owned : Owned (Read kept₄) kept₄ pid := ((holds pid (truthyPid_eq_some.mp same).1).mono later).owned
    exact ((heeds_kill owned).tryCatch fun _ _ _ => heeds_pure trivial).bind fun _ _ _ _ => heeds_pure nofun

/-- What the functions that look for a port return: a port and the process that forwards it. -/
def Opened (host : String) (kept : List Evidence) (tunnel : Int × Option Nat) : Prop :=
  ∃ pid, tunnel.2 = some pid ∧ Linked kept host tunnel.1 pid

theorem heeds_ensureTunnelLoop {host : String} (resolves : Resolves kept host selection)
    (identityFile : Option String) (remotePort : Nat) (initialPort : Int) (attempt remaining : Nat) :
    Heeds remotePolicy kept (manager.ensureTunnelLoop selection.host.ssh identityFile remotePort initialPort
      attempt remaining) (Opened host) := by
  induction remaining generalizing kept attempt with
  | zero => exact heeds_throw _
  | succ remaining ih =>
      refine (heeds_await (heeds_tryStartTunnel manager resolves identityFile _ remotePort)).bind
        fun kept' tunnelPID grown linked => ?_
      split
      · rename_i pid same
        exact heeds_pure ⟨pid, rfl, linked pid same⟩
      · exact ih (resolves.mono grown) (attempt + 1)

theorem heeds_ensureSpecificOrFallbackTunnel {host : String} (resolves : Resolves kept host selection)
    (workspaceID name : String) (identityFile : Option String) (remotePort : Nat) (preferredLocalPort : Int) :
    Heeds remotePolicy kept (manager.ensureSpecificOrFallbackTunnel workspaceID name selection.host.ssh
      identityFile remotePort preferredLocalPort) (Opened host) := by
  refine (heeds_await (heeds_tryStartTunnel manager resolves identityFile _ remotePort)).bind
    fun kept' tunnelPID grown linked => ?_
  split
  · rename_i pid same
    exact heeds_pure ⟨pid, rfl, linked pid same⟩
  · exact heeds_await (heeds_ensureTunnelLoop manager (resolves.mono grown) identityFile remotePort _ 0 _)

theorem heeds_closeTunnel (localPort : Int) {tunnelPID : Option Nat}
    (owned : ∀ pid, tunnelPID = some pid → Owned (Read kept) kept pid) :
    Heeds remotePolicy kept (closeTunnel localPort tunnelPID) fun _ _ => True := by
  have checked (kept' : List Evidence) (killed : Bool) : Heeds remotePolicy kept' (if killed then pure ()
      else do
        if ← await (isPortReachable localPort) then
          throw s!"Tunnel on local port {localPort} is reachable but no tracked PID is available for teardown"
        else pure ()) fun _ _ => True := by
    split
    · exact heeds_pure trivial
    · refine (heeds_await (heeds_isPortReachable localPort)).bind fun _ reachable _ _ => ?_
      split
      · exact heeds_throw _
      · exact heeds_pure trivial
  have answered {f : Remote Bool} (heeds : Heeds remotePolicy kept f fun _ _ => True) :=
    heeds.bind fun kept' killed _ _ => checked kept' killed
  unfold closeTunnel
  dsimp only
  split
  · rename_i pid same
    refine answered (Heeds.tryCatch ?_ fun _ _ _ => heeds_pure trivial)
    exact (heeds_kill (owned pid (truthyPid_eq_some.mp same).1)).bind fun _ _ _ _ => heeds_pure trivial
  · exact answered (heeds_pure trivial)

theorem heeds_teardown {binding : WorkspaceBinding} (founded : Founded (Read kept) kept binding) :
    Heeds remotePolicy kept (teardown binding) fun _ _ => True :=
  (heeds_await (heeds_closeTunnel _ founded.owned)).bind fun _ _ _ _ => heeds_await (heeds_waitForPortClosed _)

theorem heeds_closeRecoveredBinding {binding : WorkspaceBinding} (founded : Founded (Read kept) kept binding) :
    Heeds remotePolicy kept (closeRecoveredBinding binding) fun _ _ => True := by
  unfold closeRecoveredBinding
  dsimp only
  split
  · exact heeds_await (heeds_teardown founded)
  · refine (heeds_await (heeds_isPortReachable _)).bind fun _ reachable _ _ => ?_
    split
    · exact heeds_throw _
    · exact heeds_pure trivial

/-! ## Recovery -/

/-- A binding whose health is good is kept; another one is recovered. -/
theorem heeds_unlessHealthy {binding : WorkspaceBinding} (founded : Founded (Read kept) kept binding)
    {next : Remote WorkspaceBinding}
    (recovers : ∀ kept', kept ⊆ kept' → Heeds remotePolicy kept' next Fit) :
    Heeds remotePolicy kept (do
      if ← await (isHealthReachable binding.localPort binding.token) then pure binding else next) Fit := by
  refine (heeds_await (heeds_isHealthReachable founded.entitled)).bind fun kept' ok grown healthy => ?_
  split
  · rename_i ok
    exact heeds_pure ⟨founded.mono grown, healthy ok⟩
  · exact recovers kept' grown

theorem heeds_reconnect {binding : WorkspaceBinding} (founded : Founded (Read kept) kept binding)
    (resolves : Resolves kept binding.host selection) :
    Heeds remotePolicy kept (manager.reconnect binding selection) Fit := by
  refine heeds_unlessHealthy founded fun kept₁ grown => ?_
  refine (heeds_await (heeds_ensureSpecificOrFallbackTunnel manager (resolves.mono grown) _ _ _ _ _)).bind
    fun kept₂ tunnel further opened => ?_
  obtain ⟨localPort, tunnelPID⟩ := tunnel
  obtain ⟨pid, rfl, linked⟩ := opened
  have entitled : Entitled (Read kept₂) kept₂ binding.host localPort binding.token :=
    ⟨(founded.mono (List.Subset.trans grown further)).entitled.1, .inr ⟨pid, linked⟩⟩
  refine (heeds_await (heeds_waitForHealth manager entitled)).bind fun kept₃ _ last healthy => ?_
  refine heeds_pure ⟨⟨entitled.mono last, ?_⟩, healthy⟩
  rintro _ ⟨⟩
  exact (linked.mono last).owned

theorem heeds_ensureRecoveredBinding {binding : WorkspaceBinding} (founded : Founded (Read kept) kept binding)
    (resolves : Resolves kept binding.host selection) :
    Heeds remotePolicy kept (manager.ensureRecoveredBinding binding selection) Fit :=
  heeds_unlessHealthy founded fun _ grown =>
    heeds_await (heeds_reconnect manager (founded.mono grown) (resolves.mono grown))

/-! ## Bootstrapping -/

/-- The stub answers through a tunnel to the host that the new token was copied to. -/
structure Booted (selection : ResolvedHost) (kept : List Evidence) (result : BootstrapResult) : Prop where
  issued : Issued kept selection result.token
  opened : Opened selection.host.name kept (result.localPort, result.tunnelPID)
  healthy : .healthy result.localPort result.token ∈ kept

theorem heeds_copyToken (leased : Leased kept selection) (tokenPath tokenFile tokenDir : String)
    (identityFile : Option String) :
    Heeds remotePolicy kept (andFinally
      (await (manager.scp tokenPath selection.host.ssh identityFile (login selection.host.ssh ++ ":" ++ tokenFile)))
      (andFinally (do let _ ← file (.unlink tokenPath)) (do let _ ← file (.removeTree tokenDir))))
      fun kept' _ => ∃ args, .copied args ∈ kept' ∧
        [tokenPath, login selection.host.ssh ++ ":" ++ tokenFile] <:+ args := by
  refine heeds_andFinally (fun _ _ _ grown copied => ?_) (heeds_await (heeds_scp manager leased _ _ _)) fun _ _ => ?_
  · obtain ⟨args, member, ends⟩ := copied
    exact ⟨args, grown member, ends⟩
  · refine heeds_andFinally (fun _ _ _ _ _ => trivial) ?_ fun _ _ => ?_ <;>
      exact (heeds_file _).bind fun _ _ _ _ => heeds_pure trivial

/-- What bootstrapping has on record from the start on. -/
structure Minting (selection : ResolvedHost) (token : String) (kept : List Evidence) : Prop where
  leased : Leased kept selection
  minted : .minted token ∈ kept

theorem Minting.mono {token : String} {kept' : List Evidence} (minting : Minting selection token kept)
    (grown : kept ⊆ kept') : Minting selection token kept' :=
  ⟨minting.leased.mono grown, grown minting.minted⟩

theorem heeds_bootstrap (leased : Leased kept selection) (workspaceID : String) :
    Heeds remotePolicy kept (manager.bootstrap workspaceID selection) (Booted selection) := by
  refine (heeds_await (heeds_resolveRemoteHome manager leased _)).bind fun kept₁ remoteHome grown₁ _ => ?_
  have tossed : Heeds remotePolicy kept₁ (Remote.call .randomToken) fun kept' token => .minted token ∈ kept' :=
    heeds_call trivial fun _ => List.mem_append_right _ (List.mem_singleton_self _)
  refine tossed.bind fun kept₂ token grown₂ minted => ?_
  have minting : Minting selection token kept₂ := ⟨(leased.mono grown₁).mono grown₂, minted⟩
  refine (heeds_buildSSHArgs manager _ _).bind fun kept₃ sshArgs grown reaches => ?_
  replace minting := minting.mono grown
  have contacts {kept' : List Evidence} (minting : Minting selection token kept') : Contacts kept' sshArgs :=
    ⟨selection, minting.leased, reaches⟩
  refine (heeds_file _).bind fun kept₄ tokenDir grown _ => ?_
  replace minting := minting.mono grown
  -- the directories and the binary
  refine (heeds_await (heeds_execSSH _ (contacts minting))).bind fun kept₅ _ grown _ => ?_
  replace minting := minting.mono grown
  have asked : Heeds remotePolicy kept₅ (Remote.call (.exists manager.config.stubBinaryPath)) fun _ _ => True :=
    heeds_call trivial fun _ => trivial
  refine asked.bind fun kept₆ found grown _ => heeds_when (heeds_throw _) fun kept₇ grown' => ?_
  replace minting := (minting.mono grown).mono grown'
  refine (heeds_file _).bind fun kept₈ localStubHash grown _ => ?_
  replace minting := minting.mono grown
  refine (heeds_await (heeds_remoteStubHash (contacts minting) _)).bind fun kept₉ remoteHash grown _ => ?_
  replace minting := minting.mono grown
  refine heeds_when (heeds_await (heeds_installStub manager minting.leased reaches _ _ _)) fun kept₁₀ grown => ?_
  replace minting := minting.mono grown
  -- the token
  refine (heeds_file _).bind fun kept₁₁ _ grown wrote => ?_
  replace minting := minting.mono grown
  replace wrote := wrote _ _ rfl
  refine (heeds_file _).bind fun kept₁₂ _ grown _ => ?_
  replace minting := minting.mono grown
  replace wrote := grown wrote
  refine (heeds_copyToken manager minting.leased _ _ _ _).bind fun kept₁₃ _ grown copied => ?_
  replace minting := minting.mono grown
  obtain ⟨args, copied, ends⟩ := copied
  have issued : Issued kept₁₃ selection token :=
    ⟨minting.leased, minting.minted, _, _, args, grown wrote, copied, ends⟩
  -- the start
  refine (heeds_await (heeds_execSSHAllowFailure _ (contacts minting))).bind fun kept₁₄ _ grown _ => ?_
  replace minting := minting.mono grown
  replace issued := issued.mono grown
  refine (heeds_await (heeds_execSSH _ (contacts minting))).bind fun kept₁₅ _ grown _ => ?_
  replace minting := minting.mono grown
  replace issued := issued.mono grown
  refine (heeds_await (heeds_execSSH _ (contacts minting))).bind fun kept₁₆ _ grown _ => ?_
  replace minting := minting.mono grown
  replace issued := issued.mono grown
  refine (heeds_await (heeds_ensureTunnelLoop manager minting.leased.resolves _ _ _ 0 _)).bind
    fun kept₁₇ tunnel grown opened => ?_
  replace issued := issued.mono grown
  obtain ⟨pid, own, linked⟩ := opened
  have entitled : Entitled (Read kept₁₇) kept₁₇ selection.host.name tunnel.1 token :=
    ⟨issued.tokenOf, .inr ⟨pid, linked⟩⟩
  refine (heeds_await (heeds_waitForHealth manager entitled)).bind fun kept₁₈ _ grown healthy => ?_
  exact heeds_pure ⟨issued.mono grown, ⟨pid, own, linked.mono grown⟩, healthy⟩

end SSHManager

end OpencodeRemote.Plugin
