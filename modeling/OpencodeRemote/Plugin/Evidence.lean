import OpencodeRemote.Concurrency.Evidence
import OpencodeRemote.Plugin.Targets

/-! # What a call may do on its evidence

`Evidence` is what a call has on record of its own operations, and `policy` says what it must
have on record before it contacts a host, sends a token, signals a process or stores a
binding. The facts are stated about a record and about bindings which are taken for granted:
for a call, those that it has read from the table. Grounding puts in their place what they
are founded by themselves.
-/

namespace OpencodeRemote.Plugin

open Concurrency Data

inductive Evidence where
  /-- The binding was found in the table. -/
  | read (binding : WorkspaceBinding)
  | leased (request : HostSelectionRequest) (selection : ResolvedHost)
  | minted (token : String)
  | wrote (path content : String)
  | copied (args : List String)
  | started (args : List String) (pid : Nat)
  /-- A health request with the token was answered with success on the port. -/
  | healthy (localPort : Int) (token : String)
  deriving DecidableEq

namespace Evidence

def ofRemote : (o : RemoteOp) → RemoteRes o → List Evidence
  | .randomToken, token => [.minted token]
  | .file (.writeFile path content), .ok _ => [.wrote path content]
  | .scp args, .ok _ => [.copied args]
  | .spawn args, some pid => [.started args pid]
  | .fetch request, .ok response =>
      if request.method = "GET" ∧ request.path = "/global/health" ∧ response.ok then
        (request.token.map (.healthy request.localPort)).toList
      else []
  | _, _ => []

def of : (o : Op) → Res o → List Evidence
  | .remote o, answer => ofRemote o answer
  | .stateGet _, found => found.toList.map .read
  | .stateList, bindings => bindings.map .read
  | .acquireResolved request _, .ok selection => [.leased request selection]
  | _, _ => []

/-- A remote operation shows nothing about the tables. -/
theorem ofRemote_foreign {o : RemoteOp} {answer : RemoteRes o} {entry : Evidence}
    (member : entry ∈ ofRemote o answer) :
    (∀ binding, entry ≠ .read binding) ∧ ∀ request selection, entry ≠ .leased request selection := by
  unfold ofRemote at member
  split at member
  case h_5 request response =>
      split at member
      · obtain ⟨token, -, same⟩ := Option.map_eq_some_iff.mp (Option.mem_toList.mp member)
        rw [← same]
        simp
      · cases member
  case h_6 => cases member
  all_goals
    cases List.mem_singleton.mp member
    simp

end Evidence

/-! ## Facts -/

def Read (kept : List Evidence) (binding : WorkspaceBinding) : Prop := .read binding ∈ kept

def Leased (kept : List Evidence) (selection : ResolvedHost) : Prop := ∃ request, .leased request selection ∈ kept

/-- The arguments lead to the host of a selection that is leased. -/
def Contacts (kept : List Evidence) (args : List String) : Prop :=
  ∃ selection, Leased kept selection ∧ SSHManager.Reaches selection.host.ssh args

/-- The token was minted and copied to the host of the selection. -/
def Issued (kept : List Evidence) (selection : ResolvedHost) (token : String) : Prop :=
  Leased kept selection ∧ .minted token ∈ kept ∧ ∃ path destination args, .wrote path token ∈ kept ∧
    .copied args ∈ kept ∧ [path, SSHManager.login selection.host.ssh ++ ":" ++ destination] <:+ args

/-- The selection is the host of that name, or it was given for the name. -/
def Resolves (kept : List Evidence) (host : String) (selection : ResolvedHost) : Prop :=
  (Leased kept selection ∧ selection.host.name = host) ∨
    ∃ provider, .leased ⟨provider, some host, none⟩ selection ∈ kept

/-- A process was started that forwards the local port to the host. -/
def Linked (kept : List Evidence) (host : String) (localPort : Int) (pid : Nat) : Prop :=
  ∃ selection args remotePort, Resolves kept host selection ∧ .started args pid ∈ kept ∧
    Forwards localPort remotePort args ∧ SSHManager.Reaches selection.host.ssh args

section Backing

variable (knows : WorkspaceBinding → Prop) (kept : List Evidence)

/-- The token of the stub on the host of that name. -/
def TokenOf (host token : String) : Prop :=
  (∃ selection, selection.host.name = host ∧ Issued kept selection token) ∨
    ∃ old, knows old ∧ old.host = host ∧ old.token = token

/-- The port leads to the host, or is known to go with the token. -/
def Entitled (host : String) (localPort : Int) (token : String) : Prop :=
  TokenOf knows kept host token ∧
    ((∃ old, knows old ∧ old.host = host ∧ old.localPort = localPort ∧ old.token = token) ∨
      ∃ pid, Linked kept host localPort pid)

def Owned (pid : Nat) : Prop := (∃ args, .started args pid ∈ kept) ∨ ∃ old, knows old ∧ old.tunnelPID = some pid

/-- What there is for a binding, taking for granted the ones that are known. -/
structure Founded (binding : WorkspaceBinding) : Prop where
  entitled : Entitled knows kept binding.host binding.localPort binding.token
  owned : ∀ pid, binding.tunnelPID = some pid → Owned knows kept pid

end Backing

def Verified (kept : List Evidence) (binding : WorkspaceBinding) : Prop :=
  .healthy binding.localPort binding.token ∈ kept

/-- A binding which is fit to be stored and handed out. -/
def Fit (kept : List Evidence) (binding : WorkspaceBinding) : Prop :=
  Founded (Read kept) kept binding ∧ Verified kept binding

def allowed (kept : List Evidence) : Op → Prop
  | .remote (.ssh args _) => Contacts kept args
  | .remote (.scp args) => ∃ selection path, Leased kept selection ∧
      SSHManager.CopiesTo selection.host.ssh path args
  | .remote (.spawn args) => Contacts kept args
  | .remote (.kill pid) => Owned (Read kept) kept pid
  | .remote (.fetch request) => ∀ token, request.token = some token →
      ∃ host, Entitled (Read kept) kept host request.localPort token
  | .stateSet binding => Fit kept binding
  | .stateReplace binding => Fit kept binding
  | _ => True

def policy : Policy Op Res Evidence := ⟨Evidence.of, allowed⟩

/-- For the functions which only talk to the outside. -/
def remotePolicy : Policy RemoteOp RemoteRes Evidence := policy.restrict Op.remote fun _ answer => answer

section Facts

variable {knows : WorkspaceBinding → Prop} {kept kept' : List Evidence} {host token : String}
  {localPort : Int} {pid : Nat} {selection : ResolvedHost} {binding : WorkspaceBinding}

theorem Leased.mono (leased : Leased kept selection) (grown : kept ⊆ kept') : Leased kept' selection := by
  obtain ⟨request, member⟩ := leased
  exact ⟨request, grown member⟩

theorem Leased.resolves (leased : Leased kept selection) : Resolves kept selection.host.name selection :=
  .inl ⟨leased, rfl⟩

theorem Resolves.leased (resolves : Resolves kept host selection) : Leased kept selection := by
  rcases resolves with ⟨leased, -⟩ | ⟨provider, member⟩
  · exact leased
  · exact ⟨_, member⟩

theorem Resolves.mono (resolves : Resolves kept host selection) (grown : kept ⊆ kept') :
    Resolves kept' host selection := by
  rcases resolves with ⟨leased, same⟩ | ⟨provider, member⟩
  · exact .inl ⟨leased.mono grown, same⟩
  · exact .inr ⟨provider, grown member⟩

theorem Contacts.mono {args : List String} (contacts : Contacts kept args) (grown : kept ⊆ kept') :
    Contacts kept' args := by
  obtain ⟨selection, leased, reaches⟩ := contacts
  exact ⟨selection, leased.mono grown, reaches⟩

theorem Issued.mono (issued : Issued kept selection token) (grown : kept ⊆ kept') :
    Issued kept' selection token := by
  obtain ⟨leased, minted, path, destination, args, wrote, copied, ends⟩ := issued
  exact ⟨leased.mono grown, grown minted, path, destination, args, grown wrote, grown copied, ends⟩

theorem Issued.tokenOf (issued : Issued kept selection token) :
    TokenOf knows kept selection.host.name token := .inl ⟨selection, rfl, issued⟩

theorem Linked.mono (linked : Linked kept host localPort pid) (grown : kept ⊆ kept') :
    Linked kept' host localPort pid := by
  obtain ⟨selection, args, remotePort, resolves, started, rest⟩ := linked
  exact ⟨selection, args, remotePort, resolves.mono grown, grown started, rest⟩

theorem Linked.owned (linked : Linked kept host localPort pid) : Owned knows kept pid := by
  obtain ⟨selection, args, remotePort, resolves, started, rest⟩ := linked
  exact .inl ⟨args, started⟩

/-! What is known may be replaced by what it is founded by itself. -/

section Grounding

variable {knows' : WorkspaceBinding → Prop} (grown : kept ⊆ kept')
  (founded : ∀ old, knows old → Founded knows' kept' old)

include grown founded

theorem TokenOf.ground (tokenOf : TokenOf knows kept host token) : TokenOf knows' kept' host token := by
  rcases tokenOf with ⟨selection, named, issued⟩ | ⟨old, known, rfl, rfl⟩
  · exact .inl ⟨selection, named, issued.mono grown⟩
  · exact (founded old known).entitled.1

theorem Entitled.ground (entitled : Entitled knows kept host localPort token) :
    Entitled knows' kept' host localPort token := by
  refine ⟨entitled.1.ground grown founded, ?_⟩
  rcases entitled.2 with ⟨old, known, rfl, rfl, rfl⟩ | ⟨pid, linked⟩
  · exact (founded old known).entitled.2
  · exact .inr ⟨pid, linked.mono grown⟩

theorem Owned.ground (owned : Owned knows kept pid) : Owned knows' kept' pid := by
  rcases owned with ⟨args, started⟩ | ⟨old, known, same⟩
  · exact .inl ⟨args, grown started⟩
  · exact (founded old known).owned pid same

theorem Founded.ground (holds : Founded knows kept binding) : Founded knows' kept' binding :=
  ⟨holds.entitled.ground grown founded, fun pid same => (holds.owned pid same).ground grown founded⟩

end Grounding

theorem founded_of_known (known : knows binding) : Founded knows kept binding :=
  ⟨⟨.inr ⟨binding, known, rfl, rfl⟩, .inl ⟨binding, known, rfl, rfl, rfl⟩⟩,
    fun _ same => .inr ⟨binding, known, same⟩⟩

private theorem read_founded (grown : kept ⊆ kept') (old : WorkspaceBinding) (known : Read kept old) :
    Founded (Read kept') kept' old := founded_of_known (grown known)

theorem TokenOf.mono (tokenOf : TokenOf (Read kept) kept host token) (grown : kept ⊆ kept') :
    TokenOf (Read kept') kept' host token := tokenOf.ground grown (read_founded grown)

theorem Entitled.mono (entitled : Entitled (Read kept) kept host localPort token) (grown : kept ⊆ kept') :
    Entitled (Read kept') kept' host localPort token := entitled.ground grown (read_founded grown)

theorem Owned.mono (owned : Owned (Read kept) kept pid) (grown : kept ⊆ kept') :
    Owned (Read kept') kept' pid := owned.ground grown (read_founded grown)

theorem Founded.mono (founded : Founded (Read kept) kept binding) (grown : kept ⊆ kept') :
    Founded (Read kept') kept' binding := founded.ground grown (read_founded grown)

theorem Verified.mono (verified : Verified kept binding) (grown : kept ⊆ kept') : Verified kept' binding :=
  grown verified

theorem Fit.mono (fit : Fit kept binding) (grown : kept ⊆ kept') : Fit kept' binding :=
  ⟨fit.1.mono grown, fit.2.mono grown⟩

/-- The session of a binding has nothing to do with its connection. -/
theorem Fit.withSession (fit : Fit kept binding) (sessionID : Option String) :
    Fit kept { binding with sessionID } := ⟨⟨fit.1.entitled, fit.1.owned⟩, fit.2⟩

end Facts

end OpencodeRemote.Plugin
