import OpencodeRemote.Concurrency.Pool
import OpencodeRemote.Plugin.Provider
import OpencodeRemote.Plugin.State

/-! # Operations of the plugin

An asynchronous function of the plugin is a program over two kinds of operations: those on
the two tables, leases and bindings, which answer at once, and the remote ones, whose
answers the environment chooses and which leave the tables alone. JavaScript switches to
another call only where a function awaits something; those operations suspend.

The state file is written with every change of the bindings and read at the start of the
process only. Whether a write succeeds and what a start reads is left to the environment.
-/

namespace OpencodeRemote.Plugin

open Concurrency Data

/-- The body of a POST to the stub. -/
inductive RemoteBody where
  | session (id title workspaceID : String)
  | workspace (id type name provider host : String)
  deriving DecidableEq

/-- A request to `http://127.0.0.1:localPort`; `token` is the bearer token, if it carries one. -/
structure FetchRequest where
  method : String
  localPort : Int
  path : String
  token : Option String
  body : Option RemoteBody
  deriving DecidableEq

/-- `text` and `json` are what reading the body comes to. -/
structure Response where
  status : Nat
  text : Except String String
  json : Except String String

def Response.ok (response : Response) : Bool := 200 ≤ response.status ∧ response.status < 300

/-- The synchronous calls to the local file system which bootstrapping makes. -/
inductive FileCall where
  | mkdtemp (template : String)
  | writeFile (path content : String)
  | chmod (path : String)
  | unlink (path : String)
  | removeTree (path : String)
  | sha256 (path : String)
  deriving DecidableEq

inductive RemoteOp where
  | now
  /-- The continuation of an awaited asynchronous function runs in a turn of its own. -/
  | tick
  | sleep (ms : Nat)
  /-- How often a loop up to `Date.now() + ms` finds its deadline still ahead. -/
  | rounds (ms : Nat)
  | randomToken
  | file (call : FileCall)
  | exists (path : String)
  /-- `ssh` with these arguments and this remote command; answered with its output. -/
  | ssh (args : List String) (command : String)
  | scp (args : List String)
  /-- Start `ssh` as a background process; answered with its pid. -/
  | spawn (args : List String)
  | kill (pid : Nat)
  | fetch (request : FetchRequest)
  deriving DecidableEq

abbrev RemoteRes : RemoteOp → Type
  | .now => Nat
  | .tick => Unit
  | .sleep _ => Unit
  | .rounds _ => Nat
  | .randomToken => String
  | .file _ => Except String String
  | .exists _ => Bool
  | .ssh _ _ => Except String String
  | .scp _ => Except String Unit
  | .spawn _ => Option Nat
  | .kill _ => Except String Unit
  | .fetch _ => Except String Response

/-- Whether a call awaits the answer. -/
def RemoteOp.awaits : RemoteOp → Bool
  | .tick | .sleep _ | .ssh _ _ | .scp _ | .fetch _ => true
  | _ => false

inductive Op where
  | remote (o : RemoteOp)
  | acquireResolved (request : HostSelectionRequest) (workspaceID : String)
  | release (host workspaceID : String)
  /-- `providers.release` and right after it `state.delete`. -/
  | drop (host workspaceID : String)
  | stateSet (binding : WorkspaceBinding)
  | stateReplace (binding : WorkspaceBinding)
  | stateGet (workspaceID : String)
  | stateList
  | stateDelete (workspaceID : String)

abbrev Res : Op → Type
  | .remote o => RemoteRes o
  | .acquireResolved _ _ => Except String ResolvedHost
  | .release _ _ => Unit
  | .drop _ _ => Except String Unit
  | .stateSet _ => Except String Unit
  | .stateReplace _ => Except String Unit
  | .stateGet _ => Option WorkspaceBinding
  | .stateList => List WorkspaceBinding
  | .stateDelete _ => Except String Unit

/-- The two tables of the plugin. -/
structure Store where
  leases : LeaseManager
  state : RuntimeState

namespace Store

def empty : Store := ⟨.empty, .empty⟩

/-- `rehydrateLeasesFromState`, with every lease taken at one time. -/
def rehydrate (now : Nat) (state : RuntimeState) : Store :=
  ⟨state.list.foldl (fun leases binding =>
    if binding.status = .removed then leases
    else (leases.restore binding.host binding.workspaceID binding.leaseMode none now).2) .empty, state⟩

end Store

/-- What the environment contributes to one operation: `answer` to a remote one, the time
    of an acquisition, the outcome of writing the state file, and the bindings which a
    process that starts finds there. -/
structure Env where
  now : Nat
  answer : ∀ o, RemoteRes o
  save : Except String Unit
  loaded : List WorkspaceBinding

def exec (config : ResolvedPluginConfig) (env : Env) : (o : Op) → Store → Res o × Store
  | .remote o, s => (env.answer o, s)
  | .acquireResolved request workspaceID, s =>
      let (result, leases) := ProviderRegistry.acquireResolved config request workspaceID env.now s.leases
      (result, { s with leases })
  | .release host workspaceID, s => ((), { s with leases := s.leases.release host workspaceID })
  | .drop host workspaceID, s =>
      (env.save, ⟨s.leases.release host workspaceID, s.state.delete workspaceID⟩)
  | .stateSet binding, s => (env.save, { s with state := s.state.set binding })
  | .stateReplace binding, s => (env.save, { s with state := s.state.replace binding })
  | .stateGet workspaceID, s => (s.state.get workspaceID, s)
  | .stateList, s => (s.state.list, s)
  | .stateDelete workspaceID, s => (env.save, { s with state := s.state.delete workspaceID })

/-! ## Asynchronous functions -/

def RemoteOp.perform (o : RemoteOp) : Program RemoteOp RemoteRes (RemoteRes o) := Program.perform o

def Op.perform (o : Op) : Program Op Res (Res o) := Program.perform o

/-- An asynchronous function which only talks to the outside; it cannot reach the tables. -/
abbrev Remote := ExceptT String (Program RemoteOp RemoteRes)

abbrev Async := ExceptT String (Program Op Res)

namespace Remote

def call (o : RemoteOp) : Remote (RemoteRes o) := ExceptT.lift (RemoteOp.perform o)

/-- An operation whose failure is thrown. -/
def ssh (args : List String) (command : String) : Remote String :=
  ExceptT.mk (RemoteOp.perform (.ssh args command))

def scp (args : List String) : Remote Unit := ExceptT.mk (RemoteOp.perform (.scp args))

def file (call : FileCall) : Remote String := ExceptT.mk (RemoteOp.perform (.file call))

def kill (pid : Nat) : Remote Unit := ExceptT.mk (RemoteOp.perform (.kill pid))

def fetch (request : FetchRequest) : Remote Response := ExceptT.mk (RemoteOp.perform (.fetch request))

/-- `await f(..)` for an asynchronous function, which goes on in a later turn whether it
    returned or threw. -/
def await {α : Type} (f : Remote α) : Remote α := ExceptT.mk do
  let outcome ← f.run
  RemoteOp.perform .tick
  pure outcome

/-- `await response.text()` and the like. -/
def read (body : Except String String) : Remote String := await (ExceptT.mk (pure body))

/-- What a function returns, if it returns, satisfies `post`. -/
def Yielding {α : Type} (post : α → Prop) : Except String α → Prop
  | .ok a => post a
  | .error _ => True

def Yields {α : Type} (f : Remote α) (post : α → Prop) : Prop := f.run.Returns (Yielding post)

theorem yields_bind {α β : Type} {f : Remote α} {g : α → Remote β} {post : β → Prop}
    (next : ∀ a, (g a).Yields post) : (f >>= g).Yields post := by
  refine Program.returns_bind.mpr (Program.returns_of_forall (fun outcome => ?_) f.run)
  cases outcome with
  | ok a => exact next a
  | error e => trivial

theorem Yields.await {α : Type} {f : Remote α} {post : α → Prop} (yields : f.Yields post) :
    (await f).Yields post :=
  Program.returns_bind.mpr (Program.Returns.mono yields fun _ holds _ => holds)

end Remote

namespace Async

def outside {α : Type} (f : Remote α) : Async α :=
  ExceptT.mk (f.run.hoist Op.remote fun _ answer => answer)

theorem outside_bind {α β : Type} (f : Remote α) (g : α → Remote β) :
    outside (f >>= g) = outside f >>= fun a => outside (g a) := by
  have split : (outside (f >>= g)).run = _ := Program.hoist_bind f.run (ExceptT.bindCont g)
  refine split.trans (congrArg (Program.bind _) (funext fun outcome => ?_))
  cases outcome <;> rfl

theorem outside_tryCatch {α : Type} (f : Remote α) (handler : String → Remote α) :
    outside (tryCatch f handler) = tryCatch (outside f) fun e => outside (handler e) := by
  have split : (outside (tryCatch f handler)).run = _ := Program.hoist_bind f.run _
  refine split.trans (congrArg (Program.bind _) (funext fun outcome => ?_))
  cases outcome <;> rfl

/-- `await f(..)` for a function which only talks to the outside. -/
def remote {α : Type} (f : Remote α) : Async α := outside (Remote.await f)

def await {α : Type} (f : Async α) : Async α := ExceptT.mk do
  let outcome ← f.run
  Op.perform (.remote .tick)
  pure outcome

/-- A call with its exception caught. -/
def outcome {α : Type} (f : Async α) : Async (Except String α) := ExceptT.lift f.run

def now : Async Nat := ExceptT.lift (Op.perform (.remote .now))

def acquireResolved (request : HostSelectionRequest) (workspaceID : String) : Async ResolvedHost :=
  ExceptT.mk (Op.perform (.acquireResolved request workspaceID))

def release (host workspaceID : String) : Async Unit :=
  ExceptT.lift (Op.perform (.release host workspaceID))

def drop (host workspaceID : String) : Async Unit :=
  ExceptT.mk (Op.perform (.drop host workspaceID))

def setBinding (binding : WorkspaceBinding) : Async Unit :=
  ExceptT.mk (Op.perform (.stateSet binding))

def replaceBinding (binding : WorkspaceBinding) : Async Unit :=
  ExceptT.mk (Op.perform (.stateReplace binding))

def getBinding (workspaceID : String) : Async (Option WorkspaceBinding) :=
  ExceptT.lift (Op.perform (.stateGet workspaceID))

def listBindings : Async (List WorkspaceBinding) := ExceptT.lift (Op.perform .stateList)

def deleteBinding (workspaceID : String) : Async Unit :=
  ExceptT.mk (Op.perform (.stateDelete workspaceID))

/-! ## Exceptions -/

section Exceptions

variable {α β : Type}

theorem run_tryCatch (f : Async α) (handler : String → Async α) :
    (tryCatch f handler).run = f.run.bind fun
      | .ok a => .pure (.ok a)
      | .error e => (handler e).run := by
  refine congrArg (Program.bind f.run) (funext fun outcome => ?_)
  cases outcome <;> rfl

variable {σ World : Type} (exec : World → (o : Op) → σ → Res o × σ)

/-- Whatever executes the operations, an exception ends a sequence. -/
theorem run_bind (f : Async α) (g : α → Async β) (env : Nat → World) (s : σ) :
    (f >>= g).run.run exec env s = match f.run.run exec env s with
      | (.ok a, s', env') => (g a).run.run exec env' s'
      | (.error e, s', env') => (.error e, s', env') := by
  have split : (f >>= g).run.run exec env s = _ :=
    Program.run_bind exec f.run (ExceptT.bindCont g) env s
  rw [split]
  obtain ⟨result, s', env'⟩ := f.run.run exec env s
  cases result <;> rfl

theorem run_caught (f : Async α) (handler : String → Async α) (env : Nat → World) (s : σ) :
    (tryCatch f handler).run.run exec env s = match f.run.run exec env s with
      | (.ok a, s', env') => (.ok a, s', env')
      | (.error e, s', env') => (handler e).run.run exec env' s' := by
  rw [run_tryCatch, Program.run_bind]
  obtain ⟨result, s', env'⟩ := f.run.run exec env s
  cases result <;> rfl

/-- A sequence that returns went through both of its parts. -/
theorem of_run_bind {f : Async α} {g : α → Async β} {env env' : Nat → World} {s s' : σ} {b : β}
    (ran : (f >>= g).run.run exec env s = (.ok b, s', env')) : ∃ a s₁ env₁,
      f.run.run exec env s = (.ok a, s₁, env₁) ∧ (g a).run.run exec env₁ s₁ = (.ok b, s', env') := by
  rw [run_bind] at ran
  split at ran
  · rename_i a s₁ env₁ first
    exact ⟨a, s₁, env₁, first, ran⟩
  · cases ran

/-- What returns behind a handler that throws has not needed it. -/
theorem of_run_caught {f : Async α} {handler : String → Async α} {env env' : Nat → World} {s s' : σ} {a : α}
    (throws : ∀ e env s, ∃ e', ((handler e).run.run exec env s).1 = .error e')
    (ran : (tryCatch f handler).run.run exec env s = (.ok a, s', env')) :
    f.run.run exec env s = (.ok a, s', env') := by
  rw [run_caught] at ran
  split at ran
  · rename_i first
    rw [first, ran]
  · rename_i e s₁ env₁ _
    obtain ⟨e', failed⟩ := throws e env₁ s₁
    rw [ran] at failed
    cases failed

end Exceptions

/-! ## One call alone -/

section Alone

variable (config : ResolvedPluginConfig) {α β : Type}

/-- A call that no other call overlaps. -/
def alone (f : Async α) (env : Nat → Env) (s : Store) : Except String α × Store × (Nat → Env) :=
  f.run.run (exec config) env s

theorem alone_bind (f : Async α) (g : α → Async β) (env : Nat → Env) (s : Store) :
    alone config (f >>= g) env s = match alone config f env s with
      | (.ok a, s', env') => alone config (g a) env' s'
      | (.error e, s', env') => (.error e, s', env') := by
  unfold alone
  rw [run_bind]
  split <;> simp [*]

theorem alone_tryCatch (f : Async α) (handler : String → Async α) (env : Nat → Env) (s : Store) :
    alone config (tryCatch f handler) env s = match alone config f env s with
      | (.ok a, s', env') => (.ok a, s', env')
      | (.error e, s', env') => alone config (handler e) env' s' := by
  unfold alone
  rw [run_caught]
  split <;> simp [*]

theorem alone_acquireResolved (request : HostSelectionRequest) (workspaceID : String) (env : Nat → Env)
    (s : Store) : alone config (acquireResolved request workspaceID) env s =
      ((ProviderRegistry.acquireResolved config request workspaceID (env 0).now s.leases).1,
        { s with leases :=
          (ProviderRegistry.acquireResolved config request workspaceID (env 0).now s.leases).2 },
        fun n => env (n + 1)) := rfl

theorem alone_drop (host workspaceID : String) (env : Nat → Env) (s : Store) :
    alone config (drop host workspaceID) env s =
      ((env 0).save, ⟨s.leases.release host workspaceID, s.state.delete workspaceID⟩,
        fun n => env (n + 1)) := rfl

theorem alone_replaceBinding (binding : WorkspaceBinding) (env : Nat → Env) (s : Store) :
    alone config (replaceBinding binding) env s =
      ((env 0).save, { s with state := s.state.replace binding }, fun n => env (n + 1)) := rfl

theorem alone_deleteBinding (workspaceID : String) (env : Nat → Env) (s : Store) :
    alone config (deleteBinding workspaceID) env s =
      ((env 0).save, { s with state := s.state.delete workspaceID }, fun n => env (n + 1)) := rfl

theorem alone_await (f : Async α) (env : Nat → Env) (s : Store) :
    alone config (await f) env s = match alone config f env s with
      | (outcome, s', env') => (outcome, s', fun n => env' (n + 1)) :=
  Program.run_bind (exec config) f.run _ env s

theorem alone_rest (f : Async α) (env : Nat → Env) (s : Store) :
    ∃ spent, (alone config f env s).2.2 = fun n => env (spent + n) :=
  Program.run_rest (exec config) f.run env s

/-- A function that only talks to the outside leaves the tables alone. -/
theorem alone_outside {f : Remote α} {post : α → Prop} (yields : f.Yields post) (env : Nat → Env)
    (s : Store) : ∃ result env', alone config (outside f) env s = (result, s, env') ∧
      Remote.Yielding post result :=
  ⟨_, _, Prod.ext rfl (Prod.ext (Program.run_hoist_store _ (fun _ _ _ => rfl) _ _ _) rfl),
    Program.Returns.run (Program.Returns.hoist yields) env s⟩

theorem alone_remote {f : Remote α} {post : α → Prop} (yields : f.Yields post) (env : Nat → Env)
    (s : Store) : ∃ result env', alone config (remote f) env s = (result, s, env') ∧
      Remote.Yielding post result :=
  alone_outside config yields.await env s

end Alone

end Async

end OpencodeRemote.Plugin
