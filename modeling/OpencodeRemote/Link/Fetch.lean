import OpencodeRemote.Link.Admission
import OpencodeRemote.Link.Sessions
import OpencodeRemote.Link.Url
import OpencodeRemote.Stub.Naming

/-! # Requests under the paths that arrive

The same link, with the path of a request parsed by the client, decoded and cleaned by the
server, and redirects followed.
-/

namespace OpencodeRemote.Link

open Concurrency Data
open Stub (GoString lit)

/-- The `Location` of an answer. Only the mux redirects, to the clean path. -/
def location (path : GoString) : Option GoString :=
  if Stub.cleanPath path = path then none else some (Url.escape (Stub.cleanPath path))

/-- A POST that is redirected goes on as a GET. -/
def redirected (request : Plugin.FetchRequest) : Plugin.FetchRequest :=
  if request.method = "POST" then { request with method := "GET", body := none } else request

/-- A request whose URL goes on with this text behind the port. -/
def follow (startedAt : Int) (c : Contribution) (redirects : Nat) (request : Plugin.FetchRequest)
    (text : GoString) (stub : Nat → Stub.Env) (σ : Stub.State) : Except String Plugin.Response × Stub.State :=
  match Url.requestPath text with
  | none => (.ok ⟨400, c.text, c.json⟩, σ)
  | some path =>
      let arrived : Stub.Request := ⟨utf8 request.method, path, decode request.body⟩
      let (response, σ', stub') :=
        (mux c.token startedAt (authorization request) arrived).run Stub.exec stub σ
      match location path, redirects with
      | none, _ => (.ok ⟨response.code, c.text, c.json⟩, σ')
      | some _, 0 => (.error "redirect count exceeded", σ')
      | some text, redirects + 1 => follow startedAt c redirects (redirected request) text stub' σ'

def fetch (startedAt : Int) (c : Contribution) (request : Plugin.FetchRequest) (σ : Stub.State) :
    Except String Plugin.Response × Stub.State :=
  if c.reaches then follow startedAt c 20 request (utf8 request.path) c.stub σ
  else (.error "ECONNREFUSED", σ)

def transmit (config : Plugin.ResolvedPluginConfig) (startedAt : Int) (c : Contribution) :
    (o : Plugin.Op) → Both → Plugin.Res o × Both
  | .remote (.fetch request), (s, σ) =>
      let (result, σ') := fetch startedAt c request σ
      (result, (s, σ'))
  | o, both => exec config startedAt c o both

/-- A call that no other call overlaps, with the stub at the other end. -/
def transmitted {α : Type} (config : Plugin.ResolvedPluginConfig) (startedAt : Int) (f : Plugin.Async α)
    (env : Nat → Contribution) (both : Both) : Except String α × Both × (Nat → Contribution) :=
  f.run.run (transmit config startedAt) env both

/-! ## One request -/

theorem location_of_canonical {path : GoString} (canonical : Stub.Canonical path) : location path = none :=
  if_pos (Stub.cleanPath_of_canonical canonical)

/-- Over this link a path that arrives as it is makes no difference. -/
theorem fetch_of_faithful (startedAt : Int) {c : Contribution} (reaches : c.reaches = true)
    {request : Plugin.FetchRequest} (faithful : Url.Faithful (utf8 request.path)) (σ : Stub.State) :
    fetch startedAt c request σ =
      (.ok (answer startedAt c request σ).1, (answer startedAt c request σ).2) := by
  rw [fetch, if_pos reaches, follow, Url.requestPath_of_faithful faithful]
  simp only [location_of_canonical faithful.canonical, answer, wire]

theorem mux_authorized (startedAt : Int) {c : Contribution} {request : Plugin.FetchRequest} {token : String}
    (carried : request.token = some token) (authorized : Authorized c token) (r : Stub.Request) :
    mux c.token startedAt (authorization request) r = Stub.serve startedAt r := by
  rw [authorization, carried, authorized.2]
  exact mux_of_bearer (Service.bearer_sent _) startedAt r

theorem serve_of_unclean (startedAt : Int) {r : Stub.Request} (unclean : Stub.cleanPath r.path ≠ r.path) :
    Stub.serve startedAt r = .pure ⟨301, .str (Stub.cleanPath r.path)⟩ := by
  rw [Stub.serve, if_pos unclean]
  rfl

/-- A request other than a POST is served under the clean form of the path that arrives. -/
theorem fetch_store (startedAt : Int) {c : Contribution} {request : Plugin.FetchRequest} {token : String}
    (carried : request.token = some token) (authorized : Authorized c token) (keeps : redirected request = request)
    (σ : Stub.State) : (fetch startedAt c request σ).2 =
      match Url.requestPath (utf8 request.path) with
      | none => σ
      | some path =>
          ((Stub.serve startedAt ⟨utf8 request.method, Stub.cleanPath path, decode request.body⟩).run
            Stub.exec c.stub σ).2.1 := by
  rw [fetch, if_pos authorized.1, follow]
  cases read : Url.requestPath (utf8 request.path) with
  | none => rfl
  | some path =>
      have canonical := Stub.canonical_cleanPath (Url.requestPath_head read)
      simp only [mux_authorized startedAt carried authorized]
      by_cases clean : Stub.cleanPath path = path
      · rw [location, if_pos clean, clean]
      · rw [location, if_neg clean, serve_of_unclean startedAt clean]
        simp only [Program.run, keeps]
        rw [follow, Url.requestPath_escape canonical]
        simp only [location_of_canonical canonical, mux_authorized startedAt carried authorized]

/-! ## Deletes -/

instance (c : Contribution) (token : String) : Decidable (Authorized c token) := inferInstanceAs (Decidable (_ ∧ _))

/-- The resource that a DELETE for a URL with this text gets to. -/
def target (text : GoString) : Option Stub.Resource :=
  (Url.requestPath text).bind fun path => Stub.addressee (Stub.cleanPath path)

def deleteRequest (localPort : Int) (token path : String) : Plugin.FetchRequest :=
  ⟨"DELETE", localPort, path, some token, none⟩

/-- Without the token nothing on the stub changes, redirects or not. -/
theorem follow_unauthorized (startedAt : Int) {c : Contribution} {token : String} (other : c.token ≠ utf8 token)
    (redirects : Nat) {request : Plugin.FetchRequest} (carried : request.token = some token) (text : GoString)
    (stub : Nat → Stub.Env) (σ : Stub.State) :
    (follow startedAt c redirects request text stub σ).2 = σ := by
  have refused : ∀ r, ∃ response, mux c.token startedAt (lit "Bearer " ++ utf8 token) r = .pure response :=
    mux_of_not_bearer (fun bearer => other (Service.eq_of_bearer bearer).symm) startedAt
  induction redirects generalizing request text stub with
  | zero =>
      rw [follow]
      cases Url.requestPath text with
      | none => rfl
      | some path =>
          obtain ⟨response, same⟩ := refused ⟨utf8 request.method, path, decode request.body⟩
          simp only [authorization, carried, same, Program.run]
          cases location path <;> rfl
  | succ redirects ih =>
      rw [follow]
      cases Url.requestPath text with
      | none => rfl
      | some path =>
          obtain ⟨response, same⟩ := refused ⟨utf8 request.method, path, decode request.body⟩
          simp only [authorization, carried, same, Program.run]
          cases location path with
          | none => rfl
          | some text =>
              refine ih ?_ text stub
              rw [redirected]
              split <;> exact carried

theorem fetch_unauthorized (startedAt : Int) {c : Contribution} {token : String} (cut : ¬Authorized c token)
    {request : Plugin.FetchRequest} (carried : request.token = some token) (σ : Stub.State) :
    (fetch startedAt c request σ).2 = σ := by
  rw [fetch]
  split
  · rename_i reaches
    exact follow_unauthorized startedAt (fun same => cut ⟨reaches, same⟩) 20 carried _ _ σ
  · rfl

/-- A DELETE with the stub's token takes away the resource it gets to, and no other; any other
    DELETE takes none. -/
theorem fetch_delete_lookup (startedAt : Int) (c : Contribution) (localPort : Int) (token path : String)
    (σ : Stub.State) (resource : Stub.Resource) :
    (fetch startedAt c (deleteRequest localPort token path) σ).2.lookup resource =
      if Authorized c token ∧ target (utf8 path) = some resource then none else σ.lookup resource := by
  by_cases authorized : Authorized c token
  · have method : utf8 "DELETE" = Stub.methodDelete := by decide
    rw [fetch_store startedAt rfl authorized rfl, target]
    simp only [deleteRequest, authorized, true_and, method]
    cases read : Url.requestPath (utf8 path) with
    | none => rfl
    | some arrived =>
        have clean := Stub.cleanPath_of_canonical (Stub.canonical_cleanPath (Url.requestPath_head read))
        exact Stub.serve_delete_lookup startedAt clean _ _ σ resource
  · rw [if_neg fun both => authorized both.1]
    exact congrArg (Stub.State.lookup · resource) (fetch_unauthorized startedAt authorized rfl σ)

/-! ## The deletes of a binding -/

section Removal

variable (startedAt : Int)

theorem transmitted_outside_await {config : Plugin.ResolvedPluginConfig} {α : Type} (f : Plugin.Remote α)
    (env : Nat → Contribution) (both : Both) :
    transmitted config startedAt (Plugin.Async.outside (Plugin.Remote.await f)) env both =
      match transmitted config startedAt (Plugin.Async.outside f) env both with
      | (outcome, both', env') => (outcome, both', fun n => env' (n + 1)) := by
  unfold transmitted
  have split : (Plugin.Async.outside (Plugin.Remote.await f)).run = _ := Program.hoist_bind f.run _
  rw [split, Program.run_bind]
  rfl

theorem transmitted_fetch (config : Plugin.ResolvedPluginConfig) (request : Plugin.FetchRequest)
    (env : Nat → Contribution) (s : Plugin.Store) (σ : Stub.State) :
    transmitted config startedAt (Plugin.Async.outside (Plugin.Remote.fetch request)) env (s, σ) =
      ((fetch startedAt (env 0) request σ).1, (s, (fetch startedAt (env 0) request σ).2), fun n => env (n + 1)) := rfl

variable (binding : Plugin.WorkspaceBinding)

/-- The paths of the deletes, in their order. -/
def deletePaths : List String :=
  (Plugin.truthy binding.sessionID).toList.map (fun sessionID => s!"/session/{sessionID}") ++
    ["/experimental/workspace/" ++ binding.workspaceID]

def deleteAll : List String → (Nat → Contribution) → Stub.State → Stub.State
  | [], _, σ => σ
  | path :: rest, env, σ =>
      deleteAll rest (fun n => env (n + 1))
        (fetch startedAt (env 0) (deleteRequest binding.localPort binding.token path) σ).2

theorem transmitted_bestEffortDelete (config : Plugin.ResolvedPluginConfig) (path : String)
    (env : Nat → Contribution) (s : Plugin.Store) (σ : Stub.State) :
    transmitted config startedAt (Plugin.Async.outside (Plugin.bestEffortDelete binding path)) env (s, σ) =
      (.ok (), (s, (fetch startedAt (env 0) (deleteRequest binding.localPort binding.token path) σ).2),
        fun n => env (n + 1)) := by
  have sent := transmitted_fetch startedAt config (deleteRequest binding.localPort binding.token path) env s σ
  rw [deleteRequest] at sent ⊢
  rw [transmitted] at sent ⊢
  rw [Plugin.bestEffortDelete, Plugin.Async.outside_tryCatch, Plugin.Async.run_caught, Plugin.Async.outside_bind,
    Plugin.Async.run_bind, sent]
  cases (fetch startedAt (env 0) _ σ).1 <;> rfl

/-- The deletes one after the other, whatever comes of them. -/
theorem transmitted_removeRemoteWorkspace (config : Plugin.ResolvedPluginConfig) (env : Nat → Contribution)
    (s : Plugin.Store) (σ : Stub.State) :
    transmitted config startedAt (Plugin.Async.remote (Plugin.removeRemoteWorkspace binding)) env (s, σ) =
      (.ok (), (s, deleteAll startedAt binding (deletePaths binding) env σ),
        fun n => env (n + 1 + (deletePaths binding).length)) := by
  have bare := transmitted_bestEffortDelete startedAt binding config
  rw [Plugin.Async.remote, transmitted_outside_await, Plugin.removeRemoteWorkspace, deletePaths]
  cases Plugin.truthy binding.sessionID with
  | none =>
      dsimp only
      rw [bare]
      rfl
  | some sessionID =>
      have first := bare s!"/session/{sessionID}" env s σ
      rw [transmitted] at first
      dsimp only
      rw [Plugin.Async.outside_bind, transmitted, Plugin.Async.run_bind, first]
      dsimp only
      rw [← transmitted, bare]
      rfl

/-- One of the deletes gets to the resource. -/
def hits : List String → (Nat → Contribution) → Stub.Resource → Bool
  | [], _, _ => false
  | path :: rest, env, resource =>
      decide (Authorized (env 0) binding.token ∧ target (utf8 path) = some resource) ||
        hits rest (fun n => env (n + 1)) resource

theorem lookup_deleteAll (paths : List String) (env : Nat → Contribution) (σ : Stub.State) (resource : Stub.Resource) :
    (deleteAll startedAt binding paths env σ).lookup resource =
      if hits binding paths env resource then none else σ.lookup resource := by
  induction paths generalizing env σ with
  | nil => rfl
  | cons path rest ih =>
      rw [deleteAll, ih, fetch_delete_lookup, hits]
      by_cases here : Authorized (env 0) binding.token ∧ target (utf8 path) = some resource
      · simp [here]
      · simp [here]

end Removal

end OpencodeRemote.Link
