import Mathlib.Data.List.Sort
import OpencodeRemote.Service.Handlers

/-! # The routes of the stub

`http.ServeMux` as `main` fills it. The handlers stand in a table of their own beside the
registrations, so that it can be said of a registration that it wraps the handler.
-/

namespace OpencodeRemote.Service

open Stub (GoString lit)

/-- What the mux does with a request. -/
inductive Routing (η : Type) where
  | handler (h : η)
  | redirect (path : GoString)
  | notFound

def Routing.map {η θ : Type} (f : η → θ) : Routing η → Routing θ
  | .handler h => .handler (f h)
  | .redirect path => .redirect path
  | .notFound => .notFound

def Routing.isHandler {η : Type} : Routing η → Bool
  | .handler _ => true
  | _ => false

/-- The patterns of an `http.ServeMux` with their handlers, as they were registered. -/
abbrev ServeMux (η : Type) := List (GoString × η)

namespace ServeMux

variable {η θ : Type}

def methodConnect : GoString := lit "CONNECT"

/-- `mux.m[path]`. -/
def registered (mux : ServeMux η) (path : GoString) : Option η :=
  (mux.find? fun entry => decide (entry.1 = path)).map Prod.snd

/-- `mux.es`: the patterns of whole subtrees, the longest first. -/
def es (mux : ServeMux η) : ServeMux η :=
  (mux.filter fun entry => decide (entry.1.getLast? = some Stub.slash)).insertionSort fun a b =>
    b.1.length ≤ a.1.length

/-- `mux.match`. -/
def matching (mux : ServeMux η) (path : GoString) : Option η :=
  match mux.registered path with
  | some h => some h
  | none => (mux.es.find? fun entry => Stub.Strings.hasPrefix path entry.1).map Prod.snd

/-- `shouldRedirectRLocked`: only the subtree below the path is registered. -/
def shouldRedirect (mux : ServeMux η) (path : GoString) : Bool :=
  (mux.registered path).isNone && (mux.registered (path ++ [Stub.slash])).isSome &&
    decide (path ≠ [] ∧ path.getLast? ≠ some Stub.slash)

/-- `mux.Handler`. The path of a CONNECT is taken as it is. -/
def handler (mux : ServeMux η) (r : Stub.Request) : Routing η :=
  let path := if r.method = methodConnect then r.path else Stub.cleanPath r.path
  if mux.shouldRedirect path then .redirect (path ++ [Stub.slash])
  else if path ≠ r.path then .redirect path
  else
    match mux.matching path with
    | some h => .handler h
    | none => .notFound

/-! ## Wrapped handlers -/

/-- Every handler is wrapped. -/
def wrap (f : η → θ) (mux : ServeMux η) : ServeMux θ := mux.map fun entry => (entry.1, f entry.2)

theorem registered_wrap (f : η → θ) (mux : ServeMux η) (path : GoString) :
    (mux.wrap f).registered path = (mux.registered path).map f := by
  simp only [registered, wrap, List.find?_map, Option.map_map]
  rfl

theorem es_wrap (f : η → θ) (mux : ServeMux η) : (mux.wrap f).es = mux.es.wrap f := by
  simp only [es, wrap, List.filter_map]
  rw [List.map_insertionSort (s := fun a b : GoString × θ => b.1.length ≤ a.1.length) _ _ _ fun _ _ _ _ => Iff.rfl]
  rfl

theorem matching_wrap (f : η → θ) (mux : ServeMux η) (path : GoString) :
    (mux.wrap f).matching path = (mux.matching path).map f := by
  simp only [matching, registered_wrap, es_wrap]
  cases mux.registered path with
  | some h => rfl
  | none =>
      simp only [Option.map_none, wrap, List.find?_map, Option.map_map]
      rfl

/-- A wrapped mux leads to the wrapped handler. -/
theorem handler_wrap (f : η → θ) (mux : ServeMux η) (r : Stub.Request) :
    (mux.wrap f).handler r = (mux.handler r).map f := by
  have redirects : (mux.wrap f).shouldRedirect = mux.shouldRedirect := by
    funext path
    simp only [shouldRedirect, registered_wrap, Option.isNone_map, Option.isSome_map]
  simp only [handler, redirects, matching_wrap]
  generalize (if r.method = methodConnect then r.path else Stub.cleanPath r.path) = path
  by_cases slashed : mux.shouldRedirect path = true
  · rw [if_pos slashed, if_pos slashed, Routing.map]
  · rw [if_neg slashed, if_neg slashed]
    by_cases unclean : path ≠ r.path
    · rw [if_pos unclean, if_pos unclean, Routing.map]
    · rw [if_neg unclean, if_neg unclean]
      cases mux.matching path <;> rfl

/-! ## What a request is matched with -/

theorem registered_eq_none {mux : ServeMux η} {path : GoString} :
    mux.registered path = none ↔ path ∉ mux.map Prod.fst := by
  simp only [registered, Option.map_eq_none_iff, List.find?_eq_none, decide_eq_true_eq, List.mem_map, not_exists,
    not_and]

theorem mem_es {mux : ServeMux η} {entry : GoString × η} :
    entry ∈ mux.es ↔ entry ∈ mux ∧ entry.1.getLast? = some Stub.slash := by
  simp only [es, List.mem_insertionSort, List.mem_filter, decide_eq_true_eq]

/-- What a path is matched with: its own pattern or a subtree that it lies in. -/
theorem isSome_matching {mux : ServeMux η} {path : GoString} :
    (mux.matching path).isSome = true ↔ path ∈ mux.map Prod.fst ∨
      ∃ pattern ∈ mux.map Prod.fst, pattern.getLast? = some Stub.slash ∧
        Stub.Strings.hasPrefix path pattern = true := by
  have own : path ∈ mux.map Prod.fst ↔ mux.registered path ≠ none := by
    rw [ne_eq, registered_eq_none, not_not]
  rw [own, matching]
  cases mux.registered path with
  | some h => simp
  | none => simp [mem_es, and_assoc]

theorem mem_of_matching {mux : ServeMux η} {path : GoString} {h : η} (matched : mux.matching path = some h) :
    ∃ pattern, (pattern, h) ∈ mux := by
  rw [matching] at matched
  split at matched
  · rename_i h' found
    cases matched
    obtain ⟨⟨pattern, h⟩, first, rfl⟩ := Option.map_eq_some_iff.mp found
    exact ⟨pattern, List.mem_of_find?_eq_some first⟩
  · obtain ⟨⟨pattern, h⟩, found, rfl⟩ := Option.map_eq_some_iff.mp matched
    exact ⟨pattern, (mem_es.mp (List.mem_of_find?_eq_some found)).1⟩

/-- The handler of a request is one of those registered. -/
theorem mem_of_handler {mux : ServeMux η} {r : Stub.Request} {h : η} (routed : mux.handler r = .handler h) :
    ∃ pattern, (pattern, h) ∈ mux := by
  simp only [handler] at routed
  generalize (if r.method = methodConnect then r.path else Stub.cleanPath r.path) = path at routed
  split at routed
  · cases routed
  · split at routed
    · cases routed
    · cases found : mux.matching path with
      | none =>
          rw [found] at routed
          cases routed
      | some h' =>
          rw [found] at routed
          cases routed
          exact mem_of_matching found

end ServeMux

/-! ## The stub's mux -/

abbrev HandlerFunc := Incoming → Handler Reply

/-- The `require` of `main`. -/
def require (token : GoString) (next : HandlerFunc) : HandlerFunc := fun r =>
  Require (fun message => .pure (.json (unauthorized message))) token r.authorization (next r)

/-- A handler that answers with JSON. -/
def answering (h : Stub.Request → Stub.Handler Stub.Response) : HandlerFunc := fun r => lift (h r.toRequest)

/-- `handler.WithWorkspaceRoutes`. -/
def withWorkspaceRoutes (mux : ServeMux HandlerFunc) (require : HandlerFunc → HandlerFunc) : ServeMux HandlerFunc :=
  mux ++ [(lit "/experimental/workspace/", require (answering Stub.withWorkspaceRoutes))]

/-- The registrations of `main`. -/
def mux (token : GoString) (startedAt : Int) : ServeMux HandlerFunc :=
  let require := require token
  withWorkspaceRoutes [
    (lit "/global/health", require (answering fun _ => Stub.health startedAt)),
    (lit "/global/event", require fun _ => events),
    (lit "/experimental/workspace/adaptor", require (answering fun _ => Stub.workspaceAdaptor)),
    (lit "/experimental/workspace", require (answering Stub.workspaceList)),
    (lit "/experimental/workspace/status", require (answering fun _ => Stub.workspaceStatus)),
    (lit "/session", require (answering Stub.sessionCreate)),
    (lit "/session/status", require (answering fun _ => Stub.sessionStatus)),
    (lit "/session/", require (answering Stub.sessionRoutes)),
    (lit "/permission", require (answering fun _ => Stub.permissionList)),
    (lit "/permission/", require (answering Stub.permissionRoutes))] require

/-- The handler behind each pattern. -/
def handlers (startedAt : Int) : ServeMux HandlerFunc := [
  (lit "/global/health", answering fun _ => Stub.health startedAt),
  (lit "/global/event", fun _ => events),
  (lit "/experimental/workspace/adaptor", answering fun _ => Stub.workspaceAdaptor),
  (lit "/experimental/workspace", answering Stub.workspaceList),
  (lit "/experimental/workspace/status", answering fun _ => Stub.workspaceStatus),
  (lit "/session", answering Stub.sessionCreate),
  (lit "/session/status", answering fun _ => Stub.sessionStatus),
  (lit "/session/", answering Stub.sessionRoutes),
  (lit "/permission", answering fun _ => Stub.permissionList),
  (lit "/permission/", answering Stub.permissionRoutes),
  (lit "/experimental/workspace/", answering Stub.withWorkspaceRoutes)]

def reply : Routing HandlerFunc → HandlerFunc
  | .handler h, r => h r
  | .redirect path, _ => return .json ⟨301, .str path⟩
  | .notFound, _ => return .json ⟨404, .str (lit "404 page not found\n")⟩

def serve (token : GoString) (startedAt : Int) : HandlerFunc := fun r =>
  reply ((mux token startedAt).handler r.toRequest) r

/-- The stub behind its token check. -/
def service (token : GoString) (startedAt : Int) : Concurrency.Machine Incoming Op Res Env Store Reply :=
  machine (serve token startedAt)

/-- Every registration wraps the handler of its pattern. -/
theorem mux_eq_wrap (token : GoString) (startedAt : Int) :
    mux token startedAt = (handlers startedAt).wrap (require token) := by
  simp only [mux, withWorkspaceRoutes, handlers, ServeMux.wrap, List.map_cons, List.map_nil, List.cons_append,
    List.nil_append]

theorem serve_eq (token : GoString) (startedAt : Int) (r : Incoming) :
    serve token startedAt r = reply (((handlers startedAt).handler r.toRequest).map (require token)) r := by
  rw [serve, mux_eq_wrap, ServeMux.handler_wrap]

/-! ## The same routes as without the event stream -/

/-- Each subtree is registered without its slash, too. -/
theorem shouldRedirect_handlers (startedAt : Int) (path : GoString) :
    (handlers startedAt).shouldRedirect path = false := by
  have parents : ∀ pattern ∈ (handlers 0).map Prod.fst, pattern.getLast? = some Stub.slash →
      pattern.dropLast ∈ (handlers 0).map Prod.fst := by decide +kernel
  rw [Bool.eq_false_iff]
  intro redirects
  simp only [ServeMux.shouldRedirect, Bool.and_eq_true, Option.isNone_iff_eq_none, Option.isSome_iff_ne_none, ne_eq,
    ServeMux.registered_eq_none, not_not] at redirects
  have parent := parents _ redirects.1.2 (by simp)
  rw [List.dropLast_concat] at parent
  exact redirects.1.1 parent

/-- A path lies in one of the subtrees only. -/
private theorem apart {path front : GoString} (under : Stub.Strings.hasPrefix path front = true) (front' : GoString)
    (short : front.length ≤ front'.length) (other : ¬front <+: front') :
    Stub.Strings.hasPrefix path front' = false := by
  rw [Bool.eq_false_iff]
  intro under'
  exact other (List.prefix_of_prefix_length_le (List.isPrefixOf_iff_prefix.mp under)
    (List.isPrefixOf_iff_prefix.mp under') short)

theorem matching_serve (startedAt : Int) {r : Incoming} (clean : Stub.cleanPath r.path = r.path)
    (other : r.path ≠ lit "/global/event") :
    (match (handlers startedAt).matching r.path with
      | some h => h r
      | none => reply .notFound r) = lift (Stub.serve startedAt r.toRequest) := by
  rw [Stub.serve, if_neg (not_not.mpr clean)]
  by_cases known : r.path ∈ (handlers startedAt).map Prod.fst
  · obtain ⟨⟨method, path, body⟩, authorization⟩ := r
    simp only [handlers, List.map_cons, List.map_nil, List.mem_cons, List.not_mem_nil, or_false] at known
    rcases known with rfl | rfl | rfl | rfl | rfl | rfl | rfl | rfl | rfl | rfl | rfl
    · rfl
    · exact absurd rfl other
    all_goals rfl
  · have unregistered : (handlers startedAt).registered r.path = none := ServeMux.registered_eq_none.mpr known
    have subtrees : (handlers startedAt).es = [
        (lit "/experimental/workspace/", answering Stub.withWorkspaceRoutes),
        (lit "/permission/", answering Stub.permissionRoutes),
        (lit "/session/", answering Stub.sessionRoutes)] := rfl
    simp only [handlers, List.map_cons, List.map_nil, List.mem_cons, List.not_mem_nil, or_false, not_or] at known
    obtain ⟨health, event, adaptor, workspace, status, session, sessionStatus, -, permission, -, -⟩ := known
    rw [if_neg health, if_neg event, if_neg adaptor, if_neg workspace, if_neg status, if_neg session,
      if_neg sessionStatus, if_neg permission, ServeMux.matching, unregistered, subtrees]
    by_cases sessions : Stub.Strings.hasPrefix r.path (lit "/session/") = true
    · have out := apart sessions (lit "/permission/") (by decide) (by decide)
      have out' := apart sessions (lit "/experimental/workspace/") (by decide) (by decide)
      simp only [List.find?_cons, sessions, out, out', if_true]
      rfl
    · by_cases permissions : Stub.Strings.hasPrefix r.path (lit "/permission/") = true
      · have out := apart permissions (lit "/experimental/workspace/") (by decide) (by decide)
        simp only [List.find?_cons, sessions, permissions, out, if_true]
        rfl
      · by_cases workspaces : Stub.Strings.hasPrefix r.path (lit "/experimental/workspace/") = true
        · simp only [List.find?_cons, sessions, permissions, workspaces, if_true]
          rfl
        · simp only [List.find?_cons, sessions, permissions, workspaces]
          rfl

/-- Apart from the event stream the handlers answer as they do without it, and the mux
    redirects and refuses as before. -/
theorem reply_handlers (startedAt : Int) {r : Incoming}
    (taken : r.method ≠ ServeMux.methodConnect ∨ Stub.cleanPath r.path = r.path)
    (other : r.path ≠ lit "/global/event") :
    reply ((handlers startedAt).handler r.toRequest) r = lift (Stub.serve startedAt r.toRequest) := by
  rw [ServeMux.handler, shouldRedirect_handlers, if_neg Bool.false_ne_true]
  by_cases clean : Stub.cleanPath r.path = r.path
  · rw [clean, ite_self, if_neg (not_not.mpr rfl), ← matching_serve startedAt clean other]
    cases (handlers startedAt).matching r.path <;> rfl
  · rw [if_neg (taken.resolve_right clean), if_pos clean, Stub.serve, if_pos clean]
    rfl

end OpencodeRemote.Service
