import OpencodeRemote.Plugin.Index
import OpencodeRemote.Service.Auth

/-! # The plugin and the stub together

What the plugin calls a request to a local port is served by the stub at the other end of
the tunnel. A link runs an asynchronous function of the plugin over its own tables and the
stub's store: requests that get through are answered by the stub's handlers, and everything
else is up to the environment as before.
-/

namespace OpencodeRemote.Link

open Concurrency Data
open Service (Require Bearer unauthorized)

/-! ## The token check -/

/-- The patterns that `main` registers, the last three for whole subtrees. -/
def routes : List Stub.GoString :=
  ["/global/health", "/global/event", "/experimental/workspace/adaptor", "/experimental/workspace",
    "/experimental/workspace/status", "/session", "/session/status", "/permission"].map Stub.lit

def subtrees : List Stub.GoString :=
  ["/session/", "/permission/", "/experimental/workspace/"].map Stub.lit

/-- The mux of `main`, as far as answers in JSON go: redirects and unknown paths come without
    the token check. -/
def mux (token : Stub.GoString) (startedAt : Int) (authorization : Stub.GoString) (r : Stub.Request) :
    Stub.Handler Stub.Response :=
  if Stub.cleanPath r.path = r.path ∧
      (r.path ∈ routes ∨ ∃ subtree ∈ subtrees, Stub.Strings.hasPrefix r.path subtree) then
    Require (fun message => .pure (unauthorized message)) token authorization (Stub.serve startedAt r)
  else Stub.serve startedAt r

/-- With the token a request is handled, whatever its path is. -/
theorem mux_of_bearer {token authorization : Stub.GoString} (bearer : Bearer token authorization) (startedAt : Int)
    (r : Stub.Request) : mux token startedAt authorization r = Stub.serve startedAt r := by
  rw [mux, Service.require_of_bearer bearer, ite_self]

theorem mux_cases (token : Stub.GoString) (startedAt : Int) (authorization : Stub.GoString) (r : Stub.Request) :
    mux token startedAt authorization r = Stub.serve startedAt r ∨
      ∃ message, mux token startedAt authorization r = .pure (unauthorized message) := by
  rw [mux]
  split
  · exact Service.require_cases _ _ _ _
  · exact .inl rfl

/-! ## Requests on the wire -/

def utf8 (s : String) : Stub.GoString := s.toList.flatMap String.utf8EncodeChar

/-- `JSON.stringify` and the decoder of each handler. -/
def decode : Option Plugin.RemoteBody → Stub.Body
  | none =>
      let eof : Stub.GoString := Stub.lit "EOF"
      ⟨.error eof, .error eof, .error eof, .error eof⟩
  | some (.session id title workspaceID) =>
      { workspace := .ok ⟨utf8 id, [], [], [], [], [], [], 0, none⟩
        session := .ok ⟨utf8 id, utf8 title, utf8 workspaceID⟩
        reply := .ok ⟨[], []⟩
        command := .ok ⟨[], [], []⟩ }
  | some (.workspace id type name provider host) =>
      let extra := (OrderedMap.empty.set (Stub.lit "provider") (Stub.Json.str (utf8 provider))).set
        (Stub.lit "host") (.str (utf8 host))
      { workspace := .ok ⟨utf8 id, utf8 type, utf8 name, [], [], [], [], 0, some extra⟩
        session := .ok ⟨utf8 id, [], []⟩
        reply := .ok ⟨[], []⟩
        command := .ok ⟨[], [], []⟩ }

def wire (request : Plugin.FetchRequest) : Stub.Request :=
  ⟨utf8 request.method, utf8 request.path, decode request.body⟩

def authorization (request : Plugin.FetchRequest) : Stub.GoString :=
  match request.token with
  | some token => Stub.lit "Bearer " ++ utf8 token
  | none => []

/-- What the surroundings contribute to one operation of the plugin. -/
structure Contribution where
  plugin : Plugin.Env
  /-- The request gets through; if not, the connection is refused. -/
  reaches : Bool
  /-- The token of the stub that is running. -/
  token : Stub.GoString
  /-- What each operation of the handler gets. -/
  stub : Nat → Stub.Env
  /-- What reading the body of the response comes to. -/
  text : Except String String
  json : Except String String
  /-- The command starts the stub anew. -/
  restarts : Bool

abbrev Both := Plugin.Store × Stub.State

/-- The stub's answer to a request that gets through. -/
def answer (startedAt : Int) (c : Contribution) (request : Plugin.FetchRequest) (σ : Stub.State) :
    Plugin.Response × Stub.State :=
  let handler := mux c.token startedAt (authorization request) (wire request)
  let (response, σ', _) := handler.run Stub.exec c.stub σ
  (⟨response.code, c.text, c.json⟩, σ')

def exec (config : Plugin.ResolvedPluginConfig) (startedAt : Int) (c : Contribution) :
    (o : Plugin.Op) → Both → Plugin.Res o × Both
  | .remote (.fetch request), (s, σ) =>
      if c.reaches then
        let (response, σ') := answer startedAt c request σ
        (.ok response, (s, σ'))
      else (.error "ECONNREFUSED", (s, σ))
  | .remote (.ssh args command), (s, σ) =>
      (c.plugin.answer (.ssh args command), (s, if c.restarts then σ.restart else σ))
  | o, (s, σ) =>
      let (r, s') := Plugin.exec config c.plugin o s
      (r, (s', σ))

/-- A call that no other call overlaps, with the stub at the other end. -/
def linked {α : Type} (config : Plugin.ResolvedPluginConfig) (startedAt : Int) (f : Plugin.Async α)
    (env : Nat → Contribution) (both : Both) : Except String α × Both × (Nat → Contribution) :=
  f.run.run (exec config startedAt) env both

end OpencodeRemote.Link
