import OpencodeRemote.Concurrency.Erasure
import OpencodeRemote.Service.Mux

/-! # Requests without the token

A request that the token check turns away is answered without any operation, on the store
or on the event bus, so it can be erased from every run.
-/

namespace OpencodeRemote.Service

open Concurrency Data
open Stub (GoString lit)

/-- A handler runs for the request: a pattern matches and the header carries the token. -/
def Admitted (token : GoString) (startedAt : Int) (r : Incoming) : Prop :=
  ((handlers startedAt).handler r.toRequest).isHandler = true ∧ Bearer token r.authorization

instance (token : GoString) (startedAt : Int) : DecidablePred (Admitted token startedAt) :=
  fun _ => inferInstanceAs (Decidable (_ ∧ _))

theorem serve_of_handler {token : GoString} {startedAt : Int} {r : Incoming} {h : HandlerFunc}
    (routed : (handlers startedAt).handler r.toRequest = .handler h) :
    serve token startedAt r = require token h r := by
  rw [serve_eq, routed]
  rfl

/-- Behind the check there is the handler of the pattern, in front of it a 401. -/
theorem serve_checked {token : GoString} {startedAt : Int} {r : Incoming} {h : HandlerFunc}
    (routed : (handlers startedAt).handler r.toRequest = .handler h) :
    (Bearer token r.authorization → serve token startedAt r = h r) ∧
      (¬Bearer token r.authorization → ∃ response : Stub.Response, response.code = 401 ∧
        serve token startedAt r = .pure (.json response)) := by
  rw [serve_of_handler routed]
  constructor
  · intro bearer
    exact require_of_bearer bearer (h r)
  · intro other
    obtain ⟨message, refused⟩ := require_of_not_bearer
      (fun message => (.pure (.json (unauthorized message)) : Handler Reply)) other
    exact ⟨unauthorized message, rfl, refused (h r)⟩

theorem inert_of_not_admitted (token : GoString) (startedAt : Int) :
    (service token startedAt).Inert fun r => Admitted token startedAt r := by
  intro r out
  have out : ((handlers startedAt).handler r.toRequest).isHandler = true → ¬Bearer token r.authorization := by
    intro routed bearer
    simp [Admitted, routed, bearer] at out
  change ∃ a, serve token startedAt r = .pure a
  cases routed : (handlers startedAt).handler r.toRequest with
  | handler h =>
      obtain ⟨response, -, refused⟩ := (serve_checked routed).2 (out (by rw [routed]; rfl))
      exact ⟨.json response, refused⟩
  | redirect path => exact ⟨_, by rw [serve_eq, routed]; rfl⟩
  | notFound => exact ⟨_, by rw [serve_eq, routed]; rfl⟩

/-- Every route is wrapped, a handler runs for the bearers of the token only, and the others
    might as well not have asked. -/
theorem others_inert (token : GoString) (startedAt : Int) :
    mux token startedAt = (handlers startedAt).wrap (require token) ∧
    (∀ r h, (handlers startedAt).handler r.toRequest = .handler h →
      (Bearer token r.authorization → serve token startedAt r = h r) ∧
        (¬Bearer token r.authorization → ∃ response : Stub.Response, response.code = 401 ∧
          serve token startedAt r = .pure (.json response))) ∧
    ∀ (s : Store) labels,
      let whole := (service token startedAt).run s labels
      let rest := (service token startedAt).run s (erase (fun r => Admitted token startedAt r) [] labels)
      rest.store = whole.store ∧
        rest.log = whole.log.map (Entry.renumber (rank (fun r => Admitted token startedAt r) whole.requests)) ∧
        rest.threads = whole.threads.filter fun thread => Admitted token startedAt thread.request := by
  refine ⟨mux_eq_wrap token startedAt, fun r h routed => serve_checked routed, fun s labels => ?_⟩
  simp only [Machine.run_erase (inert_of_not_admitted token startedAt)]
  exact ⟨rfl, rfl, rfl⟩

/-- A listener with the token reads the announcement of a workspace, one without is refused. -/
example :
    let env (gone : Bool) : Env := ⟨Stub.calm 1, gone, true, 8⟩
    let listen (authorization : String) : Incoming :=
      ⟨⟨Stub.methodGet, lit "/global/event", Stub.noBody⟩, lit authorization⟩
    let steps (thread n : Nat) (gone : Bool) := List.replicate n (Label.resume thread fun _ => env gone)
    let labels : List (Label Incoming Env) :=
      [.arrive (listen "Bearer tok") fun _ => env false, .arrive (listen "Bearer other") fun _ => env false,
        .arrive ⟨Stub.workspacePost (lit "w"), lit "bearer tok"⟩ fun _ => env false] ++
        steps 0 3 false ++ steps 2 5 false ++ steps 0 4 false ++ steps 0 2 true
    let written := ((service (lit "tok") 0).run (startUp (lit "/state") .empty) labels).threads.map fun thread =>
      match thread.rest with
      | some (.pure (.stream _ written ended)) => (written.length, ended)
      | _ => (0, false)
    written = [(1, true), (0, false), (0, false)] := by
  decide +kernel

end OpencodeRemote.Service
