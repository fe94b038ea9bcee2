import OpencodeRemote.Service.Auth
import OpencodeRemote.Stub.Streaming

/-! # Handlers over the store and the event bus

A handler of the stub announces what it does, and here the announcement goes out: `Publish`
is a lock, a send for each listener and the lock given back, and `Events` subscribes, copies
what it receives into its response and unsubscribes. Each of these is a scheduling point of
its own.
-/

namespace OpencodeRemote.Service

open Concurrency Data
open Stub (GoString lit EventBus BusLabel)

/-- The store and the event bus, with the numbers of the next call of `Publish` and of the
    next channel. -/
structure Store where
  state : Stub.State
  bus : EventBus Nat Nat
  calls : Nat
  channels : Nat

structure Env where
  stub : Stub.Env
  /-- The client has closed the connection. -/
  gone : Bool
  /-- The response writer is an `http.Flusher`. -/
  flusher : Bool
  /-- How often a handler that waits or streams is resumed before the run ends. -/
  turns : Nat

/-- What a `select` between the request's context and a channel comes to. -/
inductive Selected where
  | gone
  | data (text : GoString)
  | nothing

inductive Op where
  | stub (o : Stub.Op)
  | begin (eventType payload : GoString)
  | send (call : Nat)
  | finish (call : Nat)
  | subscribe
  | unsubscribe (channel : Nat)
  | flusher
  | select (channel : Nat)
  /-- `w.Write` and `Flush`. -/
  | write (data : GoString)
  | turns

/-- The beginning of a `Publish` answers its number and the number of listeners. A lock that
    is taken is answered with `none` or `false`. -/
abbrev Res : Op → Type
  | .stub o => Stub.Res o
  | .begin _ _ => Nat × Nat
  | .send _ => Unit
  | .finish _ => Unit
  | .subscribe => Option Nat
  | .unsubscribe _ => Bool
  | .flusher => Bool
  | .select _ => Selected
  | .write _ => Unit
  | .turns => Nat

/-- The bus after a step that is always possible where the handlers take it. -/
def Store.take (s : Store) (label : BusLabel Nat Nat) : Store := { s with bus := (s.bus.step label).getD s.bus }

def exec (env : Env) : (o : Op) → Store → Res o × Store
  | .stub o, s =>
      let (r, state) := Stub.exec env.stub o s.state
      (r, { s with state })
  | .begin eventType payload, s =>
      ((s.calls, s.bus.len), { s.take (.publish s.calls eventType payload) with calls := s.calls + 1 })
  | .send call, s => ((), s.take (.send call))
  | .finish call, s => ((), s.take (.finish call))
  | .subscribe, s =>
      match s.bus.step (.subscribe s.channels) with
      | some bus => (some s.channels, { s with bus, channels := s.channels + 1 })
      | none => (none, s)
  | .unsubscribe channel, s =>
      match s.bus.step (.unsubscribe channel) with
      | some bus => (true, { s with bus })
      | none => (false, s)
  | .flusher, s => (env.flusher, s)
  | .select channel, s =>
      if env.gone then (.gone, s)
      else
        match s.bus.channels channel with
        | some ⟨m :: _, _⟩ => (.data m.data, s.take (.receive channel))
        | _ => (.nothing, s)
  | .write _, s => ((), s)
  | .turns, s => (env.turns, s)

abbrev Handler := Program Op Res

def call (o : Op) : Handler (Res o) := .perform o

/-- What a client gets: a JSON answer, or a stream with what has been written to it so far,
    ended once the handler has returned. -/
inductive Reply where
  | json (response : Stub.Response)
  | stream (headers : List (GoString × GoString)) (written : List GoString) (ended : Bool)

/-! ## Publish -/

/-- One send for each listener, then the lock is given back. -/
def sends (number : Nat) : Nat → Handler Unit
  | 0 => call (.finish number)
  | listeners + 1 => do
      call (.send number)
      sends number listeners

def publish (eventType : GoString) (props : Stub.Json) : Handler Unit := do
  let (number, listeners) ← call (.begin eventType (Stub.eventPayload eventType props))
  sends number listeners

/-- An operation of a handler: an announcement is published. -/
def performed : (o : Stub.Op) → Handler (Stub.Res o)
  | .publish eventType props => publish eventType props
  | o => call (.stub o)

def lift : Stub.Handler Stub.Response → Handler Reply
  | .pure response => .pure (.json response)
  | .op o next => (performed o).bind fun r => lift (next r)

/-! ## Events -/

def eventHeaders : List (GoString × GoString) :=
  [(lit "Content-Type", lit "text/event-stream"), (lit "Cache-Control", lit "no-cache"),
    (lit "Connection", lit "keep-alive")]

/-- `defer h.events.Unsubscribe(ch)`, which waits while something is being published. -/
def unsubscribing (channel : Nat) (written : List GoString) : Nat → Handler Reply
  | 0 => return .stream eventHeaders written false
  | turns + 1 => do
      if ← call (.unsubscribe channel) then return .stream eventHeaders written true
      else unsubscribing channel written turns

/-- The loop of `Events`. -/
def streaming (channel : Nat) : Nat → List GoString → Handler Reply
  | 0, written => return .stream eventHeaders written false
  | turns + 1, written => do
      match ← call (.select channel) with
      | .gone => unsubscribing channel written turns
      | .data text =>
          call (.write text)
          streaming channel turns (written ++ [text])
      | .nothing => streaming channel turns written

def subscribing : Nat → Handler Reply
  | 0 => return .stream eventHeaders [] false
  | turns + 1 => do
      match ← call .subscribe with
      | none => subscribing turns
      | some channel =>
          if ← call .flusher then streaming channel turns []
          else unsubscribing channel [] turns

/-- The stream lasts for the turns it gets: none of them is left when the run ends. -/
def events : Handler Reply := do
  let turns ← call .turns
  subscribing turns

/-! ## Runs -/

/-- A request, with the value of its `Authorization` header. -/
structure Incoming extends Stub.Request where
  authorization : GoString

/-- The stub serving requests in this way. A restart leaves the files only. -/
def machine (serve : Incoming → Handler Reply) : Machine Incoming Op Res Env Store Reply where
  exec := exec
  suspends _ := true
  serve := serve
  reboot _ s := ⟨s.state.restart, .empty, 0, 0⟩

/-- A stub that has just been started. -/
def startUp (root : GoString) (disk : OrderedMap Stub.CleanPath Stub.FileData) : Store :=
  ⟨.startUp root disk, .empty, 0, 0⟩

end OpencodeRemote.Service
