import OpencodeRemote.Stub.Replies
import OpencodeRemote.Stub.Streaming

/-! # What a client knows from the events

A client that has read every event keeps the ids that were asked about and forgets those
that were answered. When no request is in progress these are the requests that the stub has
pending, as long as writes succeed, ids are fresh and no reply says `pending`.
-/

namespace OpencodeRemote.Stub

open Concurrency Data

/-- The id in an event of this type, under this name. -/
def tells (eventType name : GoString) (m : EventStream.Message) : Option GoString :=
  if m.type = eventType then
    match ((JSON.parse m.data).bind (property (lit "properties"))).bind (property name) with
    | some (.str id) => some id
    | _ => none
  else none

/-- The ids that were asked about and not answered. -/
def unanswered (messages : List EventStream.Message) : List GoString :=
  (messages.filterMap (tells (lit "permission.asked") (lit "id"))).filter fun id =>
    !(messages.filterMap (tells (lit "permission.replied") (lit "requestID"))).contains id

/-- The reply, if the entry is one, takes its request off the list. -/
def Decides (entry : StubEntry) : Prop := ∀ reply ∈ setStatusOf entry.event.op, reply.2 ≠ pending

instance (entry : StubEntry) : Decidable (Decides entry) :=
  inferInstanceAs (Decidable (∀ reply ∈ setStatusOf entry.event.op, _))

/-! ## Statuses -/

/-- Requests are pending until they are replied to. -/
structure Pending (s : State) (log : Log) : Prop where
  replying : Replying s log
  waiting : (∀ entry ∈ log, Decides entry) → ∀ m p asked, raised log m = some (p, asked) →
    (s.status p = pending ↔ ∀ i reply, replied log i ≠ some (p, reply))
  named : ∀ m p asked, raised log m = some (p, asked) → ∃ minted, p.id = lit "perm_" ++ Strings.decimal minted

theorem startUp_pending (root : GoString) (disk : OrderedMap CleanPath FileData) :
    Pending (State.startUp root disk) [] := by
  refine ⟨startUp_replying root disk, ?_, ?_⟩
  · intro _ m p asked filed
    cases filed
  · intro m p asked filed
    cases filed

/-- A reply to the address of a request is one to that request. -/
theorem reply_own {s : State} {log : Log} {thread m : Nat} {p q : PermissionPtr} {asked reply : GoString}
    (replying : Replying s log) (allowed : Protocol (past log thread) ⟨.setStatus q reply, ()⟩)
    (filed : raised log m = some (p, asked)) (same : q.addr = p.addr) : q = p := by
  obtain ⟨id, member⟩ := Looked.mem allowed
  obtain ⟨k, at_k⟩ := mem_past.mp member
  obtain ⟨m', -, asked', filed', -⟩ := replying.requests.sourced.lookedUp k thread id q at_k
  obtain rfl := replying.addressed.own m m' p q asked asked' filed filed' same.symm
  cases filed.symm.trans filed'
  rfl

/-- What has been replied to has an address in use. -/
theorem replied_below {s : State} {log : Log} {i : Nat} {p : PermissionPtr} {reply : GoString}
    (replying : Replying s log) (lawful : Lawful Protocol log) (answered : replied log i = some (p, reply)) :
    p.addr < s.statuses.length := by
  obtain ⟨k, -, thread, id, at_k⟩ := replied_lookedUp lawful answered
  obtain ⟨m, -, asked, filed, -⟩ := replying.requests.sourced.lookedUp k thread id p at_k
  exact replying.addressed.below m p asked filed

theorem pending_preserved (startedAt : Int) (scope : StubScope) :
    (server startedAt).Preserves Protocol scope Pending := by
  intro s log thread o env within lawful inv
  have replying := replying_preserved startedAt scope s log thread o env within lawful inv.replying
  change Lawful Protocol (log ++ [⟨thread, s, ⟨o, (exec env o s).1⟩⟩]) at lawful
  change Replying (exec env o s).2 (log ++ [⟨thread, s, ⟨o, (exec env o s).1⟩⟩]) at replying
  change Pending (exec env o s).2 (log ++ [⟨thread, s, ⟨o, (exec env o s).1⟩⟩])
  have allowed : Protocol (past log thread) ⟨o, (exec env o s).1⟩ := lawful_last lawful
  refine ⟨replying, ?_, ?_⟩
  · intro decides m p asked filed
    have newest := decides _ (List.mem_append_right _ (List.mem_singleton_self _))
    rcases observe_snoc.mp filed with older | ⟨rfl, viewed⟩
    · have inUse := inv.replying.addressed.below m p asked older
      have before := inv.waiting (fun entry member => decides entry (List.mem_append_left _ member)) m p asked older
      by_cases answer : ∃ reply, o = .setStatus p reply
      · obtain ⟨reply, rfl⟩ := answer
        have answered : replied (log ++
            [⟨thread, s, ⟨.setStatus p reply, (exec env (.setStatus p reply) s).1⟩⟩]) log.length = some (p, reply) :=
          observe_snoc.mpr (.inr ⟨rfl, rfl⟩)
        rw [status_set inUse]
        exact ⟨fun same => absurd same (newest _ rfl), fun silent => absurd answered (silent _ _)⟩
      · have same : (exec env o s).2.status p = s.status p := by
          refine status_stays inUse ?_
          rintro q reply rfl address
          obtain rfl := reply_own inv.replying allowed older address
          exact answer ⟨reply, rfl⟩
        rw [same, before]
        constructor
        · intro silent i reply answered
          rcases observe_snoc.mp answered with earlier | ⟨-, viewed⟩
          · exact silent i reply earlier
          · exact answer ⟨reply, setStatus_of_repliedView viewed⟩
        · exact fun silent i reply answered => silent i reply (observe_mono answered)
    · -- a new request is pending, and nobody can have replied to it
      obtain ⟨here, q, status, rfl⟩ := raised_address viewed
      obtain ⟨-, -, -, -, -, -, -, -, rfl⟩ := allowed
      refine ⟨fun _ i reply answered => ?_, fun _ => status_new here⟩
      rcases observe_snoc.mp answered with earlier | ⟨-, viewed⟩
      · have below := replied_below inv.replying (lawful_init lawful) earlier
        omega
      · cases setStatus_of_repliedView viewed
  · intro m p asked filed
    rcases observe_snoc.mp filed with older | ⟨rfl, viewed⟩
    · exact inv.named m p asked older
    · obtain ⟨-, q, status, rfl⟩ := raised_address viewed
      obtain ⟨-, se, operation, cwd, minted, created, -, rfl, -⟩ := allowed
      obtain ⟨asked', -, same⟩ := Option.map_eq_some_iff.mp viewed
      cases same
      exact ⟨minted, rfl⟩

/-! ## What the events say -/

section Events

variable {s : State} {log : Log} {i : Nat}

theorem announced_asked (narrates : Lawful Narrates log) (lawful : Lawful Protocol log) {props : Json}
    (here : announced log i = some (lit "permission.asked", props)) :
    ∃ m p asked se, raised log m = some (p, asked) ∧ props = permissionAsked p se := by
  obtain ⟨thread, ⟨o, r⟩, at_i, viewed⟩ := observe_eq_some.mp here
  cases o with
  | publish eventType props' =>
      cases viewed
      obtain ⟨q, status, p, se, filed, same⟩ := (narrates i thread _ at_i).2.1 rfl
      obtain ⟨m, -, at_m⟩ := mem_past_take.mp filed
      obtain ⟨asked, filed⟩ := raised_of_at lawful at_m
      exact ⟨m, p, asked, se, filed, same⟩
  | _ => cases viewed

theorem announced_replied (narrates : Lawful Narrates log) {props : Json}
    (here : announced log i = some (lit "permission.replied", props)) :
    ∃ j p reply, replied log j = some (p, reply) ∧ props = permissionReplied p reply := by
  obtain ⟨thread, ⟨o, r⟩, at_i, viewed⟩ := observe_eq_some.mp here
  cases o with
  | publish eventType props' =>
      cases viewed
      obtain ⟨p, reply, set, same⟩ := (narrates i thread _ at_i).2.2 rfl
      obtain ⟨j, -, at_j⟩ := mem_past_take.mp set
      exact ⟨j, p, reply, observe_eq_some.mpr ⟨thread, _, at_j, rfl⟩, same⟩
  | _ => cases viewed

theorem ascii_of_isWordByte {c : UInt8} (word : JSON.isWordByte c = true) : c < 128 := by
  simp only [JSON.isWordByte, JSON.isDigit, decide_eq_true_eq, UInt8.le_iff_toNat_le, UInt8.lt_iff_toNat_lt,
    ← UInt8.toNat_inj] at word ⊢
  simp at word ⊢
  omega

theorem ascii_decimal (n : Int) : ∀ c ∈ Strings.decimal n, c < 128 := by
  have word : ∀ c ∈ JSON.decimal n, JSON.isWordByte c = true := JSON.wordBytes_of_isNumber (JSON.isNumber_decimal n)
  have same : Strings.decimal n = JSON.decimal n := by cases n <;> rfl
  exact fun c member => ascii_of_isWordByte (word c (same ▸ member))

/-- Ids are read as they are. -/
theorem toValid_id (pending : Pending s log) {m : Nat} {p : PermissionPtr} {asked : GoString}
    (filed : raised log m = some (p, asked)) : toValid p.id = p.id := by
  obtain ⟨minted, same⟩ := pending.named m p asked filed
  rw [same]
  exact toValid_ascii (List.forall_mem_append.mpr ⟨by decide +kernel, ascii_decimal minted⟩)

theorem tells_announced {eventType name id : GoString} {fields : List (GoString × Json)} {m : EventStream.Message}
    (told : Tells log i m) (here : announced log i = some (eventType, .obj fields))
    (distinct : (fields.map Prod.fst).Nodup) (plain : ∀ name ∈ fields.map Prod.fst, toValid name = name)
    (member : (name, .str id) ∈ fields) : tells eventType name m = some (toValid id) := by
  obtain ⟨eventType', props, here', type, parsed⟩ := told
  cases here.symm.trans here'
  have properties (v w : JSON) : property (lit "properties") (.obj [(lit "properties", v), (lit "type", w)]) =
      some v := by
    refine JSON.lookup_of_mem ?_ List.mem_cons_self
    show [lit "properties", lit "type"].Nodup
    decide
  rw [tells, if_pos type, parsed, Option.bind_some, properties, Option.bind_some,
    property_view distinct plain member]
  rfl

theorem announced_of_tells {eventType name id : GoString} {m : EventStream.Message} (told : Tells log i m)
    (read : tells eventType name m = some id) : ∃ props, announced log i = some (eventType, props) := by
  obtain ⟨eventType', props, here, type, -⟩ := told
  unfold tells at read
  split at read
  · rename_i same
    exact ⟨props, type.symm.trans same ▸ here⟩
  · cases read

/-- The names in the events about requests are apart, and plain. -/
theorem tells_asked {m : EventStream.Message} {p : PermissionPtr} {se : Session} (told : Tells log i m)
    (here : announced log i = some (lit "permission.asked", permissionAsked p se)) :
    tells (lit "permission.asked") (lit "id") m = some (toValid p.id) := by
  refine tells_announced told here ?_ ?_ List.mem_cons_self
  · show [lit "id", lit "sessionID", lit "permission", lit "patterns", lit "metadata"].Nodup
    decide
  · show ∀ name ∈ [lit "id", lit "sessionID", lit "permission", lit "patterns", lit "metadata"],
      toValid name = name
    decide

theorem tells_replied {m : EventStream.Message} {p : PermissionPtr} {reply : GoString} (told : Tells log i m)
    (here : announced log i = some (lit "permission.replied", permissionReplied p reply)) :
    tells (lit "permission.replied") (lit "requestID") m = some (toValid p.id) := by
  refine tells_announced told here ?_ ?_ List.mem_cons_self
  · show [lit "requestID", lit "reply"].Nodup
    decide
  · show ∀ name ∈ [lit "requestID", lit "reply"], toValid name = name
    decide

end Events

/-! ## The property -/

section Idle

variable {startedAt : Int} {root : GoString} {disk : OrderedMap CleanPath FileData} {labels : List StubLabel}

def isAnswered (thread : Thread Request Op Res Response) : Bool :=
  match thread.rest with
  | some (.pure _) => true
  | _ => false

/-- Every request has been answered. -/
def Idle (pool : StubPool) : Prop := ∀ thread ∈ pool.threads, isAnswered thread = true

instance (pool : StubPool) : Decidable (Idle pool) := inferInstanceAs (Decidable (∀ thread ∈ pool.threads, _))

/-- The client has received every event. -/
def HeardAll (log : Log) (c : Channel Nat) : Prop :=
  ∀ i < log.length, (announced log i).isSome = true → i ∈ c.received.map Message.call

instance (log : Log) (c : Channel Nat) : Decidable (HeardAll log c) :=
  inferInstanceAs (Decidable (∀ i < log.length, _))

theorem exists_left {ι κ : Type} {R : ι → κ → Prop} {items : List ι} {items' : List κ}
    (related : List.Forall₂ R items items') {b : κ} (member : b ∈ items') : ∃ a ∈ items, R a b := by
  induction related with
  | nil => cases member
  | cons first _ ih =>
      rcases List.mem_cons.mp member with rfl | later
      · exact ⟨_, List.mem_cons_self, first⟩
      · obtain ⟨a, inside, holds⟩ := ih later
        exact ⟨a, List.mem_cons_of_mem _ inside, holds⟩

/-- When nothing is in progress, whoever did something has announced it. -/
theorem complete_of_idle (idle : Idle ((server startedAt).run (State.startUp root disk) labels)) {i thread : Nat}
    {event : StubEvent} (here : At ((server startedAt).run (State.startUp root disk) labels).log i thread event) :
    Complete (past ((server startedAt).run (State.startUp root disk) labels).log thread) := by
  obtain ⟨s, entry⟩ := here
  have known : thread < _ := Machine.run_known (fun label _ => label.within_default) _ (List.mem_of_getElem? entry)
  have found := List.getElem?_eq_getElem known
  have finished := idle _ (List.getElem_mem known)
  generalize ((server startedAt).run (State.startUp root disk) labels).threads[thread] = working at found finished
  obtain ⟨request, started, rest⟩ := working
  cases rest with
  | some program =>
      cases program with
      | pure response => exact run_complete found
      | op o next => cases finished
  | none => cases finished

/-- What an entry announces has been read. -/
theorem read_of_announced {log : Log} {c : Channel Nat} (legible : Legible log c) (heard : HeardAll log c) {i : Nat}
    {event : GoString × Json} (here : announced log i = some event) :
    ∃ m ∈ EventStream.parse c.written, Tells log i m := by
  have flipped : List.Forall₂ (fun m i => Tells log i m) (EventStream.parse c.written)
      (c.received.map Message.call) := legible.whole.flip
  exact exists_left flipped (heard i (observe_lt here) (by rw [here]; rfl))

variable {c : Channel Nat} {id : GoString}

section Sides

variable (pending : Pending ((server startedAt).run (State.startUp root disk) labels).store
    ((server startedAt).run (State.startUp root disk) labels).log)
  (lawful : Lawful Protocol ((server startedAt).run (State.startUp root disk) labels).log)
  (idle : Idle ((server startedAt).run (State.startUp root disk) labels))
  (legible : Legible ((server startedAt).run (State.startUp root disk) labels).log c)
  (heard : HeardAll ((server startedAt).run (State.startUp root disk) labels).log c)

include pending lawful idle legible heard

theorem mem_asked_iff : id ∈ (EventStream.parse c.written).filterMap (tells (lit "permission.asked") (lit "id")) ↔
    ∃ m p asked, raised ((server startedAt).run (State.startUp root disk) labels).log m = some (p, asked) ∧
      p.id = id := by
  have narrates := run_narrates startedAt (State.startUp root disk) labels
  rw [List.mem_filterMap]
  constructor
  · rintro ⟨m, inside, read⟩
    obtain ⟨i, -, told⟩ := exists_left legible.whole inside
    obtain ⟨props, here⟩ := announced_of_tells told read
    obtain ⟨k, p, asked, se, filed, rfl⟩ := announced_asked narrates lawful here
    refine ⟨k, p, asked, filed, ?_⟩
    rw [tells_asked told here, toValid_id pending filed] at read
    exact Option.some.inj read
  · rintro ⟨k, p, asked, filed, rfl⟩
    obtain ⟨thread, ⟨o, r⟩, at_k, viewed⟩ := observe_eq_some.mp filed
    cases o with
    | createPermission q status =>
        obtain ⟨asked', -, same⟩ := Option.map_eq_some_iff.mp viewed
        cases same
        have member := mem_past.mpr ⟨k, at_k⟩
        obtain ⟨se, told⟩ := (complete_of_idle idle at_k).asked q status p member
        obtain ⟨i, at_i⟩ := mem_past.mp told
        have here : announced _ i = some (lit "permission.asked", permissionAsked p se) :=
          observe_eq_some.mpr ⟨thread, _, at_i, rfl⟩
        obtain ⟨m, inside, told⟩ := read_of_announced legible heard here
        exact ⟨m, inside, by rw [tells_asked told here, toValid_id pending filed]⟩
    | _ => cases viewed

theorem mem_replied_iff (written : ∀ k thread a err,
    ¬At ((server startedAt).run (State.startUp root disk) labels).log k thread ⟨.createApproval a, some err⟩) :
    id ∈ (EventStream.parse c.written).filterMap (tells (lit "permission.replied") (lit "requestID")) ↔
      ∃ j p reply, replied ((server startedAt).run (State.startUp root disk) labels).log j = some (p, reply) ∧
        p.id = id := by
  have narrates := run_narrates startedAt (State.startUp root disk) labels
  have sourced {j : Nat} {p : PermissionPtr} {reply : GoString}
      (answered : replied ((server startedAt).run (State.startUp root disk) labels).log j = some (p, reply)) :
      toValid p.id = p.id ∧ p.patterns ≠ [] := by
    obtain ⟨k, -, thread, id, at_k⟩ := replied_lookedUp lawful answered
    obtain ⟨m, -, asked, filed, patterns⟩ := pending.replying.requests.sourced.lookedUp k thread id p at_k
    exact ⟨toValid_id pending filed, by simp [patterns]⟩
  rw [List.mem_filterMap]
  constructor
  · rintro ⟨m, inside, read⟩
    obtain ⟨i, -, told⟩ := exists_left legible.whole inside
    obtain ⟨props, here⟩ := announced_of_tells told read
    obtain ⟨j, p, reply, answered, rfl⟩ := announced_replied narrates here
    refine ⟨j, p, reply, answered, ?_⟩
    rw [tells_replied told here, (sourced answered).1] at read
    exact Option.some.inj read
  · rintro ⟨j, p, reply, answered, rfl⟩
    obtain ⟨thread, ⟨o, r⟩, at_j, viewed⟩ := observe_eq_some.mp answered
    obtain rfl := setStatus_of_repliedView viewed
    have member := mem_past.mpr ⟨j, at_j⟩
    rcases (complete_of_idle idle at_j).replied p reply member with told | empty | ⟨a, err, failed⟩
    · obtain ⟨i, at_i⟩ := mem_past.mp told
      have here : announced _ i = some (lit "permission.replied", permissionReplied p reply) :=
        observe_eq_some.mpr ⟨thread, _, at_i, rfl⟩
      obtain ⟨m, inside, told⟩ := read_of_announced legible heard here
      exact ⟨m, inside, by rw [tells_replied told here, (sourced answered).1]⟩
    · exact absurd empty (sourced answered).2
    · obtain ⟨k, at_k⟩ := mem_past.mp failed
      exact absurd at_k (written k thread a err)

end Sides

/-- No reply fails: a request has a pattern, and its approval is written. -/
theorem no_failed_grant (startedAt : Int) :
    (server startedAt).Preserves Protocol writing fun _ log =>
      ∀ k thread a err, ¬At log k thread ⟨.createApproval a, some err⟩ := by
  intro s log thread o env within lawful inv k thread' a err here
  change env.write = .ok at within
  rcases at_snoc.mp here with older | ⟨-, -, same⟩
  · exact inv k thread' a err older
  · obtain ⟨rfl, answer⟩ := Event.mk.inj same
    have failed : (exec env (.createApproval a) s).1 = some err := (eq_of_heq answer).symm
    simp only [exec, State.createApproval, State.saveApproval, writeFile, within] at failed
    cases failed

/-- In every run of one process whose writes succeed, while ids are fresh and no reply puts
    a request back: once nothing is in progress and a client has received every event, what
    it has seen asked and not answered are the ids of the pending requests. -/
theorem aware_when_idle (startedAt : Int) (root : GoString) (disk : OrderedMap CleanPath FileData)
    (labels : List StubLabel) (running : ∀ label ∈ labels, label.Within writing)
    (fresh : ∀ entry ∈ ((server startedAt).run (State.startUp root disk) labels).log, FreshRequest entry)
    (decides : ∀ entry ∈ ((server startedAt).run (State.startUp root disk) labels).log, Decides entry)
    (idle : Idle ((server startedAt).run (State.startUp root disk) labels))
    {κ : Type} [DecidableEq κ] (bus : List (BusLabel Nat κ))
    (carries : Carries ((server startedAt).run (State.startUp root disk) labels).log bus)
    (b : EventBus Nat κ) (reached : EventBus.run bus = some b) (channel : κ) (c : Channel Nat)
    (open_ : b.channels channel = some c)
    (heard : HeardAll ((server startedAt).run (State.startUp root disk) labels).log c) (env : Env) (id : GoString) :
    id ∈ unanswered (EventStream.parse c.written) ↔
      ∃ p ∈ ((server startedAt).run (State.startUp root disk) labels).store.listPermissions env, p.id = id := by
  have lawful : Lawful Protocol ((server startedAt).run (State.startUp root disk) labels).log :=
    run_protocol running
  have pending := run_preserved running (fun _ => not_false) (pending_preserved startedAt writing)
    (startUp_pending root disk)
  have written := run_preserved (s := State.startUp root disk) running (fun _ => not_false)
    (no_failed_grant startedAt) fun k thread a err here => absurd here.lt (Nat.not_lt_zero k)
  have legible := legible_of_lawful (run_announced startedAt _ labels) carries reached open_
  have kept := pending.replying.requests.kept fresh
  have requests := pending.replying.requests.sourced
  rw [unanswered, List.mem_filter, Bool.not_eq_true', ← Bool.not_eq_true, List.contains_iff_mem,
    mem_asked_iff pending lawful idle legible heard,
    mem_replied_iff pending lawful idle legible heard written]
  constructor
  · rintro ⟨⟨m, p, asked, filed, rfl⟩, silent⟩
    refine ⟨p, List.mem_filter.mpr ⟨?_, ?_⟩, rfl⟩
    · exact List.mem_map.mpr ⟨(p.id, p), OrderedMap.mem_range.mpr (kept.inMemory m p asked filed), rfl⟩
    · refine decide_eq_true ((pending.waiting decides m p asked filed).mpr ?_)
      exact fun i reply answered => silent ⟨i, p, reply, answered, rfl⟩
  · rintro ⟨p, listed, rfl⟩
    obtain ⟨key, inMemory⟩ := mem_listPermissions listed
    obtain ⟨m, asked, filed, -⟩ := requests.inMemory key p inMemory
    have waits : _ = Stub.pending := of_decide_eq_true (List.mem_filter.mp listed).2
    have silent := (pending.waiting decides m p asked filed).mp waits
    refine ⟨⟨m, p, asked, filed, rfl⟩, ?_⟩
    rintro ⟨j, q, reply, answered, same⟩
    -- a reply to a request of this id is a reply to this request
    obtain ⟨k, -, thread, id, at_k⟩ := replied_lookedUp lawful answered
    obtain ⟨m', -, asked', filed', -⟩ := requests.lookedUp k thread id q at_k
    obtain rfl := kept.own m' m q p asked' asked filed' filed same
    cases filed'.symm.trans filed
    exact silent j reply answered

end Idle

/-- A session asks at 3 and at 4, and the first request is approved. -/
def oneWaiting : List StubLabel :=
  script [(1, workspacePost (lit "w")), (2, sessionPost (lit "s") (lit "w")), (3, shellPost (lit "s") (lit "/srv/app")),
    (4, shellPost (lit "s") (lit "/srv/lib")), (5, replyPost (lit "perm_3") once)]

theorem aware_of_one_waiting : ∃ c, (EventBus.run (relay ((server 0).run (State.startUp (lit "/state") .empty)
    oneWaiting).log)).bind (fun b => b.channels ()) = some c ∧
    (((server 0).run (State.startUp (lit "/state") .empty) oneWaiting).store.listPermissions (calm 6)).map (·.id) =
      [lit "perm_4"] ∧
    ∀ id, id ∈ unanswered (EventStream.parse c.written) ↔
      ∃ p ∈ ((server 0).run (State.startUp (lit "/state") .empty) oneWaiting).store.listPermissions (calm 6),
        p.id = id := by
  have read : ((EventBus.run (relay ((server 0).run (State.startUp (lit "/state") .empty) oneWaiting).log)).bind
      fun b => b.channels ()).map (fun c =>
        decide (HeardAll ((server 0).run (State.startUp (lit "/state") .empty) oneWaiting).log c)) = some true := by
    decide +kernel
  obtain ⟨c, open_, heard⟩ := Option.map_eq_some_iff.mp read
  obtain ⟨b, reached, here⟩ := Option.bind_eq_some_iff.mp open_
  exact ⟨c, open_, by decide +kernel, aware_when_idle 0 (lit "/state") .empty oneWaiting (script_writing _)
    (by decide +kernel) (by decide +kernel) (by decide +kernel) _ (carries_relay _) b reached () c here
    (of_decide_eq_true heard) (calm 6)⟩

end OpencodeRemote.Stub
