import Goflow.Basic

/-!
# rmq deliveries and `Consume`

An rmq queue is Redis lists: `ready` (published, not fetched), this connection's `unacked`
(fetched, not settled) and `rejected`. A prefetcher moves a payload from `ready` to
`unacked` (`RPOPLPUSH`) and hands a delivery to a consumer, which calls
`FlowRuntime.Consume`. The delivery knows its queue and the push queue of the handle that
fetched it. `Ack` is `LREM unacked 1 payload` (`ErrorNotFound` when nothing was removed);
`Push` is `LPUSH` to the push queue's `ready` list (to `rejected` without a push queue)
followed by that same `LREM`.

`Consume` parses the payload, runs `handleRequest`, and settles: `Push` on a parse error,
then return; `Push` on a handler error, and then, with no `return` after it, `Ack`;
`Ack` on success. Each Redis command is one atomic step; an interleaving mixes publishes,
fetches and the steps of every delivery being consumed. Whether a payload parses is a
parameter; whether `handleRequest` succeeds is the environment's choice at the first step,
and the call records it.

* `consume_double_settle`: two deliveries with the same payload; the handler fails on the
  first, whose `Push` and then `Ack` remove both entries from `unacked` while the second is
  still in flight.
-/

namespace Goflow

/-- The Redis lists of the rmq queues. -/
inductive ListKey where
  | ready (queue : Bytes)
  | unacked (queue : Bytes)
  | rejected (queue : Bytes)
  deriving DecidableEq, Repr

/-- The contents of the Redis lists, head first. -/
abbrev Lists := ListKey → List Bytes

namespace Lists

/-- `LPUSH key v`. -/
def lpush (ls : Lists) (k : ListKey) (v : Bytes) : Lists := fun k' => if k' = k then v :: ls k else ls k'

@[simp] theorem lpush_same (ls : Lists) (k : ListKey) (v : Bytes) : ls.lpush k v k = v :: ls k := by
  simp [lpush]

/-- `LREM key 1 v`: the first `v` from the head removed, and the count removed. -/
def lrem (ls : Lists) (k : ListKey) (v : Bytes) : Lists × Nat :=
  (fun k' => if k' = k then (ls k).erase v else ls k', if v ∈ ls k then 1 else 0)

/-- `RPOPLPUSH src dst`: the tail of `src` moved to the head of `dst`, and that payload. -/
def rpoplpush (ls : Lists) (src dst : ListKey) : Lists × Option Bytes :=
  match (ls src).getLast? with
  | none => (ls, none)
  | some v => (fun k => if k = dst then v :: (if dst = src then (ls src).dropLast else ls dst)
      else if k = src then (ls src).dropLast else ls k, some v)

end Lists

/-- An rmq delivery: the payload, the queue it was fetched from, and the push queue of the
handle that fetched it (`pushKey`, empty when unset). -/
structure Delivery where
  payload : Bytes
  queue : Bytes
  pushQueue : Option Bytes
  deriving DecidableEq, Repr

/-- Where `Push` moves a delivery: the push queue's `ready` list, or `rejected` (`Reject`). -/
def Delivery.pushTarget (d : Delivery) : ListKey :=
  match d.pushQueue with
  | some q => .ready q
  | none => .rejected d.queue

/-- The step a `Consume` call is at. `ack` records that the `Push` under way is the handler
error's, which falls through to `Ack`. -/
inductive ConsumePc where
  | start
  | pushLPush (ack : Bool)
  | pushLRem (ack : Bool)
  | ack
  | done
  deriving DecidableEq, Repr

/-- A delivery and its `Consume` call: its step, and what `handleRequest` returned once it
has run (`none` before, and for a payload that does not parse). -/
structure Consumer where
  delivery : Delivery
  pc : ConsumePc
  handled : Option Bool
  deriving DecidableEq, Repr

/-- Which settle an `LREM` belongs to. -/
inductive Settle where
  | push
  | ack
  deriving DecidableEq, Repr

/-- The lists, the deliveries fetched so far with their `Consume` calls, and a ghost log of
the `LREM`s: which delivery, for which settle, and whether it removed an entry. -/
structure QueueWorld where
  lists : Lists
  consumers : List Consumer
  log : List (Nat × Settle × Bool)

/-- A step of an interleaving. -/
inductive QLabel where
  /-- `PublishBytes(payload)` on `queue` (`LPUSH` to `ready`). -/
  | publish (queue payload : Bytes)
  /-- A prefetcher of a handle of `queue`, linked to `pushQueue`, fetches one payload. -/
  | fetch (queue : Bytes) (pushQueue : Option Bytes)
  /-- The `Consume` call of delivery `i` takes a step; `handled` is whether `handleRequest`
  succeeds, read at its first step. -/
  | consume (i : Nat) (handled : Bool)
  deriving DecidableEq, Repr

variable (parses : Bytes → Bool)

/-- Delivery `i`'s `Consume` call, recorded as `c`, moved to `pc`. -/
def QueueWorld.setPc (w : QueueWorld) (i : Nat) (c : Consumer) (pc : ConsumePc) : QueueWorld :=
  { w with consumers := w.consumers.set i { c with pc := pc } }

@[simp] theorem QueueWorld.setPc_lists (w : QueueWorld) (i : Nat) (c : Consumer) (pc : ConsumePc) :
    (w.setPc i c pc).lists = w.lists := rfl

/-- The `LREM` that settles delivery `i`, logged. -/
def QueueWorld.settle (w : QueueWorld) (i : Nat) (d : Delivery) (s : Settle) : QueueWorld × Nat :=
  let r := w.lists.lrem (.unacked d.queue) d.payload
  ({ w with lists := r.1, log := w.log ++ [(i, s, decide (r.2 = 1))] }, r.2)

/-- The next step of a `Consume` call. -/
def consumeStep (w : QueueWorld) (i : Nat) (handled : Bool) : QueueWorld :=
  match w.consumers[i]? with
  | none => w
  | some c =>
    let d := c.delivery
    match c.pc with
    | .start =>
      if !parses d.payload then w.setPc i c (.pushLPush false)
      else if !handled then w.setPc i { c with handled := some false } (.pushLPush true)
      else w.setPc i { c with handled := some true } .ack
    | .pushLPush a =>
      { w with lists := w.lists.lpush d.pushTarget d.payload }.setPc i c (.pushLRem a)
    | .pushLRem a =>
      let r := w.settle i d .push
      r.1.setPc i c (if r.2 = 0 then .done else if a then .ack else .done)
    | .ack => (w.settle i d .ack).1.setPc i c .done
    | .done => w

/-- One step of an interleaving. -/
def QueueWorld.step (w : QueueWorld) : QLabel → QueueWorld
  | .publish q p => { w with lists := w.lists.lpush (.ready q) p }
  | .fetch q pq =>
    match w.lists.rpoplpush (.ready q) (.unacked q) with
    | (_, none) => w
    | (ls, some p) => { w with lists := ls, consumers := w.consumers ++ [⟨⟨p, q, pq⟩, .start, none⟩] }
  | .consume i handled => consumeStep parses w i handled

/-- The world after an interleaving. -/
def QueueWorld.run (w : QueueWorld) (ls : List QLabel) : QueueWorld := ls.foldl (QueueWorld.step parses) w

/-- Empty lists, no delivery. -/
def QueueWorld.empty : QueueWorld := ⟨fun _ => [], [], []⟩

/-- Two identical payloads published to a flow's primary queue, both fetched by its handle
(linked to the first retry queue), then four steps of the first delivery's `Consume`, whose
`handleRequest` fails. -/
def duplicateRun : List QLabel :=
  [.publish (lit "goflow-internal-request:f") (lit "pause"),
    .publish (lit "goflow-internal-request:f") (lit "pause"),
    .fetch (lit "goflow-internal-request:f") (some (lit "goflow-internal-request:f-push-0")),
    .fetch (lit "goflow-internal-request:f") (some (lit "goflow-internal-request:f-push-0")),
    .consume 0 false, .consume 0 false, .consume 0 false, .consume 0 false]

/-- **`Consume` settles a failed delivery twice.** Two deliveries of the same payload (two
`PAUSE` tasks of one request, say) are in flight on a flow's primary queue. The handler fails
on the first: its `Push` removes one entry from `unacked`, and the `Ack` it falls through to
removes the other, while the second delivery has not even started its `Consume`. -/
theorem consume_double_settle :
    (QueueWorld.empty.run (fun _ => true) duplicateRun).lists
        (.unacked (lit "goflow-internal-request:f")) = [] ∧
      (QueueWorld.empty.run (fun _ => true) duplicateRun).consumers.map (·.pc) = [.done, .start] ∧
      (QueueWorld.empty.run (fun _ => true) duplicateRun).log = [(0, .push, true), (0, .ack, true)] := by
  decide

end Goflow
