import Goflow.Runtime.Registry
import Goflow.Fmt

/-!
# Registration and worker mode

`Register`, `EnterWorkerMode` and `ExitWorkerMode` change the registered flows, the
`workerMode` flag and the rmq connection. In worker mode every flow gets a primary queue
`goflow-internal-request:<flow>` and a chain of `RetryQueueCount` retry queues
`…-push-<i>`; `initializeTaskQueues` opens and links them, starts a prefetcher on each,
and adds `Concurrency` consumers to the primary queue and one to each retry queue. It stops
at the first failing rmq call and keeps what it did before it. `ExitWorkerMode` stops every
handle of the connection.

* `idle_outside_worker_mode`: over every sequence of calls, whatever they return, no queue
  is consumed while `workerMode` is false.
* `reregister_duplicates_consumers`: `Register` in worker mode initialises the queues of
  every registered flow again, so the flows registered before get a second prefetcher and
  a second set of consumers.
* `failed_call_effects`: what a failing `Register` or `EnterWorkerMode` leaves behind, by
  the source of the error.

The runtime is one whose `Init` succeeded: with a nil connection the three calls panic.
-/

namespace Goflow

/-- `internalRequestQueueId(flowName)`: `fmt.Sprintf("%s:%s", InternalRequestQueueInitial, …)`. -/
def internalRequestQueueId (flowName : Bytes) : Bytes := lit "goflow-internal-request:" ++ flowName

/-- The retry queue `idx` of a primary queue: `fmt.Sprintf("%s-push-%d", baseQId, idx)`. -/
def pushQueueId (baseQId : Bytes) (idx : Nat) : Bytes := baseQId ++ lit "-push-" ++ itoa idx

/-- `taskQueues`: each flow's primary handle; `none` is the nil map. -/
abbrev TaskQueues := Option (List (Bytes × Nat))

/-- `taskQueues[flowName] = q`. -/
def TaskQueues.set (tq : TaskQueues) (flowName : Bytes) (q : Nat) : TaskQueues :=
  some ((tq.getD []).filter (fun e => e.1 ≠ flowName) ++ [(flowName, q)])

variable (env : Faults)

/-- The loop opening the retry queues: `OpenQueue` of queue `idx`, then
`prevQ.SetPushQueue`; the handles opened. -/
def openPushQueues (baseQId : Bytes) : Conn → Nat → List Nat → Conn × Except Bytes (List Nat)
  | c, _, [] => (c, .ok [])
  | c, prevQ, idx :: idxs =>
    match c.openQueue env (pushQueueId baseQId idx) with
    | (c, .error e) => (c, .error (lit "failed to open push queue, error " ++ e))
    | (c, .ok q) =>
      match openPushQueues baseQId (c.setPushQueue prevQ q) q idxs with
      | (c, .error e) => (c, .error e)
      | (c, .ok qs) => (c, .ok (q :: qs))

/-- A loop of `StartConsuming` over handles, up to the first error. -/
def startEach : Conn → List Nat → Conn × Option Bytes
  | c, [] => (c, none)
  | c, q :: qs =>
    match c.startConsuming env q with
    | (c, some e) => (c, some (lit "failed to start consumer pushQ1, error " ++ e))
    | (c, none) => startEach c qs

/-- A loop of `AddConsumer` over handles, up to the first error. -/
def addEach : Conn → List Nat → Conn × Option Bytes
  | c, [] => (c, none)
  | c, q :: qs =>
    match c.addConsumer env q with
    | (c, some e) => (c, some (lit "failed to add consumer, error " ++ e))
    | (c, none) => addEach c qs

/-- The body of `initializeTaskQueues`' `ForEach` for one flow: `none` when it returns `true`. -/
def initializeFlow (retryQueueCount concurrency : Nat) (c : Conn) (tq : TaskQueues)
    (flowName : Bytes) : Conn × TaskQueues × Option Bytes :=
  let baseQId := internalRequestQueueId flowName
  match c.openQueue env baseQId with
  | (c, .error e) => (c, tq, some (lit "failed to open queue, error " ++ e))
  | (c, .ok taskQueue) =>
    match openPushQueues env baseQId c taskQueue (List.range retryQueueCount) with
    | (c, .error e) => (c, tq, some e)
    | (c, .ok pushQueues) =>
      match c.startConsuming env taskQueue with
      | (c, some e) => (c, tq, some (lit "failed to start consumer taskQueue, error " ++ e))
      | (c, none) =>
        let tq := tq.set flowName taskQueue
        match startEach env c pushQueues with
        | (c, some e) => (c, tq, some e)
        | (c, none) =>
          match addEach env c (List.replicate concurrency taskQueue) with
          | (c, some e) => (c, tq, some e)
          | (c, none) =>
            match addEach env c pushQueues with
            | (c, some e) => (c, tq, some e)
            | (c, none) => (c, tq, none)

/-- `Flows.ForEach` over the flow names, up to the first flow whose body fails. -/
def initializeEach (retryQueueCount concurrency : Nat) :
    Conn → TaskQueues → List Bytes → Conn × TaskQueues × Option Bytes
  | c, tq, [] => (c, tq, none)
  | c, tq, f :: fs =>
    match initializeFlow env retryQueueCount concurrency c tq f with
    | (c, tq, some e) => (c, tq, some e)
    | (c, tq, none) => initializeEach retryQueueCount concurrency c tq fs

/-- `initializeTaskQueues(conn, flows)`: allocates `taskQueues` if nil, then initialises
each flow's queues. -/
def initializeTaskQueues (retryQueueCount concurrency : Nat) (c : Conn) (tq : TaskQueues)
    (flowNames : List Bytes) : Conn × TaskQueues × Option Bytes :=
  initializeEach env retryQueueCount concurrency c (some (tq.getD [])) flowNames

/-- The fields of `FlowRuntime` that registration and worker mode use: `Flows`,
`workerMode`, the rmq connection, `taskQueues`, `Concurrency` and `RetryQueueCount`. The
runtime is one whose `Init` returned `nil`, so `rmqConnection` is set: with a nil
`rmqConnection`, `reflect.ValueOf(fRuntime.rmqConnection)` is the zero `Value` and the
`IsNil()` that `Register`, `EnterWorkerMode` and `ExitWorkerMode` begin with panics, before
anything changes. -/
structure FlowRuntime (H : Type) where
  flows : FlowMap H
  workerMode : Bool
  conn : Conn
  taskQueues : TaskQueues
  concurrency : Nat
  retryQueueCount : Nat

variable {H : Type}

/-- `fmt`'s `%v` of a `[]string`. -/
def fmtNames (names : List Bytes) : Bytes := lit "[" ++ List.intercalate [32] names ++ lit "]"

namespace FlowRuntime

/-- `initializeTaskQueues(&rmqConnection, Flows)` on the runtime. -/
def initQueues (rt : FlowRuntime H) : FlowRuntime H × Option Bytes :=
  match initializeTaskQueues env rt.retryQueueCount rt.concurrency rt.conn rt.taskQueues
      rt.flows.names with
  | (c, tq, err) => ({ rt with conn := c, taskQueues := tq }, err)

/-- `Register(flows)` past its nil check. Its `initializeTaskQueues` error goes through
`fmt.Sprintf` and then through `fmt.Errorf` as the format. -/
def register (rt : FlowRuntime H) (flows : FlowMap H) : FlowRuntime H × Option Bytes :=
  if flows.entries.isEmpty then (rt, none)
  else
    match flows.names.find? rt.flows.contains with
    | some name => (rt, some (lit "flow " ++ name ++ lit " already registered"))
    | none =>
      let rt := { rt with flows := rt.flows.setAll flows }
      if rt.workerMode then
        match initQueues env rt with
        | (rt, some e) => (rt, some (doPrintf (lit "failed to initialize task queues for flows " ++
            fmtNames flows.names ++ lit ", error " ++ e)))
        | (rt, none) => (rt, none)
      else (rt, none)

/-- `EnterWorkerMode()` past its nil check; `fmt.Errorf` reads its message as the format. -/
def enterWorkerMode (rt : FlowRuntime H) : FlowRuntime H × Option Bytes :=
  if rt.workerMode then (rt, none)
  else
    match initQueues env { rt with workerMode := true } with
    | (rt, some e) => (rt, some (doPrintf (lit "failed to enter worker mode, error: " ++ e)))
    | (rt, none) => (rt, none)

/-- `cleanTaskQueues()` with the connection set: `StopAllConsuming`, waited for, and an empty
`taskQueues`. -/
def cleanTaskQueues (rt : FlowRuntime H) : FlowRuntime H :=
  { rt with conn := rt.conn.stopAllConsuming, taskQueues := some [] }

/-- `ExitWorkerMode()` past its nil check. -/
def exitWorkerMode (rt : FlowRuntime H) : FlowRuntime H × Option Bytes :=
  if !rt.workerMode then (rt, none)
  else ({ rt with workerMode := false }.cleanTaskQueues, none)

end FlowRuntime

/-- A call on the runtime. -/
inductive Call (H : Type) where
  | register (flows : FlowMap H)
  | enterWorkerMode
  | exitWorkerMode

namespace FlowRuntime

/-- The runtime after a call, and what the call returned. -/
def call (rt : FlowRuntime H) : Call H → FlowRuntime H × Option Bytes
  | .register flows => register env rt flows
  | .enterWorkerMode => enterWorkerMode env rt
  | .exitWorkerMode => exitWorkerMode rt

/-- The runtime after a sequence of calls, and what each call returned. -/
def runCalls : FlowRuntime H → List (Call H) → FlowRuntime H × List (Option Bytes)
  | rt, [] => (rt, [])
  | rt, c :: cs =>
    let (rt', r) := call env rt c
    let (rt'', rs) := runCalls rt' cs
    (rt'', r :: rs)

/-- A runtime after an `Init()` that returned `nil`: no flow registered, not in worker mode. -/
def init (concurrency retryQueueCount : Nat) : FlowRuntime H :=
  ⟨FlowMap.empty, false, ⟨[], 0⟩, none, concurrency, retryQueueCount⟩

end FlowRuntime

/-- What `Init` meets outside the runtime: the errors of the state store's and of the data
store's `Ping` (`GetRedisStateStore`, `GetRedisDataStore`) and of rmq's
`OpenConnectionWithRedisClient`. -/
structure InitEnv where
  stateStorePing : Option Bytes
  dataStorePing : Option Bytes
  openConnection : Option Bytes

namespace FlowRuntime

/-- The error `Init()` returns, with `dataStoreSet` whether `DataStore` was set before: the
state store, the data store unless set (its error also reads `StateStore`), then the rmq
connection. Every error leaves `rmqConnection` nil; after `nil` the runtime is `init`. -/
def initRuntime (env : InitEnv) (dataStoreSet : Bool) : Option Bytes :=
  match env.stateStorePing with
  | some e => some (lit "failed to initialize the StateStore, " ++ e)
  | none =>
    match if dataStoreSet then none else env.dataStorePing with
    | some e => some (lit "failed to initialize the StateStore, " ++ e)
    | none => env.openConnection.map (lit "failed to initiate rmq connection, error " ++ ·)

@[simp] theorem initQueues_flows (rt : FlowRuntime H) : (initQueues env rt).1.flows = rt.flows := rfl

@[simp] theorem initQueues_workerMode (rt : FlowRuntime H) :
    (initQueues env rt).1.workerMode = rt.workerMode := rfl

@[simp] theorem initQueues_concurrency (rt : FlowRuntime H) :
    (initQueues env rt).1.concurrency = rt.concurrency := rfl

@[simp] theorem initQueues_retryQueueCount (rt : FlowRuntime H) :
    (initQueues env rt).1.retryQueueCount = rt.retryQueueCount := rfl

theorem initQueues_conn (rt : FlowRuntime H) :
    (initQueues env rt).1.conn =
      (initializeTaskQueues env rt.retryQueueCount rt.concurrency rt.conn rt.taskQueues rt.flows.names).1 :=
  rfl

theorem initQueues_snd (rt : FlowRuntime H) :
    (initQueues env rt).2 =
      (initializeTaskQueues env rt.retryQueueCount rt.concurrency rt.conn rt.taskQueues rt.flows.names).2.2 :=
  rfl

/-- A `Register` naming a registered flow reports one such name and changes nothing. -/
theorem register_of_registered {rt : FlowRuntime H} {flows : FlowMap H}
    (h : ∃ n ∈ flows.names, rt.flows.contains n = true) :
    ∃ n ∈ flows.names, rt.flows.contains n = true ∧
      register env rt flows = (rt, some (lit "flow " ++ n ++ lit " already registered")) := by
  obtain ⟨n, hn, hc⟩ := h
  have hne : flows.entries.isEmpty = false := by
    cases hfe : flows.entries with
    | nil => simp [FlowMap.names, hfe] at hn
    | cons _ _ => rfl
  cases hf : flows.names.find? rt.flows.contains with
  | none => exact absurd hc (List.find?_eq_none.1 hf n hn)
  | some m => exact ⟨m, List.mem_of_find?_eq_some hf, List.find?_some hf, by simp [register, hne, hf]⟩

/-- A `Register` naming no registered flow sets all its flows, and in worker mode (with a
flow to set) initialises the queues of every registered flow, failing with their error. -/
theorem register_of_unregistered {rt : FlowRuntime H} {flows : FlowMap H}
    (h : ∀ n ∈ flows.names, rt.flows.contains n = false) :
    register env rt flows =
      if rt.workerMode = true ∧ flows.entries.isEmpty = false then
        ((initQueues env { rt with flows := rt.flows.setAll flows }).1,
          (initQueues env { rt with flows := rt.flows.setAll flows }).2.map fun e =>
            doPrintf (lit "failed to initialize task queues for flows " ++ fmtNames flows.names ++
              lit ", error " ++ e))
      else ({ rt with flows := rt.flows.setAll flows }, none) := by
  have hf : flows.names.find? rt.flows.contains = none :=
    List.find?_eq_none.2 fun n hn => by simp [h n hn]
  unfold register
  rcases hfe : flows.entries with _ | ⟨e, es⟩
  · simp [FlowMap.setAll, hfe]
  · cases hw : rt.workerMode <;>
      simp only [hfe, List.isEmpty_cons, hf, hw, ne_eq, reduceCtorEq, not_false_eq_true, and_true,
        Bool.false_eq_true, if_true, if_false]
    split <;> rename_i heq <;> rw [heq] <;> rfl

/-- `EnterWorkerMode` from outside worker mode initialises the queues of every registered
flow with `workerMode` set, failing with their error. -/
theorem enterWorkerMode_eq (rt : FlowRuntime H) :
    enterWorkerMode env rt =
      if rt.workerMode = true then (rt, none)
      else ((initQueues env { rt with workerMode := true }).1,
        (initQueues env { rt with workerMode := true }).2.map fun e =>
          doPrintf (lit "failed to enter worker mode, error: " ++ e)) := by
  unfold enterWorkerMode
  split
  · rfl
  · split <;> rename_i heq <;> rw [heq] <;> rfl

/-- No call changes `Concurrency` or `RetryQueueCount`. -/
theorem call_config (rt : FlowRuntime H) (c : Call H) :
    (call env rt c).1.concurrency = rt.concurrency ∧
      (call env rt c).1.retryQueueCount = rt.retryQueueCount := by
  cases c with
  | register flows =>
    by_cases hr : ∃ n ∈ flows.names, rt.flows.contains n = true
    · obtain ⟨n, -, -, he⟩ := register_of_registered env hr
      simp only [call, he, and_self]
    · rw [call, register_of_unregistered env (by simpa using hr)]
      split <;> simp
  | enterWorkerMode => rw [call, enterWorkerMode_eq]; split <;> simp
  | exitWorkerMode => simp only [call, exitWorkerMode]; split <;> simp [cleanTaskQueues]

theorem runCalls_config (rt : FlowRuntime H) : ∀ cs : List (Call H),
    (runCalls env rt cs).1.concurrency = rt.concurrency ∧
      (runCalls env rt cs).1.retryQueueCount = rt.retryQueueCount
  | [] => ⟨rfl, rfl⟩
  | c :: cs => by
    obtain ⟨h1, h2⟩ := runCalls_config (call env rt c).1 cs
    obtain ⟨h3, h4⟩ := call_config env rt c
    exact ⟨h1.trans h3, h2.trans h4⟩

/-- No handle of the connection consumes. -/
def Idle (rt : FlowRuntime H) : Prop := ∀ h ∈ rt.conn.queues, h.consuming = false ∧ h.consumers = 0

/-- Outside worker mode no handle consumes. -/
def IdleInv (rt : FlowRuntime H) : Prop := rt.workerMode = false → rt.Idle

theorem call_idleInv {rt : FlowRuntime H} (h : rt.IdleInv) : ∀ c : Call H, (call env rt c).1.IdleInv
  | .register flows => by
    by_cases hr : ∃ n ∈ flows.names, rt.flows.contains n = true
    · obtain ⟨n, -, -, he⟩ := register_of_registered env hr
      simpa only [call, he] using h
    · rw [call, register_of_unregistered env (by simpa using hr)]
      split
      · rename_i hw
        intro hf
        simp [hw.1] at hf
      · exact h
  | .enterWorkerMode => by
    rw [call, enterWorkerMode_eq]
    split
    · exact h
    · intro hf; simp at hf
  | .exitWorkerMode => by
    simp only [call, exitWorkerMode]
    split
    · exact h
    intro _ q hq
    simp only [cleanTaskQueues, Conn.stopAllConsuming, List.mem_map] at hq
    obtain ⟨a, -, rfl⟩ := hq
    exact ⟨rfl, rfl⟩

/-- **Nothing is consumed outside worker mode.** From a runtime where nothing is consumed
outside worker mode, after every sequence of calls (whatever each returns) no queue is
consumed while `workerMode` is false. -/
theorem idle_outside_worker_mode {rt : FlowRuntime H} (h : rt.IdleInv) :
    ∀ cs : List (Call H), (runCalls env rt cs).1.IdleInv
  | [] => h
  | c :: cs => idle_outside_worker_mode (call_idleInv env h c) cs

theorem idle_outside_worker_mode_from_init :
    (runCalls (fun _ => none) (init 2 1 : FlowRuntime Unit)
      [.register (FlowMap.single (lit "a") ()), .enterWorkerMode, .exitWorkerMode]).1.Idle :=
  idle_outside_worker_mode _ (fun _ _ h => by simp [init] at h) _ (by decide)

/-- Register `a`, enter worker mode, register `b`. -/
def reregistration : List (Call Unit) :=
  [.register (FlowMap.single (lit "a") ()), .enterWorkerMode, .register (FlowMap.single (lit "b") ())]

/-- **`Register` in worker mode doubles the consumers of the flows already registered.**
With `Concurrency` 2 and one retry queue, registering `a`, entering worker mode and
registering `b` all succeed, yet `a`'s primary queue then has two prefetchers and four
consumers, and its retry queue two prefetchers and two consumers. -/
theorem reregister_duplicates_consumers :
    (runCalls (fun _ => none) (init 2 1) reregistration).2 = [none, none, none] ∧
      (runCalls (fun _ => none) (init 2 1) reregistration).1.workerMode = true ∧
      (runCalls (fun _ => none) (init 2 1) reregistration).1.conn.prefetchers
        (internalRequestQueueId (lit "a")) = 2 ∧
      (runCalls (fun _ => none) (init 2 1) reregistration).1.conn.consumerCount
        (internalRequestQueueId (lit "a")) = 4 ∧
      (runCalls (fun _ => none) (init 2 1) reregistration).1.conn.prefetchers
        (pushQueueId (internalRequestQueueId (lit "a")) 0) = 2 ∧
      (runCalls (fun _ => none) (init 2 1) reregistration).1.conn.consumerCount
        (pushQueueId (internalRequestQueueId (lit "a")) 0) = 2 := by
  decide

/-- **What a failing call leaves, by the source of its error.** A `Register` naming a
registered flow fails with such a name and changes nothing. A `Register` naming none sets
every flow it was given and keeps `workerMode`, and fails exactly when, in worker mode and
with a flow to set, `initializeTaskQueues` fails, which does not undo the flows set. An
`EnterWorkerMode` keeps `Flows` and leaves `workerMode` true, and fails exactly when
`workerMode` was false and `initializeTaskQueues` fails. -/
theorem failed_call_effects (rt : FlowRuntime H) (flows : FlowMap H) :
    ((∃ n ∈ flows.names, rt.flows.contains n = true) →
      ∃ n ∈ flows.names, rt.flows.contains n = true ∧
        register env rt flows = (rt, some (lit "flow " ++ n ++ lit " already registered"))) ∧
    ((∀ n ∈ flows.names, rt.flows.contains n = false) →
      (register env rt flows).1.flows = rt.flows.setAll flows ∧
        (register env rt flows).1.workerMode = rt.workerMode ∧
        ((register env rt flows).2.isSome ↔ rt.workerMode = true ∧ flows.entries.isEmpty = false ∧
          (initQueues env { rt with flows := rt.flows.setAll flows }).2.isSome)) ∧
    ((enterWorkerMode env rt).1.flows = rt.flows ∧ (enterWorkerMode env rt).1.workerMode = true ∧
      ((enterWorkerMode env rt).2.isSome ↔ rt.workerMode = false ∧
        (initQueues env { rt with workerMode := true }).2.isSome)) := by
  refine ⟨register_of_registered env, fun h => ?_, ?_⟩
  · rw [register_of_unregistered env h]
    split
    · rename_i hw
      simp [hw.1, hw.2]
    · rename_i hw
      exact ⟨rfl, rfl, by simpa only [Option.isSome_none, Bool.false_eq_true, false_iff, not_and]
        using fun h1 h2 _ => hw ⟨h1, h2⟩⟩
  · rw [enterWorkerMode_eq]
    cases hw : rt.workerMode <;> simp [hw]

/-- The runtime after `Init` and a `Register` of flow `a`. -/
def withFlowA : FlowRuntime Unit := (register (fun _ => none) (init 1 0) (FlowMap.single (lit "a") ())).1

theorem failed_call_effects_registered :
    ∃ n ∈ (FlowMap.single (lit "a") ()).names, withFlowA.flows.contains n = true ∧
      register (fun _ => none) withFlowA (FlowMap.single (lit "a") ()) =
        (withFlowA, some (lit "flow " ++ n ++ lit " already registered")) :=
  (failed_call_effects (fun _ => none) withFlowA _).1 ⟨lit "a", by decide, by decide⟩

/-- A failure in `initializeTaskQueues` is not undone: when every rmq call fails, a
`Register` in worker mode returns an error with its flow registered, and an
`EnterWorkerMode` with a flow registered returns an error with `workerMode` set. -/
theorem failed_init_keeps_effects :
    (register (fun _ => some (lit "redis down")) { init 1 0 with workerMode := true }
        (FlowMap.single (lit "a") ())).2.isSome ∧
      (register (fun _ => some (lit "redis down")) { init 1 0 with workerMode := true }
        (FlowMap.single (lit "a") ())).1.flows.contains (lit "a") = true ∧
      ({ init 1 0 with workerMode := true } : FlowRuntime Unit).flows.contains (lit "a") = false ∧
      (enterWorkerMode (fun _ => some (lit "redis down")) withFlowA).2.isSome ∧
      withFlowA.workerMode = false ∧
      (enterWorkerMode (fun _ => some (lit "redis down")) withFlowA).1.workerMode = true := by
  decide

end FlowRuntime

end Goflow
