import Goflow.Json.Encode
import Goflow.Redis.Keyspace
import Goflow.Runtime.Worker

/-!
# Worker heartbeats

`StartRuntime` makes one `Worker` record (an id, the `Flows` list and `Concurrency`) and runs
`registerDetails` at once and then every `GoFlowRegisterInterval` seconds, while `Register`,
`EnterWorkerMode` and `ExitWorkerMode` may be called in between. A round walks the
registered flows: it appends each flow's name to `worker.Flows` and exports the flow's
definition, stopping at the first export that fails. It then writes the worker's JSON to
`goflow-worker:<id>` in worker mode, or deletes that key, and writes each exported
definition to `goflow-flow:<flow>`. The keys expire after `RDBKeyTimeOut` seconds; the model
keeps the last value written.

`worker.Flows` is never reset, so the list a round writes holds the flows of every round so
far.

* `heartbeat_flows`: over any interleaving of calls and rounds in which every export
  succeeds, `worker.Flows` is the concatenation of the flows registered at each round.
* `heartbeat_worker_key`: a round writes the worker's JSON with that list in worker mode,
  and deletes the worker's key outside it.
* `heartbeat_repeats_flows`: one flow registered, two rounds in worker mode: the worker's
  JSON lists the flow twice.
-/

namespace Goflow

/-- `Worker`: the fields `marshalWorker` writes. `flows` is a Go slice, `none` while nil. -/
structure Worker where
  id : Bytes
  flows : Option (List Bytes)
  concurrency : Nat
  deriving DecidableEq

/-- `marshalWorker`: `json.Marshal(worker)`. -/
def marshalWorker (w : Worker) : Bytes :=
  encodeValue (.object [(lit "id", .string w.id), (lit "flows", stringsValue w.flows),
    (lit "concurrency", .number (itoa w.concurrency))])

/-- The key of a worker's record: `WorkerKeyInitial:<id>`. -/
def workerKey (id : Bytes) : Bytes := lit "goflow-worker:" ++ id

/-- The key of a flow's definition: `FlowKeyInitial:<flowId>`. -/
def flowKey (flowId : Bytes) : Bytes := lit "goflow-flow:" ++ flowId

theorem flowKey_ne_workerKey (a b : Bytes) : flowKey a ≠ workerKey b := fun h => by
  have h8 := congrArg (List.take 8) h
  rw [flowKey, workerKey, List.take_append_of_le_length (by decide),
    List.take_append_of_le_length (by decide)] at h8
  exact absurd h8 (by decide)

variable {H : Type} (getFlowDefinition : H → Except Bytes Bytes)

/-- `registerDetails`' `Flows.ForEach`: `Flows` after appending each name, the exported
definitions, and the error of the first export that fails, where the walk stops. -/
def collectDetails : Option (List Bytes) → List (Bytes × H) →
    Option (List Bytes) × List (Bytes × Bytes) × Option Bytes
  | flows, [] => (flows, [], none)
  | flows, (name, h) :: rest =>
    match getFlowDefinition h with
    | .error e =>
      (some (flows.getD [] ++ [name]), [], some (lit "failed to start runtime, dag export failed, error " ++ e))
    | .ok dag =>
      match collectDetails (some (flows.getD [] ++ [name])) rest with
      | (flows, details, err) => (flows, (name, dag) :: details, err)

/-- `saveFlowDetails`: each exported definition under its flow's key. -/
def saveFlowDetails (ks : Keyspace) (details : List (Bytes × Bytes)) : Keyspace :=
  details.foldl (fun ks d => ks.set (flowKey d.1) d.2) ks

/-- `saveFlowDetails` leaves the workers' keys alone. -/
theorem saveFlowDetails_workerKey (ks : Keyspace) (details : List (Bytes × Bytes)) (id : Bytes) :
    saveFlowDetails ks details (workerKey id) = ks (workerKey id) := by
  induction details generalizing ks with
  | nil => rfl
  | cons d ds ih =>
    rw [saveFlowDetails, List.foldl_cons, ← saveFlowDetails, ih,
      Keyspace.set_other _ _ (flowKey_ne_workerKey _ _).symm]

/-- What `registerDetails` reads and writes: the runtime, the worker record and Redis. -/
structure Node (H : Type) where
  rt : FlowRuntime H
  worker : Worker
  redis : Keyspace

/-- One round of `registerDetails`, and the error it returns. `saveWorkerDetails`,
`deleteWorkerDetails` and `saveFlowDetails` drop Redis's answer and return nil. -/
def registerDetails (n : Node H) : Node H × Option Bytes :=
  match collectDetails getFlowDefinition n.worker.flows n.rt.flows.entries with
  | (flows, _, some e) => ({ n with worker := { n.worker with flows := flows } }, some e)
  | (flows, details, none) =>
    let worker := { n.worker with flows := flows }
    let redis :=
      if n.rt.workerMode then n.redis.set (workerKey worker.id) (marshalWorker worker)
      else n.redis.del (workerKey worker.id)
    ({ n with worker := worker, redis := saveFlowDetails redis details }, none)

/-- What happens to a node: a call on the runtime, or a heartbeat round. -/
inductive Event (H : Type) where
  | call (c : Call H)
  | heartbeat

variable (env : Faults)

/-- The node after an event. -/
def Node.step (n : Node H) : Event H → Node H
  | .call c => { n with rt := (n.rt.call env c).1 }
  | .heartbeat => (registerDetails getFlowDefinition n).1

/-- The node after a sequence of events. -/
def Node.run (n : Node H) (es : List (Event H)) : Node H := es.foldl (Node.step getFlowDefinition env) n

/-- The flows registered at each heartbeat round of a run, round after round. -/
def roundFlows : Node H → List (Event H) → List Bytes
  | _, [] => []
  | n, .call c :: es => roundFlows (n.step getFlowDefinition env (.call c)) es
  | n, .heartbeat :: es => n.rt.flows.names ++ roundFlows (n.step getFlowDefinition env .heartbeat) es

/-- One flow registered, worker mode entered, then two heartbeat rounds. -/
def twoRounds : List (Event Unit) :=
  [.call (.register (FlowMap.single (lit "f") ())), .call .enterWorkerMode, .heartbeat, .heartbeat]

/-- `StartRuntime` on a fresh runtime: worker `w`, nothing in Redis. -/
def freshNode : Node Unit := ⟨FlowRuntime.init 1 0, ⟨lit "w", none, 1⟩, fun _ => none⟩

/-- Every flow's definition exports. -/
def ExportsOk : Prop := ∀ h, ∃ dag, getFlowDefinition h = .ok dag

variable {getFlowDefinition}

theorem collectDetails_ok (hok : ExportsOk getFlowDefinition) : ∀ (flows : Option (List Bytes)) (es : List (Bytes × H)),
    ((collectDetails getFlowDefinition flows es).1.getD [] = flows.getD [] ++ es.map Prod.fst) ∧
      (collectDetails getFlowDefinition flows es).2.2 = none
  | flows, [] => ⟨(List.append_nil _).symm, rfl⟩
  | flows, (name, h) :: rest => by
    obtain ⟨dag, hd⟩ := hok h
    obtain ⟨ih1, ih2⟩ := collectDetails_ok hok (some (flows.getD [] ++ [name])) rest
    simp only [collectDetails, hd]
    exact ⟨by rw [ih1, Option.getD_some, List.append_assoc]; rfl, ih2⟩

/-- A round adds the flows registered at that moment to `Flows`. -/
theorem step_flows (hok : ExportsOk getFlowDefinition) (n : Node H) (e : Event H) :
    (n.step getFlowDefinition env e).worker.flows.getD [] =
      n.worker.flows.getD [] ++ (match e with | .call _ => [] | .heartbeat => n.rt.flows.names) := by
  cases e with
  | call c => exact (List.append_nil _).symm
  | heartbeat =>
    obtain ⟨h1, h2⟩ := collectDetails_ok hok n.worker.flows n.rt.flows.entries
    simp only [Node.step, registerDetails]
    split <;> simp_all [FlowMap.names]

/-- **`Flows` accumulates the flows of every round**: over any interleaving of calls and
heartbeat rounds in which every export succeeds, the worker's `Flows` is what it held
before followed by the flows registered at each round, round after round. -/
theorem heartbeat_flows (hok : ExportsOk getFlowDefinition) (n : Node H) (es : List (Event H)) :
    (n.run getFlowDefinition env es).worker.flows.getD [] =
      n.worker.flows.getD [] ++ roundFlows getFlowDefinition env n es := by
  induction es generalizing n with
  | nil => exact (List.append_nil _).symm
  | cons e es ih =>
    rw [Node.run, List.foldl_cons, ← Node.run, ih, step_flows env hok]
    cases e <;> simp [roundFlows]

theorem heartbeat_flows_twoRounds :
    ExportsOk (fun _ : Unit => .ok (lit "\x7b\x7d")) ∧
      (freshNode.run (fun _ => .ok (lit "\x7b\x7d")) (fun _ => none) twoRounds).worker.flows.getD [] =
        freshNode.worker.flows.getD [] ++
          roundFlows (fun _ => .ok (lit "\x7b\x7d")) (fun _ => none) freshNode twoRounds :=
  ⟨fun _ => ⟨_, rfl⟩, heartbeat_flows _ (fun _ => ⟨_, rfl⟩) _ _⟩

/-- A round writes the worker's JSON in worker mode and deletes the worker's key outside it. -/
theorem heartbeat_worker_key (hok : ExportsOk getFlowDefinition) (n : Node H) :
    (n.step getFlowDefinition env .heartbeat).redis (workerKey n.worker.id) =
      if n.rt.workerMode then some (marshalWorker (n.step getFlowDefinition env .heartbeat).worker)
      else none := by
  have hnone := (collectDetails_ok hok n.worker.flows n.rt.flows.entries).2
  simp only [Node.step, registerDetails]
  split
  · simp_all
  · split_ifs <;> simp [saveFlowDetails_workerKey]

theorem heartbeat_repeats_flows :
    (freshNode.run (fun _ => .ok (lit "\x7b\x7d")) (fun _ => none) twoRounds).rt.flows.names =
      [lit "f"] ∧
    (freshNode.run (fun _ => .ok (lit "\x7b\x7d")) (fun _ => none) twoRounds).redis
        (workerKey (lit "w")) =
      some (lit "\x7b\"id\":\"w\",\"flows\":[\"f\",\"f\"],\"concurrency\":1\x7d") := by
  have safe : ∀ s : Bytes, (∀ b ∈ s, b.toNat < 0x80 ∧ htmlSafe b = true) →
      appendString s = 34 :: s ++ [34] :=
    fun s h => by rw [appendString, appendStringBody_of_safe h]
  refine ⟨rfl, ?_⟩
  show some (marshalWorker ⟨lit "w", some [lit "f", lit "f"], 1⟩) = _
  simp only [marshalWorker, encodeValue, encodeFields, encodeElems, stringsValue, List.map,
    safe (lit "id") (by decide), safe (lit "w") (by decide), safe (lit "flows") (by decide),
    safe (lit "f") (by decide), safe (lit "concurrency") (by decide)]
  rfl

end Goflow
