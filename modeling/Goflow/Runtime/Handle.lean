import Goflow.Fmt
import Goflow.Runtime.Task

/-!
# Handling a request

`Consume` hands each task to `handleRequest`, which calls the handler of its request type.
A handler builds an executor for the request's flow (`CreateExecutor`: the flow's handler in
`Flows`, then the executor's `Init`) and runs a controller with it on a fresh response:
`PauseFlowHandler`, `ResumeFlowHandler` and `StopFlowHandler` call the flow executor's
`Pause`, `Resume` and `Stop` on the request id, and `ExecuteFlowHandler` and
`PartialExecuteFlowHandler` run the flow. The executor and those last two controllers are
defined outside the repository: `ExecutorEnv` is what they answer for a flow's handler.

The handlers wrap each error in a text of their own. The pause, resume and stop handlers
print the request id and the cause through `%s` and `%v`; the new and partial handlers
concatenate them into the format of `fmt.Errorf`, so that a `%` in the request id, the flow
name or the cause is read as a verb (`doPrintf`).

* `handleOperationRequest_error`: an error of the pause, resume and stop handlers names
  the request and its cause.
* `handleExecuteRequest_error`: an error of the new and partial handlers is their text read
  as a format.
* `published_request_acked`: a request published by `Execute`, `Pause`, `Resume` or `Stop`
  is handled without error by the consumer exactly when the flow is registered there, its
  executor initialises, and the operation succeeds.
-/

namespace Goflow

/-- `runtime.Response`, as the handlers and controllers fill it. -/
structure Response where
  requestID : Bytes
  header : Values
  body : Bytes
  deriving DecidableEq

/-- The executor package, outside the repository, for the executor built on a flow's handler:
the error of its `Init` for a request; the errors of the flow executor's `Pause`, `Resume`
and `Stop` of a request id, and what its `GetState` returns; and the errors of the
controllers `ExecuteFlowHandler` and `PartialExecuteFlowHandler`. -/
structure ExecutorEnv (H : Type) where
  init : H → Request → Option Bytes
  pause : H → Bytes → Option Bytes
  resume : H → Bytes → Option Bytes
  stop : H → Bytes → Option Bytes
  getState : H → Bytes → Except Bytes Bytes
  executeFlowHandler : H → Response → Request → Option Bytes
  partialExecuteFlowHandler : H → Response → Request → Option Bytes

variable {H : Type}

/-! ## Controllers -/

/-- The controllers that run one operation of the flow executor on the request id: on its
error, `fmt.Errorf("<failed> %s, check if request is active", RequestID)` and the response
as it was; otherwise the body `<done> + RequestID`. -/
def flowOperationHandler (failed done : Bytes) (op : Bytes → Option Bytes) (response : Response)
    (request : Request) : Response × Option Bytes :=
  match op request.requestID with
  | some _ => (response, some (failed ++ request.requestID ++ lit ", check if request is active"))
  | none => ({ response with body := done ++ request.requestID }, none)

/-- `PauseFlowHandler`. -/
def pauseFlowHandler : (Bytes → Option Bytes) → Response → Request → Response × Option Bytes :=
  flowOperationHandler (lit "failed to pause request ") (lit "Successfully paused request ")

/-- `StopFlowHandler`. -/
def stopFlowHandler : (Bytes → Option Bytes) → Response → Request → Response × Option Bytes :=
  flowOperationHandler (lit "failed to stop request ") (lit "Successfully stopped request ")

/-- `ResumeFlowHandler`. -/
def resumeFlowHandler : (Bytes → Option Bytes) → Response → Request → Response × Option Bytes :=
  flowOperationHandler (lit "failed to resume request ") (lit "Successfully resumed request ")

/-- `FlowStateHandler`: the request's state as the body. -/
def flowStateHandler (getState : Bytes → Except Bytes Bytes) (response : Response)
    (request : Request) : Response × Option Bytes :=
  match getState request.requestID with
  | .error _ => (response, some (lit "failed to get request state for " ++ request.requestID ++
      lit ", check if request is active"))
  | .ok state => ({ response with body := state }, none)

/-- A controller that fails leaves the response as it was and names the request; one that
succeeds sets the body alone. -/
theorem flowOperationHandler_spec (failed done : Bytes) (op : Bytes → Option Bytes)
    (response : Response) (request : Request) :
    flowOperationHandler failed done op response request =
      if (op request.requestID).isSome then
        (response, some (failed ++ request.requestID ++ lit ", check if request is active"))
      else ({ response with body := done ++ request.requestID }, none) := by
  unfold flowOperationHandler
  split <;> rename_i h <;> simp [h]

/-! ## Handlers -/

namespace FlowRuntime

/-- `CreateExecutor(req)`: the flow's handler, on which the executor is built, or the error:
no handler under the flow's name, or the executor's `Init`. -/
def createExecutor (rt : FlowRuntime H) (ex : ExecutorEnv H) (req : Request) : Except Bytes H :=
  match rt.flows.get req.flowName with
  | none => .error (lit "could not find handler for flow " ++ req.flowName)
  | some h =>
    match ex.init h req with
    | some e => .error e
    | none => .ok h

/-- `handlePauseRequest`, `handleResumeRequest` and `handleStopRequest`: the executor, then
the controller on a response holding the request id; either error becomes
`fmt.Errorf("request %s failed to be <verb>. error: %v", RequestID, err.Error())`. -/
def handleOperationRequest (verb : Bytes)
    (controller : ExecutorEnv H → H → Response → Request → Response × Option Bytes)
    (rt : FlowRuntime H) (ex : ExecutorEnv H) (request : Request) : Option Bytes :=
  match rt.createExecutor ex request with
  | .error e => some (lit "request " ++ request.requestID ++ lit " failed to be " ++ verb ++
      lit ". error: " ++ e)
  | .ok h =>
    match (controller ex h ⟨request.requestID, none, []⟩ request).2 with
    | some e => some (lit "request " ++ request.requestID ++ lit " failed to be " ++ verb ++
        lit ". error: " ++ e)
    | none => none

/-- `handlePauseRequest`. -/
def handlePauseRequest : FlowRuntime H → ExecutorEnv H → Request → Option Bytes :=
  handleOperationRequest (lit "paused") fun ex h => pauseFlowHandler (ex.pause h)

/-- `handleResumeRequest`. -/
def handleResumeRequest : FlowRuntime H → ExecutorEnv H → Request → Option Bytes :=
  handleOperationRequest (lit "resumed") fun ex h => resumeFlowHandler (ex.resume h)

/-- `handleStopRequest`. -/
def handleStopRequest : FlowRuntime H → ExecutorEnv H → Request → Option Bytes :=
  handleOperationRequest (lit "stopped") fun ex h => stopFlowHandler (ex.stop h)

/-- `handleNewRequest` and `handlePartialRequest`: the executor, then the controller on a
response holding the request id and an empty header; either error is concatenated to the
handler's text and the whole passed to `fmt.Errorf` as its format. -/
def handleExecuteRequest (failedExecute failedProcess : Bytes)
    (controller : ExecutorEnv H → H → Response → Request → Option Bytes)
    (rt : FlowRuntime H) (ex : ExecutorEnv H) (request : Request) : Option Bytes :=
  match rt.createExecutor ex request with
  | .error e => some (doPrintf (failedExecute ++ request.requestID ++ lit ", error: " ++ e))
  | .ok h =>
    match controller ex h ⟨request.requestID, some GoMap.empty, []⟩ request with
    | some e => some (doPrintf (failedProcess ++ e))
    | none => none

/-- `handleNewRequest`. -/
def handleNewRequest : FlowRuntime H → ExecutorEnv H → Request → Option Bytes :=
  handleExecuteRequest (lit "failed to execute request ")
    (lit "request failed to be processed. error: ") ExecutorEnv.executeFlowHandler

/-- `handlePartialRequest`. -/
def handlePartialRequest : FlowRuntime H → ExecutorEnv H → Request → Option Bytes :=
  handleExecuteRequest (lit "[goflow] failed to execute request ")
    (lit "[goflow] request failed to be processed. error: ") ExecutorEnv.partialExecuteFlowHandler

/-- The handler `handleRequest` calls, run on the request. -/
def runHandler (rt : FlowRuntime H) (ex : ExecutorEnv H) (request : Request) : Handler → Option Bytes
  | .handlePartialRequest => rt.handlePartialRequest ex request
  | .handleNewRequest => rt.handleNewRequest ex request
  | .handlePauseRequest => rt.handlePauseRequest ex request
  | .handleResumeRequest => rt.handleResumeRequest ex request
  | .handleStopRequest => rt.handleStopRequest ex request

/-- `handleRequest(request, requestType)`: the error of the handler of the request type, or
`fmt.Errorf("invalid request %v received with type %s", request, requestType)`, where
`printed` is how `%v` prints the request (its type is defined outside the repository). -/
def handleRequestErr (printed : Request → Bytes) (rt : FlowRuntime H) (ex : ExecutorEnv H)
    (request : Request) (requestType : Bytes) : Option Bytes :=
  match handleRequest requestType with
  | none => some (lit "invalid request " ++ printed request ++ lit " received with type " ++ requestType)
  | some handler => rt.runHandler ex request handler

/-- What `Consume` learns from a payload before it settles it: `none` when `Unmarshal`
fails (the delivery is pushed), otherwise the error of `handleRequest` on the task (pushed,
then acked, when there is one; acked when it is `nil`). -/
def consumeResult (printed : Request → Bytes) (rt : FlowRuntime H) (ex : ExecutorEnv H)
    (payload : Bytes) : Option (Option Bytes) :=
  (unmarshalTask payload).map fun task =>
    rt.handleRequestErr printed ex (makeRequestFromTask task) task.requestType

end FlowRuntime

/-- The operation a handler ends in, once its executor is built on the flow's handler `h`:
`Pause`, `Resume` or `Stop` of the request id, or the execute controllers. -/
def Handler.operation (ex : ExecutorEnv H) (h : H) (request : Request) : Handler → Option Bytes
  | .handlePartialRequest => ex.partialExecuteFlowHandler h ⟨request.requestID, some GoMap.empty, []⟩ request
  | .handleNewRequest => ex.executeFlowHandler h ⟨request.requestID, some GoMap.empty, []⟩ request
  | .handlePauseRequest => ex.pause h request.requestID
  | .handleResumeRequest => ex.resume h request.requestID
  | .handleStopRequest => ex.stop h request.requestID

/-! ## What the handlers return -/

theorem flowOperationHandler_snd_eq_none {failed done : Bytes} {op : Bytes → Option Bytes}
    {response : Response} {request : Request} :
    (flowOperationHandler failed done op response request).2 = none ↔ op request.requestID = none := by
  unfold flowOperationHandler
  split <;> simp_all

namespace FlowRuntime

variable {rt : FlowRuntime H} {ex : ExecutorEnv H} {request : Request}

theorem createExecutor_eq_ok {h : H} :
    rt.createExecutor ex request = .ok h ↔
      rt.flows.get request.flowName = some h ∧ ex.init h request = none := by
  constructor
  · intro hc
    unfold createExecutor at hc
    split at hc
    · cases hc
    · rename_i h' hg
      split at hc
      · cases hc
      · rename_i hi
        cases hc
        exact ⟨hg, hi⟩
  · rintro ⟨hg, hi⟩
    simp only [createExecutor, hg, hi]

theorem createExecutor_eq_error {e : Bytes} (hc : rt.createExecutor ex request = .error e) :
    (rt.flows.get request.flowName = none ∧ e = lit "could not find handler for flow " ++ request.flowName) ∨
      ∃ h, rt.flows.get request.flowName = some h ∧ ex.init h request = some e := by
  unfold createExecutor at hc
  split at hc
  · rename_i hg
    cases hc
    exact .inl ⟨hg, rfl⟩
  · rename_i h hg
    split at hc
    · rename_i e' hi
      cases hc
      exact .inr ⟨h, hg, hi⟩
    · cases hc

theorem handleOperationRequest_eq_none (verb : Bytes)
    (controller : ExecutorEnv H → H → Response → Request → Response × Option Bytes) :
    handleOperationRequest verb controller rt ex request = none ↔
      ∃ h, rt.createExecutor ex request = .ok h ∧
        (controller ex h ⟨request.requestID, none, []⟩ request).2 = none := by
  unfold handleOperationRequest
  split
  · rename_i e he
    simp [he]
  · rename_i h he
    split <;> rename_i hc <;> simp [he, hc]

theorem handleExecuteRequest_eq_none (failedExecute failedProcess : Bytes)
    (controller : ExecutorEnv H → H → Response → Request → Option Bytes) :
    handleExecuteRequest failedExecute failedProcess controller rt ex request = none ↔
      ∃ h, rt.createExecutor ex request = .ok h ∧
        controller ex h ⟨request.requestID, some GoMap.empty, []⟩ request = none := by
  unfold handleExecuteRequest
  split
  · rename_i e he
    simp [he]
  · rename_i h he
    split <;> rename_i hc <;> simp [he, hc]

/-- A handler returns `nil` exactly when the flow has a handler, the executor's `Init`
succeeds, and so does the operation the handler ends in. -/
theorem runHandler_eq_none (handler : Handler) :
    rt.runHandler ex request handler = none ↔
      ∃ h, rt.flows.get request.flowName = some h ∧ ex.init h request = none ∧
        handler.operation ex h request = none := by
  cases handler <;>
    simp only [runHandler, handlePartialRequest, handleNewRequest, handlePauseRequest,
      handleResumeRequest, handleStopRequest, handleOperationRequest_eq_none,
      handleExecuteRequest_eq_none, createExecutor_eq_ok, pauseFlowHandler, resumeFlowHandler,
      stopFlowHandler, flowOperationHandler_snd_eq_none, Handler.operation, and_assoc]

theorem handleRequestErr_of_handler {printed : Request → Bytes} {requestType : Bytes}
    {handler : Handler} (hd : handleRequest requestType = some handler) :
    rt.handleRequestErr printed ex request requestType = rt.runHandler ex request handler := by
  simp only [handleRequestErr, hd]

/-- **Every error of the pause, resume and stop handlers names the request and its cause**:
`request <id> failed to be <verb>. error: ` followed by the missing handler of the flow, the
executor's `Init` error, or the controller's text naming the request again. -/
theorem handleOperationRequest_error {verb failed done : Bytes}
    {op : ExecutorEnv H → H → Bytes → Option Bytes} {e : Bytes}
    (he : handleOperationRequest verb (fun ex h => flowOperationHandler failed done (op ex h)) rt ex
      request = some e) :
    ∃ cause, e = lit "request " ++ request.requestID ++ lit " failed to be " ++ verb ++
        lit ". error: " ++ cause ∧
      ((rt.flows.get request.flowName = none ∧
          cause = lit "could not find handler for flow " ++ request.flowName) ∨
        ∃ h, rt.flows.get request.flowName = some h ∧
          (ex.init h request = some cause ∨
            (ex.init h request = none ∧ (op ex h request.requestID).isSome ∧
              cause = failed ++ request.requestID ++ lit ", check if request is active"))) := by
  unfold handleOperationRequest at he
  split at he
  · rename_i cause hc
    cases he
    refine ⟨cause, rfl, ?_⟩
    rcases createExecutor_eq_error hc with hg | ⟨h, hg, hi⟩
    · exact .inl hg
    · exact .inr ⟨h, hg, .inl hi⟩
  · rename_i h hc
    obtain ⟨hg, hi⟩ := createExecutor_eq_ok.1 hc
    dsimp only at he
    rw [flowOperationHandler_spec] at he
    by_cases hs : (op ex h request.requestID).isSome
    · simp only [if_pos hs, Option.some.injEq] at he
      exact ⟨_, he.symm, .inr ⟨h, hg, .inr ⟨hi, hs, rfl⟩⟩⟩
    · simp [hs] at he

/-- Every error of the new and partial handlers is `fmt`'s reading, as a format, of the
handler's text followed by the request id and the executor's error, or by the controller's
error. -/
theorem handleExecuteRequest_error {failedExecute failedProcess : Bytes}
    {controller : ExecutorEnv H → H → Response → Request → Option Bytes} {e : Bytes}
    (he : handleExecuteRequest failedExecute failedProcess controller rt ex request = some e) :
    ∃ cause,
      (e = doPrintf (failedExecute ++ request.requestID ++ lit ", error: " ++ cause) ∧
        rt.createExecutor ex request = .error cause) ∨
      (e = doPrintf (failedProcess ++ cause) ∧ ∃ h, rt.createExecutor ex request = .ok h ∧
        controller ex h ⟨request.requestID, some GoMap.empty, []⟩ request = some cause) := by
  unfold handleExecuteRequest at he
  split at he
  · rename_i cause hc
    cases he
    exact ⟨cause, .inl ⟨rfl, hc⟩⟩
  · rename_i h hc
    split at he
    · rename_i cause hk
      cases he
      exact ⟨cause, .inr ⟨rfl, h, hc, hk⟩⟩
    · cases he

end FlowRuntime

/-- A request of flow `f` whose id holds `%d`. -/
def percentRequest : Request := ⟨lit "f", lit "r%d", [], none, [], none⟩

/-- An executor whose every call succeeds. -/
def okExecutor : ExecutorEnv Unit :=
  ⟨fun _ _ => none, fun _ _ => none, fun _ _ => none, fun _ _ => none, fun _ _ => .ok [],
    fun _ _ _ => none, fun _ _ _ => none⟩

/-! ## From a publisher to the handler -/

namespace FlowRuntime

variable {printed : Request → Bytes} {rt : FlowRuntime H} {ex : ExecutorEnv H}

/-- `Consume` of a task a publisher marshalled runs `handleRequest` on the request itself,
under the flow name, when its strings are valid UTF-8. -/
theorem consumeResult_taskOf {requestType F : Bytes} {r : Request} (ht : validUTF8 requestType = true)
    (hF : validUTF8 F = true) (hr : r.validStrings = true) :
    rt.consumeResult printed ex (marshalTask (taskOf requestType F r)) =
      some (rt.handleRequestErr printed ex { r with flowName := F } requestType) := by
  simp only [Request.validStrings, Bool.and_eq_true] at hr
  obtain ⟨⟨⟨⟨hid, hbody⟩, hh⟩, hraw⟩, hq⟩ := hr
  rw [consumeResult, unmarshalTask_marshalTask _ hh hq]
  simp only [taskOf, replaceInvalid_of_valid hF, replaceInvalid_of_valid hid,
    replaceInvalid_of_valid hbody, replaceInvalid_of_valid hraw, replaceInvalid_of_valid ht]
  rfl

/-- What a publisher's successful call leads to at the consumer of `queue`: the payload it
pushed is handled without error exactly when `ok` holds. -/
def AckedWhen (ls ls' : Lists) (queue : Bytes) (consumer : FlowRuntime H) (ex : ExecutorEnv H)
    (printed : Request → Bytes) (ok : Prop) : Prop :=
  ∃ p, ls' = ls.lpush (.ready queue) p ∧ (consumer.consumeResult printed ex p = some none ↔ ok)

theorem publishRequest_ackedWhen {env : PublishEnv} {requestType F : Bytes} {r : Request}
    {ls ls' : Lists} {handler : Handler} (ht : validUTF8 requestType = true)
    (hd : handleRequest requestType = some handler) (hF : validUTF8 F = true)
    (hr : r.validStrings = true) (h : publishRequest env requestType F r ls = (ls', none)) :
    AckedWhen ls ls' (internalRequestQueueId F) rt ex printed
      (∃ fh, rt.flows.get F = some fh ∧ ex.init fh { r with flowName := F } = none ∧
        handler.operation ex fh { r with flowName := F } = none) := by
  refine ⟨_, publishRequest_ok h, ?_⟩
  rw [consumeResult_taskOf ht hF hr, Option.some_inj, handleRequestErr_of_handler hd, runHandler_eq_none]

/-- **A published request is acked exactly when the consumer can run it.** When the
request's strings and the flow name `F` are valid UTF-8, a successful `Execute`, `Pause`,
`Resume` or `Stop` pushes onto `F`'s primary queue a payload that the consuming runtime
handles without error (so `Consume` acks it without pushing it on) exactly when `F` has a
handler in its `Flows`, the executor's `Init` accepts the request, and the flow executor
runs the flow, or pauses, resumes or stops the request id. -/
theorem published_request_acked (printed : Request → Bytes) (rt : FlowRuntime H) (ex : ExecutorEnv H)
    (env : PublishEnv) (F : Bytes) (r : Request) (ls ls' : Lists) (hF : validUTF8 F = true)
    (hr : r.validStrings = true) :
    (execute env F r ls = (ls', none) →
      AckedWhen ls ls' (internalRequestQueueId F) rt ex printed
        (∃ h, rt.flows.get F = some h ∧ ex.init h { r with flowName := F } = none ∧
          ex.executeFlowHandler h ⟨r.requestID, some GoMap.empty, []⟩ { r with flowName := F } = none)) ∧
    (pause env F r ls = (ls', none) →
      AckedWhen ls ls' (internalRequestQueueId F) rt ex printed
        (∃ h, rt.flows.get F = some h ∧ ex.init h { r with flowName := F } = none ∧
          ex.pause h r.requestID = none)) ∧
    (resume env F r ls = (ls', none) →
      AckedWhen ls ls' (internalRequestQueueId F) rt ex printed
        (∃ h, rt.flows.get F = some h ∧ ex.init h { r with flowName := F } = none ∧
          ex.resume h r.requestID = none)) ∧
    (stop env F r ls = (ls', none) →
      AckedWhen ls ls' (internalRequestQueueId F) rt ex printed
        (∃ h, rt.flows.get F = some h ∧ ex.init h { r with flowName := F } = none ∧
          ex.stop h r.requestID = none)) := by
  have ascii : ∀ s : Bytes, (∀ b ∈ s, b.toNat < 0x80) → validUTF8 s = true :=
    fun _ h => validUTF8_of_ascii h
  exact ⟨publishRequest_ackedWhen (ascii _ (by decide))
      (show handleRequest newRequest = some .handleNewRequest by decide) hF hr,
    publishRequest_ackedWhen (ascii _ (by decide))
      (show handleRequest pauseRequest = some .handlePauseRequest by decide) hF hr,
    publishRequest_ackedWhen (ascii _ (by decide))
      (show handleRequest resumeRequest = some .handleResumeRequest by decide) hF hr,
    publishRequest_ackedWhen (ascii _ (by decide))
      (show handleRequest stopRequest = some .handleStopRequest by decide) hF hr⟩

theorem published_request_acked_withFlowA :
    validUTF8 (lit "a") = true ∧ percentRequest.validStrings = true ∧
      AckedWhen (fun _ => []) (execute ⟨none, none, none⟩ (lit "a") percentRequest (fun _ => [])).1
        (internalRequestQueueId (lit "a")) withFlowA okExecutor (fun _ => [])
        (∃ h, withFlowA.flows.get (lit "a") = some h ∧
          okExecutor.init h { percentRequest with flowName := lit "a" } = none ∧
          okExecutor.executeFlowHandler h ⟨percentRequest.requestID, some GoMap.empty, []⟩
            { percentRequest with flowName := lit "a" } = none) := by
  have hF : validUTF8 (lit "a") = true := validUTF8_of_ascii (by decide)
  have hr : percentRequest.validStrings = true := by
    simp only [Request.validStrings, percentRequest, validValues, Bool.and_true,
      validUTF8_of_ascii (by decide : ∀ b ∈ lit "r%d", b.toNat < 0x80),
      validUTF8_of_ascii (by decide : ∀ b ∈ ([] : Bytes), b.toNat < 0x80)]
  exact ⟨hF, hr, (published_request_acked (fun _ => []) withFlowA okExecutor ⟨none, none, none⟩ (lit "a")
    percentRequest (fun _ => []) _ hF hr).1 rfl⟩

end FlowRuntime

end Goflow
