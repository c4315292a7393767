import Goflow.Json.RoundTrip
import Goflow.Queue.Consume
import Goflow.Runtime.Worker

/-!
# Requests through the internal request queue

`Execute`, `Pause`, `Stop` and `Resume` marshal the request into a `Task` tagged with their
request type and publish it on the flow's primary queue; `EnqueuePartialRequest` does the
same with `PARTIAL` on the handle `taskQueues` holds for the request's flow. `Consume`
unmarshals the payload, rebuilds the request (`makeRequestFromTask`) and dispatches on the
request type (`handleRequest`).

`Marshal` and `Unmarshal` go over the fields of `Task` by reflection; the model lists them
with their `json` tags (`TaskField`). `Unmarshal` into a zero `Task` is transcribed for the
types the fields have: an object sets the field each key names (matched exactly, else up to
case folding; unknown keys are skipped), a `string` takes a JSON string and keeps its value on `null`, a
`map[string][]string` is set to nil by `null` and otherwise filled member by member, starting
from the map already there. Any other JSON type is an `UnmarshalTypeError`, which `Unmarshal`
returns after decoding the rest, so that `Consume` sees a parse failure.

* `unmarshalTask_marshalTask`: a task comes back with its string fields coerced to UTF-8
  when the strings of its maps are valid UTF-8.
* `published_request_dispatch`: what each publisher pushes is rebuilt by `Consume` as the
  request it was given, under the flow name it was called with, and dispatched to the
  handler of its request type, when the request's strings are valid UTF-8.
-/

namespace Goflow

/-- A `map[string][]string` (`http.Header`, `url.Values`): `none` is the nil map, and a `none`
value the nil slice. -/
abbrev Values := Option (GoMap (Option (List Bytes)))

/-- The fields of `runtime.Request` that travel through the queue. -/
structure Request where
  flowName : Bytes
  requestID : Bytes
  body : Bytes
  header : Values
  rawQuery : Bytes
  query : Values
  deriving DecidableEq

/-- `Task`, the payload of the internal request queue. -/
structure Task where
  flowName : Bytes
  requestID : Bytes
  body : Bytes
  header : Values
  rawQuery : Bytes
  query : Values
  requestType : Bytes
  deriving DecidableEq

/-- The zero `Task` `Consume` decodes into. -/
def Task.zero : Task := ⟨[], [], [], none, [], none, []⟩

/-- `PartialRequest`. -/
def partialRequest : Bytes := lit "PARTIAL"

/-- `NewRequest`. -/
def newRequest : Bytes := lit "NEW"

/-- `PauseRequest`. -/
def pauseRequest : Bytes := lit "PAUSE"

/-- `ResumeRequest`. -/
def resumeRequest : Bytes := lit "RESUME"

/-- `StopRequest`. -/
def stopRequest : Bytes := lit "STOP"

/-! ## `Task` as JSON -/

/-- The fields of `Task`, in declaration order. -/
inductive TaskField where
  | flowName | requestID | body | header | rawQuery | query | requestType
  deriving DecidableEq, Repr

/-- The `json` tag of a field. -/
def TaskField.tag : TaskField → Bytes
  | .flowName => lit "flow_name"
  | .requestID => lit "request_id"
  | .body => lit "body"
  | .header => lit "header"
  | .rawQuery => lit "raw_query"
  | .query => lit "query"
  | .requestType => lit "request_type"

/-- The fields in the order `Marshal` writes them. -/
def TaskField.all : List TaskField :=
  [.flowName, .requestID, .body, .header, .rawQuery, .query, .requestType]

/-- An ASCII letter in upper case. -/
def asciiUpper (b : UInt8) : UInt8 := if 97 ≤ b ∧ b ≤ 122 then b - 32 else b

/-- `foldName` of `encoding/json` on valid UTF-8, as far as it decides a match with an ASCII
tag: ASCII letters in upper case, and the two other runes whose fold set holds an ASCII
letter, `ſ` (U+017F) and the Kelvin sign (U+212A), as `S` and `K`. Every other rune stays
non-ASCII and so matches no tag. -/
def foldName : Bytes → Bytes
  | b :: c :: d :: s =>
    if b = 0xE2 ∧ c = 0x84 ∧ d = 0xAA then 0x4B :: foldName s
    else if b = 0xC5 ∧ c = 0xBF then 0x53 :: foldName (d :: s)
    else asciiUpper b :: foldName (c :: d :: s)
  | [b, c] => if b = 0xC5 ∧ c = 0xBF then [0x53] else [asciiUpper b, asciiUpper c]
  | [b] => [asciiUpper b]
  | [] => []

/-- The field a key names, if any: the field whose tag is the key, else one whose tag equals
it up to case folding. -/
def fieldOf (key : Bytes) : Option TaskField :=
  (TaskField.all.find? fun f => f.tag = key).or (TaskField.all.find? fun f => foldName f.tag = foldName key)

/-- The JSON of one field of a task. -/
def Task.fieldValue (t : Task) : TaskField → JValue
  | .flowName => .string t.flowName
  | .requestID => .string t.requestID
  | .body => .string t.body
  | .header => valuesValue t.header
  | .rawQuery => .string t.rawQuery
  | .query => valuesValue t.query
  | .requestType => .string t.requestType

/-- The JSON `Marshal` writes for a task: an object of its fields under their tags. -/
def Task.toValue (t : Task) : JValue := .object (TaskField.all.map fun f => (f.tag, t.fieldValue f))

/-- `json.Marshal(&Task{…})`. -/
def marshalTask (t : Task) : Bytes := encodeValue t.toValue

/-- Every string of a `map[string][]string` is valid UTF-8. -/
def validValues : Values → Bool
  | none => true
  | some m => m.entries.all fun e => validUTF8 e.1 && (e.2.getD []).all validUTF8

/-- The strings of a request that travel as they are only if they are valid UTF-8. -/
def Request.validStrings (r : Request) : Bool :=
  validUTF8 r.requestID && validUTF8 r.body && validValues r.header && validUTF8 r.rawQuery &&
    validValues r.query

/-- Decoding into a `string` holding `cur`. -/
def decodeString (cur : Bytes) : JValue → Option Bytes
  | .string s => some s
  | .null => some cur
  | _ => none

/-- Decoding into a fresh `[]string`: `null` is nil; an array gives its strings, a `null`
element staying `""`. -/
def decodeStrings : JValue → Option (Option (List Bytes))
  | .null => some none
  | .array vs => (vs.mapM (decodeString [])).map some
  | _ => none

/-- Decoding into a `map[string][]string` holding `cur`: `null` sets it to nil, an object
sets its members into the map, made if nil. -/
def decodeValues (cur : Values) : JValue → Option Values
  | .null => some none
  | .object kvs =>
    (kvs.foldlM (fun m kv => (decodeStrings kv.2).map (m.insert kv.1)) (cur.getD .empty)).map some
  | _ => none

/-- Decoding a member's value into the field its key names. -/
def Task.setField (t : Task) : TaskField → JValue → Option Task
  | .flowName, v => (decodeString t.flowName v).map fun s => { t with flowName := s }
  | .requestID, v => (decodeString t.requestID v).map fun s => { t with requestID := s }
  | .body, v => (decodeString t.body v).map fun s => { t with body := s }
  | .header, v => (decodeValues t.header v).map fun h => { t with header := h }
  | .rawQuery, v => (decodeString t.rawQuery v).map fun s => { t with rawQuery := s }
  | .query, v => (decodeValues t.query v).map fun h => { t with query := h }
  | .requestType, v => (decodeString t.requestType v).map fun s => { t with requestType := s }

/-- Decoding one member of the object; a key naming no field is skipped. -/
def Task.setMember (t : Task) (kv : Bytes × JValue) : Option Task :=
  match fieldOf kv.1 with
  | some f => t.setField f kv.2
  | none => some t

/-- Decoding a JSON value into a zero `Task`: `null` leaves it zero. -/
def decodeTask : JValue → Option Task
  | .null => some Task.zero
  | .object kvs => kvs.foldlM Task.setMember Task.zero
  | _ => none

/-- `json.Unmarshal(payload, &task)` into a zero `Task`: `none` when it returns an error. -/
def unmarshalTask (payload : Bytes) : Option Task := (parseJson payload).bind decodeTask

/-! ## Publishing and consuming -/

/-- `makeRequestFromTask`. -/
def makeRequestFromTask (task : Task) : Request :=
  ⟨task.flowName, task.requestID, task.body, task.header, task.rawQuery, task.query⟩

/-- The handlers `handleRequest` dispatches to. -/
inductive Handler where
  | handlePartialRequest | handleNewRequest | handlePauseRequest | handleResumeRequest
  | handleStopRequest
  deriving DecidableEq, Repr

/-- `handleRequest`'s switch: the handler of the request type, `none` for its `invalid request`
error. -/
def handleRequest (requestType : Bytes) : Option Handler :=
  if requestType = partialRequest then some .handlePartialRequest
  else if requestType = newRequest then some .handleNewRequest
  else if requestType = pauseRequest then some .handlePauseRequest
  else if requestType = resumeRequest then some .handleResumeRequest
  else if requestType = stopRequest then some .handleStopRequest
  else none

/-- What `Consume` makes of a payload before settling it: the request it rebuilds and the
handler it dispatches to, or `none` when `Unmarshal` fails. -/
def consumeView (payload : Bytes) : Option (Request × Option Handler) :=
  (unmarshalTask payload).map fun task => (makeRequestFromTask task, handleRequest task.requestType)

/-- The `Task` a publisher marshals: the request's fields under the flow name it was called
with, and its request type. -/
def taskOf (requestType flowName : Bytes) (request : Request) : Task :=
  ⟨flowName, request.requestID, request.body, request.header, request.rawQuery, request.query,
    requestType⟩

/-- The environment's answers to a publisher's calls: opening the connection, `OpenQueue`
and `PublishBytes`; `none` lets a call succeed. -/
structure PublishEnv where
  connect : Option Bytes
  openQueue : Option Bytes
  publish : Option Bytes

/-- The body shared by `Execute`, `Pause`, `Stop` and `Resume`: connect, open the flow's
primary queue, and `LPUSH` the marshalled task onto its `ready` list. -/
def publishRequest (env : PublishEnv) (requestType flowName : Bytes) (request : Request)
    (ls : Lists) : Lists × Option Bytes :=
  match env.connect, env.openQueue, env.publish with
  | some e, _, _ => (ls, some (lit "failed to initiate connection, error " ++ e))
  | none, some e, _ => (ls, some (lit "failed to get queue, error " ++ e))
  | none, none, some e => (ls, some (lit "failed to publish task, error " ++ e))
  | none, none, none =>
    (ls.lpush (.ready (internalRequestQueueId flowName))
      (marshalTask (taskOf requestType flowName request)), none)

/-- `Execute(flowName, request)`. -/
def execute (env : PublishEnv) : Bytes → Request → Lists → Lists × Option Bytes :=
  publishRequest env newRequest

/-- `Pause(flowName, request)`. -/
def pause (env : PublishEnv) : Bytes → Request → Lists → Lists × Option Bytes :=
  publishRequest env pauseRequest

/-- `Stop(flowName, request)`. -/
def stop (env : PublishEnv) : Bytes → Request → Lists → Lists × Option Bytes :=
  publishRequest env stopRequest

/-- `Resume(flowName, request)`. -/
def resume (env : PublishEnv) : Bytes → Request → Lists → Lists × Option Bytes :=
  publishRequest env resumeRequest

/-- `EnqueuePartialRequest(pr)`: `PublishBytes` on the handle `taskQueues[pr.FlowName]`, whose
answer is `publish`. `none` when there is no such handle: the call on a nil queue panics. -/
def enqueuePartialRequest (publish : Option Bytes) (c : Conn) (tq : TaskQueues) (pr : Request)
    (ls : Lists) : Option (Lists × Option Bytes) :=
  ((tq.getD []).lookup pr.flowName).map fun q =>
    match publish with
    | some e => (ls, some (lit "failed to publish task, error " ++ e))
    | none =>
      (ls.lpush (.ready (c.queues.getD q ⟨[], none, false, 0⟩).name)
        (marshalTask (taskOf partialRequest pr.flowName pr)), none)

/-! ## Round trip -/

theorem TaskField.tag_valid (f : TaskField) : validUTF8 f.tag = true := by
  cases f <;> exact validUTF8_of_ascii (by decide)

theorem fieldOf_tag (f : TaskField) : fieldOf f.tag = some f := by
  cases f <;> rfl

theorem numberFree_stringsValue (l : Option (List Bytes)) : (stringsValue l).numberFree = true := by
  cases l with
  | none => rfl
  | some xs =>
    show JValue.numberFreeList (xs.map JValue.string) = true
    induction xs with
    | nil => rfl
    | cons x xs ih => exact ih

theorem numberFree_valuesValue (x : Values) : (valuesValue x).numberFree = true := by
  cases x with
  | none => rfl
  | some m =>
    show JValue.numberFreeFields (m.entries.map fun e => (e.1, stringsValue e.2)) = true
    induction m.entries with
    | nil => rfl
    | cons e es ih =>
      simp only [List.map_cons, JValue.numberFreeFields, numberFree_stringsValue, ih, Bool.and_self]

theorem Task.numberFree_toValue (t : Task) : t.toValue.numberFree = true := by
  simp only [Task.toValue, TaskField.all, List.map_cons, List.map_nil, JValue.numberFree,
    JValue.numberFreeFields, Task.fieldValue, numberFree_valuesValue, Bool.and_true]

theorem coerce_stringsValue {l : Option (List Bytes)} (h : ∀ x ∈ l.getD [], validUTF8 x = true) :
    (stringsValue l).coerce = stringsValue l := by
  cases l with
  | none => rfl
  | some xs =>
    show JValue.array (JValue.coerceList (xs.map JValue.string)) = _
    congr 1
    induction xs with
    | nil => rfl
    | cons x xs ih =>
      simp only [List.map_cons, JValue.coerceList, JValue.coerce,
        replaceInvalid_of_valid (h x (List.mem_cons_self _ _)),
        ih fun y hy => h y (List.mem_cons_of_mem _ hy)]

theorem coerce_valuesValue {x : Values} (h : validValues x = true) :
    (valuesValue x).coerce = valuesValue x := by
  cases x with
  | none => rfl
  | some m =>
    show JValue.object (JValue.coerceFields (m.entries.map fun e => (e.1, stringsValue e.2))) = _
    simp only [validValues, List.all_eq_true, Bool.and_eq_true] at h
    congr 1
    generalize m.entries = es at h ⊢
    induction es with
    | nil => rfl
    | cons e es ih =>
      simp only [List.mem_cons, forall_eq_or_imp] at h
      simp only [List.map_cons, JValue.coerceFields, replaceInvalid_of_valid h.1.1,
        coerce_stringsValue h.1.2, ih h.2]

theorem decodeStrings_stringsValue (l : Option (List Bytes)) : decodeStrings (stringsValue l) = some l := by
  cases l with
  | none => rfl
  | some xs =>
    show ((xs.map JValue.string).mapM (decodeString [])).map some = _
    suffices h : (xs.map JValue.string).mapM (decodeString []) = some xs by rw [h]; rfl
    induction xs with
    | nil => rfl
    | cons x xs ih =>
      rw [List.map_cons, List.mapM_cons, ih]
      rfl

theorem foldlM_decodeStrings (es : List (Bytes × Option (List Bytes))) (m : GoMap (Option (List Bytes))) :
    (es.map fun e => (e.1, stringsValue e.2)).foldlM
        (fun m kv => (decodeStrings kv.2).map (m.insert kv.1)) m =
      some (es.foldl (fun m e => m.insert e.1 e.2) m) := by
  induction es generalizing m with
  | nil => rfl
  | cons e es ih =>
    rw [List.map_cons, List.foldlM_cons, decodeStrings_stringsValue]
    exact ih _

theorem decodeValues_valuesValue (x : Values) : decodeValues none (valuesValue x) = some x := by
  cases x with
  | none => rfl
  | some m =>
    show (Option.map some (List.foldlM _ GoMap.empty _)) = _
    rw [foldlM_decodeStrings,
      (GoMap.ext' (GoMap.foldl_insert m.entries GoMap.empty m.sorted) : _ = m)]
    rfl

theorem decodeTask_toValue (t : Task) : decodeTask t.toValue = some t := by
  simp only [decodeTask, Task.toValue, TaskField.all, List.map_cons, List.map_nil, List.foldlM_cons,
    List.foldlM_nil, Task.setMember, fieldOf_tag, Task.setField, Task.fieldValue, decodeString,
    Task.zero, decodeValues_valuesValue, Option.map_some', Option.bind_eq_bind, Option.some_bind]
  rfl

theorem Task.toValue_coerce {t : Task} (hh : validValues t.header = true)
    (hq : validValues t.query = true) :
    t.toValue.coerce =
      { t with
        flowName := replaceInvalid t.flowName, requestID := replaceInvalid t.requestID,
        body := replaceInvalid t.body, rawQuery := replaceInvalid t.rawQuery,
        requestType := replaceInvalid t.requestType }.toValue := by
  simp only [Task.toValue, TaskField.all, List.map_cons, List.map_nil, JValue.coerce,
    JValue.coerceFields, replaceInvalid_of_valid (TaskField.tag_valid _), Task.fieldValue,
    coerce_valuesValue hh, coerce_valuesValue hq]

/-- **A task comes back with its strings coerced to UTF-8**: what `Unmarshal` reads from the
payload `Marshal` wrote is the task with each invalid byte of its string fields replaced by
U+FFFD, when the strings of its header and query are valid UTF-8. -/
theorem unmarshalTask_marshalTask (t : Task) (hh : validValues t.header = true)
    (hq : validValues t.query = true) :
    unmarshalTask (marshalTask t) =
      some { t with
        flowName := replaceInvalid t.flowName, requestID := replaceInvalid t.requestID,
        body := replaceInvalid t.body, rawQuery := replaceInvalid t.rawQuery,
        requestType := replaceInvalid t.requestType } := by
  rw [unmarshalTask, marshalTask, parseJson_encodeValue t.numberFree_toValue,
    Task.toValue_coerce hh hq, Option.some_bind, decodeTask_toValue]

theorem consumeView_taskOf {requestType F : Bytes} {r : Request} (ht : validUTF8 requestType = true)
    (hF : validUTF8 F = true) (hr : r.validStrings = true) :
    consumeView (marshalTask (taskOf requestType F r)) =
      some ({ r with flowName := F }, handleRequest requestType) := by
  simp only [Request.validStrings, Bool.and_eq_true] at hr
  obtain ⟨⟨⟨⟨hid, hbody⟩, hh⟩, hraw⟩, hq⟩ := hr
  rw [consumeView, unmarshalTask_marshalTask _ hh hq]
  simp only [taskOf, replaceInvalid_of_valid hF, replaceInvalid_of_valid hid,
    replaceInvalid_of_valid hbody, replaceInvalid_of_valid hraw, replaceInvalid_of_valid ht]
  rfl

/-! ## Publishers -/

theorem publishRequest_ok {env : PublishEnv} {requestType F : Bytes} {r : Request} {ls ls' : Lists}
    (h : publishRequest env requestType F r ls = (ls', none)) :
    ls' = ls.lpush (.ready (internalRequestQueueId F)) (marshalTask (taskOf requestType F r)) := by
  unfold publishRequest at h
  split at h <;> cases h
  rfl

theorem enqueuePartialRequest_ok {publish : Option Bytes} {c : Conn} {tq : TaskQueues} {r : Request}
    {ls ls' : Lists} (h : enqueuePartialRequest publish c tq r ls = some (ls', none)) :
    ∃ q, ls' = ls.lpush (.ready q) (marshalTask (taskOf partialRequest r.flowName r)) := by
  unfold enqueuePartialRequest at h
  obtain ⟨q, -, hq⟩ := Option.map_eq_some'.1 h
  split at hq
  · cases hq
  · cases hq
    exact ⟨_, rfl⟩

/-- A successful publish pushed onto the `ready` list of `queue` a payload that `Consume`
rebuilds as `request` and hands to `handler`. -/
def Delivers (ls ls' : Lists) (queue : Bytes) (request : Request) (handler : Handler) : Prop :=
  ∃ p, ls' = ls.lpush (.ready queue) p ∧ consumeView p = some (request, some handler)

theorem publishRequest_delivers {env : PublishEnv} {requestType F : Bytes} {r : Request}
    {ls ls' : Lists} {handler : Handler} (ht : validUTF8 requestType = true)
    (hd : handleRequest requestType = some handler) (hF : validUTF8 F = true)
    (hr : r.validStrings = true) (h : publishRequest env requestType F r ls = (ls', none)) :
    Delivers ls ls' (internalRequestQueueId F) { r with flowName := F } handler :=
  ⟨_, publishRequest_ok h, hd ▸ consumeView_taskOf ht hF hr⟩

/-- A request whose body is the byte `FF`, which starts no UTF-8 encoding. -/
def binaryRequest : Request := ⟨lit "f", lit "r1", [0xFF], none, [], none⟩

/-- **Binary strings are changed, not refused**: whatever bytes the flow name, request id,
body and raw query hold, the payload a successful publisher pushes is decoded without error
and dispatched to the handler of its request type; `Consume` sees each of those strings with
its invalid bytes replaced by U+FFFD. Only the header and query need valid UTF-8. -/
theorem published_request_coerced {env : PublishEnv} {requestType F : Bytes} {r : Request}
    {ls ls' : Lists} (hh : validValues r.header = true) (hq : validValues r.query = true)
    (h : publishRequest env requestType F r ls = (ls', none)) :
    ∃ p, ls' = ls.lpush (.ready (internalRequestQueueId F)) p ∧
      consumeView p =
        some ({ r with
          flowName := replaceInvalid F, requestID := replaceInvalid r.requestID,
          body := replaceInvalid r.body, rawQuery := replaceInvalid r.rawQuery },
          handleRequest (replaceInvalid requestType)) := by
  refine ⟨_, publishRequest_ok h, ?_⟩
  rw [consumeView, unmarshalTask_marshalTask _ hh hq]
  rfl

theorem published_request_coerced_binary :
    validValues binaryRequest.header = true ∧ validValues binaryRequest.query = true ∧
      ∃ p, (execute ⟨none, none, none⟩ (lit "f") binaryRequest (fun _ => [])).1 =
          Lists.lpush (fun _ => []) (.ready (internalRequestQueueId (lit "f"))) p ∧
        consumeView p =
          some ({ binaryRequest with
            flowName := replaceInvalid (lit "f"), requestID := replaceInvalid binaryRequest.requestID,
            body := replaceInvalid binaryRequest.body, rawQuery := replaceInvalid binaryRequest.rawQuery },
            handleRequest (replaceInvalid newRequest)) :=
  ⟨rfl, rfl, published_request_coerced rfl rfl (Prod.ext rfl rfl)⟩

/-- **Each publisher's payload reaches the handler of its request type**: when the request's
strings and the flow name are valid UTF-8, a successful `Execute`, `Pause`, `Resume` or
`Stop` with flow name `F` pushes onto the flow's primary queue a payload that `Consume`
rebuilds as the request under the flow name `F` and dispatches to `handleNewRequest`,
`handlePauseRequest`, `handleResumeRequest` or `handleStopRequest`; a successful
`EnqueuePartialRequest` of a request of flow `F` pushes one rebuilt as the request itself and
dispatched to `handlePartialRequest`. -/
theorem published_request_dispatch (env : PublishEnv) (publish : Option Bytes) (c : Conn)
    (tq : TaskQueues) (F : Bytes) (r : Request) (ls ls' : Lists) (hF : validUTF8 F = true)
    (hr : r.validStrings = true) :
    (execute env F r ls = (ls', none) →
      Delivers ls ls' (internalRequestQueueId F) { r with flowName := F } .handleNewRequest) ∧
    (pause env F r ls = (ls', none) →
      Delivers ls ls' (internalRequestQueueId F) { r with flowName := F } .handlePauseRequest) ∧
    (resume env F r ls = (ls', none) →
      Delivers ls ls' (internalRequestQueueId F) { r with flowName := F } .handleResumeRequest) ∧
    (stop env F r ls = (ls', none) →
      Delivers ls ls' (internalRequestQueueId F) { r with flowName := F } .handleStopRequest) ∧
    (r.flowName = F → enqueuePartialRequest publish c tq r ls = some (ls', none) →
      ∃ q, Delivers ls ls' q r .handlePartialRequest) := by
  have ascii : ∀ s : Bytes, (∀ b ∈ s, b.toNat < 0x80) → validUTF8 s = true :=
    fun _ h => validUTF8_of_ascii h
  refine ⟨publishRequest_delivers (ascii _ (by decide)) (by decide) hF hr,
    publishRequest_delivers (ascii _ (by decide)) (by decide) hF hr,
    publishRequest_delivers (ascii _ (by decide)) (by decide) hF hr,
    publishRequest_delivers (ascii _ (by decide)) (by decide) hF hr, fun hfn h => ?_⟩
  obtain ⟨q, hq⟩ := enqueuePartialRequest_ok h
  refine ⟨q, _, hq, ?_⟩
  rw [consumeView_taskOf (ascii _ (by decide)) (hfn ▸ hF) hr]
  rfl

/-- A request with a header, published by `Execute` on an empty Redis. -/
def sampleRequest : Request :=
  ⟨lit "f", lit "r1", lit "{}", some ⟨[(lit "Accept", some [lit "json"])], List.pairwise_singleton _ _⟩,
    lit "a=1", none⟩

theorem published_request_dispatch_sample :
    validUTF8 (lit "f") = true ∧ sampleRequest.validStrings = true ∧
      (execute ⟨none, none, none⟩ (lit "f") sampleRequest (fun _ => [])).2 = none ∧
      Delivers (fun _ => []) (execute ⟨none, none, none⟩ (lit "f") sampleRequest (fun _ => [])).1
        (internalRequestQueueId (lit "f")) { sampleRequest with flowName := lit "f" }
        .handleNewRequest := by
  have hF : validUTF8 (lit "f") = true := validUTF8_of_ascii (by decide)
  have hr : sampleRequest.validStrings = true := by
    simp only [Request.validStrings, sampleRequest, validValues, List.all_cons, List.all_nil,
      Option.getD_some, validUTF8_of_ascii (by decide : ∀ b ∈ lit "r1", b.toNat < 0x80),
      validUTF8_of_ascii (by decide : ∀ b ∈ lit "{}", b.toNat < 0x80),
      validUTF8_of_ascii (by decide : ∀ b ∈ lit "Accept", b.toNat < 0x80),
      validUTF8_of_ascii (by decide : ∀ b ∈ lit "json", b.toNat < 0x80),
      validUTF8_of_ascii (by decide : ∀ b ∈ lit "a=1", b.toNat < 0x80), Bool.and_self]
  exact ⟨hF, hr, rfl, (published_request_dispatch ⟨none, none, none⟩ none ⟨[], 0⟩ none (lit "f")
    sampleRequest (fun _ => []) _ hF hr).1 rfl⟩

/-- `Execute` publishes a binary body, and `Consume` rebuilds the request with the body
`EF BF BD`, the encoding of U+FFFD. -/
theorem execute_binary_body :
    execute ⟨none, none, none⟩ (lit "f") binaryRequest (fun _ => []) =
      (Lists.lpush (fun _ => []) (.ready (internalRequestQueueId (lit "f")))
        (marshalTask (taskOf newRequest (lit "f") binaryRequest)), none) ∧
    consumeView (marshalTask (taskOf newRequest (lit "f") binaryRequest)) =
      some ({ binaryRequest with body := [0xEF, 0xBF, 0xBD] }, some .handleNewRequest) := by
  have ascii : ∀ s : Bytes, (∀ b ∈ s, b.toNat < 0x80) → replaceInvalid s = s :=
    fun _ h => replaceInvalid_of_valid (validUTF8_of_ascii h)
  have hbody : replaceInvalid [0xFF] = [0xEF, 0xBF, 0xBD] := by
    have hd : decodeRune [0xFF] = (runeError, 1) := rfl
    unfold replaceInvalid
    rw [if_pos hd, hd]
    show [0xEF, 0xBF, 0xBD] ++ replaceInvalid [] = _
    unfold replaceInvalid
    rfl
  refine ⟨rfl, ?_⟩
  rw [consumeView, unmarshalTask_marshalTask (taskOf newRequest (lit "f") binaryRequest) rfl rfl]
  simp only [taskOf, binaryRequest, hbody, ascii (lit "f") (by decide), ascii (lit "r1") (by decide),
    ascii [] (by decide), ascii newRequest (by decide)]
  rfl

end Goflow
