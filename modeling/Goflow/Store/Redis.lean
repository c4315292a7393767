import Goflow.Redis.Keyspace
import Goflow.Redis.Glob

/-!
# The Redis state store and data store

A handle of either store is its key namespace, set by `Configure(flow, request)`:
`core.<flow>.<request>` for the state store, `core-<flow>-<request>` for the data
store. Every operation on `key` addresses one Redis key (`fullKey`, `getPath`), and
`Cleanup` deletes the keys that `SCAN` returns for the pattern `<namespace>.*`.

Each operation is the keyspace change it makes when no other client runs between
its commands (the interleaved `Update` is `Redis/Watch.lean`); an operation that
returns an error writes nothing.

* `RedisStateStore.write_frame`, `RedisDataStore.write_frame`: a write changes the
  key it addresses and no other.
-/

namespace Goflow

/-- A `RedisStateStore` handle: the namespace `KeyPath` (the client is the shared keyspace). -/
structure RedisStateStore where
  keyPath : Bytes
  deriving DecidableEq, Repr

namespace RedisStateStore

/-- `Configure(flowName, requestId)`: `KeyPath = fmt.Sprintf("core.%s.%s", …)`. -/
def configure (flowName requestId : Bytes) : RedisStateStore :=
  ⟨lit "core." ++ flowName ++ lit "." ++ requestId⟩

/-- The Redis key of `key`: `this.KeyPath + "." + key`. -/
def fullKey (st : RedisStateStore) (key : Bytes) : Bytes := st.keyPath ++ lit "." ++ key

/-- `CopyStore`: a handle on the same namespace. -/
def copyStore (st : RedisStateStore) : RedisStateStore := ⟨st.keyPath⟩

/-- `Set(key, value)`. -/
def set (st : RedisStateStore) (ks : Keyspace) (key value : Bytes) : Keyspace :=
  ks.set (st.fullKey key) value

/-- `Get(key)`. -/
def get (st : RedisStateStore) (ks : Keyspace) (key : Bytes) : Except Bytes Bytes :=
  match ks (st.fullKey key) with
  | some v => .ok v
  | none => .error (lit "failed to get key " ++ st.fullKey key ++ lit ", nil")

/-- `Update(key, oldValue, newValue)` run with no client in between: `GET`, compare, `SET`. -/
def update (st : RedisStateStore) (ks : Keyspace) (key oldValue newValue : Bytes) :
    Except Bytes Keyspace :=
  match ks (st.fullKey key) with
  | none => .error (lit "[" ++ st.fullKey key ++ lit "] not exist")
  | some v =>
    if v ≠ oldValue then .error (lit "Old value doesn't match for key " ++ st.fullKey key)
    else .ok (ks.set (st.fullKey key) newValue)

/-- `Incr(key, value)`: `INCRBY` on the key. -/
def incr (st : RedisStateStore) (ks : Keyspace) (key : Bytes) (value : Int) :
    Except Bytes (Keyspace × Int) :=
  incrBy ks (st.fullKey key) value

/-- The `SCAN` pattern of `Cleanup`: `this.KeyPath + ".*"`. -/
def cleanupPattern (st : RedisStateStore) : Bytes := st.keyPath ++ lit ".*"

/-- `Cleanup`: `DEL` every key the full `SCAN` iteration returns; with no other writer
these are exactly the keys that match the pattern. -/
def cleanup (st : RedisStateStore) (ks : Keyspace) : Keyspace :=
  fun k => if stringmatchlen st.cleanupPattern k then none else ks k

/-- An `Update` that succeeds read `oldValue` and wrote `newValue`. -/
theorem update_ok {st : RedisStateStore} {ks ks' : Keyspace} {key o n : Bytes}
    (h : st.update ks key o n = .ok ks') :
    ks (st.fullKey key) = some o ∧ ks' = ks.set (st.fullKey key) n := by
  unfold update at h
  split at h
  · cases h
  · split at h
    · cases h
    · cases h; simp_all

/-- The writes a state-store handle sends. -/
inductive Write where
  | set (key value : Bytes)
  | update (key oldValue newValue : Bytes)
  | incr (key : Bytes) (value : Int)
  deriving DecidableEq, Repr

/-- The key a write names. -/
def Write.key : Write → Bytes
  | .set k _ | .update k _ _ | .incr k _ => k

/-- The keyspace after a write; a write that returns an error leaves it unchanged. -/
def write (st : RedisStateStore) (ks : Keyspace) : Write → Keyspace
  | .set k v => st.set ks k v
  | .update k o n => match st.update ks k o n with
    | .ok ks' => ks'
    | .error _ => ks
  | .incr k d => match st.incr ks k d with
    | .ok (ks', _) => ks'
    | .error _ => ks

/-- **Frame.** A write changes only the key it addresses. -/
theorem write_frame (st : RedisStateStore) (ks : Keyspace) (w : Write) {k : Bytes}
    (hk : k ≠ st.fullKey w.key) : st.write ks w k = ks k := by
  cases w with
  | set key v => exact Keyspace.set_other _ _ hk
  | update key o n =>
    cases hu : st.update ks key o n with
    | error => simp [write, hu]
    | ok ks' => simp only [write, hu, (update_ok hu).2]; exact Keyspace.set_other _ _ hk
  | incr key d =>
    cases hi : st.incr ks key d with
    | error => simp [write, hi]
    | ok r => simp only [write, hi]; exact incrBy_other hi hk

end RedisStateStore

/-- A `RedisDataStore` handle: its bucket and whether its client is set. -/
structure RedisDataStore where
  bucketName : Bytes
  hasClient : Bool
  deriving DecidableEq, Repr

/-- `getPath(bucket, key)`: `bucket + "." + key + ".value"`. -/
def getPath (bucket key : Bytes) : Bytes := bucket ++ lit "." ++ (key ++ lit ".value")

namespace RedisDataStore

/-- The error of every operation on a handle without client. -/
def noClient : Bytes := lit "redis client not initialized, use GetRedisDataStore()"

/-- `Configure(flowName, requestId)`: `bucketName = fmt.Sprintf("core-%s-%s", …)`. -/
def configure (ds : RedisDataStore) (flowName requestId : Bytes) : RedisDataStore :=
  { ds with bucketName := lit "core-" ++ flowName ++ lit "-" ++ requestId }

/-- `CopyStore`. -/
def copyStore (ds : RedisDataStore) : RedisDataStore := ds

/-- `Set(key, value)`. -/
def set (ds : RedisDataStore) (ks : Keyspace) (key value : Bytes) : Except Bytes Keyspace :=
  if ds.hasClient then .ok (ks.set (getPath ds.bucketName key) value) else .error noClient

/-- `Get(key)`; go-redis reports a missing key as `redis: nil`. -/
def get (ds : RedisDataStore) (ks : Keyspace) (key : Bytes) : Except Bytes Bytes :=
  if ds.hasClient then
    match ks (getPath ds.bucketName key) with
    | some v => .ok v
    | none => .error (lit "error reading: " ++ getPath ds.bucketName key ++ lit ", error: redis: nil")
  else .error noClient

/-- `Del(key)`. -/
def del (ds : RedisDataStore) (ks : Keyspace) (key : Bytes) : Except Bytes Keyspace :=
  if ds.hasClient then .ok (ks.del (getPath ds.bucketName key)) else .error noClient

/-- The `SCAN` pattern of `Cleanup`: `this.bucketName + ".*"`. -/
def cleanupPattern (ds : RedisDataStore) : Bytes := ds.bucketName ++ lit ".*"

/-- `Cleanup`: `DEL` every key that matches the pattern. It has no nil check: without a
client, `client.Scan` dereferences the nil `*redis.Client` and panics (`none`). -/
def cleanup (ds : RedisDataStore) (ks : Keyspace) : Option Keyspace :=
  if ds.hasClient then some fun k => if stringmatchlen ds.cleanupPattern k then none else ks k
  else none

/-- The writes a data-store handle sends. -/
inductive Write where
  | set (key value : Bytes)
  | del (key : Bytes)
  deriving DecidableEq, Repr

/-- The key a write names. -/
def Write.key : Write → Bytes
  | .set k _ | .del k => k

/-- The keyspace after a write; a write that returns an error leaves it unchanged. -/
def write (ds : RedisDataStore) (ks : Keyspace) (w : Write) : Keyspace :=
  match (match w with | .set k v => ds.set ks k v | .del k => ds.del ks k) with
  | .ok ks' => ks'
  | .error _ => ks

/-- **Frame.** A write changes only the key it addresses. -/
theorem write_frame (ds : RedisDataStore) (ks : Keyspace) (w : Write) {k : Bytes}
    (hk : k ≠ getPath ds.bucketName w.key) : ds.write ks w k = ks k := by
  cases w <;> cases h : ds.hasClient <;> simp_all [write, set, del, Write.key]

end RedisDataStore

end Goflow
