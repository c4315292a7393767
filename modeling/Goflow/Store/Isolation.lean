import Goflow.Store.Namespace

/-!
# Each request has a store of its own

The store handles of all requests share one Redis keyspace. Through its handle a request
sees a key-value map, its `view`: entry `k` is the Redis key the handle builds for `k`, the
key its `Get(k)` reads. What the stores are for is that each request has such a map to
itself, changed only by its own calls (`StateOp.alone`, `DataOp.alone`): `Set` writes an
entry, `Update` writes one that holds the old value, `Incr` is `INCRBY` on the entry, `Del`
deletes one, and `Cleanup` empties the map. Each call is one step of the run: an `Update`
whose commands interleave with other clients' is `Redis/Watch.lean`, and `Redis/Atomic.lean`
shows that it acts as one step when no one else writes its key.

* `state_store_isolated`: over every interleaving of `Set`, `Update`, `Incr` and `Cleanup`
  calls of requests whose flow names and request ids hold no `.` and no glob byte, the view
  of each request is the map its own calls give alone.
* `data_store_isolated`: likewise for `Set`, `Del` and `Cleanup` of the data store with a
  client, flow names free of `-` and request ids free of `.`.
-/

namespace Goflow

/-- The calls of request `fr` in an interleaving, in order. -/
def callsOf {O : Type} (fr : Bytes × Bytes) (ops : List ((Bytes × Bytes) × O)) : List O :=
  (ops.filter fun p => p.1 = fr).map (·.2)

/-! ### One run lemma for both stores -/

section Project

variable {R O : Type} [DecidableEq R] {alone : Keyspace → O → Keyspace} {Valid : R → Prop} {r : R}

/-- **A projection that each step of its owner maps to an abstract step, and that each step of
another party leaves as it is**, is after a whole run the owner's abstract steps alone. -/
theorem foldl_project (step : R → Keyspace → O → Keyspace) (view : Keyspace → Keyspace)
    (hown : ∀ ks o, view (step r ks o) = alone (view ks) o)
    (hother : ∀ r', Valid r' → r' ≠ r → ∀ ks o, view (step r' ks o) = view ks) :
    ∀ (ops : List (R × O)) (ks : Keyspace), (∀ p ∈ ops, Valid p.1) →
      view (ops.foldl (fun ks p => step p.1 ks p.2) ks) =
        ((ops.filter fun p => p.1 = r).map (·.2)).foldl alone (view ks)
  | [], _, _ => rfl
  | (r', o) :: ops, ks, hv => by
    have ih := foldl_project step view hown hother ops (step r' ks o)
      fun p hp => hv p (List.mem_cons_of_mem _ hp)
    by_cases h : r' = r
    · subst h
      simp [List.filter_cons, ih, hown]
    · rw [List.foldl_cons, ih, hother r' (hv _ (List.mem_cons_self _ _)) h,
        List.filter_cons_of_neg (by simpa using h)]

end Project

/-! ### The state store -/

namespace RedisStateStore

/-- The keys of handle `st` as one map: entry `k` is Redis key `fullKey k`. -/
def view (st : RedisStateStore) (ks : Keyspace) : Keyspace := fun k => ks (st.fullKey k)

theorem fullKey_injective (st : RedisStateStore) : Function.Injective st.fullKey :=
  fun _ _ h => List.append_cancel_left h

theorem view_set (st : RedisStateStore) (ks : Keyspace) (k v : Bytes) :
    st.view (ks.set (st.fullKey k) v) = (st.view ks).set k v := by
  funext k'
  simp only [view, Keyspace.set, (fullKey_injective st).eq_iff]

end RedisStateStore

/-- A call on a state-store handle that changes the keyspace. -/
inductive StateOp where
  | write (w : RedisStateStore.Write)
  | cleanup
  deriving DecidableEq, Repr

namespace StateOp

/-- The call on the shared keyspace, through handle `st`. -/
def apply (st : RedisStateStore) (ks : Keyspace) : StateOp → Keyspace
  | .write w => st.write ks w
  | .cleanup => st.cleanup ks

/-- The call on a map the request has to itself. -/
def alone (m : Keyspace) : StateOp → Keyspace
  | .write (.set k v) => m.set k v
  | .write (.update k o n) => if m k = some o then m.set k n else m
  | .write (.incr k d) => match incrBy m k d with
    | .ok (m', _) => m'
    | .error _ => m
  | .cleanup => fun _ => none

end StateOp

/-- The shared keyspace after the calls of requests `(flowName, requestId)`, one after
another, each through a handle configured for its request. -/
def stateRun (ks : Keyspace) (ops : List ((Bytes × Bytes) × StateOp)) : Keyspace :=
  ops.foldl (fun ks p => p.2.apply (RedisStateStore.configure p.1.1 p.1.2) ks) ks

/-- Flow name and request id with no `.` and no glob byte. -/
def PlainNames (fr : Bytes × Bytes) : Prop :=
  46 ∉ fr.1 ∧ 46 ∉ fr.2 ∧ fr.1.all globLiteral = true ∧ fr.2.all globLiteral = true

instance (fr : Bytes × Bytes) : Decidable (PlainNames fr) := inferInstanceAs (Decidable (_ ∧ _ ∧ _ ∧ _))

namespace RedisStateStore

/-- A write through a handle is the write on its map. -/
theorem view_write (st : RedisStateStore) (ks : Keyspace) (w : Write) :
    st.view (st.write ks w) = (StateOp.write w).alone (st.view ks) := by
  have hk : ∀ k, st.view ks k = ks (st.fullKey k) := fun _ => rfl
  cases w with
  | set k v => exact view_set st ks k v
  | update k o n =>
    simp only [write, update, StateOp.alone, hk]
    rcases ks (st.fullKey k) with _ | v
    · simp
    · by_cases hv : v = o <;> simp [hv, view_set]
  | incr k d =>
    simp only [write, incr, incrBy, StateOp.alone, hk]
    rcases ks (st.fullKey k) with _ | v
    · dsimp only
      split_ifs <;> simp only [view_set]
    · dsimp only
      rcases string2ll v with _ | old
      · rfl
      · dsimp only
        split_ifs <;> simp only [view_set]

/-- Each call of a request with plain names is the call on its map. -/
theorem view_apply_own {f r : Bytes} (h : PlainNames (f, r)) (ks : Keyspace) (o : StateOp) :
    (configure f r).view (o.apply (configure f r) ks) = o.alone ((configure f r).view ks) := by
  cases o with
  | write w => exact view_write _ ks w
  | cleanup => funext k; exact cleanup_own h.2.2.1 h.2.2.2 ks k

/-- A call of another request with plain names leaves the map as it is. -/
theorem view_apply_other {f r : Bytes} {fr : Bytes × Bytes} (h : PlainNames (f, r))
    (h' : PlainNames fr) (hne : fr ≠ (f, r)) (ks : Keyspace) (o : StateOp) :
    (configure f r).view (o.apply (configure fr.1 fr.2) ks) = (configure f r).view ks := by
  funext k
  cases o with
  | write w =>
    refine write_frame _ ks w fun hk => hne ?_
    obtain ⟨rfl, rfl, -⟩ := fullKey_inj h'.1 h'.2.1 h.1 h.2.1 hk.symm
    rfl
  | cleanup => exact cleanup_other h'.2.2.1 h'.2.2.2 h'.1 h'.2.1 h.1 h.2.1 (Ne.symm hne) ks k

end RedisStateStore

open RedisStateStore in
/-- **Each request has a state store of its own.** Over every interleaving of `Set`,
`Update`, `Incr` and `Cleanup` calls of requests whose flow names and request ids hold no
`.` and no glob byte, what request `(f, r)` reads through its handle is the map its own
calls, in their order, make of what it read at the start: no call of another request
changes it, and each of its own acts on it as on a store of its own. -/
theorem state_store_isolated {f r : Bytes} (hfr : PlainNames (f, r))
    (ops : List ((Bytes × Bytes) × StateOp)) (hops : ∀ p ∈ ops, PlainNames p.1) (ks : Keyspace) :
    (configure f r).view (stateRun ks ops) =
      (callsOf (f, r) ops).foldl StateOp.alone ((configure f r).view ks) := by
  unfold stateRun callsOf
  exact foldl_project (r := (f, r)) (fun fr ks (o : StateOp) => o.apply (configure fr.1 fr.2) ks)
    (configure f r).view (view_apply_own hfr) (fun _ h' hne => view_apply_other hfr h' hne) ops ks hops

/-- Two requests of flow `f`: the first sets `k` and increments `n`, the second cleans up
and sets its own `k` in between. -/
def twoRequestCalls : List ((Bytes × Bytes) × StateOp) :=
  [((lit "f", lit "r1"), .write (.set (lit "k") (lit "1"))),
    ((lit "f", lit "r2"), .cleanup),
    ((lit "f", lit "r1"), .write (.incr (lit "n") 2)),
    ((lit "f", lit "r2"), .write (.set (lit "k") (lit "x")))]

theorem state_store_isolated_twoRequestCalls :
    PlainNames (lit "f", lit "r1") ∧ (∀ p ∈ twoRequestCalls, PlainNames p.1) ∧
      (RedisStateStore.configure (lit "f") (lit "r1")).view (stateRun (fun _ => none) twoRequestCalls) =
        (callsOf (lit "f", lit "r1") twoRequestCalls).foldl StateOp.alone
          ((RedisStateStore.configure (lit "f") (lit "r1")).view fun _ => none) :=
  ⟨by decide, by decide, state_store_isolated (by decide) twoRequestCalls (by decide) _⟩

/-! ### The data store -/

namespace RedisDataStore

/-- The keys of handle `ds` as one map: entry `k` is Redis key `getPath bucketName k`. -/
def view (ds : RedisDataStore) (ks : Keyspace) : Keyspace := fun k => ks (getPath ds.bucketName k)

theorem getPath_injective (bucket : Bytes) : Function.Injective (getPath bucket) :=
  fun _ _ h => List.append_cancel_right (List.append_cancel_left h)

end RedisDataStore

/-- A call on a data-store handle that changes the keyspace. -/
inductive DataOp where
  | write (w : RedisDataStore.Write)
  | cleanup
  deriving DecidableEq, Repr

namespace DataOp

/-- The call on the shared keyspace, through handle `ds`; `none` when it panics. -/
def apply (ds : RedisDataStore) (ks : Keyspace) : DataOp → Option Keyspace
  | .write w => some (ds.write ks w)
  | .cleanup => ds.cleanup ks

/-- The call on a map the request has to itself. -/
def alone (m : Keyspace) : DataOp → Keyspace
  | .write (.set k v) => m.set k v
  | .write (.del k) => m.del k
  | .cleanup => fun _ => none

end DataOp

/-- The shared keyspace after the calls of requests `(flowName, requestId)`, one after
another, each through a copy of handle `ds` configured for its request; a call that panics
ends the run. -/
def dataRun (ds : RedisDataStore) (ks : Keyspace) : List ((Bytes × Bytes) × DataOp) → Keyspace
  | [] => ks
  | p :: ops =>
    match p.2.apply (ds.configure p.1.1 p.1.2) ks with
    | some ks' => dataRun ds ks' ops
    | none => ks

/-- With a client no call panics, and the run is the calls one after another. -/
theorem dataRun_eq_foldl {ds : RedisDataStore} (hc : ds.hasClient = true) :
    ∀ (ks : Keyspace) (ops : List ((Bytes × Bytes) × DataOp)),
      dataRun ds ks ops = ops.foldl (fun ks p => (p.2.apply (ds.configure p.1.1 p.1.2) ks).getD ks) ks
  | _, [] => rfl
  | ks, (fr, o) :: ops => by
    obtain ⟨ks', hks⟩ : ∃ ks', o.apply (ds.configure fr.1 fr.2) ks = some ks' := by
      cases o with
      | write w => exact ⟨_, rfl⟩
      | cleanup => exact Option.isSome_iff_exists.1 ((RedisDataStore.cleanup_isSome _ ks).trans hc)
    rw [dataRun, hks, List.foldl_cons, hks]
    exact dataRun_eq_foldl hc ks' ops

/-- Flow name free of `-`, request id free of `.`, neither with a glob byte. -/
def PlainDataNames (fr : Bytes × Bytes) : Prop :=
  45 ∉ fr.1 ∧ 46 ∉ fr.2 ∧ fr.1.all globLiteral = true ∧ fr.2.all globLiteral = true

instance (fr : Bytes × Bytes) : Decidable (PlainDataNames fr) :=
  inferInstanceAs (Decidable (_ ∧ _ ∧ _ ∧ _))

namespace RedisDataStore

/-- A write through a handle with a client is the write on its map. -/
theorem view_write {ds : RedisDataStore} (hc : ds.hasClient = true) (ks : Keyspace) (w : Write) :
    ds.view (ds.write ks w) = (DataOp.write w).alone (ds.view ks) := by
  funext k'
  cases w <;> simp [view, write, set, del, DataOp.alone, hc, Keyspace.set, Keyspace.del,
    (getPath_injective ds.bucketName).eq_iff]

theorem view_apply_own {ds : RedisDataStore} (hc : ds.hasClient = true) {f r : Bytes}
    (h : PlainDataNames (f, r)) (ks : Keyspace) (o : DataOp) :
    (ds.configure f r).view ((o.apply (ds.configure f r) ks).getD ks) =
      o.alone ((ds.configure f r).view ks) := by
  cases o with
  | write w => exact view_write (show (ds.configure f r).hasClient = true from hc) ks w
  | cleanup =>
    obtain ⟨ks', hks⟩ := Option.isSome_iff_exists.1 ((cleanup_isSome (ds.configure f r) ks).trans hc)
    funext k
    simp only [DataOp.apply, hks, Option.getD_some]
    exact cleanup_own h.2.2.1 h.2.2.2 hks k

theorem view_apply_other {ds : RedisDataStore} {f r : Bytes} {fr : Bytes × Bytes}
    (h : PlainDataNames (f, r)) (h' : PlainDataNames fr) (hne : fr ≠ (f, r)) (ks : Keyspace)
    (o : DataOp) :
    (ds.configure f r).view ((o.apply (ds.configure fr.1 fr.2) ks).getD ks) = (ds.configure f r).view ks := by
  funext k
  cases o with
  | write w =>
    refine write_frame _ ks w fun hk => hne ?_
    obtain ⟨rfl, rfl, -⟩ := getPath_inj h'.1 h'.2.1 h.1 h.2.1 hk.symm
    rfl
  | cleanup =>
    rcases hks : (ds.configure fr.1 fr.2).cleanup ks with _ | ks'
    · simp only [DataOp.apply, hks, Option.getD_none]
    · simp only [DataOp.apply, hks, Option.getD_some]
      exact cleanup_other h'.2.2.1 h'.2.2.2 h'.1 h'.2.1 h.1 h.2.1 (Ne.symm hne) hks k

end RedisDataStore

/-- **Each request has a data store of its own.** Over every interleaving of `Set`, `Del`
and `Cleanup` calls of requests through copies of one data-store handle with a client, with
flow names free of `-`, request ids free of `.` and no glob byte in either, what request
`(f, r)` reads through its handle is the map its own calls make of what it read at the
start. -/
theorem data_store_isolated {ds : RedisDataStore} (hc : ds.hasClient = true) {f r : Bytes}
    (hfr : PlainDataNames (f, r)) (ops : List ((Bytes × Bytes) × DataOp))
    (hops : ∀ p ∈ ops, PlainDataNames p.1) (ks : Keyspace) :
    (ds.configure f r).view (dataRun ds ks ops) =
      (callsOf (f, r) ops).foldl DataOp.alone ((ds.configure f r).view ks) := by
  rw [dataRun_eq_foldl hc]
  unfold callsOf
  exact foldl_project (r := (f, r)) (fun fr ks (o : DataOp) => (o.apply (ds.configure fr.1 fr.2) ks).getD ks)
    (ds.configure f r).view (RedisDataStore.view_apply_own hc hfr)
    (fun _ h' hne => RedisDataStore.view_apply_other hfr h' hne) ops ks hops

/-- Two requests of flow `f` through copies of one handle: the first sets and deletes `a`,
the second sets `a` and cleans up in between. -/
def twoRequestDataCalls : List ((Bytes × Bytes) × DataOp) :=
  [((lit "f", lit "r1"), .write (.set (lit "a") (lit "1"))),
    ((lit "f", lit "r2"), .write (.set (lit "a") (lit "2"))),
    ((lit "f", lit "r2"), .cleanup),
    ((lit "f", lit "r1"), .write (.del (lit "b")))]

theorem data_store_isolated_twoRequestDataCalls :
    (⟨[], true⟩ : RedisDataStore).hasClient = true ∧ PlainDataNames (lit "f", lit "r1") ∧
      (∀ p ∈ twoRequestDataCalls, PlainDataNames p.1) ∧
      ((⟨[], true⟩ : RedisDataStore).configure (lit "f") (lit "r1")).view
          (dataRun ⟨[], true⟩ (fun _ => none) twoRequestDataCalls) =
        (callsOf (lit "f", lit "r1") twoRequestDataCalls).foldl DataOp.alone
          (((⟨[], true⟩ : RedisDataStore).configure (lit "f") (lit "r1")).view fun _ => none) :=
  ⟨rfl, by decide, by decide, data_store_isolated rfl (by decide) twoRequestDataCalls (by decide) _⟩

end Goflow
