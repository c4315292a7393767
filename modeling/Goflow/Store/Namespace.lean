import Goflow.Store.Redis

/-!
# Request namespaces

Each request reaches Redis through store handles configured with its flow name and
request id. The handles build their keys with `fmt.Sprintf` and separators that may
also occur inside the names, and `Cleanup` hands its namespace to `SCAN` as a glob
pattern, so both guarantees hold under conditions on the names:

* `namespaces_disjoint`: with dot-free flow names and request ids (for the data store:
  flow names without `-`, request ids without `.`), two handles of different requests
  address different keys, and a write through one never changes a `Get` through the
  other. `namespaces_collide` shows the keys collide otherwise.
* `cleanup_scoped`: with no glob byte in the names, `Cleanup` deletes every key of its
  request, none of another request (names free of the separators), and a second
  `Cleanup` deletes nothing; the data store's `Cleanup` panics on a handle without client.
  `cleanup_overreaches` shows what goes wrong otherwise.
-/

namespace Goflow

/-- A prefix `a ++ [s]` of `b ++ s :: d`, none of `a`, `b` holding `s`, is that of `b`. -/
theorem sep_prefix {s : UInt8} {a b d : Bytes} (ha : s ∉ a) (hb : s ∉ b)
    (h : a ++ [s] <+: b ++ s :: d) : a = b := by
  obtain ⟨t, ht⟩ := h
  rw [List.append_assoc, List.singleton_append] at ht
  exact (sep_split ha hb ht).1

/-- The bytes `lit "core."` and `lit "core-"` are not glob bytes. -/
theorem core_literal : (lit "core.").all globLiteral = true ∧ (lit "core-").all globLiteral = true := by
  decide

namespace RedisStateStore

theorem fullKey_configure (f r k : Bytes) :
    (configure f r).fullKey k = lit "core." ++ (f ++ 46 :: (r ++ 46 :: k)) := by
  simp [fullKey, configure, show lit "." = [46] from rfl]

/-- **A state-store key names its request** when flow names and request ids are dot-free. -/
theorem fullKey_inj {f r f' r' k k' : Bytes} (hf : 46 ∉ f) (hr : 46 ∉ r) (hf' : 46 ∉ f')
    (hr' : 46 ∉ r') (h : (configure f r).fullKey k = (configure f' r').fullKey k') :
    f = f' ∧ r = r' ∧ k = k' := by
  rw [fullKey_configure, fullKey_configure, List.append_cancel_left_eq] at h
  obtain ⟨rfl, h2⟩ := sep_split hf hf' h
  obtain ⟨rfl, rfl⟩ := sep_split hr hr' h2
  exact ⟨rfl, rfl, rfl⟩

/-- A write through one handle leaves a `Get` of another key unchanged. -/
theorem get_write_other {st st' : RedisStateStore} (ks : Keyspace) (w : Write) {k : Bytes}
    (h : st'.fullKey k ≠ st.fullKey w.key) : st'.get (st.write ks w) k = st'.get ks k := by
  simp only [get, write_frame st ks w h]

/-- The keys `Cleanup` deletes: those that begin with the namespace and a dot. -/
theorem cleanupPattern_match {f r : Bytes} (hf : f.all globLiteral = true)
    (hr : r.all globLiteral = true) (s : Bytes) :
    stringmatchlen (configure f r).cleanupPattern s = true ↔
      lit "core." ++ (f ++ 46 :: r) ++ [46] <+: s := by
  have hpat : (configure f r).cleanupPattern = lit "core." ++ (f ++ 46 :: r) ++ [46] ++ [42] := by
    simp [cleanupPattern, configure, show lit "." = [46] from rfl, show lit ".*" = [46, 42] from rfl]
  rw [hpat]
  apply stringmatchlen_prefix_star (by simp)
  simp [core_literal.1, hf, hr, globLiteral]

theorem cleanup_cleanup (st : RedisStateStore) (ks : Keyspace) :
    st.cleanup (st.cleanup ks) = st.cleanup ks := by
  funext k; simp only [cleanup]; split <;> rfl

/-- `Cleanup` deletes every key its own handle addresses. -/
theorem cleanup_own {f r : Bytes} (hf : f.all globLiteral = true) (hr : r.all globLiteral = true)
    (ks : Keyspace) (k : Bytes) : (configure f r).cleanup ks ((configure f r).fullKey k) = none := by
  have hm : stringmatchlen (configure f r).cleanupPattern ((configure f r).fullKey k) = true := by
    rw [cleanupPattern_match hf hr, fullKey_configure]; exact ⟨k, by simp⟩
  simp [cleanup, hm]

/-- `Cleanup` keeps every key of another request, all four names being dot-free. -/
theorem cleanup_other {f r f' r' : Bytes} (hf : f.all globLiteral = true)
    (hr : r.all globLiteral = true) (h1 : 46 ∉ f) (h2 : 46 ∉ r) (h3 : 46 ∉ f') (h4 : 46 ∉ r')
    (hne : (f', r') ≠ (f, r)) (ks : Keyspace) (k : Bytes) :
    (configure f r).cleanup ks ((configure f' r').fullKey k) = ks ((configure f' r').fullKey k) := by
  have hm : stringmatchlen (configure f r).cleanupPattern ((configure f' r').fullKey k) = false := by
    rw [Bool.eq_false_iff, ne_eq, cleanupPattern_match hf hr, fullKey_configure, List.append_assoc,
      List.prefix_append_right_inj]
    rintro ⟨t, ht⟩
    simp only [List.append_assoc, List.cons_append, List.singleton_append] at ht
    obtain ⟨rfl, h⟩ := sep_split h1 h3 ht
    obtain ⟨rfl, -⟩ := sep_split h2 h4 h
    exact hne rfl
  simp [cleanup, hm]

end RedisStateStore

namespace RedisDataStore

theorem getPath_configure (ds : RedisDataStore) (f r k : Bytes) :
    getPath (ds.configure f r).bucketName k = lit "core-" ++ (f ++ 45 :: (r ++ 46 :: (k ++ lit ".value"))) := by
  simp [getPath, configure, show lit "." = [46] from rfl, show lit "-" = [45] from rfl]

/-- **A data-store key names its request** when flow names have no `-` and request ids no `.`. -/
theorem getPath_inj {ds ds' : RedisDataStore} {f r f' r' k k' : Bytes} (hf : 45 ∉ f) (hr : 46 ∉ r)
    (hf' : 45 ∉ f') (hr' : 46 ∉ r')
    (h : getPath (ds.configure f r).bucketName k = getPath (ds'.configure f' r').bucketName k') :
    f = f' ∧ r = r' ∧ k = k' := by
  rw [getPath_configure, getPath_configure, List.append_cancel_left_eq] at h
  obtain ⟨rfl, h2⟩ := sep_split hf hf' h
  obtain ⟨rfl, h3⟩ := sep_split hr hr' h2
  exact ⟨rfl, rfl, List.append_cancel_right h3⟩

/-- A write through one handle leaves a `Get` of another key unchanged. -/
theorem get_write_other {ds ds' : RedisDataStore} (ks : Keyspace) (w : Write) {k : Bytes}
    (h : getPath ds'.bucketName k ≠ getPath ds.bucketName w.key) :
    ds'.get (ds.write ks w) k = ds'.get ks k := by
  simp only [get, write_frame ds ks w h]

theorem cleanupPattern_match {ds : RedisDataStore} {f r : Bytes} (hf : f.all globLiteral = true)
    (hr : r.all globLiteral = true) (s : Bytes) :
    stringmatchlen (ds.configure f r).cleanupPattern s = true ↔
      lit "core-" ++ (f ++ 45 :: r) ++ [46] <+: s := by
  have hpat : (ds.configure f r).cleanupPattern = lit "core-" ++ (f ++ 45 :: r) ++ [46] ++ [42] := by
    simp [cleanupPattern, configure, show lit "-" = [45] from rfl, show lit ".*" = [46, 42] from rfl]
  rw [hpat]
  apply stringmatchlen_prefix_star (by simp)
  simp [core_literal.2, hf, hr, globLiteral]

/-- `Cleanup` returns exactly when the handle has a client. -/
theorem cleanup_isSome (ds : RedisDataStore) (ks : Keyspace) : (ds.cleanup ks).isSome = ds.hasClient := by
  unfold cleanup; split <;> simp_all

/-- The keyspace a returning `Cleanup` leaves: the keys that match its pattern deleted. -/
theorem cleanup_apply {ds : RedisDataStore} {ks ks' : Keyspace} (h : ds.cleanup ks = some ks')
    (k : Bytes) : ks' k = if stringmatchlen ds.cleanupPattern k then none else ks k := by
  unfold cleanup at h
  split at h
  · cases h; rfl
  · cases h

theorem cleanup_cleanup {ds : RedisDataStore} {ks ks' : Keyspace} (h : ds.cleanup ks = some ks') :
    ds.cleanup ks' = some ks' := by
  have hc : ds.hasClient = true := by simpa [h] using cleanup_isSome ds ks
  simp only [cleanup, hc, if_true, Option.some.injEq]
  funext k
  rw [cleanup_apply h]
  split <;> rfl

/-- `Cleanup` deletes every key its own handle addresses. -/
theorem cleanup_own {ds : RedisDataStore} {f r : Bytes} (hf : f.all globLiteral = true)
    (hr : r.all globLiteral = true) {ks ks' : Keyspace} (h : (ds.configure f r).cleanup ks = some ks')
    (k : Bytes) : ks' (getPath (ds.configure f r).bucketName k) = none := by
  have hm : stringmatchlen (ds.configure f r).cleanupPattern
      (getPath (ds.configure f r).bucketName k) = true := by
    rw [cleanupPattern_match hf hr, getPath_configure]; exact ⟨k ++ lit ".value", by simp⟩
  rw [cleanup_apply h, if_pos hm]

/-- `Cleanup` keeps every key of another request (flow names without `-`, request ids
without `.`). -/
theorem cleanup_other {ds ds' : RedisDataStore} {f r f' r' : Bytes} (hf : f.all globLiteral = true)
    (hr : r.all globLiteral = true) (h1 : 45 ∉ f) (h2 : 46 ∉ r) (h3 : 45 ∉ f') (h4 : 46 ∉ r')
    (hne : (f', r') ≠ (f, r)) {ks ks' : Keyspace} (h : (ds.configure f r).cleanup ks = some ks')
    (k : Bytes) :
    ks' (getPath (ds'.configure f' r').bucketName k) = ks (getPath (ds'.configure f' r').bucketName k) := by
  have hm : stringmatchlen (ds.configure f r).cleanupPattern
      (getPath (ds'.configure f' r').bucketName k) = false := by
    rw [Bool.eq_false_iff, ne_eq, cleanupPattern_match hf hr, getPath_configure, List.append_assoc,
      List.prefix_append_right_inj]
    rintro ⟨t, ht⟩
    simp only [List.append_assoc, List.cons_append, List.singleton_append] at ht
    obtain ⟨rfl, h⟩ := sep_split h1 h3 ht
    obtain ⟨rfl, -⟩ := sep_split h2 h4 h
    exact hne rfl
  rw [cleanup_apply h, hm]
  rfl

end RedisDataStore

open RedisStateStore

/-- **Request namespaces are disjoint.** For two different requests, dot-free names give
their state-store handles disjoint keys, and no write through the first changes a `Get`
through the second; likewise for data-store handles when flow names have no `-` and
request ids no `.`. -/
theorem namespaces_disjoint {f1 r1 f2 r2 : Bytes} (hne : (f1, r1) ≠ (f2, r2)) :
    (46 ∉ f1 → 46 ∉ r1 → 46 ∉ f2 → 46 ∉ r2 →
      (∀ k1 k2, (configure f1 r1).fullKey k1 ≠ (configure f2 r2).fullKey k2) ∧
      ∀ ks w k2, (configure f2 r2).get ((configure f1 r1).write ks w) k2 =
        (configure f2 r2).get ks k2) ∧
    (45 ∉ f1 → 46 ∉ r1 → 45 ∉ f2 → 46 ∉ r2 → ∀ ds1 ds2 : RedisDataStore,
      (∀ k1 k2, getPath (ds1.configure f1 r1).bucketName k1 ≠
        getPath (ds2.configure f2 r2).bucketName k2) ∧
      ∀ ks w k2, (ds2.configure f2 r2).get ((ds1.configure f1 r1).write ks w) k2 =
        (ds2.configure f2 r2).get ks k2) := by
  refine ⟨fun h1 h2 h3 h4 => ?_, fun h1 h2 h3 h4 ds1 ds2 => ?_⟩
  · have hk : ∀ k1 k2, (configure f1 r1).fullKey k1 ≠ (configure f2 r2).fullKey k2 :=
      fun _ _ h => hne (by obtain ⟨rfl, rfl, -⟩ := fullKey_inj h1 h2 h3 h4 h; rfl)
    exact ⟨hk, fun ks w _ => get_write_other ks w (Ne.symm (hk _ _))⟩
  · have hk : ∀ k1 k2, getPath (ds1.configure f1 r1).bucketName k1 ≠
        getPath (ds2.configure f2 r2).bucketName k2 :=
      fun _ _ h => hne (by obtain ⟨rfl, rfl, -⟩ := RedisDataStore.getPath_inj h1 h2 h3 h4 h; rfl)
    exact ⟨hk, fun ks w _ => RedisDataStore.get_write_other ks w (Ne.symm (hk _ _))⟩

theorem namespaces_disjoint_two_requests :
    (configure (lit "flow") (lit "r1")).fullKey (lit "k") ≠
        (configure (lit "flow") (lit "r2")).fullKey (lit "k") ∧
      getPath ((⟨[], true⟩ : RedisDataStore).configure (lit "flow") (lit "r1")).bucketName (lit "k") ≠
        getPath ((⟨[], true⟩ : RedisDataStore).configure (lit "flow") (lit "r2")).bucketName (lit "k") :=
  ⟨((namespaces_disjoint (by decide)).1 (by decide) (by decide) (by decide) (by decide)).1 _ _,
    ((namespaces_disjoint (by decide)).2 (by decide) (by decide) (by decide) (by decide) _ _).1 _ _⟩

/-- Otherwise requests share keys: flow `a` request `b.c` and flow `a.b` request `c` in the
state store (a `Set` through the first is read by a `Get` through the second), flow `a-b`
request `c` and flow `a` request `b-c` in the data store. -/
theorem namespaces_collide :
    (lit "a", lit "b.c") ≠ (lit "a.b", lit "c") ∧
      (∀ ks : Keyspace, (configure (lit "a.b") (lit "c")).get
        ((configure (lit "a") (lit "b.c")).set ks (lit "k") (lit "v")) (lit "k") = .ok (lit "v")) ∧
      (lit "a-b", lit "c") ≠ (lit "a", lit "b-c") ∧
      ∀ ds1 ds2 : RedisDataStore, getPath (ds1.configure (lit "a-b") (lit "c")).bucketName (lit "k") =
        getPath (ds2.configure (lit "a") (lit "b-c")).bucketName (lit "k") := by
  refine ⟨by decide, fun ks => ?_, by decide, fun _ _ => rfl⟩
  rw [RedisStateStore.get, RedisStateStore.set,
    show (configure (lit "a.b") (lit "c")).fullKey (lit "k") =
      (configure (lit "a") (lit "b.c")).fullKey (lit "k") from rfl, Keyspace.set_same]

/-- **`Cleanup` stays in its request.** With no glob byte in the flow name and request id,
the state store's `Cleanup` deletes every key of its request, no key of another request
when all the names are dot-free, and a second `Cleanup` deletes nothing. The data store's
`Cleanup` panics on a handle without client; on one with a client it does the same as the
state store's, with flow names free of `-` and request ids free of `.`. -/
theorem cleanup_scoped {f r : Bytes} (hf : f.all globLiteral = true) (hr : r.all globLiteral = true) :
    (∀ ks k, (configure f r).cleanup ks ((configure f r).fullKey k) = none) ∧
    (46 ∉ f → 46 ∉ r → ∀ f' r', 46 ∉ f' → 46 ∉ r' → (f', r') ≠ (f, r) → ∀ ks k,
      (configure f r).cleanup ks ((configure f' r').fullKey k) = ks ((configure f' r').fullKey k)) ∧
    (∀ ks, (configure f r).cleanup ((configure f r).cleanup ks) = (configure f r).cleanup ks) ∧
    ∀ (ds : RedisDataStore) (ks : Keyspace),
      ((ds.configure f r).cleanup ks).isSome = ds.hasClient ∧
      ∀ ks', (ds.configure f r).cleanup ks = some ks' →
        (∀ k, ks' (getPath (ds.configure f r).bucketName k) = none) ∧
        (45 ∉ f → 46 ∉ r → ∀ (ds' : RedisDataStore) f' r', 45 ∉ f' → 46 ∉ r' → (f', r') ≠ (f, r) →
          ∀ k, ks' (getPath (ds'.configure f' r').bucketName k) = ks (getPath (ds'.configure f' r').bucketName k)) ∧
        (ds.configure f r).cleanup ks' = some ks' :=
  ⟨cleanup_own hf hr, fun h1 h2 _ _ h3 h4 hne => cleanup_other hf hr h1 h2 h3 h4 hne,
    fun _ => cleanup_cleanup _ _, fun _ ks => ⟨RedisDataStore.cleanup_isSome _ ks, fun _ h =>
      ⟨RedisDataStore.cleanup_own hf hr h, fun h1 h2 _ _ _ h3 h4 hne k =>
        RedisDataStore.cleanup_other hf hr h1 h2 h3 h4 hne h k, RedisDataStore.cleanup_cleanup h⟩⟩⟩

theorem cleanup_scoped_two_requests :
    (configure (lit "flow") (lit "r1")).cleanup (fun _ => some [])
        ((configure (lit "flow") (lit "r1")).fullKey (lit "k")) = none ∧
      (configure (lit "flow") (lit "r1")).cleanup (fun _ => some [])
        ((configure (lit "flow") (lit "r2")).fullKey (lit "k")) = some [] :=
  ⟨(cleanup_scoped (by decide) (by decide)).1 _ _,
    (cleanup_scoped (by decide) (by decide)).2.1 (by decide) (by decide) _ _ (by decide) (by decide)
      (by decide) _ _⟩

/-- Otherwise `Cleanup` overreaches or misses: request `b` of flow `a` deletes the state and
data keys of request `b.c`, request `*` deletes the keys of request `x`, and request `[`
keeps its own. -/
theorem cleanup_overreaches :
    (lit "a", lit "b.c") ≠ (lit "a", lit "b") ∧
      (∀ ks : Keyspace, (configure (lit "a") (lit "b")).cleanup ks
        ((configure (lit "a") (lit "b.c")).fullKey (lit "k")) = none) ∧
      (∀ (ds ds' : RedisDataStore) (ks ks' : Keyspace), (ds.configure (lit "a") (lit "b")).cleanup ks = some ks' →
        ks' (getPath (ds'.configure (lit "a") (lit "b.c")).bucketName (lit "k")) = none) ∧
      (∀ ks : Keyspace, (configure (lit "a") (lit "*")).cleanup ks
        ((configure (lit "a") (lit "x")).fullKey (lit "k")) = none) ∧
      ∀ ks : Keyspace, (configure (lit "a") (lit "[")).cleanup ks
        ((configure (lit "a") (lit "[")).fullKey (lit "k")) =
          ks ((configure (lit "a") (lit "[")).fullKey (lit "k")) := by
  refine ⟨by decide, fun ks => ?_, fun ds ds' ks ks' h => ?_, fun ks => ?_, fun ks => ?_⟩
  · have hm : stringmatchlen [99, 111, 114, 101, 46, 97, 46, 98, 46, 42]
        [99, 111, 114, 101, 46, 97, 46, 98, 46, 99, 46, 107] = true := by simp [stringmatchlen]
    exact if_pos hm
  · have hm : stringmatchlen [99, 111, 114, 101, 45, 97, 45, 98, 46, 42]
        [99, 111, 114, 101, 45, 97, 45, 98, 46, 99, 46, 107, 46, 118, 97, 108, 117, 101] = true := by
      simp [stringmatchlen]
    rw [RedisDataStore.cleanup_apply h]
    exact if_pos hm
  · have hm : stringmatchlen [99, 111, 114, 101, 46, 97, 46, 42, 46, 42]
        [99, 111, 114, 101, 46, 97, 46, 120, 46, 107] = true := by simp [stringmatchlen]
    exact if_pos hm
  · have hm : stringmatchlen [99, 111, 114, 101, 46, 97, 46, 91, 46, 42]
        [99, 111, 114, 101, 46, 97, 46, 91, 46, 107] = false := by simp [stringmatchlen, classScan]
    exact if_neg (by rw [Bool.not_eq_true]; exact hm)

end Goflow
