import Goflow.Redis.Interference

/-!
# An `Update` on a key of its own is atomic

The stores model each call as one step; `Redis/Watch.lean` runs `Update`'s commands
interleaved with other clients'. The two agree when nothing else writes the key: the
commands of other clients on other keys, and other connections' `SET` and `INCRBY` on
other keys, change neither the call's connection nor its key.

* `update_atomic`: a fresh `Update(key, oldValue, newValue)` whose key no other client
  has, run in any interleaving in which no other connection writes that key, has, once
  it has sent four commands, returned what the sequential `RedisStateStore.update`
  returns on the keyspace it started from, and left its key as that update leaves it,
  with either pipeline.
-/

namespace Goflow

/-- A `SET` or `INCRBY` that another connection sends to key `k`. -/
def Label.writesKey (k : Bytes) : Label → Bool
  | .client _ => false
  | .set k' _ => k' == k
  | .incr k' _ => k' == k

/-- How far an `Update` has got: the number of commands it has sent, `GET`'s error
skipping the `SET`. -/
def UpdatePc.stage : UpdatePc → Nat
  | .watch => 0
  | .get => 1
  | .set => 2
  | .unwatch _ => 3
  | .done _ => 4

/-- The arguments of a client's call: its full key, `oldValue` and `newValue`. -/
def Client.call (c : Client) : Bytes × Bytes × Bytes := (c.key, c.oldValue, c.newValue)

/-- What client `c` of `Update(k, o, n)` through `st`, started on keyspace `ks0`, has
found and done at each step, with `v` the value of its key now: before `SET` it watches
the key, unmarked, and the key is as at the start; from `UNWATCH` on it has returned
what the sequential `update` returns, and the key holds what that update leaves. -/
def Expected (st : RedisStateStore) (k o n : Bytes) (ks0 : Keyspace) (c : Client)
    (v : Option Bytes) : Prop :=
  match c.pc with
  | .watch => c.dirty = false ∧ v = ks0 (st.fullKey k)
  | .get => c.watching = true ∧ c.dirty = false ∧ v = ks0 (st.fullKey k)
  | .set => c.watching = true ∧ c.dirty = false ∧ v = some o ∧ ks0 (st.fullKey k) = some o
  | .unwatch r | .done r =>
    r = errOf (st.update ks0 k o n) ∧ v = st.write ks0 (.update k o n) (st.fullKey k)

/-- Client `i` runs `Update(k, o, n)` through `st` on a key no other client has, as
`Expected` from `ks0`. -/
structure AloneInv (st : RedisStateStore) (k o n : Bytes) (ks0 : Keyspace) (i : Nat) (w : World) :
    Prop where
  call : (w.clients i).call = (st.fullKey k, o, n)
  apart : ∀ j, j ≠ i → (w.clients j).key ≠ st.fullKey k
  expected : Expected st k o n ks0 (w.clients i) (w.keys (st.fullKey k))

namespace World

/-- A write to another key changes neither a client on key `k` nor `k`. -/
theorem write_apart (w : World) (o : Option Nat) {k k' : Bytes} (v : Bytes) {i : Nat}
    (hi : (w.clients i).key = k) (hk : k' ≠ k) :
    (w.write o k' v).clients i = w.clients i ∧ (w.write o k' v).keys k = w.keys k := by
  rw [write_clients, write_keys, if_neg fun h => hk (hi ▸ h.2).symm]
  exact ⟨rfl, Keyspace.set_other _ _ fun h => hk h.symm⟩

/-- No step changes the arguments of a client's call. -/
theorem step_call (p : Pipeline) (w : World) (l : Label) (j : Nat) :
    ((w.step p l).clients j).call = (w.clients j).call := by
  have hset : ∀ (w : World) i (c : Client), c.call = (w.clients i).call →
      ((w.setClient i c).clients j).call = (w.clients j).call := fun w i c hc => by
    by_cases hj : j = i
    · subst hj; simpa using hc
    · simp [hj]
  have hwrite : ∀ (w : World) o k v, ((w.write o k v).clients j).call = (w.clients j).call :=
    fun w o k v => by rw [write_clients]; split <;> rfl
  cases l with
  | client i =>
    simp only [step, clientStep]
    split
    · exact hset _ _ _ (by rfl)
    · split
      · exact hset _ _ _ (by rfl)
      · split_ifs <;> exact hset _ _ _ (by rfl)
    · split
      · exact (hset _ _ _ (by rfl)).trans (hwrite _ _ _ _)
      · split
        · exact hset _ _ _ (by rfl)
        · exact (hset _ _ _ (by rfl)).trans ((hwrite _ _ _ _).trans (hset _ _ _ (by rfl)))
    · exact hset _ _ _ (by rfl)
    · rfl
  | set k v => exact hwrite _ _ _ _
  | incr k d =>
    simp only [step]
    split
    · exact hwrite _ _ _ _
    · rfl

end World

namespace AloneInv

variable {st : RedisStateStore} {k o n : Bytes} {ks0 : Keyspace} {i : Nat} {w : World}

theorem key (h : AloneInv st k o n ks0 i w) : (w.clients i).key = st.fullKey k :=
  congrArg Prod.fst h.call

/-- A step that keeps every call's arguments, and after which client `i` is where
`Expected` allows, keeps the invariant. -/
theorem of_call (h : AloneInv st k o n ks0 i w) {w' : World}
    (hcall : ∀ j, (w'.clients j).call = (w.clients j).call)
    (he : Expected st k o n ks0 (w'.clients i) (w'.keys (st.fullKey k))) : AloneInv st k o n ks0 i w' where
  call := (hcall i).trans h.call
  apart j hj hk := h.apart j hj ((congrArg Prod.fst (hcall j)).symm.trans hk)
  expected := he

/-- **A step of anyone else**, one that does not write key `k`, leaves client `i` and
its key as they are. -/
theorem step_other (h : AloneInv st k o n ks0 i w) (p : Pipeline) {l : Label}
    (hl : l ≠ .client i) (hw : l.writesKey (st.fullKey k) = false) :
    (w.step p l).clients i = w.clients i ∧
      (w.step p l).keys (st.fullKey k) = w.keys (st.fullKey k) := by
  cases l with
  | client j =>
    have hj : i ≠ j := fun hij => hl (hij ▸ rfl)
    have hjk := h.apart j (Ne.symm hj)
    simp only [World.step, clientStep]
    split
    · exact ⟨World.setClient_other _ _ hj, rfl⟩
    · split
      · exact ⟨World.setClient_other _ _ hj, rfl⟩
      · split_ifs <;> exact ⟨World.setClient_other _ _ hj, rfl⟩
    · split
      · rw [World.setClient_other _ _ hj, World.setClient_keys]
        exact World.write_apart _ _ _ h.key hjk
      · split
        · exact ⟨World.setClient_other _ _ hj, rfl⟩
        · rw [World.setClient_other _ _ hj, World.setClient_keys]
          have := World.write_apart (w.setClient j { w.clients j with watching := false }) (some j)
            (w.clients j).newValue (i := i) (by rw [World.setClient_other _ _ hj]; exact h.key) hjk
          rwa [World.setClient_other _ _ hj, World.setClient_keys] at this
    · exact ⟨World.setClient_other _ _ hj, rfl⟩
    · exact ⟨rfl, rfl⟩
  | set k' v =>
    have hk : k' ≠ st.fullKey k := by simpa [Label.writesKey] using hw
    exact World.write_apart _ _ _ h.key hk
  | incr k' d =>
    have hk : k' ≠ st.fullKey k := by simpa [Label.writesKey] using hw
    simp only [World.step]
    split
    · exact World.write_apart _ _ _ h.key hk
    · exact ⟨rfl, rfl⟩

/-- **A command of client `i`** keeps the invariant and moves the call one stage on,
until it has returned. -/
theorem step_own (h : AloneInv st k o n ks0 i w) (p : Pipeline) :
    AloneInv st k o n ks0 i (w.step p (.client i)) ∧
      min 4 ((w.clients i).pc.stage + 1) ≤ ((w.step p (.client i)).clients i).pc.stage := by
  have he := h.expected
  have hc : (w.clients i).call = _ := h.call
  simp only [Client.call, Prod.mk.injEq] at hc
  obtain ⟨hkey, hold, hnew⟩ := hc
  unfold Expected at he
  cases hpc : (w.clients i).pc with
  | watch =>
    rw [hpc] at he
    refine ⟨h.of_call (World.step_call p w _) ?_, ?_⟩ <;>
      simp [World.step, clientStep, hpc, Expected, UpdatePc.stage, he]
  | get =>
    rw [hpc] at he
    obtain ⟨hw, hd, hv⟩ := he
    refine ⟨h.of_call (World.step_call p w _) ?_, ?_⟩ <;>
    · simp only [World.step, clientStep, hpc, hkey, ← hv]
      rcases hks : ks0 (st.fullKey k) with _ | v
      · simp [Expected, UpdatePc.stage, RedisStateStore.update, RedisStateStore.write, errOf, hks, hv]
      · by_cases hvo : v = o
        · simp [Expected, UpdatePc.stage, hks, hvo, hold, hw, hd, hv]
        · simp [Expected, UpdatePc.stage, RedisStateStore.update, RedisStateStore.write, errOf, hks, hvo,
            hold, hv]
  | set =>
    rw [hpc] at he
    obtain ⟨hw, hd, hv, hks⟩ := he
    refine ⟨h.of_call (World.step_call p w _) ?_, ?_⟩ <;>
    · cases p <;>
        simp [World.step, clientStep, hpc, hkey, hnew, hd, Expected, UpdatePc.stage, World.write_clients,
          RedisStateStore.update, RedisStateStore.write, errOf, hks]
  | unwatch r =>
    rw [hpc] at he
    refine ⟨h.of_call (World.step_call p w _) ?_, ?_⟩ <;>
      simp [World.step, clientStep, hpc, Expected, UpdatePc.stage, he]
  | done r =>
    have hw : w.step p (.client i) = w := by simp [World.step, clientStep, hpc]
    rw [hw, hpc]
    exact ⟨h, le_refl _⟩

/-- **Over a whole interleaving** in which no other connection writes key `k`, the
invariant holds, and the call has moved on one stage for each of its commands, until it
returned. -/
theorem run (p : Pipeline) :
    ∀ (ls : List Label) {w : World}, AloneInv st k o n ks0 i w →
      (∀ l ∈ ls, l.writesKey (st.fullKey k) = false) →
      AloneInv st k o n ks0 i (w.run p ls) ∧
        min 4 ((w.clients i).pc.stage + ls.count (.client i)) ≤ ((w.run p ls).clients i).pc.stage
  | [], _, h, _ => ⟨h, Nat.min_le_right _ _⟩
  | l :: ls, w, h, hls => by
    have hrest := fun l hl => hls l (List.mem_cons_of_mem _ hl)
    rw [World.run_cons, List.count_cons]
    by_cases hl : l = .client i
    · subst hl
      obtain ⟨h₁, hs₁⟩ := h.step_own p
      obtain ⟨h₂, hs₂⟩ := run p ls h₁ hrest
      refine ⟨h₂, ?_⟩
      simp only [beq_self_eq_true, if_true]
      omega
    · obtain ⟨hc, hk⟩ := h.step_other p hl (hls l (List.mem_cons_self _ _))
      have h₁ : AloneInv st k o n ks0 i (w.step p l) :=
        h.of_call (World.step_call p w l) (by rw [hc, hk]; exact h.expected)
      obtain ⟨h₂, hs₂⟩ := run p ls h₁ hrest
      refine ⟨h₂, ?_⟩
      rw [if_neg (by simpa using hl), Nat.add_zero]
      rwa [hc] at hs₂

/-- A call that has sent four commands has returned what `update` returns from `ks0`. -/
theorem returned (h : AloneInv st k o n ks0 i w) (hs : 4 ≤ (w.clients i).pc.stage) :
    (w.clients i).pc = .done (errOf (st.update ks0 k o n)) ∧
      w.keys (st.fullKey k) = st.write ks0 (.update k o n) (st.fullKey k) := by
  have he := h.expected
  unfold Expected at he
  cases hpc : (w.clients i).pc with
  | done r =>
    rw [hpc] at he
    exact ⟨congrArg UpdatePc.done he.1, he.2⟩
  | _ => rw [hpc] at hs; simp [UpdatePc.stage] at hs

end AloneInv

/-- **An `Update` on a key of its own is atomic.** Client `i` calls
`Update(key, o, n)` through handle `st`, no other client's call has the same full key,
and no other connection writes it. Then in every interleaving, with either pipeline,
once client `i` has sent four commands its call has returned what the sequential
`RedisStateStore.update` returns on the keyspace it started from, and its key holds
what that update leaves there, whatever the other clients and connections did
meanwhile. -/
theorem update_atomic (p : Pipeline) (st : RedisStateStore) {w : World} {i : Nat} {key o n : Bytes}
    (hc : w.clients i = Client.fresh (st.fullKey key) o n)
    (hapart : ∀ j, j ≠ i → (w.clients j).key ≠ st.fullKey key) (ls : List Label)
    (hls : ∀ l ∈ ls, l.writesKey (st.fullKey key) = false) (h4 : 4 ≤ ls.count (.client i)) :
    ((w.run p ls).clients i).pc = .done (errOf (st.update w.keys key o n)) ∧
      (w.run p ls).keys (st.fullKey key) = st.write w.keys (.update key o n) (st.fullKey key) := by
  have h0 : AloneInv st key o n w.keys i w :=
    ⟨by rw [hc]; rfl, hapart, by rw [hc]; exact ⟨rfl, rfl⟩⟩
  obtain ⟨h, hs⟩ := h0.run p ls hls
  rw [hc, show (Client.fresh (st.fullKey key) o n).pc.stage = 0 from rfl] at hs
  exact h.returned (by omega)

/-- Two requests' `Update` calls on their own keys `core.flow.r1.node` and
`core.flow.r2.node`, while only the first key exists. -/
def apartUpdates : World :=
  let ka := (RedisStateStore.configure (lit "flow") (lit "r1")).fullKey (lit "node")
  let kb := (RedisStateStore.configure (lit "flow") (lit "r2")).fullKey (lit "node")
  ⟨fun k' => if k' = ka then some (lit "v") else none,
    fun j => if j = 0 then Client.fresh ka (lit "v") (lit "w1") else Client.fresh kb (lit "v") (lit "w2"), []⟩

/-- The two calls alternate command by command, with a `SET` and an `INCRBY` of other
connections on the second key in between. -/
def apartInterleaving : List Label :=
  [.client 0, .client 1, .set ((RedisStateStore.configure (lit "flow") (lit "r2")).fullKey (lit "node")) (lit "7"),
    .client 0, .client 1, .client 0,
    .incr ((RedisStateStore.configure (lit "flow") (lit "r2")).fullKey (lit "node")) 1,
    .client 1, .client 0, .client 1]

theorem update_atomic_apartUpdates :
    apartUpdates.clients 0 =
        Client.fresh ((RedisStateStore.configure (lit "flow") (lit "r1")).fullKey (lit "node")) (lit "v") (lit "w1") ∧
      (∀ j, j ≠ 0 → (apartUpdates.clients j).key ≠
        (RedisStateStore.configure (lit "flow") (lit "r1")).fullKey (lit "node")) ∧
      (∀ l ∈ apartInterleaving,
        l.writesKey ((RedisStateStore.configure (lit "flow") (lit "r1")).fullKey (lit "node")) = false) ∧
      4 ≤ apartInterleaving.count (.client 0) ∧
      ((apartUpdates.run .pipelined apartInterleaving).clients 0).pc =
        .done (errOf ((RedisStateStore.configure (lit "flow") (lit "r1")).update apartUpdates.keys
          (lit "node") (lit "v") (lit "w1"))) ∧
      (apartUpdates.run .pipelined apartInterleaving).keys
          ((RedisStateStore.configure (lit "flow") (lit "r1")).fullKey (lit "node")) =
        (RedisStateStore.configure (lit "flow") (lit "r1")).write apartUpdates.keys
          (.update (lit "node") (lit "v") (lit "w1"))
          ((RedisStateStore.configure (lit "flow") (lit "r1")).fullKey (lit "node")) := by
  have hc : apartUpdates.clients 0 =
      Client.fresh ((RedisStateStore.configure (lit "flow") (lit "r1")).fullKey (lit "node")) (lit "v") (lit "w1") :=
    rfl
  have hapart : ∀ j, j ≠ 0 → (apartUpdates.clients j).key ≠
      (RedisStateStore.configure (lit "flow") (lit "r1")).fullKey (lit "node") := fun j hj => by
    simp only [apartUpdates, if_neg hj, Client.fresh]
    decide
  have hls : ∀ l ∈ apartInterleaving,
      l.writesKey ((RedisStateStore.configure (lit "flow") (lit "r1")).fullKey (lit "node")) = false := by
    decide
  exact ⟨hc, hapart, hls, by decide, update_atomic .pipelined _ hc hapart apartInterleaving hls (by decide)⟩

end Goflow
