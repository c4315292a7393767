import Goflow.Store.Redis

/-!
# Counters kept by `Incr`

`Incr(key, value)` is `INCRBY` on the key's full name: the value is read with `string2ll`
(a missing key counts as `0`), the delta added, and the sum written back with `ll2string`.
The handles of all requests write one keyspace, one command after another.

* `incr_counter`: over every sequence of writes of state-store handles, from a keyspace where
  a key is missing, in which only `Incr` writes that key, the key holds a 64-bit count in
  decimal, and the next `Incr` on it returns the count plus its delta, failing only when the
  delta or the sum leaves `int64`: never with `ERR value is not an integer`.
-/

namespace Goflow

/-- Key `k` counts `t`: missing while `t = 0`, or holding `t` in decimal. -/
def Counts (ks : Keyspace) (k : Bytes) (t : Int) : Prop :=
  InInt64 t ∧ (ks k = none ∧ t = 0 ∨ ks k = some (ll2string t))

theorem Counts.congr {ks ks' : Keyspace} {k : Bytes} {t : Int} (h : Counts ks k t)
    (he : ks' k = ks k) : Counts ks' k t := by
  unfold Counts
  rw [he]
  exact h

/-- **`INCRBY` in closed form on a counting key.** -/
theorem incrBy_of_counts {ks : Keyspace} {k : Bytes} {t : Int} (h : Counts ks k t) (d : Int) :
    incrBy ks k d =
      if ¬ InInt64 d then .error (lit "ERR value is not an integer or out of range")
      else if ¬ InInt64 (t + d) then .error (lit "ERR increment or decrement would overflow")
      else .ok (ks.set k (ll2string (t + d)), t + d) := by
  obtain ⟨ht, ⟨hk, rfl⟩ | hk⟩ := h
  · simp only [incrBy, hk]
  · simp only [incrBy, hk, string2ll_ll2string ht]

theorem counts_set {ks : Keyspace} {k : Bytes} {t : Int} (ht : InInt64 t) :
    Counts (ks.set k (ll2string t)) k t :=
  ⟨ht, .inr (Keyspace.set_same _ _ _)⟩

/-- The keyspace after writes of state-store handles, one after another. -/
def writeAll (ks : Keyspace) (ws : List (RedisStateStore × RedisStateStore.Write)) : Keyspace :=
  ws.foldl (fun ks p => p.1.write ks p.2) ks

/-- A write that is an `Incr` whenever it addresses `k`. -/
def IncrOnly (k : Bytes) (p : RedisStateStore × RedisStateStore.Write) : Prop :=
  p.1.fullKey p.2.key = k → ∃ d, p.2 = .incr p.2.key d

/-- An `Incr` on a counting key leaves it counting. -/
theorem write_incr_counts {ks : Keyspace} {st : RedisStateStore} {key : Bytes} {t : Int}
    (h : Counts ks (st.fullKey key) t) (d : Int) :
    ∃ t', Counts (st.write ks (.incr key d)) (st.fullKey key) t' := by
  cases hi : st.incr ks key d with
  | error => simp only [RedisStateStore.write, hi]; exact ⟨t, h⟩
  | ok r =>
    simp only [RedisStateStore.write, hi]
    rw [RedisStateStore.incr, incrBy_of_counts h d] at hi
    split_ifs at hi with h1 h2
    cases hi
    exact ⟨t + d, counts_set h2⟩

/-- **One write keeps a key counting** when it is an `Incr` if it addresses the key. -/
theorem write_counts {ks : Keyspace} {k : Bytes} {t : Int} (h : Counts ks k t)
    {p : RedisStateStore × RedisStateStore.Write} (hp : IncrOnly k p) : ∃ t', Counts (p.1.write ks p.2) k t' := by
  obtain ⟨st, w⟩ := p
  by_cases hk : k = st.fullKey w.key
  · obtain ⟨d, hd⟩ := hp hk.symm
    cases w with
    | set => cases hd
    | update => cases hd
    | incr key d' =>
      simp only [RedisStateStore.Write.key] at hk
      subst hk
      exact write_incr_counts h d'
  · exact ⟨t, h.congr (RedisStateStore.write_frame st ks w hk)⟩

theorem writeAll_counts {k : Bytes} :
    ∀ (ws : List (RedisStateStore × RedisStateStore.Write)) {ks : Keyspace} {t : Int}, Counts ks k t →
      (∀ p ∈ ws, IncrOnly k p) → ∃ t', Counts (writeAll ks ws) k t'
  | [], _, t, h, _ => ⟨t, h⟩
  | p :: ws, _, _, h, hw =>
    have ⟨_, h'⟩ := write_counts h (hw p (List.mem_cons_self _ _))
    writeAll_counts ws h' fun q hq => hw q (List.mem_cons_of_mem _ hq)

/-- **A key that only `Incr` writes is a counter.** From a keyspace where the key of handle
`st` is missing, after any writes of any state-store handles that write that key only with
`Incr`, the key holds a 64-bit count `t` in decimal, and the next `Incr` of `d` on it returns
`t + d`, or fails only because `d` or `t + d` is not an `int64`. -/
theorem incr_counter (st : RedisStateStore) (key : Bytes) (ws : List (RedisStateStore × RedisStateStore.Write))
    (ks : Keyspace) (hk : ks (st.fullKey key) = none) (honly : ∀ p ∈ ws, IncrOnly (st.fullKey key) p) :
    ∃ t, Counts (writeAll ks ws) (st.fullKey key) t ∧ ∀ d,
      st.incr (writeAll ks ws) key d =
        if ¬ InInt64 d then .error (lit "ERR value is not an integer or out of range")
        else if ¬ InInt64 (t + d) then .error (lit "ERR increment or decrement would overflow")
        else .ok ((writeAll ks ws).set (st.fullKey key) (ll2string (t + d)), t + d) := by
  obtain ⟨t, ht⟩ := writeAll_counts ws ⟨by decide, .inl ⟨hk, rfl⟩⟩ honly
  exact ⟨t, ht, incrBy_of_counts ht⟩

/-- Two requests' handles: the first increments its counter `n` twice, by 2 and by `-5`,
while the second sets a key of its own. -/
def counterWrites : List (RedisStateStore × RedisStateStore.Write) :=
  [(RedisStateStore.configure (lit "f") (lit "r1"), .incr (lit "n") 2),
    (RedisStateStore.configure (lit "f") (lit "r2"), .set (lit "n") (lit "x")),
    (RedisStateStore.configure (lit "f") (lit "r1"), .incr (lit "n") (-5))]

theorem incr_counter_counterWrites :
    (fun _ => none : Keyspace) ((RedisStateStore.configure (lit "f") (lit "r1")).fullKey (lit "n")) = none ∧
      (∀ p ∈ counterWrites, IncrOnly ((RedisStateStore.configure (lit "f") (lit "r1")).fullKey (lit "n")) p) ∧
      ∃ t, Counts (writeAll (fun _ => none) counterWrites)
          ((RedisStateStore.configure (lit "f") (lit "r1")).fullKey (lit "n")) t ∧ ∀ d,
        (RedisStateStore.configure (lit "f") (lit "r1")).incr (writeAll (fun _ => none) counterWrites) (lit "n") d =
          if ¬ InInt64 d then .error (lit "ERR value is not an integer or out of range")
          else if ¬ InInt64 (t + d) then .error (lit "ERR increment or decrement would overflow")
          else .ok ((writeAll (fun _ => none) counterWrites).set
            ((RedisStateStore.configure (lit "f") (lit "r1")).fullKey (lit "n")) (ll2string (t + d)), t + d) := by
  have honly : ∀ p ∈ counterWrites,
      IncrOnly ((RedisStateStore.configure (lit "f") (lit "r1")).fullKey (lit "n")) p := by
    intro p hp
    simp only [counterWrites, List.mem_cons, List.mem_singleton, List.not_mem_nil, or_false] at hp
    rcases hp with rfl | rfl | rfl
    · exact fun _ => ⟨2, rfl⟩
    · exact fun h => absurd h (by decide)
    · exact fun _ => ⟨-5, rfl⟩
  exact ⟨rfl, honly, incr_counter _ _ counterWrites _ rfl honly⟩

example : writeAll (fun _ => none) counterWrites
    ((RedisStateStore.configure (lit "f") (lit "r1")).fullKey (lit "n")) = some (lit "-3") := by
  decide

end Goflow
