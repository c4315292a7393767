import Goflow.Redis.Watch

/-!
# What the write of an `Update` replaces

`Update` compares the key's value with `oldValue` at its `GET` and writes at its `SET`. Its
`WATCH` guards that write only when the write is wrapped in `MULTI`/`EXEC`
(`Tx.TxPipelined`); the source sends it as it is (`Tx.Pipelined`). Over every interleaving of
the clients' commands with writes of other connections, from fresh calls and an empty log:

* `update_write_replaces`: every write of an `Update` is to its key and replaced the
  `oldValue` its `GET` compared, unless, with `Tx.Pipelined` only, another write to the key
  was logged between that `GET` and this write. With `Tx.TxPipelined` every write replaced
  `oldValue`, so that `Update` would be a compare-and-set.
-/

namespace Goflow

/-- A write to `k` is logged at a position in `[m, n)`. -/
def WrittenBetween (log : List WriteEntry) (k : Bytes) (m n : Nat) : Prop :=
  ∃ j e, m ≤ j ∧ j < n ∧ log[j]? = some e ∧ e.key = k

namespace WrittenBetween

variable {log : List WriteEntry} {k : Bytes} {m n : Nat}

theorem append (h : WrittenBetween log k m n) (l : List WriteEntry) :
    WrittenBetween (log ++ l) k m n := by
  obtain ⟨j, e, hm, hn, hj, hk⟩ := h
  exact ⟨j, e, hm, hn, by rw [List.getElem?_append_left (List.getElem?_eq_some_iff.1 hj).1, hj], hk⟩

theorem mono (h : WrittenBetween log k m n) {n' : Nat} (hn : n ≤ n') : WrittenBetween log k m n' := by
  obtain ⟨j, e, hm, hj, he, hk⟩ := h
  exact ⟨j, e, hm, Nat.lt_of_lt_of_le hj hn, he, hk⟩

theorem last (e : WriteEntry) (hm : m ≤ log.length) :
    WrittenBetween (log ++ [e]) e.key m (log.length + 1) :=
  ⟨log.length, e, hm, Nat.lt_succ_self _, List.getElem?_concat_length _ _, rfl⟩

end WrittenBetween

/-- What a client satisfies by the command it sends next: its `GET`'s position in the log is
past; between `WATCH` and `SET` it watches its key; at its `SET`, the key holds `oldValue`
while the connection is unmarked, and does unless a write to the key was logged since the
`GET`. -/
def ClientOk (ks : Keyspace) (log : List WriteEntry) (c : Client) : Prop :=
  c.readAt ≤ log.length ∧
  match c.pc with
  | .get => c.watching = true
  | .set => c.watching = true ∧ (c.dirty = false → ks c.key = some c.oldValue) ∧
      (ks c.key = some c.oldValue ∨ WrittenBetween log c.key c.readAt log.length)
  | _ => True

/-- A write `e`, at position `n` of the log, of client `c`'s `Update`: to `c`'s key, and it
replaced `c`'s `oldValue` or, with `Tx.Pipelined`, followed a write to the key logged since
`c`'s `GET`. -/
def EntryOk (p : Pipeline) (log : List WriteEntry) (c : Client) (n : Nat) (e : WriteEntry) : Prop :=
  e.key = c.key ∧ (e.before = some c.oldValue ∨ (p = .pipelined ∧ WrittenBetween log e.key c.readAt n))

/-- The invariant of the clients' writes. -/
structure CasInv (p : Pipeline) (w : World) : Prop where
  /-- A client has written exactly when its `Update` has committed. -/
  wrote : w.WroteInv
  /-- Every client is where `ClientOk` allows. -/
  client : ∀ i, ClientOk w.keys w.log (w.clients i)
  /-- Every logged write of a client is one `EntryOk` allows. -/
  entry : ∀ n e i, w.log[n]? = some e → e.writer = some i → EntryOk p w.log (w.clients i) n e

theorem World.write_clients (w : World) (o : Option Nat) (k v : Bytes) (i : Nat) :
    (w.write o k v).clients i =
      if (w.clients i).watching ∧ (w.clients i).key = k then { w.clients i with dirty := true }
      else w.clients i := rfl

@[simp] theorem World.write_key (w : World) (o : Option Nat) (k v : Bytes) (i : Nat) :
    ((w.write o k v).clients i).key = (w.clients i).key := by
  rw [World.write_clients]; split <;> rfl

@[simp] theorem World.write_oldValue (w : World) (o : Option Nat) (k v : Bytes) (i : Nat) :
    ((w.write o k v).clients i).oldValue = (w.clients i).oldValue := by
  rw [World.write_clients]; split <;> rfl

@[simp] theorem World.write_readAt (w : World) (o : Option Nat) (k v : Bytes) (i : Nat) :
    ((w.write o k v).clients i).readAt = (w.clients i).readAt := by
  rw [World.write_clients]; split <;> rfl

/-- A write marks the clients that watch its key, and keeps every client where it was. -/
theorem ClientOk.write {ks : Keyspace} {log : List WriteEntry} {c : Client}
    (h : ClientOk ks log c) (o : Option Nat) (k v : Bytes) :
    ClientOk (ks.set k v) (log ++ [⟨o, k, ks k, v⟩])
      (if c.watching ∧ c.key = k then { c with dirty := true } else c) := by
  obtain ⟨hread, hpc⟩ := h
  have hread' : c.readAt ≤ (log ++ [(⟨o, k, ks k, v⟩ : WriteEntry)]).length := by
    rw [List.length_append]; exact Nat.le_succ_of_le hread
  by_cases hk : c.key = k
  · have hwb := WrittenBetween.last ⟨o, k, ks k, v⟩ hread
    split_ifs with hw
    · refine ⟨hread', ?_⟩
      cases hpc' : c.pc <;> simp only [hpc'] at hpc ⊢
      · exact hpc
      · exact ⟨hpc.1, nofun, .inr (by rw [hk, List.length_append, List.length_singleton]; exact hwb)⟩
    · refine ⟨hread', ?_⟩
      cases hpc' : c.pc <;> simp only [hpc'] at hpc ⊢
      · exact absurd ⟨hpc, hk⟩ hw
      · exact absurd ⟨hpc.1, hk⟩ hw
  · rw [if_neg fun h => hk h.2]
    refine ⟨hread', ?_⟩
    cases hpc' : c.pc <;> simp only [hpc'] at hpc ⊢
    · exact hpc
    · rw [Keyspace.set_other _ _ hk]
      exact ⟨hpc.1, hpc.2.1, hpc.2.2.imp_right fun h => (h.append _).mono (by simp)⟩

/-- `EntryOk` reads only the client's key, `oldValue` and `GET` position, and the log up to
the write. -/
theorem EntryOk.congr {p : Pipeline} {log : List WriteEntry} {c c' : Client} {n : Nat}
    {e : WriteEntry} (h : EntryOk p log c n e) (hk : c'.key = c.key) (ho : c'.oldValue = c.oldValue)
    (hr : c'.readAt = c.readAt) (l : List WriteEntry) : EntryOk p (log ++ l) c' n e := by
  obtain ⟨hkey, hb⟩ := h
  exact ⟨hkey.trans hk.symm, by rw [ho, hr]; exact hb.imp_right fun h => ⟨h.1, h.2.append l⟩⟩

/-- A logged write of a client that has not committed does not exist. -/
theorem CasInv.not_written {p : Pipeline} {w : World} (h : CasInv p w) {i : Nat}
    (hi : (w.clients i).pc.committed = false) (e : WriteEntry) (he : e ∈ w.log) : e.writer ≠ some i :=
  fun hw => by
    have := (h.wrote i).1 ⟨e, he, hw⟩
    rw [hi] at this
    cases this

namespace CasInv

variable {p : Pipeline} {w : World}

/-- Client `i` moved to `c`, with the same key and `oldValue`, and the same `GET` position
unless it has written nothing. -/
theorem setClient (h : CasInv p w) {i : Nat} {c : Client} (hw : (w.setClient i c).WroteInv)
    (hc : ClientOk w.keys w.log c) (hk : c.key = (w.clients i).key)
    (ho : c.oldValue = (w.clients i).oldValue)
    (hr : c.readAt = (w.clients i).readAt ∨ ∀ e ∈ w.log, e.writer ≠ some i) :
    CasInv p (w.setClient i c) := by
  refine ⟨hw, fun j => ?_, fun n e j hn hj => ?_⟩
  · by_cases hji : j = i
    · subst hji; simpa using hc
    · simpa [hji] using h.client j
  · by_cases hji : j = i
    · subst hji
      rcases hr with hr | hr
      · simpa using (h.entry n e j hn hj).congr hk ho hr []
      · exact absurd hj (hr e (List.getElem?_mem hn))
    · simpa [hji] using (h.entry n e j hn hj).congr rfl rfl rfl []

/-- A write of another connection. -/
theorem write_none (h : CasInv p w) (k v : Bytes) : CasInv p (w.write none k v) := by
  refine ⟨World.write_none_wroteInv h.wrote k v, fun j => (h.client j).write _ _ _,
    fun n e j hn hj => ?_⟩
  rw [World.write_log] at hn
  rcases getElem?_concat_eq_some.1 hn with hn | ⟨-, rfl⟩
  · rw [World.write_log, World.write_clients]
    split_ifs <;> exact (h.entry n e j hn hj).congr rfl rfl rfl _
  · cases hj

/-- **The write of client `i`'s `Update`**: a world `w'` that is `w` after client `i`'s
write of its key and its move to `UNWATCH`, where every other client watching the key is
marked. The write is one `EntryOk` allows when it replaced `oldValue` or, with
`Tx.Pipelined`, followed a write to the key logged since the `GET`. -/
theorem commit (h : CasInv p w) {i : Nat} {w' : World} (hw : w'.WroteInv)
    (hks : w'.keys = w.keys.set (w.clients i).key (w.clients i).newValue)
    (hlog : w'.log = w.log ++
      [⟨some i, (w.clients i).key, w.keys (w.clients i).key, (w.clients i).newValue⟩])
    (hother : ∀ j, j ≠ i → w'.clients j =
      if (w.clients j).watching ∧ (w.clients j).key = (w.clients i).key then
        { w.clients j with dirty := true } else w.clients j)
    (hpc : (w'.clients i).pc = .unwatch none) (hk : (w'.clients i).key = (w.clients i).key)
    (ho : (w'.clients i).oldValue = (w.clients i).oldValue)
    (hr : (w'.clients i).readAt = (w.clients i).readAt)
    (hbefore : w.keys (w.clients i).key = some (w.clients i).oldValue ∨
      (p = .pipelined ∧ WrittenBetween w.log (w.clients i).key (w.clients i).readAt w.log.length)) :
    CasInv p w' := by
  -- every client keeps its key, `oldValue` and `GET` position
  have hsame : ∀ j, (w'.clients j).key = (w.clients j).key ∧
      (w'.clients j).oldValue = (w.clients j).oldValue ∧ (w'.clients j).readAt = (w.clients j).readAt := by
    intro j
    by_cases hji : j = i
    · subst hji; exact ⟨hk, ho, hr⟩
    · rw [hother j hji]; split <;> exact ⟨rfl, rfl, rfl⟩
  refine ⟨hw, fun j => ?_, fun n e j hn hj => ?_⟩
  · by_cases hji : j = i
    · subst hji
      refine ⟨?_, by rw [hpc]; trivial⟩
      rw [hlog, hr, List.length_append]
      exact Nat.le_succ_of_le (h.client j).1
    · rw [hks, hlog, hother j hji]
      exact (h.client j).write _ _ _
  · rw [hlog] at hn ⊢
    rcases getElem?_concat_eq_some.1 hn with hn | ⟨rfl, rfl⟩
    · exact (h.entry n e j hn hj).congr (hsame j).1 (hsame j).2.1 (hsame j).2.2 _
    · cases hj
      refine ⟨(hsame i).1.symm, ?_⟩
      rw [(hsame i).2.1, (hsame i).2.2]
      exact hbefore.imp_right fun h => ⟨h.1, h.2.append _⟩

/-- **One command of client `i`'s `Update`.** -/
theorem clientStep (h : CasInv p w) (i : Nat) : CasInv p (clientStep p w i) := by
  have hw : (Goflow.clientStep p w i).WroteInv := step_wroteInv p h.wrote (.client i)
  revert hw
  obtain ⟨hread, hpcok⟩ := h.client i
  have hfresh : (w.clients i).pc.committed = false → ∀ e ∈ w.log, e.writer ≠ some i :=
    fun hc => h.not_written hc
  unfold Goflow.clientStep
  dsimp only
  split
  · rename_i hpc
    intro hw
    exact h.setClient hw (by unfold ClientOk; exact ⟨hread, rfl⟩) rfl rfl (.inl rfl)
  · rename_i hpc
    have hwatch : (w.clients i).watching = true := by rw [hpc] at hpcok; exact hpcok
    split
    · intro hw
      exact h.setClient hw (by unfold ClientOk; exact ⟨hread, trivial⟩) rfl rfl (.inl rfl)
    · rename_i v hv
      split_ifs with hne
      · intro hw
        exact h.setClient hw (by unfold ClientOk; exact ⟨hread, trivial⟩) rfl rfl (.inl rfl)
      · intro hw
        have hval : w.keys (w.clients i).key = some (w.clients i).oldValue := by
          rw [hv, not_not.1 hne]
        refine h.setClient hw ?_ rfl rfl (.inr (hfresh (by rw [hpc]; rfl)))
        unfold ClientOk
        exact ⟨le_refl _, hwatch, fun _ => hval, .inl hval⟩
  · rename_i hpc
    rw [hpc] at hpcok
    cases p with
    | pipelined =>
      intro hw
      exact h.commit hw rfl rfl (fun j hj => by simp [hj, World.write_clients]) (by simp) (by simp)
        (by simp) (by simp) (hpcok.2.2.imp_right fun h => ⟨rfl, h⟩)
    | txPipelined =>
      dsimp only
      split
      · intro hw
        exact h.setClient hw (by unfold ClientOk; exact ⟨hread, trivial⟩) rfl rfl (.inl rfl)
      · rename_i hclean
        intro hw
        exact h.commit hw rfl rfl (fun j hj => by simp [hj, World.write_clients]) (by simp) (by simp)
          (by simp) (by simp) (.inl (hpcok.2.1 (by simpa using hclean)))
  · intro hw
    exact h.setClient hw (by unfold ClientOk; exact ⟨hread, trivial⟩) rfl rfl (.inl rfl)
  · intro _
    exact h

/-- **One step of an interleaving.** -/
theorem step (h : CasInv p w) (l : Label) : CasInv p (w.step p l) := by
  cases l with
  | client i => exact h.clientStep i
  | set k v => exact h.write_none k v
  | incr k d =>
    simp only [World.step]
    split
    · exact h.write_none _ _
    · exact h

/-- Fresh calls and an empty log. -/
theorem init (hlog : w.log = []) (hfresh : ∀ i, (w.clients i).pc = .watch ∧ (w.clients i).readAt = 0) :
    CasInv p w where
  wrote i := by simp [hlog, (hfresh i).1, UpdatePc.committed]
  client i := by unfold ClientOk; rw [(hfresh i).1, (hfresh i).2, hlog]; exact ⟨le_refl _, trivial⟩
  entry n e i hn := by simp [hlog] at hn

theorem run : ∀ (ls : List Label) {w : World}, CasInv p w → CasInv p (w.run p ls)
  | [], _, h => h
  | l :: ls, _, h => run ls (h.step l)

end CasInv

/-- **What the write of an `Update` replaced.** From fresh calls and an empty log, over every
interleaving of the clients' commands with `SET`s and `INCRBY`s of other connections, every
logged write of client `i` is to its key, and the value it replaced is the `oldValue` its `GET`
compared, unless the `Update` sends its write with `Tx.Pipelined`, as the source does, and
another write to the key was logged after that `GET` (at position `readAt`) and before this
write. With `Tx.TxPipelined` every write replaced `oldValue`. -/
theorem update_write_replaces (p : Pipeline) {w : World} (hlog : w.log = [])
    (hfresh : ∀ i, (w.clients i).pc = .watch ∧ (w.clients i).readAt = 0) (ls : List Label)
    (n : Nat) (e : WriteEntry) (i : Nat) (hn : (w.run p ls).log[n]? = some e) (hi : e.writer = some i) :
    e.key = ((w.run p ls).clients i).key ∧
      (e.before = some ((w.run p ls).clients i).oldValue ∨
        (p = .pipelined ∧ WrittenBetween (w.run p ls).log e.key ((w.run p ls).clients i).readAt n)) :=
  ((CasInv.init hlog hfresh).run ls).entry n e i hn hi

/-- The second write of `update_lost_write`: client 1 replaced `w1`, client 0's value. -/
def lostWrite : WriteEntry :=
  ⟨some 1, (RedisStateStore.configure (lit "flow") (lit "req")).fullKey (lit "node"), some (lit "w1"),
    lit "w2"⟩

theorem update_write_replaces_alternating :
    racingUpdates.log = [] ∧ (∀ i, (racingUpdates.clients i).pc = .watch ∧ (racingUpdates.clients i).readAt = 0) ∧
      (racingUpdates.run .pipelined alternating).log[1]? = some lostWrite ∧ lostWrite.writer = some 1 ∧
      lostWrite.key = ((racingUpdates.run .pipelined alternating).clients 1).key ∧
      (lostWrite.before = some ((racingUpdates.run .pipelined alternating).clients 1).oldValue ∨
        ((.pipelined : Pipeline) = .pipelined ∧ WrittenBetween (racingUpdates.run .pipelined alternating).log
          lostWrite.key ((racingUpdates.run .pipelined alternating).clients 1).readAt 1)) :=
  have hn : (racingUpdates.run .pipelined alternating).log[1]? = some lostWrite := by decide
  ⟨rfl, fun _ => ⟨rfl, rfl⟩, hn, rfl,
    update_write_replaces .pipelined rfl (fun _ => ⟨rfl, rfl⟩) alternating 1 lostWrite 1 hn rfl⟩

end Goflow
