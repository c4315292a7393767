import Goflow.Store.Redis

/-!
# `Update` among concurrent clients

`RedisStateStore.Update` runs go-redis's optimistic transaction: `Client.Watch` takes a
connection of its own, sends `WATCH key`, runs the callback and sends `UNWATCH` when it
returns. The callback `GET`s the key, compares it with `oldValue` and sends
`SET key newValue` through `tx.Pipelined`.

The server runs one command at a time. A write to a key marks every connection that
watches it (`CLIENT_DIRTY_CAS`); `EXEC` clears the watch first and refuses to run its
queue on a marked connection; `UNWATCH` clears the watch and the mark. `Tx.Pipelined`
sends the queued commands as they are and `Tx.TxPipelined` wraps them in `MULTI`/`EXEC`,
so only the latter lets the watch guard the write.

A world is the keyspace, the `Update` each client runs (its connection's watch state and
the command it sends next) and a ghost log of the writes. An interleaving is a list of
labels: one command of a client, or a `SET`/`INCRBY` from a connection that watches
nothing.

* `step_wroteInv`: every step keeps `WroteInv`, a client having written exactly when its
  `Update` has committed; `Redis/Interference.lean` carries it over whole interleavings.
* `update_lost_write`: two `Update(key, v, ·)` calls whose `GET`s interleave both return
  `nil`, and the second overwrites the first.
-/

namespace Goflow

/-- The two pipelines of a go-redis `Tx`. -/
inductive Pipeline where
  /-- `Tx.Pipelined`: the queued commands are sent as they are. -/
  | pipelined
  /-- `Tx.TxPipelined`: the queued commands are wrapped in `MULTI`/`EXEC`. -/
  | txPipelined
  deriving DecidableEq, Repr

/-- The command a client's `Update` sends next, or the `error` it returned (`none` is
`nil`). -/
inductive UpdatePc where
  | watch
  | get
  | set
  | unwatch (r : Option Bytes)
  | done (r : Option Bytes)
  deriving DecidableEq, Repr

/-- The call returned `nil`, or its callback did and only `UNWATCH` is left. -/
def UpdatePc.committed : UpdatePc → Bool
  | .unwatch none | .done none => true
  | _ => false

/-- A client running `Update` on the full key `key`, with its connection's watch state.
`readAt` (ghost) is the number of logged writes when its `GET` ran. -/
structure Client where
  key : Bytes
  oldValue : Bytes
  newValue : Bytes
  watching : Bool
  dirty : Bool
  pc : UpdatePc
  readAt : Nat
  deriving DecidableEq, Repr

/-- A client about to call `Update` on the full key `key`. -/
def Client.fresh (key oldValue newValue : Bytes) : Client :=
  ⟨key, oldValue, newValue, false, false, .watch, 0⟩

/-- A logged write: the client whose transaction wrote (`none`: another connection), the
key, the value it replaced and the value it wrote. -/
structure WriteEntry where
  writer : Option Nat
  key : Bytes
  before : Option Bytes
  after : Bytes
  deriving DecidableEq, Repr

/-- The server's keyspace, the clients, and the ghost log of writes. -/
structure World where
  keys : Keyspace
  clients : Nat → Client
  log : List WriteEntry

namespace World

/-- A write of `v` to `k`: every connection watching `k` is marked, and the write logged. -/
def write (w : World) (writer : Option Nat) (k v : Bytes) : World where
  keys := w.keys.set k v
  clients := fun i =>
    if (w.clients i).watching ∧ (w.clients i).key = k then { w.clients i with dirty := true }
    else w.clients i
  log := w.log ++ [⟨writer, k, w.keys k, v⟩]

/-- Client `i` replaced. -/
def setClient (w : World) (i : Nat) (c : Client) : World :=
  { w with clients := fun j => if j = i then c else w.clients j }

@[simp] theorem write_keys (w : World) (o : Option Nat) (k v : Bytes) :
    (w.write o k v).keys = w.keys.set k v := rfl

@[simp] theorem write_log (w : World) (o : Option Nat) (k v : Bytes) :
    (w.write o k v).log = w.log ++ [⟨o, k, w.keys k, v⟩] := rfl

@[simp] theorem write_pc (w : World) (o : Option Nat) (k v : Bytes) (i : Nat) :
    ((w.write o k v).clients i).pc = (w.clients i).pc := by
  simp only [write]; split <;> rfl

@[simp] theorem setClient_keys (w : World) (i : Nat) (c : Client) :
    (w.setClient i c).keys = w.keys := rfl

@[simp] theorem setClient_log (w : World) (i : Nat) (c : Client) :
    (w.setClient i c).log = w.log := rfl

@[simp] theorem setClient_same (w : World) (i : Nat) (c : Client) :
    (w.setClient i c).clients i = c := by simp [setClient]

@[simp] theorem setClient_other (w : World) {i j : Nat} (c : Client) (h : j ≠ i) :
    (w.setClient i c).clients j = w.clients j := by simp [setClient, h]

end World

/-- A step of an interleaving. -/
inductive Label where
  /-- Client `i` sends its next command. -/
  | client (i : Nat)
  /-- Another connection sends `SET k v`. -/
  | set (k v : Bytes)
  /-- Another connection sends `INCRBY k d`. -/
  | incr (k : Bytes) (d : Int)
  deriving DecidableEq, Repr

/-- The `EXEC` of `Tx.TxPipelined` on a marked connection. -/
def txFailedErr : Bytes := lit "redis: transaction failed"

/-- One command of client `i`'s `Update`, with the callback's pipeline `p`. -/
def clientStep (p : Pipeline) (w : World) (i : Nat) : World :=
  let c := w.clients i
  match c.pc with
  | .watch => w.setClient i { c with watching := true, pc := .get }
  | .get =>
    match w.keys c.key with
    | none => w.setClient i { c with pc := .unwatch (some (lit "[" ++ c.key ++ lit "] not exist")) }
    | some v =>
      if v ≠ c.oldValue then
        w.setClient i { c with pc := .unwatch (some (lit "Old value doesn't match for key " ++ c.key)) }
      else w.setClient i { c with pc := .set, readAt := w.log.length }
  | .set =>
    match p with
    | .pipelined =>
      let w' := w.write (some i) c.key c.newValue
      w'.setClient i { w'.clients i with pc := .unwatch none }
    | .txPipelined =>
      if c.dirty then
        w.setClient i { c with watching := false, dirty := false, pc := .unwatch (some txFailedErr) }
      else
        let w' := (w.setClient i { c with watching := false }).write (some i) c.key c.newValue
        w'.setClient i { w'.clients i with pc := .unwatch none }
  | .unwatch r => w.setClient i { c with watching := false, dirty := false, pc := .done r }
  | .done _ => w

/-- One step of an interleaving. -/
def World.step (p : Pipeline) (w : World) : Label → World
  | .client i => clientStep p w i
  | .set k v => w.write none k v
  | .incr k d =>
    match incrBy w.keys k d with
    | .ok (_, n) => w.write none k (ll2string n)
    | .error _ => w

/-- The world after an interleaving. -/
def World.run (p : Pipeline) (w : World) (ls : List Label) : World := ls.foldl (World.step p) w

@[simp] theorem World.run_nil (p : Pipeline) (w : World) : w.run p [] = w := rfl

@[simp] theorem World.run_cons (p : Pipeline) (w : World) (l : Label) (ls : List Label) :
    w.run p (l :: ls) = (w.step p l).run p ls := rfl

/-- What one command of client `i` can do: it leaves the other clients' calls where they
are, and either keeps the log and whether `i` has committed, or commits `i` from `.set`
with one logged write by `i`. -/
def StepSpec (w w' : World) (i : Nat) : Prop :=
  (∀ j, j ≠ i → (w'.clients j).pc = (w.clients j).pc) ∧
  ((w'.log = w.log ∧ (w'.clients i).pc.committed = (w.clients i).pc.committed) ∨
    ((w.clients i).pc = .set ∧ (w'.clients i).pc = .unwatch none ∧
      ∃ e : WriteEntry, e.writer = some i ∧ w'.log = w.log ++ [e]))

theorem stepSpec_keep {w : World} {i : Nat} (c : Client)
    (hc : c.pc.committed = (w.clients i).pc.committed) : StepSpec w (w.setClient i c) i :=
  ⟨fun j hj => by simp [hj], .inl ⟨rfl, by simpa using hc⟩⟩

theorem stepSpec_commit {w w' : World} {i : Nat} (hset : (w.clients i).pc = .set)
    (hj : ∀ j, j ≠ i → (w'.clients j).pc = (w.clients j).pc) {e : WriteEntry}
    (he : e.writer = some i) (hlog : w'.log = w.log ++ [e]) :
    StepSpec w (w'.setClient i { w'.clients i with pc := .unwatch none }) i :=
  ⟨fun j hji => by simp [hji, hj j hji], .inr ⟨hset, by simp, e, he, by simp [hlog]⟩⟩

theorem clientStep_cases (p : Pipeline) (w : World) (i : Nat) : StepSpec w (clientStep p w i) i := by
  cases hpc : (w.clients i).pc with
  | watch =>
    simp only [clientStep, hpc]; refine stepSpec_keep _ ?_; simp [hpc, UpdatePc.committed]
  | get =>
    simp only [clientStep, hpc]
    split
    · refine stepSpec_keep _ ?_; simp [hpc, UpdatePc.committed]
    · split <;> (refine stepSpec_keep _ ?_; simp [hpc, UpdatePc.committed])
  | set =>
    simp only [clientStep, hpc]
    cases p with
    | pipelined => exact stepSpec_commit hpc (fun j _ => World.write_pc _ _ _ _ j) rfl rfl
    | txPipelined =>
      simp only
      split
      · refine stepSpec_keep _ ?_; simp [hpc, UpdatePc.committed]
      · exact stepSpec_commit hpc (fun j hj => by simp [hj]) rfl rfl
  | unwatch r =>
    simp only [clientStep, hpc]; refine stepSpec_keep _ ?_; cases r <;> simp [hpc, UpdatePc.committed]
  | done r => exact ⟨fun _ _ => by simp [clientStep, hpc], .inl ⟨by simp [clientStep, hpc],
      by simp [clientStep, hpc]⟩⟩

/-- Two clients about to run `Update(core.flow.req.node, "v", "w1")` and
`Update(core.flow.req.node, "v", "w2")` while the key holds `v`. -/
def racingUpdates : World :=
  let k := (RedisStateStore.configure (lit "flow") (lit "req")).fullKey (lit "node")
  ⟨fun k' => if k' = k then some (lit "v") else none,
    fun i => Client.fresh k (lit "v") (if i = 0 then lit "w1" else lit "w2"), []⟩

/-- The two calls alternate command by command: both `WATCH`, both `GET`, both `SET`. -/
def alternating : List Label :=
  [.client 0, .client 1, .client 0, .client 1, .client 0, .client 1, .client 0, .client 1]

/-- Every client has a logged write exactly when its `Update` has committed. -/
def World.WroteInv (w : World) : Prop :=
  ∀ i, (∃ e ∈ w.log, e.writer = some i) ↔ (w.clients i).pc.committed = true

/-- A write appended to the log is a write of client `j` when it or an earlier one is. -/
theorem logged_append (log : List WriteEntry) (x : WriteEntry) (j : Nat) :
    (∃ e ∈ log ++ [x], e.writer = some j) ↔ (∃ e ∈ log, e.writer = some j) ∨ x.writer = some j := by
  simp only [List.mem_append, List.mem_singleton, or_and_right, exists_or, exists_eq_left]

/-- A write from a connection that runs no `Update` keeps `WroteInv`. -/
theorem World.write_none_wroteInv {w : World} (h : w.WroteInv) (k v : Bytes) :
    (w.write none k v).WroteInv := fun j => by
  rw [World.write_log, logged_append, World.write_pc, ← h j]
  exact or_iff_left (Option.some_ne_none j).symm

/-- A step of any interleaving keeps `WroteInv`. -/
theorem step_wroteInv (p : Pipeline) {w : World} (h : w.WroteInv) (l : Label) :
    (w.step p l).WroteInv := by
  cases l with
  | client i =>
    obtain ⟨hother, hkeep | ⟨-, hdone, e, he, hlog⟩⟩ := clientStep_cases p w i
    · intro j
      simp only [World.step, hkeep.1]
      by_cases hj : j = i
      · subst hj; rw [hkeep.2]; exact h j
      · rw [hother j hj]; exact h j
    · intro j
      simp only [World.step, hlog, logged_append]
      by_cases hj : j = i
      · subst hj; simp only [hdone, UpdatePc.committed, iff_true]; exact .inr he
      · rw [hother j hj, ← h j, he, Option.some_inj, or_iff_left (Ne.symm hj)]
  | set k v => exact World.write_none_wroteInv h k v
  | incr k d =>
    simp only [World.step]
    split
    · exact World.write_none_wroteInv h _ _
    · exact h

/-- **`Update` is not a compare-and-set.** When the two calls of `racingUpdates` run their
`WATCH` and `GET` before either `SET`, both return `nil`: the second `SET` replaces `w1`,
not `v`, and the first write is lost. -/
theorem update_lost_write :
    ((racingUpdates.run .pipelined alternating).clients 0).pc = .done none ∧
      ((racingUpdates.run .pipelined alternating).clients 1).pc = .done none ∧
      (racingUpdates.run .pipelined alternating).log.map (fun e => (e.writer, e.before, e.after)) =
        [(some 0, some (lit "v"), lit "w1"), (some 1, some (lit "w1"), lit "w2")] := by
  decide

end Goflow
