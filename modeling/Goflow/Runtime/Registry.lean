import Goflow.Basic
import Mathlib.Data.List.Nodup

/-!
# The flow registry and the rmq connection

`FlowMap` is a Go map keyed by flow name: the `flows` argument of `Register`, which Go
iterates in an unspecified order, and the runtime's `Flows`, a `haxmap.Map` iterated in hash
order. The model lists a map in one iteration order: the argument's as given, so a theorem
over every argument holds for every order, and for `Flows` the order in which the names
were first set. What is proved about `Flows` is membership, counts and links, which do not
depend on that order.

`Conn` is the runtime's rmq connection as `initializeTaskQueues` and `cleanTaskQueues`
use it: the queue handles `OpenQueue` returned, each with the queue `SetPushQueue` linked
it to, whether `StartConsuming` started its prefetcher, and how many consumers
`AddConsumer` added. Every rmq call can fail for reasons outside the runtime (Redis, a
stopped connection): the environment `Faults` answers the `n`-th call of the connection.
-/

namespace Goflow

/-- A Go map keyed by flow name, in iteration order; the names are distinct. -/
structure FlowMap (α : Type) where
  entries : List (Bytes × α)
  nodup : (entries.map Prod.fst).Nodup

namespace FlowMap

variable {α : Type}

/-- The empty map. -/
def empty : FlowMap α := ⟨[], List.nodup_nil⟩

/-- A map of one entry. -/
def single (name : Bytes) (v : α) : FlowMap α := ⟨[(name, v)], List.nodup_singleton _⟩

/-- The names, in iteration order. -/
def names (m : FlowMap α) : List Bytes := m.entries.map Prod.fst

/-- `Get(name)` succeeds. -/
def contains (m : FlowMap α) (name : Bytes) : Bool := m.names.contains name

/-- The entries after `Set(name, v)`. -/
def setEntries (m : FlowMap α) (name : Bytes) (v : α) : List (Bytes × α) :=
  if m.contains name then m.entries.map fun e => if e.1 = name then (name, v) else e
  else m.entries ++ [(name, v)]

theorem setEntries_names (m : FlowMap α) (name : Bytes) (v : α) :
    (m.setEntries name v).map Prod.fst =
      if m.contains name then m.names else m.names ++ [name] := by
  unfold setEntries names
  split
  · simp only [List.map_map]; congr 1; funext e; simp only [Function.comp]; split <;> simp_all
  · simp

theorem setEntries_nodup (m : FlowMap α) (name : Bytes) (v : α) :
    ((m.setEntries name v).map Prod.fst).Nodup := by
  rw [setEntries_names]
  split
  · exact m.nodup
  · rename_i h
    simp only [contains, List.elem_eq_mem, decide_eq_true_eq] at h
    exact List.nodup_append.2 ⟨m.nodup, List.nodup_singleton _, by simpa using h⟩

/-- `Set(name, v)`: replaces the value of a name, or adds the name. -/
def set (m : FlowMap α) (name : Bytes) (v : α) : FlowMap α :=
  ⟨m.setEntries name v, m.setEntries_nodup name v⟩

/-- `Set` of every entry of `flows`, in its iteration order. -/
def setAll (m flows : FlowMap α) : FlowMap α := flows.entries.foldl (fun m e => m.set e.1 e.2) m

/-- `Get(name)`: the value of a name, if it is in the map. -/
def get (m : FlowMap α) (name : Bytes) : Option α := (m.entries.find? fun e => e.1 = name).map Prod.snd

theorem get_isSome (m : FlowMap α) (name : Bytes) : (m.get name).isSome = m.contains name := by
  rw [get, Option.isSome_map', contains, names, Bool.eq_iff_iff, List.find?_isSome]
  simp

theorem get_set (m : FlowMap α) (name n : Bytes) (v : α) :
    (m.set name v).get n = if n = name then some v else m.get n := by
  simp only [get, set, setEntries]
  split
  · rename_i hc
    rw [List.find?_map]
    have hp : ((fun e : Bytes × α => decide (e.1 = n)) ∘ fun e => if e.1 = name then (name, v) else e) =
        fun e => decide (e.1 = n) := by
      funext e; simp only [Function.comp]; split <;> simp_all
    rw [hp, Option.map_map]
    cases hf : m.entries.find? (fun e => decide (e.1 = n)) with
    | none =>
      split
      · subst n
        simp only [contains, names, List.elem_eq_mem, decide_eq_true_eq, List.mem_map] at hc
        obtain ⟨e, he, rfl⟩ := hc
        exact absurd (List.find?_eq_none.1 hf e he) (by simp)
      · rfl
    | some e =>
      have he : e.1 = n := by simpa using List.find?_some hf
      split <;> simp_all [Function.comp]
  · rename_i hc
    rw [List.find?_append]
    split
    · subst n
      simp only [contains, names, List.elem_eq_mem, decide_eq_true_eq, List.mem_map, not_exists, not_and] at hc
      rw [List.find?_eq_none.2 (fun e he => by simpa using hc e he)]
      simp
    · rename_i hn
      simp [Ne.symm hn]

theorem get_foldl_set (n : Bytes) : ∀ (es : List (Bytes × α)), (es.map Prod.fst).Nodup → ∀ m : FlowMap α,
    (es.foldl (fun m e => m.set e.1 e.2) m).get n = ((es.find? fun e => e.1 = n).map Prod.snd).or (m.get n)
  | [], _, _ => rfl
  | (k, v) :: es, hnd, m => by
    rw [List.map_cons, List.nodup_cons] at hnd
    rw [List.foldl_cons, get_foldl_set n es hnd.2, get_set, List.find?_cons]
    by_cases hk : k = n
    · subst hk
      rw [List.find?_eq_none.2 fun e he h => hnd.1 (by simpa [of_decide_eq_true h] using List.mem_map_of_mem Prod.fst he)]
      simp
    · simp [hk, Ne.symm hk]

/-- `Get` after setting every entry of `flows`: the value `flows` gives, else the old one. -/
theorem get_setAll (m flows : FlowMap α) (n : Bytes) : (m.setAll flows).get n = (flows.get n).or (m.get n) :=
  get_foldl_set n flows.entries flows.nodup m

/-- After setting every entry of `flows`, the map has the names of `flows` and its own. -/
theorem contains_setAll (m flows : FlowMap α) (n : Bytes) :
    (m.setAll flows).contains n = (flows.contains n || m.contains n) := by
  rw [← get_isSome, get_setAll, Option.isSome_or, get_isSome, get_isSome]

theorem mem_names_setAll {m flows : FlowMap α} {n : Bytes} :
    n ∈ (m.setAll flows).names ↔ n ∈ flows.names ∨ n ∈ m.names := by
  simpa only [contains, List.elem_eq_mem, Bool.or_eq_true, decide_eq_true_eq]
    using Bool.eq_iff_iff.1 (contains_setAll m flows n)

end FlowMap

/-- A queue handle (`rmq.Queue`). -/
structure Queue where
  name : Bytes
  pushQueue : Option Bytes
  consuming : Bool
  consumers : Nat
  deriving DecidableEq, Repr

/-- The rmq connection: the handles `OpenQueue` returned, in order, and the number of rmq
calls so far. -/
structure Conn where
  queues : List Queue
  calls : Nat
  deriving DecidableEq, Repr

/-- The environment's answer to each rmq call, by its number: `none` lets it succeed. -/
abbrev Faults := Nat → Option Bytes

/-- rmq's `ErrorAlreadyConsuming`. -/
def errorAlreadyConsuming : Bytes := lit "must not call StartConsuming() multiple times"

/-- rmq's `ErrorNotConsuming`. -/
def errorNotConsuming : Bytes := lit "must call StartConsuming() before adding consumers"

namespace Conn

variable (env : Faults)

/-- One more rmq call. -/
def tick (c : Conn) : Conn := { c with calls := c.calls + 1 }

/-- Handle `q` changed by `f`. -/
def modify (c : Conn) (q : Nat) (f : Queue → Queue) : Conn := { c with queues := c.queues.modify f q }

/-- `OpenQueue(name)`: a new handle (its index), or the environment's error. -/
def openQueue (c : Conn) (name : Bytes) : Conn × Except Bytes Nat :=
  match env c.calls with
  | some e => (c.tick, .error e)
  | none => ({ c.tick with queues := c.queues ++ [⟨name, none, false, 0⟩] }, .ok c.queues.length)

/-- `q.SetPushQueue(p)`: deliveries of `q` are pushed to the queue of handle `p`. -/
def setPushQueue (c : Conn) (q p : Nat) : Conn :=
  c.modify q fun h => { h with pushQueue := (c.queues.getD p ⟨[], none, false, 0⟩).name }

/-- `StartConsuming(10, time.Second)`: starts the handle's prefetcher. -/
def startConsuming (c : Conn) (q : Nat) : Conn × Option Bytes :=
  if (c.queues.getD q ⟨[], none, false, 0⟩).consuming then (c.tick, some errorAlreadyConsuming)
  else match env c.calls with
    | some e => (c.tick, some e)
    | none => ((c.modify q fun h => { h with consuming := true }).tick, none)

/-- `AddConsumer(tag, consumer)`: one more consumer on a consuming handle. -/
def addConsumer (c : Conn) (q : Nat) : Conn × Option Bytes :=
  if !(c.queues.getD q ⟨[], none, false, 0⟩).consuming then (c.tick, some errorNotConsuming)
  else match env c.calls with
    | some e => (c.tick, some e)
    | none => ((c.modify q fun h => { h with consumers := h.consumers + 1 }).tick, none)

/-- `StopAllConsuming()`, waited for: every handle of the connection stops. rmq also marks
the connection stopped, so that later calls on it fail; such failures are among the answers
`Faults` gives, and every result holds for every `Faults`. -/
def stopAllConsuming (c : Conn) : Conn :=
  { c with queues := c.queues.map fun h => { h with consuming := false, consumers := 0 } }

/-- The prefetchers running on the queue `name`. -/
def prefetchers (c : Conn) (name : Bytes) : Nat :=
  (c.queues.filter fun h => h.name = name ∧ h.consuming).length

/-- The consumers running on the queue `name`. -/
def consumerCount (c : Conn) (name : Bytes) : Nat :=
  (c.queues.filter fun h => h.name = name ∧ h.consuming).foldr (fun h n => h.consumers + n) 0

end Conn

end Goflow
