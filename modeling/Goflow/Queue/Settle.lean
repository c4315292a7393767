import Mathlib.Data.List.Nodup
import Goflow.Queue.Consume

/-!
# Each delivery settled once

`consume_double_settle` shows two deliveries of one payload on one queue, where the `Push`
and then the `Ack` of the failed one remove both entries. When no payload is fetched twice
from the same queue, the `LREM`s of `Consume` remove exactly the deliveries' own entries:
over every interleaving of publishes, fetches and `Consume` steps from empty lists,

* `settle_once`: each queue's `unacked` list holds exactly the payloads of the deliveries
  fetched from it that their `Consume` has not removed, each `Consume` removes at most one
  entry, and a finished `Consume` has removed its delivery's.
-/

namespace Goflow

/-- The steps of `Consume` before its first `LREM`. -/
def ConsumePc.beforeSettle : ConsumePc → Bool
  | .start | .pushLPush _ | .pushLRem _ => true
  | .ack | .done => false

namespace QueueWorld

/-- The deliveries fetched so far, in order. -/
def deliveries (w : QueueWorld) : List Delivery := w.consumers.map (·.delivery)

/-- No payload has been fetched twice from the same queue. -/
def Keyed (w : QueueWorld) : Prop := (w.deliveries.map fun d => (d.payload, d.queue)).Nodup

instance (w : QueueWorld) : Decidable w.Keyed := inferInstanceAs (Decidable (List.Nodup _))

/-- The number of entries the `LREM`s of delivery `i`'s `Consume` removed (from the log). -/
def removed (w : QueueWorld) (i : Nat) : Nat := (w.log.filter fun e => e.1 = i ∧ e.2.2 = true).length

/-- **What every step keeps when no payload is fetched twice from one queue.** -/
structure SettleInv (w : QueueWorld) : Prop where
  /-- The log names fetched deliveries only. -/
  logged : ∀ e ∈ w.log, e.1 < w.consumers.length
  /-- No `unacked` list holds a payload twice. -/
  nodup : ∀ q, (w.lists (.unacked q)).Nodup
  /-- `unacked q` holds the payloads of the deliveries of `q` whose entry is not removed. -/
  mem_unacked : ∀ q p, p ∈ w.lists (.unacked q) ↔
    ∃ i d, w.deliveries[i]? = some d ∧ d.payload = p ∧ d.queue = q ∧ w.removed i = 0
  /-- No `Consume` removes two entries. -/
  removed_le : ∀ i, w.removed i ≤ 1
  /-- A `Consume` before its first `LREM` has removed nothing; a finished one has removed its
  delivery's entry. -/
  removed_pc : ∀ i c, w.consumers[i]? = some c →
    (c.pc.beforeSettle = true → w.removed i = 0) ∧ (c.pc = .done → w.removed i = 1)

/-! ### What each step does to `unacked` and to the log -/

theorem set_of_getElem? {α : Type} {l : List α} {i : Nat} {a : α} (h : l[i]? = some a) :
    l.set i a = l := by
  apply List.ext_getElem?
  intro j
  rw [List.getElem?_set]
  split
  · rename_i hij
    subst hij
    rw [if_pos (List.getElem?_eq_some_iff.1 h).1, h]
  · rfl

variable {w : QueueWorld} {i : Nat} {c : Consumer}

theorem deliveries_get (hi : w.consumers[i]? = some c) : w.deliveries[i]? = some c.delivery := by
  simp [deliveries, hi]

theorem lt_of_deliveries_get {d : Delivery} (hi : w.deliveries[i]? = some d) : i < w.consumers.length :=
  List.length_map w.consumers _ ▸ (List.getElem?_eq_some_iff.1 hi).1

/-- A `Consume` step changes only its own call, not the delivery. -/
theorem deliveries_setPc (hi : w.deliveries[i]? = some c.delivery) (pc : ConsumePc) :
    (w.setPc i c pc).deliveries = w.deliveries := by
  simp only [deliveries, setPc, List.map_set]
  exact set_of_getElem? hi

theorem setPc_consumers_get (hlt : i < w.consumers.length) (pc : ConsumePc) (j : Nat) :
    (w.setPc i c pc).consumers[j]? = if j = i then some { c with pc := pc } else w.consumers[j]? := by
  simp only [setPc, List.getElem?_set]
  by_cases hj : j = i
  · subst hj; simp [hlt]
  · simp [hj, Ne.symm hj]

@[simp] theorem removed_setPc (w : QueueWorld) (i : Nat) (c : Consumer) (pc : ConsumePc) :
    (w.setPc i c pc).removed = w.removed := rfl

theorem removed_of_log {w w' : QueueWorld} {e : Nat × Settle × Bool} (h : w'.log = w.log ++ [e])
    (j : Nat) : w'.removed j = w.removed j + if e.1 = j ∧ e.2.2 = true then 1 else 0 := by
  simp only [removed, h, List.filter_append, List.length_append, List.filter_cons, List.filter_nil]
  split <;> simp_all

/-- The `LREM` of delivery `i` counts for `i`'s removals exactly when it finds the payload. -/
theorem settle_removed (w : QueueWorld) (i : Nat) (d : Delivery) (s : Settle) (j : Nat) :
    (w.settle i d s).1.removed j =
      w.removed j + if i = j ∧ d.payload ∈ w.lists (.unacked d.queue) then 1 else 0 := by
  rw [removed_of_log rfl]
  simp only [Lists.lrem]
  split_ifs <;> simp_all

theorem lpush_unacked {ls : Lists} {k : ListKey} (hk : ∀ q, k ≠ .unacked q) (v q : Bytes) :
    ls.lpush k v (.unacked q) = ls (.unacked q) := by
  simp [Lists.lpush, Ne.symm (hk q)]

theorem pushTarget_ne_unacked (d : Delivery) (q : Bytes) : d.pushTarget ≠ .unacked q := by
  unfold Delivery.pushTarget
  split <;> nofun

theorem lrem_mem {ls : Lists} {k₀ : ListKey} {v : Bytes} (hn : (ls k₀).Nodup) (k : ListKey) (p : Bytes) :
    p ∈ (ls.lrem k₀ v).1 k ↔ p ∈ ls k ∧ ¬(p = v ∧ k = k₀) := by
  simp only [Lists.lrem]
  split_ifs with hk
  · subst hk
    rw [hn.mem_erase_iff]
    tauto
  · simp [hk]

theorem lrem_nodup {ls : Lists} {k : ListKey} (k₀ : ListKey) (v : Bytes) (hn : (ls k).Nodup) :
    ((ls.lrem k₀ v).1 k).Nodup := by
  simp only [Lists.lrem]
  split_ifs with hk
  · subst hk
    exact hn.erase _
  · exact hn

/-! ### Deliveries that share no payload on a queue -/

/-- Under `Keyed`, a delivery is known by its payload and queue. -/
theorem Keyed.index_eq_iff (hk : w.Keyed) {j : Nat} {d d' : Delivery}
    (hi : w.deliveries[i]? = some d) (hj : w.deliveries[j]? = some d') :
    j = i ↔ d'.payload = d.payload ∧ d'.queue = d.queue := by
  constructor
  · rintro rfl
    cases hi.symm.trans hj
    exact ⟨rfl, rfl⟩
  · intro h
    have hlt : j < (w.deliveries.map fun d => (d.payload, d.queue)).length := by
      rw [List.length_map]
      exact (List.getElem?_eq_some_iff.1 hj).1
    exact List.getElem?_inj hlt hk (by simp only [List.getElem?_map, hi, hj, h, Option.map_some'])

/-- `RPOPLPUSH ready unacked` adds the payload it moves to `unacked` of that queue only. -/
theorem rpoplpush_unacked {ls ls' : Lists} {q p : Bytes}
    (h : ls.rpoplpush (.ready q) (.unacked q) = (ls', some p)) (q' : Bytes) :
    ls' (.unacked q') = if q' = q then p :: ls (.unacked q) else ls (.unacked q') := by
  unfold Lists.rpoplpush at h
  split at h
  · cases h
  · cases h
    by_cases hq : q' = q <;> simp [hq]

theorem consumeStep_deliveries (parses : Bytes → Bool) (w : QueueWorld) (i : Nat) (handled : Bool) :
    (consumeStep parses w i handled).deliveries = w.deliveries := by
  unfold consumeStep
  split
  · rfl
  · rename_i c hi
    have hd := deliveries_get hi
    split
    · dsimp only
      split_ifs <;> exact deliveries_setPc (by exact hd) _
    · exact deliveries_setPc (w := { w with lists := _ }) hd _
    · exact deliveries_setPc (w := (w.settle i c.delivery .push).1) hd _
    · exact deliveries_setPc (w := (w.settle i c.delivery .ack).1) hd _
    · rfl

theorem deliveries_prefix_step (parses : Bytes → Bool) (w : QueueWorld) (l : QLabel) :
    w.deliveries <+: (w.step parses l).deliveries := by
  cases l with
  | publish q p => exact List.prefix_refl _
  | fetch q pq =>
    simp only [step]
    split
    · exact List.prefix_refl _
    · simp only [deliveries, List.map_append]
      exact List.prefix_append _ _
  | consume i handled => exact (consumeStep_deliveries parses w i handled).symm ▸ List.prefix_refl _

theorem deliveries_prefix_run (parses : Bytes → Bool) :
    ∀ (ls : List QLabel) (w : QueueWorld), w.deliveries <+: (w.run parses ls).deliveries
  | [], _ => List.prefix_refl _
  | l :: ls, w => (deliveries_prefix_step parses w l).trans (deliveries_prefix_run parses ls (w.step parses l))

theorem Keyed.of_prefix {w w' : QueueWorld} (h : w.deliveries <+: w'.deliveries) (hk : w'.Keyed) : w.Keyed :=
  hk.sublist (h.map _).sublist

/-! ### Each step keeps the invariant -/

theorem SettleInv.removed_eq_zero (h : w.SettleInv) {n : Nat} (hn : w.consumers.length ≤ n) :
    w.removed n = 0 := by
  simp only [removed, List.length_eq_zero, List.filter_eq_nil_iff, decide_eq_true_eq, not_and]
  intro e he hen
  exact absurd (hen ▸ h.logged e he) (Nat.not_lt.2 hn)

/-- Under the invariant and `Keyed`, delivery `i`'s payload is in `unacked` exactly while `i`
has removed nothing. -/
theorem SettleInv.mem_iff_removed (h : w.SettleInv) (hk : w.Keyed) {d : Delivery}
    (hd : w.deliveries[i]? = some d) : d.payload ∈ w.lists (.unacked d.queue) ↔ w.removed i = 0 := by
  rw [h.mem_unacked]
  constructor
  · rintro ⟨j, d', hj, hp, hq, hr⟩
    rwa [← (hk.index_eq_iff hd hj).2 ⟨hp, hq⟩]
  · exact fun hr => ⟨i, d, hd, rfl, rfl, hr⟩

/-- How `removed_pc` survives moving delivery `i` to `pc`, for any removal counts `r`. -/
theorem setPc_removed_pc (hlt : i < w.consumers.length) {pc : ConsumePc} {r : Nat → Nat}
    (hother : ∀ j c', j ≠ i → w.consumers[j]? = some c' →
      (c'.pc.beforeSettle = true → r j = 0) ∧ (c'.pc = .done → r j = 1))
    (hbefore : pc.beforeSettle = true → r i = 0) (hdone : pc = .done → r i = 1) (j : Nat) (c' : Consumer)
    (hj : (w.setPc i c pc).consumers[j]? = some c') :
    (c'.pc.beforeSettle = true → r j = 0) ∧ (c'.pc = .done → r j = 1) := by
  rw [setPc_consumers_get hlt] at hj
  split at hj
  · subst j
    cases hj
    exact ⟨hbefore, hdone⟩
  · exact hother j c' ‹_› hj

namespace SettleInv

/-- A step that leaves the `unacked` lists, the deliveries and the log as they are. -/
theorem of_same {w w' : QueueWorld} (h : w.SettleInv) (hl : ∀ q, w'.lists (.unacked q) = w.lists (.unacked q))
    (hc : w'.consumers = w.consumers) (hlog : w'.log = w.log) : w'.SettleInv := by
  have hr : w'.removed = w.removed := by funext j; simp only [removed, hlog]
  have hd : w'.deliveries = w.deliveries := by simp only [deliveries, hc]
  refine ⟨?_, ?_, ?_, ?_, ?_⟩
  · rw [hlog, hc]; exact h.logged
  · intro q; rw [hl]; exact h.nodup q
  · intro q p; rw [hl, hd, hr]; exact h.mem_unacked q p
  · rw [hr]; exact h.removed_le
  · rw [hc, hr]; exact h.removed_pc

/-- Moving delivery `i`'s `Consume` to `pc`, which agrees with what `i` has removed. -/
theorem setPc (h : w.SettleInv) (hi : w.deliveries[i]? = some c.delivery) {pc : ConsumePc}
    (hbefore : pc.beforeSettle = true → w.removed i = 0) (hdone : pc = .done → w.removed i = 1) :
    (w.setPc i c pc).SettleInv where
  logged := by simpa only [QueueWorld.setPc, List.length_set] using h.logged
  nodup := h.nodup
  mem_unacked := by rw [deliveries_setPc hi, removed_setPc]; exact h.mem_unacked
  removed_le := h.removed_le
  removed_pc := setPc_removed_pc (lt_of_deliveries_get hi) (fun j c' _ => h.removed_pc j c') hbefore hdone

/-- **The `LREM` of a settle**, then the move to a step after it: under `Keyed` it finds the
entry exactly when delivery `i` has removed nothing yet, so that afterwards `i` has removed
one entry and every other delivery's entry is where it was. -/
theorem settle_setPc (h : w.SettleInv) (hk : w.Keyed) (hi : w.consumers[i]? = some c) (s : Settle)
    {pc : ConsumePc} (hpc : pc.beforeSettle = false) :
    ((w.settle i c.delivery s).1.setPc i c pc).SettleInv := by
  have hd := deliveries_get hi
  have hmem := h.mem_iff_removed hk hd
  have hself : (w.settle i c.delivery s).1.removed i = 1 := by
    rw [settle_removed]
    by_cases hr : w.removed i = 0
    · simp [hr, hmem]
    · simp only [hmem, hr, and_false, if_false, Nat.add_zero]
      exact Nat.le_antisymm (h.removed_le i) (Nat.pos_of_ne_zero hr)
  have hother : ∀ j, j ≠ i → (w.settle i c.delivery s).1.removed j = w.removed j := fun j hj => by
    rw [settle_removed, if_neg fun h => hj h.1.symm, Nat.add_zero]
  have hzero : ∀ j, (w.settle i c.delivery s).1.removed j = 0 ↔ w.removed j = 0 ∧ j ≠ i := fun j => by
    by_cases hj : j = i
    · subst hj; simp [hself]
    · simp [hother j hj, hj]
  refine ⟨?_, ?_, ?_, ?_, ?_⟩
  · simp only [QueueWorld.setPc, QueueWorld.settle, List.length_set, List.mem_append, List.mem_singleton]
    rintro e (he | rfl)
    · exact h.logged e he
    · exact (List.getElem?_eq_some_iff.1 hi).1
  · exact fun q => lrem_nodup _ _ (h.nodup q)
  · intro q p
    rw [deliveries_setPc (w := (w.settle i c.delivery s).1) hd, removed_setPc, setPc_lists]
    change p ∈ (w.lists.lrem _ _).1 _ ↔ _
    simp only [lrem_mem (h.nodup _), h.mem_unacked, hzero]
    constructor
    · rintro ⟨⟨j, d', hj, rfl, rfl, hr⟩, hne⟩
      refine ⟨j, d', hj, rfl, rfl, hr, fun hji => hne ?_⟩
      obtain ⟨hp, hq⟩ := (hk.index_eq_iff hd hj).1 hji
      exact ⟨hp, by rw [hq]⟩
    · rintro ⟨j, d', hj, rfl, rfl, hr, hji⟩
      exact ⟨⟨j, d', hj, rfl, rfl, hr⟩,
        fun ⟨hp, hq⟩ => hji ((hk.index_eq_iff hd hj).2 ⟨hp, ListKey.unacked.inj hq⟩)⟩
  · intro j
    by_cases hj : j = i
    · rw [removed_setPc, hj, hself]
    · rw [removed_setPc, hother j hj]; exact h.removed_le j
  · refine setPc_removed_pc (w := (w.settle i c.delivery s).1) (lt_of_deliveries_get hd) (fun j c' hj hc => ?_)
      (by rw [hpc]; nofun) (fun _ => hself)
    rw [removed_setPc, hother j hj]
    exact h.removed_pc j c' hc

/-- **A fetch** of a payload that no delivery of its queue has: `RPOPLPUSH` puts it on that
queue's `unacked` list as the entry of the new delivery, which has removed nothing. -/
theorem fetch (parses : Bytes → Bool) (h : w.SettleInv) {q : Bytes} {pq : Option Bytes}
    (hk : (w.step parses (.fetch q pq)).Keyed) : (w.step parses (.fetch q pq)).SettleInv := by
  revert hk
  simp only [step]
  split
  · exact fun _ => h
  · rename_i ls p hls
    intro hk
    have hlen : w.deliveries.length = w.consumers.length := List.length_map _ _
    have hdel : w.deliveries ++ [⟨p, q, pq⟩] =
        deliveries { w with lists := ls, consumers := w.consumers ++ [⟨⟨p, q, pq⟩, .start, none⟩] } := by
      simp [deliveries]
    have hnew : w.removed w.deliveries.length = 0 := hlen ▸ h.removed_eq_zero le_rfl
    -- no delivery so far has the fetched payload on `q`, so `unacked q` does not hold it
    have hfresh : (p, q) ∉ w.deliveries.map fun d => (d.payload, d.queue) := by
      unfold Keyed at hk
      rw [← hdel, List.map_append, List.nodup_append_comm] at hk
      exact (List.nodup_cons.1 hk).1
    have hp : p ∉ w.lists (.unacked q) := fun hm => by
      obtain ⟨j, d', hj, rfl, rfl, _⟩ := (h.mem_unacked q p).1 hm
      exact hfresh (List.mem_map_of_mem _ (List.getElem?_mem hj))
    refine ⟨?_, ?_, ?_, h.removed_le, ?_⟩
    · simp only [List.length_append, List.length_singleton]
      exact fun e he => Nat.lt_succ_of_lt (h.logged e he)
    · intro q'
      dsimp only
      rw [rpoplpush_unacked hls]
      split_ifs with hq
      · exact List.nodup_cons.2 ⟨hp, h.nodup q⟩
      · exact h.nodup q'
    · intro q' p'
      have hext : (∃ j, ∃ d' : Delivery, (w.deliveries ++ [⟨p, q, pq⟩])[j]? = some d' ∧ d'.payload = p' ∧
          d'.queue = q' ∧ w.removed j = 0) ↔ p' ∈ w.lists (.unacked q') ∨ (p = p' ∧ q = q') := by
        rw [h.mem_unacked]
        constructor
        · rintro ⟨j, d', hj, hp', hq', hr⟩
          rcases getElem?_concat_eq_some.1 hj with hj | ⟨rfl, rfl⟩
          · exact .inl ⟨j, d', hj, hp', hq', hr⟩
          · exact .inr ⟨hp', hq'⟩
        · rintro (⟨j, d', hj, hp', hq', hr⟩ | ⟨rfl, rfl⟩)
          · exact ⟨j, d', getElem?_concat_eq_some.2 (.inl hj), hp', hq', hr⟩
          · exact ⟨_, _, getElem?_concat_eq_some.2 (.inr ⟨rfl, rfl⟩), rfl, rfl, hnew⟩
      dsimp only
      rw [← hdel, rpoplpush_unacked hls]
      refine Iff.trans ?_ hext.symm
      split_ifs with hq
      · subst hq
        simp [eq_comm, or_comm]
      · simp [Ne.symm hq]
    · intro j c' hj
      rcases getElem?_concat_eq_some.1 hj with hj | ⟨rfl, rfl⟩
      · exact h.removed_pc j c' hj
      · exact ⟨fun _ => h.removed_eq_zero le_rfl, nofun⟩

/-- **A step of a `Consume` call.** -/
theorem consumeStep (parses : Bytes → Bool) (h : w.SettleInv) (hk : w.Keyed) (i : Nat) (handled : Bool) :
    (consumeStep parses w i handled).SettleInv := by
  unfold Goflow.consumeStep
  split
  · exact h
  · rename_i c hi
    have hpc := h.removed_pc i c hi
    have hd := deliveries_get hi
    split
    · rename_i hs
      have hz : w.removed i = 0 := hpc.1 (by rw [hs]; rfl)
      dsimp only
      split_ifs <;> exact h.setPc (by exact hd) (fun _ => hz) nofun
    · rename_i a hs
      have hz : w.removed i = 0 := hpc.1 (by rw [hs]; rfl)
      have h' : SettleInv { w with lists := w.lists.lpush c.delivery.pushTarget c.delivery.payload } :=
        h.of_same (lpush_unacked (pushTarget_ne_unacked _) _) rfl rfl
      exact h'.setPc hd (fun _ => hz) nofun
    · exact h.settle_setPc hk hi .push (by split_ifs <;> rfl)
    · exact h.settle_setPc hk hi .ack rfl
    · exact h

/-- **One step of an interleaving**, which leaves no payload fetched twice from one queue. -/
theorem step (parses : Bytes → Bool) (h : w.SettleInv) {l : QLabel} (hk : (w.step parses l).Keyed) :
    (w.step parses l).SettleInv := by
  cases l with
  | publish q p => exact h.of_same (lpush_unacked (k := .ready q) (fun _ => nofun) p) rfl rfl
  | fetch q pq => exact h.fetch parses hk
  | consume i handled =>
    have hk' : w.Keyed := by
      unfold Keyed at hk ⊢
      rwa [QueueWorld.step, consumeStep_deliveries] at hk
    exact h.consumeStep parses hk' i handled

end SettleInv

/-- The invariant over a whole interleaving. -/
theorem run_settleInv (parses : Bytes → Bool) :
    ∀ (ls : List QLabel) {w : QueueWorld}, w.SettleInv → (w.run parses ls).Keyed → (w.run parses ls).SettleInv
  | [], _, h, _ => h
  | _ :: ls, _, h, hk =>
    run_settleInv parses ls (h.step parses (Keyed.of_prefix (deliveries_prefix_run parses ls _) hk)) hk

theorem empty_settleInv : QueueWorld.empty.SettleInv where
  logged := nofun
  nodup _ := List.nodup_nil
  mem_unacked _ _ := by simp [QueueWorld.empty, deliveries]
  removed_le _ := Nat.zero_le _
  removed_pc _ _ h := by simp [QueueWorld.empty] at h

/-- **Each delivery is settled once.** From empty lists, over every interleaving of
publishes, fetches and `Consume` steps in which no payload is fetched twice from one queue:
each `unacked` list holds exactly the payloads of its queue's deliveries whose `Consume` has
not removed an entry, no `Consume` removes two entries, and a finished one has removed its
own. -/
theorem settle_once (parses : Bytes → Bool) (ls : List QLabel)
    (hk : (QueueWorld.empty.run parses ls).Keyed) : (QueueWorld.empty.run parses ls).SettleInv :=
  run_settleInv parses ls empty_settleInv hk

/-- Two payloads published to `q` and fetched, one by a handle with a push queue and one
without; the handler fails on the first and succeeds on the second, and both `Consume` calls
run to the end, interleaved. -/
def settledRun : List QLabel :=
  [.publish (lit "q") (lit "a"), .publish (lit "q") (lit "b"),
    .fetch (lit "q") (some (lit "q-push-0")), .fetch (lit "q") none,
    .consume 0 false, .consume 1 true, .consume 0 false, .consume 1 true, .consume 0 false,
    .consume 0 false]

theorem settle_once_settledRun :
    (QueueWorld.empty.run (fun _ => true) settledRun).Keyed ∧
      (QueueWorld.empty.run (fun _ => true) settledRun).SettleInv :=
  ⟨by decide, settle_once (fun _ => true) settledRun (by decide)⟩

/-- **Nothing is left in `unacked`** once every `Consume` has finished, in every
interleaving from empty lists in which no payload is fetched twice from one queue. -/
theorem unacked_empty_of_done (parses : Bytes → Bool) (ls : List QLabel)
    (hk : (QueueWorld.empty.run parses ls).Keyed)
    (hdone : ∀ c ∈ (QueueWorld.empty.run parses ls).consumers, c.pc = .done) (q : Bytes) :
    (QueueWorld.empty.run parses ls).lists (.unacked q) = [] := by
  have h := run_settleInv parses ls empty_settleInv hk
  refine List.eq_nil_iff_forall_not_mem.2 fun p hp => ?_
  obtain ⟨j, d, hj, -, -, hr⟩ := (h.mem_unacked q p).1 hp
  obtain ⟨c, hc, -⟩ : ∃ c, (QueueWorld.empty.run parses ls).consumers[j]? = some c ∧ c.delivery = d := by
    simpa [deliveries] using hj
  have := (h.removed_pc j c hc).2 (hdone c (List.getElem?_mem hc))
  omega

theorem unacked_empty_of_done_settledRun :
    (QueueWorld.empty.run (fun _ => true) settledRun).Keyed ∧
      (∀ c ∈ (QueueWorld.empty.run (fun _ => true) settledRun).consumers, c.pc = .done) ∧
      (QueueWorld.empty.run (fun _ => true) settledRun).lists (.unacked (lit "q")) = [] :=
  have hk : (QueueWorld.empty.run (fun _ => true) settledRun).Keyed := by decide
  have hdone : ∀ c ∈ (QueueWorld.empty.run (fun _ => true) settledRun).consumers, c.pc = .done := by
    decide
  ⟨hk, hdone, unacked_empty_of_done (fun _ => true) settledRun hk hdone (lit "q")⟩

end QueueWorld

end Goflow
