import Goflow.Runtime.Worker

/-!
# The retry chains

A message a flow's consumers fail to handle moves along the flow's retry chain: `Push`
sends it to the push queue of the handle that fetched it, and without one rejects it. This
module computes what a successful `initializeTaskQueues` leaves on the connection, and
from it the queues a message that fails every time is delivered on.

* `initializeTaskQueues_ok`: after a successful `initializeTaskQueues` the connection holds,
  for each flow in order, its primary handle and its retry handles, each linked to the
  next and consuming, the primary with `Concurrency` consumers and each retry queue with one.
* `queuePath_disjoint`: the queue paths of two flows are disjoint unless one flow's name is
  the other's followed by `-push-<i>`.
* `retry_chain`: under that condition the deliveries of a message that always fails are
  exactly the queues of its flow's path; `retry_chain_collision` shows the two flows
  `x` and `x-push-0` sharing a queue.
-/

namespace Goflow

namespace Conn

variable {env : Faults} {c c' : Conn}

theorem openQueue_ok {name : Bytes} {q : Nat} (h : c.openQueue env name = (c', .ok q)) :
    c'.queues = c.queues ++ [⟨name, none, false, 0⟩] ∧ q = c.queues.length := by
  unfold openQueue at h
  split at h <;> cases h
  exact ⟨rfl, rfl⟩

theorem startConsuming_ok {q : Nat} (h : c.startConsuming env q = (c', none)) :
    c'.queues = c.queues.modify (fun h => { h with consuming := true }) q := by
  unfold startConsuming at h
  split at h
  · simp at h
  · split at h <;> simp only [Prod.mk.injEq, reduceCtorEq, and_false, and_true] at h
    rw [← h]; rfl

theorem addConsumer_ok {q : Nat} (h : c.addConsumer env q = (c', none)) :
    c'.queues = c.queues.modify (fun h => { h with consumers := h.consumers + 1 }) q := by
  unfold addConsumer at h
  split at h
  · simp at h
  · split at h <;> simp only [Prod.mk.injEq, reduceCtorEq, and_false, and_true] at h
    rw [← h]; rfl

end Conn

/-- `modify` at the position right after `pre`. -/
theorem modify_append_length {α : Type} (f : α → α) (pre rest : List α) (x : α) :
    (pre ++ x :: rest).modify f pre.length = pre ++ f x :: rest := by
  induction pre with
  | nil => rfl
  | cons y pre ih => simp [ih]

theorem getD_append_length {α : Type} (pre rest : List α) (x d : α) :
    (pre ++ x :: rest).getD pre.length d = x := by
  induction pre with
  | nil => rfl
  | cons y pre ih => exact ih

/-- A loop modifying, one after the other, the positions of `mid` after a prefix `pre`. -/
theorem foldl_modify_range' {α : Type} (f : α → α) (mid : List α) :
    ∀ (pre : List α) (s n : Nat), s = pre.length → n = mid.length →
      (List.range' s n).foldl (fun l q => l.modify f q) (pre ++ mid) = pre ++ mid.map f := by
  induction mid with
  | nil => rintro pre _ _ - rfl; simp
  | cons x mid ih =>
    rintro pre _ _ rfl rfl
    rw [List.length_cons, List.range'_succ, List.foldl_cons, modify_append_length,
      ← List.singleton_append, ← List.append_assoc, ih (pre ++ [f x]) _ _ (by simp) rfl]
    simp

/-- A loop modifying the same position `n` times. -/
theorem foldl_modify_replicate {α : Type} (f : α → α) (pre rest : List α) :
    ∀ (n : Nat) (x : α), (List.replicate n pre.length).foldl (fun l q => l.modify f q) (pre ++ x :: rest) =
      pre ++ f^[n] x :: rest
  | 0, _ => rfl
  | n + 1, x => by
    rw [List.replicate_succ, List.foldl_cons, modify_append_length, foldl_modify_replicate f pre rest n,
      Function.iterate_succ_apply]

theorem iterate_addConsumer (n : Nat) (h : Queue) :
    (fun h : Queue => { h with consumers := h.consumers + 1 })^[n] h =
      { h with consumers := h.consumers + n } := by
  induction n generalizing h with
  | zero => rfl
  | succ n ih => rw [Function.iterate_succ_apply, ih]; simp only [Nat.add_assoc, Nat.add_comm 1 n]

variable {env : Faults}

theorem startEach_ok : ∀ {c c' : Conn} {qs : List Nat}, startEach env c qs = (c', none) →
    c'.queues = qs.foldl (fun l q => l.modify (fun h => { h with consuming := true }) q) c.queues
  | _, _, [], h => by cases h; rfl
  | c, _, q :: qs, h => by
    unfold startEach at h
    split at h
    · cases h
    · rename_i c1 hq
      rw [startEach_ok h, List.foldl_cons, Conn.startConsuming_ok hq]

theorem addEach_ok : ∀ {c c' : Conn} {qs : List Nat}, addEach env c qs = (c', none) →
    c'.queues = qs.foldl (fun l q => l.modify (fun h => { h with consumers := h.consumers + 1 }) q) c.queues
  | _, _, [], h => by cases h; rfl
  | c, _, q :: qs, h => by
    unfold addEach at h
    split at h
    · cases h
    · rename_i c1 hq
      rw [addEach_ok h, List.foldl_cons, Conn.addConsumer_ok hq]

/-- Each queue of a path with the queue after it, the last with none. -/
def pathLinks : List Bytes → List (Bytes × Option Bytes)
  | [] => []
  | n :: ns => (n, ns.head?) :: pathLinks ns

@[simp] theorem pathLinks_length (ns : List Bytes) : (pathLinks ns).length = ns.length := by
  induction ns with
  | nil => rfl
  | cons n ns ih => simp [pathLinks, ih]

/-- A handle `OpenQueue` returns, before anything else is done with it. -/
def freshQueue (l : Bytes × Option Bytes) : Queue := ⟨l.1, l.2, false, 0⟩

/-- **The link invariant of the retry loop**: `prevQ` is the last handle opened, so the
handles opened are linked along the names in order, the last to nothing. -/
theorem openPushQueues_ok {baseQId : Bytes} :
    ∀ {idxs : List Nat} {c c' : Conn} {prevQ : Nat} {qs : List Nat} {pre : List Queue} {n : Bytes},
      openPushQueues env baseQId c prevQ idxs = (c', .ok qs) →
      c.queues = pre ++ [⟨n, none, false, 0⟩] → prevQ = pre.length →
      c'.queues = pre ++ (pathLinks (n :: idxs.map (pushQueueId baseQId))).map freshQueue ∧
        qs = List.range' (pre.length + 1) idxs.length
  | [], _, _, _, _, _, _, h, hc, _ => by cases h; exact ⟨hc, rfl⟩
  | idx :: idxs, c, c', prevQ, qs, pre, n, h, hc, hp => by
    unfold openPushQueues at h
    split at h
    · cases h
    · rename_i c1 q hq
      obtain ⟨hc1, rfl⟩ := Conn.openQueue_ok hq
      split at h
      · cases h
      · rename_i c2 qs' h2
        cases h
        have hget : c1.queues.getD c.queues.length ⟨[], none, false, 0⟩ =
            ⟨pushQueueId baseQId idx, none, false, 0⟩ := by
          rw [hc1, getD_append_length]
        have hlink : (c1.setPushQueue prevQ c.queues.length).queues =
            (pre ++ [⟨n, some (pushQueueId baseQId idx), false, 0⟩]) ++
              [⟨pushQueueId baseQId idx, none, false, 0⟩] := by
          simp only [Conn.setPushQueue, Conn.modify]
          rw [hget, hc1, hc, hp, List.append_assoc, List.singleton_append, modify_append_length]
          simp
        obtain ⟨h3, rfl⟩ := openPushQueues_ok h2 hlink (by simp [hc])
        refine ⟨by simp [h3, pathLinks, freshQueue], ?_⟩
        simp [hc, List.range'_succ]

/-- The retry queues of a flow: `<primary>-push-0`, …, `<primary>-push-(RetryQueueCount-1)`. -/
def retryQueueIds (retryQueueCount : Nat) (flowName : Bytes) : List Bytes :=
  (List.range retryQueueCount).map (pushQueueId (internalRequestQueueId flowName))

/-- The queue path of a flow: its primary queue, then its retry queues in order. -/
def queuePath (retryQueueCount : Nat) (flowName : Bytes) : List Bytes :=
  internalRequestQueueId flowName :: retryQueueIds retryQueueCount flowName

/-- The handles a successful iteration of `initializeTaskQueues` leaves for one flow: its
queue path linked in order and consuming, the primary queue with `Concurrency` consumers and
each retry queue with one. -/
def flowHandles (retryQueueCount concurrency : Nat) (flowName : Bytes) : List Queue :=
  ⟨internalRequestQueueId flowName, (retryQueueIds retryQueueCount flowName).head?, true, concurrency⟩ ::
    (pathLinks (retryQueueIds retryQueueCount flowName)).map fun l => ⟨l.1, l.2, true, 1⟩

/-- **One successful iteration of `initializeTaskQueues`** appends the flow's handles. -/
theorem initializeFlow_ok {N conc : Nat} {c c' : Conn} {tq tq' : TaskQueues} {f : Bytes}
    (h : initializeFlow env N conc c tq f = (c', tq', none)) :
    c'.queues = c.queues ++ flowHandles N conc f := by
  unfold initializeFlow at h
  dsimp only at h
  split at h; · cases h
  rename_i c1 q hq
  obtain ⟨hc1, rfl⟩ := Conn.openQueue_ok hq
  split at h; · cases h
  rename_i c2 qs h2
  obtain ⟨hc2, rfl⟩ := openPushQueues_ok h2 hc1 rfl
  split at h; · cases h
  rename_i c3 h3
  split at h; · cases h
  rename_i c4 h4
  split at h; · cases h
  rename_i c5 h5
  split at h; · cases h
  rename_i c6 h6
  cases h
  rw [addEach_ok h6, addEach_ok h5, startEach_ok h4, Conn.startConsuming_ok h3, hc2, pathLinks,
    List.map_cons, modify_append_length, ← List.singleton_append, ← List.append_assoc,
    foldl_modify_range' _ _ _ _ _ (by simp) (by simp), List.append_assoc, List.singleton_append,
    foldl_modify_replicate, ← List.singleton_append, ← List.append_assoc,
    foldl_modify_range' _ _ _ _ _ (by simp) (by simp), iterate_addConsumer]
  simp [flowHandles, retryQueueIds, freshQueue]

theorem initializeEach_ok {N conc : Nat} :
    ∀ {fs : List Bytes} {c : Conn} {tq : TaskQueues}, (initializeEach env N conc c tq fs).2.2 = none →
      (initializeEach env N conc c tq fs).1.queues = c.queues ++ fs.flatMap (flowHandles N conc)
  | [], _, _, _ => by simp [initializeEach]
  | f :: fs, c, tq, h => by
    rw [initializeEach] at h ⊢
    rcases hf : initializeFlow env N conc c tq f with ⟨c1, tq1, _ | e⟩
    · simp only [hf] at h ⊢
      rw [initializeEach_ok h, initializeFlow_ok hf, List.flatMap_cons, List.append_assoc]
    · simp [hf] at h

/-- **What a successful `initializeTaskQueues` leaves on the connection**: after the handles
it had, each flow's handles in iteration order (`flowHandles`). -/
theorem initializeTaskQueues_ok {N conc : Nat} {c : Conn} {tq : TaskQueues} {fs : List Bytes}
    (h : (initializeTaskQueues env N conc c tq fs).2.2 = none) :
    (initializeTaskQueues env N conc c tq fs).1.queues = c.queues ++ fs.flatMap (flowHandles N conc) :=
  initializeEach_ok h

/-! ### Queue names -/

theorem pushQueueId_idx_inj {baseQId : Bytes} {i j : Nat} (h : pushQueueId baseQId i = pushQueueId baseQId j) :
    i = j :=
  itoa_injective (List.append_cancel_left h)

theorem pushQueueId_ne_base (baseQId : Bytes) (i : Nat) : pushQueueId baseQId i ≠ baseQId := by
  intro h
  have := congrArg List.length h
  simp only [pushQueueId, List.length_append] at this
  have := List.length_pos.2 (itoa_ne_nil i)
  omega

theorem internalRequestQueueId_inj {f g : Bytes} (h : internalRequestQueueId f = internalRequestQueueId g) :
    f = g :=
  List.append_cancel_left h

/-- A retry queue names its flow and its index: reversed, the index is the digits before the
first `-`. -/
theorem pushQueueId_inj {f g : Bytes} {i j : Nat}
    (h : pushQueueId (internalRequestQueueId f) i = pushQueueId (internalRequestQueueId g) j) :
    f = g ∧ i = j := by
  have hrev := congrArg List.reverse h
  simp only [pushQueueId, List.reverse_append, List.append_assoc] at hrev
  have hd : ∀ n, (45 : UInt8) ∉ (itoa n).reverse := fun n hm =>
    absurd (itoa_digits n 45 (List.mem_reverse.1 hm)) (by decide)
  obtain ⟨hi, hfg⟩ := sep_split (hd i) (hd j) hrev
  exact ⟨internalRequestQueueId_inj (List.reverse_injective (List.append_cancel_left hfg)),
    itoa_injective (List.reverse_injective hi)⟩

theorem internalRequestQueueId_eq_pushQueueId {f g : Bytes} {i : Nat} :
    internalRequestQueueId f = pushQueueId (internalRequestQueueId g) i ↔ f = g ++ lit "-push-" ++ itoa i := by
  simp only [internalRequestQueueId, pushQueueId, List.append_assoc, List.append_cancel_left_eq]

theorem mem_retryQueueIds {N : Nat} {f q : Bytes} :
    q ∈ retryQueueIds N f ↔ ∃ i < N, q = pushQueueId (internalRequestQueueId f) i := by
  simp [retryQueueIds, eq_comm]

/-- A flow's queue path is simple. -/
theorem queuePath_nodup (N : Nat) (f : Bytes) : (queuePath N f).Nodup := by
  refine List.nodup_cons.2 ⟨fun hm => ?_, ?_⟩
  · obtain ⟨i, -, hi⟩ := mem_retryQueueIds.1 hm
    exact pushQueueId_ne_base _ i hi.symm
  · exact (List.nodup_range N).map (fun _ _ => pushQueueId_idx_inj)

/-- **The queue paths of two flows are disjoint** unless one flow's name is the other's
followed by `-push-<i>` with `i` below the retry count. -/
theorem queuePath_disjoint {N : Nat} {f g : Bytes} (hfg : f ≠ g)
    (hf : ∀ i < N, f ≠ g ++ lit "-push-" ++ itoa i) (hg : ∀ i < N, g ≠ f ++ lit "-push-" ++ itoa i) :
    (queuePath N f).Disjoint (queuePath N g) := by
  intro q hqf hqg
  simp only [queuePath, List.mem_cons, mem_retryQueueIds] at hqf hqg
  rcases hqf with rfl | ⟨i, hi, rfl⟩ <;> rcases hqg with h | ⟨j, hj, h⟩
  · exact hfg (internalRequestQueueId_inj h)
  · exact hf j hj (internalRequestQueueId_eq_pushQueueId.1 h)
  · exact hg i hi (internalRequestQueueId_eq_pushQueueId.1 h.symm)
  · exact hfg (pushQueueId_inj h).1

/-! ### Deliveries along a path -/

/-- How the deliveries of a message end. -/
inductive Fate
  /-- a handle with no push queue fetched it, and its consumer rejected it -/
  | rejected
  /-- a prefetcher with no consumer fetched it: it is never handed to `Consume` -/
  | stranded
  /-- no handle consumes its queue: it stays ready -/
  | waiting
  deriving DecidableEq, Repr

/-- The queues on which a message published to queue `q` is handed to `Consume` when every
`Consume` of it fails, in order, and how its deliveries end. A consuming handle of `q`
fetches it. With a consumer, a failing `Consume` calls `Push`
(`consumeStep` at `.start`), which moves the message to the handle's push queue, where the
deliveries go on, or, without a push queue, rejects it. With no consumer the message stays
with the prefetcher. -/
inductive Conn.Journey (c : Conn) : Bytes → List Bytes → Fate → Prop
  | rejected {h : Queue} : h ∈ c.queues → h.consuming = true → 0 < h.consumers →
      h.pushQueue = none → c.Journey h.name [h.name] .rejected
  | pushed {h : Queue} {q : Bytes} {qs : List Bytes} {e : Fate} : h ∈ c.queues →
      h.consuming = true → 0 < h.consumers → h.pushQueue = some q → c.Journey q qs e →
      c.Journey h.name (h.name :: qs) e
  | stranded {h : Queue} : h ∈ c.queues → h.consuming = true → h.consumers = 0 →
      c.Journey h.name [] .stranded
  | waiting {q : Bytes} : (∀ h ∈ c.queues, h.name = q → h.consuming = false) → c.Journey q [] .waiting

/-- Every consuming handle of a queue on `path` has a consumer and is linked as on `path`. -/
def Conn.LinkedAlong (c : Conn) (path : List Bytes) : Prop :=
  ∀ h ∈ c.queues, h.consuming = true → h.name ∈ path →
    0 < h.consumers ∧ (h.name, h.pushQueue) ∈ pathLinks path

/-- Every link of `path` is a consuming handle's. -/
def Conn.Covers (c : Conn) (path : List Bytes) : Prop :=
  ∀ l ∈ pathLinks path, ∃ h ∈ c.queues, h.consuming = true ∧ (h.name, h.pushQueue) = l

theorem pathLinks_fst (path : List Bytes) : (pathLinks path).map Prod.fst = path := by
  induction path with
  | nil => rfl
  | cons n ns ih => simp [pathLinks, ih]

theorem mem_of_mem_pathLinks {path : List Bytes} {l : Bytes × Option Bytes} (h : l ∈ pathLinks path) :
    l.1 ∈ path := by
  simpa [pathLinks_fst] using List.mem_map_of_mem Prod.fst h

/-- In a simple path each queue has one successor. -/
theorem pathLinks_unique {path : List Bytes} (hnd : path.Nodup) {n : Bytes} {x y : Option Bytes}
    (hx : (n, x) ∈ pathLinks path) (hy : (n, y) ∈ pathLinks path) : x = y := by
  induction path with
  | nil => simp [pathLinks] at hx
  | cons m ms ih =>
    have hm := (List.nodup_cons.1 hnd).1
    simp only [pathLinks, List.mem_cons, Prod.mk.injEq] at hx hy
    rcases hx with ⟨rfl, rfl⟩ | hx <;> rcases hy with ⟨hn, rfl⟩ | hy
    · rfl
    · exact absurd (mem_of_mem_pathLinks hy) hm
    · exact absurd (hn ▸ mem_of_mem_pathLinks hx) hm
    · exact ih (List.nodup_cons.1 hnd).2 hx hy

theorem pathLinks_of_suffix {path rest : List Bytes} {q : Bytes} (h : (q :: rest) <:+ path) :
    (q, rest.head?) ∈ pathLinks path := by
  induction path with
  | nil => simp at h
  | cons m ms ih =>
    rcases List.suffix_cons_iff.1 h with h | h
    · cases h; simp [pathLinks]
    · exact List.mem_cons_of_mem _ (ih h)

variable {c : Conn} {path rest : List Bytes} {q : Bytes}

/-- A consuming handle of a queue on the path has a consumer and links the queue to the
next one. -/
theorem Conn.LinkedAlong.next (hnd : path.Nodup) (hl : c.LinkedAlong path) {h : Queue}
    (hs : (h.name :: rest) <:+ path) (hh : h ∈ c.queues) (hc : h.consuming = true) :
    0 < h.consumers ∧ h.pushQueue = rest.head? :=
  have hlink := hl h hh hc (hs.subset (List.mem_cons_self _ _))
  ⟨hlink.1, pathLinks_unique hnd hlink.2 (pathLinks_of_suffix hs)⟩

/-- Each queue on a covered path has a consuming handle linking it to the next one. -/
theorem Conn.Covers.handle (hv : c.Covers path) (hs : (q :: rest) <:+ path) :
    ∃ h ∈ c.queues, h.consuming = true ∧ h.name = q ∧ h.pushQueue = rest.head? := by
  obtain ⟨h, hh, hc, he⟩ := hv _ (pathLinks_of_suffix hs)
  exact ⟨h, hh, hc, Prod.mk.inj_iff.1 he⟩

section Path

variable (hnd : path.Nodup) (hl : c.LinkedAlong path) (hv : c.Covers path)
include hnd hl hv

/-- On a linked and covered path, a message is handed to a consumer on every queue from its
own to the end of the path, and then rejected. -/
theorem journey_of_path : ∀ {rest : List Bytes} {q : Bytes}, (q :: rest) <:+ path →
    c.Journey q (q :: rest) .rejected
  | [], _, hs => by
    obtain ⟨h, hh, hc, rfl, hp⟩ := hv.handle hs
    exact .rejected hh hc (hl.next hnd hs hh hc).1 hp
  | r :: rest, _, hs => by
    obtain ⟨h, hh, hc, rfl, hp⟩ := hv.handle hs
    exact .pushed hh hc (hl.next hnd hs hh hc).1 hp
      (journey_of_path ((List.suffix_cons _ _).trans hs))

/-- On a linked and covered path, that is the only journey. -/
theorem path_of_journey {qs : List Bytes} {e : Fate} (hj : c.Journey q qs e) :
    ∀ {rest : List Bytes}, (q :: rest) <:+ path → qs = q :: rest ∧ e = .rejected := by
  induction hj with
  | rejected hh hc _ hp =>
    intro rest hs
    obtain ⟨-, hr⟩ := hl.next hnd hs hh hc
    rcases rest with _ | ⟨r, rest⟩
    · exact ⟨rfl, rfl⟩
    · cases hp.symm.trans hr
  | pushed hh hc _ hp _ ih =>
    intro rest hs
    obtain ⟨-, hr⟩ := hl.next hnd hs hh hc
    rcases rest with _ | ⟨r, rest⟩
    · cases hp.symm.trans hr
    · cases hp.symm.trans hr
      obtain ⟨rfl, rfl⟩ := ih ((List.suffix_cons _ _).trans hs)
      exact ⟨rfl, rfl⟩
  | stranded hh hc h0 =>
    intro rest hs
    exact absurd h0 (hl.next hnd hs hh hc).1.ne'
  | waiting hw =>
    intro rest hs
    obtain ⟨h, hh, hc, hn, -⟩ := hv.handle hs
    exact absurd ((hw h hh hn).symm.trans hc) Bool.false_ne_true

/-- **Deliveries along a simple path.** When the consuming handles of the path's queues
have consumers and are exactly linked along it, a message on one of its queues is handed to
`Consume` on the rest of the path, once on each queue, and then rejected. -/
theorem journey_path (hs : (q :: rest) <:+ path) (qs : List Bytes) (e : Fate) :
    c.Journey q qs e ↔ qs = q :: rest ∧ e = .rejected :=
  ⟨fun hj => path_of_journey hnd hl hv hj hs, fun ⟨hq, he⟩ => hq ▸ he ▸ journey_of_path hnd hl hv hs⟩

end Path

theorem flowHandles_links (N conc : Nat) (f : Bytes) :
    (flowHandles N conc f).map (fun h => (h.name, h.pushQueue)) = pathLinks (queuePath N f) := by
  simp [flowHandles, queuePath, pathLinks, Function.comp_def]

/-- The handles of a flow consume, each with a consumer when `Concurrency` is positive. -/
theorem flowHandles_serving {N conc : Nat} {f : Bytes} (hconc : 0 < conc) {h : Queue}
    (hh : h ∈ flowHandles N conc f) : h.consuming = true ∧ 0 < h.consumers := by
  simp only [flowHandles, List.mem_cons, List.mem_map] at hh
  rcases hh with rfl | ⟨l, -, rfl⟩
  · exact ⟨rfl, hconc⟩
  · exact ⟨rfl, Nat.one_pos⟩

/-- A connection holding a flow's handles covers its queue path. -/
theorem covers_of_flowHandles {N conc : Nat} {f : Bytes} (hconc : 0 < conc)
    (hsub : ∀ h ∈ flowHandles N conc f, h ∈ c.queues) : c.Covers (queuePath N f) := by
  intro l hl
  rw [← flowHandles_links, List.mem_map] at hl
  obtain ⟨h, hh, rfl⟩ := hl
  exact ⟨h, hsub h hh, (flowHandles_serving hconc hh).1, rfl⟩

/-! ### Serving connections -/

/-- Every consuming handle of the connection has a consumer and is linked as on the queue
path of one of the flows `fs`: what successful initialisations of `fs` leave. -/
def Conn.Serves (c : Conn) (N : Nat) (fs : List Bytes) : Prop :=
  ∀ h ∈ c.queues, h.consuming = true →
    0 < h.consumers ∧ ∃ g ∈ fs, (h.name, h.pushQueue) ∈ pathLinks (queuePath N g)

variable {N conc : Nat} {fs : List Bytes}

theorem Conn.Serves.mono {fs' : List Bytes} (hs : c.Serves N fs) (hsub : fs ⊆ fs') : c.Serves N fs' :=
  fun h hh hc => (hs h hh hc).imp_right fun ⟨g, hg, hl⟩ => ⟨g, hsub hg, hl⟩

/-- Handles that serve `fs`, appended to a connection that serves `fs`. -/
theorem Conn.Serves.append_flowHandles {c' : Conn} (hconc : 0 < conc) (hs : c.Serves N fs)
    (hq : c'.queues = c.queues ++ fs.flatMap (flowHandles N conc)) : c'.Serves N fs := by
  intro h hh hc
  rw [hq, List.mem_append, List.mem_flatMap] at hh
  rcases hh with hh | ⟨g, hg, hh⟩
  · exact hs h hh hc
  · refine ⟨(flowHandles_serving hconc hh).2, g, hg, ?_⟩
    rw [← flowHandles_links]
    exact List.mem_map_of_mem _ hh

theorem Conn.serves_stopAllConsuming (c : Conn) : c.stopAllConsuming.Serves N fs := by
  intro h hh hc
  simp only [Conn.stopAllConsuming, List.mem_map] at hh
  obtain ⟨a, -, rfl⟩ := hh
  cases hc

/-- On a serving connection, the handles of a flow's queues are linked along its path when
the flow's path is disjoint from the others'. -/
theorem Conn.Serves.linkedAlong {f : Bytes} (hs : c.Serves N fs)
    (hdisj : ∀ g ∈ fs, g ≠ f → (queuePath N f).Disjoint (queuePath N g)) : c.LinkedAlong (queuePath N f) := by
  intro h hh hc hn
  obtain ⟨hpos, g, hg, hl⟩ := hs h hh hc
  refine ⟨hpos, ?_⟩
  by_cases hgf : g = f
  · exact hgf ▸ hl
  · exact absurd (mem_of_mem_pathLinks hl) (hdisj g hg hgf hn)

/-- The name condition makes the paths of distinct flows disjoint. -/
theorem paths_disjoint (hname : ∀ f ∈ fs, ∀ g ∈ fs, ∀ i < N, f ≠ g ++ lit "-push-" ++ itoa i)
    {f : Bytes} (hf : f ∈ fs) : ∀ g ∈ fs, g ≠ f → (queuePath N f).Disjoint (queuePath N g) :=
  fun g hg hgf => queuePath_disjoint (Ne.symm hgf) (hname f hf g hg) (hname g hg f hf)

/-- **The retry chains.** Let `Concurrency` be positive, let no flow's name be another's
followed by `-push-<i>` with `i` below `RetryQueueCount` `N`, and let `initializeTaskQueues`
succeed on a connection whose consuming handles serve the flows (on a fresh connection, or
after earlier initialisations of the same flows, as `Register` in worker mode does). Then the
connection holds each flow's handles, linked along the flow's queue path of `N + 1` queues,
and still serves the flows; the path is simple and shares no queue with another flow's; and
a message published for a flow that fails on every delivery is handed to `Consume` exactly
on the queues of the path, once on each, and then rejected. -/
theorem retry_chain (env : Faults) (N conc : Nat) (c : Conn) (tq : TaskQueues) (fs : List Bytes)
    (hconc : 0 < conc) (hprev : c.Serves N fs)
    (hname : ∀ f ∈ fs, ∀ g ∈ fs, ∀ i < N, f ≠ g ++ lit "-push-" ++ itoa i)
    (hok : (initializeTaskQueues env N conc c tq fs).2.2 = none) :
    (initializeTaskQueues env N conc c tq fs).1.queues = c.queues ++ fs.flatMap (flowHandles N conc) ∧
      (initializeTaskQueues env N conc c tq fs).1.Serves N fs ∧
      ∀ f ∈ fs, (queuePath N f).length = N + 1 ∧ (queuePath N f).Nodup ∧
        (∀ g ∈ fs, g ≠ f → (queuePath N f).Disjoint (queuePath N g)) ∧
        ∀ qs e, (initializeTaskQueues env N conc c tq fs).1.Journey (internalRequestQueueId f) qs e ↔
          qs = queuePath N f ∧ e = .rejected := by
  have hq := initializeTaskQueues_ok hok
  have hs := hprev.append_flowHandles hconc hq
  refine ⟨hq, hs, fun f hf => ⟨by simp [queuePath, retryQueueIds], queuePath_nodup N f,
    paths_disjoint hname hf, journey_path (queuePath_nodup N f) (hs.linkedAlong (paths_disjoint hname hf))
      (covers_of_flowHandles hconc fun h hh => ?_) (List.suffix_refl _)⟩⟩
  rw [hq]
  exact List.mem_append_right _ (List.mem_flatMap.2 ⟨f, hf, hh⟩)

theorem retry_chain_two_flows :
    0 < 1 ∧ (⟨[], 0⟩ : Conn).Serves 2 [lit "a", lit "b"] ∧
      (∀ f ∈ [lit "a", lit "b"], ∀ g ∈ [lit "a", lit "b"], ∀ i < 2, f ≠ g ++ lit "-push-" ++ itoa i) ∧
      (initializeTaskQueues (fun _ => none) 2 1 ⟨[], 0⟩ none [lit "a", lit "b"]).2.2 = none ∧
      ∀ qs e, (initializeTaskQueues (fun _ => none) 2 1 ⟨[], 0⟩ none [lit "a", lit "b"]).1.Journey
        (internalRequestQueueId (lit "a")) qs e ↔ qs = queuePath 2 (lit "a") ∧ e = .rejected := by
  have h1 : (⟨[], 0⟩ : Conn).Serves 2 [lit "a", lit "b"] := nofun
  have h2 : ∀ f ∈ [lit "a", lit "b"], ∀ g ∈ [lit "a", lit "b"], ∀ i < 2, f ≠ g ++ lit "-push-" ++ itoa i := by
    decide
  have h3 : (initializeTaskQueues (fun _ => none) 2 1 ⟨[], 0⟩ none [lit "a", lit "b"]).2.2 = none := by
    decide
  exact ⟨Nat.one_pos, h1, h2, h3,
    ((retry_chain (fun _ => none) 2 1 ⟨[], 0⟩ none _ Nat.one_pos h1 h2 h3).2.2 (lit "a") (by decide)).2.2.2⟩

/-- **Two flows sharing a queue, and a flow with no consumer.** With one retry queue, flows
`x` and `x-push-0` both initialise, and `x`'s retry queue is `x-push-0`'s primary queue. A
message published for `x` that always fails is handed to `Consume` on `x`'s two queues and
rejected when `x`'s retry handle fetches it there, but a third time, on `x-push-0`'s retry
queue, when `x-push-0`'s primary handle does. With `Concurrency` 0, `initializeTaskQueues`
succeeds, and a message published for `x` is fetched by a prefetcher with no consumer and
never handed to `Consume`. -/
theorem retry_chain_collision :
    (initializeTaskQueues (fun _ => none) 1 1 ⟨[], 0⟩ none [lit "x", lit "x-push-0"]).2.2 = none ∧
      (initializeTaskQueues (fun _ => none) 1 1 ⟨[], 0⟩ none [lit "x", lit "x-push-0"]).1.Journey
        (internalRequestQueueId (lit "x")) (queuePath 1 (lit "x")) .rejected ∧
      (initializeTaskQueues (fun _ => none) 1 1 ⟨[], 0⟩ none [lit "x", lit "x-push-0"]).1.Journey
        (internalRequestQueueId (lit "x"))
        (queuePath 1 (lit "x") ++ [pushQueueId (internalRequestQueueId (lit "x-push-0")) 0]) .rejected ∧
      (initializeTaskQueues (fun _ => none) 1 0 ⟨[], 0⟩ none [lit "x"]).2.2 = none ∧
      (initializeTaskQueues (fun _ => none) 1 0 ⟨[], 0⟩ none [lit "x"]).1.Journey
        (internalRequestQueueId (lit "x")) [] .stranded := by
  refine ⟨by decide, ?_, ?_, by decide, ?_⟩
  · exact .pushed (h := ⟨internalRequestQueueId (lit "x"), some (internalRequestQueueId (lit "x-push-0")), true, 1⟩)
      (by decide) rfl Nat.one_pos rfl (.rejected (h := ⟨internalRequestQueueId (lit "x-push-0"), none, true, 1⟩)
        (by decide) rfl Nat.one_pos rfl)
  · exact .pushed (h := ⟨internalRequestQueueId (lit "x"), some (internalRequestQueueId (lit "x-push-0")), true, 1⟩)
      (by decide) rfl Nat.one_pos rfl
      (.pushed (h := ⟨internalRequestQueueId (lit "x-push-0"),
          some (pushQueueId (internalRequestQueueId (lit "x-push-0")) 0), true, 1⟩) (by decide) rfl Nat.one_pos rfl
        (.rejected (h := ⟨pushQueueId (internalRequestQueueId (lit "x-push-0")) 0, none, true, 1⟩)
          (by decide) rfl Nat.one_pos rfl))
  · exact .stranded (h := ⟨internalRequestQueueId (lit "x"), some (pushQueueId (internalRequestQueueId (lit "x")) 0),
      true, 0⟩) (by decide) rfl rfl

/-! ### The retry chains over runs of calls -/

namespace FlowRuntime

variable {H : Type} (env : Faults) {rt : FlowRuntime H}

/-- What successful calls keep on a runtime. -/
structure ChainInv (rt : FlowRuntime H) : Prop where
  /-- Every consuming handle has a consumer and is linked as on a registered flow's path. -/
  serves : rt.conn.Serves rt.retryQueueCount rt.flows.names
  /-- In worker mode every registered flow's path is linked by consuming handles. -/
  covers : rt.workerMode = true → ∀ f ∈ rt.flows.names, rt.conn.Covers (queuePath rt.retryQueueCount f)

theorem chainInv_init (conc N : Nat) : (init conc N : FlowRuntime H).ChainInv where
  serves := nofun
  covers := nofun

/-- A successful `initializeTaskQueues` on a serving connection initialises every registered
flow. -/
theorem chainInv_initQueues (hconc : 0 < rt.concurrency)
    (hs : rt.conn.Serves rt.retryQueueCount rt.flows.names) (hok : (initQueues env rt).2 = none) :
    (initQueues env rt).1.ChainInv := by
  have hq := initializeTaskQueues_ok hok
  refine ⟨hs.append_flowHandles hconc hq, fun _ f hf => covers_of_flowHandles hconc fun h hh => ?_⟩
  rw [initQueues_conn, hq]
  exact List.mem_append_right _ (List.mem_flatMap.2 ⟨f, hf, hh⟩)

/-- **A successful call keeps `ChainInv`.** -/
theorem chainInv_call (hconc : 0 < rt.concurrency) (h : rt.ChainInv) {c : Call H}
    (hok : (call env rt c).2 = none) : (call env rt c).1.ChainInv := by
  cases c with
  | register flows =>
    by_cases hr : ∃ n ∈ flows.names, rt.flows.contains n = true
    · obtain ⟨n, -, -, he⟩ := register_of_registered env hr
      simp [call, he] at hok
    have hsub : rt.flows.names ⊆ (rt.flows.setAll flows).names := fun _ hn =>
      FlowMap.mem_names_setAll.2 (.inr hn)
    rw [call, register_of_unregistered env (by simpa using hr)] at hok ⊢
    split at hok
    · rename_i hinit
      rw [if_pos hinit]
      exact chainInv_initQueues env hconc (h.serves.mono hsub) (Option.map_eq_none'.1 hok)
    · rename_i hinit
      rw [if_neg hinit]
      refine ⟨h.serves.mono hsub, fun hw => ?_⟩
      -- in worker mode only an empty `Register` skips the initialisation, and sets nothing
      have he : flows.entries = [] :=
        List.isEmpty_iff.1 (by simpa [show rt.workerMode = true from hw] using hinit)
      simpa only [FlowMap.setAll, he, List.foldl_nil] using h.covers hw
  | enterWorkerMode =>
    rw [call, enterWorkerMode_eq] at hok ⊢
    split at hok
    · rename_i hw
      rw [if_pos hw]
      exact h
    · rename_i hw
      rw [if_neg hw]
      exact chainInv_initQueues env hconc h.serves (Option.map_eq_none'.1 hok)
  | exitWorkerMode =>
    simp only [call, exitWorkerMode]
    split
    · exact h
    · exact ⟨Conn.serves_stopAllConsuming _, nofun⟩

/-- Successful calls from a runtime satisfying `ChainInv` keep it. -/
theorem chainInv_runCalls (cs : List (Call H)) (hconc : 0 < rt.concurrency) (h : rt.ChainInv)
    (hok : ∀ r ∈ (runCalls env rt cs).2, r = none) : (runCalls env rt cs).1.ChainInv := by
  induction cs generalizing rt with
  | nil => exact h
  | cons c cs ih =>
    have hc : (call env rt c).2 = none := hok _ (List.mem_cons_self _ _)
    exact ih ((call_config env rt c).1 ▸ hconc) (chainInv_call env hconc h hc)
      fun r hr => hok r (List.mem_cons_of_mem _ hr)

/-- **The retry chains after any successful calls.** Start from a runtime after `Init` with
a positive `Concurrency` and `RetryQueueCount` `N`, and make any sequence of `Register`,
`EnterWorkerMode` and `ExitWorkerMode` calls that all return `nil`. If the runtime is then in
worker mode and no registered name is another's followed by `-push-<i>` with `i < N`, a
message published for a registered flow that fails on every delivery is handed to `Consume`
exactly on the queues of the flow's path, once on each, and then rejected, however often the
flows' queues were initialised. -/
theorem retry_chain_after_calls {conc N : Nat} {cs : List (Call H)} {rs : List (Option Bytes)}
    (hconc : 0 < conc) (hrun : runCalls env (init conc N) cs = (rt, rs)) (hok : ∀ r ∈ rs, r = none)
    (hname : ∀ f ∈ rt.flows.names, ∀ g ∈ rt.flows.names, ∀ i < N, f ≠ g ++ lit "-push-" ++ itoa i)
    (hwork : rt.workerMode = true) :
    ∀ f ∈ rt.flows.names, ∀ qs e,
      rt.conn.Journey (internalRequestQueueId f) qs e ↔ qs = queuePath N f ∧ e = .rejected := by
  have hinv := chainInv_runCalls env cs hconc (chainInv_init conc N) (by rw [hrun]; exact hok)
  have hN : rt.retryQueueCount = N := by simpa [hrun] using (runCalls_config env (init conc N) cs).2
  rw [hrun] at hinv
  intro f hf
  have hs : rt.conn.Serves N rt.flows.names := hN ▸ hinv.serves
  have hv : rt.conn.Covers (queuePath N f) := hN ▸ hinv.covers hwork f hf
  exact journey_path (queuePath_nodup N f) (hs.linkedAlong (paths_disjoint hname hf)) hv (List.suffix_refl _)

theorem retry_chain_after_reregistration :
    (runCalls (fun _ => none) (init 2 1) reregistration).2 = [none, none, none] ∧
      (runCalls (fun _ => none) (init 2 1) reregistration).1.workerMode = true ∧
      ∀ qs e, (runCalls (fun _ => none) (init 2 1) reregistration).1.conn.Journey
        (internalRequestQueueId (lit "a")) qs e ↔ qs = queuePath 1 (lit "a") ∧ e = .rejected := by
  have hrun : runCalls (fun _ => none) (init 2 1) reregistration =
      ((runCalls (fun _ => none) (init 2 1) reregistration).1,
        (runCalls (fun _ => none) (init 2 1) reregistration).2) := rfl
  have hok : (runCalls (fun _ => none) (init 2 1) reregistration).2 = [none, none, none] := by decide
  have hwork : (runCalls (fun _ => none) (init 2 1) reregistration).1.workerMode = true := by decide
  exact ⟨hok, hwork, retry_chain_after_calls (fun _ => none) (by decide) hrun (by rw [hok]; decide)
    (by decide) hwork _ (by decide)⟩

end FlowRuntime

end Goflow
