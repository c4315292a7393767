import Goflow.Basic

/-!
# Go maps with string keys

A Go `map[string]V` is kept as its entries in increasing key order, each key once
(`GoMap`): the order `Marshal` writes them in (`strings.Compare`), and the form in which
two maps with the same entries are equal. `Unmarshal` fills a map by `SetMapIndex`, one
member after the other (`GoMap.insert`).

* `bytesLt` is a strict total order (`bytesLt_irrefl`, `bytesLt_trans`, `bytesLt_total`),
  so `insertEntry` keeps the entries sorted.
* `foldl_insert`: inserting the entries of a map in order, into a map whose keys are all
  smaller, appends them.
-/

namespace Goflow

/-- `strings.Compare(a, b) < 0`: bytewise order, a proper prefix first. -/
def bytesLt : Bytes → Bytes → Bool
  | [], [] => false
  | [], _ :: _ => true
  | _ :: _, [] => false
  | a :: as, b :: bs => a < b || (a == b && bytesLt as bs)

theorem bytesLt_irrefl : ∀ a : Bytes, bytesLt a a = false
  | [] => rfl
  | a :: as => by simp [bytesLt, bytesLt_irrefl as]

theorem bytesLt_trans : ∀ {a b c : Bytes}, bytesLt a b = true → bytesLt b c = true →
    bytesLt a c = true
  | [], _ :: _, _ :: _, _, _ => rfl
  | a :: as, b :: bs, c :: cs, hab, hbc => by
    simp only [bytesLt, Bool.or_eq_true, decide_eq_true_eq, Bool.and_eq_true, beq_iff_eq] at *
    rcases hab with hab | ⟨rfl, hab⟩ <;> rcases hbc with hbc | ⟨rfl, hbc⟩
    · exact .inl (UInt8.lt_trans hab hbc)
    · exact .inl hab
    · exact .inl hbc
    · exact .inr ⟨rfl, bytesLt_trans hab hbc⟩
  | [], [], _, h, _ | _ :: _, [], _, h, _ | _, _ :: _, [], _, h => by
    simp [bytesLt] at h

theorem bytesLt_total : ∀ {a b : Bytes}, a ≠ b → bytesLt a b = true ∨ bytesLt b a = true
  | [], [], h => absurd rfl h
  | [], _ :: _, _ | _ :: _, [], _ => by simp [bytesLt]
  | a :: as, b :: bs, h => by
    simp only [bytesLt, Bool.or_eq_true, decide_eq_true_eq, Bool.and_eq_true, beq_iff_eq]
    by_cases hab : a = b
    · subst hab
      have := bytesLt_total (fun h' : as = bs => h (by rw [h']))
      tauto
    · have : a.toNat ≠ b.toNat := fun h' => hab (UInt8.toNat.inj h')
      have : a.toNat < b.toNat ∨ b.toNat < a.toNat := by omega
      exact this.imp (fun h' => .inl h') (fun h' => .inl h')

theorem bytesLt_asymm {a b : Bytes} (h : bytesLt a b = true) : bytesLt b a = false := by
  cases hba : bytesLt b a
  · rfl
  · simpa [bytesLt_irrefl] using bytesLt_trans h hba

/-- A Go `map[string]V`: its entries in increasing key order, each key once. -/
structure GoMap (V : Type) where
  entries : List (Bytes × V)
  sorted : (entries.map Prod.fst).Pairwise fun a b => bytesLt a b = true

namespace GoMap

variable {V : Type}

/-- The empty map `make(map[string]V)`. -/
def empty : GoMap V := ⟨[], List.Pairwise.nil⟩

/-- `m[k] = v` on the entries: the key's place in the order, replacing an equal key. -/
def insertEntry (k : Bytes) (v : V) : List (Bytes × V) → List (Bytes × V)
  | [] => [(k, v)]
  | e :: es =>
    if bytesLt k e.1 then (k, v) :: e :: es
    else if k = e.1 then (k, v) :: es
    else e :: insertEntry k v es

theorem mem_keys_insertEntry {k x : Bytes} {v : V} : ∀ {es : List (Bytes × V)},
    x ∈ (insertEntry k v es).map Prod.fst → x = k ∨ x ∈ es.map Prod.fst
  | [], h => by simpa [insertEntry] using h
  | e :: es, h => by
    unfold insertEntry at h
    split_ifs at h with h1 h2
    · simpa using h
    · simp only [List.map_cons, List.mem_cons] at h ⊢
      tauto
    · simp only [List.map_cons, List.mem_cons] at h ⊢
      rcases h with h | h
      · exact .inr (.inl h)
      · exact (mem_keys_insertEntry h).imp_right .inr

theorem insertEntry_sorted (k : Bytes) (v : V) : ∀ {es : List (Bytes × V)},
    (es.map Prod.fst).Pairwise (fun a b => bytesLt a b = true) →
    ((insertEntry k v es).map Prod.fst).Pairwise (fun a b => bytesLt a b = true)
  | [], _ => List.pairwise_singleton _ _
  | e :: es, h => by
    rw [List.map_cons, List.pairwise_cons] at h
    unfold insertEntry
    split_ifs with h1 h2
    · refine List.pairwise_cons.2 ⟨fun x hx => ?_, List.pairwise_cons.2 h⟩
      rcases List.mem_cons.1 hx with rfl | hx
      · exact h1
      · exact bytesLt_trans h1 (h.1 x hx)
    · rw [h2]
      exact List.pairwise_cons.2 h
    · have hlt : bytesLt e.1 k = true := (bytesLt_total (Ne.symm h2)).resolve_right (by simpa using h1)
      refine List.pairwise_cons.2 ⟨fun x hx => ?_, insertEntry_sorted k v h.2⟩
      rcases mem_keys_insertEntry hx with rfl | hx
      · exact hlt
      · exact h.1 x hx

/-- A key above every key of the entries goes last. -/
theorem insertEntry_of_lt {k : Bytes} {v : V} : ∀ {es : List (Bytes × V)},
    (∀ x ∈ es.map Prod.fst, bytesLt x k = true) → insertEntry k v es = es ++ [(k, v)]
  | [], _ => rfl
  | e :: es, h => by
    have he := h e.1 (List.mem_cons_self _ _)
    rw [insertEntry, if_neg (by simp [bytesLt_asymm he]),
      if_neg (fun h' => by simp [h', bytesLt_irrefl] at he),
      insertEntry_of_lt fun x hx => h x (List.mem_cons_of_mem _ hx)]
    rfl

/-- `SetMapIndex(k, v)`: `m[k] = v`. -/
def insert (m : GoMap V) (k : Bytes) (v : V) : GoMap V :=
  ⟨insertEntry k v m.entries, insertEntry_sorted k v m.sorted⟩

/-- **Inserting sorted entries above a map's keys appends them.** -/
theorem foldl_insert : ∀ (es : List (Bytes × V)) (m : GoMap V),
    ((m.entries ++ es).map Prod.fst).Pairwise (fun a b => bytesLt a b = true) →
    (es.foldl (fun m e => m.insert e.1 e.2) m).entries = m.entries ++ es
  | [], m, _ => (List.append_nil _).symm
  | e :: es, m, h => by
    have hins : (m.insert e.1 e.2).entries = m.entries ++ [e] := by
      rw [List.map_append, List.pairwise_append] at h
      exact insertEntry_of_lt fun x hx => h.2.2 x hx e.1 (List.mem_cons_self _ _)
    have hrest : (m.insert e.1 e.2).entries ++ es = m.entries ++ e :: es := by
      rw [hins, List.append_assoc, List.singleton_append]
    rw [List.foldl_cons, foldl_insert es _ (hrest ▸ h), hrest]

theorem ext' {m m' : GoMap V} (h : m.entries = m'.entries) : m = m' := by
  cases m; cases m'; cases h; rfl

instance [DecidableEq V] : DecidableEq (GoMap V) := fun m m' =>
  decidable_of_iff (m.entries = m'.entries) ⟨ext', fun h => h ▸ rfl⟩

end GoMap

end Goflow
