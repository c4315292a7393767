import Goflow.Basic

/-!
# The Redis keyspace and its string commands

Both stores of the runtime keep their entries as Redis strings. The keyspace is
a function from key to value (`none`: the key does not exist); `SET`, `DEL` and
`INCRBY` are the commands the stores send, each atomic at the server.

`INCRBY` reads the old value with Redis's `string2ll` (strict decimal, 64-bit),
fails without writing on a value that is not such an integer or on overflow,
and stores the sum in decimal.

* `string2ll_ll2string`: the decimal form `INCRBY` writes reads back as the value written.
-/

namespace Goflow

/-- The Redis keyspace, restricted to string values. -/
abbrev Keyspace := Bytes → Option Bytes

namespace Keyspace

/-- `SET key value`. -/
def set (ks : Keyspace) (k v : Bytes) : Keyspace := fun k' => if k' = k then some v else ks k'

/-- `DEL key`. -/
def del (ks : Keyspace) (k : Bytes) : Keyspace := fun k' => if k' = k then none else ks k'

@[simp] theorem set_same (ks : Keyspace) (k v : Bytes) : ks.set k v k = some v := by simp [set]

@[simp] theorem set_other (ks : Keyspace) {k k' : Bytes} (v : Bytes) (h : k' ≠ k) :
    ks.set k v k' = ks k' := by simp [set, h]

@[simp] theorem del_same (ks : Keyspace) (k : Bytes) : ks.del k k = none := by simp [del]

@[simp] theorem del_other (ks : Keyspace) {k k' : Bytes} (h : k' ≠ k) : ks.del k k' = ks k' := by
  simp [del, h]

end Keyspace

/-- The value of a run of decimal digits. -/
def digitsValue (ds : Bytes) : Nat := ds.foldl (fun v b => 10 * v + (b.toNat - 48)) 0

/-- Redis `string2ll`: a 64-bit integer in strict decimal form (at most 20 bytes, an
optional `-`, no leading zero, no `+`, no blank). -/
def string2ll (s : Bytes) : Option Int :=
  if s.length = 0 ∨ 21 ≤ s.length then none
  else if s = [48] then some 0
  else
    let (neg, ds) := match s with
      | 45 :: t => (true, t)
      | t => (false, t)
    match ds with
    | d :: _ =>
      if 49 ≤ d ∧ d ≤ 57 ∧ ds.all isDigitByte = true then
        if neg then (if digitsValue ds ≤ 9223372036854775808 then some (-(digitsValue ds : Int)) else none)
        else (if digitsValue ds < 9223372036854775808 then some (digitsValue ds : Int) else none)
      else none
    | [] => none

/-- Redis's decimal form of a 64-bit integer. -/
def ll2string (v : Int) : Bytes := if v < 0 then 45 :: itoa v.natAbs else itoa v.natAbs

/-- A value of Go's `int64`: `-2^63 ≤ v < 2^63`. -/
def InInt64 (v : Int) : Prop := -9223372036854775808 ≤ v ∧ v < 9223372036854775808

instance (v : Int) : Decidable (InInt64 v) := inferInstanceAs (Decidable (_ ∧ _))

/-! ### The decimal form reads back -/

theorem digitsValue_append (ds : Bytes) (b : UInt8) :
    digitsValue (ds ++ [b]) = 10 * digitsValue ds + (b.toNat - 48) := by
  simp only [digitsValue, List.foldl_append, List.foldl_cons, List.foldl_nil]

theorem digitByte_toNat {d : Nat} (hd : d < 10) : (digitByte d).toNat = 48 + d := by
  have key : ∀ x : Fin 10, (digitByte x).toNat = 48 + x := by decide
  exact key ⟨d, hd⟩

/-- The digits `itoa` prints have the value it printed. -/
theorem digitsValue_itoa (n : Nat) : digitsValue (itoa n) = n := by
  induction n using Nat.strong_induction_on with
  | _ n ih =>
    rw [itoa_eq, digitsValue_append, digitByte_toNat (Nat.mod_lt _ (by omega))]
    split
    · simp only [digitsValue, List.foldl_nil]
      omega
    · rw [ih _ (by omega)]
      omega

/-- The first digit of a positive number is not `0`. -/
theorem itoa_head {n : Nat} (hn : 0 < n) : ∃ d t, itoa n = d :: t ∧ 49 ≤ d ∧ d ≤ 57 := by
  induction n using Nat.strong_induction_on with
  | _ n ih =>
    rw [itoa_eq]
    split
    · have key : ∀ x : Fin 10, 0 < x.val → 49 ≤ digitByte x ∧ digitByte x ≤ 57 := by decide
      exact ⟨_, [], rfl, key ⟨n % 10, Nat.mod_lt _ (by omega)⟩ (by simp only; omega)⟩
    · obtain ⟨d, t, ht, hd⟩ := ih (n / 10) (by omega) (by omega)
      exact ⟨d, t ++ [digitByte (n % 10)], by rw [ht]; rfl, hd⟩

/-- A number below `10 ^ (k + 1)` prints in at most `k + 1` digits. -/
theorem itoa_length_le : ∀ {k n : Nat}, n < Nat.pow 10 (k + 1) → (itoa n).length ≤ k + 1
  | 0, n, h => by rw [itoa_of_lt h]; rfl
  | k + 1, n, h => by
    rw [itoa_eq]
    split
    · simp
    · have h' : n < Nat.pow 10 (k + 1) * 10 := h
      have := itoa_length_le (k := k) (n := n / 10) (by omega)
      simp only [List.length_append, List.length_singleton]
      omega

/-- `string2ll` of the digits of a positive number, with no sign. -/
theorem string2ll_digits {d : UInt8} {t : Bytes} (hd : 49 ≤ d ∧ d ≤ 57)
    (hall : (d :: t).all isDigitByte = true) (hlen : t.length < 19)
    (hv : digitsValue (d :: t) < 9223372036854775808) :
    string2ll (d :: t) = some (digitsValue (d :: t) : Int) := by
  have h48 : ¬(d :: t = [48]) := fun h => by
    rw [List.cons.injEq] at h; rw [h.1] at hd; exact absurd hd.1 (by decide)
  have h45 : d ≠ 45 := fun h => by rw [h] at hd; exact absurd hd.1 (by decide)
  have hne : ∀ t', d :: t ≠ 45 :: t' := fun t' h => h45 (List.cons.inj h).1
  simp only [string2ll, h48, hne, hd, hall, and_self, if_true, if_false, Bool.false_eq_true, hv,
    List.length_cons]
  exact if_neg (by omega)

/-- `string2ll` of a `-` and the digits of a positive number. -/
theorem string2ll_neg_digits {d : UInt8} {t : Bytes} (hd : 49 ≤ d ∧ d ≤ 57)
    (hall : (d :: t).all isDigitByte = true) (hlen : t.length < 19)
    (hv : digitsValue (d :: t) ≤ 9223372036854775808) :
    string2ll (45 :: d :: t) = some (-(digitsValue (d :: t) : Int)) := by
  have h48 : ¬(45 :: d :: t = [48]) := fun h => absurd (List.cons.inj h).1 (by decide)
  simp only [string2ll, h48, hd, hall, and_self, if_true, if_false, hv, List.length_cons]
  exact if_neg (by omega)

/-- **`string2ll` reads back what `ll2string` writes**, for every 64-bit value: the decimal
form `INCRBY` stores is one that it accepts. -/
theorem string2ll_ll2string {v : Int} (hv : InInt64 v) : string2ll (ll2string v) = some v := by
  by_cases h0 : v = 0
  · subst h0; rfl
  obtain ⟨d, t, ht, hd⟩ := itoa_head (n := v.natAbs) (by omega)
  have hall := List.all_eq_true.2 (itoa_digits v.natAbs)
  have hval := digitsValue_itoa v.natAbs
  have hlen := itoa_length_le (k := 18) (n := v.natAbs)
    ((show Nat.pow 10 19 = 10000000000000000000 from rfl) ▸ by unfold InInt64 at hv; omega)
  rw [ht] at hall hval hlen
  rw [List.length_cons] at hlen
  unfold InInt64 at hv
  unfold ll2string
  rw [ht]
  split
  · rw [string2ll_neg_digits hd hall (by omega) (by omega), hval]
    congr 1
    omega
  · rw [string2ll_digits hd hall (by omega) (by omega), hval]
    congr 1
    omega

theorem string2ll_ll2string_neg : InInt64 (-42) ∧ string2ll (ll2string (-42)) = some (-42) :=
  ⟨by decide, string2ll_ll2string (by decide)⟩

/-- `INCRBY key delta`: a missing key counts as `0`; the reply is the new value. -/
def incrBy (ks : Keyspace) (k : Bytes) (d : Int) : Except Bytes (Keyspace × Int) :=
  match (match ks k with | none => some 0 | some v => string2ll v) with
  | none => .error (lit "ERR value is not an integer or out of range")
  | some old =>
    if ¬ InInt64 d then .error (lit "ERR value is not an integer or out of range")
    else if ¬ InInt64 (old + d) then .error (lit "ERR increment or decrement would overflow")
    else .ok (ks.set k (ll2string (old + d)), old + d)

/-- `INCRBY` writes its own key and no other. -/
theorem incrBy_other {ks ks' : Keyspace} {k k' : Bytes} {d v : Int}
    (h : incrBy ks k d = .ok (ks', v)) (hk : k' ≠ k) : ks' k' = ks k' := by
  unfold incrBy at h
  split at h
  · cases h
  · split at h
    · cases h
    · split at h
      · cases h
      · cases h; exact Keyspace.set_other _ _ hk

example : (incrBy (fun _ => some (lit "41")) (lit "n") 1).toOption.map Prod.snd = some 42 := by
  decide

end Goflow
