import Goflow.Basic

/-!
# UTF-8 as Go reads and writes it

`encoding/json` keeps a Go string's bytes only where they are valid UTF-8: it reads them
with `utf8.DecodeRune` and writes decoded runes back with `utf8.EncodeRune`. Both are
transcribed from `unicode/utf8` (the `first` and `acceptRanges` tables, and the masks), on
the bytes' values.

* `decodeRune_valid`: a valid encoding is read from its own bytes, whatever follows
  them, and `encodeRune` writes those bytes back.
* `replaceInvalid_of_valid`: replacing each byte that starts no valid encoding by
  `RuneError` changes nothing in a valid string.
-/

namespace Goflow

/-- `utf8.RuneError`, U+FFFD. -/
def runeError : Nat := 0xFFFD

/-- A continuation byte, `0x80`–`0xBF` (`locb`–`hicb`). -/
def isCont (b : UInt8) : Bool := 0x80 ≤ b.toNat && b.toNat ≤ 0xBF

/-- The `first` and `acceptRanges` tables for a byte at or above `0x80`: the length of the
encoding it starts and the range its second byte must lie in, or `none` (`xx`). -/
def leading (b : Nat) : Option (Nat × Nat × Nat) :=
  if b < 0xE0 then
    if b < 0xC2 then none else some (2, 0x80, 0xBF)
  else if b < 0xF0 then
    if b = 0xE0 then some (3, 0xA0, 0xBF)
    else if b = 0xED then some (3, 0x80, 0x9F)
    else some (3, 0x80, 0xBF)
  else if b < 0xF5 then
    if b = 0xF0 then some (4, 0x90, 0xBF)
    else if b = 0xF4 then some (4, 0x80, 0x8F)
    else some (4, 0x80, 0xBF)
  else none

/-- `utf8.DecodeRune`: the rune at the head of `p` and how many bytes it takes;
`(RuneError, 1)` for an invalid or truncated encoding, `(RuneError, 0)` for no byte. -/
def decodeRune : Bytes → Nat × Nat
  | [] => (runeError, 0)
  | b0 :: p =>
    if b0.toNat < 0x80 then (b0.toNat, 1)
    else match leading b0.toNat, p with
      | some (2, lo, hi), b1 :: _ =>
        if lo ≤ b1.toNat ∧ b1.toNat ≤ hi then (b0.toNat % 32 * 64 + b1.toNat % 64, 2)
        else (runeError, 1)
      | some (3, lo, hi), b1 :: b2 :: _ =>
        if lo ≤ b1.toNat ∧ b1.toNat ≤ hi ∧ isCont b2 then
          (b0.toNat % 16 * 4096 + b1.toNat % 64 * 64 + b2.toNat % 64, 3)
        else (runeError, 1)
      | some (4, lo, hi), b1 :: b2 :: b3 :: _ =>
        if lo ≤ b1.toNat ∧ b1.toNat ≤ hi ∧ isCont b2 ∧ isCont b3 then
          (b0.toNat % 8 * 262144 + b1.toNat % 64 * 4096 + b2.toNat % 64 * 64 + b3.toNat % 64, 4)
        else (runeError, 1)
      | _, _ => (runeError, 1)

/-- `utf8.EncodeRune`: surrogate halves and values above U+10FFFF are written as
`RuneError`. -/
def encodeRune (r : Nat) : Bytes :=
  if r < 0x80 then [r.toUInt8]
  else if r < 0x800 then [(0xC0 + r / 64).toUInt8, (0x80 + r % 64).toUInt8]
  else if 0xD800 ≤ r ∧ r ≤ 0xDFFF ∨ 0x10FFFF < r then [0xEF, 0xBF, 0xBD]
  else if r < 0x10000 then
    [(0xE0 + r / 4096).toUInt8, (0x80 + r / 64 % 64).toUInt8, (0x80 + r % 64).toUInt8]
  else [(0xF0 + r / 262144).toUInt8, (0x80 + r / 4096 % 64).toUInt8,
    (0x80 + r / 64 % 64).toUInt8, (0x80 + r % 64).toUInt8]

theorem toUInt8_of_eq {n : Nat} {b : UInt8} (h : n = b.toNat) : n.toUInt8 = b :=
  UInt8.toNat.inj (by rw [h]; exact UInt8.toNat_ofNat_of_lt (UInt8.toNat_lt_size b))

/-! ### What `decodeRune` can return -/

theorem decodeRune_ascii {b : UInt8} (p : Bytes) (hb : b.toNat < 0x80) :
    decodeRune (b :: p) = (b.toNat, 1) :=
  if_pos hb

/-- `decodeRune` on a non-empty string: an ASCII byte, an invalid byte, or a valid encoding
of two, three or four bytes. -/
theorem decodeRune_cases (b : UInt8) (p : Bytes) :
    (b.toNat < 0x80 ∧ decodeRune (b :: p) = (b.toNat, 1)) ∨
    (0x80 ≤ b.toNat ∧ decodeRune (b :: p) = (runeError, 1)) ∨
    (∃ c b1 q, p = b1 :: q ∧ decodeRune (b :: p) = (c, 2)) ∨
    (∃ c b1 b2 q, p = b1 :: b2 :: q ∧ decodeRune (b :: p) = (c, 3)) ∨
    (∃ c b1 b2 b3 q, p = b1 :: b2 :: b3 :: q ∧ decodeRune (b :: p) = (c, 4)) := by
  by_cases hlt : b.toNat < 0x80
  · exact .inl ⟨hlt, decodeRune_ascii p hlt⟩
  right
  have hge : 0x80 ≤ b.toNat := by omega
  simp only [decodeRune, hlt, if_false]
  split
  · split_ifs
    · exact .inr (.inl ⟨_, _, _, rfl, rfl⟩)
    · exact .inl ⟨hge, rfl⟩
  · split_ifs
    · exact .inr (.inr (.inl ⟨_, _, _, _, rfl, rfl⟩))
    · exact .inl ⟨hge, rfl⟩
  · split_ifs
    · exact .inr (.inr (.inr ⟨_, _, _, _, _, rfl, rfl⟩))
    · exact .inl ⟨hge, rfl⟩
  · exact .inl ⟨hge, rfl⟩

theorem decodeRune_size (b : UInt8) (p : Bytes) :
    0 < (decodeRune (b :: p)).2 ∧ (decodeRune (b :: p)).2 ≤ (b :: p).length := by
  rcases decodeRune_cases b p with ⟨-, hd⟩ | ⟨-, hd⟩ | ⟨c, b1, q, rfl, hd⟩ |
    ⟨c, b1, b2, q, rfl, hd⟩ | ⟨c, b1, b2, b3, q, rfl, hd⟩ <;> simp [hd]

theorem length_drop_decodeRune (b : UInt8) (p : Bytes) :
    ((b :: p).drop (decodeRune (b :: p)).2).length < (b :: p).length := by
  have := (decodeRune_size b p).1
  simp only [List.length_drop, List.length_cons]
  omega

/-- `utf8.Valid`: no rune on the way is an invalid encoding. -/
def validUTF8 (s : Bytes) : Bool :=
  match s with
  | [] => true
  | b :: p =>
    !(decodeRune (b :: p) = (runeError, 1)) && validUTF8 ((b :: p).drop (decodeRune (b :: p)).2)
termination_by s.length
decreasing_by exact length_drop_decodeRune _ _

/-- What a Go string becomes after a trip through JSON: each byte that starts no valid
encoding is replaced by the encoding of `RuneError`, `EF BF BD`. -/
def replaceInvalid (s : Bytes) : Bytes :=
  match s with
  | [] => []
  | b :: p =>
    (if decodeRune (b :: p) = (runeError, 1) then [0xEF, 0xBF, 0xBD]
      else (b :: p).take (decodeRune (b :: p)).2) ++
    replaceInvalid ((b :: p).drop (decodeRune (b :: p)).2)
termination_by s.length
decreasing_by exact length_drop_decodeRune _ _

/-- The lead-byte table, checked byte by byte: the length of the encoding a byte starts
fixes its range, and the range of the second byte lies within the continuation bytes,
narrowed after `E0`, `ED`, `F0` and `F4` (no overlong form, no surrogate, nothing above
U+10FFFF). -/
theorem leading_table : ∀ b < 0xF5, (match leading b with
    | some (2, lo, hi) => decide (0xC2 ≤ b ∧ b ≤ 0xDF ∧ lo = 0x80 ∧ hi = 0xBF)
    | some (3, lo, hi) => decide (0xE0 ≤ b ∧ b ≤ 0xEF ∧ 0x80 ≤ lo ∧ hi ≤ 0xBF ∧
        (b = 0xE0 → lo = 0xA0) ∧ (b = 0xED → hi = 0x9F))
    | some (4, lo, hi) => decide (0xF0 ≤ b ∧ b ≤ 0xF4 ∧ 0x80 ≤ lo ∧ hi ≤ 0xBF ∧
        (b = 0xF0 → lo = 0x90) ∧ (b = 0xF4 → hi = 0x8F))
    | some _ => false
    | none => true) = true := by
  set_option maxRecDepth 4000 in decide

theorem leading_lt {b : Nat} {x : Nat × Nat × Nat} (h : leading b = some x) : b < 0xF5 := by
  refine Nat.lt_of_not_le fun hb => ?_
  rw [leading, if_neg (by omega), if_neg (by omega), if_neg (by omega)] at h
  cases h

theorem leading_two {b lo hi : Nat} (h : leading b = some (2, lo, hi)) :
    0xC2 ≤ b ∧ b ≤ 0xDF ∧ lo = 0x80 ∧ hi = 0xBF := by
  have := leading_table b (leading_lt h)
  rw [h] at this
  exact of_decide_eq_true this

theorem leading_three {b lo hi : Nat} (h : leading b = some (3, lo, hi)) :
    0xE0 ≤ b ∧ b ≤ 0xEF ∧ 0x80 ≤ lo ∧ hi ≤ 0xBF ∧ (b = 0xE0 → lo = 0xA0) ∧ (b = 0xED → hi = 0x9F) := by
  have := leading_table b (leading_lt h)
  rw [h] at this
  exact of_decide_eq_true this

theorem leading_four {b lo hi : Nat} (h : leading b = some (4, lo, hi)) :
    0xF0 ≤ b ∧ b ≤ 0xF4 ∧ 0x80 ≤ lo ∧ hi ≤ 0xBF ∧ (b = 0xF0 → lo = 0x90) ∧ (b = 0xF4 → hi = 0x8F) := by
  have := leading_table b (leading_lt h)
  rw [h] at this
  exact of_decide_eq_true this

/-! ### `encodeRune` undoes `decodeRune` -/

theorem encodeRune_of_two {r : Nat} (h : 0x80 ≤ r ∧ r < 0x800) :
    encodeRune r = [(0xC0 + r / 64).toUInt8, (0x80 + r % 64).toUInt8] := by
  rw [encodeRune, if_neg (by omega), if_pos (by omega)]

theorem encodeRune_of_three {r : Nat} (h : 0x800 ≤ r ∧ r < 0xD800 ∨ 0xDFFF < r ∧ r < 0x10000) :
    encodeRune r = [(0xE0 + r / 4096).toUInt8, (0x80 + r / 64 % 64).toUInt8, (0x80 + r % 64).toUInt8] := by
  rw [encodeRune, if_neg (by omega), if_neg (by omega), if_neg (by omega), if_pos (by omega)]

theorem encodeRune_of_four {r : Nat} (h : 0x10000 ≤ r ∧ r ≤ 0x10FFFF) :
    encodeRune r = [(0xF0 + r / 262144).toUInt8, (0x80 + r / 4096 % 64).toUInt8,
      (0x80 + r / 64 % 64).toUInt8, (0x80 + r % 64).toUInt8] := by
  rw [encodeRune, if_neg (by omega), if_neg (by omega), if_neg (by omega), if_neg (by omega)]

theorem div_mod_64 {q d : Nat} (h : d < 64) : (q * 64 + d) / 64 = q ∧ (q * 64 + d) % 64 = d := by
  constructor
  · rw [Nat.add_comm, Nat.add_mul_div_right _ _ (by decide), Nat.div_eq_of_lt h, Nat.zero_add]
  · rw [Nat.add_comm, Nat.add_mul_mod_self_right, Nat.mod_eq_of_lt h]

theorem add_mod_of_lt {a d m : Nat} (ha : a % m = 0) (hd : d < m) : (a + d) % m = d := by
  rw [Nat.add_mod, ha, Nat.zero_add, Nat.mod_mod, Nat.mod_eq_of_lt hd]

/-- A byte in `[a, a + m)`, for `a` a multiple of `m`, is `a` and its low bits. -/
theorem byte_bits {x a m : Nat} (hb : a % m = 0) (h : a ≤ x ∧ x < a + m) :
    ∃ d, d < m ∧ x = a + d ∧ x % m = d := by
  obtain ⟨d, rfl⟩ : ∃ d, x = a + d := ⟨x - a, by omega⟩
  exact ⟨d, by omega, rfl, add_mod_of_lt hb (by omega)⟩

theorem encodeRune_two_digits {d0 d1 : Nat} (h1 : d1 < 64) (hr : 0x80 ≤ d0 * 64 + d1 ∧ d0 * 64 + d1 < 0x800) :
    encodeRune (d0 * 64 + d1) = [(0xC0 + d0).toUInt8, (0x80 + d1).toUInt8] := by
  obtain ⟨a1, a2⟩ := div_mod_64 (q := d0) h1
  rw [encodeRune_of_two hr, a1, a2]

theorem encodeRune_three_digits {d0 d1 d2 : Nat} (h1 : d1 < 64) (h2 : d2 < 64)
    (hr : 0x800 ≤ d0 * 4096 + d1 * 64 + d2 ∧ d0 * 4096 + d1 * 64 + d2 < 0xD800 ∨
      0xDFFF < d0 * 4096 + d1 * 64 + d2 ∧ d0 * 4096 + d1 * 64 + d2 < 0x10000) :
    encodeRune (d0 * 4096 + d1 * 64 + d2) =
      [(0xE0 + d0).toUInt8, (0x80 + d1).toUInt8, (0x80 + d2).toUInt8] := by
  have e : d0 * 4096 + d1 * 64 + d2 = (d0 * 64 + d1) * 64 + d2 := by omega
  have q2 : ∀ n, n / 4096 = n / 64 / 64 := fun n => by rw [Nat.div_div_eq_div_mul]
  obtain ⟨a1, a2⟩ := div_mod_64 (q := d0 * 64 + d1) h2
  obtain ⟨b1, b2⟩ := div_mod_64 (q := d0) h1
  rw [encodeRune_of_three hr, e, q2, a1, b1, a2, b2]

theorem encodeRune_four_digits {d0 d1 d2 d3 : Nat} (h1 : d1 < 64) (h2 : d2 < 64) (h3 : d3 < 64)
    (hr : 0x10000 ≤ d0 * 262144 + d1 * 4096 + d2 * 64 + d3 ∧
      d0 * 262144 + d1 * 4096 + d2 * 64 + d3 ≤ 0x10FFFF) :
    encodeRune (d0 * 262144 + d1 * 4096 + d2 * 64 + d3) =
      [(0xF0 + d0).toUInt8, (0x80 + d1).toUInt8, (0x80 + d2).toUInt8, (0x80 + d3).toUInt8] := by
  have e : d0 * 262144 + d1 * 4096 + d2 * 64 + d3 = ((d0 * 64 + d1) * 64 + d2) * 64 + d3 := by omega
  have q3 : ∀ n, n / 262144 = n / 64 / 64 / 64 := fun n => by
    rw [Nat.div_div_eq_div_mul, Nat.div_div_eq_div_mul]
  have q2 : ∀ n, n / 4096 = n / 64 / 64 := fun n => by rw [Nat.div_div_eq_div_mul]
  obtain ⟨a1, a2⟩ := div_mod_64 (q := (d0 * 64 + d1) * 64 + d2) h3
  obtain ⟨b1, b2⟩ := div_mod_64 (q := d0 * 64 + d1) h2
  obtain ⟨c1, c2⟩ := div_mod_64 (q := d0) h1
  rw [encodeRune_of_four hr, e, q3, q2, a1, b1, c1, a2, b2, c2]

/-- **A valid two-byte encoding** is read from its own bytes and written back as them. -/
theorem decodeRune_two {b b1 : UInt8} {p : Bytes} {c : Nat} (h : decodeRune (b :: b1 :: p) = (c, 2))
    (t : Bytes) : decodeRune (b :: b1 :: t) = (c, 2) ∧ encodeRune c = [b, b1] := by
  have hb : b.toNat < 256 := UInt8.toNat_lt_size b
  have hb1 : b1.toNat < 256 := UInt8.toNat_lt_size b1
  by_cases hlt : b.toNat < 0x80
  · rw [decodeRune_ascii _ hlt, Prod.mk.injEq] at h
    exact absurd h.2 (by omega)
  simp only [decodeRune, hlt, if_false] at h ⊢
  split at h
  · rename_i lo hi _ _ _ hl hp
    simp only [List.cons.injEq] at hp
    obtain ⟨rfl, rfl⟩ := hp
    obtain ⟨h0, h0', rfl, rfl⟩ := leading_two hl
    split_ifs at h with hc
    · simp only [Prod.mk.injEq] at h
      obtain ⟨rfl, -⟩ := h
      refine ⟨by simp [hl, hc], ?_⟩
      obtain ⟨d0, hd0, e0, m0⟩ := byte_bits (x := b.toNat) (a := 0xC0) (m := 32) rfl ⟨by omega, by omega⟩
      obtain ⟨d1, hd1, e1, m1⟩ := byte_bits (x := b1.toNat) (a := 0x80) (m := 64) rfl ⟨by omega, by omega⟩
      rw [m0, m1, encodeRune_two_digits hd1 (by omega), toUInt8_of_eq e0.symm, toUInt8_of_eq e1.symm]
    · simp at h
  all_goals first | simp at h | (split_ifs at h <;> simp at h)

/-- **A valid three-byte encoding** is read from its own bytes and written back as them. -/
theorem decodeRune_three {b b1 b2 : UInt8} {p : Bytes} {c : Nat}
    (h : decodeRune (b :: b1 :: b2 :: p) = (c, 3)) (t : Bytes) :
    decodeRune (b :: b1 :: b2 :: t) = (c, 3) ∧ encodeRune c = [b, b1, b2] := by
  have hb : b.toNat < 256 := UInt8.toNat_lt_size b
  have hb1 : b1.toNat < 256 := UInt8.toNat_lt_size b1
  have hb2 : b2.toNat < 256 := UInt8.toNat_lt_size b2
  by_cases hlt : b.toNat < 0x80
  · rw [decodeRune_ascii _ hlt, Prod.mk.injEq] at h
    exact absurd h.2 (by omega)
  simp only [decodeRune, hlt, if_false] at h ⊢
  split at h
  · split_ifs at h <;> simp at h
  · rename_i lo hi _ _ _ hl hp
    simp only [List.cons.injEq] at hp
    obtain ⟨rfl, rfl, rfl⟩ := hp
    obtain ⟨h0, h0', hlo, hhi, hE0, hED⟩ := leading_three hl
    split_ifs at h with hc
    · simp only [Prod.mk.injEq] at h
      obtain ⟨rfl, -⟩ := h
      refine ⟨by simp [hl, hc], ?_⟩
      simp only [isCont, Bool.and_eq_true, decide_eq_true_eq] at hc
      obtain ⟨d0, hd0, e0, m0⟩ := byte_bits (x := b.toNat) (a := 0xE0) (m := 16) rfl ⟨h0, by omega⟩
      obtain ⟨d1, hd1, e1, m1⟩ := byte_bits (x := b1.toNat) (a := 0x80) (m := 64) rfl ⟨by omega, by omega⟩
      obtain ⟨d2, hd2, e2, m2⟩ := byte_bits (x := b2.toNat) (a := 0x80) (m := 64) rfl ⟨hc.2.2.1, by omega⟩
      rw [m0, m1, m2, encodeRune_three_digits hd1 hd2 (by omega), toUInt8_of_eq e0.symm,
        toUInt8_of_eq e1.symm, toUInt8_of_eq e2.symm]
    · simp at h
  all_goals first | simp at h | (split_ifs at h <;> simp at h)

/-- **A valid four-byte encoding** is read from its own bytes and written back as them. -/
theorem decodeRune_four {b b1 b2 b3 : UInt8} {p : Bytes} {c : Nat}
    (h : decodeRune (b :: b1 :: b2 :: b3 :: p) = (c, 4)) (t : Bytes) :
    decodeRune (b :: b1 :: b2 :: b3 :: t) = (c, 4) ∧ encodeRune c = [b, b1, b2, b3] := by
  have hb : b.toNat < 256 := UInt8.toNat_lt_size b
  have hb1 : b1.toNat < 256 := UInt8.toNat_lt_size b1
  have hb2 : b2.toNat < 256 := UInt8.toNat_lt_size b2
  have hb3 : b3.toNat < 256 := UInt8.toNat_lt_size b3
  by_cases hlt : b.toNat < 0x80
  · rw [decodeRune_ascii _ hlt, Prod.mk.injEq] at h
    exact absurd h.2 (by omega)
  simp only [decodeRune, hlt, if_false] at h ⊢
  split at h
  · split_ifs at h <;> simp at h
  · split_ifs at h <;> simp at h
  · rename_i lo hi _ _ _ _ hl hp
    simp only [List.cons.injEq] at hp
    obtain ⟨rfl, rfl, rfl, rfl⟩ := hp
    obtain ⟨h0, h0', hlo, hhi, hF0, hF4⟩ := leading_four hl
    split_ifs at h with hc
    · simp only [Prod.mk.injEq] at h
      obtain ⟨rfl, -⟩ := h
      refine ⟨by simp [hl, hc], ?_⟩
      simp only [isCont, Bool.and_eq_true, decide_eq_true_eq] at hc
      obtain ⟨d0, hd0, e0, m0⟩ := byte_bits (x := b.toNat) (a := 0xF0) (m := 8) rfl ⟨h0, by omega⟩
      obtain ⟨d1, hd1, e1, m1⟩ := byte_bits (x := b1.toNat) (a := 0x80) (m := 64) rfl ⟨by omega, by omega⟩
      obtain ⟨d2, hd2, e2, m2⟩ := byte_bits (x := b2.toNat) (a := 0x80) (m := 64) rfl ⟨hc.2.2.1.1, by omega⟩
      obtain ⟨d3, hd3, e3, m3⟩ := byte_bits (x := b3.toNat) (a := 0x80) (m := 64) rfl ⟨hc.2.2.2.1, by omega⟩
      rw [m0, m1, m2, m3, encodeRune_four_digits hd1 hd2 hd3 (by omega), toUInt8_of_eq e0.symm,
        toUInt8_of_eq e1.symm, toUInt8_of_eq e2.symm, toUInt8_of_eq e3.symm]
    · simp at h
  · simp at h

/-- **A valid encoding is read from its own bytes**, whatever follows them, and
`encodeRune` writes it back as those bytes. -/
theorem decodeRune_valid {s : Bytes} {c n : Nat} (h : decodeRune s = (c, n)) (hn : 0 < n)
    (hv : decodeRune s ≠ (runeError, 1)) (t : Bytes) :
    decodeRune (s.take n ++ t) = (c, n) ∧ encodeRune c = s.take n := by
  cases s with
  | nil => simp [decodeRune] at h; omega
  | cons b p =>
    rcases decodeRune_cases b p with ⟨hlt, hd⟩ | ⟨-, hd⟩ | ⟨c', b1, q, rfl, hd⟩ |
      ⟨c', b1, b2, q, rfl, hd⟩ | ⟨c', b1, b2, b3, q, rfl, hd⟩
    · rw [hd, Prod.mk.injEq] at h
      obtain ⟨rfl, rfl⟩ := h
      refine ⟨decodeRune_ascii _ hlt, ?_⟩
      simp only [encodeRune, hlt, if_true, List.take_succ_cons, List.take_zero]
      exact congrArg (· :: []) (toUInt8_of_eq rfl)
    · exact absurd hd hv
    · rw [hd, Prod.mk.injEq] at h
      obtain ⟨rfl, rfl⟩ := h
      exact decodeRune_two hd t
    · rw [hd, Prod.mk.injEq] at h
      obtain ⟨rfl, rfl⟩ := h
      exact decodeRune_three hd t
    · rw [hd, Prod.mk.injEq] at h
      obtain ⟨rfl, rfl⟩ := h
      exact decodeRune_four hd t

/-! ### Valid strings -/

/-- **A valid string survives the trip through JSON.** -/
theorem replaceInvalid_of_valid : ∀ {s : Bytes}, validUTF8 s = true → replaceInvalid s = s
  | [], _ => by unfold replaceInvalid; rfl
  | b :: p, h => by
    unfold validUTF8 at h
    rw [Bool.and_eq_true, Bool.not_eq_true', decide_eq_false_iff_not] at h
    unfold replaceInvalid
    rw [if_neg h.1, replaceInvalid_of_valid h.2, List.take_append_drop]
termination_by s => s.length
decreasing_by exact length_drop_decodeRune _ _

end Goflow
