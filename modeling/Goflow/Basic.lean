import Mathlib.Data.List.Basic

/-!
# Go strings and the formatting the runtime uses

A Go `string` is an immutable sequence of bytes that need not be UTF-8, so the
model takes it as a list of bytes (`Bytes`). The string literals of the source
enter through `lit`, and `fmt`'s `%d` of a non-negative `int` through `itoa`.

* `itoa_injective`: distinct indices print differently, so the retry queues
  `…-push-0`, `…-push-1`, … of one flow have distinct names.
* `itoa_digits`: the printed index is made of decimal digits only.
-/

namespace Goflow

/-- A Go `string` (or `[]byte`): a sequence of bytes, not necessarily UTF-8. -/
abbrev Bytes := List UInt8

/-- The Go `error` of a result: `none` is `nil`. -/
def errOf {α : Type} : Except Bytes α → Option Bytes
  | .ok _ => none
  | .error e => some e

/-- The bytes of a string literal of the source. -/
def lit (s : String) : Bytes := s.toUTF8.data.toList

/-- The ASCII digit for `d < 10`. -/
def digitByte (d : Nat) : UInt8 := (48 + d).toUInt8

/-- An ASCII decimal digit. -/
def isDigitByte (b : UInt8) : Bool := 48 ≤ b && b ≤ 57

/-- The decimal digits of `n`, most significant first, within `fuel` recursive steps. -/
def itoaAux : Nat → Nat → Bytes
  | 0, _ => []
  | fuel + 1, n => (if n < 10 then [] else itoaAux fuel (n / 10)) ++ [digitByte (n % 10)]

/-- `fmt`'s `%d` of a non-negative integer: its decimal digits, most significant first. -/
def itoa (n : Nat) : Bytes := itoaAux (n + 1) n

theorem itoaAux_fuel : ∀ {f g n : Nat}, n < f → n < g → itoaAux f n = itoaAux g n
  | f + 1, g + 1, n, hf, hg => by
    simp only [itoaAux]
    split
    · rfl
    · rw [itoaAux_fuel (show n / 10 < f by omega) (show n / 10 < g by omega)]

theorem digitByte_inj {a b : Nat} (ha : a < 10) (hb : b < 10) (h : digitByte a = digitByte b) :
    a = b := by
  have key : ∀ x y : Fin 10, digitByte x = digitByte y → x = y := by decide
  exact congrArg Fin.val (key ⟨a, ha⟩ ⟨b, hb⟩ h)

theorem isDigitByte_digitByte {d : Nat} (hd : d < 10) : isDigitByte (digitByte d) = true := by
  have key : ∀ x : Fin 10, isDigitByte (digitByte x) = true := by decide
  exact key ⟨d, hd⟩

theorem itoa_eq (n : Nat) :
    itoa n = (if n < 10 then [] else itoa (n / 10)) ++ [digitByte (n % 10)] := by
  show itoaAux (n + 1) n = _
  rw [itoaAux]
  split
  · rfl
  · rw [itoa, itoaAux_fuel (show n / 10 < n by omega) (show n / 10 < n / 10 + 1 by omega)]

theorem itoa_of_lt {n : Nat} (h : n < 10) : itoa n = [digitByte n] := by
  rw [itoa_eq, if_pos h, Nat.mod_eq_of_lt h]; rfl

theorem itoa_ne_nil (n : Nat) : itoa n ≠ [] := by
  rw [itoa_eq]; simp

/-- Every byte `%d` prints is a decimal digit. -/
theorem itoa_digits (n : Nat) : ∀ b ∈ itoa n, isDigitByte b = true := by
  induction n using Nat.strong_induction_on with
  | _ n ih =>
    intro b hb
    rw [itoa_eq] at hb
    rcases List.mem_append.1 hb with hb | hb
    · split at hb
      · simp at hb
      · exact ih (n / 10) (by omega) b hb
    · rw [List.mem_singleton.1 hb]; exact isDigitByte_digitByte (Nat.mod_lt _ (by omega))

/-- **Distinct indices print differently.** -/
theorem itoa_injective : Function.Injective itoa := by
  intro a
  induction a using Nat.strong_induction_on with
  | _ a ih =>
    intro b h
    rw [itoa_eq a, itoa_eq b] at h
    obtain ⟨hpre, hlast⟩ := List.append_inj' h rfl
    have hmod : a % 10 = b % 10 :=
      digitByte_inj (Nat.mod_lt _ (by omega)) (Nat.mod_lt _ (by omega)) (List.singleton_inj.1 hlast)
    by_cases ha : a < 10 <;> by_cases hb : b < 10 <;> simp only [ha, hb, if_true, if_false] at hpre
    · omega
    · exact absurd hpre.symm (itoa_ne_nil _)
    · exact absurd hpre (itoa_ne_nil _)
    · have := ih (a / 10) (by omega) hpre
      omega

/-- Splitting at the first occurrence of a separator that the left parts do not contain. -/
theorem sep_split {s : UInt8} : ∀ {a b c d : Bytes}, s ∉ a → s ∉ b → a ++ s :: c = b ++ s :: d →
    a = b ∧ c = d
  | [], [], c, d, _, _, h => by simpa using h
  | [], x :: b, c, d, _, hb, h => by
    simp only [List.nil_append, List.cons_append, List.cons.injEq] at h
    exact absurd (h.1 ▸ List.mem_cons_self _ _) hb
  | x :: a, [], c, d, ha, _, h => by
    simp only [List.nil_append, List.cons_append, List.cons.injEq] at h
    exact absurd (h.1 ▸ List.mem_cons_self _ _) ha
  | x :: a, y :: b, c, d, ha, hb, h => by
    simp only [List.cons_append, List.cons.injEq] at h
    obtain ⟨rfl, h⟩ := h
    obtain ⟨rfl, rfl⟩ := sep_split (List.not_mem_of_not_mem_cons ha) (List.not_mem_of_not_mem_cons hb) h
    exact ⟨rfl, rfl⟩

theorem getElem?_concat_eq_some {α : Type} {l : List α} {x d : α} {j : Nat} :
    (l ++ [x])[j]? = some d ↔ l[j]? = some d ∨ (j = l.length ∧ x = d) := by
  rcases Nat.lt_or_ge j l.length with h | h
  · simp [List.getElem?_append_left h, Nat.ne_of_lt h]
  · rw [List.getElem?_append_right h, List.getElem?_eq_none h]
    obtain ⟨k, hk⟩ := Nat.exists_eq_add_of_le h
    subst hk
    cases k <;> simp

end Goflow
