import Goflow.Basic

/-!
# Redis glob patterns

`SCAN … MATCH pattern` keeps the keys that Redis's `stringmatchlen` accepts
(case-sensitive). The function is transcribed from the C loop: `*` tries the rest
of the pattern at every non-empty suffix, `?` takes one byte, `[…]` is a class
(`^` negates, `a-b` is a range compared as C's signed `char`, `\` escapes, and an
unclosed class runs to the end of the pattern), `\` escapes one byte, and when the
string runs out only a tail of `*` may remain. The early exit (`skipLongerMatches`)
and the nesting guard of the C code only cut the search and are left out.

* `stringmatchlen_prefix_star`: a pattern `q*` with no glob byte in a non-empty `q`
  matches exactly the strings that start with `q`.
-/

namespace Goflow

/-- A byte that `stringmatchlen` reads as itself: not `*`, `?`, `[` or `\`. -/
def globLiteral (b : UInt8) : Bool := b != 42 && b != 63 && b != 91 && b != 92

/-- `c` in the class range `a-b` (in either order), with bytes read as signed `char`. -/
def inRange (a b c : UInt8) : Bool :=
  let sc := fun x : UInt8 => if x.toNat < 128 then (x.toNat : Int) else x.toNat - 256
  min (sc a) (sc b) ≤ sc c && sc c ≤ max (sc a) (sc b)

/-- The bracket class of `stringmatchlen` from just after `[` (and `^`): whether `c` is a
member (`m` so far), and the pattern after the closing `]`. -/
def classScan (c : UInt8) : Bytes → Bool → Bool × Bytes
  | [], m => (m, [])
  | 92 :: x :: p, m => classScan c p (m || x == c)
  | 93 :: p, m => (m, p)
  | a :: 45 :: b :: p, m => classScan c p (m || inRange a b c)
  | a :: p, m => classScan c p (m || a == c)

theorem classScan_length_le (c : UInt8) (p : Bytes) (m : Bool) :
    (classScan c p m).2.length ≤ p.length := by
  induction p, m using classScan.induct c <;> simp only [classScan, List.length_cons] <;> omega

theorem classScan_length_lt (c : UInt8) {p q : Bytes} (h : q.length ≤ p.length) :
    (classScan c q false).2.length < p.length + 1 :=
  Nat.lt_succ_of_le ((classScan_length_le c q false).trans h)

/-- Redis `stringmatchlen` (case-sensitive): does the string match the glob pattern? -/
def stringmatchlen : Bytes → Bytes → Bool
  | [], s => s.isEmpty
  | _ :: _, [] => false
  | [42], _ :: _ => true
  | 42 :: 42 :: p, s => stringmatchlen (42 :: p) s
  | 42 :: p, s => s.tails.any fun t => stringmatchlen p t
  | 63 :: p, _ :: s => (s.isEmpty && p.all (· == 42)) || stringmatchlen p s
  | 91 :: p, c :: s =>
    let neg := p.head? == some 94
    let r := classScan c (if neg then p.tail else p) false
    r.1 != neg && ((s.isEmpty && r.2.all (· == 42)) || stringmatchlen r.2 s)
  | 92 :: x :: p, c :: s => x == c && ((s.isEmpty && p.all (· == 42)) || stringmatchlen p s)
  | a :: p, c :: s => a == c && ((s.isEmpty && p.all (· == 42)) || stringmatchlen p s)
termination_by p => p.length
decreasing_by
  all_goals simp_wf
  all_goals first
    | omega
    | exact classScan_length_lt c (by split <;> simp)

/-- A byte that is not a glob byte is matched against itself. -/
theorem stringmatchlen_lit {a c : UInt8} (p s : Bytes) (ha : globLiteral a = true) :
    stringmatchlen (a :: p) (c :: s) =
      (a == c && ((s.isEmpty && p.all (· == 42)) || stringmatchlen p s)) := by
  simp only [globLiteral, Bool.and_eq_true, bne_iff_ne, ne_eq] at ha
  obtain ⟨⟨⟨h42, h63⟩, h91⟩, h92⟩ := ha
  rw [stringmatchlen]
  · simp only [h42, h63, h91, h92, false_implies, implies_true]
  all_goals simp_all

/-- **A literal prefix then `*`.** With no glob byte in the non-empty `q`, the pattern `q*`
matches exactly the strings that start with `q`. -/
theorem stringmatchlen_prefix_star {q : Bytes} (hq : q ≠ []) (hlit : q.all globLiteral = true)
    (s : Bytes) : stringmatchlen (q ++ [42]) s = true ↔ q <+: s := by
  induction q generalizing s with
  | nil => exact absurd rfl hq
  | cons a q ih =>
    simp only [List.all_cons, Bool.and_eq_true] at hlit
    cases s with
    | nil => simp [stringmatchlen]
    | cons c s =>
      rw [List.cons_append, stringmatchlen_lit _ _ hlit.1, List.cons_prefix_cons]
      rcases q with _ | ⟨b, q⟩
      · cases s <;> simp [stringmatchlen]
      · have hb : (b == 42) = false := by
          simp only [List.all_cons, Bool.and_eq_true, globLiteral, bne_iff_ne, ne_eq] at hlit
          simpa using hlit.2.1.1.1.1
        have := ih (List.cons_ne_nil _ _) hlit.2 s
        rw [List.cons_append] at this
        simp [hb, this]

end Goflow
