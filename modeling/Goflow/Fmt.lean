import Goflow.Json.Utf8

/-!
# `fmt` formatting with no operands

The request handlers pass a text they concatenated to `fmt.Errorf` as its format, with no
operand. `Errorf` then runs `doPrintf` over it: bytes other than `%` are copied, and each
`%` starts a verb, whose flags, argument index `[n]`, width and precision are parsed as in
any call. With no operand to print, `%%` writes `%`, any other verb writes
`%!<verb>(MISSING)`, or `%!<verb>(BADINDEX)` after an argument index, a `*` width or
precision writes `%!(BADWIDTH)` or `%!(BADPREC)` first, and a `%` with nothing after its
flags writes `%!(NOVERB)`. A width or precision above a million ends the format there.

* `doPrintf_append`: a text without `%` is copied as it is, whatever follows it.
-/

namespace Goflow

/-- `tooLarge`: a width, precision or argument index above a million. -/
def tooLarge (x : Nat) : Bool := 1000000 < x

/-- `parsenum`: the number in the digits at the head of the text (after `num`), whether there
were any, and the text after them. A number grown too large stops the parse with no number
and consumes the whole text. -/
def parsenum (num : Nat) (isnum : Bool) : Bytes → Nat × Bool × Bytes
  | [] => (num, isnum, [])
  | b :: s =>
    if isDigitByte b then
      if tooLarge num then (0, false, [])
      else parsenum (num * 10 + (b.toNat - 48)) true s
    else (num, isnum, b :: s)

/-- `parseArgNumber` on the text from a `[`: whether the brackets hold a number, and the text
after what it reads, through the first `]`, or after the `[` alone when no `]` follows or
the text has fewer than three bytes. -/
def parseArgNumber : Bytes → Bool × Bytes
  | [] => (false, [])
  | _ :: s =>
    if s.length < 2 then (false, s)
    else
      match s.span (· != 93) with
      | (inner, _ :: rest) =>
        ((parsenum 0 false inner).2.1 && (parsenum 0 false inner).2.2.isEmpty, rest)
      | (_, []) => (false, s)

/-- The flags of a verb: `#`, `0`, `+`, `-` and space. -/
def isFlag (b : UInt8) : Bool := b == 35 || b == 48 || b == 43 || b == 45 || b == 32

/-- The state of `doPrintf` within one verb: the format still to read (`format[i:]`),
`goodArgNum`, `afterIndex`, and what the verb has written so far. -/
structure VerbScan where
  rest : Bytes
  goodArgNum : Bool
  afterIndex : Bool
  out : Bytes

namespace VerbScan

/-- `argNumber` with no operands: an index `[n]` at the head is read, and as no operand has
that index it makes the argument number bad; `afterIndex` is whether it held a number. -/
def argNumber (v : VerbScan) : VerbScan :=
  match v.rest with
  | 91 :: _ =>
    { v with
      rest := (parseArgNumber v.rest).2
      goodArgNum := false
      afterIndex := (parseArgNumber v.rest).1 }
  | _ => { v with afterIndex := false }

/-- The width: a `*` takes an operand, and there is none; otherwise a number. -/
def width (v : VerbScan) : VerbScan :=
  match v.rest with
  | 42 :: s => { v with rest := s, afterIndex := false, out := v.out ++ lit "%!(BADWIDTH)" }
  | s =>
    { v with
      rest := (parsenum 0 false s).2.2
      goodArgNum := v.goodArgNum && !(v.afterIndex && (parsenum 0 false s).2.1) }

/-- The precision after a `.` that is not the format's last byte: an index, then a `*`,
which finds no operand, or a number. -/
def precision (v : VerbScan) : VerbScan :=
  match v.rest with
  | 46 :: c :: s =>
    let w := argNumber { v with rest := c :: s, goodArgNum := v.goodArgNum && !v.afterIndex }
    match w.rest with
    | 42 :: s => { w with rest := s, afterIndex := false, out := w.out ++ lit "%!(BADPREC)" }
    | s => { w with rest := (parsenum 0 false s).2.2 }
  | _ => v

/-- The verb itself, after one more index when none was read last: what the verb writes and
the format after it. The verb is the rune at the head (`DecodeRuneInString`). -/
def verb (v : VerbScan) : Bytes × Bytes :=
  let v := if v.afterIndex then v else v.argNumber
  match v.rest with
  | [] => (v.out ++ lit "%!(NOVERB)", [])
  | b :: s =>
    let r := decodeRune (b :: s)
    ((if r.1 = 37 then v.out ++ [37]
      else if !v.goodArgNum then v.out ++ lit "%!" ++ encodeRune r.1 ++ lit "(BADINDEX)"
      else v.out ++ lit "%!" ++ encodeRune r.1 ++ lit "(MISSING)"),
      (b :: s).drop r.2)

end VerbScan

/-- One verb of `doPrintf` with no operands, from just after its `%`: what it writes and the
format after it. -/
def printVerb (s : Bytes) : Bytes × Bytes :=
  (VerbScan.precision (VerbScan.width (VerbScan.argNumber ⟨s.dropWhile isFlag, true, false, []⟩))).verb

theorem parsenum_length_le : ∀ (num : Nat) (isnum : Bool) (s : Bytes),
    (parsenum num isnum s).2.2.length ≤ s.length
  | _, _, [] => le_refl _
  | num, _, b :: s => by
    rw [parsenum]
    split
    · split
      · exact Nat.zero_le _
      · exact (parsenum_length_le _ true s).trans (Nat.le_succ _)
    · exact le_refl _

theorem parseArgNumber_length_le (s : Bytes) : (parseArgNumber s).2.length ≤ s.length := by
  match s with
  | [] => exact le_refl _
  | b :: s =>
    rw [parseArgNumber]
    split
    · exact Nat.le_succ _
    · split
      · rename_i inner x rest h
        rw [List.span_eq_take_drop, Prod.mk.injEq] at h
        have hs := (List.dropWhile_suffix (fun b : UInt8 => b != 93) (l := s)).length_le
        rw [h.2, List.length_cons] at hs
        exact Nat.le_succ_of_le (Nat.le_of_succ_le hs)
      · exact Nat.le_succ _

namespace VerbScan

theorem argNumber_length_le (v : VerbScan) : v.argNumber.rest.length ≤ v.rest.length := by
  unfold argNumber
  split
  · exact parseArgNumber_length_le _
  · exact le_refl _

theorem width_length_le (v : VerbScan) : v.width.rest.length ≤ v.rest.length := by
  unfold width
  split
  · rename_i s hv
    rw [hv]
    exact Nat.le_succ _
  · exact parsenum_length_le _ _ _

theorem precision_length_le (v : VerbScan) : v.precision.rest.length ≤ v.rest.length := by
  unfold precision
  split
  · rename_i c s hv
    have hw := argNumber_length_le { v with rest := c :: s, goodArgNum := v.goodArgNum && !v.afterIndex }
    rw [hv, List.length_cons, List.length_cons]
    dsimp only at hw ⊢
    split
    · rename_i h
      rw [h, List.length_cons, List.length_cons] at hw
      dsimp only
      omega
    · exact Nat.le_succ_of_le ((parsenum_length_le _ _ _).trans hw)
  · exact le_refl _

theorem verb_length_le (v : VerbScan) : v.verb.2.length ≤ v.rest.length := by
  have h : (if v.afterIndex then v else v.argNumber).rest.length ≤ v.rest.length := by
    split
    · exact le_refl _
    · exact argNumber_length_le v
  unfold verb
  dsimp only
  split
  · exact Nat.zero_le _
  · rename_i b s hv
    rw [hv] at h
    exact (List.length_drop _ _ ▸ Nat.sub_le _ _).trans h

end VerbScan

theorem printVerb_length_le (s : Bytes) : (printVerb s).2.length ≤ s.length :=
  calc (printVerb s).2.length
      ≤ (VerbScan.argNumber ⟨s.dropWhile isFlag, true, false, []⟩).width.precision.rest.length :=
        VerbScan.verb_length_le _
    _ ≤ (s.dropWhile isFlag).length :=
        ((VerbScan.precision_length_le _).trans (VerbScan.width_length_le _)).trans
          (VerbScan.argNumber_length_le _)
    _ ≤ s.length := (List.dropWhile_suffix isFlag).length_le

/-- `doPrintf(format, nil)`: the text `Sprintf` and `Errorf` make of a format with no
operand. -/
def doPrintf (s : Bytes) : Bytes :=
  match s with
  | [] => []
  | 37 :: s => (printVerb s).1 ++ doPrintf (printVerb s).2
  | b :: s => b :: doPrintf s
termination_by s.length
decreasing_by
  all_goals simp_wf
  exact Nat.lt_succ_of_le (printVerb_length_le _)

theorem doPrintf_percent (s : Bytes) :
    doPrintf (37 :: s) = (printVerb s).1 ++ doPrintf (printVerb s).2 := by
  rw [doPrintf]

theorem doPrintf_cons {b : UInt8} (s : Bytes) (hb : b ≠ 37) : doPrintf (b :: s) = b :: doPrintf s := by
  rw [doPrintf]
  exact hb

/-- **Text without `%` is copied as it is**, whatever follows it. -/
theorem doPrintf_append : ∀ {a : Bytes} (b : Bytes), 37 ∉ a → doPrintf (a ++ b) = a ++ doPrintf b
  | [], _, _ => rfl
  | x :: a, b, h => by
    rw [List.mem_cons, not_or] at h
    rw [List.cons_append, doPrintf_cons _ (Ne.symm h.1), doPrintf_append b h.2, List.cons_append]

theorem doPrintf_of_not_mem {s : Bytes} (h : 37 ∉ s) : doPrintf s = s := by
  have h0 : doPrintf [] = [] := by rw [doPrintf]
  rw [← List.append_nil s, doPrintf_append [] h, h0]

/-- A verb with no flag, index, width or precision, which is an ASCII letter other than
those, writes `%!<verb>(MISSING)`. -/
theorem printVerb_missing {c : UInt8} (t : Bytes) (ha : c.toNat < 0x80) (hf : isFlag c = false)
    (hd : isDigitByte c = false) (h91 : c ≠ 91) (h42 : c ≠ 42) (h46 : c ≠ 46) (h37 : c ≠ 37) :
    printVerb (c :: t) = (lit "%!" ++ [c] ++ lit "(MISSING)", t) := by
  have hdw : (c :: t).dropWhile isFlag = c :: t := by rw [List.dropWhile_cons, hf]; rfl
  have hpn : parsenum 0 false (c :: t) = (0, false, c :: t) := by rw [parsenum, if_neg (by simp [hd])]
  have hdec := decodeRune_ascii t ha
  have h37' : c.toNat ≠ 37 := fun h => h37 (UInt8.toNat.inj h)
  have henc : encodeRune c.toNat = [c] := by rw [encodeRune, if_pos ha, toUInt8_of_eq rfl]
  simp [printVerb, hdw, VerbScan.argNumber, VerbScan.width, VerbScan.precision, VerbScan.verb, h91, h42,
    h46, hpn, hdec, h37', henc]

end Goflow
