import Goflow.Json.Encode

/-!
# `encoding/json`: `Unmarshal`'s reading of JSON text

`Unmarshal` first checks the whole text with its scanner, then decodes it; the model reads
the text once, by recursive descent, accepting what the scanner accepts (RFC 8259 with
whitespace between tokens) and returning the value. Strings are read as `unquote` reads
them: escapes are decoded, a `\u` surrogate pair is joined (a lone half gives
`RuneError`), and raw bytes go through `DecodeRune` and `EncodeRune`, so invalid ones
become U+FFFD. Nested values take one step of `fuel` per level and per element.
-/

namespace Goflow

/-- JSON whitespace: space, tab, newline and carriage return. -/
def isSpace (b : UInt8) : Bool := b == 32 || b == 9 || b == 10 || b == 13

/-- The scanner skipping whitespace. -/
def skipWs : Bytes → Bytes
  | [] => []
  | b :: r => if isSpace b then skipWs r else b :: r

/-- A hex digit's value. -/
def unhex (b : UInt8) : Option Nat :=
  if 48 ≤ b.toNat ∧ b.toNat ≤ 57 then some (b.toNat - 48)
  else if 97 ≤ b.toNat ∧ b.toNat ≤ 102 then some (b.toNat - 87)
  else if 65 ≤ b.toNat ∧ b.toNat ≤ 70 then some (b.toNat - 55)
  else none

/-- `getu4`: the value of the `\uXXXX` escape at the head of the text. -/
def getu4 : Bytes → Option Nat
  | 92 :: 117 :: a :: b :: c :: d :: _ => do
    let a ← unhex a
    let b ← unhex b
    let c ← unhex c
    let d ← unhex d
    pure (((a * 16 + b) * 16 + c) * 16 + d)
  | _ => none

/-- `utf16.DecodeRune`: the rune of a surrogate pair, or `RuneError`. -/
def decodeSurrogates (r1 r2 : Nat) : Nat :=
  if 0xD800 ≤ r1 ∧ r1 < 0xDC00 ∧ 0xDC00 ≤ r2 ∧ r2 < 0xE000 then
    (r1 - 0xD800) * 0x400 + (r2 - 0xDC00) + 0x10000
  else runeError

/-- The byte a one-letter escape stands for. -/
def unescape (c : UInt8) : Option UInt8 :=
  if c = 34 ∨ c = 92 ∨ c = 47 then some c
  else if c = 98 then some 8
  else if c = 102 then some 12
  else if c = 110 then some 10
  else if c = 114 then some 13
  else if c = 116 then some 9
  else none

/-- A string literal from just after its opening quote: its decoded bytes and the text after
the closing quote. -/
def parseString (s : Bytes) : Option (Bytes × Bytes) :=
  match s with
  | [] => none
  | 34 :: r => some ([], r)
  | 92 :: 117 :: r =>
    match getu4 (92 :: 117 :: r) with
    | none => none
    | some rr =>
      if 0xD800 ≤ rr ∧ rr < 0xE000 ∧
          decodeSurrogates rr ((getu4 (r.drop 4)).getD runeError) ≠ runeError then
        (parseString ((r.drop 4).drop 6)).map fun d =>
          (encodeRune (decodeSurrogates rr ((getu4 (r.drop 4)).getD runeError)) ++ d.1, d.2)
      else
        (parseString (r.drop 4)).map fun d =>
          (encodeRune (if 0xD800 ≤ rr ∧ rr < 0xE000 then runeError else rr) ++ d.1, d.2)
  | 92 :: c :: r =>
    match unescape c with
    | none => none
    | some b => (parseString r).map fun d => (b :: d.1, d.2)
  | b :: r =>
    if b.toNat < 0x20 ∨ b = 92 then none
    else if b.toNat < 0x80 then (parseString r).map fun d => (b :: d.1, d.2)
    else
      (parseString ((b :: r).drop (decodeRune (b :: r)).2)).map fun d =>
        (encodeRune (decodeRune (b :: r)).1 ++ d.1, d.2)
termination_by s.length
decreasing_by
  all_goals first
    | exact length_drop_decodeRune _ _
    | (simp only [List.length_drop, List.length_cons]; omega)

/-- The digits at the head of the text, and what follows. -/
def spanDigits : Bytes → Bytes × Bytes
  | [] => ([], [])
  | b :: r => if isDigitByte b then ((spanDigits r).1.cons b, (spanDigits r).2) else ([], b :: r)

/-- At least one digit after the exponent's `pre`. -/
def expDigits (pre r : Bytes) : Option (Bytes × Bytes) :=
  match spanDigits r with
  | ([], _) => none
  | (ds, r') => some (pre ++ ds, r')

/-- A number's exponent part, if any: `[eE] [+-]? digit+`. -/
def numberExp : Bytes → Option (Bytes × Bytes)
  | e :: s :: r =>
    if e = 101 ∨ e = 69 then
      if s = 43 ∨ s = 45 then expDigits [e, s] r else expDigits [e] (s :: r)
    else some ([], e :: s :: r)
  | [e] => if e = 101 ∨ e = 69 then none else some ([], [e])
  | [] => some ([], [])

/-- A number's fraction and exponent parts: `(. digit+)? exp?`. -/
def numberFrac : Bytes → Option (Bytes × Bytes)
  | 46 :: r =>
    match spanDigits r with
    | ([], _) => none
    | (ds, r') => (numberExp r').map fun e => (46 :: ds ++ e.1, e.2)
  | s => numberExp s

/-- A number literal as the scanner reads it: `-? (0 | [1-9] digit*) frac? exp?`. -/
def parseNumber (s : Bytes) : Option (Bytes × Bytes) :=
  match s with
  | 45 :: r => (parseNumber' r).map fun n => (45 :: n.1, n.2)
  | r => parseNumber' r
where
  /-- The unsigned part. -/
  parseNumber' : Bytes → Option (Bytes × Bytes)
    | 48 :: r => (numberFrac r).map fun f => (48 :: f.1, f.2)
    | d :: r =>
      if isDigitByte d then
        (numberFrac (spanDigits r).2).map fun f => (d :: (spanDigits r).1 ++ f.1, f.2)
      else none
    | [] => none

mutual
/-- A value, after any whitespace. -/
def parseValue : Nat → Bytes → Option (JValue × Bytes)
  | 0, _ => none
  | n + 1, s =>
    match skipWs s with
    | 110 :: 117 :: 108 :: 108 :: r => some (.null, r)
    | 116 :: 114 :: 117 :: 101 :: r => some (.bool true, r)
    | 102 :: 97 :: 108 :: 115 :: 101 :: r => some (.bool false, r)
    | 34 :: r => (parseString r).map fun d => (.string d.1, d.2)
    | 91 :: r =>
      match skipWs r with
      | 93 :: r' => some (.array [], r')
      | r' => parseElems n r' []
    | 123 :: r =>
      match skipWs r with
      | 125 :: r' => some (.object [], r')
      | r' => parseMembers n r' []
    | r => (parseNumber r).map fun d => (.number d.1, d.2)

/-- The elements of an array from its next element on, after the elements `acc`. -/
def parseElems : Nat → Bytes → List JValue → Option (JValue × Bytes)
  | 0, _, _ => none
  | n + 1, s, acc =>
    match parseValue n s with
    | none => none
    | some (v, r) =>
      match skipWs r with
      | 44 :: r' => parseElems n r' (acc ++ [v])
      | 93 :: r' => some (.array (acc ++ [v]), r')
      | _ => none

/-- The members of an object from its next member on, after the members `acc`. -/
def parseMembers : Nat → Bytes → List (Bytes × JValue) → Option (JValue × Bytes)
  | 0, _, _ => none
  | n + 1, s, acc =>
    match skipWs s with
    | 34 :: r =>
      match parseString r with
      | none => none
      | some (k, r) =>
        match skipWs r with
        | 58 :: r =>
          match parseValue n r with
          | none => none
          | some (v, r) =>
            match skipWs r with
            | 44 :: r' => parseMembers n r' (acc ++ [(k, v)])
            | 125 :: r' => some (.object (acc ++ [(k, v)]), r')
            | _ => none
        | _ => none
    | _ => none
end

/-- The scanner's `checkValid` and the decoder's read: one value, with only whitespace
around it. -/
def parseJson (s : Bytes) : Option JValue :=
  match parseValue (s.length + 1) s with
  | some (v, r) => if skipWs r = [] then some v else none
  | none => none

end Goflow
