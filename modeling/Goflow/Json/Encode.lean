import Goflow.Json.Map
import Goflow.Json.Utf8

/-!
# `encoding/json`: values and `Marshal`

`Marshal` walks a Go value by reflection and writes compact JSON. The model takes the
walk's result as a `JValue` (the JSON the Go value stands for) and transcribes the writer:
`appendString` with HTML escaping (the default), and arrays and objects with no space.
A Go `map[string]V` is a `GoMap`, whose entries are already in the order `Marshal` sorts
them into.
-/

namespace Goflow

/-- A JSON value. A number keeps its literal, as the decoder does until it converts it. -/
inductive JValue where
  | null
  | bool (b : Bool)
  | number (literal : Bytes)
  | string (s : Bytes)
  | array (vs : List JValue)
  | object (kvs : List (Bytes × JValue))

/-- `hex`: the lowercase hex digit of a value below 16. -/
def hexDigit (n : Nat) : UInt8 := if n < 10 then (48 + n).toUInt8 else (87 + n).toUInt8

/-- `htmlSafeSet`: the ASCII bytes `appendString` copies as they are: printable, and not
`"`, `\`, `<`, `>` or `&`. -/
def htmlSafe (b : UInt8) : Bool :=
  0x20 ≤ b.toNat && b != 34 && b != 92 && b != 60 && b != 62 && b != 38

/-- What `appendString` writes for an ASCII byte outside `htmlSafeSet`: `\"` and `\\`, the
short escapes of Go 1.22 and later, and `\u00XX` for the rest. -/
def escapeAscii (b : UInt8) : Bytes :=
  if b = 92 ∨ b = 34 then [92, b]
  else if b = 8 then [92, 98]
  else if b = 12 then [92, 102]
  else if b = 10 then [92, 110]
  else if b = 13 then [92, 114]
  else if b = 9 then [92, 116]
  else [92, 117, 48, 48, hexDigit (b.toNat / 16), hexDigit (b.toNat % 16)]

/-- The bytes of `appendString(dst, src, true)` between its quotes. ASCII bytes are copied
or escaped; for the others the loop decodes a rune: an invalid byte becomes the escape `\ufffd`,
U+2028 and U+2029 are escaped, and a valid rune is copied. (The source copies runs of
bytes `src[start:i]` at once; copying each byte as it is passed writes the same.) -/
def appendStringBody (s : Bytes) : Bytes :=
  match s with
  | [] => []
  | b :: p =>
    if b.toNat < 0x80 then (if htmlSafe b then [b] else escapeAscii b) ++ appendStringBody p
    else
      (if decodeRune (b :: p) = (runeError, 1) then lit "\\ufffd"
        else if (decodeRune (b :: p)).1 = 0x2028 ∨ (decodeRune (b :: p)).1 = 0x2029 then
          [92, 117, 50, 48, 50, hexDigit ((decodeRune (b :: p)).1 % 16)]
        else (b :: p).take (decodeRune (b :: p)).2) ++
      appendStringBody ((b :: p).drop (decodeRune (b :: p)).2)
termination_by s.length
decreasing_by
  all_goals first
    | exact length_drop_decodeRune _ _
    | simp

/-- `appendString`: a JSON string. -/
def appendString (s : Bytes) : Bytes := 34 :: appendStringBody s ++ [34]

/-- Printable ASCII outside `<`, `>`, `&`, `"` and `\` is copied as it is. -/
theorem appendStringBody_of_safe : ∀ {s : Bytes}, (∀ b ∈ s, b.toNat < 0x80 ∧ htmlSafe b = true) →
    appendStringBody s = s
  | [], _ => by rw [appendStringBody]
  | b :: p, h => by
    have hb := h b (List.mem_cons_self _ _)
    rw [appendStringBody, if_pos hb.1, if_pos hb.2,
      appendStringBody_of_safe fun x hx => h x (List.mem_cons_of_mem _ hx)]
    rfl

mutual
/-- The compact JSON text of a value. -/
def encodeValue : JValue → Bytes
  | .null => lit "null"
  | .bool b => if b then lit "true" else lit "false"
  | .number l => l
  | .string s => appendString s
  | .array [] => lit "[]"
  | .array (v :: vs) => 91 :: encodeValue v ++ encodeElems vs
  | .object [] => lit "{}"
  | .object ((k, v) :: kvs) => 123 :: appendString k ++ 58 :: encodeValue v ++ encodeFields kvs

/-- The elements of an array after its first, and the closing bracket. -/
def encodeElems : List JValue → Bytes
  | [] => [93]
  | v :: vs => 44 :: encodeValue v ++ encodeElems vs

/-- The members of an object after its first, and the closing brace. -/
def encodeFields : List (Bytes × JValue) → Bytes
  | [] => [125]
  | (k, v) :: kvs => 44 :: appendString k ++ 58 :: encodeValue v ++ encodeFields kvs
end

/-- A `[]string`, `nil` as `null`. -/
def stringsValue : Option (List Bytes) → JValue
  | none => .null
  | some l => .array (l.map .string)

/-- A `map[string][]string` (an `http.Header` or `url.Values`), `nil` as `null`: an object
with the keys in sorted order. -/
def valuesValue : Option (GoMap (Option (List Bytes))) → JValue
  | none => .null
  | some m => .object (m.entries.map fun e => (e.1, stringsValue e.2))

end Goflow
