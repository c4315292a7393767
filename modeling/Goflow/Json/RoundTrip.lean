import Goflow.Json.Decode

/-!
# `encoding/json`: reading back what `Marshal` wrote

`Marshal` documents that it coerces strings to valid UTF-8, replacing each invalid byte by
U+FFFD; `Unmarshal` then gives back exactly that. The strings travel through
`appendString` and `unquote` (`parseString_appendStringBody`, by one lemma per kind of
chunk `appendString` writes), and values are read back whole by recursive descent, however
deep, with whatever text follows (`parseValue_encodeValue`).

* `parseString_appendStringBody`: a string comes back as `replaceInvalid` of itself.
* `parseValue_encodeValue`, `parseJson_encodeValue`: a value without numbers comes back
  coerced (`JValue.coerce`), so unchanged when its strings are valid UTF-8
  (`JValue.coerce_of_valid`).
-/

namespace Goflow

/-! ## Strings -/

theorem parseString_ascii {b : UInt8} (r : Bytes) (h1 : 0x20 ≤ b.toNat) (h2 : b.toNat < 0x80)
    (h3 : b ≠ 34) (h4 : b ≠ 92) :
    parseString (b :: r) = (parseString r).map fun d => (b :: d.1, d.2) := by
  rw [parseString, if_neg (by rw [not_or]; exact ⟨by omega, h4⟩), if_pos h2]
  · exact h3
  · exact fun _ h _ => h4 h
  · exact fun _ _ h _ => h4 h

theorem parseString_escape {c b : UInt8} (r : Bytes) (hc : c ≠ 117) (h : unescape c = some b) :
    parseString (92 :: c :: r) = (parseString r).map fun d => (b :: d.1, d.2) := by
  rw [parseString, h]
  exact hc

theorem parseString_u {r : Bytes} {rr : Nat} (h : getu4 (92 :: 117 :: r) = some rr)
    (hs : ¬(0xD800 ≤ rr ∧ rr < 0xE000)) :
    parseString (92 :: 117 :: r) = (parseString (r.drop 4)).map fun d => (encodeRune rr ++ d.1, d.2) := by
  rw [parseString, h]
  dsimp only
  rw [if_neg (fun h' => hs ⟨h'.1, h'.2.1⟩), if_neg hs]

theorem parseString_raw {b : UInt8} (r : Bytes) (hb : 0x80 ≤ b.toNat) :
    parseString (b :: r) = (parseString ((b :: r).drop (decodeRune (b :: r)).2)).map
      fun d => (encodeRune (decodeRune (b :: r)).1 ++ d.1, d.2) := by
  have h3 : b ≠ 34 := fun h => absurd hb (by rw [h]; decide)
  have h4 : b ≠ 92 := fun h => absurd hb (by rw [h]; decide)
  rw [parseString, if_neg (by rw [not_or]; exact ⟨by omega, h4⟩), if_neg (by omega)]
  · exact h3
  · exact fun _ h _ => h4 h
  · exact fun _ _ h _ => h4 h


theorem unhex_hexDigit : ∀ d : Fin 16, unhex (hexDigit d) = some d := by decide

theorem getu4_hex {b : UInt8} (t : Bytes) (hb : b.toNat < 0x80) :
    getu4 (92 :: 117 :: 48 :: 48 :: hexDigit (b.toNat / 16) :: hexDigit (b.toNat % 16) :: t) =
      some b.toNat := by
  have h1 := unhex_hexDigit ⟨b.toNat / 16, by omega⟩
  have h2 := unhex_hexDigit ⟨b.toNat % 16, by omega⟩
  simp only [getu4, h1, h2, show unhex 48 = some 0 from rfl, Option.pure_def, Option.bind_eq_bind,
    Option.some_bind]
  congr 1
  omega


theorem parseString_escapeAscii {b : UInt8} (t : Bytes) (hb : b.toNat < 0x80) :
    parseString (escapeAscii b ++ t) = (parseString t).map fun d => (b :: d.1, d.2) := by
  unfold escapeAscii
  split_ifs with h1 h2 h3 h4 h5 h6
  · rcases h1 with rfl | rfl <;> exact parseString_escape t (by decide) rfl
  · subst h2; exact parseString_escape t (by decide) rfl
  · subst h3; exact parseString_escape t (by decide) rfl
  · subst h4; exact parseString_escape t (by decide) rfl
  · subst h5; exact parseString_escape t (by decide) rfl
  · subst h6; exact parseString_escape t (by decide) rfl
  · simp only [List.cons_append, List.nil_append]
    rw [parseString_u (getu4_hex _ hb) (by omega), encodeRune, if_pos hb, toUInt8_of_eq rfl]
    rfl

theorem htmlSafe_spec {b : UInt8} (h : htmlSafe b = true) : 0x20 ≤ b.toNat ∧ b ≠ 34 ∧ b ≠ 92 := by
  simp only [htmlSafe, Bool.and_eq_true, decide_eq_true_eq, bne_iff_ne, ne_eq] at h
  exact ⟨h.1.1.1.1.1, h.1.1.1.1.2, h.1.1.1.2⟩

theorem parseString_ufffd (t : Bytes) :
    parseString (lit "\\ufffd" ++ t) = (parseString t).map fun d => ([0xEF, 0xBF, 0xBD] ++ d.1, d.2) :=
  parseString_u (r := 102 :: 102 :: 102 :: 100 :: t) rfl (by decide)

/-- ASCII text is valid UTF-8. -/
theorem validUTF8_of_ascii : ∀ {s : Bytes}, (∀ b ∈ s, b.toNat < 0x80) → validUTF8 s = true
  | [], _ => by unfold validUTF8; rfl
  | b :: p, h => by
    have hb := h b (List.mem_cons_self _ _)
    have hne : (b.toNat, 1) ≠ (runeError, 1) := fun h' => by
      simp only [Prod.mk.injEq, runeError] at h'; omega
    unfold validUTF8
    rw [decodeRune_ascii p hb, decide_eq_false hne, Bool.not_false, Bool.true_and, List.drop_one,
      List.tail_cons]
    exact validUTF8_of_ascii fun x hx => h x (List.mem_cons_of_mem _ hx)

theorem parseString_rune {b : UInt8} {p : Bytes} {c n : Nat} (t : Bytes) (hb : 0x80 ≤ b.toNat)
    (hd : decodeRune (b :: p) = (c, n)) (hv : (c, n) ≠ (runeError, 1)) :
    parseString ((b :: p).take n ++ t) = (parseString t).map fun d => ((b :: p).take n ++ d.1, d.2) := by
  have hsize := decodeRune_size b p
  rw [hd] at hsize
  obtain ⟨hdec, henc⟩ := decodeRune_valid hd hsize.1 (hd ▸ hv) t
  obtain ⟨m, rfl⟩ : ∃ m, n = m + 1 := ⟨n - 1, by have := hsize.1; omega⟩
  have hdrop : ((b :: p).take (m + 1) ++ t).drop (m + 1) = t :=
    List.drop_left' (List.length_take_of_le hsize.2)
  rw [List.take_succ_cons, List.cons_append, parseString_raw _ hb, ← List.cons_append,
    ← List.take_succ_cons, hdec, hdrop, henc]

theorem getu4_lineSep {c : Nat} (t : Bytes) (h : c = 0x2028 ∨ c = 0x2029) :
    getu4 (92 :: 117 :: 50 :: 48 :: 50 :: hexDigit (c % 16) :: t) = some c := by
  rcases h with rfl | rfl <;> rfl

theorem replaceInvalid_cons (b : UInt8) (p : Bytes) :
    replaceInvalid (b :: p) =
      (if decodeRune (b :: p) = (runeError, 1) then [0xEF, 0xBF, 0xBD]
        else (b :: p).take (decodeRune (b :: p)).2) ++
      replaceInvalid ((b :: p).drop (decodeRune (b :: p)).2) := by
  rw [replaceInvalid]

/-- **Strings survive the trip through JSON, up to invalid bytes**: reading back what
`appendString` wrote gives the string with each invalid byte replaced. -/
theorem parseString_appendStringBody : ∀ (s rest : Bytes),
    parseString (appendStringBody s ++ 34 :: rest) = some (replaceInvalid s, rest)
  | [], rest => by rw [appendStringBody, replaceInvalid, List.nil_append, parseString]
  | b :: p, rest => by
    rw [appendStringBody, replaceInvalid_cons]
    by_cases hb : b.toNat < 0x80
    · have hd := decodeRune_ascii p hb
      have ih := parseString_appendStringBody p rest
      have hne : (b.toNat, 1) ≠ (runeError, 1) := fun h => by
        simp only [Prod.mk.injEq, runeError] at h; omega
      rw [if_pos hb, hd, if_neg hne, List.append_assoc]
      by_cases hs : htmlSafe b = true
      · obtain ⟨h1, h2, h3⟩ := htmlSafe_spec hs
        rw [if_pos hs, List.singleton_append, parseString_ascii _ h1 hb h2 h3, ih]
        rfl
      · rw [if_neg hs, parseString_escapeAscii _ hb, ih]
        rfl
    · have ih := parseString_appendStringBody ((b :: p).drop (decodeRune (b :: p)).2) rest
      have hn := (decodeRune_size b p).1
      rw [if_neg hb]
      rcases hd : decodeRune (b :: p) with ⟨c, n⟩
      rw [hd] at ih hn
      by_cases he : (c, n) = (runeError, 1)
      · rw [if_pos he, if_pos he, List.append_assoc, parseString_ufffd, ih]
        rfl
      · obtain ⟨-, henc⟩ := decodeRune_valid hd hn (hd ▸ he) []
        rw [if_neg he, if_neg he]
        by_cases hl : c = 0x2028 ∨ c = 0x2029
        · rw [if_pos hl]
          simp only [List.cons_append, List.nil_append]
          rw [parseString_u (getu4_lineSep _ hl) (by omega)]
          simp only [List.drop_succ_cons, List.drop_zero]
          rw [ih, henc]
          rfl
        · rw [if_neg hl, List.append_assoc, parseString_rune _ (by omega) hd he, ih]
          rfl
termination_by s => s.length
decreasing_by
  all_goals first
    | exact length_drop_decodeRune _ _
    | simp

/-! ## Values -/

mutual
/-- What `Unmarshal` reads back of a value `Marshal` wrote: every string, keys included,
with its invalid bytes replaced by U+FFFD. -/
def JValue.coerce : JValue → JValue
  | .string s => .string (replaceInvalid s)
  | .array vs => .array (JValue.coerceList vs)
  | .object kvs => .object (JValue.coerceFields kvs)
  | v => v

/-- `coerce` on each element. -/
def JValue.coerceList : List JValue → List JValue
  | [] => []
  | v :: vs => JValue.coerce v :: JValue.coerceList vs

/-- `coerce` on each member. -/
def JValue.coerceFields : List (Bytes × JValue) → List (Bytes × JValue)
  | [] => []
  | (k, v) :: kvs => (replaceInvalid k, JValue.coerce v) :: JValue.coerceFields kvs
end

mutual
/-- No number inside. The values a `Task` marshals to are such. -/
def JValue.numberFree : JValue → Bool
  | .number _ => false
  | .array vs => JValue.numberFreeList vs
  | .object kvs => JValue.numberFreeFields kvs
  | _ => true

/-- No number in any element. -/
def JValue.numberFreeList : List JValue → Bool
  | [] => true
  | v :: vs => JValue.numberFree v && JValue.numberFreeList vs

/-- No number in any member. -/
def JValue.numberFreeFields : List (Bytes × JValue) → Bool
  | [] => true
  | (_, v) :: kvs => JValue.numberFree v && JValue.numberFreeFields kvs
end

mutual
/-- Fuel enough to read a value back: one per value, and one more per array or object. -/
def JValue.size : JValue → Nat
  | .array vs => 1 + JValue.sizeList vs
  | .object kvs => 1 + JValue.sizeFields kvs
  | _ => 1

/-- Fuel for the elements of an array. -/
def JValue.sizeList : List JValue → Nat
  | [] => 1
  | v :: vs => JValue.size v + JValue.sizeList vs

/-- Fuel for the members of an object. -/
def JValue.sizeFields : List (Bytes × JValue) → Nat
  | [] => 1
  | (_, v) :: kvs => JValue.size v + JValue.sizeFields kvs
end

theorem JValue.size_pos (v : JValue) : 0 < v.size := by
  cases v <;> simp only [JValue.size] <;> omega

theorem skipWs_of_not_space (b : UInt8) (t : Bytes) (h : isSpace b = false) :
    skipWs (b :: t) = b :: t := by
  rw [skipWs, if_neg (by simp [h])]

/-- A value's text starts with a byte that is neither whitespace nor `]`. -/
theorem encodeValue_head {v : JValue} (h : v.numberFree = true) :
    ∃ b t, encodeValue v = b :: t ∧ isSpace b = false ∧ b ≠ 93 := by
  cases v with
  | number l => simp [JValue.numberFree] at h
  | bool b => cases b <;> exact ⟨_, _, rfl, rfl, by decide⟩
  | array vs => cases vs <;> exact ⟨91, _, rfl, rfl, by decide⟩
  | object kvs => cases kvs <;> exact ⟨123, _, rfl, rfl, by decide⟩
  | null | string s => exact ⟨_, _, rfl, rfl, by decide⟩

theorem skipWs_encodeValue {v : JValue} (h : v.numberFree = true) (t : Bytes) :
    skipWs (encodeValue v ++ t) = encodeValue v ++ t := by
  obtain ⟨b, r, hv, hs, -⟩ := encodeValue_head h
  rw [hv, List.cons_append, skipWs_of_not_space _ _ hs]

theorem encodeValue_ne_close {v : JValue} (h : v.numberFree = true) (t r : Bytes) :
    encodeValue v ++ t ≠ 93 :: r := by
  obtain ⟨b, r, hv, -, hb⟩ := encodeValue_head h
  rw [hv, List.cons_append]
  exact fun he => hb (List.cons.inj he).1

-- One lemma per step of the descent, so that the round trip never unfolds the parser.

theorem parseValue_appendString (n : Nat) (k rest : Bytes) :
    parseValue (n + 1) (appendString k ++ rest) = some (.string (replaceInvalid k), rest) := by
  simp only [appendString, List.cons_append, List.append_assoc, List.singleton_append]
  show (parseString _).map _ = _
  rw [parseString_appendStringBody]
  rfl

theorem parseValue_array (n : Nat) {r : Bytes} (hs : skipWs r = r) (h93 : ∀ r', r ≠ 93 :: r') :
    parseValue (n + 1) (91 :: r) = parseElems n r [] := by
  show (match skipWs r with | 93 :: r2 => some (JValue.array [], r2) | r2 => parseElems n r2 []) = _
  rw [hs]
  split
  · exact absurd rfl (h93 _)
  · rfl

theorem parseValue_object (n : Nat) (k r : Bytes) :
    parseValue (n + 1) (123 :: (appendString k ++ r)) = parseMembers n (appendString k ++ r) [] := rfl

theorem parseElems_next {n : Nat} {s r : Bytes} {v : JValue} (acc : List JValue)
    (h : parseValue n s = some (v, 44 :: r)) : parseElems (n + 1) s acc = parseElems n r (acc ++ [v]) := by
  rw [parseElems, h]
  rfl

theorem parseElems_last {n : Nat} {s r : Bytes} {v : JValue} (acc : List JValue)
    (h : parseValue n s = some (v, 93 :: r)) : parseElems (n + 1) s acc = some (.array (acc ++ [v]), r) := by
  rw [parseElems, h]
  rfl

theorem parseMembers_next {n : Nat} {k r r' : Bytes} {v : JValue} (acc : List (Bytes × JValue))
    (hv : parseValue n r = some (v, 44 :: r')) :
    parseMembers (n + 1) (appendString k ++ 58 :: r) acc =
      parseMembers n r' (acc ++ [(replaceInvalid k, v)]) := by
  simp only [appendString, List.cons_append, List.append_assoc, List.singleton_append]
  rw [parseMembers, skipWs_of_not_space 34 _ rfl]
  simp only [parseString_appendStringBody, List.nil_append, skipWs_of_not_space 58 _ rfl, hv,
    skipWs_of_not_space 44 _ rfl]

theorem parseMembers_last {n : Nat} {k r r' : Bytes} {v : JValue} (acc : List (Bytes × JValue))
    (hv : parseValue n r = some (v, 125 :: r')) :
    parseMembers (n + 1) (appendString k ++ 58 :: r) acc =
      some (.object (acc ++ [(replaceInvalid k, v)]), r') := by
  simp only [appendString, List.cons_append, List.append_assoc, List.singleton_append]
  rw [parseMembers, skipWs_of_not_space 34 _ rfl]
  simp only [parseString_appendStringBody, List.nil_append, skipWs_of_not_space 58 _ rfl, hv,
    skipWs_of_not_space 125 _ rfl]

mutual
/-- **A value comes back coerced, whatever follows it**: with fuel `v.size`, reading the text
`Marshal` wrote for a value without numbers gives the value with its strings coerced to
UTF-8, and stops right after it. -/
theorem parseValue_encodeValue : ∀ (n : Nat) (v : JValue) (rest : Bytes), v.numberFree = true →
    v.size ≤ n → parseValue n (encodeValue v ++ rest) = some (v.coerce, rest)
  | 0, v, _, _, hs => absurd hs (by have := v.size_pos; omega)
  | _ + 1, .null, _, _, _ | _ + 1, .bool true, _, _, _ | _ + 1, .bool false, _, _, _ => rfl
  | _ + 1, .number _, _, hf, _ => by simp [JValue.numberFree] at hf
  | n + 1, .string s, rest, _, _ => parseValue_appendString n s rest
  | _ + 1, .array [], _, _, _ | _ + 1, .object [], _, _, _ => rfl
  | n + 1, .array (v :: vs), rest, hf, hs => by
    simp only [JValue.numberFree, JValue.numberFreeList, Bool.and_eq_true] at hf
    simp only [JValue.size, JValue.sizeList] at hs
    simp only [encodeValue, List.cons_append, List.append_assoc]
    rw [parseValue_array n (skipWs_encodeValue hf.1 _) (encodeValue_ne_close hf.1 _),
      parseElems_encodeValue n v vs rest [] hf.1 hf.2 (by omega)]
    rfl
  | n + 1, .object ((k, v) :: kvs), rest, hf, hs => by
    simp only [JValue.numberFree, JValue.numberFreeFields, Bool.and_eq_true] at hf
    simp only [JValue.size, JValue.sizeFields] at hs
    simp only [encodeValue, List.cons_append, List.append_assoc]
    rw [parseValue_object, parseMembers_encodeValue n k v kvs rest [] hf.1 hf.2 (by omega)]
    rfl

/-- The elements of an array, from its next one on. -/
theorem parseElems_encodeValue : ∀ (n : Nat) (v : JValue) (vs : List JValue) (rest : Bytes)
    (acc : List JValue), v.numberFree = true → JValue.numberFreeList vs = true →
    v.size + JValue.sizeList vs ≤ n →
    parseElems n (encodeValue v ++ (encodeElems vs ++ rest)) acc =
      some (.array (acc ++ v.coerce :: JValue.coerceList vs), rest)
  | 0, v, _, _, _, _, _, hs => absurd hs (by have := v.size_pos; omega)
  | n + 1, v, [], rest, acc, hv, _, hs => by
    simp only [JValue.sizeList] at hs
    simp only [encodeElems, List.singleton_append]
    rw [parseElems_last acc (parseValue_encodeValue n v _ hv (by omega))]
    rfl
  | n + 1, v, w :: ws, rest, acc, hv, hws, hs => by
    simp only [JValue.numberFreeList, Bool.and_eq_true] at hws
    simp only [JValue.sizeList] at hs
    have := v.size_pos
    have := w.size_pos
    simp only [encodeElems, List.cons_append, List.append_assoc]
    rw [parseElems_next acc (parseValue_encodeValue n v _ hv (by omega)),
      parseElems_encodeValue n w ws rest _ hws.1 hws.2 (by omega), List.append_assoc]
    rfl

/-- The members of an object, from its next one on. -/
theorem parseMembers_encodeValue : ∀ (n : Nat) (k : Bytes) (v : JValue)
    (kvs : List (Bytes × JValue)) (rest : Bytes) (acc : List (Bytes × JValue)),
    v.numberFree = true → JValue.numberFreeFields kvs = true → v.size + JValue.sizeFields kvs ≤ n →
    parseMembers n (appendString k ++ 58 :: (encodeValue v ++ (encodeFields kvs ++ rest))) acc =
      some (.object (acc ++ (replaceInvalid k, v.coerce) :: JValue.coerceFields kvs), rest)
  | 0, _, v, _, _, _, _, _, hs => absurd hs (by have := v.size_pos; omega)
  | n + 1, k, v, [], rest, acc, hv, _, hs => by
    simp only [JValue.sizeFields] at hs
    simp only [encodeFields, List.singleton_append]
    rw [parseMembers_last acc (parseValue_encodeValue n v _ hv (by omega))]
    rfl
  | n + 1, k, v, (k', w) :: kvs, rest, acc, hv, hws, hs => by
    simp only [JValue.numberFreeFields, Bool.and_eq_true] at hws
    simp only [JValue.sizeFields] at hs
    have := v.size_pos
    have := w.size_pos
    simp only [encodeFields, List.cons_append, List.append_assoc]
    rw [parseMembers_next acc (parseValue_encodeValue n v _ hv (by omega)),
      parseMembers_encodeValue n k' w kvs rest _ hws.1 hws.2 (by omega), List.append_assoc]
    rfl
end

mutual
theorem JValue.size_le_length : ∀ v : JValue, v.size ≤ (encodeValue v).length + 1
  | .null | .bool _ | .number _ | .string _ => Nat.le_add_left 1 _
  | .array [] | .object [] => by decide
  | .array (v :: vs) => by
    have := v.size_le_length
    have := JValue.sizeList_le_length vs
    simp only [JValue.size, JValue.sizeList, encodeValue, List.length_cons, List.length_append]
    omega
  | .object ((k, v) :: kvs) => by
    have := v.size_le_length
    have := JValue.sizeFields_le_length kvs
    simp only [JValue.size, JValue.sizeFields, encodeValue, List.length_cons, List.length_append]
    omega

theorem JValue.sizeList_le_length : ∀ vs : List JValue, JValue.sizeList vs ≤ (encodeElems vs).length
  | [] => le_refl 1
  | v :: vs => by
    have := v.size_le_length
    have := JValue.sizeList_le_length vs
    simp only [JValue.sizeList, encodeElems, List.length_cons, List.length_append]
    omega

theorem JValue.sizeFields_le_length :
    ∀ kvs : List (Bytes × JValue), JValue.sizeFields kvs ≤ (encodeFields kvs).length
  | [] => le_refl 1
  | (k, v) :: kvs => by
    have := v.size_le_length
    have := JValue.sizeFields_le_length kvs
    simp only [JValue.sizeFields, encodeFields, List.length_cons, List.length_append]
    omega
end

/-- **`Unmarshal` reads back what `Marshal` wrote**, coerced to UTF-8: the text of a value
without numbers is accepted whole, and gives the value with its strings coerced. -/
theorem parseJson_encodeValue {v : JValue} (h : v.numberFree = true) :
    parseJson (encodeValue v) = some v.coerce := by
  have hp := parseValue_encodeValue _ v [] h v.size_le_length
  rw [List.append_nil] at hp
  rw [parseJson, hp]
  rfl

end Goflow
