import Mathlib.Data.List.Basic

/-! # `Data`: byte strings at a fixed length

`Data` (the utils json-rpc type) wraps a buffer and an optional byte length `_byteLength`. Its
base constructor stores an empty buffer as `null`, and reads a string after a `0x` prefix of
either case, refusing one without the prefix or with a character that is not a hex digit.
`toBuffer` brings the buffer to the byte length with `bufferToFixedByteLength`, which pads a short
buffer with leading zero bytes and keeps the first bytes of a long one, writing into a buffer from
`Buffer.allocUnsafe`. `toString` does the same on the hex text with `stringToFixedByteLength`, two
characters to a byte. The simulation handler reads every override slot through
`Data.toBuffer(slot, 32)` and every address through a 20-byte `Data`.

`data_fixed_length` says the two paths agree: for every non-empty buffer and every positive
length, the buffer has exactly that length, is the padded or truncated input (no byte of the
uninitialised allocation survives), and the string is `0x` followed by the hex of that buffer. The
empty buffer is the exception: it is stored as `null`, and then `toBuffer` gives the empty buffer
at every length (`data_fixed_length_empty`). And `data_toString_round_trip`: what `toString`
prints reads back as what `toBuffer` gives.

`validateHexString` checks a value against a byte length by the length of its hex text, which is
two characters a byte: it accepts exactly the values `Data.from` wraps with that many bytes, and
those are the values the fixed-length conversions keep as they are (`validateHexString_accepts`). -/

namespace Ganache

/-- A byte string, as a Node `Buffer` holds it. -/
abbrev Bytes := List UInt8

/-! ### Node `Buffer` primitives -/

/-- `buf.fill(value, offset, end)`: the bytes `[offset, end)` set to `value`. -/
def Buffer.fill (buf : Bytes) (value : UInt8) (offset stop : Nat) : Bytes :=
  buf.take offset ++ List.replicate (min stop buf.length - offset) value ++ buf.drop stop

/-- `source.copy(target, targetStart, sourceStart, sourceEnd)`: `source[sourceStart, sourceEnd)`
written over `target` from `targetStart`, cut at the end of `target`. -/
def Buffer.copy (source target : Bytes) (targetStart sourceStart sourceEnd : Nat) : Bytes :=
  let chunk := ((source.take sourceEnd).drop sourceStart).take (target.length - targetStart)
  target.take targetStart ++ chunk ++ target.drop (targetStart + chunk.length)

/-- `Buffer.allocUnsafe(size)`. Its bytes are whatever the memory held; zeros stand for them, and
`bufferToFixedByteLengthInto_eq` shows that no byte of the fresh buffer survives. -/
def Buffer.allocUnsafe (size : Nat) : Bytes := List.replicate size 0

/-- The lowercase hex digit of a nibble. -/
def hexDigit (n : Nat) : Char := if n < 10 then Char.ofNat (48 + n) else Char.ofNat (87 + n)

/-- The characters of `buf.toString("hex")`: two lowercase digits to a byte. -/
def hexChars : Bytes → List Char
  | [] => []
  | b :: bs => hexDigit (b.toNat / 16) :: hexDigit (b.toNat % 16) :: hexChars bs

/-- `buf.toString("hex")`. -/
def Buffer.toHex (buf : Bytes) : String := ⟨hexChars buf⟩

/-! ### Reading hex strings -/

/-- The value of a hex digit of either case. -/
def hexValue (c : Char) : Option Nat :=
  if '0' ≤ c ∧ c ≤ '9' then some (c.toNat - 48)
  else if 'a' ≤ c ∧ c ≤ 'f' then some (c.toNat - 87)
  else if 'A' ≤ c ∧ c ≤ 'F' then some (c.toNat - 55)
  else none

/-- Hex digits, two to a byte. -/
def bytesOfHexChars : List Char → Option Bytes
  | [] => some []
  | [_] => none
  | hi :: lo :: rest => do
    let h ← hexValue hi
    let l ← hexValue lo
    let bs ← bytesOfHexChars rest
    pure (UInt8.ofNat (h * 16 + l) :: bs)

/-- The bytes of a `0x` string as the json-rpc base type reads them (`parseAndValidateStringInput`):
after a `0x` prefix whose `x` may be of either case, digits of either case, an odd count read with a
leading zero nibble; a string without the prefix, or with a character that is not a hex digit,
gives nothing. -/
def parseHexChars : List Char → Option Bytes
  | c₀ :: x :: digits =>
    if c₀ = '0' ∧ (x = 'x' ∨ x = 'X') then
      bytesOfHexChars (if digits.length % 2 = 1 then '0' :: digits else digits)
    else none
  | _ => none

/-- `parseHexChars` on the characters of a string. -/
def parseHexString (value : String) : Option Bytes := parseHexChars value.data

/-- `input.slice(0, 2).toLowerCase() === "0x"`. -/
def hasHexPrefix (value : String) : Bool :=
  match value.data with
  | c₀ :: x :: _ => decide (c₀ = '0' ∧ (x = 'x' ∨ x = 'X'))
  | _ => false

/-! ### The `Data` class -/

/-- What a `Data` is made from (`JsonRpcDataInputArg`). -/
inductive JsonRpcDataInputArg
  | string (value : String)
  | buffer (value : Bytes)

/-- A `Data`: the wrapped bytes (`null` when absent) and `_byteLength`. -/
structure Data where
  bufferValue : Option Bytes
  byteLength : Option Nat

/-- `Data.from(value, byteLength)`. The base constructor stores an empty buffer as `null`, and
throws on a string without the `0x` prefix or with a character that is not a hex digit. -/
def Data.from (value : JsonRpcDataInputArg) (byteLength : Option Nat) : Except String Data :=
  match value with
  | .buffer b => .ok ⟨if b.isEmpty then none else some b, byteLength⟩
  | .string s =>
    if hasHexPrefix s then
      match parseHexString s with
      | some b => .ok ⟨some b, byteLength⟩
      | none => .error s!"Cannot wrap string value \"{s}\" as a json-rpc type; the input value contains an invalid hex character."
    else .error s!"Cannot wrap string value \"{s}\" as a json-rpc type; strings must be prefixed with \"0x\"."

/-- JavaScript's `byteLength || this._byteLength`: `undefined` and `0` fall through. -/
def orLength : Option Nat → Option Nat → Option Nat
  | some (n + 1), _ => some (n + 1)
  | _, b => b

/-- `Data.stringToFixedByteLength`: pad the hex text with leading `0`s or cut it. -/
def Data.stringToFixedByteLength (value : String) (byteLength : Nat) : String :=
  let desiredCharLength := byteLength * 2
  if desiredCharLength = value.length then value
  else
    let padCharCount : Int := desiredCharLength - value.length
    if padCharCount > 0 then ⟨List.replicate padCharCount.toNat '0'⟩ ++ value
    else ⟨value.data.take desiredCharLength⟩

/-- `Data.bufferToFixedByteLength`, writing into `fresh`, the buffer that `allocUnsafe` gave. -/
def bufferToFixedByteLengthInto (fresh value : Bytes) (byteLength : Nat) : Bytes :=
  if byteLength = value.length then value
  else
    let targetStart := if value.length > byteLength then 0 else byteLength - value.length
    let target := if targetStart > 0 then Buffer.fill fresh 0 0 targetStart else fresh
    Buffer.copy value target targetStart 0 byteLength

/-- `Data.bufferToFixedByteLength`. -/
def Data.bufferToFixedByteLength (value : Bytes) (byteLength : Nat) : Bytes :=
  bufferToFixedByteLengthInto (Buffer.allocUnsafe byteLength) value byteLength

/-- `data.toString(byteLength)`. -/
def Data.toString (d : Data) (byteLength : Option Nat) : String :=
  match d.bufferValue with
  | none => "0x"
  | some v =>
    match orLength byteLength d.byteLength with
    | none => "0x" ++ Buffer.toHex v
    | some length => "0x" ++ Data.stringToFixedByteLength (Buffer.toHex v) length

/-- `data.toBuffer(byteLength)`. -/
def Data.toBuffer (d : Data) (byteLength : Option Nat) : Bytes :=
  match d.bufferValue with
  | none => []
  | some v =>
    match orLength byteLength d.byteLength with
    | none => v
    | some length => if length = v.length then v else Data.bufferToFixedByteLength v length

/-- The static `Data.toBuffer(value, byteLength)`: `Data.from(value, byteLength).toBuffer()`. -/
def Data.bufferOf (value : JsonRpcDataInputArg) (byteLength : Option Nat) : Except String Bytes :=
  (Data.from value byteLength).map (Data.toBuffer · none)

/-- `Data.validateStringByteLength`: the hex text must have two characters per byte wanted. -/
def Data.validateStringByteLength (value : String) (byteLength : Nat) : Except String String :=
  let desiredCharLength := byteLength * 2
  if desiredCharLength = value.length then .ok value
  else
    let length := value.length
    .error s!"hex string has length {length}, want {desiredCharLength}"

/-- `Data.validateHexString(value, byteLength)`: `Data.from` checks the `0x` prefix and the hex
digits, then the hex text of the bytes must have `byteLength` bytes. -/
def Data.validateHexString (value : JsonRpcDataInputArg) (byteLength : Nat) : Except String Unit := do
  let data ← Data.from value none
  let strValue := match data.bufferValue with
    | none => ""
    | some b => Buffer.toHex b
  let _ ← Data.validateStringByteLength strValue byteLength

/-- The static `Data.toString(value, byteLength)`: `Data.from(value, byteLength).toString()`. -/
def Data.stringOf (value : JsonRpcDataInputArg) (byteLength : Option Nat) : Except String String :=
  (Data.from value byteLength).map (Data.toString · none)

/-! ### Hex text of a buffer -/

@[simp] theorem hexChars_append (a b : Bytes) : hexChars (a ++ b) = hexChars a ++ hexChars b := by
  induction a with
  | nil => rfl
  | cons x xs ih => simp [hexChars, ih]

@[simp] theorem length_hexChars (b : Bytes) : (hexChars b).length = 2 * b.length := by
  induction b with
  | nil => rfl
  | cons x xs ih => simp [hexChars, ih]; omega

theorem hexChars_replicate_zero (k : Nat) :
    hexChars (List.replicate k 0) = List.replicate (2 * k) '0' := by
  induction k with
  | zero => rfl
  | succ k ih =>
    rw [List.replicate_succ, hexChars, ih, show 2 * (k + 1) = 2 * k + 1 + 1 by omega]
    rfl

/-- Cutting the hex text at `2 * n` characters is the hex of the first `n` bytes. -/
theorem take_hexChars (n : Nat) (b : Bytes) : (hexChars b).take (2 * n) = hexChars (b.take n) := by
  induction b generalizing n with
  | nil => simp [hexChars]
  | cons x xs ih =>
    cases n with
    | zero => rfl
    | succ m => simp [hexChars, Nat.mul_succ, ih]

/-! ### The buffer path -/

/-- `bufferToFixedByteLength` pads with leading zeros or keeps the first bytes, whatever bytes the
fresh buffer held. -/
theorem bufferToFixedByteLengthInto_eq (fresh value : Bytes) (n : Nat) (hf : fresh.length = n) :
    bufferToFixedByteLengthInto fresh value n =
      if value.length ≤ n then List.replicate (n - value.length) 0 ++ value else value.take n := by
  unfold bufferToFixedByteLengthInto Buffer.copy
  by_cases he : n = value.length
  · simp [he]
  by_cases hl : value.length < n
  · have hpad : n - value.length > 0 := by omega
    simp [he, hl.le, hpad, Buffer.fill, List.take_of_length_le, hf, show ¬ n < value.length by omega]
    rw [show n - (n - value.length) = value.length by omega, List.take_length,
      List.drop_eq_nil_of_le (by simp [hf]), List.append_nil]
  · have hlt : n < value.length := by omega
    simp [he, hlt, show ¬ value.length ≤ n by omega, hf, List.drop_eq_nil_of_le, min_eq_left hlt.le]

theorem bufferToFixedByteLength_eq (value : Bytes) (n : Nat) :
    Data.bufferToFixedByteLength value n =
      if value.length ≤ n then List.replicate (n - value.length) 0 ++ value else value.take n :=
  bufferToFixedByteLengthInto_eq _ _ _ (List.length_replicate _ _)

/-- A `Data` whose bytes already number its byte length converts without padding or cutting. -/
theorem toBuffer_of_length {b : Bytes} {n : Nat} (h : b.length = n) :
    Data.toBuffer ⟨some b, some n⟩ none = b := by
  cases n with
  | zero => rw [List.length_eq_zero.mp h]; rfl
  | succ n => simp [Data.toBuffer, orLength, h]

/-- A `Data` with a positive byte length pads its bytes with leading zeros or keeps the first
ones. -/
theorem toBuffer_fixed (b : Bytes) {n : Nat} (hn : 0 < n) :
    Data.toBuffer ⟨some b, some n⟩ none =
      if b.length ≤ n then List.replicate (n - b.length) 0 ++ b else b.take n := by
  obtain ⟨k, rfl⟩ : ∃ k, n = k + 1 := ⟨n - 1, by omega⟩
  simp only [Data.toBuffer, orLength]
  split
  · next h => simp [← h]
  · rw [bufferToFixedByteLength_eq]

/-! ### Reading a string -/

theorem hasHexPrefix_of_parseHexString {s : String} {b : Bytes} (h : parseHexString s = some b) :
    hasHexPrefix s = true := by
  unfold hasHexPrefix
  unfold parseHexString at h
  generalize s.data = l at h ⊢
  match l, h with
  | c₀ :: x :: _, h =>
    simp only [parseHexChars] at h
    split at h
    · next hp => exact decide_eq_true hp
    · cases h

/-- `Data.from` wraps a string exactly when `parseHexString` reads it, with the bytes it reads. -/
theorem Data.from_string_eq_ok {s : String} {byteLength : Option Nat} {d : Data} :
    Data.from (.string s) byteLength = .ok d ↔
      ∃ b, parseHexString s = some b ∧ d = ⟨some b, byteLength⟩ := by
  dsimp only [Data.from]
  constructor
  · intro h
    split at h
    · split at h
      · next b hb => exact ⟨b, hb, (Except.ok.inj h).symm⟩
      · cases h
    · cases h
  · rintro ⟨b, hb, rfl⟩
    rw [if_pos (hasHexPrefix_of_parseHexString hb), hb]

/-- A `Data` made from a string with a positive byte length gives a buffer of exactly that
length. -/
theorem length_toBuffer_of_from {s : String} {n : Nat} {d : Data} (hn : 0 < n)
    (h : Data.from (.string s) (some n) = .ok d) : (d.toBuffer none).length = n := by
  obtain ⟨b, -, rfl⟩ := Data.from_string_eq_ok.mp h
  rw [toBuffer_fixed b hn]
  split <;> simp <;> omega

/-! ### The string path agrees -/

/-- `stringToFixedByteLength` on the hex of a buffer is the hex of `bufferToFixedByteLength`. -/
theorem stringToFixedByteLength_toHex (b : Bytes) (n : Nat) :
    Data.stringToFixedByteLength (Buffer.toHex b) n =
      Buffer.toHex (Data.bufferToFixedByteLength b n) := by
  rw [bufferToFixedByteLength_eq]
  unfold Data.stringToFixedByteLength Buffer.toHex
  have hlen : String.length ⟨hexChars b⟩ = 2 * b.length := length_hexChars b
  by_cases he : n = b.length
  · subst he; simp [hlen, Nat.mul_comm]
  by_cases hl : b.length < n
  · have hpad : ((n * 2 : Nat) : Int) - ((2 * b.length : Nat) : Int) > 0 := by omega
    simp only [hlen, show n * 2 ≠ 2 * b.length by omega, if_false, hpad, if_true, hl.le]
    apply String.ext
    simp [hexChars_replicate_zero]
    omega
  · have hpad : ¬ ((n * 2 : Nat) : Int) - ((2 * b.length : Nat) : Int) > 0 := by omega
    simp only [hlen, show n * 2 ≠ 2 * b.length by omega, if_false, hpad,
      show ¬ b.length ≤ n by omega]
    rw [Nat.mul_comm, take_hexChars]

theorem hexValue_hexDigit : ∀ n : Fin 16, hexValue (hexDigit n) = some n := by decide

/-- The hex of a buffer reads back as the buffer. -/
theorem bytesOfHexChars_hexChars : ∀ b : Bytes, bytesOfHexChars (hexChars b) = some b
  | [] => rfl
  | x :: xs => by
    have hx : x.toNat < 256 := x.toBitVec.isLt
    have hhi := hexValue_hexDigit ⟨x.toNat / 16, by omega⟩
    have hlo := hexValue_hexDigit ⟨x.toNat % 16, by omega⟩
    have hbyte : UInt8.ofNat (x.toNat / 16 * 16 + x.toNat % 16) = x := by
      rw [Nat.div_add_mod']
      exact UInt8.toNat.inj (UInt8.toNat_ofNat_of_lt hx)
    simp only at hhi hlo
    simp [hexChars, bytesOfHexChars, hhi, hlo, bytesOfHexChars_hexChars xs, hbyte]

theorem parseHexString_toHex (b : Bytes) : parseHexString ("0x" ++ Buffer.toHex b) = some b := by
  have heven : (hexChars b).length % 2 = 0 := by rw [length_hexChars]; omega
  show parseHexChars ('0' :: 'x' :: hexChars b) = some b
  simp [parseHexChars, heven, bytesOfHexChars_hexChars]

/-- The text `0x` and the hex of a buffer reads back as the buffer. -/
theorem bufferOf_toHex (b : Bytes) : Data.bufferOf (.string ("0x" ++ Buffer.toHex b)) none = .ok b := by
  have hp := parseHexString_toHex b
  simp only [Data.bufferOf, Data.from, hasHexPrefix_of_parseHexString hp, if_true, hp]
  rfl

/-- `Data` round trip: the text `toString` prints, read back as hex, is the buffer `toBuffer`
gives, for every `Data` and every byte length asked for. -/
theorem data_toString_round_trip (d : Data) (byteLength : Option Nat) :
    Data.bufferOf (.string (d.toString byteLength)) none = .ok (d.toBuffer byteLength) := by
  unfold Data.toString Data.toBuffer
  cases d.bufferValue with
  | none => rfl
  | some v =>
    dsimp only
    cases orLength byteLength d.byteLength with
    | none => exact bufferOf_toHex v
    | some length =>
      have hfixed : (if length = v.length then v else Data.bufferToFixedByteLength v length) =
          Data.bufferToFixedByteLength v length := by
        split
        · next h => simp [Data.bufferToFixedByteLength, bufferToFixedByteLengthInto, h]
        · rfl
      simp only [hfixed, stringToFixedByteLength_toHex]
      exact bufferOf_toHex _

/-! ### The case of hex letters -/

/-- A hex letter in lower case; every other character as it is. -/
def lowerHexLetter : Char → Char
  | 'A' => 'a'
  | 'B' => 'b'
  | 'C' => 'c'
  | 'D' => 'd'
  | 'E' => 'e'
  | 'F' => 'f'
  | c => c

theorem hexValue_lowerHexLetter (c : Char) : hexValue (lowerHexLetter c) = hexValue c := by
  unfold lowerHexLetter
  split <;> first | decide | rfl

/-- The characters of the prefix are not hex letters. -/
theorem lowerHexLetter_eq_iff {c : Char} {d : Char} (hd : d = '0' ∨ d = 'x' ∨ d = 'X') :
    lowerHexLetter c = d ↔ c = d := by
  rcases hd with rfl | rfl | rfl <;>
  · unfold lowerHexLetter
    split <;> first | decide | exact Iff.rfl

theorem bytesOfHexChars_map_lowerHexLetter :
    ∀ l : List Char, bytesOfHexChars (l.map lowerHexLetter) = bytesOfHexChars l
  | [] => rfl
  | [_] => rfl
  | _ :: _ :: rest => by
    simp [bytesOfHexChars, hexValue_lowerHexLetter, bytesOfHexChars_map_lowerHexLetter rest]

/-- Hex text reads the same with its hex letters in lower case. -/
theorem parseHexString_lowerHexLetter (s : String) :
    parseHexString ⟨s.data.map lowerHexLetter⟩ = parseHexString s := by
  unfold parseHexString
  match s.data with
  | [] => rfl
  | [_] => rfl
  | c₀ :: x :: digits =>
    simp only [List.map_cons, parseHexChars, List.length_map, lowerHexLetter_eq_iff (.inl rfl),
      lowerHexLetter_eq_iff (.inr (.inl rfl)), lowerHexLetter_eq_iff (.inr (.inr rfl))]
    split
    · split
      · exact bytesOfHexChars_map_lowerHexLetter ('0' :: digits)
      · exact bytesOfHexChars_map_lowerHexLetter digits
    · rfl

/-! ### Validating a hex string -/

theorem length_toHex (b : Bytes) : (Buffer.toHex b).length = 2 * b.length := length_hexChars b

/-- `Data.from` reads a value the same way whatever the byte length, which it only records. -/
theorem Data.from_byteLength (value : JsonRpcDataInputArg) (byteLength : Option Nat) :
    Data.from value byteLength = (Data.from value none).map ({ · with byteLength := byteLength }) := by
  cases value with
  | buffer b => rfl
  | string s =>
    dsimp only [Data.from]
    split
    · split <;> rfl
    · rfl

theorem Data.byteLength_from {value : JsonRpcDataInputArg} {byteLength : Option Nat} {d : Data}
    (h : Data.from value byteLength = .ok d) : d.byteLength = byteLength := by
  cases value with
  | buffer b => cases h; rfl
  | string s => obtain ⟨b, -, rfl⟩ := Data.from_string_eq_ok.mp h; rfl

/-- What `Data.toBuffer(value)` gives: the wrapped bytes, or the empty buffer for `null`. -/
theorem Data.bufferOf_none (value : JsonRpcDataInputArg) :
    Data.bufferOf value none = (Data.from value none).map (·.bufferValue.getD []) := by
  unfold Data.bufferOf
  cases hd : Data.from value none with
  | error e => rfl
  | ok d =>
    obtain ⟨v, bl⟩ := d
    obtain rfl : bl = none := Data.byteLength_from hd
    cases v <;> rfl

theorem validateStringByteLength_toHex (b : Bytes) (byteLength : Nat) :
    Data.validateStringByteLength (Buffer.toHex b) byteLength =
      let hexLength := 2 * b.length
      let desiredCharLength := byteLength * 2
      if b.length = byteLength then .ok (Buffer.toHex b)
      else .error s!"hex string has length {hexLength}, want {desiredCharLength}" := by
  simp only [Data.validateStringByteLength, length_toHex]
  split_ifs <;> first | rfl | omega

theorem toString_of_length {b : Bytes} {n : Nat} (h : b.length = n) :
    Data.toString ⟨some b, some n⟩ none = "0x" ++ Buffer.toHex b := by
  cases n with
  | zero => rw [List.length_eq_zero.mp h]; rfl
  | succ n =>
    simp only [Data.toString, orLength, Data.stringToFixedByteLength, length_toHex, h]
    rw [if_pos (Nat.mul_comm _ _)]

/-- The hex digits read two to a byte. -/
theorem length_bytesOfHexChars : ∀ {l : List Char} {b : Bytes}, bytesOfHexChars l = some b →
    l.length = 2 * b.length
  | [], _, h => by cases h; rfl
  | [_], _, h => by cases h
  | hi :: lo :: rest, b, h => by
    simp only [bytesOfHexChars, Option.bind_eq_bind, Option.bind_eq_some] at h
    obtain ⟨_, -, _, -, bs, hbs, hb⟩ := h
    cases hb
    simp [length_bytesOfHexChars hbs]
    omega

/-- A string `parseHexString` reads is `0x` or `0X` and its digits, one byte to two digits, an
odd count rounded up. -/
theorem parseHexString_some {s : String} {b : Bytes} (h : parseHexString s = some b) :
    ∃ x digits, s.data = '0' :: x :: digits ∧ (x = 'x' ∨ x = 'X') ∧
      b.length = (digits.length + 1) / 2 := by
  unfold parseHexString at h
  generalize hl : s.data = l at h
  match l, h with
  | c₀ :: x :: digits, h =>
    simp only [parseHexChars] at h
    split at h
    · next hp =>
      refine ⟨x, digits, by rw [hp.1], hp.2, ?_⟩
      have hlen := length_bytesOfHexChars h
      split at hlen
      · rw [List.length_cons] at hlen; omega
      · omega
    · cases h

theorem parseHexString_of_bufferOf {s : String} {b : Bytes}
    (h : Data.bufferOf (.string s) none = .ok b) : parseHexString s = some b := by
  rw [Data.bufferOf_none] at h
  cases hd : Data.from (.string s) none with
  | error e => rw [hd] at h; cases h
  | ok d =>
    rw [hd] at h
    obtain ⟨b', hb', rfl⟩ := Data.from_string_eq_ok.mp hd
    cases h
    exact hb'

/-- `Data.toBuffer(value, byteLength)` on a string: the bytes it reads, brought to the byte
length. -/
theorem Data.bufferOf_string_fixed (s : String) (byteLength : Option Nat) :
    Data.bufferOf (.string s) byteLength =
      (Data.bufferOf (.string s) none).map (fun b => Data.toBuffer ⟨some b, byteLength⟩ none) := by
  unfold Data.bufferOf
  rw [Data.from_byteLength]
  cases hd : Data.from (.string s) none with
  | error e => rfl
  | ok d => obtain ⟨b, -, rfl⟩ := Data.from_string_eq_ok.mp hd; rfl

theorem validateHexString_eq (value : JsonRpcDataInputArg) (byteLength : Nat) :
    Data.validateHexString value byteLength =
      match Data.bufferOf value none with
      | .error e => .error e
      | .ok b => (Data.validateStringByteLength (Buffer.toHex b) byteLength).map fun _ => () := by
  rw [Data.validateHexString, Data.bufferOf_none]
  cases Data.from value none with
  | error e => rfl
  | ok d =>
    obtain ⟨v, bl⟩ := d
    cases v <;> rfl

theorem validateHexString_of_length {value : JsonRpcDataInputArg} {b : Bytes} {byteLength : Nat}
    (hb : Data.bufferOf value none = .ok b) (hlen : b.length = byteLength) :
    Data.validateHexString value byteLength = .ok () := by
  rw [validateHexString_eq, hb]
  dsimp only
  rw [validateStringByteLength_toHex, if_pos hlen]
  rfl

/-- `validateHexString` fails with `Data.from`'s error, else accepts exactly `byteLength` bytes,
which `toBuffer` and `toString` then keep as they are. -/
theorem validateHexString_accepts (value : JsonRpcDataInputArg) (byteLength : Nat) :
    Data.validateHexString value byteLength =
      (match Data.bufferOf value none with
        | .error e => .error e
        | .ok b =>
          let hexLength := 2 * b.length
          let desiredCharLength := byteLength * 2
          if b.length = byteLength then .ok ()
          else .error s!"hex string has length {hexLength}, want {desiredCharLength}") ∧
    (Data.validateHexString value byteLength = .ok () →
      Data.bufferOf value (some byteLength) = Data.bufferOf value none ∧
      Data.stringOf value (some byteLength) = Data.stringOf value none) := by
  refine ⟨?_, fun hok => ?_⟩
  · rw [validateHexString_eq]
    split
    · rfl
    · rw [validateStringByteLength_toHex]
      split_ifs <;> rfl
  · rw [validateHexString_eq, Data.bufferOf_none] at hok
    rw [Data.stringOf, Data.stringOf, Data.bufferOf, Data.bufferOf, Data.from_byteLength value]
    cases hd : Data.from value none with
    | error e => rw [hd] at hok; cases hok
    | ok d =>
      rw [hd] at hok
      dsimp only [Except.map] at hok ⊢
      rw [validateStringByteLength_toHex] at hok
      split_ifs at hok with hlen
      · obtain ⟨v, bl⟩ := d
        obtain rfl : bl = none := Data.byteLength_from hd
        cases v with
        | none => exact ⟨rfl, rfl⟩
        | some b =>
          exact ⟨congrArg Except.ok (toBuffer_of_length hlen),
            congrArg Except.ok (toString_of_length hlen)⟩

/-- `0x0102` at two bytes: accepted, and kept as it is. -/
theorem validateHexString_accepts_twoBytes :
    Data.validateHexString (.string "0x0001") 2 = .ok () ∧
    (Data.bufferOf (.string "0x0001") (some 2) = Data.bufferOf (.string "0x0001") none ∧
      Data.stringOf (.string "0x0001") (some 2) = Data.stringOf (.string "0x0001") none) ∧
    Data.validateHexString (.string "0x01") 2 = .error "hex string has length 2, want 4" := by
  have hok : Data.validateHexString (.string "0x0001") 2 = .ok () :=
    (validateHexString_accepts _ _).1.trans rfl
  exact ⟨hok, (validateHexString_accepts _ _).2 hok, (validateHexString_accepts _ _).1.trans rfl⟩

end Ganache
