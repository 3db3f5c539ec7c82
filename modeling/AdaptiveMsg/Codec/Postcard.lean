import AdaptiveMsg.Bytes.Leb128
import AdaptiveMsg.Error
import Mathlib.Data.List.Basic

/-!
# Codec — the postcard envelope

`codec_postcard.rs` writes the envelope of a message by hand.  Postcard's own format is above it: a
`str` or byte sequence is its length as an unsigned LEB128 and then its bytes, a struct its fields in
order.

* `pushLenVarint_eq`: the loop writes a length as LEB128.
* `encode_is_postcard`: the envelope is postcard's, it is read back, and no other gives its bytes.
-/

namespace AdaptiveMsg

open Bytes

/-! ### Postcard's format -/

namespace Postcard

/-- The longest varint of a 64-bit length. -/
def varintMax : Nat := 10

/-- A length: postcard takes no more than 64 bits, in no more than `varintMax` bytes. -/
def takeLen (bytes : List UInt8) : Option (Nat × List UInt8) :=
  (ofLeb128 bytes).filter fun r => r.1 < 2 ^ 64 ∧ bytes.length ≤ r.2.length + varintMax

def takeBytes (bytes : List UInt8) : Option (List UInt8 × List UInt8) :=
  (takeLen bytes).bind fun r => if r.2.length < r.1 then none else some (r.2.take r.1, r.2.drop r.1)

def takeStr (bytes : List UInt8) : Option (String × List UInt8) :=
  (takeBytes bytes).bind fun r => (String.fromUTF8? r.1.toByteArray).map (·, r.2)

/-- The bytes of a `str`. -/
def strBytes (str : String) : List UInt8 := str.toUTF8.data.toList

/-- The envelope `{type: &str, data: &[u8]}`. -/
def envelope (wire : String) (data : List UInt8) : List UInt8 :=
  lengthPrefixed (strBytes wire) ++ lengthPrefixed data

/-- The fields of an envelope, and what follows it. -/
def takeEnvelope (bytes : List UInt8) : Option ((String × List UInt8) × List UInt8) :=
  (takeStr bytes).bind fun wire => (takeBytes wire.2).map fun data => ((wire.1, data.1), data.2)

end Postcard

/-! ### The codec -/

/-- What the postcard codec uses of a message. -/
structure Message where
  wireName : String
  encodePostcard : Except Error (List UInt8)

structure Envelope where
  wire : String
  body : List UInt8
  deriving DecidableEq

namespace PostcardCodec

def maxLenVarint : Nat := 10

def pushLenVarint (out : List UInt8) (len : UInt64) : List UInt8 :=
  if len ≥ 0x80 then pushLenVarint (out ++ [len.toUInt8 ||| 0x80]) (len >>> 7)
  else out ++ [len.toUInt8]
  termination_by len.toNat
  decreasing_by
    have hle : (0x80 : UInt64).toNat ≤ len.toNat := UInt64.le_iff_toNat_le.1 ‹_›
    have hpos : 0 < len.toNat := Nat.lt_of_lt_of_le (by decide) hle
    have hdiv : (len >>> 7).toNat = len.toNat / 128 := by
      rw [UInt64.toNat_shiftRight]
      exact Nat.shiftRight_eq_div_pow _ _
    rw [hdiv]
    exact Nat.div_lt_self hpos (by decide)

/-- The length of a byte sequence as a `usize`. -/
def lenOf (bytes : List UInt8) : UInt64 := UInt64.ofNat bytes.length

def encode (msg : Message) : Except Error (List UInt8) :=
  msg.encodePostcard.map fun data =>
    let out := pushLenVarint [] (lenOf (Postcard.strBytes msg.wireName))
    let out := out ++ Postcard.strBytes msg.wireName
    let out := pushLenVarint out (lenOf data)
    out ++ data

/-- `postcard::from_bytes` ignores what follows the envelope; `malformed` is the text of its error. -/
def decodeEnvelope (malformed : String) (payload : List UInt8) : Except Error Envelope :=
  match Postcard.takeEnvelope payload with
  | none => .error (.codec malformed)
  | some ((wire, data), _) =>
    if wire.isEmpty then .error (.codec "postcard payload missing type") else .ok ⟨wire, data⟩

end PostcardCodec

/-! ### Reading the format back -/

namespace Postcard

variable {bytes data rest : List UInt8}

theorem takeLen_leb128 {n : Nat} (h : n < 2 ^ 64) (rest : List UInt8) :
    takeLen (leb128 n ++ rest) = some (n, rest) := by
  have hlen : (leb128 n).length ≤ varintMax :=
    length_leb128_le (by decide) (Nat.lt_trans h (by decide))
  rw [takeLen, ofLeb128_leb128, Option.filter_some, if_pos]
  rw [decide_eq_true_eq, List.length_append, Nat.add_comm]
  exact ⟨h, Nat.add_le_add_left hlen _⟩

theorem takeBytes_lengthPrefixed (h : data.length < 2 ^ 64) (rest : List UInt8) :
    takeBytes (lengthPrefixed data ++ rest) = some (data, rest) := by
  have hlong : ¬(data ++ rest).length < data.length := by
    rw [List.length_append]
    exact Nat.not_lt.2 (Nat.le_add_right _ _)
  rw [takeBytes, lengthPrefixed, List.append_assoc, takeLen_leb128 h, Option.bind_some]
  simp only [if_neg hlong, List.take_left, List.drop_left]

theorem toByteArray_strBytes (str : String) : (strBytes str).toByteArray = str.toUTF8 :=
  ByteArray.ext (by rw [List.data_toByteArray, strBytes, Array.toArray_toList])

theorem takeStr_lengthPrefixed {str : String} (h : (strBytes str).length < 2 ^ 64)
    (rest : List UInt8) : takeStr (lengthPrefixed (strBytes str) ++ rest) = some (str, rest) := by
  have hutf8 : String.fromUTF8? str.toUTF8 = some str := dif_pos str.isValidUTF8
  rw [takeStr, takeBytes_lengthPrefixed h, Option.bind_some, toByteArray_strBytes, hutf8,
    Option.map_some]

/-- An envelope is read back, and what follows it is left. -/
theorem takeEnvelope_envelope {wire : String} (hw : (strBytes wire).length < 2 ^ 64)
    (hd : data.length < 2 ^ 64) (rest : List UInt8) :
    takeEnvelope (envelope wire data ++ rest) = some ((wire, data), rest) := by
  rw [takeEnvelope, envelope, List.append_assoc, takeStr_lengthPrefixed hw, Option.bind_some,
    takeBytes_lengthPrefixed hd, Option.map_some]

end Postcard

/-! ### The hand-written envelope -/

namespace PostcardCodec

variable {wire : String} {data : List UInt8}

theorem toNat_shiftRight_seven (len : UInt64) : (len >>> 7).toNat = len.toNat / 128 := by
  rw [UInt64.toNat_shiftRight]
  exact Nat.shiftRight_eq_div_pow _ _

/-- The cast keeps the low byte, and the high bit replaces its eighth. -/
theorem toUInt8_or (len : UInt64) :
    len.toUInt8 ||| 0x80 = UInt8.ofNat (len.toNat % 128 + 128) := by
  have hor : ∀ b : Fin 256, b.val ||| 128 = b.val % 128 + 128 := by decide +kernel
  have hlt : len.toNat % 256 < 256 := Nat.mod_lt _ (by decide)
  refine UInt8.toNat_inj.1 ?_
  calc
    (len.toUInt8 ||| 0x80).toNat = len.toNat % 256 ||| 128 := by
      rw [UInt8.toNat_or, UInt64.toNat_toUInt8]
      rfl
    _ = len.toNat % 256 % 128 + 128 := hor ⟨_, hlt⟩
    _ = len.toNat % 128 + 128 := by rw [Nat.mod_mod_of_dvd _ (by decide)]
    _ = (UInt8.ofNat (len.toNat % 128 + 128)).toNat :=
      (UInt8.toNat_ofNat_of_lt' (Nat.add_lt_add_right (Nat.mod_lt _ (by decide)) 128)).symm

/-- **The loop writes the length as LEB128.** -/
theorem pushLenVarint_eq (out : List UInt8) (len : UInt64) :
    pushLenVarint out len = out ++ leb128 len.toNat := by
  induction out, len using pushLenVarint.induct with
  | case1 out len hge ih =>
      have hle : 128 ≤ len.toNat := UInt64.le_iff_toNat_le.1 hge
      rw [pushLenVarint, if_pos hge, ih, leb128_of_le hle, toNat_shiftRight_seven, toUInt8_or,
        List.append_assoc, List.singleton_append]
  | case2 out len hlt =>
      have hlt : len.toNat < 128 := Nat.lt_of_not_le fun h => hlt (UInt64.le_iff_toNat_le.2 h)
      rw [pushLenVarint, if_neg ‹_›, leb128_of_lt hlt]
      rfl

theorem length_leb128_le_max (len : UInt64) : (leb128 len.toNat).length ≤ maxLenVarint :=
  length_leb128_le (by decide) (Nat.lt_trans len.toNat_lt (by decide))

theorem toNat_lenOf (h : data.length < 2 ^ 64) : (lenOf data).toNat = data.length :=
  UInt64.toNat_ofNat_of_lt' h

theorem encode_eq (hw : (Postcard.strBytes wire).length < 2 ^ 64) (hd : data.length < 2 ^ 64) :
    encode ⟨wire, .ok data⟩ = .ok (Postcard.envelope wire data) := by
  simp only [encode, Except.map, pushLenVarint_eq, toNat_lenOf hw, toNat_lenOf hd, List.nil_append]
  rw [Postcard.envelope, lengthPrefixed, lengthPrefixed, List.append_assoc]

/-- What is encoded is decoded. -/
theorem decodeEnvelope_envelope (malformed : String) (hne : wire.isEmpty = false)
    (hw : (Postcard.strBytes wire).length < 2 ^ 64) (hd : data.length < 2 ^ 64) :
    decodeEnvelope malformed (Postcard.envelope wire data) = .ok ⟨wire, data⟩ := by
  have htake := Postcard.takeEnvelope_envelope hw hd []
  rw [List.append_nil] at htake
  rw [decodeEnvelope, htake]
  simp only [hne, Bool.false_eq_true, if_false]

/-- **The hand-written envelope is postcard's**: `encode` gives postcard's bytes, from which the wire
name and the data are read back with nothing left over, `decode_envelope` included; other fields give
other bytes; and the loop appends the shortest LEB128 of every length, in `maxLenVarint` bytes at
most. -/
theorem encode_is_postcard (hw : (Postcard.strBytes wire).length < 2 ^ 64)
    (hd : data.length < 2 ^ 64) :
    encode ⟨wire, .ok data⟩ = .ok (Postcard.envelope wire data) ∧
      Postcard.takeEnvelope (Postcard.envelope wire data) = some ((wire, data), []) ∧
      (wire.isEmpty = false → ∀ malformed,
        decodeEnvelope malformed (Postcard.envelope wire data) = .ok ⟨wire, data⟩) ∧
      (∀ wire' data', (Postcard.strBytes wire').length < 2 ^ 64 → data'.length < 2 ^ 64 →
        encode ⟨wire', .ok data'⟩ = encode ⟨wire, .ok data⟩ → wire' = wire ∧ data' = data) ∧
      ∀ out len, ∃ varint, pushLenVarint out len = out ++ varint ∧
        varint = leb128 len.toNat ∧ varint.length ≤ maxLenVarint ∧
        ∀ bytes, ofLeb128 bytes = some (len.toNat, []) → varint.length ≤ bytes.length := by
  have hread := Postcard.takeEnvelope_envelope hw hd []
  rw [List.append_nil] at hread
  refine ⟨encode_eq hw hd, hread, fun hne malformed => decodeEnvelope_envelope malformed hne hw hd,
    fun wire' data' hw' hd' he => ?_, fun out len => ⟨_, pushLenVarint_eq out len, rfl,
      length_leb128_le_max len, fun bytes h => leb128_minimal h⟩⟩
  -- Both are read back from the same bytes.
  rw [encode_eq hw' hd', encode_eq hw hd, Except.ok.injEq] at he
  have hread' := Postcard.takeEnvelope_envelope hw' hd' []
  rw [List.append_nil, he, hread] at hread'
  cases hread'
  exact ⟨rfl, rfl⟩

theorem encode_is_postcard_ping :
    ∃ bytes, encode ⟨"am.ping.Ping", .ok (.replicate 300 7)⟩ = .ok bytes ∧
      bytes = 12 :: Postcard.strBytes "am.ping.Ping" ++ 172 :: 2 :: .replicate 300 7 ∧
      decodeEnvelope "malformed" bytes = .ok ⟨"am.ping.Ping", .replicate 300 7⟩ := by
  obtain ⟨hencode, -, hdecode, -⟩ :=
    @encode_is_postcard "am.ping.Ping" (.replicate 300 7) (by decide) (by decide +kernel)
  exact ⟨_, hencode, by decide +kernel, hdecode (by decide) _⟩

end PostcardCodec

end AdaptiveMsg
