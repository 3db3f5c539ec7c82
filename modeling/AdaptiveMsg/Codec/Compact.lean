import AdaptiveMsg.Codec.Postcard
import AdaptiveMsg.Results

/-!
# Codec — the compact form of a message

`message.rs` and `codec_msgpack.rs` encode a message as the array of its wire name and its fields.
The fields are those that serde serialises, so one with `skip`, or whose `skip_serializing_if` holds
of its value, is not among them; the `message` macro counts every field of the struct.

`rmp`, `rmpv` and serde's derive are parameters, with what the codec relies on as hypotheses.

`compact_roundTrip_iff`: a value that encodes is decoded to itself, with the skipped fields at their
defaults, exactly when no field is skipped and the elements fit the length of an array.
`skipped_field_rejected`: with a skipped field the decoder reports the number of fields.
-/

namespace AdaptiveMsg.Compact

/-! ### The libraries -/

/-- `rmpv::Value`: its arrays and strings, and the other values. -/
inductive Value (ω : Type) where
  /-- `Utf8String`, which may hold bytes that are not UTF-8. -/
  | string (name : List UInt8 ⊕ String)
  | array (values : List (Value ω))
  | other (value : ω)

/-- What `rmp::encode` and `rmpv` write and read.  `readValue` leaves what follows the value. -/
structure Rmp (ω : Type) where
  writeArrayLen : UInt32 → Except String (List UInt8)
  writeStr : String → Except String (List UInt8)
  writeValue : Value ω → Except String (List UInt8)
  readValue : List UInt8 → Except String (Value ω)

/-- A named field of a message with its serde attributes; `default` is what it is decoded to when
it is skipped. -/
structure Field (φ : Type) where
  name : String
  skip : Bool
  skipSerializingIf : Option (φ → Bool)
  default : φ

def Field.skips {φ : Type} (field : Field φ) (value : φ) : Bool :=
  field.skip || field.skipSerializingIf.any fun p => p value

/-- `rmpv::ext::to_value` of the value of a field, and `from_value` of an array for a struct with
these fields. -/
structure Serde (φ ω : Type) where
  toValue : φ → Except String (Value ω)
  fromValue : List (Field φ) → List (Value ω) → Except String (List φ)

variable {φ ω : Type}

/-- A string is written as a value, and the elements of an array, written one by one after its
length, are read back. -/
structure Rmp.RoundTrips (rmp : Rmp ω) : Prop where
  str : ∀ s, rmp.writeValue (.string (.inr s)) = rmp.writeStr s
  array : ∀ (values : List (Value ω)) (bytes : List (List UInt8)) (n : UInt32)
    (header : List UInt8), values.mapM rmp.writeValue = .ok bytes →
    n.toNat ≤ values.length → rmp.writeArrayLen n = .ok header →
    rmp.readValue (header ++ bytes.flatten) = .ok (.array (values.take n.toNat))

/-- `from_value` inverts `to_value` on the values of a struct without skipped fields. -/
def Serde.Inverts (serde : Serde φ ω) : Prop :=
  ∀ (fields : List (Field φ)) (vs : List φ) (values : List (Value ω)), vs.length = fields.length →
    (∀ fv ∈ fields.zip vs, fv.1.skips fv.2 = false) → vs.mapM serde.toValue = .ok values →
    serde.fromValue fields values = .ok vs

/-! ### The code -/

/-- The conversion of a library's error into `Error::Codec`. -/
def codecError {α : Type} (result : Except String α) : Except Error α := result.mapError .codec

def encodeCompactValue (rmp : Rmp ω) (wire : String) : Value ω → Except Error (List UInt8)
  | .array fields => do
    let header ← codecError (rmp.writeArrayLen (UInt32.ofNat (fields.length + 1)))
    let name ← codecError (rmp.writeStr wire)
    let rest ← codecError (fields.mapM rmp.writeValue)
    .ok (header ++ name ++ rest.flatten)
  | _ => .error (.codec "compact message must serialize as an array")

def decodeCompactValues (serde : Serde φ ω) (fields : List (Field φ)) (values : List (Value ω))
    (fieldCount : Nat) : Except Error (List φ) :=
  if values.length ≠ fieldCount then .error (.compactFieldCount fieldCount values.length)
  else codecError (serde.fromValue fields values)

def decodeCompactEnvelope (rmp : Rmp ω) (payload : List UInt8) :
    Except Error (String × List (Value ω)) := do
  let value ← codecError (rmp.readValue payload)
  match value with
  | .array (name :: values) =>
    match name with
    | .string (.inr name) => .ok (name, values)
    | .string (.inl _) => .error (.codec "compact message name must be utf-8")
    | _ => .error (.codec "compact message name must be a string")
  | _ => .error (.codec "compact payload must be a non-empty array")

/-- A struct with `#[message]`. -/
structure MessageType (φ : Type) where
  wireName : String
  fields : List (Field φ)

/-- A value of the struct. -/
structure Message (ty : MessageType φ) where
  values : List φ
  length_eq : values.length = ty.fields.length

namespace MessageType

variable (ty : MessageType φ)

/-- The constant that the macro takes from the syntax. -/
def fieldCount : Nat := ty.fields.length

/-- `rmpv::ext::to_value` of a struct: the array of its fields that are not skipped. -/
def toValue (serde : Serde φ ω) (msg : Message ty) : Except String (Value ω) :=
  (((ty.fields.zip msg.values).filter fun fv => !fv.1.skips fv.2).mapM
    fun fv => serde.toValue fv.2).map .array

def encodeCompact (serde : Serde φ ω) (rmp : Rmp ω) (msg : Message ty) :
    Except Error (List UInt8) := do
  let value ← codecError (ty.toValue serde msg)
  encodeCompactValue rmp ty.wireName value

def decodeCompact (serde : Serde φ ω) (values : List (Value ω)) : Except Error (List φ) :=
  decodeCompactValues serde ty.fields values ty.fieldCount

end MessageType

namespace Message

variable {ty : MessageType φ} (msg : Message ty)

/-- The values of the fields, each skipped one at its default. -/
def withDefaults : List φ :=
  (ty.fields.zip msg.values).map fun fv => if fv.1.skips fv.2 then fv.1.default else fv.2

/-- No field of the value is skipped. -/
def Complete : Prop := ∀ fv ∈ ty.fields.zip msg.values, fv.1.skips fv.2 = false

/-- The bytes are decoded to the type's wire name and the value. -/
def RoundTrips (serde : Serde φ ω) (rmp : Rmp ω) (bytes : List UInt8) : Prop :=
  ∃ values, decodeCompactEnvelope rmp bytes = .ok (ty.wireName, values) ∧
    ty.decodeCompact serde values = .ok msg.withDefaults

end Message

/-! ### The bytes of a value -/

section except

variable {α : Type}

theorem codecError_eq_ok {x : Except String α} {a : α} : codecError x = .ok a ↔ x = .ok a := by
  constructor
  all_goals
    intro h
    cases x <;> cases h
    rfl

end except

section encoded

variable {serde : Serde φ ω} {rmp : Rmp ω} {ty : MessageType φ} {msg : Message ty}
variable {bytes : List UInt8}

/-- The fields that are not skipped, as serde serialises them. -/
def Serialized (serde : Serde φ ω) (msg : Message ty) (values : List (Value ω)) : Prop :=
  ((ty.fields.zip msg.values).filter fun fv => !fv.1.skips fv.2).mapM
    (fun fv => serde.toValue fv.2) = .ok values

/-- A value that encodes is written as an array of the wire name and the fields not skipped. -/
theorem encodeCompact_eq_ok (h : ty.encodeCompact serde rmp msg = .ok bytes) :
    ∃ values header name rest, Serialized serde msg values ∧
      rmp.writeArrayLen (UInt32.ofNat (values.length + 1)) = .ok header ∧
      rmp.writeStr ty.wireName = .ok name ∧ values.mapM rmp.writeValue = .ok rest ∧
      bytes = header ++ (name :: rest).flatten := by
  obtain ⟨value, hvalue, h⟩ := bind_eq_ok.mp h
  obtain ⟨values, hser, rfl⟩ := map_eq_ok.mp (codecError_eq_ok.mp hvalue)
  obtain ⟨header, hheader, h⟩ := bind_eq_ok.mp h
  obtain ⟨name, hname, h⟩ := bind_eq_ok.mp h
  obtain ⟨rest, hrest, h⟩ := bind_eq_ok.mp h
  refine ⟨values, header, name, rest, hser, codecError_eq_ok.mp hheader,
    codecError_eq_ok.mp hname, codecError_eq_ok.mp hrest, ?_⟩
  cases h
  rw [List.flatten_cons, List.append_assoc]

/-- What is read back: as many elements as the 32 bits of the length say. -/
theorem readValue_encoded (hr : rmp.RoundTrips) {values : List (Value ω)}
    {header name : List UInt8} {rest : List (List UInt8)}
    (hheader : rmp.writeArrayLen (UInt32.ofNat (values.length + 1)) = .ok header)
    (hname : rmp.writeStr ty.wireName = .ok name) (hrest : values.mapM rmp.writeValue = .ok rest) :
    rmp.readValue (header ++ (name :: rest).flatten) =
      .ok (.array ((.string (.inr ty.wireName) :: values).take
        ((values.length + 1) % 2 ^ 32))) := by
  have hn : (UInt32.ofNat (values.length + 1)).toNat = (values.length + 1) % 2 ^ 32 :=
    UInt32.toNat_ofNat'
  have hall : (.string (.inr ty.wireName) :: values).mapM rmp.writeValue = .ok (name :: rest) := by
    rw [List.mapM_cons, hr.str, hname]
    show (values.mapM rmp.writeValue >>= fun bs => pure (name :: bs)) = _
    rw [hrest]
    rfl
  rw [← hn]
  refine hr.array _ _ _ _ hall ?_ hheader
  rw [hn]
  exact Nat.mod_le _ _

/-! ### Decoding -/

theorem length_fields (msg : Message ty) : (ty.fields.zip msg.values).length = ty.fieldCount := by
  rw [List.length_zip, msg.length_eq, Nat.min_self]
  rfl

theorem length_serialized {values : List (Value ω)} (h : Serialized serde msg values) :
    values.length = ((ty.fields.zip msg.values).filter fun fv => !fv.1.skips fv.2).length :=
  length_of_mapM h

theorem length_serialized_le {values : List (Value ω)} (h : Serialized serde msg values) :
    values.length ≤ ty.fieldCount := by
  rw [length_serialized h, ← length_fields msg]
  exact List.length_filter_le _ _

/-- Every field is among the elements exactly when none is skipped. -/
theorem complete_iff {values : List (Value ω)} (h : Serialized serde msg values) :
    msg.Complete ↔ values.length = ty.fieldCount := by
  rw [length_serialized h, ← length_fields msg, List.length_filter_eq_length_iff]
  simp [Message.Complete]

/-- Without skipped fields the value is what serde serialises, and is decoded to. -/
theorem fromValue_of_complete (hs : serde.Inverts) (hc : msg.Complete) {values : List (Value ω)}
    (h : Serialized serde msg values) :
    serde.fromValue ty.fields values = .ok msg.withDefaults := by
  have hsnd : (ty.fields.zip msg.values).map Prod.snd = msg.values :=
    List.map_snd_zip (Nat.le_of_eq msg.length_eq)
  have hdef : msg.withDefaults = msg.values := by
    rw [Message.withDefaults]
    refine (List.map_congr_left fun fv hfv => ?_).trans hsnd
    rw [hc fv hfv]
    rfl
  have hall : ((ty.fields.zip msg.values).filter fun fv => !fv.1.skips fv.2) =
      ty.fields.zip msg.values := List.filter_eq_self.mpr fun fv hfv => by simp [hc fv hfv]
  rw [hdef]
  refine hs ty.fields msg.values values msg.length_eq hc ?_
  rw [Serialized, hall] at h
  rw [← hsnd, List.mapM_map]
  exact h

/-- **When compact decoding undoes compact encoding.** -/
theorem compact_roundTrip_iff (hr : rmp.RoundTrips) (hs : serde.Inverts)
    (henc : ty.encodeCompact serde rmp msg = .ok bytes) :
    msg.RoundTrips serde rmp bytes ↔ msg.Complete ∧ ty.fieldCount + 1 < 2 ^ 32 := by
  obtain ⟨values, header, name, rest, hser, hheader, hname, hrest, rfl⟩ := encodeCompact_eq_ok henc
  have hread := readValue_encoded hr hheader hname hrest
  have hle := length_serialized_le hser
  rw [Message.RoundTrips, decodeCompactEnvelope, hread, complete_iff hser]
  cases hn : (values.length + 1) % 2 ^ 32 with
  | zero =>
      -- the length wraps to zero: an empty array, with no wire name
      constructor
      · rintro ⟨values', henv, -⟩
        cases henv
      · rintro ⟨hlen, hlt⟩
        omega
  | succ m =>
      have hm : m ≤ values.length := by omega
      have hlen : (values.take m).length = m := List.length_take_of_le hm
      have henv : (∃ values', (Except.ok (ty.wireName, values.take m) : Except Error _) =
          .ok (ty.wireName, values') ∧ ty.decodeCompact serde values' = .ok msg.withDefaults) ↔
          ty.decodeCompact serde (values.take m) = .ok msg.withDefaults :=
        ⟨fun ⟨_, h, hd⟩ => by cases h; exact hd, fun hd => ⟨_, rfl, hd⟩⟩
      refine henv.trans ?_
      rw [MessageType.decodeCompact, decodeCompactValues, hlen]
      by_cases hcount : m = ty.fieldCount
      · -- all fields are read back
        have hfull : values.length = ty.fieldCount := by omega
        rw [if_neg (not_not.mpr hcount), List.take_of_length_le (by omega),
          fromValue_of_complete hs ((complete_iff hser).mpr hfull) hser]
        exact ⟨fun _ => ⟨hfull, by omega⟩, fun _ => rfl⟩
      · rw [if_pos hcount]
        constructor
        · intro h
          cases h
        · rintro ⟨hfull, hlt⟩
          omega

end encoded

/-! ### The short forms of MessagePack

An instance of the parameters: arrays of fewer than 16 elements, each a positive fixint or a string of
fewer than 32 bytes, and the derived decoder of a struct. -/

/-- The values of MessagePack's positive fixint. -/
abbrev FixInt := Fin 128

namespace Fix

def writeArrayLen (n : UInt32) : Except String (List UInt8) :=
  if n.toNat < 16 then .ok [UInt8.ofNat (0x90 + n.toNat)] else .error "not a fixarray"

def writeStr (s : String) : Except String (List UInt8) :=
  if (Postcard.strBytes s).length < 32 then
    .ok (UInt8.ofNat (0xa0 + (Postcard.strBytes s).length) :: Postcard.strBytes s)
  else .error "not a fixstr"

def writeValue : Value FixInt → Except String (List UInt8)
  | .string (.inr s) => writeStr s
  | .other x => .ok [UInt8.ofNat x.val]
  | _ => .error "not a fixstr or a positive fixint"

def readStr (len : Nat) (bytes : List UInt8) : Value FixInt :=
  match String.fromUTF8? (bytes.take len).toByteArray with
  | some s => .string (.inr s)
  | none => .string (.inl (bytes.take len))

def readElement : List UInt8 → Except String (Value FixInt × List UInt8)
  | [] => .error "unexpected end"
  | marker :: rest =>
    if marker.toNat < 0x80 then .ok (.other (Fin.ofNat 128 marker.toNat), rest)
    else
      let len := marker.toNat - 0xa0
      if 0xa0 ≤ marker.toNat ∧ len < 32 ∧ len ≤ rest.length then
        .ok (readStr len rest, rest.drop len)
      else .error "not a fixstr or a positive fixint"

def readElements : Nat → List UInt8 → Except String (List (Value FixInt))
  | 0, _ => .ok []
  | n + 1, bytes => do
    let (value, rest) ← readElement bytes
    let values ← readElements n rest
    .ok (value :: values)

def readValue : List UInt8 → Except String (Value FixInt)
  | [] => .error "unexpected end"
  | marker :: rest =>
    if 0x90 ≤ marker.toNat ∧ marker.toNat < 0xa0 then
      (readElements (marker.toNat - 0x90) rest).map .array
    else (readElement (marker :: rest)).map Prod.fst

def rmp : Rmp FixInt := ⟨writeArrayLen, writeStr, writeValue, readValue⟩

theorem readElement_writeValue {value : Value FixInt} {bytes : List UInt8}
    (h : writeValue value = .ok bytes) (rest : List UInt8) :
    readElement (bytes ++ rest) = .ok (value, rest) := by
  cases value with
  | string name =>
      cases name with
      | inl raw => cases h
      | inr s =>
          simp only [writeValue, writeStr] at h
          split at h
          · rename_i hlt
            cases h
            have hm : (UInt8.ofNat (0xa0 + (Postcard.strBytes s).length)).toNat =
                0xa0 + (Postcard.strBytes s).length := by
              rw [UInt8.toNat_ofNat']
              omega
            have hutf8 : String.fromUTF8? s.toUTF8 = some s := dif_pos s.isValidUTF8
            rw [List.cons_append, readElement, hm, if_neg (by omega), Nat.add_sub_cancel_left]
            simp only [readStr, List.take_left, List.drop_left, Postcard.toByteArray_strBytes, hutf8]
            rw [if_pos ⟨Nat.le_add_right _ _, hlt, by simp⟩]
          · cases h
  | array values => cases h
  | other x =>
      cases h
      have hm : (UInt8.ofNat x.val).toNat = x.val := by
        rw [UInt8.toNat_ofNat']
        omega
      rw [List.singleton_append, readElement, hm, if_pos x.isLt, Fin.ofNat_val_eq_self]

theorem readElements_flatten {values : List (Value FixInt)} {bytes : List (List UInt8)} {n : Nat}
    (h : values.mapM writeValue = .ok bytes) (hn : n ≤ values.length) :
    readElements n bytes.flatten = .ok (values.take n) := by
  induction n generalizing values bytes with
  | zero => rfl
  | succ n ih =>
      cases values with
      | nil => cases hn
      | cons value values =>
          rw [List.mapM_cons] at h
          obtain ⟨b, hb, h⟩ := bind_eq_ok.mp h
          obtain ⟨bs, hbs, h⟩ := bind_eq_ok.mp h
          cases h
          rw [List.flatten_cons, readElements, readElement_writeValue hb]
          show (readElements n bs.flatten >>= fun values => .ok (value :: values)) = _
          rw [ih hbs (Nat.le_of_succ_le_succ hn)]
          rfl

theorem roundTrips : rmp.RoundTrips where
  str _ := rfl
  array values bytes n header hall hn hheader := by
    have hheader : writeArrayLen n = .ok header := hheader
    simp only [writeArrayLen] at hheader
    split at hheader
    · rename_i hlt
      cases hheader
      have hm : (UInt8.ofNat (0x90 + n.toNat)).toNat = 0x90 + n.toNat := by
        rw [UInt8.toNat_ofNat']
        omega
      rw [show rmp.readValue = readValue from rfl, List.singleton_append, readValue, hm,
        if_pos (by omega), Nat.add_sub_cancel_left, readElements_flatten hall hn]
      rfl
    · cases hheader

/-- The derived decoder of a struct from an array: its fields in order, a skipped one and one that
is missing at its default. -/
def visitSeq : List (Field FixInt) → List (Value FixInt) → Except String (List FixInt)
  | [], _ => .ok []
  | field :: fields, values =>
    if field.skip then (visitSeq fields values).map (field.default :: ·)
    else
      match values with
      | .other x :: values => (visitSeq fields values).map (x :: ·)
      | [] =>
        if field.skipSerializingIf.isSome then (visitSeq fields []).map (field.default :: ·)
        else .error "invalid length"
      | _ => .error "invalid type"

def serde : Serde FixInt FixInt := ⟨fun x => .ok (.other x), visitSeq⟩

theorem inverts : serde.Inverts := by
  intro fields vs values hlen hskip hall
  induction fields generalizing vs values with
  | nil =>
      rw [List.length_eq_zero_iff.mp hlen]
      rfl
  | cons field fields ih =>
      cases vs with
      | nil => cases hlen
      | cons v vs =>
          rw [List.mapM_cons] at hall
          obtain ⟨b, hb, h⟩ := bind_eq_ok.mp hall
          obtain ⟨bs, hbs, h⟩ := bind_eq_ok.mp h
          cases h
          cases hb
          rw [List.zip_cons_cons, List.forall_mem_cons] at hskip
          have hno : field.skip = false := by
            have hskips := hskip.1
            simp only [Field.skips, Bool.or_eq_false_iff] at hskips
            exact hskips.1
          have hrest : visitSeq fields bs = .ok vs := ih vs bs (Nat.succ.inj hlen) hskip.2 hbs
          show visitSeq (field :: fields) (.other v :: bs) = _
          simp only [visitSeq, hno]
          rw [hrest]
          rfl

end Fix

/-- A struct with two fields, the second with `skip` or not. -/
def pair (skip : Bool) : MessageType FixInt :=
  ⟨"am.message.Pair", [⟨"first", false, none, 0⟩, ⟨"second", skip, none, 0⟩]⟩

def pairMessage (skip : Bool) : Message (pair skip) := ⟨[7, 9], rfl⟩

theorem compact_roundTrip_iff_pair : ∃ bytes,
    (pair false).encodeCompact Fix.serde Fix.rmp (pairMessage false) = .ok bytes ∧
      ((pairMessage false).RoundTrips Fix.serde Fix.rmp bytes ↔
        (pairMessage false).Complete ∧ (pair false).fieldCount + 1 < 2 ^ 32) :=
  ⟨_, rfl, compact_roundTrip_iff Fix.roundTrips Fix.inverts rfl⟩

/-- A value that encodes is rejected for the number of its fields. -/
theorem skipped_field_rejected : ∃ bytes values,
    (pair true).encodeCompact Fix.serde Fix.rmp (pairMessage true) = .ok bytes ∧
      decodeCompactEnvelope Fix.rmp bytes = .ok ("am.message.Pair", values) ∧
      (pair true).decodeCompact Fix.serde values = .error (.compactFieldCount 2 1) :=
  ⟨_, _, rfl, rfl, rfl⟩

end AdaptiveMsg.Compact
