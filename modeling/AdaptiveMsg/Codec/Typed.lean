import AdaptiveMsg.Codec.Compact
import Mathlib.Data.List.AList

/-!
# Codec — typed messages and their erased bodies

A codec opens a payload into the wire name and a body of its own kind, which only the codec itself
takes apart again, by a `DecodeTarget`: `recv` has a target for its type, and a message with a
handler one for the type that the registry has under its name.  The registry is built from what
`#[message]` and `#[message_handler]` submit, in the order of the linker.

* `decodeRawAs_received`, `decodeRawWithRegistry_received`: what is decoded, without bodies and
  targets: a codec never meets the body of another, and a target never stays empty.
* `received_typed`: for any payload, a handler gets a message of its own type, exactly where the
  last handler and the last message submitted under the name are of one type.
* `typed_round_trip`: what one side encodes is, by every codec, what the other side receives.
-/

namespace AdaptiveMsg.Typed

open Compact (Value Rmp Serde MessageType codecError)

variable {τ φ ω : Type}

/-! ### The libraries -/

/-- `rmp`, `rmpv`, `rmp_serde` and `postcard`, with what serde derives for the structs. -/
structure Libs (φ ω : Type) where
  rmp : Rmp ω
  /-- `rmpv::ext::to_value` of the value of a field. -/
  toValue : φ → Except String (Value ω)
  /-- `rmpv::ext::from_value` for a struct with these fields. -/
  fromValue : List (Compact.Field φ) → Value ω → Except String (List φ)
  /-- `rmp_serde::to_vec_named` of `{type, data}`. -/
  toVecNamed : String → List (Compact.Field φ × φ) → Except String (List UInt8)
  /-- `rmp_serde::from_slice` for `MapEnvelope`. -/
  fromSlice : List UInt8 → Except String (String × Value ω)
  toStdvec : List (Compact.Field φ × φ) → Except String (List UInt8)
  fromBytes : List (Compact.Field φ) → List UInt8 → Except String (List φ)
  /-- The text of postcard's error for a malformed envelope. -/
  malformed : String

def Libs.serde (libs : Libs φ ω) : Serde φ ω :=
  ⟨libs.toValue, fun fields values => libs.fromValue fields (.array values)⟩

/-- The structs with `#[message]`.  A wire name is `ns.base`. -/
structure Messages (τ φ ω : Type) extends Libs φ ω where
  type : τ → MessageType φ
  wireName_ne (t : τ) : (type t).wireName ≠ ""
  fieldCount_lt (t : τ) : (type t).fieldCount + 1 < 2 ^ 32

/-! ### What the macro generates -/

namespace Messages

variable (m : Messages τ φ ω)

def wireName (t : τ) : String := (m.type t).wireName

abbrev Val (t : τ) := Compact.Message (m.type t)

/-- The fields of a value, as serde serialises them. -/
def named {t : τ} (msg : m.Val t) : List (Compact.Field φ × φ) := (m.type t).fields.zip msg.values

def encodeMap {t : τ} (msg : m.Val t) : Except Error (List UInt8) :=
  codecError (m.toVecNamed (m.wireName t) (m.named msg))

def encodeCompact {t : τ} (msg : m.Val t) : Except Error (List UInt8) :=
  (m.type t).encodeCompact m.serde m.rmp msg

def encodePostcard {t : τ} (msg : m.Val t) : Except Error (List UInt8) :=
  codecError (m.toStdvec (m.named msg))

def decodeMap (t : τ) (value : Value ω) : Except Error (List φ) :=
  codecError (m.fromValue (m.type t).fields value)

def decodeCompact (t : τ) (values : List (Value ω)) : Except Error (List φ) :=
  (m.type t).decodeCompact m.serde values

def decodePostcard (t : τ) (payload : List UInt8) : Except Error (List φ) :=
  codecError (m.fromBytes (m.type t).fields payload)

end Messages

/-! ### Codecs -/

/-- `Box<dyn Any>`, by what is in it. -/
inductive Body (ω : Type) where
  | value (value : Value ω)
  | values (values : List (Value ω))
  | bytes (data : List UInt8)

structure Envelope (ω : Type) where
  wire : String
  body : Body ω

/-- `dyn DecodeTarget`, with `σ` behind the `&mut`. -/
structure DecodeTarget (ω σ : Type) where
  decodeMap : σ → Value ω → Except Error σ
  decodeCompact : σ → List (Value ω) → Except Error σ
  decodePostcard : σ → List UInt8 → Except Error σ

/-- `dyn CodecImpl`: only the crate itself can implement it. -/
inductive CodecImpl where
  | msgpackMap
  | msgpackCompact
  | postcard
  deriving DecidableEq, Repr

namespace CodecImpl

def decodeInto {σ : Type} (body : Body ω) (target : DecodeTarget ω σ) (s : σ) :
    CodecImpl → Except Error σ
  | msgpackMap =>
    match body with
    | .value value => target.decodeMap s value
    | _ => .error (.codec "map body must be rmpv value")
  | msgpackCompact =>
    match body with
    | .values values => target.decodeCompact s values
    | _ => .error (.codec "compact body must be value array")
  | postcard =>
    match body with
    | .bytes data => target.decodePostcard s data
    | _ => .error (.codec "postcard body must be byte buffer")

variable (m : Messages τ φ ω)

def encode {t : τ} (msg : m.Val t) : CodecImpl → Except Error (List UInt8)
  | msgpackMap => m.encodeMap msg
  | msgpackCompact => m.encodeCompact msg
  | postcard => PostcardCodec.encode ⟨m.wireName t, m.encodePostcard msg⟩

def decodeMapEnvelope (payload : List UInt8) : Except Error (Envelope ω) := do
  let (wire, data) ← codecError (m.fromSlice payload)
  if wire.isEmpty then .error (.codec "map payload missing type") else .ok ⟨wire, .value data⟩

def decodeEnvelope (payload : List UInt8) : CodecImpl → Except Error (Envelope ω)
  | msgpackMap => decodeMapEnvelope m payload
  | msgpackCompact =>
    (Compact.decodeCompactEnvelope m.rmp payload).map fun env => ⟨env.1, .values env.2⟩
  | postcard =>
    (PostcardCodec.decodeEnvelope m.malformed payload).map fun env => ⟨env.wire, .bytes env.body⟩

end CodecImpl

/-! ### Decoding a received message -/

structure RawMessage (ω : Type) where
  wire : String
  codec : CodecImpl
  body : Body ω

/-- `Box<dyn Message>`. -/
structure BoxMessage (τ φ : Type) where
  type : τ
  values : List φ

inductive RegistryError where
  | unknownMessage (wire : String)
  | decode (err : Error)

section decoding

variable (m : Messages τ φ ω)

def typedTarget (t : τ) : DecodeTarget ω (Option (List φ)) where
  decodeMap _ value := (m.decodeMap t value).map some
  decodeCompact _ values := (m.decodeCompact t values).map some
  decodePostcard _ payload := (m.decodePostcard t payload).map some

def factoryTarget (factory : τ) : DecodeTarget ω (Option (BoxMessage τ φ)) where
  decodeMap _ value := (m.decodeMap factory value).map fun msg => some ⟨factory, msg⟩
  decodeCompact _ values := (m.decodeCompact factory values).map fun msg => some ⟨factory, msg⟩
  decodePostcard _ payload := (m.decodePostcard factory payload).map fun msg => some ⟨factory, msg⟩

/-- `into_value` and `into_message`. -/
def intoValue {α : Type} : Option α → Except Error α
  | some value => .ok value
  | none => .error (.codec "decode target did not produce value")

def decodeRawAs (t : τ) (raw : RawMessage ω) : Except Error (List φ) :=
  if raw.wire ≠ m.wireName t then .error (.typeMismatch (m.wireName t) raw.wire)
  else do
    let target ← raw.codec.decodeInto raw.body (typedTarget m t) none
    intoValue target

/-- What the processes' `#[message]` and `#[message_handler]` submit. -/
inductive Use (τ : Type) where
  | message (t : τ) (register : Bool)
  | messageHandler (t : τ)

def Use.handler : Use τ → Option τ
  | messageHandler t => some t
  | message _ _ => none

def Use.submitted : Use τ → Option τ
  | messageHandler t => some t
  | message t register => if register then some t else none

/-- `inventory::iter`, in the order of the linker. -/
structure Inventory (uses : List (Use τ)) where
  handlers : List τ
  messages : List τ
  handlers_perm : handlers.Perm (uses.filterMap Use.handler)
  messages_perm : messages.Perm (uses.filterMap Use.submitted)

structure Registry (τ : Type) where
  handlers : AList fun _ : String => τ
  messages : AList fun _ : String => τ

def Registry.register (reg : Registry τ) (t : τ) : Registry τ :=
  { reg with handlers := reg.handlers.insert (m.wireName t) t }

def Registry.registerMessage (reg : Registry τ) (t : τ) : Registry τ :=
  { reg with messages := reg.messages.insert (m.wireName t) t }

def Registry.fromInventory {uses : List (Use τ)} (inv : Inventory uses) : Registry τ :=
  inv.messages.foldl (Registry.registerMessage m)
    (inv.handlers.foldl (Registry.register m) ⟨∅, ∅⟩)

def Registry.handler (reg : Registry τ) (wire : String) : Option τ := reg.handlers.lookup wire

def Registry.message (reg : Registry τ) (wire : String) : Option τ := reg.messages.lookup wire

def decodeRawWithRegistry (raw : RawMessage ω) (reg : Registry τ) :
    Except RegistryError (BoxMessage τ φ) :=
  match reg.message raw.wire with
  | none => .error (.unknownMessage raw.wire)
  | some factory =>
    (do let target ← raw.codec.decodeInto raw.body (factoryTarget m factory) none
        intoValue target).mapError .decode

/-- `KnownHandler::handle` up to the call of the handler, with the value that it is given. -/
def handle [DecidableEq τ] (t : τ) (msg : BoxMessage τ φ) : Except Error (List φ) :=
  if msg.type = t then .ok msg.values
  else .error (.typeMismatch (m.wireName t) (m.wireName msg.type))

/-! ### The connection -/

def decodeEnvelope (codec : CodecImpl) (payload : List UInt8) : Except Error (RawMessage ω) :=
  (codec.decodeEnvelope m payload).map fun env => ⟨env.wire, codec, env.body⟩

def encodeMessage (codec : CodecImpl) (maxFrame : UInt32) {t : τ} (msg : m.Val t) :
    Except Error (List UInt8) := do
  let payload ← codec.encode m msg
  if payload.length > maxFrame.toNat then .error (.frameTooLarge payload.length) else .ok payload

/-- Where `dispatch_raw` puts a message. -/
inductive Dispatched (τ φ ω : Type) where
  | inbox (raw : RawMessage ω)
  | job (handler : τ) (msg : BoxMessage τ φ)
  | protocolError (err : RegistryError)

def dispatchRaw (reg : Registry τ) (raw : RawMessage ω) : Dispatched τ φ ω :=
  match reg.handler raw.wire with
  | none => .inbox raw
  | some handler =>
    match decodeRawWithRegistry m raw reg with
    | .ok msg => .job handler msg
    | .error err => .protocolError err

end decoding

/-! ### Bodies and targets -/

/-- What a target does with a body of its own codec. -/
def DecodeTarget.decode {σ : Type} (target : DecodeTarget ω σ) (s : σ) : Body ω → Except Error σ
  | .value value => target.decodeMap s value
  | .values values => target.decodeCompact s values
  | .bytes data => target.decodePostcard s data

def Messages.decodeBody (m : Messages τ φ ω) (t : τ) : Body ω → Except Error (List φ)
  | .value value => m.decodeMap t value
  | .values values => m.decodeCompact t values
  | .bytes data => m.decodePostcard t data

/-- The codec takes apart what it has made. -/
theorem decodeInto_own {m : Messages τ φ ω} {codec : CodecImpl} {payload : List UInt8}
    {env : Envelope ω} (h : codec.decodeEnvelope m payload = .ok env) {σ : Type}
    (target : DecodeTarget ω σ) (s : σ) :
    codec.decodeInto env.body target s = target.decode s env.body := by
  cases codec with
  | msgpackMap =>
      obtain ⟨⟨wire, data⟩, -, henv⟩ := bind_eq_ok.mp h
      simp only at henv
      split at henv <;> cases henv
      rfl
  | msgpackCompact | postcard =>
      obtain ⟨_, -, rfl⟩ := map_eq_ok.mp h
      rfl

section erased

variable {m : Messages τ φ ω} {codec : CodecImpl} {payload : List UInt8} {raw : RawMessage ω}
  {reg : Registry τ}

theorem decode_typedTarget (t : τ) (body : Body ω) :
    (typedTarget m t).decode none body = (m.decodeBody t body).map some := by
  cases body <;> rfl

theorem decode_factoryTarget (t : τ) (body : Body ω) :
    (factoryTarget m t).decode none body =
      (m.decodeBody t body).map fun values => some ⟨t, values⟩ := by
  cases body <;> rfl

theorem map_some_bind {α β : Type} (x : Except Error α) (f : α → β) :
    ((x.map fun a => some (f a)) >>= intoValue) = x.map f := by
  cases x <;> rfl

theorem decodeEnvelope_eq_ok (h : decodeEnvelope m codec payload = .ok raw) :
    ∃ env, codec.decodeEnvelope m payload = .ok env ∧ ⟨env.wire, codec, env.body⟩ = raw :=
  map_eq_ok.mp h

/-- **What `recv` returns** for a received message. -/
theorem decodeRawAs_received (h : decodeEnvelope m codec payload = .ok raw) (t : τ) :
    decodeRawAs m t raw = if raw.wire ≠ m.wireName t
      then .error (.typeMismatch (m.wireName t) raw.wire) else m.decodeBody t raw.body := by
  obtain ⟨env, henv, rfl⟩ := decodeEnvelope_eq_ok h
  rw [decodeRawAs, decodeInto_own henv, decode_typedTarget]
  refine if_congr Iff.rfl rfl ?_
  refine (map_some_bind _ fun values => values).trans ?_
  cases m.decodeBody t env.body <;> rfl

/-- **What a handler is given** of a received message. -/
theorem decodeRawWithRegistry_received (h : decodeEnvelope m codec payload = .ok raw) {t : τ}
    (hm : reg.message raw.wire = some t) : decodeRawWithRegistry m raw reg =
      ((m.decodeBody t raw.body).map (BoxMessage.mk t)).mapError .decode := by
  obtain ⟨env, henv, rfl⟩ := decodeEnvelope_eq_ok h
  rw [decodeRawWithRegistry, hm]
  show ((codec.decodeInto env.body (factoryTarget m t) none >>= intoValue).mapError _) = _
  rw [decodeInto_own henv, decode_factoryTarget, map_some_bind]

end erased

/-! ### The registry -/

/-- The last type with the wire name. -/
def Messages.last (m : Messages τ φ ω) (ts : List τ) (wire : String) : Option τ :=
  ts.reverse.find? fun t => m.wireName t = wire

/-- No two of the submitted types have one wire name. -/
def Messages.Distinct (m : Messages τ φ ω) (uses : List (Use τ)) : Prop :=
  ∀ t ∈ uses.filterMap Use.submitted, ∀ u ∈ uses.filterMap Use.submitted,
    m.wireName t = m.wireName u → t = u

section registry

variable {m : Messages τ φ ω} {ts : List τ} {t h : τ} {wire : String} {uses : List (Use τ)}

theorem lookup_foldl_insert (ts : List τ) (wire : String) (l : AList fun _ : String => τ) :
    (ts.foldl (fun l t => l.insert (m.wireName t) t) l).lookup wire =
      (m.last ts wire).or (l.lookup wire) := by
  induction ts generalizing l with
  | nil => rfl
  | cons t ts ih =>
      rw [List.foldl_cons, ih, Messages.last, Messages.last, List.reverse_cons, List.find?_append,
        Option.or_assoc]
      congr 1
      rw [List.find?_singleton]
      by_cases hw : m.wireName t = wire
      · subst hw
        rw [AList.lookup_insert]
        simp
      · rw [AList.lookup_insert_ne (Ne.symm hw)]
        simp [hw]

theorem foldl_register (ts : List τ) (reg : Registry τ) :
    ts.foldl (Registry.register m) reg =
      { reg with handlers := ts.foldl (fun l t => l.insert (m.wireName t) t) reg.handlers } := by
  induction ts generalizing reg with
  | nil => rfl
  | cons t ts ih => exact ih _

theorem foldl_registerMessage (ts : List τ) (reg : Registry τ) :
    ts.foldl (Registry.registerMessage m) reg =
      { reg with messages := ts.foldl (fun l t => l.insert (m.wireName t) t) reg.messages } := by
  induction ts generalizing reg with
  | nil => rfl
  | cons t ts ih => exact ih _

theorem handler_fromInventory (inv : Inventory uses) (wire : String) :
    (Registry.fromInventory m inv).handler wire = m.last inv.handlers wire := by
  rw [Registry.fromInventory, foldl_register, foldl_registerMessage, Registry.handler,
    lookup_foldl_insert]
  exact Option.or_none

theorem message_fromInventory (inv : Inventory uses) (wire : String) :
    (Registry.fromInventory m inv).message wire = m.last inv.messages wire := by
  rw [Registry.fromInventory, foldl_register, foldl_registerMessage, Registry.message,
    lookup_foldl_insert]
  exact Option.or_none

theorem last_eq_some (h : m.last ts wire = some t) : t ∈ ts ∧ m.wireName t = wire :=
  ⟨List.mem_reverse.1 (List.mem_of_find?_eq_some h), by simpa using List.find?_some h⟩

theorem exists_last (ht : t ∈ ts) : ∃ u, m.last ts (m.wireName t) = some u := by
  refine Option.isSome_iff_exists.1 (List.find?_isSome.2 ⟨t, List.mem_reverse.2 ht, ?_⟩)
  exact decide_eq_true rfl

theorem last_eq_none (h : ∀ u ∈ ts, m.wireName u ≠ wire) : m.last ts wire = none :=
  List.find?_eq_none.2 fun u hu => by simpa using h u (List.mem_reverse.1 hu)

theorem Inventory.mem_handlers (inv : Inventory uses) :
    t ∈ inv.handlers ↔ .messageHandler t ∈ uses := by
  rw [inv.handlers_perm.mem_iff, List.mem_filterMap]
  constructor
  · rintro ⟨use, hu, he⟩
    cases use <;> cases he
    exact hu
  · intro hu
    exact ⟨_, hu, rfl⟩

/-- `#[message_handler]` submits the message too. -/
theorem Inventory.mem_messages (inv : Inventory uses) (h : t ∈ inv.handlers) :
    t ∈ inv.messages := by
  rw [inv.messages_perm.mem_iff, List.mem_filterMap]
  exact ⟨_, inv.mem_handlers.1 h, rfl⟩

/-- A message with a handler can be decoded. -/
theorem exists_message (inv : Inventory uses) (hh : m.last inv.handlers wire = some h) :
    ∃ t, m.last inv.messages wire = some t := by
  obtain ⟨hmem, rfl⟩ := last_eq_some hh
  exact exists_last (inv.mem_messages hmem)

theorem eq_of_last (inv : Inventory uses) (hd : m.Distinct uses)
    (hh : m.last inv.handlers wire = some h) (ht : m.last inv.messages wire = some t) : t = h := by
  obtain ⟨hmem, hw⟩ := last_eq_some hh
  obtain ⟨tmem, tw⟩ := last_eq_some ht
  exact hd t (inv.messages_perm.mem_iff.1 tmem) h
    (inv.messages_perm.mem_iff.1 (inv.mem_messages hmem)) (tw.trans hw.symm)

end registry

/-! ### What is received -/

/-- What becomes of a received message. -/
structure Received [DecidableEq τ] (m : Messages τ φ ω) {uses : List (Use τ)}
    (inv : Inventory uses) (raw : RawMessage ω) : Prop where
  recv (t : τ) : decodeRawAs m t raw = if raw.wire ≠ m.wireName t
    then .error (.typeMismatch (m.wireName t) raw.wire) else m.decodeBody t raw.body
  inbox : m.last inv.handlers raw.wire = none →
    dispatchRaw m (.fromInventory m inv) raw = .inbox raw
  handled {h : τ} : m.last inv.handlers raw.wire = some h →
    ∃ t, m.last inv.messages raw.wire = some t ∧ (m.Distinct uses → t = h) ∧
      (∀ err, m.decodeBody t raw.body = .error err →
        dispatchRaw m (.fromInventory m inv) raw = .protocolError (.decode err)) ∧
      ∀ values, m.decodeBody t raw.body = .ok values →
        dispatchRaw m (.fromInventory m inv) raw = .job h ⟨t, values⟩ ∧
          (handle m h ⟨t, values⟩ = .ok values ↔ t = h)

section received

variable {m : Messages τ φ ω} {codec : CodecImpl} {payload : List UInt8}
  {raw : RawMessage ω} {uses : List (Use τ)} {t h : τ}

theorem handle_eq_ok [DecidableEq τ] {values : List φ} :
    handle m h ⟨t, values⟩ = .ok values ↔ t = h := by
  rw [handle]
  split
  · exact ⟨fun _ => ‹_›, fun _ => rfl⟩
  · refine ⟨fun he => ?_, fun he => absurd he ‹_›⟩
    cases he

theorem dispatchRaw_inbox (inv : Inventory uses) (hh : m.last inv.handlers raw.wire = none) :
    dispatchRaw m (.fromInventory m inv) raw = .inbox raw := by
  rw [dispatchRaw, handler_fromInventory, hh]

theorem dispatchRaw_handled (inv : Inventory uses) (hraw : decodeEnvelope m codec payload = .ok raw)
    (hh : m.last inv.handlers raw.wire = some h) (ht : m.last inv.messages raw.wire = some t) :
    dispatchRaw m (.fromInventory m inv) raw = match m.decodeBody t raw.body with
      | .ok values => .job h ⟨t, values⟩
      | .error err => .protocolError (.decode err) := by
  rw [dispatchRaw, handler_fromInventory, hh]
  simp only
  rw [decodeRawWithRegistry_received hraw (by rw [message_fromInventory, ht])]
  cases m.decodeBody t raw.body <;> rfl

/-- **A payload of any peer**: what `recv` returns is decoded for its type, and a handler gets what
is decoded for the last message submitted under the name, which is of its type where no two have
one name. -/
theorem received_typed [DecidableEq τ] (inv : Inventory uses)
    (hraw : decodeEnvelope m codec payload = .ok raw) : Received m inv raw where
  recv := decodeRawAs_received hraw
  inbox hh := dispatchRaw_inbox inv hh
  handled {h} hh := by
    obtain ⟨t, ht⟩ := exists_message inv hh
    have hdisp := dispatchRaw_handled inv hraw hh ht
    refine ⟨t, ht, fun hd => eq_of_last inv hd hh ht, fun err herr => ?_, fun values hvals => ?_⟩
    · rw [hdisp, herr]
    · rw [hdisp, hvals]
      exact ⟨rfl, handle_eq_ok⟩

end received

/-! ### What is sent -/

/-- The libraries read back what they write, for a value without skipped fields. -/
structure Messages.LibsInvert (m : Messages τ φ ω) : Prop where
  rmp : m.rmp.RoundTrips
  serde : m.serde.Inverts
  map {t : τ} (msg : m.Val t) (bytes : List UInt8) : msg.Complete →
    m.toVecNamed (m.wireName t) (m.named msg) = .ok bytes →
    ∃ value, m.fromSlice bytes = .ok (m.wireName t, value) ∧
      m.fromValue (m.type t).fields value = .ok msg.values
  postcard {t : τ} (msg : m.Val t) (bytes : List UInt8) : msg.Complete →
    m.toStdvec (m.named msg) = .ok bytes → m.fromBytes (m.type t).fields bytes = .ok msg.values
  /-- Nothing is read from no bytes. -/
  fromSlice_nil (r : String × Value ω) : m.fromSlice [] ≠ .ok r
  readValue_nil (value : Value ω) : m.rmp.readValue [] ≠ .ok value

/-- The payload is the codec's for the message. -/
def ReadsBack (m : Messages τ φ ω) (codec : CodecImpl) {t : τ} (msg : m.Val t)
    (payload : List UInt8) : Prop :=
  payload ≠ [] ∧ ∃ body, codec.decodeEnvelope m payload = .ok ⟨m.wireName t, body⟩ ∧
    m.decodeBody t body = .ok msg.values

section sent

variable {m : Messages τ φ ω} {codec : CodecImpl} {payload : List UInt8} {t : τ} {msg : m.Val t}

theorem wireName_isEmpty (t : τ) : (m.wireName t).isEmpty = false := by
  simpa [Messages.wireName] using m.wireName_ne t

theorem readsBack_map (hl : m.LibsInvert) (hc : msg.Complete)
    (henc : CodecImpl.msgpackMap.encode m msg = .ok payload) :
    ReadsBack m .msgpackMap msg payload := by
  obtain ⟨value, hslice, hvalue⟩ := hl.map msg payload hc (Compact.codecError_eq_ok.mp henc)
  refine ⟨fun hnil => hl.fromSlice_nil _ (hnil ▸ hslice), .value value, ?_,
    Compact.codecError_eq_ok.mpr hvalue⟩
  show CodecImpl.decodeMapEnvelope m payload = _
  rw [CodecImpl.decodeMapEnvelope, hslice]
  show (if (m.wireName t).isEmpty = true then _ else _) = _
  rw [wireName_isEmpty, if_neg Bool.false_ne_true]

theorem withDefaults_of_complete {ty : MessageType φ} {msg : Compact.Message ty}
    (hc : msg.Complete) : msg.withDefaults = msg.values := by
  refine (List.map_congr_left fun fv hfv => ?_).trans
    (List.map_snd_zip (Nat.le_of_eq msg.length_eq))
  rw [hc fv hfv]
  rfl

theorem readsBack_compact (hl : m.LibsInvert) (hc : msg.Complete)
    (henc : CodecImpl.msgpackCompact.encode m msg = .ok payload) :
    ReadsBack m .msgpackCompact msg payload := by
  obtain ⟨values, header, name, rest, hser, hheader, hname, hrest, rfl⟩ :=
    Compact.encodeCompact_eq_ok henc
  have hlen : values.length = (m.type t).fieldCount := (Compact.complete_iff hser).mp hc
  have hread := Compact.readValue_encoded hl.rmp hheader hname hrest
  rw [Nat.mod_eq_of_lt (hlen ▸ m.fieldCount_lt t), List.take_succ_cons,
    List.take_length] at hread
  refine ⟨fun hnil => hl.readValue_nil _ (hnil ▸ hread), .values values, ?_, ?_⟩
  · show (Compact.decodeCompactEnvelope m.rmp _).map _ = _
    rw [Compact.decodeCompactEnvelope, hread]
    rfl
  · show Compact.decodeCompactValues m.serde _ _ _ = _
    rw [Compact.decodeCompactValues, if_neg (not_not.mpr hlen),
      Compact.fromValue_of_complete hl.serde hc hser, withDefaults_of_complete hc]
    rfl

theorem readsBack_postcard (hl : m.LibsInvert) (hc : msg.Complete) (hlen : payload.length < 2 ^ 64)
    (henc : CodecImpl.postcard.encode m msg = .ok payload) : ReadsBack m .postcard msg payload := by
  obtain ⟨data, hdata, hout⟩ := map_eq_ok.mp henc
  have hvalues := hl.postcard msg data hc (Compact.codecError_eq_ok.mp hdata)
  simp only [PostcardCodec.pushLenVarint_eq, List.nil_append] at hout
  have hsize : (Postcard.strBytes (m.wireName t)).length < 2 ^ 64 ∧ data.length < 2 ^ 64 := by
    rw [← hout] at hlen
    simp only [List.length_append] at hlen
    omega
  obtain rfl : Postcard.envelope (m.wireName t) data = payload := by
    have he := (PostcardCodec.encode_eq hsize.1 hsize.2).symm.trans
      (show _ = Except.ok payload by rw [← hdata]; exact henc)
    exact Except.ok.inj he
  have hdec :=
    PostcardCodec.decodeEnvelope_envelope m.malformed (wireName_isEmpty t) hsize.1 hsize.2
  refine ⟨fun hnil => ?_, .bytes data, ?_, Compact.codecError_eq_ok.mpr hvalues⟩
  · rw [hnil] at hdec
    cases hdec
  · show (PostcardCodec.decodeEnvelope _ _).map _ = _
    rw [hdec]
    rfl

theorem readsBack (hl : m.LibsInvert) (hc : msg.Complete) (hlen : payload.length < 2 ^ 64)
    (henc : codec.encode m msg = .ok payload) : ReadsBack m codec msg payload := by
  cases codec with
  | msgpackMap => exact readsBack_map hl hc henc
  | msgpackCompact => exact readsBack_compact hl hc henc
  | postcard => exact readsBack_postcard hl hc hlen henc

theorem encodeMessage_eq_ok {maxFrame : UInt32}
    (henc : encodeMessage m codec maxFrame msg = .ok payload) :
    codec.encode m msg = .ok payload ∧ payload.length < 2 ^ 64 := by
  obtain ⟨bytes, hbytes, henc⟩ := bind_eq_ok.mp henc
  have hmax := maxFrame.toNat_lt
  split at henc <;> cases henc
  exact ⟨hbytes, by omega⟩

/-- **By every codec, what is encoded is received**: its payload is never the empty one of a FIN;
`recv` for the type returns the value, and for a type of another name says so; and the message goes
to the handler of its type, if it has one, and to the inbox otherwise. -/
theorem typed_round_trip [DecidableEq τ] {uses : List (Use τ)} {maxFrame : UInt32}
    (hl : m.LibsInvert) (inv : Inventory uses) (hc : msg.Complete)
    (hd : ∀ u ∈ uses.filterMap Use.submitted, m.wireName u = m.wireName t → u = t)
    (henc : encodeMessage m codec maxFrame msg = .ok payload) :
    payload ≠ [] ∧ ∃ raw, decodeEnvelope m codec payload = .ok raw ∧
      decodeRawAs m t raw = .ok msg.values ∧
      (∀ u, m.wireName u ≠ m.wireName t →
        decodeRawAs m u raw = .error (.typeMismatch (m.wireName u) (m.wireName t))) ∧
      (.messageHandler t ∉ uses → dispatchRaw m (.fromInventory m inv) raw = .inbox raw) ∧
      (.messageHandler t ∈ uses →
        dispatchRaw m (.fromInventory m inv) raw = .job t ⟨t, msg.values⟩ ∧
          handle m t ⟨t, msg.values⟩ = .ok msg.values) := by
  obtain ⟨henc, hlen⟩ := encodeMessage_eq_ok henc
  obtain ⟨hne, body, henv, hbody⟩ := readsBack hl hc hlen henc
  have hraw : decodeEnvelope m codec payload = .ok ⟨m.wireName t, codec, body⟩ := by
    rw [decodeEnvelope, henv]
    rfl
  refine ⟨hne, _, hraw, ?_, fun u hu => ?_, fun hno => dispatchRaw_inbox inv ?_, fun hyes => ?_⟩
  · rw [decodeRawAs_received hraw, if_neg (not_not.mpr rfl)]
    exact hbody
  · rw [decodeRawAs_received hraw, if_pos (Ne.symm hu)]
  · refine last_eq_none fun u hu hw => hno ?_
    have hsub := inv.messages_perm.mem_iff.1 (inv.mem_messages hu)
    exact hd u hsub hw ▸ inv.mem_handlers.1 hu
  · have hmem := inv.mem_handlers.2 hyes
    obtain ⟨h, hh⟩ := exists_last (m := m) hmem
    obtain ⟨u, hu⟩ := exists_message inv hh
    have hself {v : τ} (hv : v ∈ inv.messages) (hw : m.wireName v = m.wireName t) : v = t :=
      hd v (inv.messages_perm.mem_iff.1 hv) hw
    obtain rfl := hself (inv.mem_messages (last_eq_some hh).1) (last_eq_some hh).2
    obtain rfl := hself (last_eq_some hu).1 (last_eq_some hu).2
    have hdisp := dispatchRaw_handled inv hraw hh hu
    rw [hbody] at hdisp
    exact ⟨hdisp, handle_eq_ok.2 rfl⟩

end sent

/-! ### The short forms

An instance of the libraries: structs with one field, a positive fixint. -/

namespace Fix

open Compact (FixInt)

/-- A positive fixint, or a fixmap with one entry. -/
abbrev Other := FixInt ⊕ String × FixInt

def narrow : Value Other → Option (Value FixInt)
  | .string name => some (.string name)
  | .other (.inl x) => some (.other x)
  | _ => none

def widen : Value FixInt → Value Other
  | .string name => .string name
  | .array _ => .array []
  | .other x => .other (.inl x)

def rmp : Rmp Other where
  writeArrayLen := Compact.Fix.writeArrayLen
  writeStr := Compact.Fix.writeStr
  writeValue value :=
    match narrow value with
    | some value => Compact.Fix.writeValue value
    | none => .error "not a fixstr or a positive fixint"
  readValue bytes := (Compact.Fix.readValue bytes).map fun value =>
    match value with
    | .array values => .array (values.map widen)
    | value => widen value

theorem widen_of_narrow {value : Value Other} {v : Value FixInt} (h : narrow value = some v) :
    widen v = value := by
  cases value with
  | string =>
      cases h
      rfl
  | array => cases h
  | other value =>
      cases value <;> cases h
      rfl

theorem mapM_narrow {values : List (Value Other)} {bytes : List (List UInt8)}
    (h : values.mapM rmp.writeValue = .ok bytes) :
    ∃ vs : List (Value FixInt), vs.map widen = values ∧
      vs.mapM Compact.Fix.writeValue = .ok bytes := by
  induction values generalizing bytes with
  | nil => exact ⟨[], rfl, h⟩
  | cons value values ih =>
      rw [List.mapM_cons] at h
      obtain ⟨b, hb, h⟩ := bind_eq_ok.mp h
      obtain ⟨bs, hbs, h⟩ := bind_eq_ok.mp h
      cases h
      obtain ⟨vs, rfl, hvs⟩ := ih hbs
      simp only [rmp] at hb
      split at hb
      · rename_i v hv
        refine ⟨v :: vs, by rw [List.map_cons, widen_of_narrow hv], ?_⟩
        rw [List.mapM_cons, hb]
        show (vs.mapM Compact.Fix.writeValue >>= fun bs => pure (b :: bs)) = _
        rw [hvs]
        rfl
      · cases hb

theorem rmp_roundTrips : rmp.RoundTrips where
  str _ := rfl
  array values bytes n header hall hn hheader := by
    obtain ⟨vs, rfl, hvs⟩ := mapM_narrow hall
    have hread := Compact.Fix.roundTrips.array vs bytes n header hvs (by simpa using hn) hheader
    show (Compact.Fix.rmp.readValue _).map _ = _
    rw [hread, ← List.map_take]
    rfl

/-- A `{type, data}` with one field in the data. -/
def toVecNamed (wire : String) : List (Compact.Field FixInt × FixInt) → Except String (List UInt8)
  | [(field, x)] => do
    let parts ← [.string (.inr "type"), .string (.inr wire), .string (.inr "data")].mapM
      Compact.Fix.writeValue
    let entry ← [.string (.inr field.name), .other x].mapM Compact.Fix.writeValue
    .ok (0x82 :: parts.flatten ++ 0x81 :: entry.flatten)
  | _ => .error "not a struct with one field"

def fromSlice : List UInt8 → Except String (String × Value Other)
  | [] => .error "unexpected end"
  | marker :: rest => do
    let (type, rest) ← Compact.Fix.readElement rest
    let (wire, rest) ← Compact.Fix.readElement rest
    let (data, rest) ← Compact.Fix.readElement rest
    match marker, type, wire, data, rest with
    | 0x82, .string (.inr "type"), .string (.inr wire), .string (.inr "data"), 0x81 :: rest => do
      let (name, rest) ← Compact.Fix.readElement rest
      let (value, _) ← Compact.Fix.readElement rest
      match name, value with
      | .string (.inr name), .other x => .ok (wire, .other (.inr (name, x)))
      | _, _ => .error "not a struct with one field"
    | _, _, _, _, _ => .error "not an envelope"

def fromValue (fields : List (Compact.Field FixInt)) : Value Other → Except String (List FixInt)
  | .array values =>
    if values.length ≠ fields.length then .error "invalid length"
    else values.mapM fun value =>
      match value with
      | .other (.inl x) => .ok x
      | _ => .error "invalid type"
  | .other (.inr (name, x)) =>
    if fields.map Compact.Field.name = [name] then .ok [x] else .error "missing field"
  | _ => .error "invalid type"

def fromBytes (fields : List (Compact.Field FixInt)) (bytes : List UInt8) :
    Except String (List FixInt) :=
  if bytes.length < fields.length then .error "unexpected end"
  else .ok ((bytes.take fields.length).map fun b => ⟨b.toNat % 128, Nat.mod_lt _ (by decide)⟩)

def libs : Libs FixInt Other where
  rmp := rmp
  toValue x := .ok (.other (.inl x))
  fromValue := fromValue
  toVecNamed := toVecNamed
  fromSlice := fromSlice
  toStdvec fields := .ok (fields.map fun field => UInt8.ofNat field.2.val)
  fromBytes := fromBytes
  malformed := "unexpected end"

theorem serde_inverts : libs.serde.Inverts := by
  intro fields vs values hlen hskip hall
  clear hskip
  have hvalues : values = vs.map fun x => .other (.inl x) := by
    clear hlen
    induction vs generalizing values with
    | nil => cases hall; rfl
    | cons v vs ih =>
        rw [List.mapM_cons] at hall
        obtain ⟨b, hb, hall⟩ := bind_eq_ok.mp hall
        obtain ⟨bs, hbs, hall⟩ := bind_eq_ok.mp hall
        cases hb
        cases hall
        rw [ih bs hbs]
        rfl
  subst hvalues
  show fromValue fields (.array _) = _
  rw [fromValue, if_neg (by simp [hlen])]
  clear hlen hall
  induction vs with
  | nil => rfl
  | cons v vs ih =>
      rw [List.map_cons, List.mapM_cons, ih]
      rfl

theorem fromSlice_toVecNamed {wire : String} {field : Compact.Field FixInt} {x : FixInt}
    {bytes : List UInt8} (h : toVecNamed wire [(field, x)] = .ok bytes) :
    fromSlice bytes = .ok (wire, .other (.inr (field.name, x))) := by
  obtain ⟨parts, hparts, h⟩ := bind_eq_ok.mp h
  obtain ⟨entry, hentry, h⟩ := bind_eq_ok.mp h
  cases h
  obtain _ | ⟨htype, _ | ⟨hwire, _ | ⟨hdata, _ | _⟩⟩⟩ := forall₂_of_mapM hparts
  obtain _ | ⟨hname, _ | ⟨hvalue, _ | _⟩⟩ := forall₂_of_mapM hentry
  simp only [List.flatten_cons, List.flatten_nil, List.append_assoc, List.nil_append,
    List.cons_append, fromSlice, bind, Except.bind, Compact.Fix.readElement_writeValue htype,
    Compact.Fix.readElement_writeValue hwire, Compact.Fix.readElement_writeValue hdata,
    Compact.Fix.readElement_writeValue hname, Compact.Fix.readElement_writeValue hvalue]

/-- Two structs with a field `value`. -/
def small : Messages Bool FixInt Other where
  toLibs := libs
  type pong :=
    ⟨if pong then "am.ping.Pong" else "am.ping.Ping", [⟨"value", false, none, ⟨0, by decide⟩⟩]⟩
  wireName_ne pong := by cases pong <;> decide
  fieldCount_lt _ := show 1 + 1 < 2 ^ 32 by decide

theorem small_libsInvert : small.LibsInvert where
  rmp := rmp_roundTrips
  serde := serde_inverts
  map {pong} msg bytes _ henc := by
    obtain ⟨values, hlen⟩ := msg
    obtain ⟨x, rfl⟩ := List.length_eq_one_iff.mp hlen
    exact ⟨_, fromSlice_toVecNamed henc, rfl⟩
  postcard {pong} msg bytes _ henc := by
    obtain ⟨values, hlen⟩ := msg
    obtain ⟨x, rfl⟩ := List.length_eq_one_iff.mp hlen
    cases henc
    have hx : (UInt8.ofNat x.val).toNat % 128 = x.val := by
      rw [UInt8.toNat_ofNat']
      omega
    exact congrArg (fun y => Except.ok [y]) (Fin.ext hx)
  fromSlice_nil _ h := by cases h
  readValue_nil _ h := by cases h

/-- The linker has the messages in another order than the source. -/
def inventory : Inventory [Use.message true true, .messageHandler false] where
  handlers := [false]
  messages := [false, true]
  handlers_perm := .refl _
  messages_perm := by decide

def ping : small.Val false := ⟨[⟨7, by decide⟩], rfl⟩

end Fix

theorem typed_round_trip_ping : ∃ payload raw,
    encodeMessage Fix.small .msgpackMap 64 Fix.ping = .ok payload ∧
      decodeEnvelope Fix.small .msgpackMap payload = .ok raw ∧
      dispatchRaw Fix.small (.fromInventory Fix.small Fix.inventory) raw =
        .job false ⟨false, Fix.ping.values⟩ := by
  have hc : Fix.ping.Complete := by
    intro fv hfv
    obtain rfl := List.mem_singleton.1 hfv
    rfl
  obtain ⟨payload, henc⟩ : ∃ payload,
      encodeMessage Fix.small .msgpackMap 64 Fix.ping = .ok payload := ⟨_, rfl⟩
  obtain ⟨-, raw, hraw, -, -, -, hjob⟩ :=
    typed_round_trip Fix.small_libsInvert Fix.inventory hc (by decide) henc
  exact ⟨payload, raw, henc, hraw, (hjob (by simp)).1⟩

/-- A `Ping` with two fields. -/
def Fix.longPing : List UInt8 := 0x93 :: 0xac :: Postcard.strBytes "am.ping.Ping" ++ [7, 9]

theorem received_typed_long : ∃ raw,
    decodeEnvelope Fix.small .msgpackCompact Fix.longPing = .ok raw ∧
      Received Fix.small Fix.inventory raw ∧
      dispatchRaw Fix.small (.fromInventory Fix.small Fix.inventory) raw =
        .protocolError (.decode (.compactFieldCount 1 2)) := by
  obtain ⟨raw, hraw, hdisp⟩ : ∃ raw,
      decodeEnvelope Fix.small .msgpackCompact Fix.longPing = .ok raw ∧
        dispatchRaw Fix.small (.fromInventory Fix.small Fix.inventory) raw =
          .protocolError (.decode (.compactFieldCount 1 2)) := ⟨_, rfl, rfl⟩
  exact ⟨raw, hraw, received_typed Fix.inventory hraw, hdisp⟩

end AdaptiveMsg.Typed
