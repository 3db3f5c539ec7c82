import AdaptiveMsg.Bytes.BigEndian
import AdaptiveMsg.Bytes.Reads
import AdaptiveMsg.Recovery.Options
import AdaptiveMsg.Results
import AdaptiveMsg.Wire.Header

/-!
# Wire — the attach exchange

The attach request and response of `recovery_protocol.rs`.  The response carries the negotiated
options with their durations in whole milliseconds, one at least, and the client checks again that
the heartbeat timeout is two intervals at least.

* `readAttachRequest_write`: a request is read back, whatever it is and however it arrives.
* `attach_round_trip`: a response is read back iff its heartbeat survives the rounding, and else the
  client rejects it.
* `attach_rejected`: a heartbeat interval of half a millisecond with a timeout of one does not.
-/

namespace AdaptiveMsg

open Bytes

/-! ### Requests and responses -/

def recoveryTokenLen : Nat := 16
def attachRequestLen : Nat := 44
def attachResponseLen : Nat := 60

def attachModeNew : UInt8 := 1
def attachModeResume : UInt8 := 2

def attachStatusOk : UInt8 := 1
def attachStatusRejected : UInt8 := 2

abbrev RecoveryToken : Type := {bytes : List UInt8 // bytes.length = recoveryTokenLen}

/-- A token of zeros, over which the first bytes of `slice` are copied. -/
def RecoveryToken.copyFrom (slice : List UInt8) : RecoveryToken :=
  ⟨(slice ++ List.replicate recoveryTokenLen 0).take recoveryTokenLen, by
    rw [List.length_take, List.length_append, List.length_replicate]
    exact Nat.min_eq_left (Nat.le_add_left _ _)⟩

structure AttachRequest where
  mode : UInt8
  connectionId : RecoveryToken
  resumeSecret : RecoveryToken
  lastRecvSeq : UInt64
  deriving DecidableEq

structure AttachResponse where
  status : UInt8
  connectionId : RecoveryToken
  resumeSecret : RecoveryToken
  lastRecvSeq : UInt64
  negotiated : Options.NegotiatedRecoveryOptions
  deriving DecidableEq

/-- The fields that a request and a response begin with. -/
def attachHead (first : UInt8) (connectionId resumeSecret : RecoveryToken) (lastRecvSeq : UInt64) :
    List UInt8 :=
  [first, 0, 0, 0] ++ connectionId.val ++ resumeSecret.val ++ toBE 8 lastRecvSeq.toNat

def writeAttachRequest (req : AttachRequest) : List UInt8 :=
  attachHead req.mode req.connectionId req.resumeSecret req.lastRecvSeq

/-- The request, and what is left unread. -/
def readAttachRequest (reader : Reader UInt8) : Except Error AttachRequest × Reader UInt8 :=
  match reader.readFull attachRequestLen with
  | none => (.error (.io .unexpectedEof), [])
  | some (buf, reader) =>
    (.ok {
      mode := buf.getD 0 0
      connectionId := .copyFrom ((buf.drop 4).take 16)
      resumeSecret := .copyFrom ((buf.drop 20).take 16)
      lastRecvSeq := UInt64.ofNat (ofBE ((buf.drop 36).take 8)) }, reader)

/-! ### The negotiated options -/

structure EncodedNegotiatedRecoveryOptions where
  ackEvery : UInt32
  ackDelayMs : UInt32
  heartbeatIntervalMs : UInt32
  heartbeatTimeoutMs : UInt32

def durationToMillis (duration : Duration) : Except Error UInt32 :=
  if duration.isZero then .error (.invalidMessage "recovery duration must be positive")
  else
    let millis := max duration.asMillis 1
    if millis > 4294967295 then .error (.invalidMessage "recovery duration too large")
    else .ok (UInt32.ofNat millis)

def encodeNegotiatedRecoveryOptions (opts : Options.NegotiatedRecoveryOptions) :
    Except Error EncodedNegotiatedRecoveryOptions :=
  let opts := opts.normalized
  (durationToMillis opts.ackDelay).bind fun ackDelayMs =>
    (durationToMillis opts.heartbeatInterval).bind fun heartbeatIntervalMs =>
      (durationToMillis opts.heartbeatTimeout).bind fun heartbeatTimeoutMs =>
        .ok ⟨opts.ackEvery, ackDelayMs, heartbeatIntervalMs, heartbeatTimeoutMs⟩

def decodeNegotiatedRecoveryOptions
    (ackEvery ackDelayMs heartbeatIntervalMs heartbeatTimeoutMs : UInt32) :
    Except Error Options.NegotiatedRecoveryOptions :=
  let opts : Options.NegotiatedRecoveryOptions :=
    { ackEvery := ackEvery
      ackDelay := .fromMillis ackDelayMs.toUInt64
      heartbeatInterval := .fromMillis heartbeatIntervalMs.toUInt64
      heartbeatTimeout := .fromMillis heartbeatTimeoutMs.toUInt64 }
  if opts.ackEvery = 0 then .error (.invalidMessage "negotiated ack_every must be positive")
  else if opts.ackDelay.isZero then
    .error (.invalidMessage "negotiated ack_delay must be positive")
  else if opts.heartbeatInterval.isZero then
    .error (.invalidMessage "negotiated heartbeat_interval must be positive")
  else if opts.heartbeatTimeout.asNanos < (opts.heartbeatInterval.saturatingMul 2).asNanos then
    .error (.invalidMessage "negotiated heartbeat_timeout too small")
  else .ok opts

/-- The bytes of a response, unless its options do not fit. -/
def writeAttachResponse (resp : AttachResponse) : Except Error (List UInt8) :=
  (encodeNegotiatedRecoveryOptions resp.negotiated).map fun encoded =>
    attachHead resp.status resp.connectionId resp.resumeSecret resp.lastRecvSeq ++
      (toBE 4 encoded.ackEvery.toNat ++ (toBE 4 encoded.ackDelayMs.toNat ++
        (toBE 4 encoded.heartbeatIntervalMs.toNat ++ toBE 4 encoded.heartbeatTimeoutMs.toNat)))

def readAttachResponse (reader : Reader UInt8) : Except Error AttachResponse × Reader UInt8 :=
  match reader.readFull attachResponseLen with
  | none => (.error (.io .unexpectedEof), [])
  | some (buf, reader) =>
    ((decodeNegotiatedRecoveryOptions
        (UInt32.ofNat (ofBE ((buf.drop 44).take 4))) (UInt32.ofNat (ofBE ((buf.drop 48).take 4)))
        (UInt32.ofNat (ofBE ((buf.drop 52).take 4)))
        (UInt32.ofNat (ofBE ((buf.drop 56).take 4)))).map fun negotiated =>
      { status := buf.getD 0 0
        connectionId := .copyFrom ((buf.drop 4).take 16)
        resumeSecret := .copyFrom ((buf.drop 20).take 16)
        lastRecvSeq := UInt64.ofNat (ofBE ((buf.drop 36).take 8))
        negotiated := negotiated }, reader)

/-! ### The fields of a message -/

variable {reader : Reader UInt8} {rest : List UInt8}

theorem take_drop_append {pre field post : List UInt8} {i k : Nat} (hi : pre.length = i)
    (hk : field.length = k) : ((pre ++ (field ++ post)).drop i).take k = field := by
  rw [List.drop_left' hi, List.take_left' hk]

theorem RecoveryToken.copyFrom_val (token : RecoveryToken) : copyFrom token.val = token :=
  Subtype.ext (List.take_left' token.property)

/-- What is read at the fields' places of a message that begins with `attachHead`. -/
structure HeadOf (buf : List UInt8) (first : UInt8) (connectionId resumeSecret : RecoveryToken)
    (lastRecvSeq : UInt64) (tail : List UInt8) : Prop where
  first : buf.getD 0 0 = first
  connectionId : RecoveryToken.copyFrom ((buf.drop 4).take 16) = connectionId
  resumeSecret : RecoveryToken.copyFrom ((buf.drop 20).take 16) = resumeSecret
  lastRecvSeq : UInt64.ofNat (ofBE ((buf.drop 36).take 8)) = lastRecvSeq
  tail : buf.drop 44 = tail

theorem length_attachHead (first : UInt8) (connectionId resumeSecret : RecoveryToken)
    (lastRecvSeq : UInt64) :
    (attachHead first connectionId resumeSecret lastRecvSeq).length = attachRequestLen := by
  simp only [attachHead, List.length_append, length_toBE, connectionId.property,
    resumeSecret.property]
  rfl

theorem headOf_attachHead (first : UInt8) (connectionId resumeSecret : RecoveryToken)
    (lastRecvSeq : UInt64) (tail : List UInt8) :
    HeadOf (attachHead first connectionId resumeSecret lastRecvSeq ++ tail) first connectionId
      resumeSecret lastRecvSeq tail := by
  have hc : connectionId.val.length = 16 := connectionId.property
  have hs : resumeSecret.val.length = 16 := resumeSecret.property
  have hfirst : [first, 0, 0, 0].length = 4 := rfl
  refine ⟨rfl, ?_, ?_, ?_, List.drop_left' (length_attachHead _ _ _ _)⟩
  · rw [attachHead, List.append_assoc, List.append_assoc, List.append_assoc,
      take_drop_append hfirst hc, RecoveryToken.copyFrom_val]
  · rw [attachHead, List.append_assoc, List.append_assoc, take_drop_append (by simp [hc]) hs,
      RecoveryToken.copyFrom_val]
  · rw [attachHead, List.append_assoc, take_drop_append (by simp [hc, hs]) (length_toBE 8 _),
      ofNat_ofBE_toBE64]

/-- A message of `k` bytes at the front of what arrives is read whole. -/
theorem readFull_message {message : List UInt8} {k : Nat} (hk : message.length = k)
    (hr : reader.contents = message ++ rest) :
    ∃ left, reader.readFull k = some (message, left) ∧ left.contents = rest := by
  obtain ⟨left, hf, hl⟩ := Reader.readFull_eq_some (r := reader) (k := k)
    (by rw [hr, List.length_append, hk]; exact Nat.le_add_right _ _)
  rw [hr, List.take_left' hk] at hf
  rw [hr, List.drop_left' hk] at hl
  exact ⟨left, hf, hl⟩

/-- **A request is read back**, and what follows it is left. -/
theorem readAttachRequest_write (req : AttachRequest)
    (hr : reader.contents = writeAttachRequest req ++ rest) :
    ∃ left, readAttachRequest reader = (.ok req, left) ∧ left.contents = rest := by
  obtain ⟨left, hf, hl⟩ := readFull_message (length_attachHead _ _ _ _) hr
  have hhead := headOf_attachHead req.mode req.connectionId req.resumeSecret req.lastRecvSeq []
  rw [List.append_nil] at hhead
  refine ⟨left, ?_, hl⟩
  rw [readAttachRequest, hf]
  simp only [hhead.first, hhead.connectionId, hhead.resumeSecret, hhead.lastRecvSeq]

/-! ### The durations -/

variable {duration : Duration} {millis : UInt32}

theorem durationToMillis_ok (h : durationToMillis duration = .ok millis) :
    millis.toNat = max duration.asMillis 1 := by
  simp only [durationToMillis] at h
  split at h
  · cases h
  · split at h
    · cases h
    · cases h
      exact UInt32.toNat_ofNat_of_lt' (Nat.lt_succ_of_le (Nat.le_of_not_lt ‹_›))

/-- The client's view of a duration: whole milliseconds, one at least. -/
def Duration.rounded (duration : Duration) : Duration where
  asNanos := max duration.asMillis 1 * 1000000
  le_max := by
    have := duration.le_max
    simp only [asMillis]
    omega

theorem fromMillis_of_ok (h : durationToMillis duration = .ok millis) :
    Duration.fromMillis millis.toUInt64 = duration.rounded := by
  have hm : millis.toUInt64.toNat = max duration.asMillis 1 := durationToMillis_ok h
  simp only [Duration.fromMillis, Duration.rounded, hm]

theorem rounded_isZero (duration : Duration) : duration.rounded.isZero = false := by
  refine decide_eq_false (Nat.ne_of_gt ?_)
  exact Nat.mul_pos (Nat.lt_of_lt_of_le Nat.one_pos (Nat.le_max_right _ _)) (by decide)

theorem encode_ok {opts : Options.NegotiatedRecoveryOptions}
    {encoded : EncodedNegotiatedRecoveryOptions}
    (h : encodeNegotiatedRecoveryOptions opts = .ok encoded) :
    encoded.ackEvery = opts.normalized.ackEvery ∧
      durationToMillis opts.normalized.ackDelay = .ok encoded.ackDelayMs ∧
      durationToMillis opts.normalized.heartbeatInterval = .ok encoded.heartbeatIntervalMs ∧
      durationToMillis opts.normalized.heartbeatTimeout = .ok encoded.heartbeatTimeoutMs := by
  obtain ⟨delay, hdelay, h⟩ := bind_eq_ok.mp h
  obtain ⟨interval, hinterval, h⟩ := bind_eq_ok.mp h
  obtain ⟨timeout, htimeout, h⟩ := bind_eq_ok.mp h
  cases h
  exact ⟨rfl, hdelay, hinterval, htimeout⟩

/-- The options as the client reads them. -/
def Options.NegotiatedRecoveryOptions.rounded (opts : Options.NegotiatedRecoveryOptions) :
    Options.NegotiatedRecoveryOptions :=
  ⟨opts.ackEvery, opts.ackDelay.rounded, opts.heartbeatInterval.rounded,
    opts.heartbeatTimeout.rounded⟩

/-- The check of the client, on the durations as it reads them. -/
theorem decode_rounded {opts : Options.NegotiatedRecoveryOptions}
    {encoded : EncodedNegotiatedRecoveryOptions} (hn : opts.Normal)
    (he : encodeNegotiatedRecoveryOptions opts = .ok encoded) :
    decodeNegotiatedRecoveryOptions encoded.ackEvery encoded.ackDelayMs encoded.heartbeatIntervalMs
        encoded.heartbeatTimeoutMs =
      if 2 * max opts.heartbeatInterval.asMillis 1 ≤ max opts.heartbeatTimeout.asMillis 1 then
        .ok opts.rounded
      else .error (.invalidMessage "negotiated heartbeat_timeout too small") := by
  obtain ⟨hevery, hdelay, hinterval, htimeout⟩ := encode_ok he
  rw [hn.normalized] at hevery hdelay hinterval htimeout
  have hsmall : opts.heartbeatTimeout.rounded.asNanos <
      (opts.heartbeatInterval.rounded.saturatingMul 2).asNanos ↔
        ¬2 * max opts.heartbeatInterval.asMillis 1 ≤ max opts.heartbeatTimeout.asMillis 1 := by
    -- An interval of 32 bits of milliseconds does not saturate.
    have hlt := encoded.heartbeatIntervalMs.toNat_lt
    rw [durationToMillis_ok hinterval] at hlt
    rw [Duration.asNanos_saturatingMul, Duration.rounded, Duration.rounded, Duration.maxValue]
    simp only
    omega
  simp only [decodeNegotiatedRecoveryOptions, fromMillis_of_ok hdelay, fromMillis_of_ok hinterval,
    fromMillis_of_ok htimeout, hevery, if_neg hn.ackEvery, rounded_isZero, Bool.false_eq_true,
    if_false, hsmall, ite_not]
  rfl

/-! ### The response -/

/-- The heartbeat interval is not below a millisecond while its timeout is below two; zero stands for
the default. -/
def Options.ServerRecoveryOptions.SurvivesRounding (opts : Options.ServerRecoveryOptions) : Prop :=
  opts.heartbeatInterval.isZero = true ∨ 1000000 ≤ opts.heartbeatInterval.asNanos ∨
    opts.heartbeatTimeout.isZero = true ∨ 2000000 ≤ opts.heartbeatTimeout.asNanos

instance (opts : Options.ServerRecoveryOptions) : Decidable opts.SurvivesRounding :=
  inferInstanceAs (Decidable (_ ∨ _))

/-- The relation that normalising sets up in nanoseconds, in milliseconds. -/
theorem survivesRounding_iff {opts : Options.ServerRecoveryOptions}
    {encoded : EncodedNegotiatedRecoveryOptions}
    (he : encodeNegotiatedRecoveryOptions opts.negotiated = .ok encoded) :
    2 * max opts.negotiated.heartbeatInterval.asMillis 1 ≤
        max opts.negotiated.heartbeatTimeout.asMillis 1 ↔ opts.SurvivesRounding := by
  obtain ⟨-, -, hinterval, -⟩ := encode_ok he
  rw [Options.normalized_negotiated] at hinterval
  have hlt := encoded.heartbeatIntervalMs.toNat_lt
  rw [durationToMillis_ok hinterval] at hlt
  have hi : opts.negotiated.heartbeatInterval.asNanos =
      if opts.heartbeatInterval.asNanos = 0 then 30000000000 else opts.heartbeatInterval.asNanos := by
    simp only [Options.ServerRecoveryOptions.negotiated, Options.ServerRecoveryOptions.normalized,
      Options.orDefault, Duration.isZero, decide_eq_true_eq]
    split <;> rfl
  have ht : opts.negotiated.heartbeatTimeout.asNanos =
      max (if opts.heartbeatTimeout.asNanos = 0 then 90000000000 else opts.heartbeatTimeout.asNanos)
        (opts.negotiated.heartbeatInterval.saturatingMul 2).asNanos := by
    have hd : (Options.orDefault opts.heartbeatTimeout
        Options.ServerRecoveryOptions.default.heartbeatTimeout).asNanos =
          if opts.heartbeatTimeout.asNanos = 0 then 90000000000
          else opts.heartbeatTimeout.asNanos := by
      simp only [Options.orDefault, Duration.isZero, decide_eq_true_eq]
      split <;> rfl
    change (Options.atLeastTwice opts.negotiated.heartbeatInterval _).asNanos = _
    rw [Options.atLeastTwice, ← hd]
    split
    · exact (Nat.max_eq_right (Nat.le_of_lt ‹_›)).symm
    · exact (Nat.max_eq_left (Nat.le_of_not_lt ‹_›)).symm
  rw [Duration.asNanos_saturatingMul] at ht
  simp only [Duration.asMillis, Duration.maxValue, Options.ServerRecoveryOptions.SurvivesRounding,
    Duration.isZero, decide_eq_true_eq] at hi ht hlt ⊢
  split at hi <;> split at ht <;> omega

theorem length_writeAttachResponse {resp : AttachResponse} {bytes : List UInt8}
    (h : writeAttachResponse resp = .ok bytes) : bytes.length = attachResponseLen := by
  obtain ⟨encoded, -, rfl⟩ := map_eq_ok.mp h
  simp only [List.length_append, length_attachHead, length_toBE]
  rfl

section fields

variable {buf : List UInt8} {ackEvery ackDelayMs intervalMs timeoutMs : UInt32}
  (h : buf.drop 44 = toBE 4 ackEvery.toNat ++ (toBE 4 ackDelayMs.toNat ++
    (toBE 4 intervalMs.toNat ++ toBE 4 timeoutMs.toNat)))

include h

theorem ackEvery_of_tail : (buf.drop 44).take 4 = toBE 4 ackEvery.toNat := by
  rw [h, List.take_left' (length_toBE 4 _)]

theorem ackDelay_of_tail : (buf.drop 48).take 4 = toBE 4 ackDelayMs.toNat := by
  rw [show 48 = 44 + 4 from rfl, ← List.drop_drop, h,
    take_drop_append (length_toBE 4 _) (length_toBE 4 _)]

theorem interval_of_tail : (buf.drop 52).take 4 = toBE 4 intervalMs.toNat := by
  rw [show 52 = 44 + 8 from rfl, ← List.drop_drop, h, ← List.append_assoc,
    take_drop_append (by simp) (length_toBE 4 _)]

theorem timeout_of_tail : (buf.drop 56).take 4 = toBE 4 timeoutMs.toNat := by
  rw [show 56 = 44 + 12 from rfl, ← List.drop_drop, h, ← List.append_assoc, ← List.append_assoc,
    List.drop_left' (by simp), List.take_of_length_le (by simp)]

end fields

/-- What a client reads of a server's response. -/
theorem readAttachResponse_write {opts : Options.ServerRecoveryOptions} {status : UInt8}
    {connectionId resumeSecret : RecoveryToken} {lastRecvSeq : UInt64} {bytes : List UInt8}
    (hw : writeAttachResponse ⟨status, connectionId, resumeSecret, lastRecvSeq, opts.negotiated⟩ =
      .ok bytes) (hr : reader.contents = bytes ++ rest) :
    ∃ left, left.contents = rest ∧ readAttachResponse reader =
      (if opts.SurvivesRounding then
          .ok ⟨status, connectionId, resumeSecret, lastRecvSeq, opts.negotiated.rounded⟩
        else .error (.invalidMessage "negotiated heartbeat_timeout too small"), left) := by
  obtain ⟨left, hf, hl⟩ := readFull_message (length_writeAttachResponse hw) hr
  refine ⟨left, hl, ?_⟩
  obtain ⟨encoded, he, rfl⟩ := map_eq_ok.mp hw
  have hhead := headOf_attachHead status connectionId resumeSecret lastRecvSeq
    (toBE 4 encoded.ackEvery.toNat ++ (toBE 4 encoded.ackDelayMs.toNat ++
      (toBE 4 encoded.heartbeatIntervalMs.toNat ++ toBE 4 encoded.heartbeatTimeoutMs.toNat)))
  rw [readAttachResponse, hf]
  simp only [hhead.first, hhead.connectionId, hhead.resumeSecret, hhead.lastRecvSeq,
    ackEvery_of_tail hhead.tail, ackDelay_of_tail hhead.tail, interval_of_tail hhead.tail,
    timeout_of_tail hhead.tail, ofNat_ofBE_toBE32]
  rw [decode_rounded (Options.normal_negotiated opts) he]
  simp only [survivesRounding_iff he]
  split <;> rfl

/-- **The attach exchange**: every request is read back; and of a response that is written, the 60
bytes are read back, with each duration in whole milliseconds and one at least, iff the server's
heartbeat survives the rounding. -/
theorem attach_round_trip (req : AttachRequest) (opts : Options.ServerRecoveryOptions)
    (status : UInt8) (connectionId resumeSecret : RecoveryToken) (lastRecvSeq : UInt64) :
    (∀ (reader : Reader UInt8) (rest : List UInt8),
      reader.contents = writeAttachRequest req ++ rest →
        ∃ left, readAttachRequest reader = (.ok req, left) ∧ left.contents = rest) ∧
    ∀ bytes : List UInt8,
      writeAttachResponse ⟨status, connectionId, resumeSecret, lastRecvSeq, opts.negotiated⟩ =
        .ok bytes →
      bytes.length = attachResponseLen ∧
      ∀ (reader : Reader UInt8) (rest : List UInt8), reader.contents = bytes ++ rest →
        ((∃ left, left.contents = rest ∧ readAttachResponse reader =
            (.ok ⟨status, connectionId, resumeSecret, lastRecvSeq, opts.negotiated.rounded⟩, left)) ↔
          opts.SurvivesRounding) := by
  refine ⟨fun reader rest hr => readAttachRequest_write req hr, ?_⟩
  intro bytes hw
  refine ⟨length_writeAttachResponse hw, fun reader rest hr => ?_⟩
  obtain ⟨left, hl, hread⟩ := readAttachResponse_write hw hr
  rw [hread]
  constructor
  · rintro ⟨left', -, h⟩
    by_contra hs
    rw [if_neg hs] at h
    cases h
  · intro hs
    exact ⟨left, hl, by rw [if_pos hs]⟩

/-- The token of zeros. -/
def zeroToken : RecoveryToken := .copyFrom []

theorem attach_round_trip_default :
    ∃ bytes, writeAttachResponse ⟨attachStatusOk, zeroToken, zeroToken, 7,
        Options.ServerRecoveryOptions.default.negotiated⟩ = .ok bytes ∧ bytes.length = 60 ∧
      ∀ reader : Reader UInt8, reader.contents = bytes →
        ∃ left, left.contents = [] ∧ readAttachResponse reader =
          (.ok ⟨attachStatusOk, zeroToken, zeroToken, 7,
            Options.ServerRecoveryOptions.default.negotiated⟩, left) := by
  have hrounded : Options.ServerRecoveryOptions.default.negotiated.rounded =
      Options.ServerRecoveryOptions.default.negotiated := by decide
  obtain ⟨bytes, hw⟩ : ∃ bytes, writeAttachResponse ⟨attachStatusOk, zeroToken, zeroToken, 7,
      Options.ServerRecoveryOptions.default.negotiated⟩ = .ok bytes := ⟨_, rfl⟩
  obtain ⟨hlen, hread⟩ :=
    (attach_round_trip ⟨attachModeNew, zeroToken, zeroToken, 0⟩ _ _ _ _ _).2 _ hw
  refine ⟨bytes, hw, hlen, fun reader hr => ?_⟩
  have h := (hread reader [] (hr.trans (List.append_nil _).symm)).2 (by decide)
  rwa [hrounded] at h

/-- A heartbeat of half a millisecond, with a timeout of one. -/
def halfMillisecond : Options.ServerRecoveryOptions :=
  { Options.ServerRecoveryOptions.default with
    enable := true
    heartbeatInterval := ⟨500000, by decide⟩
    heartbeatTimeout := ⟨1000000, by decide⟩ }

/-- **A heartbeat that does not survive the rounding**: the server writes its response, and the client
rejects it. -/
theorem attach_rejected :
    ∃ bytes, writeAttachResponse ⟨attachStatusOk, zeroToken, zeroToken, 0,
        halfMillisecond.negotiated⟩ = .ok bytes ∧
      ∀ reader : Reader UInt8, reader.contents = bytes → (readAttachResponse reader).1 =
        .error (.invalidMessage "negotiated heartbeat_timeout too small") := by
  obtain ⟨bytes, hw⟩ : ∃ bytes, writeAttachResponse ⟨attachStatusOk, zeroToken, zeroToken, 0,
      halfMillisecond.negotiated⟩ = .ok bytes := ⟨_, rfl⟩
  refine ⟨bytes, hw, fun reader hr => ?_⟩
  obtain ⟨left, -, hread⟩ := readAttachResponse_write hw (hr.trans (List.append_nil _).symm)
  rw [hread, if_neg (by decide)]

end AdaptiveMsg
