import AdaptiveMsg.Bytes.BigEndian
import AdaptiveMsg.Error

/-!
# Wire — frame headers

`frame.rs`: the header of a frame, with ten bytes in version 2 and eighteen in version 3.
`parseHeader_buildHeader`: parsing a header gives back what was built into it.
-/

namespace AdaptiveMsg

open Bytes

def protocolVersionV2 : UInt8 := 2
def protocolVersionV3 : UInt8 := 3

def frameHeaderLenV2 : Nat := 10
def frameHeaderLenV3 : Nat := 18

def frameFlagFin : UInt8 := 1
def supportedFrameFlags : UInt8 := frameFlagFin

/-- The eighteen bytes of which the header of the version is the start. -/
def headerBytes (version : UInt8) (streamId : UInt32) (seq : UInt64) (flags : UInt8)
    (payloadLen : Nat) : List UInt8 :=
  version :: flags :: (toBE 4 streamId.toNat ++ (toBE 4 (UInt32.ofNat payloadLen).toNat ++
    if version = protocolVersionV3 then toBE 8 seq.toNat else List.replicate 8 0))

def buildHeader (version : UInt8) (streamId : UInt32) (seq : UInt64) (flags : UInt8)
    (payloadLen : Nat) (maxFrame : UInt32) : Except Error (List UInt8) :=
  if payloadLen > 4294967295 then .error (.frameTooLarge payloadLen)
  else if UInt32.ofNat payloadLen > maxFrame then .error (.frameTooLarge payloadLen)
  else .ok (headerBytes version streamId seq flags payloadLen)

def frameHeaderLenForVersion (version : UInt8) : Except Error Nat :=
  if version = protocolVersionV2 then .ok frameHeaderLenV2
  else if version = protocolVersionV3 then .ok frameHeaderLenV3
  else .error (.unsupportedFrameVersion version)

/-- The stream, the sequence number, the flags and the length of the payload. -/
def parseHeader (header : List UInt8) (expectedVersion : UInt8) :
    Except Error (UInt32 × UInt64 × UInt8 × Nat) :=
  match header with
  | version :: flags :: rest =>
    if version ≠ expectedVersion then .error (.unsupportedFrameVersion version)
    else if flags &&& ~~~supportedFrameFlags ≠ 0 then
      .error (.invalidMessage "unsupported frame flags")
    else
      (frameHeaderLenForVersion version).bind fun expectedLen =>
        if header.length < expectedLen then .error (.invalidMessage "invalid frame header length")
        else
          let seq := if version = protocolVersionV3 then
            UInt64.ofNat (ofBE ((rest.drop 8).take 8)) else 0
          .ok (UInt32.ofNat (ofBE (rest.take 4)), seq, flags,
            (UInt32.ofNat (ofBE ((rest.drop 4).take 4))).toNat)
  -- The source's `header[0]` and `header[1]`: no caller passes less.
  | _ => .error (.invalidMessage "invalid frame header length")

/-! ### Building a header and parsing it -/

variable {version flags : UInt8} {streamId : UInt32} {seq : UInt64} {payloadLen headerLen : Nat}
  {maxFrame : UInt32}

theorem frameHeaderLenForVersion_ok (h : frameHeaderLenForVersion version = .ok headerLen) :
    version = protocolVersionV2 ∧ headerLen = frameHeaderLenV2 ∨
      version = protocolVersionV3 ∧ headerLen = frameHeaderLenV3 := by
  simp only [frameHeaderLenForVersion] at h
  split at h
  · cases h
    exact .inl ⟨‹_›, rfl⟩
  · split at h
    · cases h
      exact .inr ⟨‹_›, rfl⟩
    · cases h

/-- A length within the limit fits in the header's field. -/
theorem not_tooLarge (hlen : payloadLen ≤ maxFrame.toNat) : ¬UInt32.ofNat payloadLen > maxFrame := by
  rw [gt_iff_lt, UInt32.lt_iff_toNat_lt,
    UInt32.toNat_ofNat_of_lt' (Nat.lt_of_le_of_lt hlen maxFrame.toNat_lt)]
  exact Nat.not_lt_of_le hlen

theorem buildHeader_ok (hlen : payloadLen ≤ maxFrame.toNat) :
    buildHeader version streamId seq flags payloadLen maxFrame =
      .ok (headerBytes version streamId seq flags payloadLen) := by
  have hmax : payloadLen < 2 ^ 32 := Nat.lt_of_le_of_lt hlen maxFrame.toNat_lt
  rw [buildHeader, if_neg (Nat.not_lt_of_le (Nat.le_of_lt_succ hmax)), if_neg (not_tooLarge hlen)]

@[simp] theorem length_headerBytes :
    (headerBytes version streamId seq flags payloadLen).length = frameHeaderLenV3 := by
  simp only [headerBytes, List.length_cons, List.length_append, length_toBE]
  split
  · rw [length_toBE]
    rfl
  · rw [List.length_replicate]
    rfl

/-- The sequence number that a header carries: version 2 has none. -/
def headerSeq (version : UInt8) (seq : UInt64) : UInt64 :=
  if version = protocolVersionV3 then seq else 0

theorem ofNat_ofBE_toBE32 (n : UInt32) : UInt32.ofNat (ofBE (toBE 4 n.toNat)) = n := by
  rw [ofBE_toBE n.toNat_lt, UInt32.ofNat_toNat]

theorem ofNat_ofBE_toBE64 (n : UInt64) : UInt64.ofNat (ofBE (toBE 8 n.toNat)) = n := by
  rw [ofBE_toBE n.toNat_lt, UInt64.ofNat_toNat]

/-- The fields of a header whose last bytes are `tail`. -/
theorem parseHeader_fields {tail : List UInt8} {len : UInt32}
    (hv : frameHeaderLenForVersion version = .ok headerLen)
    (hflags : flags &&& ~~~supportedFrameFlags = 0) (htail : tail.length + 10 = headerLen) :
    parseHeader (version :: flags :: (toBE 4 streamId.toNat ++ (toBE 4 len.toNat ++ tail))) version =
      .ok (streamId, if version = protocolVersionV3 then UInt64.ofNat (ofBE (tail.take 8)) else 0,
        flags, len.toNat) := by
  have hlong : ¬(version :: flags :: (toBE 4 streamId.toNat ++ (toBE 4 len.toNat ++ tail))).length <
      headerLen := by
    simp only [List.length_cons, List.length_append, length_toBE]
    omega
  have hid : (toBE 4 streamId.toNat ++ (toBE 4 len.toNat ++ tail)).take 4 = toBE 4 streamId.toNat :=
    List.take_left' (length_toBE 4 _)
  have hdrop : (toBE 4 streamId.toNat ++ (toBE 4 len.toNat ++ tail)).drop 4 = toBE 4 len.toNat ++ tail :=
    List.drop_left' (length_toBE 4 _)
  have hlen : (toBE 4 len.toNat ++ tail).take 4 = toBE 4 len.toNat := List.take_left' (length_toBE 4 _)
  have hseq : (toBE 4 streamId.toNat ++ (toBE 4 len.toNat ++ tail)).drop 8 = tail := by
    rw [← List.append_assoc]
    exact List.drop_left' (by simp)
  simp only [parseHeader, ne_eq, not_true_eq_false, if_false, hflags, hv, Except.bind, if_neg hlong,
    hid, hdrop, hlen, hseq, ofNat_ofBE_toBE32]

/-- **Parsing undoes building.** -/
theorem parseHeader_headerBytes (hv : frameHeaderLenForVersion version = .ok headerLen)
    (hflags : flags &&& ~~~supportedFrameFlags = 0) (hlen : payloadLen < 2 ^ 32) :
    parseHeader ((headerBytes version streamId seq flags payloadLen).take headerLen) version =
      .ok (streamId, headerSeq version seq, flags, payloadLen) := by
  have hcast : (UInt32.ofNat payloadLen).toNat = payloadLen := UInt32.toNat_ofNat_of_lt' hlen
  rcases frameHeaderLenForVersion_ok hv with ⟨rfl, rfl⟩ | ⟨rfl, rfl⟩
  · have htake : (headerBytes protocolVersionV2 streamId seq flags payloadLen).take frameHeaderLenV2 =
        protocolVersionV2 :: flags ::
          (toBE 4 streamId.toNat ++ (toBE 4 (UInt32.ofNat payloadLen).toNat ++ [])) := by
      rw [headerBytes, List.append_nil]
      refine congrArg (fun rest => _ :: flags :: rest) ?_
      rw [← List.append_assoc]
      exact List.take_left' (by simp)
    rw [htake, parseHeader_fields hv hflags rfl, hcast]
    rfl
  · rw [List.take_of_length_le (Nat.le_of_eq length_headerBytes), headerBytes,
      parseHeader_fields hv hflags (by simp [protocolVersionV3, frameHeaderLenV3]), hcast, if_pos rfl,
      if_pos rfl, List.take_of_length_le (by simp), ofNat_ofBE_toBE64, headerSeq, if_pos rfl]

end AdaptiveMsg
