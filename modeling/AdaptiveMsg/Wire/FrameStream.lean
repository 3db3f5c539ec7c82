import AdaptiveMsg.Bytes.Reads
import AdaptiveMsg.Wire.Header

/-!
# Wire — the stream of frames

`write_frame_counted` and `read_frame` of `connection.rs` over a transport that delivers the bytes
in any pieces.  A read takes a frame's bytes from the front of the stream and no others
(`readFrame_frameBytes`), so reading until the end gives back what was written, and of a stream that
ends inside a frame the frames before it and an error (`frames_round_trip`).
-/

namespace AdaptiveMsg

open Bytes

structure WireFrame where
  streamId : UInt32
  seq : UInt64
  flags : UInt8
  payload : List UInt8
  deriving DecidableEq, Repr

/-- What frames are read and written by: the codec is the messages' concern. -/
structure ConnConfig where
  version : UInt8
  maxFrame : UInt32
  headerLen : Nat
  headerLen_eq : frameHeaderLenForVersion version = .ok headerLen

namespace ConnConfig

variable (config : ConnConfig)

/-- The bytes that `write_frame_counted` writes. -/
def writeFrame (frame : WireFrame) : Except Error (List UInt8) :=
  (buildHeader config.version frame.streamId frame.seq frame.flags frame.payload.length
    config.maxFrame).map fun header => header.take config.headerLen ++ frame.payload

/-- Frames written one after another. -/
def writeFrames : List WireFrame → Except Error (List UInt8)
  | [] => .ok []
  | frame :: frames =>
    (config.writeFrame frame).bind fun bytes => (writeFrames frames).map (bytes ++ ·)

/-- `read_frame` once it has the header. -/
def readPayload (header : List UInt8) (reader : Reader UInt8) :
    Except Error (Option WireFrame) × Reader UInt8 :=
  match parseHeader header config.version with
  | .error err => (.error err, reader)
  | .ok (streamId, seq, flags, payloadLen) =>
    if UInt32.ofNat payloadLen > config.maxFrame then (.error (.frameTooLarge payloadLen), reader)
    else
      match reader.readFull payloadLen with
      | none => (.error (.io .unexpectedEof), [])
      | some (payload, reader) => (.ok (some ⟨streamId, seq, flags, payload⟩), reader)

/-- The next frame, or none if the stream ended at a frame boundary, and what is left of the
stream. -/
def readFrame (reader : Reader UInt8) : Except Error (Option WireFrame) × Reader UInt8 :=
  let (start, reader) := reader.read config.headerLen
  if start = [] then (.ok none, reader)
  else
    match reader.readFull (config.headerLen - start.length) with
    | none => (.error (.io .unexpectedEof), [])
    | some (rest, reader) => config.readPayload (start ++ rest) reader

variable {config} {reader reader' : Reader UInt8} {frame : WireFrame} {header : List UInt8}

theorem headerLen_pos (config : ConnConfig) : config.headerLen ≠ 0 := by
  rcases frameHeaderLenForVersion_ok config.headerLen_eq with ⟨-, h⟩ | ⟨-, h⟩ <;> rw [h] <;> decide

/-! ### What a read takes -/

theorem readFrame_nil : config.readFrame [] = (.ok none, []) := rfl

/-- The header comes first, whatever the pieces. -/
theorem readFrame_eq (hne : reader.contents ≠ []) :
    config.readFrame reader =
      match reader.readFull config.headerLen with
      | none => (.error (.io .unexpectedEof), [])
      | some (header, reader) => config.readPayload header reader := by
  have hstart : (reader.read config.headerLen).1 ≠ [] := by
    rwa [Ne, Reader.read_eq_nil config.headerLen_pos]
  rw [Reader.readFull_eq_read config.headerLen_pos hne]
  simp only [readFrame, if_neg hstart]
  split
  · rename_i h
    rw [h]
    rfl
  · rename_i h
    rw [h]
    rfl

/-- The stream ends inside the header. -/
theorem readFrame_eof (hne : reader.contents ≠ [])
    (hlt : reader.contents.length < config.headerLen) :
    config.readFrame reader = (.error (.io .unexpectedEof), []) := by
  rw [readFrame_eq hne, Reader.readFull_eq_none hlt]

/-- A whole header is there. -/
theorem readFrame_header (hle : config.headerLen ≤ reader.contents.length) :
    ∃ reader', reader'.contents = reader.contents.drop config.headerLen ∧
      config.readFrame reader =
        config.readPayload (reader.contents.take config.headerLen) reader' := by
  have hne : reader.contents ≠ [] := by
    intro hnil
    rw [hnil] at hle
    exact config.headerLen_pos (Nat.le_zero.1 hle)
  obtain ⟨reader', hr, hc⟩ := Reader.readFull_eq_some hle
  exact ⟨reader', hc, by rw [readFrame_eq hne, hr]⟩

theorem length_readPayload {result : Except Error (Option WireFrame)}
    (h : config.readPayload header reader = (result, reader')) :
    reader'.contents.length ≤ reader.contents.length := by
  simp only [readPayload] at h
  split at h
  · cases h
    exact Nat.le_refl _
  · split at h
    · cases h
      exact Nat.le_refl _
    · split at h
      · cases h
        exact Nat.zero_le _
      · cases h
        rw [(Reader.of_readFull ‹_›).2.2, List.length_drop]
        exact Nat.sub_le _ _

/-- A frame that was read is gone from the stream. -/
theorem length_readFrame (h : config.readFrame reader = (.ok (some frame), reader')) :
    reader'.contents.length < reader.contents.length := by
  by_cases hne : reader.contents = []
  · rw [Reader.contents_eq_nil.1 hne, readFrame_nil] at h
    cases h
  · by_cases hlt : reader.contents.length < config.headerLen
    · rw [readFrame_eof hne hlt] at h
      cases h
    · obtain ⟨reader₁, hc, hr⟩ := readFrame_header (Nat.le_of_not_lt hlt)
      have hle := length_readPayload (hr.symm.trans h)
      rw [hc, List.length_drop] at hle
      exact Nat.lt_of_le_of_lt hle (Nat.sub_lt (List.length_pos_iff.2 hne)
        (Nat.pos_of_ne_zero config.headerLen_pos))

/-- Reads frames until the stream ends or a read fails: the frames, and the error. -/
def readFrames (config : ConnConfig) (reader : Reader UInt8) : List WireFrame × Option Error :=
  match _h : config.readFrame reader with
  | (.ok (some frame), reader') =>
    let rest := config.readFrames reader'
    (frame :: rest.1, rest.2)
  | (.ok none, _) => ([], none)
  | (.error err, _) => ([], some err)
  termination_by reader.contents.length
  decreasing_by exact length_readFrame _h

/-! ### Reading what was written -/

/-- A frame that may be written: its payload is within the limit, and it sets supported flags only. -/
def Accepts (config : ConnConfig) (frame : WireFrame) : Prop :=
  frame.payload.length ≤ config.maxFrame.toNat ∧ frame.flags &&& ~~~supportedFrameFlags = 0

instance (config : ConnConfig) (frame : WireFrame) : Decidable (config.Accepts frame) :=
  inferInstanceAs (Decidable (_ ∧ _))

/-- The frame as it is read: version 2 carries no sequence number. -/
def received (config : ConnConfig) (frame : WireFrame) : WireFrame :=
  { frame with seq := headerSeq config.version frame.seq }

/-- The bytes of a frame. -/
def frameBytes (config : ConnConfig) (frame : WireFrame) : List UInt8 :=
  (headerBytes config.version frame.streamId frame.seq frame.flags frame.payload.length).take
    config.headerLen ++ frame.payload

theorem writeFrame_ok (h : config.Accepts frame) :
    config.writeFrame frame = .ok (config.frameBytes frame) := by
  rw [writeFrame, buildHeader_ok h.1]
  rfl

theorem length_header (config : ConnConfig) (frame : WireFrame) :
    ((headerBytes config.version frame.streamId frame.seq frame.flags frame.payload.length).take
      config.headerLen).length = config.headerLen := by
  rw [List.length_take, length_headerBytes]
  rcases frameHeaderLenForVersion_ok config.headerLen_eq with ⟨-, h⟩ | ⟨-, h⟩ <;> rw [h] <;> rfl

theorem readPayload_header (h : config.Accepts frame) :
    config.readPayload ((headerBytes config.version frame.streamId frame.seq frame.flags
        frame.payload.length).take config.headerLen) reader =
      match reader.readFull frame.payload.length with
      | none => (.error (.io .unexpectedEof), [])
      | some (payload, reader) =>
        (.ok (some { config.received frame with payload := payload }), reader) := by
  have hlt : frame.payload.length < 2 ^ 32 := Nat.lt_of_le_of_lt h.1 config.maxFrame.toNat_lt
  rw [readPayload, parseHeader_headerBytes config.headerLen_eq h.2 hlt]
  simp only [if_neg (not_tooLarge h.1)]
  rfl

/-- A read takes the bytes of one frame from the front of the stream. -/
theorem readFrame_frameBytes {rest : List UInt8} (h : config.Accepts frame)
    (hc : reader.contents = config.frameBytes frame ++ rest) :
    ∃ reader', reader'.contents = rest ∧
      config.readFrame reader = (.ok (some (config.received frame)), reader') := by
  have hlen := length_header config frame
  rw [frameBytes, List.append_assoc] at hc
  have hle : config.headerLen ≤ reader.contents.length := by
    rw [hc, List.length_append, hlen]
    exact Nat.le_add_right _ _
  obtain ⟨reader₁, hc₁, hr⟩ := readFrame_header hle
  rw [hc, List.take_left' hlen, readPayload_header h] at hr
  rw [hc, List.drop_left' hlen] at hc₁
  obtain ⟨reader₂, hf, hc₂⟩ := Reader.readFull_eq_some (r := reader₁) (k := frame.payload.length) (by
    rw [hc₁, List.length_append]
    exact Nat.le_add_right _ _)
  rw [hc₁, List.take_left' rfl] at hf
  rw [hf] at hr
  exact ⟨reader₂, by rw [hc₂, hc₁, List.drop_left' rfl], hr⟩

/-- A stream that ends inside a frame. -/
theorem readFrame_part {part rest : List UInt8} (h : config.Accepts frame) (hne : part ≠ [])
    (hrest : rest ≠ []) (hp : config.frameBytes frame = part ++ rest)
    (hc : reader.contents = part) :
    config.readFrame reader = (.error (.io .unexpectedEof), []) := by
  subst hc
  by_cases hlt : reader.contents.length < config.headerLen
  · exact readFrame_eof hne hlt
  · have hle := Nat.le_of_not_lt hlt
    have hlen := length_header config frame
    obtain ⟨reader₁, hc₁, hr⟩ := readFrame_header hle
    have hheader := congrArg (List.take config.headerLen) hp
    rw [frameBytes, List.take_left' hlen, List.take_append_of_le_length hle] at hheader
    have hshort : reader₁.contents.length < frame.payload.length := by
      have htotal := congrArg List.length hp
      rw [frameBytes, List.length_append, List.length_append, hlen] at htotal
      have hpos := List.length_pos_iff.2 hrest
      rw [hc₁, List.length_drop]
      omega
    rw [hr, ← hheader, readPayload_header h, Reader.readFull_eq_none hshort]

/-- A frame that announces too much is rejected once its header is read. -/
theorem readFrame_tooLarge {rest : List UInt8} {streamId : UInt32} {seq : UInt64} {flags : UInt8}
    {payloadLen : Nat} (hlen : header.length = config.headerLen)
    (hparse : parseHeader header config.version = .ok (streamId, seq, flags, payloadLen))
    (hlarge : UInt32.ofNat payloadLen > config.maxFrame) (hc : reader.contents = header ++ rest) :
    ∃ reader', reader'.contents = rest ∧
      config.readFrame reader = (.error (.frameTooLarge payloadLen), reader') := by
  have hle : config.headerLen ≤ reader.contents.length := by
    rw [hc, List.length_append, hlen]
    exact Nat.le_add_right _ _
  obtain ⟨reader₁, hc₁, hr⟩ := readFrame_header hle
  rw [hc, List.take_left' hlen, readPayload, hparse] at hr
  rw [hc, List.drop_left' hlen] at hc₁
  exact ⟨reader₁, hc₁, hr.trans (if_pos hlarge)⟩

/-! ### Whole streams -/

theorem readFrames_some (h : config.readFrame reader = (.ok (some frame), reader')) :
    config.readFrames reader =
      (frame :: (config.readFrames reader').1, (config.readFrames reader').2) := by
  rw [readFrames]
  split
  · rename_i h'
    cases h.symm.trans h'
    rfl
  · rename_i h'
    cases h.symm.trans h'
  · rename_i h'
    cases h.symm.trans h'

theorem readFrames_nil (hc : reader.contents = []) : config.readFrames reader = ([], none) := by
  rw [readFrames, Reader.contents_eq_nil.1 hc]
  rfl

theorem readFrames_error {err : Error} (h : config.readFrame reader = (.error err, reader')) :
    config.readFrames reader = ([], some err) := by
  rw [readFrames]
  split
  · rename_i h'
    cases h.symm.trans h'
  · rename_i h'
    cases h.symm.trans h'
  · rename_i h'
    cases h.symm.trans h'
    rfl

theorem writeFrames_ok {frames : List WireFrame} (h : ∀ frame ∈ frames, config.Accepts frame) :
    config.writeFrames frames = .ok (frames.flatMap config.frameBytes) := by
  induction frames with
  | nil => rfl
  | cons frame frames ih =>
      rw [List.forall_mem_cons] at h
      rw [writeFrames, writeFrame_ok h.1, ih h.2]
      rfl

/-- The frames at the front of a stream are read first. -/
theorem readFrames_append {frames : List WireFrame} {rest : List UInt8}
    (h : ∀ frame ∈ frames, config.Accepts frame)
    (hc : reader.contents = frames.flatMap config.frameBytes ++ rest) :
    ∃ reader', reader'.contents = rest ∧ config.readFrames reader =
      (frames.map config.received ++ (config.readFrames reader').1,
        (config.readFrames reader').2) := by
  induction frames generalizing reader with
  | nil => exact ⟨reader, hc, rfl⟩
  | cons frame frames ih =>
      rw [List.forall_mem_cons] at h
      rw [List.flatMap_cons, List.append_assoc] at hc
      obtain ⟨reader₁, hc₁, hr⟩ := readFrame_frameBytes h.1 hc
      obtain ⟨reader', hc', hrs⟩ := ih h.2 hc₁
      exact ⟨reader', hc', by rw [readFrames_some hr, hrs, List.map_cons, List.cons_append]⟩

/-- What the bytes of these frames are read as, in any pieces: all of them if the stream is whole,
those before the cut and then an error if it ends inside a frame. -/
structure ReadsBack (config : ConnConfig) (frames : List WireFrame) (bytes : List UInt8) : Prop where
  whole : ∀ reader : Reader UInt8, reader.contents = bytes →
    config.readFrames reader = (frames.map config.received, none)
  cut : ∀ before frame after, frames = before ++ frame :: after → ∀ done last,
    config.writeFrames before = .ok done → config.writeFrame frame = .ok last →
    ∀ n, 0 < n → n < last.length → ∀ reader : Reader UInt8, reader.contents = done ++ last.take n →
      config.readFrames reader = (before.map config.received, some (.io .unexpectedEof))

/-- A frame whose header announces more than the limit is an error, and its payload is left unread. -/
def RejectsTooLarge (config : ConnConfig) : Prop :=
  ∀ (header rest : List UInt8) streamId seq flags payloadLen, header.length = config.headerLen →
    parseHeader header config.version = .ok (streamId, seq, flags, payloadLen) →
    UInt32.ofNat payloadLen > config.maxFrame →
    ∀ reader : Reader UInt8, reader.contents = header ++ rest →
      ∃ reader', reader'.contents = rest ∧
        config.readFrame reader = (.error (.frameTooLarge payloadLen), reader')

/-- **Reading undoes writing**, however the stream arrives. -/
theorem frames_round_trip (config : ConnConfig) (frames : List WireFrame)
    (h : ∀ frame ∈ frames, config.Accepts frame) :
    (∃ bytes, config.writeFrames frames = .ok bytes ∧ config.ReadsBack frames bytes) ∧
      config.RejectsTooLarge := by
  refine ⟨⟨_, writeFrames_ok h, ?_, ?_⟩, ?_⟩
  · intro reader hc
    obtain ⟨reader', hc', hr⟩ := readFrames_append h (hc.trans (List.append_nil _).symm)
    rw [hr, readFrames_nil hc', List.append_nil]
  · rintro before frame after rfl done last hdone hlast n hpos hlt reader hc
    rw [List.forall_mem_append, List.forall_mem_cons] at h
    cases (writeFrames_ok h.1).symm.trans hdone
    cases (writeFrame_ok h.2.1).symm.trans hlast
    have hne : (config.frameBytes frame).take n ≠ [] := by
      rw [Ne, List.take_eq_nil_iff, not_or]
      exact ⟨Nat.ne_of_gt hpos, List.ne_nil_of_length_pos (Nat.zero_lt_of_lt hlt)⟩
    have hrest : (config.frameBytes frame).drop n ≠ [] := by
      rwa [Ne, List.drop_eq_nil_iff, Nat.not_le]
    obtain ⟨reader', hc', hr⟩ := readFrames_append h.1 hc
    have herr := readFrame_part h.2.1 hne hrest (List.take_append_drop n _).symm hc'
    rw [hr, readFrames_error herr, List.append_nil]
  · intro header rest streamId seq flags payloadLen hlen hparse hlarge reader hc
    exact readFrame_tooLarge hlen hparse hlarge hc

/-- Version 2 with a limit of 1024 bytes. -/
def smallConfig : ConnConfig := ⟨protocolVersionV2, 1024, frameHeaderLenV2, rfl⟩

theorem frames_round_trip_fin :
    (∃ bytes, smallConfig.writeFrames [⟨7, 0, 0, [1, 2, 3]⟩, ⟨7, 0, frameFlagFin, []⟩] = .ok bytes ∧
      smallConfig.ReadsBack [⟨7, 0, 0, [1, 2, 3]⟩, ⟨7, 0, frameFlagFin, []⟩] bytes) ∧
      smallConfig.RejectsTooLarge :=
  frames_round_trip smallConfig [⟨7, 0, 0, [1, 2, 3]⟩, ⟨7, 0, frameFlagFin, []⟩] (by decide)

end ConnConfig

end AdaptiveMsg
