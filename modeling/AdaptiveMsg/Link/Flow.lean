import AdaptiveMsg.Link.Plain

/-!
# Link — the bytes of the frames on their way

What the reader has of a frame and what is still to come are together the bytes of the frames that
were taken and not handed over yet (`Flow`).  Whatever piece the reader gets next, it goes on in the
same frame or hands over exactly that frame (`Flow.header`, `Flow.payload`), and where nothing is to
come it has handed over all (`Flow.atEnd`).
-/

namespace AdaptiveMsg.Link

variable {config : ConnConfig}

/-! ### The frames of a queue -/

/-- The frames in front of the close marker. -/
def plainFrames : List OutboundFrame → List WireFrame
  | [] => []
  | .plain streamId flags payload :: rest => plainFrame streamId flags payload :: plainFrames rest
  | .close :: _ => []

theorem plainFrames_append {l l' : List OutboundFrame} (h : .close ∉ l) :
    plainFrames (l ++ l') = plainFrames l ++ plainFrames l' := by
  induction l with
  | nil => rfl
  | cons e l ih =>
      rw [List.mem_cons, not_or] at h
      cases e with
      | plain streamId flags payload =>
          rw [List.cons_append, plainFrames, plainFrames, ih h.2, List.cons_append]
      | close => exact absurd rfl h.1

/-- What stands behind the marker is not among them. -/
theorem plainFrames_append_of_close {l : List OutboundFrame} (h : .close ∈ l)
    (l' : List OutboundFrame) : plainFrames (l ++ l') = plainFrames l := by
  induction l with
  | nil => cases h
  | cons e l ih =>
      cases e with
      | plain streamId flags payload =>
          have h : .close ∈ l := (List.mem_cons.mp h).resolve_left nofun
          rw [List.cons_append, plainFrames, plainFrames, ih h]
      | close => rfl

theorem plainFrames_le (l l' : List OutboundFrame) :
    plainFrames l <+: plainFrames (l ++ l') := by
  by_cases h : .close ∈ l
  · exact (plainFrames_append_of_close h l') ▸ List.prefix_rfl
  · rw [plainFrames_append h]
    exact List.prefix_append _ _

/-- An entry that `send_boxed`, `send_fin` or `close` may queue. -/
def Sendable (config : ConnConfig) : OutboundFrame → Prop
  | .plain streamId flags payload => config.Accepts (plainFrame streamId flags payload)
  | .close => True

theorem sendable_message {streamId : UInt32} {payload : List UInt8}
    (h : payload.length ≤ config.maxFrame.toNat) : Sendable config (.plain streamId 0 payload) :=
  ⟨h, show (0 : UInt8) &&& ~~~supportedFrameFlags = 0 by decide⟩

theorem sendable_fin (streamId : UInt32) : Sendable config (.plain streamId frameFlagFin []) :=
  ⟨Nat.zero_le _, show frameFlagFin &&& ~~~supportedFrameFlags = 0 by decide⟩

/-- What a frame on the way is like: v2 writes no number. -/
def Plain (config : ConnConfig) (frame : WireFrame) : Prop := config.Accepts frame ∧ frame.seq = 0

theorem plain_of_sendable {l : List OutboundFrame} (h : ∀ e ∈ l, Sendable config e) :
    ∀ frame ∈ plainFrames l, Plain config frame := by
  induction l with
  | nil => exact nofun
  | cons e l ih =>
      rw [List.forall_mem_cons] at h
      cases e with
      | plain streamId flags payload =>
          rw [plainFrames, List.forall_mem_cons]
          exact ⟨⟨h.1, rfl⟩, ih h.2⟩
      | close => exact nofun

/-! ### Bytes on the way -/

/-- The header of a frame on the wire. -/
def wireHeader (config : ConnConfig) (streamId : UInt32) (seq : UInt64) (flags : UInt8)
    (len : Nat) : List UInt8 :=
  (headerBytes config.version streamId seq flags len).take config.headerLen

theorem frameBytes_eq (frame : WireFrame) : config.frameBytes frame =
    wireHeader config frame.streamId frame.seq frame.flags frame.payload.length ++ frame.payload :=
  rfl

theorem length_wireHeader (frame : WireFrame) :
    (wireHeader config frame.streamId frame.seq frame.flags frame.payload.length).length =
      config.headerLen :=
  config.length_header frame

/-- What the writer has yet to write of the frame it is at. -/
def WriterPc.bytes (config : ConnConfig) : WriterPc → List UInt8
  | .next (.plain streamId flags payload) => config.frameBytes (plainFrame streamId flags payload)
  | .writing rest => rest
  | _ => []

/-- `part` is what the reader has of the first of the frames that are not handed over. -/
def ReaderPc.Has (config : ConnConfig) (frames : List WireFrame) (part : List UInt8) :
    ReaderPc → Prop
  | .header got => part = got ∧ got.length < config.headerLen
  | .payload streamId seq flags len got =>
    part = wireHeader config streamId seq flags len ++ got ∧ got.length < len ∧
      ∃ frame rest, frames = frame :: rest ∧ frame.streamId = streamId ∧ frame.seq = seq ∧
        frame.flags = flags ∧ frame.payload.length = len
  | .accepting _ | .ended (.ok _) => part = []
  | .ended (.error _) | .aborted => True

/-- A reader at work. -/
def Live (pc : ReaderPc) : Prop := (∀ result, pc ≠ .ended result) ∧ pc ≠ .aborted

/-- Of `frames`, `handed` were handed over, the reader has a part of the next one, and `tail` is the
rest of their bytes. -/
def Flow (config : ConnConfig) (frames handed : List WireFrame) (reader : ReaderPc)
    (tail : List UInt8) : Prop :=
  ∃ part rest, frames = handed ++ rest ∧ part ++ tail = rest.flatMap config.frameBytes ∧
    reader.Has config rest part

namespace Flow

variable {frames handed : List WireFrame} {reader reader' : ReaderPc} {tail chunk : List UInt8}
variable {frame : WireFrame}

theorem handed_le (h : Flow config frames handed reader tail) : handed <+: frames := by
  obtain ⟨_, rest, rfl, -, -⟩ := h
  exact List.prefix_append _ _

/-- One more frame is taken. -/
theorem snoc (h : Flow config frames handed reader tail) (frame : WireFrame) :
    Flow config (frames ++ [frame]) handed reader (tail ++ config.frameBytes frame) := by
  obtain ⟨part, rest, rfl, hb, hr⟩ := h
  refine ⟨part, rest ++ [frame], List.append_assoc _ _ _, ?_, ?_⟩
  · rw [← List.append_assoc, hb, List.flatMap_append, List.flatMap_singleton]
  · cases reader with
    | payload streamId seq flags len got =>
        obtain ⟨hp, hlt, next, more, rfl, hf⟩ := hr
        exact ⟨hp, hlt, next, more ++ [frame], rfl, hf⟩
    | ended result =>
        cases result with
        | ok => exact hr
        | error => trivial
    | _ => exact hr

/-- The frames that a reader has handed over, once it is at `pc`. -/
def handedAt (handed : List WireFrame) : ReaderPc → List WireFrame
  | .accepting frame => handed ++ [frame]
  | _ => handed

/-- The reader has the header of the next frame, and some of its payload. -/
theorem payloadPc {rest : List WireFrame} {got : List UInt8}
    (hle : got.length ≤ frame.payload.length)
    (hb : wireHeader config frame.streamId frame.seq frame.flags frame.payload.length ++ got ++ tail
      = (frame :: rest).flatMap config.frameBytes) :
    Live (Link.payloadPc frame.streamId frame.seq frame.flags frame.payload.length got) ∧
    Flow config (handed ++ frame :: rest)
      (handedAt handed (payloadPc frame.streamId frame.seq frame.flags frame.payload.length got))
      (Link.payloadPc frame.streamId frame.seq frame.flags frame.payload.length got) tail := by
  rw [Link.payloadPc]
  split
  · rename_i hlt
    exact ⟨⟨nofun, nofun⟩, _, frame :: rest, rfl, hb, rfl, hlt, frame, rest, rfl, rfl, rfl, rfl,
      rfl⟩
  · rename_i hge
    rw [List.flatMap_cons, frameBytes_eq, List.append_assoc, List.append_assoc,
      List.append_cancel_left_eq] at hb
    obtain ⟨rfl, htail⟩ := List.append_inj hb (Nat.le_antisymm hle (Nat.le_of_not_lt hge))
    exact ⟨⟨nofun, nofun⟩, [], rest, List.append_cons _ _ _, htail, rfl⟩

/-- A piece of the header arrives. -/
theorem header {got : List UInt8} (hplain : ∀ frame ∈ frames, Plain config frame)
    (h : Flow config frames handed (.header got) (chunk ++ tail))
    (hle : chunk.length ≤ config.headerLen - got.length) :
    Live (headerPc config (got ++ chunk)) ∧
    Flow config frames (handedAt handed (headerPc config (got ++ chunk)))
      (headerPc config (got ++ chunk)) tail := by
  obtain ⟨part, rest, rfl, hb, rfl, hlt⟩ := h
  rw [← List.append_assoc] at hb
  rw [headerPc]
  split
  · rename_i hlt'
    exact ⟨⟨nofun, nofun⟩, _, rest, rfl, hb, rfl, hlt'⟩
  · rename_i hge
    have hlen : (part ++ chunk).length = config.headerLen := by
      rw [List.length_append] at hge ⊢
      omega
    cases rest with
    | nil =>
        have h0 := congrArg List.length hb
        rw [List.length_append, hlen] at h0
        exact absurd (Nat.eq_zero_of_add_eq_zero_right h0) config.headerLen_pos
    | cons frame rest =>
        obtain ⟨hacc, hseq⟩ := hplain frame (by simp)
        have hb' := hb
        rw [List.flatMap_cons, frameBytes_eq, List.append_assoc (wireHeader ..)] at hb'
        obtain ⟨hhead, -⟩ := List.append_inj hb' (hlen.trans (length_wireHeader frame).symm)
        have hmax : frame.payload.length < 2 ^ 32 :=
          Nat.lt_of_le_of_lt hacc.1 config.maxFrame.toNat_lt
        have hzero : headerSeq config.version frame.seq = frame.seq := by
          rw [hseq, headerSeq, ite_self]
        rw [hhead, wireHeader, parseHeader_headerBytes config.headerLen_eq hacc.2 hmax, hzero]
        simp only [if_neg (not_tooLarge hacc.1)]
        refine payloadPc (Nat.zero_le _) ?_
        rw [List.append_nil, ← hhead, hb]

/-- A piece of the payload arrives. -/
theorem payload {streamId : UInt32} {seq : UInt64} {flags : UInt8} {len : Nat} {got : List UInt8}
    (h : Flow config frames handed (.payload streamId seq flags len got) (chunk ++ tail))
    (hle : chunk.length ≤ len - got.length) :
    Live (Link.payloadPc streamId seq flags len (got ++ chunk)) ∧
    Flow config frames (handedAt handed (Link.payloadPc streamId seq flags len (got ++ chunk)))
      (Link.payloadPc streamId seq flags len (got ++ chunk)) tail := by
  obtain ⟨part, _, rfl, hb, rfl, hlt, frame, rest, rfl, rfl, rfl, rfl, rfl⟩ := h
  refine payloadPc ?_ ?_
  · rw [List.length_append]
    omega
  · rw [← List.append_assoc] at hb
    rwa [← List.append_assoc]

/-- Nothing more comes: the reader is between two frames, and has handed all of them over, or is
inside of one. -/
theorem atEnd (h : Flow config frames handed reader [])
    (hlive : ∀ err, reader ≠ .ended (.error err)) (hab : reader ≠ .aborted) :
    (handed = frames ∧ ∀ got, reader = .header got → got = []) ∧
      ∀ streamId seq flags len got, reader ≠ .payload streamId seq flags len got := by
  obtain ⟨part, rest, rfl, hb, hr⟩ := h
  rw [List.append_nil] at hb
  have hlong : ∀ frame more, rest = frame :: more →
      part.length = config.headerLen + frame.payload.length +
        (more.flatMap config.frameBytes).length := by
    rintro frame more rfl
    rw [hb, List.flatMap_cons, frameBytes_eq, List.length_append, List.length_append,
      length_wireHeader]
  cases reader with
  | header got =>
      obtain ⟨rfl, hlt⟩ := hr
      cases rest with
      | nil => exact ⟨⟨(List.append_nil _).symm, fun got he => by cases he; exact hb⟩, nofun⟩
      | cons frame more =>
          have h := hlong frame more rfl
          omega
  | payload streamId seq flags len got =>
      obtain ⟨rfl, hlt, frame, more, rfl, rfl, rfl, rfl, rfl⟩ := hr
      have h := hlong frame more rfl
      rw [List.length_append, length_wireHeader] at h
      omega
  | accepting frame =>
      have hr : part = [] := hr
      cases rest with
      | nil => exact ⟨⟨(List.append_nil _).symm, nofun⟩, nofun⟩
      | cons frame more =>
          have h := hlong frame more rfl
          have hpos := Nat.pos_of_ne_zero config.headerLen_pos
          rw [hr, List.length_nil] at h
          omega
  | ended result =>
      cases result with
      | ok u =>
          have hr : part = [] := hr
          cases rest with
          | nil => exact ⟨⟨(List.append_nil _).symm, nofun⟩, nofun⟩
          | cons frame more =>
              have h := hlong frame more rfl
              have hpos := Nat.pos_of_ne_zero config.headerLen_pos
              rw [hr, List.length_nil] at h
              omega
      | error err => exact absurd rfl (hlive err)
  | aborted => exact absurd rfl hab

end Flow

end AdaptiveMsg.Link
