import AdaptiveMsg.Bytes.Reads
import AdaptiveMsg.Wire.Header

/-!
# Wire — the handshake

`handshake_client` and `handshake_server` of `protocol.rs`, and the fallback of
`Client::connect_attempt` from version 3 to version 2 on a fresh connection.  Pipes are reliable and
deliver in any pieces; a side that fails closes its pipe.  Both sides wait for bytes only, so what
they answer is determined by the bytes that each has been sent.

* `handshake_consumes`: a server that replies has read the request and no byte more.
* `handshake_agrees`: both sides agree on the version, the codec and the limit, or neither succeeds,
  which is so iff a codec list is invalid or they share no codec.
-/

namespace AdaptiveMsg

open Bytes

structure HandshakeConfig where
  version : UInt8
  codecId : UInt8
  maxFrame : UInt32
  deriving DecidableEq, Repr

/-- What a side is configured with: the codecs it offers, those its process has registered, and
whether it enables recovery. -/
structure HandshakeOptions where
  registered : UInt8 → Bool
  codecs : List UInt8
  maxFrame : UInt32
  recovery : Bool

def handshakeHeaderLen : Nat := 12
def maxCodecCount : Nat := 16

def handshakeMagic : List UInt8 := [65, 77]

def isSupportedProtocolVersion (version : UInt8) : Bool :=
  version = protocolVersionV2 || version = protocolVersionV3

def supportedProtocolVersion (recoveryEnabled : Bool) : UInt8 :=
  if recoveryEnabled then protocolVersionV3 else protocolVersionV2

namespace HandshakeOptions

variable (opts : HandshakeOptions)

/-- The loop of `validate_codec_list`. -/
def validateCodecs : List UInt8 → Except Error Unit
  | [] => .ok ()
  | codec :: codecs =>
    if codec = 0 then .error (.invalidMessage "codec ID must be non-zero")
    else if !opts.registered codec then .error (.unsupportedCodec codec)
    else validateCodecs codecs

def validateCodecList : Except Error Unit :=
  if opts.codecs = [] then .error (.invalidMessage "codec list must be non-empty")
  else if opts.codecs.length > maxCodecCount then .error (.tooManyCodecs opts.codecs.length)
  else opts.validateCodecs opts.codecs

end HandshakeOptions

/-! ### The client -/

def requestHeader (version codecCount : UInt8) (maxFrame : UInt32) : List UInt8 :=
  handshakeMagic ++ ([version, codecCount, 0, 0, 0, 0] ++ toBE 4 maxFrame.toNat)

def handshakeRequest (version : UInt8) (codecs : List UInt8) (maxFrame : UInt32) : List UInt8 :=
  requestHeader version (UInt8.ofNat codecs.length) maxFrame ++ codecs

namespace HandshakeOptions

variable (opts : HandshakeOptions)

/-- `handshake_client` up to its read: the bytes it writes. -/
def clientRequest (version : UInt8) : Except Error (List UInt8) :=
  match opts.validateCodecList with
  | .error err => .error err
  | .ok () =>
    if !isSupportedProtocolVersion version then .error (.unsupportedFrameVersion version)
    else .ok (handshakeRequest version opts.codecs opts.maxFrame)

/-- `handshake_client` from its read on, and what is left unread. -/
def clientResponse (requested : UInt8) (reader : Reader UInt8) :
    Except Error HandshakeConfig × Reader UInt8 :=
  match reader.readFull handshakeHeaderLen with
  | none => (.error (.io .unexpectedEof), [])
  | some (response, reader) =>
    let accept := response.getD 2 0
    let version := response.getD 3 0
    let selected := response.getD 4 0
    let serverMax := UInt32.ofNat (ofBE (response.drop 8))
    if response.take 2 ≠ handshakeMagic then (.error .badHandshakeMagic, reader)
    else if version ≠ requested then (.error (.unsupportedFrameVersion version), reader)
    else if accept = 0 then (.error .noCommonCodec, reader)
    else if selected ∉ opts.codecs then (.error .noCommonCodec, reader)
    else if !opts.registered selected then (.error (.unsupportedCodec selected), reader)
    else (.ok ⟨version, selected, serverMax⟩, reader)

end HandshakeOptions

/-! ### The server -/

def negotiateMaxFrame (clientMax serverMax : UInt32) : UInt32 :=
  if clientMax = 0 then 0 else if clientMax < serverMax then clientMax else serverMax

def handshakeReply (accept version codecId : UInt8) (maxFrame : UInt32) : List UInt8 :=
  handshakeMagic ++ ([accept, version, codecId, 0, 0, 0] ++ toBE 4 maxFrame.toNat)

/-- The first of the client's codecs that is supported. -/
def selectCodec (clientCodecs supported : List UInt8) : Option UInt8 :=
  clientCodecs.findSome? fun raw => supported.find? fun sup => raw = sup

/-- What a server ends with: its result, what it has written, and what is left unread. -/
abbrev ServerResult := Except Error HandshakeConfig × List UInt8 × Reader UInt8

/-- `read_exact`, and then the rest of the server. -/
def readThen (reader : Reader UInt8) (k : Nat) (rest : List UInt8 → Reader UInt8 → ServerResult) :
    ServerResult :=
  match reader.readFull k with
  | none => (.error (.io .unexpectedEof), [], [])
  | some (bytes, reader) => rest bytes reader

namespace HandshakeOptions

variable (opts : HandshakeOptions)

/-- `handshake_server` once it has the header of the request. -/
def serverAnswer (request : List UInt8) (reader : Reader UInt8) : ServerResult :=
  let version := request.getD 2 0
  let codecCount := (request.getD 3 0).toNat
  let clientMax := UInt32.ofNat (ofBE (request.drop 8))
  if request.take 2 ≠ handshakeMagic then (.error .badHandshakeMagic, [], reader)
  else if !isSupportedProtocolVersion version ∨ version = protocolVersionV3 ∧ !opts.recovery then
    readThen reader codecCount fun _ reader =>
      (.error (.unsupportedFrameVersion version),
        handshakeReply 0 (supportedProtocolVersion opts.recovery) 0 0, reader)
  else if codecCount = 0 then (.error .noCommonCodec, handshakeReply 0 version 0 0, reader)
  else if codecCount > maxCodecCount then
    readThen reader codecCount fun _ reader =>
      (.error (.tooManyCodecs codecCount), handshakeReply 0 version 0 0, reader)
  else
    readThen reader codecCount fun clientCodecs reader =>
      match selectCodec clientCodecs opts.codecs with
      | none => (.error .noCommonCodec, handshakeReply 0 version 0 0, reader)
      | some selected =>
        let maxFrame := negotiateMaxFrame clientMax opts.maxFrame
        let result := if !opts.registered selected then .error (.unsupportedCodec selected)
          else .ok ⟨version, selected, maxFrame⟩
        (result, handshakeReply 1 version selected maxFrame, reader)

def handshakeServer (reader : Reader UInt8) : ServerResult :=
  match opts.validateCodecList with
  | .error err => (.error err, [], reader)
  | .ok () => readThen reader handshakeHeaderLen opts.serverAnswer

end HandshakeOptions

/-! ### A connection attempt -/

/-- A reliable pipe, and the pieces in which it delivers what was written to it. -/
structure Pipe where
  deliver : List UInt8 → Reader UInt8
  contents_deliver : ∀ bytes, (deliver bytes).contents = bytes

/-- A fresh connection: the pipes to the server and to the client. -/
structure Pipes where
  toServer : Pipe
  toClient : Pipe

/-- The handshake on one connection: what each side ends with.  A client that fails at once closes
a pipe to which it has written nothing. -/
def handshake (client server : HandshakeOptions) (pipes : Pipes) (version : UInt8) :
    Except Error HandshakeConfig × Except Error HandshakeConfig :=
  match client.clientRequest version with
  | .error err => (.error err, (server.handshakeServer (pipes.toServer.deliver [])).1)
  | .ok request =>
    let (result, reply, _) := server.handshakeServer (pipes.toServer.deliver request)
    ((client.clientResponse version (pipes.toClient.deliver reply)).1, result)

/-- `connect_attempt`, whose last error is `lastErr`: each version gets a connection of its own.
What each side of the last one ends with. -/
def connectAttempt (client server : HandshakeOptions) (pipes : UInt8 → Pipes) :
    List UInt8 → Except Error HandshakeConfig × Except Error HandshakeConfig →
      Except Error HandshakeConfig × Except Error HandshakeConfig
  | [], last => last
  | version :: versions, _ =>
    match handshake client server (pipes version) version with
    | (.error err, result) =>
      if version = protocolVersionV3 ∧ err = .unsupportedFrameVersion protocolVersionV2 then
        connectAttempt client server pipes versions (.error err, result)
      else (.error err, result)
    | done => done

/-- The versions that a client offers, in turn. -/
def HandshakeOptions.versions (opts : HandshakeOptions) : List UInt8 :=
  if opts.recovery then [protocolVersionV3, protocolVersionV2] else [protocolVersionV2]

def connect (client server : HandshakeOptions) (pipes : UInt8 → Pipes) :
    Except Error HandshakeConfig × Except Error HandshakeConfig :=
  connectAttempt client server pipes client.versions (.error .closed, .error .closed)

/-! ### What a server reads -/

variable {client server opts : HandshakeOptions} {version : UInt8} {reader left : Reader UInt8}
  {result : Except Error HandshakeConfig} {reply : List UInt8} {pipes : Pipes}

/-- A server that replies after a read has what it asked for. -/
theorem readThen_reply {k : Nat} {rest : List UInt8 → Reader UInt8 → ServerResult}
    (h : readThen reader k rest = (result, reply, left)) (hr : reply ≠ []) :
    k ≤ reader.contents.length ∧ ∃ reader', reader'.contents = reader.contents.drop k ∧
      rest (reader.contents.take k) reader' = (result, reply, left) := by
  simp only [readThen] at h
  split at h
  · cases h
    exact absurd rfl hr
  · obtain ⟨hle, rfl, hc⟩ := Reader.of_readFull ‹_›
    exact ⟨hle, _, hc, h⟩

/-- The number of codecs that a request announces. -/
def requestCodecCount (request : List UInt8) : Nat := (request.getD 3 0).toNat

/-- After the header, a server that replies has read the list of codecs. -/
theorem serverAnswer_consumes {request : List UInt8}
    (h : opts.serverAnswer request reader = (result, reply, left)) (hr : reply ≠ []) :
    requestCodecCount request ≤ reader.contents.length ∧
      left.contents = reader.contents.drop (requestCodecCount request) := by
  simp only [HandshakeOptions.serverAnswer] at h
  split at h
  · cases h
    exact absurd rfl hr
  · split at h
    · obtain ⟨hle, reader', hc, h⟩ := readThen_reply h hr
      cases h
      exact ⟨hle, hc⟩
    · split at h
      · cases h
        rename_i h0
        rw [requestCodecCount, h0]
        exact ⟨Nat.zero_le _, rfl⟩
      · split at h
        · obtain ⟨hle, reader', hc, h⟩ := readThen_reply h hr
          cases h
          exact ⟨hle, hc⟩
        · obtain ⟨hle, reader', hc, h⟩ := readThen_reply h hr
          split at h
          · cases h
            exact ⟨hle, hc⟩
          · cases h
            exact ⟨hle, hc⟩

/-- **A server that replies has read the request and no byte more.** -/
theorem handshake_consumes (h : opts.handshakeServer reader = (result, reply, left))
    (hr : reply ≠ []) :
    handshakeHeaderLen + requestCodecCount reader.contents ≤ reader.contents.length ∧
      left.contents =
        reader.contents.drop (handshakeHeaderLen + requestCodecCount reader.contents) := by
  simp only [HandshakeOptions.handshakeServer] at h
  split at h
  · cases h
    exact absurd rfl hr
  · obtain ⟨hle, reader', hc, h⟩ := readThen_reply h hr
    obtain ⟨hle', hc'⟩ := serverAnswer_consumes h hr
    have hcount : requestCodecCount (reader.contents.take handshakeHeaderLen) =
        requestCodecCount reader.contents := by
      simp [requestCodecCount, handshakeHeaderLen]
    rw [hcount, hc] at hle' hc'
    rw [List.length_drop] at hle'
    rw [List.drop_drop] at hc'
    exact ⟨Nat.add_le_of_le_sub' hle hle', hc'⟩

/-! ### Valid lists -/

namespace HandshakeOptions

def Valid (opts : HandshakeOptions) : Prop :=
  opts.codecs ≠ [] ∧ opts.codecs.length ≤ maxCodecCount ∧
    ∀ codec ∈ opts.codecs, codec ≠ 0 ∧ opts.registered codec = true

instance (opts : HandshakeOptions) : Decidable opts.Valid :=
  letI := List.decidableBAll (fun codec => codec ≠ 0 ∧ opts.registered codec = true) opts.codecs
  inferInstanceAs (Decidable (_ ∧ _ ∧ _))

theorem validateCodecs_ok (codecs : List UInt8) :
    opts.validateCodecs codecs = .ok () ↔
      ∀ codec ∈ codecs, codec ≠ 0 ∧ opts.registered codec = true := by
  induction codecs with
  | nil => simp [validateCodecs]
  | cons codec codecs ih =>
      rw [List.forall_mem_cons, validateCodecs]
      by_cases h0 : codec = 0
      · simp [h0]
      · cases hreg : opts.registered codec with
        | false => simp [h0]
        | true => simp [h0, ih]

theorem validateCodecList_ok : opts.validateCodecList = .ok () ↔ opts.Valid := by
  rw [validateCodecList, Valid]
  by_cases hnil : opts.codecs = []
  · simp [hnil]
  · by_cases hlong : opts.codecs.length > maxCodecCount
    · rw [if_neg hnil, if_pos hlong]
      exact ⟨nofun, fun h => absurd h.2.1 (Nat.not_le_of_lt hlong)⟩
    · rw [if_neg hnil, if_neg hlong, validateCodecs_ok]
      exact ⟨fun h => ⟨hnil, Nat.le_of_not_lt hlong, h⟩, fun h => h.2.2⟩

theorem validateCodecList_error (h : ¬opts.Valid) : ∃ err, opts.validateCodecList = .error err := by
  cases hv : opts.validateCodecList with
  | error err => exact ⟨err, rfl⟩
  | ok _ => exact absurd (validateCodecList_ok.1 hv) h

end HandshakeOptions

/-! ### What each side answers -/

theorem find?_eq_mem (raw : UInt8) (supported : List UInt8) :
    (supported.find? fun sup => raw = sup) = if raw ∈ supported then some raw else none := by
  induction supported with
  | nil => rfl
  | cons sup supported ih =>
      rw [List.find?_cons]
      by_cases h : raw = sup
      · simp [h]
      · simp [h, ih]

theorem selectCodec_eq (clientCodecs supported : List UInt8) :
    selectCodec clientCodecs supported = clientCodecs.find? fun codec => codec ∈ supported := by
  induction clientCodecs with
  | nil => rfl
  | cons raw clientCodecs ih =>
      rw [selectCodec] at ih ⊢
      rw [List.findSome?_cons, List.find?_cons, find?_eq_mem, ih]
      by_cases h : raw ∈ supported
      · simp [h]
      · simp [h]

theorem negotiateMaxFrame_eq (clientMax serverMax : UInt32) :
    negotiateMaxFrame clientMax serverMax = min clientMax serverMax := by
  show _ = if clientMax ≤ serverMax then clientMax else serverMax
  rw [negotiateMaxFrame]
  by_cases h0 : clientMax = 0
  · subst h0
    simp
  · grind

/-- The server does not take the version of a request. -/
def HandshakeOptions.Refuses (server : HandshakeOptions) (version : UInt8) : Prop :=
  !isSupportedProtocolVersion version ∨ version = protocolVersionV3 ∧ !server.recovery

instance (server : HandshakeOptions) (version : UInt8) : Decidable (server.Refuses version) :=
  inferInstanceAs (Decidable (_ ∨ _ ∧ _))

/-- The request of a client with a valid list, as the server takes it apart. -/
theorem handshakeServer_request (hs : server.Valid) (hc : client.Valid)
    (hr : reader.contents = handshakeRequest version client.codecs client.maxFrame) :
    ∃ left, server.handshakeServer reader =
      if server.Refuses version then
        (.error (.unsupportedFrameVersion version),
          handshakeReply 0 (supportedProtocolVersion server.recovery) 0 0, left)
      else
        match selectCodec client.codecs server.codecs with
        | none => (.error .noCommonCodec, handshakeReply 0 version 0 0, left)
        | some codec =>
          let maxFrame := negotiateMaxFrame client.maxFrame server.maxFrame
          (if !server.registered codec then .error (.unsupportedCodec codec)
            else .ok ⟨version, codec, maxFrame⟩, handshakeReply 1 version codec maxFrame, left) := by
  -- The header is of fixed length and counts the codecs, so the two reads take the request apart.
  have hlen : (requestHeader version (UInt8.ofNat client.codecs.length) client.maxFrame).length =
      handshakeHeaderLen := by
    simp [requestHeader, handshakeMagic, handshakeHeaderLen]
  have hcount : (UInt8.ofNat client.codecs.length).toNat = client.codecs.length :=
    UInt8.toNat_ofNat_of_lt' (Nat.lt_of_le_of_lt hc.2.1 (by decide))
  rw [handshakeRequest] at hr
  obtain ⟨reader₁, hf₁, hc₁⟩ := Reader.readFull_eq_some (r := reader) (k := handshakeHeaderLen) (by
    rw [hr, List.length_append, hlen]
    exact Nat.le_add_right _ _)
  rw [hr, List.take_left' hlen] at hf₁
  rw [hr, List.drop_left' hlen] at hc₁
  obtain ⟨reader₂, hf₂, -⟩ := Reader.readFull_eq_some (r := reader₁) (k := client.codecs.length)
    (Nat.le_of_eq (congrArg List.length hc₁.symm))
  rw [hc₁, List.take_length] at hf₂
  refine ⟨reader₂, ?_⟩
  have hmax : UInt32.ofNat (ofBE ((requestHeader version (UInt8.ofNat client.codecs.length)
      client.maxFrame).drop 8)) = client.maxFrame := ofNat_ofBE_toBE32 client.maxFrame
  have hmagic : (requestHeader version (UInt8.ofNat client.codecs.length)
      client.maxFrame).take 2 = handshakeMagic := rfl
  have hfields : (requestHeader version (UInt8.ofNat client.codecs.length)
        client.maxFrame).getD 2 0 = version ∧
      (requestHeader version (UInt8.ofNat client.codecs.length)
        client.maxFrame).getD 3 0 = UInt8.ofNat client.codecs.length := ⟨rfl, rfl⟩
  have hread (rest) : readThen reader₁ client.codecs.length rest = rest client.codecs reader₂ := by
    rw [readThen, hf₂]
  rw [HandshakeOptions.handshakeServer, HandshakeOptions.validateCodecList_ok.2 hs]
  simp only [readThen, hf₁]
  simp only [HandshakeOptions.serverAnswer, hfields, hcount, hmagic, hmax, ne_eq, not_true_eq_false,
    if_false, hread, if_neg (List.length_pos_iff.2 hc.1).ne', if_neg (Nat.not_lt_of_le hc.2.1)]
  refine if_congr Iff.rfl rfl ?_
  cases selectCodec client.codecs server.codecs with
  | none => rfl
  | some codec => rfl

/-- What a client makes of a reply. -/
theorem clientResponse_reply {accept answered codec : UInt8} {maxFrame : UInt32}
    (hr : reader.contents = handshakeReply accept answered codec maxFrame) :
    (client.clientResponse version reader).1 =
      if answered ≠ version then .error (.unsupportedFrameVersion answered)
      else if accept = 0 then .error .noCommonCodec
      else if codec ∉ client.codecs then .error .noCommonCodec
      else if !client.registered codec then .error (.unsupportedCodec codec)
      else .ok ⟨answered, codec, maxFrame⟩ := by
  have hlen : reader.contents.length = handshakeHeaderLen := by
    rw [hr]
    simp [handshakeReply, handshakeMagic, handshakeHeaderLen]
  obtain ⟨left, hf, -⟩ := Reader.readFull_eq_some (Nat.le_of_eq hlen.symm)
  rw [← hlen, List.take_length, hlen, hr] at hf
  have hmax : UInt32.ofNat (ofBE ((handshakeReply accept answered codec maxFrame).drop 8)) = maxFrame :=
    ofNat_ofBE_toBE32 maxFrame
  have hmagic : (handshakeReply accept answered codec maxFrame).take 2 = handshakeMagic := rfl
  have hfields : (handshakeReply accept answered codec maxFrame).getD 2 0 = accept ∧
      (handshakeReply accept answered codec maxFrame).getD 3 0 = answered ∧
      (handshakeReply accept answered codec maxFrame).getD 4 0 = codec := ⟨rfl, rfl, rfl⟩
  simp only [HandshakeOptions.clientResponse, hf, hmax, hmagic, hfields]
  repeat' split
  all_goals first | rfl | contradiction

/-! ### One attempt -/

/-- Both lists are valid, and `codec` is the first of the client's that the server's contains. -/
def Agree (client server : HandshakeOptions) (codec : UInt8) : Prop :=
  client.Valid ∧ server.Valid ∧ (client.codecs.find? fun codec => codec ∈ server.codecs) = some codec

/-- What both sides settle on. -/
def agreed (client server : HandshakeOptions) (version codec : UInt8) : HandshakeConfig :=
  ⟨version, codec, min client.maxFrame server.maxFrame⟩

/-- Whoever fails, the other fails with it. -/
def BothFail (outcome : Except Error HandshakeConfig × Except Error HandshakeConfig) : Prop :=
  ∃ err err', outcome = (.error err, .error err')

theorem handshakeServer_closed (hr : reader.contents = []) :
    ∃ err, (server.handshakeServer reader).1 = .error err := by
  rw [HandshakeOptions.handshakeServer]
  cases server.validateCodecList with
  | error err => exact ⟨err, rfl⟩
  | ok _ =>
      refine ⟨.io .unexpectedEof, ?_⟩
      have hlt : reader.contents.length < handshakeHeaderLen := by
        rw [hr]
        decide
      simp only [readThen, Reader.readFull_eq_none hlt]

theorem clientResponse_closed (hr : reader.contents = []) :
    (client.clientResponse version reader).1 = .error (.io .unexpectedEof) := by
  have hlt : reader.contents.length < handshakeHeaderLen := by
    rw [hr]
    decide
  rw [HandshakeOptions.clientResponse, Reader.readFull_eq_none hlt]

/-- An invalid list on either side. -/
theorem handshake_invalid (hv : isSupportedProtocolVersion version = true)
    (h : ¬client.Valid ∨ ¬server.Valid) : BothFail (handshake client server pipes version) := by
  by_cases hc : client.Valid
  · obtain ⟨err, he⟩ := HandshakeOptions.validateCodecList_error (h.resolve_left (not_not_intro hc))
    refine ⟨.io .unexpectedEof, err, ?_⟩
    rw [handshake, HandshakeOptions.clientRequest, HandshakeOptions.validateCodecList_ok.2 hc]
    simp only [hv, Bool.not_true, Bool.false_eq_true, if_false, HandshakeOptions.handshakeServer, he]
    rw [clientResponse_closed (pipes.toClient.contents_deliver [])]
  · obtain ⟨err, he⟩ := HandshakeOptions.validateCodecList_error hc
    obtain ⟨err', he' : (server.handshakeServer _).1 = _⟩ :=
      handshakeServer_closed (pipes.toServer.contents_deliver [])
    refine ⟨err, err', ?_⟩
    rw [handshake, HandshakeOptions.clientRequest, he]
    simp only [he']

/-- Valid lists: what the server answers, and what the client makes of it. -/
theorem handshake_valid (hv : isSupportedProtocolVersion version = true) (hc : client.Valid)
    (hs : server.Valid) :
    handshake client server pipes version =
      if version = protocolVersionV3 ∧ !server.recovery then
        (.error (.unsupportedFrameVersion protocolVersionV2), .error (.unsupportedFrameVersion version))
      else
        match client.codecs.find? fun codec => codec ∈ server.codecs with
        | none => (.error .noCommonCodec, .error .noCommonCodec)
        | some codec => (.ok (agreed client server version codec),
            .ok (agreed client server version codec)) := by
  have hread := pipes.toServer.contents_deliver
    (handshakeRequest version client.codecs client.maxFrame)
  obtain ⟨left, hserver⟩ := handshakeServer_request hs hc hread
  rw [handshake, HandshakeOptions.clientRequest, HandshakeOptions.validateCodecList_ok.2 hc]
  simp only [hv, Bool.not_true, Bool.false_eq_true, if_false, hserver, HandshakeOptions.Refuses,
    false_or, selectCodec_eq, negotiateMaxFrame_eq]
  -- A server without recovery refuses v3 by name of the version it supports.
  by_cases hrefuse : version = protocolVersionV3 ∧ (!server.recovery) = true
  · obtain ⟨rfl, hrec⟩ := hrefuse
    rw [Bool.not_eq_true'] at hrec
    simp only [hrec, Bool.not_false, and_self, if_true]
    rw [clientResponse_reply (pipes.toClient.contents_deliver _)]
    rfl
  · rw [if_neg hrefuse, if_neg hrefuse]
    cases hcodec : client.codecs.find? fun codec => codec ∈ server.codecs with
    | none =>
        simp only
        rw [clientResponse_reply (pipes.toClient.contents_deliver _), if_neg (not_not_intro rfl),
          if_pos rfl]
    | some codec =>
        have hmem := List.mem_of_find?_eq_some hcodec
        have hin : codec ∈ server.codecs := by simpa using List.find?_some hcodec
        simp only [(hs.2.2 codec hin).2, Bool.not_true, Bool.false_eq_true, if_false]
        rw [clientResponse_reply (pipes.toClient.contents_deliver _), if_neg (not_not_intro rfl),
          if_neg (by decide), if_neg (not_not_intro hmem)]
        simp only [(hc.2.2 codec hmem).2, Bool.not_true, Bool.false_eq_true, if_false]
        rfl

/-! ### A client that falls back -/

theorem supported_of_mem_versions (h : version ∈ client.versions) :
    isSupportedProtocolVersion version = true := by
  rw [HandshakeOptions.versions] at h
  split at h
  · rcases List.mem_cons.1 h with rfl | h
    · rfl
    · cases List.mem_singleton.1 h
      rfl
  · cases List.mem_singleton.1 h
    rfl

/-- The version that both sides enable. -/
def agreedVersion (client server : HandshakeOptions) : UInt8 :=
  if client.recovery && server.recovery then protocolVersionV3 else protocolVersionV2

/-- An attempt that the server does not refuse for its version. -/
theorem handshake_agree {codec : UInt8} (h : Agree client server codec)
    (hv : isSupportedProtocolVersion version = true)
    (hspeaks : version = protocolVersionV3 → server.recovery = true) :
    handshake client server pipes version =
      (.ok (agreed client server version codec), .ok (agreed client server version codec)) := by
  obtain ⟨hc, hs, hcodec⟩ := h
  rw [handshake_valid hv hc hs, hcodec, if_neg]
  rintro ⟨rfl, hrec⟩
  rw [hspeaks rfl] at hrec
  cases hrec

theorem connect_agree {pipes : UInt8 → Pipes} {codec : UInt8} (h : Agree client server codec) :
    connect client server pipes =
      (.ok (agreed client server (agreedVersion client server) codec),
        .ok (agreed client server (agreedVersion client server) codec)) := by
  have hv2 : ∀ pipes, handshake client server pipes protocolVersionV2 = _ := fun _ =>
    handshake_agree h rfl fun h => absurd h (by decide)
  cases hc : client.recovery with
  | false => simp only [connect, HandshakeOptions.versions, hc, connectAttempt, hv2, agreedVersion,
      Bool.false_and, Bool.false_eq_true, if_false]
  | true =>
      cases hs : server.recovery with
      | true =>
          have hv3 : ∀ pipes, handshake client server pipes protocolVersionV3 = _ := fun _ =>
            handshake_agree h rfl fun _ => hs
          simp only [connect, HandshakeOptions.versions, hc, hs, connectAttempt, hv3, agreedVersion,
            Bool.and_self, if_true]
      | false =>
          -- The server refuses version 3 and answers with version 2, so the client falls back.
          have hv3 : ∀ pipes, handshake client server pipes protocolVersionV3 =
              (.error (.unsupportedFrameVersion protocolVersionV2),
                .error (.unsupportedFrameVersion protocolVersionV3)) := by
            intro pipes
            rw [handshake_valid rfl h.1 h.2.1, if_pos ⟨rfl, by rw [hs]; rfl⟩]
          simp only [connect, HandshakeOptions.versions, hc, hs, connectAttempt, hv3, hv2,
            agreedVersion, Bool.and_false, Bool.false_eq_true, if_true, if_false, and_self]

/-- An attempt of a pair that cannot agree. -/
theorem handshake_fail (h : ¬client.Valid ∨ ¬server.Valid ∨
      ∀ codec ∈ client.codecs, codec ∉ server.codecs)
    (hv : isSupportedProtocolVersion version = true) :
    BothFail (handshake client server pipes version) := by
  by_cases hvalid : client.Valid ∧ server.Valid
  · have hnone : (client.codecs.find? fun codec => codec ∈ server.codecs) = none := by
      rcases h with h | h | h
      · exact absurd hvalid.1 h
      · exact absurd hvalid.2 h
      · simpa using h
    rw [handshake_valid hv hvalid.1 hvalid.2, hnone]
    split
    · exact ⟨_, _, rfl⟩
    · exact ⟨_, _, rfl⟩
  · exact handshake_invalid hv (not_and_or.1 hvalid)

theorem connectAttempt_fail {pipes : UInt8 → Pipes} {versions : List UInt8}
    {last : Except Error HandshakeConfig × Except Error HandshakeConfig} (hlast : BothFail last)
    (h : ∀ version ∈ versions, BothFail (handshake client server (pipes version) version)) :
    BothFail (connectAttempt client server pipes versions last) := by
  induction versions generalizing last with
  | nil => exact hlast
  | cons version versions ih =>
      rw [List.forall_mem_cons] at h
      obtain ⟨err, err', he⟩ := h.1
      simp only [connectAttempt, he]
      split
      · exact ih ⟨err, err', rfl⟩ h.2
      · exact ⟨err, err', rfl⟩

/-- **Both sides agree, or neither succeeds.** -/
theorem handshake_agrees (client server : HandshakeOptions) (pipes : UInt8 → Pipes) :
    (∀ codec, Agree client server codec → connect client server pipes =
      (.ok (agreed client server (agreedVersion client server) codec),
        .ok (agreed client server (agreedVersion client server) codec))) ∧
    (BothFail (connect client server pipes) ↔
      ¬client.Valid ∨ ¬server.Valid ∨ ∀ codec ∈ client.codecs, codec ∉ server.codecs) ∧
    ∀ reader result reply left, server.handshakeServer reader = (result, reply, left) → reply ≠ [] →
      handshakeHeaderLen + requestCodecCount reader.contents ≤ reader.contents.length ∧
        left.contents =
          reader.contents.drop (handshakeHeaderLen + requestCodecCount reader.contents) := by
  refine ⟨fun codec h => connect_agree h, ⟨fun hfail => ?_, fun h => ?_⟩,
    fun reader result reply left h hr => handshake_consumes h hr⟩
  · by_contra hagree
    simp only [not_or, not_not, not_forall] at hagree
    obtain ⟨hc, hs, codec, hmem, hin⟩ := hagree
    cases hcodec : client.codecs.find? fun codec => codec ∈ server.codecs with
    | none => exact List.find?_eq_none.1 hcodec codec hmem (by simpa using hin)
    | some codec =>
        obtain ⟨err, err', he⟩ := hfail
        rw [connect_agree ⟨hc, hs, hcodec⟩] at he
        cases he
  · exact connectAttempt_fail ⟨_, _, rfl⟩ fun version hv =>
      handshake_fail h (supported_of_mem_versions hv)

/-- A pipe that delivers each write in one piece. -/
def Pipe.whole : Pipe where
  deliver bytes := if h : bytes = [] then [] else [⟨bytes, h⟩]
  contents_deliver bytes := by
    split
    · exact Eq.symm ‹_›
    · simp [Reader.contents]

/-- A side that knows the three codecs that come with the runtime. -/
def builtinOptions (codecs : List UInt8) (maxFrame : UInt32) (recovery : Bool) : HandshakeOptions :=
  ⟨fun codec => codec ∈ [1, 2, 64], codecs, maxFrame, recovery⟩

/-- The client falls back, and takes the second of its codecs. -/
theorem handshake_agrees_fallback :
    connect (builtinOptions [2, 1] 4096 true) (builtinOptions [64, 1] 1024 false)
        (fun _ => ⟨.whole, .whole⟩) =
      (.ok ⟨protocolVersionV2, 1, 1024⟩, .ok ⟨protocolVersionV2, 1, 1024⟩) :=
  (handshake_agrees _ _ _).1 1 ⟨by decide, by decide, rfl⟩

end AdaptiveMsg
