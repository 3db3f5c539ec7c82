import AdaptiveMsg.Protocol.Idle
import AdaptiveMsg.Protocol.Readers
import AdaptiveMsg.Stream.Frames

/-!
# Protocol — the messages of a stream, over any number of transports

A recovered connection, and one stream at its side `s`.  The reader of a transport that reads a
frame of the stream calls `accept_frame`: it looks the stream up, waits for room in its queue, and
returns.  A reader that is aborted while it waits drops the call, and the frame is replayed to a
reader of the next transport.  The other streams are left to the environment.

`Calm` are the runs with one reader of an endpoint at a time, in which the peer sends nothing on the
stream behind its FIN, its messages decode, and nobody closes the receiving side.

* `Joined`: what the stream has accepted are the payloads of the frames taken, and of the one that a
  reader is in a call with.
* `resumed_end_to_end`: the messages that reach the inbox and the handlers are the first ones that
  the peer staged on the stream, each once and in order, whatever is lost and replayed, and all of
  them once the stream is released.
-/

namespace AdaptiveMsg.Protocol.Messages

open Delivery (On IsFin payloadsOn Sends Seen Within)
open Delivery (payloadsOn_append payloadsOn_of_off)

variable {β τ : Type}

/-! ### The connection and the stream -/

/-- A frame as a stream has it, whatever its number. -/
def wireFrame (frame : Frame) : WireFrame :=
  ⟨.ofNat frame.streamId, 0, .ofNat frame.flags, frame.payload⟩

structure World (β τ : Type) where
  proto : Protocol.World
  stream : Delivery.State β τ
  /-- The transport whose reader has looked the stream up in `accept_frame`, and is in there. -/
  call : Option Nat

inductive Event where
  | proto (e : Protocol.Event)
  /-- The reader of a transport looks the stream up in `accept_frame`. -/
  | lookUp (t : Nat)
  | returns (t : Nat)
  /-- The reader is aborted where `accept_frame` waits. -/
  | dropped (t : Nat)
  | stream (e : Delivery.Event)

namespace World

variable (s : RecoveryRole) (cfg : Delivery.Config β τ) (w : World β τ)

/-- The frame of the stream with which the reader of `s` on `t` has called `accept_frame`. -/
def frameAt (t : Nat) : Option WireFrame :=
  match (w.proto.lane t s).reader with
  | .accepting _ record =>
    if On cfg (wireFrame record.frame) then some (wireFrame record.frame) else none
  | _ => none

/-- The event is a step of a reader that has called `accept_frame` with a frame of the stream. -/
def inCall : Protocol.Event → Bool
  | .accept x t | .stop x t => x = s && (w.frameAt s cfg t).isSome
  | _ => false

def step : Event → Option (World β τ)
  | .proto e =>
    if w.inCall s cfg e then none
    else (w.proto.step e).map fun proto => { w with proto := proto }
  | .lookUp t =>
    match w.frameAt s cfg t, w.call with
    | some frame, none =>
      (Delivery.step cfg w.stream (.accept frame.flags frame.payload)).map fun stream =>
        { w with stream := stream, call := some t }
    | _, _ => none
  | .returns t =>
    if w.call = some t ∧ w.stream.reader = .idle then
      (w.proto.step (.accept s t)).map fun proto => { w with proto := proto, call := none }
    else none
  | .dropped t =>
    if w.call = some t ∧ w.stream.reader ≠ .idle then
      (w.proto.step (.stop s t)).map fun proto => ⟨proto, w.stream.dropCall, none⟩
    else none
  | .stream e =>
    match e with
    | .accept _ _ | .closeByPeer | .timeLimit => none
    | e => (Delivery.step cfg w.stream e).map fun stream => { w with stream := stream }

end World

def machine (s : RecoveryRole) (cfg : Delivery.Config β τ) : Machine (World β τ) Event where
  init w := Protocol.machine.init w.proto ∧ w.stream = Delivery.initial ∧ w.call = none
  step := World.step s cfg

/-! ### What is sent on the stream -/

/-- The frames of an endpoint that were sent and not refused. -/
def unrefused (e : Endpoint) : List Frame := e.staged ++ e.held.toList ++ e.outbound

/-- A sender sends nothing on the stream behind its FIN, which has no payload, and what it sends
decodes. -/
def SendsOn (s : RecoveryRole) (cfg : Delivery.Config β τ) (w : Protocol.World) :
    Protocol.Event → Prop
  | .send x frame => x = s.peer → On cfg (wireFrame frame) →
    (∀ f ∈ unrefused (w.ep s.peer), ¬IsFin cfg (wireFrame f)) ∧
      (frame.payload = [] ∨ ¬IsFin cfg (wireFrame frame) ∧ cfg.decodes frame.payload = true)
  | _ => True

instance (s : RecoveryRole) (cfg : Delivery.Config β τ) (w : Protocol.World) :
    DecidablePred (SendsOn s cfg w)
  | .send x frame => inferInstanceAs (Decidable (x = s.peer → On cfg (wireFrame frame) →
    (∀ f ∈ unrefused (w.ep s.peer), ¬IsFin cfg (wireFrame f)) ∧
      (frame.payload = [] ∨ ¬IsFin cfg (wireFrame frame) ∧ cfg.decodes frame.payload = true)))
  | .dial | .respond _ | .attach _ _ | .spawnReader _ _ | .detach _ _ | .apply _ | .takeAck _ _
  | .writeNext _ | .writePing _ | .stageDetached _ | .writeDone _ _ | .flushFail _
  | .startReader _ _ | .read _ _ _ | .accept _ _ | .note _ _ _ | .stop _ _ | .breakTransport _ _ =>
    isTrue trivial

def Calm (s : RecoveryRole) (cfg : Delivery.Config β τ) (w : World β τ) : Event → Prop
  | .proto e => SingleReader w.proto e ∧ SendsOn s cfg w.proto e
  | .stream .release => False
  | _ => True

instance (s : RecoveryRole) (cfg : Delivery.Config β τ) (w : World β τ) :
    DecidablePred (Calm s cfg w)
  | .proto _ => inferInstanceAs (Decidable (_ ∧ _))
  | .stream .release => isFalse id
  | .lookUp _ | .returns _ | .dropped _ | .stream (.accept _ _) | .stream .closeByPeer
  | .stream .reader | .stream (.decode _) | .stream .handle | .stream .receive
  | .stream .timeLimit => isTrue trivial

section frames

variable (s : RecoveryRole) (cfg : Delivery.Config β τ) (w : World β τ)

/-- The frames that the readers of `s` have taken. -/
def World.taken : List WireFrame :=
  (w.proto.ep s).accepted.map fun record => wireFrame record.frame

/-- The payloads on the stream of the frames that the peer of `s` has given a number. -/
def World.sent : List (List UInt8) :=
  payloadsOn cfg ((w.proto.ep s.peer).staged.map wireFrame)

end frames

/-- The stream has accepted the payloads of the frames taken, and of the one that it is handed. -/
structure Joined (s : RecoveryRole) (cfg : Delivery.Config β τ) (w : World β τ) : Prop where
  proto : DeliveryInv w.proto
  sends : Sends cfg ((unrefused (w.proto.ep s.peer)).map wireFrame)
  plain : ∀ f ∈ unrefused (w.proto.ep s.peer), IsFin cfg (wireFrame f) → f.payload = []
  idle : w.call = none → Seen cfg w.stream (w.taken s) ∧ w.stream.reader = .idle
  inCall : ∀ t, w.call = some t → ∃ frame, w.frameAt s cfg t = some frame ∧
    Seen cfg w.stream (w.taken s ++ [frame]) ∧ Within cfg frame w.stream

/-! ### What a step does to the frames sent -/

section sent

variable {e e' : Endpoint} {w w' : Protocol.World} {ev : Protocol.Event} {x : RecoveryRole}

/-- A frame is given its number, held or refused. -/
theorem unrefused_stage (hheld : e.held = none) (frame : Frame) :
    (unrefused (e.stage frame).2).Sublist (e.staged ++ frame :: e.outbound) := by
  simp only [Endpoint.stage]
  split
  · simp [unrefused, hheld]
  · simp [unrefused]
  · simp only [unrefused, hheld, Option.toList_none, List.append_nil]
    exact (List.sublist_cons_self _ _).append_left _

theorem unrefused_writeLive (hheld : e.held = none) (frame : Frame) :
    (unrefused (e.writeLive frame)).Sublist (e.staged ++ frame :: e.outbound) := by
  have hstage := unrefused_stage hheld frame
  rw [Endpoint.writeLive]
  revert hstage
  obtain ⟨record, e'⟩ := e.stage frame
  intro hstage
  cases record with
  | none => exact hstage
  | some record =>
      simp only
      split <;> exact hstage

theorem unrefused_writeNext (h : e.writeNext = some e') :
    (unrefused e').Sublist (unrefused e) := by
  simp only [Endpoint.writeNext] at h
  split at h
  · split at h <;>
    · cases h
      exact .refl _
  · split at h
    · rename_i frame hheld
      cases h
      have heq : unrefused e = e.staged ++ frame :: e.outbound := by simp [unrefused, hheld]
      rw [heq]
      exact unrefused_writeLive rfl frame
    · rename_i frame outbound hheld hout
      cases h
      have heq : unrefused e = e.staged ++ frame :: outbound := by
        simp [unrefused, hheld, hout]
      rw [heq]
      exact unrefused_writeLive (by exact hheld) frame
    · cases h

theorem unrefused_stageDetached (h : e.stageDetached = some e') :
    (unrefused e').Sublist (unrefused e) := by
  simp only [Endpoint.stageDetached] at h
  split at h
  · rename_i frame outbound hheld hout
    cases h
    have heq : unrefused e = e.staged ++ frame :: outbound := by simp [unrefused, hheld, hout]
    rw [heq]
    exact unrefused_stage (by exact hheld) frame
  · cases h

/-- A reader that reads a packet leaves the writer's part of its endpoint alone, and takes nothing
yet. -/
theorem handlePacket_kept (e : Endpoint) (m now : Nat) (packet : Packet) :
    ∃ recovery handed failed, (handlePacket e m now packet).1 =
      { e with recovery := recovery, handed := handed, failed := failed } := by
  cases packet with
  | ack k | ping => exact ⟨_, _, _, rfl⟩
  | data r =>
      simp only [handlePacket]
      split <;> exact ⟨_, _, _, rfl⟩

theorem unrefused_setEp {y : RecoveryRole} (h : (unrefused e).Sublist (unrefused (w.ep x))) :
    (unrefused ((w.setEp x e).ep y)).Sublist (unrefused (w.ep y)) := by
  by_cases hy : y = x
  · subst hy
    rwa [World.setEp_ep_self]
  · rw [World.setEp_ep_ne hy]

/-- Only a send adds a frame. -/
theorem unrefused_step (h : w.step ev = some w') (x : RecoveryRole) :
    (∃ frame, ev = .send x frame ∧ unrefused (w'.ep x) = unrefused (w.ep x) ++ [frame]) ∨
      (unrefused (w'.ep x)).Sublist (unrefused (w.ep x)) := by
  cases ev with
  | send y frame =>
      cases h
      by_cases hx : x = y
      · subst hx
        refine .inl ⟨frame, rfl, ?_⟩
        rw [World.setEp_ep_self]
        simp [unrefused]
      · refine .inr ?_
        rw [World.setEp_ep_ne hx]
  | dial | breakTransport t keep =>
      cases h
      exact .inr (.refl _)
  | respond t =>
      simp only [Protocol.World.step] at h
      split at h <;> cases h
      exact .inr (.refl _)
  | spawnReader y t | startReader y t =>
      simp only [Protocol.World.step] at h
      split at h <;> cases h
      exact .inr (.refl _)
  | attach y t =>
      simp only [Protocol.World.step] at h
      split at h
      · split at h <;> cases h
        exact .inr (unrefused_setEp (.refl _))
      · cases h
  | detach y t | takeAck y now | writePing y | flushFail y =>
      simp only [Protocol.World.step] at h
      split at h <;> cases h
      exact .inr (unrefused_setEp (.refl _))
  | apply y =>
      simp only [Protocol.World.step] at h
      split at h
      · rename_i cmd rest hcmd
        split at h <;> cases h
        refine .inr (unrefused_setEp ?_)
        cases cmd with
        | attach t k => exact .refl _
        | detach t =>
            simp only [Endpoint.apply]
            split <;> exact .refl _
      · cases h
  | writeNext y =>
      simp only [Protocol.World.step] at h
      split at h
      · obtain ⟨e, he, rfl⟩ := Option.map_eq_some_iff.mp h
        exact .inr (unrefused_setEp (unrefused_writeNext he))
      · cases h
  | stageDetached y =>
      simp only [Protocol.World.step] at h
      split at h
      · obtain ⟨e, he, rfl⟩ := Option.map_eq_some_iff.mp h
        exact .inr (unrefused_setEp (unrefused_stageDetached he))
      · cases h
  | writeDone y ok =>
      simp only [Protocol.World.step, Protocol.World.writeDone] at h
      split at h
      · rename_i t packet hwt hp
        have hsent : unrefused ((w.ep y).sent packet) = unrefused (w.ep y) := by
          cases packet <;> rfl
        split at h
        · split at h <;> cases h
          all_goals exact .inr (unrefused_setEp (hsent ▸ .refl _))
        · cases h
          exact .inr (unrefused_setEp (.refl _))
      · cases h
  | read y t now =>
      simp only [Protocol.World.step] at h
      split at h
      · cases h
        obtain ⟨recovery, handed, failed, heq⟩ := handlePacket_kept (w.ep y) _ now _
        rw [Protocol.World.readerGoesOn, heq]
        exact .inr (unrefused_setEp (.refl _))
      · cases h
  | accept y t | note y t now =>
      simp only [Protocol.World.step] at h
      split at h <;> cases h
      exact .inr (unrefused_setEp (.refl _))
  | stop y t =>
      simp only [Protocol.World.step] at h
      split at h <;> cases h
      · exact .inr (.refl _)
      · exact .inr (.refl _)
      · exact .inr (unrefused_setEp (.refl _))

end sent

/-! ### What a step does to the frames taken -/

section taken

variable {w w' : Protocol.World} {ev : Protocol.Event} {s y : RecoveryRole} {t : Nat} {m : Nat}
  {r : FrameRecord}

/-- What a reader of `y` on `t` does: only as it returns from `accept_frame` it takes a frame, and
it goes on from there only so, or by stopping. -/
theorem reader_step (h : w.step ev = some w') (hev : ev.reader = some (y, t)) :
    ∃ e l, w' = (w.setEp y e).setLane t y l ∧
      ((∃ m r, ev = .accept y t ∧ (w.lane t y).reader = .accepting m r ∧
          e.accepted = (w.ep y).accepted ++ [r]) ∨
        (∀ x t', ev ≠ .accept x t') ∧ e.accepted = (w.ep y).accepted) ∧
      (∀ m r, (w.lane t y).reader = .accepting m r → ev = .accept y t ∨ ev = .stop y t) := by
  cases ev with
  | spawnReader _ _ | startReader _ _ =>
      cases hev
      simp only [Protocol.World.step] at h
      split at h
      · rename_i hr
        cases h
        refine ⟨w.ep y, _, by rw [World.setEp_self], .inr ⟨by simp, rfl⟩, fun m r hat => ?_⟩
        simp [hat] at hr
      · cases h
  | read _ _ now =>
      cases hev
      simp only [Protocol.World.step] at h
      split at h
      · rename_i packet wire hr hwire
        cases h
        refine ⟨_, _, rfl, .inr ⟨by simp, ?_⟩, fun m r hat => ?_⟩
        · obtain ⟨recovery, handed, failed, heq⟩ := handlePacket_kept (w.ep y) _ now packet
          rw [heq]
        · rw [hat] at hr
          cases hr
      · cases h
  | accept _ _ =>
      cases hev
      simp only [Protocol.World.step] at h
      split at h
      · rename_i m r hr
        cases h
        exact ⟨_, _, rfl, .inl ⟨m, r, rfl, hr, rfl⟩, fun _ _ _ => .inl rfl⟩
      · cases h
  | note _ _ now =>
      cases hev
      simp only [Protocol.World.step] at h
      split at h
      · rename_i hr
        cases h
        refine ⟨_, _, rfl, .inr ⟨by simp, rfl⟩, fun m r hat => ?_⟩
        rw [hat] at hr
        cases hr
      · cases h
  | stop _ _ =>
      cases hev
      simp only [Protocol.World.step] at h
      split at h
      · cases h
        exact ⟨w.ep y, _, by rw [World.setEp_self], .inr ⟨by simp, rfl⟩, fun _ _ _ => .inr rfl⟩
      · cases h
        exact ⟨w.ep y, _, by rw [World.setEp_self], .inr ⟨by simp, rfl⟩, fun _ _ _ => .inr rfl⟩
      · cases h
        exact ⟨_, _, rfl, .inr ⟨by simp, rfl⟩, fun _ _ _ => .inr rfl⟩
      · cases h
  | _ => cases hev

/-- Only a reader that returns from `accept_frame` takes a frame. -/
theorem accepted_step (h : w.step ev = some w') (s : RecoveryRole) :
    (∃ t m r, ev = .accept s t ∧ (w.lane t s).reader = .accepting m r ∧
      (w'.ep s).accepted = (w.ep s).accepted ++ [r]) ∨
    (∀ t, ev ≠ .accept s t) ∧ (w'.ep s).accepted = (w.ep s).accepted := by
  cases hev : ev.reader with
  | none =>
      refine .inr ⟨fun t he => ?_, (receiverSame_step h hev s).1.accepted⟩
      rw [he] at hev
      cases hev
  | some yt =>
      obtain ⟨y, t⟩ := yt
      obtain ⟨e, l, rfl, haccepted, -⟩ := reader_step h hev
      rw [World.setLane_ep]
      by_cases hs : s = y
      · subst hs
        rw [World.setEp_ep_self]
        rcases haccepted with ⟨m, r, he, hr, ha⟩ | ⟨hne, ha⟩
        · exact .inl ⟨t, m, r, he, hr, ha⟩
        · exact .inr ⟨hne s, ha⟩
      · rw [World.setEp_ep_ne hs]
        refine .inr ⟨fun t' he => hs ?_, rfl⟩
        rw [he] at hev
        cases hev
        rfl

/-- A reader stays in `accept_frame` until it returns or stops. -/
theorem accepting_step (h : w.step ev = some w') (hr : (w.lane t s).reader = .accepting m r)
    (ha : ev ≠ .accept s t) (hs : ev ≠ .stop s t) : (w'.lane t s).reader = .accepting m r := by
  cases hev : ev.reader with
  | none => exact ((receiverSame_step h hev s).2 t).trans hr
  | some yt =>
      obtain ⟨y, t'⟩ := yt
      obtain ⟨e, l, rfl, -, hgo⟩ := reader_step h hev
      by_cases hlane : t = t' ∧ s = y
      · obtain ⟨rfl, rfl⟩ := hlane
        exact absurd (hgo m r hr) (not_or.mpr ⟨ha, hs⟩)
      · rw [World.setLane_lane_ne (not_and_or.mp hlane)]
        exact hr

/-- The frame that a reader is in a call with is the next one that the peer has staged. -/
theorem accepting_le (hI : DeliveryInv w) (hr : (w.lane t s).reader = .accepting m r) :
    (w.ep s).accepted ++ [r] <+: (w.ep s.peer).records := by
  have hactive : (w.lane t s).reader.Active := by rw [hr]; trivial
  obtain ⟨rfl, hseq⟩ := (hI.taken s).accepting t m r hr
  have htake := take_seq ((hI.flow.lane t s).accepting _ r hr)
  rw [hseq, Nat.sub_zero, Nat.add_sub_cancel] at htake
  rw [(hI.taken s).accepted_of_active hactive (by simp [hr])]
  exact ⟨_, htake ▸ List.take_append_drop _ _⟩

theorem frames_recordsFrom (headerLen k : Nat) (frames : List Frame) :
    (recordsFrom headerLen k frames).map FrameRecord.frame = frames := by
  induction frames generalizing k with
  | nil => rfl
  | cons frame frames ih => simp [recordsFrom, ih]

end taken

/-! ### Every run -/

section runs

variable {s : RecoveryRole} {cfg : Delivery.Config β τ} {w w' : World β τ} {frame : WireFrame}
  {t : Nat}

theorem frameAt_eq_some (h : w.frameAt s cfg t = some frame) :
    ∃ m r, (w.proto.lane t s).reader = .accepting m r ∧ frame = wireFrame r.frame ∧
      On cfg frame := by
  simp only [World.frameAt] at h
  split at h
  · rename_i m r hr
    split at h
    · rename_i hon
      cases h
      exact ⟨m, r, hr, rfl, hon⟩
    · cases h
  · cases h

theorem frameAt_accepting {m : Nat} {r : FrameRecord}
    (hr : (w.proto.lane t s).reader = .accepting m r) (hon : On cfg (wireFrame r.frame)) :
    w.frameAt s cfg t = some (wireFrame r.frame) := by
  simp [World.frameAt, hr, hon]

/-- The frames taken are the first ones staged. -/
theorem Joined.taken_le (hJ : Joined s cfg w) :
    w.taken s <+: (w.proto.ep s.peer).staged.map wireFrame := by
  obtain ⟨current, -, hle⟩ := hJ.proto.handedOnce s
  have hframes := (((List.prefix_append _ _).trans hle).map FrameRecord.frame).map wireFrame
  rw [Endpoint.records, frames_recordsFrom, List.map_map] at hframes
  exact hframes

/-- And the frame of a call is the next one. -/
theorem Joined.call_le (hJ : Joined s cfg w) (h : w.frameAt s cfg t = some frame) :
    w.taken s ++ [frame] <+: (w.proto.ep s.peer).staged.map wireFrame := by
  obtain ⟨m, r, hr, rfl, -⟩ := frameAt_eq_some h
  have hframes := ((accepting_le hJ.proto hr).map FrameRecord.frame).map wireFrame
  rw [Endpoint.records, frames_recordsFrom, List.map_map, List.map_append] at hframes
  exact hframes

theorem staged_le (e : Endpoint) :
    e.staged.map wireFrame <+: (unrefused e).map wireFrame := by
  rw [unrefused, List.append_assoc, List.map_append]
  exact List.prefix_append _ _

/-- The frames taken before that of a call are no FIN. -/
theorem Joined.unfinished (hJ : Joined s cfg w) (h : w.frameAt s cfg t = some frame) :
    ∀ f ∈ w.taken s, ¬IsFin cfg f := by
  obtain ⟨m, r, -, -, hon⟩ := frameAt_eq_some h
  obtain ⟨rest, hrest⟩ := (hJ.call_le h).trans (staged_le _)
  have hlast := hJ.sends.finLast
  rw [← hrest, List.append_assoc, List.pairwise_append] at hlast
  exact fun f hf hfin => hlast.2.2 f hf frame List.mem_cons_self hfin hon

theorem Joined.mem_unrefused (hJ : Joined s cfg w) (h : w.frameAt s cfg t = some frame) :
    frame ∈ (unrefused (w.proto.ep s.peer)).map wireFrame :=
  ((hJ.call_le h).trans (staged_le _)).subset
    (List.mem_append_right _ (List.mem_singleton_self frame))

/-- What the peer sends keeps to the stream's rules. -/
theorem Joined.sends_step {proto : Protocol.World} {ev : Protocol.Event} (hJ : Joined s cfg w)
    (hC : SendsOn s cfg w.proto ev) (h : w.proto.step ev = some proto) :
    Sends cfg ((unrefused (proto.ep s.peer)).map wireFrame) ∧
      ∀ f ∈ unrefused (proto.ep s.peer), IsFin cfg (wireFrame f) → f.payload = [] := by
  rcases unrefused_step h s.peer with ⟨frame, rfl, heq⟩ | hsub
  · rw [heq, List.map_append, List.map_singleton]
    refine ⟨⟨fun f hf hon => ?_, List.pairwise_append.mpr ⟨hJ.sends.finLast,
      List.pairwise_singleton _ _, fun f hf f' hf' hfin hon => ?_⟩⟩, fun f hf hfin => ?_⟩
    · rcases List.mem_append.mp hf with hf | hf
      · exact hJ.sends.decodes f hf hon
      · obtain rfl := List.mem_singleton.mp hf
        exact (hC rfl hon).2.imp id And.right
    · obtain rfl := List.mem_singleton.mp hf'
      obtain ⟨earlier, hmem, rfl⟩ := List.mem_map.mp hf
      exact (hC rfl hon).1 earlier hmem hfin
    · rcases List.mem_append.mp hf with hf | hf
      · exact hJ.plain f hf hfin
      · obtain rfl := List.mem_singleton.mp hf
        exact (hC rfl hfin.1).2.resolve_right fun hmsg => hmsg.1 hfin
  · exact ⟨⟨fun f hf => hJ.sends.decodes f ((hsub.map _).subset hf),
      hJ.sends.finLast.sublist (hsub.map _)⟩, fun f hf => hJ.plain f (hsub.subset hf)⟩

theorem taken_congr {proto : Protocol.World}
    (h : (proto.ep s).accepted = (w.proto.ep s).accepted) (c : Delivery.State β τ)
    (call : Option Nat) : (World.mk proto c call).taken s = w.taken s := by
  simp only [World.taken, h]

/-- Another reader, or the reader of another stream, or no reader. -/
theorem Joined.protoStep {ev : Protocol.Event} {proto : Protocol.World} (hJ : Joined s cfg w)
    (hC : SingleReader w.proto ev ∧ SendsOn s cfg w.proto ev) (hcall : w.inCall s cfg ev = false)
    (h : w.proto.step ev = some proto) : Joined s cfg { w with proto := proto } := by
  have hI := delivery_step hJ.proto hC.1 h
  obtain ⟨hsends, hplain⟩ := hJ.sends_step hC.2 h
  refine ⟨hI, hsends, hplain, fun hnone => ?_, fun t ht => ?_⟩
  · obtain ⟨hseen, hidle⟩ := hJ.idle hnone
    refine ⟨?_, hidle⟩
    rcases accepted_step h s with ⟨t, m, r, rfl, hr, ha⟩ | ⟨-, ha⟩
    · have hoff : ¬On cfg (wireFrame r.frame) := fun hon => by
        simp [World.inCall, frameAt_accepting hr hon] at hcall
      simp only [World.taken, ha, List.map_append, List.map_singleton]
      exact hseen.off hoff
    · rw [taken_congr ha]
      exact hseen
  · obtain ⟨frame, hat, hseen, hwithin⟩ := hJ.inCall t ht
    obtain ⟨m, r, hr, rfl, hon⟩ := frameAt_eq_some hat
    have hstays : (proto.lane t s).reader = .accepting m r := by
      refine accepting_step h hr ?_ ?_ <;> rintro rfl <;> simp [World.inCall, hat] at hcall
    refine ⟨_, frameAt_accepting (w := { w with proto := proto }) hstays hon, ?_, hwithin⟩
    rcases accepted_step h s with ⟨t', m', r', rfl, hr', -⟩ | ⟨-, ha⟩
    · -- no other reader of this side is in `accept_frame`
      obtain rfl := (hJ.proto.taken s).unique t t' (by rw [hr]; trivial) (by rw [hr']; trivial)
      simp [World.inCall, hat] at hcall
    · rw [taken_congr ha]
      exact hseen

theorem Joined.lookUp {c' : Delivery.State β τ} (hJ : Joined s cfg w)
    (hat : w.frameAt s cfg t = some frame) (hnone : w.call = none)
    (h : Delivery.step cfg w.stream (.accept frame.flags frame.payload) = some c') :
    Joined s cfg { w with stream := c', call := some t } := by
  obtain ⟨hseen, -⟩ := hJ.idle hnone
  obtain ⟨m, r, -, -, hon⟩ := frameAt_eq_some hat
  have hmem := hJ.mem_unrefused hat
  refine { hJ with
    idle := fun hcall => by cases hcall
    inCall := fun t' ht' => ?_ }
  cases ht'
  refine ⟨frame, hat, hseen.accept hon (hJ.sends.decodes frame hmem hon) h,
    Delivery.within_accept hseen.inv hon (fun hfin => ?_) h⟩
  obtain ⟨f, hf, rfl⟩ := List.mem_map.mp hmem
  exact hJ.plain f hf hfin

/-- The stream has taken the frame, and now the reader has. -/
theorem Joined.returns {proto : Protocol.World} (hJ : Joined s cfg w) (hcall : w.call = some t)
    (hidle : w.stream.reader = .idle) (h : w.proto.step (.accept s t) = some proto) :
    Joined s cfg { w with proto := proto, call := none } := by
  obtain ⟨hsends, hplain⟩ := hJ.sends_step (show SendsOn s cfg w.proto (.accept s t) from trivial) h
  have hI := delivery_step hJ.proto (show SingleReader w.proto (.accept s t) from trivial) h
  refine ⟨hI, hsends, hplain, fun _ => ⟨?_, hidle⟩, fun _ ht => by cases ht⟩
  obtain ⟨frame, hat, hseen, -⟩ := hJ.inCall t hcall
  obtain ⟨m, r, hr, rfl, -⟩ := frameAt_eq_some hat
  rcases accepted_step h s with ⟨t', m', r', he, hr', ha⟩ | ⟨hne, -⟩
  · cases he
    rw [hr] at hr'
    cases hr'
    simp only [World.taken, ha, List.map_append, List.map_singleton]
    exact hseen
  · exact absurd rfl (hne t)

/-- Neither the stream nor the reader has taken the frame. -/
theorem Joined.dropped {proto : Protocol.World} (hJ : Joined s cfg w) (hcall : w.call = some t)
    (hwait : w.stream.reader ≠ .idle) (h : w.proto.step (.stop s t) = some proto) :
    Joined s cfg ⟨proto, w.stream.dropCall, none⟩ := by
  obtain ⟨hsends, hplain⟩ := hJ.sends_step (show SendsOn s cfg w.proto (.stop s t) from trivial) h
  obtain ⟨frame, hat, hseen, hwithin⟩ := hJ.inCall t hcall
  obtain ⟨m, r, -, -, hon⟩ := frameAt_eq_some hat
  have hI := delivery_step hJ.proto (show SingleReader w.proto (.stop s t) from trivial) h
  refine ⟨hI, hsends, hplain, fun _ => ⟨?_, ?_⟩, fun _ ht => by cases ht⟩
  · rcases accepted_step h s with ⟨t', m', r', he, -⟩ | ⟨-, ha⟩
    · cases he
    · rw [taken_congr ha]
      exact hseen.dropCall hon hwithin hwait (hJ.unfinished hat)
  · cases hwithin with
    | returned hr => exact absurd hr hwait
    | sending hr | queueFin hr _ _ => simp [Delivery.State.dropCall, hr]

theorem Joined.task {e : Delivery.Event} {c' : Delivery.State β τ} (hJ : Joined s cfg w)
    (he : e.isTask = true) (h : Delivery.step cfg w.stream e = some c') :
    Joined s cfg { w with stream := c' } := by
  refine { hJ with
    idle := fun hnone => ?_
    inCall := fun t ht => ?_ }
  · obtain ⟨hseen, hidle⟩ := hJ.idle hnone
    exact ⟨hseen.task he h, (Delivery.task_keeps he h).idle hidle⟩
  · obtain ⟨frame, hat, hseen, hwithin⟩ := hJ.inCall t ht
    exact ⟨frame, hat, hseen.task he h, hwithin.task he h⟩

theorem Joined.step {e : Event} (hJ : Joined s cfg w) (hC : Calm s cfg w e)
    (h : w.step s cfg e = some w') : Joined s cfg w' := by
  cases e with
  | proto ev =>
      simp only [World.step] at h
      split at h
      · cases h
      · rename_i hcall
        obtain ⟨proto, hp, rfl⟩ := Option.map_eq_some_iff.mp h
        exact hJ.protoStep hC (Bool.eq_false_of_not_eq_true hcall) hp
  | lookUp t =>
      simp only [World.step] at h
      split at h
      · rename_i frame hat hnone
        obtain ⟨c', hc, rfl⟩ := Option.map_eq_some_iff.mp h
        exact hJ.lookUp hat hnone hc
      · cases h
  | returns t =>
      obtain ⟨⟨hcall, hidle⟩, h⟩ := Option.ite_none_right_eq_some.mp h
      obtain ⟨proto, hp, rfl⟩ := Option.map_eq_some_iff.mp h
      exact hJ.returns hcall hidle hp
  | dropped t =>
      obtain ⟨⟨hcall, hwait⟩, h⟩ := Option.ite_none_right_eq_some.mp h
      obtain ⟨proto, hp, rfl⟩ := Option.map_eq_some_iff.mp h
      exact hJ.dropped hcall hwait hp
  | stream e =>
      cases e with
      | accept _ _ | closeByPeer | timeLimit => cases h
      | release => exact hC.elim
      | reader | decode _ | handle | receive =>
          obtain ⟨c', hc, rfl⟩ := Option.map_eq_some_iff.mp h
          exact hJ.task rfl hc

theorem Joined.initial {w : World β τ} (h : (machine s cfg).init w) : Joined s cfg w := by
  obtain ⟨proto, stream, call⟩ := w
  obtain ⟨hinit, rfl, rfl⟩ := h
  have hI : DeliveryInv proto := delivery_reachable (.init hinit)
  obtain ⟨negotiated, headerLen, maxReplayBytes, rfl⟩ := hinit
  exact ⟨hI, ⟨nofun, .nil⟩, nofun, fun _ => ⟨.initial, rfl⟩, nofun⟩

theorem joined_reachable (h : (machine s cfg).ReachableUnder (Calm s cfg) w) : Joined s cfg w :=
  h.invariant (fun _ => Joined.initial) fun _ _ _ hJ hC hs => hJ.step hC hs

/-! ### From end to end -/

/-- The frames whose payloads the stream has accepted: those taken, and the one of a call. -/
theorem Joined.seen (hJ : Joined s cfg w) :
    ∃ seen, Seen cfg w.stream seen ∧ seen <+: (w.proto.ep s.peer).staged.map wireFrame := by
  cases hcall : w.call with
  | none => exact ⟨_, (hJ.idle hcall).1, hJ.taken_le⟩
  | some t =>
      obtain ⟨frame, hat, hseen, -⟩ := hJ.inCall t hcall
      exact ⟨_, hseen, hJ.call_le hat⟩

/-- The connection stays open, so the reader is not in `close_by_peer`. -/
theorem Joined.notAtClose (hJ : Joined s cfg w) : ¬Delivery.AtClose w.stream.reader := by
  cases hcall : w.call with
  | none =>
      rw [(hJ.idle hcall).2]
      exact id
  | some t =>
      obtain ⟨frame, -, -, hwithin⟩ := hJ.inCall t hcall
      cases hwithin with
      | returned hr | sending hr | queueFin hr _ _ =>
          rw [hr]
          exact id

/-- What becomes of the messages that the peer has staged on the stream. -/
structure Arrives (s : RecoveryRole) (cfg : Delivery.Config β τ) (w : World β τ) : Prop where
  /-- The messages dispatched are the first ones staged, decoded. -/
  order : w.stream.dispatched.map .ok <+: (w.sent s cfg).map cfg.decodeEnvelope
  inbox : w.stream.put = cfg.inboxOf w.stream.dispatched
  jobs : w.stream.run ++ w.stream.jobs = cfg.jobsOf w.stream.dispatched
  /-- The stream is released at its FIN, with all of them dispatched. -/
  whole : w.stream.registered = false →
    (∃ frame ∈ (w.proto.ep s.peer).staged, IsFin cfg (wireFrame frame)) ∧
      (w.sent s cfg).map cfg.decodeEnvelope = w.stream.dispatched.map .ok

/-- **The messages sent on a recovered stream are the messages received**, each once and in order:
over any number of transports, whatever they lose and the writer replays, and wherever a reader is
aborted. -/
theorem resumed_end_to_end (h : (machine s cfg).ReachableUnder (Calm s cfg) w) :
    Arrives s cfg w := by
  have hJ := joined_reachable h
  obtain ⟨seen, hseen, rest, hrest⟩ := hJ.seen
  obtain ⟨data, k, hF⟩ := hseen.inv
  have hsent : w.sent s cfg = w.stream.accepted ++ payloadsOn cfg rest := by
    rw [World.sent, ← hrest, payloadsOn_append, hseen.accepted]
  refine ⟨?_, hF.put, hF.run, fun hreg => ?_⟩
  · rw [hsent, List.map_append, hF.accepted, List.map_append, List.append_assoc, List.append_assoc]
    exact List.prefix_append _ _
  · obtain ⟨fin, hmem, hfin⟩ :=
      (hseen.finished.mp (hF.finished (hF.marked_of_removed hreg))).resolve_left hJ.notAtClose
    obtain ⟨frame, hframe, rfl⟩ := List.mem_map.mp (hrest ▸ List.mem_append_left rest hmem)
    refine ⟨⟨frame, hframe, hfin⟩, ?_⟩
    -- behind the FIN nothing was sent
    have hlast := hJ.sends.finLast.sublist (staged_le _).sublist
    rw [← hrest, List.pairwise_append] at hlast
    have hnone : payloadsOn cfg rest = [] :=
      payloadsOn_of_off fun f hf => hlast.2.2 _ hmem f hf hfin
    rw [hsent, hnone, List.append_nil, hF.accepted_of_removed hreg]

end runs

/-- Endpoints that acknowledge every frame at once, and stream 7 of the server. -/
def start : World (List UInt8) (List UInt8) := ⟨eager, Delivery.initial, none⟩

def steps (events : List Protocol.Event) : List Event := events.map .proto

/-- The client sends a message and the FIN.  The reader that has the message is aborted while the
stream has not taken it, and the transport breaks. -/
def droppedRun : List Event :=
  steps (.dial :: .respond 0 :: attachBoth 0 ++
    [.send .client ⟨7, 0, [104, 1]⟩, .send .client ⟨7, 1, []⟩, .writeNext .client,
      .writeDone .client true, .read .server 0 1]) ++
  [.lookUp 0, .dropped 0, .proto (.breakTransport 0 fun _ => 0)]

def reattachRun : List Event := steps (.stop .client 0 :: .dial :: .respond 1 :: attachBoth 1)

/-- On the next transport the message is replayed, and the FIN follows. -/
def replayedRun : List Event :=
  reattachRun ++ steps [.writeNext .client, .writeDone .client true, .read .server 1 5] ++
  [.lookUp 1, .stream .reader, .returns 1, .stream (.decode false), .stream (.decode false),
    .proto (.note .server 1 6), .proto (.writeNext .client), .proto (.writeDone .client true),
    .proto (.read .server 1 7), .lookUp 1, .stream .reader, .returns 1, .stream (.decode false),
    .stream (.decode false), .stream (.decode false)]

/-- The connection and the stream after a run. -/
def after (events : List Event) : World (List UInt8) (List UInt8) :=
  ((machine .server Delivery.twoNames).exec start events).getD start

theorem resumed_end_to_end_replayed :
    Arrives .server Delivery.twoNames (after (droppedRun ++ replayedRun)) ∧
      ((after (droppedRun ++ replayedRun)).proto.ep .server).handed.length = 3 ∧
      (after (droppedRun ++ replayedRun)).stream.registered = false ∧
      (after (droppedRun ++ replayedRun)).stream.dispatched = [⟨"h", [1]⟩] := by
  have hinit : (machine .server Delivery.twoNames).init start := ⟨init_eager, rfl, rfl⟩
  have h : (machine .server Delivery.twoNames).ReachableUnder (Calm .server Delivery.twoNames)
      (after (droppedRun ++ replayedRun)) :=
    .exec (droppedRun ++ replayedRun) (.init hinit) rfl (by decide)
  exact ⟨resumed_end_to_end h, rfl, rfl, rfl⟩

/-- The reader that has taken the message is replaced before it notes it. -/
def overlappingRun : List Event :=
  steps (.dial :: .respond 0 :: attachBoth 0 ++
    [.send .client ⟨7, 0, [104, 1]⟩, .writeNext .client, .writeDone .client true, .stop .client 0,
      .dial, .respond 1, .read .server 0 1]) ++
  [.lookUp 0, .stream .reader, .returns 0] ++
  steps (attachBoth 1 ++ [.note .server 0 2, .writeNext .client, .writeDone .client true,
    .read .server 1 3]) ++
  [.stream (.decode false), .stream (.decode false), .stream .handle, .lookUp 1, .stream .reader,
    .returns 1, .stream (.decode false), .stream (.decode false)]

/-- With two readers at a time a message is dispatched twice. -/
theorem dispatched_twice : ¬∀ w, (machine .server Delivery.twoNames).Reachable w →
    w.stream.dispatched.map .ok <+:
      (w.sent .server Delivery.twoNames).map Delivery.twoNames.decodeEnvelope := by
  intro hall
  have hinit : (machine .server Delivery.twoNames).init start := ⟨init_eager, rfl, rfl⟩
  have h := hall (after overlappingRun) (Machine.reachable_of_exec overlappingRun hinit rfl)
  exact absurd h.length_le (by decide)

end AdaptiveMsg.Protocol.Messages
