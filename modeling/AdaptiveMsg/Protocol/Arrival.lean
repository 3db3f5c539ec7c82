import AdaptiveMsg.Machine.Leads
import AdaptiveMsg.Protocol.Messages
import Mathlib.Algebra.BigOperators.Group.Finset.Basic

/-!
# Protocol — the messages of a stream arrive

`resumed_messages_arrive`: once both sides write to a transport and read from it, and as long as it
does not break, the steps of the tasks bring every message sent on a stream to its inbox or the
queue of its handler, in whatever order they are taken, and every replay buffer is emptied by
acknowledgements.

Each step of a writer or a reader lowers `World.cost`, or finds a frame that still has to wait for
room and changes nothing.  A frame that a reader takes has more to go than all the work that it
brings to the stream.
-/

namespace AdaptiveMsg.Protocol

/-! ### What is on its way -/

/-- A frame read has yet to be taken and noted, and its ACK to be written and read. -/
def Packet.cost : Packet → Nat
  | .data _ => 6
  | .ack _ | .ping => 1

def ReaderPc.cost : ReaderPc → Nat
  | .accepting _ _ => 5
  | .noting _ _ => 4
  | .unspawned | .starting | .reading _ | .ended => 0

def Lane.cost (l : Lane) : Nat := (l.wire.map Packet.cost).sum + l.reader.cost

def ackCost (r : RecoveryState) : Nat := if r.AckScheduled then 3 else 0

def Endpoint.cost (e : Endpoint) : Nat :=
  10 * e.outbound.length + 9 * e.held.toList.length + 8 * e.resume.length +
    (e.writing.toList.map fun packet => packet.cost + 1).sum + ackCost e.recovery

def laneCost (w : World) (t : Nat) : Nat := (w.lane t .client).cost + (w.lane t .server).cost

/-- The steps that writers and readers have yet to take are no more than this. -/
def World.cost (w : World) : Nat :=
  (w.ep .client).cost + (w.ep .server).cost + ∑ t ∈ Finset.range w.dialed, laneCost w t

section cost

variable {e e' : Endpoint} {w w' : World} {s : RecoveryRole} {t : Nat} {ev : Event}

theorem ackCost_le (r : RecoveryState) : ackCost r ≤ 3 := by
  unfold ackCost
  split
  · exact Nat.le_refl _
  · exact Nat.zero_le _

theorem cost_eq (w : World) (s : RecoveryRole) : w.cost =
    (w.ep s).cost + (w.ep s.peer).cost + ∑ t ∈ Finset.range w.dialed, laneCost w t := by
  cases s with
  | client => rfl
  | server =>
      rw [World.cost, Nat.add_comm (w.ep .client).cost]
      rfl

theorem laneCost_eq (w : World) (t : Nat) (s : RecoveryRole) :
    laneCost w t = (w.lane t s).cost + (w.lane t s.peer).cost := by
  cases s with
  | client => rfl
  | server => exact Nat.add_comm _ _

theorem cost_setEp (w : World) (s : RecoveryRole) (e : Endpoint) :
    (w.setEp s e).cost + (w.ep s).cost = w.cost + e.cost := by
  have hlanes : ∀ t, laneCost (w.setEp s e) t = laneCost w t := fun _ => rfl
  simp only [cost_eq _ s, World.setEp_ep_self, World.setEp_ep_peer, World.setEp_dialed, hlanes]
  omega

theorem laneCost_setLane_self (w : World) (t : Nat) (s : RecoveryRole) (l : Lane) :
    laneCost (w.setLane t s l) t + (w.lane t s).cost = laneCost w t + l.cost := by
  have hother := World.setLane_lane_ne (w := w) (l := l) (.inr (RecoveryRole.peer_ne s) : t ≠ t ∨ _)
  simp only [laneCost_eq _ _ s, World.setLane_lane_self, hother]
  omega

theorem laneCost_setLane_ne {t' : Nat} (h : t' ≠ t) (l : Lane) :
    laneCost (w.setLane t s l) t' = laneCost w t' := by
  simp only [laneCost, World.setLane_lane_ne (.inl h)]

theorem cost_setLane (l : Lane) (ht : t < w.dialed) :
    (w.setLane t s l).cost + (w.lane t s).cost = w.cost + l.cost := by
  have hself := laneCost_setLane_self w t s l
  have hmem : t ∈ Finset.range w.dialed := Finset.mem_range.mpr ht
  have hrest : ∑ t' ∈ (Finset.range w.dialed).erase t, laneCost (w.setLane t s l) t' =
      ∑ t' ∈ (Finset.range w.dialed).erase t, laneCost w t' :=
    Finset.sum_congr rfl fun t' ht' => laneCost_setLane_ne (Finset.ne_of_mem_erase ht') l
  have hnew := Finset.add_sum_erase _ (laneCost (w.setLane t s l)) hmem
  have hold := Finset.add_sum_erase _ (laneCost w) hmem
  rw [hrest] at hnew
  simp only [World.cost, World.setLane_ep, World.setLane_dialed]
  omega

/-- What is in flight over a transport that was never dialed does not count. -/
theorem cost_setLane_le {l : Lane} (hl : (w.lane t s).cost ≤ l.cost) :
    (w.setLane t s l).cost + (w.lane t s).cost ≤ w.cost + l.cost := by
  by_cases ht : t < w.dialed
  · exact Nat.le_of_eq (cost_setLane l ht)
  · have hsum : ∑ t' ∈ Finset.range w.dialed, laneCost (w.setLane t s l) t' =
        ∑ t' ∈ Finset.range w.dialed, laneCost w t' :=
      Finset.sum_congr rfl fun t' ht' => laneCost_setLane_ne (by
        rintro rfl
        exact ht (Finset.mem_range.mp ht')) l
    simp only [World.cost, World.setLane_ep, World.setLane_dialed, hsum]
    omega

/-! ### The steps of a writer -/

theorem ackCost_congr {r r' : RecoveryState} (hdue : r'.ackDue = r.ackDue)
    (hat : r'.ackDueAt = r.ackDueAt) : ackCost r' = ackCost r := by
  have hiff : r'.AckScheduled ↔ r.AckScheduled := by
    rw [RecoveryState.AckScheduled, RecoveryState.AckScheduled, hdue, hat]
  simp only [ackCost, hiff]

/-- A frame for which there is no room is held; else it is written, kept or refused. -/
theorem writeLive_cost (hheld : e.held = none) (hready : e.writing = none) (frame : Frame) :
    e.writeLive frame = { e with held := some frame } ∨ (e.writeLive frame).cost ≤ e.cost + 7 := by
  simp only [Endpoint.writeLive, Endpoint.stage]
  split
  · rename_i heq
    split at heq
    · rename_i record replay _
      cases heq
      have hack : ackCost { e.recovery with replay := replay } = ackCost e.recovery :=
        ackCost_congr rfl rfl
      refine .inr ?_
      split
      · simp only [Endpoint.cost, hheld, hready, hack, Packet.cost, Option.toList_some,
          Option.toList_none, List.map_nil, List.map_singleton, List.sum_nil, List.sum_singleton]
        omega
      · simp only [Endpoint.cost, hack]
        omega
    · cases heq
    · cases heq
  · rename_i heq
    split at heq
    · cases heq
    · cases heq
      exact .inl rfl
    · cases heq
      exact .inr (Nat.le_add_right _ _)

theorem writeNext_cost (hready : e.writing = none) (h : e.writeNext = some e') :
    e' = e ∨ e'.cost < e.cost := by
  simp only [Endpoint.writeNext] at h
  split at h
  · rename_i frame resume hresume
    refine .inr ?_
    split at h
    · cases h
      simp only [Endpoint.cost, hready, hresume, Packet.cost, List.length_cons, Option.toList_some,
        Option.toList_none, List.map_nil, List.map_singleton, List.sum_nil, List.sum_singleton]
      omega
    · cases h
      simp only [Endpoint.cost, hresume, List.length_cons]
      omega
  · split at h
    · rename_i frame hheld
      cases h
      have hcost : e.cost = Endpoint.cost { e with held := none } + 9 := by
        simp only [Endpoint.cost, hheld, Option.toList_some, Option.toList_none, List.length_nil,
          List.length_singleton]
        omega
      rcases writeLive_cost (e := { e with held := none }) rfl hready frame with heq | hle
      · rw [heq]
        exact .inl (by rw [← hheld])
      · exact .inr (by omega)
    · rename_i frame outbound hheld hout
      cases h
      have hcost : e.cost = Endpoint.cost { e with outbound := outbound } + 10 := by
        simp only [Endpoint.cost, hout, List.length_cons]
        omega
      refine .inr ?_
      rcases writeLive_cost (e := { e with outbound := outbound }) hheld hready frame with heq | hle
      · rw [heq]
        simp only [Endpoint.cost, hheld, hout, Option.toList_some, Option.toList_none,
          List.length_nil, List.length_cons]
        omega
      · omega
    · cases h

theorem takeAck_cost (hready : e.writing = none) (now : Nat) :
    e.takeAck now = e ∨ (e.takeAck now).cost < e.cost := by
  by_cases hdue : e.recovery.AckScheduled
  · by_cases hmay : e.recovery.ackMayBeDue now = true
    · refine .inr ?_
      have hold : ackCost e.recovery = 3 := by rw [ackCost, if_pos hdue]
      simp only [Endpoint.takeAck, RecoveryState.takePendingAck, hmay, Bool.not_true,
        Bool.false_eq_true, if_false]
      split
      · simp only [Endpoint.cost, hready, hold]
        simp [ackCost, RecoveryState.AckScheduled]
      · simp only [Endpoint.cost, hready, hold]
        simp [ackCost, RecoveryState.AckScheduled, Packet.cost]
    · refine .inl ?_
      simp only [Endpoint.takeAck, RecoveryState.takePendingAck, hmay, Bool.not_false, if_true,
        Option.map_none]
      rw [← hready]
  · exact .inl (e.takeAck_unscheduled hdue hready now)

theorem sent_cost {packet : Packet} (h : e.writing = some packet) :
    (e.sent packet).cost + packet.cost + 1 = e.cost := by
  have hsent : (e.sent packet).outbound = e.outbound ∧ (e.sent packet).held = e.held ∧
      (e.sent packet).resume = e.resume ∧ (e.sent packet).writing = none ∧
      (e.sent packet).recovery = e.recovery := by
    cases packet <;> exact ⟨rfl, rfl, rfl, rfl, rfl⟩
  obtain ⟨hout, hheld, hresume, hwriting, hrecovery⟩ := hsent
  simp only [Endpoint.cost, hout, hheld, hresume, hwriting, hrecovery, h, Option.toList_none,
    Option.toList_some, List.map_nil, List.map_singleton, List.sum_nil, List.sum_singleton]
  omega

/-! ### Every step -/

theorem cost_writer (h : e = w.ep s ∨ e.cost < (w.ep s).cost) :
    w.setEp s e = w ∨ (w.setEp s e).cost < w.cost := by
  rcases h with rfl | hlt
  · exact .inl (w.setEp_self s)
  · have hcost := cost_setEp w s e
    exact .inr (by omega)

theorem cost_reader {l : Lane} (hF : Fresh w) (hr : (w.lane t s).reader ≠ .unspawned)
    (hlt : e.cost + l.cost < (w.ep s).cost + (w.lane t s).cost) :
    ((w.setEp s e).setLane t s l).cost < w.cost := by
  have hep := cost_setEp w s e
  have hlane := cost_setLane (w := w.setEp s e) (s := s) l (hF.dialed_of_reader hr)
  rw [World.setEp_lane] at hlane
  omega

theorem noteReceived_cost (e : Endpoint) (now seq : Nat) :
    Endpoint.cost { e with recovery := (e.recovery.noteReceived now seq).2 } ≤ e.cost + 3 := by
  have hle := ackCost_le (e.recovery.noteReceived now seq).2
  simp only [Endpoint.cost]
  omega

/-- Reading a packet brings less about than the packet had before it. -/
theorem handlePacket_cost (e : Endpoint) (m now : Nat) (packet : Packet) :
    (handlePacket e m now packet).1.cost + (handlePacket e m now packet).2.cost <
      e.cost + packet.cost := by
  cases packet with
  | ack k =>
      have hack : ackCost (e.recovery.ackReceived k) = ackCost e.recovery := ackCost_congr rfl rfl
      simp [handlePacket, Endpoint.cost, ReaderPc.cost, Packet.cost, hack]
  | ping => simp [handlePacket, ReaderPc.cost, Packet.cost]
  | data r =>
      have hnote := noteReceived_cost e now r.seq
      simp only [handlePacket]
      split
      · simp [Endpoint.cost, ReaderPc.cost, Packet.cost]
      · simp only [ReaderPc.cost, Packet.cost]
        omega
      · simp [Endpoint.cost, ReaderPc.cost, Packet.cost]

theorem accept_cost (hF : Fresh w) (h : w.step (.accept s t) = some w') : w'.cost < w.cost := by
  simp only [World.step] at h
  split at h
  · rename_i m r hr
    cases h
    refine cost_reader hF (by simp [hr]) ?_
    simp [Endpoint.cost, Lane.cost, hr, ReaderPc.cost]
  · cases h

/-- The tasks go on, or look again at a frame that has to wait. -/
theorem cost_step (hF : Fresh w) (he : ev.GoesOn ∨ ∃ s t, ev = .accept s t)
    (h : w.step ev = some w') : w' = w ∨ w'.cost < w.cost := by
  cases ev with
  | takeAck s now =>
      simp only [World.step] at h
      split at h
      · rename_i hready
        cases h
        simp only [World.writerReady, Option.isNone_iff_eq_none] at hready
        exact cost_writer (takeAck_cost hready.1 now)
      · cases h
  | writeNext s =>
      simp only [World.step] at h
      split at h
      · rename_i hready
        obtain ⟨e', he', rfl⟩ := Option.map_eq_some_iff.mp h
        simp only [World.writerReady, Option.isNone_iff_eq_none] at hready
        exact cost_writer (writeNext_cost hready.1 he')
      · cases h
  | writeDone s ok =>
      cases ok with
      | false => simp [Event.GoesOn] at he
      | true =>
          simp only [World.step, World.writeDone, if_true] at h
          split at h
          · rename_i t packet hwriter hwriting
            have hsent := sent_cost hwriting
            have hep := cost_setEp w s ((w.ep s).sent packet)
            refine .inr ?_
            split at h <;> cases h
            · omega
            · have hlane := cost_setLane_le (w := w.setEp s ((w.ep s).sent packet)) (t := t)
                (s := s.peer) (l := { w.lane t s.peer with
                  wire := (w.lane t s.peer).wire ++ [packet] }) (by simp [Lane.cost])
              simp only [World.setEp_lane, Lane.cost, List.map_append, List.map_singleton,
                List.sum_append, List.sum_singleton] at hlane
              omega
          · cases h
  | read s t now =>
      simp only [World.step] at h
      split at h
      · rename_i m packet wire hr hwire
        cases h
        refine .inr (cost_reader hF (by simp [hr]) ?_)
        have hlt := handlePacket_cost (w.ep s) m now packet
        simp only [Lane.cost, hr, hwire, List.map_cons, List.sum_cons, ReaderPc.cost] at hlt ⊢
        omega
      · cases h
  | note s t now =>
      simp only [World.step] at h
      split at h
      · rename_i m r hr
        cases h
        refine .inr (cost_reader hF (by simp [hr]) ?_)
        have hle := noteReceived_cost (w.ep s) now r.seq
        simp only [Lane.cost, hr, ReaderPc.cost] at hle ⊢
        omega
      · cases h
  | accept s t => exact .inr (accept_cost hF h)
  | _ => simp [Event.GoesOn] at he

end cost

/-! ### A transport stays attached -/

section attached

variable {e : Endpoint} {w w' : World} {s : RecoveryRole} {t : Nat} {ev : Event}

theorem Attached.setEp (h : Attached w t) (he : e.writer = (w.ep s).writer) :
    Attached (w.setEp s e) t := by
  refine ⟨fun x => ?_, h.intact, h.reader⟩
  by_cases hx : x = s
  · subst hx
    rw [World.setEp_ep_self, he]
    exact h.writer x
  · rw [World.setEp_ep_ne hx]
    exact h.writer x

theorem Attached.setLane {t' : Nat} {l : Lane} (h : Attached w t)
    (hl : l.reader = (w.lane t' s).reader ∨ l.reader.Active) : Attached (w.setLane t' s l) t := by
  refine ⟨h.writer, h.intact, fun x => ?_⟩
  by_cases hx : t = t' ∧ x = s
  · obtain ⟨rfl, rfl⟩ := hx
    rw [World.setLane_lane_self]
    rcases hl with hl | hl
    · rw [hl]
      exact h.reader x
    · refine ⟨?_, ?_, ?_⟩ <;>
      · intro hpc
        rw [hpc] at hl
        exact hl
  · rw [World.setLane_lane_ne (not_and_or.mp hx)]
    exact h.reader x

theorem Attached.readerGoesOn {t' : Nat} {wire : List Packet} {pc : ReaderPc} (h : Attached w t)
    (he : e.writer = (w.ep s).writer) (hpc : pc.Active) :
    Attached (w.readerGoesOn s t' e wire pc) t := (h.setEp he).setLane (.inr hpc)

/-- A reader that reads a packet goes on, or fails the connection. -/
theorem handlePacket_active (e : Endpoint) (m now : Nat) (packet : Packet) :
    (handlePacket e m now packet).2.Active ∨ (handlePacket e m now packet).1.failed ≠ none := by
  cases packet with
  | ack k | ping => exact .inl trivial
  | data r =>
      simp only [handlePacket]
      split
      · exact .inr (Option.some_ne_none _)
      · exact .inl trivial
      · exact .inl trivial

theorem attached_step (hatt : Attached w t) (hI : DeliveryInv w')
    (he : ev.GoesOn ∨ ∃ s t, ev = .accept s t) (h : w.step ev = some w') : Attached w' t := by
  cases ev with
  | takeAck s now =>
      simp only [World.step] at h
      split at h <;> cases h
      exact hatt.setEp (WriterSame.takeAck now).writer
  | writeNext s =>
      simp only [World.step] at h
      split at h
      · obtain ⟨e', he', rfl⟩ := Option.map_eq_some_iff.mp h
        exact hatt.setEp (WriterSame.writeNext he').writer
      · cases h
  | writeDone s ok =>
      cases ok with
      | false => simp [Event.GoesOn] at he
      | true =>
          simp only [World.step, World.writeDone, if_true] at h
          split at h
          · rename_i t' packet hwriter hwriting
            have hsent := hatt.setEp (WriterSame.sent (e := w.ep s) packet).writer
            split at h <;> cases h
            · exact hsent
            · exact hsent.setLane (.inl rfl)
          · cases h
  | read s t' now =>
      simp only [World.step] at h
      split at h
      · rename_i m packet wire hr hwire
        cases h
        have hfailed := (hI.taken s).failed
        rw [World.readerGoesOn, World.setLane_ep, World.setEp_ep_self] at hfailed
        have hactive := (handlePacket_active (w.ep s) m now packet).resolve_right fun hne =>
          hne hfailed
        obtain ⟨recovery, handed, failed, heq⟩ :=
          Messages.handlePacket_kept (w.ep s) m now packet
        exact hatt.readerGoesOn (by rw [heq]) hactive
      · cases h
  | note s t' now =>
      simp only [World.step] at h
      split at h
      · cases h
        exact hatt.readerGoesOn rfl trivial
      · cases h
  | accept s t' =>
      simp only [World.step] at h
      split at h
      · cases h
        exact hatt.readerGoesOn rfl trivial
      · cases h
  | _ => simp [Event.GoesOn] at he

end attached

/-! ### What goes on by itself -/

namespace Messages

open Delivery (IsFin payloadsOn AtRest rested)

section arrival

variable {β τ : Type}

/-- The steps of the tasks of both sides, as long as no transport fails, and of the application that
receives. -/
def GoesOn : Event → Prop
  | .proto (.accept _ _) => True
  | .proto e => e.GoesOn
  | .lookUp _ | .returns _ => True
  | .dropped _ => False
  | .stream e => e.isTask = true

/-- A calm run, in which each transport is attached with a resume point that covers the last ACK. -/
def CalmResumes (s : RecoveryRole) (cfg : Delivery.Config β τ) (w : World β τ) : Event → Prop
  | .proto e => Calm s cfg w (.proto e) ∧ ResumeCoversAck w.proto e
  | e => Calm s cfg w e

instance (s : RecoveryRole) (cfg : Delivery.Config β τ) (w : World β τ) :
    DecidablePred (CalmResumes s cfg w)
  | .proto _ => inferInstanceAs (Decidable (_ ∧ _))
  | .lookUp t => inferInstanceAs (Decidable (Calm s cfg w (.lookUp t)))
  | .returns t => inferInstanceAs (Decidable (Calm s cfg w (.returns t)))
  | .dropped t => inferInstanceAs (Decidable (Calm s cfg w (.dropped t)))
  | .stream e => inferInstanceAs (Decidable (Calm s cfg w (.stream e)))

variable {s : RecoveryRole} {cfg : Delivery.Config β τ} {w w' : World β τ} {e : Event} {t : Nat}

theorem CalmResumes.calm (h : CalmResumes s cfg w e) : Calm s cfg w e := by
  cases e with
  | proto e => exact h.1
  | lookUp _ | returns _ | dropped _ | stream _ => exact h

theorem goesOn_proto {e : Protocol.Event} (h : GoesOn (.proto e)) :
    e.GoesOn ∨ ∃ s t, e = .accept s t := by
  cases e with
  | accept s t => exact .inr ⟨s, t, rfl⟩
  | _ => exact .inl h

theorem calm_of_goesOn (he : GoesOn e) : CalmResumes s cfg w e := by
  cases e with
  | proto e =>
      cases e with
      | send _ _ | startReader _ _ | apply _ => exact absurd he id
      | _ => exact ⟨⟨trivial, trivial⟩, trivial⟩
  | lookUp _ | returns _ => trivial
  | dropped _ => exact absurd he id
  | stream e =>
      cases e with
      | release => cases he
      | _ => trivial

/-- What becomes of the connection is a run of it. -/
theorem proto_reachable (h : (machine s cfg).ReachableUnder (CalmResumes s cfg) w) :
    Protocol.machine.ReachableUnder ResumeCoversAck w.proto := by
  refine h.map World.proto (fun w (hinit : (machine s cfg).init w) => hinit.1)
    fun w e w' hC (hs : w.step s cfg e = some w') => ?_
  cases e with
  | proto e =>
      simp only [World.step] at hs
      split at hs
      · cases hs
      · obtain ⟨proto, hp, rfl⟩ := Option.map_eq_some_iff.mp hs
        exact .inr ⟨e, hC.2, hp⟩
  | lookUp t =>
      simp only [World.step] at hs
      split at hs
      · obtain ⟨c', -, rfl⟩ := Option.map_eq_some_iff.mp hs
        exact .inl rfl
      · cases hs
  | returns t =>
      obtain ⟨-, hs⟩ := Option.ite_none_right_eq_some.mp hs
      obtain ⟨proto, hp, rfl⟩ := Option.map_eq_some_iff.mp hs
      exact .inr ⟨.accept s t, trivial, hp⟩
  | dropped t =>
      obtain ⟨-, hs⟩ := Option.ite_none_right_eq_some.mp hs
      obtain ⟨proto, hp, rfl⟩ := Option.map_eq_some_iff.mp hs
      exact .inr ⟨.stop s t, trivial, hp⟩
  | stream e =>
      cases e with
      | accept _ _ | closeByPeer | timeLimit => cases hs
      | release => exact absurd hC id
      | reader | decode _ | handle | receive =>
          obtain ⟨c', -, rfl⟩ := Option.map_eq_some_iff.mp hs
          exact .inl rfl

/-- Both sides write to the transport and read from it. -/
structure Healthy (s : RecoveryRole) (cfg : Delivery.Config β τ) (t : Nat) (w : World β τ) :
    Prop where
  run : (machine s cfg).ReachableUnder (CalmResumes s cfg) w
  attached : Attached w.proto t

theorem Healthy.joined (h : Healthy s cfg t w) : Joined s cfg w :=
  joined_reachable (h.run.mono fun _ _ => CalmResumes.calm)

theorem Healthy.step (h : Healthy s cfg t w) (he : GoesOn e) (hs : w.step s cfg e = some w') :
    Healthy s cfg t w' := by
  have hrun := h.run.step (calm_of_goesOn he) hs
  have hI : DeliveryInv w'.proto :=
    (joined_reachable (hrun.mono fun _ _ => CalmResumes.calm)).proto
  refine ⟨hrun, ?_⟩
  cases e with
  | proto e =>
      simp only [World.step] at hs
      split at hs
      · cases hs
      · obtain ⟨proto, hp, rfl⟩ := Option.map_eq_some_iff.mp hs
        exact attached_step h.attached hI (goesOn_proto he) hp
  | lookUp t =>
      simp only [World.step] at hs
      split at hs
      · obtain ⟨c', -, rfl⟩ := Option.map_eq_some_iff.mp hs
        exact h.attached
      · cases hs
  | returns t =>
      obtain ⟨-, hs⟩ := Option.ite_none_right_eq_some.mp hs
      obtain ⟨proto, hp, rfl⟩ := Option.map_eq_some_iff.mp hs
      exact attached_step h.attached hI (.inr ⟨_, _, rfl⟩) hp
  | dropped t => exact absurd he id
  | stream e =>
      cases e with
      | accept _ _ | closeByPeer | timeLimit => cases hs
      | release => cases he
      | reader | decode _ | handle | receive =>
          obtain ⟨c', -, rfl⟩ := Option.map_eq_some_iff.mp hs
          exact h.attached

/-! ### The measure -/

/-- The steps that the messages have yet to take are no more than this. -/
def World.weight (w : World β τ) : Nat :=
  16 * w.proto.cost + (if w.call = none then 15 else 0) + w.stream.work

/-- Each step lowers the measure, or leaves the world as it is. -/
theorem weight_lt (hH : Healthy s cfg t w) (he : GoesOn e) (hs : w.step s cfg e = some w')
    (hne : w' ≠ w) : w'.weight < w.weight := by
  have hfresh := hH.joined.proto.fresh
  cases e with
  | proto e =>
      simp only [World.step] at hs
      split at hs
      · cases hs
      · obtain ⟨proto, hp, rfl⟩ := Option.map_eq_some_iff.mp hs
        rcases cost_step hfresh (goesOn_proto he) hp with rfl | hlt
        · exact absurd rfl hne
        · simp only [World.weight]
          omega
  | lookUp t =>
      simp only [World.step] at hs
      split at hs
      · rename_i frame hat hnone
        obtain ⟨c', hc, rfl⟩ := Option.map_eq_some_iff.mp hs
        have hlt := (Delivery.work_accept hc).2.2
        simp only [World.weight, hnone, if_true, reduceCtorEq, if_false]
        omega
      · cases hs
  | returns t =>
      obtain ⟨⟨hcall, -⟩, hs⟩ := Option.ite_none_right_eq_some.mp hs
      obtain ⟨proto, hp, rfl⟩ := Option.map_eq_some_iff.mp hs
      have hlt := accept_cost hfresh hp
      simp only [World.weight, hcall, if_true, reduceCtorEq, if_false]
      omega
  | dropped t => exact absurd he id
  | stream e =>
      have he : e.isTask = true := he
      cases e with
      | accept _ _ | closeByPeer | timeLimit | release => cases he
      | reader | decode _ | handle | receive =>
          obtain ⟨c', hc, rfl⟩ := Option.map_eq_some_iff.mp hs
          have hlt := Delivery.work_lt rfl hc
          simp only [World.weight]
          omega

/-! ### What is bound to happen -/

/-- What becomes of the messages that the peer has sent so far. -/
structure Arrived (s : RecoveryRole) (cfg : Delivery.Config β τ) (w : World β τ) : Prop where
  /-- All that was sent and not refused is staged, acknowledged, and dropped from the buffer. -/
  written : (w.proto.ep s.peer).outbound = [] ∧ (w.proto.ep s.peer).held = none ∧
    (w.proto.ep s.peer).recovery.replay.replayQueue = []
  dispatched : (w.sent s cfg).map cfg.decodeEnvelope = w.stream.dispatched.map .ok
  received : w.stream.inbox = []
  /-- A handler task that has not ended has run its queue empty. -/
  jobs : w.stream.handlerTask ≠ .ended → w.stream.jobs = []
  /-- The stream that the peer finished is released. -/
  released : (∃ frame ∈ (w.proto.ep s.peer).staged, IsFin cfg (wireFrame frame)) →
    w.stream.registered = false

/-- No step of a task changes anything. -/
def Still (s : RecoveryRole) (cfg : Delivery.Config β τ) (w : World β τ) : Prop :=
  ∀ e w', GoesOn e → w.step s cfg e = some w' → w' = w

theorem Still.idle (h : Still s cfg w) : Idle w.proto := by
  intro e proto hp he
  have hcall : w.inCall s cfg e = false := by
    cases e with
    | accept _ _ | stop _ _ => exact absurd he id
    | _ => rfl
  have hgo : GoesOn (.proto e) := by
    cases e with
    | accept _ _ => trivial
    | _ => exact he
  have hs : w.step s cfg (.proto e) = some { w with proto := proto } := by
    simp [World.step, hcall, hp]
  exact congrArg World.proto (h _ _ hgo hs)

theorem Still.atRest (h : Still s cfg w) : AtRest cfg w.stream := by
  intro e he
  by_contra hsome
  obtain ⟨c', hc⟩ := Option.ne_none_iff_exists'.mp hsome
  have hs : w.step s cfg (.stream e) = some { w with stream := c' } := by
    cases e with
    | accept _ _ | closeByPeer | timeLimit | release => cases he
    | reader | decode _ | handle | receive => simp [World.step, hc]
  have hlt := Delivery.work_lt he hc
  have heq : c' = w.stream := congrArg World.stream (h (.stream e) _ he hs)
  rw [heq] at hlt
  exact Nat.lt_irrefl _ hlt

/-- A reader that returns from `accept_frame` changes something. -/
theorem accepted_ne {x : RecoveryRole} {t : Nat} {m : Nat} {r : FrameRecord}
    {w : Protocol.World} (hr : (w.lane t x).reader = .accepting m r) :
    ∃ w', w.step (.accept x t) = some w' ∧ w' ≠ w := by
  refine ⟨w.readerGoesOn x t { w.ep x with accepted := (w.ep x).accepted ++ [r] }
    (w.lane t x).wire (.noting m r), by simp only [Protocol.World.step, hr], fun heq => ?_⟩
  have hreader := congrArg (fun w => (w.lane t x).reader) heq
  simp only [World.readerGoesOn, World.setLane_lane_self, hr] at hreader
  cases hreader

/-- A reader with a frame of the stream looks it up while no other is in a call. -/
theorem Joined.lookUp_goes (hJ : Joined s cfg w) {frame : WireFrame}
    (hat : w.frameAt s cfg t = some frame) (hnone : w.call = none) :
    ∃ c', w.step s cfg (.lookUp t) = some { w with stream := c', call := some t } := by
  obtain ⟨hseen, hidle⟩ := hJ.idle hnone
  have hfin : w.stream.finished = false := by
    by_contra hf
    rcases hseen.finished.mp (Bool.eq_true_of_not_eq_false hf) with hclose | ⟨fin, hmem, hfin⟩
    · rw [hidle] at hclose
      exact hclose
    · exact hJ.unfinished hat fin hmem hfin
  exact ⟨Delivery.accept cfg w.stream frame.flags frame.payload,
    by simp [World.step, hat, hnone, Delivery.step, hidle, hfin]⟩

/-- Where nothing changes any more, no reader is inside `accept_frame`. -/
theorem Still.not_accepting (hS : Still s cfg w) (hJ : Joined s cfg w) (x : RecoveryRole)
    (t m : Nat) (r : FrameRecord) : (w.proto.lane t x).reader ≠ .accepting m r := by
  intro hr
  obtain ⟨proto, hp, hne⟩ := accepted_ne hr
  cases hcall : w.inCall s cfg (.accept x t) with
  | false =>
      have hs : w.step s cfg (.proto (.accept x t)) = some { w with proto := proto } := by
        simp [World.step, hcall, hp]
      exact hne (congrArg World.proto (hS (.proto (.accept x t)) _ trivial hs))
  | true =>
      simp only [World.inCall, Bool.and_eq_true, decide_eq_true_eq] at hcall
      obtain ⟨rfl, hat⟩ := hcall
      obtain ⟨frame, hat⟩ := Option.isSome_iff_exists.mp hat
      cases hnone : w.call with
      | none =>
          obtain ⟨c', hs⟩ := hJ.lookUp_goes hat hnone
          have hcall := congrArg World.call (hS (.lookUp t) _ trivial hs)
          rw [hnone] at hcall
          cases hcall
      | some t' =>
          obtain ⟨frame', hat', hseen, hwithin⟩ := hJ.inCall t' hnone
          obtain ⟨m', r', hr', -, -⟩ := frameAt_eq_some hat'
          obtain rfl := (hJ.proto.taken x).unique t t' (by rw [hr]; trivial) (by rw [hr']; trivial)
          obtain ⟨data, k, hF⟩ := hseen.inv
          have hidle : w.stream.reader = .idle :=
            (rested hF hS.atRest).reader.resolve_right fun hended => hJ.notAtClose (by
              rw [hended]
              trivial)
          have hs : w.step x cfg (.returns t) = some { w with proto := proto, call := none } := by
            simp [World.step, hnone, hidle, hp]
          have hcall := congrArg World.call (hS (.returns t) _ trivial hs)
          rw [hnone] at hcall
          cases hcall

section still

variable (hH : Healthy s cfg t w) (hS : Still s cfg w)
include hH hS

/-- Where nothing changes any more, each reader has read its wire empty. -/
theorem Healthy.reading (x : RecoveryRole) :
    ∃ m, (w.proto.lane t x).reader = .reading m ∧ (w.proto.lane t x).wire = [] := by
  rcases hS.idle.reader hH.attached x with hreading | ⟨m, r, hr⟩
  · exact hreading
  · exact absurd hr (hS.not_accepting hH.joined x t m r)

/-- It has all that the peer staged. -/
theorem Healthy.received :
    (w.proto.ep s.peer).staged.length ≤ (w.proto.ep s).recovery.lastRecvSeq := by
  obtain ⟨m, hr, hwire⟩ := hH.reading hS s
  have hle := hS.idle.received (s := s.peer) (lanes_reachable (proto_reachable hH.run).reachable)
    hH.attached (by rwa [RecoveryRole.peer_peer]) (by rwa [RecoveryRole.peer_peer])
  rwa [RecoveryRole.peer_peer] at hle

theorem Healthy.taken : w.taken s = (w.proto.ep s.peer).staged.map wireFrame := by
  obtain ⟨m, hr, -⟩ := hH.reading hS s
  have hactive : (w.proto.lane t s).reader.Active := by rw [hr]; trivial
  have haccepted : (w.proto.ep s).accepted = (w.proto.ep s.peer).records := by
    rw [(hH.joined.proto.taken s).accepted_of_active hactive (by simp [hr])]
    exact List.take_of_length_le (by rw [Endpoint.length_records]; exact hH.received hS)
  rw [World.taken, haccepted, ← frames_recordsFrom _ 0 (w.proto.ep s.peer).staged, List.map_map]
  rfl

/-- And it has said so. -/
theorem Healthy.acknowledged : (w.proto.ep s.peer).recovery.replay.replayQueue = [] := by
  have hwriter := hH.attached.writer
  obtain ⟨m, -, hwire⟩ := hH.reading hS s.peer
  have hacked := ((acksInv_reachable (proto_reachable hH.run)).acked (s := s.peer) hwriter
    hH.attached.intact hwire (hS.idle.writing (hwriter _)) (hS.idle.not_scheduled (hwriter _))).1
  rw [RecoveryRole.peer_peer] at hacked
  rw [(hH.joined.proto.flow.endpoint s.peer).keeps.queue, hacked]
  exact List.drop_eq_nil_of_le (by simpa using hH.received hS)

/-- No call is left, as its reader would be inside `accept_frame`. -/
theorem Healthy.noCall : w.call = none := by
  by_contra hsome
  obtain ⟨t', ht'⟩ := Option.ne_none_iff_exists'.mp hsome
  obtain ⟨frame, hat, -, -⟩ := hH.joined.inCall t' ht'
  obtain ⟨m, r, hr, -, -⟩ := frameAt_eq_some hat
  exact hS.not_accepting hH.joined s t' m r hr

/-- All has arrived. -/
theorem Healthy.arrived : Arrived s cfg w := by
  have htaken := hH.taken hS
  have hheld := held_none_of_idle (proto_reachable hH.run) hS.idle hH.attached
    (fun x => hS.not_accepting hH.joined x t) s.peer
  have hout := Endpoint.outbound_nil (hS.idle.writeNext (hH.attached.writer s.peer)) hheld
  obtain ⟨hseen, -⟩ := hH.joined.idle (hH.noCall hS)
  obtain ⟨data, k, hF⟩ := hseen.inv
  have hR := rested hF hS.atRest
  have hsent : w.sent s cfg = w.stream.accepted := by rw [World.sent, ← htaken, hseen.accepted]
  refine ⟨⟨hout, hheld, hH.acknowledged hS⟩, by rw [hsent]; exact hR.dispatched, hR.inbox, hR.jobs,
    ?_⟩
  rintro ⟨fin, hmem, hfin⟩
  refine hR.released (hseen.finished.mpr (.inr ⟨wireFrame fin, ?_, hfin⟩))
  rw [htaken]
  exact List.mem_map_of_mem hmem

end still

/-- **The messages sent on a recovered stream arrive**, once a transport is attached at both ends
that does not break: without a further send, the tasks of both sides bring all of them to the inbox
or the handler's queue, and the acknowledgements empty the replay buffer. -/
theorem resumed_messages_arrive (h : (machine s cfg).ReachableUnder (CalmResumes s cfg) w)
    (hatt : Attached w.proto t) : (machine s cfg).Leads GoesOn (Arrived s cfg) w := by
  refine Machine.leads_of_progress (I := Healthy s cfg t) World.weight
    (fun _ _ _ hH he hs hne => ⟨hH.step he hs, weight_lt hH he hs hne⟩) (fun w hH hG => ?_)
    ⟨h, hatt⟩
  by_contra hnone
  refine hG (hH.arrived fun e w' he hs => ?_)
  by_contra hne
  exact hnone ⟨e, w', he, hs, hne⟩

end arrival

theorem resumed_messages_arrive_dropped :
    (machine .server Delivery.twoNames).Leads GoesOn (Arrived .server Delivery.twoNames)
        (after (droppedRun ++ reattachRun)) ∧
      (after (droppedRun ++ reattachRun)).stream.dispatched = [] := by
  have hinit : (machine .server Delivery.twoNames).init start := ⟨init_eager, rfl, rfl⟩
  have hatt : Attached (after (droppedRun ++ reattachRun)).proto 1 :=
    ⟨by decide, by decide, by decide⟩
  exact ⟨resumed_messages_arrive
    (.exec (droppedRun ++ reattachRun) (.init hinit) rfl (by decide)) hatt, rfl⟩

end Messages

end AdaptiveMsg.Protocol
