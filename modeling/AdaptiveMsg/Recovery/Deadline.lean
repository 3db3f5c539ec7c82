import Mathlib.Data.Nat.Basic
import Mathlib.Order.Basic

/-!
# Recovery — the deadline of the reader

`read_frame_within` of `recovery_runtime.rs`.  All the reads of a transport share one timer, which a
read sets anew only when it finds that the timer has fired.  An instant is a number; the timer fires
at its deadline, and the task is polled at any instants, but not later than what it waits for is
ready.

* `loop_readFrameWithin`: what a read returns, and when, wherever the earlier reads left the timer.
* `reads_share_deadline`: a sequence of reads returns what it would with a timer of its own for each.
* `complete_at_deadline`: a frame that is complete at the very instant of the deadline is returned.
-/

namespace AdaptiveMsg

namespace Deadline

variable {α : Type*}

/-- What a read returns: what `read_frame` does, or `Error::RecvTimeout`. -/
inductive Outcome (α : Type*) where
  | read (frame : α)
  | recvTimeout
  deriving DecidableEq, Repr

/-- The next frame: when `read_frame` is ready with it, if ever, and what it then returns. -/
abbrev Arrival (α : Type*) := Option (Nat × α)

/-- What `read_frame` is ready with at `now`. -/
def Arrival.ready (frame : Arrival α) (now : Nat) : Option α :=
  frame.bind fun f => if f.1 ≤ now then some f.2 else none

/-- One turn of the loop around `select!`. -/
inductive Turn (α : Type*) where
  | returned (o : Outcome α)
  /-- The timer is set to another deadline. -/
  | reset (deadline : Nat)
  | pending
  deriving DecidableEq

/-- A turn of `read_frame_within`; the `select!` is biased, and looks for the frame first. -/
def turn (timeout readStarted : Nat) (frame : Arrival α) (now deadline : Nat) : Turn α :=
  match frame.ready now with
  | some read => .returned (.read read)
  | none =>
    if timeout ≠ 0 ∧ deadline ≤ now then
      let expires := readStarted + timeout
      if expires ≤ now then .returned .recvTimeout else .reset expires
    else .pending

/-- A turn of a read whose timer is its own. -/
def freshTurn (timeout : Nat) (frame : Arrival α) (now deadline : Nat) : Turn α :=
  match frame.ready now with
  | some read => .returned (.read read)
  | none => if timeout ≠ 0 ∧ deadline ≤ now then .returned .recvTimeout else .pending

/-- Not later than the frame is complete or the timer fires. -/
structure InTime (timeout : Nat) (frame : Arrival α) (deadline next : Nat) : Prop where
  frame : ∀ f, frame = some f → next ≤ f.1
  timer : timeout ≠ 0 → next ≤ deadline

/-- The turns of a read, from an instant and a deadline to what it returns, when, and the deadline
that it leaves. -/
inductive Loop (timeout : Nat) (frame : Arrival α) (turn : Nat → Nat → Turn α) :
    Nat → Nat → Outcome α → Nat → Nat → Prop where
  | returned {now deadline : Nat} {o : Outcome α} (h : turn now deadline = .returned o) :
      Loop timeout frame turn now deadline o now deadline
  | reset {now deadline expires t left : Nat} {o : Outcome α}
      (h : turn now deadline = .reset expires) (hl : Loop timeout frame turn now expires o t left) :
      Loop timeout frame turn now deadline o t left
  | woken {now deadline next t left : Nat} {o : Outcome α} (h : turn now deadline = .pending)
      (hle : now ≤ next) (hnext : InTime timeout frame deadline next)
      (hl : Loop timeout frame turn next deadline o t left) :
      Loop timeout frame turn now deadline o t left

/-- How a read behaves: when it starts, the deadline it finds and the frame that comes, then what it
returns, when, and the deadline it leaves. -/
abbrev Read (α : Type*) := Nat → Nat → Arrival α → Outcome α → Nat → Nat → Prop

def ReadFrameWithin (timeout : Nat) : Read α := fun readStarted deadline frame =>
  Loop timeout frame (turn timeout readStarted frame) readStarted deadline

/-- A read that arms a new timer for `readStarted + timeout`, whatever deadline it finds. -/
def FreshRead (timeout : Nat) : Read α := fun readStarted _ frame =>
  Loop timeout frame (freshTurn timeout frame) readStarted (readStarted + timeout)

/-- A read to come: how long the task is busy before it, and the frame. -/
structure Call (α : Type*) where
  delay : Nat
  frame : Arrival α
  deriving DecidableEq

/-- One read after another, with the results and their instants. -/
inductive Reads (read : Read α) : Nat → Nat → List (Call α) → List (Outcome α × Nat) → Prop where
  | nil (now deadline : Nat) : Reads read now deadline [] []
  | cons {now deadline t left : Nat} {call : Call α} {calls : List (Call α)} {o : Outcome α}
      {rest : List (Outcome α × Nat)} (h : read (now + call.delay) deadline call.frame o t left)
      (hs : Reads read t left calls rest) :
      Reads read now deadline (call :: calls) ((o, t) :: rest)

/-- The reads of `spawn_recovery_reader`, which arms the timer when it starts, at `spawned`. -/
def RecoveryReads (timeout spawned : Nat) : List (Call α) → List (Outcome α × Nat) → Prop :=
  Reads (ReadFrameWithin timeout) spawned (spawned + timeout)

/-- The reads, with a timer of its own for each. -/
def FreshReads (timeout spawned : Nat) : List (Call α) → List (Outcome α × Nat) → Prop :=
  Reads (FreshRead timeout) spawned (spawned + timeout)

/-! ### What a read returns -/

/-- What a read that has waited until `now` and expires at `expires` returns, and when. -/
def result (expires now : Nat) : Arrival α → Outcome α × Nat
  | some (arrival, read) =>
    if arrival ≤ expires then (.read read, max arrival now) else (.recvTimeout, expires)
  | none => (.recvTimeout, expires)

/-- What one read after another returns, and when. -/
def results (timeout : Nat) : Nat → List (Call α) → List (Outcome α × Nat)
  | _, [] => []
  | now, call :: calls =>
    let started := now + call.delay
    let r := result (started + timeout) started call.frame
    r :: results timeout r.2 calls

variable {timeout readStarted now deadline next t left expires : Nat} {frame : Arrival α}
variable {o : Outcome α} {calls : List (Call α)} {rs : List (Outcome α × Nat)}

theorem ready_some {read : α} (h : frame.ready now = some read) :
    ∃ arrival, frame = some (arrival, read) ∧ arrival ≤ now := by
  obtain ⟨⟨arrival, r⟩, rfl, hf⟩ := Option.bind_eq_some_iff.mp h
  split at hf
  · cases hf
    exact ⟨arrival, rfl, ‹_›⟩
  · cases hf

theorem ready_none (h : frame.ready now = none) {f : Nat × α} (hf : frame = some f) : now < f.1 := by
  subst hf
  by_contra hle
  simp [Arrival.ready, Nat.le_of_not_lt hle] at h

theorem result_of_ready {read : α} (h : frame.ready now = some read) (hle : now ≤ expires) :
    result expires now frame = (.read read, now) := by
  obtain ⟨arrival, rfl, harr⟩ := ready_some h
  simp only [result, if_pos (Nat.le_trans harr hle), Nat.max_eq_right harr]

theorem result_of_expired (h : frame.ready expires = none) :
    result expires expires frame = (.recvTimeout, expires) := by
  cases frame with
  | none => rfl
  | some f =>
      have hlt : expires < f.1 := ready_none h rfl
      simp only [result, if_neg (Nat.not_le.2 hlt)]

/-- Waiting until `next` changes nothing. -/
theorem result_later (hle : now ≤ next) (h : ∀ f, frame = some f → next ≤ f.1) :
    result expires next frame = result expires now frame := by
  cases frame with
  | none => rfl
  | some f =>
      have hnext := h f rfl
      simp only [result, Nat.max_eq_left hnext, Nat.max_eq_left (Nat.le_trans hle hnext)]

theorem le_result (hle : now ≤ expires) : now ≤ (result expires now frame).2 := by
  cases frame with
  | none => exact hle
  | some f =>
      simp only [result]
      split
      · exact Nat.le_max_right _ _
      · exact hle

/-- The three turns of `read_frame_within`. -/
theorem turn_cases (timeout readStarted : Nat) (frame : Arrival α) (now deadline : Nat) :
    (∃ read, frame.ready now = some read ∧
      turn timeout readStarted frame now deadline = .returned (.read read)) ∨
    frame.ready now = none ∧
      ((timeout ≠ 0 ∧ deadline ≤ now ∧ readStarted + timeout ≤ now ∧
        turn timeout readStarted frame now deadline = .returned .recvTimeout) ∨
      (timeout ≠ 0 ∧ deadline ≤ now ∧ now < readStarted + timeout ∧
        turn timeout readStarted frame now deadline = .reset (readStarted + timeout)) ∨
      ((timeout ≠ 0 → now < deadline) ∧
        turn timeout readStarted frame now deadline = .pending)) := by
  cases hr : frame.ready now with
  | some read => exact .inl ⟨read, rfl, by simp only [turn, hr]⟩
  | none =>
      refine .inr ⟨rfl, ?_⟩
      by_cases hdue : timeout ≠ 0 ∧ deadline ≤ now
      · by_cases hexp : readStarted + timeout ≤ now
        · exact .inl ⟨hdue.1, hdue.2, hexp, by simp only [turn, hr, if_pos hdue, if_pos hexp]⟩
        · exact .inr (.inl ⟨hdue.1, hdue.2, Nat.lt_of_not_le hexp,
            by simp only [turn, hr, if_pos hdue, if_neg hexp]⟩)
      · exact .inr (.inr ⟨fun h => Nat.lt_of_not_le fun hle => hdue ⟨h, hle⟩,
          by simp only [turn, hr, if_neg hdue]⟩)

/-- The deadline never lies after the read's own, so the read ends in time, by a frame or by the
timer. -/
theorem loop_result (ht : timeout ≠ 0) (hnow : now ≤ readStarted + timeout)
    (hdead : deadline ≤ readStarted + timeout)
    (h : Loop timeout frame (turn timeout readStarted frame) now deadline o t left) :
    (o, t) = result (readStarted + timeout) now frame ∧ left ≤ readStarted + timeout := by
  induction h with
  | returned h =>
      rcases turn_cases timeout readStarted frame _ _ with ⟨read, hr, hturn⟩ | ⟨hr, hturn⟩
      · cases h.symm.trans hturn
        exact ⟨(result_of_ready hr hnow).symm, hdead⟩
      · rcases hturn with ⟨-, -, hexp, hturn⟩ | ⟨-, -, -, hturn⟩ | ⟨-, hturn⟩
        · cases h.symm.trans hturn
          obtain rfl := Nat.le_antisymm hnow hexp
          exact ⟨(result_of_expired hr).symm, hdead⟩
        · cases h.symm.trans hturn
        · cases h.symm.trans hturn
  | reset h _ ih =>
      rcases turn_cases timeout readStarted frame _ _ with ⟨read, -, hturn⟩ | ⟨-, hturn⟩
      · cases h.symm.trans hturn
      · rcases hturn with ⟨-, -, -, hturn⟩ | ⟨-, -, -, hturn⟩ | ⟨-, hturn⟩
        · cases h.symm.trans hturn
        · cases h.symm.trans hturn
          exact ih hnow (Nat.le_refl _)
        · cases h.symm.trans hturn
  | woken _ hle hnext _ ih =>
      have hin := Nat.le_trans (hnext.timer ht) hdead
      obtain ⟨hr, hleft⟩ := ih hin hdead
      exact ⟨hr.trans (result_later hle hnext.frame), hleft⟩

/-- The instant at which the task is woken at the latest. -/
def wakeAt (frame : Arrival α) (deadline : Nat) : Nat :=
  match frame with
  | some f => min f.1 deadline
  | none => deadline

theorem wakeAt_inTime (timeout : Nat) (frame : Arrival α) (deadline : Nat) :
    InTime timeout frame deadline (wakeAt frame deadline) := by
  cases frame with
  | none => exact ⟨by simp, fun _ => Nat.le_refl _⟩
  | some f =>
      refine ⟨?_, fun _ => Nat.min_le_right _ _⟩
      rintro _ ⟨⟩
      exact Nat.min_le_left _ _

theorem le_wakeAt (hr : frame.ready now = none) (hdead : now ≤ deadline) :
    now ≤ wakeAt frame deadline := by
  cases frame with
  | none => exact hdead
  | some f => exact Nat.le_min.2 ⟨Nat.le_of_lt (ready_none hr rfl), hdead⟩

/-- The frame is complete at the latest wake-up, unless that is the timer's. -/
theorem wakeAt_eq (hr : frame.ready (wakeAt frame deadline) = none) :
    wakeAt frame deadline = deadline := by
  cases frame with
  | none => rfl
  | some f =>
      have hlt : min f.1 deadline < f.1 := ready_none hr rfl
      exact Nat.min_eq_right (by omega)

/-- A read ends. -/
def Ends (timeout readStarted : Nat) (frame : Arrival α) (now deadline : Nat) : Prop :=
  ∃ o t left, Loop timeout frame (turn timeout readStarted frame) now deadline o t left

theorem ends_of_returned (h : turn timeout readStarted frame now deadline = .returned o) :
    Ends timeout readStarted frame now deadline := ⟨o, now, deadline, .returned h⟩

/-- It waits for the frame or for the timer, and ends if it does once the timer has fired. -/
theorem ends_of_wait (hr : frame.ready now = none) (hle : now ≤ deadline)
    (hturn : turn timeout readStarted frame now deadline = .pending)
    (hfired : Ends timeout readStarted frame deadline deadline) :
    Ends timeout readStarted frame now deadline := by
  have hwake : Ends timeout readStarted frame (wakeAt frame deadline) deadline := by
    cases hr' : frame.ready (wakeAt frame deadline) with
    | none =>
        rw [wakeAt_eq hr']
        exact hfired
    | some read => exact ends_of_returned (o := .read read) (by simp only [turn, hr'])
  obtain ⟨o, t, left, hl⟩ := hwake
  exact ⟨o, t, left, .woken hturn (le_wakeAt hr hle) (wakeAt_inTime _ _ _) hl⟩

/-- A read whose timer is set to its own deadline ends. -/
theorem ends_own (ht : timeout ≠ 0) (hnow : now ≤ readStarted + timeout) :
    Ends timeout readStarted frame now (readStarted + timeout) := by
  -- at the deadline it returns, with or without the frame
  have hfired : Ends timeout readStarted frame (readStarted + timeout) (readStarted + timeout) := by
    rcases turn_cases timeout readStarted frame (readStarted + timeout) (readStarted + timeout) with
      ⟨read, -, hturn⟩ | ⟨-, ⟨-, -, -, hturn⟩ | ⟨-, -, hlt, -⟩ | ⟨hlt, -⟩⟩
    · exact ends_of_returned hturn
    · exact ends_of_returned hturn
    · exact absurd hlt (Nat.lt_irrefl _)
    · exact absurd (hlt ht) (Nat.lt_irrefl _)
  rcases turn_cases timeout readStarted frame now (readStarted + timeout) with
    ⟨read, -, hturn⟩ | ⟨hr, ⟨-, -, -, hturn⟩ | ⟨-, hle, hlt, -⟩ | ⟨-, hturn⟩⟩
  · exact ends_of_returned hturn
  · exact ends_of_returned hturn
  · exact absurd hle (Nat.not_le.2 hlt)
  · exact ends_of_wait hr hnow hturn hfired

/-- Once the timer of an earlier read has fired, it is set for this one. -/
theorem ends_fired (ht : timeout ≠ 0) (hnow : now ≤ readStarted + timeout) (hdead : deadline ≤ now) :
    Ends timeout readStarted frame now deadline := by
  rcases turn_cases timeout readStarted frame now deadline with
    ⟨read, -, hturn⟩ | ⟨-, ⟨-, -, -, hturn⟩ | ⟨-, -, -, hturn⟩ | ⟨hlt, -⟩⟩
  · exact ends_of_returned hturn
  · exact ends_of_returned hturn
  · have hown : Ends timeout readStarted frame now (readStarted + timeout) := ends_own ht hnow
    obtain ⟨o, t, left, hl⟩ := hown
    exact ⟨o, t, left, .reset hturn hl⟩
  · exact absurd hdead (Nat.not_le.2 (hlt ht))

/-- A read ends, wherever the earlier ones left the timer. -/
theorem ends (ht : timeout ≠ 0) (hnow : now ≤ readStarted + timeout)
    (hdead : deadline ≤ readStarted + timeout) : Ends timeout readStarted frame now deadline := by
  rcases Nat.lt_or_ge now deadline with hlt | hge
  · rcases turn_cases timeout readStarted frame now deadline with
      ⟨read, -, hturn⟩ | ⟨hr, ⟨-, hle, -, -⟩ | ⟨-, hle, -, -⟩ | ⟨-, hturn⟩⟩
    · exact ends_of_returned hturn
    · exact absurd hle (Nat.not_le.2 hlt)
    · exact absurd hle (Nat.not_le.2 hlt)
    · exact ends_of_wait hr (Nat.le_of_lt hlt) hturn (ends_fired ht hdead (Nat.le_refl _))
  · exact ends_fired ht hnow hge

/-! ### A timer of its own for each read -/

/-- A timer that is set to the read's own deadline is not set again. -/
theorem turn_eq_freshTurn (timeout readStarted : Nat) (frame : Arrival α) (now : Nat) :
    turn timeout readStarted frame now (readStarted + timeout) =
      freshTurn timeout frame now (readStarted + timeout) := by
  rw [turn, freshTurn]
  cases frame.ready now with
  | some read => rfl
  | none =>
      by_cases hdue : timeout ≠ 0 ∧ readStarted + timeout ≤ now
      · simp only [if_pos hdue, if_pos hdue.2]
      · simp only [if_neg hdue]

theorem freshTurn_ne_reset (timeout : Nat) (frame : Arrival α) (now deadline expires : Nat) :
    freshTurn timeout frame now deadline ≠ .reset expires := by
  rw [freshTurn]
  repeat' split
  all_goals simp

/-- Two loops that take the same turns at a deadline, and never set another. -/
theorem Loop.congr {turn turn' : Nat → Nat → Turn α} (heq : ∀ now, turn now deadline = turn' now deadline)
    (hset : ∀ now expires, turn now deadline ≠ .reset expires)
    (h : Loop timeout frame turn now deadline o t left) :
    Loop timeout frame turn' now deadline o t left := by
  induction h with
  | returned h => exact .returned (heq _ ▸ h)
  | reset h => exact absurd h (hset _ _)
  | woken h hle hnext _ ih => exact .woken (heq _ ▸ h) hle hnext (ih heq hset)

/-- `FreshRead` is `read_frame_within` with the timer set for it. -/
theorem freshRead_iff : FreshRead timeout readStarted deadline frame o t left ↔
    ReadFrameWithin timeout readStarted (readStarted + timeout) frame o t left := by
  have heq := turn_eq_freshTurn timeout readStarted frame
  have hset := fun now => freshTurn_ne_reset timeout frame now (readStarted + timeout)
  constructor
  · exact Loop.congr (fun now => (heq now).symm) hset
  · exact Loop.congr heq fun now expires => heq now ▸ hset now expires

/-! ### One read after another -/

/-- A way to read that is told by `result`, if the timer it finds is not set too late. -/
structure Told (timeout : Nat) (read : Read α) : Prop where
  iff {readStarted deadline : Nat} {frame : Arrival α} {o : Outcome α} {t : Nat}
    (hdead : deadline ≤ readStarted + timeout) :
    (∃ left, read readStarted deadline frame o t left) ↔
      (o, t) = result (readStarted + timeout) readStarted frame
  left_le {readStarted deadline : Nat} {frame : Arrival α} {o : Outcome α} {t left : Nat}
    (hdead : deadline ≤ readStarted + timeout) (h : read readStarted deadline frame o t left) :
    left ≤ readStarted + timeout

theorem told_readFrameWithin (ht : timeout ≠ 0) : Told timeout (ReadFrameWithin timeout : Read α) where
  iff hdead := by
    refine ⟨fun ⟨left, h⟩ => (loop_result ht (Nat.le_add_right _ _) hdead h).1, fun h => ?_⟩
    obtain ⟨o', t', left, hl⟩ := ends ht (Nat.le_add_right _ _) hdead
    cases h.trans (loop_result ht (Nat.le_add_right _ _) hdead hl).1.symm
    exact ⟨left, hl⟩
  left_le hdead h := (loop_result ht (Nat.le_add_right _ _) hdead h).2

theorem told_freshRead (ht : timeout ≠ 0) : Told timeout (FreshRead timeout : Read α) where
  iff _ := by
    rw [← (told_readFrameWithin ht).iff (Nat.le_refl _)]
    exact exists_congr fun _ => freshRead_iff
  left_le _ h := (told_readFrameWithin ht).left_le (Nat.le_refl _) (freshRead_iff.1 h)

/-- The reads of a sequence, from a timer that is not set too late for the first. -/
theorem Told.reads_iff {read : Read α} (htold : Told timeout read) (hdead : deadline ≤ now + timeout) :
    Reads read now deadline calls rs ↔ rs = results timeout now calls := by
  induction calls generalizing now deadline rs with
  | nil =>
      constructor
      · rintro ⟨⟩
        rfl
      · rintro rfl
        exact .nil now deadline
  | cons call calls ih =>
      have hstart : deadline ≤ now + call.delay + timeout :=
        Nat.le_trans hdead (Nat.add_le_add_right (Nat.le_add_right _ _) _)
      -- no read ends before it starts, so the next one finds the timer in time too
      have hlate : ∀ {t left}, (∃ o, (o, t) = result (now + call.delay + timeout) (now + call.delay)
          call.frame) → left ≤ now + call.delay + timeout → left ≤ t + timeout := by
        rintro t left ⟨o, hr⟩ hle
        have hge : now + call.delay ≤
            (result (now + call.delay + timeout) (now + call.delay) call.frame).2 :=
          le_result (Nat.le_add_right _ _)
        rw [← hr] at hge
        exact Nat.le_trans hle (Nat.add_le_add_right hge _)
      constructor
      · rintro (_ | @⟨_, _, t, left, _, _, o, rest, h, hs⟩)
        have hr := (htold.iff hstart).1 ⟨left, h⟩
        have hrest := (ih (hlate ⟨o, hr⟩ (htold.left_le hstart h))).1 hs
        rw [results, ← hr, hrest]
      · rintro rfl
        have hread : ∃ left, read (now + call.delay) deadline call.frame _ _ left :=
          (htold.iff hstart).2 rfl
        obtain ⟨left, h⟩ := hread
        exact .cons h ((ih (hlate ⟨_, rfl⟩ (htold.left_le hstart h))).2 rfl)

/-- **The shared timer is as good as a new one for each read.**  A sequence of reads returns, call by
call, what it returns with a timer of its own for each read, at the same instants: a frame that is
complete by the instant `timeout` after the start of the read, and otherwise `RecvTimeout` at it. -/
theorem reads_share_deadline (ht : timeout ≠ 0) (spawned : Nat) (calls : List (Call α))
    (rs : List (Outcome α × Nat)) :
    (RecoveryReads timeout spawned calls rs ↔ FreshReads timeout spawned calls rs) ∧
      (RecoveryReads timeout spawned calls rs ↔ rs = results timeout spawned calls) := by
  have hshared : RecoveryReads timeout spawned calls rs ↔ rs = results timeout spawned calls :=
    (told_readFrameWithin ht).reads_iff (Nat.le_refl _)
  have hfresh : FreshReads timeout spawned calls rs ↔ rs = results timeout spawned calls :=
    (told_freshRead ht).reads_iff (Nat.le_refl _)
  exact ⟨hshared.trans hfresh.symm, hshared⟩

/-- The first frame comes in time, the timer fires while it is delivered, and the second read
waits for the whole of its own time. -/
theorem reads_share_deadline_slow :
    RecoveryReads 10 0 [⟨0, some (8, true)⟩, ⟨7, none⟩] [(.read true, 8), (.recvTimeout, 25)] :=
  (reads_share_deadline (by decide) 0 _ _).2.2 (by decide)

/-- A frame that is complete at the very instant of the deadline is returned, since the `select!`
looks for it first: not only those before it are. -/
theorem complete_at_deadline : ¬∀ (timeout spawned : Nat) (call : Call Bool) (read : Bool) (t : Nat),
    timeout ≠ 0 → RecoveryReads timeout spawned [call] [(.read read, t)] →
      ∃ arrival, call.frame = some (arrival, read) ∧ arrival < spawned + call.delay + timeout := by
  intro hall
  have hnext : InTime 10 (some (10, true)) 10 10 := ⟨by simp, fun _ => Nat.le_refl _⟩
  have hread : RecoveryReads 10 0 [⟨0, some (10, true)⟩] [(.read true, 10)] :=
    .cons (.woken (by decide) (by decide) hnext (.returned (by decide))) (.nil _ _)
  obtain ⟨arrival, hf, hlt⟩ := hall 10 0 _ true 10 (by decide) hread
  cases hf
  exact absurd hlt (by decide)

end Deadline

end AdaptiveMsg
