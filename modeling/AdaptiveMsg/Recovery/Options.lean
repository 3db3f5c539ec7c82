import AdaptiveMsg.Recovery

/-!
# Recovery — the options

The options of `recovery.rs` and their normalisation.  A `Duration` is a number of nanoseconds
within the bounds of Rust's.

* `normalized_negotiated`: what a server negotiates is normal already, so it is what it encodes.
-/

namespace AdaptiveMsg

/-- `std::time::Duration`: whole seconds in 64 bits, and nanoseconds below a second. -/
structure Duration where
  asNanos : Nat
  le_max : asNanos ≤ 18446744073709551615999999999
  deriving DecidableEq

namespace Duration

/-- `Duration::MAX`. -/
def maxValue : Duration := ⟨18446744073709551615999999999, Nat.le_refl _⟩

def isZero (d : Duration) : Bool := d.asNanos = 0

def asMillis (d : Duration) : Nat := d.asNanos / 1000000

def fromMillis (millis : UInt64) : Duration :=
  ⟨millis.toNat * 1000000, by have := millis.toNat_lt; omega⟩

def saturatingMul (d : Duration) (n : Nat) : Duration :=
  if h : d.asNanos * n ≤ maxValue.asNanos then ⟨d.asNanos * n, h⟩ else maxValue

theorem asNanos_saturatingMul (d : Duration) (n : Nat) :
    (d.saturatingMul n).asNanos = min (d.asNanos * n) maxValue.asNanos := by
  rw [saturatingMul]
  split
  · exact (Nat.min_eq_left ‹_›).symm
  · exact (Nat.min_eq_right (Nat.le_of_not_le ‹_›)).symm

@[simp] theorem asNanos_fromMillis (millis : UInt64) :
    (fromMillis millis).asNanos = millis.toNat * 1000000 := rfl

end Duration

namespace Options

structure NegotiatedRecoveryOptions where
  ackEvery : UInt32
  ackDelay : Duration
  heartbeatInterval : Duration
  heartbeatTimeout : Duration
  deriving DecidableEq

structure ServerRecoveryOptions where
  enable : Bool
  detachedTtl : Duration
  maxReplayBytes : Int
  ackEvery : UInt32
  ackDelay : Duration
  heartbeatInterval : Duration
  heartbeatTimeout : Duration
  deriving DecidableEq

def defaultMaxFrame : Int := 16777216

namespace ServerRecoveryOptions

protected def default : ServerRecoveryOptions where
  enable := false
  detachedTtl := .fromMillis 30000
  maxReplayBytes := 2 * defaultMaxFrame
  ackEvery := 64
  ackDelay := .fromMillis 20
  heartbeatInterval := .fromMillis 30000
  heartbeatTimeout := .fromMillis 90000

end ServerRecoveryOptions

/-- A duration that is not zero, or its default. -/
def orDefault (duration byDefault : Duration) : Duration :=
  if duration.isZero then byDefault else duration

/-- A heartbeat timeout of two intervals at least. -/
def atLeastTwice (interval timeout : Duration) : Duration :=
  if timeout.asNanos < (interval.saturatingMul 2).asNanos then interval.saturatingMul 2 else timeout

namespace ServerRecoveryOptions

def normalized (opts : ServerRecoveryOptions) : ServerRecoveryOptions :=
  let defaults := ServerRecoveryOptions.default
  let interval := orDefault opts.heartbeatInterval defaults.heartbeatInterval
  { opts with
    detachedTtl := orDefault opts.detachedTtl defaults.detachedTtl
    maxReplayBytes :=
      if opts.maxReplayBytes ≤ 0 then defaults.maxReplayBytes else opts.maxReplayBytes
    ackEvery := if opts.ackEvery = 0 then defaults.ackEvery else opts.ackEvery
    ackDelay := orDefault opts.ackDelay defaults.ackDelay
    heartbeatInterval := interval
    heartbeatTimeout :=
      atLeastTwice interval (orDefault opts.heartbeatTimeout defaults.heartbeatTimeout) }

def negotiated (opts : ServerRecoveryOptions) : NegotiatedRecoveryOptions :=
  let opts := opts.normalized
  ⟨opts.ackEvery, opts.ackDelay, opts.heartbeatInterval, opts.heartbeatTimeout⟩

end ServerRecoveryOptions

namespace NegotiatedRecoveryOptions

protected def default : NegotiatedRecoveryOptions := ServerRecoveryOptions.default.negotiated

def normalized (opts : NegotiatedRecoveryOptions) : NegotiatedRecoveryOptions :=
  let defaults := NegotiatedRecoveryOptions.default
  let interval := orDefault opts.heartbeatInterval defaults.heartbeatInterval
  { ackEvery := if opts.ackEvery = 0 then defaults.ackEvery else opts.ackEvery
    ackDelay := orDefault opts.ackDelay defaults.ackDelay
    heartbeatInterval := interval
    heartbeatTimeout :=
      atLeastTwice interval (orDefault opts.heartbeatTimeout defaults.heartbeatTimeout) }

/-- What the acknowledgement state uses of the options. -/
def acks (opts : NegotiatedRecoveryOptions) : AdaptiveMsg.NegotiatedRecoveryOptions :=
  ⟨opts.ackEvery.toNat, opts.ackDelay.asNanos⟩

end NegotiatedRecoveryOptions

/-! ### Normalising -/

theorem orDefault_isZero {d byDefault : Duration} (h : byDefault.isZero = false) :
    (orDefault d byDefault).isZero = false := by
  rw [orDefault]
  split
  · exact h
  · exact Bool.eq_false_iff.2 ‹_›

theorem orDefault_of_pos {d : Duration} (h : d.isZero = false) (byDefault : Duration) :
    orDefault d byDefault = d := if_neg (Bool.eq_false_iff.1 h)

theorem atLeastTwice_le (interval timeout : Duration) :
    (interval.saturatingMul 2).asNanos ≤ (atLeastTwice interval timeout).asNanos := by
  rw [atLeastTwice]
  split
  · exact Nat.le_refl _
  · exact Nat.le_of_not_lt ‹_›

theorem atLeastTwice_isZero {interval timeout : Duration} (h : timeout.isZero = false) :
    (atLeastTwice interval timeout).isZero = false := by
  have hpos : 0 < timeout.asNanos := Nat.pos_of_ne_zero (of_decide_eq_false h)
  refine decide_eq_false (Nat.ne_of_gt ?_)
  rw [atLeastTwice]
  split
  · exact Nat.lt_trans hpos ‹_›
  · exact hpos

namespace NegotiatedRecoveryOptions

/-- Options that normalising leaves as they are. -/
structure Normal (opts : NegotiatedRecoveryOptions) : Prop where
  ackEvery : opts.ackEvery ≠ 0
  ackDelay : opts.ackDelay.isZero = false
  heartbeatInterval : opts.heartbeatInterval.isZero = false
  heartbeatTimeout : opts.heartbeatTimeout.isZero = false
  twice : (opts.heartbeatInterval.saturatingMul 2).asNanos ≤ opts.heartbeatTimeout.asNanos

theorem Normal.normalized {opts : NegotiatedRecoveryOptions} (h : opts.Normal) :
    opts.normalized = opts := by
  simp only [NegotiatedRecoveryOptions.normalized, if_neg h.ackEvery, orDefault_of_pos h.ackDelay,
    orDefault_of_pos h.heartbeatInterval, orDefault_of_pos h.heartbeatTimeout, atLeastTwice,
    if_neg (Nat.not_lt.2 h.twice)]

end NegotiatedRecoveryOptions

/-- What normalising gives for a field set by `u`, with a default that is set. -/
theorem ackEvery_ne_zero (n : UInt32) : (if n = 0 then (64 : UInt32) else n) ≠ 0 := by
  split
  · decide
  · exact ‹_›

theorem normal_negotiated (opts : ServerRecoveryOptions) : opts.negotiated.Normal where
  ackEvery := ackEvery_ne_zero _
  ackDelay := orDefault_isZero rfl
  heartbeatInterval := orDefault_isZero rfl
  heartbeatTimeout := atLeastTwice_isZero (orDefault_isZero rfl)
  twice := atLeastTwice_le _ _

/-- What a server negotiates is normal already. -/
theorem normalized_negotiated (opts : ServerRecoveryOptions) :
    opts.negotiated.normalized = opts.negotiated := (normal_negotiated opts).normalized

end Options

end AdaptiveMsg
