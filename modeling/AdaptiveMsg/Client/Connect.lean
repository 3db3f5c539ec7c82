import AdaptiveMsg.Wire.Header

/-!
# Client — connecting until a deadline

The retry loop of `Client::connect_with`.  What the client meets is the environment's choice: how
each dial, handshake and attach ends and when, and by how much each sleep overruns.  Times are
nanoseconds.

The loop has no test of the deadline of its own: it ends by the timeout of an attempt.
`connect_returns`: it returns, after one attempt past the deadline at most, iff no attempt past the
deadline ends at once in a dial that may be retried.  `connect_retries_forever`: against a socket
that refuses at once it never returns.
-/

namespace AdaptiveMsg.Client

def connectRetryMinBackoff : Nat := 100000000
def connectRetryMaxBackoff : Nat := 2000000000

/-! ### One attempt -/

/-- What a future gives, and how long after its first poll; it may never be ready. -/
structure Future (α : Type) where
  ready : Option Nat
  output : Except Error α

/-- What a future run until a deadline fails with: `ConnectTimeout(None)`, or its own error. -/
inductive Failure where
  | timeout
  | error (err : Error)
  deriving DecidableEq, Repr

inductive ConnectError where
  /-- The server could not be reached; worth retrying. -/
  | dial (err : Error)
  | other (failure : Failure)
  deriving DecidableEq, Repr

/-- `before`, from `now`: what it gives and when, or none if it waits forever.  `timeout_at` polls
the future first. -/
def before {α : Type} (deadline : Option Nat) (now : Nat) (fut : Future α) :
    Option (Except Failure α × Nat) :=
  let output := fut.output.mapError .error
  match deadline, fut.ready with
  | none, none => none
  | none, some delay => some (output, now + delay)
  | some _, some 0 => some (output, now)
  | some deadline, some delay =>
    if now + delay ≤ deadline then some (output, now + delay)
    else some (.error .timeout, max now deadline)
  | some deadline, none => some (.error .timeout, max now deadline)

/-- `is_dial_error`, of the error of a dial. -/
def isDialError : Error → Bool
  | .io .invalidInput | .io .unsupported => false
  | .io _ => true
  | _ => false

/-- What a connection meets: its dial, its handshake, which settles a version, whether its attach is
accepted, and its start. -/
structure Meets where
  dial : Future Unit
  handshake : Future UInt8
  attach : Future Bool
  start : Except Error Unit

abbrev AttemptResult := Option (Except ConnectError Unit × Nat)

/-- Goes on with what `before` gave, if it did not fail. -/
def andThen {α : Type} (result : Option (Except Failure α × Nat)) (fails : Failure → ConnectError)
    (rest : α → Nat → AttemptResult) : AttemptResult :=
  match result with
  | none => none
  | some (.error failure, now) => some (.error (fails failure), now)
  | some (.ok a, now) => rest a now

def dialFailure : Failure → ConnectError
  | .timeout => .other .timeout
  | .error err => if isDialError err then .dial err else .other (.error err)

def connectVersion (deadline : Option Nat) (now : Nat) (meets : Meets) : AttemptResult :=
  andThen (before deadline now meets.dial) dialFailure fun _ now =>
  andThen (before deadline now meets.handshake) .other fun version now =>
  let start now := some (meets.start.mapError fun err => .other (.error err), now)
  if version ≠ protocolVersionV3 then start now
  else
    andThen (before deadline now meets.attach) .other fun accepted now =>
    if accepted then start now
    else some (.error (.other (.error (.resumeRejected "initial attach rejected"))), now)

/-- The loop of `connect_attempt`, whose last error is `lastErr`. -/
def connectVersions (deadline : Option Nat) (meets : UInt8 → Meets) :
    List UInt8 → ConnectError → Nat → AttemptResult
  | [], lastErr, now => some (.error lastErr, now)
  | version :: versions, _, now =>
    match connectVersion deadline now (meets version) with
    | none => none
    | some (.ok (), now) => some (.ok (), now)
    | some (.error err, now) =>
      if version = protocolVersionV3 ∧
          err = .other (.error (.unsupportedFrameVersion protocolVersionV2)) then
        connectVersions deadline meets versions err now
      else some (.error err, now)

def versions (useRecovery : Bool) : List UInt8 :=
  if useRecovery then [protocolVersionV3, protocolVersionV2] else [protocolVersionV2]

def connectAttempt (useRecovery : Bool) (deadline : Option Nat) (meets : UInt8 → Meets) (now : Nat) :
    AttemptResult :=
  connectVersions deadline meets (versions useRecovery) (.other (.error .closed)) now

/-! ### The loop -/

/-- What `connect_with` returns. -/
inductive Returned where
  | connected
  /-- `ConnectTimeout`, with the last failed dial. -/
  | timeout (lastDialErr : Option Error)
  | error (err : Error)
  deriving DecidableEq, Repr

structure Loop where
  now : Nat
  backoff : Nat
  lastDialErr : Option Error
  returned : Option Returned
  /-- The attempts begun at or after the deadline (not part of the program's state). -/
  late : Nat
  deriving DecidableEq, Repr

/-- What an attempt meets, and by how much the sleep after it overruns. -/
structure Env where
  meets : UInt8 → Meets
  overrun : Nat

/-- One turn of the loop. -/
def Loop.turn (useRecovery : Bool) (deadline : Option Nat) (s : Loop) (env : Env) : Option Loop :=
  (connectAttempt useRecovery deadline env.meets s.now).map fun (result, now) =>
    let late := if deadline.any (· ≤ s.now) then s.late + 1 else s.late
    match result, deadline with
    | .ok (), _ => { s with now := now, late := late, returned := some .connected }
    | .error (.dial err), some deadline =>
      { s with
        now := now + min s.backoff (deadline - now) + env.overrun
        backoff := min (s.backoff * 2) connectRetryMaxBackoff
        lastDialErr := some err
        late := late }
    | .error (.other .timeout), _ =>
      { s with now := now, late := late, returned := some (.timeout s.lastDialErr) }
    | .error (.dial err), none | .error (.other (.error err)), _ =>
      { s with now := now, late := late, returned := some (.error err) }

/-- `connect_with` from `start`, after `n` turns: none if it waits forever. -/
def run (useRecovery : Bool) (connectTimeout : Option Nat) (start : Nat) (env : Nat → Env) :
    Nat → Option Loop
  | 0 => some ⟨start, connectRetryMinBackoff, none, none, 0⟩
  | n + 1 => (run useRecovery connectTimeout start env n).bind fun s =>
    if s.returned.isSome then some s
    else s.turn useRecovery (connectTimeout.map (start + ·)) (env n)

/-! ### An attempt past the deadline -/

def Future.GivesAtOnce {α : Type} (fut : Future α) (output : Except Error α) : Prop :=
  fut.ready = some 0 ∧ fut.output = output

/-- The ways in which a connection fails at once, with nothing to wait for. -/
inductive Meets.FailsAtOnce (meets : Meets) : ConnectError → Prop where
  | dial {err : Error} (h : meets.dial.GivesAtOnce (.error err)) :
      FailsAtOnce meets (dialFailure (.error err))
  | handshake {err : Error} (h : meets.dial.GivesAtOnce (.ok ()))
      (hh : meets.handshake.GivesAtOnce (.error err)) : FailsAtOnce meets (.other (.error err))
  | start {version : UInt8} {err : Error} (h : meets.dial.GivesAtOnce (.ok ()))
      (hh : meets.handshake.GivesAtOnce (.ok version))
      (ha : version = protocolVersionV3 → meets.attach.GivesAtOnce (.ok true))
      (hs : meets.start = .error err) : FailsAtOnce meets (.other (.error err))
  | attach {err : Error} (h : meets.dial.GivesAtOnce (.ok ()))
      (hh : meets.handshake.GivesAtOnce (.ok protocolVersionV3))
      (ha : meets.attach.GivesAtOnce (.error err)) : FailsAtOnce meets (.other (.error err))
  | rejected (h : meets.dial.GivesAtOnce (.ok ()))
      (hh : meets.handshake.GivesAtOnce (.ok protocolVersionV3))
      (ha : meets.attach.GivesAtOnce (.ok false)) :
      FailsAtOnce meets (.other (.error (.resumeRejected "initial attach rejected")))

/-- The error of a client that falls back to version 2. -/
def fallbackError : ConnectError := .other (.error (.unsupportedFrameVersion protocolVersionV2))

/-- The attempt ends at once in a dial that may be retried, with `err`: that of the first version,
or of version 2 after a fallback. -/
def DialsInVain (useRecovery : Bool) (meets : UInt8 → Meets) (err : Error) : Prop :=
  if useRecovery then
    (meets protocolVersionV3).FailsAtOnce (.dial err) ∨
      (meets protocolVersionV3).FailsAtOnce fallbackError ∧
        (meets protocolVersionV2).FailsAtOnce (.dial err)
  else (meets protocolVersionV2).FailsAtOnce (.dial err)

variable {deadline now : Nat} {meets : Meets}

theorem before_late {α : Type} (h : deadline ≤ now) (fut : Future α) :
    before (some deadline) now fut =
      some (if fut.ready = some 0 then fut.output.mapError .error else .error .timeout, now) := by
  have hmax : max now deadline = now := Nat.max_eq_left h
  cases hr : fut.ready with
  | none => simp only [before, hr, hmax, reduceCtorEq, if_false]
  | some delay =>
      cases delay with
      | zero => simp only [before, hr, if_true]
      | succ delay =>
          have hlate : ¬now + (delay + 1) ≤ deadline := by omega
          simp only [before, hr, if_neg hlate, hmax, Option.some.injEq, Nat.add_one_ne_zero, if_false]

/-- Past the deadline a stage that is not ready at once ends the connection with a timeout. -/
theorem andThen_late {α : Type} (h : deadline ≤ now) (fut : Future α)
    (fails : Failure → ConnectError) (rest : α → Nat → AttemptResult) :
    (fut.ready ≠ some 0 ∧
      andThen (before (some deadline) now fut) fails rest = some (.error (fails .timeout), now)) ∨
    (∃ err, fut.GivesAtOnce (.error err) ∧
      andThen (before (some deadline) now fut) fails rest = some (.error (fails (.error err)), now)) ∨
    ∃ a, fut.GivesAtOnce (.ok a) ∧
      andThen (before (some deadline) now fut) fails rest = rest a now := by
  rw [before_late h]
  by_cases hr : fut.ready = some 0
  · rw [if_pos hr]
    cases ho : fut.output with
    | error err => exact .inr (.inl ⟨err, ⟨hr, ho⟩, rfl⟩)
    | ok a => exact .inr (.inr ⟨a, ⟨hr, ho⟩, rfl⟩)
  · rw [if_neg hr]
    exact .inl ⟨hr, rfl⟩

theorem Future.GivesAtOnce.eq {α : Type} {fut : Future α} {o o' : Except Error α}
    (h : fut.GivesAtOnce o) (h' : fut.GivesAtOnce o') : o = o' := h.2.symm.trans h'.2

/-- Past the deadline only what is ready at once counts. -/
theorem connectVersion_late (h : deadline ≤ now) (meets : Meets) :
    ∃ result, connectVersion (some deadline) now meets = some (result, now) ∧
      ∀ err, err ≠ .other .timeout → (result = .error err ↔ meets.FailsAtOnce err) := by
  rw [connectVersion]
  -- Past the deadline each stage is polled once: it is not ready, fails at once, or passes its
  -- value on.
  rcases andThen_late h meets.dial dialFailure _ with ⟨hd, he⟩ | ⟨err, hd, he⟩ | ⟨⟨⟩, hd, he⟩
  · refine ⟨_, he, fun err hne => ⟨fun hr => absurd (Except.error.inj hr).symm hne, fun hf => ?_⟩⟩
    cases hf with
    | dial h | handshake h | start h | attach h | rejected h => exact absurd h.1 hd
  · refine ⟨_, he, fun err' _ => ⟨fun hr => Except.error.inj hr ▸ .dial hd, fun hf => ?_⟩⟩
    cases hf with
    | dial h => cases hd.eq h; rfl
    | handshake h | start h | attach h | rejected h => cases hd.eq h
  rw [he]
  rcases andThen_late h meets.handshake .other _ with ⟨hh, he⟩ | ⟨err, hh, he⟩ | ⟨version, hh, he⟩
  · refine ⟨_, he, fun err hne => ⟨fun hr => absurd (Except.error.inj hr).symm hne, fun hf => ?_⟩⟩
    cases hf with
    | dial h => cases hd.eq h
    | handshake _ h | start _ h | attach _ h | rejected _ h => exact absurd h.1 hh
  · refine ⟨_, he, fun err' _ => ⟨fun hr => Except.error.inj hr ▸ .handshake hd hh, fun hf => ?_⟩⟩
    cases hf with
    | dial h => cases hd.eq h
    | handshake _ h => cases hh.eq h; rfl
    | start _ h | attach _ h | rejected _ h => cases hh.eq h
  rw [he]
  have hstart (ha : version = protocolVersionV3 → meets.attach.GivesAtOnce (.ok true)) :
      ∀ err, err ≠ .other .timeout →
        (meets.start.mapError (fun err => ConnectError.other (.error err)) = .error err ↔
          meets.FailsAtOnce err) := by
    intro err _
    constructor
    · intro hs
      cases hstart : meets.start with
      | ok _ => rw [hstart] at hs; cases hs
      | error err' => rw [hstart] at hs; cases hs; exact .start hd hh ha hstart
    · intro hf
      cases hf with
      | dial h => cases hd.eq h
      | handshake _ h => cases hh.eq h
      | start _ _ _ hs => rw [hs]; rfl
      | attach _ h h' => cases hh.eq h; cases (ha rfl).eq h'
      | rejected _ h h' => cases hh.eq h; cases (ha rfl).eq h'
  by_cases hv : version = protocolVersionV3
  · subst hv
    simp only [ne_eq, not_true_eq_false, if_false]
    rcases andThen_late h meets.attach .other _ with ⟨ha, he⟩ | ⟨err, ha, he⟩ | ⟨accepted, ha, he⟩
    · refine ⟨_, he, fun err hne => ⟨fun hr => absurd (Except.error.inj hr).symm hne, fun hf => ?_⟩⟩
      cases hf with
      | dial h => cases hd.eq h
      | handshake _ h => cases hh.eq h
      | start _ h h' => cases hh.eq h; exact absurd (h' rfl).1 ha
      | attach _ _ h | rejected _ _ h => exact absurd h.1 ha
    · refine ⟨_, he, fun err' _ => ⟨fun hr => Except.error.inj hr ▸ .attach hd hh ha, fun hf => ?_⟩⟩
      cases hf with
      | dial h => cases hd.eq h
      | handshake _ h => cases hh.eq h
      | start _ h h' => cases hh.eq h; cases ha.eq (h' rfl)
      | attach _ _ h => cases ha.eq h; rfl
      | rejected _ _ h => cases ha.eq h
    · cases accepted with
      | true => exact ⟨_, he, hstart fun _ => ha⟩
      | false =>
          refine ⟨_, he, fun err' _ => ⟨fun hr => Except.error.inj hr ▸ .rejected hd hh ha,
            fun hf => ?_⟩⟩
          cases hf with
          | dial h => cases hd.eq h
          | handshake _ h => cases hh.eq h
          | start _ h h' => cases hh.eq h; cases ha.eq (h' rfl)
          | attach _ _ h => cases ha.eq h
          | rejected => rfl
  · rw [if_pos hv]
    exact ⟨_, rfl, hstart fun hv' => absurd hv' hv⟩

/-- The last version of an attempt. -/
theorem connectVersions_last (h : deadline ≤ now) (meets : UInt8 → Meets) (lastErr : ConnectError) :
    ∃ result, connectVersions (some deadline) meets [protocolVersionV2] lastErr now =
        some (result, now) ∧
      ∀ err, result = .error (.dial err) ↔ (meets protocolVersionV2).FailsAtOnce (.dial err) := by
  obtain ⟨result, he, hiff⟩ := connectVersion_late h (meets protocolVersionV2)
  refine ⟨result, ?_, fun err => hiff (.dial err) (by simp)⟩
  rw [connectVersions, he]
  cases result with
  | ok _ => rfl
  | error err => exact if_neg fun hv => absurd hv.1 (by decide)

/-- An attempt past the deadline ends in a dial to retry only in vain. -/
theorem connectAttempt_late (h : deadline ≤ now) (useRecovery : Bool) (meets : UInt8 → Meets) :
    ∃ result, connectAttempt useRecovery (some deadline) meets now = some (result, now) ∧
      ∀ err, result = .error (.dial err) ↔ DialsInVain useRecovery meets err := by
  cases useRecovery with
  | false => exact connectVersions_last h meets _
  | true =>
      obtain ⟨result, he, hiff⟩ := connectVersion_late h (meets protocolVersionV3)
      rw [connectAttempt, versions, if_pos rfl, connectVersions, he]
      cases result with
      | ok _ =>
          refine ⟨.ok (), rfl, fun err => ⟨nofun, fun hv => ?_⟩⟩
          rcases hv with hv | ⟨hv, -⟩
          · exact absurd ((hiff _ (by simp)).2 hv) (by simp)
          · exact absurd ((hiff _ (by simp [fallbackError])).2 hv) (by simp)
      | error err =>
          -- Only `fallbackError` goes on to the last version, whose own outcome then decides.
          by_cases hfall : err = fallbackError
          · obtain ⟨result, hlast, hiff'⟩ := connectVersions_last h meets err
            refine ⟨result, ?_, fun err' => (hiff' err').trans ⟨fun hv => .inr ⟨?_, hv⟩, fun hv => ?_⟩⟩
            · exact (if_pos ⟨rfl, hfall⟩).trans hlast
            · exact hfall ▸ (hiff err (by simp [hfall, fallbackError])).1 rfl
            · rcases hv with hv | ⟨-, hv⟩
              · have := (hiff _ (by simp)).2 hv
                rw [hfall] at this
                cases this
              · exact hv
          · refine ⟨.error err, ?_, fun err' => ⟨fun hv => ?_, fun hv => ?_⟩⟩
            · exact if_neg fun hv => hfall hv.2
            · cases hv
              exact .inl ((hiff _ (by simp)).1 rfl)
            · rcases hv with hv | ⟨hv, -⟩
              · exact (hiff _ (by simp)).2 hv
              · exact absurd (Except.error.inj ((hiff _ (by simp [fallbackError])).2 hv)) hfall

/-! ### Time goes on -/

/-- The attempt ends, and not before `now`. -/
def EndsFrom (now : Nat) (result : AttemptResult) : Prop :=
  ∃ r now', result = some (r, now') ∧ now ≤ now'

theorem before_isSome {α : Type} (deadline now : Nat) (fut : Future α) :
    ∃ output now', before (some deadline) now fut = some (output, now') ∧ now ≤ now' := by
  cases hr : fut.ready with
  | none => exact ⟨.error .timeout, _, by simp only [before, hr], Nat.le_max_left now deadline⟩
  | some delay =>
      cases delay with
      | zero => exact ⟨fut.output.mapError .error, now, by simp only [before, hr], le_rfl⟩
      | succ delay =>
          by_cases hin : now + (delay + 1) ≤ deadline
          · refine ⟨fut.output.mapError .error, now + (delay + 1), ?_, Nat.le_add_right _ _⟩
            simp only [before, hr, if_pos hin]
          · refine ⟨.error .timeout, max now deadline, ?_, Nat.le_max_left _ _⟩
            simp only [before, hr, if_neg hin]

theorem andThen_endsFrom {α : Type} (deadline now : Nat) (fut : Future α)
    {fails : Failure → ConnectError} {rest : α → Nat → AttemptResult}
    (hrest : ∀ a now', now ≤ now' → EndsFrom now (rest a now')) :
    EndsFrom now (andThen (before (some deadline) now fut) fails rest) := by
  obtain ⟨output, now', he, hle⟩ := before_isSome deadline now fut
  rw [he]
  cases output with
  | error failure => exact ⟨_, now', rfl, hle⟩
  | ok a => exact hrest a now' hle

theorem EndsFrom.mono {now now' : Nat} {result : AttemptResult} (h : EndsFrom now' result)
    (hle : now ≤ now') : EndsFrom now result := by
  obtain ⟨r, t, he, ht⟩ := h
  exact ⟨r, t, he, hle.trans ht⟩

theorem connectVersion_endsFrom (deadline now : Nat) (meets : Meets) :
    EndsFrom now (connectVersion (some deadline) now meets) := by
  refine andThen_endsFrom deadline now _ fun _ t ht => EndsFrom.mono ?_ ht
  refine andThen_endsFrom deadline t _ fun version t' ht' => EndsFrom.mono ?_ ht'
  by_cases hv : version ≠ protocolVersionV3
  · exact ⟨_, t', if_pos hv, le_rfl⟩
  · simp only [if_neg hv]
    refine andThen_endsFrom deadline t' _ fun accepted t'' ht'' => EndsFrom.mono ?_ ht''
    cases accepted with
    | true => exact ⟨_, t'', rfl, le_rfl⟩
    | false => exact ⟨_, t'', rfl, le_rfl⟩

theorem connectVersions_endsFrom (deadline : Nat) (meets : UInt8 → Meets) (versions : List UInt8)
    (lastErr : ConnectError) (now : Nat) :
    EndsFrom now (connectVersions (some deadline) meets versions lastErr now) := by
  induction versions generalizing lastErr now with
  | nil => exact ⟨_, now, rfl, le_rfl⟩
  | cons version versions ih =>
      obtain ⟨result, t, he, ht⟩ := connectVersion_endsFrom deadline now (meets version)
      rw [connectVersions, he]
      cases result with
      | ok _ => exact ⟨_, t, rfl, ht⟩
      | error err =>
          by_cases hfall : version = protocolVersionV3 ∧
              err = .other (.error (.unsupportedFrameVersion protocolVersionV2))
          · simp only [if_pos hfall]
            exact (ih err t).mono ht
          · simp only [if_neg hfall]
            exact ⟨_, t, rfl, ht⟩

/-- With a deadline no attempt waits forever. -/
theorem connectAttempt_endsFrom (useRecovery : Bool) (deadline : Nat) (meets : UInt8 → Meets)
    (now : Nat) : EndsFrom now (connectAttempt useRecovery (some deadline) meets now) :=
  connectVersions_endsFrom deadline meets _ _ now

/-! ### The turns of the loop -/

variable {useRecovery : Bool} {d start : Nat} {env : Nat → Env} {s : Loop}

/-- What holds after any number of turns. -/
structure Loop.Inv (deadline : Nat) (s : Loop) : Prop where
  backoff_pos : 0 < s.backoff
  /-- No attempt has begun past the deadline as long as it is not over. -/
  late : s.now < deadline → s.late = 0
  timeout (cause : Option Error) : s.returned = some (.timeout cause) → cause = s.lastDialErr

/-- A turn before the deadline returns, or takes time. -/
theorem Loop.Inv.turn_early (hi : s.Inv deadline) (hnow : s.now < deadline) (hopen : s.returned = none)
    (useRecovery : Bool) (e : Env) :
    ∃ s', s.turn useRecovery (some deadline) e = some s' ∧ s'.Inv deadline ∧ s'.late = 0 ∧
      (s'.returned.isSome ∨ s'.returned = none ∧ s.now < s'.now) := by
  obtain ⟨result, now', he, hle⟩ := connectAttempt_endsFrom useRecovery deadline e.meets s.now
  have hearly : (some deadline).any (· ≤ s.now) = false := by simpa using hnow
  have hlate : s.late = 0 := hi.late hnow
  rw [Loop.turn, he]
  simp only [Option.map_some, hearly, Bool.false_eq_true, if_false, Option.some.injEq]
  rcases result with err | ⟨⟨⟩⟩
  · rcases err with err | (_ | err)
    · refine ⟨_, rfl, ⟨?_, fun _ => hlate, ?_⟩, hlate, .inr ⟨hopen, ?_⟩⟩
      · have := hi.backoff_pos
        simp only [connectRetryMaxBackoff]
        omega
      · intro cause hc
        rw [hopen] at hc
        cases hc
      · have := hi.backoff_pos
        simp only
        omega
    · exact ⟨_, rfl, ⟨hi.backoff_pos, fun _ => hlate, by rintro cause ⟨⟩; rfl⟩, hlate, .inl rfl⟩
    · exact ⟨_, rfl, ⟨hi.backoff_pos, fun _ => hlate, nofun⟩, hlate, .inl rfl⟩
  · exact ⟨_, rfl, ⟨hi.backoff_pos, fun _ => hlate, nofun⟩, hlate, .inl rfl⟩

/-- A turn past the deadline is one attempt; it returns, or the attempt dials in vain. -/
theorem Loop.Inv.turn_late (hi : s.Inv deadline) (hnow : deadline ≤ s.now) (hopen : s.returned = none)
    (useRecovery : Bool) (e : Env) :
    ∃ s', s.turn useRecovery (some deadline) e = some s' ∧ s'.Inv deadline ∧ s'.late = s.late + 1 ∧
      deadline ≤ s'.now ∧
      (s'.returned = none ↔ ∃ err, DialsInVain useRecovery e.meets err) := by
  obtain ⟨result, he, hiff⟩ := connectAttempt_late hnow useRecovery e.meets
  have hlate : (some deadline).any (· ≤ s.now) = true := by simpa using hnow
  rw [Loop.turn, he]
  simp only [Option.map_some, hlate, if_true]
  have hpast : ¬s.now < deadline := Nat.not_lt.2 hnow
  have hnone (hne : ∀ err, result ≠ .error (.dial err)) :
      ¬∃ err, DialsInVain useRecovery e.meets err := fun ⟨err, hv⟩ => hne err ((hiff err).2 hv)
  rcases result with err | ⟨⟨⟩⟩
  · rcases err with err | (_ | err)
    · refine ⟨_, rfl, ⟨?_, ?_, ?_⟩, rfl, ?_, ?_⟩
      · have := hi.backoff_pos
        simp only [connectRetryMaxBackoff]
        omega
      · simp only
        omega
      · intro cause hc
        rw [hopen] at hc
        cases hc
      · simp only
        omega
      · exact ⟨fun _ => ⟨err, (hiff err).1 rfl⟩, fun _ => hopen⟩
    · exact ⟨_, rfl, ⟨hi.backoff_pos, fun h => absurd h hpast, by rintro cause ⟨⟩; rfl⟩, rfl, hnow,
        ⟨nofun, fun h => absurd h (hnone nofun)⟩⟩
    · exact ⟨_, rfl, ⟨hi.backoff_pos, fun h => absurd h hpast, nofun⟩, rfl, hnow,
        ⟨nofun, fun h => absurd h (hnone nofun)⟩⟩
  · exact ⟨_, rfl, ⟨hi.backoff_pos, fun h => absurd h hpast, nofun⟩, rfl, hnow,
      ⟨nofun, fun h => absurd h (hnone nofun)⟩⟩

/-! ### The loop returns -/

theorem run_succ_open {n : Nat} {connectTimeout : Option Nat}
    (h : run useRecovery connectTimeout start env n = some s) (hopen : s.returned = none) :
    run useRecovery connectTimeout start env (n + 1) =
      s.turn useRecovery (connectTimeout.map (start + ·)) (env n) := by
  simp only [run, h, Option.bind_some, hopen, Option.isSome_none, Bool.false_eq_true, if_false]

theorem run_succ_over {n : Nat} {connectTimeout : Option Nat}
    (h : run useRecovery connectTimeout start env n = some s) (hover : s.returned.isSome) :
    run useRecovery connectTimeout start env (n + 1) = some s := by
  simp only [run, h, Option.bind_some, hover, if_true]

/-- With a deadline every turn ends; what the loop keeps. -/
theorem run_inv (useRecovery : Bool) (d start : Nat) (env : Nat → Env) (n : Nat) :
    ∃ s, run useRecovery (some d) start env n = some s ∧ s.Inv (start + d) := by
  induction n with
  | zero => exact ⟨_, rfl, Nat.zero_lt_succ _, fun _ => rfl, nofun⟩
  | succ n ih =>
      obtain ⟨s, hs, hi⟩ := ih
      cases hret : s.returned with
      | some r => exact ⟨s, run_succ_over hs (by rw [hret]; rfl), hi⟩
      | none =>
          rcases lt_or_ge s.now (start + d) with hnow | hnow
          · obtain ⟨s', hs', hi', -⟩ := hi.turn_early hnow hret useRecovery (env n)
            exact ⟨s', (run_succ_open hs hret).trans hs', hi'⟩
          · obtain ⟨s', hs', hi', -⟩ := hi.turn_late hnow hret useRecovery (env n)
            exact ⟨s', (run_succ_open hs hret).trans hs', hi'⟩

/-- After some turns the loop has returned, or the deadline has passed and no attempt was late. -/
theorem run_reaches_deadline (useRecovery : Bool) (d start : Nat) (env : Nat → Env) (n : Nat) :
    ∃ m s, run useRecovery (some d) start env m = some s ∧ s.late = 0 ∧
      (s.returned.isSome ∨ s.returned = none ∧ (start + d ≤ s.now ∨ start + n ≤ s.now)) := by
  induction n with
  | zero => exact ⟨0, _, rfl, rfl, .inr ⟨rfl, .inr le_rfl⟩⟩
  | succ n ih =>
      obtain ⟨m, s, hs, hlate, hret | ⟨hopen, hnow⟩⟩ := ih
      · exact ⟨m, s, hs, hlate, .inl hret⟩
      rcases lt_or_ge s.now (start + d) with hearly | hpast
      · obtain ⟨t, ht, hi⟩ := run_inv useRecovery d start env m
        cases hs.symm.trans ht
        obtain ⟨s', hs', -, hlate', hnext⟩ := hi.turn_early hearly hopen useRecovery (env m)
        refine ⟨m + 1, s', (run_succ_open hs hopen).trans hs', hlate', hnext.imp_right ?_⟩
        rintro ⟨hopen', htime⟩
        exact ⟨hopen', .inr (by omega)⟩
      · exact ⟨m, s, hs, hlate, .inr ⟨hopen, .inl hpast⟩⟩

/-- Time is not turned back: what has returned stays, and late attempts stay made. -/
theorem run_le {n m : Nat} (hnm : n ≤ m) {t : Loop}
    (hs : run useRecovery (some d) start env n = some s)
    (ht : run useRecovery (some d) start env m = some t) :
    s.late ≤ t.late ∧ (s.returned.isSome → t = s) := by
  induction m, hnm using Nat.le_induction generalizing t with
  | base =>
      cases hs.symm.trans ht
      exact ⟨le_rfl, fun _ => rfl⟩
  | succ m _ ih =>
      obtain ⟨u, hu, hi⟩ := run_inv useRecovery d start env m
      obtain ⟨hle, hkeep⟩ := ih hu
      cases hret : u.returned with
      | some r =>
          cases (run_succ_over hu (by rw [hret]; rfl)).symm.trans ht
          exact ⟨hle, hkeep⟩
      | none =>
          refine ⟨hle.trans ?_, fun hover => ?_⟩
          · rcases lt_or_ge u.now (start + d) with hnow | hnow
            · rw [hi.late hnow]
              exact Nat.zero_le _
            · obtain ⟨u', hu', -, hlate, -⟩ := hi.turn_late hnow hret useRecovery (env m)
              cases ((run_succ_open hu hret).trans hu').symm.trans ht
              omega
          · rw [← hkeep hover, hret] at hover
            cases hover

/-- `connect_with` returns, after one attempt past the deadline at most, and a timeout carries the
last failed dial. -/
def Returns (useRecovery : Bool) (d start : Nat) (env : Nat → Env) : Prop :=
  ∃ n s, run useRecovery (some d) start env n = some s ∧ s.returned.isSome ∧ s.late ≤ 1 ∧
    ∀ cause, s.returned = some (.timeout cause) → cause = s.lastDialErr

/-- With a connect timeout the loop returns so iff no attempt past the deadline ends at once in a
dial that may be retried. -/
theorem connect_returns (useRecovery : Bool) (d start : Nat) (env : Nat → Env) :
    Returns useRecovery d start env ↔
      ∀ n s, run useRecovery (some d) start env n = some s → s.returned = none →
        start + d ≤ s.now → ∀ err, ¬DialsInVain useRecovery (env n).meets err := by
  constructor
  · rintro ⟨m, t, ht, hret, hlate, -⟩ n s hs hopen hnow err hv
    obtain ⟨u, hu, hi⟩ := run_inv useRecovery d start env n
    cases hs.symm.trans hu
    -- the attempt leaves the loop open and past the deadline, so another late one follows
    obtain ⟨s₁, hs₁, hi₁, hlate₁, hnow₁, hopen₁⟩ := hi.turn_late hnow hopen useRecovery (env n)
    have hrun₁ := (run_succ_open hs hopen).trans hs₁
    have hopen₁ : s₁.returned = none := hopen₁.2 ⟨err, hv⟩
    obtain ⟨s₂, hs₂, -, hlate₂, -⟩ := hi₁.turn_late hnow₁ hopen₁ useRecovery (env (n + 1))
    have hrun₂ := (run_succ_open hrun₁ hopen₁).trans hs₂
    have hlt : n + 1 < m := by
      by_contra hle
      have := (run_le (Nat.not_lt.1 hle) ht hrun₁).2 hret
      rw [← this, hopen₁] at hret
      cases hret
    have := (run_le (show n + 2 ≤ m from hlt) hrun₂ ht).1
    omega
  · intro hcond
    obtain ⟨m, s, hs, hlate, hret | ⟨hopen, hnow⟩⟩ := run_reaches_deadline useRecovery d start env d
    · obtain ⟨t, ht, hi⟩ := run_inv useRecovery d start env m
      cases hs.symm.trans ht
      exact ⟨m, s, hs, hret, by omega, hi.timeout⟩
    · obtain ⟨t, ht, hi⟩ := run_inv useRecovery d start env m
      cases hs.symm.trans ht
      have hpast : start + d ≤ s.now := hnow.elim id id
      obtain ⟨s', hs', hi', hlate', -, hret'⟩ := hi.turn_late hpast hopen useRecovery (env m)
      refine ⟨m + 1, s', (run_succ_open hs hopen).trans hs', ?_, by omega, hi'.timeout⟩
      refine Option.isSome_iff_ne_none.2 fun hnone => ?_
      obtain ⟨err, hv⟩ := hret'.1 hnone
      exact hcond m s hs hopen hpast err hv

/-- A socket whose `connect` fails at its first poll, as a missing one does. -/
def refusing : Env where
  meets _ :=
    { dial := ⟨some 0, .error (.io .other)⟩
      handshake := ⟨none, .error .closed⟩
      attach := ⟨none, .error .closed⟩
      start := .error .closed }
  overrun := 0

/-- Each attempt on it ends at once in a dial to retry, also past the deadline. -/
theorem run_refusing (n : Nat) :
    ∃ s, run false (some 1000000000) 0 (fun _ => refusing) n = some s ∧ s.returned = none := by
  induction n with
  | zero => exact ⟨_, rfl, rfl⟩
  | succ n ih =>
      obtain ⟨s, hs, hopen⟩ := ih
      exact ⟨_, (run_succ_open hs hopen).trans rfl, hopen⟩

/-- With a connect timeout of one second the loop does not return. -/
theorem connect_retries_forever : ¬Returns false 1000000000 0 fun _ => refusing := by
  rintro ⟨n, s, hs, hret, -⟩
  obtain ⟨t, ht, hopen⟩ := run_refusing n
  cases hs.symm.trans ht
  rw [hopen] at hret
  cases hret

end AdaptiveMsg.Client
