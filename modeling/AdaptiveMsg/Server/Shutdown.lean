import AdaptiveMsg.Server.Model
import Mathlib.Algebra.Order.BigOperators.Group.List

/-!
# Server — a shutdown accounts for every connection

Each started connection is accounted for: `handle_conn` still serves it, or has called
`on_disconnect` for it (`Accounts`).  A connection that is served is closed, tracked, or about to be
closed by a task (`Closing`), whatever order `track`, `untrack` and the shutdown come in.

`shutdown_accounts`: in every run, `on_disconnect` is called once at most for a connection, after it
has been started and closed, and never for a resumed or refused one; nothing is tracked after the
shutdown has begun; and when `serve_with_accept` has returned, each connection that was started is
closed and its `on_disconnect` has been called.
-/

namespace AdaptiveMsg.Server

open Machine.Pool (Program Event)

/-! ### How far `handle_conn` has come -/

inductive Phase where
  | unstarted
  /-- Ended, without having started its connection. -/
  | turnedAway
  | serving
  /-- Ended, after `on_disconnect`. -/
  | over
  deriving DecidableEq

def HandlePc.phase : HandlePc → Phase
  | .track | .close _ | .waitClosed | .untrack | .onDisconnect => .serving
  | .ended .new => .over
  | .ended .resumed | .ended .refused => .turnedAway
  | _ => .unstarted

/-- What an operation of `handle_conn` does to its connection. -/
inductive Effect (s : Shared) (i : Nat) (pc : HandlePc) (s' : Shared) (pc' : HandlePc) : Prop where
  | goesOn (hp : pc'.phase = pc.phase) (hpc : pc.phase = .unstarted ∨ pc.phase = .serving)
      (hs : s'.started = s.started) (hd : s'.disconnects = s.disconnects)
      (hr : s'.running = s.running)
  | start (hp : pc.phase = .unstarted ∧ pc'.phase = .serving) (ht : pc' = .track) (hs : s'.started = s.started ++ [i])
      (hd : s'.disconnects = s.disconnects) (hr : s'.running = s.running)
  | turnAway (hp : pc.phase = .unstarted ∧ pc'.phase = .turnedAway) (hs : s'.started = s.started)
      (hd : s'.disconnects = s.disconnects) (hr : s'.running = s.running - 1)
  | disconnect (hp : pc.phase = .serving ∧ pc'.phase = .over) (hs : s'.started = s.started)
      (hd : s'.disconnects = s.disconnects ++ [i]) (hr : s'.running = s.running - 1)

/-- What an operation keeps. -/
structure Keeps (s s' : Shared) : Prop where
  length : s.conns.length ≤ s'.conns.length
  closed : ∀ i, s.isClosed i = true → s'.isClosed i = true
  tracked : s.tracked = none → s'.tracked = none

section operations

variable {s s' s'' : Shared} {i j : Nat} {a : Act} {pc pc' : HandlePc} {t t' : Task} {new : List Task}

theorem Keeps.refl (s : Shared) : Keeps s s := ⟨le_rfl, fun _ h => h, fun h => h⟩

theorem Keeps.trans (h : Keeps s s') (h' : Keeps s' s'') : Keeps s s'' :=
  ⟨h.length.trans h'.length, fun i hi => h'.closed i (h.closed i hi), fun ht => h'.tracked (h.tracked ht)⟩

/-- A change that leaves the connections and what is tracked. -/
theorem Keeps.of_eq (hc : s'.conns = s.conns) (ht : s'.tracked = s.tracked) : Keeps s s' := by
  refine ⟨(congrArg List.length hc).ge, fun i hi => ?_, fun h => ht.trans h⟩
  rwa [Shared.isClosed, Shared.conn, hc]

theorem conn_modify (s : Shared) (i j : Nat) (f : Conn → Conn) (hj : j < s.conns.length) :
    (s.modify i f).conn j = if i = j then f (s.conn j) else s.conn j := by
  simp only [Shared.conn, Shared.modify, List.getD_eq_getElem?_getD, List.getElem?_modify,
    List.getElem?_eq_getElem hj]
  split <;> simp

theorem keeps_modify (s : Shared) (i : Nat) (f : Conn → Conn)
    (hf : ∀ conn, conn.closed = true → (f conn).closed = true) : Keeps s (s.modify i f) := by
  refine ⟨by simp [Shared.modify], fun j hj => ?_, fun h => h⟩
  by_cases hlt : j < s.conns.length
  · rw [Shared.isClosed, conn_modify s i j f hlt]
    split
    · exact hf _ hj
    · exact hj
  · simp [Shared.isClosed, Shared.conn, List.getElem?_eq_none (Nat.not_lt.1 hlt)] at hj

theorem isClosed_mark (s : Shared) (hi : i < s.conns.length) :
    (s.modify i fun conn => { conn with closed := true }).isClosed i = true := by
  rw [Shared.isClosed, conn_modify s i i _ hi, if_pos rfl]

theorem onClosed_conns (s : Shared) (i : Nat) : (s.onClosed i).conns = s.conns ∧
    (s.onClosed i).tracked = s.tracked ∧ (s.onClosed i).started = s.started ∧
    (s.onClosed i).disconnects = s.disconnects ∧ (s.onClosed i).running = s.running := by
  rw [Shared.onClosed]
  split
  · split <;> exact ⟨rfl, rfl, rfl, rfl, rfl⟩
  · exact ⟨rfl, rfl, rfl, rfl, rfl⟩

/-- `close` changes its connection, and nothing the server keeps of it but the recovery registry. -/
theorem closeStep_keeps {pc : ClosePc} {r : Option ClosePc} (h : closeStep s i pc = (s', r)) :
    Keeps s s' ∧ s'.started = s.started ∧ s'.disconnects = s.disconnects ∧
      s'.running = s.running ∧ s'.tracked = s.tracked ∧ s'.conns.length = s.conns.length := by
  cases pc with
  | swap =>
      cases h
      exact ⟨keeps_modify s i _ fun _ h => h, rfl, rfl, rfl, rfl, by simp [Shared.modify]⟩
  | graceful =>
      cases h
      exact ⟨.refl s, rfl, rfl, rfl, rfl, rfl⟩
  | mark =>
      simp only [closeStep] at h
      split at h <;> cases h
      · exact ⟨.refl s, rfl, rfl, rfl, rfl, rfl⟩
      · exact ⟨keeps_modify s i _ fun _ _ => rfl, rfl, rfl, rfl, rfl, by simp [Shared.modify]⟩
  | onClosed =>
      cases h
      obtain ⟨hc, ht, hs, hd, hr⟩ := onClosed_conns s i
      exact ⟨.of_eq hc ht, hs, hd, hr, ht, congrArg List.length hc⟩

/-- A `close` that is over, or past `mark_closed`, has closed its connection. -/
theorem closeStep_closed {pc : ClosePc} {r : Option ClosePc} (hi : i < s.conns.length)
    (hpc : pc = .onClosed → s.isClosed i = true) (h : closeStep s i pc = (s', r))
    (hr : r = none ∨ r = some .onClosed) : s'.isClosed i = true := by
  cases pc with
  | swap =>
      cases h
      split at hr <;> simp at hr
  | graceful =>
      cases h
      simp at hr
  | mark =>
      simp only [closeStep] at h
      split at h <;> cases h
      · assumption
      · exact isClosed_mark s hi
  | onClosed => exact (closeStep_keeps h).1.closed i (hpc rfl)

@[simp] theorem phase_refuse (token : Option Nat) : (refuse token).phase = .unstarted := by
  cases token <;> rfl

theorem track_some (h : s.track i = some s') : ∃ conns, s.tracked = some conns ∧
    s' = { s with tracked := some (i :: conns.erase i) } := by
  obtain ⟨conns, hc, he⟩ := Option.map_eq_some_iff.1 h
  exact ⟨conns, hc, he.symm⟩

/-- What an operation of `handle_conn` does to its connection, and what it keeps. -/
theorem handle_effect (h : handleStep s i pc a = some (s', pc')) :
    Effect s i pc s' pc' ∧ Keeps s s' := by
  have hgo {pc pc' : HandlePc} (hp : pc'.phase = pc.phase)
      (hpc : pc.phase = .unstarted ∨ pc.phase = .serving) : Effect s i pc s pc' ∧ Keeps s s :=
    ⟨.goesOn hp hpc rfl rfl rfl, .refl s⟩
  cases pc with
  | handshake =>
      cases a with
      | stopped =>
          simp only [handleStep] at h
          split at h <;> cases h
          exact hgo rfl (.inl rfl)
      | fail =>
          cases h
          exact hgo rfl (.inl rfl)
      | config config =>
          cases h
          refine hgo ?_ (.inl rfl)
          split <;> rfl
      | _ => cases h
  | readAttach =>
      cases a with
      | stopped =>
          simp only [handleStep] at h
          split at h <;> cases h
          exact hgo rfl (.inl rfl)
      | fail =>
          cases h
          exact hgo rfl (.inl rfl)
      | request request =>
          cases request <;> cases h <;> exact hgo rfl (.inl rfl)
      | _ => cases h
  | insertRecovery =>
      cases a with
      | token token =>
          cases h
          exact ⟨.goesOn rfl (.inl rfl) rfl rfl rfl, .of_eq rfl rfl⟩
      | _ => cases h
  | removeRecovery token =>
      cases a with
      | go =>
          cases h
          exact ⟨.goesOn rfl (.inl rfl) rfl rfl rfl, .of_eq rfl rfl⟩
      | _ => cases h
  | writeNew token | writeResume existing =>
      cases a with
      | go | fail =>
          cases h
          exact hgo rfl (.inl rfl)
      | _ => cases h
  | lookup connectionId authentic | rejectAttach =>
      cases a with
      | go =>
          cases h
          exact hgo rfl (.inl rfl)
      | _ => cases h
  | onConnect token =>
      cases a with
      | go =>
          cases h
          exact hgo rfl (.inl rfl)
      | fail =>
          cases h
          exact hgo (phase_refuse token) (.inl rfl)
      | _ => cases h
  -- `start_with_config` is what starts a connection, and only then is it served.
  | startWithConfig token =>
      cases a with
      | go =>
          cases h
          refine ⟨.start ⟨rfl, rfl⟩ rfl rfl rfl rfl, ?_⟩
          exact (keeps_modify s i (fun conn => { conn with recovery := token }) fun _ h => h).trans
            (.of_eq rfl rfl)
      | fail =>
          cases h
          exact hgo (phase_refuse token) (.inl rfl)
      | _ => cases h
  | check existing authentic =>
      cases a with
      | go =>
          cases h
          refine hgo ?_ (.inl rfl)
          repeat' split
          all_goals rfl
      | _ => cases h
  | attachTransport existing =>
      cases a with
      | go =>
          cases h
          exact ⟨.turnAway ⟨rfl, rfl⟩ rfl rfl rfl, .of_eq rfl rfl⟩
      | _ => cases h
  -- A refused connection is closed here, with no `on_disconnect`.
  | closeNow =>
      cases a with
      | go =>
          cases h
          refine ⟨.turnAway ⟨rfl, rfl⟩ rfl rfl rfl, ?_⟩
          exact (keeps_modify s i (fun conn => { conn with closed := true }) fun _ _ => rfl).trans
            (.of_eq rfl rfl)
      | _ => cases h
  | track =>
      cases a with
      | go =>
          simp only [handleStep] at h
          split at h <;> cases h
          · obtain ⟨conns, hc, rfl⟩ := track_some ‹_›
            refine ⟨.goesOn rfl (.inr rfl) rfl rfl rfl, le_rfl, fun _ h => h, fun h => ?_⟩
            rw [hc] at h
            cases h
          · exact hgo rfl (.inr rfl)
      | _ => cases h
  | close pc =>
      cases a with
      | go =>
          simp only [handleStep] at h
          split at h
          all_goals
            rename_i he
            cases h
            obtain ⟨hk, hs, hd, hr, -⟩ := closeStep_keeps he
            exact ⟨.goesOn rfl (.inr rfl) hs hd hr, hk⟩
      | _ => cases h
  | waitClosed =>
      cases a with
      | go =>
          simp only [handleStep] at h
          split at h <;> cases h
          exact hgo rfl (.inr rfl)
      | _ => cases h
  | untrack =>
      cases a with
      | go =>
          cases h
          refine ⟨.goesOn rfl (.inr rfl) rfl rfl rfl, le_rfl, fun _ h => h, fun h => ?_⟩
          rw [Shared.untrack, h]
          rfl
      | _ => cases h
  | onDisconnect =>
      cases a with
      | go =>
          cases h
          exact ⟨.disconnect ⟨rfl, rfl⟩ rfl rfl rfl, .of_eq rfl rfl⟩
      | _ => cases h
  | ended attached => cases a <;> cases h

/-- What an operation of `serve_with_accept` does. -/
theorem serve_effect {pc pc' : ServePc} (h : serveStep s pc a = some (s', pc', new)) :
    Keeps s s' ∧ s'.started = s.started ∧ s'.disconnects = s.disconnects ∧
      (new = [] ∧ s'.running = s.running ∧ s'.conns = s.conns ∨
        (new = [.handle s.conns.length .handshake] ∧ s'.running = s.running + 1 ∧
          s'.conns.length = s.conns.length + 1) ∨
        ∃ i, new = [.close i (some .swap)] ∧ s'.running = s.running + 1 ∧ s'.conns = s.conns) := by
  cases pc with
  | accept =>
      cases a with
      | signal | acceptFailed peer =>
          cases h
          exact ⟨.refl s, rfl, rfl, .inl ⟨rfl, rfl, rfl⟩⟩
      | accepted =>
          cases h
          refine ⟨⟨by simp, fun i hi => ?_, fun h => h⟩, rfl, rfl, .inr (.inl ⟨rfl, rfl, by simp⟩)⟩
          -- The new connection is open, and none of the old ones changes.
          by_cases hlt : i < s.conns.length
          · simpa [Shared.isClosed, Shared.conn, List.getElem?_append_left hlt] using hi
          · simp [Shared.isClosed, Shared.conn, List.getElem?_eq_none (Nat.not_lt.1 hlt)] at hi
      | _ => cases h
  | backoff =>
      cases a with
      | signal | go =>
          cases h
          exact ⟨.refl s, rfl, rfl, .inl ⟨rfl, rfl, rfl⟩⟩
      | _ => cases h
  | stop =>
      cases a with
      | go =>
          cases h
          exact ⟨⟨le_rfl, fun _ h => h, fun _ => rfl⟩, rfl, rfl, .inl ⟨rfl, rfl, rfl⟩⟩
      | _ => cases h
  | spawn conns =>
      cases a with
      | go =>
          cases conns with
          | nil =>
              cases h
              exact ⟨.refl s, rfl, rfl, .inl ⟨rfl, rfl, rfl⟩⟩
          | cons i conns =>
              cases h
              exact ⟨.of_eq rfl rfl, rfl, rfl, .inr (.inr ⟨i, rfl, rfl, rfl⟩)⟩
      | _ => cases conns <;> cases h
  | join =>
      cases a with
      | go =>
          simp only [serveStep] at h
          split at h <;> cases h
          exact ⟨.refl s, rfl, rfl, .inl ⟨rfl, rfl, rfl⟩⟩
      | _ => cases h
  | returned => cases a <;> cases h

/-- An operation of a task. -/
inductive Move (s : Shared) : Task → Act → Shared → Task → List Task → Prop where
  | serve {pc pc' : ServePc} {a : Act} {s' : Shared} {new : List Task}
      (h : serveStep s pc a = some (s', pc', new)) : Move s (.serve pc) a s' (.serve pc') new
  | handle {i : Nat} {pc pc' : HandlePc} {a : Act} {s' : Shared}
      (h : handleStep s i pc a = some (s', pc')) : Move s (.handle i pc) a s' (.handle i pc') []
  | close {i : Nat} {pc pc' : ClosePc} {s' : Shared} (h : closeStep s i pc = (s', some pc')) :
      Move s (.close i (some pc)) .go s' (.close i (some pc')) []
  | closed {i : Nat} {pc : ClosePc} {s' : Shared} (h : closeStep s i pc = (s', none)) :
      Move s (.close i (some pc)) .go s'.ended (.close i none) []
  | outside {i : Nat} {pc : ClosePc} {s' : Shared} {next : Option ClosePc}
      (h : closeStep s i pc = (s', next)) :
      Move s (.outside i (some pc)) .go s' (.outside i next) []

theorem move_cases (h : move s t a = some (s', t', new)) : Move s t a s' t' new := by
  cases t with
  | serve pc =>
      obtain ⟨⟨s₁, pc', tasks⟩, hs, he⟩ := Option.map_eq_some_iff.1 h
      cases he
      exact .serve hs
  | handle i pc =>
      obtain ⟨⟨s₁, pc'⟩, hs, he⟩ := Option.map_eq_some_iff.1 h
      cases he
      exact .handle hs
  | close i pc =>
      cases pc with
      | none => cases a <;> cases h
      | some pc =>
          cases a with
          | go =>
              simp only [move] at h
              split at h <;> cases h
              · exact .close ‹_›
              · exact .closed ‹_›
          | _ => cases h
  | outside i pc =>
      cases pc with
      | none => cases a <;> cases h
      | some pc =>
          cases a with
          | go =>
              cases h
              exact .outside (Prod.eta _).symm
          | _ => cases h

theorem move_keeps (h : move s t a = some (s', t', new)) : Keeps s s' := by
  cases move_cases h with
  | serve hs => exact (serve_effect hs).1
  | handle hs => exact (handle_effect hs).2
  | close he | outside he => exact (closeStep_keeps he).1
  | closed he => exact (closeStep_keeps he).1.trans (.of_eq rfl rfl)

end operations

/-! ### The accounts -/

/-- The task serves the connection. -/
def Task.serving (i : Nat) : Task → Nat
  | .handle j pc => if j = i ∧ pc.phase = .serving then 1 else 0
  | _ => 0

/-- The task accepted the connection and has not started it. -/
def Task.unserved (i : Nat) : Task → Nat
  | .handle j pc => if j = i ∧ (pc.phase = .unstarted ∨ pc.phase = .turnedAway) then 1 else 0
  | _ => 0

/-- The task is in the `JoinSet` and has not ended. -/
def Task.unended : Task → Nat
  | .handle _ pc => if pc.phase = .unstarted ∨ pc.phase = .serving then 1 else 0
  | .close _ (some _) => 1
  | _ => 0

def Task.isServe : Task → Bool
  | .serve _ => true
  | _ => false

def Shared.made (s : Shared) (i : Nat) : Nat := if i < s.conns.length then 1 else 0

structure Accounts (c : State) : Prop where
  /-- A connection that was started is served, or has been disconnected. -/
  disconnects : ∀ i, c.shared.disconnects.count i + (c.tasks.map (Task.serving i)).sum =
    c.shared.started.count i
  started : ∀ i, c.shared.started.count i + (c.tasks.map (Task.unserved i)).sum ≤ c.shared.made i
  running : (c.tasks.map Task.unended).sum = c.shared.running
  serve : Machine.Pool.Held Task.isServe c.tasks true

section accounts

variable {s s' : Shared} {i : Nat} {a : Act} {t t' : Task} {new : List Task} {c c' : State}
  {ev : Event Task Act}

theorem made_mono (h : s.conns.length ≤ s'.conns.length) (i : Nat) : s.made i ≤ s'.made i := by
  rw [Shared.made, Shared.made]
  split
  · rw [if_pos (Nat.lt_of_lt_of_le ‹_› h)]
  · exact Nat.zero_le _

/-- What an operation does to the account of a connection. -/
structure Balanced (i : Nat) (s : Shared) (t : Task) (s' : Shared) (t' : Task) (new : List Task) :
    Prop where
  disconnects : s'.disconnects.count i + t'.serving i + (new.map (Task.serving i)).sum +
    s.started.count i = s.disconnects.count i + t.serving i + s'.started.count i
  started : s'.started.count i + t'.unserved i + (new.map (Task.unserved i)).sum + s.made i ≤
    s.started.count i + t.unserved i + s'.made i
  running : t.unended ≤ s.running →
    t'.unended + (new.map Task.unended).sum + s.running = t.unended + s'.running

theorem handle_balanced {j : Nat} {pc pc' : HandlePc} (h : handleStep s j pc a = some (s', pc'))
    (i : Nat) : Balanced i s (.handle j pc) s' (.handle j pc') [] := by
  obtain ⟨he, hk⟩ := handle_effect h
  have hmade := made_mono hk.length i
  cases he with
  | goesOn hp hpc hs hd hr =>
      refine ⟨?_, ?_, fun _ => ?_⟩
      · simp only [Task.serving, hp, hs, hd, List.map_nil, List.sum_nil]
        omega
      · simp only [Task.unserved, hp, hs, List.map_nil, List.sum_nil]
        omega
      · simp only [Task.unended, hp, hr, List.map_nil, List.sum_nil]
        omega
  | start hp _ hs hd hr =>
      refine ⟨?_, ?_, fun _ => ?_⟩
      · simp only [Task.serving, hp.1, hp.2, hs, hd, List.count_append, List.count_singleton,
          beq_iff_eq, and_true, reduceCtorEq, and_false, if_false, List.map_nil, List.sum_nil]
        omega
      · simpa [Task.unserved, hp.1, hp.2, hs, List.count_append, List.count_singleton] using hmade
      · simp [Task.unended, hp.1, hp.2, hr]
  | turnAway hp hs hd hr =>
      refine ⟨?_, ?_, fun hpos => ?_⟩
      · simp [Task.serving, hp.1, hp.2, hs, hd]
      · simpa [Task.unserved, hp.1, hp.2, hs] using hmade
      · -- The task leaves the `JoinSet`, where it was counted.
        simp only [Task.unended, hp.1, true_or, if_true] at hpos
        simp only [Task.unended, hp.1, hp.2, hr, reduceCtorEq, or_self, true_or, if_true, if_false,
          List.map_nil, List.sum_nil]
        omega
  | disconnect hp hs hd hr =>
      refine ⟨?_, ?_, fun hpos => ?_⟩
      · simp only [Task.serving, hp.1, hp.2, hs, hd, List.count_append, List.count_singleton,
          beq_iff_eq, and_true, reduceCtorEq, and_false, if_false, List.map_nil, List.sum_nil]
        omega
      · simpa [Task.unserved, hp.1, hp.2, hs] using hmade
      · simp only [Task.unended, hp.1, or_true, if_true] at hpos
        simp only [Task.unended, hp.1, hp.2, hr, reduceCtorEq, or_self, or_true, if_true, if_false,
          List.map_nil, List.sum_nil]
        omega

theorem serve_balanced {pc pc' : ServePc} (h : serveStep s pc a = some (s', pc', new)) (i : Nat) :
    Balanced i s (.serve pc) s' (.serve pc') new := by
  obtain ⟨hk, hs, hd, hnew⟩ := serve_effect h
  have hmade := made_mono hk.length i
  rcases hnew with ⟨rfl, hr, -⟩ | ⟨rfl, hr, hl⟩ | ⟨j, rfl, hr, -⟩
  · exact ⟨by simp [Task.serving, hs, hd], by simpa [Task.unserved, hs] using hmade,
      fun _ => by simp [Task.unended, hr]⟩
  · refine ⟨by simp [Task.serving, hs, hd, HandlePc.phase], ?_, fun _ => ?_⟩
    · simp only [Task.unserved, hs, Shared.made, hl, HandlePc.phase, true_or, and_true,
        List.map_cons, List.map_nil, List.sum_cons, List.sum_nil]
      split <;> split <;> split <;> omega
    · simp [Task.unended, hr, HandlePc.phase]
      omega
  · refine ⟨by simp [Task.serving, hs, hd], by simpa [Task.unserved, hs] using hmade, fun _ => ?_⟩
    simp [Task.unended, hr]
    omega

theorem move_balanced (h : move s t a = some (s', t', new)) (i : Nat) : Balanced i s t s' t' new := by
  cases move_cases h with
  | serve hs => exact serve_balanced hs i
  | handle hs => exact handle_balanced hs i
  | close he | outside he =>
      obtain ⟨hk, hs, hd, hr, -⟩ := closeStep_keeps he
      have hmade := made_mono hk.length i
      exact ⟨by simp [Task.serving, hs, hd], by simpa [Task.unserved, hs] using hmade,
        fun _ => by simp [Task.unended, hr]⟩
  | closed he =>
      obtain ⟨hk, hs, hd, hr, -⟩ := closeStep_keeps he
      have hmade := made_mono hk.length i
      refine ⟨by simp [Task.serving, Shared.ended, hs, hd],
        by simpa [Task.unserved, Shared.ended, Shared.made, hs] using hmade, fun hpos => ?_⟩
      simp only [Task.unended] at hpos
      simp only [Task.unended, Shared.ended, hr, List.map_nil, List.sum_nil]
      omega

theorem starts_idle (h : starts s t = true) : ∃ i pc, t = .outside i (some pc) ∧ i < s.conns.length ∧
    (pc = .swap ∨ pc = .mark) := by
  cases t with
  | outside i pc =>
      simp only [starts, decide_eq_true_eq] at h
      obtain ⟨hi, rfl | rfl⟩ := h
      · exact ⟨i, _, rfl, hi, .inl rfl⟩
      · exact ⟨i, _, rfl, hi, .inr rfl⟩
  | serve pc | handle i pc | close i pc => cases h

theorem move_isServe (h : move s t a = some (s', t', new)) :
    t'.isServe = t.isServe ∧ ∀ u ∈ new, u.isServe = false := by
  cases t with
  | serve pc =>
      obtain ⟨⟨s₁, pc', tasks⟩, hs, he⟩ := Option.map_eq_some_iff.1 h
      cases he
      obtain ⟨-, -, -, ⟨rfl, -⟩ | ⟨rfl, -⟩ | ⟨i, rfl, -⟩⟩ := serve_effect hs
      all_goals exact ⟨rfl, by simp [Task.isServe]⟩
  | handle i pc =>
      obtain ⟨⟨s₁, pc'⟩, hs, he⟩ := Option.map_eq_some_iff.1 h
      cases he
      exact ⟨rfl, nofun⟩
  | close i pc =>
      cases pc with
      | none => cases a <;> cases h
      | some pc =>
          cases a with
          | go =>
              simp only [move] at h
              split at h <;> cases h <;> exact ⟨rfl, nofun⟩
          | _ => cases h
  | outside i pc =>
      cases pc with
      | none => cases a <;> cases h
      | some pc =>
          cases a with
          | go =>
              cases h
              exact ⟨rfl, nofun⟩
          | _ => cases h

theorem accounts_step (hI : Accounts c) (h : machine.step c ev = some c') : Accounts c' := by
  refine ⟨fun i => ?_, fun i => ?_, ?_, ?_⟩
  · exact Program.step_sum (g := fun s => s.disconnects.count i) (k := fun s => s.started.count i) h
      (hI.disconnects i) (fun _ _ _ _ _ _ _ hm => (move_balanced hm i).disconnects) fun t ht => by
        obtain ⟨j, pc, rfl, -⟩ := starts_idle ht
        rfl
  · exact Program.step_sum_le (g := fun s => s.started.count i) (k := fun s => s.made i) h
      (hI.started i) (fun _ _ _ _ _ _ _ hm => (move_balanced hm i).started) fun t ht => by
        obtain ⟨j, pc, rfl, -⟩ := starts_idle ht
        rfl
  · have hsum := Program.step_sum (g := fun _ => 0) (k := Shared.running) (f := Task.unended) h
      (by simpa using hI.running) (fun i x t s' t' new ht hm => ?_) fun t ht => by
        obtain ⟨j, pc, rfl, -⟩ := starts_idle ht
        rfl
    · simpa using hsum
    · have hle : t.unended ≤ c.shared.running := hI.running ▸
        List.le_sum_of_mem (List.mem_map_of_mem (List.mem_of_getElem? ht))
      have := (move_balanced hm 0).running hle
      omega
  · rcases Program.step_cases h with ⟨i, x, t, s', t', new, -, ht, hm, rfl⟩ | ⟨t, -, ht, rfl⟩
    · obtain ⟨he, hnew⟩ := move_isServe hm
      exact (hI.serve.set ht he.symm).append hnew
    · obtain ⟨j, pc, rfl, -⟩ := starts_idle ht
      exact hI.serve.append (by simp [Task.isServe])

theorem accounts_reachable (h : machine.Reachable c) : Accounts c := by
  refine h.invariant ?_ fun _ _ _ hI _ hs => accounts_step hI hs
  rintro _ rfl
  exact ⟨fun _ => rfl, fun _ => Nat.zero_le _, rfl, rfl⟩

end accounts

/-! ### What the tasks know -/

/-- The shutdown has begun. -/
def ServePc.stopped : ServePc → Bool
  | .accept | .backoff | .stop => false
  | .spawn _ | .join | .returned => true

/-- `handle_conn` has seen its connection closed. -/
def HandlePc.sawClosed : HandlePc → Bool
  | .close .onClosed | .untrack | .onDisconnect | .ended .new => true
  | _ => false

def Task.Ok (s : Shared) : Task → Prop
  | .serve pc => (pc.stopped = true → s.tracked = none) ∧ (pc = .returned → s.running = 0) ∧
      ∀ conns, pc = .spawn conns → ∀ i ∈ conns, i < s.conns.length
  | .handle i pc => i < s.conns.length ∧ (pc.sawClosed = true → s.isClosed i = true)
  | .close i pc => i < s.conns.length ∧ (pc = some .onClosed → s.isClosed i = true)
  | .outside i pc => i < s.conns.length ∧ (pc = some .onClosed → s.isClosed i = true)

structure Inv (c : State) : Prop where
  accounts : Accounts c
  tasks : ∀ t ∈ c.tasks, t.Ok c.shared
  tracked : ∀ conns, c.shared.tracked = some conns → ∀ i ∈ conns, i < c.shared.conns.length
  disconnects : ∀ i ∈ c.shared.disconnects, c.shared.isClosed i = true

section invariant

variable {s s' : Shared} {i : Nat} {a : Act} {t t' u : Task} {new : List Task} {c c' : State}
  {ev : Event Task Act}

/-- What a task knows stays true while another task moves. -/
theorem Task.Ok.keeps (hu : u.Ok s) (hk : Keeps s s')
    (hr : u = .serve .returned → s.running = 0 → s'.running = 0) : u.Ok s' := by
  cases u with
  | serve pc =>
      obtain ⟨ht, hrun, hl⟩ := hu
      refine ⟨fun h => hk.tracked (ht h), fun h => hr (congrArg _ h) (hrun h), fun l he i hi => ?_⟩
      exact (hl l he i hi).trans_le hk.length
  | handle i pc => exact ⟨hu.1.trans_le hk.length, fun h => hk.closed i (hu.2 h)⟩
  | close i pc => exact ⟨hu.1.trans_le hk.length, fun h => hk.closed i (hu.2 h)⟩
  | outside i pc => exact ⟨hu.1.trans_le hk.length, fun h => hk.closed i (hu.2 h)⟩

/-- A connection that is served: where `handle_conn` goes on, and what it has seen. -/
theorem serving_ok {pc pc' : HandlePc} (ht : (Task.handle i pc).Ok s) (hp : pc.phase = .serving)
    (h : handleStep s i pc a = some (s', pc')) (hsaw : pc'.sawClosed = true) :
    s'.isClosed i = true := by
  obtain ⟨hi, hclosed⟩ := ht
  have hk := (handle_effect h).2
  cases pc with
  | track =>
      cases a with
      | go =>
          simp only [handleStep] at h
          split at h <;> cases h <;> cases hsaw
      | _ => cases h
  | close pc =>
      cases a with
      | go =>
          simp only [handleStep] at h
          split at h
          · rename_i pc'' he
            cases h
            -- `close` goes on to `on_closed` once the flag is set.
            refine closeStep_closed hi (fun hpc => hclosed (by rw [hpc]; rfl)) he (.inr ?_)
            cases pc'' with
            | onClosed => rfl
            | swap | graceful | mark => cases hsaw
          · cases h
            cases hsaw
      | _ => cases h
  | waitClosed =>
      cases a with
      | go =>
          simp only [handleStep] at h
          split at h <;> cases h
          assumption
      | _ => cases h
  | untrack | onDisconnect => exact hk.closed i (hclosed rfl)
  | ended attached => cases attached <;> cases hp
  | _ => cases hp

theorem handle_ok {pc pc' : HandlePc} (ht : (Task.handle i pc).Ok s)
    (h : handleStep s i pc a = some (s', pc')) : (Task.handle i pc').Ok s' := by
  obtain ⟨he, hk⟩ := handle_effect h
  refine ⟨ht.1.trans_le hk.length, fun hsaw => ?_⟩
  have hphase : pc'.phase = .serving ∨ pc'.phase = .over := by
    cases pc' with
    | close pc | untrack | onDisconnect => exact .inl rfl
    | ended attached =>
        cases attached with
        | new => exact .inr rfl
        | resumed | refused => cases hsaw
    | _ => cases hsaw
  cases he with
  | goesOn hp hpc =>
      rcases hpc with hpc | hpc
      · rw [hp, hpc] at hphase
        rcases hphase with hphase | hphase <;> cases hphase
      · exact serving_ok ht hpc h hsaw
  | start _ ht' =>
      rw [ht'] at hsaw
      cases hsaw
  | turnAway hp =>
      rw [hp.2] at hphase
      rcases hphase with hphase | hphase <;> cases hphase
  | disconnect hp => exact serving_ok ht hp.1 h hsaw

theorem serve_ok {pc pc' : ServePc}
    (htr : ∀ conns, s.tracked = some conns → ∀ i ∈ conns, i < s.conns.length)
    (ht : (Task.serve pc).Ok s) (h : serveStep s pc a = some (s', pc', new)) :
    (Task.serve pc').Ok s' ∧ ∀ u ∈ new, u.Ok s' := by
  obtain ⟨hstop, hrun, hl⟩ := ht
  cases pc with
  | accept =>
      cases a with
      | signal =>
          cases h
          exact ⟨⟨nofun, nofun, nofun⟩, nofun⟩
      | acceptFailed peer =>
          cases h
          cases peer <;> exact ⟨⟨nofun, nofun, nofun⟩, nofun⟩
      | accepted =>
          cases h
          refine ⟨⟨nofun, nofun, nofun⟩, fun u hu => ?_⟩
          rw [List.mem_singleton.1 hu]
          exact ⟨by simp, nofun⟩
      | _ => cases h
  | backoff =>
      cases a with
      | signal | go =>
          cases h
          exact ⟨⟨nofun, nofun, nofun⟩, nofun⟩
      | _ => cases h
  | stop =>
      cases a with
      | go =>
          cases h
          refine ⟨⟨fun _ => rfl, nofun, fun conns he i hi => ?_⟩, nofun⟩
          cases he
          -- The connections that were tracked are those that are closed now.
          cases hs : s.tracked with
          | none =>
              rw [hs] at hi
              cases hi
          | some conns =>
              rw [hs] at hi
              exact htr conns hs i hi
      | _ => cases h
  | spawn conns =>
      cases a with
      | go =>
          cases conns with
          | nil =>
              cases h
              exact ⟨⟨fun _ => hstop rfl, nofun, nofun⟩, nofun⟩
          | cons i conns =>
              cases h
              have hlt := hl _ rfl
              refine ⟨⟨fun _ => hstop rfl, nofun, fun l he j hj => ?_⟩, fun u hu => ?_⟩
              · cases he
                exact hlt j (List.mem_cons_of_mem _ hj)
              · rw [List.mem_singleton.1 hu]
                exact ⟨hlt i List.mem_cons_self, nofun⟩
      | _ => cases conns <;> cases h
  | join =>
      cases a with
      | go =>
          simp only [serveStep] at h
          split at h <;> cases h
          exact ⟨⟨fun _ => hstop rfl, fun _ => ‹_›, nofun⟩, nofun⟩
      | _ => cases h
  | returned => cases a <;> cases h

/-- What the task that moves and the tasks it starts know after its operation. -/
theorem move_ok (htr : ∀ conns, s.tracked = some conns → ∀ i ∈ conns, i < s.conns.length)
    (ht : t.Ok s) (h : move s t a = some (s', t', new)) : t'.Ok s' ∧ ∀ u ∈ new, u.Ok s' := by
  have hk := move_keeps h
  cases move_cases h with
  | serve hs => exact serve_ok htr ht hs
  | handle hs => exact ⟨handle_ok ht hs, nofun⟩
  | close he | outside he =>
      refine ⟨⟨ht.1.trans_le hk.length, fun hpc => ?_⟩, nofun⟩
      exact closeStep_closed ht.1 (fun h => ht.2 (congrArg some h)) he (.inr hpc)
  | closed he => exact ⟨⟨ht.1.trans_le hk.length, nofun⟩, nofun⟩

/-- No task but `serve_with_accept` starts others. -/
theorem move_running (hs : t.isServe = false) (h : move s t a = some (s', t', new)) :
    s'.running ≤ s.running := by
  cases move_cases h with
  | serve => cases hs
  | handle hs =>
      cases (handle_effect hs).1 with
      | goesOn _ _ _ _ hr | start _ _ _ _ hr => exact hr.le
      | turnAway _ _ _ hr | disconnect _ _ _ hr => exact hr.le.trans (Nat.sub_le _ _)
  | close he | outside he => exact (closeStep_keeps he).2.2.2.1.le
  | closed he => exact (Nat.sub_le _ _).trans (closeStep_keeps he).2.2.2.1.le

/-- What an operation does to the tracked connections. -/
inductive Tracks (s : Shared) (t : Task) (s' : Shared) (t' : Task) : Prop where
  | same (h : s'.tracked = s.tracked)
  | track (i : Nat) (conns : List Nat) (ht : t = .handle i .track) (ht' : t' = .handle i .waitClosed)
      (h : s.tracked = some conns) (h' : s'.tracked = some (i :: conns.erase i))
  | untrack (i : Nat) (ht : t = .handle i .untrack) (h' : s'.tracked = s.tracked.map (·.erase i))
  | stop (ht : t = .serve .stop) (ht' : t' = .serve (.spawn (s.tracked.getD [])))
      (h' : s'.tracked = none)

theorem handle_tracks {pc pc' : HandlePc} (h : handleStep s i pc a = some (s', pc')) :
    Tracks s (.handle i pc) s' (.handle i pc') := by
  cases pc with
  | track =>
      cases a with
      | go =>
          simp only [handleStep] at h
          split at h <;> cases h
          · obtain ⟨conns, hc, rfl⟩ := track_some ‹_›
            exact .track i conns rfl rfl hc rfl
          · exact .same rfl
      | _ => cases h
  | untrack =>
      cases a with
      | go =>
          cases h
          exact .untrack i rfl rfl
      | _ => cases h
  | close pc =>
      cases a with
      | go =>
          simp only [handleStep] at h
          split at h
          all_goals
            rename_i he
            cases h
            exact .same (closeStep_keeps he).2.2.2.2.1
      | _ => cases h
  | waitClosed =>
      cases a with
      | go =>
          simp only [handleStep] at h
          split at h <;> cases h
          exact .same rfl
      | _ => cases h
  | handshake | readAttach =>
      cases a with
      | stopped =>
          simp only [handleStep] at h
          split at h <;> cases h
          exact .same rfl
      | request request => cases request <;> cases h <;> exact .same rfl
      | fail | config config => cases h <;> exact .same rfl
      | _ => cases h
  | _ =>
      cases a
      all_goals first | cases h; done | skip
      all_goals
        cases h
        exact .same rfl

theorem serve_tracks {pc pc' : ServePc} (h : serveStep s pc a = some (s', pc', new)) :
    Tracks s (.serve pc) s' (.serve pc') := by
  cases pc with
  | stop =>
      cases a with
      | go =>
          cases h
          exact .stop rfl rfl rfl
      | _ => cases h
  | spawn conns =>
      cases a with
      | go => cases conns <;> cases h <;> exact .same rfl
      | _ => cases conns <;> cases h
  | join =>
      cases a with
      | go =>
          simp only [serveStep] at h
          split at h <;> cases h
          exact .same rfl
      | _ => cases h
  | accept | backoff | returned =>
      cases a
      all_goals first | cases h; done | skip
      all_goals
        cases h
        exact .same rfl

theorem move_tracks (h : move s t a = some (s', t', new)) : Tracks s t s' t' := by
  cases move_cases h with
  | serve hs => exact serve_tracks hs
  | handle hs => exact handle_tracks hs
  | close he | closed he | outside he => exact .same (closeStep_keeps he).2.2.2.2.1

/-- What is tracked names connections. -/
theorem tracked_step (hI : Inv c) (h : machine.step c ev = some c') :
    ∀ conns, c'.shared.tracked = some conns → ∀ i ∈ conns, i < c'.shared.conns.length := by
  rcases Program.step_cases h with ⟨i, x, t, s', t', new, -, ht, hm, rfl⟩ | ⟨t, -, -, rfl⟩
  · have hle : c.shared.conns.length ≤ s'.conns.length := (move_keeps hm).length
    intro conns hconns j hj
    cases move_tracks hm with
    | same he => exact (hI.tracked conns (he.symm.trans hconns) j hj).trans_le hle
    | track k conns' he _ hold hnew =>
        cases hnew.symm.trans hconns
        rcases List.mem_cons.1 hj with rfl | hj
        · have hok := hI.tasks t (List.mem_of_getElem? ht)
          rw [he] at hok
          exact hok.1.trans_le hle
        · exact (hI.tracked conns' hold j (List.mem_of_mem_erase hj)).trans_le hle
    | untrack k _ hnew =>
        obtain ⟨conns', hold, rfl⟩ := Option.map_eq_some_iff.1 (hnew.symm.trans hconns)
        exact (hI.tracked conns' hold j (List.mem_of_mem_erase hj)).trans_le hle
    | stop _ _ hnew => cases hnew.symm.trans hconns
  · exact hI.tracked

/-- Only a task that has seen its connection closed calls `on_disconnect`. -/
theorem move_disconnects (h : move s t a = some (s', t', new)) :
    s'.disconnects = s.disconnects ∨ ∃ i pc, t' = .handle i pc ∧ pc.sawClosed = true ∧
      s'.disconnects = s.disconnects ++ [i] := by
  cases move_cases h with
  | serve hs => exact .inl (serve_effect hs).2.2.1
  | @handle i _ pc' _ _ hs =>
      cases (handle_effect hs).1 with
      | goesOn _ _ _ hd | start _ _ _ hd | turnAway _ _ hd => exact .inl hd
      | disconnect hp _ hd =>
          refine .inr ⟨i, pc', rfl, ?_, hd⟩
          have hover := hp.2
          cases pc' with
          | ended attached =>
              cases attached with
              | new => rfl
              | resumed | refused => cases hover
          | _ => cases hover
  | close he | closed he | outside he => exact .inl (closeStep_keeps he).2.2.1

theorem disconnects_step (hI : Inv c) (h : machine.step c ev = some c') :
    ∀ i ∈ c'.shared.disconnects, c'.shared.isClosed i = true := by
  rcases Program.step_cases h with ⟨j, x, t, s', t', new, -, ht, hm, rfl⟩ | ⟨t, -, -, rfl⟩
  · intro i hi
    have hk : Keeps c.shared s' := move_keeps hm
    rcases move_disconnects hm with hd | ⟨k, pc, rfl, hsaw, hd⟩
    · exact hk.closed i (hI.disconnects i (hd ▸ hi))
    · rcases List.mem_append.1 (hd ▸ hi) with hi | hi
      · exact hk.closed i (hI.disconnects i hi)
      · obtain ⟨⟨-, hclosed⟩, -⟩ := move_ok hI.tracked (hI.tasks t (List.mem_of_getElem? ht)) hm
        rw [List.mem_singleton.1 hi]
        exact hclosed hsaw
  · exact hI.disconnects

theorem inv_step (hI : Inv c) (h : machine.step c ev = some c') : Inv c' := by
  refine ⟨accounts_step hI.accounts h, ?_, tracked_step hI h, disconnects_step hI h⟩
  refine Program.step_forall (A := fun s t => t.Ok s) h hI.tasks ?_ fun t _ ht => ?_
  · intro i x t s' t' new _ ht hm
    have hmem := List.mem_of_getElem? ht
    obtain ⟨hok, hnew⟩ := move_ok hI.tracked (hI.tasks t hmem) hm
    refine ⟨hok, hnew, fun u hu hok => hok.keeps (move_keeps hm) fun hret hzero => ?_⟩
    cases hs : t.isServe with
    | true =>
        -- The one task that serves has returned.
        have he : t = u := hI.accounts.serve.unique (List.getElem?_of_mem hu).choose_spec
          (by rw [hret]; rfl) hmem hs
        rw [he, hret] at hm
        cases x <;> cases hm
    | false => exact Nat.le_zero.1 (hzero ▸ move_running hs hm)
  · obtain ⟨i, pc, rfl, hi, rfl | rfl⟩ := starts_idle ht
    · exact ⟨hi, nofun⟩
    · exact ⟨hi, nofun⟩

theorem inv_reachable (h : machine.Reachable c) : Inv c := by
  refine h.invariant ?_ fun _ _ _ hI _ hs => inv_step hI hs
  rintro _ rfl
  refine ⟨accounts_reachable (.init rfl), fun t ht => ?_, fun conns h i hi => ?_, nofun⟩
  · rw [List.mem_singleton.1 ht]
    exact ⟨nofun, nofun, nofun⟩
  · cases h
    cases hi

end invariant

/-! ### Connections that a shutdown closes -/

/-- The task is about to close the connection, or, before `track`, to have it tracked or close it. -/
def Task.Closes (i : Nat) : Task → Prop
  | .serve (.spawn conns) => i ∈ conns
  | .close j (some _) | .handle j (.close _) | .handle j .track => j = i
  | _ => False

/-- The connection is closed, or the shutdown closes it. -/
def Closing (c : State) (i : Nat) : Prop :=
  c.shared.isClosed i = true ∨ (∃ conns, c.shared.tracked = some conns ∧ i ∈ conns) ∨
    ∃ t ∈ c.tasks, t.Closes i

section closing

variable {s s' : Shared} {i : Nat} {a : Act} {t t' : Task} {new : List Task} {c c' : State}
  {ev : Event Task Act}

/-- A task that is about to close a connection goes on to do so. -/
theorem closes_move (hok : t.Ok s) (hc : t.Closes i) (h : move s t a = some (s', t', new)) :
    s'.isClosed i = true ∨ (∃ conns, s'.tracked = some conns ∧ i ∈ conns) ∨ t'.Closes i ∨
      ∃ u ∈ new, u.Closes i := by
  cases move_cases h with
  | @serve pc _ _ _ _ hs =>
      cases pc with
      | spawn conns =>
          cases a with
          | go =>
              cases conns with
              | nil => cases hc
              | cons j conns =>
                  cases hs
                  rcases List.mem_cons.1 hc with rfl | hc
                  · exact .inr (.inr (.inr ⟨_, List.mem_singleton_self _, rfl⟩))
                  · exact .inr (.inr (.inl hc))
          | _ => cases conns <;> cases hs
      | _ => cases hc
  | @handle j pc _ _ _ hs =>
      cases pc with
      | track =>
          cases hc
          cases a with
          | go =>
              simp only [handleStep] at hs
              split at hs <;> cases hs
              · obtain ⟨conns, -, rfl⟩ := track_some ‹_›
                exact .inr (.inl ⟨_, rfl, List.mem_cons_self⟩)
              · exact .inr (.inr (.inl rfl))
          | _ => cases hs
      | close pc =>
          cases hc
          cases a with
          | go =>
              simp only [handleStep] at hs
              split at hs
              · cases hs
                exact .inr (.inr (.inl rfl))
              · rename_i he
                cases hs
                refine .inl (closeStep_closed hok.1 (fun hpc => hok.2 ?_) he (.inl rfl))
                rw [hpc]
                rfl
          | _ => cases hs
      | _ => cases hc
  | close =>
      cases hc
      exact .inr (.inr (.inl rfl))
  | closed he =>
      cases hc
      have hclosed := closeStep_closed hok.1 (fun hpc => hok.2 (congrArg some hpc)) he (.inl rfl)
      exact .inl hclosed
  | outside => cases hc

/-- A connection that the shutdown closes stays one. -/
theorem Closing.step (hI : Inv c) (hc : Closing c i) (h : machine.step c ev = some c') :
    Closing c' i := by
  rcases Program.step_cases h with ⟨j, x, t, s', t', new, -, ht, hm, rfl⟩ | ⟨t, -, -, rfl⟩
  · have hok := hI.tasks t (List.mem_of_getElem? ht)
    have hk : Keeps c.shared s' := move_keeps hm
    rcases hc with hc | ⟨conns, hconns, hi⟩ | ⟨u, hu, hc⟩
    · exact .inl (hk.closed i hc)
    · cases move_tracks hm with
      | same he => exact .inr (.inl ⟨conns, he.trans hconns, hi⟩)
      | track k conns' _ _ hold hnew =>
          cases hold.symm.trans hconns
          refine .inr (.inl ⟨_, hnew, ?_⟩)
          by_cases hik : i = k
          · exact hik ▸ List.mem_cons_self
          · exact List.mem_cons_of_mem _ ((List.mem_erase_of_ne hik).2 hi)
      | untrack k he hnew =>
          by_cases hik : i = k
          · -- It is untracked once it has been seen closed.
            subst he hik
            exact .inl (hk.closed i (hok.2 rfl))
          · refine .inr (.inl ⟨conns.erase k, ?_, (List.mem_erase_of_ne hik).2 hi⟩)
            rw [hnew, hconns, Option.map_some]
      | stop _ he _ =>
          -- The shutdown takes over what is tracked.
          refine .inr (.inr ⟨t', List.mem_append_left _ (Machine.Pool.mem_set_self ht), ?_⟩)
          rw [he, hconns]
          exact hi
    · by_cases hut : u = t
      · subst hut
        rcases closes_move hok hc hm with hc | hc | hc | ⟨v, hv, hc⟩
        · exact .inl hc
        · exact .inr (.inl hc)
        · exact .inr (.inr ⟨t', List.mem_append_left _ (Machine.Pool.mem_set_self ht), hc⟩)
        · exact .inr (.inr ⟨v, List.mem_append_right _ hv, hc⟩)
      · exact .inr (.inr ⟨u, List.mem_append_left _ (Machine.Pool.mem_set_of_ne ht hu hut), hc⟩)
  · refine hc.imp_right (Or.imp_right ?_)
    rintro ⟨u, hu, hc⟩
    exact ⟨u, List.mem_append_left _ hu, hc⟩

/-- A connection that is started is one that `handle_conn` is about to track. -/
theorem move_started (h : move s t a = some (s', t', new)) :
    s'.started = s.started ∨ ∃ i, t' = .handle i .track ∧ s'.started = s.started ++ [i] := by
  cases move_cases h with
  | serve hs => exact .inl (serve_effect hs).2.1
  | @handle i _ _ _ _ hs =>
      cases (handle_effect hs).1 with
      | goesOn _ _ hst | turnAway _ hst | disconnect _ hst => exact .inl hst
      | start _ ht hst => exact .inr ⟨i, by rw [ht], hst⟩
  | close he | closed he | outside he => exact .inl (closeStep_keeps he).2.1

/-- What `start` has started is tracked or closed from then on. -/
theorem started_closing (h : machine.Reachable c) : ∀ i ∈ c.shared.started, Closing c i := by
  induction h with
  | init he =>
      cases he
      exact nofun
  | @step c c' ev hr _ hs ih =>
      have hI := inv_reachable hr
      intro i hi
      by_cases hold : i ∈ c.shared.started
      · exact (ih i hold).step hI hs
      · rcases Program.step_cases hs with ⟨j, x, t, s', t', new, -, ht, hm, rfl⟩ | ⟨t, -, -, rfl⟩
        · rcases move_started hm with he | ⟨k, rfl, he⟩
          · exact absurd (he ▸ hi) hold
          · have hik : i = k := by simpa [he, hold] using hi
            refine .inr (.inr ⟨_, List.mem_append_left _ (Machine.Pool.mem_set_self ht), ?_⟩)
            exact hik.symm
        · exact absurd hi hold

end closing

/-! ### The result -/

/-- What the server keeps account of, in any state. -/
structure Accounted (c : State) : Prop where
  /-- `on_disconnect` is called once at most, for a connection that was started and is closed. -/
  once : ∀ i, c.shared.disconnects.count i ≤ 1
  disconnects : ∀ i ∈ c.shared.disconnects, i ∈ c.shared.started ∧ c.shared.isClosed i = true
  /-- It is not called for a transport that resumed another connection or was refused. -/
  turnedAway : ∀ i pc, .handle i pc ∈ c.tasks → pc.phase = .turnedAway → i ∉ c.shared.disconnects
  /-- Nothing is tracked once the shutdown has begun. -/
  tracked : ∀ pc, .serve pc ∈ c.tasks → pc.stopped = true → c.shared.tracked = none
  /-- What was started is closed, tracked, or about to be closed or tracked by a task. -/
  closing : ∀ i ∈ c.shared.started, Closing c i
  /-- When `serve_with_accept` returns, what was started is closed and disconnected, and no task of
  the server is left. -/
  returned : .serve .returned ∈ c.tasks →
    (∀ i ∈ c.shared.started, c.shared.isClosed i = true ∧ c.shared.disconnects.count i = 1) ∧
      ∀ t ∈ c.tasks, t.unended = 0

theorem started_once {c : State} (h : machine.Reachable c) (i : Nat) :
    c.shared.started.count i ≤ 1 := by
  have := (inv_reachable h).accounts.started i
  rw [Shared.made] at this
  split at this <;> omega

theorem disconnects_le {c : State} (h : machine.Reachable c) (i : Nat) :
    c.shared.disconnects.count i ≤ c.shared.started.count i := by
  have := (inv_reachable h).accounts.disconnects i
  omega

/-- When `serve_with_accept` returns, no task is left that serves a connection, so each one that was
started was disconnected. -/
theorem returned_accounts {c : State} (h : machine.Reachable c) (hret : .serve .returned ∈ c.tasks) :
    (∀ i ∈ c.shared.started, c.shared.isClosed i = true ∧ c.shared.disconnects.count i = 1) ∧
      ∀ t ∈ c.tasks, t.unended = 0 := by
  obtain ⟨hacc, htasks, -, hdisc⟩ := inv_reachable h
  have hzero : ∀ t ∈ c.tasks, t.unended = 0 := fun t ht => by
    have hsum : t.unended ≤ (c.tasks.map Task.unended).sum :=
      List.le_sum_of_mem (List.mem_map_of_mem ht)
    rw [hacc.running, (htasks _ hret).2.1 rfl] at hsum
    exact Nat.le_zero.1 hsum
  refine ⟨fun i hi => ?_, hzero⟩
  have hserved : (c.tasks.map (Task.serving i)).sum = 0 := by
    refine List.sum_eq_zero fun n hn => ?_
    obtain ⟨t, ht, rfl⟩ := List.mem_map.1 hn
    have hended := hzero t ht
    cases t with
    | handle j pc =>
        refine if_neg ?_
        rintro ⟨-, hp⟩
        simp [Task.unended, hp] at hended
    | serve | close | outside => rfl
  have hone : c.shared.disconnects.count i = 1 := by
    have hpos := List.count_pos_iff.2 hi
    have := hacc.disconnects i
    have := started_once h i
    omega
  exact ⟨hdisc i (List.count_pos_iff.1 (by omega)), hone⟩

/-- **A shutdown accounts for every connection.** -/
theorem shutdown_accounts {c : State} (h : machine.Reachable c) : Accounted c := by
  obtain ⟨hacc, htasks, -, hdisc⟩ := inv_reachable h
  have hle := disconnects_le h
  refine ⟨fun i => (hle i).trans (started_once h i), fun i hi => ⟨?_, hdisc i hi⟩,
    fun i pc ht hp hi => ?_, fun pc ht => (htasks _ ht).1, started_closing h, returned_accounts h⟩
  · exact List.count_pos_iff.1 ((List.count_pos_iff.2 hi).trans_le (hle i))
  · -- The task that turned it away leaves no place for a task that served it.
    have hone : (Task.handle i pc).unserved i = 1 := by simp [Task.unserved, hp]
    have hsum : (Task.handle i pc).unserved i ≤ (c.tasks.map (Task.unserved i)).sum :=
      List.le_sum_of_mem (List.mem_map_of_mem ht)
    have hpos := (List.count_pos_iff.2 hi).trans_le (hle i)
    have := hacc.started i
    rw [Shared.made] at this
    split at this <;> omega

/-- A v2 connection is tracked when the signal comes, and a v3 connection starts after it. -/
def bothSidesRun : List (Event Task Act) :=
  [Event.task 0 Act.accepted, .task 0 .accepted, .task 1 (.config ⟨2, 1, 1024⟩)] ++
  List.replicate 3 (Event.task 1 Act.go) ++
  [Event.task 2 (Act.config ⟨3, 1, 1024⟩), .task 2 (.request .new), .task 2 (.token 7), .task 2 .go,
    .task 2 .go, .task 0 .signal, .task 0 .go, .task 2 .go, .task 0 .go, .task 0 .go] ++
  List.replicate 4 (Event.task 3 Act.go) ++ List.replicate 3 (Event.task 1 Act.go) ++
  List.replicate 8 (Event.task 2 Act.go) ++ [Event.task 0 Act.go]

theorem shutdown_accounts_bothSides :
    ∃ c, machine.Reachable c ∧ .serve .returned ∈ c.tasks ∧ c.shared.started = [0, 1] ∧
      Accounted c := by
  have hr : machine.Reachable ((machine.exec initial bothSidesRun).getD initial) :=
    Machine.reachable_of_exec bothSidesRun rfl (by decide +kernel)
  exact ⟨_, hr, by decide +kernel, by decide +kernel, shutdown_accounts hr⟩

end AdaptiveMsg.Server
