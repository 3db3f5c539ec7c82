import AdaptiveMsg.Lifecycle.Steps

/-!
# Lifecycle — CLOSE is permanent

A reader that gets CLOSE sets `closing` and delivers what it has received before it closes the
connection.  `detach_transport` looks at `closed` only.  CLOSE is permanent in the runs in which it
is handled while no attach or detach is under way, the writer does not fail on the transport
meanwhile, and the server accepts no resume (`Settled`): `close_permanent`.  A write that fails
meanwhile detaches the connection instead: `close_reconnects`.
-/

namespace AdaptiveMsg.Lifecycle

open Machine.Pool (Program Event mem_of_mem_set_append getElem?_set_append_self countP_set_of_eq)

/-! ### What is under way -/

namespace Task

/-- An attach that has yet to store `transport_attached`, a detach that has taken a generation, or
one that is about to take the latest. -/
def Disturbs (latest : Nat) (t : Task) : Prop :=
  match t.call with
  | some (.attach (.signalSend _)) | some (.attach (.spawnReader _))
  | some (.attach (.storeReader _ _)) => False
  | some (.attach _) => True
  | some (.detach gen _ pc) => pc = .checkClosed ∨ pc = .compareExchange → gen = latest
  | _ => False

/-- A loop that is reconnecting, or is about to. -/
def Reconnecting (t : Task) : Prop :=
  t.body = .loop .attempt ∨ t.body = .loop .resuming ∨ t.body = .loop .reacquire

/-- The task is a reconnect loop or an expiry timer. -/
def recovery (t : Task) : Bool :=
  match t.body with
  | .loop _ | .timer _ _ => true
  | _ => false

/-- A reader that has handled CLOSE and is about to close the connection. -/
def Closing (t : Task) : Prop :=
  ∃ gen, t = ⟨.reader gen .delivering, none⟩ ∨
    t = ⟨.reader gen .ended, some (.markClosed .swapClosed)⟩

instance (latest : Nat) (t : Task) : Decidable (t.Disturbs latest) := by
  unfold Disturbs
  split <;> infer_instance

instance (t : Task) : Decidable t.Reconnecting := inferInstanceAs (Decidable (_ ∨ _ ∨ _))

end Task

/-- No attach or detach is under way that changes the transport, and no loop is reconnecting. -/
def Conn.Quiet (c : Conn) : Prop :=
  ∀ t ∈ c.tasks, ¬t.Disturbs c.shared.transportGen ∧ ¬t.Reconnecting

/-- The reader `i` of the generation `gen` reads the latest transport, it was not aborted, and
nothing else is under way. -/
structure Conn.SettledOn (c : Conn) (i gen : Nat) : Prop where
  latest : c.shared.transportGen = gen
  attached : c.shared.transportAttached = true
  running : i ∉ c.shared.aborted
  quiet : c.Quiet

/-- CLOSE is handled on the settled transport, and between that and the close of the connection no
write or flush fails on that transport and no resume is accepted. -/
def Settled (c : Conn) : Event Task Act → Prop
  | .task i a =>
    ∀ t ∈ c.tasks[i]?, c.shared.closed = false →
      (∀ gen, t = ⟨.reader gen .closeByPeer, none⟩ → c.SettledOn i gen) ∧
      (c.shared.closeHandled = true →
        a = .fail → t ≠ ⟨.writer c.shared.transportGen true false, none⟩)
  | .start t => c.shared.closed = false → c.shared.closeHandled = true → t.body ≠ .resume

/-! ### From CLOSE to the close -/

variable {c c' : Conn} {e : Event Task Act}

/-- CLOSE has been handled for good: the connection is attached to its latest transport, and a
reader that was not aborted is about to close the connection. -/
structure ClosedByPeer (c : Conn) : Prop where
  attached : c.shared.transportAttached = true
  latest : ¬c.shared.Detached
  reader : ∃ i t, c.tasks[i]? = some t ∧ i ∉ c.shared.aborted ∧ t.Closing

/-- The life cycle is where it was: the same transport, attached or not, and as many reconnect
loops and expiry timers. -/
structure SameLifeCycle (c c' : Conn) : Prop where
  transportGen : c'.shared.transportGen = c.shared.transportGen
  transportAttached : c'.shared.transportAttached = c.shared.transportAttached
  recovery : c'.tasks.countP Task.recovery = c.tasks.countP Task.recovery

/-- An operation of a call that does not disturb the transport, before the close. -/
theorem callStep_quiet {s : Shared} {b : Body} {call : Call} (n : Nat)
    (hq : ¬Task.Disturbs s.transportGen ⟨b, some call⟩)
    (hswap : ∀ pc, call = .markClosed pc → pc = .swapClosed)
    (hopen : (s.callStep n call).1.closed = false) :
    (s.callStep n call).1.transportGen = s.transportGen ∧
      (s.callStep n call).1.transportAttached = s.transportAttached ∧
      (s.callStep n call).1.attachGens = s.attachGens ∧
      (s.callStep n call).1.aborted = s.aborted ∧
      ¬Task.Disturbs s.transportGen ⟨b, (s.callStep n call).2.1⟩ ∧
      ∀ t ∈ (s.callStep n call).2.2, ∃ gen, t = ⟨.reader gen .reading, none⟩ := by
  cases call with
  | attach pc =>
      cases pc with
      | checkClosed | fetchAdd | takeReader gen | sendAttach gen | storeAttached gen =>
          exact absurd trivial hq
      | signalSend gen | storeReader gen reader | spawnReader gen =>
          exact ⟨rfl, rfl, rfl, rfl, by simp [Task.Disturbs, Shared.callStep, Shared.attachStep],
            by simp [Shared.callStep, Shared.attachStep]⟩
  | detach gen abortReader pc =>
      -- It has yet to take a generation, and finds that its own is not the latest.
      obtain ⟨hpc, hne⟩ : (pc = .checkClosed ∨ pc = .compareExchange) ∧ gen ≠ s.transportGen := by
        simpa [Task.Disturbs] using hq
      rcases hpc with rfl | rfl
      · refine ⟨rfl, rfl, rfl, rfl, ?_, by simp [Shared.callStep, Shared.detachStep]⟩
        simp only [Shared.callStep, Shared.detachStep]
        split <;> simp [Task.Disturbs, hne]
      · simp [Shared.callStep, Shared.detachStep, hne.symm, Task.Disturbs]
  | markClosed pc =>
      obtain rfl := hswap pc rfl
      cases hopen

/-- A step of a body starts no reconnecting while the connection is attached. -/
theorem bodyStep_reconnecting {s s' : Shared} {i : Nat} {b : Body} {a : Act} {t' : Task}
    {new : List Task} (h : s.bodyStep i b a = some (s', t', new)) (hb : ¬Task.Reconnecting ⟨b, none⟩)
    (hatt : s.transportAttached = true) : ¬t'.Reconnecting := by
  have hf := bodyStep_frame h
  by_cases hloop : b.kind = .loop .stopped
  · obtain ⟨pc, rfl⟩ := loop_of_kind hloop
    have hpc : pc ≠ .attempt ∧ pc ≠ .resuming ∧ pc ≠ .reacquire := by
      simpa [Task.Reconnecting] using hb
    cases pc <;> cases a <;> simp only [Shared.bodyStep, Shared.loopStep, Shared.goesOn] at h <;>
      repeat' split at h
    all_goals first | contradiction | obtain ⟨rfl, rfl, rfl⟩ := h
    all_goals simp [Task.Reconnecting] at hpc hatt ⊢
  · rintro (h' | h' | h') <;> exact hloop (hf.kind.symm.trans (congrArg Body.kind h'))

/-- A step of a body that begins a detach: the writer fails, or a reader that is not closing. -/
theorem bodyStep_detach {s s' : Shared} {i : Nat} {b : Body} {a : Act} {t' : Task}
    {new : List Task} (h : s.bodyStep i b a = some (s', t', new)) {gen : Nat} {abortReader : Bool}
    {pc : DetachPc} (ht : t'.call = some (.detach gen abortReader pc)) :
    (b = .writer gen true false ∧ a = .fail) ∨ s.closing = false := by
  have hb : b = .writer gen true false ∨ b = .reader gen .reading := by
    cases (bodyStep_effect h).1 with
    | command | lock => cases ht
    | closeByPeer _ ht' => rcases ht' with rfl | rfl <;> cases ht
    | close _ hc => cases hc _ ht
    | own _ _ _ hd => exact hd _ _ _ ht
  rcases hb with rfl | rfl
  · refine .inl ⟨rfl, ?_⟩
    cases a <;> simp only [Shared.bodyStep, Shared.writerStep, Shared.goesOn] at h <;>
      repeat' split at h
    all_goals first | rfl | contradiction | (obtain ⟨rfl, rfl, rfl⟩ := h; cases ht)
  · refine .inr ?_
    cases a <;> simp only [Shared.bodyStep, Shared.readerStep, Shared.goesOn] at h <;>
      repeat' split at h
    all_goals first | contradiction | exact Bool.eq_false_of_not_eq_true ‹_› |
      (obtain ⟨rfl, rfl, rfl⟩ := h; cases ht)

/-- A step of a body begins no call that disturbs the transport while this side is closing. -/
theorem bodyStep_quiet {s s' : Shared} {i : Nat} {b : Body} {a : Act} {t' : Task}
    {new : List Task} (h : s.bodyStep i b a = some (s', t', new)) (hb : ¬Task.Reconnecting ⟨b, none⟩)
    (hcl : s.closing = true) (hw : a = .fail → b ≠ .writer s.transportGen true false) :
    ¬t'.Disturbs s.transportGen := by
  have hf := bodyStep_frame h
  obtain ⟨body, call⟩ := t'
  cases call with
  | none => exact id
  | some call =>
      cases call with
      | attach pc => exact absurd (.inr (.inl (hf.attach pc rfl).1)) hb
      | detach gen abortReader pc =>
          obtain rfl : pc = .checkClosed := hf.entry _ rfl
          intro hgen
          rcases bodyStep_detach h rfl with ⟨rfl, ha⟩ | hopen
          · exact hw ha (by rw [hgen (.inl rfl)])
          · rw [hcl] at hopen
            cases hopen
      | markClosed pc => exact id

theorem bodyStep_closeHandled {s s' : Shared} {i : Nat} {b : Body} {a : Act} {t' : Task}
    {new : List Task} (h : s.bodyStep i b a = some (s', t', new)) :
    s'.closeHandled = s.closeHandled ∨ ∃ gen, b = .reader gen .closeByPeer ∧ t'.Closing := by
  cases (bodyStep_effect h).1 with
  | @closeByPeer gen hb _ ht =>
      rcases ht with rfl | rfl
      · exact .inr ⟨gen, hb, gen, .inr rfl⟩
      · exact .inr ⟨gen, hb, gen, .inl rfl⟩
  | _ => exact .inl rfl

/-- A closing reader that was not aborted is still there until it closes the connection. -/
theorem closing_step {i : Nat} {t : Task} (h : program.step c e = some c')
    (hopen : c'.shared.closed = false) (ht : c.tasks[i]? = some t) (hi : i ∉ c.shared.aborted)
    (hcl : t.Closing) : ∃ t', c'.tasks[i]? = some t' ∧ t'.Closing := by
  rcases Program.step_at h ht with ht' | ⟨a, s', t', new, rfl, hm, rfl⟩
  · exact ⟨t, ht', hcl⟩
  obtain ⟨gen, rfl | rfl⟩ := hcl
  · have hm : c.shared.readerStep i gen .delivering a = some (s', t', new) := hm
    refine ⟨t', Machine.Pool.getElem?_set_append_self ht, ?_⟩
    cases a <;> simp only [Shared.readerStep, Shared.goesOn] at hm
    case delivered =>
      obtain ⟨-, rfl, -⟩ := hm
      exact ⟨gen, .inr rfl⟩
    case stop =>
      rw [if_neg hi] at hm
      cases hm
    all_goals cases hm
  · obtain ⟨rfl, -, -⟩ := move_call hm
    cases hopen

theorem recovery_of_kind {t : Task} {b : Body} (h : t.body.kind = b.kind) (call : Option Call) :
    t.recovery = Task.recovery ⟨b, call⟩ := by
  obtain ⟨b', call'⟩ := t
  cases b' <;> cases b <;> first | rfl | cases h

theorem start_recovery {s : Shared} {t : Task} (h : s.start t = true) : t.recovery = false := by
  simp only [Shared.start, Bool.or_eq_true, decide_eq_true_eq, Bool.and_eq_true] at h
  rcases h with (rfl | rfl) | ⟨-, rfl⟩ <;> rfl

theorem start_quiet {s : Shared} {t : Task} (h : s.start t = true) (hres : t.body ≠ .resume)
    (latest : Nat) : ¬t.Disturbs latest ∧ ¬t.Reconnecting := by
  simp only [Shared.start, Bool.or_eq_true, decide_eq_true_eq, Bool.and_eq_true] at h
  rcases h with (rfl | rfl) | ⟨-, rfl⟩
  · simp [Task.Disturbs, Task.Reconnecting]
  · simp [Task.Disturbs, Task.Reconnecting]
  · exact absurd rfl hres

/-- A call in progress has not run the swap of `mark_closed`. -/
theorem swap_of_open (hswap : ClosedPastSwap c) (hopen : c.shared.closed = false) {b : Body}
    {call : Call} (ht : ⟨b, some call⟩ ∈ c.tasks) :
    ∀ pc, call = .markClosed pc → pc = .swapClosed := fun pc hpc =>
  (hswap _ ht pc (congrArg some hpc)).resolve_right (by simp [hopen])

/-- Once CLOSE is handled, a step closes the connection or leaves the life cycle as it is. -/
theorem closedByPeer_step (hI : ClosedByPeer c) (hq : c.Quiet) (hswap : ClosedPastSwap c)
    (h : program.step c e = some c') (hopen : c'.shared.closed = false) :
    ClosedByPeer c' ∧ SameLifeCycle c c' := by
  have hopen₀ := open_of_step h hopen
  -- The reader that read CLOSE stays on its way to `mark_closed`.
  obtain ⟨i₀, t₀, ht₀, hab, hcl⟩ := hI.reader
  obtain ⟨t₁, ht₁, hcl₁⟩ := closing_step h hopen ht₀ hab hcl
  rcases step_cases h with ⟨i, b, call, rfl, ht, rfl⟩ | ⟨i, a, b, s', t', new, rfl, ht, hb, rfl⟩ |
    ⟨t, rfl, ht, rfl⟩
  · have hmem := List.mem_of_getElem? ht
    obtain ⟨hgen, hatt, hgens, habs, -, hnew⟩ := callStep_quiet c.tasks.length
      (hq _ hmem).1 (swap_of_open hswap hopen₀ hmem) hopen
    refine ⟨⟨hatt.trans hI.attached, ?_, i₀, t₁, ht₁, by rw [habs]; exact hab, hcl₁⟩,
      ⟨hgen, hatt, ?_⟩⟩
    · simpa only [Shared.Detached, hgen, hgens] using hI.latest
    · have hnone : (c.shared.callStep c.tasks.length call).2.2.countP Task.recovery = 0 := by
        rw [List.countP_eq_zero]
        intro u hu
        obtain ⟨gen, rfl⟩ := hnew u hu
        simp [Task.recovery]
      simp only [List.countP_append, hnone, Nat.add_zero]
      exact countP_set_of_eq ht rfl
  · have hf := bodyStep_frame hb
    refine ⟨⟨hf.transportAttached.trans hI.attached, ?_, i₀, t₁, ht₁,
      by rw [hf.aborted]; exact hab, hcl₁⟩, ⟨hf.transportGen, hf.transportAttached, ?_⟩⟩
    · simpa only [Shared.Detached, hf.transportGen, hf.attachGens] using hI.latest
    · rw [hf.new, List.append_nil]
      exact countP_set_of_eq ht (recovery_of_kind hf.kind none).symm
  · refine ⟨⟨hI.attached, hI.latest, i₀, t₁, ht₁, hab, hcl₁⟩, ⟨rfl, rfl, ?_⟩⟩
    simp [List.countP_append, start_recovery ht]

/-- And nothing comes to be under way that changes the transport. -/
theorem quiet_step (hq : c.Quiet) (hatt : c.shared.transportAttached = true)
    (hcl : c.shared.closing = true) (hswap : ClosedPastSwap c) (hC : Settled c e)
    (hh : c.shared.closeHandled = true) (h : program.step c e = some c')
    (hopen : c'.shared.closed = false) : c'.Quiet := by
  have hopen₀ := open_of_step h hopen
  intro u hu
  rcases step_cases h with ⟨i, b, call, rfl, ht, rfl⟩ | ⟨i, a, b, s', t', new, rfl, ht, hb, rfl⟩ |
    ⟨t, rfl, ht, rfl⟩
  · have hmem := List.mem_of_getElem? ht
    obtain ⟨hgen, -, -, -, hquiet, hnew⟩ := callStep_quiet c.tasks.length
      (hq _ hmem).1 (swap_of_open hswap hopen₀ hmem) hopen
    rw [hgen]
    rcases mem_of_mem_set_append hu with rfl | hu | hu
    · exact ⟨hquiet, (hq _ hmem).2⟩
    · exact hq u hu
    · obtain ⟨gen, rfl⟩ := hnew u hu
      simp [Task.Disturbs, Task.Reconnecting]
  · have hmem := List.mem_of_getElem? ht
    have hf := bodyStep_frame hb
    rw [hf.new] at hu
    rw [hf.transportGen]
    rcases mem_of_mem_set_append hu with rfl | hu | hu
    · have hw : a = .fail → b ≠ .writer c.shared.transportGen true false := fun ha hb =>
        (hC _ ht hopen₀).2 hh ha (by rw [hb])
      exact ⟨bodyStep_quiet hb (hq _ hmem).2 hcl hw, bodyStep_reconnecting hb (hq _ hmem).2 hatt⟩
    · exact hq u hu
    · cases hu
  · rcases List.mem_append.mp hu with hu | hu
    · exact hq u hu
    · rw [List.mem_singleton.mp hu]
      exact start_quiet ht (hC hopen₀ hh) _

/-- The reader that handles CLOSE on the settled transport. -/
theorem closedByPeer_of_settled {i gen : Nat} (hS : c.SettledOn i gen)
    (hgen : ∀ t ∈ c.tasks, GenAttached c.shared t)
    (ht : c.tasks[i]? = some ⟨.reader gen .closeByPeer, none⟩) {a : Act} {s' : Shared} {t' : Task}
    {new : List Task} (hb : c.shared.bodyStep i (.reader gen .closeByPeer) a = some (s', t', new))
    (hcl : t'.Closing) :
    ClosedByPeer ⟨s', c.tasks.set i t' ++ new⟩ ∧ Conn.Quiet ⟨s', c.tasks.set i t' ++ new⟩ := by
  have hf := bodyStep_frame hb
  have hmem := List.mem_of_getElem? ht
  refine ⟨⟨hf.transportAttached.trans hS.attached, ?_, i, t', getElem?_set_append_self ht,
    by rw [hf.aborted]; exact hS.running, hcl⟩, fun u hu => ?_⟩
  · simp only [Shared.Detached, hf.transportGen, hf.attachGens, hS.latest, not_not]
    exact (hgen _ hmem).1 gen _ rfl
  · rw [hf.new] at hu
    rw [hf.transportGen]
    rcases mem_of_mem_set_append hu with rfl | hu | hu
    · refine ⟨?_, bodyStep_reconnecting hb (hS.quiet _ hmem).2 hS.attached⟩
      obtain ⟨gen', rfl | rfl⟩ := hcl <;> exact id
    · exact hS.quiet u hu
    · cases hu

/-! ### The result -/

structure PeerCloseInv (c : Conn) : Prop where
  swap : ClosedPastSwap c
  gens : ∀ t ∈ c.tasks, GenAttached c.shared t
  closing : c.shared.closeHandled = true → c.shared.closing = true
  handled : c.shared.closeHandled = true → c.shared.closed = false → ClosedByPeer c ∧ c.Quiet

theorem callStep_closing (s : Shared) (n : Nat) (call : Call) :
    (s.callStep n call).1.closing = s.closing ∧
      (s.callStep n call).1.closeHandled = s.closeHandled := by
  cases call with
  | attach pc => cases pc <;> exact ⟨rfl, rfl⟩
  | detach gen abortReader pc =>
      cases pc <;> simp only [Shared.callStep, Shared.detachStep] <;> repeat' split
      all_goals simp [Shared.takeReader]
  | markClosed pc => cases pc <;> exact ⟨rfl, rfl⟩

theorem bodyStep_closing {s s' : Shared} {i : Nat} {b : Body} {a : Act} {t' : Task}
    {new : List Task} (h : s.bodyStep i b a = some (s', t', new)) :
    (s'.closing = s.closing ∧ s'.closeHandled = s.closeHandled) ∨ s'.closing = true := by
  cases (bodyStep_effect h).1 with
  | closeByPeer | close => exact .inr rfl
  | command | lock | own => exact .inl ⟨rfl, rfl⟩

theorem peerCloseInv_step (hI : PeerCloseInv c) (hC : Settled c e) (h : program.step c e = some c') :
    PeerCloseInv c' := by
  have hold : c.shared.closeHandled = true → c'.shared.closed = false →
      ClosedByPeer c' ∧ c'.Quiet := fun hh hopen => by
    obtain ⟨hcl, hq⟩ := hI.handled hh (open_of_step h hopen)
    exact ⟨(closedByPeer_step hcl hq hI.swap h hopen).1,
      quiet_step hq hcl.attached (hI.closing hh) hI.swap hC hh h hopen⟩
  refine ⟨closedPastSwap_step hI.swap h, genAttached_step hI.gens h, fun hh' => ?_,
    fun hh' hopen => ?_⟩
  · rcases step_cases h with ⟨i, b, call, rfl, ht, rfl⟩ | ⟨i, a, b, s', t', new, rfl, ht, hb, rfl⟩ |
      ⟨t, rfl, ht, rfl⟩
    · obtain ⟨hclosing, hhandled⟩ := callStep_closing c.shared c.tasks.length call
      exact hclosing.trans (hI.closing (hhandled.symm.trans hh'))
    · rcases bodyStep_closing hb with ⟨hclosing, hhandled⟩ | hclosing
      · exact hclosing.trans (hI.closing (hhandled.symm.trans hh'))
      · exact hclosing
    · exact hI.closing hh'
  · rcases step_cases h with ⟨i, b, call, rfl, ht, rfl⟩ | ⟨i, a, b, s', t', new, rfl, ht, hb, rfl⟩ |
      ⟨t, rfl, ht, rfl⟩
    · exact hold ((callStep_closing _ _ _).2.symm.trans hh') hopen
    · rcases bodyStep_closeHandled hb with hsame | ⟨gen, rfl, hcl⟩
      · exact hold (hsame.symm.trans hh') hopen
      · exact closedByPeer_of_settled ((hC _ ht (open_of_step h hopen)).1 gen rfl) hI.gens ht hb hcl
    · exact hold hh' hopen

theorem peerCloseInv_reachable {role : RecoveryRole}
    (h : (machine role).ReachableUnder Settled c) : PeerCloseInv c := by
  refine h.invariant ?_ fun _ _ _ hI hC hs => peerCloseInv_step hI hC hs
  rintro _ ⟨ttl, rfl⟩
  refine ⟨by simp [ClosedPastSwap, started], by simp [started, GenAttached], fun hh => ?_,
    fun hh => ?_⟩ <;> cases hh

/-- CLOSE is permanent at `c`: once a reader has handled it, the connection is attached to its
latest transport, and the next change of the life cycle closes it. -/
def ClosePermanent (c : Conn) : Prop :=
  c.shared.closeHandled = true → c.shared.closed = false →
    ClosedByPeer c ∧ ∀ e c', program.step c e = some c' →
      c'.shared.closed = true ∨ SameLifeCycle c c'

/-- **CLOSE is permanent** in the runs that handle it while nothing else is under way, and in which
until the close the writer does not fail and no resume is accepted. -/
theorem close_permanent {role : RecoveryRole} (h : (machine role).ReachableUnder Settled c) :
    ClosePermanent c := by
  intro hh hopen
  have hI := peerCloseInv_reachable h
  obtain ⟨hcl, hq⟩ := hI.handled hh hopen
  refine ⟨hcl, fun e c' hs => ?_⟩
  by_cases hopen' : c'.shared.closed = true
  · exact .inl hopen'
  · exact .inr (closedByPeer_step hcl hq hI.swap hs (by simpa using hopen')).2

/-- The reader gets CLOSE and delivers. -/
def closeRun : List (Event Task Act) := [.task 1 .close, .task 1 .run]

def deliveringClient : Conn where
  shared := { (started .client 30).shared with closing := true, closeHandled := true }
  tasks := [⟨.writer 0 false false, none⟩, ⟨.reader 1 .delivering, none⟩]

theorem settled_closeRun :
    (machine .client).ExecMeets Settled (started .client 30) closeRun := by
  refine ⟨fun t ht _ => ?_, fun c hc => ⟨fun t ht _ => ?_, fun _ _ => trivial⟩⟩
  · obtain rfl : _ = t := Option.some.inj ht
    refine ⟨fun gen h => ?_, fun h => ?_⟩ <;> cases h
  · obtain rfl : _ = c := Option.some.inj hc
    obtain rfl : _ = t := Option.some.inj ht
    refine ⟨fun gen h => ?_, fun h => by cases h⟩
    cases h
    exact ⟨rfl, rfl, by decide, by simp [Conn.Quiet]; decide⟩

theorem close_permanent_delivering :
    ClosedByPeer deliveringClient ∧ ∀ e c', program.step deliveringClient e = some c' →
      c'.shared.closed = true ∨ SameLifeCycle deliveringClient c' :=
  close_permanent (.exec closeRun (.init ⟨30, rfl⟩) rfl settled_closeRun) rfl rfl

/-- While the reader delivers, the writer fails on the transport and detaches it. -/
def reconnectsRun : List (Event Task Act) :=
  closeRun ++ .task 0 .run :: .task 0 .fail :: List.replicate 6 (.task 0 .run)

def reconnectingClient : Conn where
  shared := { (started .client 30).shared with
    closing := true, closeHandled := true, transportGen := 2, transportAttached := false
    currentReaderAbort := none, reconnectActive := true, writerCmd := [.detach 1], aborted := [1] }
  tasks := [⟨.writer 1 false false, none⟩, ⟨.reader 1 .delivering, none⟩, ⟨.loop .attempt, none⟩]

/-- The client has handled CLOSE, and reconnects. -/
theorem close_reconnects : ¬∀ c, (machine .client).Reachable c → ClosePermanent c := by
  intro hall
  have hr : (machine .client).Reachable reconnectingClient :=
    Machine.reachable_of_exec reconnectsRun ⟨30, rfl⟩ rfl
  have hatt := (hall _ hr rfl rfl).1.attached
  cases hatt

end AdaptiveMsg.Lifecycle
