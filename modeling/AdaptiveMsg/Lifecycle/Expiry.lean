import AdaptiveMsg.Lifecycle.Steps

/-!
# Lifecycle — a resume cancels the expiry

The generations that detaches stamp are no attach's, so a timer that finds its own generation has
seen no attach since its detach.  The look at the generation and the close are two steps:
`expiry_cancelled` is the result over the runs in which no attach takes its generation between
them, and `expiry_closes_resumed` a run in which one does.
-/

namespace AdaptiveMsg.Lifecycle

open Machine.Pool (Program Event mem_of_mem_set_append)

variable {c c' : Conn} {e : Event Task Act}

/-! ### The stamps of detaches -/

/-- The generation was reached by a detach. -/
def Shared.Stamp (s : Shared) (gen : Nat) : Prop := gen ≤ s.transportGen ∧ gen ∉ s.attachGens

theorem stamp_callStep {s : Shared} {gen : Nat} (n : Nat) (call : Call) (hs : s.Stamp gen) :
    (s.callStep n call).1.Stamp gen := by
  obtain ⟨hle, hmem⟩ := hs
  rcases callStep_transportGen s n call with ⟨-, hgen, hgens⟩ | ⟨ar, -, hgen, hgens, -⟩ | ⟨hgen, hgens⟩
  · refine ⟨hgen ▸ Nat.le_succ_of_le hle, ?_⟩
    rw [hgens, List.mem_cons, not_or]
    exact ⟨Nat.ne_of_lt (Nat.lt_succ_of_le hle), hmem⟩
  · exact ⟨hgen ▸ Nat.le_succ_of_le hle, hgens ▸ hmem⟩
  · exact ⟨hgen ▸ hle, hgens ▸ hmem⟩

theorem stamp_step {gen : Nat} (h : program.step c e = some c') (hs : c.shared.Stamp gen) :
    c'.shared.Stamp gen := by
  rcases step_cases h with ⟨i, b, call, rfl, -, rfl⟩ | ⟨i, a, b, s', t', new, rfl, -, hb, rfl⟩ |
    ⟨t, rfl, -, rfl⟩
  · exact stamp_callStep _ _ hs
  · have hf := bodyStep_frame hb
    exact ⟨hf.transportGen ▸ hs.1, hf.attachGens ▸ hs.2⟩
  · exact hs

namespace Task

/-- The stamp of a detach that has taken one. -/
def stamp (t : Task) : Option Nat :=
  match t.call with
  | some (.detach gen _ pc) => if pc = .checkClosed ∨ pc = .compareExchange then none else some (gen + 1)
  | _ => none

/-- The generation of an expiry timer. -/
def timer (t : Task) : Option Nat :=
  match t.body with
  | .timer detachedGen _ => some detachedGen
  | _ => none

/-- The generation of a timer that has found it and is about to close the connection. -/
def expiring (t : Task) : Option Nat :=
  if t.call = some (.markClosed .swapClosed) then t.timer else none

end Task

/-- No attach takes its generation between a timer's look at the generation and its close. -/
def LooksAndCloses (c : Conn) (e : Event Task Act) : Prop :=
  ∀ t ∈ c.moving e, t.call = some (.attach .fetchAdd) → c.shared.closed = false →
    ∀ u ∈ c.tasks, u.expiring = none

instance (c : Conn) (e : Event Task Act) : Decidable (LooksAndCloses c e) :=
  inferInstanceAs (Decidable (∀ t ∈ c.moving e, _))

/-! ### The invariant -/

structure ExpiryInv (c : Conn) : Prop where
  gens : ∀ gen ∈ c.shared.attachGens, gen ≤ c.shared.transportGen
  stamp : ∀ t ∈ c.tasks, ∀ gen, t.stamp = some gen → c.shared.Stamp gen
  timer : ∀ t ∈ c.tasks, ∀ gen, t.timer = some gen → c.shared.Stamp gen
  /-- A timer makes no other call. -/
  call : ∀ t ∈ c.tasks, ∀ gen, t.timer = some gen → ∀ call, t.call = some call →
    ∃ pc, call = .markClosed pc
  expiring : c.shared.closed = false → ∀ t ∈ c.tasks, ∀ gen, t.expiring = some gen →
    ∀ g ∈ c.shared.attachGens, g < gen

theorem Task.timer_of_expiring {t : Task} {gen : Nat} (h : t.expiring = some gen) :
    t.call = some (.markClosed .swapClosed) ∧ t.timer = some gen := by
  unfold expiring at h
  split at h
  · exact ⟨‹_›, h⟩
  · cases h

theorem timer_of_kind {t : Task} {b : Body} {call : Option Call} (h : t.body.kind = b.kind) :
    t.timer = Task.timer ⟨b, call⟩ := by
  obtain ⟨b', call'⟩ := t
  cases b' <;> cases b <;> first | rfl | cases h
  rfl

/-- A detach takes its stamp with its compare-exchange. -/
theorem stamp_of_callStep {s : Shared} {n gen : Nat} {b : Body} {call : Call}
    (h : Task.stamp ⟨b, (s.callStep n call).2.1⟩ = some gen) :
    Task.stamp ⟨b, some call⟩ = some gen ∨
      ∃ ar, call = .detach s.transportGen ar .compareExchange ∧ gen = s.transportGen + 1 := by
  cases call with
  | attach pc =>
      cases pc <;> simp only [Shared.callStep, Shared.attachStep] at h <;> repeat' split at h
      all_goals cases h
  | detach g ar pc =>
      cases pc with
      | compareExchange =>
          simp only [Shared.callStep, Shared.detachStep] at h
          split at h
          · rename_i hg
            have hgen : g + 1 = gen := by simpa [Task.stamp] using h
            exact .inr ⟨ar, by rw [hg], by rw [hg, hgen]⟩
          · cases h
      | checkClosed =>
          simp only [Shared.callStep, Shared.detachStep] at h
          split at h <;> simp [Task.stamp] at h
      | recover =>
          simp only [Shared.callStep, Shared.detachStep] at h
          repeat' split at h
          all_goals cases h
      | _ => exact .inl (by simpa [Task.stamp, Shared.callStep, Shared.detachStep] using h)
  | markClosed pc =>
      cases pc <;> simp only [Shared.callStep, Shared.markClosedStep] at h <;> repeat' split at h
      all_goals cases h

/-- A timer is started by a detach, for its stamp. -/
theorem timer_of_callStep {s : Shared} {n gen : Nat} {b : Body} {call : Call} {t : Task}
    (ht : t ∈ (s.callStep n call).2.2) (h : t.timer = some gen) :
    Task.stamp ⟨b, some call⟩ = some gen := by
  cases call with
  | attach pc =>
      cases pc <;> simp only [Shared.callStep, Shared.attachStep, List.not_mem_nil,
        List.mem_singleton] at ht
      subst ht
      cases h
  | detach g ar pc =>
      cases pc <;> simp only [Shared.callStep, Shared.detachStep] at ht <;> repeat' split at ht
      all_goals simp only [List.not_mem_nil, List.mem_singleton] at ht
      all_goals subst ht
      · cases h
      · simpa [Task.stamp, Task.timer] using h
  | markClosed pc => cases pc <;> simp [Shared.callStep, Shared.markClosedStep] at ht

/-- The call that a timer makes, having found its generation. -/
theorem timer_of_bodyStep {s s' : Shared} {i gen : Nat} {b : Body} {a : Act} {t' : Task}
    {new : List Task} {call : Call} (h : s.bodyStep i b a = some (s', t', new))
    (ht : t'.timer = some gen) (hc : t'.call = some call) :
    call = .markClosed .swapClosed ∧ s.transportGen = gen := by
  have hk := (bodyStep_frame h).kind
  obtain ⟨b', call'⟩ := t'
  cases b with
  | timer detachedGen pc =>
      cases pc <;> cases a <;> simp only [Shared.bodyStep, Shared.timerStep, Shared.goesOn] at h <;>
        repeat' split at h
      all_goals first | contradiction | obtain ⟨rfl, rfl, rfl⟩ := h
      all_goals cases hc
      cases ht
      exact ⟨rfl, ‹_›⟩
  | _ => cases b' <;> first | cases hk; done | cases ht

theorem expiryInv_stamp (hI : ExpiryInv c) (h : program.step c e = some c') :
    ∀ t ∈ c'.tasks, ∀ gen, t.stamp = some gen → c'.shared.Stamp gen := by
  intro u hu gen hs
  rcases step_cases h with ⟨i, b, call, rfl, ht, rfl⟩ | ⟨i, a, b, s', t', new, rfl, -, hb, rfl⟩ |
    ⟨t, rfl, ht, rfl⟩
  · rcases mem_of_mem_set_append hu with rfl | hu | hu
    · rcases stamp_of_callStep hs with hs | ⟨ar, rfl, rfl⟩
      · exact stamp_callStep _ _ (hI.stamp _ (List.mem_of_getElem? ht) gen hs)
      · simp only [Shared.callStep, Shared.detachStep, if_pos]
        exact ⟨Nat.le_refl _, fun hmem => absurd (hI.gens _ hmem) (Nat.not_succ_le_self _)⟩
    · exact stamp_callStep _ _ (hI.stamp u hu gen hs)
    · rw [Task.stamp, callStep_new u hu] at hs
      cases hs
  · have hf := bodyStep_frame hb
    rw [hf.new] at hu
    rcases mem_of_mem_set_append hu with rfl | hu | hu
    · unfold Task.stamp at hs
      split at hs
      · obtain rfl := hf.entry _ ‹_›
        cases hs
      · cases hs
    · exact stamp_step h (hI.stamp u hu gen hs)
    · cases hu
  · rcases List.mem_append.mp hu with hu | hu
    · exact hI.stamp u hu gen hs
    · rw [List.mem_singleton.mp hu] at hs
      unfold Task.stamp at hs
      rcases start_call ht with hc | hc | ⟨-, hc⟩ <;> rw [hc] at hs <;> cases hs

theorem start_timer {s : Shared} {t : Task} (h : s.start t = true) : t.timer = none := by
  simp only [Shared.start, Bool.or_eq_true, decide_eq_true_eq, Bool.and_eq_true] at h
  rcases h with (rfl | rfl) | ⟨-, rfl⟩ <;> rfl

/-- A timer was one before the step, or is started by a detach for its stamp. -/
theorem timer_step {u : Task} {gen : Nat} (h : program.step c e = some c') (hu : u ∈ c'.tasks)
    (hs : u.timer = some gen) :
    (∃ t ∈ c.tasks, t.timer = some gen) ∨ ∃ t ∈ c.tasks, t.stamp = some gen := by
  rcases step_cases h with ⟨i, b, call, rfl, ht, rfl⟩ | ⟨i, a, b, s', t', new, rfl, ht, hb, rfl⟩ |
    ⟨t, rfl, ht, rfl⟩
  · rcases mem_of_mem_set_append hu with rfl | hu | hu
    · exact .inl ⟨_, List.mem_of_getElem? ht, hs⟩
    · exact .inl ⟨u, hu, hs⟩
    · exact .inr ⟨_, List.mem_of_getElem? ht, timer_of_callStep hu hs⟩
  · have hf := bodyStep_frame hb
    rw [hf.new] at hu
    rcases mem_of_mem_set_append hu with rfl | hu | hu
    · exact .inl ⟨_, List.mem_of_getElem? ht, (timer_of_kind hf.kind).symm.trans hs⟩
    · exact .inl ⟨u, hu, hs⟩
    · cases hu
  · rcases List.mem_append.mp hu with hu | hu
    · exact .inl ⟨u, hu, hs⟩
    · rw [List.mem_singleton.mp hu, start_timer ht] at hs
      cases hs

theorem expiryInv_call (hI : ExpiryInv c) (h : program.step c e = some c') :
    ∀ t ∈ c'.tasks, ∀ gen, t.timer = some gen → ∀ call, t.call = some call →
      ∃ pc, call = .markClosed pc := by
  intro u hu gen hs call hc
  rcases step_cases h with ⟨i, b, call', rfl, ht, rfl⟩ | ⟨i, a, b, s', t', new, rfl, ht, hb, rfl⟩ |
    ⟨t, rfl, ht, rfl⟩
  · rcases mem_of_mem_set_append hu with rfl | hu | hu
    · obtain ⟨pc, rfl⟩ := hI.call _ (List.mem_of_getElem? ht) gen hs call' rfl
      cases pc <;> simp only [Shared.callStep, Shared.markClosedStep] at hc <;> repeat' split at hc
      all_goals cases hc
      all_goals exact ⟨_, rfl⟩
    · exact hI.call u hu gen hs call hc
    · rw [callStep_new u hu] at hc
      cases hc
  · have hf := bodyStep_frame hb
    rw [hf.new] at hu
    rcases mem_of_mem_set_append hu with rfl | hu | hu
    · exact ⟨_, (timer_of_bodyStep hb hs hc).1⟩
    · exact hI.call u hu gen hs call hc
    · cases hu
  · rcases List.mem_append.mp hu with hu | hu
    · exact hI.call u hu gen hs call hc
    · rw [List.mem_singleton.mp hu, start_timer ht] at hs
      cases hs

theorem expiryInv_expiring (hI : ExpiryInv c) (hC : LooksAndCloses c e)
    (h : program.step c e = some c') (hopen : c'.shared.closed = false) :
    ∀ t ∈ c'.tasks, ∀ gen, t.expiring = some gen → ∀ g ∈ c'.shared.attachGens, g < gen := by
  have hopen₀ := open_of_step h hopen
  intro u hu gen hs g hmem
  rcases step_cases h with ⟨i, b, call, rfl, ht, rfl⟩ | ⟨i, a, b, s', t', new, rfl, ht, hb, rfl⟩ |
    ⟨t, rfl, ht, rfl⟩
  · have hu' : u ∈ c.tasks := by
      rcases mem_of_mem_set_append hu with rfl | hu | hu
      · -- A timer that goes on with `mark_closed` has left `swapClosed`.
        obtain ⟨hc, htm⟩ := Task.timer_of_expiring hs
        obtain ⟨pc, rfl⟩ := hI.call _ (List.mem_of_getElem? ht) gen htm call rfl
        cases pc <;> simp only [Shared.callStep, Shared.markClosedStep] at hc <;> repeat' split at hc
        all_goals cases hc
      · exact hu
      · have hc := (Task.timer_of_expiring hs).1
        rw [callStep_new u hu] at hc
        cases hc
    rcases callStep_transportGen c.shared c.tasks.length call with
      ⟨rfl, -⟩ | ⟨-, -, -, hgens, -⟩ | ⟨-, hgens⟩
    · rw [hC _ ht rfl hopen₀ u hu'] at hs
      cases hs
    · exact hI.expiring hopen₀ u hu' gen hs g (hgens ▸ hmem)
    · exact hI.expiring hopen₀ u hu' gen hs g (hgens ▸ hmem)
  · have hf := bodyStep_frame hb
    rw [hf.new] at hu
    simp only [hf.attachGens] at hmem
    rcases mem_of_mem_set_append hu with rfl | hu | hu
    · -- The timer has just found its generation, which is no attach's.
      obtain ⟨hc, htm⟩ := Task.timer_of_expiring hs
      have hgen := (timer_of_bodyStep hb htm hc).2
      have hst := hI.timer _ (List.mem_of_getElem? ht) gen ((timer_of_kind hf.kind).symm.trans htm)
      exact Nat.lt_of_le_of_ne (hgen ▸ hI.gens g hmem) fun heq => hst.2 (heq ▸ hmem)
    · exact hI.expiring hopen₀ u hu gen hs g hmem
    · cases hu
  · rcases List.mem_append.mp hu with hu | hu
    · exact hI.expiring hopen₀ u hu gen hs g hmem
    · have htm := (Task.timer_of_expiring hs).2
      rw [List.mem_singleton.mp hu, start_timer ht] at htm
      cases htm

theorem expiryInv_step (hI : ExpiryInv c) (hC : LooksAndCloses c e)
    (h : program.step c e = some c') : ExpiryInv c' where
  gens := (step_grows h).gens hI.gens
  stamp := expiryInv_stamp hI h
  timer u hu gen hs := by
    rcases timer_step h hu hs with ⟨t, ht, hs⟩ | ⟨t, ht, hs⟩
    · exact stamp_step h (hI.timer t ht gen hs)
    · exact stamp_step h (hI.stamp t ht gen hs)
  call := expiryInv_call hI h
  expiring := expiryInv_expiring hI hC h

/-! ### The result -/

theorem expiryInv_reachable {role : RecoveryRole}
    (h : (machine role).ReachableUnder LooksAndCloses c) : ExpiryInv c := by
  refine h.invariant ?_ fun _ _ _ => expiryInv_step
  rintro _ ⟨ttl, rfl⟩
  constructor <;> simp [started, Task.stamp, Task.timer, Task.expiring]

/-- A timer that is about to close the open connection has seen no attach since its detach: the
generation of every attach is before its own. -/
def ExpiryCancelled (c : Conn) : Prop :=
  c.shared.closed = false → ∀ t ∈ c.tasks, ∀ gen, t.expiring = some gen →
    ∀ g ∈ c.shared.attachGens, g < gen

/-- **A resume cancels every pending expiry**, in the runs in which no attach takes its generation
between a timer's look and its close. -/
theorem expiry_cancelled {role : RecoveryRole}
    (h : (machine role).ReachableUnder LooksAndCloses c) : ExpiryCancelled c :=
  (expiryInv_reachable h).expiring

/-- The server's transport ends, and the timer of its detach finds the generation. -/
def expiryRun : List (Event Task Act) :=
  Event.task 1 Act.fail :: List.replicate 6 (.task 1 .run) ++
    [Event.task 2 Act.fire, .task 2 .run, .task 2 .run]

def expiringServer : Conn where
  shared := { (started .server 30).shared with
    transportGen := 2, transportAttached := false, writerCmd := [.attach 1, .detach 1] }
  tasks := [⟨.writer 0 false false, none⟩, ⟨.reader 1 .ended, none⟩,
    ⟨.timer 2 .ended, some (.markClosed .swapClosed)⟩]

theorem expiry_cancelled_expiring :
    expiringServer.shared.closed = false ∧ ∀ g ∈ expiringServer.shared.attachGens, g < 2 := by
  have hr : (machine .server).ReachableUnder LooksAndCloses expiringServer :=
    .exec expiryRun (.init ⟨30, rfl⟩) rfl (by decide)
  exact ⟨rfl, expiry_cancelled hr rfl ⟨.timer 2 .ended, some (.markClosed .swapClosed)⟩ (by decide) 2
    rfl⟩

/-- A resume attaches its transport before the timer closes the connection. -/
def resumedRun : List (Event Task Act) :=
  expiryRun ++ .start ⟨.resume, some (.attach .checkClosed)⟩ :: List.replicate 8 (.task 3 .run)

def resumedServer : Conn where
  shared := { expiringServer.shared with
    transportGen := 3, transportAttached := true, currentReaderAbort := some (3, 4)
    writerCmd := [.attach 1, .detach 1, .attach 3], aborted := [1], attachGens := [3, 1] }
  tasks := expiringServer.tasks ++ [⟨.resume, none⟩, ⟨.reader 3 .reading, none⟩]

theorem expiry_closes_resumed : ¬∀ c, (machine .server).Reachable c → ExpiryCancelled c := by
  intro hall
  have hr : (machine .server).Reachable resumedServer :=
    Machine.reachable_of_exec resumedRun ⟨30, rfl⟩ rfl
  have hlt := hall _ hr rfl ⟨.timer 2 .ended, some (.markClosed .swapClosed)⟩ (by decide) 2 rfl 3
    (by decide)
  exact absurd hlt (by decide)

end AdaptiveMsg.Lifecycle
