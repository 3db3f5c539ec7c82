import AdaptiveMsg.Lifecycle.Steps

/-!
# Lifecycle — a client's lost transport is replaced

A detach moves the generation, clears the attached flag and starts a reconnect loop unless one is
active; a loop that releases `reconnect_active` re-checks the flag before it stops.  A client whose
latest transport is detached then always has a loop running, provided a detach clears the flag only
when no attach of the same generation has yet to set it (`StoresInOrder`).

`transport_replaced` is the result over the runs all of whose steps meet that condition.  A transport
that fails while its attach is still under way breaks it: `reconnect_lost`.
-/

namespace AdaptiveMsg.Lifecycle

open Machine.Pool (Program Event Held mem_set_self mem_set_of_ne mem_of_mem_set_append)

/-! ### What a task holds and owes -/

namespace Task

/-- The loops that hold `reconnect_active`. -/
def holdsReconnect (t : Task) : Bool :=
  match t.body with
  | .loop .attempt | .loop .resuming | .loop .release => true
  | _ => false

/-- The generation of an attach that has yet to set the attached flag. -/
def unstored (t : Task) : Option Nat :=
  match t.call with
  | some (.attach (.takeReader gen)) | some (.attach (.sendAttach gen))
  | some (.attach (.storeAttached gen)) => some gen
  | _ => none

/-- The generation of a detach that is about to clear the attached flag. -/
def clearing (t : Task) : Option Nat :=
  match t.call with
  | some (.detach gen _ .storeDetached) => some gen
  | _ => none

/-- A reconnect loop that has not decided to stop. -/
def LoopRunning (t : Task) : Prop := ∃ pc, t.body = .loop pc ∧ pc ≠ .stopped

/-- A task that will reconnect: a running loop, or a detach that has yet to start one. -/
def Recovers (t : Task) : Prop :=
  t.LoopRunning ∨ ∃ gen abortReader pc, t.call = some (.detach gen abortReader pc) ∧
    pc ≠ .checkClosed ∧ pc ≠ .compareExchange

/-- The task is in a call of `attach_transport_parts` or `detach_transport`. -/
def Switching (t : Task) : Prop :=
  (∃ pc, t.call = some (.attach pc)) ∨ ∃ gen abortReader pc, t.call = some (.detach gen abortReader pc)

theorem recovers_of_clearing {t : Task} {gen : Nat} (h : t.clearing = some gen) : t.Recovers := by
  unfold clearing at h
  split at h
  · exact .inr ⟨_, _, _, ‹_›, by simp, by simp⟩
  · cases h

theorem recovers_of_holdsReconnect {t : Task} (h : t.holdsReconnect = true) : t.Recovers := by
  unfold holdsReconnect at h
  split at h <;> first | exact .inl ⟨_, ‹_›, by simp⟩ | cases h

end Task

/-- A detach that clears the attached flag finds no attach of its generation yet to set it. -/
def StoresInOrder (c : Conn) (e : Event Task Act) : Prop :=
  ∀ t ∈ c.moving e, ∀ gen ∈ t.clearing, ∀ u ∈ c.tasks, u.unstored ≠ some gen

/-! ### The invariant -/

structure ReconnectInv (c : Conn) : Prop where
  role : c.shared.role = .client
  /-- One loop holds `reconnect_active` while it is set. -/
  lock : Held Task.holdsReconnect c.tasks c.shared.reconnectActive
  /-- Only the loop that holds it attaches. -/
  attaching : ∀ t ∈ c.tasks, ∀ pc, t.call = some (.attach pc) → t.holdsReconnect = true
  closing : ClosedPastSwap c
  /-- The transport that an attach is about to announce is the latest, or its detach is about to
  clear the flag. -/
  storing : ∀ t ∈ c.tasks, ∀ gen, t.unstored = some gen →
    (c.shared.transportGen = gen ∧ gen ∈ c.shared.attachGens) ∨ ∃ u ∈ c.tasks, u.clearing = some gen
  /-- The flag of a detached transport is about to be cleared. -/
  attached : c.shared.Detached → c.shared.transportAttached = true →
    ∃ u ∈ c.tasks, ∃ gen, u.clearing = some gen
  recovering : c.shared.Detached ∨ c.shared.transportAttached = false →
    c.shared.closed = true ∨ ∃ u ∈ c.tasks, u.Recovers

/-! ### The lock -/

variable {c c' : Conn} {e : Event Task Act}

theorem start_holdsReconnect {s : Shared} {t : Task} (h : s.start t = true) :
    t.holdsReconnect = false := by
  simp only [Shared.start, Bool.or_eq_true, decide_eq_true_eq, Bool.and_eq_true] at h
  rcases h with (rfl | rfl) | ⟨-, rfl⟩ <;> rfl

theorem holdsReconnect_of_kind {t : Task} (h : t.body.kind ≠ .loop .stopped) :
    t.holdsReconnect = false := by
  unfold Task.holdsReconnect
  split <;> first | rfl | exact absurd (congrArg Body.kind ‹_›) h

/-- A step of a body keeps the lock: only loops take it and release it. -/
theorem lock_bodyStep {i : Nat} {b : Body} {a : Act} {s' : Shared} {t' : Task} {new : List Task}
    (hl : Held Task.holdsReconnect c.tasks c.shared.reconnectActive)
    (ht : c.tasks[i]? = some ⟨b, none⟩) (hb : c.shared.bodyStep i b a = some (s', t', new)) :
    Held Task.holdsReconnect (c.tasks.set i t') s'.reconnectActive := by
  by_cases hloop : b.kind = .loop .stopped
  · obtain ⟨pc, rfl⟩ := loop_of_kind hloop
    cases pc <;> cases a <;> simp only [Shared.bodyStep, Shared.loopStep, Shared.goesOn] at hb
    case release.run =>
      obtain ⟨rfl, rfl, rfl⟩ := hb
      exact hl.release ht rfl rfl
    case reacquire.run =>
      split at hb
      · obtain ⟨rfl, rfl, rfl⟩ := hb
        exact hl.set ht rfl
      · rename_i hf
        obtain ⟨rfl, rfl, rfl⟩ := hb
        rw [Bool.not_eq_true] at hf
        rw [hf] at hl
        exact hl.acquire ht rfl rfl
    all_goals repeat' split at hb
    all_goals first | contradiction | obtain ⟨rfl, rfl, rfl⟩ := hb
    all_goals exact hl.set ht rfl
  · have hf := bodyStep_frame hb
    rw [hf.reconnectActive hloop]
    refine hl.set ht ((holdsReconnect_of_kind hloop).trans (holdsReconnect_of_kind ?_).symm)
    rwa [hf.kind]

/-- An operation of a call keeps the lock: `spawn_reconnect_loop` takes it for the loop it starts. -/
theorem lock_callStep {i n : Nat} {b : Body} {call : Call}
    (hl : Held Task.holdsReconnect c.tasks c.shared.reconnectActive)
    (ht : c.tasks[i]? = some ⟨b, some call⟩) :
    Held Task.holdsReconnect (c.tasks.set i ⟨b, (c.shared.callStep n call).2.1⟩ ++
      (c.shared.callStep n call).2.2) (c.shared.callStep n call).1.reconnectActive := by
  have hset : ∀ call', Held Task.holdsReconnect (c.tasks.set i ⟨b, call'⟩) c.shared.reconnectActive :=
    fun call' => hl.set ht rfl
  cases call with
  | attach pc =>
      cases pc with
      | spawnReader gen => exact (hset _).append (by simp [Shared.callStep, Shared.attachStep,
          Task.holdsReconnect])
      | _ => simpa only [Shared.callStep, Shared.attachStep, Shared.takeReader, List.append_nil] using hset _
  | detach gen abortReader pc =>
      cases pc with
      | recover =>
          simp only [Shared.callStep, Shared.detachStep]
          split
          · split
            · simpa only [List.append_nil] using hset none
            · rename_i hf
              have h := hset none
              rw [Bool.not_eq_true] at hf
              rw [hf] at h
              exact h.spawn rfl
          · split
            · simpa only [List.append_nil] using hset _
            · exact (hset none).append (by simp [Task.holdsReconnect])
      | _ =>
          simp only [Shared.callStep, Shared.detachStep]
          repeat' split
          all_goals simpa only [Shared.takeReader, List.append_nil] using hset _
  | markClosed pc =>
      cases pc <;> simpa only [Shared.callStep, Shared.markClosedStep, Shared.takeReader,
        List.append_nil] using hset _

theorem lock_step (hl : Held Task.holdsReconnect c.tasks c.shared.reconnectActive)
    (h : program.step c e = some c') :
    Held Task.holdsReconnect c'.tasks c'.shared.reconnectActive := by
  rcases step_cases h with ⟨i, b, call, rfl, ht, rfl⟩ | ⟨i, a, b, s', t', new, rfl, ht, hb, rfl⟩ |
    ⟨t, rfl, ht, rfl⟩
  · exact lock_callStep hl ht
  · rw [(bodyStep_frame hb).new, List.append_nil]
    exact lock_bodyStep hl ht hb
  · exact hl.append (by simpa using start_holdsReconnect ht)

/-! ### The calls in progress -/

theorem attaching_step (hI : ReconnectInv c) (h : program.step c e = some c') :
    ∀ t ∈ c'.tasks, ∀ pc, t.call = some (.attach pc) → t.holdsReconnect = true := by
  intro u hu pc hpc
  rcases step_cases h with ⟨i, b, call, rfl, ht, rfl⟩ | ⟨i, a, b, s', t', new, rfl, ht, hb, rfl⟩ |
    ⟨t, rfl, ht, rfl⟩
  · rcases mem_of_mem_set_append hu with rfl | hu | hu
    · obtain ⟨pc', rfl⟩ := callStep_attach hpc
      have hold := hI.attaching _ (List.mem_of_getElem? ht) pc' rfl
      exact hold
    · exact hI.attaching u hu pc hpc
    · rw [callStep_new u hu] at hpc
      cases hpc
  · rw [(bodyStep_frame hb).new] at hu
    rcases mem_of_mem_set_append hu with rfl | hu | hu
    · obtain ⟨-, hrel⟩ := (bodyStep_frame hb).attach pc hpc
      simp only [Task.holdsReconnect, hrel]
    · exact hI.attaching u hu pc hpc
    · cases hu
  · rcases List.mem_append.mp hu with hu | hu
    · exact hI.attaching u hu pc hpc
    · rw [List.mem_singleton.mp hu] at hpc
      rcases start_call ht with hc | hc | ⟨hr, -⟩
      · rw [hc] at hpc; cases hpc
      · rw [hc] at hpc; cases hpc
      · rw [hI.role] at hr; cases hr

/-! ### The order of the stores -/

/-- An operation leaves an attach yet to set the flag if it took the generation, or if it was one. -/
theorem callStep_unstored {s : Shared} {n gen : Nat} {b : Body} {call : Call}
    (h : Task.unstored ⟨b, (s.callStep n call).2.1⟩ = some gen) :
    (call = .attach .fetchAdd ∧ gen = s.transportGen + 1) ∨ Task.unstored ⟨b, some call⟩ = some gen := by
  cases call with
  | attach pc =>
      cases pc with
      | fetchAdd => exact .inl ⟨rfl, by simpa [Task.unstored, Shared.callStep, Shared.attachStep] using h.symm⟩
      | checkClosed =>
          simp only [Shared.callStep, Shared.attachStep] at h
          split at h <;> simp [Task.unstored] at h
      | takeReader g | sendAttach g => exact .inr h
      | _ => simp [Task.unstored, Shared.callStep, Shared.attachStep] at h
  | detach g abortReader pc =>
      cases pc <;> simp only [Shared.callStep, Shared.detachStep] at h <;> repeat' split at h
      all_goals simp [Task.unstored] at h
  | markClosed pc =>
      cases pc <;> simp only [Shared.callStep, Shared.markClosedStep] at h <;> repeat' split at h
      all_goals simp [Task.unstored] at h

theorem unstored_attach {t : Task} {gen : Nat} (h : t.unstored = some gen) :
    ∃ pc, t.call = some (.attach pc) ∧ pc ≠ .checkClosed ∧ pc ≠ .fetchAdd := by
  unfold Task.unstored at h
  split at h
  · exact ⟨_, ‹_›, by simp, by simp⟩
  · exact ⟨_, ‹_›, by simp, by simp⟩
  · exact ⟨_, ‹_›, by simp, by simp⟩
  · cases h

theorem entry_unstored {t : Task} (h : ∀ call, t.call = some call → call.Entry) :
    t.unstored = none := by
  by_contra hne
  obtain ⟨gen, hg⟩ := Option.ne_none_iff_exists'.mp hne
  obtain ⟨pc, hc, hpc, -⟩ := unstored_attach hg
  exact hpc (h _ hc)

/-- A detach that is about to clear the flag still is after a step, unless it is the step. -/
theorem clearing_step {gen : Nat} (h : program.step c e = some c')
    (hu : ∃ u ∈ c.tasks, u.clearing = some gen) (hC : ∀ t ∈ c.moving e, t.clearing ≠ some gen) :
    ∃ u ∈ c'.tasks, u.clearing = some gen := by
  obtain ⟨u, hu, hg⟩ := hu
  rcases Program.step_exists h hu with hu | ⟨i, a, s', t', new, rfl, ht, -, -⟩
  · exact ⟨u, hu, hg⟩
  · exact absurd hg (hC u ht)

/-- The task that takes a transport's generation away clears its flag next. -/
theorem clearing_of_compareExchange {i gen : Nat} {abortReader : Bool} {a : Task}
    (ht : c.tasks[i]? = some a) (b : Body) (new : List Task) :
    ∃ u ∈ c.tasks.set i ⟨b, some (.detach gen abortReader .storeDetached)⟩ ++ new,
      u.clearing = some gen :=
  ⟨_, List.mem_append_left _ (mem_set_self ht), rfl⟩

theorem storing_step (hI : ReconnectInv c) (hC : StoresInOrder c e) (h : program.step c e = some c') :
    ∀ t ∈ c'.tasks, ∀ gen, t.unstored = some gen →
      (c'.shared.transportGen = gen ∧ gen ∈ c'.shared.attachGens) ∨
        ∃ u ∈ c'.tasks, u.clearing = some gen := by
  intro u hu gen hg
  -- The attach was under way before the step.
  have hold : ∀ t ∈ c.tasks, t.unstored = some gen →
      (c.shared.transportGen = gen ∧ gen ∈ c.shared.attachGens) ∨
        ∃ u ∈ c'.tasks, u.clearing = some gen := fun t ht hg =>
    (hI.storing t ht gen hg).imp_right fun hcl =>
      clearing_step h hcl fun m hm hmg => hC m hm gen hmg t ht hg
  rcases step_cases h with ⟨i, b, call, rfl, ht, rfl⟩ | ⟨i, a, b, s', t', new, rfl, ht, hb, rfl⟩ |
    ⟨t, rfl, ht, rfl⟩
  · have hwas : (call = .attach .fetchAdd ∧ gen = c.shared.transportGen + 1) ∨
        ∃ t ∈ c.tasks, t.unstored = some gen ∧ call ≠ .attach .fetchAdd := by
      rcases mem_of_mem_set_append hu with rfl | hmem | hu
      · rcases callStep_unstored hg with ⟨hc, hgen⟩ | hg
        · exact .inl ⟨hc, hgen⟩
        · refine .inr ⟨_, List.mem_of_getElem? ht, hg, ?_⟩
          rintro rfl
          cases hg
      · refine .inr ⟨u, hmem, hg, ?_⟩
        rintro rfl
        -- Another attach would hold `reconnect_active` as well.
        obtain ⟨pc, hpc, -, hne⟩ := unstored_attach hg
        have heq := hI.lock.unique ht (hI.attaching _ (List.mem_of_getElem? ht) _ rfl) hmem
          (hI.attaching u hmem pc hpc)
        rw [heq] at hpc
        exact hne (by simpa using hpc.symm)
      · obtain ⟨pc, hpc, -⟩ := unstored_attach hg
        rw [callStep_new u hu] at hpc
        cases hpc
    rcases hwas with ⟨rfl, rfl⟩ | ⟨t, htm, htg, hne⟩
    · exact .inl ⟨rfl, List.mem_cons_self⟩
    · refine (hold t htm htg).elim (fun ⟨hgen, hmem⟩ => ?_) .inr
      rcases callStep_transportGen c.shared c.tasks.length call with
        ⟨rfl, -⟩ | ⟨abortReader, rfl, -, -, hnext⟩ | ⟨htg', hga⟩
      · exact absurd rfl hne
      · refine .inr ?_
        rw [hnext, hgen]
        exact clearing_of_compareExchange ht b _
      · exact .inl ⟨htg'.trans hgen, by rw [hga]; exact hmem⟩
  · have hf := bodyStep_frame hb
    have hmem : u ∈ c.tasks := by
      rw [hf.new] at hu
      rcases mem_of_mem_set_append hu with rfl | hu | hu
      · rw [entry_unstored hf.entry] at hg
        cases hg
      · exact hu
      · cases hu
    exact (hold u hmem hg).imp_left fun ⟨h₁, h₂⟩ => ⟨hf.transportGen.trans h₁, by rw [hf.attachGens]; exact h₂⟩
  · rcases List.mem_append.mp hu with hu | hu
    · exact hold u hu hg
    · rw [List.mem_singleton.mp hu] at hg
      rw [entry_unstored fun call hc => ?_] at hg
      · cases hg
      · rcases start_call ht with hc' | hc' | ⟨-, hc'⟩ <;> rw [hc'] at hc <;> cases hc <;> rfl

/-! ### The attached flag -/

theorem clearing_call {t : Task} {gen : Nat} (h : t.clearing = some gen) :
    ∃ abortReader, t.call = some (.detach gen abortReader .storeDetached) := by
  unfold Task.clearing at h
  split at h
  · cases h
    exact ⟨_, ‹_›⟩
  · cases h

/-- A detach that is about to clear the flag still is while the flag is set. -/
theorem clearing_while_attached (h : program.step c e = some c')
    (hu : ∃ u ∈ c.tasks, ∃ gen, u.clearing = some gen) (ha : c'.shared.transportAttached = true) :
    ∃ u ∈ c'.tasks, ∃ gen, u.clearing = some gen := by
  obtain ⟨⟨b, call⟩, hu, gen, hg⟩ := hu
  rcases Program.step_exists h hu with hu | ⟨i, a, s', t', new, rfl, ht, hm, rfl⟩
  · exact ⟨_, hu, gen, hg⟩
  · obtain ⟨abortReader, rfl⟩ := clearing_call hg
    obtain ⟨rfl, -, -⟩ := move_call hm
    cases ha

theorem attached_step (hI : ReconnectInv c) (h : program.step c e = some c')
    (hd : c'.shared.Detached) (ha : c'.shared.transportAttached = true) :
    ∃ u ∈ c'.tasks, ∃ gen, u.clearing = some gen := by
  have hold : c.shared.Detached → c.shared.transportAttached = true →
      ∃ u ∈ c'.tasks, ∃ gen, u.clearing = some gen :=
    fun hd₀ ha₀ => clearing_while_attached h (hI.attached hd₀ ha₀) ha
  rcases step_cases h with ⟨i, b, call, rfl, ht, rfl⟩ | ⟨i, a, b, s', t', new, rfl, ht, hb, rfl⟩ |
    ⟨t, rfl, ht, rfl⟩
  · rcases callStep_transportGen c.shared c.tasks.length call with
      ⟨rfl, -⟩ | ⟨abortReader, rfl, -, -, hnext⟩ | ⟨hgen, hga⟩
    · exact absurd List.mem_cons_self hd
    · rw [hnext]
      obtain ⟨u, hu, hg⟩ := clearing_of_compareExchange ht b _
      exact ⟨u, hu, _, hg⟩
    · have hd₀ : c.shared.Detached := by simpa only [Shared.Detached, hgen, hga] using hd
      rcases callStep_transportAttached c.shared c.tasks.length call with
        ⟨gen, rfl⟩ | ⟨gen, abortReader, rfl, hfalse, -⟩ | rfl | hsame
      · -- The transport announced is detached already: its detach has yet to clear the flag.
        rcases hI.storing _ (List.mem_of_getElem? ht) gen rfl with ⟨hg, hmem⟩ | ⟨u, hu, hcl⟩
        · exact absurd (hg ▸ hmem) hd₀
        · exact clearing_while_attached h ⟨u, hu, gen, hcl⟩ ha
      · rw [hfalse] at ha
        cases ha
      · cases ha
      · exact hold hd₀ (hsame ▸ ha)
  · have hf := bodyStep_frame hb
    refine hold ?_ (hf.transportAttached ▸ ha)
    simpa only [Shared.Detached, hf.transportGen, hf.attachGens] using hd
  · exact hold hd ha

/-! ### A loop is running -/

/-- A loop stops only if the connection is closed or attached, or another loop is active. -/
theorem loop_bodyStep {s s' : Shared} {i : Nat} {pc : LoopPc} {a : Act} {t' : Task}
    {new : List Task} (h : s.bodyStep i (.loop pc) a = some (s', t', new)) (hpc : pc ≠ .stopped) :
    t'.LoopRunning ∨ s.closed = true ∨ s.transportAttached = true ∨
      (pc = .reacquire ∧ s.reconnectActive = true) := by
  cases pc <;> cases a <;> simp only [Shared.bodyStep, Shared.loopStep, Shared.goesOn] at h
  case stopped.run => exact absurd rfl hpc
  all_goals repeat' split at h
  all_goals first | contradiction | obtain ⟨rfl, rfl, rfl⟩ := h
  all_goals first
    | exact .inr (.inl ‹_›)
    | exact .inr (.inr (.inl ‹_›))
    | exact .inr (.inr (.inr ⟨rfl, ‹_›⟩))
    | exact .inl ⟨_, rfl, by simp⟩

/-- A client's detach goes on until its loop is running. -/
theorem detach_callStep {s : Shared} {pc : DetachPc} (n gen : Nat) (abortReader : Bool)
    (hrole : s.role = .client) (hpc : pc ≠ .checkClosed) (hpc' : pc ≠ .compareExchange) :
    (∃ pc', (s.callStep n (.detach gen abortReader pc)).2.1 = some (.detach gen abortReader pc') ∧
      pc' ≠ .checkClosed ∧ pc' ≠ .compareExchange) ∨
    s.reconnectActive = true ∨
    ∃ t ∈ (s.callStep n (.detach gen abortReader pc)).2.2, t.LoopRunning := by
  cases pc with
  | checkClosed => exact absurd rfl hpc
  | compareExchange => exact absurd rfl hpc'
  | recover =>
      simp only [Shared.callStep, Shared.detachStep, hrole]
      split
      · exact .inr (.inl ‹_›)
      · exact .inr (.inr ⟨_, List.mem_singleton.mpr rfl, .attempt, rfl, by simp⟩)
  | _ => exact .inl ⟨_, rfl, by simp, by simp⟩

/-- Who recovers before a step, or another task, recovers after it. -/
theorem recovers_step (hI : ReconnectInv c) (h : program.step c e = some c')
    (hd : c.shared.Detached ∨ c.shared.transportAttached = false) (hu : ∃ u ∈ c.tasks, u.Recovers) :
    c'.shared.closed = true ∨ ∃ u ∈ c'.tasks, u.Recovers := by
  obtain ⟨u, hu, hrec⟩ := hu
  rcases Program.step_exists h hu with hu | ⟨i, a, s', t', new, rfl, ht, hm, rfl⟩
  · exact .inr ⟨u, hu, hrec⟩
  have hother : ∀ v ∈ c.tasks, v ≠ u → v.Recovers → ∃ v ∈ c.tasks.set i t' ++ new, v.Recovers :=
    fun v hv hne hrv => ⟨v, List.mem_append_left _ (mem_set_of_ne ht hv hne), hrv⟩
  have hmoved : t'.Recovers → ∃ v ∈ c.tasks.set i t' ++ new, v.Recovers :=
    fun hr => ⟨t', List.mem_append_left _ (mem_set_self ht), hr⟩
  obtain ⟨b, call⟩ := u
  rcases hrec with ⟨pc, hb, hpc⟩ | ⟨gen, abortReader, pc, hc, hpc, hpc'⟩
  · cases call with
    | some call =>
        obtain ⟨-, rfl, -⟩ := move_call hm
        exact .inr (hmoved (.inl ⟨pc, hb, hpc⟩))
    | none =>
        subst hb
        have hm : c.shared.bodyStep i (.loop pc) a = some (s', t', new) := hm
        rcases loop_bodyStep hm hpc with hrun | hcl | hatt | ⟨rfl, hact⟩
        · exact .inr (hmoved (.inl hrun))
        · exact .inl ((step_grows h).closed hcl)
        · -- The flag is still set, so a detach has yet to clear it, and will start a loop.
          rcases hd with hd | hd
          · obtain ⟨v, hv, gen, hg⟩ := hI.attached hd hatt
            refine .inr (hother v hv ?_ (Task.recovers_of_clearing hg))
            rintro rfl
            cases hg
          · rw [hd] at hatt
            cases hatt
        · obtain ⟨v, hv, hh⟩ := (hact ▸ hI.lock).holder
          refine .inr (hother v hv ?_ (Task.recovers_of_holdsReconnect hh))
          rintro rfl
          cases hh
  · subst hc
    obtain ⟨rfl, rfl, rfl⟩ := move_call hm
    rcases detach_callStep c.tasks.length gen abortReader hI.role hpc hpc' with ⟨pc', hnext, h₁, h₂⟩ | hact | ⟨v, hv, hrun⟩
    · exact .inr (hmoved (.inr ⟨gen, abortReader, pc', hnext, h₁, h₂⟩))
    · obtain ⟨v, hv, hh⟩ := (hact ▸ hI.lock).holder
      by_cases hvu : v = ⟨b, some (.detach gen abortReader pc)⟩
      · subst hvu
        have hh' : Task.holdsReconnect ⟨b, (c.shared.callStep c.tasks.length
          (.detach gen abortReader pc)).2.1⟩ = true := hh
        exact .inr (hmoved (Task.recovers_of_holdsReconnect hh'))
      · exact .inr (hother v hv hvu (Task.recovers_of_holdsReconnect hh))
    · exact .inr ⟨v, List.mem_append_right _ hv, .inl hrun⟩

theorem recovering_step (hI : ReconnectInv c) (h : program.step c e = some c')
    (hd : c'.shared.Detached ∨ c'.shared.transportAttached = false) :
    c'.shared.closed = true ∨ ∃ u ∈ c'.tasks, u.Recovers := by
  have hold : c.shared.Detached ∨ c.shared.transportAttached = false →
      c'.shared.closed = true ∨ ∃ u ∈ c'.tasks, u.Recovers := fun hd₀ =>
    (hI.recovering hd₀).elim (fun hc => .inl ((step_grows h).closed hc)) (recovers_step hI h hd₀)
  rcases step_cases h with ⟨i, b, call, rfl, ht, rfl⟩ | ⟨i, a, b, s', t', new, rfl, ht, hb, rfl⟩ |
    ⟨t, rfl, ht, rfl⟩
  · have hmoved : (⟨b, (c.shared.callStep c.tasks.length call).2.1⟩ : Task) ∈ c.tasks.set i _ :=
      mem_set_self ht
    rcases hd with hd | hd
    · rcases callStep_transportGen c.shared c.tasks.length call with
        ⟨rfl, -⟩ | ⟨abortReader, rfl, -, -, hnext⟩ | ⟨hgen, hga⟩
      · exact absurd List.mem_cons_self hd
      · refine .inr ⟨_, List.mem_append_left _ hmoved, .inr ⟨_, _, _, hnext, ?_, ?_⟩⟩ <;> simp
      · exact hold (.inl (by simpa only [Shared.Detached, hgen, hga] using hd))
    · rcases callStep_transportAttached c.shared c.tasks.length call with
        ⟨gen, rfl⟩ | ⟨gen, abortReader, rfl, -, hnext⟩ | rfl | hsame
      · cases hd
      · refine .inr ⟨_, List.mem_append_left _ hmoved, .inr ⟨_, _, _, hnext, ?_, ?_⟩⟩ <;> simp
      · exact .inl ((hI.closing _ (List.mem_of_getElem? ht) _ rfl).resolve_left (by simp))
      · exact hold (.inr (hsame ▸ hd))
  · have hf := bodyStep_frame hb
    exact hold (by simpa only [Shared.Detached, hf.transportGen, hf.attachGens, hf.transportAttached]
      using hd)
  · exact hold hd

/-! ### The result -/

theorem reconnectInv_started (detachedTtl : Nat) : ReconnectInv (started .client detachedTtl) where
  role := rfl
  lock := rfl
  attaching := by simp [started]
  closing := by simp [ClosedPastSwap, started]
  storing := by simp [started, Task.unstored]
  attached := by simp [started, Shared.Detached]
  recovering := by simp [started, Shared.Detached]

theorem reconnectInv_step (hI : ReconnectInv c) (hC : StoresInOrder c e)
    (h : program.step c e = some c') : ReconnectInv c' where
  role := (step_grows h).role.trans hI.role
  lock := lock_step hI.lock h
  attaching := attaching_step hI h
  closing := closedPastSwap_step hI.closing h
  storing := storing_step hI hC h
  attached := attached_step hI h
  recovering := recovering_step hI h

theorem reconnectInv_reachable (h : (machine .client).ReachableUnder StoresInOrder c) :
    ReconnectInv c :=
  h.invariant (by rintro _ ⟨ttl, rfl⟩; exact reconnectInv_started ttl)
    fun _ _ _ hI hC hs => reconnectInv_step hI hC hs

/-- If the connection is open, no attach or detach is in progress and the latest transport is
detached, then the attached flag is clear and a loop is running that has not decided to stop. -/
def Replaced (c : Conn) : Prop :=
  c.shared.closed = false → (∀ t ∈ c.tasks, ¬t.Switching) → c.shared.Detached →
    c.shared.transportAttached = false ∧ ∃ t ∈ c.tasks, t.LoopRunning

/-- **A lost transport is replaced**, in every run of a client whose detaches clear the attached
flag only when no attach of the same generation has yet to set it. -/
theorem transport_replaced (h : (machine .client).ReachableUnder StoresInOrder c) : Replaced c := by
  intro hopen hquiet hd
  have hI := reconnectInv_reachable h
  constructor
  · by_contra ha
    obtain ⟨u, hu, gen, hg⟩ := hI.attached hd (by simpa using ha)
    obtain ⟨abortReader, hc⟩ := clearing_call hg
    exact hquiet u hu (.inr ⟨_, _, _, hc⟩)
  · rcases hI.recovering (.inl hd) with hcl | ⟨u, hu, hrun | ⟨gen, abortReader, pc, hc, -⟩⟩
    · rw [hopen] at hcl
      cases hcl
    · exact ⟨u, hu, hrun⟩
    · exact absurd (.inr ⟨_, _, _, hc⟩) (hquiet u hu)

instance (c : Conn) (e : Event Task Act) : Decidable (StoresInOrder c e) :=
  inferInstanceAs (Decidable (∀ t ∈ c.moving e, _))

/-- The first transport ends and its reader detaches it. -/
def detachRun : List (Event Task Act) := .task 1 .fail :: List.replicate 6 (.task 1 .run)

/-- A detached client. -/
def detachedClient : Conn where
  shared := { (started .client 30).shared with
    transportGen := 2, transportAttached := false, reconnectActive := true
    writerCmd := [.attach 1, .detach 1] }
  tasks := [⟨.writer 0 false false, none⟩, ⟨.reader 1 .ended, none⟩, ⟨.loop .attempt, none⟩]

theorem transport_replaced_detached :
    detachedClient.shared.transportAttached = false ∧ ∃ t ∈ detachedClient.tasks, t.LoopRunning :=
  transport_replaced (.exec detachRun (.init ⟨30, rfl⟩) rfl (by decide)) rfl
    (by simp [detachedClient, Task.Switching]) (by decide)

/-- The loop has resumed and is about to set the attached flag; the writer has the new transport,
fails on it and detaches it; the loop sets the flag and finds it set, so it stops. -/
def lostRun : List (Event Task Act) :=
  detachRun ++ Event.task 2 Act.run :: .task 2 .resumed :: List.replicate 4 (.task 2 .run) ++
    List.replicate 3 (Event.task 0 Act.run) ++
    Event.task 0 Act.fail :: List.replicate 6 (.task 0 .run) ++
    List.replicate 7 (Event.task 2 Act.run) ++
    Event.task 3 Act.fail :: List.replicate 2 (.task 3 .run)

def lostClient : Conn where
  shared := { (started .client 30).shared with
    transportGen := 4, transportAttached := true, currentReaderAbort := some (3, 3)
    writerCmd := [.detach 3], aborted := [1], attachGens := [3, 1] }
  tasks := [⟨.writer 3 false false, none⟩, ⟨.reader 1 .ended, none⟩, ⟨.loop .stopped, none⟩,
    ⟨.reader 3 .ended, none⟩]

/-- The transport is detached, the attached flag is set and nobody reconnects. -/
theorem reconnect_lost : ¬∀ c, (machine .client).Reachable c → Replaced c := by
  intro hall
  have hr : (machine .client).Reachable lostClient :=
    Machine.reachable_of_exec lostRun ⟨30, rfl⟩ rfl
  obtain ⟨hf, -⟩ := hall _ hr rfl (by simp [lostClient, Task.Switching]) (by decide)
  cases hf

end AdaptiveMsg.Lifecycle
