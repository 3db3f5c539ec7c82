import AdaptiveMsg.Lifecycle.Handles
import AdaptiveMsg.Lifecycle.Reconnect

/-!
# Lifecycle — the writer ends up on the newest transport

An attach takes its generation and sends its command in two steps, and the writer takes whatever
transport its last Attach brings.  Once every call has returned and every command is applied, the
writer holds the transport of the latest generation if an attach took that, and none otherwise, in
the runs in which the Attach commands are sent in the order of their generations:
`writer_newest`.  Two attaches whose commands cross leave the writer on the older transport:
`writer_stale`.
-/

namespace AdaptiveMsg.Lifecycle

open Machine.Pool (Program Event mem_set_self mem_set_of_ne mem_of_mem_set_append
  getElem?_set_append getElem?_set_append_self of_getElem?_set_append)

/-! ### What the writer will hold -/

/-- The generation of the writer's last attach and whether it holds a transport, after a command. -/
def WriterCommand.applyTo : Nat × Bool → WriterCommand → Nat × Bool
  | _, .attach gen => (gen, true)
  | (gen, attached), .detach g => (gen, attached && g ≠ gen)

/-- What a writer at `gen` holds once it has applied the commands. -/
def applied (gen : Nat) (attached : Bool) (cmds : List WriterCommand) : Nat × Bool :=
  cmds.foldl WriterCommand.applyTo (gen, attached)

section applied

variable {gen g : Nat} {attached : Bool} {cmds : List WriterCommand}

@[simp] theorem applied_nil : applied gen attached [] = (gen, attached) := rfl

theorem applied_attach : applied gen attached (cmds ++ [.attach g]) = (g, true) := by
  simp [applied, WriterCommand.applyTo]

theorem applied_detach : applied gen attached (cmds ++ [.detach g]) =
    ((applied gen attached cmds).1, (applied gen attached cmds).2 && g ≠ (applied gen attached cmds).1) := by
  rw [applied, List.foldl_append]
  rfl

/-- The last attach is the writer's, or is among the commands. -/
theorem applied_gen (gen : Nat) (attached : Bool) (cmds : List WriterCommand) :
    (applied gen attached cmds).1 = gen ∨ .attach (applied gen attached cmds).1 ∈ cmds := by
  induction cmds generalizing gen attached with
  | nil => exact .inl rfl
  | cons cmd cmds ih =>
      cases cmd with
      | attach g =>
          rcases ih g true with h | h
          · exact .inr (List.mem_cons.2 (.inl (congrArg WriterCommand.attach h)))
          · exact .inr (List.mem_cons_of_mem _ h)
      | detach g => exact (ih gen (attached && g ≠ gen)).imp_right (List.mem_cons_of_mem _)

/-- A writer that drops its transport: the commands bring another, or it holds none. -/
theorem applied_drop (gen : Nat) (attached : Bool) (cmds : List WriterCommand) :
    applied gen false cmds = applied gen attached cmds ∨ applied gen false cmds = (gen, false) ∧
      (applied gen attached cmds).1 = gen := by
  induction cmds generalizing attached with
  | nil => exact .inr ⟨rfl, rfl⟩
  | cons cmd cmds ih =>
      cases cmd with
      | attach g => exact .inl rfl
      | detach g => simpa [applied, WriterCommand.applyTo] using ih (attached && g ≠ gen)

end applied

/-! ### The condition -/

namespace Task

/-- The generation of an attach that has yet to send its command. -/
def unsent (t : Task) : Option Nat :=
  match t.call with
  | some (.attach (.takeReader gen)) | some (.attach (.sendAttach gen)) => some gen
  | _ => none

/-- The generation of an attach that is about to send its command. -/
def sending (t : Task) : Option Nat :=
  match t.call with
  | some (.attach (.sendAttach gen)) => some gen
  | _ => none

/-- The generation of a detach that has taken a stamp and has yet to send its command. -/
def undone (t : Task) : Option Nat :=
  match t.call with
  | some (.detach gen _ .storeDetached) | some (.detach gen _ .takeReader)
  | some (.detach gen _ .sendDetach) => some gen
  | _ => none

/-- The generation of the last attach that a writer applied. -/
def writerGen (t : Task) : Option Nat :=
  match t.body with
  | .writer gen _ _ => some gen
  | _ => none

/-- The generation of a reader, or of a transport that the writer has. -/
def bodyGen (t : Task) : Option Nat :=
  match t.body with
  | .reader gen _ | .writer gen true _ => some gen
  | _ => none

/-- The generation of a detach, or of an attach that has sent its command. -/
def callGen (t : Task) : Option Nat :=
  match t.call with
  | some (.detach gen _ _) | some (.attach (.storeAttached gen)) | some (.attach (.signalSend gen))
  | some (.attach (.spawnReader gen)) | some (.attach (.storeReader gen _)) => some gen
  | _ => none

end Task

/-- The generations whose Attach was sent, as far as the writer still knows them. -/
def Conn.sentGens (c : Conn) : List Nat :=
  c.tasks.filterMap Task.writerGen ++ c.shared.writerCmd.filterMap fun
    | .attach gen => some gen
    | .detach _ => none

/-- An attach sends its command after those of earlier generations only. -/
def SendsInOrder (c : Conn) (e : Event Task Act) : Prop :=
  ∀ t ∈ c.moving e, ∀ gen ∈ t.sending, ∀ g ∈ c.sentGens, g ≤ gen

instance (c : Conn) (e : Event Task Act) : Decidable (SendsInOrder c e) :=
  inferInstanceAs (Decidable (∀ t ∈ c.moving e, ∀ gen ∈ t.sending, ∀ g ∈ c.sentGens, g ≤ gen))

/-! ### The invariant -/

/-- The Attach of this generation was sent. -/
def Conn.Sent (c : Conn) (gen : Nat) : Prop :=
  gen ∈ c.shared.attachGens ∧ ∀ t ∈ c.tasks, t.unsent ≠ some gen

/-- What holds of the writer `t`, which will hold `(gen, attached)`. -/
structure WriterOk (c : Conn) (t : Task) (gen : Nat) (attached : Bool) : Prop where
  sent : c.Sent gen
  newest : ∀ g, c.Sent g → g ≤ gen
  /-- A transport that it will keep is the latest, has a successor, or is about to be detached. -/
  holds : attached = true → c.shared.transportGen = gen ∨ gen + 1 ∈ c.shared.attachGens ∨
    ∃ u ∈ c.tasks, u.undone = some gen
  /-- It will hold the latest transport, or is about to detach it. -/
  latest : c.shared.closed = false → c.shared.transportGen = gen → attached = true ∨
    ∃ ar pc, t.call = some (.detach gen ar pc) ∧ (pc = .checkClosed ∨ pc = .compareExchange)

structure NewestInv (c : Conn) : Prop where
  gens : ∀ gen ∈ c.shared.attachGens, gen ≤ c.shared.transportGen
  unsent : ∀ (i : Nat) (t : Task) gen, c.tasks[i]? = some t → t.unsent = some gen →
    gen ∈ c.shared.attachGens ∧
      (c.shared.transportGen = gen ∨ gen + 1 ∈ c.shared.attachGens) ∧
      ∀ (j : Nat) (u : Task), c.tasks[j]? = some u → u.unsent = some gen → i = j
  body : ∀ t ∈ c.tasks, ∀ gen, t.bodyGen = some gen → c.Sent gen
  call : ∀ t ∈ c.tasks, ∀ gen, t.callGen = some gen → c.Sent gen
  undone : ∀ t ∈ c.tasks, ∀ gen, t.undone = some gen → gen < c.shared.transportGen
  commands : ∀ gen, .attach gen ∈ c.shared.writerCmd → c.Sent gen
  single : ∀ (i : Nat) (t : Task) gen, c.tasks[i]? = some t → t.writerGen = some gen → i = 0
  writer : ∃ gen attached stopped call, c.tasks[0]? = some ⟨.writer gen attached stopped, call⟩ ∧
    WriterOk c ⟨.writer gen attached stopped, call⟩ (applied gen attached c.shared.writerCmd).1
      (applied gen attached c.shared.writerCmd).2

variable {c c' : Conn} {e : Event Task Act} {gen : Nat}

theorem callStep_writerCmd (s : Shared) (n : Nat) (call : Call) :
    (∃ gen, call = .attach (.sendAttach gen) ∧
      (s.callStep n call).1.writerCmd = s.writerCmd ++ [.attach gen]) ∨
    (∃ gen ar, call = .detach gen ar .sendDetach ∧
      (s.callStep n call).1.writerCmd = s.writerCmd ++ [.detach gen]) ∨
    (s.callStep n call).1.writerCmd = s.writerCmd := by
  cases call with
  | attach pc =>
      cases pc with
      | sendAttach gen => exact .inl ⟨gen, rfl, rfl⟩
      | _ => exact .inr (.inr rfl)
  | detach gen abortReader pc =>
      cases pc with
      | sendDetach => exact .inr (.inl ⟨gen, abortReader, rfl, rfl⟩)
      | _ =>
          refine .inr (.inr ?_)
          simp only [Shared.callStep, Shared.detachStep]
          repeat' split
          all_goals rfl
  | markClosed pc => cases pc <;> exact .inr (.inr rfl)

/-- The next operation of an attach that has taken a generation keeps it unsent until it sends. -/
theorem callStep_unsent (s : Shared) (n : Nat) (b : Body) (call : Call) (gen : Nat) :
    Task.unsent ⟨b, (s.callStep n call).2.1⟩ = some gen ↔
      (call = .attach .fetchAdd ∧ gen = s.transportGen + 1) ∨
        (Task.unsent ⟨b, some call⟩ = some gen ∧ call ≠ .attach (.sendAttach gen)) := by
  cases call with
  | attach pc =>
      cases pc with
      | checkClosed =>
          simp only [Shared.callStep, Shared.attachStep]
          split <;> simp [Task.unsent]
      | fetchAdd => simp [Task.unsent, Shared.callStep, Shared.attachStep, eq_comm]
      | sendAttach g => simp [Task.unsent, Shared.callStep, Shared.attachStep]
      | _ => simp [Task.unsent, Shared.callStep, Shared.attachStep]
  | detach g ar pc =>
      cases pc <;> simp only [Shared.callStep, Shared.detachStep] <;> repeat' split
      all_goals simp [Task.unsent]
  | markClosed pc =>
      cases pc <;> simp only [Shared.callStep, Shared.markClosedStep] <;> repeat' split
      all_goals simp [Task.unsent]

theorem unsent_attach {t : Task} (h : t.unsent = some gen) : ∃ pc, t.call = some (.attach pc) := by
  unfold Task.unsent at h
  split at h
  · exact ⟨_, ‹_›⟩
  · exact ⟨_, ‹_›⟩
  · cases h

/-- An attach whose command is unsent after a step was one before, or has just taken its
generation. -/
theorem unsent_at {j : Nat} {u : Task} (h : program.step c e = some c') (hj : c'.tasks[j]? = some u)
    (hu : u.unsent = some gen) :
    (∃ t, c.tasks[j]? = some t ∧ t.unsent = some gen) ∨
      (gen = c.shared.transportGen + 1 ∧ c'.shared.transportGen = gen ∧
        c'.shared.attachGens = gen :: c.shared.attachGens ∧ ∃ a, e = .task j a) := by
  rcases step_cases h with ⟨i, b, call, rfl, ht, rfl⟩ | ⟨i, a, b, s', t', new, rfl, ht, hb, rfl⟩ |
    ⟨t, rfl, ht, rfl⟩
  · rcases of_getElem?_set_append hj with ⟨rfl, rfl⟩ | ⟨-, hj⟩ | ⟨-, hj⟩
    · rcases (callStep_unsent _ _ _ _ _).1 hu with ⟨rfl, rfl⟩ | ⟨hu, -⟩
      · exact .inr ⟨rfl, rfl, rfl, _, rfl⟩
      · exact .inl ⟨_, ht, hu⟩
    · exact .inl ⟨u, hj, hu⟩
    · obtain ⟨pc, hc⟩ := unsent_attach hu
      rw [callStep_new u (List.mem_of_getElem? hj)] at hc
      cases hc
  · have hf := bodyStep_frame hb
    rcases of_getElem?_set_append hj with ⟨rfl, rfl⟩ | ⟨-, hj⟩ | ⟨-, hj⟩
    · obtain ⟨pc, hc⟩ := unsent_attach hu
      obtain rfl := hf.entry _ hc
      rw [Task.unsent, hc] at hu
      cases hu
    · exact .inl ⟨u, hj, hu⟩
    · rw [hf.new] at hj
      cases hj
  · by_cases hlt : j < c.tasks.length
    · rw [List.getElem?_append_left hlt] at hj
      exact .inl ⟨u, hj, hu⟩
    · rw [List.getElem?_append_right (Nat.le_of_not_lt hlt)] at hj
      obtain ⟨pc, hc⟩ := unsent_attach hu
      rw [List.mem_singleton.1 (List.mem_of_getElem? hj)] at hu hc
      rcases start_call ht with hc' | hc' | ⟨-, hc'⟩ <;> rw [hc'] at hc <;> cases hc
      rw [Task.unsent, hc'] at hu
      cases hu

/-- What was sent stays so. -/
theorem sent_step (hI : NewestInv c) (h : program.step c e = some c') (hs : c.Sent gen) :
    c'.Sent gen := by
  refine ⟨(step_grows h).attachGens hs.1, fun u hu hun => ?_⟩
  obtain ⟨j, hj⟩ := List.getElem?_of_mem hu
  rcases unsent_at h hj hun with ⟨t, ht, hun⟩ | ⟨rfl, -⟩
  · exact hs.2 t (List.mem_of_getElem? ht) hun
  · exact absurd (hI.gens _ hs.1) (Nat.not_succ_le_self _)

/-- What a step sends. -/
theorem sent_of_step (h : program.step c e = some c') (hs : c'.Sent gen) :
    c.Sent gen ∨ ∃ i b, e = .task i .run ∧ c.tasks[i]? = some ⟨b, some (.attach (.sendAttach gen))⟩ := by
  rcases step_cases h with ⟨i, b, call, rfl, ht, rfl⟩ | ⟨i, a, b, s', t', new, rfl, ht, hb, rfl⟩ |
    ⟨t, rfl, ht, rfl⟩
  · by_cases hne : call = .attach (.sendAttach gen)
    · exact .inr ⟨i, b, rfl, hne ▸ ht⟩
    have hnext : Task.unsent ⟨b, (c.shared.callStep c.tasks.length call).2.1⟩ ≠ some gen :=
      hs.2 _ (List.mem_append_left _ (mem_set_self ht))
    rw [Ne, callStep_unsent, not_or] at hnext
    refine .inl ⟨?_, fun t htm hun => ?_⟩
    · rcases callStep_transportGen c.shared c.tasks.length call with
        ⟨rfl, -, hgens⟩ | ⟨-, -, -, hgens, -⟩ | ⟨-, hgens⟩
      · rcases List.mem_cons.1 (hgens ▸ hs.1) with rfl | hmem
        · exact absurd ⟨rfl, rfl⟩ hnext.1
        · exact hmem
      · exact hgens ▸ hs.1
      · exact hgens ▸ hs.1
    · by_cases hmover : t = ⟨b, some call⟩
      · exact hnext.2 ⟨hmover ▸ hun, hne⟩
      · exact hs.2 t (List.mem_append_left _ (mem_set_of_ne ht htm hmover)) hun
  · refine .inl ⟨(bodyStep_frame hb).attachGens ▸ hs.1, fun t htm hun => ?_⟩
    by_cases hmover : t = ⟨b, none⟩
    · rw [hmover] at hun
      cases hun
    · exact hs.2 t (List.mem_append_left _ (mem_set_of_ne ht htm hmover)) hun
  · exact .inl ⟨hs.1, fun t htm => hs.2 t (List.mem_append_left _ htm)⟩

/-- An attach that sends its command. -/
theorem sent_sendAttach {i : Nat} {b : Body} (hI : NewestInv c) (h : program.step c (.task i .run) = some c')
    (ht : c.tasks[i]? = some ⟨b, some (.attach (.sendAttach gen))⟩) : c'.Sent gen := by
  obtain ⟨hmem, -, huniq⟩ := hI.unsent i _ gen ht rfl
  refine ⟨(step_grows h).attachGens hmem, fun u hu hun => ?_⟩
  obtain ⟨j, hj⟩ := List.getElem?_of_mem hu
  rcases unsent_at h hj hun with ⟨t, ht', hun'⟩ | ⟨rfl, -⟩
  · obtain rfl := huniq j t ht' hun'
    rcases step_cases h with ⟨_, b', call, he, hi, rfl⟩ | ⟨_, a, b', s', t', new, he, hi, -, rfl⟩ | ⟨_, he, -⟩
    · cases he
      cases ht.symm.trans hi
      rw [Machine.Pool.getElem?_set_append_self ht] at hj
      cases hj
      cases hun
    · cases he
      cases ht.symm.trans hi
    · cases he
  · exact absurd (hI.gens _ hmem) (Nat.not_succ_le_self _)

/-- The generation after a step. -/
theorem transportGen_step (h : program.step c e = some c') :
    (c'.shared.transportGen = c.shared.transportGen ∧ c'.shared.attachGens = c.shared.attachGens) ∨
    (c'.shared.transportGen = c.shared.transportGen + 1 ∧
      c'.shared.attachGens = (c.shared.transportGen + 1) :: c.shared.attachGens) ∨
    (c'.shared.transportGen = c.shared.transportGen + 1 ∧
      c'.shared.attachGens = c.shared.attachGens ∧
      (∃ t ∈ c.tasks, t.callGen = some c.shared.transportGen) ∧
      ∃ t ∈ c'.tasks, t.undone = some c.shared.transportGen) := by
  rcases step_cases h with ⟨i, b, call, rfl, ht, rfl⟩ | ⟨i, a, b, s', t', new, rfl, -, hb, rfl⟩ |
    ⟨t, rfl, -, rfl⟩
  · rcases callStep_transportGen c.shared c.tasks.length call with
      ⟨-, hgen, hgens⟩ | ⟨ar, rfl, hgen, hgens, hnext⟩ | ⟨hgen, hgens⟩
    · exact .inr (.inl ⟨hgen, hgens⟩)
    · refine .inr (.inr ⟨hgen, hgens, ⟨_, List.mem_of_getElem? ht, rfl⟩, ?_⟩)
      exact ⟨_, List.mem_append_left _ (mem_set_self ht), by rw [Task.undone, hnext]⟩
    · exact .inl ⟨hgen, hgens⟩
  · exact .inl ⟨(bodyStep_frame hb).transportGen, (bodyStep_frame hb).attachGens⟩
  · exact .inl ⟨rfl, rfl⟩

theorem newestInv_unsent (hI : NewestInv c) (h : program.step c e = some c') :
    ∀ (i : Nat) (t : Task) gen, c'.tasks[i]? = some t → t.unsent = some gen →
      gen ∈ c'.shared.attachGens ∧
        (c'.shared.transportGen = gen ∨ gen + 1 ∈ c'.shared.attachGens) ∧
        ∀ (j : Nat) (u : Task), c'.tasks[j]? = some u → u.unsent = some gen → i = j := by
  intro i t gen hi hun
  rcases unsent_at h hi hun with ⟨t₀, hi₀, hun₀⟩ | ⟨rfl, hT, hgens, a, he⟩
  · obtain ⟨hmem, hlast, huniq⟩ := hI.unsent i t₀ gen hi₀ hun₀
    refine ⟨(step_grows h).attachGens hmem, ?_, fun j u hj hu => ?_⟩
    · rcases hlast with rfl | hnext
      · rcases transportGen_step h with ⟨hT, -⟩ | ⟨-, hgens⟩ | ⟨-, -, ⟨d, hd, hdg⟩, -⟩
        · exact .inl hT
        · exact .inr (hgens ▸ List.mem_cons_self)
        · exact absurd hun₀ ((hI.call d hd _ hdg).2 t₀ (List.mem_of_getElem? hi₀))
      · exact .inr ((step_grows h).attachGens hnext)
    · rcases unsent_at h hj hu with ⟨u₀, hj₀, hu₀⟩ | ⟨rfl, -⟩
      · exact huniq j u₀ hj₀ hu₀
      · exact absurd (hI.gens _ hmem) (Nat.not_succ_le_self _)
  · refine ⟨hgens ▸ List.mem_cons_self, .inl hT, fun j u hj hu => ?_⟩
    rcases unsent_at h hj hu with ⟨u₀, hj₀, hu₀⟩ | ⟨-, -, -, a', he'⟩
    · exact absurd (hI.gens _ (hI.unsent j u₀ _ hj₀ hu₀).1) (Nat.not_succ_le_self _)
    · cases he.symm.trans he'
      rfl

theorem callStep_callGen {s : Shared} {n : Nat} {b : Body} {call : Call}
    (h : Task.callGen ⟨b, (s.callStep n call).2.1⟩ = some gen) :
    Task.callGen ⟨b, some call⟩ = some gen ∨ call = .attach (.sendAttach gen) := by
  cases call with
  | attach pc =>
      cases pc with
      | checkClosed =>
          simp only [Shared.callStep, Shared.attachStep] at h
          split at h <;> cases h
      | sendAttach g =>
          cases h
          exact .inr rfl
      | fetchAdd | takeReader => cases h
      | _ => first | exact .inl h | cases h
  | detach g ar pc =>
      left
      cases pc <;> simp only [Shared.callStep, Shared.detachStep] at h <;> repeat' split at h
      all_goals first | exact h | cases h
  | markClosed pc =>
      cases pc <;> simp only [Shared.callStep, Shared.markClosedStep] at h <;> repeat' split at h
      all_goals cases h

/-- A task that starts with a generation is a reader of the attach's. -/
theorem callStep_bodyGen {s : Shared} {n : Nat} {b : Body} {call : Call} {t : Task}
    (ht : t ∈ (s.callStep n call).2.2) (h : t.bodyGen = some gen) :
    Task.callGen ⟨b, some call⟩ = some gen := by
  cases call with
  | attach pc =>
      cases pc <;> simp only [Shared.callStep, Shared.attachStep, List.not_mem_nil,
        List.mem_singleton] at ht
      subst ht
      exact h
  | detach g ar pc =>
      cases pc <;> simp only [Shared.callStep, Shared.detachStep] at ht <;> repeat' split at ht
      all_goals simp only [List.not_mem_nil, List.mem_singleton] at ht
      all_goals subst ht
      all_goals cases h
  | markClosed pc => cases pc <;> simp [Shared.callStep, Shared.markClosedStep] at ht

theorem callStep_new_writerGen {s : Shared} {n : Nat} {call : Call} :
    ∀ t ∈ (s.callStep n call).2.2, t.writerGen = none := by
  cases call with
  | attach pc => cases pc <;> simp [Shared.callStep, Shared.attachStep, Task.writerGen]
  | detach gen abortReader pc =>
      cases pc <;> simp only [Shared.callStep, Shared.detachStep] <;> repeat' split
      all_goals simp [Task.writerGen]
  | markClosed pc => cases pc <;> simp [Shared.callStep, Shared.markClosedStep]

theorem writerGen_kind {t : Task} (h : t.writerGen = some gen) :
    t.body.kind = .writer 0 false false := by
  obtain ⟨b, call⟩ := t
  cases b with
  | writer => rfl
  | _ => cases h

theorem writer_of_kind {b : Body} (h : b.kind = .writer 0 false false) :
    ∃ gen attached stopped, b = .writer gen attached stopped := by
  cases b with
  | writer gen attached stopped => exact ⟨gen, attached, stopped, rfl⟩
  | _ => cases h

/-- The writer takes a command, fails on its transport, or stops. -/
theorem writerStep_cases {s s' : Shared} {attached stopped : Bool} {a : Act} {t' : Task}
    {new : List Task} (h : s.writerStep gen attached stopped a = some (s', t', new)) :
    (∃ cmd rest, s.writerCmd = cmd :: rest ∧ s' = { s with writerCmd := rest } ∧
      t' = ⟨.writer (cmd.applyTo (gen, attached)).1 (cmd.applyTo (gen, attached)).2 false, none⟩) ∨
    (attached = true ∧ s' = s ∧
      t' = ⟨.writer gen false false, some (.detach gen true .checkClosed)⟩) ∨
    (s' = s ∧ t' = ⟨.writer gen attached true, none⟩) := by
  cases a <;> simp only [Shared.writerStep, Shared.goesOn] at h
  case run =>
    repeat' split at h
    all_goals first | contradiction | obtain ⟨rfl, rfl, rfl⟩ := h
    · exact .inl ⟨_, _, ‹_›, rfl, rfl⟩
    · exact .inl ⟨_, _, ‹_›, rfl, rfl⟩
  case fail =>
    split at h
    · rename_i hc
      obtain ⟨rfl, rfl, rfl⟩ := h
      exact .inr (.inl ⟨hc.1, rfl, rfl⟩)
    · cases h
  case stop =>
    split at h
    · obtain ⟨rfl, rfl, rfl⟩ := h
      exact .inr (.inr ⟨rfl, rfl⟩)
    · cases h
  all_goals cases h

/-- Only the writer takes commands. -/
theorem bodyStep_writerCmd {s s' : Shared} {i : Nat} {b : Body} {a : Act} {t' : Task}
    {new : List Task} (hb : Task.writerGen ⟨b, none⟩ = none)
    (h : s.bodyStep i b a = some (s', t', new)) : s'.writerCmd = s.writerCmd := by
  cases (bodyStep_effect h).1 with
  | command hw =>
      rw [hw] at hb
      cases hb
  | _ => rfl

/-- A step of a body sends no command. -/
theorem bodyStep_commands {s s' : Shared} {i : Nat} {b : Body} {a : Act} {t' : Task}
    {new : List Task} (h : s.bodyStep i b a = some (s', t', new)) : s'.writerCmd ⊆ s.writerCmd := by
  cases (bodyStep_effect h).1 with
  | command _ hcmd => exact hcmd ▸ List.subset_cons_self _ _
  | _ => exact List.Subset.refl _

/-- A step of a body detaches the transport of the body, and makes no other call that has taken a
generation. -/
theorem bodyStep_callGen {s s' : Shared} {i : Nat} {b : Body} {a : Act} {t' : Task}
    {new : List Task} (h : s.bodyStep i b a = some (s', t', new)) (hg : t'.callGen = some gen) :
    Task.bodyGen ⟨b, none⟩ = some gen := by
  cases (bodyStep_effect h).1 with
  | command | lock => cases hg
  | closeByPeer _ ht => rcases ht with rfl | rfl <;> cases hg
  | @close _ _ call hc =>
      cases call with
      | none => cases hg
      | some call =>
          rw [hc call rfl] at hg
          cases hg
  | @own _ call _ hc _ hd =>
      cases call with
      | none => cases hg
      | some call =>
          cases call with
          | attach pc =>
              obtain rfl : pc = .checkClosed := hc _ rfl
              cases hg
          | detach g abortReader pc =>
              cases hg
              rcases hd gen abortReader pc rfl with rfl | rfl <;> rfl
          | markClosed pc => cases hg

/-- A step of a body gives the writer a transport only by a command. -/
theorem bodyStep_bodyGen {s s' : Shared} {i : Nat} {b : Body} {a : Act} {t' : Task}
    {new : List Task} (h : s.bodyStep i b a = some (s', t', new)) (hg : t'.bodyGen = some gen) :
    Task.bodyGen ⟨b, none⟩ = some gen ∨ .attach gen ∈ s.writerCmd := by
  have hkind := (bodyStep_frame h).kind
  cases b with
  | writer g attached stopped =>
      rcases writerStep_cases h with ⟨cmd, rest, hcmd, rfl, rfl⟩ | ⟨rfl, rfl, rfl⟩ | ⟨rfl, rfl⟩
      · cases cmd with
        | attach g' =>
            cases hg
            exact .inr (hcmd ▸ List.mem_cons_self)
        | detach g' =>
            left
            cases attached
            · simp [WriterCommand.applyTo, Task.bodyGen] at hg
            · by_cases hne : g' = g <;> simp_all [WriterCommand.applyTo, Task.bodyGen]
      · cases hg
      · cases attached <;> exact .inl hg
  | reader g pc =>
      obtain ⟨b', call⟩ := t'
      cases b' <;> cases hkind
      exact .inl hg
  | _ =>
      obtain ⟨b', call⟩ := t'
      cases b' <;> first | cases hkind; done | cases hg

theorem start_gens {s : Shared} {t : Task} (h : s.start t = true) :
    t.callGen = none ∧ t.bodyGen = none ∧ t.undone = none := by
  simp only [Shared.start, Bool.or_eq_true, decide_eq_true_eq, Bool.and_eq_true] at h
  rcases h with (rfl | rfl) | ⟨-, rfl⟩ <;> exact ⟨rfl, rfl, rfl⟩

theorem newestInv_call (hI : NewestInv c) (h : program.step c e = some c') :
    ∀ t ∈ c'.tasks, ∀ gen, t.callGen = some gen → c'.Sent gen := by
  have hold : ∀ t ∈ c.tasks, ∀ gen, t.callGen = some gen → c'.Sent gen := fun t ht gen hg =>
    sent_step hI h (hI.call t ht gen hg)
  intro u hu gen hg
  have hstep := step_cases h
  rcases hstep with ⟨i, b, call, rfl, ht, rfl⟩ | ⟨i, a, b, s', t', new, rfl, ht, hb, rfl⟩ |
    ⟨t, rfl, ht, rfl⟩
  · rcases mem_of_mem_set_append hu with rfl | hu | hu
    · rcases callStep_callGen hg with hg | rfl
      · exact hold _ (List.mem_of_getElem? ht) gen hg
      · exact sent_sendAttach hI h ht
    · exact hold u hu gen hg
    · rw [Task.callGen, callStep_new u hu] at hg
      cases hg
  · rw [(bodyStep_frame hb).new] at hu
    rcases mem_of_mem_set_append hu with rfl | hu | hu
    · exact sent_step hI h (hI.body _ (List.mem_of_getElem? ht) gen (bodyStep_callGen hb hg))
    · exact hold u hu gen hg
    · cases hu
  · rcases List.mem_append.mp hu with hu | hu
    · exact hold u hu gen hg
    · rw [List.mem_singleton.mp hu, (start_gens ht).1] at hg
      cases hg

theorem newestInv_body (hI : NewestInv c) (h : program.step c e = some c') :
    ∀ t ∈ c'.tasks, ∀ gen, t.bodyGen = some gen → c'.Sent gen := by
  have hold : ∀ t ∈ c.tasks, ∀ gen, t.bodyGen = some gen → c'.Sent gen := fun t ht gen hg =>
    sent_step hI h (hI.body t ht gen hg)
  intro u hu gen hg
  rcases step_cases h with ⟨i, b, call, rfl, ht, rfl⟩ | ⟨i, a, b, s', t', new, rfl, ht, hb, rfl⟩ |
    ⟨t, rfl, ht, rfl⟩
  · rcases mem_of_mem_set_append hu with rfl | hu | hu
    · exact hold _ (List.mem_of_getElem? ht) gen hg
    · exact hold u hu gen hg
    · exact sent_step hI h (hI.call _ (List.mem_of_getElem? ht) gen (callStep_bodyGen hu hg))
  · rw [(bodyStep_frame hb).new] at hu
    rcases mem_of_mem_set_append hu with rfl | hu | hu
    · rcases bodyStep_bodyGen hb hg with hg | hc
      · exact hold _ (List.mem_of_getElem? ht) gen hg
      · exact sent_step hI h (hI.commands gen hc)
    · exact hold u hu gen hg
    · cases hu
  · rcases List.mem_append.mp hu with hu | hu
    · exact hold u hu gen hg
    · rw [List.mem_singleton.mp hu, (start_gens ht).2.1] at hg
      cases hg

theorem newestInv_commands (hI : NewestInv c) (h : program.step c e = some c') :
    ∀ gen, .attach gen ∈ c'.shared.writerCmd → c'.Sent gen := by
  intro gen hg
  rcases step_cases h with ⟨i, b, call, rfl, ht, rfl⟩ | ⟨i, a, b, s', t', new, rfl, ht, hb, rfl⟩ |
    ⟨t, rfl, ht, rfl⟩
  · rcases callStep_writerCmd c.shared c.tasks.length call with ⟨g, rfl, hc⟩ | ⟨g, ar, rfl, hc⟩ | hc
    · rcases List.mem_append.1 (hc ▸ hg) with hg | hg
      · exact sent_step hI h (hI.commands gen hg)
      · cases List.mem_singleton.1 hg
        exact sent_sendAttach hI h ht
    · rcases List.mem_append.1 (hc ▸ hg) with hg | hg
      · exact sent_step hI h (hI.commands gen hg)
      · cases List.mem_singleton.1 hg
    · exact sent_step hI h (hI.commands gen (hc ▸ hg))
  · exact sent_step hI h (hI.commands gen (bodyStep_commands hb hg))
  · exact sent_step hI h (hI.commands gen hg)

theorem callStep_undone {s : Shared} {n : Nat} {b : Body} {call : Call}
    (h : Task.undone ⟨b, (s.callStep n call).2.1⟩ = some gen) :
    Task.undone ⟨b, some call⟩ = some gen ∨ ∃ ar, call = .detach s.transportGen ar .compareExchange ∧
      gen = s.transportGen := by
  cases call with
  | attach pc =>
      cases pc <;> simp only [Shared.callStep, Shared.attachStep] at h <;> repeat' split at h
      all_goals cases h
  | detach g ar pc =>
      cases pc with
      | compareExchange =>
          simp only [Shared.callStep, Shared.detachStep] at h
          split at h
          · rename_i hg
            cases h
            exact .inr ⟨ar, by rw [hg], hg.symm⟩
          · cases h
      | storeDetached | takeReader => exact .inl h
      | _ =>
          simp only [Shared.callStep, Shared.detachStep] at h
          repeat' split at h
          all_goals cases h
  | markClosed pc =>
      cases pc <;> simp only [Shared.callStep, Shared.markClosedStep] at h <;> repeat' split at h
      all_goals cases h

theorem newestInv_undone (hI : NewestInv c) (h : program.step c e = some c') :
    ∀ t ∈ c'.tasks, ∀ gen, t.undone = some gen → gen < c'.shared.transportGen := by
  -- Generations only grow, so what was overtaken stays overtaken.
  have hold : ∀ t ∈ c.tasks, ∀ gen, t.undone = some gen → gen < c'.shared.transportGen :=
    fun t ht gen hg => Nat.lt_of_lt_of_le (hI.undone t ht gen hg) (step_grows h).transportGen
  intro u hu gen hg
  rcases step_cases h with ⟨i, b, call, rfl, ht, rfl⟩ | ⟨i, a, b, s', t', new, rfl, ht, hb, rfl⟩ |
    ⟨t, rfl, ht, rfl⟩
  · rcases mem_of_mem_set_append hu with rfl | hu | hu
    · rcases callStep_undone hg with hg | ⟨ar, rfl, rfl⟩
      · exact hold _ (List.mem_of_getElem? ht) gen hg
      · simp [Shared.callStep, Shared.detachStep]
    · exact hold u hu gen hg
    · rw [Task.undone, callStep_new u hu] at hg
      cases hg
  · have hf := bodyStep_frame hb
    rw [hf.new] at hu
    rcases mem_of_mem_set_append hu with rfl | hu | hu
    · unfold Task.undone at hg
      split at hg
      · cases hf.entry _ ‹_›
      · cases hf.entry _ ‹_›
      · cases hf.entry _ ‹_›
      · cases hg
    · exact hold u hu gen hg
    · cases hu
  · rcases List.mem_append.mp hu with hu | hu
    · exact hold u hu gen hg
    · rw [List.mem_singleton.mp hu, (start_gens ht).2.2] at hg
      cases hg

/-- There is one writer. -/
theorem newestInv_single (hI : NewestInv c) (h : program.step c e = some c') :
    ∀ (i : Nat) (t : Task) gen, c'.tasks[i]? = some t → t.writerGen = some gen → i = 0 := by
  intro j u gen hj hg
  rcases step_cases h with ⟨i, b, call, rfl, ht, rfl⟩ | ⟨i, a, b, s', t', new, rfl, ht, hb, rfl⟩ |
    ⟨t, rfl, ht, rfl⟩
  · rcases of_getElem?_set_append hj with ⟨rfl, rfl⟩ | ⟨-, hj⟩ | ⟨-, hj⟩
    · exact hI.single i _ gen ht hg
    · exact hI.single j u gen hj hg
    · rw [callStep_new_writerGen u (List.mem_of_getElem? hj)] at hg
      cases hg
  · have hf := bodyStep_frame hb
    rcases of_getElem?_set_append hj with ⟨rfl, rfl⟩ | ⟨-, hj⟩ | ⟨-, hj⟩
    · obtain ⟨g, attached, stopped, rfl⟩ := writer_of_kind (hf.kind.symm.trans (writerGen_kind hg))
      exact hI.single i _ g ht rfl
    · exact hI.single j u gen hj hg
    · rw [hf.new] at hj
      cases hj
  · by_cases hlt : j < c.tasks.length
    · rw [List.getElem?_append_left hlt] at hj
      exact hI.single j u gen hj hg
    · rw [List.getElem?_append_right (Nat.le_of_not_lt hlt)] at hj
      rw [List.mem_singleton.1 (List.mem_of_getElem? hj)] at hg
      simp only [Shared.start, Bool.or_eq_true, decide_eq_true_eq, Bool.and_eq_true] at ht
      rcases ht with (rfl | rfl) | ⟨-, rfl⟩ <;> cases hg

/-! ### The writer's next transport -/

theorem undone_call {b : Body} {call : Option Call} (h : Task.undone ⟨b, call⟩ = some gen) :
    ∃ ar pc, call = some (.detach gen ar pc) ∧
      (pc = .storeDetached ∨ pc = .takeReader ∨ pc = .sendDetach) := by
  simp only [Task.undone] at h
  split at h <;> cases h <;> exact ⟨_, _, rfl, by simp⟩

/-- A detach has yet to send its command after a step, unless that is what the step did. -/
theorem undone_step {u : Task} (h : program.step c e = some c') (hu : u ∈ c.tasks)
    (hg : u.undone = some gen) :
    (∃ u ∈ c'.tasks, u.undone = some gen) ∨
      ∃ i b ar, e = .task i .run ∧ c.tasks[i]? = some ⟨b, some (.detach gen ar .sendDetach)⟩ := by
  rcases Program.step_exists h hu with hu | ⟨i, a, s', t', new, rfl, hi, hm, rfl⟩
  · exact .inl ⟨u, hu, hg⟩
  · have hnext : t' ∈ c.tasks.set i t' ++ new := List.mem_append_left _ (mem_set_self hi)
    obtain ⟨b, call⟩ := u
    obtain ⟨ar, pc, rfl, hpc⟩ := undone_call hg
    obtain ⟨-, rfl, -⟩ := move_call hm
    rcases hpc with rfl | rfl | rfl
    · exact .inl ⟨_, hnext, rfl⟩
    · exact .inl ⟨_, hnext, rfl⟩
    · cases a with
      | run => exact .inr ⟨i, b, ar, rfl, hi⟩
      | _ => cases hm

/-- What the writer will keep is still the latest, succeeded or about to be detached. -/
theorem holds_step (h : program.step c e = some c')
    (hne : ∀ i b ar, e = .task i .run → c.tasks[i]? ≠ some ⟨b, some (.detach gen ar .sendDetach)⟩)
    (hh : c.shared.transportGen = gen ∨ gen + 1 ∈ c.shared.attachGens ∨
      ∃ u ∈ c.tasks, u.undone = some gen) :
    c'.shared.transportGen = gen ∨ gen + 1 ∈ c'.shared.attachGens ∨
      ∃ u ∈ c'.tasks, u.undone = some gen := by
  rcases hh with rfl | hmem | ⟨u, hu, hg⟩
  · rcases transportGen_step h with ⟨hT, -⟩ | ⟨-, hgens⟩ | ⟨-, -, -, hd⟩
    · exact .inl hT
    · exact .inr (.inl (hgens ▸ List.mem_cons_self))
    · exact .inr (.inr hd)
  · exact .inr (.inl ((step_grows h).attachGens hmem))
  · rcases undone_step h hu hg with hd | ⟨i, b, ar, he, hi⟩
    · exact .inr (.inr hd)
    · exact absurd hi (hne i b ar he)

/-- A step that sends no Attach. -/
theorem newest_step (hI : NewestInv c) (h : program.step c e = some c')
    (hne : ∀ i b g, e = .task i .run → c.tasks[i]? ≠ some ⟨b, some (.attach (.sendAttach g))⟩)
    (hs : c.Sent gen) (hn : ∀ g, c.Sent g → g ≤ gen) :
    c'.Sent gen ∧ ∀ g, c'.Sent g → g ≤ gen := by
  refine ⟨sent_step hI h hs, fun g hg => ?_⟩
  rcases sent_of_step h hg with hg | ⟨i, b, he, hi⟩
  · exact hn g hg
  · exact absurd hi (hne i b g he)

/-- The writer's last Attach is one of those it still knows. -/
theorem applied_mem_sentGens {t : Task} {attached : Bool} (ht : t ∈ c.tasks)
    (hg : t.writerGen = some gen) :
    (applied gen attached c.shared.writerCmd).1 ∈ c.sentGens := by
  rcases applied_gen gen attached c.shared.writerCmd with h | h
  · rw [h]
    exact List.mem_append_left _ (List.mem_filterMap.2 ⟨t, ht, hg⟩)
  · exact List.mem_append_right _ (List.mem_filterMap.2 ⟨_, h, rfl⟩)

/-- The generation is an attach's after a step only if it was that before, or if the step took it. -/
theorem latest_step (hI : NewestInv c) (h : program.step c e = some c') (hs : c.Sent gen)
    (hT : c'.shared.transportGen = gen) : c.shared.transportGen = gen := by
  have hle := hI.gens gen hs.1
  rcases transportGen_step h with ⟨hsame, -⟩ | ⟨hnext, -⟩ | ⟨hnext, -⟩
  · exact hsame.symm.trans hT
  · exact absurd (hnext.symm.trans hT ▸ hle) (Nat.not_succ_le_self _)
  · exact absurd (hnext.symm.trans hT ▸ hle) (Nat.not_succ_le_self _)

/-- A detach of the latest transport goes on to take its stamp. -/
theorem callStep_detach_latest {s : Shared} {n : Nat} {ar : Bool} {pc : DetachPc}
    (hopen : s.closed = false) (hpc : pc = .checkClosed ∨ pc = .compareExchange)
    (hT : (s.callStep n (.detach s.transportGen ar pc)).1.transportGen = s.transportGen) :
    (s.callStep n (.detach s.transportGen ar pc)).2.1 =
      some (.detach s.transportGen ar .compareExchange) := by
  rcases hpc with rfl | rfl
  · simp [Shared.callStep, Shared.detachStep, hopen]
  · simp [Shared.callStep, Shared.detachStep] at hT

section call

variable {i : Nat} {b : Body} {call : Call} {t u : Task} {attached : Bool}

/-- An Attach that is sent makes the writer's transport the newest, for it is sent in order. -/
theorem writerOk_sendAttach {g : Nat} (hI : NewestInv c) (h : program.step c (.task i .run) = some c')
    (ht : c.tasks[i]? = some ⟨b, some (.attach (.sendAttach gen))⟩) (hle : g ≤ gen)
    (hW : WriterOk c t g attached) : WriterOk c' u gen true := by
  have hsent := sent_sendAttach hI h ht
  refine ⟨hsent, fun x hx => ?_, fun _ => ?_, fun _ _ => .inl rfl⟩
  · rcases sent_of_step h hx with hx | ⟨j, b', he, hj⟩
    · exact Nat.le_trans (hW.newest x hx) hle
    · cases he
      cases ht.symm.trans hj
      exact Nat.le_refl _
  · obtain ⟨-, hlast, -⟩ := hI.unsent i _ gen ht rfl
    exact holds_step h (fun j b' ar he hj => by cases he; cases ht.symm.trans hj)
      (hlast.imp_right .inl)

/-- A Detach that is sent is of a generation that has passed. -/
theorem writerOk_sendDetach {g : Nat} {ar : Bool} (hI : NewestInv c)
    (h : program.step c (.task i .run) = some c')
    (ht : c.tasks[i]? = some ⟨b, some (.detach g ar .sendDetach)⟩)
    (hcall : u.call = t.call ∨ t.call = some (.detach g ar .sendDetach))
    (hW : WriterOk c t gen attached) : WriterOk c' u gen (attached && g ≠ gen) := by
  obtain ⟨hsent, hnew⟩ := newest_step hI h (fun j b' x he hj => by cases he; cases ht.symm.trans hj)
    hW.sent hW.newest
  have hlt := hI.undone _ (List.mem_of_getElem? ht) g rfl
  refine ⟨hsent, hnew, fun hA => ?_, fun hopen hT => ?_⟩
  · rw [Bool.and_eq_true, decide_eq_true_eq] at hA
    refine holds_step h (fun j b' ar' he hj => ?_) (hW.holds hA.1)
    cases he
    cases ht.symm.trans hj
    exact hA.2 rfl
  · have hT₀ := latest_step hI h hW.sent hT
    rcases hW.latest (open_of_step h hopen) hT₀ with hA | ⟨ar', pc, hcall₀, hpc⟩
    · left
      rw [hA, Bool.true_and, decide_eq_true_eq]
      rintro rfl
      exact Nat.lt_irrefl _ (hT₀ ▸ hlt)
    · rcases hcall with hcall | hcall
      · exact .inr ⟨ar', pc, hcall.trans hcall₀, hpc⟩
      · cases hcall₀.symm.trans hcall
        rcases hpc with hpc | hpc <;> cases hpc

/-- Any other operation of a call, of the writer's or of another task's. -/
theorem writerOk_call (hI : NewestInv c) (h : program.step c (.task i .run) = some c')
    (ht : c.tasks[i]? = some ⟨b, some call⟩)
    (hsh : c'.shared = (c.shared.callStep c.tasks.length call).1)
    (hcmd : c'.shared.writerCmd = c.shared.writerCmd)
    (hcall : u.call = t.call ∨
      t.call = some call ∧ u.call = (c.shared.callStep c.tasks.length call).2.1)
    (hW : WriterOk c t gen attached) : WriterOk c' u gen attached := by
  rw [hsh] at hcmd
  obtain ⟨hsent, hnew⟩ := newest_step hI h (fun j b' x he hj => by
    cases he
    cases ht.symm.trans hj
    simp [Shared.callStep, Shared.attachStep] at hcmd) hW.sent hW.newest
  -- This call sends no command: `hcmd` rules out the two that do.
  refine ⟨hsent, hnew, fun hA => ?_, fun hopen hT => ?_⟩
  · refine holds_step h (fun j b' ar' he hj => ?_) (hW.holds hA)
    cases he
    cases ht.symm.trans hj
    simp [Shared.callStep, Shared.detachStep] at hcmd
  · have hT₀ := latest_step hI h hW.sent hT
    have hopen₀ := open_of_step h hopen
    refine (hW.latest hopen₀ hT₀).imp_right ?_
    rintro ⟨ar, pc, hcall₀, hpc⟩
    rcases hcall with hcall | ⟨hcall₁, hcall⟩
    · exact ⟨ar, pc, hcall.trans hcall₀, hpc⟩
    · -- The call is the writer's own detach, still on its way.
      cases hcall₀.symm.trans hcall₁
      subst hT₀
      rw [hsh] at hT
      exact ⟨ar, _, hcall.trans (callStep_detach_latest hopen₀ hpc hT), .inr rfl⟩

end call

/-- A step that changes neither generations nor calls. -/
theorem writerOk_keep {t u : Task} {attached : Bool} (hI : NewestInv c)
    (h : program.step c e = some c')
    (hne : ∀ i b call, e = .task i .run → c.tasks[i]? ≠ some ⟨b, some call⟩)
    (hcall : u.call = t.call) (hW : WriterOk c t gen attached) : WriterOk c' u gen attached := by
  obtain ⟨hsent, hnew⟩ := newest_step hI h (fun i b g he => hne i b _ he) hW.sent hW.newest
  refine ⟨hsent, hnew, fun hA => holds_step h (fun i b ar he => hne i b _ he) (hW.holds hA),
    fun hopen hT => ?_⟩
  rw [hcall]
  exact hW.latest (open_of_step h hopen) (latest_step hI h hW.sent hT)

/-- The writer of a connection, with what it will hold. -/
def Conn.WriterAt (c : Conn) : Prop :=
  ∃ gen attached stopped call, c.tasks[0]? = some ⟨.writer gen attached stopped, call⟩ ∧
    WriterOk c ⟨.writer gen attached stopped, call⟩ (applied gen attached c.shared.writerCmd).1
      (applied gen attached c.shared.writerCmd).2

theorem newestInv_writer_call {i : Nat} {b : Body} {call : Call} (hI : NewestInv c)
    (hC : SendsInOrder c (.task i .run)) (h : program.step c (.task i .run) = some c')
    (ht : c.tasks[i]? = some ⟨b, some call⟩)
    (hc' : c' = ⟨(c.shared.callStep c.tasks.length call).1,
      c.tasks.set i ⟨b, (c.shared.callStep c.tasks.length call).2.1⟩ ++
        (c.shared.callStep c.tasks.length call).2.2⟩) : c'.WriterAt := by
  obtain ⟨g, attached, stopped, call₀, h₀, hW⟩ := hI.writer
  have hsh : c'.shared = (c.shared.callStep c.tasks.length call).1 := by rw [hc']
  -- The writer is the first task; only a call of its own can change it here.
  obtain ⟨call', hc₀, hcall⟩ : ∃ call', c'.tasks[0]? = some ⟨.writer g attached stopped, call'⟩ ∧
      (call' = call₀ ∨
        call₀ = some call ∧ call' = (c.shared.callStep c.tasks.length call).2.1) := by
    subst hc'
    by_cases hi : i = 0
    · subst hi
      cases ht.symm.trans h₀
      exact ⟨_, getElem?_set_append_self ht, .inr ⟨rfl, rfl⟩⟩
    · exact ⟨call₀, getElem?_set_append h₀ hi, .inl rfl⟩
  refine ⟨g, attached, stopped, call', hc₀, ?_⟩
  rcases callStep_writerCmd c.shared c.tasks.length call with
    ⟨gen, rfl, hcmd⟩ | ⟨gen, ar, rfl, hcmd⟩ | hcmd
  · rw [hsh, hcmd, applied_attach]
    exact writerOk_sendAttach hI h ht
      (hC _ ht gen rfl _ (applied_mem_sentGens (List.mem_of_getElem? h₀) rfl)) hW
  · rw [hsh, hcmd, applied_detach]
    exact writerOk_sendDetach hI h ht (hcall.imp_right And.left) hW
  · rw [← hsh] at hcmd
    rw [hcmd]
    exact writerOk_call hI h ht hsh hcmd hcall hW

theorem newestInv_writer_body {i : Nat} {a : Act} {b : Body} {s' : Shared} {t' : Task}
    {new : List Task} (hI : NewestInv c) (h : program.step c (.task i a) = some c')
    (ht : c.tasks[i]? = some ⟨b, none⟩) (hb : c.shared.bodyStep i b a = some (s', t', new))
    (hc' : c' = ⟨s', c.tasks.set i t' ++ new⟩) : c'.WriterAt := by
  obtain ⟨g, attached, stopped, call₀, h₀, hW⟩ := hI.writer
  have hne : ∀ j b call, (.task i a : Event Task Act) = .task j .run →
      c.tasks[j]? ≠ some ⟨b, some call⟩ := by
    rintro j b call he hj
    cases he
    cases ht.symm.trans hj
  have hsh : c'.shared = s' := by rw [hc']
  by_cases hi : i = 0
  · subst hi
    cases ht.symm.trans h₀
    have hc₀ : c'.tasks[0]? = some t' := hc' ▸ getElem?_set_append_self ht
    rcases writerStep_cases hb with ⟨cmd, rest, hcmd, rfl, rfl⟩ | ⟨rfl, rfl, rfl⟩ | ⟨rfl, rfl⟩
    · rw [hcmd] at hW
      refine ⟨_, _, _, _, hc₀, ?_⟩
      rw [hsh]
      exact writerOk_keep (t := ⟨.writer g attached stopped, none⟩) hI h hne rfl hW
    · refine ⟨_, _, _, _, hc₀, ?_⟩
      rw [hsh]
      rcases applied_drop g true c.shared.writerCmd with hsame | ⟨hdrop, hgen⟩
      · -- The writer will get another transport, and was in no call.
        rw [hsame]
        have hk := writerOk_keep (u := ⟨.writer g true stopped, none⟩) hI h hne rfl hW
        exact ⟨hk.sent, hk.newest, hk.holds, fun hopen hT => .inl <| (hk.latest hopen hT).elim id
          fun ⟨_, _, hcall, _⟩ => by cases hcall⟩
      · rw [hdrop]
        rw [hgen] at hW
        have hk := writerOk_keep (u := ⟨.writer g true stopped, none⟩) hI h hne rfl hW
        exact ⟨hk.sent, hk.newest, nofun, fun _ _ => .inr ⟨true, .checkClosed, rfl, .inl rfl⟩⟩
    · refine ⟨_, _, _, _, hc₀, ?_⟩
      rw [hsh]
      exact writerOk_keep (t := ⟨.writer g attached stopped, none⟩) hI h hne rfl hW
  · refine ⟨g, attached, stopped, call₀, hc' ▸ getElem?_set_append h₀ hi, ?_⟩
    have hcmd : s'.writerCmd = c.shared.writerCmd := by
      refine bodyStep_writerCmd ?_ hb
      by_contra hw
      obtain ⟨g', hg'⟩ := Option.ne_none_iff_exists'.1 hw
      exact hi (hI.single i _ g' ht hg')
    rw [hsh, hcmd]
    exact writerOk_keep hI h hne rfl hW

theorem newestInv_writer (hI : NewestInv c) (hC : SendsInOrder c e)
    (h : program.step c e = some c') : c'.WriterAt := by
  rcases step_cases h with ⟨i, b, call, rfl, ht, hc'⟩ | ⟨i, a, b, s', t', new, rfl, ht, hb, hc'⟩ |
    ⟨t, rfl, ht, hc'⟩
  · exact newestInv_writer_call hI hC h ht hc'
  · exact newestInv_writer_body hI h ht hb hc'
  · obtain ⟨g, attached, stopped, call₀, h₀, hW⟩ := hI.writer
    obtain ⟨hlt, -⟩ := List.getElem?_eq_some_iff.1 h₀
    refine ⟨g, attached, stopped, call₀, ?_, ?_⟩
    · rw [hc']
      exact (List.getElem?_append_left hlt).trans h₀
    · have hsh : c'.shared = c.shared := by rw [hc']
      rw [hsh]
      exact writerOk_keep hI h (fun i b call he => by cases he) rfl hW

/-! ### The result -/

theorem newestInv_reachable {role : RecoveryRole} (h : (machine role).ReachableUnder SendsInOrder c) :
    NewestInv c := by
  refine h.invariant ?_ fun _ _ _ hI hC hs =>
    ⟨(step_grows hs).gens hI.gens, newestInv_unsent hI hs, newestInv_body hI hs, newestInv_call hI hs,
      newestInv_undone hI hs, newestInv_commands hI hs, newestInv_single hI hs,
      newestInv_writer hI hC hs⟩
  rintro _ ⟨ttl, rfl⟩
  have hsent : (started role ttl).Sent 1 := ⟨List.mem_singleton_self 1, by simp [started, Task.unsent]⟩
  refine ⟨by simp [started], ?_, ?_, by simp [started, Task.callGen],
    by simp [started, Task.undone], ?_, ?_, ?_⟩
  · intro i t gen hi hun
    have ht := List.mem_of_getElem? hi
    simp only [started, List.mem_cons, List.not_mem_nil, or_false] at ht
    rcases ht with rfl | rfl <;> cases hun
  · intro t ht gen hg
    simp only [started, List.mem_cons, List.not_mem_nil, or_false] at ht
    rcases ht with rfl | rfl <;> cases hg
    exact hsent
  · intro gen hg
    cases List.mem_singleton.1 hg
    exact hsent
  · intro i t gen hi hg
    cases i with
    | zero => rfl
    | succ i =>
        cases i with
        | zero => cases hi; cases hg
        | succ i => cases hi
  · exact ⟨0, false, false, none, rfl, hsent, fun g hg => Nat.le_of_eq (List.mem_singleton.1 hg.1),
      fun _ => .inl rfl, fun _ _ => .inl rfl⟩

/-- On an open connection, with no attach or detach in progress and every command applied, the
writer holds a transport iff an attach took the latest generation, and then that attach's. -/
def WriterFollows (c : Conn) : Prop :=
  c.shared.closed = false → (∀ t ∈ c.tasks, ¬t.Switching) → c.shared.writerCmd = [] →
    ∃ gen attached stopped call, c.tasks[0]? = some ⟨.writer gen attached stopped, call⟩ ∧
      (attached = true ↔ c.shared.transportGen ∈ c.shared.attachGens) ∧
      (attached = true → gen = c.shared.transportGen)

/-- **The writer ends up on the newest transport**, in the runs in which the Attach commands are
sent in the order of their generations. -/
theorem writer_newest {role : RecoveryRole} (h : (machine role).ReachableUnder SendsInOrder c) :
    WriterFollows c := by
  intro hopen hquiet hcmd
  have hI := newestInv_reachable h
  obtain ⟨gen, attached, stopped, call, h₀, hW⟩ := hI.writer
  rw [hcmd, applied_nil] at hW
  have hsent : ∀ g ∈ c.shared.attachGens, c.Sent g := fun g hg => ⟨hg, fun t ht hun =>
    hquiet t ht (.inl (unsent_attach hun))⟩
  have hgen : attached = true → gen = c.shared.transportGen := by
    intro ha
    rcases hW.holds ha with hT | hnext | ⟨u, hu, hun⟩
    · exact hT.symm
    · exact absurd (hW.newest _ (hsent _ hnext)) (Nat.not_succ_le_self _)
    · obtain ⟨ar, pc, hc, -⟩ := undone_call hun
      exact absurd (.inr ⟨_, ar, pc, hc⟩) (hquiet u hu)
  refine ⟨gen, attached, stopped, call, h₀, ⟨fun ha => hgen ha ▸ hW.sent.1, fun hT => ?_⟩, hgen⟩
  have heq : c.shared.transportGen = gen :=
    Nat.le_antisymm (hW.newest _ (hsent _ hT)) (hI.gens _ hW.sent.1)
  rcases hW.latest hopen heq with ha | ⟨ar, pc, hc, -⟩
  · exact ha
  · exact absurd (.inr ⟨_, ar, pc, hc⟩) (hquiet _ (List.mem_of_getElem? h₀))

/-- A resume has attached its transport, and the writer has it. -/
def resumedApplied : Conn where
  shared := { resumedOnce.shared with writerCmd := [] }
  tasks := ⟨.writer 2 true false, none⟩ :: resumedOnce.tasks.tail

theorem writer_newest_resumed :
    ∃ gen attached stopped call,
      resumedApplied.tasks[0]? = some ⟨.writer gen attached stopped, call⟩ ∧
        (attached = true ↔ resumedApplied.shared.transportGen ∈ resumedApplied.shared.attachGens) ∧
        (attached = true → gen = resumedApplied.shared.transportGen) := by
  have hr : (machine .server).ReachableUnder SendsInOrder resumedApplied :=
    .exec (resumeRun 2 ++ [.task 0 .run, .task 0 .run]) (.init ⟨30, rfl⟩) rfl (by decide)
  exact writer_newest hr rfl (by simp [resumedApplied, resumedOnce, started, Task.Switching]) rfl

/-- A resume takes generation 2 and stops before it sends its Attach; its retry attaches
generation 3, and then the first goes on. -/
def staleRun : List (Event Task Act) :=
  Event.start ⟨.resume, some (.attach .checkClosed)⟩ :: List.replicate 3 (.task 2 .run) ++
    resumeRun 3 ++ List.replicate 5 (Event.task 2 Act.run) ++
    List.replicate 3 (Event.task 0 Act.run)

def staleServer : Conn where
  shared := { (started .server 30).shared with
    transportGen := 3, currentReaderAbort := some (2, 5), writerCmd := []
    aborted := [1], attachGens := [3, 2, 1] }
  tasks := [⟨.writer 2 true false, none⟩, ⟨.reader 1 .reading, none⟩, ⟨.resume, none⟩,
    ⟨.resume, none⟩, ⟨.reader 3 .reading, none⟩, ⟨.reader 2 .reading, none⟩]

theorem writer_stale : ¬∀ c, (machine .server).Reachable c → WriterFollows c := by
  intro hall
  have hr : (machine .server).Reachable staleServer :=
    Machine.reachable_of_exec staleRun ⟨30, rfl⟩ rfl
  obtain ⟨gen, attached, stopped, call, h₀, hiff, hgen⟩ :=
    hall _ hr rfl (by simp [staleServer, Task.Switching]) rfl
  cases h₀
  cases hgen rfl

end AdaptiveMsg.Lifecycle
