import AdaptiveMsg.Lifecycle.Model

/-!
# Lifecycle — what the steps do

A step is the next operation of a call, a step of a body, or the environment starts a task
(`step_cases`).  A step of a body changes little of the shared state (`BodyEffect`): only calls
change the transport generation and the attached flag, and a body makes a call or none, at the
call's first operation (`bodyStep_frame`).  No step takes back what `Grows` lists.

`GenAttached`: readers, and attaches that have taken a generation, are of an attach's generation.
-/

namespace AdaptiveMsg.Lifecycle

open Machine.Pool (Program Event mem_of_mem_set_append)

/-- The first operation of a call. -/
def Call.Entry : Call → Prop
  | .attach pc => pc = .checkClosed
  | .detach _ _ pc => pc = .checkClosed
  | .markClosed pc => pc = .swapClosed

variable {c c' : Conn} {e : Event Task Act}

theorem step_cases (h : program.step c e = some c') :
    (∃ i b call, e = .task i .run ∧ c.tasks[i]? = some ⟨b, some call⟩ ∧
      c' = ⟨(c.shared.callStep c.tasks.length call).1,
        c.tasks.set i ⟨b, (c.shared.callStep c.tasks.length call).2.1⟩ ++
          (c.shared.callStep c.tasks.length call).2.2⟩) ∨
    (∃ i a b s' t' new, e = .task i a ∧ c.tasks[i]? = some ⟨b, none⟩ ∧
      c.shared.bodyStep i b a = some (s', t', new) ∧ c' = ⟨s', c.tasks.set i t' ++ new⟩) ∨
    ∃ t, e = .start t ∧ c.shared.start t = true ∧ c' = ⟨c.shared, c.tasks ++ [t]⟩ := by
  rcases Program.step_cases h with ⟨i, a, ⟨b, call⟩, s', t', new, rfl, ht, hm, rfl⟩ | h
  · simp only [program, Shared.move] at hm
    cases call with
    | none => exact .inr (.inl ⟨i, a, b, s', t', new, rfl, ht, hm, rfl⟩)
    | some call =>
        cases a with
        | run =>
            simp only [Option.some.injEq, Prod.mk.injEq] at hm
            obtain ⟨rfl, rfl, rfl⟩ := hm
            exact .inl ⟨i, b, call, rfl, ht, rfl⟩
        | _ => cases hm
  · exact .inr (.inr h)

theorem move_call {s s' : Shared} {n i : Nat} {b : Body} {call : Call} {a : Act} {t' : Task}
    {new : List Task} (h : s.move n i ⟨b, some call⟩ a = some (s', t', new)) :
    s' = (s.callStep n call).1 ∧ t' = ⟨b, (s.callStep n call).2.1⟩ ∧
      new = (s.callStep n call).2.2 := by
  cases a with
  | run =>
      simp only [Shared.move, Option.some.injEq, Prod.mk.injEq] at h
      exact ⟨h.1.symm, h.2.1.symm, h.2.2.symm⟩
  | _ => cases h

/-- What a task is, at whatever control state. -/
def Body.kind : Body → Body
  | .writer _ _ _ => .writer 0 false false
  | .reader gen _ => .reader gen .ended
  | .loop _ => .loop .stopped
  | .resume => .resume
  | .timer detachedGen _ => .timer detachedGen .ended
  | .closer _ => .closer .done

theorem loop_of_kind {b : Body} (h : b.kind = .loop .stopped) : ∃ pc, b = .loop pc := by
  cases b with
  | loop pc => exact ⟨pc, rfl⟩
  | _ => cases h

/-- What no step of a body changes, from `b` at `s`. -/
structure BodyFrame (s : Shared) (b : Body) (s' : Shared) (t' : Task) (new : List Task) : Prop where
  new : new = []
  role : s'.role = s.role
  closed : s'.closed = s.closed
  transportGen : s'.transportGen = s.transportGen
  transportAttached : s'.transportAttached = s.transportAttached
  currentReaderAbort : s'.currentReaderAbort = s.currentReaderAbort
  aborted : s'.aborted = s.aborted
  attachGens : s'.attachGens = s.attachGens
  kind : t'.body.kind = b.kind
  reconnectActive : b.kind ≠ .loop .stopped → s'.reconnectActive = s.reconnectActive
  entry : ∀ call, t'.call = some call → call.Entry
  attach : ∀ pc, t'.call = some (.attach pc) → b = .loop .resuming ∧ t'.body = .loop .release

/-- What a step of a body changes: the writer takes a command, CLOSE is handled, the application
closes, the loop takes or drops its lock, and any other step changes its own task only. -/
inductive BodyEffect (s : Shared) (b : Body) : Shared → Task → Prop where
  | command {gen gen' : Nat} {attached attached' : Bool} (hb : b = .writer gen attached false)
      {cmd : WriterCommand} {rest : List WriterCommand} (hcmd : s.writerCmd = cmd :: rest) :
      BodyEffect s b { s with writerCmd := rest } ⟨.writer gen' attached' false, none⟩
  | closeByPeer {gen : Nat} (hb : b = .reader gen .closeByPeer) {t' : Task}
      (ht : t' = ⟨.reader gen .ended, some (.markClosed .swapClosed)⟩ ∨
        t' = ⟨.reader gen .delivering, none⟩) :
      BodyEffect s b { s with closing := true, closeHandled := true } t'
  | close {pc : CloserPc} (hb : b = .closer .swapClosing) {call : Option Call}
      (hc : ∀ c ∈ call, c = .markClosed .swapClosed) :
      BodyEffect s b { s with closing := true } ⟨.closer pc, call⟩
  | lock {pc pc' : LoopPc} (hb : b = .loop pc) (active : Bool) :
      BodyEffect s b { s with reconnectActive := active } ⟨.loop pc', none⟩
  | own {b' : Body} {call : Option Call} (hk : b'.kind = b.kind) (hc : ∀ c ∈ call, c.Entry)
      (ha : ∀ pc, call = some (.attach pc) → b = .loop .resuming ∧ b' = .loop .release)
      (hd : ∀ gen abortReader pc, call = some (.detach gen abortReader pc) →
        b = .writer gen true false ∨ b = .reader gen .reading) :
      BodyEffect s b s ⟨b', call⟩

theorem bodyStep_effect {s s' : Shared} {i : Nat} {b : Body} {a : Act} {t' : Task}
    {new : List Task} (h : s.bodyStep i b a = some (s', t', new)) :
    BodyEffect s b s' t' ∧ new = [] := by
  -- A step that goes on, with or without a call.
  have own {s : Shared} {b b' : Body} (hk : b'.kind = b.kind) : BodyEffect s b s ⟨b', none⟩ :=
    .own hk nofun nofun nofun
  have ends {s : Shared} {b b' : Body} (hk : b'.kind = b.kind) :
      BodyEffect s b s ⟨b', some (.markClosed .swapClosed)⟩ :=
    .own hk (fun c hc => by cases hc; rfl) nofun nofun
  have fails {s : Shared} {b b' : Body} {gen : Nat} {abortReader : Bool} (hk : b'.kind = b.kind)
      (hb : b = .writer gen true false ∨ b = .reader gen .reading) :
      BodyEffect s b s ⟨b', some (.detach gen abortReader .checkClosed)⟩ :=
    .own hk (fun c hc => by cases hc; rfl) nofun fun g ar pc hc => by cases hc; exact hb
  cases b with
  | writer gen attached stopped =>
      cases a <;> simp only [Shared.bodyStep, Shared.writerStep, Shared.goesOn] at h <;>
        repeat' split at h
      all_goals first | contradiction | obtain ⟨rfl, rfl, rfl⟩ := h
      · rename_i hrun _ _ _ hcmd
        obtain rfl : stopped = false := by simpa using hrun
        exact ⟨.command rfl hcmd, rfl⟩
      · rename_i hrun _ _ _ hcmd
        obtain rfl : stopped = false := by simpa using hrun
        exact ⟨.command rfl hcmd, rfl⟩
      · rename_i hfail
        obtain ⟨rfl, hstop⟩ := hfail
        obtain rfl : stopped = false := by simpa using hstop
        exact ⟨fails rfl (.inl rfl), rfl⟩
      · exact ⟨own rfl, rfl⟩
  | reader gen pc =>
      cases pc <;> cases a <;> simp only [Shared.bodyStep, Shared.readerStep, Shared.goesOn] at h
      case closeByPeer.run =>
        split at h
        · obtain ⟨rfl, rfl, rfl⟩ := h
          exact ⟨.closeByPeer rfl (.inl rfl), rfl⟩
        · obtain ⟨rfl, rfl, rfl⟩ := h
          exact ⟨.closeByPeer rfl (.inr rfl), rfl⟩
      all_goals repeat' split at h
      all_goals first | contradiction | obtain ⟨rfl, rfl, rfl⟩ := h
      all_goals exact ⟨by first | exact own rfl | exact ends rfl | exact fails rfl (.inr rfl), rfl⟩
  | loop pc =>
      cases pc <;> cases a <;> simp only [Shared.bodyStep, Shared.loopStep, Shared.goesOn] at h
      case resuming.resumed =>
        obtain ⟨rfl, rfl, rfl⟩ := h
        exact ⟨.own rfl (fun c hc => by cases hc; rfl) (fun pc hc => ⟨rfl, rfl⟩) nofun, rfl⟩
      all_goals repeat' split at h
      all_goals first | contradiction | obtain ⟨rfl, rfl, rfl⟩ := h
      all_goals exact ⟨by first | exact own rfl | exact ends rfl | exact .lock rfl _, rfl⟩
  | resume => cases h
  | timer gen pc =>
      cases pc <;> cases a <;> simp only [Shared.bodyStep, Shared.timerStep, Shared.goesOn] at h <;>
        repeat' split at h
      all_goals first | contradiction | obtain ⟨rfl, rfl, rfl⟩ := h
      all_goals exact ⟨by first | exact own rfl | exact ends rfl, rfl⟩
  | closer pc =>
      cases pc <;> cases a <;> simp only [Shared.bodyStep, Shared.closerStep, Shared.goesOn] at h
      case swapClosing.run =>
        split at h
        · obtain ⟨rfl, rfl, rfl⟩ := h
          exact ⟨.close rfl fun c hc => (Option.some.inj hc).symm, rfl⟩
        · obtain ⟨rfl, rfl, rfl⟩ := h
          exact ⟨.close rfl nofun, rfl⟩
      case waiting.waited =>
        obtain ⟨rfl, rfl, rfl⟩ := h
        exact ⟨ends rfl, rfl⟩
      all_goals contradiction

theorem bodyStep_frame {s s' : Shared} {i : Nat} {b : Body} {a : Act} {t' : Task}
    {new : List Task} (h : s.bodyStep i b a = some (s', t', new)) : BodyFrame s b s' t' new := by
  obtain ⟨he, rfl⟩ := bodyStep_effect h
  cases he with
  | command hb hcmd => constructor <;> simp [hb, Body.kind]
  | closeByPeer hb ht =>
      rcases ht with rfl | rfl <;> constructor <;> simp [hb, Body.kind, Call.Entry]
  | close hb hc =>
      refine ⟨rfl, rfl, rfl, rfl, rfl, rfl, rfl, rfl, hb ▸ rfl, fun _ => rfl, fun call hcall => ?_,
        fun pc hcall => ?_⟩
      · rw [hc call hcall]
        rfl
      · cases hc _ hcall
  | lock hb active => constructor <;> simp [hb, Body.kind]
  | own hk hc ha =>
      exact ⟨rfl, rfl, rfl, rfl, rfl, rfl, rfl, rfl, hk, fun _ => rfl, hc, ha⟩

/-- What no step takes back. -/
structure Grows (s s' : Shared) : Prop where
  role : s'.role = s.role
  closed : s.closed = true → s'.closed = true
  transportGen : s.transportGen ≤ s'.transportGen
  attachGens : s.attachGens ⊆ s'.attachGens
  aborted : s.aborted ⊆ s'.aborted
  gens : (∀ gen ∈ s.attachGens, gen ≤ s.transportGen) → ∀ gen ∈ s'.attachGens, gen ≤ s'.transportGen

theorem Grows.refl (s : Shared) : Grows s s :=
  ⟨rfl, id, Nat.le_refl _, List.Subset.refl _, List.Subset.refl _, id⟩

theorem takeReader_grows (s : Shared) (gen : Option Nat) : Grows s (s.takeReader gen) := by
  refine ⟨rfl, id, Nat.le_refl _, List.Subset.refl _, ?_, id⟩
  simp only [Shared.takeReader]
  split
  · split
    · exact List.subset_cons_self _ _
    · exact List.Subset.refl _
  · exact List.Subset.refl _

theorem callStep_grows (s : Shared) (n : Nat) (call : Call) : Grows s (s.callStep n call).1 := by
  have hr := Grows.refl s
  cases call with
  | attach pc =>
      cases pc with
      | fetchAdd =>
          refine ⟨rfl, id, Nat.le_succ _, List.subset_cons_self _ _, List.Subset.refl _, ?_⟩
          intro h gen hg
          rcases List.mem_cons.mp hg with rfl | hg
          · exact Nat.le_refl _
          · exact Nat.le_succ_of_le (h gen hg)
      | takeReader gen => exact takeReader_grows s none
      | _ => exact ⟨rfl, id, Nat.le_refl _, hr.attachGens, hr.aborted, id⟩
  | detach gen abortReader pc =>
      cases pc with
      | compareExchange =>
          simp only [Shared.callStep, Shared.detachStep]
          split
          · rename_i hg
            subst hg
            exact ⟨rfl, id, Nat.le_succ _, hr.attachGens, hr.aborted,
              fun h gen hg => Nat.le_succ_of_le (h gen hg)⟩
          · exact hr
      | takeReader =>
          simp only [Shared.callStep, Shared.detachStep]
          split
          · exact takeReader_grows s _
          · exact hr
      | recover =>
          simp only [Shared.callStep, Shared.detachStep]
          repeat' split
          all_goals exact ⟨rfl, id, Nat.le_refl _, hr.attachGens, hr.aborted, id⟩
      | _ => exact ⟨rfl, id, Nat.le_refl _, hr.attachGens, hr.aborted, id⟩
  | markClosed pc =>
      cases pc with
      | swapClosed => exact ⟨rfl, fun _ => rfl, Nat.le_refl _, hr.attachGens, hr.aborted, id⟩
      | takeReader => exact takeReader_grows s none
      | _ => exact ⟨rfl, id, Nat.le_refl _, hr.attachGens, hr.aborted, id⟩

theorem step_grows (h : program.step c e = some c') : Grows c.shared c'.shared := by
  rcases step_cases h with ⟨i, b, call, rfl, -, rfl⟩ | ⟨i, a, b, s', t', new, rfl, -, hb, rfl⟩ |
    ⟨t, rfl, -, rfl⟩
  · exact callStep_grows _ _ _
  · have hf := bodyStep_frame hb
    refine ⟨hf.role, fun hc => hf.closed.trans hc, Nat.le_of_eq hf.transportGen.symm, hf.attachGens ▸ List.Subset.refl _,
      hf.aborted ▸ List.Subset.refl _, fun hg => ?_⟩
    simpa only [hf.attachGens, hf.transportGen] using hg
  · exact .refl _

theorem open_of_step (h : program.step c e = some c') (hopen : c'.shared.closed = false) :
    c.shared.closed = false := by
  by_contra hcl
  rw [(step_grows h).closed (by simpa using hcl)] at hopen
  cases hopen

/-! ### The generation and the attached flag -/

/-- Only these operations move the generation. -/
theorem callStep_transportGen (s : Shared) (n : Nat) (call : Call) :
    (call = .attach .fetchAdd ∧ (s.callStep n call).1.transportGen = s.transportGen + 1 ∧
      (s.callStep n call).1.attachGens = (s.transportGen + 1) :: s.attachGens) ∨
    (∃ abortReader, call = .detach s.transportGen abortReader .compareExchange ∧
      (s.callStep n call).1.transportGen = s.transportGen + 1 ∧
      (s.callStep n call).1.attachGens = s.attachGens ∧
      (s.callStep n call).2.1 = some (.detach s.transportGen abortReader .storeDetached)) ∨
    ((s.callStep n call).1.transportGen = s.transportGen ∧
      (s.callStep n call).1.attachGens = s.attachGens) := by
  cases call with
  | attach pc =>
      cases pc with
      | fetchAdd => exact .inl ⟨rfl, rfl, rfl⟩
      | _ => exact .inr (.inr ⟨rfl, rfl⟩)
  | detach gen abortReader pc =>
      cases pc with
      | compareExchange =>
          simp only [Shared.callStep, Shared.detachStep]
          by_cases hg : s.transportGen = gen
          · subst hg
            exact .inr (.inl ⟨abortReader, rfl, by simp, by simp, by simp⟩)
          · exact .inr (.inr (by simp [hg]))
      | _ =>
          refine .inr (.inr ?_)
          simp only [Shared.callStep, Shared.detachStep]
          repeat' split
          all_goals simp [Shared.takeReader]
  | markClosed pc => cases pc <;> exact .inr (.inr ⟨rfl, rfl⟩)

/-- Only these operations change the attached flag. -/
theorem callStep_transportAttached (s : Shared) (n : Nat) (call : Call) :
    (∃ gen, call = .attach (.storeAttached gen)) ∨
    (∃ gen abortReader, call = .detach gen abortReader .storeDetached ∧
      (s.callStep n call).1.transportAttached = false ∧
      (s.callStep n call).2.1 = some (.detach gen abortReader .takeReader)) ∨
    call = .markClosed .storeDetached ∨
    (s.callStep n call).1.transportAttached = s.transportAttached := by
  cases call with
  | attach pc =>
      cases pc with
      | storeAttached gen => exact .inl ⟨gen, rfl⟩
      | _ => exact .inr (.inr (.inr rfl))
  | detach gen abortReader pc =>
      cases pc with
      | storeDetached => exact .inr (.inl ⟨gen, abortReader, rfl, rfl, rfl⟩)
      | _ =>
          refine .inr (.inr (.inr ?_))
          simp only [Shared.callStep, Shared.detachStep]
          repeat' split
          all_goals simp [Shared.takeReader]
  | markClosed pc =>
      cases pc with
      | storeDetached => exact .inr (.inr (.inl rfl))
      | _ => exact .inr (.inr (.inr rfl))

/-! ### The calls in progress -/

/-- A task that starts is in no call. -/
theorem callStep_new {s : Shared} {n : Nat} {call : Call} :
    ∀ t ∈ (s.callStep n call).2.2, t.call = none := by
  cases call with
  | attach pc => cases pc <;> simp [Shared.callStep, Shared.attachStep]
  | detach gen abortReader pc =>
      cases pc <;> simp only [Shared.callStep, Shared.detachStep] <;> repeat' split
      all_goals simp
  | markClosed pc => cases pc <;> simp [Shared.callStep, Shared.markClosedStep]

theorem start_call {s : Shared} {t : Task} (h : s.start t = true) :
    t.call = none ∨ t.call = some (.markClosed .swapClosed) ∨
      (s.role = .server ∧ t.call = some (.attach .checkClosed)) := by
  simp only [Shared.start, Bool.or_eq_true, decide_eq_true_eq, Bool.and_eq_true] at h
  rcases h with (rfl | rfl) | ⟨hr, rfl⟩
  · exact .inl rfl
  · exact .inr (.inl rfl)
  · exact .inr (.inr ⟨hr, rfl⟩)

/-- An attach is in progress after its call's operation only if it was before. -/
theorem callStep_attach {s : Shared} {n : Nat} {call : Call} {pc : AttachPc}
    (h : (s.callStep n call).2.1 = some (.attach pc)) : ∃ pc', call = .attach pc' := by
  cases call with
  | attach pc' => exact ⟨pc', rfl⟩
  | detach gen abortReader pc' =>
      cases pc' <;> simp only [Shared.callStep, Shared.detachStep] at h <;> repeat' split at h
      all_goals simp at h
  | markClosed pc' =>
      cases pc' <;> simp [Shared.callStep, Shared.markClosedStep] at h

theorem callStep_markClosed {s : Shared} {n : Nat} {call : Call} {pc : ClosePc}
    (h : (s.callStep n call).2.1 = some (.markClosed pc)) :
    pc = .swapClosed ∨ (s.callStep n call).1.closed = true ∨
      ∃ pc', call = .markClosed pc' ∧ pc' ≠ .swapClosed := by
  cases call with
  | attach pc' =>
      cases pc' <;> simp only [Shared.callStep, Shared.attachStep] at h <;> repeat' split at h
      all_goals simp at h
  | detach gen abortReader pc' =>
      cases pc' <;> simp only [Shared.callStep, Shared.detachStep] at h <;> repeat' split at h
      all_goals exact .inl (by simpa using h.symm)
  | markClosed pc' =>
      cases pc' with
      | swapClosed => exact .inr (.inl rfl)
      | _ => exact .inr (.inr ⟨_, rfl, by simp⟩)

/-- `mark_closed` goes past its swap with `closed` set. -/
def ClosedPastSwap (c : Conn) : Prop :=
  ∀ t ∈ c.tasks, ∀ pc, t.call = some (.markClosed pc) → pc = .swapClosed ∨ c.shared.closed = true

theorem closedPastSwap_step (hI : ClosedPastSwap c) (h : program.step c e = some c') :
    ClosedPastSwap c' := by
  have hg := step_grows h
  have hold : ∀ t ∈ c.tasks, ∀ pc, t.call = some (.markClosed pc) → pc = .swapClosed ∨
      c'.shared.closed = true := fun t ht pc hpc => (hI t ht pc hpc).imp_right hg.closed
  intro u hu pc hpc
  rcases step_cases h with ⟨i, b, call, rfl, ht, rfl⟩ | ⟨i, a, b, s', t', new, rfl, ht, hb, rfl⟩ |
    ⟨t, rfl, ht, rfl⟩
  · rcases mem_of_mem_set_append hu with rfl | hu | hu
    · rcases callStep_markClosed hpc with hs | hc | ⟨pc', rfl, hne⟩
      · exact .inl hs
      · exact .inr hc
      · exact .inr ((hold _ (List.mem_of_getElem? ht) pc' rfl).resolve_left hne)
    · exact hold u hu pc hpc
    · rw [callStep_new u hu] at hpc
      cases hpc
  · rw [(bodyStep_frame hb).new] at hu
    rcases mem_of_mem_set_append hu with rfl | hu | hu
    · exact .inl ((bodyStep_frame hb).entry _ hpc)
    · exact hold u hu pc hpc
    · cases hu
  · rcases List.mem_append.mp hu with hu | hu
    · exact hold u hu pc hpc
    · rw [List.mem_singleton.mp hu] at hpc
      rcases start_call ht with hc | hc | ⟨-, hc⟩ <;> rw [hc] at hpc <;> cases hpc
      exact .inl rfl

/-! ### Readers read transports that were attached -/

/-- The generation that an attach has taken. -/
def Call.attachGen : Call → Option Nat
  | .attach (.takeReader gen) | .attach (.sendAttach gen) | .attach (.storeAttached gen)
  | .attach (.signalSend gen) | .attach (.spawnReader gen) | .attach (.storeReader gen _) => some gen
  | _ => none

/-- The generation of a reader, or of an attach that has taken one, is the generation of an attach. -/
def GenAttached (s : Shared) (t : Task) : Prop :=
  (∀ gen pc, t.body = .reader gen pc → gen ∈ s.attachGens) ∧
    ∀ call, t.call = some call → ∀ gen, call.attachGen = some gen → gen ∈ s.attachGens

theorem GenAttached.grows {s s' : Shared} {t : Task} (hg : Grows s s') (h : GenAttached s t) :
    GenAttached s' t :=
  ⟨fun gen pc hb => hg.attachGens (h.1 gen pc hb),
    fun call hc gen hgen => hg.attachGens (h.2 call hc gen hgen)⟩

theorem Call.Entry.attachGen {call : Call} (h : call.Entry) : call.attachGen = none := by
  cases call with
  | attach pc => cases h; rfl
  | detach gen abortReader pc => rfl
  | markClosed pc => rfl

/-- An attach goes on with the generation it took, and starts a reader of it. -/
theorem genAttached_callStep {s : Shared} {b : Body} {call : Call} (n : Nat)
    (h : GenAttached s ⟨b, some call⟩) :
    GenAttached (s.callStep n call).1 ⟨b, (s.callStep n call).2.1⟩ ∧
      ∀ t ∈ (s.callStep n call).2.2, GenAttached (s.callStep n call).1 t := by
  have hg := callStep_grows s n call
  have hbody : ∀ gen pc, b = .reader gen pc → gen ∈ (s.callStep n call).1.attachGens :=
    fun gen pc hb => hg.attachGens (h.1 gen pc hb)
  cases call with
  | attach pc =>
      -- Before `fetch_add` the call names no generation; after it, the one it has listed.
      have hgen := h.2 _ rfl
      cases pc with
      | checkClosed =>
          refine ⟨⟨hbody, fun call hc gen hcg => ?_⟩, by simp [Shared.callStep, Shared.attachStep]⟩
          simp only [Shared.callStep, Shared.attachStep] at hc
          split at hc <;> cases hc
          cases hcg
      | fetchAdd =>
          refine ⟨⟨hbody, fun call hc gen hcg => ?_⟩, by simp [Shared.callStep, Shared.attachStep]⟩
          cases hc
          cases hcg
          exact List.mem_cons_self
      | spawnReader gen =>
          refine ⟨⟨hbody, fun call hc gen hcg => ?_⟩, fun t ht => ?_⟩
          · cases hc
            cases hcg
            exact hgen gen rfl
          · rw [List.mem_singleton.mp ht]
            refine ⟨fun gen pc hb => ?_, fun call hc => by cases hc⟩
            cases hb
            exact hgen gen rfl
      | storeReader gen reader => exact ⟨⟨hbody, fun call hc => by cases hc⟩, by
          simp [Shared.callStep, Shared.attachStep]⟩
      | _ =>
          refine ⟨⟨hbody, fun call hc gen hcg => ?_⟩, by simp [Shared.callStep, Shared.attachStep]⟩
          cases hc
          cases hcg
          exact hgen _ rfl
  | detach gen abortReader pc =>
      refine ⟨⟨hbody, ?_⟩, ?_⟩
      · cases pc <;> simp only [Shared.callStep, Shared.detachStep] <;> repeat' split
        all_goals simp [Call.attachGen]
      · cases pc <;> simp only [Shared.callStep, Shared.detachStep] <;> repeat' split
        all_goals simp [GenAttached]
  | markClosed pc =>
      refine ⟨⟨hbody, ?_⟩, by cases pc <;> simp [Shared.callStep, Shared.markClosedStep]⟩
      cases pc <;> simp only [Shared.callStep, Shared.markClosedStep] <;> repeat' split
      all_goals simp [Call.attachGen]

theorem reader_of_kind {b : Body} {gen : Nat} (h : b.kind = .reader gen .ended) :
    ∃ pc, b = .reader gen pc := by
  cases b with
  | reader gen' pc =>
      cases h
      exact ⟨pc, rfl⟩
  | _ => cases h

theorem genAttached_step (hI : ∀ t ∈ c.tasks, GenAttached c.shared t)
    (h : program.step c e = some c') : ∀ t ∈ c'.tasks, GenAttached c'.shared t := by
  have hg := step_grows h
  intro u hu
  rcases step_cases h with ⟨i, b, call, rfl, ht, rfl⟩ | ⟨i, a, b, s', t', new, rfl, ht, hb, rfl⟩ |
    ⟨t, rfl, ht, rfl⟩
  · obtain ⟨hnext, hnew⟩ :=
      genAttached_callStep c.tasks.length (hI _ (List.mem_of_getElem? ht))
    rcases mem_of_mem_set_append hu with rfl | hu | hu
    · exact hnext
    · exact (hI u hu).grows hg
    · exact hnew u hu
  · have hf := bodyStep_frame hb
    rw [hf.new] at hu
    rcases mem_of_mem_set_append hu with rfl | hu | hu
    · refine ⟨fun gen pc hb' => ?_, fun call hc gen hcg => ?_⟩
      · obtain ⟨pc', rfl⟩ := reader_of_kind (hf.kind.symm.trans (congrArg Body.kind hb'))
        exact hg.attachGens ((hI _ (List.mem_of_getElem? ht)).1 gen pc' rfl)
      · rw [(hf.entry _ hc).attachGen] at hcg
        cases hcg
    · exact (hI u hu).grows hg
    · cases hu
  · rcases List.mem_append.mp hu with hu | hu
    · exact hI u hu
    · rw [List.mem_singleton.mp hu]
      simp only [Shared.start, Bool.or_eq_true, decide_eq_true_eq, Bool.and_eq_true] at ht
      rcases ht with (rfl | rfl) | ⟨-, rfl⟩ <;> simp [GenAttached, Call.attachGen]

end AdaptiveMsg.Lifecycle
