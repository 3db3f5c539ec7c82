import AdaptiveMsg.Lifecycle.Steps

/-!
# Lifecycle — the abort handle of the reader

`attach_transport_parts` spawns a reader and stores its handle in two steps, and `detach_transport`
takes the stored handle before it looks whose it is.  No reader escapes its handle in the runs in
which no step loses one (`HandlesKept`): `readers_held`.  A detach whose generation is stale when it
takes the handle loses the next reader's: `reader_escapes`.
-/

namespace AdaptiveMsg.Lifecycle

open Machine.Pool (Program Event mem_set_self mem_of_mem_set_append of_getElem?_set_append)

/-! ### Readers and handles -/

/-- A reader that has not ended. -/
def Task.reading (t : Task) : Bool :=
  match t.body with
  | .reader _ .ended => false
  | .reader _ _ => true
  | _ => false

/-- A call of `mark_closed` that has yet to take the handle. -/
def Task.takesReader (t : Task) : Bool :=
  match t.call with
  | some (.markClosed .storeDetached) | some (.markClosed .abortWriter)
  | some (.markClosed .takeReader) => true
  | _ => false

/-- Task `i` is a reader that has neither ended nor been aborted. -/
def Conn.Live (c : Conn) (i : Nat) : Prop :=
  c.tasks[i]?.any Task.reading = true ∧ i ∉ c.shared.aborted

instance (c : Conn) (i : Nat) : Decidable (c.Live i) := inferInstanceAs (Decidable (_ ∧ _))

/-- The operation leaves every live reader its handle, and none to a closed connection. -/
def Conn.KeepsHandles (c : Conn) : Call → Prop
  | .attach (.storeReader _ reader) =>
    (∀ h ∈ c.shared.currentReaderAbort, ¬c.Live h.2) ∧
      (c.shared.closed = true → c.Live reader → ∃ t ∈ c.tasks, t.takesReader = true)
  | .detach gen true .takeReader => ∀ h ∈ c.shared.currentReaderAbort, h.1 ≠ gen → ¬c.Live h.2
  | _ => True

instance (c : Conn) : ∀ call, Decidable (c.KeepsHandles call)
  | .attach (.storeReader _ reader) => inferInstanceAs (Decidable
    ((∀ h ∈ c.shared.currentReaderAbort, ¬c.Live h.2) ∧
      (c.shared.closed = true → c.Live reader → ∃ t ∈ c.tasks, t.takesReader = true)))
  | .detach gen true .takeReader => inferInstanceAs (Decidable
    (∀ h ∈ c.shared.currentReaderAbort, h.1 ≠ gen → ¬c.Live h.2))
  | .attach .checkClosed | .attach .fetchAdd | .attach (.takeReader _) | .attach (.sendAttach _)
  | .attach (.storeAttached _) | .attach (.signalSend _) | .attach (.spawnReader _)
  | .detach _ false _ | .detach _ true .checkClosed | .detach _ true .compareExchange
  | .detach _ true .storeDetached | .detach _ true .sendDetach | .detach _ true .recover
  | .markClosed _ => isTrue (by simp [Conn.KeepsHandles])

/-- An attach stores its reader's handle over none but that of a reader that ended or was aborted,
and not after `mark_closed` has taken the handle; a detach that aborts takes no other live reader's
handle. -/
def HandlesKept (c : Conn) (e : Event Task Act) : Prop :=
  ∀ t ∈ c.moving e, ∀ call ∈ t.call, c.KeepsHandles call

instance (c : Conn) (e : Event Task Act) : Decidable (HandlesKept c e) :=
  inferInstanceAs (Decidable (∀ t ∈ c.moving e, _))

/-! ### The invariant -/

structure HandleInv (c : Conn) : Prop where
  /-- The handle of a live reader is stored, or its attach is about to. -/
  stored : ∀ i, c.Live i → (∃ gen, c.shared.currentReaderAbort = some (gen, i)) ∨
    ∃ t ∈ c.tasks, ∃ gen, t.call = some (.attach (.storeReader gen i))
  spawned : ∀ t ∈ c.tasks, ∀ gen i, t.call = some (.attach (.storeReader gen i)) → i < c.tasks.length
  bound : ∀ h ∈ c.shared.currentReaderAbort, h.2 < c.tasks.length
  closed : c.shared.closed = true → (∃ t ∈ c.tasks, t.takesReader = true) ∨
    ∀ h ∈ c.shared.currentReaderAbort, ¬c.Live h.2

variable {c c' : Conn} {e : Event Task Act} {i : Nat}

/-- What an operation does with the handle. -/
theorem callStep_handle (s : Shared) (n : Nat) (call : Call) :
    (s.callStep n call).1.currentReaderAbort = s.currentReaderAbort ∨
    (∃ gen reader, call = .attach (.storeReader gen reader) ∧
      (s.callStep n call).1.currentReaderAbort = some (gen, reader)) ∨
    ((s.callStep n call).1.currentReaderAbort = none ∧
      ∀ h ∈ s.currentReaderAbort, h.2 ∈ (s.callStep n call).1.aborted ∨
        ∃ gen, call = .detach gen true .takeReader ∧ h.1 ≠ gen) := by
  cases call with
  | attach pc =>
      cases pc with
      | takeReader gen =>
          refine .inr (.inr ⟨rfl, fun h hh => .inl ?_⟩)
          simp [Shared.callStep, Shared.attachStep, Shared.takeReader, Option.mem_def.1 hh]
      | storeReader gen reader => exact .inr (.inl ⟨gen, reader, rfl, rfl⟩)
      | _ => exact .inl rfl
  | detach gen abortReader pc =>
      cases pc with
      | takeReader =>
          cases abortReader with
          | false => exact .inl rfl
          | true =>
              refine .inr (.inr ⟨rfl, fun h hh => ?_⟩)
              by_cases hg : gen = h.1
              · left
                simp [Shared.callStep, Shared.detachStep, Shared.takeReader, Option.mem_def.1 hh, hg]
              · exact .inr ⟨gen, rfl, fun heq => hg heq.symm⟩
      | _ =>
          refine .inl ?_
          simp only [Shared.callStep, Shared.detachStep]
          repeat' split
          all_goals rfl
  | markClosed pc =>
      cases pc with
      | takeReader =>
          refine .inr (.inr ⟨rfl, fun h hh => .inl ?_⟩)
          simp [Shared.callStep, Shared.markClosedStep, Shared.takeReader, Option.mem_def.1 hh]
      | _ => exact .inl rfl

/-- A reader is started by an attach, which then stores its handle. -/
theorem callStep_reading {s : Shared} {n : Nat} {call : Call} {t : Task}
    (ht : t ∈ (s.callStep n call).2.2) (hr : t.reading = true) :
    ∃ gen, call = .attach (.spawnReader gen) := by
  cases call with
  | attach pc =>
      cases pc <;> simp only [Shared.callStep, Shared.attachStep, List.not_mem_nil] at ht
      exact ⟨_, rfl⟩
  | detach gen abortReader pc =>
      cases pc <;> simp only [Shared.callStep, Shared.detachStep] at ht <;> repeat' split at ht
      all_goals simp only [List.not_mem_nil, List.mem_singleton] at ht
      all_goals subst ht
      all_goals cases hr
  | markClosed pc => cases pc <;> simp [Shared.callStep, Shared.markClosedStep] at ht

/-- A reader that has ended stays so. -/
theorem bodyStep_reading {s s' : Shared} {j : Nat} {b : Body} {a : Act} {t' : Task}
    {new : List Task} (h : s.bodyStep j b a = some (s', t', new)) (hr : t'.reading = true) :
    Task.reading ⟨b, none⟩ = true := by
  have hk := (bodyStep_frame h).kind
  obtain ⟨b', call'⟩ := t'
  cases b with
  | reader gen pc =>
      cases pc with
      | ended => cases a <;> cases h
      | _ => rfl
  | _ => cases b' <;> first | cases hk; done | cases hr

/-- A reader that is live after a step was so before, or its attach has just spawned it. -/
theorem live_step (h : program.step c e = some c') (hl : c'.Live i) :
    c.Live i ∨ (c.tasks.length ≤ i ∧
      ∃ t ∈ c'.tasks, ∃ gen, t.call = some (.attach (.storeReader gen i))) := by
  obtain ⟨hlive, hab⟩ := hl
  have hab₀ : i ∉ c.shared.aborted := fun hm => hab ((step_grows h).aborted hm)
  obtain ⟨u, hu, hr⟩ := (Option.any_eq_true _ _).1 hlive
  rcases step_cases h with ⟨j, b, call, rfl, ht, rfl⟩ | ⟨j, a, b, s', t', new, rfl, ht, hb, rfl⟩ |
    ⟨t, rfl, ht, rfl⟩
  · rcases of_getElem?_set_append hu with ⟨rfl, rfl⟩ | ⟨-, hu⟩ | ⟨hle, hu⟩
    · exact .inl ⟨by rw [ht]; exact hr, hab₀⟩
    · exact .inl ⟨by rw [hu]; exact hr, hab₀⟩
    · obtain ⟨gen, rfl⟩ := callStep_reading (List.mem_of_getElem? hu) hr
      refine .inr ⟨hle, _, List.mem_append_left _ (mem_set_self ht), gen, ?_⟩
      have hi : i - c.tasks.length = 0 := by
        obtain ⟨hlt, -⟩ := List.getElem?_eq_some_iff.1 hu
        simpa [Shared.callStep, Shared.attachStep] using hlt
      have hi : i = c.tasks.length := by omega
      rw [hi]
      rfl
  · have hf := bodyStep_frame hb
    rcases of_getElem?_set_append hu with ⟨rfl, rfl⟩ | ⟨-, hu⟩ | ⟨-, hu⟩
    · exact .inl ⟨by rw [ht]; exact bodyStep_reading hb hr, hab₀⟩
    · exact .inl ⟨by rw [hu]; exact hr, hab₀⟩
    · rw [hf.new] at hu
      cases hu
  · by_cases hi : i < c.tasks.length
    · rw [List.getElem?_append_left hi] at hu
      exact .inl ⟨by rw [hu]; exact hr, hab₀⟩
    · rw [List.getElem?_append_right (Nat.le_of_not_lt hi)] at hu
      rw [List.mem_singleton.1 (List.mem_of_getElem? hu)] at hr
      simp only [Shared.start, Bool.or_eq_true, decide_eq_true_eq, Bool.and_eq_true] at ht
      rcases ht with (rfl | rfl) | ⟨-, rfl⟩ <;> cases hr

/-- A live reader's handle is stored until another step than those that `HandlesKept` excludes
aborts it. -/
theorem handle_step {gen : Nat} (hC : HandlesKept c e) (h : program.step c e = some c')
    (hs : c.shared.currentReaderAbort = some (gen, i)) (hl : c'.Live i) (hl₀ : c.Live i) :
    c'.shared.currentReaderAbort = some (gen, i) := by
  rcases step_cases h with ⟨j, b, call, rfl, ht, rfl⟩ | ⟨j, a, b, s', t', new, rfl, ht, hb, rfl⟩ |
    ⟨t, rfl, ht, rfl⟩
  · have hC := hC _ ht call rfl
    rcases callStep_handle c.shared c.tasks.length call with hsame | ⟨g, r, rfl, -⟩ | ⟨-, hgone⟩
    · exact hsame.trans hs
    · exact absurd hl₀ (hC.1 _ hs)
    · rcases hgone _ hs with hab | ⟨g, rfl, hne⟩
      · exact absurd hab hl.2
      · exact absurd hl₀ (hC _ hs hne)
  · exact (bodyStep_frame hb).currentReaderAbort.trans hs
  · exact hs

theorem handleInv_stored (hI : HandleInv c) (hC : HandlesKept c e) (h : program.step c e = some c') :
    ∀ i, c'.Live i → (∃ gen, c'.shared.currentReaderAbort = some (gen, i)) ∨
      ∃ t ∈ c'.tasks, ∃ gen, t.call = some (.attach (.storeReader gen i)) := by
  intro i hl
  rcases live_step h hl with hl₀ | ⟨-, hnew⟩
  · rcases hI.stored i hl₀ with ⟨gen, hs⟩ | ⟨t, ht, gen, hc⟩
    · exact .inl ⟨gen, handle_step hC h hs hl hl₀⟩
    · rcases Program.step_exists h ht with ht | ⟨j, a, s', t', new, rfl, hj, hm, rfl⟩
      · exact .inr ⟨t, ht, gen, hc⟩
      · obtain ⟨b, call⟩ := t
        cases hc
        obtain ⟨rfl, -, -⟩ := move_call hm
        exact .inl ⟨gen, rfl⟩
  · exact .inr hnew

theorem handleInv_spawned (hI : HandleInv c) (h : program.step c e = some c') :
    ∀ t ∈ c'.tasks, ∀ gen i, t.call = some (.attach (.storeReader gen i)) → i < c'.tasks.length := by
  have hlen := Program.step_length h
  intro u hu gen i hc
  rcases step_cases h with ⟨j, b, call, rfl, ht, rfl⟩ | ⟨j, a, b, s', t', new, rfl, ht, hb, rfl⟩ |
    ⟨t, rfl, ht, rfl⟩
  · rcases mem_of_mem_set_append hu with rfl | hu | hu
    · obtain ⟨pc, rfl⟩ := callStep_attach hc
      cases pc <;> simp only [Shared.callStep, Shared.attachStep] at hc <;> repeat' split at hc
      all_goals cases hc
      simp [Shared.callStep, Shared.attachStep]
    · exact Nat.lt_of_lt_of_le (hI.spawned u hu gen i hc) hlen
    · rw [callStep_new u hu] at hc
      cases hc
  · have hf := bodyStep_frame hb
    rw [hf.new] at hu
    rcases mem_of_mem_set_append hu with rfl | hu | hu
    · cases hf.entry _ hc
    · exact Nat.lt_of_lt_of_le (hI.spawned u hu gen i hc) hlen
    · cases hu
  · rcases List.mem_append.mp hu with hu | hu
    · exact Nat.lt_of_lt_of_le (hI.spawned u hu gen i hc) hlen
    · rw [List.mem_singleton.mp hu] at hc
      rcases start_call ht with hc' | hc' | ⟨-, hc'⟩ <;> rw [hc'] at hc <;> cases hc

/-- The handle after a step, unless it is the one before. -/
theorem handle_cases (h : program.step c e = some c') :
    c'.shared.currentReaderAbort = c.shared.currentReaderAbort ∨ c'.shared.currentReaderAbort = none ∨
      ∃ j b gen reader, e = .task j .run ∧
        c.tasks[j]? = some ⟨b, some (.attach (.storeReader gen reader))⟩ ∧
        c'.shared.currentReaderAbort = some (gen, reader) := by
  rcases step_cases h with ⟨j, b, call, rfl, ht, rfl⟩ | ⟨j, a, b, s', t', new, rfl, -, hb, rfl⟩ |
    ⟨t, rfl, -, rfl⟩
  · rcases callStep_handle c.shared c.tasks.length call with hsame | ⟨g, r, rfl, hs⟩ | ⟨hnone, -⟩
    · exact .inl hsame
    · exact .inr (.inr ⟨j, b, g, r, rfl, ht, hs⟩)
    · exact .inr (.inl hnone)
  · exact .inl (bodyStep_frame hb).currentReaderAbort
  · exact .inl rfl

theorem handleInv_bound (hI : HandleInv c) (h : program.step c e = some c') :
    ∀ h ∈ c'.shared.currentReaderAbort, h.2 < c'.tasks.length := by
  have hlen := Program.step_length h
  intro x hx
  rcases handle_cases h with hsame | hnone | ⟨j, b, gen, reader, -, ht, hs⟩
  · exact Nat.lt_of_lt_of_le (hI.bound x (hsame ▸ hx)) hlen
  · simp [hnone] at hx
  · obtain rfl : (gen, reader) = x := by simpa [hs] using hx
    exact Nat.lt_of_lt_of_le (hI.spawned _ (List.mem_of_getElem? ht) gen reader rfl) hlen

theorem callStep_closed (s : Shared) (n : Nat) (call : Call) :
    (s.callStep n call).1.closed = s.closed ∨ call = .markClosed .swapClosed := by
  cases call with
  | attach pc => cases pc <;> exact .inl rfl
  | detach gen abortReader pc =>
      refine .inl ?_
      cases pc <;> simp only [Shared.callStep, Shared.detachStep] <;> repeat' split
      all_goals rfl
  | markClosed pc => cases pc <;> first | exact .inr rfl | exact .inl rfl

theorem handleInv_closed (hI : HandleInv c) (hC : HandlesKept c e) (h : program.step c e = some c')
    (hcl : c'.shared.closed = true) : (∃ t ∈ c'.tasks, t.takesReader = true) ∨
      ∀ h ∈ c'.shared.currentReaderAbort, ¬c'.Live h.2 := by
  have hdead : ∀ i, i < c.tasks.length → ¬c.Live i → ¬c'.Live i := fun i hi hnl hl =>
    (live_step h hl).elim hnl fun hnew => absurd hi (Nat.not_lt.2 hnew.1)
  by_cases hcl₀ : c.shared.closed = true
  · rcases hI.closed hcl₀ with ⟨t, ht, htk⟩ | hdead₀
    · rcases Program.step_exists h ht with ht | ⟨j, a, s', t', new, rfl, hj, hm, rfl⟩
      · exact .inl ⟨t, ht, htk⟩
      · -- `mark_closed` goes on until it has taken the handle.
        obtain ⟨b, call⟩ := t
        unfold Task.takesReader at htk
        split at htk
        · rename_i hc
          cases hc
          obtain ⟨-, rfl, -⟩ := move_call hm
          exact .inl ⟨_, List.mem_append_left _ (mem_set_self hj), rfl⟩
        · rename_i hc
          cases hc
          obtain ⟨-, rfl, -⟩ := move_call hm
          exact .inl ⟨_, List.mem_append_left _ (mem_set_self hj), rfl⟩
        · rename_i hc
          cases hc
          obtain ⟨rfl, -, -⟩ := move_call hm
          exact .inr nofun
        · cases htk
    · rcases handle_cases h with hsame | hnone | ⟨j, b, gen, reader, rfl, ht, hs⟩
      · exact .inr fun x hx => hdead _ (hI.bound x (hsame ▸ hx)) (hdead₀ x (hsame ▸ hx))
      · exact .inr fun x hx => by simp [hnone] at hx
      · by_cases hl : c.Live reader
        · obtain ⟨t, htm, htk⟩ := (hC _ ht _ rfl).2 hcl₀ hl
          rcases Program.step_exists h htm with htm | ⟨_, _, _, _, _, he, hj, -, -⟩
          · exact .inl ⟨t, htm, htk⟩
          · cases he
            cases ht.symm.trans hj
            cases htk
        · refine .inr fun x hx => ?_
          obtain rfl : (gen, reader) = x := by simpa [hs] using hx
          exact hdead _ (hI.spawned _ (List.mem_of_getElem? ht) gen reader rfl) hl
  · rcases step_cases h with ⟨j, b, call, rfl, ht, rfl⟩ | ⟨j, a, b, s', t', new, rfl, -, hb, rfl⟩ |
      ⟨t, rfl, -, rfl⟩
    · rcases callStep_closed c.shared c.tasks.length call with hsame | rfl
      · exact absurd (hsame.symm.trans hcl) hcl₀
      · refine .inl ⟨_, List.mem_append_left _ (mem_set_self ht), ?_⟩
        simp [Shared.callStep, Shared.markClosedStep, Task.takesReader, hcl₀]
    · exact absurd ((bodyStep_frame hb).closed.symm.trans hcl) hcl₀
    · exact absurd hcl hcl₀

/-! ### The result -/

theorem handleInv_reachable {role : RecoveryRole} (h : (machine role).ReachableUnder HandlesKept c) :
    HandleInv c := by
  refine h.invariant ?_ fun _ _ _ hI hC hs =>
    ⟨handleInv_stored hI hC hs, handleInv_spawned hI hs, handleInv_bound hI hs,
      handleInv_closed hI hC hs⟩
  rintro _ ⟨ttl, rfl⟩
  refine ⟨fun i hl => .inl ⟨1, ?_⟩, by simp [started], by simp [started], nofun⟩
  match i with
  | 0 => cases hl.1
  | 1 => rfl
  | i + 2 => cases hl.1

/-- With no attach, detach or close in progress, the one live reader is the one whose handle is
stored, and a closed connection has none. -/
def ReadersHeld (c : Conn) : Prop :=
  (∀ t ∈ c.tasks, t.call = none) →
    (∀ i, c.Live i → ∃ gen, c.shared.currentReaderAbort = some (gen, i)) ∧
      (∀ i j, c.Live i → c.Live j → i = j) ∧ (c.shared.closed = true → ∀ i, ¬c.Live i)

/-- **No reader escapes its abort handle**, in the runs in which no step loses a handle. -/
theorem readers_held {role : RecoveryRole} (h : (machine role).ReachableUnder HandlesKept c) :
    ReadersHeld c := by
  intro hquiet
  have hI := handleInv_reachable h
  have hstored : ∀ i, c.Live i → ∃ gen, c.shared.currentReaderAbort = some (gen, i) := by
    intro i hl
    rcases hI.stored i hl with hs | ⟨t, ht, gen, hc⟩
    · exact hs
    · rw [hquiet t ht] at hc
      cases hc
  refine ⟨hstored, fun i j hi hj => ?_, fun hcl i hi => ?_⟩
  · obtain ⟨gen, hs⟩ := hstored i hi
    obtain ⟨gen', hs'⟩ := hstored j hj
    cases hs.symm.trans hs'
    rfl
  · rcases hI.closed hcl with ⟨t, ht, htk⟩ | hdead
    · rw [Task.takesReader, hquiet t ht] at htk
      cases htk
    · obtain ⟨gen, hs⟩ := hstored i hi
      exact hdead _ hs hi

/-- A resume attaches its transport. -/
def resumeRun (i : Nat) : List (Event Task Act) :=
  .start ⟨.resume, some (.attach .checkClosed)⟩ :: List.replicate 8 (.task i .run)

def resumedOnce : Conn where
  shared := { (started .server 30).shared with
    transportGen := 2, currentReaderAbort := some (2, 3), writerCmd := [.attach 1, .attach 2]
    aborted := [1], attachGens := [2, 1] }
  tasks := (started .server 30).tasks ++ [⟨.resume, none⟩, ⟨.reader 2 .reading, none⟩]

theorem readers_held_resumedOnce :
    resumedOnce.Live 3 ∧ ∃ gen, resumedOnce.shared.currentReaderAbort = some (gen, 3) := by
  have hlive : resumedOnce.Live 3 := by decide
  have hr : (machine .server).ReachableUnder HandlesKept resumedOnce :=
    .exec (resumeRun 2) (.init ⟨30, rfl⟩) rfl (by decide)
  exact ⟨hlive, (readers_held hr (by decide)).1 3 hlive⟩

/-- The writer fails and detaches; before it takes the handle, a resume stores its reader's. -/
def escapeRun : List (Event Task Act) :=
  Event.task 0 Act.run :: .task 0 .fail :: List.replicate 3 (.task 0 .run) ++ resumeRun 2 ++
    List.replicate 3 (Event.task 0 Act.run)

def escapedServer : Conn where
  shared := { (started .server 30).shared with
    transportGen := 3, currentReaderAbort := none, writerCmd := [.attach 3, .detach 1]
    aborted := [1], attachGens := [3, 1] }
  tasks := [⟨.writer 1 false false, none⟩, ⟨.reader 1 .reading, none⟩, ⟨.resume, none⟩,
    ⟨.reader 3 .reading, none⟩, ⟨.timer 2 .sleeping, none⟩]

theorem reader_escapes : ¬∀ c, (machine .server).Reachable c → ReadersHeld c := by
  intro hall
  have hr : (machine .server).Reachable escapedServer :=
    Machine.reachable_of_exec escapeRun ⟨30, rfl⟩ rfl
  obtain ⟨gen, hs⟩ := (hall _ hr (by decide)).1 3 (by decide)
  cases hs

end AdaptiveMsg.Lifecycle
