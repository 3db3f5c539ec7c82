import AdaptiveMsg.Server.Shutdown
import Mathlib.Data.List.Nodup

/-!
# Server — the recovery registry keeps the connections that can be resumed

`recovery_conns` gets an entry in `attach_new`, before the connection it names has started, and
loses it where the attach fails or where the connection runs `on_closed`.  `Registered` says whose
entry each one is: of a task that attaches its connection, of an open connection, or of a closed one
whose `on_closed` has yet to run.

`registry_sound`: in every run that draws tokens not in use, an open recovery connection is the one
its `connection_id` names, whoever closes it and whatever attaches fail; an entry of a closed
connection is about to be removed; and `serve_with_accept` returns with no other entry left.
-/

namespace AdaptiveMsg.Server

open Machine.Pool (Program Event)

/-! ### Maps as lists -/

section maps

variable {κ β : Type*} [BEq κ] [LawfulBEq κ] {l : List (κ × β)} {k : κ} {v : β}

theorem mem_eraseP_key (hl : (l.map Prod.fst).Nodup) {e : κ × β} :
    e ∈ l.eraseP (fun e => k == e.1) ↔ e ∈ l ∧ e.1 ≠ k := by
  induction l with
  | nil => simp
  | cons x l ih =>
      rw [List.map_cons, List.nodup_cons] at hl
      by_cases hk : k = x.1
      · -- The entry of `k` is erased, and no other has its key.
        rw [List.eraseP_cons_of_pos (by simpa using hk), List.mem_cons]
        refine ⟨fun h => ⟨.inr h, fun hke => hl.1 ?_⟩, fun ⟨h, hne⟩ => h.resolve_left ?_⟩
        · exact hk ▸ hke ▸ List.mem_map_of_mem h
        · rintro rfl
          exact hne hk.symm
      · rw [List.eraseP_cons_of_neg (by simpa using hk), List.mem_cons, List.mem_cons, ih hl.2]
        refine ⟨?_, ?_⟩
        · rintro (rfl | ⟨h, hne⟩)
          · exact ⟨.inl rfl, Ne.symm hk⟩
          · exact ⟨.inr h, hne⟩
        · rintro ⟨rfl | h, hne⟩
          · exact .inl rfl
          · exact .inr ⟨h, hne⟩

theorem lookup_iff_mem (hl : (l.map Prod.fst).Nodup) : l.lookup k = some v ↔ (k, v) ∈ l := by
  induction l with
  | nil => simp
  | cons x l ih =>
      obtain ⟨k', v'⟩ := x
      rw [List.map_cons, List.nodup_cons] at hl
      rw [List.lookup_cons, List.mem_cons]
      split
      · rename_i hk
        obtain rfl := eq_of_beq hk
        have hnew : (k, v) ∉ l := fun h => hl.1 (List.mem_map.2 ⟨_, h, rfl⟩)
        simp [hnew, eq_comm]
      · rename_i hk
        rw [ih hl.2, Prod.mk.injEq]
        exact ⟨.inr, fun h => h.resolve_left fun h => by simp [h.1] at hk⟩

end maps

/-! ### Whose entry it is -/

/-- The connection ID that `attach_new` has registered and may have to remove. -/
def HandlePc.token : HandlePc → Option Nat
  | .writeNew token | .removeRecovery token => some token
  | .onConnect token | .startWithConfig token => token
  | _ => none

/-- The entry of the connection that the task attaches. -/
def Task.entry : Task → Option (Nat × Nat)
  | .handle i pc => pc.token.map (·, i)
  | _ => none

/-- The connection that the task has closed and whose `on_closed` is next. -/
def Task.leaves : Task → Option Nat
  | .handle i (.close pc) => if pc = .onClosed then some i else none
  | .close i pc | .outside i pc => if pc = some .onClosed then some i else none
  | _ => none

/-- The connections that the task serves or is given to close. -/
def Task.names : Task → List Nat
  | .serve (.spawn conns) => conns
  | .handle i pc => if pc.phase = .serving then [i] else []
  | .close i _ | .outside i _ => [i]
  | _ => []

/-- What a step may draw or start: connection IDs that are not in use, and closes of connections
that have started, as `start_with_config` is what hands them out. -/
def Fresh (c : State) : Event Task Act → Prop
  | .task _ (.token token) => ∀ e ∈ c.shared.recoveryConns, e.1 ≠ token
  | .start (.outside i _) => i ∈ c.shared.started
  | _ => True

instance (c : State) : ∀ ev, Decidable (Fresh c ev)
  | .task _ (.token token) =>
    inferInstanceAs (Decidable (∀ e ∈ c.shared.recoveryConns, e.1 ≠ token))
  | .start (.outside i _) => inferInstanceAs (Decidable (i ∈ c.shared.started))
  | .task _ .go | .task _ .fail | .task _ .signal | .task _ .accepted | .task _ (.acceptFailed _)
  | .task _ .stopped | .task _ (.config _) | .task _ (.request _) | .start (.serve _)
  | .start (.handle _ _) | .start (.close _ _) => inferInstanceAs (Decidable True)

/-- The connections are open and recoverable where they were. -/
def SameConns (s s' : Shared) : Prop :=
  ∀ j, (s'.conn j).recovery = (s.conn j).recovery ∧ s'.isClosed j = s.isClosed j

/-- What an operation does to the registry and to what its entries are about. -/
inductive Registers (s : Shared) : Task → Act → Shared → Task → Prop where
  | same {t t' : Task} {a : Act} {s' : Shared} (hr : s'.recoveryConns = s.recoveryConns)
      (hc : SameConns s s') (he : t'.entry = t.entry) (hl : t'.leaves = t.leaves) :
      Registers s t a s' t'
  | insert (i token : Nat) : Registers s (.handle i .insertRecovery) (.token token)
      (s.insertRecovery token i) (.handle i (.writeNew token))
  | remove (i token : Nat) : Registers s (.handle i (.removeRecovery token)) .go
      (s.removeRecovery token) (.handle i .closeNow)
  | start {i : Nat} {token : Option Nat} {s' : Shared} (hr : s'.recoveryConns = s.recoveryConns)
      (hs : s'.started = s.started ++ [i])
      (hc : s'.conns = (s.modify i fun conn => { conn with recovery := token }).conns) :
      Registers s (.handle i (.startWithConfig token)) .go s' (.handle i .track)
  | refuse {i : Nat} {s' : Shared} (hr : s'.recoveryConns = s.recoveryConns)
      (hc : s'.conns = (s.modify i fun conn => { conn with closed := true }).conns) :
      Registers s (.handle i .closeNow) .go s' (.handle i (.ended .refused))
  | mark {t t' : Task} {i : Nat} {s' : Shared} (hr : s'.recoveryConns = s.recoveryConns)
      (hc : s'.conns = (s.modify i fun conn => { conn with closed := true }).conns)
      (hn : i ∈ t.names) (hl : t.leaves = none ∧ t'.leaves = some i)
      (he : t.entry = none ∧ t'.entry = none) : Registers s t .go s' t'
  | leave {t t' : Task} {i : Nat} {s' : Shared}
      (hr : s'.recoveryConns = (s.onClosed i).recoveryConns) (hc : s'.conns = s.conns)
      (hn : i ∈ t.names) (hl : t.leaves = some i ∧ t'.leaves = none)
      (he : t.entry = none ∧ t'.entry = none) : Registers s t .go s' t'

section operations

variable {s s' : Shared} {i j : Nat} {a : Act} {t t' : Task} {new : List Task} {c c' : State}
  {ev : Event Task Act}

theorem SameConns.of_eq (h : s'.conns = s.conns) : SameConns s s' := by
  intro j
  simp only [Shared.isClosed, Shared.conn, h, and_self]

theorem conn_modify_default (s : Shared) (i j : Nat) (f : Conn → Conn) :
    (s.modify i f).conn j = if i = j ∧ j < s.conns.length then f (s.conn j) else s.conn j := by
  by_cases hj : j < s.conns.length
  · simpa [hj] using conn_modify s i j f hj
  · simp [Shared.conn, Shared.modify, hj]

theorem mem_removeRecovery (hk : (s.recoveryConns.map Prod.fst).Nodup) {token : Nat}
    {e : Nat × Nat} :
    e ∈ (s.removeRecovery token).recoveryConns ↔ e ∈ s.recoveryConns ∧ e.1 ≠ token :=
  mem_eraseP_key hk

theorem mem_insertRecovery (hk : (s.recoveryConns.map Prod.fst).Nodup) {token : Nat}
    {e : Nat × Nat} : e ∈ (s.insertRecovery token i).recoveryConns ↔
      e = (token, i) ∨ e ∈ s.recoveryConns ∧ e.1 ≠ token := by
  rw [Shared.insertRecovery, List.mem_cons, mem_eraseP_key hk]

/-- `on_closed` removes the entry of its connection, and no other. -/
theorem mem_onClosed (hk : (s.recoveryConns.map Prod.fst).Nodup) {e : Nat × Nat} :
    e ∈ (s.onClosed i).recoveryConns ↔
      e ∈ s.recoveryConns ∧ ¬(e.2 = i ∧ (s.conn i).recovery = some e.1) := by
  rw [Shared.onClosed]
  split
  · rename_i token hi
    rw [hi]
    split
    · rename_i hl
      have hmem := (lookup_iff_mem hk).1 hl
      rw [mem_removeRecovery hk]
      refine and_congr_right fun he => ⟨fun hne h => ?_, fun hne h => ?_⟩
      · exact hne (Option.some.inj h.2).symm
      · -- No other entry has the key.
        exact hne ⟨congrArg Prod.snd (List.inj_on_of_nodup_map hk he hmem h), congrArg some h.symm⟩
    · rename_i hl
      refine ⟨fun he => ⟨he, ?_⟩, And.left⟩
      rintro ⟨rfl, h⟩
      cases h
      exact hl ((lookup_iff_mem hk).2 he)
  · rename_i hi
    simp [hi]

theorem keys_removeRecovery (hk : (s.recoveryConns.map Prod.fst).Nodup) (token : Nat) :
    ((s.removeRecovery token).recoveryConns.map Prod.fst).Nodup :=
  hk.sublist (List.eraseP_sublist.map _)

theorem keys_insertRecovery (hk : (s.recoveryConns.map Prod.fst).Nodup) (token : Nat) :
    ((s.insertRecovery token i).recoveryConns.map Prod.fst).Nodup := by
  refine List.nodup_cons.2 ⟨fun h => ?_, keys_removeRecovery hk token⟩
  obtain ⟨e, he, h⟩ := List.mem_map.1 h
  exact ((mem_eraseP_key hk).1 he).2 h

theorem keys_onClosed (hk : (s.recoveryConns.map Prod.fst).Nodup) (i : Nat) :
    ((s.onClosed i).recoveryConns.map Prod.fst).Nodup := by
  rw [Shared.onClosed]
  split
  · split
    · exact keys_removeRecovery hk _
    · exact hk
  · exact hk

/-- What one operation of `close` does. -/
theorem closeStep_registers {pc : ClosePc} {r : Option ClosePc} (h : closeStep s i pc = (s', r)) :
    (s'.recoveryConns = s.recoveryConns ∧ SameConns s s' ∧ pc ≠ .onClosed ∧ r ≠ some .onClosed) ∨
      (s' = s.modify i (fun conn => { conn with closed := true }) ∧ pc = .mark ∧
        r = some .onClosed) ∨
      s' = s.onClosed i ∧ pc = .onClosed ∧ r = none := by
  cases pc with
  | swap =>
      cases h
      refine .inl ⟨rfl, fun j => ?_, by simp, by split <;> simp⟩
      rw [Shared.isClosed, conn_modify_default]
      split <;> exact ⟨rfl, rfl⟩
  | graceful =>
      cases h
      exact .inl ⟨rfl, .of_eq rfl, by simp, by simp⟩
  | mark =>
      simp only [closeStep] at h
      split at h <;> cases h
      · exact .inl ⟨rfl, .of_eq rfl, by simp, by simp⟩
      · exact .inr (.inl ⟨rfl, rfl, rfl⟩)
  | onClosed =>
      cases h
      exact .inr (.inr ⟨rfl, rfl, rfl⟩)

theorem handle_registers {pc pc' : HandlePc} (h : handleStep s i pc a = some (s', pc')) :
    Registers s (.handle i pc) a s' (.handle i pc') := by
  cases pc with
  | handshake =>
      cases a with
      | stopped =>
          simp only [handleStep] at h
          split at h <;> cases h
          exact .same rfl (.of_eq rfl) rfl rfl
      | fail =>
          cases h
          exact .same rfl (.of_eq rfl) rfl rfl
      | config config =>
          cases h
          refine .same rfl (.of_eq rfl) ?_ ?_ <;> split <;> rfl
      | _ => cases h
  | readAttach =>
      cases a with
      | stopped =>
          simp only [handleStep] at h
          split at h <;> cases h
          exact .same rfl (.of_eq rfl) rfl rfl
      | fail =>
          cases h
          exact .same rfl (.of_eq rfl) rfl rfl
      | request request => cases request <;> cases h <;> exact .same rfl (.of_eq rfl) rfl rfl
      | _ => cases h
  | insertRecovery =>
      cases a with
      | token token =>
          cases h
          exact .insert i token
      | _ => cases h
  | writeNew token | writeResume existing =>
      cases a with
      | go | fail =>
          cases h
          exact .same rfl (.of_eq rfl) rfl rfl
      | _ => cases h
  | removeRecovery token =>
      cases a with
      | go =>
          cases h
          exact .remove i token
      | _ => cases h
  | onConnect token =>
      cases a with
      | go =>
          cases h
          exact .same rfl (.of_eq rfl) rfl rfl
      | fail =>
          cases h
          cases token <;> exact .same rfl (.of_eq rfl) rfl rfl
      | _ => cases h
  | startWithConfig token =>
      cases a with
      | go =>
          cases h
          exact .start rfl rfl rfl
      | fail =>
          cases h
          cases token <;> exact .same rfl (.of_eq rfl) rfl rfl
      | _ => cases h
  | lookup connectionId authentic | rejectAttach | attachTransport existing =>
      cases a with
      | go =>
          cases h
          exact .same rfl (.of_eq rfl) rfl rfl
      | _ => cases h
  | check existing authentic =>
      cases a with
      | go =>
          cases h
          refine .same rfl (.of_eq rfl) ?_ ?_
          all_goals
            repeat' split
            all_goals rfl
      | _ => cases h
  | closeNow =>
      cases a with
      | go =>
          cases h
          exact .refuse rfl rfl
      | _ => cases h
  | track =>
      cases a with
      | go =>
          simp only [handleStep] at h
          split at h <;> cases h
          · obtain ⟨conns, -, rfl⟩ := track_some ‹_›
            exact .same rfl (.of_eq rfl) rfl rfl
          · exact .same rfl (.of_eq rfl) rfl rfl
      | _ => cases h
  | close pc =>
      cases a with
      | go =>
          have hn : i ∈ (Task.handle i (.close pc)).names := by simp [Task.names, HandlePc.phase]
          simp only [handleStep] at h
          split at h
          all_goals
            rename_i he
            cases h
            rcases closeStep_registers he with
              ⟨hr, hc, hpc, hpc'⟩ | ⟨rfl, rfl, hpc'⟩ | ⟨rfl, rfl, hpc'⟩
          · exact .same hr hc rfl (by simpa [Task.leaves, hpc] using hpc')
          · exact .mark rfl rfl hn (by simpa [Task.leaves] using hpc') ⟨rfl, rfl⟩
          · cases hpc'
          · exact .same hr hc rfl (by simp [Task.leaves, hpc])
          · cases hpc'
          · exact .leave rfl (onClosed_conns s i).1 hn (by simp [Task.leaves]) ⟨rfl, rfl⟩
      | _ => cases h
  | waitClosed =>
      cases a with
      | go =>
          simp only [handleStep] at h
          split at h <;> cases h
          exact .same rfl (.of_eq rfl) rfl rfl
      | _ => cases h
  | untrack | onDisconnect =>
      cases a with
      | go =>
          cases h
          exact .same rfl (.of_eq rfl) rfl rfl
      | _ => cases h
  | ended attached => cases a <;> cases h

theorem serve_registers {pc pc' : ServePc} (h : serveStep s pc a = some (s', pc', new)) :
    s'.recoveryConns = s.recoveryConns ∧ SameConns s s' := by
  cases pc with
  | accept =>
      cases a with
      | accepted =>
          cases h
          refine ⟨rfl, fun j => ?_⟩
          -- No connection is as a new one is.
          simp only [Shared.isClosed, Shared.conn, List.getD_eq_getElem?_getD]
          rcases Nat.lt_trichotomy j s.conns.length with hlt | rfl | hlt
          · simp [List.getElem?_append_left hlt]
          · simp
          · have hle : (s.conns ++ [(⟨none, false, false⟩ : Conn)]).length ≤ j := by
              rw [List.length_append]
              exact hlt
            rw [List.getElem?_eq_none hle, List.getElem?_eq_none hlt.le]
            exact ⟨rfl, rfl⟩
      | signal | acceptFailed peer =>
          cases h
          exact ⟨rfl, .of_eq rfl⟩
      | _ => cases h
  | backoff =>
      cases a with
      | signal | go =>
          cases h
          exact ⟨rfl, .of_eq rfl⟩
      | _ => cases h
  | stop =>
      cases a with
      | go =>
          cases h
          exact ⟨rfl, .of_eq rfl⟩
      | _ => cases h
  | spawn conns =>
      cases a with
      | go => cases conns <;> cases h <;> exact ⟨rfl, .of_eq rfl⟩
      | _ => cases conns <;> cases h
  | join =>
      cases a with
      | go =>
          simp only [serveStep] at h
          split at h <;> cases h
          exact ⟨rfl, .of_eq rfl⟩
      | _ => cases h
  | returned => cases a <;> cases h

theorem move_registers (h : move s t a = some (s', t', new)) : Registers s t a s' t' := by
  cases move_cases h with
  | serve hs => exact .same (serve_registers hs).1 (serve_registers hs).2 rfl rfl
  | handle hs => exact handle_registers hs
  | @close i pc pc' _ he =>
      rcases closeStep_registers he with ⟨hr, hc, hpc, hpc'⟩ | ⟨rfl, rfl, hpc'⟩ | ⟨rfl, rfl, hpc'⟩
      · exact .same hr hc rfl (by simpa [Task.leaves, hpc] using hpc')
      · exact .mark rfl rfl (by simp [Task.names]) (by simpa [Task.leaves] using hpc') ⟨rfl, rfl⟩
      · cases hpc'
  | @closed i pc s₁ he =>
      rcases closeStep_registers he with ⟨hr, hc, hpc, hpc'⟩ | ⟨rfl, rfl, hpc'⟩ | ⟨rfl, rfl, hpc'⟩
      · exact .same hr hc rfl (by simp [Task.leaves, hpc])
      · cases hpc'
      · exact .leave rfl (onClosed_conns s i).1 (by simp [Task.names]) (by simp [Task.leaves])
          ⟨rfl, rfl⟩
  | @outside i pc _ next he =>
      rcases closeStep_registers he with ⟨hr, hc, hpc, hpc'⟩ | ⟨rfl, rfl, rfl⟩ | ⟨rfl, rfl, rfl⟩
      · exact .same hr hc rfl (by simp [Task.leaves, hpc, hpc'])
      · exact .mark rfl rfl (by simp [Task.names]) (by simp [Task.leaves]) ⟨rfl, rfl⟩
      · exact .leave rfl (onClosed_conns s i).1 (by simp [Task.names]) (by simp [Task.leaves])
          ⟨rfl, rfl⟩

/-- What the tasks that an operation starts are about. -/
theorem move_new (h : move s t a = some (s', t', new)) {u : Task} (hu : u ∈ new) :
    u.entry = none ∧ u.leaves = none ∧ ∀ i ∈ u.names, i ∈ t.names := by
  cases move_cases h with
  | @serve pc pc' _ _ _ hs =>
      obtain ⟨-, -, -, ⟨rfl, -⟩ | ⟨rfl, -⟩ | ⟨i, rfl, -⟩⟩ := serve_effect hs
      · cases hu
      · rw [List.mem_singleton.1 hu]
        exact ⟨rfl, rfl, by simp [Task.names, HandlePc.phase]⟩
      · rw [List.mem_singleton.1 hu]
        refine ⟨rfl, by simp [Task.leaves], ?_⟩
        cases pc with
        | spawn conns =>
            cases a with
            | go =>
                cases conns with
                | nil => cases hs
                | cons k conns =>
                    cases hs
                    simp [Task.names]
            | _ => cases conns <;> cases hs
        | accept | backoff | stop | join | returned => cases a <;> simp [serveStep] at hs
  | handle | close | closed | outside => cases hu

end operations

/-! ### The invariant -/

/-- A task attaches the connection of the entry, or the connection has started with its ID and is
open or about to be removed. -/
def Owned (s : Shared) (tasks : List Task) (e : Nat × Nat) : Prop :=
  (∃ t ∈ tasks, t.entry = some e) ∨
    (s.conn e.2).recovery = some e.1 ∧ (s.isClosed e.2 = false ∨ ∃ t ∈ tasks, t.leaves = some e.2)

structure Registered (c : State) : Prop where
  recovery : ∀ i, (c.shared.conn i).recovery.isSome = true → i ∈ c.shared.started
  tracked : ∀ conns, c.shared.tracked = some conns → ∀ i ∈ conns, i ∈ c.shared.started
  names : ∀ t ∈ c.tasks, ∀ i ∈ t.names, i ∈ c.shared.started
  /-- A connection that has not started is open. -/
  unstarted : ∀ i pc, .handle i pc ∈ c.tasks → pc.phase = .unstarted → c.shared.isClosed i = false
  keys : (c.shared.recoveryConns.map Prod.fst).Nodup
  entering : ∀ t ∈ c.tasks, ∀ e, t.entry = some e → e ∈ c.shared.recoveryConns
  live : ∀ i token, (c.shared.conn i).recovery = some token → c.shared.isClosed i = false →
    (token, i) ∈ c.shared.recoveryConns
  entry : ∀ e ∈ c.shared.recoveryConns, Owned c.shared c.tasks e

section invariant

variable {s s' : Shared} {i j k : Nat} {a : Act} {t t' u : Task} {new : List Task} {c c' : State}
  {ev : Event Task Act}

theorem entry_unstarted {e : Nat × Nat} (h : t.entry = some e) :
    ∃ pc, t = .handle e.2 pc ∧ pc.token = some e.1 ∧ pc.phase = .unstarted := by
  cases t with
  | handle i pc =>
      obtain ⟨token, ht, rfl⟩ := Option.map_eq_some_iff.1 h
      refine ⟨pc, rfl, ht, ?_⟩
      cases pc with
      | writeNew | removeRecovery | onConnect | startWithConfig => rfl
      | _ => cases ht
  | serve | close | outside => cases h

/-- A connection that a task has yet to start has not started, and no other task has it. -/
theorem unstarted_alone {pc : HandlePc} (hA : Accounts c) (hk : c.tasks[k]? = some (.handle i pc))
    (hp : pc.phase = .unstarted) : i ∉ c.shared.started ∧
      ∀ j pc', c.tasks[j]? = some (.handle i pc') → pc'.phase = .unstarted → k = j := by
  have hone {pc : HandlePc} (hp : pc.phase = .unstarted) : (Task.handle i pc).unserved i = 1 := by
    simp [Task.unserved, hp]
  have hsum := hA.started i
  have hmade : c.shared.made i ≤ 1 := by
    rw [Shared.made]
    split <;> decide
  have hle : (Task.handle i pc).unserved i ≤ (c.tasks.map (Task.unserved i)).sum :=
    List.le_sum_of_mem (List.mem_map_of_mem (List.mem_of_getElem? hk))
  rw [hone hp] at hle
  refine ⟨fun hi => ?_, fun j pc' hj hp' => ?_⟩
  · have := List.count_pos_iff.2 hi
    omega
  · by_contra hkj
    -- With the one task out of the way, the other would still have the connection.
    have hset := Machine.Pool.sum_set_append (Task.unserved i) (.serve .accept) [] hk
    have hle' : (Task.handle i pc').unserved i ≤
        ((c.tasks.set k (.serve .accept) ++ []).map (Task.unserved i)).sum :=
      List.le_sum_of_mem (List.mem_map_of_mem
        (List.mem_of_getElem? (Machine.Pool.getElem?_set_append hj hkj)))
    rw [hone hp'] at hle'
    rw [hone hp] at hset
    simp only [Task.unserved, List.map_nil, List.sum_nil] at hset
    omega

theorem leaves_closed (ht : t.Ok s) (hl : t.leaves = some i) : s.isClosed i = true := by
  cases t with
  | serve pc => cases hl
  | handle j pc =>
      cases pc with
      | close pc =>
          obtain ⟨rfl, rfl⟩ : pc = .onClosed ∧ j = i := by simpa [Task.leaves] using hl
          exact ht.2 rfl
      | _ => cases hl
  | close j pc | outside j pc =>
      obtain ⟨hpc, rfl⟩ : pc = some .onClosed ∧ j = i := by simpa [Task.leaves] using hl
      exact ht.2 hpc

/-- The task that moves still names connections that have started. -/
theorem move_names (hR : Registered c) (ht : t ∈ c.tasks)
    (h : move c.shared t a = some (s', t', new)) : ∀ i ∈ t'.names, i ∈ s'.started := by
  have hold := hR.names t ht
  cases move_cases h with
  | @serve pc pc' _ _ _ hs =>
      rw [(serve_effect hs).2.1]
      cases pc with
      | stop =>
          cases a with
          | go =>
              cases hs
              intro i hi
              cases htr : c.shared.tracked with
              | none => simp [Task.names, htr] at hi
              | some conns => exact hR.tracked conns htr i (by simpa [Task.names, htr] using hi)
          | _ => cases hs
      | spawn conns =>
          cases a with
          | go =>
              cases conns with
              | nil =>
                  cases hs
                  simp [Task.names]
              | cons k conns =>
                  cases hs
                  exact fun i hi => hold i (List.mem_cons_of_mem _ hi)
          | _ => cases conns <;> cases hs
      | accept | backoff | returned =>
          cases a <;> first | cases hs; done | skip
          all_goals
            cases hs
            first | simp [Task.names]; done | (split <;> simp [Task.names])
      | join =>
          cases a with
          | go =>
              simp only [serveStep] at hs
              split at hs <;> cases hs
              simp [Task.names]
          | _ => cases hs
  | @handle j pc pc' _ _ hs =>
      cases (handle_effect hs).1 with
      | goesOn hp _ hst =>
          rw [hst]
          simpa only [Task.names, hp] using hold
      | start hp _ hst => simp [Task.names, hp.2, hst]
      | turnAway hp | disconnect hp => simp [Task.names, hp.2]
  | close he | outside he =>
      rw [(closeStep_keeps he).2.1]
      exact hold
  | closed he =>
      rw [Shared.ended, (closeStep_keeps he).2.1]
      exact hold

theorem mem_started (h : move s t a = some (s', t', new)) (hi : i ∈ s.started) :
    i ∈ s'.started := by
  rcases move_started h with he | ⟨j, -, he⟩
  · exact he ▸ hi
  · exact he ▸ List.mem_append_left _ hi

theorem registered_tracked (hR : Registered c) (ht : t ∈ c.tasks)
    (h : move c.shared t a = some (s', t', new)) :
    ∀ conns, s'.tracked = some conns → ∀ i ∈ conns, i ∈ s'.started := by
  intro conns hconns i hi
  cases move_tracks h with
  | same he => exact mem_started h (hR.tracked conns (he.symm.trans hconns) i hi)
  | track k conns' he _ hold hnew =>
      cases hnew.symm.trans hconns
      rcases List.mem_cons.1 hi with rfl | hi
      · refine mem_started h (hR.names t ht i ?_)
        simp [he, Task.names, HandlePc.phase]
      · exact mem_started h (hR.tracked conns' hold i (List.mem_of_mem_erase hi))
  | untrack k _ hnew =>
      obtain ⟨conns', hold, rfl⟩ := Option.map_eq_some_iff.1 (hnew.symm.trans hconns)
      exact mem_started h (hR.tracked conns' hold i (List.mem_of_mem_erase hi))
  | stop _ _ hnew => cases hnew.symm.trans hconns

theorem registered_recovery (hR : Registered c) (h : move c.shared t a = some (s', t', new)) :
    ∀ i, (s'.conn i).recovery.isSome = true → i ∈ s'.started := by
  intro i hi
  have hconn (s'' : Shared) (he : (s''.conn i).recovery = (c.shared.conn i).recovery)
      (hi : (s''.conn i).recovery.isSome = true) : i ∈ s'.started :=
    mem_started h (hR.recovery i (he ▸ hi))
  have hmodify (j : Nat) : ((c.shared.modify j fun conn => { conn with closed := true }).conn
      i).recovery = (c.shared.conn i).recovery := by
    rw [conn_modify_default]
    split <;> rfl
  cases move_registers h with
  | same _ hc => exact hconn s' (hc i).1 hi
  | insert j token | remove j token => exact hconn _ rfl hi
  | @start j token _ _ hs hc =>
      by_cases hij : i = j
      · simp [hs, hij]
      · rw [Shared.conn, hc] at hi
        refine hconn _ ?_ hi
        rw [conn_modify_default, if_neg (by simp [Ne.symm hij])]
  | refuse _ hc | mark _ hc =>
      rw [Shared.conn, hc] at hi
      exact hconn _ (hmodify _) hi
  | leave _ hc =>
      rw [Shared.conn, hc] at hi
      exact hconn _ rfl hi

theorem entry_notMem {e : Nat × Nat} (hA : Accounts c) (hk : c.tasks[k]? = some t)
    (he : t.entry = some e) : e.2 ∉ c.shared.started := by
  obtain ⟨pc, rfl, -, hp⟩ := entry_unstarted he
  exact (unstarted_alone hA hk hp).1

/-- Tasks that attach a connection each have an entry of their own. -/
theorem entry_unique {e : Nat × Nat} (hA : Accounts c) (hk : c.tasks[k]? = some t)
    (he : t.entry = some e) (hj : c.tasks[j]? = some u) (hu : u.entry = some e) : k = j := by
  obtain ⟨pc, rfl, -, hp⟩ := entry_unstarted he
  obtain ⟨pc', rfl, -, hp'⟩ := entry_unstarted hu
  exact (unstarted_alone hA hk hp).2 j pc' hj hp'

theorem registered_keys (hR : Registered c) (h : move c.shared t a = some (s', t', new)) :
    (s'.recoveryConns.map Prod.fst).Nodup := by
  cases move_registers h with
  | same hr | start hr | refuse hr | mark hr => exact hr ▸ hR.keys
  | insert i token => exact keys_insertRecovery hR.keys token
  | remove i token => exact keys_removeRecovery hR.keys token
  | leave hr => exact hr ▸ keys_onClosed hR.keys _

theorem registered_entering (hA : Accounts c) (hR : Registered c) (hf : Fresh c (.task k a))
    (hk : c.tasks[k]? = some t) (h : move c.shared t a = some (s', t', new)) :
    ∀ u ∈ c.tasks.set k t' ++ new, ∀ e, u.entry = some e → e ∈ s'.recoveryConns := by
  intro u hu e he
  obtain ⟨m, hget⟩ := List.mem_iff_getElem?.1 hu
  have hnew {v : Task} (hv : v ∈ new) : v.entry = none := (move_new h hv).1
  rcases Machine.Pool.of_getElem?_set_append hget with ⟨-, rfl⟩ | ⟨hkm, hm⟩ | ⟨-, hm⟩
  · cases move_registers h with
    | same hr _ hte => exact hr ▸ hR.entering t (List.mem_of_getElem? hk) e (hte ▸ he)
    | insert i token =>
        cases he
        exact (mem_insertRecovery hR.keys).2 (.inl rfl)
    | remove | start | refuse => cases he
    | mark _ _ _ _ hte | leave _ _ _ _ hte => cases hte.2.symm.trans he
  · have hmem := hR.entering u (List.mem_of_getElem? hm) e he
    cases move_registers h with
    | same hr | start hr | refuse hr | mark hr => exact hr ▸ hmem
    | insert i token => exact (mem_insertRecovery hR.keys).2 (.inr ⟨hmem, hf e hmem⟩)
    | remove i token =>
        refine (mem_removeRecovery hR.keys).2 ⟨hmem, fun hne => hkm ?_⟩
        have ht : (token, i) ∈ c.shared.recoveryConns :=
          hR.entering _ (List.mem_of_getElem? hk) _ rfl
        have heq : e = (token, i) := List.inj_on_of_nodup_map hR.keys hmem ht hne
        exact entry_unique hA hk (heq ▸ rfl) hm he
    | leave hr _ hn =>
        refine hr ▸ (mem_onClosed hR.keys).2 ⟨hmem, fun hleft => entry_notMem hA hm he ?_⟩
        exact hleft.1 ▸ hR.names t (List.mem_of_getElem? hk) _ hn
  · cases (hnew (List.mem_of_getElem? hm)).symm.trans he

theorem registered_unstarted (hA : Accounts c) (hR : Registered c)
    (hk : c.tasks[k]? = some t) (h : move c.shared t a = some (s', t', new)) :
    ∀ i pc, .handle i pc ∈ c.tasks.set k t' ++ new → pc.phase = .unstarted →
      s'.isClosed i = false := by
  intro i pc hu hp
  obtain ⟨m, hget⟩ := List.mem_iff_getElem?.1 hu
  have hmodify {j : Nat} {s'' : Shared} (hij : j ≠ i)
      (hc : s''.conns = (c.shared.modify j fun conn => { conn with closed := true }).conns) :
      s''.isClosed i = c.shared.isClosed i := by
    rw [Shared.isClosed, Shared.conn, hc]
    exact congrArg Conn.closed ((conn_modify_default ..).trans (if_neg (by simp [hij])))
  have hold {m : Nat} {pc : HandlePc} (hm : c.tasks[m]? = some (.handle i pc))
      (hp : pc.phase = .unstarted) : c.shared.isClosed i = false :=
    hR.unstarted i pc (List.mem_of_getElem? hm) hp
  rcases Machine.Pool.of_getElem?_set_append hget with ⟨-, rfl⟩ | ⟨hkm, hm⟩ | ⟨-, hm⟩
  · cases move_cases h with
    | @handle _ pc₀ _ _ _ hs =>
        have hp₀ : pc₀.phase = .unstarted := by
          cases (handle_effect hs).1 with
          | goesOn he => exact he.symm.trans hp
          | start he | turnAway he | disconnect he => cases he.2.symm.trans hp
        cases move_registers h with
        | same _ hc => exact (hc i).2.trans (hold hk hp₀)
        | insert | remove => exact hold hk hp₀
        | start | refuse => cases hp
        | mark _ _ hn | leave _ _ hn => simp [Task.names, hp₀] at hn
  · have hnot := (unstarted_alone hA hm hp).1
    cases move_registers h with
    | same _ hc => exact (hc i).2.trans (hold hm hp)
    | insert | remove => exact hold hm hp
    | start _ _ hc =>
        rw [Shared.isClosed, Shared.conn, hc]
        refine Eq.trans (congrArg Conn.closed (conn_modify_default ..)) ?_
        split <;> exact hold hm hp
    | @refuse j _ _ hc =>
        refine (hmodify ?_ hc).trans (hold hm hp)
        -- The connection that is refused is its task's own.
        rintro rfl
        exact hkm ((unstarted_alone hA hk rfl).2 m pc hm hp)
    | @mark _ _ j _ _ hc hn =>
        refine (hmodify ?_ hc).trans (hold hm hp)
        rintro rfl
        exact hnot (hR.names t (List.mem_of_getElem? hk) _ hn)
    | leave _ hc =>
        rw [Shared.isClosed, Shared.conn, hc]
        exact hold hm hp
  · cases move_cases h with
    | serve hs =>
        have hnew := List.mem_of_getElem? hm
        rcases (serve_effect hs).2.2.2 with ⟨rfl, -⟩ | ⟨rfl, -⟩ | ⟨j, rfl, -⟩
        · cases hnew
        · cases List.mem_singleton.1 hnew
          rw [((serve_registers hs).2 _).2]
          simp [Shared.isClosed, Shared.conn]
        · cases List.mem_singleton.1 hnew
    | handle | close | closed | outside => cases List.mem_of_getElem? hm

theorem conn_close (h : s'.conns = (s.modify j fun conn => { conn with closed := true }).conns) :
    (s'.conn i).recovery = (s.conn i).recovery ∧
      (i ≠ j → s'.isClosed i = s.isClosed i) ∧ (s'.isClosed i = false → s.isClosed i = false) := by
  have he : s'.conn i = (s.modify j fun conn => { conn with closed := true }).conn i := by
    rw [Shared.conn, h, Shared.conn]
  rw [Shared.isClosed, he, conn_modify_default]
  split
  · rename_i hij
    exact ⟨rfl, fun hne => absurd hij.1.symm hne, by simp⟩
  · exact ⟨rfl, fun _ => rfl, fun h => h⟩

theorem conn_start {token : Option Nat}
    (h : s'.conns = (s.modify j fun conn => { conn with recovery := token }).conns) :
    s'.isClosed i = s.isClosed i ∧ (i ≠ j → (s'.conn i).recovery = (s.conn i).recovery) ∧
      (j < s.conns.length → (s'.conn j).recovery = token) ∧
      ((s'.conn j).recovery = token ∨ (s'.conn j).recovery = none) := by
  have he (k : Nat) :
      s'.conn k = (s.modify j fun conn => { conn with recovery := token }).conn k := by
    rw [Shared.conn, h, Shared.conn]
  refine ⟨?_, fun hij => ?_, fun hj => ?_, ?_⟩
  · rw [Shared.isClosed, he, conn_modify_default]
    split <;> rfl
  · rw [he, conn_modify_default, if_neg (fun hj => hij hj.1.symm)]
  · rw [he, conn_modify_default, if_pos ⟨rfl, hj⟩]
  · rw [he, conn_modify_default]
    split
    · exact .inl rfl
    · rename_i hj
      exact .inr (by simp [Shared.conn, Nat.not_lt.1 fun hlt => hj ⟨rfl, hlt⟩])

theorem registered_live (hI : Inv c) (hR : Registered c) (hf : Fresh c (.task k a))
    (hk : c.tasks[k]? = some t) (h : move c.shared t a = some (s', t', new)) (i token : Nat)
    (hi : (s'.conn i).recovery = some token) (ho : s'.isClosed i = false) :
    (token, i) ∈ s'.recoveryConns := by
  have hstarted (he : (c.shared.conn i).recovery = some token) : i ∈ c.shared.started :=
    hR.recovery i (by rw [he]; rfl)
  cases move_registers h with
  | same hr hc =>
      rw [(hc i).1] at hi
      rw [(hc i).2] at ho
      exact hr ▸ hR.live i token hi ho
  | insert j drawn =>
      have hmem := hR.live i token hi ho
      exact (mem_insertRecovery hR.keys).2 (.inr ⟨hmem, hf _ hmem⟩)
  | remove j removed =>
      have hmem := hR.live i token hi ho
      refine (mem_removeRecovery hR.keys).2 ⟨hmem, fun hne => ?_⟩
      -- The entry that is removed is of a connection that has not started.
      have ht : (removed, j) ∈ c.shared.recoveryConns :=
        hR.entering _ (List.mem_of_getElem? hk) _ rfl
      have heq := List.inj_on_of_nodup_map hR.keys hmem ht hne
      refine entry_notMem hI.accounts hk (e := (token, i)) ?_ (hstarted hi)
      rw [heq]
      rfl
  | @start j given _ hr hs hc =>
      obtain ⟨hclosed, hother, -, hself⟩ := conn_start (i := i) hc
      rw [hr]
      by_cases hij : i = j
      · subst hij
        have hgiven : given = some token := by
          rcases hself with he | he
          · exact he.symm.trans hi
          · cases he.symm.trans hi
        exact hR.entering _ (List.mem_of_getElem? hk) _ (by rw [hgiven]; rfl)
      · exact hR.live i token ((hother hij).symm.trans hi) (hclosed.symm.trans ho)
  | refuse hr hc | mark hr hc =>
      obtain ⟨hrec, -, hopen⟩ := conn_close (i := i) hc
      exact hr ▸ hR.live i token (hrec.symm.trans hi) (hopen ho)
  | @leave _ _ j _ hr hc _ hl =>
      rw [Shared.conn, hc] at hi
      rw [Shared.isClosed, Shared.conn, hc] at ho
      refine hr ▸ (mem_onClosed hR.keys).2 ⟨hR.live i token hi ho, fun hleft => ?_⟩
      -- It is a closed connection that runs `on_closed`.
      have hclosed := leaves_closed (hI.tasks t (List.mem_of_getElem? hk)) hl.1
      rw [← hleft.1] at hclosed
      exact Bool.false_ne_true (ho.symm.trans hclosed)

/-- Another task's entry is owned as before; `he`, `hc` and `hl` say what happens to those of the
task that moves and to the connections. -/
theorem Owned.move {e : Nat × Nat} (ho : Owned c.shared c.tasks e) (hk : c.tasks[k]? = some t)
    (he : t.entry = some e → Owned s' (c.tasks.set k t' ++ new) e)
    (hc : (c.shared.conn e.2).recovery = some e.1 → (s'.conn e.2).recovery = some e.1 ∧
      (c.shared.isClosed e.2 = false → s'.isClosed e.2 = false ∨ t'.leaves = some e.2))
    (hl : (c.shared.conn e.2).recovery = some e.1 → t.leaves = some e.2 → t'.leaves = some e.2) :
    Owned s' (c.tasks.set k t' ++ new) e := by
  have hself : t' ∈ c.tasks.set k t' ++ new :=
    List.mem_append_left _ (Machine.Pool.mem_set_self hk)
  have hother {u : Task} (hu : u ∈ c.tasks) (hne : u ≠ t) : u ∈ c.tasks.set k t' ++ new :=
    List.mem_append_left _ (Machine.Pool.mem_set_of_ne hk hu hne)
  rcases ho with ⟨u, hu, hue⟩ | ⟨hrec, hopen | ⟨u, hu, hul⟩⟩
  · by_cases hut : u = t
    · exact he (hut ▸ hue)
    · exact .inl ⟨u, hother hu hut, hue⟩
  · rcases (hc hrec).2 hopen with hopen | hl
    · exact .inr ⟨(hc hrec).1, .inl hopen⟩
    · exact .inr ⟨(hc hrec).1, .inr ⟨t', hself, hl⟩⟩
  · by_cases hut : u = t
    · exact .inr ⟨(hc hrec).1, .inr ⟨t', hself, hl hrec (hut ▸ hul)⟩⟩
    · exact .inr ⟨(hc hrec).1, .inr ⟨u, hother hu hut, hul⟩⟩

theorem registered_entry (hI : Inv c) (hR : Registered c) (hk : c.tasks[k]? = some t)
    (h : move c.shared t a = some (s', t', new)) (e : Nat × Nat) (hmem : e ∈ s'.recoveryConns) :
    Owned s' (c.tasks.set k t' ++ new) e := by
  have hself : t' ∈ c.tasks.set k t' ++ new :=
    List.mem_append_left _ (Machine.Pool.mem_set_self hk)
  have hstarted (he : (c.shared.conn e.2).recovery = some e.1) : e.2 ∈ c.shared.started :=
    hR.recovery e.2 (by rw [he]; rfl)
  -- A connection whose task has not started it is not one that can be resumed.
  have hne {i : Nat} {pc : HandlePc} (ht : t = .handle i pc) (hp : pc.phase = .unstarted)
      (he : (c.shared.conn e.2).recovery = some e.1) : e.2 ≠ i := fun hei =>
    (unstarted_alone hI.accounts (ht ▸ hk) hp).1 (hei ▸ hstarted he)
  cases move_registers h with
  | same hr hc he hl =>
      refine (hR.entry e (hr ▸ hmem)).move hk (fun hte => .inl ⟨t', hself, he.trans hte⟩)
        (fun hrec => ⟨(hc e.2).1.trans hrec, fun ho => .inl ((hc e.2).2.trans ho)⟩)
        (fun _ htl => hl.trans htl)
  | insert i token =>
      rcases (mem_insertRecovery hR.keys).1 hmem with rfl | ⟨hold, -⟩
      · exact .inl ⟨_, hself, rfl⟩
      · exact (hR.entry e hold).move hk (fun hte => by cases hte)
          (fun hrec => ⟨hrec, fun ho => .inl ho⟩) (fun _ htl => by cases htl)
  | remove i token =>
      obtain ⟨hold, htok⟩ := (mem_removeRecovery hR.keys).1 hmem
      refine (hR.entry e hold).move hk (fun hte => ?_) (fun hrec => ⟨hrec, fun ho => .inl ho⟩)
        (fun _ htl => by cases htl)
      cases hte
      exact absurd rfl htok
  | @start i given _ hr hs hc =>
      obtain ⟨hclosed, hother, hthis, -⟩ := conn_start (i := e.2) hc
      refine (hR.entry e (hr ▸ hmem)).move hk (fun hte => ?_) (fun hrec => ?_)
        (fun _ htl => by cases htl)
      · -- The entry passes from the task to the connection.
        obtain ⟨token, rfl, rfl⟩ := Option.map_eq_some_iff.1 hte
        have hlt := (hI.tasks _ (List.mem_of_getElem? hk)).1
        have hopen := hR.unstarted i _ (List.mem_of_getElem? hk) rfl
        exact .inr ⟨hthis hlt, .inl (hclosed.trans hopen)⟩
      · exact ⟨(hother (hne rfl rfl hrec)).trans hrec, fun ho => .inl (hclosed.trans ho)⟩
  | refuse hr hc =>
      obtain ⟨hrec', hother, -⟩ := conn_close (i := e.2) hc
      exact (hR.entry e (hr ▸ hmem)).move hk (fun hte => by cases hte)
        (fun hrec => ⟨hrec'.trans hrec, fun ho => .inl ((hother (hne rfl rfl hrec)).trans ho)⟩)
        (fun _ htl => by cases htl)
  | @mark _ _ i _ hr hc hn hl he =>
      obtain ⟨hrec', hother, -⟩ := conn_close (i := e.2) hc
      refine (hR.entry e (hr ▸ hmem)).move hk (fun hte => by cases he.1.symm.trans hte)
        (fun hrec => ⟨hrec'.trans hrec, fun ho => ?_⟩) (fun _ htl => by cases hl.1.symm.trans htl)
      by_cases hei : e.2 = i
      · exact .inr (hei ▸ hl.2)
      · exact .inl ((hother hei).trans ho)
  | @leave _ _ i _ hr hc hn hl he =>
      obtain ⟨hold, hleft⟩ := (mem_onClosed hR.keys).1 (hr ▸ hmem)
      have hsame := SameConns.of_eq hc e.2
      refine (hR.entry e hold).move hk (fun hte => by cases he.1.symm.trans hte)
        (fun hrec => ⟨hsame.1.trans hrec, fun ho => .inl (hsame.2.trans ho)⟩) (fun hrec htl => ?_)
      cases hl.1.symm.trans htl
      exact absurd ⟨rfl, hrec⟩ hleft

theorem registered_step (hI : Inv c) (hR : Registered c) (hf : Fresh c ev)
    (h : machine.step c ev = some c') : Registered c' := by
  rcases Program.step_cases h with ⟨k, a, t, s', t', new, rfl, hk, hm, rfl⟩ | ⟨t, rfl, ht, rfl⟩
  · have hmem := List.mem_of_getElem? hk
    refine ⟨registered_recovery hR hm, registered_tracked hR hmem hm, ?_,
      registered_unstarted hI.accounts hR hk hm, registered_keys hR hm,
      registered_entering hI.accounts hR hf hk hm, registered_live hI hR hf hk hm,
      registered_entry hI hR hk hm⟩
    intro u hu i hi
    rcases Machine.Pool.mem_of_mem_set_append hu with rfl | hu | hu
    · exact move_names hR hmem hm i hi
    · exact mem_started hm (hR.names u hu i hi)
    · exact mem_started hm (hR.names t hmem i ((move_new hm hu).2.2 i hi))
  · obtain ⟨i, pc, rfl, -, hpc⟩ := starts_idle ht
    -- A close from outside has no entry, and is not past `mark_closed`.
    have hl : (Task.outside i (some pc)).leaves = none := by
      rcases hpc with rfl | rfl <;> rfl
    have hmem {u : Task} (hu : u ∈ c.tasks ++ [.outside i (some pc)]) :
        u ∈ c.tasks ∨ u = .outside i (some pc) := by simpa using hu
    refine ⟨hR.recovery, hR.tracked, fun u hu => ?_, fun j pc' hu => ?_, hR.keys,
      fun u hu e he => ?_, hR.live, fun e he => ?_⟩
    · rcases hmem hu with hu | rfl
      · exact hR.names u hu
      · intro j hj
        rw [List.mem_singleton.1 hj]
        exact hf
    · rcases hmem hu with hu | hu
      · exact hR.unstarted j pc' hu
      · cases hu
    · rcases hmem hu with hu | rfl
      · exact hR.entering u hu e he
      · cases he
    · rcases hR.entry e he with ⟨u, hu, hue⟩ | ⟨hrec, ho | ⟨u, hu, hul⟩⟩
      · exact .inl ⟨u, List.mem_append_left _ hu, hue⟩
      · exact .inr ⟨hrec, .inl ho⟩
      · exact .inr ⟨hrec, .inr ⟨u, List.mem_append_left _ hu, hul⟩⟩

theorem registered_reachable (h : machine.ReachableUnder Fresh c) : Registered c := by
  refine h.invariant_of (J := Inv) (fun _ h => inv_reachable h.reachable) ?_
    fun _ _ _ hI hR hf hs => registered_step hI hR hf hs
  rintro _ rfl
  refine ⟨fun i hi => by simp [initial, Shared.conn] at hi, fun conns h i hi => ?_, fun t ht => ?_,
    fun i pc ht => ?_, List.nodup_nil, fun t ht e he => ?_,
    fun i token hi => by simp [initial, Shared.conn] at hi, fun e he => by cases he⟩
  · cases h
    cases hi
  · rw [List.mem_singleton.1 ht]
    simp [Task.names]
  · cases List.mem_singleton.1 ht
  · rw [List.mem_singleton.1 ht] at he
    cases he

end invariant

/-! ### The result -/

/-- What the registry is good for, in any state. -/
structure RegistrySound (c : State) : Prop where
  /-- An open recovery connection is the one that its connection ID names. -/
  resumable : ∀ i token, (c.shared.conn i).recovery = some token → c.shared.isClosed i = false →
    c.shared.recoveryConns.lookup token = some i
  /-- A connection ID names a connection that a task is attaching, or one that has it and is open or
  about to be removed. -/
  names : ∀ i token, c.shared.recoveryConns.lookup token = some i →
    (∃ pc, .handle i pc ∈ c.tasks ∧ pc.token = some token ∧ c.shared.isClosed i = false) ∨
      (c.shared.conn i).recovery = some token ∧
        (c.shared.isClosed i = false ∨ ∃ t ∈ c.tasks, t.leaves = some i)
  /-- When `serve_with_accept` returns, only a close from outside has something left to remove. -/
  returned : .serve .returned ∈ c.tasks →
    ∀ e ∈ c.shared.recoveryConns, .outside e.2 (some .onClosed) ∈ c.tasks

/-- **The registry keeps the connections that can be resumed**, and no others. -/
theorem registry_sound {c : State} (h : machine.ReachableUnder Fresh c) : RegistrySound c := by
  have hR := registered_reachable h
  refine ⟨fun i token hi ho => (lookup_iff_mem hR.keys).2 (hR.live i token hi ho),
    fun i token hl => ?_, fun hret e he => ?_⟩
  · rcases hR.entry _ ((lookup_iff_mem hR.keys).1 hl) with ⟨t, ht, hte⟩ | hconn
    · obtain ⟨pc, rfl, htok, hp⟩ := entry_unstarted hte
      exact .inl ⟨pc, ht, htok, hR.unstarted i pc ht hp⟩
    · exact .inr hconn
  · -- No task of the server is left, and what was started is closed.
    obtain ⟨hclosed, hended⟩ := returned_accounts h.reachable hret
    rcases hR.entry e he with ⟨t, ht, hte⟩ | ⟨hrec, ho | ⟨t, ht, htl⟩⟩
    · obtain ⟨pc, rfl, -, hp⟩ := entry_unstarted hte
      have := hended _ ht
      simp [Task.unended, hp] at this
    · have := (hclosed e.2 (hR.recovery e.2 (by rw [hrec]; rfl))).1
      exact absurd (ho.symm.trans this) Bool.false_ne_true
    · have hend := hended _ ht
      cases t with
      | outside i pc =>
          obtain ⟨rfl, rfl⟩ : pc = some .onClosed ∧ i = e.2 := by simpa [Task.leaves] using htl
          exact ht
      | close i pc =>
          obtain ⟨rfl, rfl⟩ : pc = some .onClosed ∧ i = e.2 := by simpa [Task.leaves] using htl
          cases hend
      | handle i pc =>
          cases pc with
          | close pc => cases hend
          | _ => cases htl
      | serve pc => cases htl

/-- A connection starts with the ID 7; one with the ID 9 cannot be told so, and is refused. -/
def refusedRun : List (Event Task Act) :=
  [.task 0 .accepted, .task 0 .accepted, .task 1 (.config ⟨3, 1, 1024⟩), .task 1 (.request .new),
    .task 1 (.token 7), .task 1 .go, .task 1 .go, .task 1 .go, .task 2 (.config ⟨3, 1, 1024⟩),
    .task 2 (.request .new), .task 2 (.token 9), .task 2 .fail, .task 2 .go, .task 2 .go,
    .start (.outside 0 (some .mark)), .task 3 .go]

theorem registry_sound_refused :
    ∃ c, machine.ReachableUnder Fresh c ∧ c.shared.recoveryConns = [(7, 0)] ∧
      .outside 0 (some .onClosed) ∈ c.tasks ∧ RegistrySound c := by
  have hr : machine.ReachableUnder Fresh ((machine.exec initial refusedRun).getD initial) := by
    exact Machine.ReachableUnder.exec refusedRun (.init rfl) (by decide +kernel) (by decide +kernel)
  exact ⟨_, hr, by decide +kernel, by decide +kernel, registry_sound hr⟩

end AdaptiveMsg.Server
