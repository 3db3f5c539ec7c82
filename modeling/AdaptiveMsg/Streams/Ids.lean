import AdaptiveMsg.Streams.Model
import Mathlib.Data.List.Infix

/-!
# Streams — stream IDs

What the operations do to the stream IDs: which are registered, which are reserved in
`closed_peer_streams`, which ones `new_stream` has taken, and for which a FIN marker is queued.
An operation makes one of six changes (`Change`, `move_change`), and each change names the operation
that can make it.
-/

namespace AdaptiveMsg.Streams

/-! ### The IDs of a connection -/

namespace Shared

variable (s : Shared) (id : Nat)

/-- The IDs of the streams made, by their Contexts. -/
def ids : List Nat := s.streams.map StreamInner.id

def Registered : Prop := (s.streamContexts.lookup id).isSome

instance : Decidable (s.Registered id) := inferInstanceAs (Decidable (_ = true))

/-- A FIN marker is queued for a stream with the ID. -/
def FinQueued : Prop := ∃ stream ∈ s.streams, stream.id = id ∧ .fin ∈ stream.incoming

/-- A stream of the ID has been made, and none is registered. -/
def Released : Prop := id ∈ s.ids ∧ ¬s.Registered id

instance : Decidable (s.Released id) := inferInstanceAs (Decidable (_ ∧ _))

/-- Only the peer opens streams with the ID: `new_stream` has not taken it. -/
def Peers : Prop := id ≠ defaultStreamId ∧ s.nextStreamId ≤ id

theorem openedStream_iff : s.openedStream id = true ↔ id ≠ defaultStreamId ∧ id < s.nextStreamId := by
  simp [openedStream]

theorem not_registered_iff : ¬s.Registered id ↔ s.streamContexts.lookup id = none := by
  rw [Registered, Bool.not_eq_true, Option.isSome_eq_false_iff, Option.isNone_iff_eq_none]

end Shared

section lookup

variable {s : Shared} {id ctx : Nat}

/-- Away from the default stream a lookup finds what is registered. -/
theorem lookupStreamCtx_of_ne (h : id ≠ defaultStreamId) :
    s.lookupStreamCtx id = s.streamContexts.lookup id := if_neg h

theorem not_registered_of_lookup (h : s.lookupStreamCtx id = none) : ¬s.Registered id := by
  rw [Shared.not_registered_iff]
  by_cases hid : id = defaultStreamId
  · rw [Shared.lookupStreamCtx, if_pos hid, Option.or_eq_none_iff] at h
    exact h.2
  · rwa [lookupStreamCtx_of_ne hid] at h

theorem mem_of_lookup {l : List (Nat × Nat)} (h : l.lookup id = some ctx) : (id, ctx) ∈ l := by
  obtain ⟨l₁, l₂, rfl, -⟩ := List.lookup_eq_some_iff.1 h
  exact List.mem_append_right _ List.mem_cons_self

theorem lookup_eq_none {l : List (Nat × Nat)} : l.lookup id = none ↔ id ∉ l.map Prod.fst := by
  rw [List.lookup_eq_none_iff, List.mem_map, not_exists]
  refine forall_congr' fun e => ?_
  rw [bne_iff_ne, not_and]
  exact imp_congr_right fun _ => ne_comm

theorem map_fst_eraseP (l : List (Nat × Nat)) :
    (l.eraseP fun e => id == e.1).map Prod.fst = (l.map Prod.fst).erase id := by
  rw [List.erase_eq_eraseP, List.eraseP_map]
  rfl

end lookup

/-! ### What a task does next -/

/-- The ID that the task registers next. -/
def Task.registers : Task → Option Nat
  | .accept id _ _ (.get .make) => some id
  | .newStream id => id
  | .defaultStream .make => some defaultStreamId
  | _ => none

/-- The Context whose stream the task removes next. -/
def Task.removes : Task → Option Nat
  | .decode ctx .remove | .close ctx .remove | .recvError ctx .remove
  | .decode ctx (.failing _ .remove) => some ctx
  | _ => none

/-- The Context whose ID the task reserves next. -/
def Task.reserves : Task → Option Nat
  | .close ctx .reserve | .recvError ctx .reserve | .decode ctx (.failing _ .reserve) => some ctx
  | _ => none

/-- The ID whose reservation the task ends next, at its FIN. -/
def Task.unreserves : Task → Option Nat
  | .accept id _ _ .unreserve | .accept id _ true .drop => some id
  | _ => none

/-- The Context for which the task queues a FIN marker next. -/
def Task.queuesFin : Task → Option Nat
  | .accept _ _ _ (.queueFin ctx) => some ctx
  | _ => none

/-! ### The change an operation makes -/

/-- The IDs that a FIN marker is queued for are none but these. -/
def FinsKept (s : Shared) (t : Task) (s' : Shared) : Prop :=
  ∀ id, s'.FinQueued id → s.FinQueued id ∨ ∃ ctx, t.queuesFin = some ctx ∧ s.ids[ctx]? = some id

inductive Change (s : Shared) (t : Task) (s' : Shared) : Prop where
  | quiet (hi : s'.ids = s.ids) (hr : s'.streamContexts = s.streamContexts)
      (hd : s'.defaultStream = s.defaultStream) (hp : s'.closedPeerStreams = s.closedPeerStreams)
      (hn : s.nextStreamId ≤ s'.nextStreamId) (hc : s.closed = true → s'.closed = true)
      (hf : FinsKept s t s')
  /-- A stream is made. -/
  | register (id : Nat) (ht : t.registers = some id) (ho : s.closed = false) (hid : ¬s.Registered id)
      (hi : s'.ids = s.ids ++ [id]) (hr : s'.streamContexts = s.streamContexts ++ [(id, s.ids.length)])
      (hd : s'.defaultStream = if id = defaultStreamId then some s.ids.length else s.defaultStream)
      (hp : s'.closedPeerStreams = s.closedPeerStreams) (hn : s'.nextStreamId = s.nextStreamId)
      (hc : s'.closed = s.closed) (hf : FinsKept s t s')
  | remove (ctx : Nat) (ht : t.removes = some ctx) (hi : s'.ids = s.ids)
      (hr : s'.streamContexts = s.streamContexts.eraseP fun e => s.streamId ctx == e.1)
      (hd : s'.defaultStream = s.defaultStream) (hp : s'.closedPeerStreams = s.closedPeerStreams)
      (hn : s'.nextStreamId = s.nextStreamId) (hc : s'.closed = s.closed) (hf : FinsKept s t s')
  | reserve (ctx : Nat) (ht : t.reserves = some ctx) (hs : s' = s.reserve (s.streamId ctx))
  | unreserve (id : Nat) (ht : t.unreserves = some id) (hs : s' = s.unreserve id)
  /-- `mark_closed` takes the registered streams. -/
  | take (ht : t = .markClosed .take)
      (hs : s' = { s with streamContexts := [], defaultStream := none })

section change

variable {s s' : Shared} {t t' : Task} {new : List Task} {a : Act} {id ctx : Nat}

theorem finsKept_of_streams (h : s'.streams = s.streams) : FinsKept s t s' := by
  intro id hid
  rw [Shared.FinQueued, h] at hid
  exact .inl hid

/-- A change of one stream that keeps its ID. -/
theorem finsKept_modify {f : StreamInner → StreamInner} (hs : s'.streams = s.streams.modify ctx f)
    (hid : ∀ stream, (f stream).id = stream.id)
    (hf : ∀ stream, s.streams[ctx]? = some stream → .fin ∈ (f stream).incoming →
      .fin ∈ stream.incoming ∨ t.queuesFin = some ctx) :
    FinsKept s t s' := by
  rintro id ⟨stream, hmem, rfl, hfin⟩
  rw [hs] at hmem
  obtain ⟨i, hi, hget⟩ := List.getElem_of_mem hmem
  rw [List.getElem_modify] at hget
  rw [List.length_modify] at hi
  have hold : s.streams[i]? = some s.streams[i] := List.getElem?_eq_getElem hi
  split at hget
  · rename_i hctx
    subst hctx hget
    rcases hf _ hold hfin with hfin | ht
    · exact .inl ⟨_, List.getElem_mem hi, (hid _).symm, hfin⟩
    · refine .inr ⟨ctx, ht, ?_⟩
      rw [Shared.ids, List.getElem?_map, hold, Option.map_some, hid]
  · exact .inl ⟨stream, hget ▸ List.getElem_mem hi, rfl, hfin⟩

theorem ids_modify {f : StreamInner → StreamInner} (hs : s'.streams = s.streams.modify ctx f)
    (hid : ∀ stream, (f stream).id = stream.id) : s'.ids = s.ids := by
  rw [Shared.ids, hs, Shared.ids]
  refine List.ext_getElem? fun i => ?_
  rw [List.getElem?_map, List.getElem?_map, List.getElem?_modify, Option.map_eq_map, Option.map_map]
  congr 1
  funext stream
  rw [Function.comp]
  split
  · exact hid stream
  · rfl

/-- Only one stream changes, and only what is queued for it or its flags. -/
theorem change_modify {f : StreamInner → StreamInner} (hid : ∀ stream, (f stream).id = stream.id)
    (hf : ∀ stream, s.streams[ctx]? = some stream → .fin ∈ (f stream).incoming →
      .fin ∈ stream.incoming ∨ t.queuesFin = some ctx) :
    Change s t (s.modify ctx f) :=
  .quiet (ids_modify rfl hid) rfl rfl rfl le_rfl (fun h => h) (finsKept_modify rfl hid hf)

theorem change_refl (s : Shared) (t : Task) : Change s t s :=
  .quiet rfl rfl rfl rfl le_rfl (fun h => h) (finsKept_of_streams rfl)

theorem makeStream_change (ht : t.registers = some id) (h : s.makeStream id = some s') :
    Change s t s' := by
  simp only [Shared.makeStream] at h
  split at h
  · cases h
  · rename_i hno
    cases h
    obtain ⟨hopen, hreg⟩ := not_or.mp hno
    refine .register id ht (by simpa using hopen) hreg (by simp [Shared.ids]) (by simp [Shared.ids])
      (by simp [Shared.ids]) rfl rfl rfl ?_
    rintro id' ⟨stream, hmem, rfl, hfin⟩
    rcases List.mem_append.mp hmem with hmem | hmem
    · exact .inl ⟨stream, hmem, rfl, hfin⟩
    · rw [List.mem_singleton.mp hmem] at hfin
      cases hfin

/-- The removal of `remove_stream`, with what its caller records of it. -/
theorem removeStream_change (ht : t.removes = some ctx) {r : Option Nat} {s₁ : Shared}
    (h : s.removeStream (s.streamId ctx) = (r, s₁)) (hst : s'.streams = s₁.streams)
    (hr : s'.streamContexts = s₁.streamContexts) (hd : s'.defaultStream = s₁.defaultStream)
    (hp : s'.closedPeerStreams = s₁.closedPeerStreams) (hn : s'.nextStreamId = s₁.nextStreamId)
    (hc : s'.closed = s₁.closed) : Change s t s' := by
  rw [Shared.removeStream] at h
  split at h
  · cases h
    exact .quiet (congrArg (List.map _) hst) hr hd hp hn.ge (fun h => hc.trans h)
      (finsKept_of_streams hst)
  · rename_i ctx' _
    cases h
    exact .remove ctx ht (ids_modify hst fun _ => rfl) hr hd hp hn hc
      (finsKept_modify hst (fun _ => rfl) fun _ _ h => .inl h)

theorem getStreamCtx_change {pc : GetPc} {r : GetResult} (h : getStreamCtx s id pc = (s', r, new))
    (ht : pc = .make → t.registers = some id) : Change s t s' := by
  cases pc with
  | lookup =>
      simp only [getStreamCtx] at h
      split at h <;> cases h <;> exact change_refl s t
  | make =>
      simp only [getStreamCtx] at h
      split at h <;> cases h
      · exact makeStream_change (ht rfl) ‹_›
      · exact change_refl s t
  | onNewStream ctx =>
      cases h
      exact .quiet rfl rfl rfl rfl le_rfl (fun h => h) (finsKept_of_streams rfl)
  | lookupAgain =>
      cases h
      exact change_refl s t

theorem acceptStep_change {message fin : Bool} {pc : AcceptPc}
    (h : acceptStep s id message fin pc = (s', t', new)) :
    Change s (.accept id message fin pc) s' := by
  cases pc with
  | unreserve =>
      cases h
      exact .unreserve id rfl rfl
  | drop =>
      cases h
      cases fin with
      | false => exact change_refl s _
      | true => exact .unreserve id rfl rfl
  | get pc =>
      simp only [acceptStep] at h
      split at h
      · rename_i hg
        cases h
        exact getStreamCtx_change hg fun hpc => by rw [hpc]; rfl
      · rename_i hg
        cases h
        exact getStreamCtx_change hg fun hpc => by rw [hpc]; rfl
  | lookup =>
      simp only [acceptStep] at h
      split at h <;> cases h <;> exact change_refl s _
  | lookupFin | checkOpened | checkReserved =>
      cases h
      exact change_refl s _
  | sendMessage ctx =>
      cases h
      exact change_modify (fun _ => rfl) fun _ _ h => .inl (by simpa using h)
  | queueFin ctx =>
      cases h
      exact change_modify (fun _ => rfl) fun _ _ _ => .inr rfl

theorem errorStep_change {pc : ErrorPc} {r : Option ErrorPc} (h : errorStep s ctx pc = (s', r))
    (hres : pc = .reserve → t.reserves = some ctx) (hrem : pc = .remove → t.removes = some ctx) :
    Change s t s' := by
  cases pc with
  | checkOpened | checkRegistered =>
      cases h
      exact change_refl s t
  | reserve =>
      cases h
      exact .reserve ctx (hres rfl) rfl
  | swapFin =>
      cases h
      exact change_modify (fun _ => rfl) fun _ _ h => .inl h
  | remove =>
      simp only [errorStep] at h
      split at h
      all_goals
        rename_i he
        cases h
        exact removeStream_change (hrem rfl) he rfl rfl rfl rfl rfl rfl

theorem decodeStep_change {pc : DecodePc} (h : decodeStep s ctx pc a = some (s', t')) :
    Change s (.decode ctx pc) s' := by
  cases pc with
  | receiving =>
      cases a with
      | seeClosed =>
          simp only [decodeStep] at h
          split at h <;> cases h
          exact change_refl s _
      | go | fail ends =>
          simp only [decodeStep] at h
          split at h
          · rename_i hs
            have hpop : ∀ t, Change s t (s.modify ctx fun stream => { stream with incoming := ‹_› }) :=
              fun t => change_modify (fun _ => rfl) fun stream hstream hfin =>
                .inl (by rw [hs] at hstream; cases hstream; exact List.mem_cons_of_mem _ hfin)
            split at h
            all_goals first | cases h; done | skip
            all_goals
              cases h
              exact hpop _
          · cases h
  | remove =>
      cases a with
      | go =>
          simp only [decodeStep] at h
          split at h
          all_goals
            rename_i he
            cases h
            exact removeStream_change rfl he rfl rfl rfl rfl rfl rfl
      | fail ends | seeClosed => cases h
  | notify removed =>
      cases a with
      | go =>
          cases h
          exact .quiet rfl rfl rfl rfl le_rfl (fun h => h) (finsKept_of_streams rfl)
      | fail ends | seeClosed => cases h
  | failing ends pc =>
      cases a with
      | go =>
          simp only [decodeStep] at h
          split at h
          all_goals
            rename_i he
            cases h
            exact errorStep_change he (fun hpc => by rw [hpc]; rfl) fun hpc => by rw [hpc]; rfl
      | fail ends | seeClosed => cases h

theorem closeStep_change (s : Shared) (ctx : Nat) (pc : ClosePc) :
    Change s (.close ctx pc) (closeStep s ctx pc).1 := by
  cases pc with
  | checkOpened | checkRegistered => exact change_refl s _
  | reserve => exact .reserve ctx rfl rfl
  | swapFin =>
      simp only [closeStep]
      split
      · exact change_refl s _
      · exact change_modify (fun _ => rfl) fun _ _ h => .inl h
  | remove =>
      simp only [closeStep]
      split
      all_goals
        rename_i he
        exact removeStream_change rfl he rfl rfl rfl rfl rfl rfl
  | notify removed => exact .quiet rfl rfl rfl rfl le_rfl (fun h => h) (finsKept_of_streams rfl)

theorem markStep_change (s : Shared) (pc : MarkPc) : Change s (.markClosed pc) (markStep s pc).1 := by
  cases pc with
  | swap => exact .quiet rfl rfl rfl rfl le_rfl (fun _ => rfl) (finsKept_of_streams rfl)
  | take => exact .take rfl rfl
  | notify ctxs =>
      cases ctxs with
      | nil => exact change_refl s _
      | cons ctx ctxs =>
          exact .quiet (ids_modify rfl fun _ => rfl) rfl rfl rfl le_rfl (fun h => h)
            (finsKept_modify rfl (fun _ => rfl) fun _ _ h => .inl h)

theorem newStreamStep_change {o : Option Nat} (h : newStreamStep s o = (s', t', new)) :
    Change s (.newStream o) s' := by
  cases o with
  | none =>
      cases h
      exact .quiet rfl rfl rfl rfl (Nat.le_succ _) (fun h => h) (finsKept_of_streams rfl)
  | some id =>
      simp only [newStreamStep] at h
      split at h
      · cases h
        exact change_refl s _
      · split at h <;> cases h
        · exact makeStream_change rfl ‹_›
        · exact change_refl s _

/-- An operation makes one of the changes. -/
theorem move_change (h : move s t a = some (s', t', new)) : Change s t s' := by
  cases t with
  | decode ctx pc =>
      simp only [move, Option.map_eq_some_iff] at h
      obtain ⟨r, hr, h⟩ := h
      cases h
      exact decodeStep_change hr
  | accept id message fin pc =>
      cases a with
      | go => exact acceptStep_change (Option.some.inj h)
      | fail ends | seeClosed => cases h
  | defaultStream pc =>
      cases a with
      | go =>
          simp only [move] at h
          split at h
          all_goals
            rename_i hg
            cases h
            exact getStreamCtx_change hg fun hpc => by rw [hpc]; rfl
      | fail ends | seeClosed => cases h
  | newStream o =>
      cases a with
      | go => exact newStreamStep_change (Option.some.inj h)
      | fail ends | seeClosed => cases h
  | close ctx pc =>
      cases a with
      | go =>
          cases h
          exact closeStep_change s ctx pc
      | fail ends | seeClosed => cases h
  | recvError ctx pc =>
      cases a with
      | go =>
          simp only [move] at h
          split at h
          all_goals
            rename_i he
            cases h
            exact errorStep_change he (fun hpc => by rw [hpc]; rfl) fun hpc => by rw [hpc]; rfl
      | fail ends | seeClosed => cases h
  | markClosed pc =>
      cases a with
      | go =>
          cases h
          exact markStep_change s pc
      | fail ends | seeClosed => cases h
  | done => cases a <;> cases h

end change

end AdaptiveMsg.Streams
