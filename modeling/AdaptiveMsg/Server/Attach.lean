import AdaptiveMsg.Machine.Pool
import AdaptiveMsg.Recovery
import AdaptiveMsg.Wire.Attach

/-!
# Server — attaching to a recovery connection

`attach`, `attach_new` and `attach_resume` of `server.rs`, run by any number of tasks on one server,
one await, lock section or look at a flag a step.  Each task serves one accepted transport and has a
connection of its own for it, which a resume throws away; a transport and its connection go by the
number of their task.  The connections that have started live on by themselves: they receive, detach,
close and leave the registry between any two steps.

* `tokensEqual_iff`: the comparison that does not stop at a difference is equality.
* `step_conn`, `step_lookup`: what a step of an attach changes outside its own connection.
* `attach_alone`: what an attach amounts to, from any state.
* `only_the_holder_takes_over`: both, with who is accepted.
-/

namespace AdaptiveMsg

/-- `tokens_equal`. -/
def tokensEqual (a b : RecoveryToken) : Bool :=
  (List.zip a.val b.val).foldl (fun acc xy => acc ||| (xy.1 ^^^ xy.2)) (0 : UInt8) = 0

/-- A fold of `|` is zero only where it started, and with zeros only. -/
theorem foldl_or_eq_zero (l : List (UInt8 × UInt8)) (acc : UInt8) :
    l.foldl (fun acc xy => acc ||| (xy.1 ^^^ xy.2)) acc = 0 ↔ acc = 0 ∧ ∀ xy ∈ l, xy.1 = xy.2 := by
  induction l generalizing acc with
  | nil => simp
  | cons xy l ih =>
      simp only [List.foldl_cons, ih, UInt8.or_eq_zero_iff, UInt8.xor_eq_zero_iff, List.forall_mem_cons,
        and_assoc]

theorem eq_of_zip_eq {l l' : List UInt8} (hlen : l.length = l'.length)
    (h : ∀ xy ∈ List.zip l l', xy.1 = xy.2) : l = l' := by
  induction l generalizing l' with
  | nil => exact (List.length_eq_zero_iff.mp hlen.symm).symm
  | cons x l ih =>
      cases l' with
      | nil => cases hlen
      | cons y l' =>
          simp only [List.zip_cons_cons, List.forall_mem_cons] at h
          rw [h.1, ih (Nat.succ.inj hlen) h.2]

theorem eq_of_mem_zip_self {l : List UInt8} : ∀ xy ∈ List.zip l l, xy.1 = xy.2 := by
  induction l with
  | nil => simp
  | cons x l ih => simpa using ih

/-- The comparison is equality, byte for byte. -/
theorem tokensEqual_iff (a b : RecoveryToken) : tokensEqual a b = true ↔ a = b := by
  rw [tokensEqual, decide_eq_true_eq, foldl_or_eq_zero]
  constructor
  · rintro ⟨-, h⟩
    exact Subtype.ext (eq_of_zip_eq (a.property.trans b.property.symm) h)
  · rintro rfl
    exact ⟨rfl, eq_of_mem_zip_self⟩

namespace Attach

open Machine.Pool (Program Event)

/-! ### The connections and the registry -/

/-- `RecoveryState`: its tokens, its options, and the rest. -/
structure Recovery where
  connectionId : RecoveryToken
  resumeSecret : RecoveryToken
  negotiated : Options.NegotiatedRecoveryOptions
  state : RecoveryState
  deriving DecidableEq

/-- `WriterCommand::Attach`; `transport` is the number of the transport. -/
structure AttachCommand where
  gen : Nat
  transport : Nat
  resumeSeq : UInt64
  deriving DecidableEq

structure Conn where
  /-- The codec of its configuration; none before it starts. -/
  codecId : Option UInt8
  recovery : Option Recovery
  closed : Bool
  transportGen : Nat
  transportAttached : Bool
  /-- The generation of the current reader, and its transport. -/
  reader : Option (Nat × Nat)
  writerCmd : List AttachCommand
  /-- The tokens drawn for it, and the response written (this is no state of the program). -/
  drawn : Option (RecoveryToken × RecoveryToken)
  response : Option AttachResponse
  deriving DecidableEq

/-- `new_pending_from_parts`. -/
def Conn.pending : Conn where
  codecId := none
  recovery := none
  closed := false
  transportGen := 0
  transportAttached := false
  reader := none
  writerCmd := []
  drawn := none
  response := none

structure Shared where
  /-- The connections that are no longer as they were made. -/
  conns : List (Nat × Conn)
  recoveryConns : List (RecoveryToken × Nat)
  /-- The tokens drawn so far (this is no state of the program). -/
  tokens : List RecoveryToken
  deriving DecidableEq

namespace Shared

variable (s : Shared)

def conn (j : Nat) : Conn := (s.conns.lookup j).getD .pending

def modify (j : Nat) (f : Conn → Conn) : Shared := { s with conns := (j, f (s.conn j)) :: s.conns }

def lookup (token : RecoveryToken) : Option Nat := s.recoveryConns.lookup token

def insert (token : RecoveryToken) (j : Nat) : Shared :=
  { s with recoveryConns := (token, j) :: s.recoveryConns.filter fun e => token ≠ e.1 }

def remove (token : RecoveryToken) : Shared :=
  { s with recoveryConns := s.recoveryConns.filter fun e => token ≠ e.1 }

end Shared

/-- The part of `attach_transport_parts` after its look at `closed`. -/
def Conn.attachTransport (conn : Conn) (transport : Nat) (resumeSeq : UInt64) : Conn :=
  let gen := conn.transportGen + 1
  { conn with
    transportGen := gen
    reader := some (gen, transport)
    writerCmd := conn.writerCmd ++ [⟨gen, transport, resumeSeq⟩]
    transportAttached := true }

/-! ### The tasks -/

/-- How an attach ended. -/
inductive Attached where
  | new
  | resumed
  | refused
  deriving DecidableEq, Repr

/-- The next operation of `attach`. -/
inductive Pc where
  | readAttach
  -- `attach_new`
  | attachNew
  | writeNew (id secret : RecoveryToken)
  | onConnect (id secret : RecoveryToken)
  | startWithConfig (id secret : RecoveryToken)
  | removeRecovery (id : RecoveryToken)
  -- `attach_resume`
  | lookup (req : AttachRequest)
  | check (existing : Option Nat) (req : AttachRequest)
  | writeResume (existing : Nat) (req : AttachRequest) (response : AttachResponse)
  | rejectAttach
  /-- `attach_transport_parts`: of the connection that a request resumes, or of the task's own. -/
  | checkClosed (resumed : Option (Nat × AttachRequest))
  | attachTransport (resumed : Option (Nat × AttachRequest))
  /-- `close_now`, of the task's own connection. -/
  | closeNow
  | ended (attached : Attached)
  deriving DecidableEq

inductive Task where
  /-- An accepted transport whose handshake negotiated v3 with this codec. -/
  | attach (codec : UInt8) (pc : Pc)
  /-- What the connections do by themselves. -/
  | world
  deriving DecidableEq

/-- What the environment decides about a step. -/
inductive Act where
  | go
  | fail
  | request (req : AttachRequest)
  | tokens (id secret : RecoveryToken)
  | evolve (j : Nat) (conn : Conn)
  | onClosed (j : Nat)
  deriving DecidableEq

/-- What a connection that has started may become by itself: anything, but with the tokens and the
codec it has, and it does not open again. -/
def Evolves (conn conn' : Conn) : Prop :=
  conn.recovery.isSome ∧
    conn'.recovery.map (fun r => (r.connectionId, r.resumeSecret)) =
      conn.recovery.map (fun r => (r.connectionId, r.resumeSecret)) ∧
    conn'.codecId = conn.codecId ∧ conn'.drawn = conn.drawn ∧ (conn.closed = true → conn'.closed = true)

instance (conn conn' : Conn) : Decidable (Evolves conn conn') :=
  inferInstanceAs (Decidable (_ ∧ _))

/-- The server's recovery options. -/
abbrev Server := Options.ServerRecoveryOptions

/-- `RecoveryState::new_server`. -/
def newServer (srv : Server) (id secret : RecoveryToken) : Recovery where
  connectionId := id
  resumeSecret := secret
  negotiated := srv.negotiated
  state := .new srv.negotiated.acks frameHeaderLenV3 srv.normalized.maxReplayBytes

def newResponse (srv : Server) (id secret : RecoveryToken) : AttachResponse :=
  ⟨attachStatusOk, id, secret, 0, srv.negotiated⟩

def resumeResponse (r : Recovery) : AttachResponse :=
  ⟨attachStatusOk, r.connectionId, r.resumeSecret, UInt64.ofNat r.state.lastReceived, r.negotiated⟩

/-- `reject_attach`. -/
def rejection : AttachResponse :=
  ⟨attachStatusRejected, .copyFrom [], .copyFrom [], 0, Options.NegotiatedRecoveryOptions.default⟩

/-- The recovery state of the connection that was found, if `attach_resume` accepts the request. -/
def accepts (conn : Conn) (codec : UInt8) (req : AttachRequest) : Option Recovery :=
  conn.recovery.bind fun r =>
    if !conn.closed ∧ conn.codecId = some codec ∧ tokensEqual r.resumeSecret req.resumeSecret then some r
    else none

/-- A response is written to the task's own transport. -/
def Shared.respond (s : Shared) (k : Nat) (response : AttachResponse) : Shared :=
  s.modify k fun conn => { conn with response := some response }

def attachStep (srv : Server) (s : Shared) (k : Nat) (codec : UInt8) : Pc → Act → Option (Shared × Pc)
  | .readAttach, .request req =>
    some (s, if req.mode = attachModeNew then .attachNew
      else if req.mode = attachModeResume then .lookup req
      else .rejectAttach)
  | .readAttach, .fail => some (s, .closeNow)
  | .attachNew, .tokens id secret =>
    if id ∉ s.tokens ∧ secret ∉ s.tokens ∧ id ≠ secret then
      some ({ ((s.insert id k).modify k fun conn => { conn with drawn := some (id, secret) }) with
        tokens := id :: secret :: s.tokens }, .writeNew id secret)
    else none
  | .writeNew id secret, .go =>
    match writeAttachResponse (newResponse srv id secret) with
    | .ok _ => some (s.respond k (newResponse srv id secret), .onConnect id secret)
    | .error _ => none
  | .writeNew id _, .fail => some (s, .removeRecovery id)
  | .onConnect id secret, .go => some (s, .startWithConfig id secret)
  | .onConnect id _, .fail => some (s, .removeRecovery id)
  | .startWithConfig id secret, .go =>
    some (s.modify k fun conn =>
      { conn with codecId := some codec, recovery := some (newServer srv id secret) },
      .checkClosed none)
  | .startWithConfig id _, .fail => some (s, .removeRecovery id)
  | .removeRecovery id, .go => some (s.remove id, .closeNow)
  | .lookup req, .go => some (s, .check (s.lookup req.connectionId) req)
  | .check existing req, .go =>
    some (s, match existing with
      | some j =>
        match accepts (s.conn j) codec req with
        | some r => .writeResume j req (resumeResponse r)
        | none => .rejectAttach
      | none => .rejectAttach)
  | .writeResume j req response, .go =>
    match writeAttachResponse response with
    | .ok _ => some (s.respond k response, .checkClosed (some (j, req)))
    | .error _ => none
  | .writeResume _ _ _, .fail => some (s, .closeNow)
  | .rejectAttach, .go => some (s.respond k rejection, .closeNow)
  | .rejectAttach, .fail => some (s, .closeNow)
  | .checkClosed resumed, .go =>
    let j := resumed.elim k Prod.fst
    some (s, if (s.conn j).closed then .ended (if resumed.isSome then .resumed else .new)
      else .attachTransport resumed)
  | .attachTransport none, .go =>
    some (s.modify k fun conn => conn.attachTransport k 0, .ended .new)
  | .attachTransport (some (j, req)), .go =>
    some (s.modify j fun conn => conn.attachTransport k req.lastRecvSeq, .ended .resumed)
  | .closeNow, .go => some (s.modify k fun conn => { conn with closed := true }, .ended .refused)
  | _, _ => none

/-- A connection that has started changes, or one that is closed leaves the registry. -/
def worldStep (s : Shared) : Act → Option Shared
  | .evolve j conn =>
    if Evolves (s.conn j) conn then some (s.modify j fun _ => conn) else none
  | .onClosed j =>
    match (s.conn j).recovery with
    | some r =>
      if (s.conn j).closed ∧ s.lookup r.connectionId = some j then some (s.remove r.connectionId)
      else none
    | none => none
  | _ => none

def move (srv : Server) (s : Shared) (k : Nat) : Task → Act → Option (Shared × Task × List Task)
  | .attach codec pc, a => (attachStep srv s k codec pc a).map fun r => (r.1, .attach codec r.2, [])
  | .world, a => (worldStep s a).map fun s => (s, .world, [])

def starts : Task → Bool
  | .attach _ .readAttach | .world => true
  | _ => false

def program (srv : Server) : Program Shared Task Act := ⟨fun s _ k t a => move srv s k t a, fun _ => starts⟩

abbrev State := Machine.Pool.State Shared Task

def machine (srv : Server) : Machine State (Event Task Act) where
  init c := c = ⟨⟨[], [], []⟩, []⟩
  step := (program srv).step

variable {srv : Server} {s s' : Shared} {j k : Nat} {codec : UInt8} {pc pc' : Pc} {a : Act}
variable {id secret token : RecoveryToken} {req : AttachRequest} {f : Conn → Conn}

/-! ### Reading what was written -/

namespace Shared

@[simp] theorem conn_modify_self : (s.modify j f).conn j = f (s.conn j) := by
  simp [conn, modify]

theorem conn_modify_ne (h : j ≠ k) : (s.modify k f).conn j = s.conn j := by
  simp only [conn, modify, List.lookup_cons, beq_false_of_ne h]

@[simp] theorem lookup_modify : (s.modify j f).lookup token = s.lookup token := rfl

@[simp] theorem tokens_modify : (s.modify j f).tokens = s.tokens := rfl

@[simp] theorem conn_insert : (s.insert token k).conn j = s.conn j := rfl

@[simp] theorem conn_remove : (s.remove token).conn j = s.conn j := rfl

@[simp] theorem tokens_remove : (s.remove token).tokens = s.tokens := rfl

@[simp] theorem lookup_insert_self : (s.insert token k).lookup token = some k := by
  simp [lookup, insert]

theorem lookup_filter_ne {l : List (RecoveryToken × Nat)} (h : id ≠ token) :
    (l.filter fun e => token ≠ e.1).lookup id = l.lookup id := by
  induction l with
  | nil => rfl
  | cons e l ih =>
      obtain ⟨x, j⟩ := e
      by_cases hx : token = x
      · subst hx
        rw [List.filter_cons_of_neg (by simp), ih, List.lookup_cons, beq_false_of_ne h]
      · rw [List.filter_cons_of_pos (by simpa using hx), List.lookup_cons, List.lookup_cons, ih]

theorem lookup_filter_self (l : List (RecoveryToken × Nat)) :
    (l.filter fun e => token ≠ e.1).lookup token = none := by
  rw [List.lookup_eq_none_iff]
  intro e he
  simpa using (List.mem_filter.mp he).2

theorem lookup_insert_ne (h : id ≠ token) : (s.insert token k).lookup id = s.lookup id := by
  simp only [lookup, insert, List.lookup_cons]
  rw [beq_false_of_ne h]
  exact lookup_filter_ne h

@[simp] theorem lookup_remove_self : (s.remove token).lookup token = none := lookup_filter_self _

theorem lookup_remove_ne (h : id ≠ token) : (s.remove token).lookup id = s.lookup id :=
  lookup_filter_ne h

end Shared

theorem accepts_some {conn : Conn} {r : Recovery} (h : accepts conn codec req = some r) :
    conn.recovery = some r ∧ conn.closed = false ∧ conn.codecId = some codec ∧
      r.resumeSecret = req.resumeSecret := by
  obtain ⟨r', hr, hif⟩ := Option.bind_eq_some_iff.mp h
  split at hif
  · cases hif
    rename_i hacc
    exact ⟨hr, by simpa using hacc.1, hacc.2.1, (tokensEqual_iff _ _).1 hacc.2.2⟩
  · cases hif

/-! ### What a step of an attach does -/

/-- The tokens of a new connection are drawn, and it is entered under its ID. -/
def Shared.draw (s : Shared) (k : Nat) (id secret : RecoveryToken) : Shared :=
  { ((s.insert id k).modify k fun conn => { conn with drawn := some (id, secret) }) with
    tokens := id :: secret :: s.tokens }

namespace Shared

theorem conn_draw (j : Nat) : (s.draw k id secret).conn j =
    ((s.insert id k).modify k fun conn => { conn with drawn := some (id, secret) }).conn j := rfl

theorem conn_draw_ne (h : j ≠ k) : (s.draw k id secret).conn j = s.conn j := by
  rw [conn_draw, conn_modify_ne h, conn_insert]

@[simp] theorem conn_draw_self :
    (s.draw k id secret).conn k = { s.conn k with drawn := some (id, secret) } := by
  rw [conn_draw, conn_modify_self, conn_insert]

@[simp] theorem lookup_draw_self : (s.draw k id secret).lookup id = some k := lookup_insert_self

theorem lookup_draw_ne (h : token ≠ id) : (s.draw k id secret).lookup token = s.lookup token :=
  lookup_insert_ne h

end Shared

/-- `start_with_config` up to `attach_transport_parts`. -/
def Conn.started (conn : Conn) (srv : Server) (codec : UInt8) (id secret : RecoveryToken) : Conn :=
  { conn with codecId := some codec, recovery := some (newServer srv id secret) }

/-- The steps of the task `k`. -/
inductive Step (srv : Server) (s : Shared) (k : Nat) (codec : UInt8) : Pc → Shared → Pc → Prop where
  | readNew : Step srv s k codec .readAttach s .attachNew
  | readResume {req : AttachRequest} (hm : req.mode = attachModeResume) :
      Step srv s k codec .readAttach s (.lookup req)
  | readOther : Step srv s k codec .readAttach s .rejectAttach
  | readFail : Step srv s k codec .readAttach s .closeNow
  | draw {id secret : RecoveryToken} (hid : id ∉ s.tokens) :
      Step srv s k codec .attachNew (s.draw k id secret) (.writeNew id secret)
  | writeNew {id secret : RecoveryToken} {response : AttachResponse} :
      Step srv s k codec (.writeNew id secret) (s.respond k response) (.onConnect id secret)
  | connect {id secret : RecoveryToken} :
      Step srv s k codec (.onConnect id secret) s (.startWithConfig id secret)
  | newFail {id secret : RecoveryToken} {pc : Pc}
      (hpc : pc = .writeNew id secret ∨ pc = .onConnect id secret ∨ pc = .startWithConfig id secret) :
      Step srv s k codec pc s (.removeRecovery id)
  | start {id secret : RecoveryToken} :
      Step srv s k codec (.startWithConfig id secret)
        (s.modify k fun conn => conn.started srv codec id secret) (.checkClosed none)
  | remove {id : RecoveryToken} : Step srv s k codec (.removeRecovery id) (s.remove id) .closeNow
  | lookup {req : AttachRequest} :
      Step srv s k codec (.lookup req) s (.check (s.lookup req.connectionId) req)
  | accept {j : Nat} {req : AttachRequest} {r : Recovery} (h : accepts (s.conn j) codec req = some r) :
      Step srv s k codec (.check (some j) req) s (.writeResume j req (resumeResponse r))
  | refuse {existing : Option Nat} {req : AttachRequest}
      (h : ∀ j ∈ existing, accepts (s.conn j) codec req = none) :
      Step srv s k codec (.check existing req) s .rejectAttach
  | writeResume {j : Nat} {req : AttachRequest} {response : AttachResponse} :
      Step srv s k codec (.writeResume j req response) (s.respond k response)
        (.checkClosed (some (j, req)))
  | resumeFail {j : Nat} {req : AttachRequest} {response : AttachResponse} :
      Step srv s k codec (.writeResume j req response) s .closeNow
  | reject : Step srv s k codec .rejectAttach (s.respond k rejection) .closeNow
  | rejectFail : Step srv s k codec .rejectAttach s .closeNow
  | closed {resumed : Option (Nat × AttachRequest)}
      (h : (s.conn (resumed.elim k Prod.fst)).closed = true) :
      Step srv s k codec (.checkClosed resumed) s
        (.ended (if resumed.isSome then .resumed else .new))
  | notClosed {resumed : Option (Nat × AttachRequest)}
      (h : (s.conn (resumed.elim k Prod.fst)).closed = false) :
      Step srv s k codec (.checkClosed resumed) s (.attachTransport resumed)
  | attachOwn : Step srv s k codec (.attachTransport none)
      (s.modify k fun conn => conn.attachTransport k 0) (.ended .new)
  | attachExisting {j : Nat} {req : AttachRequest} :
      Step srv s k codec (.attachTransport (some (j, req)))
        (s.modify j fun conn => conn.attachTransport k req.lastRecvSeq) (.ended .resumed)
  | closeNow : Step srv s k codec .closeNow
      (s.modify k fun conn => { conn with closed := true }) (.ended .refused)

theorem attachStep_step (h : attachStep srv s k codec pc a = some (s', pc')) :
    Step srv s k codec pc s' pc' := by
  unfold attachStep at h
  split at h
  · rename_i req
    cases h
    by_cases hnew : req.mode = attachModeNew
    · rw [if_pos hnew]
      exact .readNew
    · rw [if_neg hnew]
      by_cases hres : req.mode = attachModeResume
      · rw [if_pos hres]
        exact .readResume hres
      · rw [if_neg hres]
        exact .readOther
  · cases h
    exact .readFail
  · split at h
    · rename_i hfresh
      cases h
      exact .draw hfresh.1
    · cases h
  · split at h
    · cases h
      exact .writeNew
    · cases h
  · cases h
    exact .newFail (.inl rfl)
  · cases h
    exact .connect
  · cases h
    exact .newFail (.inr (.inl rfl))
  · cases h
    exact .start
  · cases h
    exact .newFail (.inr (.inr rfl))
  · cases h
    exact .remove
  · cases h
    exact .lookup
  · rename_i existing req
    cases h
    cases existing with
    | none => exact .refuse (by simp)
    | some j =>
        cases hacc : accepts (s.conn j) codec req with
        | some r => simpa only [hacc] using Step.accept hacc
        | none => simpa only [hacc] using Step.refuse (by simpa using hacc)
  · split at h
    · cases h
      exact .writeResume
    · cases h
  · cases h
    exact .resumeFail
  · cases h
    exact .reject
  · cases h
    exact .rejectFail
  · cases h
    split
    · exact .closed ‹_›
    · exact .notClosed (Bool.eq_false_iff.2 ‹_›)
  · cases h
    exact .attachOwn
  · cases h
    exact .attachExisting
  · cases h
    exact .closeNow
  · cases h

/-- Outside its own connection, an attach changes only the one that it resumes, at its last step. -/
theorem step_conn (h : Step srv s k codec pc s' pc') (hj : j ≠ k) :
    s'.conn j = s.conn j ∨ ∃ req, pc = .attachTransport (some (j, req)) ∧
      s'.conn j = (s.conn j).attachTransport k req.lastRecvSeq := by
  cases h with
  | draw _ => exact .inl (Shared.conn_draw_ne hj)
  | writeNew | start | writeResume | reject | attachOwn | closeNow =>
      exact .inl (Shared.conn_modify_ne hj)
  | @attachExisting i req =>
      by_cases hi : j = i
      · subst hi
        exact .inr ⟨req, rfl, Shared.conn_modify_self⟩
      · exact .inl (Shared.conn_modify_ne hi)
  | _ => exact .inl rfl

/-- In the registry, it changes the entry of the ID that it has drawn. -/
theorem step_lookup (h : Step srv s k codec pc s' pc') (token : RecoveryToken) :
    s'.lookup token = s.lookup token ∨
    (pc = .attachNew ∧ token ∉ s.tokens ∧ s'.lookup token = some k ∧
      ∃ secret, pc' = .writeNew token secret) ∨
    (pc = .removeRecovery token ∧ s'.lookup token = none) := by
  cases h with
  | @draw id secret hid =>
      by_cases ht : token = id
      · subst ht
        exact .inr (.inl ⟨rfl, hid, Shared.lookup_insert_self, secret, rfl⟩)
      · exact .inl (Shared.lookup_insert_ne ht)
  | @remove id =>
      by_cases ht : token = id
      · subst ht
        exact .inr (.inr ⟨rfl, Shared.lookup_remove_self⟩)
      · exact .inl (Shared.lookup_remove_ne ht)
  | _ => exact .inl rfl

/-! ### Who a connection belongs to -/

/-- The request is from the holder of the secret of connection `j`, with its codec. -/
structure Authentic (s : Shared) (j : Nat) (codec : UInt8) (req : AttachRequest) : Prop where
  mode : req.mode = attachModeResume
  recovery : ∃ r, (s.conn j).recovery = some r ∧ r.connectionId = req.connectionId ∧
    r.resumeSecret = req.resumeSecret
  codec : (s.conn j).codecId = some codec

/-- What no step takes back of a connection: its tokens, and its codec once it has started. -/
structure Grows (conn conn' : Conn) : Prop where
  drawn : ∀ d, conn.drawn = some d → conn'.drawn = some d
  recovery : ∀ r, conn.recovery = some r → conn'.codecId = conn.codecId ∧
    ∃ r', conn'.recovery = some r' ∧ r'.connectionId = r.connectionId ∧
      r'.resumeSecret = r.resumeSecret

theorem Grows.refl (conn : Conn) : Grows conn conn :=
  ⟨fun _ h => h, fun r h => ⟨rfl, r, h, rfl, rfl⟩⟩

/-- A change of the transport, the response or the flag. -/
theorem Grows.of_eq {conn conn' : Conn} (hd : conn'.drawn = conn.drawn)
    (hr : conn'.recovery = conn.recovery) (hc : conn'.codecId = conn.codecId) : Grows conn conn' :=
  ⟨fun _ h => hd.trans h, fun r h => ⟨hc, r, hr.trans h, rfl, rfl⟩⟩

theorem Evolves.grows {conn conn' : Conn} (h : Evolves conn conn') : Grows conn conn' := by
  obtain ⟨-, hids, hcodec, hdrawn, -⟩ := h
  refine ⟨fun d hd => hdrawn.trans hd, fun r hr => ⟨hcodec, ?_⟩⟩
  rw [hr] at hids
  obtain ⟨r', hr', he⟩ := Option.map_eq_some_iff.mp hids
  exact ⟨r', hr', congrArg Prod.fst he, congrArg Prod.snd he⟩

theorem Authentic.mono (h : Authentic s j codec req) (hg : Grows (s.conn j) (s'.conn j)) :
    Authentic s' j codec req := by
  obtain ⟨r, hr, hid, hsec⟩ := h.recovery
  obtain ⟨hc, r', hr', hid', hsec'⟩ := hg.recovery r hr
  exact ⟨h.mode, ⟨r', hr', hid'.trans hid, hsec'.trans hsec⟩, hc.trans h.codec⟩

/-- The tokens, the registry and the connections. -/
structure Registry (s : Shared) : Prop where
  entry : ∀ t j, s.lookup t = some j → ∃ secret, (s.conn j).drawn = some (t, secret)
  recovery : ∀ j r, (s.conn j).recovery = some r →
    (s.conn j).drawn = some (r.connectionId, r.resumeSecret)
  tokens : ∀ j id secret, (s.conn j).drawn = some (id, secret) → id ∈ s.tokens

/-- The task `k` has no connection. -/
def NoConn (s : Shared) (k : Nat) : Prop :=
  (s.conn k).recovery = none ∧ ∀ t, s.lookup t ≠ some k

/-- Where the task `k` is, and what it has done to its own connection. -/
def Own (s : Shared) (k : Nat) (codec : UInt8) : Pc → Prop
  | .readAttach | .attachNew | .rejectAttach | .ended .resumed => (s.conn k).drawn = none
  | .lookup req => (s.conn k).drawn = none ∧ req.mode = attachModeResume
  | .check existing req => (s.conn k).drawn = none ∧ req.mode = attachModeResume ∧
      ∀ j ∈ existing, ∃ secret, (s.conn j).drawn = some (req.connectionId, secret)
  | .writeResume j req _ | .checkClosed (some (j, req)) | .attachTransport (some (j, req)) =>
    (s.conn k).drawn = none ∧ Authentic s j codec req
  | .writeNew id secret | .onConnect id secret | .startWithConfig id secret =>
    (s.conn k).drawn = some (id, secret) ∧ (s.conn k).recovery = none
  | .removeRecovery id =>
    (∃ secret, (s.conn k).drawn = some (id, secret)) ∧ (s.conn k).recovery = none
  | .checkClosed none | .attachTransport none | .ended .new => (s.conn k).recovery ≠ none
  | .closeNow | .ended .refused => NoConn s k

theorem Registry.recovery_none (h : Registry s) (hd : (s.conn k).drawn = none) :
    (s.conn k).recovery = none := by
  cases hr : (s.conn k).recovery with
  | none => rfl
  | some r => exact absurd (h.recovery k r hr) (by simp [hd])

theorem Registry.noConn (h : Registry s) (hd : (s.conn k).drawn = none) : NoConn s k := by
  refine ⟨h.recovery_none hd, fun t ht => ?_⟩
  obtain ⟨secret, hs⟩ := h.entry t k ht
  exact absurd hs (by simp [hd])

/-- The connection that a request was accepted for is the one that it names. -/
theorem authentic_of_accepts (h : Registry s) {r : Recovery}
    (hd : ∃ sec, (s.conn j).drawn = some (req.connectionId, sec)) (hm : req.mode = attachModeResume)
    (hacc : accepts (s.conn j) codec req = some r) : Authentic s j codec req := by
  obtain ⟨hr, -, hc, hsec⟩ := accepts_some hacc
  obtain ⟨sec, hd⟩ := hd
  have hids := (h.recovery j r hr).symm.trans hd
  exact ⟨hm, ⟨r, hr, congrArg Prod.fst (Option.some.inj hids), hsec⟩, hc⟩

/-! ### One step -/

/-- What a step of another task leaves of the connection of `k`. -/
structure Spares (s s' : Shared) (k : Nat) : Prop where
  grows : ∀ j, Grows (s.conn j) (s'.conn j)
  conn : (s.conn k).recovery = none → s'.conn k = s.conn k
  lookup : ∀ t, s'.lookup t = some k → s.lookup t = some k

theorem Own.spared (h : Own s k codec pc) (hR : Registry s) (hS : Spares s s' k) :
    Own s' k codec pc := by
  have hdrawn : (s.conn k).drawn = none → (s'.conn k).drawn = none := fun hd =>
    (hS.conn (hR.recovery_none hd)).symm ▸ hd
  have hstarted : (s.conn k).recovery ≠ none → (s'.conn k).recovery ≠ none := by
    intro hr
    obtain ⟨r, hr⟩ := Option.ne_none_iff_exists'.mp hr
    obtain ⟨-, r', hr', -⟩ := (hS.grows k).recovery r hr
    simp [hr']
  have hno : NoConn s k → NoConn s' k := fun ⟨hr, hl⟩ =>
    ⟨(hS.conn hr).symm ▸ hr, fun t ht => hl t (hS.lookup t ht)⟩
  cases pc with
  | readAttach | attachNew | rejectAttach => exact hdrawn h
  | writeNew id secret | onConnect id secret | startWithConfig id secret =>
      exact ⟨(hS.grows k).drawn _ h.1, (hS.conn h.2).symm ▸ h.2⟩
  | removeRecovery id =>
      obtain ⟨⟨secret, hd⟩, hr⟩ := h
      exact ⟨⟨secret, (hS.grows k).drawn _ hd⟩, (hS.conn hr).symm ▸ hr⟩
  | lookup req => exact ⟨hdrawn h.1, h.2⟩
  | check existing req =>
      refine ⟨hdrawn h.1, h.2.1, fun j hj => ?_⟩
      obtain ⟨secret, hd⟩ := h.2.2 j hj
      exact ⟨secret, (hS.grows j).drawn _ hd⟩
  | writeResume j req response => exact ⟨hdrawn h.1, h.2.mono (hS.grows j)⟩
  | checkClosed resumed | attachTransport resumed =>
      cases resumed with
      | none => exact hstarted h
      | some jr => exact ⟨hdrawn h.1, h.2.mono (hS.grows jr.1)⟩
  | closeNow => exact hno h
  | ended attached =>
      cases attached with
      | new => exact hstarted h
      | resumed => exact hdrawn h
      | refused => exact hno h

/-- The step of an attach takes back no token, of any connection. -/
theorem grows_step (hR : Registry s) (hO : Own s k codec pc) (h : Step srv s k codec pc s' pc')
    (j : Nat) : Grows (s.conn j) (s'.conn j) := by
  by_cases hj : j = k
  · subst hj
    cases h with
    | @draw id secret hid =>
        have hd : (s.conn j).drawn = none := hO
        rw [Shared.conn_draw_self]
        refine ⟨fun d h => absurd h (by simp [hd]), fun r hr => ?_⟩
        exact absurd hr (by simp [hR.recovery_none hd])
    | @start id secret =>
        rw [Shared.conn_modify_self]
        exact ⟨fun d h => h, fun r hr => absurd hr (by simp [hO.2])⟩
    | writeNew | writeResume | reject | attachOwn | closeNow =>
        simp only [Shared.respond, Shared.conn_modify_self]
        exact .of_eq rfl rfl rfl
    | @attachExisting i req =>
        by_cases hi : j = i
        · subst hi
          rw [Shared.conn_modify_self]
          exact .of_eq rfl rfl rfl
        · rw [Shared.conn_modify_ne hi]
          exact .refl _
    | _ => exact .refl _
  · rcases step_conn h hj with he | ⟨req, -, he⟩
    · exact he ▸ .refl _
    · rw [he]
      exact .of_eq rfl rfl rfl

/-- A connection that keeps its tokens, and has a recovery state for no others. -/
theorem Registry.modify (hR : Registry s) (hd : (f (s.conn j)).drawn = (s.conn j).drawn)
    (hr : ∀ r, (f (s.conn j)).recovery = some r →
      (s.conn j).drawn = some (r.connectionId, r.resumeSecret)) : Registry (s.modify j f) := by
  have hdrawn : ∀ i, ((s.modify j f).conn i).drawn = (s.conn i).drawn := by
    intro i
    by_cases hi : i = j
    · subst hi
      rw [Shared.conn_modify_self, hd]
    · rw [Shared.conn_modify_ne hi]
  refine ⟨fun t i ht => hdrawn i ▸ hR.entry t i ht, fun i r h => ?_,
    fun i id secret h => hR.tokens i id secret (hdrawn i ▸ h)⟩
  rw [hdrawn]
  by_cases hi : i = j
  · subst hi
    rw [Shared.conn_modify_self] at h
    exact hr r h
  · rw [Shared.conn_modify_ne hi] at h
    exact hR.recovery i r h

theorem Registry.modify_same (hR : Registry s) (hd : (f (s.conn j)).drawn = (s.conn j).drawn)
    (hr : (f (s.conn j)).recovery = (s.conn j).recovery) : Registry (s.modify j f) :=
  hR.modify hd fun r h => hR.recovery j r (hr.symm.trans h)

theorem Registry.remove (hR : Registry s) (token : RecoveryToken) : Registry (s.remove token) where
  entry t j ht := by
    by_cases he : t = token
    · subst he
      rw [Shared.lookup_remove_self] at ht
      cases ht
    · rw [Shared.lookup_remove_ne he] at ht
      exact hR.entry t j ht
  recovery := hR.recovery
  tokens := hR.tokens

theorem Registry.draw (hR : Registry s) (hd : (s.conn k).drawn = none) (id secret : RecoveryToken) :
    Registry (s.draw k id secret) := by
  refine ⟨fun t j ht => ?_, fun j r hr => ?_, fun j id' secret' hd' => ?_⟩
  · by_cases he : t = id
    · subst he
      rw [Shared.lookup_draw_self] at ht
      cases ht
      exact ⟨secret, by rw [Shared.conn_draw_self]⟩
    · rw [Shared.lookup_draw_ne he] at ht
      obtain ⟨secret', hs⟩ := hR.entry t j ht
      have hj : j ≠ k := by
        rintro rfl
        exact absurd hs (by simp [hd])
      exact ⟨secret', by rw [Shared.conn_draw_ne hj, hs]⟩
  · by_cases hj : j = k
    · subst hj
      rw [Shared.conn_draw_self] at hr
      exact absurd hr (by simp [hR.recovery_none hd])
    · rw [Shared.conn_draw_ne hj] at hr ⊢
      exact hR.recovery j r hr
  · by_cases hj : j = k
    · subst hj
      rw [Shared.conn_draw_self] at hd'
      cases hd'
      exact List.mem_cons_self ..
    · rw [Shared.conn_draw_ne hj] at hd'
      exact List.mem_cons_of_mem _ (List.mem_cons_of_mem _ (hR.tokens j id' secret' hd'))

theorem registry_step (hR : Registry s) (hO : Own s k codec pc) (h : Step srv s k codec pc s' pc') :
    Registry s' := by
  cases h with
  | @draw id secret _ => exact hR.draw hO id secret
  | start =>
      refine hR.modify rfl fun r hr => ?_
      cases hr
      exact hO.1
  | remove => exact hR.remove _
  | writeNew | writeResume | reject | attachOwn | attachExisting | closeNow =>
      exact hR.modify_same rfl rfl
  | _ => exact hR

theorem own_step (hR : Registry s) (hO : Own s k codec pc) (h : Step srv s k codec pc s' pc') :
    Own s' k codec pc' := by
  have hgrows := grows_step hR hO h
  cases h with
  | readNew | readOther => exact hO
  | readResume hm => exact ⟨hO, hm⟩
  | readFail | rejectFail => exact hR.noConn hO
  | resumeFail => exact hR.noConn hO.1
  | @draw id secret hid =>
      have hr := hR.recovery_none hO
      exact ⟨by rw [Shared.conn_draw_self], by rw [Shared.conn_draw_self]; exact hr⟩
  | writeNew =>
      simp only [Own, Shared.respond, Shared.conn_modify_self]
      exact hO
  | connect => exact hO
  | @newFail id secret _ hpc =>
      rcases hpc with rfl | rfl | rfl
      all_goals exact ⟨⟨secret, hO.1⟩, hO.2⟩
  | start => simp [Own, Conn.started]
  | @remove id =>
      obtain ⟨⟨secret, hd⟩, hr⟩ := hO
      refine ⟨hr, fun t ht => ?_⟩
      by_cases he : t = id
      · subst he
        rw [Shared.lookup_remove_self] at ht
        cases ht
      · rw [Shared.lookup_remove_ne he] at ht
        obtain ⟨secret', hs⟩ := hR.entry t k ht
        exact he (congrArg Prod.fst (Option.some.inj (hs.symm.trans hd)))
  | lookup => exact ⟨hO.1, hO.2, fun j hj => hR.entry _ j hj⟩
  | accept hacc => exact ⟨hO.1, authentic_of_accepts hR (hO.2.2 _ rfl) hO.2.1 hacc⟩
  | refuse _ => exact hO.1
  | @writeResume j req response =>
      exact ⟨by simpa [Shared.respond] using hO.1, hO.2.mono (hgrows j)⟩
  | reject =>
      have hno := hR.noConn hO
      exact ⟨by simpa [Shared.respond] using hno.1, hno.2⟩
  | @closed resumed _ =>
      cases resumed with
      | none => exact hO
      | some jr => exact hO.1
  | @notClosed resumed _ =>
      cases resumed with
      | none => exact hO
      | some jr => exact hO
  | attachOwn => simpa [Own, Conn.attachTransport] using hO
  | @attachExisting j req =>
      by_cases hj : k = j
      · subst hj
        simpa [Own, Conn.attachTransport] using hO.1
      · simpa [Own, Shared.conn_modify_ne hj] using hO.1
  | closeNow => exact ⟨by simpa using hO.1, hO.2⟩

/-- An attach spares the connections of the other tasks. -/
theorem spares_step (hR : Registry s) (hO : Own s k codec pc) (h : Step srv s k codec pc s' pc')
    {m : Nat} (hm : m ≠ k) : Spares s s' m := by
  refine ⟨grows_step hR hO h, fun hr => ?_, fun t ht => ?_⟩
  · rcases step_conn h hm with he | ⟨req, rfl, -⟩
    · exact he
    · obtain ⟨r, hsome, -⟩ := hO.2.recovery
      exact absurd hsome (by simp [hr])
  · rcases step_lookup h t with he | ⟨-, -, hk, -⟩ | ⟨-, hnone⟩
    · exact he ▸ ht
    · exact absurd (Option.some.inj (ht.symm.trans hk)) hm
    · rw [hnone] at ht
      cases ht

/-- So does the world, with the connections that have started. -/
theorem spares_world (h : worldStep s a = some s') (k : Nat) : Spares s s' k := by
  unfold worldStep at h
  split at h
  · rename_i j conn
    split at h
    · rename_i hev
      cases h
      refine ⟨fun i => ?_, fun hr => ?_, fun t ht => ht⟩
      · by_cases hi : i = j
        · subst hi
          rw [Shared.conn_modify_self]
          exact hev.grows
        · rw [Shared.conn_modify_ne hi]
          exact .refl _
      · refine Shared.conn_modify_ne ?_
        rintro rfl
        exact absurd hev.1 (by simp [hr])
    · cases h
  · split at h
    · split at h
      · cases h
        refine ⟨fun i => .refl _, fun _ => rfl, fun t ht => ?_⟩
        by_cases he : t = (‹Recovery›).connectionId
        · rw [he, Shared.lookup_remove_self] at ht
          cases ht
        · rwa [Shared.lookup_remove_ne he] at ht
      · cases h
    · cases h
  · cases h

theorem registry_world (hR : Registry s) (h : worldStep s a = some s') : Registry s' := by
  unfold worldStep at h
  split at h
  · rename_i j conn
    split at h
    · rename_i hev
      cases h
      obtain ⟨-, hids, -, hd, -⟩ := hev
      refine hR.modify hd fun r hr => ?_
      rw [hr] at hids
      obtain ⟨r', hr', he⟩ := Option.map_eq_some_iff.mp hids.symm
      rw [hR.recovery j r' hr', he]
    · cases h
  · split at h
    · split at h
      · cases h
        exact hR.remove _
      · cases h
    · cases h
  · cases h

/-! ### Every run -/

variable {c c' : State} {e : Event Task Act} {t t' : Task} {new : List Task}

/-- An operation is a step of an attach, or of the world. -/
theorem move_cases {n : Nat} (h : (program srv).move s n k t a = some (s', t', new)) :
    new = [] ∧ ((∃ codec pc pc', t = .attach codec pc ∧ t' = .attach codec pc' ∧
      Step srv s k codec pc s' pc') ∨ (t = .world ∧ t' = .world ∧ worldStep s a = some s')) := by
  cases t with
  | attach codec pc =>
      obtain ⟨r, hr, he⟩ := Option.map_eq_some_iff.mp h
      cases he
      exact ⟨rfl, .inl ⟨codec, pc, r.2, rfl, rfl, attachStep_step hr⟩⟩
  | world =>
      obtain ⟨r, hr, he⟩ := Option.map_eq_some_iff.mp h
      cases he
      exact ⟨rfl, .inr ⟨rfl, rfl, hr⟩⟩

/-- An event of an attach is one of its steps. -/
theorem task_step (hk : c.tasks[k]? = some (.attach codec pc))
    (h : (machine srv).step c (.task k a) = some c') :
    ∃ pc', c'.tasks[k]? = some (.attach codec pc') ∧ Step srv c.shared k codec pc c'.shared pc' := by
  have h : (program srv).step c (.task k a) = some c' := h
  rcases Program.step_cases h with ⟨i, x, t, s', t', new, he, hti, hm, rfl⟩ | ⟨t, he, -, -⟩
  · cases he
    obtain rfl : t = .attach codec pc := Option.some.inj (hti.symm.trans hk)
    obtain ⟨rfl, ⟨codec', pc₁, pc', hpc, rfl, hstep⟩ | ⟨hw, -, -⟩⟩ := move_cases hm
    · cases hpc
      exact ⟨pc', Machine.Pool.getElem?_set_append_self hti, hstep⟩
    · cases hw
  · cases he

structure Inv (c : State) : Prop where
  registry : Registry c.shared
  own : ∀ k codec pc, c.tasks[k]? = some (.attach codec pc) → Own c.shared k codec pc
  /-- No tokens are drawn for the transports to come. -/
  pending : ∀ k, c.tasks.length ≤ k → (c.shared.conn k).drawn = none

theorem inv_step (hI : Inv c) (h : (machine srv).step c e = some c') : Inv c' := by
  rcases Program.step_cases h with ⟨i, x, t, s', t', new, -, ht, hm, rfl⟩ | ⟨t, -, ht, rfl⟩
  · obtain ⟨rfl, hcases⟩ := move_cases hm
    have hlt : i < c.tasks.length := (List.getElem?_eq_some_iff.mp ht).1
    have hspares : ∀ k, k ≠ i → Spares c.shared s' k := by
      intro k hk
      rcases hcases with ⟨codec, pc, pc', rfl, rfl, hs⟩ | ⟨rfl, rfl, hs⟩
      · exact spares_step hI.registry (hI.own i codec pc ht) hs hk
      · exact spares_world hs k
    refine ⟨?_, fun k codec pc hk => ?_, fun k hk => ?_⟩
    · rcases hcases with ⟨codec, pc, pc', rfl, rfl, hs⟩ | ⟨rfl, rfl, hs⟩
      · exact registry_step hI.registry (hI.own i codec pc ht) hs
      · exact registry_world hI.registry hs
    · rcases Machine.Pool.of_getElem?_set_append hk with ⟨rfl, he⟩ | ⟨hne, hk⟩ | ⟨-, hk⟩
      · rcases hcases with ⟨codec, pc, pc', rfl, rfl, hs⟩ | ⟨rfl, rfl, hs⟩
        · cases he
          exact own_step hI.registry (hI.own i _ _ ht) hs
        · cases he
      · exact (hI.own k codec pc hk).spared hI.registry (hspares k (Ne.symm hne))
      · simp at hk
    · simp only [List.append_nil, List.length_set] at hk
      have hd := hI.pending k hk
      rw [(hspares k (Nat.ne_of_gt (Nat.lt_of_lt_of_le hlt hk))).conn (hI.registry.recovery_none hd)]
      exact hd
  · refine ⟨hI.registry, fun k codec pc hk => ?_, fun k hk => hI.pending k ?_⟩
    · rcases Nat.lt_trichotomy k c.tasks.length with hlt | rfl | hgt
      · rw [List.getElem?_append_left hlt] at hk
        exact hI.own k codec pc hk
      · simp only [List.getElem?_concat_length] at hk
        cases hk
        have hread : pc = .readAttach := by
          cases pc <;> first | rfl | cases ht
        subst hread
        exact hI.pending _ (Nat.le_refl _)
      · rw [List.getElem?_eq_none (by simpa using Nat.succ_le_of_lt hgt)] at hk
        cases hk
    · simp only [List.length_append, List.length_singleton] at hk
      exact Nat.le_of_succ_le hk

theorem inv_reachable (h : (machine srv).Reachable c) : Inv c := by
  refine h.invariant ?_ fun _ _ _ hI _ hs => inv_step hI hs
  rintro _ rfl
  exact ⟨⟨by simp [Shared.lookup], by simp [Shared.conn, Conn.pending],
    by simp [Shared.conn, Conn.pending]⟩, by simp, by simp [Shared.conn, Conn.pending]⟩

/-! ### An attach by itself -/

/-- The other connections and the registry are as they were. -/
structure Unchanged (s s' : Shared) (k : Nat) : Prop where
  conn : ∀ j, j ≠ k → s'.conn j = s.conn j
  lookup : ∀ t, s'.lookup t = s.lookup t

/-- The task has entered its own connection under a new ID, and changed nothing else. -/
structure Entered (s s' : Shared) (k : Nat) (id : RecoveryToken) : Prop where
  conn : ∀ j, j ≠ k → s'.conn j = s.conn j
  new : s.lookup id = none
  entry : s'.lookup id = some k
  lookup : ∀ t, t ≠ id → s'.lookup t = s.lookup t

/-- The request names the connection, has its secret and its codec, and the connection is open. -/
structure Accepts (s : Shared) (j : Nat) (codec : UInt8) (req : AttachRequest) : Prop where
  registered : s.lookup req.connectionId = some j
  authentic : Authentic s j codec req
  isOpen : (s.conn j).closed = false

/-- What an attach by the task `k` makes of `s`. -/
def Effect (s s' : Shared) (k : Nat) (codec : UInt8) : Attached → Prop
  | .new => ∃ id, Entered s s' k id
  | .resumed => ∃ j req, j ≠ k ∧ Accepts s j codec req ∧
      s'.conn j = (s.conn j).attachTransport k req.lastRecvSeq ∧
      (∀ i, i ≠ j → i ≠ k → s'.conn i = s.conn i) ∧ ∀ t, s'.lookup t = s.lookup t
  | .refused => Unchanged s s' k

/-- What the task `k` has done since `s`, by itself. -/
def Alone (s s' : Shared) (k : Nat) (codec : UInt8) : Pc → Prop
  | .writeNew id _ | .onConnect id _ | .startWithConfig id _ | .removeRecovery id => Entered s s' k id
  | .checkClosed none | .attachTransport none => ∃ id, Entered s s' k id
  | .check existing req => Unchanged s s' k ∧ existing = s.lookup req.connectionId
  | .writeResume j req _ | .checkClosed (some (j, req)) | .attachTransport (some (j, req)) =>
    Unchanged s s' k ∧ j ≠ k ∧ Accepts s j codec req
  | .ended attached => Effect s s' k codec attached
  | _ => Unchanged s s' k

variable {s₀ : Shared}

theorem Unchanged.modify (h : Unchanged s₀ s k) : Unchanged s₀ (s.modify k f) k :=
  ⟨fun j hj => (Shared.conn_modify_ne hj).trans (h.conn j hj), h.lookup⟩

theorem Entered.modify (h : Entered s₀ s k id) : Entered s₀ (s.modify k f) k id :=
  ⟨fun j hj => (Shared.conn_modify_ne hj).trans (h.conn j hj), h.new, h.entry, h.lookup⟩

/-- A new ID has no entry yet. -/
theorem Registry.lookup_fresh (hR : Registry s) (h : id ∉ s.tokens) : s.lookup id = none := by
  cases hl : s.lookup id with
  | none => rfl
  | some j =>
      obtain ⟨secret, hd⟩ := hR.entry id j hl
      exact absurd (hR.tokens j id secret hd) h

theorem alone_step (hR : Registry s) (hO : Own s k codec pc) (hA : Alone s₀ s k codec pc)
    (h : Step srv s k codec pc s' pc') : Alone s₀ s' k codec pc' := by
  cases h with
  | readNew | readResume _ | readOther | readFail | rejectFail | connect => exact hA
  | resumeFail => exact hA.1
  | @draw id secret hid =>
      refine ⟨fun j hj => (Shared.conn_draw_ne hj).trans (hA.conn j hj), ?_,
        Shared.lookup_draw_self, fun t ht => (Shared.lookup_draw_ne ht).trans (hA.lookup t)⟩
      exact (hA.lookup id).symm.trans (hR.lookup_fresh hid)
  | writeNew => exact hA.modify
  | @newFail id secret _ hpc =>
      rcases hpc with rfl | rfl | rfl
      all_goals exact hA
  | start => exact ⟨_, hA.modify⟩
  | @remove id =>
      refine ⟨hA.conn, fun t => ?_⟩
      by_cases ht : t = id
      · subst ht
        rw [Shared.lookup_remove_self, hA.new]
      · rw [Shared.lookup_remove_ne ht, hA.lookup t ht]
  | lookup => exact ⟨hA, hA.lookup _⟩
  | @accept j req r hacc =>
      obtain ⟨hsome, hopen, -, -⟩ := accepts_some hacc
      have hj : j ≠ k := by
        rintro rfl
        exact absurd hsome (by simp [hR.recovery_none hO.1])
      have hconn := hA.1.conn j hj
      have hauth := authentic_of_accepts hR (hO.2.2 j rfl) hO.2.1 hacc
      refine ⟨hA.1, hj, hA.2.symm, hauth.mono ?_, hconn ▸ hopen⟩
      rw [hconn]
      exact .refl _
  | refuse _ => exact hA.1
  | writeResume => exact ⟨hA.1.modify, hA.2⟩
  | reject => exact hA.modify
  | @closed resumed hcl =>
      cases resumed with
      | none => exact hA
      | some jr =>
          obtain ⟨hU, hj, hacc⟩ := hA
          have hopen : (s.conn jr.1).closed = false := (hU.conn jr.1 hj).symm ▸ hacc.isOpen
          exact absurd hcl (by simp [hopen])
  | @notClosed resumed _ =>
      cases resumed with
      | none => exact hA
      | some jr => exact hA
  | attachOwn =>
      obtain ⟨id, hE⟩ := hA
      exact ⟨id, hE.modify⟩
  | @attachExisting j req =>
      obtain ⟨hU, hj, hacc⟩ := hA
      refine ⟨j, req, hj, hacc, ?_, fun i hi hik => ?_, hU.lookup⟩
      · rw [Shared.conn_modify_self, hU.conn j hj]
      · rw [Shared.conn_modify_ne hi, hU.conn i hik]
  | closeNow => exact hA.modify

/-- The events of the task `k`. -/
def Of (k : Nat) (_ : State) (e : Event Task Act) : Prop := ∃ a, e = .task k a

/-- **What an attach amounts to**, if nothing else happens meanwhile. -/
theorem attach_alone (h : (machine srv).Reachable c)
    (hk : c.tasks[k]? = some (.attach codec .readAttach))
    (h' : ((machine srv).startAt c).ReachableUnder (Of k) c') :
    ∃ pc, c'.tasks[k]? = some (.attach codec pc) ∧ Alone c.shared c'.shared k codec pc := by
  have hreach : ∀ d, ((machine srv).startAt c).ReachableUnder (Of k) d → Inv d := fun d hd =>
    inv_reachable (h.trans hd.reachable)
  refine h'.invariant_of (I := fun d => ∃ pc, d.tasks[k]? = some (.attach codec pc) ∧
    Alone c.shared d.shared k codec pc) hreach ?_ ?_
  · rintro _ rfl
    exact ⟨.readAttach, hk, fun _ _ => rfl, fun _ => rfl⟩
  · rintro d e d' hI ⟨pc, ht, hA⟩ ⟨a, rfl⟩ hs
    obtain ⟨pc', ht', hstep⟩ := task_step ht hs
    exact ⟨pc', ht', alone_step hI.registry (hI.own k codec pc ht) hA hstep⟩

/-- What a step of an attach may do, whatever else happens: it gives its transport to an existing
connection only for the holder of its secret, it enters and removes its own ID only, and it leaves no
entry behind when it is refused.  The connection was open when the attach looked (`isOpen`); it may
close between that look and the `fetch_add` of `attach_transport`, so `conn` does not say it is. -/
structure Sound (s s' : Shared) (k : Nat) (codec : UInt8) (pc pc' : Pc) : Prop where
  conn : ∀ j, j ≠ k → s'.conn j = s.conn j ∨
    ∃ req, pc = .attachTransport (some (j, req)) ∧ Authentic s j codec req
  isOpen : ∀ j req, pc' = .attachTransport (some (j, req)) → (s.conn j).closed = false
  lookup : ∀ t, s'.lookup t = s.lookup t ∨ (s.lookup t = none ∧ s'.lookup t = some k) ∨
    (pc = .removeRecovery t ∧ s'.lookup t = none)
  refused : pc' = .ended .refused → ∀ t, s'.lookup t ≠ some k

theorem sound_step (hR : Registry s) (hO : Own s k codec pc) (h : Step srv s k codec pc s' pc') :
    Sound s s' k codec pc pc' := by
  refine ⟨fun j hj => ?_, ?_, fun t => ?_, ?_⟩
  · rcases step_conn h hj with he | ⟨req, rfl, -⟩
    · exact .inl he
    · exact .inr ⟨req, rfl, hO.2⟩
  · rintro j req rfl
    cases h with
    | notClosed hopen => exact hopen
  · rcases step_lookup h t with he | ⟨-, hfresh, hk, -⟩ | hgone
    · exact .inl he
    · exact .inr (.inl ⟨hR.lookup_fresh hfresh, hk⟩)
    · exact .inr (.inr hgone)
  · rintro rfl
    exact (own_step hR hO h).2

/-- **Only the holder of the secret takes over a connection, and a refused attach changes nothing.**
The comparison of tokens is equality.  From any state, an attach that nothing interferes with enters
a connection of its own, gives its transport to the open connection that its request names with its
secret and its codec, or leaves every other connection and the registry as they were.  Whatever else
happens, each of its steps is sound. -/
theorem only_the_holder_takes_over (srv : Server) :
    (∀ a b : RecoveryToken, tokensEqual a b = true ↔ a = b) ∧
    (∀ c c' k codec attached, (machine srv).Reachable c →
      c.tasks[k]? = some (.attach codec .readAttach) →
      ((machine srv).startAt c).ReachableUnder (Of k) c' →
      c'.tasks[k]? = some (.attach codec (.ended attached)) →
      Effect c.shared c'.shared k codec attached) ∧
    ∀ c c' k a codec pc, (machine srv).Reachable c → c.tasks[k]? = some (.attach codec pc) →
      (machine srv).step c (.task k a) = some c' →
      ∃ pc', c'.tasks[k]? = some (.attach codec pc') ∧ Sound c.shared c'.shared k codec pc pc' := by
  refine ⟨tokensEqual_iff, fun c c' k codec attached h hk h' hend => ?_,
    fun c c' k a codec pc h hk hs => ?_⟩
  · obtain ⟨pc, hpc, hA⟩ := attach_alone h hk h'
    cases hpc.symm.trans hend
    exact hA
  · have hI := inv_reachable h
    obtain ⟨pc', hk', hstep⟩ := task_step hk hs
    exact ⟨pc', hk', sound_step hI.registry (hI.own k codec pc hk) hstep⟩

/-- A client attaches anew with these tokens, and a second transport is accepted. -/
def attachedOnce : List (Event Task Act) :=
  [.start (.attach 1 .readAttach),
    .task 0 (.request ⟨attachModeNew, .copyFrom [], .copyFrom [], 0⟩),
    .task 0 (.tokens (.copyFrom [1]) (.copyFrom [2])), .task 0 .go, .task 0 .go, .task 0 .go,
    .task 0 .go, .task 0 .go, .start (.attach 1 .readAttach)]

/-- A client resumes it on the second transport. -/
def resumesIt : List (Event Task Act) :=
  [.task 1 (.request ⟨attachModeResume, .copyFrom [1], .copyFrom [2], 0⟩), .task 1 .go, .task 1 .go,
    .task 1 .go, .task 1 .go, .task 1 .go]

theorem only_the_holder_takes_over_resumed : ∃ c c' : State,
    (machine .default).Reachable c ∧ (c'.shared.conn 0).reader = some (2, 1) ∧
      Effect c.shared c'.shared 1 1 .resumed := by
  have hrun : (((machine .default).exec ⟨⟨[], [], []⟩, []⟩ attachedOnce).bind fun c =>
      ((machine .default).exec c resumesIt).map fun c' =>
        (c.tasks[1]?, c'.tasks[1]?, (c'.shared.conn 0).reader)) =
      some (some (.attach 1 .readAttach), some (.attach 1 (.ended .resumed)), some (2, 1)) := by
    decide
  obtain ⟨c, hc, hrun⟩ := Option.bind_eq_some_iff.mp hrun
  obtain ⟨c', hc', hobs⟩ := Option.map_eq_some_iff.mp hrun
  simp only [Prod.mk.injEq] at hobs
  obtain ⟨hk, hend, hreader⟩ := hobs
  have hr : (machine .default).Reachable c := Machine.reachable_of_exec attachedOnce rfl hc
  have hmeets : (machine .default).ExecMeets (Of 1) c resumesIt :=
    Machine.execMeets_of_forall _ _ (by simp [resumesIt, Of])
  exact ⟨c, c', hr, hreader, (only_the_holder_takes_over .default).2.1 c c' 1 1 .resumed hr hk
    (Machine.ReachableUnder.exec_startAt resumesIt hc' hmeets) hend⟩

end Attach

end AdaptiveMsg
