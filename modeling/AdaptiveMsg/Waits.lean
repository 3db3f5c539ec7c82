import AdaptiveMsg.Machine.Notify

/-!
# Waits — waiting for a connection, a stream or the server to end

`wait_closed` of a connection and of a stream and `wait_stopped` of the server, in any number of
tasks, with the functions that set their flags: `mark_closed`, `remove_stream` and
`Lifecycle::stop`.  Each is called at any time, and a wait is dropped when another branch of its
`select!` is ready.

A stream goes by its `StreamInner`.  The streams that a `mark_closed` takes out of the map are what
it is called with here.  The writers also wait for the `Notify` of the connection, without a look at
the flag; `mark_closed` aborts them.

`waits_sound`: a wait returns only once what it waits for has ended, none is left behind when that
happens in between, and whatever the order all of them return, those for the streams of a closed
connection as well.
-/

namespace AdaptiveMsg.Waits

open Machine.Notify
open Machine.Pool (Event)

inductive Flag where
  /-- `ConnectionInner::closed`. -/
  | connection (conn : Nat)
  /-- `StreamInner::closed`. -/
  | stream (stream : Nat)
  /-- `Lifecycle::conns` is `None`. -/
  | stopped
  deriving DecidableEq, Repr

/-! ### What sets the flags -/

/-- `StreamInner::close_channels`, and what follows if it returns true or false. -/
def closeChannels (stream : Nat) (closed already : Script Flag) : Script Flag :=
  .swap (.stream stream) (.notify (.stream stream) closed) already

/-- The loop of `close_all_streams`: each stream that it closes is counted, and `notify_close` is
called for every one. -/
def closeStreams : List Nat → Script Flag
  | [] => .done
  | stream :: streams =>
    closeChannels stream (.step (.step (closeStreams streams))) (.step (closeStreams streams))

/-- `close_all_streams`: the map and the default stream are taken first. -/
def closeAllStreams (streams : List Nat) : Script Flag := .step (.step (closeStreams streams))

/-- What `mark_closed` does when it is the first: it takes the transport for detached, aborts the
writer and the reader, and notifies; then the recovery state runs `on_closed`. -/
def closeFirst (conn : Nat) (streams : List Nat) : Script Flag :=
  .step (.step (.step (.notify (.connection conn) (.step (closeAllStreams streams)))))

def markClosed (conn : Nat) (streams : List Nat) : Script Flag :=
  .swap (.connection conn) (closeFirst conn streams) .done

/-- `remove_stream` of a stream that is in the map: its last failure is kept, and it is counted. -/
def removeStream (stream : Nat) : Script Flag :=
  .step (.step (closeChannels stream (.step .done) .done))

/-- `Lifecycle::stop` notifies whether or not it is the first. -/
def stop : Script Flag := .swap .stopped (.notify .stopped .done) (.notify .stopped .done)

/-! ### The calls -/

inductive Call where
  /-- `ConnectionInner::wait_closed`: `handle_conn`, `close_gracefully` and the application. -/
  | waitClosed (conn : Nat)
  /-- `StreamInner::wait_closed`: `inbox_q`, `handler_q` and `close_by_peer`. -/
  | streamWaitClosed (stream : Nat)
  /-- The `select!` of `next_inbox`. -/
  | nextInbox (conn stream : Nat)
  /-- The `select!` of `handshake_step`. -/
  | waitStopped
  | markClosed (conn : Nat) (streams : List Nat)
  | removeStream (stream : Nat)
  | stop
  deriving DecidableEq, Repr

def body : Call → Body Flag
  | .waitClosed conn => .waits [.connection conn]
  | .streamWaitClosed stream => .waits [.stream stream]
  | .nextInbox conn stream => .waits [.connection conn, .stream stream]
  | .waitStopped => .waits [.stopped]
  | .markClosed conn streams => .sets (markClosed conn streams)
  | .removeStream stream => .sets (removeStream stream)
  | .stop => .sets stop

abbrev State := Machine.Notify.State Flag Call

def machine : Machine State (Event (Task Flag Call) Act) := Machine.Notify.machine body

/-! ### Who sets a flag notifies -/

section sound

variable {known : Set Flag} {closed already : Script Flag}

theorem closeChannels_sound (stream : Nat)
    (hc : closed.Sound (insert (.stream stream) known))
    (ha : already.Sound (insert (.stream stream) known)) :
    (closeChannels stream closed already).Sound known :=
  ⟨.inl rfl, ⟨Set.mem_insert _ _, hc⟩, ha⟩

theorem closeStreams_sound (streams : List Nat) : (closeStreams streams).Sound known := by
  induction streams generalizing known with
  | nil => trivial
  | cons stream streams ih => exact closeChannels_sound stream ih ih

theorem markClosed_sound (conn : Nat) (streams : List Nat) :
    (markClosed conn streams).Sound known :=
  ⟨.inl rfl, ⟨Set.mem_insert _ _, closeStreams_sound streams⟩, trivial⟩

theorem body_sound : Sound body := by
  intro call script h
  cases call with
  | markClosed conn streams =>
      cases h
      exact markClosed_sound conn streams
  | removeStream stream =>
      cases h
      exact closeChannels_sound stream trivial trivial
  | stop =>
      cases h
      exact ⟨.inl rfl, ⟨Set.mem_insert _ _, trivial⟩, ⟨Set.mem_insert _ _, trivial⟩⟩
  | waitClosed | streamWaitClosed | nextInbox | waitStopped => cases h

theorem closeStreams_sets {stream : Nat} {streams : List Nat} (h : stream ∈ streams) :
    (closeStreams streams).Sets (.stream stream) := by
  induction streams with
  | nil => cases h
  | cons first streams ih =>
      rcases List.mem_cons.1 h with rfl | h
      · exact .inl rfl
      · exact .inr ⟨ih h, ih h⟩

/-- Whoever closes a connection first closes the streams that it takes. -/
theorem coming_stream {c : State} {conn stream : Nat} {streams : List Nat}
    (hc : .setter (closeFirst conn streams) ∈ c.tasks) (h : stream ∈ streams) :
    Coming body (.stream stream) c := .inr ⟨_, hc, closeStreams_sets h⟩

end sound

/-! ### The result -/

structure WaitsSound (c : State) : Prop where
  /-- A wait returns only once the flag is set. -/
  returned : ∀ k, .waiter (.returned k) ∈ c.tasks → c.shared.flag k = true
  /-- Who waits for a flag that is set is woken, now or by a call that is under way. -/
  woken : ∀ k seen pc, .waiter pc ∈ c.tasks → pc.Awaits k seen → c.shared.flag k = true →
    c.shared.calls k ≠ seen ∨ ∃ script, .setter script ∈ c.tasks ∧ script.Notifies k
  /-- Every wait for a flag that is set, or that a call is to set, ends. -/
  ends : ∀ k, Coming body k c → machine.Leads GoesOn (Ended body k) c
  /-- When a connection is closed, that goes for the streams taken from it as well. -/
  streams : ∀ conn streams, .setter (closeFirst conn streams) ∈ c.tasks → ∀ stream ∈ streams,
    machine.Leads GoesOn (Ended body (.stream stream)) c

/-- **No wait misses the end of what it waits for.** -/
theorem waits_sound {c : State} (h : machine.Reachable c) : WaitsSound c where
  returned := (no_lost_wakeup body_sound h).1
  woken := (no_lost_wakeup body_sound h).2
  ends _ hk := waits_end body_sound h hk
  streams _ _ hc _ hi := waits_end body_sound h (coming_stream hc hi)

/-- A `recv` waits for its stream and its connection, which `mark_closed` then closes, without
having notified of it yet. -/
def recvRun : List (Event (Task Flag Call) Act) :=
  [.start (.call (.nextInbox 0 5)), .task 0 .go, .task 0 .go, .task 0 .go, .task 0 .go, .task 0 .go,
    .start (.call (.markClosed 0 [5])), .task 1 .go, .task 1 .go]

theorem waits_sound_recv : ∃ c, machine.Reachable c ∧
    .waiter (.poll [] [(.connection 0, 0), (.stream 5, 0)]) ∈ c.tasks ∧
    .setter (closeFirst 0 [5]) ∈ c.tasks ∧ WaitsSound c := by
  have hr : machine.Reachable ((machine.exec initial recvRun).getD initial) :=
    Machine.reachable_of_exec recvRun rfl rfl
  exact ⟨_, hr, by decide, by decide, waits_sound hr⟩

end AdaptiveMsg.Waits
