import TidePool.Transport.PollReady

/-! `ReadExact` and `WriteExact` against a clock (`src/transport/tcp/tcp_connection.cpp`).

    `TcpConnection` leaves time out: there a turn of either loop is an `Attempt`, and one of the attempts is
    to time out. Here a turn is what the calls return and when, and the deadline decides:

        turn:    Expired? --> recv / send --> EAGAIN --> PollReady
                    |             |                        |
        attempt:  timedOut   moved, nothing,         again, timedOut,
                             again, failed             pollFailed

    The two loops are one loop over a `Mover`. Against any clock and any answers it does what the loop
    without time does on some attempts (`timedLoop_refines`), so what is proved of `TcpConnection` holds
    here, and a time-out is not reported early. -/

namespace TidePool.Transport

open Schemes.Chrono

/-- What `recv` or `send` returns. -/
inductive Transfer where
  | moved (more : ℕ)                     -- up to `more + 1` bytes
  | nothing
  | interrupted
  | wouldBlock (polls : List PollTurn)   -- and then `PollReady` runs
  | failed (errno : String)

/-- The turns of `PollReady`, where that runs. -/
def Transfer.polls : Transfer → List PollTurn
  | .wouldBlock polls => polls
  | _ => []

structure TransferTurn where
  now : ClockTime                        -- read by `Expired`, which the first turn does not call
  transfer : Transfer

/-- A turn of either loop up to where they differ; the error is that of `PollReady`. -/
def TransferTurn.attempt (call : PollCall) (d : Deadline) (firstAttempt : Bool) (turn : TransferTurn) :
    Option (Result Attempt × ClockTime) :=
  if !firstAttempt && d.expired turn.now then some (.ok .timedOut, turn.now)
  else
    match turn.transfer with
    | .moved more => some (.ok (.moved more), turn.now)
    | .nothing => some (.ok .nothing, turn.now)
    | .interrupted => some (.ok .again, turn.now)
    | .failed errno => some (.ok (.failed errno), turn.now)
    | .wouldBlock polls =>
      match call.pollReady d polls turn.now with
      | none => none
      | some (v, t) => some ((call.status v).map fun _ => .again, t)

/-- What differs between the loops of `ReadExact` and `WriteExact`, over the state a turn changes. -/
structure Mover (σ : Type) where
  requestedEvents : PollEvent
  operation : String
  call : String                          -- `recv` or `send`
  zero : String                          -- what its return of 0 means
  completed : σ → ℕ
  advance : ℕ → ℕ → σ → Option σ         -- `target` and `more`; `none` at the end of the stream
  finish : ℕ → σ → Result Unit × σ       -- where the script is over
  finish_code : ∀ target s, (finish target s).1.code ≠ .unavailable

namespace Mover

variable {σ : Type} (m : Mover σ)

/-- The call of `PollReady` in the loop. -/
def pollCall (target : ℕ) (s : σ) : PollCall :=
  { requestedEvents := m.requestedEvents, operation := m.operation, completed := m.completed s, target,
    watchesBroken := true }

def error (target : ℕ) (s : σ) : Attempt → Status :=
  TcpConnection.attemptError m.operation m.call m.zero (m.completed s) target

/-- The loop without time. -/
def loop (target : ℕ) : List Attempt → σ → Result Unit × σ
  | [], s => m.finish target s
  | attempt :: rest, s =>
    if target ≤ m.completed s then (.ok (), s)
    else
      match attempt with
      | .moved more =>
        match m.advance target more s with
        | none => (.error (m.error target s .nothing), s)
        | some s' => loop target rest s'
      | .again => loop target rest s
      | a => (.error (m.error target s a), s)

/-- The loop with its deadline, and the time it ends. -/
def timedLoop (d : Deadline) (target : ℕ) :
    Bool → List TransferTurn → ClockTime → σ → Option (Result Unit × σ × ClockTime)
  | _, [], since, s => some ((m.finish target s).1, (m.finish target s).2, since)
  | firstAttempt, turn :: rest, since, s =>
    if target ≤ m.completed s then some (.ok (), s, since)
    else
      match turn.attempt (m.pollCall target s) d firstAttempt with
      | none => none
      | some (.error e, t) => some (.error e, s, t)
      | some (.ok (.moved more), t) =>
        match m.advance target more s with
        | none => some (.error (m.error target s .nothing), s, t)
        | some s' => timedLoop d target false rest t s'
      | some (.ok .again, t) => timedLoop d target false rest t s
      | some (.ok a, t) => some (.error (m.error target s a), s, t)

end Mover

namespace TcpConnection

/-- Reading: the bytes to come and those read. -/
def reading : Mover (Bytes × Bytes) where
  requestedEvents := .pollIn
  operation := "ReadExact"
  call := "recv"
  zero := "peer EOF"
  completed s := s.2.length
  advance target more s :=
    let available := min (more + 1) (target - s.2.length)
    if s.1.isEmpty then none else some (s.1.drop available, s.2 ++ s.1.take available)
  finish target s :=
    let missing := target - s.2.length
    if s.2.length + s.1.length < target then
      (.error (readError (s.2.length + s.1.length) target .nothing), [], s.2 ++ s.1)
    else (.ok (), s.1.drop missing, s.2 ++ s.1.take missing)
  finish_code target s := by
    dsimp only
    split_ifs <;> intro h <;> cases h

/-- Writing: how many bytes are out. -/
def writing : Mover ℕ where
  requestedEvents := .pollOut
  operation := "WriteExact"
  call := "send"
  zero := "send made no progress"
  completed s := s
  advance target more s := some (s + min (more + 1) (target - s))
  finish target _ := (.ok (), target)
  finish_code _ _ := by
    intro h
    cases h

/-- `ReadExact`, called at `now`, and the time it returns. -/
def timedReadExact (conn : TcpConnection) (bytes : ℕ) (timeout : Milliseconds) (now : ClockTime)
    (turns : List TransferTurn) : Option (Result Bytes × TcpConnection × ClockTime) :=
  if bytes = 0 then some (.ok [], conn, now)
  else if !conn.socket then
    some (.error (.unavailable "TcpConnection::ReadExact: connection is closed"), conn, now)
  else if conn.broken then
    some (.error (.unavailable "TcpConnection::ReadExact: connection is broken"), conn, now)
  else
    match (Deadline.make now timeout).bind fun d =>
        reading.timedLoop d bytes true turns now (conn.peer.incoming, []) with
    | none => none
    | some (.ok (), (incoming, got), t) => some (.ok got, conn.afterRead got incoming conn.peer.reads, t)
    | some (.error s, (incoming, got), t) =>
      some (.error s, (conn.afterRead got incoming conn.peer.reads).shutdown, t)

/-- `WriteExact`, called at `now`, and the time it returns. -/
def timedWriteExact (conn : TcpConnection) (input : Bytes) (timeout : Milliseconds) (now : ClockTime)
    (turns : List TransferTurn) : Option (Result Unit × TcpConnection × ClockTime) :=
  if input.isEmpty then some (.ok (), conn, now)
  else if !conn.socket then
    some (.error (.unavailable "TcpConnection::WriteExact: connection is closed"), conn, now)
  else if conn.broken then
    some (.error (.unavailable "TcpConnection::WriteExact: connection is broken"), conn, now)
  else
    match (Deadline.make now timeout).bind fun d =>
        writing.timedLoop d input.length true turns now 0 with
    | none => none
    | some (.ok (), completed, t) => some (.ok (), conn.afterWrite (input.take completed) conn.peer.writes, t)
    | some (.error s, completed, t) =>
      some (.error s, (conn.afterWrite (input.take completed) conn.peer.writes).shutdown, t)

/-! ### What a turn amounts to -/

/-- The attempt behind a turn: the turn says so itself, or it is the one whose error `PollReady` returns. -/
def Amounts (call : PollCall) (r : Result Attempt) (a : Attempt) : Prop :=
  r = .ok a ∨ a.smooth = false ∧
    ∀ verb zero, r = .error (attemptError call.operation verb zero call.completed call.target a)

theorem Amounts.eq_ok {call : PollCall} {r : Result Attempt} {a : Attempt} (h : Amounts call r a)
    (ha : a.smooth = true) : r = .ok a := by
  rcases h with h | ⟨hends, -⟩
  · exact h
  · rw [ha] at hends
    cases hends

/-- `PollReady` words its errors as the loops without time do. -/
theorem amounts_status (call : PollCall) {v : Readiness} (hv : v ≠ .shutDown) :
    ∃ a, Amounts call ((call.status v).map fun _ => .again) a ∧ (a = .timedOut → v = .timedOut) := by
  cases v with
  | ready => exact ⟨.again, .inl rfl, fun h => by cases h⟩
  | shutDown => exact absurd rfl hv
  | timedOut => exact ⟨.timedOut, .inr ⟨rfl, fun _ _ => rfl⟩, fun _ => rfl⟩
  | failed why =>
    refine ⟨.pollFailed why, .inr ⟨rfl, fun _ _ => ?_⟩, fun h => by cases h⟩
    cases why <;> rfl

/-- Only a time-out makes a loop return `kUnavailable`. -/
theorem attemptError_unavailable {operation verb zero : String} {completed target : ℕ} {a : Attempt}
    (ha : a.smooth = false)
    (hcode : (attemptError operation verb zero completed target a).code = .unavailable) : a = .timedOut := by
  cases a with
  | moved | again => cases ha
  | timedOut => rfl
  | nothing | failed => cases hcode
  | pollFailed why => cases why <;> cases hcode

/-- The clock does not go back behind `start`, and nobody shuts the connection down meanwhile. -/
structure Regular (start : ClockTime) (turn : TransferTurn) : Prop where
  now : start ≤ turn.now
  polls : PollCall.After start turn.transfer.polls
  undisturbed : PollCall.Undisturbed turn.transfer.polls

/-- A turn overflows nowhere and amounts to an attempt, which times out only when it may. -/
theorem attempt_amounts (call : PollCall) (d : Deadline) {start : ClockTime} (hstart : 0 ≤ start.reading)
    (firstAttempt : Bool) {turn : TransferTurn} (hturn : Regular start turn) :
    ∃ r t a, turn.attempt call d firstAttempt = some (r, t) ∧ Amounts call r a ∧
      (PollCall.Honest d turn.transfer.polls → a = .timedOut → d.reach start ≤ t.reading) := by
  obtain ⟨-, hafter, hundisturbed⟩ := hturn
  by_cases hlate : (!firstAttempt && d.expired turn.now) = true
  · refine ⟨.ok .timedOut, turn.now, .timedOut, by rw [TransferTurn.attempt, if_pos hlate], .inl rfl, ?_⟩
    intro _ _
    exact Deadline.reach_le_of_expired (Bool.and_eq_true_iff.mp hlate).2
  · rw [TransferTurn.attempt, if_neg hlate]
    cases htransfer : turn.transfer with
    | moved more => exact ⟨_, _, .moved more, rfl, .inl rfl, fun _ h => by cases h⟩
    | nothing => exact ⟨_, _, .nothing, rfl, .inl rfl, fun _ h => by cases h⟩
    | interrupted => exact ⟨_, _, .again, rfl, .inl rfl, fun _ h => by cases h⟩
    | failed errno => exact ⟨_, _, .failed errno, rfl, .inl rfl, fun _ h => by cases h⟩
    | wouldBlock polls =>
      rw [htransfer] at hafter hundisturbed
      obtain ⟨v, t, heq, hexplains⟩ := call.pollReady_explains d hstart polls turn.now hafter
      have hv : v ≠ .shutDown := fun h => (hexplains.shutDown h).2 hundisturbed
      obtain ⟨a, hamounts, hwhen⟩ := amounts_status call hv
      refine ⟨_, t, a, by simp only [heq], hamounts, ?_⟩
      intro hhonest ha
      rw [hwhen ha] at heq
      exact PollCall.pollReady_not_early hstart hafter hhonest heq

/-! ### The loop refines the one without time -/

/-- The kernel waits as long as it is told in every turn. -/
def Honest (d : Deadline) (turns : List TransferTurn) : Prop :=
  ∀ turn ∈ turns, PollCall.Honest d turn.transfer.polls

theorem Honest.tail {d : Deadline} {turn : TransferTurn} {rest : List TransferTurn}
    (h : Honest d (turn :: rest)) : Honest d rest :=
  fun t ht => h t (List.mem_cons_of_mem _ ht)

end TcpConnection

namespace Mover

open TcpConnection

section Refinement

variable {σ : Type} {m : Mover σ} {d : Deadline} {target : ℕ} {start : ClockTime} {turn : TransferTurn}
    {s : σ}

theorem loop_done (h : target ≤ m.completed s) (a : Attempt) (rest : List Attempt) :
    m.loop target (a :: rest) s = (.ok (), s) := by
  cases a <;> simp only [loop, h, if_true]

theorem loop_again (hleft : ¬ target ≤ m.completed s) (rest : List Attempt) :
    m.loop target (.again :: rest) s = m.loop target rest s := by
  rw [loop, if_neg hleft]

theorem loop_moved {s' : σ} {more : ℕ} (hleft : ¬ target ≤ m.completed s)
    (hadvance : m.advance target more s = some s') (rest : List Attempt) :
    m.loop target (.moved more :: rest) s = m.loop target rest s' := by
  simp only [loop, hleft, if_false, hadvance]

theorem loop_closed {more : ℕ} (hleft : ¬ target ≤ m.completed s) (hadvance : m.advance target more s = none)
    (rest : List Attempt) :
    m.loop target (.moved more :: rest) s = (.error (m.error target s .nothing), s) := by
  simp only [loop, hleft, if_false, hadvance]

theorem loop_ends {a : Attempt} (hleft : ¬ target ≤ m.completed s) (ha : a.smooth = false)
    (rest : List Attempt) : m.loop target (a :: rest) s = (.error (m.error target s a), s) := by
  cases a with
  | moved | again => cases ha
  | nothing | timedOut | failed | pollFailed => simp only [loop, hleft, if_false]

/-- A turn ends both loops with one error, or takes both to one state. -/
theorem timedLoop_step (hstart : 0 ≤ start.reading) (hturn : Regular start turn) (firstAttempt : Bool)
    (hleft : ¬ target ≤ m.completed s) :
    ∃ a t,
      (∃ e, (∀ rest since, m.timedLoop d target firstAttempt (turn :: rest) since s = some (.error e, s, t)) ∧
          m.loop target [a] s = (.error e, s) ∧
          (PollCall.Honest d turn.transfer.polls → e.code = .unavailable → d.reach start ≤ t.reading)) ∨
      ∃ s', (∀ rest since, m.timedLoop d target firstAttempt (turn :: rest) since s =
            m.timedLoop d target false rest t s') ∧
          ∀ attempts, m.loop target (a :: attempts) s = m.loop target attempts s' := by
  obtain ⟨r, t, a, hattempt, hamounts, hwhen⟩ :=
    attempt_amounts (m.pollCall target s) d hstart firstAttempt hturn
  refine ⟨a, t, ?_⟩
  cases ha : a.smooth with
  | false =>
    refine .inl ⟨m.error target s a, ?_, loop_ends hleft ha [], ?_⟩
    · intro rest since
      rw [timedLoop, if_neg hleft, hattempt]
      rcases hamounts with rfl | ⟨-, herror⟩
      · cases a with
        | moved | again => cases ha
        | nothing | timedOut | failed | pollFailed => rfl
      · rw [herror m.call m.zero]
        rfl
    · intro hhonest hcode
      exact hwhen hhonest (attemptError_unavailable ha hcode)
  | true =>
    obtain rfl := hamounts.eq_ok ha
    cases a with
    | nothing | timedOut | failed | pollFailed => cases ha
    | again =>
      refine .inr ⟨s, ?_, loop_again hleft⟩
      intro rest since
      rw [timedLoop, if_neg hleft, hattempt]
    | moved more =>
      cases hadvance : m.advance target more s with
      | none =>
        refine .inl ⟨m.error target s .nothing, ?_, loop_closed hleft hadvance [], fun _ h => by cases h⟩
        intro rest since
        simp only [timedLoop, hleft, if_false, hattempt, hadvance]
      | some s' =>
        refine .inr ⟨s', ?_, loop_moved hleft hadvance⟩
        intro rest since
        simp only [timedLoop, hleft, if_false, hattempt, hadvance]

/-- Against a clock the loop overflows nowhere and does what the loop without time does on some attempts;
    when it returns `kUnavailable`, the deadline has been reached. -/
theorem timedLoop_refines (m : Mover σ) (d : Deadline) (target : ℕ) (hstart : 0 ≤ start.reading)
    (firstAttempt : Bool) (turns : List TransferTurn) (since : ClockTime) (s : σ)
    (hturns : ∀ turn ∈ turns, Regular start turn) :
    ∃ attempts r s' t, m.timedLoop d target firstAttempt turns since s = some (r, s', t) ∧
      m.loop target attempts s = (r, s') ∧
      (Honest d turns → r.code = .unavailable → d.reach start ≤ t.reading) := by
  induction turns generalizing firstAttempt since s with
  | nil => exact ⟨[], _, _, since, rfl, rfl, fun _ h => absurd h (m.finish_code target s)⟩
  | cons turn rest ih =>
    by_cases hleft : target ≤ m.completed s
    · refine ⟨[.again], .ok (), s, since, ?_, loop_done hleft _ _, fun _ h => by cases h⟩
      rw [timedLoop, if_pos hleft]
    obtain ⟨hturn, hrest⟩ := List.forall_mem_cons.mp hturns
    obtain ⟨a, t, ⟨e, htimed, hloop, hreach⟩ | ⟨s', htimed, hloop⟩⟩ :=
      timedLoop_step hstart hturn firstAttempt hleft
    · exact ⟨[a], .error e, s, t, htimed rest since, hloop,
        fun hhonest => hreach (hhonest turn (List.mem_cons_self ..))⟩
    · obtain ⟨attempts, r, s'', t', htimed', hloop', hreach⟩ := ih false t s' hrest
      exact ⟨a :: attempts, r, s'', t', (htimed rest since).trans htimed', (hloop attempts).trans hloop',
        fun hhonest => hreach hhonest.tail⟩

end Refinement

end Mover

namespace TcpConnection

/-- Without time, the loop over `reading` is the loop of `ReadExact`. -/
theorem readLoop_of_loop {target : ℕ} {attempts : List Attempt} {incoming got left got' : Bytes}
    {r : Result Unit} (h : reading.loop target attempts (incoming, got) = (r, left, got')) :
    ∃ reads, readLoop target attempts incoming got = (r, got', left, reads) := by
  induction attempts generalizing incoming got with
  | nil =>
    simp only [Mover.loop, reading] at h
    rw [readLoop]
    split_ifs at h ⊢ <;> cases h <;> exact ⟨_, rfl⟩
  | cons attempt rest ih =>
    by_cases hgot : target ≤ got.length
    · rw [Mover.loop_done (m := reading) (s := (incoming, got)) hgot] at h
      cases h
      exact ⟨attempt :: rest, by simp only [readLoop, hgot, if_true]⟩
    · have hleft : ¬ target ≤ reading.completed (incoming, got) := hgot
      cases attempt with
      | moved more =>
        by_cases hempty : incoming.isEmpty = true
        · have hclosed : reading.advance target more (incoming, got) = none := if_pos hempty
          rw [Mover.loop_closed hleft hclosed] at h
          cases h
          exact ⟨rest, by rw [readLoop, if_neg hgot, if_pos hempty]; rfl⟩
        · rw [Mover.loop_moved hleft (if_neg hempty)] at h
          rw [readLoop, if_neg hgot, if_neg hempty]
          exact ih h
      | again =>
        rw [Mover.loop_again hleft] at h
        rw [readLoop, if_neg hgot]
        exact ih h
      | nothing | timedOut | failed | pollFailed =>
        rw [Mover.loop_ends hleft rfl] at h
        cases h
        exact ⟨rest, by simp only [readLoop, hgot, if_false]; rfl⟩

/-- Without time, the loop over `writing` is the loop of `WriteExact`. -/
theorem writeLoop_of_loop {target : ℕ} {attempts : List Attempt} {completed completed' : ℕ}
    {r : Result Unit} (h : writing.loop target attempts completed = (r, completed')) :
    ∃ writes, writeLoop target attempts completed = (r, completed', writes) := by
  induction attempts generalizing completed with
  | nil =>
    cases h
    exact ⟨[], rfl⟩
  | cons attempt rest ih =>
    by_cases hdone : target ≤ completed
    · rw [Mover.loop_done (m := writing) (s := completed) hdone] at h
      cases h
      exact ⟨attempt :: rest, by simp only [writeLoop, hdone, if_true]⟩
    · have hleft : ¬ target ≤ writing.completed completed := hdone
      cases attempt with
      | moved more =>
        rw [Mover.loop_moved hleft rfl] at h
        rw [writeLoop, if_neg hdone]
        exact ih h
      | again =>
        rw [Mover.loop_again hleft] at h
        rw [writeLoop, if_neg hdone]
        exact ih h
      | nothing | timedOut | failed | pollFailed =>
        rw [Mover.loop_ends hleft rfl] at h
        cases h
        exact ⟨rest, by simp only [writeLoop, hdone, if_false]; rfl⟩

/-! ### The calls -/

/-- The same connection with other attempts to come. -/
def withReads (conn : TcpConnection) (reads : List Attempt) : TcpConnection :=
  { conn with peer := { conn.peer with reads } }

def withWrites (conn : TcpConnection) (writes : List Attempt) : TcpConnection :=
  { conn with peer := { conn.peer with writes } }

@[simp] theorem withReads_socket (conn : TcpConnection) (reads : List Attempt) :
    (conn.withReads reads).socket = conn.socket := rfl

@[simp] theorem withReads_broken (conn : TcpConnection) (reads : List Attempt) :
    (conn.withReads reads).broken = conn.broken := rfl

@[simp] theorem withReads_peer (conn : TcpConnection) (reads : List Attempt) :
    (conn.withReads reads).peer = { conn.peer with reads } := rfl

@[simp] theorem withWrites_socket (conn : TcpConnection) (writes : List Attempt) :
    (conn.withWrites writes).socket = conn.socket := rfl

@[simp] theorem withWrites_broken (conn : TcpConnection) (writes : List Attempt) :
    (conn.withWrites writes).broken = conn.broken := rfl

@[simp] theorem withWrites_peer (conn : TcpConnection) (writes : List Attempt) :
    (conn.withWrites writes).peer = { conn.peer with writes } := rfl

/-- A call that ended with a code at a time: if it timed out, then not before it should. An `int` of
    milliseconds is as much as `poll` can be told at once. -/
def NotEarly (timeout : Milliseconds) (now : ClockTime) (turns : List TransferTurn) (code : StatusCode)
    (t : ClockTime) : Prop :=
  timeout.count.toInt ≤ Int32.maxValue.toInt → (∀ d, Deadline.make now timeout = some d → Honest d turns) →
    code = .unavailable → Deadline.ideal now timeout ≤ t.reading

section Calls

variable {conn : TcpConnection} {timeout : Milliseconds} {now : ClockTime} {turns : List TransferTurn}

theorem notEarly_of_reach {d : Deadline} {code : StatusCode} {t : ClockTime}
    (hmake : Deadline.make now timeout = some d) (hsaturates : d.Saturates now timeout)
    (hreach : Honest d turns → code = .unavailable → d.reach now ≤ t.reading) :
    NotEarly timeout now turns code t := by
  intro hint hhonest hcode
  exact (hsaturates.ideal_le_reach hint).trans (hreach (hhonest d hmake) hcode)

/-- Until there is a deadline, `ReadExact` does not depend on time. -/
theorem timedReadExact_idle {bytes : ℕ} (h : bytes = 0 ∨ conn.isOpen = false) :
    ∃ r, conn.timedReadExact bytes timeout now turns = some (r, conn, now) ∧
      (conn.withReads []).readExact bytes = (r, conn.withReads []) ∧ (conn.isOpen = true → r.code = .ok) := by
  by_cases hzero : bytes = 0
  · exact ⟨.ok [], by simp [timedReadExact, hzero], by simp [readExact, hzero], fun _ => rfl⟩
  have hclosed : conn.isOpen = false := h.resolve_left hzero
  rw [hclosed]
  rcases closed_or_broken hclosed with hsocket | ⟨hsocket, hbroken⟩
  · exact ⟨.error (.unavailable "TcpConnection::ReadExact: connection is closed"),
      by simp [timedReadExact, hzero, hsocket], by simp [readExact, hzero, hsocket],
      fun h => by cases h⟩
  · exact ⟨.error (.unavailable "TcpConnection::ReadExact: connection is broken"),
      by simp [timedReadExact, hzero, hsocket, hbroken], by simp [readExact, hzero, hsocket, hbroken],
      fun h => by cases h⟩

/-- TIMED: `ReadExact` with its deadline is `ReadExact` without time on some attempts, and on a usable
    connection it reports a time-out no earlier than asked for. -/
theorem timedReadExact_refines (conn : TcpConnection) (bytes : ℕ) (htimeout : 0 ≤ timeout.count.toInt)
    (hnow : 0 ≤ now.reading) (hturns : ∀ turn ∈ turns, Regular now turn) :
    ∃ attempts r conn' reads t,
      conn.timedReadExact bytes timeout now turns = some (r, conn', t) ∧
      (conn.withReads attempts).readExact bytes = (r, conn'.withReads reads) ∧
      (conn.isOpen = true → NotEarly timeout now turns r.code t) := by
  by_cases hidle : bytes = 0 ∨ conn.isOpen = false
  · obtain ⟨r, htimed, hread, hcode⟩ := timedReadExact_idle hidle
    refine ⟨[], r, conn, [], now, htimed, hread, ?_⟩
    intro hopen _ _ hunavailable
    rw [hcode hopen] at hunavailable
    cases hunavailable
  · obtain ⟨hzero, hopen⟩ : bytes ≠ 0 ∧ conn.isOpen = true := by simpa using hidle
    obtain ⟨hsocket, hbroken⟩ := isOpen_iff.mp hopen
    obtain ⟨d, hmake, hsaturates⟩ := Deadline.make_saturates hnow htimeout
    obtain ⟨attempts, r, ⟨left, got⟩, t, htimed, hloop, hreach⟩ :=
      reading.timedLoop_refines d bytes hnow true turns now (conn.peer.incoming, []) hturns
    obtain ⟨reads, hread⟩ := readLoop_of_loop hloop
    cases r with
    | ok =>
      refine ⟨attempts, .ok got, conn.afterRead got left conn.peer.reads, reads, t, ?_, ?_,
        fun _ _ _ h => by cases h⟩
      · simp [timedReadExact, hzero, hsocket, hbroken, hmake, htimed]
      · simp only [readExact, hzero, withReads_socket, hsocket, withReads_broken, hbroken, withReads_peer,
          hread, if_false, Bool.not_true, Bool.false_eq_true]
        rfl
    | error s =>
      refine ⟨attempts, .error s, (conn.afterRead got left conn.peer.reads).shutdown, reads, t, ?_, ?_,
        fun _ => notEarly_of_reach hmake hsaturates hreach⟩
      · simp [timedReadExact, hzero, hsocket, hbroken, hmake, htimed]
      · simp only [readExact, hzero, withReads_socket, hsocket, withReads_broken, hbroken, withReads_peer,
          hread, if_false, Bool.not_true, Bool.false_eq_true]
        rfl

/-- Until there is a deadline, `WriteExact` does not depend on time. -/
theorem timedWriteExact_idle {input : Bytes} (h : input = [] ∨ conn.isOpen = false) :
    ∃ r, conn.timedWriteExact input timeout now turns = some (r, conn, now) ∧
      (conn.withWrites []).writeExact input = (r, conn.withWrites []) ∧
      (conn.isOpen = true → r.code = .ok) := by
  by_cases hempty : input = []
  · exact ⟨.ok (), by simp [timedWriteExact, hempty], by simp [writeExact, hempty], fun _ => rfl⟩
  have hclosed : conn.isOpen = false := h.resolve_left hempty
  rw [hclosed]
  rcases closed_or_broken hclosed with hsocket | ⟨hsocket, hbroken⟩
  · exact ⟨.error (.unavailable "TcpConnection::WriteExact: connection is closed"),
      by simp [timedWriteExact, hempty, hsocket], by simp [writeExact, hempty, hsocket],
      fun h => by cases h⟩
  · exact ⟨.error (.unavailable "TcpConnection::WriteExact: connection is broken"),
      by simp [timedWriteExact, hempty, hsocket, hbroken], by simp [writeExact, hempty, hsocket, hbroken],
      fun h => by cases h⟩

/-- TIMED: `WriteExact` with its deadline is `WriteExact` without time on some attempts, and on a usable
    connection it reports a time-out no earlier than asked for. -/
theorem timedWriteExact_refines (conn : TcpConnection) (input : Bytes) (htimeout : 0 ≤ timeout.count.toInt)
    (hnow : 0 ≤ now.reading) (hturns : ∀ turn ∈ turns, Regular now turn) :
    ∃ attempts r conn' writes t,
      conn.timedWriteExact input timeout now turns = some (r, conn', t) ∧
      (conn.withWrites attempts).writeExact input = (r, conn'.withWrites writes) ∧
      (conn.isOpen = true → NotEarly timeout now turns r.code t) := by
  by_cases hidle : input = [] ∨ conn.isOpen = false
  · obtain ⟨r, htimed, hwrite, hcode⟩ := timedWriteExact_idle hidle
    refine ⟨[], r, conn, [], now, htimed, hwrite, ?_⟩
    intro hopen _ _ hunavailable
    rw [hcode hopen] at hunavailable
    cases hunavailable
  · obtain ⟨hempty, hopen⟩ : input ≠ [] ∧ conn.isOpen = true := by simpa using hidle
    have hsome : input.isEmpty = false := by simpa using hempty
    obtain ⟨hsocket, hbroken⟩ := isOpen_iff.mp hopen
    obtain ⟨d, hmake, hsaturates⟩ := Deadline.make_saturates hnow htimeout
    obtain ⟨attempts, r, completed, t, htimed, hloop, hreach⟩ :=
      writing.timedLoop_refines d input.length hnow true turns now 0 hturns
    obtain ⟨writes, hwrite⟩ := writeLoop_of_loop hloop
    cases r with
    | ok =>
      refine ⟨attempts, .ok (), conn.afterWrite (input.take completed) conn.peer.writes, writes, t, ?_, ?_,
        fun _ _ _ h => by cases h⟩
      · simp [timedWriteExact, hempty, hsocket, hbroken, hmake, htimed]
      · simp only [writeExact, hsome, withWrites_socket, hsocket, withWrites_broken, hbroken, withWrites_peer,
          hwrite, if_false, Bool.not_true, Bool.false_eq_true]
        rfl
    | error s =>
      refine ⟨attempts, .error s, (conn.afterWrite (input.take completed) conn.peer.writes).shutdown, writes,
        t, ?_, ?_, fun _ => notEarly_of_reach hmake hsaturates hreach⟩
      · simp [timedWriteExact, hempty, hsocket, hbroken, hmake, htimed]
      · simp only [writeExact, hsome, withWrites_socket, hsocket, withWrites_broken, hbroken, withWrites_peer,
          hwrite, if_false, Bool.not_true, Bool.false_eq_true]
        rfl

end Calls

end TcpConnection

end TidePool.Transport
