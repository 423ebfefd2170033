import TidePool.Transport.Deadline
import TidePool.Transport.TcpConnection

/-! Waiting for a descriptor until a deadline (`src/transport/tcp/tcp_connection.cpp`, `PollReady`).

    The loop runs against a script of turns. A turn says what the clock shows when the deadline is asked for
    the argument of `poll`, what `poll` returns and when, and what the two looks at `externally_broken` see;
    where the script is over, the descriptor is ready.

        shut down? -> poll(ms) -> timeout             -> timed out
                         |------> EINTR               -> next turn
                         |------> another errno       -> failed
                         `------> revents -> shut down? -> NVAL, requested, ERR or HUP, other

    Nothing ties a script to a clock; what is needed of one is a hypothesis (`After`, `Honest`). -/

namespace TidePool.Transport

open Schemes.Chrono

/-- The flags of `revents` that are looked at. -/
structure Revents where
  pollIn : Bool := false
  pollOut : Bool := false
  pollErr : Bool := false
  pollHup : Bool := false
  pollNval : Bool := false

/-- `requested_events`. -/
inductive PollEvent where
  | pollIn
  | pollOut

def Revents.has (revents : Revents) : PollEvent → Bool
  | .pollIn => revents.pollIn
  | .pollOut => revents.pollOut

/-- What a call of `poll` returns. -/
inductive Polled where
  | timeout
  | interrupted
  | failed (errno : String)
  | events (revents : Revents)

structure PollTurn where
  now : ClockTime                 -- read for the argument of `poll`
  polled : Polled
  back : ClockTime                -- when `poll` returns
  brokenBefore : Bool := false
  brokenAfter : Bool := false

/-- The arguments of `PollReady` other than the descriptor and the deadline. -/
structure PollCall where
  requestedEvents : PollEvent
  operation : String
  completed : ℕ
  target : ℕ
  watchesBroken : Bool := false   -- `externally_broken` is not null
  letSocketErrorCallerInspect : Bool := false

/-- Why `PollReady` returns. -/
inductive Readiness where
  | ready
  | shutDown
  | timedOut
  | failed (why : PollFailure)

namespace PollCall

/-- The status of each way to return. -/
def status (call : PollCall) : Readiness → Result Unit
  | .ready => .ok ()
  | .shutDown => .error (.unavailable ("TcpConnection::" ++ call.operation ++
      " interrupted because the connection was shut down (" ++
      TcpConnection.progress call.completed call.target ++ " bytes completed)"))
  | .timedOut => .error (.unavailable ("TcpConnection::" ++ call.operation ++ " timeout (" ++
      TcpConnection.progress call.completed call.target ++ " bytes completed)"))
  | .failed (.failed errno) => .error (.networkError ("TcpConnection::" ++ call.operation ++
      " poll failed after " ++ TcpConnection.progress call.completed call.target ++ " bytes: " ++ errno))
  | .failed .invalid => .error (.networkError ("TcpConnection::" ++ call.operation ++
      " poll reported POLLNVAL after " ++ TcpConnection.progress call.completed call.target ++ " bytes"))
  | .failed .hangup => .error (.networkError ("TcpConnection::" ++ call.operation ++
      " peer closed or poll reported an error after " ++
      TcpConnection.progress call.completed call.target ++ " bytes"))
  | .failed .unexpected => .error (.networkError ("TcpConnection::" ++ call.operation ++
      " poll returned unexpected events after " ++
      TcpConnection.progress call.completed call.target ++ " bytes"))

/-- What `revents` means for the caller. -/
def inspect (call : PollCall) (revents : Revents) : Readiness :=
  if revents.pollNval then .failed .invalid
  else if revents.has call.requestedEvents then .ready
  else if call.letSocketErrorCallerInspect && (revents.pollErr || revents.pollHup) then .ready
  else if revents.pollErr || revents.pollHup then .failed .hangup
  else .failed .unexpected

/-- The loop of `PollReady`, and the time it returns; `none` where the deadline would overflow. -/
def pollReady (call : PollCall) (d : Deadline) : List PollTurn → ClockTime → Option (Readiness × ClockTime)
  | [], since => some (.ready, since)
  | turn :: rest, since =>
    if call.watchesBroken && turn.brokenBefore then some (.shutDown, since)
    else
      match d.pollTimeoutMilliseconds turn.now, turn.polled with
      | none, _ => none
      | some _, .timeout => some (.timedOut, turn.back)
      | some _, .interrupted => pollReady call d rest turn.back
      | some _, .failed errno => some (.failed (.failed errno), turn.back)
      | some _, .events revents =>
        if call.watchesBroken && turn.brokenAfter then some (.shutDown, turn.back)
        else some (call.inspect revents, turn.back)

/-- What the loop makes of its turns; the deadline has no say in it but through what `poll` is told. -/
def verdict (call : PollCall) : List PollTurn → Readiness
  | [] => .ready
  | turn :: rest =>
    if call.watchesBroken && turn.brokenBefore then .shutDown
    else
      match turn.polled with
      | .timeout => .timedOut
      | .interrupted => verdict call rest
      | .failed errno => .failed (.failed errno)
      | .events revents => if call.watchesBroken && turn.brokenAfter then .shutDown else call.inspect revents

/-- The clock does not go back behind `start`. -/
def After (start : ClockTime) (turns : List PollTurn) : Prop := ∀ turn ∈ turns, start ≤ turn.now

/-- Nobody shuts the connection down meanwhile. -/
def Undisturbed (turns : List PollTurn) : Prop :=
  ∀ turn ∈ turns, turn.brokenBefore = false ∧ turn.brokenAfter = false

/-- What a return says about the turns: a time-out is one of `poll`, and a shutdown was seen. -/
structure Explains (call : PollCall) (turns : List PollTurn) (v : Readiness) (t : ClockTime) : Prop where
  timedOut : v = .timedOut → ∃ turn ∈ turns, turn.polled = .timeout ∧ turn.back = t
  shutDown : v = .shutDown → call.watchesBroken = true ∧ ¬ Undisturbed turns

theorem Explains.cons {call : PollCall} {turns : List PollTurn} {v : Readiness} {t : ClockTime}
    (h : Explains call turns v t) (turn : PollTurn) : Explains call (turn :: turns) v t where
  timedOut hv := by
    obtain ⟨last, hmem, hlast⟩ := h.timedOut hv
    exact ⟨last, List.mem_cons_of_mem _ hmem, hlast⟩
  shutDown hv := by
    obtain ⟨hwatches, hdisturbed⟩ := h.shutDown hv
    exact ⟨hwatches, fun hall => hdisturbed fun t ht => hall t (List.mem_cons_of_mem _ ht)⟩

theorem explains_shutDown {call : PollCall} {turn : PollTurn} (rest : List PollTurn) (t : ClockTime)
    (hwatches : call.watchesBroken = true) (hbroken : turn.brokenBefore = true ∨ turn.brokenAfter = true) :
    Explains call (turn :: rest) .shutDown t where
  timedOut hv := by cases hv
  shutDown _ := by
    refine ⟨hwatches, fun hall => ?_⟩
    obtain ⟨hbefore, hafter⟩ := hall turn (List.mem_cons_self ..)
    simp [hbefore, hafter] at hbroken

/-- The other ways to return need no explanation. -/
theorem explains_other {call : PollCall} (turns : List PollTurn) {v : Readiness} (t : ClockTime)
    (htimedOut : v ≠ .timedOut) (hshutDown : v ≠ .shutDown) : Explains call turns v t :=
  ⟨fun hv => absurd hv htimedOut, fun hv => absurd hv hshutDown⟩

theorem inspect_ne (call : PollCall) (revents : Revents) :
    call.inspect revents ≠ .timedOut ∧ call.inspect revents ≠ .shutDown := by
  unfold inspect
  split_ifs <;> simp

/-- `PollReady` returns, and the turns say why. -/
theorem pollReady_explains (call : PollCall) (d : Deadline) {start : ClockTime} (hstart : 0 ≤ start.reading)
    (turns : List PollTurn) (since : ClockTime) (hafter : After start turns) :
    ∃ v t, pollReady call d turns since = some (v, t) ∧ Explains call turns v t := by
  induction turns generalizing since with
  | nil => exact ⟨.ready, since, rfl, explains_other [] since (by simp) (by simp)⟩
  | cons turn rest ih =>
    have hnow : 0 ≤ turn.now.reading :=
      Int.le_trans hstart (TimePoint.le_iff.mp (hafter turn (List.mem_cons_self ..)))
    obtain ⟨ms, hms, -⟩ := d.pollTimeoutMilliseconds_waits hnow
    rw [pollReady, hms]
    by_cases hbefore : (call.watchesBroken && turn.brokenBefore) = true
    · rw [if_pos hbefore]
      obtain ⟨hwatches, hbroken⟩ := Bool.and_eq_true_iff.mp hbefore
      exact ⟨_, _, rfl, explains_shutDown rest since hwatches (.inl hbroken)⟩
    · rw [if_neg hbefore]
      cases hpolled : turn.polled with
      | timeout =>
        refine ⟨_, _, rfl, fun _ => ⟨turn, List.mem_cons_self .., hpolled, rfl⟩, ?_⟩
        intro hv
        cases hv
      | interrupted =>
        obtain ⟨v, t, heq, hexplains⟩ := ih turn.back fun t ht => hafter t (List.mem_cons_of_mem _ ht)
        exact ⟨v, t, heq, hexplains.cons turn⟩
      | failed errno => exact ⟨_, _, rfl, explains_other _ _ (by simp) (by simp)⟩
      | events revents =>
        by_cases hbroken : (call.watchesBroken && turn.brokenAfter) = true
        · obtain ⟨hwatches, hsaw⟩ := Bool.and_eq_true_iff.mp hbroken
          exact ⟨_, _, if_pos hbroken, explains_shutDown rest turn.back hwatches (.inr hsaw)⟩
        · obtain ⟨htimedOut, hshutDown⟩ := call.inspect_ne revents
          exact ⟨_, _, if_neg hbroken, explains_other _ _ htimedOut hshutDown⟩

/-- The kernel waits as long as it is told: `poll` times out no earlier. -/
def Honest (d : Deadline) (turns : List PollTurn) : Prop :=
  ∀ turn ∈ turns, ∀ ms, d.pollTimeoutMilliseconds turn.now = some ms → turn.polled = .timeout →
    turn.now.reading + ms.toInt * 1000000 ≤ turn.back.reading

/-- A time-out of `PollReady` comes at the expiry or later, unless an `int` of milliseconds ends before. -/
theorem pollReady_not_early {call : PollCall} {d : Deadline} {start : ClockTime} (hstart : 0 ≤ start.reading)
    {turns : List PollTurn} {since t : ClockTime} (hafter : After start turns) (hhonest : Honest d turns)
    (htimeout : pollReady call d turns since = some (.timedOut, t)) : d.reach start ≤ t.reading := by
  obtain ⟨v, t', heq, hexplains⟩ := pollReady_explains call d hstart turns since hafter
  rw [htimeout] at heq
  cases heq
  obtain ⟨turn, hmem, hpolled, rfl⟩ := hexplains.timedOut rfl
  have hlater := TimePoint.le_iff.mp (hafter turn hmem)
  have hnow : 0 ≤ turn.now.reading := Int.le_trans hstart hlater
  obtain ⟨ms, hms, hwaits⟩ := d.pollTimeoutMilliseconds_waits hnow
  have hreach := hwaits.reach_le
  have hback := hhonest turn hmem ms hms hpolled
  simp only [Deadline.reach] at hreach ⊢
  omega

-- After an `int` of milliseconds, not quite twenty-five days, a longer wait is given up before its deadline.
example : pollReady { requestedEvents := .pollIn, operation := "ReadExact", completed := 0, target := 1 }
      ⟨⟨⟨4000000000000000⟩⟩⟩ [{ now := ⟨⟨0⟩⟩, polled := .timeout, back := ⟨⟨2147483647000000⟩⟩ }] ⟨⟨0⟩⟩ =
    some (.timedOut, ⟨⟨2147483647000000⟩⟩) := by rfl

end PollCall

end TidePool.Transport
