import TidePool.Transport.TimedTransfer

/-! `Connect` against a clock (`src/transport/tcp/tcp_connection.cpp`, `TcpConnection::Connect`).

    In `TcpConnection` a script says how dialling ends (`Dial`). Here it is computed: the name resolves to
    address candidates, which are tried in turn under one deadline.

        candidate:  Expired? --> socket --> configure --> connect --> PollReady --> SO_ERROR
                       |            |           |            |            |             |
                    time-out       next        next   next, connected  next, time-out  next, connected

    What comes out is always a `Dial`, and a time-out of it is not early. Without a time-out it is told by the
    candidates alone: the first one that connects, or the error of the last one (`Tries`). -/

namespace TidePool.Transport

open Schemes.Chrono

/-- What `getsockopt(SO_ERROR)` says of a socket that has become ready. -/
inductive SocketError where
  | unknown (errno : String)
  | error (errno : String)
  | clear

/-- How far an address candidate gets. -/
inductive Connecting where
  | socketFailed (errno : String)
  | configureFailed (message : String)
  | connected
  | connectFailed (errno : String)
  | inProgress (polls : List PollTurn) (socketError : SocketError)

def Connecting.polls : Connecting → List PollTurn
  | .inProgress polls _ => polls
  | _ => []

structure Candidate where
  now : ClockTime                 -- read by `Expired`
  connecting : Connecting

/-- What a candidate leads to. -/
inductive Dialled where
  | connected
  | next (lastError : String)
  | timedOut (lastError : String)

/-- The call of `PollReady` in `Connect`. -/
def connectCall : PollCall :=
  { requestedEvents := .pollOut, operation := "Connect", completed := 0, target := 0,
    letSocketErrorCallerInspect := true }

/-- The body of the loop of `Connect`, and the time it ends. -/
def Candidate.dial (d : Deadline) (lastError : String) (c : Candidate) : Option (Dialled × ClockTime) :=
  if d.expired c.now then some (.timedOut lastError, c.now)
  else
    match c.connecting with
    | .socketFailed errno => some (.next ("socket failed: " ++ errno), c.now)
    | .configureFailed message => some (.next message, c.now)
    | .connected => some (.connected, c.now)
    | .connectFailed errno => some (.next ("connect failed: " ++ errno), c.now)
    | .inProgress polls socketError =>
      match connectCall.pollReady d polls c.now with
      | none => none
      | some (v, t) =>
        match connectCall.status v, socketError with
        | .error s, _ => some (if s.code = .unavailable then .timedOut s.message else .next s.message, t)
        | .ok (), .unknown errno => some (.next ("getsockopt(SO_ERROR) failed: " ++ errno), t)
        | .ok (), .error errno => some (.next ("connect failed: " ++ errno), t)
        | .ok (), .clear => some (.connected, t)

/-- What a candidate leads to whose turn comes in time. -/
def Candidate.answer (c : Candidate) : Dialled :=
  match c.connecting with
  | .socketFailed errno => .next ("socket failed: " ++ errno)
  | .configureFailed message => .next message
  | .connected => .connected
  | .connectFailed errno => .next ("connect failed: " ++ errno)
  | .inProgress polls socketError =>
    match connectCall.status (connectCall.verdict polls), socketError with
    | .error s, _ => if s.code = .unavailable then .timedOut s.message else .next s.message
    | .ok (), .unknown errno => .next ("getsockopt(SO_ERROR) failed: " ++ errno)
    | .ok (), .error errno => .next ("connect failed: " ++ errno)
    | .ok (), .clear => .connected

/-- `Endpoint`. -/
def endpointText (host : String) (port : UInt16) : String := host ++ ":" ++ toString port.toNat

/-- The loop of `Connect`; `last` is read by the `Expired` behind it. -/
def dialLoop (d : Deadline) (endpoint : String) (peer : Peer) (last : ClockTime) :
    List Candidate → String → Option (Dial × ClockTime)
  | [], lastError =>
    if d.expired last then
      some (.timedOut ("TcpConnection::Connect timeout for " ++ endpoint ++ ": " ++ lastError), last)
    else some (.failed ("TcpConnection::Connect failed for " ++ endpoint ++ ": " ++ lastError), last)
  | c :: rest, lastError =>
    match c.dial d lastError with
    | none => none
    | some (.connected, t) => some (.connected peer, t)
    | some (.next lastError, _) => dialLoop d endpoint peer last rest lastError
    | some (.timedOut lastError, t) =>
      some (.timedOut ("TcpConnection::Connect timeout for " ++ endpoint ++ ": " ++ lastError), t)

/-- What the network holds for one call of `Connect`. -/
structure Dialling where
  resolved : Except String (List Candidate)   -- by `getaddrinfo`
  now : ClockTime                             -- read for the deadline
  last : ClockTime
  peer : Peer := {}

/-- `std::chrono::milliseconds` of an option. -/
def milliseconds (count : ℤ) : Milliseconds := ⟨Int64.ofInt count⟩

namespace TcpConnection

/-- `Connect`, and the time it returns. -/
def timedConnect (host : String) (port : UInt16) (options : TcpConnectionOptions) (dialling : Dialling) :
    Option (Except Raised TcpConnection × ClockTime) :=
  if host.isEmpty then
    some (.error (.status (.invalidArgument "TcpConnection::Connect: host is empty")), dialling.now)
  else if port = 0 then
    some (.error (.status (.invalidArgument "TcpConnection::Connect: port is zero")), dialling.now)
  else
    match validateOptions options, dialling.resolved with
    | .error s, _ => some (.error (.status s), dialling.now)
    | .ok (), .error text =>
      some (.error (.status (.networkError ("TcpConnection::Connect getaddrinfo failed for " ++
        endpointText host port ++ ": " ++ text))), dialling.now)
    | .ok (), .ok candidates =>
      match (Deadline.make dialling.now (milliseconds options.connectTimeout)).bind fun d =>
          dialLoop d (endpointText host port) dialling.peer dialling.last candidates
            "no address candidates" with
      | none => none
      | some (.connected peer, t) => some (.ok { socket := true, broken := false, peer }, t)
      | some (.failed message, t) => some (.error (.status (.networkError message)), t)
      | some (.timedOut message, t) => some (.error (.status (.unavailable message)), t)
      | some (.badAlloc, t) => some (.error .badAlloc, t)

end TcpConnection

/-! ### The loop over the candidates -/

/-- No reading of the clock for a candidate is before `start`. -/
structure Candidate.Regular (start : ClockTime) (c : Candidate) : Prop where
  now : start ≤ c.now
  polls : PollCall.After start c.connecting.polls

/-- `Connect` does not watch for a shutdown: only a time-out of `poll` is `kUnavailable`. -/
theorem connectCall_unavailable {v : Readiness} (hv : v ≠ .shutDown) {s : Status}
    (hstatus : connectCall.status v = .error s) (hcode : s.code = .unavailable) : v = .timedOut := by
  cases v with
  | ready => cases hstatus
  | shutDown => exact absurd rfl hv
  | timedOut => rfl
  | failed why => cases why <;> cases hstatus <;> cases hcode

/-- One candidate: nothing overflows, and a time-out is not early. -/
theorem Candidate.dial_spec {d : Deadline} {start : ClockTime} (hstart : 0 ≤ start.reading) {c : Candidate}
    (hc : c.Regular start) (lastError : String) :
    ∃ o t, c.dial d lastError = some (o, t) ∧
      ∀ message, o = .timedOut message → PollCall.Honest d c.connecting.polls →
        d.reach start ≤ t.reading := by
  obtain ⟨-, hafter⟩ := hc
  by_cases hexpired : d.expired c.now = true
  · exact ⟨_, _, by rw [dial, if_pos hexpired], fun _ _ _ => Deadline.reach_le_of_expired hexpired⟩
  · rw [dial, if_neg hexpired]
    cases hconnecting : c.connecting with
    | socketFailed | configureFailed | connected | connectFailed => exact ⟨_, _, rfl, fun _ h => by cases h⟩
    | inProgress polls socketError =>
      rw [hconnecting] at hafter
      obtain ⟨v, t, heq, hexplains⟩ := connectCall.pollReady_explains d hstart polls c.now hafter
      have hv : v ≠ .shutDown := by
        intro h
        obtain ⟨hwatches, -⟩ := hexplains.shutDown h
        cases hwatches
      simp only [heq]
      cases hstatus : connectCall.status v with
      | error s =>
        refine ⟨_, t, rfl, ?_⟩
        intro message ho hhonest
        by_cases hcode : s.code = .unavailable
        · rw [connectCall_unavailable hv hstatus hcode] at heq
          exact PollCall.pollReady_not_early hstart hafter hhonest heq
        · rw [if_neg hcode] at ho
          cases ho
      | ok =>
        cases socketError with
        | unknown | error | clear => exact ⟨_, t, rfl, fun _ h => by cases h⟩

/-- All candidates: nothing overflows, a time-out is not early, and `Connect` fails only after the last
    candidate, with the deadline still ahead. -/
theorem dialLoop_spec {d : Deadline} {start : ClockTime} (hstart : 0 ≤ start.reading) (endpoint : String)
    (peer : Peer) (last : ClockTime) (candidates : List Candidate) (lastError : String)
    (hcandidates : ∀ c ∈ candidates, c.Regular start) :
    ∃ dial t, dialLoop d endpoint peer last candidates lastError = some (dial, t) ∧
      (∀ message, dial = .timedOut message → (∀ c ∈ candidates, PollCall.Honest d c.connecting.polls) →
        d.reach start ≤ t.reading) ∧
      (∀ message, dial = .failed message → d.expired last = false) := by
  induction candidates generalizing lastError with
  | nil =>
    rw [dialLoop]
    by_cases hexpired : d.expired last = true
    · rw [if_pos hexpired]
      exact ⟨_, _, rfl, fun _ _ _ => Deadline.reach_le_of_expired hexpired, fun _ h => by cases h⟩
    · rw [if_neg hexpired]
      exact ⟨_, _, rfl, (fun _ h => by cases h), fun _ _ => by simpa using hexpired⟩
  | cons c rest ih =>
    obtain ⟨hc, hrest⟩ := List.forall_mem_cons.mp hcandidates
    obtain ⟨o, t, hdial, hreach⟩ := Candidate.dial_spec (d := d) hstart hc lastError
    rw [dialLoop, hdial]
    cases o with
    | connected => exact ⟨_, _, rfl, (fun _ h => by cases h), fun _ h => by cases h⟩
    | next lastError =>
      obtain ⟨dial, t', heq, htimedOut, hfailed⟩ := ih lastError hrest
      exact ⟨dial, t', heq, fun message h hhonest => htimedOut message h (List.forall_mem_cons.mp hhonest).2,
        hfailed⟩
    | timedOut lastError =>
      exact ⟨_, _, rfl, fun _ _ hhonest => hreach lastError rfl (List.forall_mem_cons.mp hhonest).1,
        fun _ h => by cases h⟩

namespace TcpConnection

theorem validateOptions_ok {options : TcpConnectionOptions} (h : validateOptions options = .ok ()) :
    0 ≤ options.connectTimeout := by
  unfold validateOptions at h
  split_ifs at h
  omega

/-- The kernel waits as long as it is told, whatever the deadline of the call. -/
def Dialling.Honest (options : TcpConnectionOptions) (dialling : Dialling) : Prop :=
  ∀ d candidates, Deadline.make dialling.now (milliseconds options.connectTimeout) = some d →
    dialling.resolved = .ok candidates → ∀ c ∈ candidates, PollCall.Honest d c.connecting.polls

/-- Two addresses: the first refuses, and the second does not answer for five seconds. -/
def unanswered : Dialling where
  resolved := .ok [⟨⟨⟨0⟩⟩, .connectFailed "Connection refused (errno=111)"⟩,
    ⟨⟨⟨0⟩⟩, .inProgress [⟨⟨⟨0⟩⟩, .timeout, ⟨⟨5000000000⟩⟩, false, false⟩] .clear⟩]
  now := ⟨⟨0⟩⟩
  last := ⟨⟨5000000000⟩⟩

theorem unanswered_regular :
    ∀ candidates, unanswered.resolved = .ok candidates → ∀ c ∈ candidates, c.Regular unanswered.now := by
  rintro candidates ⟨⟩ c hc
  rcases List.mem_pair.mp hc with rfl | rfl
  · exact ⟨by decide, by simp [PollCall.After, Connecting.polls]⟩
  · exact ⟨by decide, List.forall_mem_singleton.mpr (by decide)⟩

end TcpConnection

end TidePool.Transport
