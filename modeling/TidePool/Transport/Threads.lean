import TidePool.Transport.Descriptors

/-! `Shutdown` from another thread (`src/transport/tcp/tcp_connection.cpp`).

    One thread transfers with `ReadExact` and `WriteExact`. Any number of others may call `Shutdown`
    meanwhile, and nothing else (`include/tidepool/transport/tcp_connection.h`). What they share is the
    atomic `broken_` and the socket; the steps between two accesses of these are one action here, and the
    actions of all threads, of the peer and of the kernel come in any order.

        Shutdown:              exchange --false--> ::shutdown
        ReadExact, WriteExact: head --> recv, send --> EAGAIN --> broken_? --> poll --> broken_? --> head
                                |           |                        |           |          |
                                `-----------`-------> MarkBroken: exchange --false--> ::shutdown

    `Effect` says what an action of the transferring thread can do; what a call comes to is compared with
    the loops of `TcpConnection`, in which there is one thread. -/

namespace TidePool.Transport

open TcpSocket

/-! ### The transferring thread -/

/-- Its calls. -/
inductive IoCall where
  | read (bytes : ℕ)
  | write (input : Bytes)

namespace IoCall

def target : IoCall → ℕ
  | .read bytes => bytes
  | .write input => input.length

def requestedEvents : IoCall → PollEvent
  | .read _ => .pollIn
  | .write _ => .pollOut

def operation : IoCall → String
  | .read _ => "ReadExact"
  | .write _ => "WriteExact"

/-- The status of a turn that ends the loop. -/
def error : IoCall → ℕ → Attempt → Status
  | .read bytes, completed => TcpConnection.readError completed bytes
  | .write input, completed => TcpConnection.writeError completed input.length

/-- The status of a call on a connection that is broken already. -/
def refused (call : IoCall) : Status :=
  .unavailable ("TcpConnection::" ++ call.operation ++ ": connection is broken")

/-- The arguments of `PollReady`. -/
def pollCall (call : IoCall) (completed : ℕ) : PollCall :=
  { requestedEvents := call.requestedEvents, operation := call.operation, completed, target := call.target,
    watchesBroken := true }

end IoCall

/-- Where the thread is inside a call; one action leads from each place to the next. -/
inductive IoPc where
  | head (firstAttempt : Bool)           -- `completed < bytes`, and `Expired`
  | transfer                             -- `recv` or `send`
  | pollEnter                            -- the first look at `externally_broken`
  | pollWait                             -- in `poll`
  | pollLeave (revents : Revents)        -- the second look
  | markBroken (why : Status)            -- the exchange in `MarkBroken`
  | shutDown (why : Status)              -- and its `::shutdown`

structure Io where
  call : IoCall
  moved : Bytes := []                    -- the bytes transferred so far
  pc : IoPc := .head true

/-- A call that has returned. -/
structure IoReply where
  call : IoCall
  moved : Bytes
  result : Result Unit

/-- What `recv` or `send` returns. -/
inductive Returned where
  | moved (more : ℕ)                     -- up to `more + 1` bytes
  | zero
  | interrupted
  | wouldBlock
  | failed (errno : String)

/-- One action of the thread, with what the kernel or the clock says to it. -/
inductive IoAction where
  | looksAtClock (late : Bool)
  | transfers (ret : Returned)
  | looksAtFlag
  | polls (polled : Polled)
  | exchanges
  | shutsDown (outcome : ShutdownCall)

namespace IoAction

/-- A signal ended the system call. -/
def interrupted : IoAction → Bool
  | .transfers .interrupted | .polls .interrupted => true
  | _ => false

/-- Neither a signal nor the passing of time is behind it. -/
def prompt : IoAction → Bool
  | .looksAtClock late => !late
  | .transfers .interrupted | .polls .interrupted | .polls .timeout => false
  | _ => true

end IoAction

/-! ### The socket -/

/-- The kernel's side of the connection. -/
structure Socket where
  incoming : Bytes := []                 -- arrived and not read
  eof : Bool := false                    -- the peer has closed its side
  reset : Bool := false
  room : Bool := true                    -- in the send buffer
  shutdowns : List ShutdownCall := []    -- the calls of `::shutdown` so far

namespace Socket

/-- One of the calls of `::shutdown` had effect. -/
def shut (k : Socket) : Bool := k.shutdowns.any fun c => decide (c.status = .ok ())

/-- `poll` does not wait. -/
def ready (k : Socket) : PollEvent → Bool
  | .pollIn => k.shut || k.reset || k.eof || !k.incoming.isEmpty
  | .pollOut => k.shut || k.reset || k.room

/-- What `recv` and `send` may return. -/
def permits (k : Socket) : IoCall → Returned → Bool
  | .read _, .moved _ => !k.incoming.isEmpty
  | .read _, .zero => k.incoming.isEmpty && (k.eof || k.shut)
  | .write _, .moved _ => k.room && !k.shut
  | .write _, .zero => k.room && !k.shut
  | call, .wouldBlock => !k.ready call.requestedEvents
  | _, .interrupted => true
  | _, .failed _ => true

/-- `::shutdown`. -/
def shutdown (k : Socket) (outcome : ShutdownCall) : Socket :=
  { k with shutdowns := k.shutdowns ++ [outcome] }

end Socket

/-! ### All threads -/

/-- A connection that is open, and the threads that use it. -/
structure Threads (ι : Type) where
  broken : Bool := false
  socket : Socket := {}
  io : Option Io := none
  inside : ι → Bool := fun _ => false    -- in `Shutdown`, between the exchange and `::shutdown`
  delivered : Bytes := []                -- all that has arrived; only recorded, as `replies` is
  replies : List IoReply := []

inductive ThreadEvent (ι : Type) where
  | arrives (bytes : Bytes)
  | peerCloses
  | peerResets
  | drains (room : Bool)
  | calls (call : IoCall)
  | io (action : IoAction)
  | shutdown (i : ι)
  | shutsDown (i : ι) (outcome : ShutdownCall)

namespace ThreadEvent

variable {ι : Type}

/-- It is an action of the transferring thread. -/
def acts : ThreadEvent ι → Bool
  | .io _ => true
  | _ => false

def interrupts : ThreadEvent ι → Bool
  | .io action => action.interrupted
  | _ => false

end ThreadEvent

namespace Threads

variable {ι : Type}

/-- The call goes on at another place. -/
def goesTo (s : Threads ι) (io : Io) (pc : IoPc) : Threads ι := { s with io := some { io with pc } }

def returns (s : Threads ι) (io : Io) (result : Result Unit) : Threads ι :=
  { s with io := none, replies := s.replies ++ [⟨io.call, io.moved, result⟩] }

/-- The loop ends with an attempt. -/
def ends (s : Threads ι) (io : Io) (a : Attempt) : Threads ι :=
  s.goesTo io (.markBroken (io.call.error io.moved.length a))

/-- `PollReady` returns. -/
def polled (s : Threads ι) (io : Io) (v : Readiness) : Threads ι :=
  match (io.call.pollCall io.moved.length).status v with
  | .ok () => s.goesTo io (.head false)
  | .error why => s.goesTo io (.markBroken why)

/-- `recv` or `send` returns. -/
def transferred (s : Threads ι) (io : Io) : Returned → Threads ι
  | .moved more =>
    let chunk := min (more + 1) (io.call.target - io.moved.length)
    match io.call with
    | .read _ =>
      { s with
        socket := { s.socket with incoming := s.socket.incoming.drop chunk }
        io := some { io with moved := io.moved ++ s.socket.incoming.take chunk, pc := .head false } }
    | .write input =>
      { s with io := some { io with moved := input.take (io.moved.length + chunk), pc := .head false } }
  | .zero => s.ends io .nothing
  | .interrupted => s.goesTo io (.head false)
  | .wouldBlock => s.goesTo io .pollEnter
  | .failed errno => s.ends io (.failed errno)

/-- One action of the transferring thread; `none` where it is not what comes next. -/
def act (s : Threads ι) (io : Io) : IoPc → IoAction → Option (Threads ι)
  | .head firstAttempt, .looksAtClock late =>
    if io.call.target ≤ io.moved.length then some (s.returns io (.ok ()))
    else if !firstAttempt && late then some (s.ends io .timedOut)
    else some (s.goesTo io .transfer)
  | .transfer, .transfers ret => if s.socket.permits io.call ret then some (s.transferred io ret) else none
  | .pollEnter, .looksAtFlag =>
    if s.broken then some (s.polled io .shutDown) else some (s.goesTo io .pollWait)
  | .pollWait, .polls .timeout => some (s.polled io .timedOut)
  | .pollWait, .polls .interrupted => some (s.goesTo io .pollEnter)
  | .pollWait, .polls (.failed errno) => some (s.polled io (.failed (.failed errno)))
  | .pollWait, .polls (.events revents) =>
    if s.socket.ready io.call.requestedEvents then some (s.goesTo io (.pollLeave revents)) else none
  | .pollLeave revents, .looksAtFlag =>
    if s.broken then some (s.polled io .shutDown)
    else some (s.polled io ((io.call.pollCall io.moved.length).inspect revents))
  | .markBroken why, .exchanges =>
    if s.broken then some (s.returns io (.error why))
    else some { s.goesTo io (.shutDown why) with broken := true }
  | .shutDown why, .shutsDown outcome =>
    some ({ s with socket := s.socket.shutdown outcome }.returns io (.error why))
  | _, _ => none

variable [DecidableEq ι]

/-- One event, and what a call of `Shutdown` that it ends returns; an error where it cannot happen. -/
def step (s : Threads ι) : ThreadEvent ι → Except Unit (Option (Result Unit) × Threads ι)
  | .arrives bytes => .ok (none,
      { s with
        delivered := s.delivered ++ bytes
        socket := { s.socket with incoming := s.socket.incoming ++ bytes } })
  | .peerCloses => .ok (none, { s with socket := { s.socket with eof := true } })
  | .peerResets => .ok (none, { s with socket := { s.socket with reset := true } })
  | .drains room => .ok (none, { s with socket := { s.socket with room } })
  | .calls call =>
    match s.io with
    | some _ => .error ()
    | none =>
      if call.target = 0 then .ok (none, s.returns { call } (.ok ()))
      else if s.broken then .ok (none, s.returns { call } (.error call.refused))
      else .ok (none, { s with io := some { call } })
  | .io action =>
    match s.io.bind fun io => s.act io io.pc action with
    | none => .error ()
    | some t => .ok (none, t)
  | .shutdown i =>
    if s.inside i then .error ()
    else if s.broken then .ok (some (.ok ()), s)
    else .ok (none, { s with broken := true, inside := Function.update s.inside i true })
  | .shutsDown i outcome =>
    if s.inside i then
      .ok (some outcome.status,
        { s with socket := s.socket.shutdown outcome, inside := Function.update s.inside i false })
    else .error ()

end Threads

/-! ### What a call comes to without other threads -/

namespace IoCall

/-- The bytes that come from the stream. -/
def taken : IoCall → Bytes → Bytes
  | .read _, moved => moved
  | .write _, _ => []

/-- The status of a call that finds itself shut down. -/
def interrupted (call : IoCall) (completed : ℕ) : Status :=
  .unavailable ("TcpConnection::" ++ call.operation ++
    " interrupted because the connection was shut down (" ++
    TcpConnection.progress completed call.target ++ " bytes completed)")

/-- What the call may have transferred. -/
def Accepts : IoCall → Bytes → Prop
  | .read bytes, moved => moved.length ≤ bytes
  | .write input, moved => moved <+: input

/-- The loop of `TcpConnection` takes these bytes and returns this, on some attempts and whatever comes
    later. -/
def Alone : IoCall → Bytes → Result Unit → Prop
  | .read bytes, moved, result => ∃ attempts, ∀ later, ∃ reads,
      TcpConnection.readLoop bytes attempts (moved ++ later) [] = (result, moved, later, reads)
  | .write input, moved, result => ∃ attempts writes,
      TcpConnection.writeLoop input.length attempts 0 = (result, moved.length, writes)

/-- The same loop comes as far as these bytes. -/
def Led : IoCall → Bytes → Prop
  | .read bytes, moved => ∃ attempts, ∀ rest later,
      TcpConnection.reading.loop bytes (attempts ++ rest) (moved ++ later, []) =
        TcpConnection.reading.loop bytes rest (later, moved)
  | .write input, moved => ∃ attempts, ∀ rest,
      TcpConnection.writing.loop input.length (attempts ++ rest) 0 =
        TcpConnection.writing.loop input.length rest moved.length

variable {call : IoCall} {moved : Bytes}

theorem led_nil (call : IoCall) : call.Led [] := by
  cases call with
  | read bytes => exact ⟨[], fun _ _ => rfl⟩
  | write input => exact ⟨[], fun _ => rfl⟩

theorem accepts_nil (call : IoCall) : call.Accepts [] := by
  cases call with
  | read bytes => exact Nat.zero_le _
  | write input => exact List.nil_prefix

theorem Accepts.length_le (h : call.Accepts moved) : moved.length ≤ call.target := by
  cases call with
  | read bytes => exact h
  | write input => exact List.IsPrefix.length_le h

/-- Bytes that are read lead on. -/
theorem Led.read {bytes : ℕ} {chunk : Bytes} (h : (IoCall.read bytes).Led moved) (hchunk : chunk ≠ [])
    (hfits : moved.length + chunk.length ≤ bytes) : (IoCall.read bytes).Led (moved ++ chunk) := by
  obtain ⟨attempts, hattempts⟩ := h
  have hpos : 0 < chunk.length := List.length_pos_iff.mpr hchunk
  refine ⟨attempts ++ [.moved (chunk.length - 1)], fun rest later => ?_⟩
  have hleft : ¬ bytes ≤ TcpConnection.reading.completed (chunk ++ later, moved) := by
    simp only [TcpConnection.reading]
    omega
  have hmin : min (chunk.length - 1 + 1) (bytes - moved.length) = chunk.length := by omega
  have hadvance : TcpConnection.reading.advance bytes (chunk.length - 1) (chunk ++ later, moved) =
      some (later, moved ++ chunk) := by
    simp [TcpConnection.reading, hmin, hchunk]
  rw [List.append_assoc, List.append_assoc, hattempts]
  exact Mover.loop_moved hleft hadvance rest

/-- Bytes that are written lead on. -/
theorem Led.write {input : Bytes} {more : ℕ} (h : (IoCall.write input).Led moved)
    (hleft : moved.length < input.length) :
    (IoCall.write input).Led (input.take (moved.length + min (more + 1) (input.length - moved.length))) := by
  obtain ⟨attempts, hattempts⟩ := h
  refine ⟨attempts ++ [.moved more], fun rest => ?_⟩
  have hlength : (input.take (moved.length + min (more + 1) (input.length - moved.length))).length =
      moved.length + min (more + 1) (input.length - moved.length) := by
    rw [List.length_take]
    omega
  rw [List.append_assoc, hattempts, hlength]
  exact Mover.loop_moved (not_le.mpr hleft) rfl rest

/-- The loop ends once everything is transferred. -/
theorem Led.done (h : call.Led moved) (hdone : call.target ≤ moved.length) : call.Alone moved (.ok ()) := by
  cases call with
  | read bytes =>
    obtain ⟨attempts, hattempts⟩ := h
    exact ⟨attempts ++ [.again], fun later => TcpConnection.readLoop_of_loop
      ((hattempts _ later).trans (Mover.loop_done (m := TcpConnection.reading) hdone _ _))⟩
  | write input =>
    obtain ⟨attempts, hattempts⟩ := h
    exact ⟨attempts ++ [.again], TcpConnection.writeLoop_of_loop
      ((hattempts _).trans (Mover.loop_done (m := TcpConnection.writing) hdone _ _))⟩

/-- An attempt that is not smooth ends the loop. -/
theorem Led.ends (h : call.Led moved) (hleft : moved.length < call.target) {a : Attempt}
    (ha : a.smooth = false) : call.Alone moved (.error (call.error moved.length a)) := by
  cases call with
  | read bytes =>
    obtain ⟨attempts, hattempts⟩ := h
    exact ⟨attempts ++ [a], fun later => TcpConnection.readLoop_of_loop
      ((hattempts _ later).trans (Mover.loop_ends (m := TcpConnection.reading) (not_le.mpr hleft) ha []))⟩
  | write input =>
    obtain ⟨attempts, hattempts⟩ := h
    exact ⟨attempts ++ [a], TcpConnection.writeLoop_of_loop
      ((hattempts _).trans (Mover.loop_ends (m := TcpConnection.writing) (not_le.mpr hleft) ha []))⟩

/-- How a call may end: as without other threads, or because of them. -/
def Explains (call : IoCall) (moved : Bytes) (result : Result Unit) : Prop :=
  call.Alone moved result ∨ result = .error (call.interrupted moved.length) ∨
    moved = [] ∧ result = .error call.refused

/-- `PollReady` fails as the loop does on an attempt, or because of another thread. -/
theorem explains_status (h : call.Led moved) (hleft : moved.length < call.target) {v : Readiness}
    {why : Status}
    (hv : (call.pollCall moved.length).status v = .error why) : call.Explains moved (.error why) := by
  by_cases hshut : v = .shutDown
  · subst hshut
    refine .inr (.inl ?_)
    rw [← hv]
    cases call <;> rfl
  · obtain ⟨a, hamounts, -⟩ := TcpConnection.amounts_status (call.pollCall moved.length) hshut
    rw [hv] at hamounts
    rcases hamounts with hok | ⟨hends, herror⟩
    · cases hok
    · have hwhy : why = call.error moved.length a := by
        cases call with
        | read bytes => exact Except.error.inj (herror "recv" "peer EOF")
        | write input => exact Except.error.inj (herror "send" "send made no progress")
      rw [hwhy]
      exact .inl (h.ends hleft hends)

end IoCall

/-! ### What an action does -/

/-- What is known of a call at each place. -/
def Io.Sound (io : Io) : Prop :=
  io.call.Accepts io.moved ∧
    match io.pc with
    | .head _ => io.call.Led io.moved
    | .markBroken why | .shutDown why => io.call.Explains io.moved (.error why)
    | _ => io.call.Led io.moved ∧ io.moved.length < io.call.target

/-- About to call `::shutdown`. -/
def Io.About (io : Io) : Prop := ∃ why, io.pc = .shutDown why

/-- The bytes a call has taken from the stream. -/
def Io.taking (io : Io) : Bytes := io.call.taken io.moved

/-- How many more actions a call takes at most, once the socket is shut down and nothing is interrupted. -/
def Io.work (io : Io) : ℕ :=
  match io.pc with
  | .head _ => 2 * (io.call.target - io.moved.length) + 5
  | .transfer => 2 * (io.call.target - io.moved.length) + 4
  | .pollWait => 4
  | .pollEnter | .pollLeave _ => 3
  | .markBroken _ => 2
  | .shutDown _ => 1

namespace Threads

variable {ι : Type}

/-- From one place to the next there is less to do, up to signals. -/
def Shortens (s : Threads ι) (io : Io) (action : IoAction) (io' : Io) : Prop :=
  s.broken = true → s.socket.shut = true → io'.work + 1 ≤ io.work + if action.interrupted then 2 else 0

/-- The actions of the transferring thread: it goes on, it returns, it sets the flag, it shuts the socket
    down. -/
inductive Effect (s : Threads ι) (io : Io) (action : IoAction) : Threads ι → Prop where
  | goesOn (io' : Io) (left : Bytes) (hsound : io'.Sound) (hio : ¬ io.About) (hio' : ¬ io'.About)
      (hstream : io.taking ++ s.socket.incoming = io'.taking ++ left) (hshortens : s.Shortens io action io') :
      Effect s io action { s with socket := { s.socket with incoming := left }, io := some io' }
  | returns (result : Result Unit) (hexplains : io.call.Explains io.moved result)
      (hok : result = .ok () → io.call.target ≤ io.moved.length) (herror : result ≠ .ok () → s.broken = true)
      (hio : ¬ io.About) : Effect s io action (s.returns io result)
  | exchanges (why : Status) (hexplains : io.call.Explains io.moved (.error why)) (hbroken : s.broken = false)
      (hio : ¬ io.About) : Effect s io action { s.goesTo io (.shutDown why) with broken := true }
  | shutsDown (why : Status) (outcome : ShutdownCall) (hexplains : io.call.Explains io.moved (.error why))
      (hio : io.About) :
      Effect s io action ({ s with socket := s.socket.shutdown outcome }.returns io (.error why))

theorem effect_goesTo {s : Threads ι} {io : Io} {action : IoAction} {pc : IoPc}
    (hsound : Io.Sound { io with pc })
    (hio : ¬ io.About) (hpc : ∀ why, pc ≠ .shutDown why) (hshortens : s.Shortens io action { io with pc }) :
    Effect s io action (s.goesTo io pc) :=
  .goesOn { io with pc } s.socket.incoming hsound hio (fun ⟨why, h⟩ => hpc why h) rfl hshortens

/-- `PollReady` lets the loop go on only if the connection is not broken. -/
theorem effect_polled {s : Threads ι} {io : Io} {action : IoAction} (haccepts : io.call.Accepts io.moved)
    (hled : io.call.Led io.moved) (hleft : io.moved.length < io.call.target) (hio : ¬ io.About)
    {v : Readiness}
    (hwork : 3 ≤ io.work) (hready : v = .ready → s.broken = false) : Effect s io action (s.polled io v) := by
  unfold polled
  cases hv : (io.call.pollCall io.moved.length).status v with
  | ok =>
    have hbroken : s.broken = false := by
      cases v with
      | ready => exact hready rfl
      | shutDown | timedOut => cases hv
      | failed why => cases why <;> cases hv
    refine effect_goesTo ⟨haccepts, hled⟩ hio (fun _ h => by cases h) fun h => ?_
    cases hbroken.symm.trans h
  | error why =>
    exact effect_goesTo ⟨haccepts, IoCall.explains_status hled hleft hv⟩ hio (fun _ h => by cases h)
      fun _ _ => Nat.le_add_right_of_le hwork

theorem effect_ends {s : Threads ι} {io : Io} {action : IoAction} (haccepts : io.call.Accepts io.moved)
    (hled : io.call.Led io.moved) (hleft : io.moved.length < io.call.target) (hio : ¬ io.About) {a : Attempt}
    (ha : a.smooth = false) (hwork : 3 ≤ io.work) : Effect s io action (s.ends io a) :=
  effect_goesTo ⟨haccepts, .inl (hled.ends hleft ha)⟩ hio (fun _ h => by cases h)
    fun _ _ => Nat.le_add_right_of_le hwork

theorem effect_transferred {s : Threads ι} {io : Io} (hpc : io.pc = .transfer)
    (haccepts : io.call.Accepts io.moved) (hled : io.call.Led io.moved)
    (hleft : io.moved.length < io.call.target) {ret : Returned}
    (hpermits : s.socket.permits io.call ret = true) :
    Effect s io (.transfers ret) (s.transferred io ret) := by
  have hio : ¬ io.About := fun ⟨_, hw⟩ => by cases hpc.symm.trans hw
  have hwork : io.work = 2 * (io.call.target - io.moved.length) + 4 := by rw [Io.work, hpc]
  have hmany : 3 ≤ io.work := by omega
  cases ret with
  | moved more =>
    obtain ⟨call, moved, pc⟩ := io
    obtain rfl : pc = .transfer := hpc
    cases call with
    | read bytes =>
      simp only [Socket.permits, Bool.not_eq_true', List.isEmpty_eq_false_iff] at hpermits
      have hsome : 0 < s.socket.incoming.length := List.length_pos_iff.mpr hpermits
      have hrest : moved.length < bytes := hleft
      have htake : s.socket.incoming.take (min (more + 1) (bytes - moved.length)) ≠ [] := by
        rw [← List.length_pos_iff, List.length_take]
        omega
      have hfits : moved.length + (s.socket.incoming.take (min (more + 1) (bytes - moved.length))).length ≤
          bytes := by
        rw [List.length_take]
        omega
      refine .goesOn ⟨.read bytes, _, .head false⟩ _ ⟨?_, hled.read htake hfits⟩ hio
        (fun ⟨_, h⟩ => by cases h) ?_ ?_
      · exact (List.length_append ..).trans_le hfits
      · simp only [Io.taking, IoCall.taken, List.append_assoc, IoCall.target, List.take_append_drop]
      · intro _ _
        have hpos := List.length_pos_iff.mpr htake
        simp only [Io.work, IoCall.target, List.length_append]
        omega
    | write input =>
      have hrest : moved.length < input.length := hleft
      refine .goesOn ⟨.write input, _, .head false⟩ s.socket.incoming
        ⟨List.take_prefix _ _, hled.write hleft⟩ hio
        (fun ⟨_, h⟩ => by cases h) rfl ?_
      intro _ _
      simp only [Io.work, IoCall.target, List.length_take]
      omega
  | zero => exact effect_ends haccepts hled hleft hio rfl hmany
  | interrupted =>
    refine effect_goesTo ⟨haccepts, hled⟩ hio (fun _ h => by cases h) fun _ _ => ?_
    rw [hwork]
    simp only [Io.work, IoAction.interrupted, if_true]
    omega
  | wouldBlock =>
    refine effect_goesTo ⟨haccepts, hled, hleft⟩ hio (fun _ h => by cases h) fun _ _ => ?_
    exact Nat.le_add_right_of_le (by rw [hwork]; exact Nat.le_add_left 4 _)
  | failed errno => exact effect_ends haccepts hled hleft hio rfl hmany

/-- ACTION: what the transferring thread can do. -/
theorem act_effect {s t : Threads ι} {io : Io} (hsound : io.Sound) {action : IoAction}
    (h : s.act io io.pc action = some t) : Effect s io action t := by
  obtain ⟨haccepts, hplace⟩ := hsound
  have hstay : ∀ {pc}, io.pc = pc → (∀ why, pc ≠ .shutDown why) → ¬ io.About :=
    fun hpc hne ⟨why, hw⟩ => hne why (hpc.symm.trans hw)
  cases hpc : io.pc with
  | head firstAttempt =>
    have hio := hstay hpc fun _ h => by cases h
    have hwork : io.work = 2 * (io.call.target - io.moved.length) + 5 := by rw [Io.work, hpc]
    rw [hpc] at h hplace
    cases action with
    | looksAtClock late =>
      simp only [act] at h
      by_cases hdone : io.call.target ≤ io.moved.length
      · rw [if_pos hdone] at h
        cases h
        exact .returns (.ok ()) (.inl (hplace.done hdone)) (fun _ => hdone) (fun hne => absurd rfl hne) hio
      rw [if_neg hdone] at h
      by_cases hlate : (!firstAttempt && late) = true
      · rw [if_pos hlate] at h
        cases h
        exact effect_ends haccepts hplace (not_le.mp hdone) hio rfl (by omega)
      · rw [if_neg hlate] at h
        cases h
        exact effect_goesTo ⟨haccepts, hplace, not_le.mp hdone⟩ hio (fun _ h => by cases h)
          fun _ _ => Nat.le_add_right_of_le hwork.ge
    | transfers | looksAtFlag | polls | exchanges | shutsDown => cases h
  | transfer =>
    rw [hpc] at h hplace
    cases action with
    | transfers ret =>
      simp only [act] at h
      by_cases hpermits : s.socket.permits io.call ret = true
      · rw [if_pos hpermits] at h
        cases h
        exact effect_transferred hpc haccepts hplace.1 hplace.2 hpermits
      · rw [if_neg hpermits] at h
        cases h
    | looksAtClock | looksAtFlag | polls | exchanges | shutsDown => cases h
  | pollEnter =>
    have hio := hstay hpc fun _ h => by cases h
    have hwork : io.work = 3 := by rw [Io.work, hpc]
    rw [hpc] at h hplace
    cases action with
    | looksAtFlag =>
      simp only [act] at h
      by_cases hbroken : s.broken = true
      · rw [if_pos hbroken] at h
        cases h
        exact effect_polled haccepts hplace.1 hplace.2 hio hwork.ge fun h => by cases h
      · rw [if_neg hbroken] at h
        cases h
        exact effect_goesTo ⟨haccepts, hplace⟩ hio (fun _ h => by cases h) fun h => absurd h hbroken
    | looksAtClock | transfers | polls | exchanges | shutsDown => cases h
  | pollWait =>
    have hio := hstay hpc fun _ h => by cases h
    have hwork : io.work = 4 := by rw [Io.work, hpc]
    rw [hpc] at h hplace
    cases action with
    | polls polled =>
      cases polled with
      | timeout =>
        cases h
        exact effect_polled haccepts hplace.1 hplace.2 hio (by omega) fun h => by cases h
      | interrupted =>
        cases h
        exact effect_goesTo ⟨haccepts, hplace⟩ hio (fun _ h => by cases h)
          fun _ _ => Nat.le_add_right_of_le hwork.ge
      | failed errno =>
        cases h
        exact effect_polled haccepts hplace.1 hplace.2 hio (by omega) fun h => by cases h
      | events revents =>
        simp only [act] at h
        by_cases hready : s.socket.ready io.call.requestedEvents = true
        · rw [if_pos hready] at h
          cases h
          exact effect_goesTo ⟨haccepts, hplace⟩ hio (fun _ h => by cases h)
            fun _ _ => Nat.le_add_right_of_le hwork.ge
        · rw [if_neg hready] at h
          cases h
    | looksAtClock | transfers | looksAtFlag | exchanges | shutsDown => cases h
  | pollLeave revents =>
    have hio := hstay hpc fun _ h => by cases h
    have hwork : io.work = 3 := by rw [Io.work, hpc]
    rw [hpc] at h hplace
    cases action with
    | looksAtFlag =>
      simp only [act] at h
      by_cases hbroken : s.broken = true
      · rw [if_pos hbroken] at h
        cases h
        exact effect_polled haccepts hplace.1 hplace.2 hio hwork.ge fun h => by cases h
      · rw [if_neg hbroken] at h
        cases h
        exact effect_polled haccepts hplace.1 hplace.2 hio hwork.ge fun _ => by simpa using hbroken
    | looksAtClock | transfers | polls | exchanges | shutsDown => cases h
  | markBroken why =>
    have hio := hstay hpc fun _ h => by cases h
    rw [hpc] at h hplace
    cases action with
    | exchanges =>
      simp only [act] at h
      by_cases hbroken : s.broken = true
      · rw [if_pos hbroken] at h
        cases h
        exact .returns (.error why) hplace (fun hok => by cases hok) (fun _ => hbroken) hio
      · rw [if_neg hbroken] at h
        cases h
        exact .exchanges why hplace (by simpa using hbroken) hio
    | looksAtClock | transfers | looksAtFlag | polls | shutsDown => cases h
  | shutDown why =>
    have hio : io.About := ⟨why, hpc⟩
    rw [hpc] at h hplace
    cases action with
    | shutsDown outcome =>
      cases h
      exact .shutsDown why outcome hplace hio
    | looksAtClock | transfers | looksAtFlag | polls | exchanges => cases h

end Threads

end TidePool.Transport
