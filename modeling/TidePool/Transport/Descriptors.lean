import Mathlib.Data.Finset.Lattice.Fold
import Mathlib.Data.Stream.Defs
import Mathlib.Order.Lattice.Nat
import TidePool.Schemes.Machine
import TidePool.Schemes.Ownership
import TidePool.Transport.TimedConnect

/-! Who closes a socket (`src/transport/tcp/tcp_connection.cpp`, `ScopedFd` and the special members of
    `TcpConnection`).

    A descriptor is a number that the kernel gives out again once it is closed, so closing it twice closes
    somebody else's. It comes from `socket` in `Connect`, or it was the program's own until it called
    `AdoptConnectedSocket`, and has to be closed once on every path:

        socket / program  ->  ScopedFd  --release-->  TcpConnection  --move-->  TcpConnection
                                 |                        |                         |
                             ~ScopedFd                  Close, operator=, ~TcpConnection

    `Kernel` keeps the open descriptors, and whether a `close` has hit any other; `Sockets` keeps which of
    them are the program's own. A program is any sequence of calls on connection objects and on its own
    descriptors. An adoption that fails still takes the descriptor, and closes it. -/

namespace TidePool.Transport

open Schemes Schemes.Chrono

/-! ### Descriptors -/

/-- The open descriptors; `stray`: a `close` was called on another one. -/
structure Kernel where
  opened : Finset ℕ := ∅
  stray : Bool := false

namespace Kernel

/-- A new descriptor. -/
def add (k : Kernel) (fd : ℕ) : Kernel := { k with opened := insert fd k.opened }

/-- `::close`. -/
def close (k : Kernel) (fd : ℕ) : Kernel where
  opened := k.opened.erase fd
  stray := k.stray || decide (fd ∉ k.opened)

/-- `::socket` gives any number that is not open: `hint`, if that is one. -/
def fresh (k : Kernel) (hint : ℕ) : ℕ := if hint ∈ k.opened then k.opened.sup id + 1 else hint

theorem fresh_notMem (k : Kernel) (hint : ℕ) : k.fresh hint ∉ k.opened := by
  unfold fresh
  split
  · intro hmem
    have hle : k.opened.sup id + 1 ≤ k.opened.sup id := Finset.le_sup (f := id) hmem
    omega
  · assumption

/-- A descriptor that comes and goes leaves nothing behind. -/
theorem close_add {k : Kernel} {fd : ℕ} (h : fd ∉ k.opened) : (k.add fd).close fd = k := by
  simp [add, close, Finset.erase_insert h]

theorem stray_close {k : Kernel} {fd : ℕ} (h : fd ∈ k.opened) : (k.close fd).stray = k.stray := by
  simp [close, h]

end Kernel

/-! ### Connecting -/

/-- `ScopedFd candidate(CreateNonBlockingSocket(*address))`, where the loop of `Connect` comes that far. -/
def Candidate.scopedFd (d : Deadline) (c : Candidate) (hint : ℕ) (k : Kernel) : Option ℕ × Kernel :=
  if d.expired c.now then (none, k)
  else
    match c.connecting with
    | .socketFailed _ => (none, k)
    | _ => (some (k.fresh hint), k.add (k.fresh hint))

/-- `~ScopedFd`. -/
def Kernel.leaveScope (k : Kernel) : Option ℕ → Kernel
  | none => k
  | some fd => k.close fd

/-- The loop of `Connect` with the descriptors it makes; on success one of them is released. -/
def descriptorLoop (d : Deadline) (endpoint : String) (peer : Peer) (last : ClockTime) :
    List Candidate → Stream' ℕ → String → Kernel → Option (Dial × Option ℕ × Kernel)
  | [], _, lastError, k => (dialLoop d endpoint peer last [] lastError).map fun res => (res.1, none, k)
  | c :: rest, hints, lastError, k =>
    let (fd, k) := c.scopedFd d hints.head k
    match c.dial d lastError with
    | none => none
    | some (.connected, _) => some (.connected peer, fd, k)
    | some (.next lastError, _) =>
      descriptorLoop d endpoint peer last rest hints.tail lastError (k.leaveScope fd)
    | some (.timedOut lastError, _) =>
      some (.timedOut ("TcpConnection::Connect timeout for " ++ endpoint ++ ": " ++ lastError), none,
        k.leaveScope fd)

/-- Forgetting the descriptors gives the loop of before. -/
theorem descriptorLoop_erase (d : Deadline) (endpoint : String) (peer : Peer) (last : ClockTime)
    (candidates : List Candidate) (hints : Stream' ℕ) (lastError : String) (k : Kernel) :
    (descriptorLoop d endpoint peer last candidates hints lastError k).map (fun res => res.1) =
      (dialLoop d endpoint peer last candidates lastError).map fun res => res.1 := by
  induction candidates generalizing hints lastError k with
  | nil => simp [descriptorLoop, Option.map_map, Function.comp_def]
  | cons c rest ih =>
    simp only [descriptorLoop, dialLoop]
    cases c.dial d lastError with
    | none => rfl
    | some res =>
      obtain ⟨o, t⟩ := res
      cases o with
      | connected => rfl
      | next lastError => exact ih _ _ _
      | timedOut lastError => rfl

theorem Candidate.scopedFd_cases (d : Deadline) (c : Candidate) (hint : ℕ) (k : Kernel) :
    (∃ fd, c.scopedFd d hint k = (some fd, k.add fd) ∧ fd ∉ k.opened) ∨
      c.scopedFd d hint k = (none, k) ∧ ∀ lastError t, c.dial d lastError ≠ some (.connected, t) := by
  unfold Candidate.scopedFd Candidate.dial
  by_cases hexpired : d.expired c.now = true
  · rw [if_pos hexpired]
    refine .inr ⟨rfl, fun lastError t => ?_⟩
    rw [if_pos hexpired]
    simp
  · rw [if_neg hexpired]
    cases hconnecting : c.connecting with
    | socketFailed errno =>
      refine .inr ⟨rfl, fun lastError t => ?_⟩
      rw [if_neg hexpired]
      simp
    | configureFailed | connected | connectFailed | inProgress => exact .inl ⟨_, rfl, k.fresh_notMem hint⟩

/-- SCOPE: the loop releases one new descriptor if it connects, and else leaves the kernel as it found it. -/
theorem descriptorLoop_spec {d : Deadline} {endpoint : String} {peer : Peer} {last : ClockTime}
    {candidates : List Candidate} {hints : Stream' ℕ} {lastError : String} {k k' : Kernel} {dial : Dial}
    {fd : Option ℕ}
    (h : descriptorLoop d endpoint peer last candidates hints lastError k = some (dial, fd, k')) :
    (∃ n, dial = .connected peer ∧ fd = some n ∧ n ∉ k.opened ∧ k' = k.add n) ∨
      (∀ peer, dial ≠ .connected peer) ∧ fd = none ∧ k' = k := by
  induction candidates generalizing hints lastError k with
  | nil =>
    simp only [descriptorLoop, dialLoop] at h
    by_cases hexpired : d.expired last = true
    · rw [if_pos hexpired] at h
      cases h
      exact .inr ⟨fun _ => by simp, rfl, rfl⟩
    · rw [if_neg hexpired] at h
      cases h
      exact .inr ⟨fun _ => by simp, rfl, rfl⟩
  | cons c rest ih =>
    simp only [descriptorLoop] at h
    -- whatever the candidate made is closed when its turn ends
    have hscope : (c.scopedFd d hints.head k).2.leaveScope (c.scopedFd d hints.head k).1 = k := by
      rcases c.scopedFd_cases d hints.head k with ⟨n, heq, hn⟩ | ⟨heq, -⟩
      · rw [heq]
        exact Kernel.close_add hn
      · rw [heq]
        rfl
    rw [hscope] at h
    cases hdial : c.dial d lastError with
    | none =>
      rw [hdial] at h
      cases h
    | some res =>
      obtain ⟨o, t⟩ := res
      rw [hdial] at h
      cases o with
      | connected =>
        rcases c.scopedFd_cases d hints.head k with ⟨n, heq, hn⟩ | ⟨-, hnot⟩
        · rw [heq] at h
          cases h
          exact .inl ⟨n, rfl, rfl, hn, rfl⟩
        · exact absurd hdial (hnot lastError t)
      | next lastError => exact ih h
      | timedOut lastError =>
        cases h
        exact .inr ⟨fun _ => by simp, rfl, rfl⟩

/-! ### Connection objects -/

/-- The members of `TcpConnection`. -/
structure TcpSocket where
  socketFd : ℤ := -1
  options : TcpConnectionOptions := {}
  broken : Bool := true

namespace TcpSocket

/-- The descriptor the object is to close. -/
def descriptor (s : TcpSocket) : Option ℕ := if s.socketFd < 0 then none else some s.socketFd.toNat

def isOpen (s : TcpSocket) : Bool := decide (0 ≤ s.socketFd) && !s.broken

def markBroken (s : TcpSocket) : TcpSocket := { s with broken := true }

/-- `Close`, which is also the destructor. -/
def close (s : TcpSocket) (k : Kernel) : TcpSocket × Kernel :=
  if s.socketFd < 0 then ({ s with broken := true }, k)
  else ({ s with socketFd := -1, broken := true }, k.close s.socketFd.toNat)

/-- What a move leaves of its source. -/
def movedFrom (s : TcpSocket) : TcpSocket := { s with socketFd := -1, broken := true }

/-- `TcpConnection(fd, options)` of a descriptor released by a `ScopedFd`. -/
def owning (fd : ℕ) (options : TcpConnectionOptions) : TcpSocket := ⟨fd, options, false⟩

@[simp] theorem descriptor_movedFrom (s : TcpSocket) : s.movedFrom.descriptor = none := rfl

theorem descriptor_owning (fd : ℕ) (options : TcpConnectionOptions) :
    (owning fd options).descriptor = some fd := by
  rw [descriptor, if_neg (by simp [owning])]
  rfl

/-- `Close` is `~ScopedFd` of the descriptor, and a second one does nothing. -/
theorem close_spec (s : TcpSocket) (k : Kernel) :
    (s.close k).1.descriptor = none ∧ (s.close k).2 = k.leaveScope s.descriptor := by
  unfold close descriptor
  by_cases hfd : s.socketFd < 0
  · simp [hfd, Kernel.leaveScope]
  · simp [hfd, Kernel.leaveScope]

/-- How `::shutdown` ends. -/
inductive ShutdownCall where
  | done
  | notConnected                  -- `ENOTCONN` or `EINVAL`
  | failed (errno : String)

/-- What `Shutdown` makes of it. -/
def ShutdownCall.status : ShutdownCall → Result Unit
  | .done | .notConnected => .ok ()
  | .failed errno => .error (.networkError ("TcpConnection::Shutdown failed: " ++ errno))

def shutdown (s : TcpSocket) (call : ShutdownCall) : Result Unit × TcpSocket :=
  if s.socketFd < 0 ∨ s.broken then (.ok (), s.markBroken) else (call.status, s.markBroken)

/-- `Connect`, with the descriptors it makes. -/
def connect (host : String) (port : UInt16) (options : TcpConnectionOptions) (dialling : Dialling)
    (hints : Stream' ℕ) (k : Kernel) : Option (Except Raised TcpSocket × Kernel) :=
  if host.isEmpty then some (.error (.status (.invalidArgument "TcpConnection::Connect: host is empty")), k)
  else if port = 0 then some (.error (.status (.invalidArgument "TcpConnection::Connect: port is zero")), k)
  else
    match TcpConnection.validateOptions options, dialling.resolved with
    | .error s, _ => some (.error (.status s), k)
    | .ok (), .error text =>
      some (.error (.status (.networkError ("TcpConnection::Connect getaddrinfo failed for " ++
        endpointText host port ++ ": " ++ text))), k)
    | .ok (), .ok candidates =>
      match (Deadline.make dialling.now (milliseconds options.connectTimeout)).bind fun d =>
          descriptorLoop d (endpointText host port) dialling.peer dialling.last candidates hints
            "no address candidates" k with
      | none => none
      | some (.connected _, fd, k) => some (.ok (fd.elim {} (owning · options)), k)
      | some (.failed message, _, k) => some (.error (.status (.networkError message)), k)
      | some (.timedOut message, _, k) => some (.error (.status (.unavailable message)), k)
      | some (.badAlloc, _, k) => some (.error .badAlloc, k)

/-- Without its descriptors it is the `Connect` of before: it succeeds alike and fails with the same
    status. -/
theorem connect_erase (host : String) (port : UInt16) (options : TcpConnectionOptions) (dialling : Dialling)
    (hints : Stream' ℕ) (k : Kernel) :
    (connect host port options dialling hints k).map (fun res => res.1.map fun _ => ()) =
      (TcpConnection.timedConnect host port options dialling).map fun res => res.1.map fun _ => () := by
  unfold connect TcpConnection.timedConnect
  by_cases hhost : host.isEmpty = true
  · simp only [hhost, if_true, Option.map_some, Except.map]
  by_cases hport : port = 0
  · rw [if_neg hhost, if_pos hport, if_neg hhost, if_pos hport]
    rfl
  rw [if_neg hhost, if_neg hport, if_neg hhost, if_neg hport]
  cases hvalid : TcpConnection.validateOptions options with
  | error s => rfl
  | ok =>
    cases hresolved : dialling.resolved with
    | error text => rfl
    | ok candidates =>
      cases hmake : Deadline.make dialling.now (milliseconds options.connectTimeout) with
      | none => rfl
      | some d =>
        simp only [Option.bind_some]
        have herase := descriptorLoop_erase d (endpointText host port) dialling.peer dialling.last
          candidates hints
          "no address candidates" k
        cases hloop : descriptorLoop d (endpointText host port) dialling.peer dialling.last candidates hints
            "no address candidates" k with
        | none =>
          cases hdial : dialLoop d (endpointText host port) dialling.peer dialling.last candidates
              "no address candidates" with
          | none => rfl
          | some res =>
            rw [hloop, hdial] at herase
            cases herase
        | some res =>
          cases hdial : dialLoop d (endpointText host port) dialling.peer dialling.last candidates
              "no address candidates" with
          | none =>
            rw [hloop, hdial] at herase
            cases herase
          | some res' =>
            obtain ⟨dial, fd, k'⟩ := res
            obtain ⟨dial', t⟩ := res'
            rw [hloop, hdial] at herase
            obtain rfl : dial = dial' := Option.some.inj herase
            cases dial <;> rfl

/-- CONNECT: within the range of the clock it returns. A connection has one new descriptor, and a failure
    leaves the kernel as it was. -/
theorem connect_spec (host : String) (port : UInt16) {options : TcpConnectionOptions} {dialling : Dialling}
    (hints : Stream' ℕ) (k : Kernel) (hfits : Fits options.connectTimeout) (hnow : 0 ≤ dialling.now.reading)
    (hcandidates : ∀ candidates, dialling.resolved = .ok candidates →
    ∀ c ∈ candidates, c.Regular dialling.now) :
    (∃ conn fd, connect host port options dialling hints k = some (.ok conn, k.add fd) ∧ fd ∉ k.opened ∧
      conn.descriptor = some fd) ∨
    ∃ r, connect host port options dialling hints k = some (.error r, k) := by
  unfold connect
  by_cases hhost : host.isEmpty = true
  · rw [if_pos hhost]
    exact .inr ⟨_, rfl⟩
  by_cases hport : port = 0
  · rw [if_neg hhost, if_pos hport]
    exact .inr ⟨_, rfl⟩
  rw [if_neg hhost, if_neg hport]
  cases hvalid : TcpConnection.validateOptions options with
  | error s => exact .inr ⟨_, rfl⟩
  | ok =>
    cases hresolved : dialling.resolved with
    | error text => exact .inr ⟨_, rfl⟩
    | ok candidates =>
      have htimeout : 0 ≤ (milliseconds options.connectTimeout).count.toInt := by
        rw [milliseconds, Int64.toInt_ofInt_of_le hfits.1 hfits.2]
        exact TcpConnection.validateOptions_ok hvalid
      obtain ⟨d, hmake, -⟩ := Deadline.make_saturates hnow htimeout
      obtain ⟨dial, t, hdial, -⟩ := dialLoop_spec (d := d) hnow (endpointText host port) dialling.peer
        dialling.last candidates "no address candidates" (hcandidates candidates hresolved)
      have herase := descriptorLoop_erase d (endpointText host port) dialling.peer dialling.last candidates
        hints
        "no address candidates" k
      rw [hdial] at herase
      obtain ⟨⟨dial', fd, k'⟩, hloop, -⟩ := Option.map_eq_some_iff.mp herase
      simp only [hmake, Option.bind_some, hloop]
      rcases descriptorLoop_spec hloop with ⟨n, rfl, rfl, hn, rfl⟩ | ⟨hfailed, rfl, rfl⟩
      · exact .inl ⟨owning n options, n, rfl, hn, descriptor_owning n options⟩
      · cases dial' with
        | connected peer => exact absurd rfl (hfailed peer)
        | failed | timedOut | badAlloc => exact .inr ⟨_, rfl⟩

/-- What the checks of `ValidateConnectedStreamSocket` find. -/
inductive StreamCheck where
  | notSocket (errno : String)
  | notStream
  | notConnected (errno : String)
  | passed

def validateConnectedStreamSocket : StreamCheck → Result Unit
  | .notSocket errno =>
    .error (.invalidArgument ("TcpConnection::AdoptConnectedSocket: fd is not a socket: " ++ errno))
  | .notStream => .error (.invalidArgument "TcpConnection::AdoptConnectedSocket: socket is not SOCK_STREAM")
  | .notConnected errno =>
    .error (.invalidArgument ("TcpConnection::AdoptConnectedSocket: socket is not connected: " ++ errno))
  | .passed => .ok ()

/-- The `fcntl` of `ConfigureSocket` that fails, if any. -/
inductive Configuring where
  | getFlags (errno : String)
  | setFlags (errno : String)
  | getDescriptorFlags (errno : String)
  | setDescriptorFlags (errno : String)
  | configured

def configureSocket : Configuring → Result Unit
  | .getFlags errno => .error (.networkError ("TcpConnection: fcntl(F_GETFL) failed: " ++ errno))
  | .setFlags errno => .error (.networkError ("TcpConnection: fcntl(F_SETFL O_NONBLOCK) failed: " ++ errno))
  | .getDescriptorFlags errno => .error (.networkError ("TcpConnection: fcntl(F_GETFD) failed: " ++ errno))
  | .setDescriptorFlags errno =>
    .error (.networkError ("TcpConnection: fcntl(F_SETFD FD_CLOEXEC) failed: " ++ errno))
  | .configured => .ok ()

/-- `AdoptConnectedSocket`: the descriptor is the library's from here on, on every path. -/
def adoptConnectedSocket (fd : ℤ) (options : TcpConnectionOptions) (check : StreamCheck)
    (configuring : Configuring) (k : Kernel) : Result TcpSocket × Kernel :=
  if fd < 0 then (.error (.invalidArgument "TcpConnection::AdoptConnectedSocket: fd is negative"), k)
  else
    match TcpConnection.validateOptions options with
    | .error s => (.error s, k.leaveScope (some fd.toNat))
    | .ok () =>
      match validateConnectedStreamSocket check with
      | .error s => (.error s, k.leaveScope (some fd.toNat))
      | .ok () =>
        match configureSocket configuring with
        | .error s => (.error s, k.leaveScope (some fd.toNat))
        | .ok () => (.ok (owning fd.toNat options), k)

/-- ADOPT: the connection has the descriptor, or it is closed. -/
theorem adoptConnectedSocket_spec {fd : ℤ} (hfd : 0 ≤ fd) (options : TcpConnectionOptions)
    (check : StreamCheck) (configuring : Configuring) (k : Kernel) :
    (∃ conn, adoptConnectedSocket fd options check configuring k = (.ok conn, k) ∧
      conn.descriptor = some fd.toNat) ∨
    ∃ s, adoptConnectedSocket fd options check configuring k = (.error s, k.close fd.toNat) := by
  rw [adoptConnectedSocket, if_neg (by omega)]
  cases TcpConnection.validateOptions options with
  | error s => exact .inr ⟨s, rfl⟩
  | ok =>
    cases validateConnectedStreamSocket check with
    | error s => exact .inr ⟨s, rfl⟩
    | ok =>
      cases configureSocket configuring with
      | error s => exact .inr ⟨s, rfl⟩
      | ok => exact .inl ⟨_, rfl, descriptor_owning _ options⟩

@[simp] theorem descriptor_shutdown (s : TcpSocket) (call : ShutdownCall) :
    (s.shutdown call).2.descriptor = s.descriptor := by
  unfold shutdown
  split <;> rfl

end TcpSocket

/-! ### Programs -/

/-- A program's connection objects (`none`: there is no object), its own descriptors, and all the open
    ones. -/
structure Sockets (ι : Type) where
  objects : ι → Option TcpSocket := fun _ => none
  callers : Finset ℕ := ∅
  kernel : Kernel := {}

inductive SocketCall (ι : Type) where
  | accept (hint : ℕ)             -- the program gets a descriptor of its own
  | discard (fd : ℕ)              -- and closes it again
  | construct (i : ι)
  | connect (i : ι) (host : String) (port : UInt16) (options : TcpConnectionOptions) (dialling : Dialling)
      (hints : Stream' ℕ)
  | adopt (i : ι) (fd : ℤ) (options : TcpConnectionOptions) (check : TcpSocket.StreamCheck)
      (configuring : TcpSocket.Configuring)
  | moveConstruct (i j : ι)
  | moveAssign (i j : ι)
  | markBroken (i : ι)            -- a `ReadExact` or `WriteExact` that fails
  | shutdown (i : ι) (call : TcpSocket.ShutdownCall)
  | close (i : ι)
  | destroy (i : ι)

/-- The descriptor that an adoption is given, if it is one. -/
def handed (fd : ℤ) : Finset ℕ := if fd < 0 then ∅ else {fd.toNat}

/-- What the program hands over in a call. -/
def SocketCall.hands {ι : Type} : SocketCall ι → Finset ℕ
  | .adopt _ fd _ _ _ => handed fd
  | _ => ∅

namespace Sockets

variable {ι : Type} [DecidableEq ι]

def set (s : Sockets ι) (i : ι) (o : Option TcpSocket) (k : Kernel) : Sockets ι :=
  { s with objects := Function.update s.objects i o, kernel := k }

/-- The program has handed its descriptor over. -/
def handOver (s : Sockets ι) (fd : ℤ) : Sockets ι := { s with callers := s.callers \ handed fd }

/-- One call; a constructor needs a place without an object, the other members need an object. -/
def step (s : Sockets ι) : SocketCall ι → Except Unit (Except Raised Unit × Sockets ι)
  | .accept hint =>
    .ok (.ok (), { s with
      callers := insert (s.kernel.fresh hint) s.callers
      kernel := s.kernel.add (s.kernel.fresh hint) })
  | .discard fd => .ok (.ok (), { s with callers := s.callers.erase fd, kernel := s.kernel.close fd })
  | .construct i =>
    match s.objects i with
    | some _ => .ok (.ok (), s)
    | none => .ok (.ok (), s.set i (some {}) s.kernel)
  | .connect i host port options dialling hints =>
    match s.objects i with
    | some _ => .ok (.ok (), s)
    | none =>
      match TcpSocket.connect host port options dialling hints s.kernel with
      | none => .error ()
      | some (.error r, k) => .ok (.error r, { s with kernel := k })
      | some (.ok conn, k) => .ok (.ok (), s.set i (some conn) k)
  | .adopt i fd options check configuring =>
    match s.objects i with
    | some _ => .ok (.ok (), s)
    | none =>
      match TcpSocket.adoptConnectedSocket fd options check configuring s.kernel with
      | (.error st, k) => .ok (.error (.status st), { s.handOver fd with kernel := k })
      | (.ok conn, k) => .ok (.ok (), (s.handOver fd).set i (some conn) k)
  | .moveConstruct i j =>
    match s.objects i, s.objects j with
    | none, some other => .ok (.ok (), (s.set j (some other.movedFrom) s.kernel).set i (some other) s.kernel)
    | _, _ => .ok (.ok (), s)
  | .moveAssign i j =>
    if i = j then .ok (.ok (), s)
    else
      match s.objects i, s.objects j with
      | some mine, some other =>
        let k := (mine.close s.kernel).2
        .ok (.ok (), (s.set j (some other.movedFrom) k).set i (some other) k)
      | _, _ => .ok (.ok (), s)
  | .markBroken i =>
    match s.objects i with
    | none => .ok (.ok (), s)
    | some conn => .ok (.ok (), s.set i (some conn.markBroken) s.kernel)
  | .shutdown i call =>
    match s.objects i with
    | none => .ok (.ok (), s)
    | some conn =>
      .ok ((conn.shutdown call).1.mapError .status, s.set i (some (conn.shutdown call).2) s.kernel)
  | .close i =>
    match s.objects i with
    | none => .ok (.ok (), s)
    | some conn => .ok (.ok (), s.set i (some (conn.close s.kernel).1) (conn.close s.kernel).2)
  | .destroy i =>
    match s.objects i with
    | none => .ok (.ok (), s)
    | some conn => .ok (.ok (), s.set i none (conn.close s.kernel).2)

/-- The descriptor that the object at a place is to close. -/
def holder (s : Sockets ι) (i : ι) : Option ℕ := (s.objects i).bind TcpSocket.descriptor

/-- What a program has to see to: `Connect` within the range of the clock, and to close or hand over only
    descriptors of its own. -/
def Allowed (s : Sockets ι) : SocketCall ι → Prop
  | .discard fd => fd ∈ s.callers
  | .connect _ _ _ options dialling _ =>
    Fits options.connectTimeout ∧ 0 ≤ dialling.now.reading ∧
      ∀ candidates, dialling.resolved = .ok candidates → ∀ c ∈ candidates, c.Regular dialling.now
  | .adopt _ fd _ _ _ => 0 ≤ fd → fd.toNat ∈ s.callers
  | _ => True

/-- The open descriptors that are not the program's own. -/
def held (s : Sockets ι) : Finset ℕ := s.kernel.opened \ s.callers

/-- Every open descriptor is one object's or the program's own, and no `close` went astray. -/
structure Tidy (s : Sockets ι) : Prop where
  owned : Owned s.holder s.held
  callers : s.callers ⊆ s.kernel.opened
  stray : s.kernel.stray = false

theorem holder_set (s : Sockets ι) (i : ι) (o : Option TcpSocket) (k : Kernel) :
    (s.set i o k).holder = Function.update s.holder i (o.bind TcpSocket.descriptor) := by
  funext j
  by_cases hj : j = i
  · subst hj
    simp [holder, set]
  · simp [holder, set, hj]

namespace Tidy

variable {s : Sockets ι} {i j : ι} {fd : ℕ}

omit [DecidableEq ι] in
theorem init : Tidy ({} : Sockets ι) := ⟨Owned.empty, Finset.Subset.refl _, rfl⟩

/-- An object may change while it keeps its descriptor. -/
theorem keeps (h : Tidy s) {o : Option TcpSocket} (ho : o.bind TcpSocket.descriptor = s.holder i) :
    Tidy (s.set i o s.kernel) := by
  refine ⟨?_, h.callers, h.stray⟩
  rw [holder_set, ho, Function.update_eq_self]
  exact h.owned

/-- A place without a descriptor gets a new one. -/
theorem takes (h : Tidy s) (hi : s.holder i = none) {conn : TcpSocket}
    (hconn : conn.descriptor = some fd) (hfd : fd ∉ s.kernel.opened) :
    Tidy (s.set i (some conn) (s.kernel.add fd)) := by
  have hheld : (s.set i (some conn) (s.kernel.add fd)).held = insert fd s.held :=
    Finset.insert_sdiff_of_notMem _ fun hmem => hfd (h.callers hmem)
  refine ⟨?_, h.callers.trans (Finset.subset_insert _ _), h.stray⟩
  rw [holder_set, Option.bind_some, hconn, hheld]
  exact h.owned.take hi fun hmem => hfd (Finset.mem_sdiff.mp hmem).1

omit [DecidableEq ι] in
/-- The program gets a descriptor of its own. -/
theorem accepts (h : Tidy s) (hfd : fd ∉ s.kernel.opened) :
    Tidy { s with callers := insert fd s.callers, kernel := s.kernel.add fd } := by
  have hheld : ({ s with callers := insert fd s.callers, kernel := s.kernel.add fd } : Sockets ι).held =
      s.held := by
    ext n
    simp only [held, Kernel.add, Finset.mem_sdiff, Finset.mem_insert]
    by_cases hn : n = fd
    · simp [hn, hfd]
    · simp [hn]
  exact ⟨hheld ▸ h.owned, Finset.insert_subset_insert _ h.callers, h.stray⟩

omit [DecidableEq ι] in
/-- A descriptor of the program's own is closed. -/
theorem discards (h : Tidy s) (hfd : fd ∈ s.callers) :
    Tidy { s with callers := s.callers.erase fd, kernel := s.kernel.close fd } := by
  have hheld : ({ s with callers := s.callers.erase fd, kernel := s.kernel.close fd } : Sockets ι).held =
      s.held := by
    ext n
    simp only [held, Kernel.close, Finset.mem_sdiff, Finset.mem_erase]
    by_cases hn : n = fd
    · simp [hn, hfd]
    · simp [hn]
  exact ⟨hheld ▸ h.owned, Finset.erase_subset_erase _ h.callers,
    (Kernel.stray_close (h.callers hfd)).trans h.stray⟩

/-- A place without a descriptor gets one of the program's own. -/
theorem adopts (h : Tidy s) (hi : s.holder i = none) {conn : TcpSocket} (hconn : conn.descriptor = some fd)
    (hfd : fd ∈ s.callers) :
    Tidy (({ s with callers := s.callers.erase fd } : Sockets ι).set i (some conn) s.kernel) := by
  have hheld : (({ s with callers := s.callers.erase fd } : Sockets ι).set i (some conn) s.kernel).held =
      insert fd s.held := Finset.sdiff_erase (h.callers hfd)
  refine ⟨?_, (Finset.erase_subset _ _).trans h.callers, h.stray⟩
  rw [holder_set, Option.bind_some, hconn, hheld]
  exact h.owned.take hi fun hmem => (Finset.mem_sdiff.mp hmem).2 hfd

/-- An object closes what it has. -/
theorem closes (h : Tidy s) {o : Option TcpSocket} (ho : o.bind TcpSocket.descriptor = none) :
    Tidy (s.set i o (s.kernel.leaveScope (s.holder i))) := by
  cases hi : s.holder i with
  | none => exact h.keeps (ho.trans hi.symm)
  | some fd =>
    obtain ⟨hopen, hother⟩ := Finset.mem_sdiff.mp (h.owned.live i fd hi)
    have hheld : (s.set i o (s.kernel.close fd)).held = s.held.erase fd := Finset.erase_sdiff_comm _ _ _
    refine ⟨?_, ?_, (Kernel.stray_close hopen).trans h.stray⟩
    · rw [holder_set, ho]
      exact hheld ▸ h.owned.release hi
    · exact fun n hn => Finset.mem_erase.mpr ⟨fun hnfd => hother (hnfd ▸ hn), h.callers hn⟩

/-- A place without a descriptor takes over that of another. -/
theorem moves (h : Tidy s) (hi : s.holder i = none) (hne : i ≠ j) {other : TcpSocket}
    (hj : s.objects j = some other) :
    Tidy ((s.set j (some other.movedFrom) s.kernel).set i (some other) s.kernel) := by
  have hheld : s.holder j = other.descriptor := by rw [holder, hj, Option.bind_some]
  refine ⟨?_, h.callers, h.stray⟩
  rw [holder_set, holder_set, Option.bind_some, Option.bind_some, TcpSocket.descriptor_movedFrom, ← hheld]
  exact h.owned.move hi hne

end Tidy

theorem set_set (s : Sockets ι) {i j : ι} (o o' o'' : Option TcpSocket) (k k' : Kernel) (hne : i ≠ j) :
    ((s.set i o k).set j o' k').set i o'' k' = (s.set j o' k').set i o'' k' := by
  simp only [set, Sockets.mk.injEq, and_true]
  rw [Function.update_comm hne.symm, Function.update_idem, Function.update_comm hne]

/-- An error leaves every object its descriptor, and open what was open: only what was handed over is
    closed. -/
def Unchanged (s t : Sockets ι) (call : SocketCall ι) : Prop :=
  t.holder = s.holder ∧ t.kernel.opened = s.kernel.opened \ call.hands ∧ t.callers = s.callers \ call.hands

/-- What a call has to keep: the order, and what an error must not touch. -/
def Keeps (s : Sockets ι) (call : SocketCall ι) (res : Except Unit (Except Raised Unit × Sockets ι)) : Prop :=
  Yields True res fun res => Tidy res.2 ∧ ∀ r, res.1 = .error r → s.Unchanged res.2 call

omit [DecidableEq ι] in
theorem Unchanged.of_same {s t : Sockets ι} {call : SocketCall ι} (hcall : call.hands = ∅)
    (hholder : t.holder = s.holder) (hopened : t.kernel.opened = s.kernel.opened)
    (hcallers : t.callers = s.callers) : s.Unchanged t call := by
  refine ⟨hholder, ?_, ?_⟩
  · rw [hcall, Finset.sdiff_empty, hopened]
  · rw [hcall, Finset.sdiff_empty, hcallers]

omit [DecidableEq ι] in
theorem Keeps.of_tidy {s t : Sockets ι} {call : SocketCall ι} (h : Tidy t) : s.Keeps call (.ok (.ok (), t)) :=
  ⟨h, fun _ ho => by cases ho⟩

theorem step_keeps {s : Sockets ι} (h : Tidy s) (call : SocketCall ι) (hcall : s.Allowed call) :
    s.Keeps call (s.step call) := by
  have hnone : ∀ {i}, s.objects i = none → s.holder i = none := fun hi => by rw [holder, hi, Option.bind_none]
  have hsome : ∀ {i conn}, s.objects i = some conn → s.holder i = conn.descriptor :=
    fun hi => by rw [holder, hi, Option.bind_some]
  cases call with
  | accept hint => exact .of_tidy (h.accepts (s.kernel.fresh_notMem hint))
  | discard fd => exact .of_tidy (h.discards hcall)
  | construct i =>
    simp only [step]
    cases hi : s.objects i with
    | some conn => exact .of_tidy h
    | none => exact .of_tidy (h.keeps (hnone hi).symm)
  | connect i host port options dialling hints =>
    obtain ⟨hfits, hnow, hcandidates⟩ := hcall
    simp only [step]
    cases hi : s.objects i with
    | some conn => exact .of_tidy h
    | none =>
      rcases TcpSocket.connect_spec host port hints s.kernel hfits hnow hcandidates with
        ⟨conn, fd, heq, hfd, hconn⟩ | ⟨r, heq⟩
      · simp only [heq]
        exact .of_tidy (h.takes (hnone hi) hconn hfd)
      · simp only [heq]
        exact ⟨h, fun _ _ => .of_same rfl rfl rfl rfl⟩
  | adopt i fd options check configuring =>
    simp only [step]
    cases hi : s.objects i with
    | some conn => exact .of_tidy h
    | none =>
      by_cases hneg : fd < 0
      · -- nothing was handed over, and nothing happens
        have hhanded : handed fd = ∅ := if_pos hneg
        simp only [TcpSocket.adoptConnectedSocket, if_pos hneg, handOver, hhanded, Finset.sdiff_empty]
        exact ⟨h, fun _ _ => .of_same hhanded rfl rfl rfl⟩
      have hhanded : handed fd = {fd.toNat} := if_neg hneg
      have hpos : 0 ≤ fd := by omega
      have hfd : fd.toNat ∈ s.callers := hcall hpos
      rcases TcpSocket.adoptConnectedSocket_spec hpos options check configuring s.kernel with
        ⟨conn, heq, hconn⟩ | ⟨st, heq⟩
      · simp only [heq, handOver, hhanded, Finset.sdiff_singleton_eq_erase]
        exact .of_tidy (h.adopts (hnone hi) hconn hfd)
      · simp only [heq, handOver, hhanded, Finset.sdiff_singleton_eq_erase]
        refine ⟨h.discards hfd, fun _ _ => ⟨rfl, ?_, ?_⟩⟩
        · simp only [SocketCall.hands, hhanded, Finset.sdiff_singleton_eq_erase, Kernel.close]
        · simp only [SocketCall.hands, hhanded, Finset.sdiff_singleton_eq_erase]
  | moveConstruct i j =>
    simp only [step]
    cases hi : s.objects i with
    | some conn => exact .of_tidy h
    | none =>
      cases hj : s.objects j with
      | none => exact .of_tidy h
      | some other =>
        have hne : i ≠ j := by
          rintro rfl
          cases hi.symm.trans hj
        exact .of_tidy (h.moves (hnone hi) hne hj)
  | moveAssign i j =>
    simp only [step]
    by_cases hij : i = j
    · rw [if_pos hij]
      exact .of_tidy h
    rw [if_neg hij]
    cases hi : s.objects i with
    | none => exact .of_tidy h
    | some mine =>
      cases hj : s.objects j with
      | none => exact .of_tidy h
      | some other =>
        -- `Close` first, and then a move onto a place without a descriptor
        obtain ⟨hclosed, hkernel⟩ := mine.close_spec s.kernel
        have hafter := h.closes (i := i) (o := some (mine.close s.kernel).1) hclosed
        rw [hsome hi, ← hkernel] at hafter
        have hfree : (s.set i (some (mine.close s.kernel).1) (mine.close s.kernel).2).holder i = none := by
          rw [holder_set, Function.update_self]
          exact hclosed
        have hmoved := hafter.moves hfree hij ((Function.update_of_ne (Ne.symm hij) _ _).trans hj)
        rw [set_set _ _ _ _ _ _ hij] at hmoved
        exact .of_tidy hmoved
  | markBroken i =>
    simp only [step]
    cases hi : s.objects i with
    | none => exact .of_tidy h
    | some conn => exact .of_tidy (h.keeps (hsome hi).symm)
  | shutdown i call =>
    simp only [step]
    cases hi : s.objects i with
    | none => exact .of_tidy h
    | some conn =>
      have hheld : (some (conn.shutdown call).2).bind TcpSocket.descriptor = s.holder i := by
        rw [Option.bind_some, TcpSocket.descriptor_shutdown, hsome hi]
      refine ⟨h.keeps hheld, fun _ _ => .of_same rfl ?_ rfl rfl⟩
      rw [holder_set, hheld, Function.update_eq_self]
  | close i =>
    simp only [step]
    cases hi : s.objects i with
    | none => exact .of_tidy h
    | some conn =>
      obtain ⟨hclosed, hkernel⟩ := conn.close_spec s.kernel
      have hafter := h.closes (i := i) (o := some (conn.close s.kernel).1) hclosed
      rw [hsome hi, ← hkernel] at hafter
      exact .of_tidy hafter
  | destroy i =>
    simp only [step]
    cases hi : s.objects i with
    | none => exact .of_tidy h
    | some conn =>
      have hafter := h.closes (i := i) (o := none) rfl
      rw [hsome hi, ← (conn.close_spec s.kernel).2] at hafter
      exact .of_tidy hafter

/-- OWNERSHIP: whatever a program does with its connections, no `close` hits a descriptor that is not
    open; every object with a descriptor has an open one, which is not the program's own; every open one
    is the program's or has exactly one object, so that only the program's are open when the objects are
    gone; and a call that reports an error leaves every object its descriptor and open what was open, but
    for the one that it was to adopt. -/
theorem descriptors_owned_once (calls : List (SocketCall ι)) (hcalls : Along step Allowed {} calls) :
    ∃ os s, run step {} calls = .ok (os, s) ∧ s.kernel.stray = false ∧ s.callers ⊆ s.kernel.opened ∧
      (∀ i fd, s.holder i = some fd → fd ∈ s.kernel.opened ∧ fd ∉ s.callers) ∧
      (∀ fd ∈ s.kernel.opened, fd ∉ s.callers → ∃! i, s.holder i = some fd) ∧
      ((∀ i, s.objects i = none) → s.kernel.opened = s.callers) ∧
      ∀ call, s.Allowed call → ∃ o t, s.step call = .ok (o, t) ∧ ∀ r, o = .error r → s.Unchanged t call := by
  have hrun : Yields True (run step {} calls) fun res => Tidy res.2 ∧ ∀ o ∈ res.1, True :=
    run_yields (fun (_ : Unit) _ _ => ()) (fun s _ => Tidy s) (fun _ => True)
      (fun s _ call hcall h => (step_keeps h call hcall).mono fun _ hres => ⟨hres.1, trivial⟩)
      (a := ()) hcalls Tidy.init
  obtain ⟨⟨os, s⟩, heq, htidy, -⟩ := hrun.answer trivial
  refine ⟨os, s, heq, htidy.stray, htidy.callers,
    fun i fd hi => Finset.mem_sdiff.mp (htidy.owned.live i fd hi),
    fun fd hfd hother => ?_, fun hnone => ?_, fun call hcall => ?_⟩
  · obtain ⟨i, hi⟩ := htidy.owned.kept fd (Finset.mem_sdiff.mpr ⟨hfd, hother⟩)
    exact ⟨i, hi, fun j hj => htidy.owned.sole j i fd hj hi⟩
  · refine Finset.Subset.antisymm (fun fd hfd => ?_) htidy.callers
    by_contra hother
    obtain ⟨i, hi⟩ := htidy.owned.kept fd (Finset.mem_sdiff.mpr ⟨hfd, hother⟩)
    rw [holder, hnone i] at hi
    cases hi
  · obtain ⟨⟨o, t⟩, hstep, -, herror⟩ := (step_keeps htidy call hcall).answer trivial
    exact ⟨o, t, hstep, herror⟩

/-- Two addresses, of which the first refuses. -/
def refusedOnce : Dialling where
  resolved := .ok [⟨⟨⟨0⟩⟩, .connectFailed "Connection refused (errno=111)"⟩, ⟨⟨⟨0⟩⟩, .connected⟩]
  now := ⟨⟨0⟩⟩
  last := ⟨⟨0⟩⟩

/-- A program that hands over two descriptors, of which one is refused, and replaces the connection it got
    for the other one by a connection of its own. -/
def replacing : List (SocketCall Bool) :=
  [.accept 7, .accept 3, .adopt true 7 {} .passed .configured, .adopt false 3 {} .notStream .configured,
    .connect false "localhost" 7077 {} refusedOnce (fun _ => 7), .moveAssign true false, .destroy false,
    .markBroken true, .destroy true]

theorem descriptors_owned_once_replacing :
    Along step Allowed {} replacing ∧ ∃ os s, run step {} replacing = .ok (os, s) ∧ s.kernel.stray = false ∧
      ((∀ i, s.objects i = none) → s.kernel.opened = s.callers) := by
  have hregular : ∀ candidates, refusedOnce.resolved = .ok candidates →
      ∀ c ∈ candidates, c.Regular refusedOnce.now := by
    rintro candidates ⟨⟩ c hc
    rcases List.mem_pair.mp hc with rfl | rfl
    · exact ⟨by decide, by simp [PollCall.After, Connecting.polls]⟩
    · exact ⟨by decide, by simp [PollCall.After, Connecting.polls]⟩
  have halong : Along step Allowed {} replacing :=
    along_cons rfl trivial (along_cons rfl trivial (along_cons rfl (fun _ => by decide) (along_cons rfl
      (fun _ => by decide) (along_cons rfl ⟨by decide, by decide, hregular⟩ (along_cons rfl trivial
        (along_cons rfl trivial (along_cons rfl trivial (along_cons rfl trivial trivial))))))))
  obtain ⟨os, s, hrun, hstray, -, -, -, hgone, -⟩ := descriptors_owned_once replacing halong
  exact ⟨halong, os, s, hrun, hstray, hgone⟩

-- the refused one is closed at once; the kernel, asked for 7 while that is open, gave 8; all are closed
-- in the end
example : ((run step {} (replacing.take 4)).toOption.map fun res => res.2.kernel.opened) =
    some {7} := by decide
example : ((run step {} (replacing.take 5)).toOption.map fun res => res.2.kernel.opened) =
    some {7, 8} := by decide
example : ((run step {} replacing).toOption.map fun res => (res.2.kernel.opened, res.2.kernel.stray)) =
    some (∅, false) := by decide

end Sockets

end TidePool.Transport
