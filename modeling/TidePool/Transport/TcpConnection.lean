import TidePool.Api.Types

/-! A connected stream socket with deadlines (`src/transport/tcp/tcp_connection.cpp`).

    The peer is a script: the bytes it will ever send, and how each `recv` and `send` on this side ends.
    Where the script is over the network is ideal: a `send` takes everything, a `recv` gives what the peer
    has sent, and after that the peer has closed. Every behaviour of a network over a finite run is some
    script, so what holds for all scripts holds against any peer.

    `received` and `sent` record what crossed the socket so far; nothing reads them. -/

namespace TidePool.Transport

structure TcpConnectionOptions where
  connectTimeout : ℤ := 5000
  readTimeout : ℤ := 30000
  writeTimeout : ℤ := 30000

/-- How `PollReady` fails, other than by a timeout. -/
inductive PollFailure where
  | failed (errno : String)
  | invalid
  | hangup
  | unexpected

/-- How one turn of the `ReadExact` or `WriteExact` loop ends. -/
inductive Attempt where
  | moved (more : ℕ)              -- up to `more + 1` bytes were transferred
  | nothing                       -- `recv` or `send` returned 0
  | again                         -- `EINTR`, or `EAGAIN` and then ready
  | timedOut                      -- the deadline, or `poll`, timed out
  | failed (errno : String)
  | pollFailed (why : PollFailure)

/-- A turn that moves bytes or is repeated. -/
def Attempt.smooth : Attempt → Bool
  | .moved _ | .again => true
  | _ => false

/-- The other end and the network in between. -/
structure Peer where
  incoming : Bytes := []
  reads : List Attempt := []
  writes : List Attempt := []

/-- How `TcpConnection::Connect` ends after its argument checks. -/
inductive Dial where
  | connected (peer : Peer)
  | failed (message : String)
  | timedOut (message : String)
  | badAlloc

/-- A call that yields no value: it returns a status, or `std::bad_alloc` leaves it. -/
inductive Raised where
  | status (s : Status)
  | badAlloc
  deriving DecidableEq

structure TcpConnection where
  socket : Bool := false
  broken : Bool := true
  peer : Peer := {}
  received : Bytes := []
  sent : Bytes := []

namespace TcpConnection

/-- `completed/target`, as all messages have it. -/
def progress (completed target : ℕ) : String := toString completed ++ "/" ++ toString target

/-- The status of a turn that ends the loop of `operation`. -/
def attemptError (operation call zero : String) (completed target : ℕ) : Attempt → Status
  | .nothing => .networkError ("TcpConnection::" ++ operation ++ " " ++ zero ++ " (" ++
      progress completed target ++ " bytes completed)")
  | .failed errno => .networkError ("TcpConnection::" ++ operation ++ " " ++ call ++ " failed after " ++
      progress completed target ++ " bytes: " ++ errno)
  | .pollFailed (.failed errno) => .networkError ("TcpConnection::" ++ operation ++ " poll failed after " ++
      progress completed target ++ " bytes: " ++ errno)
  | .pollFailed .invalid => .networkError ("TcpConnection::" ++ operation ++
      " poll reported POLLNVAL after " ++ progress completed target ++ " bytes")
  | .pollFailed .hangup => .networkError ("TcpConnection::" ++ operation ++
      " peer closed or poll reported an error after " ++ progress completed target ++ " bytes")
  | .pollFailed .unexpected => .networkError ("TcpConnection::" ++ operation ++
      " poll returned unexpected events after " ++ progress completed target ++ " bytes")
  | _ => .unavailable ("TcpConnection::" ++ operation ++ " timeout (" ++ progress completed target ++
      " bytes completed)")

def readError : ℕ → ℕ → Attempt → Status := attemptError "ReadExact" "recv" "peer EOF"

def writeError : ℕ → ℕ → Attempt → Status := attemptError "WriteExact" "send" "send made no progress"

/-- The loop of `ReadExact`: the bytes so far, and the peer as it is left. -/
def readLoop (target : ℕ) : List Attempt → Bytes → Bytes → Result Unit × Bytes × Bytes × List Attempt
  | [], incoming, got =>
    if got.length + incoming.length < target then
      (.error (readError (got.length + incoming.length) target .nothing), got ++ incoming, [], [])
    else
      let missing := target - got.length
      (.ok (), got ++ incoming.take missing, incoming.drop missing, [])
  | attempt :: rest, incoming, got =>
    if target ≤ got.length then (.ok (), got, incoming, attempt :: rest)
    else
      match attempt with
      | .moved more =>
        let available := min (more + 1) (target - got.length)
        -- a peer that has sent everything closes
        if incoming.isEmpty then (.error (readError got.length target .nothing), got, incoming, rest)
        else readLoop target rest (incoming.drop available) (got ++ incoming.take available)
      | .again => readLoop target rest incoming got
      | a => (.error (readError got.length target a), got, incoming, rest)

/-- The loop of `WriteExact`: how many of the bytes went out. -/
def writeLoop (target : ℕ) : List Attempt → ℕ → Result Unit × ℕ × List Attempt
  | [], _ => (.ok (), target, [])
  | attempt :: rest, completed =>
    if target ≤ completed then (.ok (), completed, attempt :: rest)
    else
      match attempt with
      | .moved more => writeLoop target rest (completed + min (more + 1) (target - completed))
      | .again => writeLoop target rest completed
      | a => (.error (writeError completed target a), completed, rest)

def isOpen (conn : TcpConnection) : Bool := conn.socket && !conn.broken

/-- `MarkBroken`, and `Shutdown`, whose own status nobody looks at. -/
def shutdown (conn : TcpConnection) : TcpConnection := { conn with broken := true }

def close (conn : TcpConnection) : TcpConnection := { conn with socket := false, broken := true }

/-- The connection after the loop of `ReadExact`. -/
def afterRead (conn : TcpConnection) (got incoming : Bytes) (reads : List Attempt) : TcpConnection :=
  { conn with peer := { conn.peer with incoming, reads }, received := conn.received ++ got }

def readExact (conn : TcpConnection) (bytes : ℕ) : Result Bytes × TcpConnection :=
  if bytes = 0 then (.ok [], conn)
  else if !conn.socket then
    (.error (.unavailable "TcpConnection::ReadExact: connection is closed"), conn)
  else if conn.broken then
    (.error (.unavailable "TcpConnection::ReadExact: connection is broken"), conn)
  else
    match readLoop bytes conn.peer.reads conn.peer.incoming [] with
    | (.ok (), got, incoming, reads) => (.ok got, conn.afterRead got incoming reads)
    | (.error s, got, incoming, reads) => (.error s, (conn.afterRead got incoming reads).shutdown)

/-- The connection after the loop of `WriteExact`. -/
def afterWrite (conn : TcpConnection) (out : Bytes) (writes : List Attempt) : TcpConnection :=
  { conn with peer := { conn.peer with writes }, sent := conn.sent ++ out }

def writeExact (conn : TcpConnection) (input : Bytes) : Result Unit × TcpConnection :=
  if input.isEmpty then (.ok (), conn)
  else if !conn.socket then
    (.error (.unavailable "TcpConnection::WriteExact: connection is closed"), conn)
  else if conn.broken then
    (.error (.unavailable "TcpConnection::WriteExact: connection is broken"), conn)
  else
    match writeLoop input.length conn.peer.writes 0 with
    | (.ok (), completed, writes) => (.ok (), conn.afterWrite (input.take completed) writes)
    | (.error s, completed, writes) => (.error s, (conn.afterWrite (input.take completed) writes).shutdown)

def validateOptions (options : TcpConnectionOptions) : Result Unit :=
  if options.connectTimeout < 0 then
    .error (.invalidArgument "TcpConnection: connect_timeout must be non-negative")
  else if options.readTimeout < 0 then
    .error (.invalidArgument "TcpConnection: read_timeout must be non-negative")
  else if options.writeTimeout < 0 then
    .error (.invalidArgument "TcpConnection: write_timeout must be non-negative")
  else .ok ()

/-- `TcpConnection::Connect`, given how the dialling ends. -/
def connect (host : String) (port : UInt16) (options : TcpConnectionOptions) (dial : Dial) :
    Except Raised TcpConnection :=
  if host.isEmpty then .error (.status (.invalidArgument "TcpConnection::Connect: host is empty"))
  else if port = 0 then .error (.status (.invalidArgument "TcpConnection::Connect: port is zero"))
  else
    match validateOptions options, dial with
    | .error s, _ => .error (.status s)
    | .ok (), .connected peer => .ok { socket := true, broken := false, peer }
    | .ok (), .failed message => .error (.status (.networkError message))
    | .ok (), .timedOut message => .error (.status (.unavailable message))
    | .ok (), .badAlloc => .error .badAlloc

/-! ### The loops -/

/-- The loop of `ReadExact` takes the peer's next bytes, in order and no more than asked for; when it
    succeeds it has them all. -/
theorem readLoop_spec (target : ℕ) (attempts : List Attempt) (incoming got : Bytes)
    (hgot : got.length ≤ target) :
    ∃ r more left reads, readLoop target attempts incoming got = (r, got ++ more, left, reads) ∧
      incoming = more ++ left ∧ (got ++ more).length ≤ target ∧
      (r = .ok () → (got ++ more).length = target) := by
  induction attempts generalizing incoming got with
  | nil =>
    by_cases hshort : got.length + incoming.length < target
    · exact ⟨_, incoming, [], [], by simp only [readLoop, hshort, if_true]; rfl, by simp,
        by rw [List.length_append]; omega, fun h => by cases h⟩
    · have hlen : (got ++ incoming.take (target - got.length)).length = target := by
        rw [List.length_append, List.length_take]; omega
      exact ⟨.ok (), incoming.take (target - got.length), incoming.drop (target - got.length), [],
        by simp only [readLoop, hshort, if_false], (List.take_append_drop _ _).symm, hlen.le, fun _ => hlen⟩
  | cons attempt rest ih =>
    by_cases hdone : target ≤ got.length
    · exact ⟨.ok (), [], incoming, attempt :: rest, by simp [readLoop, hdone], rfl, by simpa using hgot,
        fun _ => by simp; omega⟩
    · simp only [readLoop, hdone, if_false]
      cases attempt with
      | moved more =>
        simp only
        split
        · exact ⟨_, [], incoming, rest, by rw [List.append_nil], rfl, by simpa using hgot,
            fun h => by cases h⟩
        · set available := min (more + 1) (target - got.length)
          have hlen : (got ++ incoming.take available).length ≤ target := by
            rw [List.length_append, List.length_take]
            omega
          obtain ⟨r, more', left, reads, heq, hin, hle, hok⟩ :=
            ih (incoming.drop available) (got ++ incoming.take available) hlen
          refine ⟨r, incoming.take available ++ more', left, reads, by rw [heq, List.append_assoc], ?_,
            ?_, ?_⟩
          · rw [List.append_assoc, ← hin, List.take_append_drop]
          · rwa [← List.append_assoc]
          · rwa [← List.append_assoc]
      | again => exact ih incoming got hgot
      | nothing | timedOut | failed _ | pollFailed _ =>
        exact ⟨_, [], incoming, rest, by rw [List.append_nil], rfl, by simpa using hgot,
          fun h => by cases h⟩

/-- The loop of `WriteExact` stops at the target; when it succeeds it has reached it. -/
theorem writeLoop_spec (target : ℕ) (attempts : List Attempt) (completed : ℕ) (hle : completed ≤ target) :
    (writeLoop target attempts completed).2.1 ≤ target ∧
      ((writeLoop target attempts completed).1 = .ok () →
        (writeLoop target attempts completed).2.1 = target) := by
  induction attempts generalizing completed with
  | nil => exact ⟨le_rfl, fun _ => rfl⟩
  | cons attempt rest ih =>
    by_cases hdone : target ≤ completed
    · simp only [writeLoop, hdone, if_true]; exact ⟨hle, fun _ => by omega⟩
    · simp only [writeLoop, hdone, if_false]
      cases attempt with
      | moved more => exact ih _ (by omega)
      | again => exact ih _ hle
      | nothing | timedOut | failed _ | pollFailed _ => exact ⟨hle, fun h => by cases h⟩

/-- The loop of `ReadExact` gets there when no turn fails and the bytes are there. -/
theorem readLoop_smooth (target : ℕ) (attempts : List Attempt) (incoming got : Bytes)
    (hsmooth : ∀ a ∈ attempts, a.smooth = true) (hgot : got.length ≤ target)
    (hthere : target ≤ got.length + incoming.length) :
    (readLoop target attempts incoming got).1 = .ok () ∧
      ∀ a ∈ (readLoop target attempts incoming got).2.2.2, a.smooth = true := by
  induction attempts generalizing incoming got with
  | nil =>
    rw [readLoop, if_neg (not_lt.mpr hthere)]
    exact ⟨rfl, by simp⟩
  | cons attempt rest ih =>
    have hrest : ∀ a ∈ rest, a.smooth = true := fun a ha => hsmooth a (List.mem_cons_of_mem _ ha)
    by_cases hdone : target ≤ got.length
    · simp only [readLoop, hdone, if_true]
      exact ⟨trivial, hsmooth⟩
    · simp only [readLoop, hdone, if_false]
      have hfirst := hsmooth attempt (List.mem_cons_self ..)
      cases attempt with
      | moved more =>
        have hsome : incoming.isEmpty = false := by
          cases incoming with
          | nil => simp at hthere; omega
          | cons _ _ => rfl
        simp only [hsome, Bool.false_eq_true, if_false]
        apply ih _ _ hrest
        · rw [List.length_append, List.length_take]; omega
        · rw [List.length_append, List.length_take, List.length_drop]; omega
      | again => exact ih _ _ hrest hgot hthere
      | nothing | timedOut | failed _ | pollFailed _ => simp [Attempt.smooth] at hfirst

/-- The loop of `WriteExact` gets there when no turn fails. -/
theorem writeLoop_smooth (target : ℕ) (attempts : List Attempt) (completed : ℕ)
    (hsmooth : ∀ a ∈ attempts, a.smooth = true) :
    (writeLoop target attempts completed).1 = .ok () ∧
      ∀ a ∈ (writeLoop target attempts completed).2.2, a.smooth = true := by
  induction attempts generalizing completed with
  | nil => exact ⟨rfl, hsmooth⟩
  | cons attempt rest ih =>
    have hrest : ∀ a ∈ rest, a.smooth = true := fun a ha => hsmooth a (List.mem_cons_of_mem _ ha)
    by_cases hdone : target ≤ completed
    · simp only [writeLoop, hdone, if_true]
      exact ⟨trivial, hsmooth⟩
    · simp only [writeLoop, hdone, if_false]
      have hfirst := hsmooth attempt (List.mem_cons_self ..)
      cases attempt with
      | moved more => exact ih _ hrest
      | again => exact ih _ hrest
      | nothing | timedOut | failed _ | pollFailed _ => simp [Attempt.smooth] at hfirst

/-! ### What a call moves -/

/-- Reading took `q` off the stream. -/
structure Reads (conn conn' : TcpConnection) (q : Bytes) : Prop where
  received : conn'.received = conn.received ++ q
  sent : conn'.sent = conn.sent
  incoming : conn.peer.incoming = q ++ conn'.peer.incoming
  closed : conn.isOpen = false → q = []
  stays : conn.isOpen = false → conn'.isOpen = false

/-- Writing put `p` on the stream. -/
structure Writes (conn conn' : TcpConnection) (p : Bytes) : Prop where
  sent : conn'.sent = conn.sent ++ p
  received : conn'.received = conn.received
  closed : conn.isOpen = false → p = []
  stays : conn.isOpen = false → conn'.isOpen = false

section Moves

variable {a b c : TcpConnection} {q r p s : Bytes}

theorem Reads.refl (a : TcpConnection) : Reads a a [] :=
  ⟨(List.append_nil _).symm, rfl, rfl, fun _ => rfl, id⟩

theorem Writes.refl (a : TcpConnection) : Writes a a [] :=
  ⟨(List.append_nil _).symm, rfl, fun _ => rfl, id⟩

theorem Reads.trans (h : Reads a b q) (h' : Reads b c r) : Reads a c (q ++ r) where
  received := by rw [h'.received, h.received, List.append_assoc]
  sent := h'.sent.trans h.sent
  incoming := by rw [h.incoming, h'.incoming, List.append_assoc]
  closed hc := by rw [h.closed hc, h'.closed (h.stays hc), List.append_nil]
  stays hc := h'.stays (h.stays hc)

theorem Writes.trans (h : Writes a b p) (h' : Writes b c s) : Writes a c (p ++ s) where
  sent := by rw [h'.sent, h.sent, List.append_assoc]
  received := h'.received.trans h.received
  closed hc := by rw [h.closed hc, h'.closed (h.stays hc), List.append_nil]
  stays hc := h'.stays (h.stays hc)

theorem isOpen_shutdown (a : TcpConnection) : a.shutdown.isOpen = false := by simp [shutdown, isOpen]

theorem Reads.shutdown (h : Reads a b q) : Reads a b.shutdown q :=
  ⟨h.received, h.sent, h.incoming, h.closed, fun _ => isOpen_shutdown b⟩

theorem Writes.shutdown (h : Writes a b p) : Writes a b.shutdown p :=
  ⟨h.sent, h.received, h.closed, fun _ => isOpen_shutdown b⟩

theorem isOpen_iff : a.isOpen = true ↔ a.socket = true ∧ a.broken = false := by simp [isOpen]

theorem Reads.afterRead (hopen : a.isOpen = true) (hin : a.peer.incoming = q ++ r) (reads : List Attempt) :
    Reads a (a.afterRead q r reads) q :=
  ⟨rfl, rfl, hin, fun hc => absurd hopen (by simp [hc]), fun hc => absurd hopen (by simp [hc])⟩

theorem Writes.afterWrite (hopen : a.isOpen = true) (p : Bytes) (writes : List Attempt) :
    Writes a (a.afterWrite p writes) p :=
  ⟨rfl, rfl, fun hc => absurd hopen (by simp [hc]), fun hc => absurd hopen (by simp [hc])⟩

end Moves

/-! ### The calls -/

/-- A connection that is not usable is closed, or broken. -/
theorem closed_or_broken {conn : TcpConnection} (h : conn.isOpen = false) :
    conn.socket = false ∨ conn.socket = true ∧ conn.broken = true := by
  cases hsocket : conn.socket with
  | false => exact .inl rfl
  | true => exact .inr ⟨rfl, by simpa [isOpen, hsocket] using h⟩

theorem readExact_closed {conn : TcpConnection} (h : conn.isOpen = false) {bytes : ℕ} (hbytes : bytes ≠ 0) :
    ∃ s, conn.readExact bytes = (.error s, conn) := by
  simp only [readExact, hbytes, if_false]
  rcases closed_or_broken h with hsocket | ⟨hsocket, hbroken⟩
  · simp only [hsocket]
    exact ⟨_, rfl⟩
  · simp only [hsocket, hbroken]
    exact ⟨_, rfl⟩

theorem writeExact_closed {conn : TcpConnection} (h : conn.isOpen = false) {input : Bytes}
    (hinput : input ≠ []) : ∃ s, conn.writeExact input = (.error s, conn) := by
  have hempty : input.isEmpty = false := by simpa using hinput
  simp only [writeExact, hempty]
  rcases closed_or_broken h with hsocket | ⟨hsocket, hbroken⟩
  · simp only [hsocket]
    exact ⟨_, rfl⟩
  · simp only [hsocket, hbroken]
    exact ⟨_, rfl⟩

/-- `ReadExact` takes the peer's next bytes off the stream: all that were asked for, or fewer and the
    connection is not usable any more. -/
theorem readExact_spec (conn : TcpConnection) (bytes : ℕ) :
    ∃ r conn' q, conn.readExact bytes = (r, conn') ∧ Reads conn conn' q ∧
      match r with
      | .ok got => got = q ∧ q.length = bytes ∧ conn'.isOpen = conn.isOpen
      | .error _ => conn'.isOpen = false := by
  by_cases hzero : bytes = 0
  · exact ⟨.ok [], conn, [], by simp only [readExact, hzero, if_true], .refl conn, rfl, hzero.symm, rfl⟩
  cases hopen : conn.isOpen with
  | false =>
    obtain ⟨s, hs⟩ := readExact_closed hopen hzero
    exact ⟨.error s, conn, [], hs, .refl conn, hopen⟩
  | true =>
    obtain ⟨hsocket, hbroken⟩ := isOpen_iff.mp hopen
    obtain ⟨r, more, left, reads, heq, hin, -, hok⟩ :=
      readLoop_spec bytes conn.peer.reads conn.peer.incoming [] (Nat.zero_le _)
    have hmoved := Reads.afterRead hopen hin reads
    simp only [readExact, hzero, hsocket, hbroken, if_false, Bool.not_true, Bool.false_eq_true, heq,
      List.nil_append]
    cases r with
    | ok _ => exact ⟨_, _, more, rfl, hmoved, rfl, hok rfl, hopen⟩
    | error s => exact ⟨_, _, more, rfl, hmoved.shutdown, isOpen_shutdown _⟩

/-- `WriteExact` puts a part of its input on the stream: all of it, or the connection is not usable any
    more. -/
theorem writeExact_spec (conn : TcpConnection) (input : Bytes) :
    ∃ r conn' p, conn.writeExact input = (r, conn') ∧ Writes conn conn' p ∧ p <+: input ∧
      match r with
      | .ok () => p = input ∧ conn'.isOpen = conn.isOpen
      | .error _ => conn'.isOpen = false := by
  by_cases hempty : input = []
  · exact ⟨.ok (), conn, [], by simp [writeExact, hempty], .refl conn, List.nil_prefix, hempty.symm, rfl⟩
  cases hopen : conn.isOpen with
  | false =>
    obtain ⟨s, hs⟩ := writeExact_closed hopen hempty
    exact ⟨.error s, conn, [], hs, .refl conn, List.nil_prefix, hopen⟩
  | true =>
    obtain ⟨hsocket, hbroken⟩ := isOpen_iff.mp hopen
    obtain ⟨-, hok⟩ := writeLoop_spec input.length conn.peer.writes 0 (Nat.zero_le _)
    have hsome : input.isEmpty = false := by simpa using hempty
    simp only [writeExact, hsome, hsocket, hbroken, if_false, Bool.not_true, Bool.false_eq_true]
    rcases hloop : writeLoop input.length conn.peer.writes 0 with ⟨r, completed, writes⟩
    rw [hloop] at hok
    have hmoved := Writes.afterWrite hopen (input.take completed) writes
    cases r with
    | ok _ =>
      have hdone : completed = input.length := hok rfl
      have hall : input.take completed = input := by rw [hdone, List.take_length]
      exact ⟨_, _, _, rfl, hmoved, List.take_prefix _ _, hall, hopen⟩
    | error s => exact ⟨_, _, _, rfl, hmoved.shutdown, List.take_prefix _ _, isOpen_shutdown _⟩

/-- A usable connection on which no turn of a read fails. -/
structure Receives (conn : TcpConnection) : Prop where
  isOpen : conn.isOpen = true
  reads : ∀ a ∈ conn.peer.reads, a.smooth = true

/-- A usable connection on which no turn of a write fails. -/
structure Sends (conn : TcpConnection) : Prop where
  isOpen : conn.isOpen = true
  writes : ∀ a ∈ conn.peer.writes, a.smooth = true

/-- However the bytes are split, `ReadExact` gets them all and can go on. -/
theorem readExact_smooth {conn : TcpConnection} (h : conn.Receives) {q rest : Bytes}
    (hin : conn.peer.incoming = q ++ rest) :
    ∃ conn', conn.readExact q.length = (.ok q, conn') ∧ conn'.Receives ∧ Reads conn conn' q ∧
      conn'.peer.incoming = rest := by
  by_cases hempty : q = []
  · subst hempty
    exact ⟨conn, rfl, h, .refl conn, hin⟩
  have hzero : q.length ≠ 0 := by simpa using hempty
  obtain ⟨hsocket, hbroken⟩ := isOpen_iff.mp h.isOpen
  obtain ⟨r, more, left, reads, heq, hsplit, -, hok⟩ :=
    readLoop_spec q.length conn.peer.reads conn.peer.incoming [] (Nat.zero_le _)
  obtain ⟨hdone, hreads⟩ :=
    readLoop_smooth q.length conn.peer.reads conn.peer.incoming [] h.reads (Nat.zero_le _) (by rw [hin]; simp)
  rw [heq] at hdone hreads
  obtain rfl : r = .ok () := hdone
  -- the bytes taken are the first `q.length` of the stream
  obtain ⟨rfl, rfl⟩ := List.append_inj (hsplit.symm.trans hin) (hok rfl)
  refine ⟨conn.afterRead more left reads, ?_, ⟨h.isOpen, hreads⟩, .afterRead h.isOpen hin reads, rfl⟩
  simp only [readExact, hzero, hsocket, hbroken, if_false, Bool.not_true, Bool.false_eq_true, heq,
    List.nil_append]

/-- However the bytes are split, `WriteExact` puts them all out and can go on. -/
theorem writeExact_smooth {conn : TcpConnection} (h : conn.Sends) (input : Bytes) :
    ∃ conn', conn.writeExact input = (.ok (), conn') ∧ conn'.Sends ∧ Writes conn conn' input := by
  by_cases hempty : input = []
  · subst hempty
    exact ⟨conn, rfl, h, .refl conn⟩
  have hsome : input.isEmpty = false := by simpa using hempty
  obtain ⟨hsocket, hbroken⟩ := isOpen_iff.mp h.isOpen
  obtain ⟨-, hok⟩ := writeLoop_spec input.length conn.peer.writes 0 (Nat.zero_le _)
  obtain ⟨hdone, hwrites⟩ := writeLoop_smooth input.length conn.peer.writes 0 h.writes
  rcases hloop : writeLoop input.length conn.peer.writes 0 with ⟨r, completed, writes⟩
  rw [hloop] at hok hdone hwrites
  obtain rfl : r = .ok () := hdone
  have hall : input.take completed = input := by
    rw [show completed = input.length from hok rfl, List.take_length]
  refine ⟨conn.afterWrite input writes, ?_, ⟨h.isOpen, hwrites⟩, .afterWrite h.isOpen input writes⟩
  simp only [writeExact, hsome, hsocket, hbroken, if_false, Bool.not_true, Bool.false_eq_true, hloop, hall]

end TcpConnection

end TidePool.Transport
