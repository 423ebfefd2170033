import TidePool.Schemes.Machine
import TidePool.Transport.TimedConnect
import TidePool.Transport.WireFraming

/-! Frames against a clock (`src/transport/tcp/wire_framing.cpp` over `tcp_connection.cpp`).

    `WireFraming` takes the attempts of all reads and of all writes from two scripts, fixed in advance.
    Here each `ReadExact` and `WriteExact` has its own deadline, and what the kernel and the clock say
    comes with the call.

        timed     call 1: header, payload      call 2: header, payload     ...
                    |        |                   |        |
        scripts   a a a     a a                a a       a a a             ...

    A transfer amounts to some attempts, and these can be chosen such that the loop uses up exactly them,
    whatever follows (`readLoop_exhausts`). So the attempts of a session one after the other are two
    scripts for all of it: whatever holds of frames for all scripts, holds against all clocks. -/

namespace TidePool.Transport

open Schemes Schemes.Chrono Wire

/-! ### Scripts that are used up -/

namespace TcpConnection

theorem readLoop_full {target : ℕ} {got : Bytes} (h : target ≤ got.length) (script : List Attempt)
    (incoming : Bytes) : readLoop target script incoming got = (.ok (), got, incoming, script) := by
  cases script with
  | nil =>
    have hzero : target - got.length = 0 := by omega
    rw [readLoop, if_neg (by omega)]
    simp [hzero]
  | cons attempt rest => cases attempt <;> simp only [readLoop, h, if_true]

theorem readLoop_ends {target : ℕ} {got : Bytes} (hleft : ¬ target ≤ got.length) {a : Attempt}
    (ha : a.smooth = false) (rest : List Attempt) (incoming : Bytes) :
    readLoop target (a :: rest) incoming got =
      (.error (readError got.length target a), got, incoming, rest) := by
  cases a with
  | moved | again => cases ha
  | nothing | timedOut | failed | pollFailed => simp only [readLoop, hleft, if_false]

/-- The end of the script, in attempts: read what there is, and find that there is no more. -/
theorem readLoop_nil_exhausts (target : ℕ) (incoming got : Bytes) :
    ∃ script, ∀ more, readLoop target (script ++ more) incoming got =
      ((readLoop target [] incoming got).1, (readLoop target [] incoming got).2.1,
        (readLoop target [] incoming got).2.2.1, more) := by
  by_cases hshort : got.length + incoming.length < target
  · simp only [readLoop, hshort, if_true]
    have hleft : ¬ target ≤ got.length := by omega
    by_cases hempty : incoming = []
    · subst hempty
      exact ⟨[.moved 0], fun more => by simp [readLoop, hleft]⟩
    · have hpos : 0 < incoming.length := List.length_pos_iff.mpr hempty
      have hall : min (incoming.length - 1 + 1) (target - got.length) = incoming.length := by omega
      have hleft' : ¬ target ≤ got.length + incoming.length := by omega
      exact ⟨[.moved (incoming.length - 1), .moved 0],
        fun more => by simp [readLoop, hleft, hleft', hempty, hall]⟩
  · simp only [readLoop, hshort, if_false]
    by_cases hfull : target ≤ got.length
    · have hzero : target - got.length = 0 := by omega
      exact ⟨[], fun more => by simp [readLoop_full hfull, hzero]⟩
    · have hall : min (target - got.length - 1 + 1) (target - got.length) = target - got.length := by omega
      have hsome : incoming ≠ [] := by
        rw [← List.length_pos_iff]
        omega
      refine ⟨[.moved (target - got.length - 1)], fun more => ?_⟩
      simp only [List.singleton_append, readLoop, hfull, if_false, List.isEmpty_iff, hsome, hall]
      exact readLoop_full (by rw [List.length_append, List.length_take]; omega) more _

/-- Any outcome of the loop is one that uses up some attempts and no more. -/
theorem readLoop_exhausts {target : ℕ} {attempts : List Attempt} {incoming got got' left : Bytes}
    {r : Result Unit}
    {reads : List Attempt} (h : readLoop target attempts incoming got = (r, got', left, reads)) :
    ∃ script, ∀ more, readLoop target (script ++ more) incoming got = (r, got', left, more) := by
  induction attempts generalizing incoming got with
  | nil =>
    obtain ⟨script, hscript⟩ := readLoop_nil_exhausts target incoming got
    rw [h] at hscript
    exact ⟨script, hscript⟩
  | cons attempt rest ih =>
    by_cases hfull : target ≤ got.length
    · rw [readLoop_full hfull] at h
      cases h
      exact ⟨[], fun more => readLoop_full hfull more _⟩
    cases attempt with
    | nothing | timedOut | failed | pollFailed =>
      rw [readLoop_ends hfull rfl] at h
      cases h
      exact ⟨[_], fun later => readLoop_ends hfull rfl later _⟩
    | moved more =>
      by_cases hempty : incoming.isEmpty = true
      · simp only [readLoop, hfull, hempty, if_true, if_false] at h
        cases h
        refine ⟨[.moved more], fun later => ?_⟩
        simp only [List.singleton_append, readLoop, hfull, hempty, if_true, if_false]
      · simp only [readLoop, hfull, hempty, if_false] at h
        obtain ⟨script, hscript⟩ := ih h
        exact ⟨.moved more :: script, fun later => by
          simp only [List.cons_append, readLoop, hfull, hempty, if_false]; exact hscript later⟩
    | again =>
      simp only [readLoop, hfull, if_false] at h
      obtain ⟨script, hscript⟩ := ih h
      exact ⟨.again :: script, fun later => by
        simp only [List.cons_append, readLoop, hfull, if_false]; exact hscript later⟩

theorem writeLoop_full (target : ℕ) (script : List Attempt) :
    writeLoop target script target = (.ok (), target, script) := by
  cases script with
  | nil => rfl
  | cons attempt rest => cases attempt <;> simp [writeLoop]

theorem writeLoop_ends {target completed : ℕ} (hleft : ¬ target ≤ completed) {a : Attempt}
    (ha : a.smooth = false) (rest : List Attempt) :
    writeLoop target (a :: rest) completed = (.error (writeError completed target a), completed, rest) := by
  cases a with
  | moved | again => cases ha
  | nothing | timedOut | failed | pollFailed => simp only [writeLoop, hleft, if_false]

theorem writeLoop_exhausts {target completed completed' : ℕ} (hle : completed ≤ target)
    {attempts : List Attempt} {r : Result Unit} {writes : List Attempt}
    (h : writeLoop target attempts completed = (r, completed', writes)) :
    ∃ script, ∀ more, writeLoop target (script ++ more) completed = (r, completed', more) := by
  induction attempts generalizing completed with
  | nil =>
    cases h
    rcases Nat.eq_or_lt_of_le hle with rfl | hlt
    · exact ⟨[], writeLoop_full completed⟩
    · have hall : completed + min (target - completed - 1 + 1) (target - completed) = target := by omega
      have hleft : ¬ target ≤ completed := by omega
      refine ⟨[.moved (target - completed - 1)], fun more => ?_⟩
      simp only [List.singleton_append, writeLoop, hleft, if_false, hall]
      exact writeLoop_full target more
  | cons attempt rest ih =>
    by_cases hfull : target ≤ completed
    · obtain rfl : completed = target := Nat.le_antisymm hle hfull
      rw [writeLoop_full] at h
      cases h
      exact ⟨[], writeLoop_full _⟩
    cases attempt with
    | nothing | timedOut | failed | pollFailed =>
      rw [writeLoop_ends hfull rfl] at h
      cases h
      exact ⟨[_], fun later => writeLoop_ends hfull rfl later⟩
    | moved more =>
      simp only [writeLoop, hfull, if_false] at h
      obtain ⟨script, hscript⟩ := ih (by omega) h
      exact ⟨.moved more :: script, fun later => by
        simp only [List.cons_append, writeLoop, hfull, if_false]; exact hscript later⟩
    | again =>
      simp only [writeLoop, hfull, if_false] at h
      obtain ⟨script, hscript⟩ := ih hle h
      exact ⟨.again :: script, fun later => by
        simp only [List.cons_append, writeLoop, hfull, if_false]; exact hscript later⟩

/-! ### Calls that use up their script -/

/-- The same connection with other attempts to come. -/
def withScripts (conn : TcpConnection) (reads writes : List Attempt) : TcpConnection :=
  (conn.withReads reads).withWrites writes

@[simp] theorem withScripts_socket (conn : TcpConnection) (reads writes : List Attempt) :
    (conn.withScripts reads writes).socket = conn.socket := rfl

@[simp] theorem withScripts_broken (conn : TcpConnection) (reads writes : List Attempt) :
    (conn.withScripts reads writes).broken = conn.broken := rfl

@[simp] theorem withScripts_peer (conn : TcpConnection) (reads writes : List Attempt) :
    (conn.withScripts reads writes).peer = { conn.peer with reads, writes } := rfl

/-- On some scripts, and whatever follows them, the call answers `a` and leaves `conn'`. -/
def Mirrors {α : Type} (conn conn' : TcpConnection) (call : TcpConnection → α × TcpConnection) (a : α) :
    Prop :=
  ∃ reads writes, ∀ reads' writes',
    call (conn.withScripts (reads ++ reads') (writes ++ writes')) = (a, conn'.withScripts reads' writes')

section Mirrors

variable {α : Type} {conn conn' : TcpConnection}

/-- A call that transfers nothing. -/
theorem Mirrors.of_idle {call : TcpConnection → α × TcpConnection} {a : α}
    (h : ∀ reads writes, call (conn.withScripts reads writes) = (a, conn'.withScripts reads writes)) :
    Mirrors conn conn' call a :=
  ⟨[], [], h⟩

/-- A read that transfers nothing does not look at the scripts. -/
theorem readExact_idle {bytes : ℕ} (h : bytes = 0 ∨ conn.isOpen = false) :
    ∃ r, ∀ reads writes, (conn.withScripts reads writes).readExact bytes =
    (r, conn.withScripts reads writes) := by
  by_cases hzero : bytes = 0
  · exact ⟨.ok [], fun reads writes => by rw [readExact, if_pos hzero]⟩
  rcases closed_or_broken (h.resolve_left hzero) with hsocket | ⟨hsocket, hbroken⟩
  · exact ⟨.error (.unavailable "TcpConnection::ReadExact: connection is closed"),
      fun reads writes => by simp [readExact, hzero, hsocket]⟩
  · exact ⟨.error (.unavailable "TcpConnection::ReadExact: connection is broken"),
      fun reads writes => by simp [readExact, hzero, hsocket, hbroken]⟩

theorem Mirrors.readExact {bytes : ℕ} {attempts reads : List Attempt} {r : Result Bytes}
    (h : (conn.withReads attempts).readExact bytes = (r, conn'.withReads reads)) :
    Mirrors conn conn' (·.readExact bytes) r := by
  by_cases hidle : bytes = 0 ∨ conn.isOpen = false
  · obtain ⟨r', hr'⟩ := readExact_idle hidle
    obtain ⟨rfl, hconn⟩ := Prod.mk.inj ((hr' attempts conn.peer.writes).symm.trans h)
    refine .of_idle fun reads' writes' => (hr' reads' writes').trans ?_
    exact congrArg (fun c => (r', c.withScripts reads' writes')) hconn
  obtain ⟨hzero, hopen⟩ : bytes ≠ 0 ∧ conn.isOpen = true := by simpa using hidle
  obtain ⟨hsocket, hbroken⟩ := isOpen_iff.mp hopen
  rcases hloop : readLoop bytes attempts conn.peer.incoming [] with ⟨result, got, left, reads₀⟩
  obtain ⟨script, hscript⟩ := readLoop_exhausts hloop
  simp only [TcpConnection.readExact, hzero, if_false, withReads_socket, hsocket, withReads_broken, hbroken,
    withReads_peer, Bool.not_true, Bool.false_eq_true, hloop] at h
  refine ⟨script, [], fun reads' writes' => ?_⟩
  simp only [TcpConnection.readExact, hzero, if_false, withScripts_socket, hsocket, withScripts_broken,
    hbroken, withScripts_peer, Bool.not_true, Bool.false_eq_true, hscript, List.nil_append]
  cases result with
  | ok =>
    obtain ⟨rfl, hconn⟩ := Prod.mk.inj h
    exact congrArg (fun c => (Except.ok got, c.withScripts reads' writes')) hconn
  | error s =>
    obtain ⟨rfl, hconn⟩ := Prod.mk.inj h
    exact congrArg (fun c => (Except.error s, c.withScripts reads' writes')) hconn

theorem writeExact_idle {input : Bytes} (h : input = [] ∨ conn.isOpen = false) :
    ∃ r, ∀ reads writes, (conn.withScripts reads writes).writeExact input =
    (r, conn.withScripts reads writes) := by
  by_cases hempty : input = []
  · exact ⟨.ok (), fun reads writes => by rw [writeExact, if_pos (by simp [hempty])]⟩
  rcases closed_or_broken (h.resolve_left hempty) with hsocket | ⟨hsocket, hbroken⟩
  · exact ⟨.error (.unavailable "TcpConnection::WriteExact: connection is closed"),
      fun reads writes => by simp [writeExact, hempty, hsocket]⟩
  · exact ⟨.error (.unavailable "TcpConnection::WriteExact: connection is broken"),
      fun reads writes => by simp [writeExact, hempty, hsocket, hbroken]⟩

theorem Mirrors.writeExact {input : Bytes} {attempts writes : List Attempt} {r : Result Unit}
    (h : (conn.withWrites attempts).writeExact input = (r, conn'.withWrites writes)) :
    Mirrors conn conn' (·.writeExact input) r := by
  by_cases hidle : input = [] ∨ conn.isOpen = false
  · obtain ⟨r', hr'⟩ := writeExact_idle hidle
    obtain ⟨rfl, hconn⟩ := Prod.mk.inj ((hr' conn.peer.reads attempts).symm.trans h)
    refine .of_idle fun reads' writes' => (hr' reads' writes').trans ?_
    exact congrArg (fun c => (r', c.withScripts reads' writes')) hconn
  obtain ⟨hempty, hopen⟩ : input ≠ [] ∧ conn.isOpen = true := by simpa using hidle
  have hsome : input.isEmpty = false := by simpa using hempty
  obtain ⟨hsocket, hbroken⟩ := isOpen_iff.mp hopen
  rcases hloop : writeLoop input.length attempts 0 with ⟨result, completed, writes₀⟩
  obtain ⟨script, hscript⟩ := writeLoop_exhausts (Nat.zero_le _) hloop
  simp only [TcpConnection.writeExact, hsome, if_false, withWrites_socket, hsocket, withWrites_broken,
    hbroken, withWrites_peer, Bool.not_true, Bool.false_eq_true, hloop] at h
  refine ⟨[], script, fun reads' writes' => ?_⟩
  simp only [TcpConnection.writeExact, hsome, if_false, withScripts_socket, hsocket, withScripts_broken,
    hbroken, withScripts_peer, Bool.not_true, Bool.false_eq_true, hscript, List.nil_append]
  cases result with
  | ok =>
    obtain ⟨rfl, hconn⟩ := Prod.mk.inj h
    exact congrArg (fun c => (Except.ok (), c.withScripts reads' writes')) hconn
  | error s =>
    obtain ⟨rfl, hconn⟩ := Prod.mk.inj h
    exact congrArg (fun c => (Except.error s, c.withScripts reads' writes')) hconn

end Mirrors

end TcpConnection

/-! ### The codec does not time out -/

theorem inputError_code (networkInput : Bool) (message : String) :
    (inputError networkInput message).code ≠ .unavailable := by
  cases networkInput <;> simp [inputError, corrupt, invalid, Status.corruption, Status.invalidArgument]

theorem validateFrameSize_code (payloadBytes : ℕ) (limits : CodecLimits) (networkInput : Bool) :
    (validateFrameSizeImpl payloadBytes limits networkInput).code ≠ .unavailable := by
  unfold validateFrameSizeImpl
  split_ifs
  · exact inputError_code false _
  · exact inputError_code networkInput _
  · exact inputError_code networkInput _
  · exact fun h => by cases h

theorem validateHeaderFields_code (header : FrameHeader) (limits : CodecLimits) (networkInput : Bool) :
    (validateHeaderFields header limits networkInput).code ≠ .unavailable := by
  have hok : Result.code (.ok ()) ≠ .unavailable := fun h => by cases h
  have hlength : (validatePayloadLength header limits networkInput).code ≠ .unavailable := by
    unfold validatePayloadLength validateRequestLength validateResponseLength
    split_ifs <;> first | exact hok | exact inputError_code networkInput _
  have hsize := validateFrameSize_code header.payloadBytes.toNat limits networkInput
  unfold validateHeaderFields
  split_ifs
  · exact inputError_code networkInput _
  · exact inputError_code networkInput _
  · exact inputError_code networkInput _
  · exact inputError_code networkInput _
  · cases hframe : validateFrameSizeImpl header.payloadBytes.toNat limits networkInput with
    | error s =>
      rw [hframe] at hsize
      exact hsize
    | ok => exact hlength

theorem encodeHeader_code {header : FrameHeader} {limits : CodecLimits} {s : Status}
    (h : encodeHeader header limits = .error s) : s.code ≠ .unavailable := by
  have hfields := validateHeaderFields_code header limits false
  unfold encodeHeader at h
  cases hvalid : validateHeaderFields header limits false with
  | error s' =>
    rw [hvalid] at h hfields
    cases h
    exact hfields
  | ok =>
    rw [hvalid] at h
    cases h

theorem decodeHeader_code {bytes : Bytes} {limits : CodecLimits} {s : Status}
    (h : decodeHeader bytes limits = .error s) : s.code ≠ .unavailable := by
  have hfields := validateHeaderFields_code (readHeader bytes) limits true
  unfold decodeHeader at h
  split_ifs at h
  · cases h
    exact inputError_code true _
  · cases h
    exact inputError_code true _
  · cases h
    exact inputError_code false _
  · cases h
    exact inputError_code true _
  · cases h
    exact inputError_code true _
  · cases h
    exact inputError_code true _
  · cases hvalid : validateHeaderFields (readHeader bytes) limits true with
    | error s' =>
      rw [hvalid] at h hfields
      cases h
      exact hfields
    | ok =>
      rw [hvalid] at h
      cases h

/-! ### Frames with deadlines -/

/-- One transfer: when it is called, and what happens in its turns. -/
structure Span where
  now : ClockTime
  turns : List TransferTurn

namespace Span

/-- The clock neither shows a time before its epoch nor goes back, and nobody else shuts the connection
    down. -/
structure Regular (span : Span) : Prop where
  now : 0 ≤ span.now.reading
  turns : ∀ turn ∈ span.turns, TcpConnection.Regular span.now turn

/-- The kernel waits as long as it is told. -/
def Honest (timeout : Milliseconds) (span : Span) : Prop :=
  ∀ d, Deadline.make span.now timeout = some d → TcpConnection.Honest d span.turns

end Span

namespace TcpConnection

/-- `ReadWireFrame`, and the time it returns. -/
def timedReadWireFrame (conn : TcpConnection) (limits : CodecLimits) (alloc : Bool) (timeout : Milliseconds)
    (first second : Span) : Option (Result WireFrame × TcpConnection × ClockTime) :=
  match conn.timedReadExact headerBytes timeout first.now first.turns with
  | none => none
  | some (.error s, conn, t) => some (.error s, conn, t)
  | some (.ok encodedHeader, conn, t) =>
    match decodeHeader encodedHeader limits with
    | .error s => some (.error s, conn.shutdown, t)
    | .ok header =>
      match validateFrameSize header.payloadBytes.toNat limits with
      | .error s => some (.error s, conn.shutdown, t)
      | .ok frameSize =>
        let payloadSize := frameSize - headerBytes
        if payloadSize = 0 then some (.ok ⟨header, []⟩, conn, t)
        else if !alloc then
          some (.error (.outOfCapacity "ReadWireFrame: payload allocation failed"), conn.shutdown, t)
        else
          match conn.timedReadExact payloadSize timeout second.now second.turns with
          | none => none
          | some (.error s, conn, t) => some (.error s, conn, t)
          | some (.ok payload, conn, t) => some (.ok ⟨header, payload⟩, conn, t)

/-- `WriteWireFrame`, called at `first.now`, and the time it returns. -/
def timedWriteWireFrame (conn : TcpConnection) (frame : WireFrame) (limits : CodecLimits)
    (timeout : Milliseconds) (first second : Span) : Option (Result Unit × TcpConnection × ClockTime) :=
  if frame.header.payloadBytes.toNat ≠ frame.payload.length then
    some (.error (.invalidArgument "WriteWireFrame: header payload_bytes does not match payload size"), conn,
      first.now)
  else
    match encodeHeader frame.header limits with
    | .error s => some (.error s, conn, first.now)
    | .ok encodedHeader =>
      match conn.timedWriteExact encodedHeader timeout first.now first.turns with
      | none => none
      | some (.error s, conn, t) => some (.error s, conn, t)
      | some (.ok (), conn, t) =>
        if frame.payload.isEmpty then some (.ok (), conn, t)
        else conn.timedWriteExact frame.payload timeout second.now second.turns

/-- A call that timed out did so no earlier than a time-out after it was made. -/
def FrameNotEarly (timeout : Milliseconds) (first second : Span) (code : StatusCode) (t : ClockTime) : Prop :=
  timeout.count.toInt ≤ Int32.maxValue.toInt → first.Honest timeout → second.Honest timeout →
    code = .unavailable → Deadline.ideal first.now timeout ≤ t.reading

section Frames

variable {conn : TcpConnection} {timeout : Milliseconds} {first second : Span}

theorem frameNotEarly_first {code : StatusCode} {t : ClockTime}
    (h : NotEarly timeout first.now first.turns code t) : FrameNotEarly timeout first second code t :=
  fun hint hfirst _ hcode => h hint hfirst hcode

theorem frameNotEarly_second {code : StatusCode} {t : ClockTime} (hlater : first.now ≤ second.now)
    (h : NotEarly timeout second.now second.turns code t) : FrameNotEarly timeout first second code t := by
  intro hint _ hsecond hcode
  have hideal := h hint hsecond hcode
  have hreading := TimePoint.le_iff.mp hlater
  unfold Deadline.ideal at hideal ⊢
  omega

theorem frameNotEarly_of_code {code : StatusCode} (h : code ≠ .unavailable) (t : ClockTime) :
    FrameNotEarly timeout first second code t :=
  fun _ _ _ hcode => absurd hcode h

/-- `ReadExact` with its deadline uses up some script of `ReadExact` without time. -/
theorem timedReadExact_mirrors (conn : TcpConnection) (bytes : ℕ) (htimeout : 0 ≤ timeout.count.toInt)
    (hfirst : first.Regular) :
    ∃ r conn' t, conn.timedReadExact bytes timeout first.now first.turns = some (r, conn', t) ∧
      Mirrors conn conn' (·.readExact bytes) r ∧
      (conn.isOpen = true → NotEarly timeout first.now first.turns r.code t) ∧
      (∀ got, r = .ok got → conn'.isOpen = conn.isOpen) := by
  obtain ⟨attempts, r, conn', reads, t, htimed, hread, hearly⟩ :=
    timedReadExact_refines conn bytes htimeout hfirst.now hfirst.turns
  refine ⟨r, conn', t, htimed, .readExact hread, hearly, fun got hr => ?_⟩
  obtain ⟨r', conn'', q, heq, -, hspec⟩ := readExact_spec (conn.withReads attempts) bytes
  obtain ⟨rfl, rfl⟩ := Prod.mk.inj (heq.symm.trans hread)
  rw [hr] at hspec
  exact hspec.2.2

theorem timedWriteExact_mirrors (conn : TcpConnection) (input : Bytes) (htimeout : 0 ≤ timeout.count.toInt)
    (hfirst : first.Regular) :
    ∃ r conn' t, conn.timedWriteExact input timeout first.now first.turns = some (r, conn', t) ∧
      Mirrors conn conn' (·.writeExact input) r ∧
      (conn.isOpen = true → NotEarly timeout first.now first.turns r.code t) ∧
      (r = .ok () → conn'.isOpen = conn.isOpen) := by
  obtain ⟨attempts, r, conn', writes, t, htimed, hwrite, hearly⟩ :=
    timedWriteExact_refines conn input htimeout hfirst.now hfirst.turns
  refine ⟨r, conn', t, htimed, .writeExact hwrite, hearly, fun hr => ?_⟩
  obtain ⟨r', conn'', p, heq, -, -, hspec⟩ := writeExact_spec (conn.withWrites attempts) input
  obtain ⟨rfl, rfl⟩ := Prod.mk.inj (heq.symm.trans hwrite)
  rw [hr] at hspec
  exact hspec.2

/-- READ: a frame is read against the clock as on some script. -/
theorem timedReadWireFrame_mirrors (conn : TcpConnection) (limits : CodecLimits) (alloc : Bool)
    (htimeout : 0 ≤ timeout.count.toInt) (hfirst : first.Regular) (hsecond : second.Regular)
    (hlater : first.now ≤ second.now) :
    ∃ r conn' t, conn.timedReadWireFrame limits alloc timeout first second = some (r, conn', t) ∧
      Mirrors conn conn' (·.readWireFrame limits alloc) r ∧
      (conn.isOpen = true → FrameNotEarly timeout first second r.code t) := by
  obtain ⟨r₁, conn₁, t₁, htimed₁, ⟨reads₁, writes₁, hplain₁⟩, hearly₁, hopen₁⟩ :=
    timedReadExact_mirrors conn headerBytes htimeout hfirst
  simp only [timedReadWireFrame, htimed₁]
  -- up to the payload, the plain call does the same on the attempts of the header
  cases r₁ with
  | error s =>
    exact ⟨_, conn₁, t₁, rfl, ⟨reads₁, writes₁, fun reads' writes' => by simp only [readWireFrame, hplain₁]⟩,
      fun hopen => frameNotEarly_first (hearly₁ hopen)⟩
  | ok encodedHeader =>
    cases hdecode : decodeHeader encodedHeader limits with
    | error s =>
      simp only [hdecode]
      exact ⟨_, conn₁.shutdown, t₁, rfl,
        ⟨reads₁, writes₁, fun reads' writes' => by simp only [readWireFrame, hplain₁, hdecode]; rfl⟩,
        fun _ => frameNotEarly_of_code (decodeHeader_code hdecode) t₁⟩
    | ok header =>
      cases hsize : validateFrameSize header.payloadBytes.toNat limits with
      | error s =>
        have hcode := validateFrameSize_code header.payloadBytes.toNat limits false
        rw [show validateFrameSizeImpl _ _ _ = _ from hsize] at hcode
        simp only [hdecode, hsize]
        exact ⟨_, conn₁.shutdown, t₁, rfl,
          ⟨reads₁, writes₁, fun reads' writes' => by simp only [readWireFrame, hplain₁, hdecode, hsize]; rfl⟩,
          fun _ => frameNotEarly_of_code hcode t₁⟩
      | ok frameSize =>
        simp only [hdecode, hsize]
        by_cases hzero : frameSize - headerBytes = 0
        · exact ⟨_, conn₁, t₁, by rw [if_pos hzero],
            ⟨reads₁, writes₁, fun reads' writes' => by
              simp only [readWireFrame, hplain₁, hdecode, hsize, hzero, if_true]⟩,
            fun _ => frameNotEarly_of_code (fun h => by cases h) t₁⟩
        rw [if_neg hzero]
        cases alloc with
        | false =>
          exact ⟨_, conn₁.shutdown, t₁, rfl,
            ⟨reads₁, writes₁, fun reads' writes' => by
              simp only [readWireFrame, hplain₁, hdecode, hsize, hzero, if_false]; rfl⟩,
            fun _ => frameNotEarly_of_code (fun h => by cases h) t₁⟩
        | true =>
          obtain ⟨r₂, conn₂, t₂, htimed₂, ⟨reads₂, writes₂, hplain₂⟩, hearly₂, -⟩ :=
            timedReadExact_mirrors conn₁ (frameSize - headerBytes) htimeout hsecond
          have hnotEarly : conn.isOpen = true → FrameNotEarly timeout first second r₂.code t₂ := fun hopen =>
            frameNotEarly_second hlater (hearly₂ ((hopen₁ encodedHeader rfl).trans hopen))
          have hplain : ∀ reads' writes', (conn.withScripts (reads₁ ++ reads₂ ++ reads')
            (writes₁ ++ writes₂ ++ writes')
              ).readWireFrame limits true =
              (r₂.map fun payload => ⟨header, payload⟩, conn₂.withScripts reads' writes') := by
            intro reads' writes'
            rw [List.append_assoc, List.append_assoc]
            simp only [readWireFrame, hplain₁, hdecode, hsize, hzero, if_false, hplain₂]
            cases r₂ <;> rfl
          simp only [htimed₂]
          cases r₂ with
          | error s => exact ⟨_, conn₂, t₂, rfl, ⟨_, _, hplain⟩, hnotEarly⟩
          | ok payload => exact ⟨_, conn₂, t₂, rfl, ⟨_, _, hplain⟩, hnotEarly⟩

/-- WRITE: a frame is written against the clock as on some script. -/
theorem timedWriteWireFrame_mirrors (conn : TcpConnection) (frame : WireFrame) (limits : CodecLimits)
    (htimeout : 0 ≤ timeout.count.toInt) (hfirst : first.Regular) (hsecond : second.Regular)
    (hlater : first.now ≤ second.now) :
    ∃ r conn' t, conn.timedWriteWireFrame frame limits timeout first second = some (r, conn', t) ∧
      Mirrors conn conn' (·.writeWireFrame frame limits) r ∧
      (conn.isOpen = true → FrameNotEarly timeout first second r.code t) := by
  by_cases hsize : frame.header.payloadBytes.toNat ≠ frame.payload.length
  · exact ⟨_, conn, first.now, by rw [timedWriteWireFrame, if_pos hsize],
      .of_idle fun reads writes => by rw [writeWireFrame, if_pos hsize],
      fun _ => frameNotEarly_of_code (fun h => by cases h) _⟩
  cases hencode : encodeHeader frame.header limits with
  | error s =>
    exact ⟨.error s, conn, first.now, by simp only [timedWriteWireFrame, hsize, if_false, hencode],
      .of_idle fun reads writes => by simp only [writeWireFrame, hsize, if_false, hencode],
      fun _ => frameNotEarly_of_code (encodeHeader_code hencode) _⟩
  | ok encodedHeader =>
    obtain ⟨r₁, conn₁, t₁, htimed₁, ⟨reads₁, writes₁, hplain₁⟩, hearly₁, hopen₁⟩ :=
      timedWriteExact_mirrors conn encodedHeader htimeout hfirst
    simp only [timedWriteWireFrame, hsize, if_false, hencode, htimed₁]
    cases r₁ with
    | error s =>
      exact ⟨_, conn₁, t₁, rfl, ⟨reads₁, writes₁, fun reads' writes' => by
        simp only [writeWireFrame, hsize, if_false, hencode, hplain₁]⟩,
        fun hopen => frameNotEarly_first (hearly₁ hopen)⟩
    | ok =>
      simp only
      by_cases hempty : frame.payload.isEmpty = true
      · exact ⟨_, conn₁, t₁, by rw [if_pos hempty], ⟨reads₁, writes₁, fun reads' writes' => by
          simp only [writeWireFrame, hsize, if_false, hencode, hplain₁, hempty, if_true]⟩,
          fun _ => frameNotEarly_of_code (fun h => by cases h) _⟩
      rw [if_neg hempty]
      obtain ⟨r₂, conn₂, t₂, htimed₂, ⟨reads₂, writes₂, hplain₂⟩, hearly₂, -⟩ :=
        timedWriteExact_mirrors conn₁ frame.payload htimeout hsecond
      refine ⟨r₂, conn₂, t₂, htimed₂, ⟨reads₁ ++ reads₂, writes₁ ++ writes₂, fun reads' writes' => ?_⟩,
        fun hopen => frameNotEarly_second hlater (hearly₂ ((hopen₁ rfl).trans hopen))⟩
      rw [List.append_assoc, List.append_assoc]
      simp only [writeWireFrame, hsize, if_false, hencode, hplain₁, hempty, hplain₂, Bool.false_eq_true]

end Frames

/-! ### Sessions -/

/-- A call on a connection with all that the kernel and the clock say to it. -/
inductive TimedCall where
  | read (limits : CodecLimits) (alloc : Bool) (first second : Span)
  | write (frame : WireFrame) (limits : CodecLimits) (first second : Span)
  | shutdown (now : ClockTime)

namespace TimedCall

/-- The call itself. -/
def plain : TimedCall → FrameCall
  | .read limits alloc _ _ => .read limits alloc
  | .write frame limits _ _ => .write frame limits
  | .shutdown _ => .shutdown

def Regular : TimedCall → Prop
  | .read _ _ first second => first.Regular ∧ second.Regular ∧ first.now ≤ second.now
  | .write _ _ first second => first.Regular ∧ second.Regular ∧ first.now ≤ second.now
  | .shutdown _ => True

/-- What is asked of the time when a call reports `kUnavailable`. -/
def NotEarly (options : TcpConnectionOptions) : TimedCall → StatusCode → ClockTime → Prop
  | .read _ _ first second => FrameNotEarly (milliseconds options.readTimeout) first second
  | .write _ _ first second => FrameNotEarly (milliseconds options.writeTimeout) first second
  | .shutdown _ => fun code _ => code ≠ .unavailable

end TimedCall

def FrameReply.code : FrameReply → StatusCode
  | .frame r => r.code
  | .written r => r.code
  | .none => .ok

/-- A reply, whether the connection was usable when the call was made, and the time it returned. -/
structure TimedReply where
  reply : FrameReply
  usable : Bool
  back : ClockTime

/-- One call; an error where a deadline would overflow. -/
def timedStep (options : TcpConnectionOptions) (conn : TcpConnection) :
    TimedCall → Except Unit (TimedReply × TcpConnection)
  | .read limits alloc first second =>
    match conn.timedReadWireFrame limits alloc (milliseconds options.readTimeout) first second with
    | none => .error ()
    | some (r, conn', t) => .ok (⟨.frame r, conn.isOpen, t⟩, conn')
  | .write frame limits first second =>
    match conn.timedWriteWireFrame frame limits (milliseconds options.writeTimeout) first second with
    | none => .error ()
    | some (r, conn', t) => .ok (⟨.written r, conn.isOpen, t⟩, conn')
  | .shutdown now => .ok (⟨.none, conn.isOpen, now⟩, conn.shutdown)

/-- The same without time. -/
def plainStep (conn : TcpConnection) (call : FrameCall) : Except Unit (FrameReply × TcpConnection) :=
  .ok (conn.frameStep call)

/-- The options that `Connect` and `AdoptConnectedSocket` let through. -/
structure ValidTimeouts (options : TcpConnectionOptions) : Prop where
  read : 0 ≤ options.readTimeout ∧ Fits options.readTimeout
  write : 0 ≤ options.writeTimeout ∧ Fits options.writeTimeout

theorem toInt_milliseconds {count : ℤ} (h : 0 ≤ count ∧ Fits count) :
    0 ≤ (milliseconds count).count.toInt := by
  rw [milliseconds, Int64.toInt_ofInt_of_le h.2.1 h.2.2]
  exact h.1

theorem timedStep_mirrors {options : TcpConnectionOptions} (hoptions : ValidTimeouts options)
    (conn : TcpConnection) {call : TimedCall} (hcall : call.Regular) :
    ∃ reply conn', timedStep options conn call = .ok (reply, conn') ∧
      Mirrors conn conn' (·.frameStep call.plain) reply.reply ∧
      (reply.usable = true → call.NotEarly options reply.reply.code reply.back) := by
  cases call with
  | read limits alloc first second =>
    obtain ⟨hfirst, hsecond, hlater⟩ := hcall
    obtain ⟨r, conn', t, htimed, ⟨reads, writes, hplain⟩, hearly⟩ :=
      timedReadWireFrame_mirrors conn limits alloc
      (toInt_milliseconds hoptions.read) hfirst hsecond hlater
    refine ⟨⟨.frame r, conn.isOpen, t⟩, conn', by simp only [timedStep, htimed], ⟨reads, writes, ?_⟩, hearly⟩
    intro reads' writes'
    simp only [TimedCall.plain, frameStep, hplain, Prod.map_apply, id_eq]
  | write frame limits first second =>
    obtain ⟨hfirst, hsecond, hlater⟩ := hcall
    obtain ⟨r, conn', t, htimed, ⟨reads, writes, hplain⟩, hearly⟩ :=
      timedWriteWireFrame_mirrors conn frame limits
      (toInt_milliseconds hoptions.write) hfirst hsecond hlater
    refine ⟨⟨.written r, conn.isOpen, t⟩, conn', by simp only [timedStep, htimed], ⟨reads, writes, ?_⟩,
      hearly⟩
    intro reads' writes'
    simp only [TimedCall.plain, frameStep, hplain, Prod.map_apply, id_eq]
  | shutdown now =>
    exact ⟨⟨.none, conn.isOpen, now⟩, conn.shutdown, rfl, .of_idle fun _ _ => rfl, fun _ h => by cases h⟩

/-- TIMED SESSION: any sequence of frame calls with deadlines returns, and its replies and the connection
    it leaves are those of the calls without time on some scripts; a call on a usable connection reports a
    time-out no earlier than asked for. -/
theorem timed_session_refines {options : TcpConnectionOptions} (hoptions : ValidTimeouts options)
    (conn : TcpConnection) (calls : List TimedCall) (hcalls : ∀ call ∈ calls, call.Regular) :
    ∃ replies conn', run (timedStep options) conn calls = .ok (replies, conn') ∧
      (∃ reads writes, run plainStep (conn.withScripts reads writes) (calls.map TimedCall.plain) =
        .ok (replies.map TimedReply.reply, conn'.withScripts [] [])) ∧
      ∀ made ∈ calls.zip replies, made.2.usable = true →
        made.1.NotEarly options made.2.reply.code made.2.back := by
  -- for the induction, scripts that are used up whatever follows them
  suffices h : ∃ replies conn', run (timedStep options) conn calls = .ok (replies, conn') ∧
      (∃ reads writes, ∀ reads' writes', run plainStep
      (conn.withScripts (reads ++ reads') (writes ++ writes'))
        (calls.map TimedCall.plain) = .ok (replies.map TimedReply.reply, conn'.withScripts reads' writes')) ∧
      ∀ made ∈ calls.zip replies, made.2.usable = true →
        made.1.NotEarly options made.2.reply.code made.2.back by
    obtain ⟨replies, conn', hrun, ⟨reads, writes, hplain⟩, hearly⟩ := h
    refine ⟨replies, conn', hrun, ⟨reads, writes, ?_⟩, hearly⟩
    simpa using hplain [] []
  induction calls generalizing conn with
  | nil => exact ⟨[], conn, rfl, ⟨[], [], fun _ _ => rfl⟩, fun _ h => by cases h⟩
  | cons call rest ih =>
    obtain ⟨hcall, hrest⟩ := List.forall_mem_cons.mp hcalls
    obtain ⟨reply, conn₁, hstep, ⟨reads₁, writes₁, hplain₁⟩, hearly₁⟩ := timedStep_mirrors hoptions conn hcall
    obtain ⟨replies, conn₂, hrun, ⟨reads₂, writes₂, hplain₂⟩, hearly₂⟩ := ih conn₁ hrest
    refine ⟨reply :: replies, conn₂, run_cons_iff.mpr ⟨reply, conn₁, replies, hstep, hrun, rfl⟩,
      ⟨reads₁ ++ reads₂, writes₁ ++ writes₂, fun reads' writes' => ?_⟩, ?_⟩
    · rw [List.append_assoc, List.append_assoc]
      exact run_cons_iff.mpr ⟨_, _, _, congrArg Except.ok (hplain₁ _ _), hplain₂ reads' writes', rfl⟩
    · rw [List.zip_cons_cons]
      exact List.forall_mem_cons.mpr ⟨hearly₁, hearly₂⟩

/-- A read that gets half a header and then waits for the rest in vain. -/
def halfHeader : List TimedCall :=
  [.read {} true ⟨⟨⟨0⟩⟩, [⟨⟨⟨0⟩⟩, .moved 15⟩, ⟨⟨⟨1000000⟩⟩,
    .wouldBlock [⟨⟨⟨1000000⟩⟩, .timeout, ⟨⟨30000000000⟩⟩,
      false, false⟩]⟩]⟩ ⟨⟨⟨0⟩⟩, []⟩,
    .shutdown ⟨⟨30000000000⟩⟩]

theorem halfHeader_regular : ∀ call ∈ halfHeader, call.Regular := by
  refine List.forall_mem_cons.mpr ⟨⟨⟨by decide, ?_⟩, ⟨by decide, by simp⟩, by decide⟩,
    List.forall_mem_cons.mpr ⟨trivial, by simp⟩⟩
  refine List.forall_mem_cons.mpr ⟨⟨by decide, by simp [PollCall.After, Transfer.polls], ?_⟩,
    List.forall_mem_cons.mpr ⟨⟨by decide, ?_, ?_⟩, by simp⟩⟩
  · simp [PollCall.Undisturbed, Transfer.polls]
  · simp only [PollCall.After, Transfer.polls]
    decide
  · simp [PollCall.Undisturbed, Transfer.polls]

theorem timed_session_refines_halfHeader :
    ∃ replies conn', run (timedStep {}) slowReceiver halfHeader = .ok (replies, conn') ∧
      ∃ reads writes, run plainStep (slowReceiver.withScripts reads writes) (halfHeader.map TimedCall.plain) =
        .ok (replies.map TimedReply.reply, conn'.withScripts [] []) := by
  have hoptions : ValidTimeouts {} := ⟨by decide, by decide⟩
  obtain ⟨replies, conn', hrun, hplain, -⟩ :=
    timed_session_refines hoptions slowReceiver halfHeader halfHeader_regular
  exact ⟨replies, conn', hrun, hplain⟩

end TcpConnection

end TidePool.Transport
