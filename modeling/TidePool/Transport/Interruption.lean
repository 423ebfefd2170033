import TidePool.Schemes.Machine
import TidePool.Schemes.Once
import TidePool.Transport.Threads

/-! Interrupting a transfer (`include/tidepool/transport/tcp_connection.h`: `Shutdown` is safe to call
    concurrently with `ReadExact` and `WriteExact`, and wakes a blocked one).

    A thread that waits in `poll` is woken by the `::shutdown` of another. That comes after the exchange,
    so there are states where the flag is set and the socket is not shut down:

        broken_    false ---exchange---> true
        socket     open                  open ---::shutdown---> shut down
                                         one thread is about to, and it alone

    Hence a call of `Shutdown` may return while the socket is still open, namely when another one is in
    between. Once all of them are back there is nothing left to wait for. -/

namespace TidePool.Transport

open Schemes TcpSocket

namespace Threads

variable {ι : Type}

/-! ### Every interleaving -/

/-- Who is about to call `::shutdown`: a thread inside `Shutdown`, or (`none`) the transferring one. -/
def About (s : Threads ι) : Option ι → Prop
  | none => ∃ io, s.io = some io ∧ io.About
  | some i => s.inside i = true

def taking (s : Threads ι) : Bytes := s.io.elim [] Io.taking

end Threads

/-- The bytes a call has taken from the stream. -/
def IoReply.taken (r : IoReply) : Bytes := r.call.taken r.moved

/-- A reply that has an explanation; one without an error is complete. -/
structure IoReply.Fair (r : IoReply) : Prop where
  explains : r.call.Explains r.moved r.result
  accepts : r.call.Accepts r.moved
  complete : r.result = .ok () → r.moved.length = r.call.target

namespace Threads

variable {ι : Type}

/-- What holds in whatever order things happen. -/
structure Safe (s : Threads ι) : Prop where
  once : Once s.broken s.socket.shutdowns s.About
  sound : ∀ io, s.io = some io → io.Sound
  stream : s.delivered = s.replies.flatMap IoReply.taken ++ s.taking ++ s.socket.incoming
  fair : ∀ r ∈ s.replies, r.Fair
  failed : ∀ r ∈ s.replies, r.result ≠ .ok () → s.broken = true ∧ s.io = none
  order : s.replies.Pairwise fun r q => r.result ≠ .ok () → q.moved = []

namespace Safe

variable {s : Threads ι} {io : Io}

theorem init : Safe ({} : Threads ι) where
  once := .init fun x => by cases x <;> simp [About]
  sound _ h := by cases h
  stream := rfl
  fair _ h := by cases h
  failed _ h := by cases h
  order := .nil

/-- While a call is under way, none has failed. -/
theorem all_ok (h : Safe s) (hio : s.io = some io) {r : IoReply} (hr : r ∈ s.replies) :
    r.result = .ok () := by
  by_contra hne
  cases hio.symm.trans (h.failed r hr hne).2

/-- The call under way returns; what else changes is the socket. -/
theorem returned (h : Safe s) (hio : s.io = some io) (socket : Socket) {result : Result Unit}
    (hincoming : socket.incoming = s.socket.incoming)
    (honce : Once s.broken socket.shutdowns ({ s with socket }.returns io result).About)
    (hfair : IoReply.Fair ⟨io.call, io.moved, result⟩) (herror : result ≠ .ok () → s.broken = true) :
    Safe ({ s with socket }.returns io result) where
  once := honce
  sound _ hnone := by cases hnone
  stream := by
    have htaking : s.taking = IoReply.taken ⟨io.call, io.moved, result⟩ := by
      rw [taking, hio]
      rfl
    rw [h.stream, htaking, ← hincoming]
    simp [Threads.returns, taking]
  fair r hr := by
    rcases List.mem_append.mp hr with hr | hr
    · exact h.fair r hr
    · rw [List.mem_singleton.mp hr]
      exact hfair
  failed r hr hne := by
    rcases List.mem_append.mp hr with hr | hr
    · exact absurd (h.all_ok hio hr) hne
    · rw [List.mem_singleton.mp hr] at hne
      exact ⟨herror hne, rfl⟩
  order := by
    refine List.pairwise_append.mpr ⟨h.order, List.pairwise_singleton _ _, ?_⟩
    intro r hr q _ hne
    exact absurd (h.all_ok hio hr) hne

/-- A call that returns at once has transferred nothing. -/
theorem answered (h : Safe s) (hio : s.io = none) {call : IoCall} {result : Result Unit}
    (hfair : IoReply.Fair ⟨call, [], result⟩) (herror : result ≠ .ok () → s.broken = true) :
    Safe (s.returns { call } result) where
  once := by
    refine h.once.congr fun x => ?_
    cases x with
    | none => simp [About, returns, hio]
    | some i => exact Iff.rfl
  sound _ hnone := by cases hnone
  stream := by
    have hnothing : IoReply.taken ⟨call, [], result⟩ = [] := by cases call <;> rfl
    have hstream := h.stream
    rw [taking, hio] at hstream
    simpa [returns, taking, hnothing] using hstream
  fair r hr := by
    rcases List.mem_append.mp hr with hr | hr
    · exact h.fair r hr
    · rw [List.mem_singleton.mp hr]
      exact hfair
  failed r hr hne := by
    rcases List.mem_append.mp hr with hr | hr
    · exact ⟨(h.failed r hr hne).1, rfl⟩
    · rw [List.mem_singleton.mp hr] at hne
      exact ⟨herror hne, rfl⟩
  order := by
    refine List.pairwise_append.mpr ⟨h.order, List.pairwise_singleton _ _, ?_⟩
    intro r _ q hq _
    rw [List.mem_singleton.mp hq]

theorem effect {t : Threads ι} {action : IoAction} (h : Safe s) (hio : s.io = some io)
    (heffect : Effect s io action t) : Safe t := by
  have hself : io.About → s.About none := fun habout => ⟨io, hio, habout⟩
  have haccepts := (h.sound io hio).1
  cases heffect with
  | goesOn io' left hsound hnot hnot' hstream =>
    refine ⟨?_, ?_, ?_, h.fair, ?_, h.order⟩
    · refine h.once.congr fun x => ?_
      cases x with
      | none => simp [About, hio, hnot, hnot']
      | some i => exact Iff.rfl
    · rintro io'' ⟨⟩
      exact hsound
    · have htaking : s.taking = io.taking := by rw [taking, hio]; rfl
      rw [h.stream, htaking, List.append_assoc, hstream, ← List.append_assoc]
      rfl
    · intro r hr hne
      exact absurd (h.all_ok hio hr) hne
  | returns result hexplains hok herror hnot =>
    refine h.returned hio s.socket rfl (h.once.congr fun x => ?_)
      ⟨hexplains, haccepts, fun heq => le_antisymm haccepts.length_le (hok heq)⟩ herror
    cases x with
    | none => simp [About, Threads.returns, hio, hnot]
    | some i => exact Iff.rfl
  | exchanges why hexplains hbroken hnot =>
    have honce := h.once
    rw [hbroken] at honce
    refine ⟨honce.exchange (x := none) fun x => ?_, ?_, ?_, h.fair, ?_, h.order⟩
    · cases x with
      | none => simp [About, goesTo, Io.About]
      | some i => simpa [About, goesTo] using honce.2 (some i)
    · rintro io' ⟨⟩
      exact ⟨haccepts, hexplains⟩
    · have hstream := h.stream
      rw [taking, hio] at hstream
      exact hstream
    · intro r hr hne
      exact absurd (h.all_ok hio hr) hne
  | shutsDown why outcome hexplains habout =>
    refine h.returned hio (s.socket.shutdown outcome) rfl (h.once.act (hself habout) outcome fun x hx => ?_)
      ⟨hexplains, haccepts, fun heq => by cases heq⟩ fun _ => (h.once.about (hself habout)).1
    cases x with
    | none =>
      obtain ⟨io', hnone, -⟩ := hx
      cases hnone
    | some i => exact ⟨by simp, hx⟩

variable [DecidableEq ι]

/-- STEP: every event that can happen keeps it. -/
theorem step (h : Safe s) (event : ThreadEvent ι) : Yields False (s.step event) fun res => Safe res.2 := by
  cases event with
  | arrives bytes =>
    refine ⟨h.once, h.sound, ?_, h.fair, h.failed, h.order⟩
    show s.delivered ++ bytes = _ ++ s.taking ++ (s.socket.incoming ++ bytes)
    rw [h.stream, List.append_assoc _ s.socket.incoming]
  | peerCloses => exact ⟨h.once, h.sound, h.stream, h.fair, h.failed, h.order⟩
  | peerResets => exact ⟨h.once, h.sound, h.stream, h.fair, h.failed, h.order⟩
  | drains room => exact ⟨h.once, h.sound, h.stream, h.fair, h.failed, h.order⟩
  | calls call =>
    simp only [Threads.step]
    cases hio : s.io with
    | some io => exact not_false
    | none =>
      by_cases hzero : call.target = 0
      · rw [if_pos hzero]
        exact h.answered hio ⟨.inl (call.led_nil.done hzero.le), call.accepts_nil, fun _ => hzero.symm⟩
          fun hne => absurd rfl hne
      rw [if_neg hzero]
      by_cases hbroken : s.broken = true
      · rw [if_pos hbroken]
        exact h.answered hio ⟨.inr (.inr ⟨rfl, rfl⟩), call.accepts_nil, fun heq => by cases heq⟩ fun _ =>
          hbroken
      rw [if_neg hbroken]
      refine ⟨h.once.congr fun x => ?_, ?_, ?_, h.fair, fun r hr hne =>
        absurd (h.failed r hr hne).1 hbroken, h.order⟩
      · cases x with
        | none => simp [About, hio, Io.About]
        | some i => exact Iff.rfl
      · rintro io ⟨⟩
        exact ⟨call.accepts_nil, call.led_nil⟩
      · have hnothing : Io.taking { call } = [] := by cases call <;> rfl
        show s.delivered = s.replies.flatMap IoReply.taken ++ Io.taking { call } ++ s.socket.incoming
        rw [h.stream, hnothing, taking, hio]
        rfl
  | io action =>
    simp only [Threads.step]
    cases hio : s.io with
    | none => exact not_false
    | some io =>
      rw [Option.bind_some]
      cases hact : s.act io io.pc action with
      | none => exact not_false
      | some t => exact h.effect hio (act_effect (h.sound io hio) hact)
  | shutdown i =>
    simp only [Threads.step]
    by_cases hinside : s.inside i = true
    · rw [if_pos hinside]
      exact not_false
    rw [if_neg hinside]
    by_cases hbroken : s.broken = true
    · rw [if_pos hbroken]
      exact h
    rw [if_neg hbroken]
    have honce := h.once
    rw [show s.broken = false by simpa using hbroken] at honce
    refine ⟨honce.exchange (x := some i) fun x => ?_, h.sound, h.stream, h.fair,
      fun r hr hne => ⟨rfl, (h.failed r hr hne).2⟩, h.order⟩
    cases x with
    | none => simpa [About] using honce.2 none
    | some j =>
      have hj : s.inside j = false := by simpa [About] using honce.2 (some j)
      by_cases hji : j = i
      · simp [About, hji]
      · simp [About, hji, hj]
  | shutsDown i outcome =>
    simp only [Threads.step]
    by_cases hinside : s.inside i = true
    · rw [if_pos hinside]
      refine ⟨h.once.act (x := some i) hinside outcome fun x hx => ?_, h.sound, h.stream, h.fair, h.failed,
        h.order⟩
      cases x with
      | none => exact ⟨by simp, hx⟩
      | some j =>
        by_cases hji : j = i
        · simp [About, hji] at hx
        · exact ⟨by simpa using hji, by simpa [About, hji] using hx⟩
    · rw [if_neg hinside]
      exact not_false

end Safe

/-! ### Waking up -/

/-- The flag is set, and a call under way has nothing to wait for. -/
structure Woken (s : Threads ι) : Prop where
  broken : s.broken = true
  shut : ∀ io, s.io = some io → s.socket.shut = true ∨ io.About

section Woken

variable {s t : Threads ι} {io : Io}

theorem shut_shutdown {k : Socket} (outcome : ShutdownCall) (h : k.shut = true) :
    (k.shutdown outcome).shut = true := by
  simp only [Socket.shut, Socket.shutdown, List.any_append, Bool.or_eq_true]
  exact .inl h

/-- NOT BLOCKED: the call can go on, without a signal and without the deadline. -/
theorem Woken.acts (h : Woken s) (hio : s.io = some io) :
    ∃ action t, action.prompt = true ∧ s.act io io.pc action = some t := by
  rcases h.shut io hio with hshut | ⟨why, hpc⟩
  · cases hpc : io.pc with
    | head firstAttempt =>
      by_cases hdone : io.call.target ≤ io.moved.length
      · exact ⟨.looksAtClock false, _, rfl, by rw [act, if_pos hdone]⟩
      · exact ⟨.looksAtClock false, _, rfl, by rw [act, if_neg hdone, Bool.and_false, if_neg (by simp)]⟩
    | transfer =>
      cases hcall : io.call with
      | read bytes =>
        by_cases hempty : s.socket.incoming.isEmpty = true
        · exact ⟨.transfers .zero, _, rfl,
            by rw [act, hcall, if_pos (by simp [Socket.permits, hempty, hshut])]⟩
        · exact ⟨.transfers (.moved 0), _, rfl,
            by rw [act, hcall, if_pos (by simpa [Socket.permits] using hempty)]⟩
      | write input => exact ⟨.transfers (.failed "Broken pipe (errno=32)"), _, rfl, by
          rw [act, hcall, if_pos (by simp [Socket.permits])]⟩
    | pollEnter => exact ⟨.looksAtFlag, _, rfl, by rw [act, if_pos h.broken]⟩
    | pollWait =>
      have hready : s.socket.ready io.call.requestedEvents = true := by
        cases io.call <;> simp [Socket.ready, IoCall.requestedEvents, hshut]
      exact ⟨.polls (.events {}), _, rfl, by rw [act, if_pos hready]⟩
    | pollLeave revents => exact ⟨.looksAtFlag, _, rfl, by rw [act, if_pos h.broken]⟩
    | markBroken why => exact ⟨.exchanges, _, rfl, by rw [act, if_pos h.broken]⟩
    | shutDown why => exact ⟨.shutsDown .done, _, rfl, rfl⟩
  · exact ⟨.shutsDown .done, _, rfl, by rw [hpc, act]⟩

/-- An action ends the call or brings it nearer to its end. -/
theorem Woken.effect {action : IoAction} (h : Woken s) (hio : s.io = some io)
    (heffect : Effect s io action t) :
    s.replies.length < t.replies.length ∨ t.replies = s.replies ∧ Woken t ∧
      ∃ io', t.io = some io' ∧ io'.work + 1 ≤ io.work + if action.interrupted then 2 else 0 := by
  cases heffect with
  | goesOn io' left hsound hnot hnot' hstream hshortens =>
    have hshut : s.socket.shut = true := (h.shut io hio).resolve_right hnot
    exact .inr ⟨rfl, ⟨h.broken, fun _ _ => .inl hshut⟩, io', rfl, hshortens h.broken hshut⟩
  | returns => exact .inl (by simp [Threads.returns])
  | exchanges why hexplains hbroken => cases hbroken.symm.trans h.broken
  | shutsDown => exact .inl (by simp [Threads.returns])

variable [DecidableEq ι]

/-- No reply is taken back. -/
theorem Safe.grows (h : Safe s) (events : List (ThreadEvent ι)) :
    Yields False (run Threads.step s events) fun res => s.replies.length ≤ res.2.replies.length := by
  have hstep : ∀ u : Threads ι, ∀ event, Safe u ∧ s.replies.length ≤ u.replies.length →
      Yields False (u.step event) fun res => (Safe res.2 ∧ s.replies.length ≤ res.2.replies.length) ∧
      True := by
    rintro u event ⟨hu, hle⟩
    have hgrows : Yields False (u.step event) fun res => u.replies.length ≤ res.2.replies.length := by
      cases event with
      | arrives | peerCloses | peerResets | drains => exact le_refl u.replies.length
      | calls call =>
        simp only [Threads.step]
        split
        · exact not_false
        · split_ifs <;> simp [Yields, Threads.returns]
      | io action =>
        simp only [Threads.step]
        cases hio : u.io with
        | none => exact not_false
        | some io =>
          rw [Option.bind_some]
          cases hact : u.act io io.pc action with
          | none => exact not_false
          | some t =>
            cases act_effect (hu.sound io hio) hact with
            | goesOn | exchanges => exact le_refl u.replies.length
            | returns | shutsDown => simp [Yields, Threads.returns]
      | shutdown i =>
        simp only [Threads.step]
        split_ifs
        · exact not_false
        · exact le_refl u.replies.length
        · exact le_refl u.replies.length
      | shutsDown i outcome =>
        simp only [Threads.step]
        split_ifs
        · exact le_refl u.replies.length
        · exact not_false
    exact ((hu.step event).and hgrows).mono fun res hres => ⟨⟨hres.1, hle.trans hres.2⟩, trivial⟩
  exact (run_keeps _ (fun _ => True) hstep events ⟨h, le_refl _⟩).mono fun res hres => hres.1.2

/-- One event of a connection that is woken up. -/
theorem Woken.step (h : Safe s) (hw : Woken s) (hio : s.io = some io) (event : ThreadEvent ι) :
    Yields False (s.step event) fun res => s.replies.length < res.2.replies.length ∨
      res.2.replies = s.replies ∧ Woken res.2 ∧ ∃ io', res.2.io = some io' ∧
        io'.work + (if event.acts then 1 else 0) ≤ io.work + 2 * if event.interrupts then 1 else 0 := by
  have hsame : ∀ u : Threads ι, u.replies = s.replies → u.broken = true → u.io = s.io →
      (s.socket.shut = true → u.socket.shut = true) → Woken u ∧ ∃ io', u.io = some io' ∧
      io'.work ≤ io.work := by
    intro u _ hbroken huio hshut
    refine ⟨⟨hbroken, fun io' hio' => ?_⟩, io, huio.trans hio, le_refl _⟩
    exact (hw.shut io' (huio.symm.trans hio')).imp_left hshut
  cases event with
  | arrives | peerCloses | peerResets | drains => exact .inr ⟨rfl, hsame _ rfl hw.broken rfl id⟩
  | calls call =>
    simp only [Threads.step, hio]
    exact not_false
  | io action =>
    simp only [Threads.step, hio, Option.bind_some]
    cases hact : s.act io io.pc action with
    | none => exact not_false
    | some t =>
      refine (hw.effect hio (act_effect (h.sound io hio) hact)).imp_right ?_
      rintro ⟨hreplies, hwoken, io', hio', hwork⟩
      refine ⟨hreplies, hwoken, io', hio', ?_⟩
      have hacts : (ThreadEvent.io action : ThreadEvent ι).acts = true := rfl
      have hinterrupts : (ThreadEvent.io action : ThreadEvent ι).interrupts = action.interrupted := rfl
      rw [if_pos hacts, hinterrupts]
      by_cases hinterrupted : action.interrupted = true
      · rw [if_pos hinterrupted] at hwork ⊢
        omega
      · rw [if_neg hinterrupted] at hwork ⊢
        omega
  | shutdown i =>
    simp only [Threads.step]
    by_cases hinside : s.inside i = true
    · rw [if_pos hinside]
      exact not_false
    rw [if_neg hinside, if_pos hw.broken]
    exact .inr ⟨rfl, hsame s rfl hw.broken rfl id⟩
  | shutsDown i outcome =>
    simp only [Threads.step]
    by_cases hinside : s.inside i = true
    · rw [if_pos hinside]
      exact .inr ⟨rfl, hsame _ rfl hw.broken rfl (shut_shutdown outcome)⟩
    · rw [if_neg hinside]
      exact not_false

/-- WOKEN: as long as the call has not returned, there are few actions of its thread. -/
theorem Woken.run (events : List (ThreadEvent ι)) {os : List (Option (Result Unit))} (h : Safe s)
    (hw : Woken s) (hio : s.io = some io) (hrun : Schemes.run Threads.step s events = .ok (os, t))
    (hreplies : t.replies = s.replies) :
    events.countP ThreadEvent.acts ≤ io.work + 2 * events.countP ThreadEvent.interrupts := by
  induction events generalizing s io os with
  | nil => simp
  | cons event rest ih =>
    obtain ⟨o, u, os', hstep, hrest, -⟩ := run_cons_iff.mp hrun
    have hu : Safe u := (h.step event).of_ok hstep
    have hgrows := (hu.grows rest).of_ok hrest
    rcases (hw.step h hio event).of_ok hstep with hlonger | ⟨hsame, hwoken, io', hio', hwork⟩
    · rw [hreplies] at hgrows
      exact absurd hgrows (not_le.mpr hlonger)
    · have hfew := ih hu hwoken hio' hrest (hreplies.trans hsame.symm)
      rw [List.countP_cons, List.countP_cons]
      omega

end Woken

variable [DecidableEq ι]

end Threads

end TidePool.Transport
