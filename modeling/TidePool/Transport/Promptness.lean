import Mathlib.Tactic.Linarith
import TidePool.Transport.TimedSession

/-! No call outlasts its deadline (`src/transport/tcp/tcp_connection.cpp`,
    `src/transport/tcp/wire_framing.cpp`).

    A deadline is made once for a transfer and once for all addresses of a `Connect`, and every turn of a
    loop looks at it again. So a peer that sends a byte now and then, signals that interrupt `poll`, or a
    long list of addresses gain nothing: what is left is one turn that had begun before the expiry.

        called                       expiry
          |--------- time-out ---------|-- 1 ms --|-- delays --|
                                        rounding of `poll`    back

    The delays are those of the thread. It is prompt if it never needs more than `δ` nanoseconds from one
    event to the next look at the clock, and if `poll` is back within `δ` of what it was told. -/

namespace TidePool.Transport

open Schemes Schemes.Chrono Wire

theorem Deadline.le_of_not_expired {d : Deadline} {now : ClockTime} (h : ¬ d.expired now = true) :
    now.reading ≤ d.expiresAt.reading := by
  have hopen := mt expired_iff.mpr h
  unfold remaining at hopen
  omega

/-- `poll` is told to wait less than a millisecond beyond the expiry. -/
theorem Deadline.Waits.wait_lt {d : Deadline} {now : ClockTime} {ms : Int32} (h : d.Waits now ms) :
    ms.toInt = 0 ∨ now.reading + ms.toInt * 1000000 < d.expiresAt.reading + 1000000 := by
  obtain ⟨least, ⟨-, hleast⟩, hms⟩ := h.least
  by_cases hzero : least = 0
  · left
    have := h.nonneg
    omega
  · right
    -- one millisecond less would not do
    have hshort : ¬ d.remaining now ≤ ((least - 1 : ℕ) : ℤ) * 1000000 := by
      intro hcovers
      have := hleast hcovers
      omega
    unfold remaining at hshort
    omega

/-! ### Waiting -/

namespace PollCall

/-- When `PollReady` is through with its turns. -/
def doneAt : List PollTurn → ClockTime → ClockTime
  | [], since => since
  | turn :: rest, _ =>
    match turn.polled with
    | .interrupted => doneAt rest turn.back
    | _ => turn.back

/-- How many signals interrupt `poll`. -/
def signals : List PollTurn → ℕ
  | [] => 0
  | turn :: rest =>
    match turn.polled with
    | .interrupted => signals rest + 1
    | _ => signals rest

/-- The clock is read within `δ` of the last event, and `poll` is back within `δ` of what it was told. -/
def Prompt (δ : ℤ) (d : Deadline) : List PollTurn → ClockTime → Prop
  | [], _ => True
  | turn :: rest, since =>
    turn.now.reading ≤ since.reading + δ ∧
      (∀ ms, d.pollTimeoutMilliseconds turn.now = some ms →
        turn.back.reading ≤ turn.now.reading + ms.toInt * 1000000 + δ) ∧
      (turn.polled = .interrupted → Prompt δ d rest turn.back)

section Waiting

variable {call : PollCall} {d : Deadline} {δ : ℤ} {start since t : ClockTime} {turns : List PollTurn}
    {v : Readiness}

/-- One call of `poll`, from a time that may be after the expiry. -/
theorem back_le {turn : PollTurn} {limit : ℤ} {ms : Int32} (hwaits : d.Waits turn.now ms)
    (hnow : turn.now.reading ≤ limit + δ)
    (hback : turn.back.reading ≤ turn.now.reading + ms.toInt * 1000000 + δ) (hδ : 0 ≤ δ)
    (hlimit : d.expiresAt.reading + 1000000 + δ ≤ limit) : turn.back.reading ≤ limit + 2 * δ := by
  rcases hwaits.wait_lt with hzero | hlt
  · rw [hzero] at hback
    omega
  · omega

/-- From `limit` on, each signal costs two delays, and so does the last turn. -/
theorem pollReady_on_time (hδ : 0 ≤ δ) (hstart : 0 ≤ start.reading) {limit : ℤ} (hafter : After start turns)
    (hprompt : Prompt δ d turns since) (hlimit : d.expiresAt.reading + 1000000 + δ ≤ limit)
    (hsince : since.reading ≤ limit) (h : pollReady call d turns since = some (v, t)) :
    t.reading ≤ limit + 2 * (signals turns + 1) * δ := by
  induction turns generalizing since limit with
  | nil =>
    cases h
    simp only [signals, Nat.cast_zero]
    linarith
  | cons turn rest ih =>
    obtain ⟨hnow, hback, hrest⟩ := hprompt
    obtain ⟨hturn, hlater⟩ := List.forall_mem_cons.mp hafter
    obtain ⟨ms, hms, hwaits⟩ :=
      d.pollTimeoutMilliseconds_waits (Int.le_trans hstart (TimePoint.le_iff.mp hturn))
    have hbound := back_le hwaits (Int.le_trans hnow (Int.add_le_add_right hsince δ)) (hback ms hms) hδ hlimit
    have hsignals : 0 ≤ (signals (turn :: rest) : ℤ) * δ := Int.mul_nonneg (Int.natCast_nonneg _) hδ
    rw [pollReady, hms] at h
    by_cases hbefore : (call.watchesBroken && turn.brokenBefore) = true
    · rw [if_pos hbefore] at h
      cases h
      linarith
    · rw [if_neg hbefore] at h
      cases hpolled : turn.polled with
      | interrupted =>
        rw [hpolled] at h
        have hnext := ih hlater (hrest hpolled) (Int.le_trans hlimit (by omega)) hbound h
        simp only [signals, hpolled, Nat.cast_add, Nat.cast_one]
        linarith
      | timeout | failed =>
        rw [hpolled] at h
        cases h
        linarith
      | events revents =>
        simp only [hpolled] at h
        split_ifs at h
        · cases h
          linarith
        · cases h
          linarith

/-- Unless a shutdown is seen, `PollReady` returns when its turns are over. -/
theorem pollReady_doneAt (h : pollReady call d turns since = some (v, t)) (hv : v ≠ .shutDown) :
    t = doneAt turns since := by
  induction turns generalizing since with
  | nil =>
    cases h
    rfl
  | cons turn rest ih =>
    rw [pollReady] at h
    by_cases hbefore : (call.watchesBroken && turn.brokenBefore) = true
    · rw [if_pos hbefore] at h
      cases h
      exact absurd rfl hv
    · rw [if_neg hbefore] at h
      cases hms : d.pollTimeoutMilliseconds turn.now with
      | none =>
        rw [hms] at h
        cases h
      | some ms =>
        rw [hms] at h
        cases hpolled : turn.polled with
        | interrupted =>
          rw [hpolled] at h
          simp only [doneAt, hpolled]
          exact ih h
        | timeout | failed =>
          rw [hpolled] at h
          cases h
          simp only [doneAt, hpolled]
        | events revents =>
          simp only [hpolled] at h
          split_ifs at h
          · cases h
            exact absurd rfl hv
          · cases h
            simp only [doneAt, hpolled]

end Waiting

end PollCall

/-- Where a loop is when its turn ends, if the turn had begun before the expiry. -/
def Deadline.grace (d : Deadline) (δ : ℤ) (signals : ℕ) : ℤ :=
  d.expiresAt.reading + 1000000 + (2 * signals + 3) * δ

theorem Deadline.le_grace (d : Deadline) {δ : ℤ} (hδ : 0 ≤ δ) {x : ℤ} (h : x ≤ d.expiresAt.reading + δ)
    (n : ℕ) : x ≤ d.grace δ n := by
  have : 0 ≤ (n : ℤ) * δ := Int.mul_nonneg (Int.natCast_nonneg _) hδ
  unfold grace
  linarith

theorem Deadline.grace_mono (d : Deadline) {δ : ℤ} (hδ : 0 ≤ δ) {m n : ℕ} (h : m ≤ n) :
    d.grace δ m ≤ d.grace δ n := by
  have : (m : ℤ) * δ ≤ n * δ := Int.mul_le_mul_of_nonneg_right (Int.ofNat_le.mpr h) hδ
  unfold grace
  linarith

/-- What bounds the grace of all turns bounds that of the first and that of the rest. -/
theorem Deadline.grace_add {d : Deadline} {δ limit : ℤ} (hδ : 0 ≤ δ) {m n : ℕ}
    (h : d.grace δ (m + n) ≤ limit) : d.grace δ m ≤ limit ∧ d.grace δ n ≤ limit :=
  ⟨Int.le_trans (d.grace_mono hδ (Nat.le_add_right _ _)) h,
    Int.le_trans (d.grace_mono hδ (Nat.le_add_left _ _)) h⟩

/-- `PollReady` in a turn that had begun before the expiry, or at most a delay later. -/
theorem PollCall.pollReady_grace {call : PollCall} {d : Deadline} {δ : ℤ} {start since t : ClockTime}
    {turns : List PollTurn} {v : Readiness} (hδ : 0 ≤ δ) (hstart : 0 ≤ start.reading)
    (hafter : After start turns)
    (hprompt : Prompt δ d turns since) (hsince : since.reading ≤ d.expiresAt.reading + δ)
    (h : pollReady call d turns since = some (v, t)) : t.reading ≤ d.grace δ (signals turns) := by
  have hlate := pollReady_on_time hδ hstart hafter hprompt (Int.le_refl _) (by omega) h
  unfold Deadline.grace
  linarith

/-! ### Transfers -/

/-- When a turn that does not end the transfer is over. -/
def TransferTurn.doneAt (turn : TransferTurn) : ClockTime := PollCall.doneAt turn.transfer.polls turn.now

namespace TcpConnection

/-- The signals that interrupt `poll` in all turns. -/
def signals : List TransferTurn → ℕ
  | [] => 0
  | turn :: rest => PollCall.signals turn.transfer.polls + signals rest

def Prompt (δ : ℤ) (d : Deadline) : List TransferTurn → ClockTime → Prop
  | [], _ => True
  | turn :: rest, since =>
    turn.now.reading ≤ since.reading + δ ∧ PollCall.Prompt δ d turn.transfer.polls turn.now ∧
      Prompt δ d rest turn.doneAt

section Turns

variable {call : PollCall} {d : Deadline} {δ : ℤ} {start since t : ClockTime} {turn : TransferTurn}
  {firstAttempt : Bool} {r : Result Attempt}

/-- A turn finds the deadline expired, or it had begun before: then it ends in time. -/
theorem attempt_on_time (hδ : 0 ≤ δ) (hstart : 0 ≤ start.reading) (hturn : Regular start turn)
    (hprompt : PollCall.Prompt δ d turn.transfer.polls turn.now)
    (hfirst : firstAttempt = true → turn.now.reading ≤ d.expiresAt.reading + δ)
    (h : turn.attempt call d firstAttempt = some (r, t)) :
    (r = .ok .timedOut ∧ t = turn.now) ∨
      t.reading ≤ d.grace δ (PollCall.signals turn.transfer.polls) ∧ ∀ a, r = .ok a → t = turn.doneAt := by
  by_cases hlate : (!firstAttempt && d.expired turn.now) = true
  · rw [TransferTurn.attempt, if_pos hlate] at h
    cases h
    exact .inl ⟨rfl, rfl⟩
  right
  have hnow : turn.now.reading ≤ d.expiresAt.reading + δ := by
    cases firstAttempt with
    | true => exact hfirst rfl
    | false =>
      have hopen : ¬ d.expired turn.now = true := hlate
      have := Deadline.le_of_not_expired hopen
      omega
  rw [TransferTurn.attempt, if_neg hlate] at h
  cases htransfer : turn.transfer with
  | moved | nothing | interrupted | failed =>
    rw [htransfer] at h
    cases h
    exact ⟨d.le_grace hδ hnow _, fun _ _ => by rw [TransferTurn.doneAt, htransfer]; rfl⟩
  | wouldBlock polls =>
    obtain ⟨-, hafter, -⟩ := hturn
    rw [htransfer] at hafter hprompt
    simp only [htransfer] at h
    cases hpoll : call.pollReady d polls turn.now with
    | none =>
      rw [hpoll] at h
      cases h
    | some ended =>
      obtain ⟨v, t'⟩ := ended
      rw [hpoll] at h
      cases h
      refine ⟨PollCall.pollReady_grace hδ hstart hafter hprompt hnow hpoll, ?_⟩
      intro a hok
      rw [TransferTurn.doneAt, htransfer]
      refine PollCall.pollReady_doneAt hpoll ?_
      rintro rfl
      cases hok

end Turns

end TcpConnection

/-- LOOP: every turn of a transfer begins before the expiry or is the last, and ends a delay later. -/
theorem Mover.timedLoop_on_time {σ : Type} {m : Mover σ} {d : Deadline} {δ : ℤ} {target : ℕ}
    {start : ClockTime} (hδ : 0 ≤ δ) (hstart : 0 ≤ start.reading) {firstAttempt : Bool}
    {turns : List TransferTurn} {since t : ClockTime}
    {s s' : σ} {r : Result Unit} {limit : ℤ} (hturns : ∀ turn ∈ turns, TcpConnection.Regular start turn)
    (hprompt : TcpConnection.Prompt δ d turns since)
    (hlimit : d.grace δ (TcpConnection.signals turns) ≤ limit)
    (hsince : since.reading ≤ limit) (hfirst : firstAttempt = true → since.reading ≤ d.expiresAt.reading)
    (h : m.timedLoop d target firstAttempt turns since s = some (r, s', t)) : t.reading ≤ limit + δ := by
  induction turns generalizing firstAttempt since s with
  | nil =>
    cases h
    omega
  | cons turn rest ih =>
    obtain ⟨hnow, hpolls, hrest⟩ := hprompt
    obtain ⟨hturn, hturns⟩ := List.forall_mem_cons.mp hturns
    obtain ⟨hthis, hthose⟩ := Deadline.grace_add hδ hlimit
    rw [timedLoop] at h
    by_cases hleft : target ≤ m.completed s
    · rw [if_pos hleft] at h
      cases h
      omega
    rw [if_neg hleft] at h
    cases hattempt : turn.attempt (m.pollCall target s) d firstAttempt with
    | none =>
      rw [hattempt] at h
      cases h
    | some ended =>
      obtain ⟨a, t'⟩ := ended
      rw [hattempt] at h
      rcases TcpConnection.attempt_on_time hδ hstart hturn hpolls
        (fun hf => by have := hfirst hf; omega) hattempt with
        ⟨rfl, rfl⟩ | ⟨htime, hover⟩
      · cases h
        omega
      · -- a turn that goes on hands its time to the next
        have hgoes : ∀ {s₁ : σ}, t' = turn.doneAt →
            m.timedLoop d target false rest t' s₁ = some (r, s', t) → t.reading ≤ limit + δ := by
          intro s₁ ht hloop
          rw [← ht] at hrest
          exact ih hturns hrest hthose (Int.le_trans htime hthis) (fun hf => by cases hf) hloop
        cases a with
        | error e =>
          cases h
          omega
        | ok a =>
          cases a with
          | moved more =>
            cases hadvance : m.advance target more s with
            | none =>
              simp only [hadvance] at h
              cases h
              omega
            | some s₁ =>
              simp only [hadvance] at h
              exact hgoes (hover _ rfl) h
          | again => exact hgoes (hover _ rfl) h
          | nothing | timedOut | failed | pollFailed =>
            cases h
            omega

/-- What is added to the time-out: a millisecond of rounding, and the delays of the thread. -/
def slack (δ : ℤ) (signals : ℕ) : ℤ := 1000000 + (2 * signals + 4) * δ

theorem slack_nonneg {δ : ℤ} (hδ : 0 ≤ δ) (signals : ℕ) : 0 ≤ slack δ signals := by
  have : 0 ≤ (signals : ℤ) * δ := Int.mul_nonneg (Int.natCast_nonneg _) hδ
  unfold slack
  linarith

/-- A return a delay after the grace is within the time-out and the slack: a deadline that is later than
    asked for is the last reading of the clock. -/
theorem Deadline.Saturates.back_le {d : Deadline} {now t : ClockTime} {timeout : Milliseconds} {δ : ℤ}
    {signals : ℕ} (h : d.Saturates now timeout) (hδ : 0 ≤ δ) (ht : t.reading ≤ d.grace δ signals + δ) :
    t.reading ≤ now.reading + timeout.count.toInt * 1000000 + slack δ signals := by
  have hsignals : 0 ≤ (signals : ℤ) * δ := Int.mul_nonneg (Int.natCast_nonneg _) hδ
  have hideal : ideal now timeout ≤ now.reading + timeout.count.toInt * 1000000 := Int.min_le_left _ _
  have hwithin := h.withinMillisecond
  unfold grace at ht
  unfold slack
  by_cases hexact : d.expiresAt.reading = ideal now timeout
  · linarith
  · have hlast : t.reading ≤ d.expiresAt.reading := by
      rw [h.lateAtMax hexact, TimePoint.reading_max]
      have := t.fits_reading.2
      omega
    linarith

/-- The deadline is not before the call. -/
theorem Deadline.Saturates.now_le {d : Deadline} {now : ClockTime} {timeout : Milliseconds}
    (h : d.Saturates now timeout) (htimeout : 0 ≤ timeout.count.toInt) :
    now.reading ≤ d.expiresAt.reading := by
  have hnotEarly := h.notEarly
  have hmax := TimePoint.reading_max (p := 1)
  have hfits := now.fits_reading.2
  unfold ideal at hnotEarly
  omega

theorem Deadline.Saturates.now_le_grace {d : Deadline} {now : ClockTime} {timeout : Milliseconds} {δ : ℤ}
    {signals : ℕ} (h : d.Saturates now timeout) (hδ : 0 ≤ δ) (htimeout : 0 ≤ timeout.count.toInt) :
    now.reading ≤ d.grace δ signals := by
  have hnow := h.now_le htimeout
  exact d.le_grace hδ (by omega) signals

namespace Span

def signals (span : Span) : ℕ := TcpConnection.signals span.turns

/-- Prompt from the call on. -/
def Prompt (δ : ℤ) (timeout : Milliseconds) (span : Span) : Prop :=
  ∀ d, Deadline.make span.now timeout = some d → TcpConnection.Prompt δ d span.turns span.now

/-- How long a transfer may take. -/
def allowance (δ : ℤ) (timeout : Milliseconds) (span : Span) : ℤ :=
  timeout.count.toInt * 1000000 + slack δ span.signals

theorem allowance_nonneg {δ : ℤ} {timeout : Milliseconds} (hδ : 0 ≤ δ) (htimeout : 0 ≤ timeout.count.toInt)
    (span : Span) : 0 ≤ span.allowance δ timeout := by
  have := slack_nonneg hδ span.signals
  unfold allowance
  omega

end Span

namespace TcpConnection

section Transfers

variable {conn conn' : TcpConnection} {timeout : Milliseconds} {span : Span} {δ : ℤ} {t : ClockTime}

/-- The loop of a transfer with the deadline it is given. -/
theorem timedLoop_allowance {σ : Type} {m : Mover σ} {d : Deadline} {target : ℕ} {s s' : σ} {r : Result Unit}
    (hδ : 0 ≤ δ) (htimeout : 0 ≤ timeout.count.toInt) (hspan : span.Regular) (hprompt : span.Prompt δ timeout)
    (hmake : Deadline.make span.now timeout = some d)
    (h : m.timedLoop d target true span.turns span.now s = some (r, s', t)) :
    t.reading ≤ span.now.reading + span.allowance δ timeout := by
  obtain ⟨d', hmake', hsaturates⟩ := Deadline.make_saturates hspan.now htimeout
  obtain rfl : d' = d := Option.some.inj (hmake'.symm.trans hmake)
  have hback := Mover.timedLoop_on_time hδ hspan.now hspan.turns (hprompt d' hmake) (Int.le_refl _)
    (hsaturates.now_le_grace hδ htimeout) (fun _ => hsaturates.now_le htimeout) h
  have hslack : t.reading ≤ span.now.reading + timeout.count.toInt * 1000000 + slack δ span.signals :=
    hsaturates.back_le hδ hback
  unfold Span.allowance
  omega

theorem timedReadExact_on_time {bytes : ℕ} {r : Result Bytes} (hδ : 0 ≤ δ)
    (htimeout : 0 ≤ timeout.count.toInt) (hspan : span.Regular) (hprompt : span.Prompt δ timeout)
    (h : conn.timedReadExact bytes timeout span.now span.turns = some (r, conn', t)) :
    t.reading ≤ span.now.reading + span.allowance δ timeout := by
  have hidle := span.allowance_nonneg hδ htimeout
  unfold timedReadExact at h
  split_ifs at h
  · cases h
    omega
  · cases h
    omega
  · cases h
    omega
  · obtain ⟨d, hmake, -⟩ := Deadline.make_saturates hspan.now htimeout
    rw [hmake, Option.bind_some] at h
    cases hloop : reading.timedLoop d bytes true span.turns span.now (conn.peer.incoming, []) with
    | none =>
      rw [hloop] at h
      cases h
    | some ended =>
      obtain ⟨r', ⟨incoming, got⟩, t'⟩ := ended
      rw [hloop] at h
      cases r' <;> cases h <;> exact timedLoop_allowance hδ htimeout hspan hprompt hmake hloop

theorem timedWriteExact_on_time {input : Bytes} {r : Result Unit} (hδ : 0 ≤ δ)
    (htimeout : 0 ≤ timeout.count.toInt) (hspan : span.Regular) (hprompt : span.Prompt δ timeout)
    (h : conn.timedWriteExact input timeout span.now span.turns = some (r, conn', t)) :
    t.reading ≤ span.now.reading + span.allowance δ timeout := by
  have hidle := span.allowance_nonneg hδ htimeout
  unfold timedWriteExact at h
  split_ifs at h
  · cases h
    omega
  · cases h
    omega
  · cases h
    omega
  · obtain ⟨d, hmake, -⟩ := Deadline.make_saturates hspan.now htimeout
    rw [hmake, Option.bind_some] at h
    cases hloop : writing.timedLoop d input.length true span.turns span.now 0 with
    | none =>
      rw [hloop] at h
      cases h
    | some ended =>
      obtain ⟨r', completed, t'⟩ := ended
      rw [hloop] at h
      cases r' <;> cases h <;> exact timedLoop_allowance hδ htimeout hspan hprompt hmake hloop

end Transfers

/-! ### Frames and sessions -/

section Frames

variable {conn conn' : TcpConnection} {timeout : Milliseconds} {first second : Span} {δ : ℤ} {t : ClockTime}

/-- How long a frame may take: its header and its payload have a deadline each. -/
def frameAllowance (δ : ℤ) (timeout : Milliseconds) (first second : Span) : ℤ :=
  first.allowance δ timeout + δ + second.allowance δ timeout

/-- READ: the header in time, and then the payload. -/
theorem timedReadWireFrame_on_time {limits : CodecLimits} {alloc : Bool} {r : Result WireFrame} (hδ : 0 ≤ δ)
    (htimeout : 0 ≤ timeout.count.toInt) (hfirst : first.Regular) (hsecond : second.Regular)
    (hprompt₁ : first.Prompt δ timeout) (hprompt₂ : second.Prompt δ timeout)
    (hbetween : ∀ got conn₁ t₁, conn.timedReadExact headerBytes timeout first.now first.turns =
      some (.ok got, conn₁, t₁) → second.now.reading ≤ t₁.reading + δ)
    (h : conn.timedReadWireFrame limits alloc timeout first second = some (r, conn', t)) :
    t.reading ≤ first.now.reading + frameAllowance δ timeout first second := by
  have hidle := second.allowance_nonneg hδ htimeout
  unfold frameAllowance
  cases hread : conn.timedReadExact headerBytes timeout first.now first.turns with
  | none =>
    simp only [timedReadWireFrame, hread] at h
    cases h
  | some ended =>
    obtain ⟨r₁, conn₁, t₁⟩ := ended
    have ht₁ := timedReadExact_on_time hδ htimeout hfirst hprompt₁ hread
    simp only [timedReadWireFrame, hread] at h
    cases r₁ with
    | error s =>
      cases h
      omega
    | ok encodedHeader =>
      have hlater := hbetween encodedHeader conn₁ t₁ hread
      cases hdecode : decodeHeader encodedHeader limits with
      | error s =>
        simp only [hdecode] at h
        cases h
        omega
      | ok header =>
        cases hsize : validateFrameSize header.payloadBytes.toNat limits with
        | error s =>
          simp only [hdecode, hsize] at h
          cases h
          omega
        | ok frameSize =>
          simp only [hdecode, hsize] at h
          split_ifs at h
          · cases h
            omega
          · cases h
            omega
          · cases hpayload : conn₁.timedReadExact (frameSize - headerBytes) timeout second.now
              second.turns with
            | none =>
              simp only [hpayload] at h
              cases h
            | some ended =>
              obtain ⟨r₂, conn₂, t₂⟩ := ended
              have ht₂ := timedReadExact_on_time hδ htimeout hsecond hprompt₂ hpayload
              simp only [hpayload] at h
              cases r₂ <;> cases h <;> omega

/-- WRITE: the same, after the checks that take no time. -/
theorem timedWriteWireFrame_on_time {frame : WireFrame} {limits : CodecLimits} {r : Result Unit} (hδ : 0 ≤ δ)
    (htimeout : 0 ≤ timeout.count.toInt) (hfirst : first.Regular) (hsecond : second.Regular)
    (hprompt₁ : first.Prompt δ timeout) (hprompt₂ : second.Prompt δ timeout)
    (hbetween : ∀ encoded conn₁ t₁, encodeHeader frame.header limits = .ok encoded →
      conn.timedWriteExact encoded timeout first.now first.turns = some (.ok (), conn₁, t₁) →
        second.now.reading ≤ t₁.reading + δ)
    (h : conn.timedWriteWireFrame frame limits timeout first second = some (r, conn', t)) :
    t.reading ≤ first.now.reading + frameAllowance δ timeout first second := by
  have hidle₁ := first.allowance_nonneg hδ htimeout
  have hidle₂ := second.allowance_nonneg hδ htimeout
  unfold frameAllowance
  unfold timedWriteWireFrame at h
  by_cases hsize : frame.header.payloadBytes.toNat ≠ frame.payload.length
  · rw [if_pos hsize] at h
    cases h
    omega
  rw [if_neg hsize] at h
  cases hencode : encodeHeader frame.header limits with
  | error s =>
    rw [hencode] at h
    cases h
    omega
  | ok encoded =>
    rw [hencode] at h
    cases hwrite : conn.timedWriteExact encoded timeout first.now first.turns with
    | none =>
      simp only [hwrite] at h
      cases h
    | some ended =>
      obtain ⟨r₁, conn₁, t₁⟩ := ended
      have ht₁ := timedWriteExact_on_time hδ htimeout hfirst hprompt₁ hwrite
      simp only [hwrite] at h
      cases r₁ with
      | error s =>
        cases h
        omega
      | ok =>
        have hlater := hbetween encoded conn₁ t₁ hencode hwrite
        by_cases hempty : frame.payload.isEmpty = true
        · simp only [hempty, if_true] at h
          cases h
          omega
        · simp only [hempty] at h
          have ht₂ := timedWriteExact_on_time hδ htimeout hsecond hprompt₂ h
          omega

end Frames

namespace TimedCall

/-- When a call is made. -/
def made : TimedCall → ClockTime
  | .read _ _ first _ => first.now
  | .write _ _ first _ => first.now
  | .shutdown now => now

/-- How long a call may take. -/
def allowance (options : TcpConnectionOptions) (δ : ℤ) : TimedCall → ℤ
  | .read _ _ first second => frameAllowance δ (milliseconds options.readTimeout) first second
  | .write _ _ first second => frameAllowance δ (milliseconds options.writeTimeout) first second
  | .shutdown _ => 0

/-- Prompt in both transfers, and from the end of the first to the call of the second. -/
def Prompt (options : TcpConnectionOptions) (δ : ℤ) (conn : TcpConnection) : TimedCall → Prop
  | .read _ _ first second =>
    first.Prompt δ (milliseconds options.readTimeout) ∧ second.Prompt δ (milliseconds options.readTimeout) ∧
      ∀ got conn' t, conn.timedReadExact headerBytes
      (milliseconds options.readTimeout) first.now first.turns =
        some (.ok got, conn', t) → second.now.reading ≤ t.reading + δ
  | .write frame limits first second =>
    first.Prompt δ (milliseconds options.writeTimeout) ∧ second.Prompt δ (milliseconds options.writeTimeout) ∧
      ∀ encoded conn' t, encodeHeader frame.header limits = .ok encoded →
        conn.timedWriteExact encoded (milliseconds options.writeTimeout) first.now first.turns =
          some (.ok (), conn', t) → second.now.reading ≤ t.reading + δ
  | .shutdown _ => True

end TimedCall

section Sessions

variable {options : TcpConnectionOptions} {δ : ℤ} {conn conn' : TcpConnection}

/-- Prompt along a run: each call is made within `δ` of the reply before. -/
def PromptRun (options : TcpConnectionOptions) (δ : ℤ) : TcpConnection → ClockTime → List TimedCall → Prop
  | _, _, [] => True
  | conn, since, call :: rest =>
    call.made.reading ≤ since.reading + δ ∧ call.Prompt options δ conn ∧
      ∀ reply conn', timedStep options conn call = .ok (reply, conn') →
      PromptRun options δ conn' reply.back rest

/-- How long a session may take. -/
def due (options : TcpConnectionOptions) (δ : ℤ) : List TimedCall → ℤ
  | [] => 0
  | call :: rest => δ + call.allowance options δ + due options δ rest

theorem frameAllowance_nonneg {timeout : Milliseconds} (hδ : 0 ≤ δ) (htimeout : 0 ≤ timeout.count.toInt)
    (first second : Span) : 0 ≤ frameAllowance δ timeout first second := by
  have hfirst := first.allowance_nonneg hδ htimeout
  have hsecond := second.allowance_nonneg hδ htimeout
  unfold frameAllowance
  omega

theorem TimedCall.allowance_nonneg (hoptions : ValidTimeouts options) (hδ : 0 ≤ δ) (call : TimedCall) :
    0 ≤ call.allowance options δ := by
  cases call with
  | read limits alloc first second =>
    exact frameAllowance_nonneg hδ (toInt_milliseconds hoptions.read) first second
  | write frame limits first second =>
    exact frameAllowance_nonneg hδ (toInt_milliseconds hoptions.write) first second
  | shutdown now => exact Int.le_refl 0

theorem due_nonneg (hoptions : ValidTimeouts options) (hδ : 0 ≤ δ) (calls : List TimedCall) :
    0 ≤ due options δ calls := by
  induction calls with
  | nil => exact Int.le_refl 0
  | cons call rest ih =>
    have := call.allowance_nonneg hoptions hδ
    rw [due]
    omega

/-- STEP: a call is back within its allowance. -/
theorem timedStep_on_time (hoptions : ValidTimeouts options) (hδ : 0 ≤ δ) {call : TimedCall}
    {reply : TimedReply} (hcall : call.Regular) (hprompt : call.Prompt options δ conn)
    (h : timedStep options conn call = .ok (reply, conn')) :
    reply.back.reading ≤ call.made.reading + call.allowance options δ := by
  cases call with
  | read limits alloc first second =>
    obtain ⟨hfirst, hsecond, -⟩ := hcall
    obtain ⟨hprompt₁, hprompt₂, hbetween⟩ := hprompt
    cases hread : conn.timedReadWireFrame limits alloc (milliseconds options.readTimeout) first second with
    | none =>
      simp only [timedStep, hread] at h
      cases h
    | some ended =>
      simp only [timedStep, hread] at h
      cases h
      exact timedReadWireFrame_on_time hδ (toInt_milliseconds hoptions.read) hfirst hsecond hprompt₁
        hprompt₂ hbetween
        hread
  | write frame limits first second =>
    obtain ⟨hfirst, hsecond, -⟩ := hcall
    obtain ⟨hprompt₁, hprompt₂, hbetween⟩ := hprompt
    cases hwrite : conn.timedWriteWireFrame frame limits (milliseconds options.writeTimeout) first second with
    | none =>
      simp only [timedStep, hwrite] at h
      cases h
    | some ended =>
      simp only [timedStep, hwrite] at h
      cases h
      exact timedWriteWireFrame_on_time hδ (toInt_milliseconds hoptions.write) hfirst hsecond hprompt₁
        hprompt₂
        hbetween hwrite
  | shutdown now =>
    cases h
    exact Int.le_of_eq (Int.add_zero _).symm

/-- SESSION ON TIME: any sequence of frame calls by a prompt thread returns. Each call is back within its
    allowance: a time-out, a millisecond and a few delays for the header, and the same for the payload,
    whatever the peer sends and when. All replies are there when the allowances of all calls have
    passed. -/
theorem session_on_time (hoptions : ValidTimeouts options) (hδ : 0 ≤ δ) (conn : TcpConnection)
    (since : ClockTime) (calls : List TimedCall) (hcalls : ∀ call ∈ calls, call.Regular)
    (hprompt : PromptRun options δ conn since calls) :
    ∃ replies conn', run (timedStep options) conn calls = .ok (replies, conn') ∧
      (∀ reply ∈ calls.zip replies,
        reply.2.back.reading ≤ reply.1.made.reading + reply.1.allowance options δ) ∧
      ∀ reply ∈ replies, reply.back.reading ≤ since.reading + due options δ calls := by
  induction calls generalizing conn since with
  | nil => exact ⟨[], conn, rfl, (fun _ h => by cases h), fun _ h => by cases h⟩
  | cons call rest ih =>
    obtain ⟨hcall, hrest⟩ := List.forall_mem_cons.mp hcalls
    obtain ⟨hmade, hthis, hthen⟩ := hprompt
    obtain ⟨reply, conn₁, hstep, -⟩ := timedStep_mirrors hoptions conn hcall
    have hback := timedStep_on_time hoptions hδ hcall hthis hstep
    obtain ⟨replies, conn₂, hrun, heach, hall⟩ := ih conn₁ reply.back hrest (hthen reply conn₁ hstep)
    have hdue := due_nonneg hoptions hδ rest
    refine ⟨reply :: replies, conn₂, run_cons_iff.mpr ⟨reply, conn₁, replies, hstep, hrun, rfl⟩, ?_, ?_⟩
    · rw [List.zip_cons_cons]
      exact List.forall_mem_cons.mpr ⟨hback, heach⟩
    · rw [due]
      refine List.forall_mem_cons.mpr ⟨by omega, fun later hlater => ?_⟩
      have := hall later hlater
      omega

/-- The thread needs a millisecond to look again. -/
theorem session_on_time_halfHeader :
    ∃ replies conn', run (timedStep {}) slowReceiver halfHeader = .ok (replies, conn') ∧
      ∀ reply ∈ replies, reply.back.reading ≤ (⟨⟨0⟩⟩ : ClockTime).reading + due {} 1000000 halfHeader := by
  have hoptions : ValidTimeouts {} := ⟨by decide, by decide⟩
  have hmake : Deadline.make ⟨⟨0⟩⟩ (milliseconds ({} : TcpConnectionOptions).readTimeout) =
      some ⟨⟨⟨30000000000⟩⟩⟩ := by decide
  have hprompt : PromptRun {} 1000000 slowReceiver ⟨⟨0⟩⟩ halfHeader := by
    refine ⟨by decide, ⟨?_, fun _ _ => trivial, ?_⟩, ?_⟩
    · intro d hd
      obtain rfl := Option.some.inj (hmake.symm.trans hd)
      refine ⟨by decide, trivial, by decide, ⟨by decide, ?_, fun h => by cases h⟩, trivial⟩
      intro ms hms
      obtain rfl : 29999 = ms := Option.some.inj hms
      decide
    · intro got conn' t hread
      cases hread
    · intro reply conn' hstep
      cases hstep
      exact ⟨by decide, trivial, fun _ _ _ => trivial⟩
  obtain ⟨replies, conn', hrun, -, hall⟩ :=
    session_on_time hoptions (by decide) slowReceiver ⟨⟨0⟩⟩ halfHeader halfHeader_regular hprompt
  exact ⟨replies, conn', hrun, hall⟩

end Sessions

end TcpConnection

/-! ### Connecting -/

namespace Candidate

/-- When a candidate that does not end the loop is over. -/
def doneAt (c : Candidate) : ClockTime := PollCall.doneAt c.connecting.polls c.now

/-- The signals that interrupt `poll` for all candidates. -/
def signals : List Candidate → ℕ
  | [] => 0
  | c :: rest => PollCall.signals c.connecting.polls + signals rest

def Prompt (δ : ℤ) (d : Deadline) (last : ClockTime) : List Candidate → ClockTime → Prop
  | [], since => last.reading ≤ since.reading + δ
  | c :: rest, since =>
    c.now.reading ≤ since.reading + δ ∧ PollCall.Prompt δ d c.connecting.polls c.now ∧
    Prompt δ d last rest c.doneAt

/-- A candidate finds the deadline expired, or it had been begun before: then it is over in time. -/
theorem dial_on_time {d : Deadline} {δ : ℤ} {start t : ClockTime} {c : Candidate} {lastError : String}
    {o : Dialled} (hδ : 0 ≤ δ) (hstart : 0 ≤ start.reading) (hc : c.Regular start)
    (hprompt : PollCall.Prompt δ d c.connecting.polls c.now) (h : c.dial d lastError = some (o, t)) :
    (o = .timedOut lastError ∧ t = c.now) ∨
      t.reading ≤ d.grace δ (PollCall.signals c.connecting.polls) ∧ t = c.doneAt := by
  by_cases hexpired : d.expired c.now = true
  · rw [dial, if_pos hexpired] at h
    cases h
    exact .inl ⟨rfl, rfl⟩
  right
  have hnow : c.now.reading ≤ d.expiresAt.reading + δ := by
    have := Deadline.le_of_not_expired hexpired
    omega
  rw [dial, if_neg hexpired] at h
  cases hconnecting : c.connecting with
  | socketFailed | configureFailed | connected | connectFailed =>
    rw [hconnecting] at h
    cases h
    exact ⟨d.le_grace hδ hnow _, by rw [doneAt, hconnecting]; rfl⟩
  | inProgress polls socketError =>
    obtain ⟨-, hafter⟩ := hc
    rw [hconnecting] at hafter hprompt
    simp only [hconnecting] at h
    obtain ⟨v, t', hpoll, hexplains⟩ := connectCall.pollReady_explains d hstart polls c.now hafter
    have hv : v ≠ .shutDown := by
      intro hshutDown
      obtain ⟨hwatches, -⟩ := hexplains.shutDown hshutDown
      cases hwatches
    have ht : t = t' := by
      rw [hpoll] at h
      simp only at h
      cases hstatus : connectCall.status v with
      | error s =>
        rw [hstatus] at h
        cases h
        rfl
      | ok =>
        rw [hstatus] at h
        cases socketError <;> cases h <;> rfl
    rw [ht, doneAt, hconnecting]
    exact ⟨PollCall.pollReady_grace hδ hstart hafter hprompt hnow hpoll, PollCall.pollReady_doneAt hpoll hv⟩

end Candidate

/-- LOOP: every candidate is begun before the expiry or is the last, whatever their number. -/
theorem dialLoop_on_time {d : Deadline} {δ : ℤ} {start last since t : ClockTime} {endpoint : String}
    {peer : Peer}
    {candidates : List Candidate} {lastError : String} {dial : Dial} {limit : ℤ} (hδ : 0 ≤ δ)
    (hstart : 0 ≤ start.reading) (hcandidates : ∀ c ∈ candidates, c.Regular start)
    (hprompt : Candidate.Prompt δ d last candidates since)
    (hlimit : d.grace δ (Candidate.signals candidates) ≤ limit)
    (hsince : since.reading ≤ limit)
    (h : dialLoop d endpoint peer last candidates lastError = some (dial, t)) : t.reading ≤ limit + δ := by
  induction candidates generalizing since lastError with
  | nil =>
    have hlast : last.reading ≤ since.reading + δ := hprompt
    rw [dialLoop] at h
    split_ifs at h
    · cases h
      omega
    · cases h
      omega
  | cons c rest ih =>
    obtain ⟨hnow, hpolls, hrest⟩ := hprompt
    obtain ⟨hc, hcandidates⟩ := List.forall_mem_cons.mp hcandidates
    obtain ⟨hthis, hthose⟩ := Deadline.grace_add hδ hlimit
    rw [dialLoop] at h
    cases hdial : c.dial d lastError with
    | none =>
      rw [hdial] at h
      cases h
    | some ended =>
      obtain ⟨o, t'⟩ := ended
      rw [hdial] at h
      rcases Candidate.dial_on_time hδ hstart hc hpolls hdial with ⟨rfl, rfl⟩ | ⟨htime, hover⟩
      · cases h
        omega
      · cases o with
        | next lastError =>
          rw [← hover] at hrest
          exact ih hcandidates hrest hthose (Int.le_trans htime hthis) h
        | connected | timedOut =>
          cases h
          omega

namespace Dialling

def signals (dialling : Dialling) : ℕ :=
  match dialling.resolved with
  | .ok candidates => Candidate.signals candidates
  | .error _ => 0

/-- Prompt from the deadline on; the time the name takes to resolve is before it. -/
def Prompt (δ : ℤ) (options : TcpConnectionOptions) (dialling : Dialling) : Prop :=
  ∀ d candidates, Deadline.make dialling.now (milliseconds options.connectTimeout) = some d →
    dialling.resolved = .ok candidates → Candidate.Prompt δ d dialling.last candidates dialling.now

end Dialling

namespace TcpConnection

/-- CONNECT ON TIME: over any list of addresses `Connect` returns, and a prompt thread is back within one
    time-out for all of them, a millisecond and a few delays. -/
theorem connect_on_time (host : String) (port : UInt16) {options : TcpConnectionOptions}
    {dialling : Dialling} {δ : ℤ}
    (htimeout : 0 ≤ options.connectTimeout ∧ Fits options.connectTimeout) (hnow : 0 ≤ dialling.now.reading)
    (hcandidates : ∀ candidates, dialling.resolved = .ok candidates →
    ∀ c ∈ candidates, c.Regular dialling.now) (hδ : 0 ≤ δ) (hprompt : dialling.Prompt δ options) :
    ∃ r t, timedConnect host port options dialling = some (r, t) ∧
      t.reading ≤ dialling.now.reading + options.connectTimeout * 1000000 + slack δ dialling.signals := by
  have hidle : dialling.now.reading ≤
      dialling.now.reading + options.connectTimeout * 1000000 + slack δ dialling.signals := by
    have := slack_nonneg hδ dialling.signals
    have := htimeout.1
    omega
  unfold timedConnect
  by_cases hhost : host.isEmpty = true
  · rw [if_pos hhost]
    exact ⟨_, _, rfl, hidle⟩
  rw [if_neg hhost]
  by_cases hport : port = 0
  · rw [if_pos hport]
    exact ⟨_, _, rfl, hidle⟩
  rw [if_neg hport]
  cases hvalid : validateOptions options with
  | error s => exact ⟨_, _, rfl, hidle⟩
  | ok =>
    cases hresolved : dialling.resolved with
    | error text => exact ⟨_, _, rfl, hidle⟩
    | ok candidates =>
      have hcount : (milliseconds options.connectTimeout).count.toInt = options.connectTimeout :=
        Int64.toInt_ofInt_of_le htimeout.2.1 htimeout.2.2
      obtain ⟨d, hmake, hsaturates⟩ := Deadline.make_saturates hnow (toInt_milliseconds htimeout)
      obtain ⟨dial, t, hdial, -⟩ := dialLoop_spec (d := d) hnow (endpointText host port) dialling.peer
        dialling.last
        candidates "no address candidates" (hcandidates candidates hresolved)
      have hsignals : dialling.signals = Candidate.signals candidates := by rw [Dialling.signals, hresolved]
      have hback : t.reading ≤ d.grace δ dialling.signals + δ := by
        rw [hsignals]
        exact dialLoop_on_time hδ hnow (hcandidates candidates hresolved)
          (hprompt d candidates hmake hresolved)
          (Int.le_refl _) (hsaturates.now_le_grace hδ (toInt_milliseconds htimeout)) hdial
      have hslack := hsaturates.back_le hδ hback
      rw [hcount] at hslack
      simp only [hmake, Option.bind_some, hdial]
      cases dial <;> exact ⟨_, t, rfl, hslack⟩

/-- Both addresses within five seconds. -/
theorem connect_on_time_unanswered :
    ∃ r t, timedConnect "localhost" 7077 {} unanswered = some (r, t) ∧
      t.reading ≤ unanswered.now.reading + ({} : TcpConnectionOptions).connectTimeout * 1000000 +
        slack 0 unanswered.signals := by
  have hmake : Deadline.make ⟨⟨0⟩⟩ (milliseconds ({} : TcpConnectionOptions).connectTimeout) =
      some ⟨⟨⟨5000000000⟩⟩⟩ := by decide
  have hprompt : unanswered.Prompt 0 {} := by
    rintro d candidates hd ⟨⟩
    obtain rfl := Option.some.inj (hmake.symm.trans hd)
    have hlast : unanswered.last.reading ≤ (⟨⟨5000000000⟩⟩ : ClockTime).reading + 0 := by decide
    refine ⟨by decide, trivial, by decide, ⟨by decide, ?_, fun h => by cases h⟩, hlast⟩
    intro ms hms
    obtain rfl : 5000 = ms := Option.some.inj hms
    decide
  have htimeout : 0 ≤ ({} : TcpConnectionOptions).connectTimeout ∧
      Fits ({} : TcpConnectionOptions).connectTimeout := by
    decide
  exact connect_on_time "localhost" 7077 htimeout (by decide) unanswered_regular (by decide) hprompt

end TcpConnection

end TidePool.Transport
