import OpenAirplay.DashboardProtocol

/-!
# The client of a dashboard

It keeps a connection to the receiver, and tries again for as long as the display listens:
after a delay that doubles up to a bound.
-/

namespace OpenAirplay.Client

open Dashboard

set_option autoImplicit false

/-- The first delay, in milliseconds. -/
def firstBackoff : Nat := 500

def maxBackoff : Nat := 5000

inductive Update where
  | connected
  | message (message : Message)
  | disconnected
  deriving DecidableEq

inductive WsMessage where
  | text (text : String)
  | close
  | other
  deriving DecidableEq

inductive SocketError where
  | connect
  | frame
  deriving DecidableEq

/-- What the network makes of one attempt. A frame that is `none` is a socket error, behind
the last frame the stream has ended. -/
inductive Attempt where
  | refused
  | connected (frames : List (Option WsMessage))
  deriving DecidableEq

/-- The receiving end of the updates, gone once it has a certain number of them, if ever. -/
structure Display where
  received : List Update
  hangsUpAt : Option Nat
  deriving DecidableEq

namespace Display

variable {d : Display} {us : List Update} {m n : Nat}

/-- It is there for `n` updates more. -/
def Hears (d : Display) (n : Nat) : Prop := ∀ k ∈ d.hangsUpAt, d.received.length + n ≤ k

instance (d : Display) (n : Nat) : Decidable (d.Hears n) :=
  inferInstanceAs (Decidable (∀ k ∈ d.hangsUpAt, d.received.length + n ≤ k))

def after (d : Display) (us : List Update) : Display := { d with received := d.received ++ us }

def send (d : Display) (u : Update) : Option Display :=
  if d.Hears 1 then some (d.after [u]) else none

theorem after_nil (d : Display) : d.after [] = d := by
  cases d
  simp only [after, List.append_nil]

theorem after_after (d : Display) (us vs : List Update) :
    (d.after us).after vs = d.after (us ++ vs) := by
  simp only [after, List.append_assoc]

theorem Hears.mono (h : d.Hears n) (hle : m ≤ n) : d.Hears m := by
  intro k hk
  exact (Nat.add_le_add_left hle _).trans (h k hk)

theorem hears_after : (d.after us).Hears n ↔ d.Hears (us.length + n) := by
  simp only [Hears, after, List.length_append, Nat.add_assoc]

theorem send_of_hears (h : d.Hears (n + 1)) (u : Update) : d.send u = some (d.after [u]) :=
  if_pos (h.mono (Nat.le_add_left 1 n))

end Display

section Run

-- reads a message, unless this build does not know it
variable (parse : String → Option Message)

/-- The frames of a connection: `ok true` when it dropped, `ok false` when the display is
gone. -/
def receive : List (Option WsMessage) → Display → Except SocketError Bool × Display
  | [], display => (.ok true, display)
  | none :: _, display => (.error .frame, display)
  | some (.text text) :: frames, display =>
    match parse text with
    | some message =>
      match display.send (.message message) with
      | some display => receive frames display
      | none => (.ok false, display)
    | none => receive frames display
  | some .close :: _, display => (.ok true, display)
  | some .other :: frames, display => receive frames display

def session (attempt : Attempt) (display : Display) : Except SocketError Bool × Display :=
  match attempt with
  | .refused => (.error .connect, display)
  | .connected frames =>
    match display.send .connected with
    | some display => receive parse frames display
    | none => (.ok false, display)

/-- The delays slept while these attempts last, and the display behind them. -/
def run : List Attempt → Nat → Display → List Nat × Display
  | [], _, display => ([], display)
  | attempt :: attempts, backoff, display =>
    match session parse attempt display with
    | (.ok false, display) => ([], display)
    | (ended, display) =>
      -- a connection that worked earns a fresh backoff, one that ended in an error does not
      let backoff := if ended = .ok true then firstBackoff else backoff
      match display.send .disconnected with
      | none => ([], display)
      | some display =>
        let rest := run attempts (min (backoff * 2) maxBackoff) display
        (backoff :: rest.1, rest.2)

end Run

/-! ## What one attempt comes to -/

/-- How a connection ends while the display listens. -/
def ending : List (Option WsMessage) → Except SocketError Bool
  | [] => .ok true
  | none :: _ => .error .frame
  | some .close :: _ => .ok true
  | some (.text _) :: frames => ending frames
  | some .other :: frames => ending frames

def Attempt.ending : Attempt → Except SocketError Bool
  | .refused => .error .connect
  | .connected frames => Client.ending frames

/-- The delay behind an attempt, `backoff` being the one in force. -/
def slept (attempt : Attempt) (backoff : Nat) : Nat :=
  if attempt.ending = .ok true then firstBackoff else backoff

section Attempts

variable (parse : String → Option Message)

/-- The updates that come out of these frames. -/
def forwarded : List (Option WsMessage) → List Update
  | [] => []
  | none :: _ => []
  | some .close :: _ => []
  | some (.text text) :: frames => ((parse text).map .message).toList ++ forwarded frames
  | some .other :: frames => forwarded frames

def updates : Attempt → List Update
  | .refused => [.disconnected]
  | .connected frames => .connected :: (forwarded parse frames ++ [.disconnected])

variable {parse} {frames : List (Option WsMessage)} {attempt : Attempt} {display : Display}

theorem receive_of_hears (h : display.Hears (forwarded parse frames).length) :
    receive parse frames display = (ending frames, display.after (forwarded parse frames)) := by
  induction frames generalizing display with
  | nil => rw [forwarded, display.after_nil]; rfl
  | cons frame frames ih =>
    match frame with
    | none => rw [forwarded, display.after_nil]; rfl
    | some .close => rw [forwarded, display.after_nil]; rfl
    | some .other => exact ih h
    | some (.text text) =>
      rw [receive, ending, forwarded]
      rw [forwarded] at h
      cases hparse : parse text with
      | none =>
        rw [hparse] at h
        exact ih h
      | some message =>
        rw [hparse] at h
        change display.Hears (_ + 1) at h
        have hrest : (display.after [.message message]).Hears (forwarded parse frames).length := by
          rw [Display.hears_after, Nat.add_comm]
          exact h
        simp only [Display.send_of_hears h, ih hrest, Display.after_after]
        rfl

theorem receive_of_deaf (h : ¬display.Hears (forwarded parse frames).length)
    (hopen : display.Hears 0) : (receive parse frames display).1 = .ok false := by
  induction frames generalizing display with
  | nil => exact absurd hopen h
  | cons frame frames ih =>
    match frame with
    | none => exact absurd hopen h
    | some .close => exact absurd hopen h
    | some .other => exact ih h hopen
    | some (.text text) =>
      rw [receive]
      rw [forwarded] at h
      cases hparse : parse text with
      | none =>
        rw [hparse] at h
        exact ih h hopen
      | some message =>
        rw [hparse] at h
        change ¬display.Hears (_ + 1) at h
        by_cases hone : display.Hears 1
        · have hrest : ¬(display.after [.message message]).Hears
              (forwarded parse frames).length := by
            rw [Display.hears_after, Nat.add_comm]
            exact h
          simp only [Display.send, if_pos hone]
          exact ih hrest (Display.hears_after.mpr hone)
        · simp only [Display.send, if_neg hone]

theorem ending_cases (frames : List (Option WsMessage)) :
    ending frames = .ok true ∨ ending frames = .error .frame := by
  induction frames with
  | nil => exact .inl rfl
  | cons frame frames ih =>
    match frame with
    | none => exact .inr rfl
    | some .close => exact .inl rfl
    | some .other => exact ih
    | some (.text _) => exact ih

theorem Attempt.ending_ne (attempt : Attempt) : attempt.ending ≠ .ok false := by
  cases attempt with
  | refused => simp [Attempt.ending]
  | connected frames => rcases ending_cases frames with h | h <;> simp [Attempt.ending, h]

theorem session_of_hears (h : display.Hears (updates parse attempt).length) :
    ∃ us, updates parse attempt = us ++ [.disconnected] ∧
      session parse attempt display = (attempt.ending, display.after us) := by
  cases attempt with
  | refused => exact ⟨[], rfl, by rw [display.after_nil]; rfl⟩
  | connected frames =>
    refine ⟨.connected :: forwarded parse frames, rfl, ?_⟩
    have hmore : (display.after [.connected]).Hears (forwarded parse frames).length := by
      apply Display.hears_after.mpr (h.mono _)
      simp [updates, Nat.add_comm]
    have hone : display.Hears (0 + 1) := h.mono (by simp [updates])
    simp only [session, Display.send_of_hears hone, receive_of_hears hmore, Display.after_after]
    rfl

/-- While the display listens it gets all of the updates, and the delay is slept. -/
theorem run_cons_of_hears (h : display.Hears (updates parse attempt).length)
    (attempts : List Attempt) (backoff : Nat) :
    (run parse (attempt :: attempts) backoff display).1 =
      slept attempt backoff ::
        (run parse attempts (min (slept attempt backoff * 2) maxBackoff)
          (display.after (updates parse attempt))).1 := by
  obtain ⟨us, hus, hsession⟩ := session_of_hears h
  have hlast : (display.after us).Hears (0 + 1) := by
    rw [hus, List.length_append] at h
    exact Display.hears_after.mpr h
  simp only [run, hsession]
  cases hended : attempt.ending with
  | error e =>
    simp only [Display.send_of_hears hlast, Display.after_after, ← hus, slept, hended]
  | ok alive =>
    cases alive with
    | false => exact absurd hended attempt.ending_ne
    | true =>
      simp only [Display.send_of_hears hlast, Display.after_after, ← hus, slept, hended]

theorem run_cons_of_deaf (h : ¬display.Hears (updates parse attempt).length)
    (attempts : List Attempt) (backoff : Nat) :
    (run parse (attempt :: attempts) backoff display).1 = [] := by
  have hsession : (session parse attempt display).1 = .ok false ∨
      ¬(session parse attempt display).2.Hears 1 := by
    cases attempt with
    | refused => exact .inr h
    | connected frames =>
      by_cases hone : display.Hears 1
      · simp only [session, Display.send, if_pos hone]
        by_cases hmore : (display.after [.connected]).Hears (forwarded parse frames).length
        · right
          rw [receive_of_hears hmore, Display.after_after, Display.hears_after]
          simpa [updates] using h
        · left
          exact receive_of_deaf hmore (Display.hears_after.mpr hone)
      · left
        simp only [session, Display.send, if_neg hone]
  simp only [run]
  generalize session parse attempt display = result at hsession
  obtain ⟨ended, rest⟩ := result
  rcases hsession with hfalse | hdeaf
  · change ended = .ok false at hfalse
    rw [hfalse]
  · change ¬rest.Hears 1 at hdeaf
    match ended with
    | .ok false => rfl
    | .ok true => simp only [Display.send, if_neg hdeaf]
    | .error e => simp only [Display.send, if_neg hdeaf]

/-- The delays of a run: one behind each attempt, until the display hangs up. -/
theorem run_cons (attempt : Attempt) (attempts : List Attempt) (backoff : Nat) (display : Display) :
    (run parse (attempt :: attempts) backoff display).1 =
      if display.Hears (updates parse attempt).length then
        slept attempt backoff ::
          (run parse attempts (min (slept attempt backoff * 2) maxBackoff)
            (display.after (updates parse attempt))).1
      else [] := by
  split
  · exact run_cons_of_hears ‹_› attempts backoff
  · exact run_cons_of_deaf ‹_› attempts backoff

end Attempts

/-! ## The delays of a run -/

section Delays

variable {parse : String → Option Message} {attempts : List Attempt} {backoff : Nat}
  {display : Display}

theorem firstBackoff_le_slept (attempt : Attempt) (h : firstBackoff ≤ backoff) :
    firstBackoff ≤ slept attempt backoff := by
  unfold slept
  split
  · exact le_rfl
  · exact h

/-- A doubled delay is no first one. -/
theorem firstBackoff_lt_doubled (h : firstBackoff ≤ backoff) :
    firstBackoff < min (backoff * 2) maxBackoff := by
  simp only [firstBackoff, maxBackoff] at h ⊢
  omega

/-- Behind every attempt there is a delay while the display listens. -/
theorem lt_length_delays {n : Nat} : n < (run parse attempts backoff display).1.length ↔
    n < attempts.length ∧
      display.Hears ((attempts.take (n + 1)).flatMap (updates parse)).length := by
  induction attempts generalizing backoff display n with
  | nil => simp [run]
  | cons attempt attempts ih =>
    rw [List.take_succ_cons, List.flatMap_cons, List.length_append, run_cons]
    split
    · cases n with
      | zero => simpa using ‹_›
      | succ n =>
        rw [List.length_cons, List.length_cons, Nat.succ_lt_succ_iff, Nat.succ_lt_succ_iff, ih,
          Display.hears_after]
    · constructor
      · intro hn
        cases hn
      · rintro ⟨_, hall⟩
        exact absurd (hall.mono (Nat.le_add_right _ _)) ‹_›

theorem firstBackoff_le (h : firstBackoff ≤ backoff) :
    ∀ delay ∈ (run parse attempts backoff display).1, firstBackoff ≤ delay := by
  induction attempts generalizing backoff display with
  | nil => intro delay hdelay; cases hdelay
  | cons attempt attempts ih =>
    rw [run_cons]
    split
    · have hslept := firstBackoff_le_slept attempt h
      rw [List.forall_mem_cons]
      exact ⟨hslept, ih (firstBackoff_lt_doubled hslept).le⟩
    · intro delay hdelay
      cases hdelay

theorem getElem?_zero {delay : Nat} (h : (run parse attempts backoff display).1[0]? = some delay) :
    ∃ attempt, attempts[0]? = some attempt ∧ delay = slept attempt backoff := by
  cases attempts with
  | nil => cases h
  | cons attempt attempts =>
    rw [run_cons] at h
    split at h
    · cases h
      exact ⟨attempt, rfl, rfl⟩
    · cases h

/-- Each delay comes from the one before and from how the attempt ended. -/
theorem getElem?_succ {n delay : Nat}
    (h : (run parse attempts backoff display).1[n + 1]? = some delay) :
    ∃ attempt previous, attempts[n + 1]? = some attempt ∧
      (run parse attempts backoff display).1[n]? = some previous ∧
      delay = slept attempt (min (previous * 2) maxBackoff) := by
  induction n generalizing attempts backoff display with
  | zero =>
    cases attempts with
    | nil => cases h
    | cons first attempts =>
      rw [run_cons] at h ⊢
      split at h
      · obtain ⟨attempt, hattempt, hdelay⟩ := getElem?_zero h
        rw [if_pos ‹_›]
        exact ⟨attempt, _, hattempt, rfl, hdelay⟩
      · cases h
  | succ n ih =>
    cases attempts with
    | nil => cases h
    | cons first attempts =>
      rw [run_cons] at h ⊢
      split at h
      · rw [if_pos ‹_›]
        exact ih h
      · cases h

end Delays

/-- The delay behind the first attempt and behind every one that reached the receiver is the
first one, every other is twice the one before it, up to the bound. -/
structure Paced (attempts : List Attempt) (delays : List Nat) : Prop where
  first : ∀ delay, delays[0]? = some delay → delay = firstBackoff
  connected : ∀ (n : Nat) frames delay, attempts[n]? = some (.connected frames) →
    delays[n]? = some delay → delay = firstBackoff
  refused : ∀ (n : Nat) previous delay, attempts[n + 1]? = some .refused →
    delays[n]? = some previous → delays[n + 1]? = some delay →
    delay = min (2 * previous) maxBackoff

/-- The delays are paced so exactly when no attempt but the first reaches the receiver and
then fails, up to where the display hangs up. -/
theorem paced_iff (parse : String → Option Message) (attempts : List Attempt)
    (display : Display) :
    Paced attempts (run parse attempts firstBackoff display).1 ↔
      ∀ (n : Nat) frames, attempts[n + 1]? = some (.connected frames) →
        display.Hears ((attempts.take (n + 2)).flatMap (updates parse)).length →
        ending frames ≠ .error .frame := by
  constructor
  · intro hpaced n frames hattempt hhears hended
    have hlt : n + 1 < (run parse attempts firstBackoff display).1.length :=
      lt_length_delays.mpr ⟨(List.getElem?_eq_some_iff.mp hattempt).1, hhears⟩
    have hdelay := List.getElem?_eq_getElem hlt
    obtain ⟨attempt, previous, hattempt', hprevious, hslept⟩ := getElem?_succ hdelay
    rw [hattempt] at hattempt'
    cases hattempt'
    have hdoubled := firstBackoff_lt_doubled (firstBackoff_le le_rfl _
      (List.mem_of_getElem? hprevious))
    rw [hpaced.connected _ _ _ hattempt hdelay, slept, Attempt.ending, hended,
      if_neg (by simp)] at hslept
    exact absurd hslept hdoubled.ne
  · intro hnone
    have hfirst : ∀ delay, (run parse attempts firstBackoff display).1[0]? = some delay →
        delay = firstBackoff := by
      intro delay hdelay
      obtain ⟨attempt, _, rfl⟩ := getElem?_zero hdelay
      exact ite_self _
    refine ⟨hfirst, ?_, ?_⟩
    · intro n frames delay hattempt hdelay
      cases n with
      | zero => exact hfirst delay hdelay
      | succ n =>
        have hheard := (lt_length_delays.mp (List.getElem?_eq_some_iff.mp hdelay).1).2
        have hended := hnone n frames hattempt hheard
        obtain ⟨attempt, previous, hattempt', _, hslept⟩ := getElem?_succ hdelay
        rw [hattempt] at hattempt'
        cases hattempt'
        rw [hslept]
        exact if_pos ((ending_cases frames).resolve_right hended)
    · intro n previous delay hattempt hprevious hdelay
      obtain ⟨attempt, previous', hattempt', hprevious', hslept⟩ := getElem?_succ hdelay
      rw [hattempt] at hattempt'
      cases hattempt'
      rw [hprevious] at hprevious'
      cases hprevious'
      rw [hslept, Nat.mul_comm 2]
      rfl

/-- A receiver that was refused, then reached, then lost to a socket error: the connection that
worked earns no fresh delay. -/
theorem lost_connection_delays :
    (run (fun _ => none) [.refused, .connected [none]] firstBackoff ⟨[], none⟩).1 = [500, 1000] ∧
      ¬∀ (parse : String → Option Message) (attempts : List Attempt) (display : Display),
        Paced attempts (run parse attempts firstBackoff display).1 := by
  have hdelays : (run (fun _ => none) [.refused, .connected [none]] firstBackoff ⟨[], none⟩).1 =
      [500, 1000] := by decide
  refine ⟨hdelays, ?_⟩
  intro hall
  have hpaced := hall (fun _ => none) [.refused, .connected [none]] ⟨[], none⟩
  rw [hdelays] at hpaced
  exact absurd (hpaced.connected 1 [none] 1000 rfl rfl) (by decide)

end OpenAirplay.Client
