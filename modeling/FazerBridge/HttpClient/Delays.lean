import FazerBridge.HttpClient
import Mathlib.Data.Rat.Cast.Order
import Mathlib.Tactic.Positivity

/-!
# How long a request waits

`_retry_after` reads a number or a date, and `_backoff_delay` caps what it read.  A date in
the past and an unlucky draw are no negative delay, but a negative number is: it passes the
cap, and `time.sleep` raises (`delay_bounded_iff`).
-/

namespace FazerBridge

/-- What Python makes of the text of a header at some time. -/
structure HeaderReader where
  /-- `float(value)`, or `ValueError` -/
  float : String → Option Seconds
  /-- `parsedate_to_datetime(value)` less the time in seconds, or an exception -/
  secondsUntil : String → Option ℚ

namespace HeaderReader

variable (reader : HeaderReader)

/-- `_retry_after` -/
def retryAfter (header : Option String) : Option Seconds :=
  match header with
  | none | some "" => none
  | some value =>
    match reader.float value with
    | some seconds => some seconds
    | none => (reader.secondsUntil value).map fun delta => ((max 0 delta : ℚ) : Seconds)

/-- The header reads as a negative number. -/
def Negative (header : Option String) : Prop :=
  ∃ value seconds, header = some value ∧ value ≠ "" ∧ reader.float value = some seconds ∧ seconds < 0

end HeaderReader

namespace BaseApiClient

variable {W : Type} (client : BaseApiClient W)

variable {client} {attempt : ℕ} {draw : ℚ}

/-- It is the delay of the loop. -/
theorem backoffDelay_number (retryAfter : Option Seconds) :
    client.backoffDelay attempt (retryAfter.map .number) draw =
      .number (client.delay attempt retryAfter draw) := by
  cases retryAfter with
  | none => rfl
  | some seconds => rfl

/-- The delay can be slept, and is no more than the longest one with its jitter. -/
def Bounded (retry : RetrySettings) (delay : Seconds) : Prop :=
  0 ≤ delay ∧ delay ≤ ((retry.maxDelaySeconds * (1 + retry.jitter) : ℚ) : Seconds)

/-- Settings none of which is negative. -/
structure Sensible (retry : RetrySettings) : Prop where
  base : 0 ≤ retry.baseDelaySeconds
  most : 0 ≤ retry.maxDelaySeconds
  jitter : 0 ≤ retry.jitter

theorem Sensible.le_most {retry : RetrySettings} (sensible : Sensible retry) :
    retry.maxDelaySeconds ≤ retry.maxDelaySeconds * (1 + retry.jitter) := by
  have jittered := mul_nonneg sensible.most sensible.jitter
  linarith

/-- The formula, whatever the attempt and the draw. -/
theorem bounded_formula (sensible : Sensible client.retry) (attempt : ℕ) (upper : draw ≤ 1) :
    Bounded client.retry (client.delay attempt none draw) := by
  have doubled : 0 ≤ client.retry.baseDelaySeconds * 2 ^ (attempt - 1) :=
    mul_nonneg sensible.base (by positivity)
  set capped := min (client.retry.baseDelaySeconds * 2 ^ (attempt - 1))
    client.retry.maxDelaySeconds with capped_def
  have nonneg : 0 ≤ capped := le_min doubled sensible.most
  have le_most : capped ≤ client.retry.maxDelaySeconds := min_le_right _ _
  have spread : 0 ≤ capped * client.retry.jitter := mul_nonneg nonneg sensible.jitter
  refine ⟨WithBotTop.coe_le_coe.mpr (le_max_left _ _), WithBotTop.coe_le_coe.mpr (max_le ?_ ?_)⟩
  · exact sensible.most.trans sensible.le_most
  · calc capped + draw * (capped * client.retry.jitter)
        ≤ capped + 1 * (capped * client.retry.jitter) := by gcongr
      _ = capped * (1 + client.retry.jitter) := by ring
      _ ≤ client.retry.maxDelaySeconds * (1 + client.retry.jitter) := by
          have := sensible.jitter
          gcongr

/-- What the server asks for, if it asks for no time in the past. -/
theorem bounded_asked (sensible : Sensible client.retry) {seconds : Seconds} :
    Bounded client.retry (client.delay attempt (some seconds) draw) ↔ 0 ≤ seconds := by
  constructor
  · intro bounded
    exact bounded.1.trans (min_le_left _ _)
  · intro nonneg
    refine ⟨le_min nonneg (WithBotTop.coe_le_coe.mpr sensible.most), ?_⟩
    exact (min_le_right _ _).trans (WithBotTop.coe_le_coe.mpr sensible.le_most)

/-- The delay before another attempt is bounded exactly if the header does not read as a
negative number. -/
theorem delay_bounded_iff (client : BaseApiClient W) (reader : HeaderReader)
    (sensible : Sensible client.retry) (attempt : ℕ) (header : Option String)
    (upper : draw ≤ 1) :
    Bounded client.retry (client.delay attempt (reader.retryAfter header) draw) ↔
      ¬ reader.Negative header := by
  cases header with
  | none =>
      exact iff_of_true (bounded_formula sensible attempt upper) (by simp [HeaderReader.Negative])
  | some value =>
      by_cases empty : value = ""
      · subst empty
        exact iff_of_true (bounded_formula sensible attempt upper) (by simp [HeaderReader.Negative])
      cases read : reader.float value with
      | some seconds =>
          have asked : reader.retryAfter (some value) = some seconds := by
            simp [HeaderReader.retryAfter, read]
          rw [asked, bounded_asked sensible, HeaderReader.Negative]
          simp [empty, read]
      | none =>
          have unread : ¬ reader.Negative (some value) := by simp [HeaderReader.Negative, read]
          refine iff_of_true ?_ unread
          cases date : reader.secondsUntil value with
          | none =>
              have asked : reader.retryAfter (some value) = none := by
                simp [HeaderReader.retryAfter, read, date]
              rw [asked]
              exact bounded_formula sensible attempt upper
          | some delta =>
              have asked : reader.retryAfter (some value) = some ((max 0 delta : ℚ) : Seconds) := by
                simp [HeaderReader.retryAfter, read, date]
              rw [asked, bounded_asked sensible]
              exact WithBotTop.coe_le_coe.mpr (le_max_left _ _)

/-- A client on the default settings, and a reader of two headers. -/
def patient : BaseApiClient Unit where
  service := "g2a"
  retry := .default
  authHeaders w := (.ok [], w)
  onAuthFailure := id
  decodeError _ := ""
  acquire := id
  send _ w := (.other "", w)
  draw w := (0, w)
  sleep _ := id

def numerals : HeaderReader where
  float value :=
    if value = "120" then some ((120 : ℚ) : Seconds)
    else if value = "-5" then some ((-5 : ℚ) : Seconds) else none
  secondsUntil _ := none

theorem sensible_default : Sensible .default := by
  constructor <;> decide +kernel

/-- Two minutes are cut to one. -/
theorem bounded_two_minutes :
    Bounded .default (patient.delay 1 (numerals.retryAfter (some "120")) 0) := by
  refine (delay_bounded_iff patient numerals sensible_default 1 (some "120") zero_le_one).mpr ?_
  intro found
  obtain ⟨value, seconds, same, -, read, negative⟩ := found
  cases same
  cases read
  exact absurd negative (by decide +kernel)

/-- A negative number of seconds is what the sleep is called with. -/
theorem not_bounded_negative :
    ¬ Bounded .default (patient.delay 1 (numerals.retryAfter (some "-5")) 0) := by
  intro bounded
  have nonneg := bounded.1
  revert nonneg
  decide +kernel

end BaseApiClient

end FazerBridge
