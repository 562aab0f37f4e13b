import Mathlib.Algebra.Order.Field.Basic
import Mathlib.Algebra.Order.Ring.Rat
import Mathlib.Data.List.Chain
import Mathlib.Tactic.Linarith
import Mathlib.Tactic.NormNum
import Mathlib.Tactic.Ring

/-!
# The token bucket of the notification bridge

A bucket starts full and is refilled in proportion to the time since the last call, never beyond
its size. A call takes one token if there is one. What a window lets through is bounded by what the
bucket holds when the window opens and by what is refilled while it is open, so the tokens are the
potential that carries the bound along a run.
-/

namespace Ferry

/-- `_TokenBucket`. -/
structure TokenBucket where
  burst : ℚ
  rate : ℚ
  tokens : ℚ
  last : ℚ
deriving DecidableEq

namespace TokenBucket

/-- `_TokenBucket.__init__`, with the clock at `now`. -/
def new (burst rate now : ℚ) : TokenBucket :=
  { burst, rate, tokens := burst, last := now }

/-- The tokens that a call at `now` finds. -/
def refilled (bucket : TokenBucket) (now : ℚ) : ℚ :=
  min bucket.burst (bucket.tokens + (now - bucket.last) * bucket.rate)

/-- `_TokenBucket.consume`, with the clock at `now`. -/
def consume (bucket : TokenBucket) (now : ℚ) : Bool × TokenBucket :=
  if 1 ≤ bucket.refilled now then
    (true, { bucket with tokens := bucket.refilled now - 1, last := now })
  else
    (false, { bucket with tokens := bucket.refilled now, last := now })

/-- The calls at the given times, each with its answer. -/
def answers (bucket : TokenBucket) : List ℚ → List (ℚ × Bool)
  | [] => []
  | now :: times => (now, (bucket.consume now).1) :: answers (bucket.consume now).2 times

/-- The bucket after calls at the given times. -/
def after (bucket : TokenBucket) (times : List ℚ) : TokenBucket :=
  times.foldl (fun bucket now ↦ (bucket.consume now).2) bucket

/-- The number of calls between `opens` and `closes` that were let through. -/
def passed (opens closes : ℚ) (calls : List (ℚ × Bool)) : ℕ :=
  calls.countP fun call ↦ call.2 && decide (opens ≤ call.1) && decide (call.1 ≤ closes)

/-- A bucket of room for a token, refilled over time, that holds no more than its size. -/
structure Sound (bucket : TokenBucket) : Prop where
  one_le_burst : 1 ≤ bucket.burst
  rate_pos : 0 < bucket.rate
  tokens_nonneg : 0 ≤ bucket.tokens
  tokens_le : bucket.tokens ≤ bucket.burst

variable {bucket : TokenBucket} {now : ℚ}

theorem sound_new {burst rate : ℚ} (hburst : 1 ≤ burst) (hrate : 0 < rate) (now : ℚ) :
    (new burst rate now).Sound :=
  ⟨hburst, hrate, zero_le_one.trans hburst, le_rfl⟩

/-! ## One call -/

@[simp] theorem consume_burst : (bucket.consume now).2.burst = bucket.burst := by
  unfold consume
  split <;> rfl

@[simp] theorem consume_rate : (bucket.consume now).2.rate = bucket.rate := by
  unfold consume
  split <;> rfl

@[simp] theorem consume_last : (bucket.consume now).2.last = now := by
  unfold consume
  split <;> rfl

/-- A call lets one token out for each time it says yes. -/
theorem consume_tokens (bucket : TokenBucket) (now : ℚ) :
    (bucket.consume now).2.tokens + (if (bucket.consume now).1 then 1 else 0) =
      bucket.refilled now := by
  unfold consume
  split <;> simp

theorem consume_accepts : (bucket.consume now).1 = true ↔ 1 ≤ bucket.refilled now := by
  unfold consume
  split <;> simp_all

theorem refilled_le_burst (bucket : TokenBucket) (now : ℚ) :
    bucket.refilled now ≤ bucket.burst := min_le_left _ _

theorem refilled_le (bucket : TokenBucket) (now : ℚ) :
    bucket.refilled now ≤ bucket.tokens + (now - bucket.last) * bucket.rate :=
  min_le_right _ _

theorem Sound.refilled_nonneg (hsound : bucket.Sound) (hnow : bucket.last ≤ now) :
    0 ≤ bucket.refilled now := by
  have hgained : 0 ≤ (now - bucket.last) * bucket.rate :=
    mul_nonneg (sub_nonneg.mpr hnow) hsound.rate_pos.le
  exact le_min (zero_le_one.trans hsound.one_le_burst) (add_nonneg hsound.tokens_nonneg hgained)

theorem Sound.consume (hsound : bucket.Sound) (hnow : bucket.last ≤ now) :
    (bucket.consume now).2.Sound := by
  have hspent := consume_tokens bucket now
  have hnonneg := hsound.refilled_nonneg hnow
  have hle := refilled_le_burst bucket now
  refine ⟨by simpa using hsound.one_le_burst, by simpa using hsound.rate_pos, ?_, ?_⟩
  · by_cases hyes : (bucket.consume now).1 = true
    · have hone := consume_accepts.mp hyes
      rw [if_pos hyes] at hspent
      linarith
    · rw [if_neg hyes] at hspent
      linarith
  · rw [consume_burst]
    split at hspent <;> linarith

/-- After a pause of `1 / rate` there is a token again. -/
theorem Sound.consume_rested (hsound : bucket.Sound) (hnow : bucket.last + 1 / bucket.rate ≤ now) :
    (bucket.consume now).1 = true := by
  have hgained : 1 ≤ (now - bucket.last) * bucket.rate := by
    have hpause : 1 / bucket.rate ≤ now - bucket.last := by linarith
    calc
      1 = 1 / bucket.rate * bucket.rate := by rw [one_div_mul_cancel hsound.rate_pos.ne']
      _ ≤ (now - bucket.last) * bucket.rate :=
        mul_le_mul_of_nonneg_right hpause hsound.rate_pos.le
  have hheld := hsound.tokens_nonneg
  exact consume_accepts.mpr (le_min hsound.one_le_burst (by linarith))

/-! ## A run -/

@[simp] theorem answers_cons (now : ℚ) (times : List ℚ) :
    bucket.answers (now :: times) =
      (now, (bucket.consume now).1) :: (bucket.consume now).2.answers times := rfl

@[simp] theorem after_cons (now : ℚ) (times : List ℚ) :
    bucket.after (now :: times) = (bucket.consume now).2.after times := rfl

theorem length_answers (times : List ℚ) : (bucket.answers times).length = times.length := by
  induction times generalizing bucket with
  | nil => rfl
  | cons now times ih => simp [ih]

theorem answers_append (earlier later : List ℚ) :
    bucket.answers (earlier ++ later) =
      bucket.answers earlier ++ (bucket.after earlier).answers later := by
  induction earlier generalizing bucket with
  | nil => rfl
  | cons now earlier ih => simp [ih]

theorem after_append (earlier later : List ℚ) :
    bucket.after (earlier ++ later) = (bucket.after earlier).after later :=
  List.foldl_append

@[simp] theorem after_burst (times : List ℚ) : (bucket.after times).burst = bucket.burst := by
  induction times generalizing bucket with
  | nil => rfl
  | cons now times ih => simp [ih]

@[simp] theorem after_rate (times : List ℚ) : (bucket.after times).rate = bucket.rate := by
  induction times generalizing bucket with
  | nil => rfl
  | cons now times ih => simp [ih]

/-- A run on a clock that does not go back keeps the bucket sound. -/
theorem Sound.after (hsound : bucket.Sound) {times : List ℚ}
    (hclock : (bucket.last :: times).IsChain (· ≤ ·)) : (bucket.after times).Sound := by
  induction times generalizing bucket with
  | nil => exact hsound
  | cons now times ih =>
    rw [List.isChain_cons_cons] at hclock
    exact ih (hsound.consume hclock.1) (by simpa using hclock.2)

theorem passed_cons (opens closes : ℚ) (call : ℚ × Bool) (calls : List (ℚ × Bool)) :
    passed opens closes (call :: calls) =
      passed opens closes calls +
        if call.2 = true ∧ opens ≤ call.1 ∧ call.1 ≤ closes then 1 else 0 := by
  simp [passed, List.countP_cons, and_assoc]

/-- Nothing passes after the window has closed. -/
theorem passed_eq_zero {opens closes : ℚ} {times : List ℚ} (hlate : ∀ now ∈ times, closes < now) :
    passed opens closes (bucket.answers times) = 0 := by
  induction times generalizing bucket with
  | nil => rfl
  | cons now times ih =>
    have hnow : ¬now ≤ closes := not_le.mpr (hlate now List.mem_cons_self)
    rw [answers_cons, passed_cons, ih fun later hlater ↦ hlate later (List.mem_cons_of_mem _ hlater)]
    simp [hnow]

theorem lt_of_isChain {start closes : ℚ} {times : List ℚ}
    (hclock : (start :: times).IsChain (· ≤ ·)) (hstart : closes < start) :
    ∀ now ∈ times, closes < now := fun _ hnow ↦
  hstart.trans_le (List.rel_of_pairwise_cons (List.isChain_iff_pairwise.mp hclock) hnow)

/-- What passes once the window is open is paid for by the tokens at hand and by the refill. -/
theorem Sound.passed_le_tokens (hsound : bucket.Sound) {times : List ℚ} {opens closes : ℚ}
    (hclock : (bucket.last :: times).IsChain (· ≤ ·)) (hopen : bucket.last ≤ closes) :
    (passed opens closes (bucket.answers times) : ℚ) ≤
      bucket.tokens + bucket.rate * (closes - bucket.last) := by
  induction times generalizing bucket with
  | nil =>
    have hrefill := mul_nonneg hsound.rate_pos.le (sub_nonneg.mpr hopen)
    have hheld := hsound.tokens_nonneg
    simpa [answers, passed] using add_nonneg hheld hrefill
  | cons now times ih =>
    rw [List.isChain_cons_cons] at hclock
    by_cases hnow : now ≤ closes
    · have hrest := ih (hsound.consume hclock.1) (by simpa using hclock.2) (by simpa using hnow)
      have hspent := consume_tokens bucket now
      have hfound := refilled_le bucket now
      rw [consume_rate, consume_last] at hrest
      have hcount : (passed opens closes (bucket.answers (now :: times)) : ℚ) ≤
          passed opens closes ((bucket.consume now).2.answers times) +
            (if (bucket.consume now).1 then 1 else 0) := by
        rw [answers_cons, passed_cons]
        push_cast
        gcongr
        split <;> split <;> simp_all
      calc
        _ ≤ (passed opens closes ((bucket.consume now).2.answers times) : ℚ) +
              (if (bucket.consume now).1 then 1 else 0) := hcount
        _ ≤ bucket.refilled now + bucket.rate * (closes - now) := by linarith
        _ ≤ bucket.tokens + (now - bucket.last) * bucket.rate + bucket.rate * (closes - now) := by
          linarith
        _ = bucket.tokens + bucket.rate * (closes - bucket.last) := by ring
    · have hlate : ∀ later ∈ now :: times, closes < later := by
        intro later hlater
        rcases List.mem_cons.mp hlater with rfl | htail
        · exact not_le.mp hnow
        · exact lt_of_isChain hclock.2 (not_le.mp hnow) later htail
      rw [passed_eq_zero hlate]
      have hrefill := mul_nonneg hsound.rate_pos.le (sub_nonneg.mpr hopen)
      simpa using add_nonneg hsound.tokens_nonneg hrefill

/-- A window lets through what the bucket can hold and what is refilled while it is open. -/
theorem Sound.passed_le (hsound : bucket.Sound) {times : List ℚ} {opens closes : ℚ}
    (hclock : (bucket.last :: times).IsChain (· ≤ ·)) (hwindow : opens ≤ closes) :
    (passed opens closes (bucket.answers times) : ℚ) ≤
      bucket.burst + bucket.rate * (closes - opens) := by
  have hroom : 0 ≤ bucket.burst + bucket.rate * (closes - opens) :=
    add_nonneg (zero_le_one.trans hsound.one_le_burst)
      (mul_nonneg hsound.rate_pos.le (sub_nonneg.mpr hwindow))
  induction times generalizing bucket with
  | nil => simpa [answers, passed] using hroom
  | cons now times ih =>
    rw [List.isChain_cons_cons] at hclock
    have hnext : (bucket.consume now).2.Sound := hsound.consume hclock.1
    have hclocknext : ((bucket.consume now).2.last :: times).IsChain (· ≤ ·) := by
      simpa using hclock.2
    rw [answers_cons, passed_cons]
    by_cases hopened : opens ≤ now
    · by_cases hclosed : now ≤ closes
      · have hrest := @Sound.passed_le_tokens _ hnext times opens closes hclocknext (by simpa using hclosed)
        have hspent := consume_tokens bucket now
        have hfull := refilled_le_burst bucket now
        have helapsed : bucket.rate * (closes - now) ≤ bucket.rate * (closes - opens) :=
          mul_le_mul_of_nonneg_left (by linarith) hsound.rate_pos.le
        rw [consume_rate, consume_last] at hrest
        simp only [hopened, hclosed, and_self, and_true]
        push_cast
        linarith
      · rw [passed_eq_zero (lt_of_isChain hclock.2 (not_le.mp hclosed))]
        simpa [hclosed] using hroom
    · have hrest := ih hnext hclocknext (by simpa using hroom)
      rw [consume_burst, consume_rate] at hrest
      simpa [hopened] using hrest

/-- On a clock that does not go back, any window lets through at most the size of the bucket and
what is refilled while it is open, the bucket never holds less than nothing nor more than its size,
and a call that comes `1 / rate` after the one before is let through. -/
theorem new_limits {burst rate created : ℚ} {times : List ℚ} (hburst : 1 ≤ burst) (hrate : 0 < rate)
    (hclock : (created :: times).IsChain (· ≤ ·)) :
    (∀ opens closes, opens ≤ closes →
      (passed opens closes ((new burst rate created).answers times) : ℚ) ≤
        burst + rate * (closes - opens)) ∧
    (∀ earlier later, times = earlier ++ later →
      0 ≤ ((new burst rate created).after earlier).tokens ∧
        ((new burst rate created).after earlier).tokens ≤ burst) ∧
    ∀ earlier previous now later, times = earlier ++ previous :: now :: later →
      previous + 1 / rate ≤ now →
      ((new burst rate created).answers times)[earlier.length + 1]? = some (now, true) := by
  have hsound : (new burst rate created).Sound := sound_new hburst hrate created
  refine ⟨fun opens closes hwindow ↦ hsound.passed_le hclock hwindow, ?_, ?_⟩
  · rintro earlier later rfl
    have hsplit : ((created :: earlier) ++ later).IsChain (· ≤ ·) := hclock
    have hearlier : (new burst rate created |>.after earlier).Sound :=
      hsound.after hsplit.left_of_append
    exact ⟨hearlier.tokens_nonneg, by simpa [new] using hearlier.tokens_le⟩
  · rintro earlier previous now later rfl hpause
    have hsplit : earlier ++ previous :: now :: later = (earlier ++ [previous]) ++ now :: later := by
      simp
    have hclock' : ((created :: (earlier ++ [previous])) ++ now :: later).IsChain (· ≤ ·) := by
      simpa using hclock
    have hbefore : ((new burst rate created).after (earlier ++ [previous])).Sound :=
      hsound.after hclock'.left_of_append
    have hlast : ((new burst rate created).after (earlier ++ [previous])).last = previous := by
      rw [after_append, after_cons]
      exact consume_last
    have hyes : (((new burst rate created).after (earlier ++ [previous])).consume now).1 = true := by
      refine hbefore.consume_rested ?_
      rw [hlast, after_rate]
      exact hpause
    rw [hsplit, answers_append, List.getElem?_append_right (by simp [length_answers])]
    simp [length_answers, hyes]

theorem new_limits_sample :
    let bucket := new 2 1 0
    (∀ opens closes, opens ≤ closes →
      (passed opens closes (bucket.answers [0, 0, 1 / 2, 3 / 2]) : ℚ) ≤ 2 + 1 * (closes - opens)) ∧
    bucket.answers [0, 0, 1 / 2, 3 / 2] =
      [(0, true), (0, true), (1 / 2, false), (3 / 2, true)] := by
  refine ⟨(new_limits (by norm_num) (by norm_num) ?_).1, ?_⟩
  · simp [List.isChain_cons_cons]
    norm_num
  · decide +kernel

end TokenBucket

end Ferry
