import Mathlib
import StationGateway.Proofs.Quota.Bucket

/-!
# Buckets under any order of clock readings

Requests read the clock before they have the bucket for themselves, so a later one may come with an
earlier reading. The next refill stays in step with the latest reading nevertheless: it is due at the
end of the interval that this reading lies in, counted from the start. So a bucket is refilled no more
often than intervals have ended.
-/

namespace StationGateway.Quota.TokenBucket

/-- A request for a token: the bucket that is asked, and what the clock says. -/
structure Call where
  /-- The bucket before the request. -/
  bucket : TokenBucket
  /-- The reading of the clock. -/
  now : Nat

namespace Call

/-- The answer. -/
def probe (call : Call) : Probe :=
  (call.bucket.take call.now).1

/-- Whether the bucket is refilled for the request. -/
def Refills (call : Call) : Prop :=
  call.bucket.nextRefill ≤ call.now

/-- The tokens that are there for the request. -/
def tokens (call : Call) : Nat :=
  (call.bucket.refilled call.now).tokens

/-- The tokens that the request is given. -/
def taken (call : Call) : Nat :=
  if call.probe.consumed then 1 else 0

end Call

/-- The requests at some readings of the clock, in any order. -/
def calls : TokenBucket → List Nat → List Call
  | _, [] => []
  | bucket, now :: rest => ⟨bucket, now⟩ :: calls (bucket.take now).2 rest

/-- The bucket after requests at some readings of the clock. -/
def after (bucket : TokenBucket) (readings : List Nat) : TokenBucket :=
  readings.foldl (fun bucket now => (bucket.take now).2) bucket

/-- The number of requests that are given a token. -/
def granted (calls : List Call) : Nat :=
  calls.countP fun call => call.probe.consumed

/-- The latest of an instant and some readings of the clock. -/
def latest (instant : Nat) (readings : List Nat) : Nat :=
  readings.foldl max instant

/-- The number of intervals that have ended at an instant. -/
def intervalsTo (interval start instant : Nat) : Nat :=
  (instant - start) / interval

/-- Whether no reading is so far ahead of the latest one before it that refills are lost. Readings
that follow each other more closely are never too far ahead. -/
def Paced (interval : Nat) : Nat → List Nat → Prop
  | _, [] => True
  | last, now :: rest => now < last + patience interval ∧ Paced interval (max last now) rest

/-- A bucket whose next refill is due at the end of the interval of an instant, counted from the
start. -/
structure InPhase (bucket : TokenBucket) (start instant : Nat) : Prop where
  /-- There is time between refills. -/
  positive : 0 < bucket.interval
  /-- No more tokens are left than a full bucket has. -/
  tokens_le : bucket.tokens ≤ bucket.capacity
  /-- The next refill is due when the interval ends. -/
  nextRefill_eq : bucket.nextRefill =
    start + bucket.interval * (intervalsTo bucket.interval start instant + 1)

variable {bucket : TokenBucket} {call : Call} {capacity interval start last now : Nat}
  {readings : List Nat}

/-! ## Refills in step with the latest reading -/

theorem intervalsTo_mono (interval start : Nat) : Monotone (intervalsTo interval start) :=
  fun _ _ le => Nat.div_le_div_right (Nat.sub_le_sub_right le start)

theorem inPhase_starting (positive : 0 < interval) :
    (starting capacity interval start).InPhase start start where
  positive := positive
  tokens_le := Nat.le_refl capacity
  nextRefill_eq := by
    rw [intervalsTo, Nat.sub_self, Nat.zero_div, Nat.zero_add, Nat.mul_one]
    rfl

/-- A reading reaches the next refill exactly if more intervals have ended than at all readings
before. -/
theorem InPhase.nextRefill_le_iff (phase : bucket.InPhase start last) (now : Nat) :
    bucket.nextRefill ≤ now ↔
      intervalsTo bucket.interval start last < intervalsTo bucket.interval start now := by
  have positive := phase.positive
  rw [phase.nextRefill_eq, intervalsTo, intervalsTo, ← Nat.add_one_le_iff,
    Nat.le_div_iff_mul_le positive, Nat.mul_comm]
  have step_pos : 0 < ((last - start) / bucket.interval + 1) * bucket.interval :=
    Nat.mul_pos (Nat.succ_pos _) positive
  omega

/-- The latest reading has not reached the next refill. -/
theorem InPhase.lt_nextRefill (phase : bucket.InPhase start last) : last < bucket.nextRefill :=
  Nat.lt_of_not_le ((phase.nextRefill_le_iff last).not.mpr (Nat.lt_irrefl _))

/-- A refill leaves the next one at the end of the interval of the reading. -/
theorem InPhase.nextRefill_refilled (phase : bucket.InPhase start last)
    (due : bucket.nextRefill ≤ now) (in_time : now < last + patience bucket.interval) :
    (bucket.refilled now).nextRefill =
      start + bucket.interval * (intervalsTo bucket.interval start now + 1) := by
  have ahead := phase.lt_nextRefill
  have more := (phase.nextRefill_le_iff now).mp due
  have next_eq := phase.nextRefill_eq
  have late_lt : now - bucket.nextRefill < patience bucket.interval := by omega
  have late_eq : (now - bucket.nextRefill) / bucket.interval =
      intervalsTo bucket.interval start now - (intervalsTo bucket.interval start last + 1) := by
    rw [next_eq, ← Nat.sub_sub, Nat.sub_mul_div, ← intervalsTo]
  have passed_eq : intervalsTo bucket.interval start last + 1 +
      (intervalsTo bucket.interval start now - (intervalsTo bucket.interval start last + 1) + 1) =
        intervalsTo bucket.interval start now + 1 := by
    omega
  rw [refilled, if_pos due, dueRefills_eq phase.positive late_lt, late_eq]
  simp only [next_eq]
  rw [Nat.add_assoc, ← Nat.mul_add, passed_eq]

/-- A request leaves the bucket in step with the latest reading, whether or not it is its own. -/
theorem InPhase.take (phase : bucket.InPhase start last)
    (in_time : now < last + patience bucket.interval) :
    (bucket.take now).2.InPhase start (max last now) := by
  have tokens_le := phase.tokens_le
  have ended_iff := phase.nextRefill_le_iff now
  refine ⟨?_, ?_, ?_⟩ <;> simp only [interval_take, tokens_take, capacity_take, nextRefill_take]
  · exact phase.positive
  · rcases Nat.lt_or_ge now bucket.nextRefill with early | due
    · rw [refilled_of_lt early]
      omega
    · rw [tokens_refilled_of_le due]
      omega
  · rw [(intervalsTo_mono bucket.interval start).map_max]
    rcases Nat.lt_or_ge now bucket.nextRefill with early | due
    · rw [refilled_of_lt early, phase.nextRefill_eq, max_eq_left (by omega)]
    · rw [phase.nextRefill_refilled due in_time, max_eq_right (by omega)]

/-! ## Single requests -/

/-- What is there for a request is given to it or left. -/
theorem Call.tokens_eq (call : Call) : call.tokens = call.probe.remaining + call.taken := by
  have remaining_eq : call.probe.remaining = call.tokens - 1 := rfl
  have consumed_eq : call.probe.consumed = decide (0 < call.tokens) := rfl
  rw [taken, remaining_eq, consumed_eq]
  split_ifs with given
  · have positive := of_decide_eq_true given
    omega
  · have none_left : ¬0 < call.tokens := by simpa using given
    omega

theorem Call.tokens_eq_zero_of_refused (refused : call.probe.consumed = false) :
    call.tokens = 0 := by
  have consumed_eq : call.probe.consumed = decide (0 < call.tokens) := rfl
  rw [consumed_eq, decide_eq_false_iff_not] at refused
  omega

theorem Call.tokens_of_refills (refills : call.Refills) : call.tokens = call.bucket.capacity :=
  tokens_refilled_of_le refills

theorem Call.tokens_of_not_refills (keeps : ¬call.Refills) : call.tokens = call.bucket.tokens :=
  congrArg TokenBucket.tokens (refilled_of_lt (Nat.lt_of_not_le keeps))

/-! ## Runs -/

theorem after_cons (bucket : TokenBucket) (now : Nat) (rest : List Nat) :
    bucket.after (now :: rest) = (bucket.take now).2.after rest :=
  rfl

theorem latest_cons (instant now : Nat) (rest : List Nat) :
    latest instant (now :: rest) = latest (max instant now) rest :=
  rfl

@[simp]
theorem capacity_after (bucket : TokenBucket) (readings : List Nat) :
    (bucket.after readings).capacity = bucket.capacity := by
  induction readings generalizing bucket with
  | nil => rfl
  | cons now rest induction => rw [after_cons, induction, capacity_take]

@[simp]
theorem interval_after (bucket : TokenBucket) (readings : List Nat) :
    (bucket.after readings).interval = bucket.interval := by
  induction readings generalizing bucket with
  | nil => rfl
  | cons now rest induction => rw [after_cons, induction, interval_take]

/-- Each request asks the bucket that the requests before it leave. -/
theorem exists_of_mem_calls (member : call ∈ bucket.calls readings) :
    ∃ earlier later, readings = earlier ++ call.now :: later ∧
      call.bucket = bucket.after earlier := by
  induction readings generalizing bucket with
  | nil => cases member
  | cons now rest induction =>
      rcases List.mem_cons.mp member with rfl | in_rest
      · exact ⟨[], rest, rfl, rfl⟩
      · obtain ⟨earlier, later, rest_eq, bucket_eq⟩ := induction in_rest
        exact ⟨now :: earlier, later, by rw [rest_eq, List.cons_append], bucket_eq⟩

/-- A request asks the bucket that the one before it leaves. -/
theorem isChain_calls (bucket : TokenBucket) (readings : List Nat) :
    (bucket.calls readings).IsChain fun first second =>
      second.bucket = (first.bucket.take first.now).2 := by
  induction readings generalizing bucket with
  | nil => exact .nil
  | cons now rest induction =>
      cases rest with
      | nil => exact .singleton _
      | cons next rest => exact .cons_cons rfl (induction (bucket.take now).2)

theorem Paced.of_append {earlier later : List Nat}
    (paced : Paced interval last (earlier ++ later)) : Paced interval last earlier := by
  induction earlier generalizing last with
  | nil => exact trivial
  | cons now rest induction => exact ⟨paced.1, induction paced.2⟩

/-- Requests at readings that are not too far ahead leave the bucket in step with the latest one. -/
theorem InPhase.after (phase : bucket.InPhase start last)
    (paced : Paced bucket.interval last readings) :
    (bucket.after readings).InPhase start (latest last readings) := by
  induction readings generalizing bucket last with
  | nil => exact phase
  | cons now rest induction =>
      rw [Paced, ← interval_take bucket now] at paced
      exact induction (phase.take (interval_take bucket now ▸ paced.1)) paced.2

/-- A request lowers what is left by what it is given, and only a refill adds a full bucket. -/
theorem InPhase.taken_add_tokens_le (phase : bucket.InPhase start last) (now : Nat) :
    (Call.mk bucket now).taken + (bucket.take now).2.tokens +
        bucket.capacity * intervalsTo bucket.interval start last ≤
      bucket.tokens + bucket.capacity * intervalsTo bucket.interval start (max last now) := by
  have spent := (Call.mk bucket now).tokens_eq
  have left_eq : (bucket.take now).2.tokens = (Call.mk bucket now).probe.remaining := rfl
  rw [left_eq, Nat.add_comm (Call.taken _), ← spent,
    (intervalsTo_mono bucket.interval start).map_max]
  by_cases refills : (Call.mk bucket now).Refills
  · have more := (phase.nextRefill_le_iff now).mp refills
    have added : bucket.capacity * (intervalsTo bucket.interval start last + 1) ≤
        bucket.capacity * intervalsTo bucket.interval start now :=
      Nat.mul_le_mul_left bucket.capacity more
    rw [Call.tokens_of_refills refills, max_eq_right more.le]
    rw [Nat.mul_add_one, Nat.add_comm] at added
    exact added.trans (Nat.le_add_left _ _)
  · have grows := Nat.mul_le_mul_left bucket.capacity
      (le_max_left (intervalsTo bucket.interval start last)
        (intervalsTo bucket.interval start now))
    rw [Call.tokens_of_not_refills refills]
    exact Nat.add_le_add_left grows _

/-- What a run is given and leaves is what the bucket had at first, and a full bucket for every
interval that has ended since. -/
theorem InPhase.granted_add_tokens_le (phase : bucket.InPhase start last)
    (paced : Paced bucket.interval last readings) :
    granted (bucket.calls readings) + (bucket.after readings).tokens +
        bucket.capacity * intervalsTo bucket.interval start last ≤
      bucket.tokens +
        bucket.capacity * intervalsTo bucket.interval start (latest last readings) := by
  induction readings generalizing bucket last with
  | nil => exact (congrArg (· + _) (Nat.zero_add bucket.tokens)).le
  | cons now rest induction =>
      rw [Paced, ← interval_take bucket now] at paced
      have first := phase.taken_add_tokens_le now
      have others := induction (phase.take (interval_take bucket now ▸ paced.1)) paced.2
      have granted_eq : granted (bucket.calls (now :: rest)) =
          granted ((bucket.take now).2.calls rest) + (Call.mk bucket now).taken :=
        List.countP_cons
      rw [capacity_take, interval_take] at others
      rw [granted_eq, after_cons, latest_cons]
      omega

/-- All requests ask buckets of one size. -/
theorem capacity_of_mem_calls (member : call ∈ bucket.calls readings) :
    call.bucket.capacity = bucket.capacity := by
  obtain ⟨earlier, later, -, bucket_eq⟩ := exists_of_mem_calls member
  rw [bucket_eq, capacity_after]

/-- The tokens that are there for a request are no more than a full bucket has. -/
theorem InPhase.tokens_le_of_mem_calls (phase : bucket.InPhase start last)
    (paced : Paced bucket.interval last readings) (member : call ∈ bucket.calls readings) :
    call.tokens ≤ bucket.capacity := by
  have capacity_eq := capacity_of_mem_calls member
  by_cases refills : call.Refills
  · exact (Call.tokens_of_refills refills).trans_le capacity_eq.le
  · obtain ⟨earlier, later, rfl, bucket_eq⟩ := exists_of_mem_calls member
    have left_le := (phase.after paced.of_append).tokens_le
    rw [← bucket_eq] at left_le
    exact (Call.tokens_of_not_refills refills).trans_le (left_le.trans_eq capacity_eq)

/-- The first request finds a full bucket, whether or not it comes with a refill. -/
theorem Call.tokens_starting (capacity interval start now : Nat) :
    (Call.mk (starting capacity interval start) now).tokens = capacity := by
  by_cases refills : (Call.mk (starting capacity interval start) now).Refills
  · exact Call.tokens_of_refills refills
  · exact Call.tokens_of_not_refills refills

/-- What a bucket guarantees for requests at readings of the clock in any order. -/
structure Safe (capacity interval start : Nat) (readings : List Nat) : Prop where
  /-- No more tokens are ever left than a full bucket has. -/
  remaining_le : ∀ call ∈ (starting capacity interval start).calls readings,
    call.probe.remaining ≤ capacity
  /-- A request is refused only when no token is left, and is told so. -/
  refused : ∀ call ∈ (starting capacity interval start).calls readings,
    call.probe.consumed = false → call.tokens = 0 ∧ call.probe.remaining = 0
  /-- Between refills, what is left falls by one with each token that is given, and stays otherwise. -/
  steady : ((starting capacity interval start).calls readings).IsChain fun first second =>
    ¬second.Refills → first.probe.remaining = second.probe.remaining + second.taken
  /-- The first request and those with a refill find a full bucket. -/
  full : (∀ call ∈ ((starting capacity interval start).calls readings).head?,
      capacity = call.probe.remaining + call.taken) ∧
    ∀ call ∈ (starting capacity interval start).calls readings, call.Refills →
      capacity = call.probe.remaining + call.taken
  /-- The bucket is refilled when more intervals have ended than at all readings before. -/
  refills_iff : ∀ earlier now later, readings = earlier ++ now :: later →
    ((Call.mk ((starting capacity interval start).after earlier) now).Refills ↔
      intervalsTo interval start (latest start earlier) < intervalsTo interval start now)
  /-- No more tokens are given than a full bucket has, and a full bucket for every interval that has
  ended at the latest reading. -/
  granted_le : granted ((starting capacity interval start).calls readings) ≤
    capacity * (1 + intervalsTo interval start (latest start readings))

/-- A bucket is safe under any order of readings of the clock that are not too far ahead. -/
theorem safe_of_paced (positive : 0 < interval) (paced : Paced interval start readings) (capacity : Nat) :
    Safe capacity interval start readings := by
  let bucket := starting capacity interval start
  have phase : bucket.InPhase start start := inPhase_starting positive
  refine ⟨fun call member => ?_, fun call member refused => ?_, ?_, ⟨?_, fun call member refills => ?_⟩,
    fun earlier now later readings_eq => ?_, ?_⟩
  · have spent := call.tokens_eq
    have bound : call.tokens ≤ capacity := phase.tokens_le_of_mem_calls paced member
    omega
  · have spent := call.tokens_eq
    have none_left := Call.tokens_eq_zero_of_refused refused
    exact ⟨none_left, by omega⟩
  · refine (bucket.isChain_calls readings).imp fun first second follows keeps => ?_
    rw [← second.tokens_eq, Call.tokens_of_not_refills keeps, follows]
    rfl
  · cases readings with
    | nil => exact fun call member => absurd member (Option.not_mem_none call)
    | cons now rest =>
        intro call member
        obtain rfl := Option.some.inj member
        rw [← Call.tokens_eq, Call.tokens_starting]
  · rw [← Call.tokens_eq, Call.tokens_of_refills refills, capacity_of_mem_calls member,
      capacity_starting]
  · subst readings_eq
    have reached := (phase.after paced.of_append).nextRefill_le_iff now
    rw [interval_after, interval_starting] at reached
    exact reached
  · have total_le := phase.granted_add_tokens_le paced
    rw [capacity_starting, interval_starting] at total_le
    have tokens_eq : bucket.tokens = capacity := rfl
    have none_ended : intervalsTo interval start start = 0 := by
      rw [intervalsTo, Nat.sub_self, Nat.zero_div]
    rw [none_ended, tokens_eq, Nat.mul_zero, Nat.add_zero] at total_le
    rw [Nat.mul_add, Nat.mul_one]
    exact (Nat.le_add_right _ _).trans total_le

/-- The clock goes back behind a refill, and behind the start. -/
theorem safe_of_paced_backward :
    let readings := [5300, 4100, 7250, 5900, 6800, 7999, 6100, 8000]
    0 < 1000 ∧ Paced 1000 5000 readings ∧ Safe 2 1000 5000 readings ∧
      ((starting 2 1000 5000).calls readings).map (fun call => call.probe.consumed) =
        [true, true, true, true, false, false, false, true] := by
  intro readings
  have paced : Paced 1000 5000 readings := by
    simp [readings, Paced, patience, refillCounter]
  exact ⟨by decide, paced, safe_of_paced (by decide) paced 2, by decide⟩

end StationGateway.Quota.TokenBucket
