import Mathlib.Tactic.SplitIfs
import StationGateway.Quota.Bucket

/-!
# Laws of token buckets

A bucket that is not left alone for too long is refilled in step with its intervals: the next refill
is due within one interval of the last request. So what it can give in a window of one interval is
known beforehand: what is left before a refill, and a full bucket after it.
-/

namespace StationGateway.Quota.TokenBucket

/-- The time for which a bucket may be left alone. Longer gaps have more refills than their counter
holds. -/
def patience (interval : Nat) : Nat :=
  (refillCounter - 1) * interval

/-- A bucket whose next refill is due within one interval of the last request. -/
structure Prompt (bucket : TokenBucket) : Prop where
  /-- There is time between refills. -/
  positive : 0 < bucket.interval
  /-- No more tokens are left than a full bucket has. -/
  tokens_le : bucket.tokens ≤ bucket.capacity
  /-- The next refill has not been due yet. -/
  ahead : bucket.lastUsed < bucket.nextRefill
  /-- The next refill is due within one interval. -/
  soon : bucket.nextRefill ≤ bucket.lastUsed + bucket.interval

variable {bucket : TokenBucket} {capacity interval late now start : Nat}

@[simp]
theorem capacity_starting : (starting capacity interval now).capacity = capacity :=
  rfl

@[simp]
theorem interval_starting : (starting capacity interval now).interval = interval :=
  rfl

theorem prompt_starting (positive : 0 < interval) : (starting capacity interval now).Prompt where
  positive := positive
  tokens_le := Nat.le_refl capacity
  ahead := Nat.lt_add_of_pos_right positive
  soon := Nat.le_refl (now + interval)

/-- The counter of refills holds all that are due in a gap that is not too long. -/
theorem dueRefills_eq (positive : 0 < interval) (in_time : late < patience interval) :
    dueRefills interval late = late / interval + 1 := by
  have due_lt : late / interval < refillCounter - 1 := (Nat.div_lt_iff_lt_mul positive).mpr in_time
  have fits : late / interval + 1 < refillCounter := Nat.lt_sub_iff_add_lt.mp due_lt
  rw [dueRefills, Nat.max_eq_left positive, Nat.mod_eq_of_lt fits]

theorem refilled_of_lt (early : now < bucket.nextRefill) : bucket.refilled now = bucket :=
  if_neg (Nat.not_le.mpr early)

theorem tokens_refilled_of_le (due : bucket.nextRefill ≤ now) :
    (bucket.refilled now).tokens = bucket.capacity := by
  rw [refilled, if_pos due]

/-- The first refill that is not due yet lies within one interval, at least one after the first that
is. -/
theorem nextRefill_refilled_of_le (positive : 0 < bucket.interval) (due : bucket.nextRefill ≤ now)
    (in_time : now < bucket.nextRefill + patience bucket.interval) :
    bucket.nextRefill + bucket.interval ≤ (bucket.refilled now).nextRefill ∧
      now < (bucket.refilled now).nextRefill ∧
      (bucket.refilled now).nextRefill ≤ now + bucket.interval := by
  have late_lt : now - bucket.nextRefill < patience bucket.interval := by omega
  have next_eq : (bucket.refilled now).nextRefill = bucket.nextRefill +
      (bucket.interval * ((now - bucket.nextRefill) / bucket.interval) + bucket.interval) := by
    rw [refilled, if_pos due, dueRefills_eq positive late_lt, Nat.mul_add_one]
  have passed := Nat.div_add_mod (now - bucket.nextRefill) bucket.interval
  have rest_lt := Nat.mod_lt (now - bucket.nextRefill) positive
  omega

@[simp]
theorem capacity_refilled (bucket : TokenBucket) (now : Nat) :
    (bucket.refilled now).capacity = bucket.capacity := by
  rw [refilled]
  split_ifs <;> rfl

@[simp]
theorem interval_refilled (bucket : TokenBucket) (now : Nat) :
    (bucket.refilled now).interval = bucket.interval := by
  rw [refilled]
  split_ifs <;> rfl

/-! ## Requests -/

@[simp]
theorem capacity_take (bucket : TokenBucket) (now : Nat) :
    (bucket.take now).2.capacity = bucket.capacity :=
  bucket.capacity_refilled now

@[simp]
theorem interval_take (bucket : TokenBucket) (now : Nat) :
    (bucket.take now).2.interval = bucket.interval :=
  bucket.interval_refilled now

@[simp]
theorem lastUsed_take (bucket : TokenBucket) (now : Nat) : (bucket.take now).2.lastUsed = now :=
  rfl

@[simp]
theorem nextRefill_take (bucket : TokenBucket) (now : Nat) :
    (bucket.take now).2.nextRefill = (bucket.refilled now).nextRefill :=
  rfl

@[simp]
theorem tokens_take (bucket : TokenBucket) (now : Nat) :
    (bucket.take now).2.tokens = (bucket.refilled now).tokens - 1 :=
  rfl

/-- A request that does not come too late leaves a bucket in step with its intervals. -/
theorem Prompt.take (prompt : bucket.Prompt) (used : bucket.lastUsed ≤ now)
    (in_time : now < bucket.lastUsed + patience bucket.interval) : (bucket.take now).2.Prompt := by
  have tokens_le := prompt.tokens_le
  have ahead := prompt.ahead
  have soon := prompt.soon
  rcases Nat.lt_or_ge now bucket.nextRefill with early | due
  · refine ⟨?_, ?_, ?_, ?_⟩ <;>
      simp only [interval_take, tokens_take, capacity_take, lastUsed_take, nextRefill_take,
        refilled_of_lt early]
    · exact prompt.positive
    · omega
    · exact early
    · omega
  · obtain ⟨-, next_gt, next_le⟩ := nextRefill_refilled_of_le prompt.positive due (by omega)
    refine ⟨?_, ?_, ?_, ?_⟩ <;>
      simp only [interval_take, tokens_take, capacity_take, lastUsed_take, nextRefill_take,
        tokens_refilled_of_le due]
    · exact prompt.positive
    · exact Nat.sub_le _ _
    · exact next_gt
    · exact next_le

end StationGateway.Quota.TokenBucket
