import Mathlib.Order.Bounds.Basic
import Mathlib.Tactic.Ring
import StationGateway.Proofs.Quota.Readings

/-!
# Refills in step with the start

However the clock is read, refills are due only after whole intervals from the start. The number of
intervals that a bucket slept through is kept in 32 bits: while it fits, the next refill is the first
one that is still to come, and otherwise it stays behind the clock.
-/

namespace StationGateway.Quota.TokenBucket

/-- The instants after `now` at which whole intervals from the start end. -/
def ticksAfter (interval start now : Nat) : Set Nat :=
  {instant | now < instant ∧ ∃ count, instant = start + count * interval}

namespace Call

/-- When the next refill is due after a request. -/
def nextRefill (call : Call) : Nat :=
  (call.bucket.take call.now).2.nextRefill

/-- Whether the counter of refills holds those that are due. -/
def InTime (call : Call) (interval : Nat) : Prop :=
  call.now < call.bucket.nextRefill + patience interval

/-- What a request leaves of the refills of a bucket that started at some instant. -/
structure Aligned (call : Call) (interval start : Nat) : Prop where
  /-- The next refill is due after whole intervals from the start. -/
  whole : ∃ count, call.nextRefill = start + count * interval
  /-- If no refill was due, the next one is the one before, which is still to come. -/
  kept : ¬call.Refills → call.nextRefill = call.bucket.nextRefill ∧ call.now < call.nextRefill
  /-- If one was due, the next one is the first to come, exactly if the counter holds those due. -/
  least_iff : call.Refills →
    (IsLeast (ticksAfter interval start call.now) call.nextRefill ↔ call.InTime interval)
  /-- There is time until then exactly if the counter holds those due. -/
  resetIn_pos_iff : 0 < call.probe.resetIn ↔ call.InTime interval

end Call

variable {bucket : TokenBucket} {capacity interval start last now late : Nat} {readings : List Nat}

/-! ## One request -/

/-- A counter that is too small for the refills that are due holds fewer. -/
theorem dueRefills_le (positive : 0 < interval) (too_late : patience interval ≤ late) :
    dueRefills interval late ≤ late / interval := by
  have many : refillCounter - 1 ≤ late / interval := (Nat.le_div_iff_mul_le positive).mpr too_late
  have counter_pos : 0 < refillCounter := by decide
  have kept_lt := Nat.mod_lt (late / interval + 1) counter_pos
  rw [dueRefills, Nat.max_eq_left positive]
  omega

/-- A refill is followed by a whole number of intervals. -/
theorem nextRefill_take_of_le (due : bucket.nextRefill ≤ now) :
    (bucket.take now).2.nextRefill = bucket.nextRefill +
      dueRefills bucket.interval (now - bucket.nextRefill) * bucket.interval := by
  rw [nextRefill_take, refilled, if_pos due, Nat.mul_comm]

theorem nextRefill_take_of_lt (early : now < bucket.nextRefill) :
    (bucket.take now).2.nextRefill = bucket.nextRefill := by
  rw [nextRefill_take, refilled_of_lt early]

/-- No more refills are skipped than are due. -/
theorem nextRefill_take_le (positive : 0 < bucket.interval)
    (soon : bucket.nextRefill ≤ last + bucket.interval) (ordered : last ≤ now) :
    (bucket.take now).2.nextRefill ≤ now + bucket.interval := by
  rcases Nat.lt_or_ge now bucket.nextRefill with early | due
  · rw [nextRefill_take_of_lt early]
    omega
  · have passed := Nat.div_mul_le_self (now - bucket.nextRefill) bucket.interval
    have count_le : dueRefills bucket.interval (now - bucket.nextRefill) ≤
        (now - bucket.nextRefill) / bucket.interval + 1 := by
      rw [dueRefills, Nat.max_eq_left positive]
      exact Nat.mod_le _ _
    have skipped_le := Nat.mul_le_mul_right bucket.interval count_le
    rw [Nat.add_mul, Nat.one_mul] at skipped_le
    rw [nextRefill_take_of_le due]
    omega

/-- The next refill is still to come exactly if the counter holds the refills that are due. -/
theorem lt_nextRefill_take_iff (positive : 0 < bucket.interval) :
    now < (bucket.take now).2.nextRefill ↔
      now < bucket.nextRefill + patience bucket.interval := by
  rcases Nat.lt_or_ge now bucket.nextRefill with early | due
  · rw [nextRefill_take_of_lt early]
    omega
  · constructor
    · intro ahead
      by_contra too_late
      have count_le : dueRefills bucket.interval (now - bucket.nextRefill) ≤
          (now - bucket.nextRefill) / bucket.interval := dueRefills_le positive (by omega)
      have skipped_le := Nat.mul_le_mul_right bucket.interval count_le
      have passed := Nat.div_mul_le_self (now - bucket.nextRefill) bucket.interval
      rw [nextRefill_take_of_le due] at ahead
      omega
    · intro in_time
      exact (nextRefill_refilled_of_le positive due in_time).2.1

/-- The refill that follows those that are due is the first one to come. -/
theorem isLeast_nextRefill_take (positive : 0 < bucket.interval) (due : bucket.nextRefill ≤ now)
    (in_time : now < bucket.nextRefill + patience bucket.interval)
    (whole : ∃ count, bucket.nextRefill = start + count * bucket.interval) :
    IsLeast (ticksAfter bucket.interval start now) (bucket.take now).2.nextRefill := by
  obtain ⟨count, count_eq⟩ := whole
  have late_lt : now - bucket.nextRefill < patience bucket.interval := by omega
  have next_eq : (bucket.take now).2.nextRefill = start +
      (count + (now - bucket.nextRefill) / bucket.interval + 1) * bucket.interval := by
    rw [nextRefill_take_of_le due, dueRefills_eq positive late_lt]
    generalize (now - bucket.nextRefill) / bucket.interval = passed
    rw [count_eq]
    ring
  refine ⟨⟨(lt_nextRefill_take_iff positive).mpr in_time, _, next_eq⟩, ?_⟩
  rintro instant ⟨later, other, rfl⟩
  rw [next_eq]
  refine Nat.add_le_add_left (Nat.mul_le_mul_right _ ?_) start
  -- an earlier tick would lie before the end of the last interval that has passed
  by_contra fewer
  have passed := Nat.div_mul_le_self (now - bucket.nextRefill) bucket.interval
  have other_le : other * bucket.interval ≤
      (count + (now - bucket.nextRefill) / bucket.interval) * bucket.interval :=
    Nat.mul_le_mul_right _ (by omega)
  rw [Nat.add_mul] at other_le
  omega

/-! ## Runs -/

theorem after_concat (bucket : TokenBucket) (readings : List Nat) (now : Nat) :
    bucket.after (readings ++ [now]) = ((bucket.after readings).take now).2 :=
  List.foldl_append

/-- The next refill of a bucket is always due after whole intervals from its start. -/
theorem exists_nextRefill_after (readings : List Nat)
    (whole : ∃ count, bucket.nextRefill = start + count * bucket.interval) :
    ∃ count, (bucket.after readings).nextRefill = start + count * bucket.interval := by
  induction readings generalizing bucket with
  | nil => exact whole
  | cons now rest induction =>
      rw [after_cons, ← interval_take bucket now]
      refine induction ?_
      obtain ⟨count, count_eq⟩ := whole
      rw [interval_take]
      rcases Nat.lt_or_ge now bucket.nextRefill with early | due
      · exact ⟨count, by rw [nextRefill_take_of_lt early, count_eq]⟩
      · refine ⟨count + dueRefills bucket.interval (now - bucket.nextRefill), ?_⟩
        rw [nextRefill_take_of_le due, Nat.add_mul, ← Nat.add_assoc, ← count_eq]

/-- Unless the clock is turned back, the next refill is due within one interval. -/
theorem nextRefill_after_le (positive : 0 < bucket.interval)
    (soon : bucket.nextRefill ≤ last + bucket.interval)
    (ordered : (last :: (readings ++ [now])).IsChain (· ≤ ·)) :
    ((bucket.after readings).take now).2.nextRefill ≤ now + bucket.interval := by
  induction readings generalizing bucket last with
  | nil =>
      rw [List.nil_append, List.isChain_pair] at ordered
      exact nextRefill_take_le positive soon ordered
  | cons first rest induction =>
      rw [List.cons_append, List.isChain_cons_cons] at ordered
      have first_soon := nextRefill_take_le positive soon ordered.1
      rw [← interval_take bucket first] at positive first_soon ⊢
      exact induction positive first_soon ordered.2

/-- Refills stay in step with the start of a bucket however it is asked, and with the clock as long as
the counter holds the ones that were slept through. -/
theorem aligned_of_positive (positive : 0 < interval) (capacity start : Nat) (readings : List Nat)
    (now : Nat) :
    (Call.mk ((starting capacity interval start).after readings) now).Aligned interval start ∧
      ((start :: (readings ++ [now])).IsChain (· ≤ ·) →
        (Call.mk ((starting capacity interval start).after readings) now).probe.resetIn ≤
          interval) := by
  have next_whole : ∀ readings, ∃ count,
      ((starting capacity interval start).after readings).nextRefill = start + count * interval :=
    fun readings => exists_nextRefill_after readings ⟨1, by rw [Nat.one_mul]; rfl⟩
  have next_le := fun ordered =>
    @nextRefill_after_le (starting capacity interval start) start now readings positive (Nat.le_refl _)
      ordered
  have before_whole := next_whole readings
  have after_whole := next_whole (readings ++ [now])
  rw [after_concat] at after_whole
  have interval_eq : ((starting capacity interval start).after readings).interval = interval :=
    interval_after _ readings
  generalize (starting capacity interval start).after readings = bucket at *
  subst interval_eq
  have ahead_iff := @lt_nextRefill_take_iff bucket now positive
  refine ⟨⟨after_whole, fun early => ?_, fun due => ⟨fun least => ?_, fun in_time => ?_⟩, ?_⟩,
    fun ordered => ?_⟩
  · have before := Nat.lt_of_not_le early
    have same := nextRefill_take_of_lt before
    exact ⟨same, before.trans_eq same.symm⟩
  · exact ahead_iff.mp least.1.1
  · exact isLeast_nextRefill_take positive due in_time before_whole
  · exact Nat.sub_pos_iff_lt.trans ahead_iff
  · exact Nat.sub_le_iff_le_add'.mpr (next_le ordered)

/-- A gap of more intervals than the counter holds leaves the next refill behind the clock. -/
theorem aligned_of_positive_asleep :
    0 < 1 ∧ (Call.mk ((starting 1 1 0).after []) 4294967297).Aligned 1 0 ∧
      ¬(Call.mk ((starting 1 1 0).after []) 4294967297).InTime 1 ∧
      (Call.mk ((starting 1 1 0).after []) 4294967297).nextRefill = 2 ∧
      (Call.mk ((starting 1 1 0).after []) 4294967297).probe = ⟨true, 0, 0⟩ ∧
      IsLeast (ticksAfter 1 0 4294967297) 4294967298 := by
  have aligned := (aligned_of_positive (by decide : 0 < 1) 1 0 [] 4294967297).1
  refine ⟨by decide, aligned, fun in_time => ?_, by decide, by decide,
    ⟨by decide, 4294967298, by decide⟩, fun instant tick => tick.1⟩
  exact absurd (aligned.resetIn_pos_iff.mpr in_time) (by decide)

end StationGateway.Quota.TokenBucket
