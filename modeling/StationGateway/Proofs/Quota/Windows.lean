import Mathlib
import StationGateway.Proofs.Quota.Limiter

/-!
# Limits over whole runs

Whatever the other keys do and whenever buckets are evicted, a key is given no more than two full
buckets of tokens in any window of one interval. A step of a run that gives a token in the window
lowers what the key can still be given there, and no step raises it.
-/

namespace StationGateway.Quota.RateLimiter

variable {limiter : RateLimiter} {key : BucketKey} {limits : Limits} {event : Event}
  {events : List Event} {earliest start : Nat}

/-- A limiter that keeps the bucket of a limited key in step with its intervals. -/
structure InStep (limiter : RateLimiter) (key : BucketKey) (limits : Limits) (earliest : Nat) :
    Prop where
  /-- There is one bucket for each key. -/
  unique : limiter.Unique
  /-- The key is limited. -/
  limited : limiter.allowances.limits? key.plan = some limits
  /-- There is time between refills. -/
  positive : 0 < limiter.interval
  /-- The next refill of the bucket is due within one interval of the last request. -/
  prompt : ∀ bucket ∈ limiter.bucket? key, bucket.Prompt
  /-- The bucket has the tokens of its plan. -/
  capacity : ∀ bucket ∈ limiter.bucket? key, bucket.capacity = limits.rate
  /-- The bucket has the interval of the limiter. -/
  interval : ∀ bucket ∈ limiter.bucket? key, bucket.interval = limiter.interval
  /-- The bucket has not been used later. -/
  used : ∀ bucket ∈ limiter.bucket? key, bucket.lastUsed ≤ earliest

/-- Whether the last check of a key and those of a run are so close that no refill is lost. -/
def CloseAhead (limiter : RateLimiter) (key : BucketKey) (events : List Event) : Prop :=
  Event.Close limiter.interval (Event.checksOf key events) ∧
    ∀ bucket ∈ limiter.bucket? key,
      Event.Close limiter.interval (bucket.lastUsed :: Event.checksOf key events)

/-! ## Buckets that are asked -/

section

variable {now : Nat}

theorem checksOf_check (key : BucketKey) (now : Nat) (rest : List Event) :
    Event.checksOf key (.check key now :: rest) = now :: Event.checksOf key rest := by
  simp [Event.checksOf]

theorem checksOf_check_of_ne {found : BucketKey} (ne : found ≠ key) (now : Nat)
    (rest : List Event) :
    Event.checksOf key (.check found now :: rest) = Event.checksOf key rest := by
  simp [Event.checksOf, ne]

/-- The bucket that a check asks is in step, and is not asked too late. -/
theorem InStep.bucketFor (in_step : limiter.InStep key limits earliest) (ordered : earliest ≤ now)
    {rest : List Event} (close : limiter.CloseAhead key (.check key now :: rest)) :
    (limiter.bucketFor key limits now).Prompt ∧
      (limiter.bucketFor key limits now).capacity = limits.rate ∧
      (limiter.bucketFor key limits now).interval = limiter.interval ∧
      (limiter.bucketFor key limits now).lastUsed ≤ now ∧
      now < (limiter.bucketFor key limits now).lastUsed +
        TokenBucket.patience limiter.interval := by
  rw [RateLimiter.bucketFor]
  cases found : limiter.bucket? key with
  | none =>
      have patience_pos : 0 < TokenBucket.patience limiter.interval :=
        Nat.mul_pos (by decide) in_step.positive
      exact ⟨TokenBucket.prompt_starting in_step.positive, rfl, rfl, Nat.le_refl now,
        Nat.lt_add_of_pos_right patience_pos⟩
  | some bucket =>
      have in_time := close.2 bucket found
      rw [checksOf_check, Event.Close, List.isChain_cons] at in_time
      exact ⟨in_step.prompt bucket found, in_step.capacity bucket found,
        in_step.interval bucket found, (in_step.used bucket found).trans ordered,
        in_time.1 now rfl⟩

end

/-! ## Steps -/

/-- An event that leaves the bucket of a key alone, or drops it, leaves it in step. -/
theorem InStep.of_known (in_step : limiter.InStep key limits earliest)
    (ordered : earliest ≤ event.instant)
    (known : ∀ bucket ∈ (limiter.afterEvent event).bucket? key, bucket ∈ limiter.bucket? key) :
    (limiter.afterEvent event).InStep key limits event.instant where
  unique := in_step.unique.afterEvent event
  limited := by rw [allowances_afterEvent, in_step.limited]
  positive := by rw [interval_afterEvent]; exact in_step.positive
  prompt := fun bucket found => in_step.prompt bucket (known bucket found)
  capacity := fun bucket found => in_step.capacity bucket (known bucket found)
  interval := fun bucket found => by
    rw [interval_afterEvent, in_step.interval bucket (known bucket found)]
  used := fun bucket found => (in_step.used bucket (known bucket found)).trans ordered

/-- A check leaves the bucket of its key in step. -/
theorem InStep.afterCheck {now : Nat} (in_step : limiter.InStep key limits earliest)
    (ordered : earliest ≤ now) {rest : List Event}
    (close : limiter.CloseAhead key (.check key now :: rest)) :
    (limiter.afterEvent (.check key now)).InStep key limits now := by
  obtain ⟨prompt, capacity, interval, used, in_time⟩ := in_step.bucketFor ordered close
  have known : ∀ bucket ∈ (limiter.afterEvent (.check key now)).bucket? key,
      bucket = ((limiter.bucketFor key limits now).take now).2 := by
    intro bucket is_bucket
    rw [RateLimiter.afterEvent, bucket?_check in_step.limited now] at is_bucket
    exact (Option.some.inj is_bucket).symm
  refine
    { unique := in_step.unique.afterEvent _
      limited := by rw [allowances_afterEvent, in_step.limited]
      positive := by rw [interval_afterEvent]; exact in_step.positive
      prompt := ?_
      capacity := ?_
      interval := ?_
      used := ?_ } <;>
    intro bucket is_bucket <;> rw [known bucket is_bucket]
  · exact prompt.take used (interval ▸ in_time)
  · rw [TokenBucket.capacity_take, capacity]
  · rw [TokenBucket.interval_take, interval, interval_afterEvent]
  · rw [TokenBucket.lastUsed_take]

/-- An event leaves the bucket of a key in step. -/
theorem InStep.afterEvent (in_step : limiter.InStep key limits earliest)
    (ordered : earliest ≤ event.instant) {rest : List Event}
    (close : limiter.CloseAhead key (event :: rest)) :
    (limiter.afterEvent event).InStep key limits event.instant := by
  cases event with
  | check found now =>
      by_cases same : found = key
      · subst same
        exact in_step.afterCheck ordered close
      · refine in_step.of_known ordered fun bucket is_bucket => ?_
        rwa [RateLimiter.afterEvent, bucket?_check_of_ne (Ne.symm same)] at is_bucket
  | evict now idle =>
      refine in_step.of_known ordered fun bucket is_bucket => ?_
      rw [RateLimiter.afterEvent, bucket?_evict in_step.unique] at is_bucket
      exact (Option.mem_filter_iff.mp is_bucket).1

/-- After an event the checks of a key are as close as before. -/
theorem CloseAhead.afterEvent (unique : limiter.Unique)
    (limited : limiter.allowances.limits? key.plan = some limits)
    (close : limiter.CloseAhead key (event :: events)) :
    (limiter.afterEvent event).CloseAhead key events := by
  rw [CloseAhead, interval_afterEvent]
  cases event with
  | check found now =>
      by_cases same : found = key
      · subst same
        rw [CloseAhead, checksOf_check] at close
        refine ⟨(List.isChain_cons.mp close.1).2, fun bucket is_bucket => ?_⟩
        rw [RateLimiter.afterEvent, bucket?_check limited] at is_bucket
        rw [← Option.some.inj is_bucket]
        exact close.1
      · rw [CloseAhead, checksOf_check_of_ne same] at close
        rw [RateLimiter.afterEvent, bucket?_check_of_ne (Ne.symm same)]
        exact close
  | evict now idle =>
      refine ⟨close.1, fun bucket is_bucket => close.2 bucket ?_⟩
      rw [RateLimiter.afterEvent, bucket?_evict unique] at is_bucket
      exact (Option.mem_filter_iff.mp is_bucket).1

end StationGateway.Quota.RateLimiter
