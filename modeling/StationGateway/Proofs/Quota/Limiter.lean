import Mathlib
import StationGateway.Proofs.Quota.Bucket
import StationGateway.Quota.Limiter

/-!
# Runs of the rate limiter

A run is a sequence of checks and evictions. What a check changes is the bucket of its own key, and
an eviction judges every bucket by itself, so keys do not see each other.
-/

namespace StationGateway.Quota

/-- What happens to a limiter. -/
inductive Event where
  /-- A request is checked. -/
  | check (key : BucketKey) (now : Nat)
  /-- The buckets that have been idle for some time are dropped. -/
  | evict (now idle : Nat)
  deriving DecidableEq, Repr

namespace Event

/-- When an event happens. -/
def instant : Event → Nat
  | check _ now => now
  | evict now _ => now

/-- Whether an event drops no bucket that has been used within one interval. -/
def Spares (interval : Nat) : Event → Prop
  | check _ _ => True
  | evict _ idle => interval ≤ idle

/-- When a key is checked in a run. -/
def checksOf (key : BucketKey) (events : List Event) : List Nat :=
  events.filterMap fun
    | check other now => if other = key then some now else none
    | evict _ _ => none

/-- Whether instants that follow each other are so close that no refill is lost between them. -/
def Close (interval : Nat) (instants : List Nat) : Prop :=
  instants.IsChain fun earlier later => later < earlier + TokenBucket.patience interval

end Event

/-- The answer to a check. -/
structure Answer where
  /-- What has been checked. -/
  key : BucketKey
  /-- When it has been checked. -/
  now : Nat
  /-- What the limiter says, nothing if the plan is not limited. -/
  limit : Option RateLimit
  deriving DecidableEq, Repr

/-- Whether a token was given. -/
def Answer.granted (answer : Answer) : Bool :=
  answer.limit.any fun limit => limit.probe.consumed

namespace RateLimiter

/-- The answer to an event, if it is a check. -/
def answer? (limiter : RateLimiter) : Event → Option Answer
  | .check key now => some ⟨key, now, (limiter.check key now).1⟩
  | .evict _ _ => none

/-- The limiter after an event. -/
def afterEvent (limiter : RateLimiter) : Event → RateLimiter
  | .check key now => (limiter.check key now).2
  | .evict now idle => limiter.evict now idle

/-- The answers to the checks of a run. -/
def answers : RateLimiter → List Event → List Answer
  | _, [] => []
  | limiter, event :: rest =>
      (limiter.answer? event).toList ++ answers (limiter.afterEvent event) rest

/-- The limiter after a run. -/
def after (limiter : RateLimiter) (events : List Event) : RateLimiter :=
  events.foldl afterEvent limiter

/-- A limiter with one bucket for each key at most. -/
def Unique (limiter : RateLimiter) : Prop :=
  (limiter.buckets.map (·.1)).Nodup

variable {limiter other : RateLimiter} {key : BucketKey} {event : Event} {events : List Event}
  {now idle : Nat}

/-! ## Buckets by key -/

private theorem find?_putBucket (key other : BucketKey) (bucket : TokenBucket)
    (buckets : List (BucketKey × TokenBucket)) :
    ((putBucket key bucket buckets).find? fun entry => entry.1 = other).map (·.2) =
      if other = key then some bucket
      else (buckets.find? fun entry => entry.1 = other).map (·.2) := by
  induction buckets with
  | nil =>
      by_cases same : other = key
      · simp [putBucket, same]
      · simp [putBucket, same, Ne.symm same]
  | cons entry rest induction =>
      obtain ⟨first, old⟩ := entry
      rw [putBucket]
      by_cases is_first : first = key
      · subst is_first
        by_cases same : other = first
        · simp [same]
        · simp [same, Ne.symm same]
      · rw [if_neg is_first, List.find?_cons, List.find?_cons]
        by_cases same : first = other
        · subst same
          simp [is_first]
        · simpa [same] using induction

theorem mem_putBucket {bucket : TokenBucket} {buckets : List (BucketKey × TokenBucket)}
    {found : BucketKey × TokenBucket} (member : found ∈ putBucket key bucket buckets) :
    found.1 = key ∨ found ∈ buckets := by
  induction buckets with
  | nil =>
      obtain rfl := List.mem_singleton.mp member
      exact .inl rfl
  | cons entry rest induction =>
      rw [putBucket] at member
      split_ifs at member with is_first
      · rcases List.mem_cons.mp member with rfl | in_rest
        · exact .inl rfl
        · exact .inr (List.mem_cons_of_mem entry in_rest)
      · rcases List.mem_cons.mp member with rfl | in_rest
        · exact .inr List.mem_cons_self
        · exact (induction in_rest).imp_right (List.mem_cons_of_mem entry)

private theorem nodup_putBucket {key : BucketKey} (bucket : TokenBucket)
    {buckets : List (BucketKey × TokenBucket)} (nodup : (buckets.map (·.1)).Nodup) :
    ((putBucket key bucket buckets).map (·.1)).Nodup := by
  induction buckets with
  | nil => simp [putBucket]
  | cons entry rest induction =>
      obtain ⟨first, old⟩ := entry
      rw [List.map_cons, List.nodup_cons] at nodup
      rw [putBucket]
      split_ifs with is_first
      · rw [List.map_cons, List.nodup_cons]
        exact is_first ▸ nodup
      · rw [List.map_cons, List.nodup_cons]
        refine ⟨fun member => ?_, induction nodup.2⟩
        obtain ⟨found, found_in, same⟩ := List.mem_map.mp member
        rcases mem_putBucket found_in with is_key | in_rest
        · exact is_first (same.symm.trans is_key)
        · exact nodup.1 (same ▸ List.mem_map_of_mem in_rest)

private theorem find?_filter_of_nodup {buckets : List (BucketKey × TokenBucket)}
    (nodup : (buckets.map (·.1)).Nodup) (key : BucketKey) (keep : TokenBucket → Bool) :
    ((buckets.filter fun entry => keep entry.2).find? fun entry => entry.1 = key).map (·.2) =
      ((buckets.find? fun entry => entry.1 = key).map (·.2)).filter keep := by
  induction buckets with
  | nil => rfl
  | cons entry rest induction =>
      rw [List.map_cons, List.nodup_cons] at nodup
      have others := induction nodup.2
      by_cases is_key : entry.1 = key
      · have absent : rest.find? (fun entry => entry.1 = key) = none := by
          refine List.find?_eq_none.mpr fun found found_in => ?_
          rw [decide_eq_true_eq]
          exact fun same => nodup.1 ((same.trans is_key.symm) ▸ List.mem_map_of_mem found_in)
        rw [absent] at others
        rw [List.filter_cons, List.find?_cons_of_pos (by simpa using is_key)]
        split_ifs with kept
        · rw [List.find?_cons_of_pos (by simpa using is_key), Option.map_some, Option.filter_some,
            if_pos kept]
        · rw [others, Option.map_some, Option.filter_some, if_neg kept]
          rfl
      · rw [List.filter_cons, List.find?_cons_of_neg (by simpa using is_key)]
        split_ifs
        · rw [List.find?_cons_of_neg (by simpa using is_key)]
          exact others
        · exact others

/-! ## Checks -/

section

variable {limits : Limits}

/-- The bucket that a check of a key asks. -/
def bucketFor (limiter : RateLimiter) (key : BucketKey) (limits : Limits) (now : Nat) :
    TokenBucket :=
  (limiter.bucket? key).getD (.starting limits.rate limiter.interval now)

theorem check_of_limited (limited : limiter.allowances.limits? key.plan = some limits) (now : Nat) :
    limiter.check key now =
      (some ⟨key.plan, limits.rate, ((limiter.bucketFor key limits now).take now).1⟩,
        { limiter with
          buckets := putBucket key ((limiter.bucketFor key limits now).take now).2
            limiter.buckets }) := by
  rw [check, limited]
  rfl

theorem check_of_unlimited (unlimited : limiter.allowances.limits? key.plan = none) (now : Nat) :
    limiter.check key now = (none, limiter) := by
  rw [check, unlimited]

end

@[simp]
theorem allowances_afterEvent (limiter : RateLimiter) (event : Event) :
    (limiter.afterEvent event).allowances = limiter.allowances := by
  cases event with
  | check key now =>
      rw [afterEvent, check]
      split <;> rfl
  | evict now idle => rfl

@[simp]
theorem interval_afterEvent (limiter : RateLimiter) (event : Event) :
    (limiter.afterEvent event).interval = limiter.interval := by
  cases event with
  | check key now =>
      rw [afterEvent, check]
      split <;> rfl
  | evict now idle => rfl

theorem Unique.afterEvent (unique : limiter.Unique) (event : Event) :
    (limiter.afterEvent event).Unique := by
  cases event with
  | check key now =>
      rw [RateLimiter.afterEvent, check]
      split
      · exact unique
      · exact nodup_putBucket _ unique
  | evict now idle => exact unique.sublist (List.filter_sublist.map _)

/-- A check changes the bucket of its own key only. -/
theorem bucket?_check_of_ne {found : BucketKey} (ne : found ≠ key) (now : Nat) :
    (limiter.check key now).2.bucket? found = limiter.bucket? found := by
  rw [check]
  split
  · rfl
  · rw [bucket?, find?_putBucket, if_neg ne, bucket?]

theorem bucket?_check {limits : Limits}
    (limited : limiter.allowances.limits? key.plan = some limits) (now : Nat) :
    (limiter.check key now).2.bucket? key =
      some ((limiter.bucketFor key limits now).take now).2 := by
  rw [check_of_limited limited, bucket?, find?_putBucket, if_pos rfl]

/-- An eviction judges every bucket by itself. -/
theorem bucket?_evict (unique : limiter.Unique) (key : BucketKey) (now idle : Nat) :
    (limiter.evict now idle).bucket? key =
      (limiter.bucket? key).filter fun bucket => !bucket.isIdle now idle :=
  find?_filter_of_nodup unique key fun bucket => !bucket.isIdle now idle

/-! ## Keys apart -/

/-- Two limiters that treat a key alike. -/
structure AgreesOn (key : BucketKey) (limiter other : RateLimiter) : Prop where
  /-- They have the same allowances. -/
  allowances : limiter.allowances = other.allowances
  /-- They have the same time between refills. -/
  interval : limiter.interval = other.interval
  /-- They have the same bucket for the key. -/
  bucket : limiter.bucket? key = other.bucket? key
  /-- The first one has one bucket for each key. -/
  unique : limiter.Unique
  /-- The second one has one bucket for each key. -/
  other_unique : other.Unique

/-- Limiters that treat a key alike do so after an event that concerns it. -/
theorem AgreesOn.afterEvent (agrees : AgreesOn key limiter other) (event : Event) :
    AgreesOn key (limiter.afterEvent event) (other.afterEvent event) where
  allowances := by rw [allowances_afterEvent, allowances_afterEvent, agrees.allowances]
  interval := by rw [interval_afterEvent, interval_afterEvent, agrees.interval]
  bucket := by
    cases event with
    | check found now =>
        by_cases same : key = found
        · subst same
          rw [RateLimiter.afterEvent, RateLimiter.afterEvent]
          cases limited : limiter.allowances.limits? key.plan with
          | none =>
              rw [check_of_unlimited limited, check_of_unlimited (agrees.allowances ▸ limited)]
              exact agrees.bucket
          | some limits =>
              rw [bucket?_check limited, bucket?_check (agrees.allowances ▸ limited), bucketFor,
                bucketFor, agrees.bucket, agrees.interval]
        · rw [RateLimiter.afterEvent, RateLimiter.afterEvent, bucket?_check_of_ne same,
            bucket?_check_of_ne same]
          exact agrees.bucket
    | evict now idle =>
        rw [RateLimiter.afterEvent, RateLimiter.afterEvent, bucket?_evict agrees.unique,
          bucket?_evict agrees.other_unique, agrees.bucket]
  unique := agrees.unique.afterEvent event
  other_unique := agrees.other_unique.afterEvent event

end RateLimiter

end StationGateway.Quota
