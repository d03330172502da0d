import StationGateway.Quota.Bucket
import StationGateway.Quota.Plan

/-!
# Rate limits

Every limited plan, caller, address and path has a bucket of its own, which comes into being with
the first request. The gateway counts instants in milliseconds. -/

namespace StationGateway.Quota

/-- What buckets are kept apart by. -/
structure BucketKey where
  /-- The plan. -/
  plan : Plan
  /-- The caller's name or referer. -/
  owner : String
  /-- The caller's address. -/
  address : String
  /-- The requested path. -/
  path : String
  deriving DecidableEq, Repr

/-- The answer of a limited plan. -/
structure RateLimit where
  /-- The plan. -/
  plan : Plan
  /-- The tokens of a full bucket. -/
  limit : Nat
  /-- What the bucket says. -/
  probe : Probe
  deriving DecidableEq, Repr

/-- The buckets in use. -/
structure RateLimiter where
  /-- What the plans allow. -/
  allowances : Allowances
  /-- The time between refills. -/
  interval : Nat
  /-- The buckets, each key once. -/
  buckets : List (BucketKey × TokenBucket)
  deriving Repr

/-- The milliseconds between refills. -/
def refillInterval : Nat := 1000

namespace RateLimiter

/-- No bucket yet. -/
def start (allowances : Allowances) : RateLimiter :=
  ⟨allowances, refillInterval, []⟩

/-- The bucket of a key. -/
def bucket? (limiter : RateLimiter) (key : BucketKey) : Option TokenBucket :=
  (limiter.buckets.find? fun entry => entry.1 = key).map (·.2)

/-- Buckets with one of them set. -/
def putBucket (key : BucketKey) (bucket : TokenBucket) :
    List (BucketKey × TokenBucket) → List (BucketKey × TokenBucket)
  | [] => [(key, bucket)]
  | (first, old) :: rest =>
      if first = key then (key, bucket) :: rest else (first, old) :: putBucket key bucket rest

/-- Takes a token for a request. An unrestricted plan takes none. -/
def check (limiter : RateLimiter) (key : BucketKey) (now : Nat) :
    Option RateLimit × RateLimiter :=
  match limiter.allowances.limits? key.plan with
  | none => (none, limiter)
  | some limits =>
      let bucket := (limiter.bucket? key).getD (.starting limits.rate limiter.interval now)
      let (probe, bucket) := bucket.take now
      (some ⟨key.plan, limits.rate, probe⟩,
        { limiter with buckets := putBucket key bucket limiter.buckets })

/-- The buckets without those that have been idle for some time. -/
def evict (limiter : RateLimiter) (now idle : Nat) : RateLimiter :=
  { limiter with buckets := limiter.buckets.filter fun entry => !entry.2.isIdle now idle }

/-- The number of buckets. -/
def size (limiter : RateLimiter) : Nat :=
  limiter.buckets.length

end RateLimiter

end StationGateway.Quota
