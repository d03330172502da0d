/-!
# Token buckets

A bucket is filled up once in every interval, and each request takes a token as long as there is
one. Instants and durations are natural numbers in one unit of time. -/

namespace StationGateway.Quota

/-- A bucket that is filled up at the start of every interval. -/
structure TokenBucket where
  /-- The tokens of a full bucket. -/
  capacity : Nat
  /-- The time between refills. -/
  interval : Nat
  /-- The tokens left. -/
  tokens : Nat
  /-- When the next refill is due. -/
  nextRefill : Nat
  /-- When a token was asked for last. -/
  lastUsed : Nat
  deriving DecidableEq, Repr

/-- The answer to a request for a token. -/
structure Probe where
  /-- Whether a token was taken. -/
  consumed : Bool
  /-- The tokens left. -/
  remaining : Nat
  /-- The time until the next refill. -/
  resetIn : Nat
  deriving DecidableEq, Repr

namespace TokenBucket

/-- A full bucket. -/
def starting (capacity interval now : Nat) : TokenBucket :=
  { capacity, interval, tokens := capacity, nextRefill := now + interval, lastUsed := now }

/-- The number of values of the counter of refills. -/
def refillCounter : Nat := 0x100000000

/-- The number of refills that are due when the first of them is `late`. It is counted in 32 bits.
-/
def dueRefills (interval late : Nat) : Nat :=
  (late / max interval 1 + 1) % refillCounter

/-- The bucket after the refills that are due. -/
def refilled (bucket : TokenBucket) (now : Nat) : TokenBucket :=
  if bucket.nextRefill ≤ now then
    { bucket with
      tokens := bucket.capacity
      nextRefill := bucket.nextRefill +
        bucket.interval * dueRefills bucket.interval (now - bucket.nextRefill) }
  else bucket

/-- Asks for a token. -/
def take (bucket : TokenBucket) (now : Nat) : Probe × TokenBucket :=
  let full := bucket.refilled now
  let left := full.tokens - 1
  ({ consumed := 0 < full.tokens, remaining := left, resetIn := full.nextRefill - now },
    { full with tokens := left, lastUsed := now })

/-- Whether nobody has asked for a token for some time. -/
def isIdle (bucket : TokenBucket) (now idle : Nat) : Bool :=
  idle ≤ now - bucket.lastUsed

end TokenBucket

end StationGateway.Quota
