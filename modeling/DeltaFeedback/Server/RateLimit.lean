import DeltaFeedback.Text.Bytes
import Mathlib.Algebra.Order.Ring.Rat
import Mathlib.Logic.Function.Basic

namespace DeltaFeedback.Server

open Text

-- The clock of `last` counts nanoseconds; token counts are taken as exact.
structure Bucket where
  tokens : ℚ
  last : Int
deriving DecidableEq

-- A key that is not in the map yet reads as an empty bucket at time 0.
structure TokenBucket where
  rate : ℚ
  burst : ℚ
  buckets : Bytes → Bucket

namespace TokenBucket

def new (rate burst : ℚ) : TokenBucket := ⟨rate, burst, fun _ => ⟨0, 0⟩⟩

variable (limiter : TokenBucket)

def refill (b : Bucket) (now : Int) : Bucket :=
  if b.last = 0 then ⟨limiter.burst, now⟩
  else
    let dt : ℚ := (now - b.last : Int) / 1000000000
    ⟨min limiter.burst (b.tokens + dt * limiter.rate), now⟩

def allow (now : Int) (key : Bytes) : Bool × TokenBucket :=
  let b := limiter.refill (limiter.buckets key) now
  if b.tokens ≥ 1 then
    (true, { limiter with
      buckets := Function.update limiter.buckets key { b with tokens := b.tokens - 1 } })
  else (false, { limiter with buckets := Function.update limiter.buckets key b })

end TokenBucket

end DeltaFeedback.Server
