import Mathlib.Tactic.Ring
import Citadel.Data.Bytes
import Citadel.Data.Meter
import Citadel.Keystore.Policy

/-!
# The rate limiter

Every request takes a token from the bucket of its address, from that of its API key and from
one for the whole system. The buckets refill lazily, a request that a later bucket refuses has
used up the earlier tokens, and a cleanup drops the buckets that were idle for five minutes; a
dropped bucket comes back full. Tokens are exact rationals, instants are nanoseconds.

What a limiter does is told by its levels: how many tokens each bucket would show at an instant.
-/

namespace Citadel

open Machine

/-- `IpAddr`. -/
inductive IpAddr where
  | v4 (octets : SizedBytes 4)
  | v6 (octets : SizedBytes 16)
  deriving DecidableEq, Repr

/-- The seconds from one instant to another (`duration_since(..).as_secs_f64()`). -/
def secondsBetween (earlier later : ℕ) : ℚ := ((later - earlier : ℕ) : ℚ) / second

/-! ### Buckets -/

/-- `TokenBucket`. -/
structure TokenBucket where
  tokens : ℚ
  lastRefill : ℕ
  deriving DecidableEq, Repr

namespace TokenBucket

/-- The bucket with what its rate has added since the last time. -/
def refill (bucket : TokenBucket) (rps burst : ℚ) (now : ℕ) : TokenBucket :=
  ⟨min (bucket.tokens + secondsBetween bucket.lastRefill now * rps) burst, now⟩

/-- Refill the bucket and take a token if there is one. -/
def take (bucket : TokenBucket) (rps burst : ℚ) (now : ℕ) : Bool × TokenBucket :=
  let refilled := bucket.refill rps burst now
  if refilled.tokens < 1 then (false, refilled)
  else (true, { refilled with tokens := refilled.tokens - 1 })

/-- Whether a cleanup drops the bucket. -/
def idle (bucket : TokenBucket) (now : ℕ) : Bool := 300 ≤ asSecs (now - bucket.lastRefill)

end TokenBucket

/-! ### The limiter -/

/-- `RateLimiter`. -/
structure RateLimiter where
  ipBuckets : IpAddr → Option TokenBucket
  keyBuckets : String → Option TokenBucket
  globalBucket : TokenBucket
  rpsPerIp : ℚ
  rpsPerKey : ℚ
  rpsGlobal : ℚ
  burst : UInt32

namespace RateLimiter

/-- `RateLimiter::new`. -/
def new (rpsPerIp : ℚ) (burst : UInt32) (now : ℕ) : RateLimiter where
  ipBuckets _ := none
  keyBuckets _ := none
  globalBucket := ⟨(burst * 10).toNat, now⟩
  rpsPerIp := rpsPerIp
  rpsPerKey := rpsPerIp * 5
  rpsGlobal := rpsPerIp * 50
  burst := burst

/-- Check 1 of `check`: the bucket of the address. -/
def checkIp (limiter : RateLimiter) (ip : IpAddr) (now : ℕ) : Bool × RateLimiter :=
  let bucket := (limiter.ipBuckets ip).getD ⟨limiter.burst.toNat, now⟩
  let (passed, bucket) := bucket.take limiter.rpsPerIp limiter.burst.toNat now
  (passed, { limiter with ipBuckets := Function.update limiter.ipBuckets ip (some bucket) })

/-- Check 2 of `check`: the bucket of the API key. -/
def checkKey (limiter : RateLimiter) (key : String) (now : ℕ) : Bool × RateLimiter :=
  let bucket := (limiter.keyBuckets key).getD ⟨(limiter.burst * 5).toNat, now⟩
  let (passed, bucket) := bucket.take limiter.rpsPerKey (limiter.burst * 5).toNat now
  (passed, { limiter with keyBuckets := Function.update limiter.keyBuckets key (some bucket) })

/-- Check 3 of `check`: the bucket of the system. -/
def checkGlobal (limiter : RateLimiter) (now : ℕ) : Bool × RateLimiter :=
  let (passed, bucket) :=
    limiter.globalBucket.take limiter.rpsGlobal (limiter.burst * 10).toNat now
  (passed, { limiter with globalBucket := bucket })

/-- `RateLimiter::check`. -/
def check (limiter : RateLimiter) (ip : IpAddr) (keyId : Option String) (now : ℕ) :
    Bool × RateLimiter :=
  match limiter.checkIp ip now with
  | (false, limiter) => (false, limiter)
  | (true, limiter) =>
      match keyId with
      | none => limiter.checkGlobal now
      | some key =>
          match limiter.checkKey key now with
          | (false, limiter) => (false, limiter)
          | (true, limiter) => limiter.checkGlobal now

/-- `cleanup_rate_limiter`. -/
def cleanup (limiter : RateLimiter) (now : ℕ) : RateLimiter :=
  { limiter with
    ipBuckets := fun ip => (limiter.ipBuckets ip).filter fun bucket => !bucket.idle now
    keyBuckets := fun key => (limiter.keyBuckets key).filter fun bucket => !bucket.idle now }

end RateLimiter

/-- What is done with a limiter. -/
inductive LimiterCall where
  | check (ip : IpAddr) (keyId : Option String)
  | cleanup
  deriving DecidableEq, Repr

/-- A call at an instant. -/
structure LimiterStep where
  call : LimiterCall
  now : ℕ
  deriving DecidableEq, Repr

/-- A limiter answers a check. -/
def RateLimiter.serve (limiter : RateLimiter) (step : LimiterStep) : Option Bool × RateLimiter :=
  match step.call with
  | .check ip keyId =>
      (some (limiter.check ip keyId step.now).1, (limiter.check ip keyId step.now).2)
  | .cleanup => (none, limiter.cleanup step.now)

/-- A limiter whose cleanups drop nothing. -/
def RateLimiter.serveKeeping (limiter : RateLimiter) (step : LimiterStep) :
    Option Bool × RateLimiter :=
  match step.call with
  | .check _ _ => limiter.serve step
  | .cleanup => (none, limiter)

/-! ### Levels -/

/-- What a limit is for. -/
inductive Tier where
  | ip (ip : IpAddr)
  | key (id : String)
  | system
  deriving DecidableEq, Repr

/-- The tokens that a bucket would show at an instant; one that is not there would be full. -/
def levelOf (rps burst : ℚ) (bucket : Option TokenBucket) (now : ℕ) : ℚ :=
  match bucket with
  | none => burst
  | some bucket => (bucket.refill rps burst now).tokens

/-- The tokens later in a bucket from which one was wanted. -/
def levelAfter (rps burst level : ℚ) (now later : ℕ) : ℚ :=
  min ((if 1 ≤ level then level - 1 else level) + secondsBetween now later * rps) burst

section Buckets

variable {rps burst : ℚ} {bucket : Option TokenBucket} {now later : ℕ}

theorem secondsBetween_nonneg (earlier later : ℕ) : 0 ≤ secondsBetween earlier later :=
  div_nonneg (Nat.cast_nonneg _) (Nat.cast_nonneg _)

@[simp] theorem secondsBetween_self (now : ℕ) : secondsBetween now now = 0 := by
  simp [secondsBetween]

@[simp] theorem levelOf_none : levelOf rps burst none now = burst := rfl

theorem levelOf_some (bucket : TokenBucket) :
    levelOf rps burst (some bucket) now = (bucket.refill rps burst now).tokens := rfl

theorem levelOf_le_burst : levelOf rps burst bucket now ≤ burst := by
  cases bucket with
  | none => exact le_refl burst
  | some bucket => exact min_le_right _ _

/-- There is a token to take when the level says so. -/
theorem take_passed (bucket : TokenBucket) :
    (bucket.take rps burst now).1 = decide (1 ≤ levelOf rps burst (some bucket) now) := by
  rw [levelOf_some, TokenBucket.take]
  by_cases enough : 1 ≤ (bucket.refill rps burst now).tokens
  · simp only [if_neg (not_lt.mpr enough), decide_eq_true enough]
  · simp only [if_pos (not_le.mp enough), decide_eq_false enough]

/-- The level after a token was wanted is told by the level before. -/
theorem levelOf_take (bucket : TokenBucket) :
    levelOf rps burst (some (bucket.take rps burst now).2) later =
      levelAfter rps burst (levelOf rps burst (some bucket) now) now later := by
  rw [levelOf_some, levelOf_some, TokenBucket.take, levelAfter]
  by_cases enough : 1 ≤ (bucket.refill rps burst now).tokens
  · simp only [if_neg (not_lt.mpr enough), if_pos enough]
    rfl
  · simp only [if_pos (not_le.mp enough), if_neg enough]
    rfl

/-- A bucket that comes back full shows what its absence stands for. -/
theorem levelOf_getD :
    levelOf rps burst (some (bucket.getD ⟨burst, now⟩)) now = levelOf rps burst bucket now := by
  cases bucket with
  | none => simp [levelOf, TokenBucket.refill]
  | some bucket => rfl

/-- A level grows by no more than the rate allows. -/
theorem levelOf_refills (rate_nonneg : 0 ≤ rps) (ordered : now ≤ later) :
    levelOf rps burst bucket later ≤
      levelOf rps burst bucket now + rps / second * (later - now) := by
  have gain : 0 ≤ rps / second * ((later : ℚ) - now) := by
    apply mul_nonneg (div_nonneg rate_nonneg (Nat.cast_nonneg _))
    exact sub_nonneg.mpr (Nat.cast_le.mpr ordered)
  cases bucket with
  | none =>
      simp only [levelOf]
      linarith
  | some bucket =>
      have longer : ((later - bucket.lastRefill : ℕ) : ℚ) ≤
          ((now - bucket.lastRefill : ℕ) : ℚ) + ((later : ℚ) - now) := by
        have split : later - bucket.lastRefill ≤ (now - bucket.lastRefill) + (later - now) := by
          omega
        rw [← Nat.cast_sub ordered, ← Nat.cast_add]
        exact Nat.cast_le.mpr split
      have added : secondsBetween bucket.lastRefill later * rps ≤
          secondsBetween bucket.lastRefill now * rps + rps / second * ((later : ℚ) - now) := by
        have scaled := mul_le_mul_of_nonneg_right longer
          (div_nonneg rate_nonneg (Nat.cast_nonneg second))
        have left : secondsBetween bucket.lastRefill later * rps =
            ((later - bucket.lastRefill : ℕ) : ℚ) * (rps / second) := by
          rw [secondsBetween]
          ring
        have right : secondsBetween bucket.lastRefill now * rps =
            ((now - bucket.lastRefill : ℕ) : ℚ) * (rps / second) := by
          rw [secondsBetween]
          ring
        rw [left, right]
        linarith
      simp only [levelOf, TokenBucket.refill]
      rw [← min_add_add_right]
      apply min_le_min
      · linarith
      · linarith

/-- A level does not fall while nothing is taken. -/
theorem levelOf_mono (rate_nonneg : 0 ≤ rps) (ordered : now ≤ later) :
    levelOf rps burst bucket now ≤ levelOf rps burst bucket later := by
  cases bucket with
  | none => exact le_refl burst
  | some bucket =>
      apply min_le_min _ (le_refl burst)
      have longer :
          secondsBetween bucket.lastRefill now ≤ secondsBetween bucket.lastRefill later := by
        apply div_le_div_of_nonneg_right _ (Nat.cast_nonneg _)
        exact Nat.cast_le.mpr (Nat.sub_le_sub_right ordered _)
      have added := mul_le_mul_of_nonneg_right longer rate_nonneg
      linarith

theorem levelAfter_nonneg {level : ℚ} (rate_nonneg : 0 ≤ rps) (burst_nonneg : 0 ≤ burst)
    (level_nonneg : 0 ≤ level) : 0 ≤ levelAfter rps burst level now later := by
  have added := mul_nonneg (secondsBetween_nonneg now later) rate_nonneg
  apply le_min _ burst_nonneg
  split
  · linarith
  · linarith

/-- Whoever gets a token leaves one less. -/
theorem levelAfter_charge {level : ℚ} (below : level ≤ burst) :
    levelAfter rps burst level now now + (if 1 ≤ level then 1 else 0) = level := by
  rw [levelAfter, secondsBetween_self, zero_mul, add_zero]
  split
  · rw [min_eq_left]
    · linarith
    · linarith
  · rw [min_eq_left below, add_zero]

end Buckets

namespace RateLimiter

/-- The rate of a limit. -/
def rps (limiter : RateLimiter) : Tier → ℚ
  | .ip _ => limiter.rpsPerIp
  | .key _ => limiter.rpsPerKey
  | .system => limiter.rpsGlobal

/-- The burst of a limit. -/
def tierBurst (limiter : RateLimiter) : Tier → ℚ
  | .ip _ => limiter.burst.toNat
  | .key _ => (limiter.burst * 5).toNat
  | .system => (limiter.burst * 10).toNat

/-- The bucket of a limit. -/
def bucket (limiter : RateLimiter) : Tier → Option TokenBucket
  | .ip ip => limiter.ipBuckets ip
  | .key id => limiter.keyBuckets id
  | .system => some limiter.globalBucket

/-- The tokens that a limit would show at an instant. -/
def level (limiter : RateLimiter) (tier : Tier) (now : ℕ) : ℚ :=
  levelOf (limiter.rps tier) (limiter.tierBurst tier) (limiter.bucket tier) now

/-- Whether a limit has a token left. -/
def passes (limiter : RateLimiter) (now : ℕ) (tier : Tier) : Bool := 1 ≤ limiter.level tier now

/-- The tokens that a limit shows later when one was wanted of it. -/
def wanting (limiter : RateLimiter) (tier : Tier) (now later : ℕ) : ℚ :=
  levelAfter (limiter.rps tier) (limiter.tierBurst tier) (limiter.level tier now) now later

/-- Two limiters with the same rates and the same burst. -/
structure SameLimits (left right : RateLimiter) : Prop where
  rps : left.rps = right.rps
  burst : left.tierBurst = right.tierBurst

theorem SameLimits.refl (limiter : RateLimiter) : SameLimits limiter limiter := ⟨rfl, rfl⟩

theorem SameLimits.trans {first second third : RateLimiter} (left : SameLimits first second)
    (right : SameLimits second third) : SameLimits first third :=
  ⟨left.rps.trans right.rps, left.burst.trans right.burst⟩

theorem SameLimits.symm {left right : RateLimiter} (same : SameLimits left right) :
    SameLimits right left := ⟨same.rps.symm, same.burst.symm⟩

/-- What one of the three checks does: it wants a token of one limit and leaves the others. -/
structure Wants (limiter : RateLimiter) (wanted : Tier) (now : ℕ) (result : Bool × RateLimiter) :
    Prop where
  passed : result.1 = limiter.passes now wanted
  same : SameLimits result.2 limiter
  level : ∀ tier later, result.2.level tier later =
    if tier = wanted then limiter.wanting tier now later else limiter.level tier later

section Checks

variable {limiter : RateLimiter} {now : ℕ}

/-- The bucket of a limit, made full where there is none. -/
def present (limiter : RateLimiter) (tier : Tier) (now : ℕ) : TokenBucket :=
  (limiter.bucket tier).getD ⟨limiter.tierBurst tier, now⟩

/-- A check that takes from the bucket of one limit wants a token of it. -/
theorem Wants.of_take {wanted : Tier} {result : Bool × RateLimiter}
    (passed : result.1 =
      ((limiter.present wanted now).take (limiter.rps wanted) (limiter.tierBurst wanted) now).1)
    (same : SameLimits result.2 limiter)
    (own : result.2.bucket wanted = some
      ((limiter.present wanted now).take (limiter.rps wanted) (limiter.tierBurst wanted) now).2)
    (others : ∀ tier, tier ≠ wanted → result.2.bucket tier = limiter.bucket tier) :
    Wants limiter wanted now result := by
  apply Wants.mk _ same
  · intro tier later
    rw [RateLimiter.level, same.rps, same.burst]
    by_cases equal : tier = wanted
    · rw [if_pos equal, equal, own, levelOf_take, present, levelOf_getD]
      rfl
    · rw [if_neg equal, others tier equal]
      rfl
  · rw [passed, take_passed, present, levelOf_getD]
    rfl

theorem checkIp_wants (ip : IpAddr) : Wants limiter (.ip ip) now (limiter.checkIp ip now) := by
  apply Wants.of_take
  · rfl
  · exact ⟨rfl, rfl⟩
  · exact Function.update_self ip _ limiter.ipBuckets
  · intro tier other
    cases tier with
    | ip address =>
        apply Function.update_of_ne
        rintro rfl
        exact other rfl
    | key id => rfl
    | system => rfl

theorem checkKey_wants (key : String) :
    Wants limiter (.key key) now (limiter.checkKey key now) := by
  apply Wants.of_take
  · rfl
  · exact ⟨rfl, rfl⟩
  · exact Function.update_self key _ limiter.keyBuckets
  · intro tier other
    cases tier with
    | ip address => rfl
    | key id =>
        apply Function.update_of_ne
        rintro rfl
        exact other rfl
    | system => rfl

theorem checkGlobal_wants : Wants limiter .system now (limiter.checkGlobal now) := by
  apply Wants.of_take
  · rfl
  · exact ⟨rfl, rfl⟩
  · rfl
  · intro tier other
    cases tier with
    | ip address => rfl
    | key id => rfl
    | system => exact absurd rfl other

/-- Whether a check asks for a token of a limit: a refusal ends the check. -/
def asks (limiter : RateLimiter) (ip : IpAddr) (keyId : Option String) (now : ℕ) : Tier → Bool
  | .ip other => ip = other
  | .key id => limiter.passes now (.ip ip) && keyId = some id
  | .system => limiter.passes now (.ip ip) && keyId.all fun key => limiter.passes now (.key key)

/-- A later check sees the level of another limit as it was. -/
theorem Wants.passes_other {wanted tier : Tier} {result : Bool × RateLimiter}
    (wants : Wants limiter wanted now result) (other : tier ≠ wanted) :
    result.2.passes now tier = limiter.passes now tier := by
  rw [passes, passes, wants.level, if_neg other]

theorem Wants.wanting_other {wanted tier : Tier} {result : Bool × RateLimiter} {later : ℕ}
    (wants : Wants limiter wanted now result) (other : tier ≠ wanted) :
    result.2.wanting tier now later = limiter.wanting tier now later := by
  rw [RateLimiter.wanting, RateLimiter.wanting, wants.level, if_neg other, wants.same.rps,
    wants.same.burst]

/-- A check whose first limit has no token. -/
theorem check_of_ip_refused {ip : IpAddr} (refused : limiter.passes now (.ip ip) = false)
    (keyId : Option String) : limiter.check ip keyId now = (false, (limiter.checkIp ip now).2) := by
  have first : limiter.checkIp ip now = (false, (limiter.checkIp ip now).2) :=
    Prod.ext ((checkIp_wants ip).passed.trans refused) rfl
  rw [check, first]

/-- A check without a key whose first limit has a token. -/
theorem check_of_no_key {ip : IpAddr} (passed : limiter.passes now (.ip ip) = true) :
    limiter.check ip none now = (limiter.checkIp ip now).2.checkGlobal now := by
  have first : limiter.checkIp ip now = (true, (limiter.checkIp ip now).2) :=
    Prod.ext ((checkIp_wants ip).passed.trans passed) rfl
  rw [check, first]

/-- A check with a key whose first limit has a token. -/
theorem check_of_key {ip : IpAddr} (passed : limiter.passes now (.ip ip) = true) (key : String) :
    limiter.check ip (some key) now =
      if limiter.passes now (.key key) then
        ((limiter.checkIp ip now).2.checkKey key now).2.checkGlobal now
      else (false, ((limiter.checkIp ip now).2.checkKey key now).2) := by
  have first : limiter.checkIp ip now = (true, (limiter.checkIp ip now).2) :=
    Prod.ext ((checkIp_wants ip).passed.trans passed) rfl
  have second :
      ((limiter.checkIp ip now).2.checkKey key now).1 = limiter.passes now (.key key) := by
    rw [(checkKey_wants key).passed, (checkIp_wants ip).passes_other (by simp)]
  cases admitted : limiter.passes now (.key key) with
  | false =>
      have checked : (limiter.checkIp ip now).2.checkKey key now =
          (false, ((limiter.checkIp ip now).2.checkKey key now).2) :=
        Prod.ext (second.trans admitted) rfl
      rw [check, first]
      dsimp only
      rw [checked]
      rfl
  | true =>
      have checked : (limiter.checkIp ip now).2.checkKey key now =
          (true, ((limiter.checkIp ip now).2.checkKey key now).2) :=
        Prod.ext (second.trans admitted) rfl
      rw [check, first]
      dsimp only
      rw [checked]
      rfl

/-- What `check` does, told by the levels before it: it is granted when every limit that counts
it has a token, and every limit it asks is wanted one of. -/
structure Checked (limiter : RateLimiter) (ip : IpAddr) (keyId : Option String) (now : ℕ)
    (result : Bool × RateLimiter) : Prop where
  granted : result.1 = (limiter.passes now (.ip ip) &&
    keyId.all (fun key => limiter.passes now (.key key)) && limiter.passes now .system)
  same : SameLimits result.2 limiter
  level : ∀ tier later, result.2.level tier later =
    if limiter.asks ip keyId now tier then limiter.wanting tier now later
    else limiter.level tier later

theorem check_checked (ip : IpAddr) (keyId : Option String) :
    Checked limiter ip keyId now (limiter.check ip keyId now) := by
  have first : Wants limiter (.ip ip) now (limiter.checkIp ip now) := checkIp_wants ip
  cases passed : limiter.passes now (.ip ip) with
  | false =>
      rw [check_of_ip_refused passed]
      constructor
      · simp [passed]
      · exact first.same
      · intro tier later
        rw [first.level]
        cases tier with
        | ip other => simp [asks, eq_comm]
        | key id => simp [asks, passed]
        | system => simp [asks, passed]
  | true =>
      cases keyId with
      | none =>
          rw [check_of_no_key passed]
          constructor
          · rw [checkGlobal_wants.passed, first.passes_other (by simp)]
            simp [passed]
          · exact checkGlobal_wants.same.trans first.same
          · intro tier later
            rw [checkGlobal_wants.level]
            cases tier with
            | ip other => simp [asks, first.level, eq_comm]
            | key id => simp [asks, first.level]
            | system => simp [asks, passed, first.wanting_other]
      | some key =>
          have second : Wants (limiter.checkIp ip now).2 (.key key) now
              ((limiter.checkIp ip now).2.checkKey key now) := checkKey_wants key
          rw [check_of_key passed]
          cases admitted : limiter.passes now (.key key) with
          | false =>
              rw [if_neg (by simp)]
              constructor
              · simp [admitted]
              · exact second.same.trans first.same
              · intro tier later
                rw [second.level]
                cases tier with
                | ip other => simp [asks, first.level, eq_comm]
                | key id => simp [asks, passed, first.level, first.wanting_other, eq_comm]
                | system => simp [asks, passed, admitted, first.level]
          | true =>
              rw [if_pos rfl]
              constructor
              · rw [checkGlobal_wants.passed, second.passes_other (by simp),
                  first.passes_other (by simp)]
                simp [passed, admitted]
              · exact checkGlobal_wants.same.trans (second.same.trans first.same)
              · intro tier later
                rw [checkGlobal_wants.level]
                cases tier with
                | ip other => simp [asks, second.level, first.level, eq_comm]
                | key id =>
                    simp [asks, passed, second.level, first.level, first.wanting_other, eq_comm]
                | system =>
                    simp [asks, passed, admitted, second.wanting_other, first.wanting_other]

end Checks

/-! ### Cleanups -/

/-- The bucket of a limit would be full at an instant. -/
def Full (limiter : RateLimiter) (tier : Tier) (bucket : TokenBucket) (now : ℕ) : Prop :=
  limiter.tierBurst tier ≤
    bucket.tokens + secondsBetween bucket.lastRefill now * limiter.rps tier

/-- Every bucket that a cleanup drops would be full. -/
def DropsFull (limiter : RateLimiter) (now : ℕ) : Prop :=
  ∀ tier bucket, tier ≠ .system → limiter.bucket tier = some bucket → bucket.idle now = true →
    limiter.Full tier bucket now

section Cleanups

variable {limiter : RateLimiter} {now later : ℕ} {tier : Tier}

theorem cleanup_same : SameLimits (limiter.cleanup now) limiter := ⟨rfl, rfl⟩

/-- A cleanup drops the idle buckets of addresses and keys. -/
theorem cleanup_bucket (limiter : RateLimiter) (now : ℕ) (tier : Tier) :
    (limiter.cleanup now).bucket tier = limiter.bucket tier ∨
      (limiter.cleanup now).bucket tier = none ∧ tier ≠ .system ∧
        ∃ bucket, limiter.bucket tier = some bucket ∧ bucket.idle now = true := by
  have dropped : ∀ found : Option TokenBucket,
      (found.filter fun bucket => !bucket.idle now) = found ∨
        (found.filter fun bucket => !bucket.idle now) = none ∧
          ∃ bucket, found = some bucket ∧ bucket.idle now = true := by
    intro found
    cases found with
    | none => exact .inl rfl
    | some bucket =>
        cases idle : bucket.idle now with
        | false => exact .inl (by simp [idle])
        | true => exact .inr ⟨by simp [idle], bucket, rfl, idle⟩
  cases tier with
  | ip ip =>
      rcases dropped (limiter.ipBuckets ip) with kept | ⟨gone, idle⟩
      · exact .inl kept
      · exact .inr ⟨gone, by simp, idle⟩
  | key id =>
      rcases dropped (limiter.keyBuckets id) with kept | ⟨gone, idle⟩
      · exact .inl kept
      · exact .inr ⟨gone, by simp, idle⟩
  | system => exact .inl rfl

theorem level_cleanup_nonneg (tier : Tier) (burst_nonneg : 0 ≤ limiter.tierBurst tier)
    (level_nonneg : 0 ≤ limiter.level tier later) : 0 ≤ (limiter.cleanup now).level tier later := by
  rw [level, cleanup_same.rps, cleanup_same.burst]
  rcases cleanup_bucket limiter now tier with kept | ⟨gone, -, -⟩
  · rw [kept]
    exact level_nonneg
  · rw [gone]
    exact burst_nonneg

/-- A cleanup that drops full buckets only changes no level from then on. -/
theorem level_cleanup (rate_nonneg : 0 ≤ limiter.rps tier) (full : limiter.DropsFull now)
    (ordered : now ≤ later) :
    (limiter.cleanup now).level tier later = limiter.level tier later := by
  rw [level, level, cleanup_same.rps, cleanup_same.burst]
  rcases cleanup_bucket limiter now tier with kept | ⟨gone, limited, bucket, found, idle⟩
  · rw [kept]
  · have reached : limiter.tierBurst tier ≤
        levelOf (limiter.rps tier) (limiter.tierBurst tier) (limiter.bucket tier) now := by
      rw [found]
      exact le_min (full tier bucket limited found idle) (le_refl _)
    rw [gone, levelOf_none]
    apply le_antisymm
    · exact le_trans reached (levelOf_mono rate_nonneg ordered)
    · exact levelOf_le_burst

end Cleanups

end RateLimiter

end Citadel
