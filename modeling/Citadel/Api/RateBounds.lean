import Mathlib.Algebra.Order.Archimedean.Basic
import Citadel.Api.RateLimit

/-!
# What a rate limiter grants

Each limit is a meter, so no window of time sees more grants than its burst and what its rate
adds, as long as a cleanup drops full buckets only. A bucket that is dropped before it is full
comes back with more than it had: this is what happens for rates that do not fill the burst in
five minutes.
-/

namespace Citadel

open Machine

namespace RateLimiter

/-! ### Grants -/

/-- Whether a step is a check that the limiter granted and that a limit counts. -/
def grantedTo (tier : Tier) (step : LimiterStep) (answer : Option Bool) : Bool :=
  match step.call with
  | .cleanup => false
  | .check ip keyId =>
      answer = some true &&
        match tier with
        | .ip other => ip = other
        | .key id => keyId = some id
        | .system => true

/-- A cleanup drops no bucket that is not full. -/
def Allowed (limiter : RateLimiter) (step : LimiterStep) : Prop :=
  step.call = .cleanup → limiter.DropsFull step.now

/-- A limiter that was made with a rate and a burst, and has been used since. -/
structure Settled (rate : ℚ) (burst : UInt32) (limiter : RateLimiter) : Prop where
  same : SameLimits limiter (new rate burst 0)
  level_nonneg : ∀ tier now, 0 ≤ limiter.level tier now

section Runs

variable {rate : ℚ} {burst : UInt32} {limiter other : RateLimiter} {step : LimiterStep}
  {tier : Tier} {clock : ℕ}

theorem rps_new_nonneg (nonneg : 0 ≤ rate) (tier : Tier) : 0 ≤ (new rate burst 0).rps tier := by
  cases tier with
  | ip ip => exact nonneg
  | key id => exact mul_nonneg nonneg (by norm_num)
  | system => exact mul_nonneg nonneg (by norm_num)

theorem tierBurst_nonneg (tier : Tier) : 0 ≤ limiter.tierBurst tier := by
  cases tier with
  | ip ip => exact Nat.cast_nonneg _
  | key id => exact Nat.cast_nonneg _
  | system => exact Nat.cast_nonneg _

theorem Settled.rps_nonneg (settled : Settled rate burst limiter) (nonneg : 0 ≤ rate)
    (tier : Tier) : 0 ≤ limiter.rps tier := by
  rw [settled.same.rps]
  exact rps_new_nonneg nonneg tier

theorem level_le (tier : Tier) (now : ℕ) : limiter.level tier now ≤ limiter.tierBurst tier :=
  levelOf_le_burst

/-- A new limiter shows its bursts. -/
theorem level_new (start : ℕ) (nonneg : 0 ≤ rate) (tier : Tier) (now : ℕ) :
    (new rate burst start).level tier now = (new rate burst 0).tierBurst tier := by
  cases tier with
  | ip ip => rfl
  | key id => rfl
  | system =>
      apply min_eq_right
      have added : 0 ≤ secondsBetween start now * (rate * 50) :=
        mul_nonneg (secondsBetween_nonneg _ _) (mul_nonneg nonneg (by norm_num))
      exact le_add_of_nonneg_right added

theorem settled_new (burst : UInt32) (start : ℕ) (nonneg : 0 ≤ rate) :
    Settled rate burst (new rate burst start) := by
  constructor
  · exact ⟨rfl, rfl⟩
  · intro tier now
    rw [level_new start nonneg]
    exact tierBurst_nonneg tier

theorem Settled.serve (settled : Settled rate burst limiter) (nonneg : 0 ≤ rate)
    (step : LimiterStep) : Settled rate burst (limiter.serve step).2 := by
  obtain ⟨call, now⟩ := step
  cases call with
  | check ip keyId =>
      apply Settled.mk ((check_checked ip keyId).same.trans settled.same)
      intro tier later
      show 0 ≤ (limiter.check ip keyId now).2.level tier later
      rw [(check_checked ip keyId).level]
      split
      · exact levelAfter_nonneg (settled.rps_nonneg nonneg tier) (tierBurst_nonneg tier)
          (settled.level_nonneg tier now)
      · exact settled.level_nonneg tier later
  | cleanup =>
      apply Settled.mk (cleanup_same.trans settled.same)
      intro tier later
      exact level_cleanup_nonneg tier (tierBurst_nonneg tier) (settled.level_nonneg tier later)

theorem Settled.after (settled : Settled rate burst limiter) (nonneg : 0 ≤ rate)
    (steps : List LimiterStep) : Settled rate burst (after RateLimiter.serve limiter steps) := by
  induction steps generalizing limiter with
  | nil => exact settled
  | cons step rest ih => exact ih (settled.serve nonneg step)

/-- What is granted was asked of the limit, and the limit had a token. -/
theorem asked_of_granted {ip : IpAddr} {keyId : Option String} {now : ℕ}
    (granted : grantedTo tier ⟨.check ip keyId, now⟩ (some (limiter.check ip keyId now).1) = true) :
    limiter.asks ip keyId now tier = true ∧ limiter.passes now tier = true := by
  rw [(check_checked ip keyId).granted] at granted
  simp only [grantedTo, Bool.and_eq_true, decide_eq_true_eq, Option.some.injEq] at granted
  obtain ⟨⟨⟨address, key⟩, system⟩, counted⟩ := granted
  cases tier with
  | ip other =>
      have same : ip = other := by simpa using counted
      subst same
      exact ⟨by simp [asks], address⟩
  | key id =>
      have same : keyId = some id := by simpa using counted
      subst same
      exact ⟨by simp [asks, address], by simpa using key⟩
  | system => exact ⟨by simp [asks, address, key], system⟩

/-- A granted check leaves a token less; no step adds any. -/
theorem charge_serve (settled : Settled rate burst limiter) (nonneg : 0 ≤ rate)
    (allowed : Allowed limiter step) :
    (limiter.serve step).2.level tier step.now +
      (if grantedTo tier step (limiter.serve step).1 then 1 else 0) ≤
        limiter.level tier step.now := by
  obtain ⟨call, now⟩ := step
  cases call with
  | check ip keyId =>
      show (limiter.check ip keyId now).2.level tier now + (if grantedTo tier ⟨.check ip keyId, now⟩
        (some (limiter.check ip keyId now).1) then 1 else 0) ≤ limiter.level tier now
      have balance : limiter.wanting tier now now + (if 1 ≤ limiter.level tier now then 1 else 0) =
          limiter.level tier now := levelAfter_charge (level_le tier now)
      rw [(check_checked ip keyId).level]
      by_cases granted : grantedTo tier ⟨.check ip keyId, now⟩
          (some (limiter.check ip keyId now).1) = true
      · obtain ⟨asked, passed⟩ := asked_of_granted granted
        rw [if_pos asked, if_pos granted]
        rw [if_pos (of_decide_eq_true passed)] at balance
        exact le_of_eq balance
      · rw [if_neg granted, add_zero]
        split
        · have taken : (0 : ℚ) ≤ if 1 ≤ limiter.level tier now then 1 else 0 := by
            split
            · norm_num
            · exact le_refl 0
          linarith
        · exact le_refl _
  | cleanup =>
      show (limiter.cleanup now).level tier now + 0 ≤ limiter.level tier now
      rw [level_cleanup (settled.rps_nonneg nonneg tier) (allowed rfl) (le_refl _), add_zero]

/-- The meter of a limit. -/
def meter (nonneg : 0 ≤ rate) (tier : Tier) :
    Meter RateLimiter.serve LimiterStep.now (grantedTo tier) Allowed
      ((new rate burst 0).rps tier / second) ((new rate burst 0).tierBurst tier) where
  level limiter := limiter.level tier
  holds := Settled rate burst
  rate_nonneg := div_nonneg (rps_new_nonneg nonneg tier) (Nat.cast_nonneg _)
  level_nonneg _ now settled := settled.level_nonneg tier now
  level_le _ now settled := settled.same.burst ▸ level_le tier now
  refills _ _ _ settled ordered :=
    settled.same.rps ▸ levelOf_refills (settled.rps_nonneg nonneg tier) ordered
  charge _ _ settled allowed := charge_serve settled nonneg allowed
  keeps _ step settled _ := settled.serve nonneg step

/-! ### What cleanups change -/

/-- Two limiters of the same limits that show the same levels from an instant on. -/
structure Agree (rate : ℚ) (burst : UInt32) (clock : ℕ) (left right : RateLimiter) : Prop where
  settled : Settled rate burst left
  same : SameLimits left right
  level : ∀ tier now, clock ≤ now → left.level tier now = right.level tier now

/-- A check does the same to limiters that agree. -/
theorem Agree.check {now : ℕ} (agree : Agree rate burst clock limiter other) (nonneg : 0 ≤ rate)
    (next : clock ≤ now) (ip : IpAddr) (keyId : Option String) :
    (limiter.check ip keyId now).1 = (other.check ip keyId now).1 ∧
      Agree rate burst now (limiter.check ip keyId now).2 (other.check ip keyId now).2 := by
  have passes : ∀ tier, limiter.passes now tier = other.passes now tier := by
    intro tier
    rw [RateLimiter.passes, RateLimiter.passes, agree.level tier now next]
  have asks : ∀ tier, limiter.asks ip keyId now tier = other.asks ip keyId now tier := by
    intro tier
    cases tier with
    | ip address => rfl
    | key id => simp only [RateLimiter.asks, passes]
    | system => simp only [RateLimiter.asks, passes]
  have left : Checked limiter ip keyId now (limiter.check ip keyId now) := check_checked ip keyId
  have right : Checked other ip keyId now (other.check ip keyId now) := check_checked ip keyId
  constructor
  · rw [left.granted, right.granted]
    simp only [passes]
  · apply Agree.mk
    · exact agree.settled.serve nonneg ⟨.check ip keyId, now⟩
    · exact left.same.trans (agree.same.trans right.same.symm)
    · intro tier later ordered
      rw [left.level, right.level, asks, wanting, wanting, agree.same.rps, agree.same.burst,
        agree.level tier now next, agree.level tier later (Nat.le_trans next ordered)]

/-- A run whose cleanups drop full buckets only gets the answers it gets without them. -/
theorem answers_without_cleanup (nonneg : 0 ≤ rate) {start : ℕ} {steps : List LimiterStep}
    (ordered : (start :: steps.map LimiterStep.now).Pairwise (· ≤ ·))
    (along : Along RateLimiter.serve Allowed (new rate burst start) steps) :
    answers RateLimiter.serve (new rate burst start) steps =
      answers RateLimiter.serveKeeping (new rate burst start) steps := by
  apply answers_eq_of_along (Agree rate burst) _ ordered along
  · exact ⟨settled_new burst start nonneg, .refl _, fun _ _ _ => rfl⟩
  · rintro clock limiter other ⟨call, now⟩ next allowed agree
    cases call with
    | check ip keyId =>
        obtain ⟨same, kept⟩ := agree.check nonneg next ip keyId
        exact ⟨congrArg some same, kept⟩
    | cleanup =>
        refine ⟨rfl, agree.settled.serve nonneg _, cleanup_same.trans agree.same, ?_⟩
        intro tier later ordered
        have rate_nonneg : 0 ≤ limiter.rps tier := agree.settled.rps_nonneg nonneg tier
        exact (level_cleanup rate_nonneg (allowed rfl) ordered).trans
          (agree.level tier later (Nat.le_trans next ordered))

/-- What a limiter promises about a run: every limit grants at most its burst and what its rate
adds over a window, and without the cleanups the answers are the same. -/
structure Bounded (rate : ℚ) (burst : UInt32) (start : ℕ) (steps : List LimiterStep) : Prop where
  granted : ∀ tier first last, first ≤ last →
    (within LimiterStep.now first last
        (charged RateLimiter.serve (grantedTo tier) (new rate burst start) steps) : ℚ) ≤
      (new rate burst start).tierBurst tier +
        (new rate burst start).rps tier * secondsBetween first last
  unaided : answers RateLimiter.serve (new rate burst start) steps =
    answers RateLimiter.serveKeeping (new rate burst start) steps

/-- The bounds hold along a run whose cleanups drop full buckets only. -/
theorem bounded_of_allowed (nonneg : 0 ≤ rate) {start : ℕ} {steps : List LimiterStep}
    (ordered : (start :: steps.map LimiterStep.now).Pairwise (· ≤ ·))
    (along : Along RateLimiter.serve Allowed (new rate burst start) steps) :
    Bounded rate burst start steps := by
  constructor
  · intro tier first last window
    have made := settled_new burst start nonneg
    have bound := (meter nonneg tier).within_le ordered window along made
    have seconds : (new rate burst start).rps tier * secondsBetween first last =
        (new rate burst 0).rps tier / second * ((last : ℚ) - first) := by
      have same : (new rate burst start).rps tier = (new rate burst 0).rps tier := rfl
      rw [secondsBetween, Nat.cast_sub window, same]
      ring
    rw [seconds]
    exact bound
  · exact answers_without_cleanup nonneg ordered along

/-! ### Rates that fill the burst in five minutes -/

theorem toNat_mul_le (burst factor : UInt32) :
    (burst * factor).toNat ≤ burst.toNat * factor.toNat := by
  rw [UInt32.toNat_mul]
  exact Nat.mod_le _ _

/-- Five minutes fill a bucket at such a rate. -/
theorem Settled.dropsFull (settled : Settled rate burst limiter)
    (fills : (burst.toNat : ℚ) ≤ rate * 300) (now : ℕ) : limiter.DropsFull now := by
  intro tier bucket limited found idle
  have nonneg : 0 ≤ rate := by
    have count : (0 : ℚ) ≤ burst.toNat := Nat.cast_nonneg _
    linarith
  have tokens : 0 ≤ bucket.tokens := by
    have level := settled.level_nonneg tier bucket.lastRefill
    rw [RateLimiter.level, found, levelOf_some, TokenBucket.refill, secondsBetween_self, zero_mul,
      add_zero] at level
    exact le_trans level (min_le_left _ _)
  have waited : 300 ≤ secondsBetween bucket.lastRefill now := by
    have whole : 300 ≤ (now - bucket.lastRefill) / second := of_decide_eq_true idle
    have scaled : 300 * second ≤ now - bucket.lastRefill :=
      (Nat.le_div_iff_mul_le (by decide)).mp whole
    rw [secondsBetween, le_div_iff₀ (by norm_num [second])]
    exact_mod_cast scaled
  have filled : limiter.tierBurst tier ≤ 300 * limiter.rps tier := by
    rw [settled.same.rps, settled.same.burst]
    cases tier with
    | ip ip =>
        simp only [tierBurst, rps, new]
        linarith
    | key id =>
        have bound : ((burst * 5).toNat : ℚ) ≤ burst.toNat * 5 := by
          exact_mod_cast toNat_mul_le burst 5
        simp only [tierBurst, rps, new]
        linarith
    | system => exact absurd rfl limited
  have gained := mul_le_mul_of_nonneg_right waited (settled.rps_nonneg nonneg tier)
  rw [Full]
  linarith

/-- At a rate that fills the burst in five minutes every run keeps the bounds. -/
theorem bounded_of_filling (fills : (burst.toNat : ℚ) ≤ rate * 300) {start : ℕ}
    {steps : List LimiterStep} (ordered : (start :: steps.map LimiterStep.now).Pairwise (· ≤ ·)) :
    Bounded rate burst start steps := by
  have nonneg : 0 ≤ rate := by
    have count : (0 : ℚ) ≤ burst.toNat := Nat.cast_nonneg _
    linarith
  apply bounded_of_allowed nonneg ordered
  apply along_of_kept _ _ (settled_new burst start nonneg)
  · intro limiter step settled _
    exact settled.dropsFull fills step.now
  · intro limiter step settled
    exact settled.serve nonneg step

/-! ### Other rates -/

/-- As many checks of an address at one instant. -/
def flood (ip : IpAddr) (now count : ℕ) : List LimiterStep :=
  List.replicate count ⟨.check ip none, now⟩

theorem flood_succ (ip : IpAddr) (now count : ℕ) :
    flood ip now (count + 1) = ⟨.check ip none, now⟩ :: flood ip now count := rfl

/-- A check without a key that both its limits allow. -/
theorem check_flood (limiter : RateLimiter) {ip : IpAddr} {now : ℕ}
    (address : 1 ≤ limiter.level (.ip ip) now) (system : 1 ≤ limiter.level .system now) :
    (limiter.check ip none now).1 = true ∧
      (limiter.check ip none now).2.level (.ip ip) now = limiter.level (.ip ip) now - 1 ∧
      (limiter.check ip none now).2.level .system now = limiter.level .system now - 1 := by
  have passes : limiter.passes now (.ip ip) = true := decide_eq_true address
  have lastPasses : limiter.passes now .system = true := decide_eq_true system
  have taken : ∀ tier, 1 ≤ limiter.level tier now →
      limiter.wanting tier now now = limiter.level tier now - 1 := by
    intro tier enough
    have balance : limiter.wanting tier now now + (if 1 ≤ limiter.level tier now then 1 else 0) =
        limiter.level tier now := levelAfter_charge (level_le tier now)
    rw [if_pos enough] at balance
    linarith
  have checked : Checked limiter ip none now (limiter.check ip none now) := check_checked ip none
  refine ⟨?_, ?_, ?_⟩
  · rw [checked.granted, passes, lastPasses]
    rfl
  · rw [checked.level, if_pos (by simp [asks]), taken _ address]
  · rw [checked.level, if_pos (by simp [asks, passes]), taken _ system]

/-- As many checks are granted as both limits have tokens. -/
theorem charged_flood {ip : IpAddr} {now count : ℕ} (address : count ≤ limiter.level (.ip ip) now)
    (system : count ≤ limiter.level .system now) :
    charged RateLimiter.serve (grantedTo (.ip ip)) limiter (flood ip now count) =
        flood ip now count ∧
      (after RateLimiter.serve limiter (flood ip now count)).level .system now =
        limiter.level .system now - count := by
  induction count generalizing limiter with
  | zero => exact ⟨rfl, by simp [flood, after]⟩
  | succ count ih =>
      rw [Nat.cast_succ] at address system
      have none_less : (0 : ℚ) ≤ count := Nat.cast_nonneg _
      have addressOne : 1 ≤ limiter.level (.ip ip) now := by linarith
      have systemOne : 1 ≤ limiter.level .system now := by linarith
      obtain ⟨granted, addressLeft, systemLeft⟩ := check_flood limiter addressOne systemOne
      have addressRest : count ≤ (limiter.check ip none now).2.level (.ip ip) now := by
        rw [addressLeft]
        linarith
      have systemRest : count ≤ (limiter.check ip none now).2.level .system now := by
        rw [systemLeft]
        linarith
      obtain ⟨rest, level⟩ := ih addressRest systemRest
      rw [flood_succ, charged, after_cons]
      constructor
      · rw [if_pos]
        · exact congrArg (List.cons _) rest
        · simp [RateLimiter.serve, granted, grantedTo]
      · refine level.trans ?_
        rw [systemLeft, Nat.cast_succ]
        ring

/-- The bucket of an address was touched at an instant. -/
def TouchedAt (ip : IpAddr) (now : ℕ) (limiter : RateLimiter) : Prop :=
  ∃ bucket, limiter.bucket (.ip ip) = some bucket ∧ bucket.lastRefill = now

theorem take_lastRefill (bucket : TokenBucket) (rps burst : ℚ) (now : ℕ) :
    (bucket.take rps burst now).2.lastRefill = now := by
  rw [TokenBucket.take]
  split
  · rfl
  · rfl

/-- A check touches the bucket of its address, granted or not. -/
theorem touchedAt_check (ip : IpAddr) (now : ℕ) :
    TouchedAt ip now (limiter.check ip none now).2 := by
  have own : (limiter.checkIp ip now).2.bucket (.ip ip) =
      some ((limiter.present (.ip ip) now).take limiter.rpsPerIp limiter.burst.toNat now).2 :=
    Function.update_self ip _ limiter.ipBuckets
  have kept : (limiter.check ip none now).2.bucket (.ip ip) =
      (limiter.checkIp ip now).2.bucket (.ip ip) := by
    cases passed : limiter.passes now (.ip ip) with
    | false => rw [check_of_ip_refused passed]
    | true =>
        rw [check_of_no_key passed]
        rfl
  exact ⟨_, kept.trans own, take_lastRefill _ _ _ _⟩

theorem touchedAt_flood (ip : IpAddr) (now count : ℕ) :
    TouchedAt ip now (after RateLimiter.serve limiter (flood ip now (count + 1))) := by
  induction count generalizing limiter with
  | zero => exact touchedAt_check ip now
  | succ count ih => exact ih

/-- A bucket that was touched five minutes before a cleanup comes back full. -/
theorem level_after_cleanup {ip : IpAddr} {now : ℕ} (touched : TouchedAt ip now limiter)
    (later : ℕ) :
    (limiter.cleanup (now + fromSecs 300)).level (.ip ip) later = limiter.tierBurst (.ip ip) := by
  obtain ⟨bucket, found, last⟩ := touched
  have idle : bucket.idle (now + fromSecs 300) = true := by
    rw [TokenBucket.idle, last, Nat.add_sub_cancel_left]
    rfl
  have gone : (limiter.cleanup (now + fromSecs 300)).bucket (.ip ip) = none := by
    show (limiter.ipBuckets ip).filter _ = none
    have same : limiter.ipBuckets ip = some bucket := found
    rw [same, Option.filter, idle]
    rfl
  rw [level, gone, levelOf_none]
  rfl

/-- A burst now and another one after a cleanup five minutes later. -/
def floodTwice (ip : IpAddr) (count : ℕ) : List LimiterStep :=
  flood ip 0 count ++ ⟨.cleanup, fromSecs 300⟩ :: flood ip (fromSecs 300) count

theorem floodTwice_ordered (ip : IpAddr) (count : ℕ) :
    (0 :: (floodTwice ip count).map LimiterStep.now).Pairwise (· ≤ ·) := by
  simp only [floodTwice, flood, List.map_append, List.map_replicate, List.map_cons]
  rw [List.pairwise_cons, List.pairwise_append, List.pairwise_cons]
  refine ⟨fun _ _ => Nat.zero_le _, ?_, ⟨?_, ?_⟩, ?_⟩
  · exact List.pairwise_replicate.mpr (.inr (le_refl 0))
  · intro now member
    exact le_of_eq (List.eq_of_mem_replicate member).symm
  · exact List.pairwise_replicate.mpr (.inr (le_refl _))
  · intro early member late _
    rw [List.eq_of_mem_replicate member]
    exact Nat.zero_le late

theorem within_flood {ip : IpAddr} {now count last : ℕ} (inside : now ≤ last) :
    within LimiterStep.now 0 last (flood ip now count) = count := by
  rw [within, flood, List.countP_replicate, if_pos]
  simp [inside]

/-- Twice the burst is granted to one address within five minutes. -/
theorem within_floodTwice (rate : ℚ) (nonneg : 0 ≤ rate) (small : burst.toNat * 10 < 2 ^ 32)
    (some' : 0 < burst.toNat) (ip : IpAddr) :
    within LimiterStep.now 0 (fromSecs 300) (charged RateLimiter.serve (grantedTo (.ip ip))
      (new rate burst 0) (floodTwice ip burst.toNat)) = burst.toNat + burst.toNat := by
  have whole : (new rate burst 0).tierBurst .system = burst.toNat * 10 := by
    have exact10 : (burst * 10).toNat = burst.toNat * 10 := by
      rw [UInt32.toNat_mul]
      exact Nat.mod_eq_of_lt small
    show ((burst * 10).toNat : ℚ) = burst.toNat * 10
    rw [exact10]
    norm_num
  have count : (0 : ℚ) ≤ burst.toNat := Nat.cast_nonneg _
  have start := settled_new burst 0 nonneg
  have address : (burst.toNat : ℚ) ≤ (new rate burst 0).level (.ip ip) 0 := by
    rw [level_new 0 nonneg]
    exact le_refl _
  have system : (burst.toNat : ℚ) ≤ (new rate burst 0).level .system 0 := by
    rw [level_new 0 nonneg, whole]
    linarith
  obtain ⟨first, spent⟩ := charged_flood address system
  rw [level_new 0 nonneg, whole] at spent
  have settled := start.after nonneg (flood ip 0 burst.toNat)
  obtain ⟨less, same⟩ := Nat.exists_eq_succ_of_ne_zero some'.ne'
  have touched : TouchedAt ip 0
      (after RateLimiter.serve (new rate burst 0) (flood ip 0 burst.toNat)) := by
    rw [same]
    exact touchedAt_flood ip 0 less
  rw [floodTwice, charged_append, within_append, first, within_flood (Nat.zero_le _)]
  generalize after RateLimiter.serve (new rate burst 0) (flood ip 0 burst.toNat) = limiter at *
  have back := level_after_cleanup touched (fromSecs 300)
  rw [Nat.zero_add, settled.same.burst] at back
  have waited : limiter.level .system 0 ≤
      (limiter.cleanup (fromSecs 300)).level .system (fromSecs 300) :=
    levelOf_mono (settled.rps_nonneg nonneg .system) (Nat.zero_le _)
  have addressAgain : (burst.toNat : ℚ) ≤
      (limiter.cleanup (fromSecs 300)).level (.ip ip) (fromSecs 300) := by
    rw [back]
    exact le_refl _
  have systemAgain : (burst.toNat : ℚ) ≤
      (limiter.cleanup (fromSecs 300)).level .system (fromSecs 300) := by
    linarith
  obtain ⟨second, -⟩ := charged_flood addressAgain systemAgain
  rw [charged, if_neg (by simp [grantedTo])]
  exact congrArg _ ((congrArg _ second).trans (within_flood (le_refl _)))

theorem secondsBetween_zero (seconds : ℕ) : secondsBetween 0 (fromSecs seconds) = seconds := by
  rw [secondsBetween, Nat.sub_zero, fromSecs, Nat.cast_mul]
  exact mul_div_cancel_right₀ _ (by norm_num [second])

/-- A limiter with a negative rate does not even keep its bounds when nothing is asked of it. -/
theorem nonneg_of_bounded (bounded : Bounded rate burst 0 []) : 0 ≤ rate := by
  by_contra negative
  have below : 0 < -rate := by linarith
  obtain ⟨seconds, long⟩ := exists_nat_gt ((burst.toNat : ℚ) / -rate)
  have window := bounded.granted (.ip (.v4 (.zeros 4))) 0 (fromSecs seconds) (Nat.zero_le _)
  have none_granted : within LimiterStep.now 0 (fromSecs seconds) (charged RateLimiter.serve
      (grantedTo (.ip (.v4 (.zeros 4)))) (new rate burst 0) []) = 0 := rfl
  rw [none_granted, secondsBetween_zero, Nat.cast_zero] at window
  rw [div_lt_iff₀ below] at long
  simp only [tierBurst, rps, new] at window
  linarith

/-- A limiter whose rate does not fill the burst in five minutes is beaten by its cleanup. -/
theorem fills_of_bounded (small : burst.toNat * 10 < 2 ^ 32)
    (bounded : ∀ steps, (0 :: steps.map LimiterStep.now).Pairwise (· ≤ ·) →
      Bounded rate burst 0 steps) : (burst.toNat : ℚ) ≤ rate * 300 := by
  have nonneg : 0 ≤ rate := nonneg_of_bounded (bounded [] (by simp))
  by_contra slow
  have gain : 0 ≤ rate * 300 := mul_nonneg nonneg (by norm_num)
  have positive : 0 < burst.toNat := by
    have count : (0 : ℚ) < burst.toNat := by linarith
    exact_mod_cast count
  have window := (bounded _ (floodTwice_ordered (.v4 (.zeros 4)) burst.toNat)).granted
    (.ip (.v4 (.zeros 4))) 0 (fromSecs 300) (Nat.zero_le _)
  rw [within_floodTwice rate nonneg small positive, secondsBetween_zero, Nat.cast_add] at window
  simp only [tierBurst, rps, new] at window
  push_cast at window
  linarith

/-- Along a run whose cleanups drop only buckets that would be full, every limit grants at most
its burst and what its rate adds in any window, and the cleanups change no answer. All runs are
of this kind when the rate fills the burst in five minutes, and for no other rate do the bounds
hold in every run. -/
theorem grants_bounded (rate : ℚ) (burst : UInt32) :
    (∀ start steps, 0 ≤ rate → (start :: steps.map LimiterStep.now).Pairwise (· ≤ ·) →
      Along RateLimiter.serve Allowed (new rate burst start) steps →
        Bounded rate burst start steps) ∧
    (burst.toNat * 10 < 2 ^ 32 →
      ((∀ start steps, (start :: steps.map LimiterStep.now).Pairwise (· ≤ ·) →
        Bounded rate burst start steps) ↔ (burst.toNat : ℚ) ≤ rate * 300)) := by
  constructor
  · intro start steps nonneg ordered along
    exact bounded_of_allowed nonneg ordered along
  · intro small
    constructor
    · intro bounded
      exact fills_of_bounded small (bounded 0)
    · intro fills start steps ordered
      exact bounded_of_filling fills ordered

end Runs

/-- The default limits, on a run with a cleanup. -/
theorem grants_bounded_default :
    Bounded 20 50 0 (floodTwice (.v4 (.zeros 4)) 3) ∧
      ((∀ start steps, (start :: steps.map LimiterStep.now).Pairwise (· ≤ ·) →
        Bounded 20 50 start steps) ↔ (((50 : UInt32).toNat : ℕ) : ℚ) ≤ 20 * 300) := by
  constructor
  · apply (grants_bounded 20 50).1 0 _ (by norm_num) (floodTwice_ordered _ 3)
    apply along_of_kept _ _ (settled_new 50 0 (by norm_num))
    · intro limiter step settled _
      apply settled.dropsFull
      have fifty : (50 : UInt32).toNat = 50 := rfl
      rw [fifty]
      norm_num
    · intro limiter step settled
      exact settled.serve (by norm_num) step
  · exact (grants_bounded 20 50).2 (by decide)

/-- One request in a thousand seconds, a burst of two: four requests of one address are granted
within five minutes. -/
theorem dropped_bucket_comes_back_full :
    (0 :: (floodTwice (.v4 (.zeros 4)) 2).map LimiterStep.now).Pairwise (· ≤ ·) ∧
      ¬ Bounded (1 / 1000) 2 0 (floodTwice (.v4 (.zeros 4)) 2) := by
  refine ⟨floodTwice_ordered _ 2, fun bounded => ?_⟩
  have window := bounded.granted (.ip (.v4 (.zeros 4))) 0 (fromSecs 300) (Nat.zero_le _)
  have small : (2 : UInt32).toNat * 10 < 2 ^ 32 := by decide
  have granted := within_floodTwice (1 / 1000) (by norm_num) small (by decide) (.v4 (.zeros 4))
  have two : (2 : UInt32).toNat = 2 := rfl
  rw [two] at granted
  rw [granted, secondsBetween_zero] at window
  norm_num [tierBurst, rps, new, two] at window

end RateLimiter

end Citadel
