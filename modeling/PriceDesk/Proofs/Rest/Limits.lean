import Mathlib.Data.Nat.Basic
import PriceDesk.Rest.Adapter

namespace PriceDesk

namespace RateLimitPlan

variable {plan : RateLimitPlan} {l : Limiter}

/-- How many requests of a tier a plan admits, and in how many seconds. What is not said about
callers without credentials is as for the others. -/
def limit? : RateLimitPlan → Tier → Option (Nat × Nat)
  | unlimited, _ => none
  | perSecond requests seconds, _ => some (requests, seconds)
  | perMinute requests minutes _ _, .authenticated => some (requests, minutes * 60)
  | perMinute requests minutes anonymousRequests anonymousMinutes, .anonymous =>
    some (anonymousRequests.getD requests, anonymousMinutes.getD minutes * 60)

structure Describes (plan : RateLimitPlan) (l : Limiter) : Prop where
  policy : ∀ tier, ∃ requests seconds, plan.limit? tier = some (requests, seconds) ∧
    l.policy tier = ⟨requests, .ofSeconds seconds⟩
  unused : l.hits = []
  shortest : Duration.ofMillis 50 ≤ l.pause
  longest : l.pause ≤ Duration.ofSeconds 1
  /-- Between these bounds the pause is the share of the anonymous window that one request has. -/
  share : ∀ requests seconds, plan.limit? .anonymous = some (requests, seconds) →
    requests < twoTo 32 → l.pause = min (.ofSeconds 1) (max (.ofMillis 50)
      (Duration.ofSeconds seconds / requests))

/-- What there is for a plan: a limiter that it describes, or no limits if it has none. -/
inductive Paced : RateLimitPlan → Pace → Prop
  | free : Paced .unlimited .free
  | windowed {plan : RateLimitPlan} {l : Limiter} (describes : plan.Describes l) :
    Paced plan (.windowed l)

/-- Whether the seconds of each window fit 64 bits, and 32 bits of the anonymous count are not all
clear. -/
def Fits : RateLimitPlan → Prop
  | unlimited => True
  | perSecond requests _ => ¬ twoTo 32 ∣ requests
  | perMinute requests minutes anonymousRequests anonymousMinutes =>
    minutes * 60 < twoTo 64 ∧ anonymousMinutes.getD minutes * 60 < twoTo 64 ∧
      ¬ twoTo 32 ∣ anonymousRequests.getD requests

theorem minutes?_eq_some_iff {minutes : Nat} {window : Duration} :
    minutes? minutes = some window ↔
      minutes * 60 < twoTo 64 ∧ window = .ofSeconds (minutes * 60) := by
  unfold minutes?
  split
  · next fits => simp [fits, eq_comm]
  · next large => simp [large]

theorem exists_ofTiers?_iff {requests : Nat} (positive : requests ≠ 0) (window : Duration)
    (other : WindowPolicy) :
    (∃ l, Limiter.ofTiers? (.of requests window) other = some l) ↔ ¬ twoTo 32 ∣ requests := by
  have admitted : (WindowPolicy.of requests window).admitted = requests := by
    simp only [WindowPolicy.of, WindowPolicy.admitted]
    omega
  unfold Limiter.ofTiers?
  rw [admitted, Nat.dvd_iff_mod_eq_zero]
  cases requests % twoTo 32 with
  | zero => simp
  | succ n => simp

theorem describes_of_ofTiers? {requests seconds requests' seconds' : Nat}
    (anonymous : plan.limit? .anonymous = some (requests, seconds))
    (authenticated : plan.limit? .authenticated = some (requests', seconds'))
    (positive : requests ≠ 0) (positive' : requests' ≠ 0)
    (built : Limiter.ofTiers? (.of requests (.ofSeconds seconds))
      (.of requests' (.ofSeconds seconds')) = some l) : plan.Describes l := by
  have raised {n : Nat} (positive : n ≠ 0) : max 1 n = n := by omega
  simp only [Limiter.ofTiers?, WindowPolicy.admitted, WindowPolicy.of, raised positive,
    raised positive'] at built
  split at built
  · cases built
  next n count =>
  cases built
  refine ⟨fun tier => ?_, rfl, ?_, Nat.min_le_left _ _, ?_⟩
  · cases tier with
    | anonymous => exact ⟨_, _, anonymous, rfl⟩
    | authenticated => exact ⟨_, _, authenticated, rfl⟩
  · exact Nat.le_min.mpr ⟨by decide, Nat.le_max_left _ _⟩
  · intro r s same small
    cases anonymous.symm.trans same
    rw [Nat.mod_eq_of_lt small] at count
    subst count
    rfl

/-- Where callers without credentials have no limits of their own, they have those of the others. -/
theorem pace?_perMinute (requests minutes : Nat) (anonymousRequests anonymousMinutes : Option Nat) :
    (perMinute requests minutes anonymousRequests anonymousMinutes).pace? =
      (tieredLimiter? (anonymousRequests.getD requests) (anonymousMinutes.getD minutes) requests
        minutes).map .windowed := by
  cases anonymousRequests with
  | some _ => rfl
  | none =>
    cases anonymousMinutes with
    | some _ => rfl
    | none =>
      simp only [pace?, minuteLimiter?, tieredLimiter?, Limiter.ofPolicy?, Option.getD_none]
      cases minutes? minutes <;> rfl

theorem perSecond_count_ne_zero {requests seconds : Nat}
    (valid : (perSecond requests seconds).isValid = true) : requests ≠ 0 := by
  simp only [isValid, Bool.and_eq_true, bne_iff_ne] at valid
  exact valid.1

theorem perMinute_counts_ne_zero {requests minutes : Nat}
    {anonymousRequests anonymousMinutes : Option Nat}
    (valid : (perMinute requests minutes anonymousRequests anonymousMinutes).isValid = true) :
    requests ≠ 0 ∧ anonymousRequests.getD requests ≠ 0 := by
  simp only [isValid, Bool.and_eq_true, bne_iff_ne] at valid
  obtain ⟨⟨⟨positive, -⟩, given⟩, -⟩ := valid
  refine ⟨positive, ?_⟩
  cases anonymousRequests with
  | none => exact positive
  | some n => exact fun zero => given (congrArg some zero)

theorem perSecond_fits_and_paced {requests seconds : Nat} {pace : Pace}
    (valid : (perSecond requests seconds).isValid = true)
    (built : (perSecond requests seconds).pace? = some pace) :
    (perSecond requests seconds).Fits ∧ (perSecond requests seconds).Paced pace := by
  have positive := perSecond_count_ne_zero valid
  obtain ⟨l, limiter, rfl⟩ := Option.map_eq_some_iff.mp built
  exact ⟨(exists_ofTiers?_iff positive _ _).mp ⟨l, limiter⟩,
    .windowed (describes_of_ofTiers? rfl rfl positive positive limiter)⟩

theorem perMinute_fits_and_paced {requests minutes : Nat}
    {anonymousRequests anonymousMinutes : Option Nat} {pace : Pace}
    (valid : (perMinute requests minutes anonymousRequests anonymousMinutes).isValid = true)
    (built : (perMinute requests minutes anonymousRequests anonymousMinutes).pace? = some pace) :
    (perMinute requests minutes anonymousRequests anonymousMinutes).Fits ∧
      (perMinute requests minutes anonymousRequests anonymousMinutes).Paced pace := by
  obtain ⟨positive, anonymous⟩ := perMinute_counts_ne_zero valid
  rw [pace?_perMinute] at built
  obtain ⟨l, limiter, rfl⟩ := Option.map_eq_some_iff.mp built
  obtain ⟨fewer, first, rest⟩ := Option.bind_eq_some_iff.mp limiter
  obtain ⟨general, second, tiers⟩ := Option.bind_eq_some_iff.mp rest
  obtain ⟨room, rfl⟩ := minutes?_eq_some_iff.mp first
  obtain ⟨room', rfl⟩ := minutes?_eq_some_iff.mp second
  exact ⟨⟨room', room, (exists_ofTiers?_iff anonymous _ _).mp ⟨l, tiers⟩⟩,
    .windowed (describes_of_ofTiers? rfl rfl anonymous positive tiers)⟩

theorem fits_and_paced (valid : plan.isValid = true) {pace : Pace}
    (built : plan.pace? = some pace) : plan.Fits ∧ plan.Paced pace := by
  cases plan with
  | unlimited =>
    cases built
    exact ⟨trivial, .free⟩
  | perSecond requests seconds => exact perSecond_fits_and_paced valid built
  | perMinute requests minutes anonymousRequests anonymousMinutes =>
    exact perMinute_fits_and_paced valid built

theorem exists_pace? (valid : plan.isValid = true) (fits : plan.Fits) :
    ∃ pace, plan.pace? = some pace := by
  cases plan with
  | unlimited => exact ⟨.free, rfl⟩
  | perSecond requests seconds =>
    obtain ⟨l, limiter⟩ := (exists_ofTiers?_iff (perSecond_count_ne_zero valid) (.ofSeconds seconds)
      (.of requests (.ofSeconds seconds))).mpr fits
    exact ⟨.windowed l, Option.map_eq_some_iff.mpr ⟨l, limiter, rfl⟩⟩
  | perMinute requests minutes anonymousRequests anonymousMinutes =>
    obtain ⟨general, fewer, count⟩ := fits
    obtain ⟨l, tiers⟩ := (exists_ofTiers?_iff (perMinute_counts_ne_zero valid).2
      (.ofSeconds (anonymousMinutes.getD minutes * 60))
      (.of requests (.ofSeconds (minutes * 60)))).mpr count
    have limiter : tieredLimiter? (anonymousRequests.getD requests)
        (anonymousMinutes.getD minutes) requests minutes = some l :=
      Option.bind_eq_some_iff.mpr ⟨_, minutes?_eq_some_iff.mpr ⟨fewer, rfl⟩,
        Option.bind_eq_some_iff.mpr ⟨_, minutes?_eq_some_iff.mpr ⟨general, rfl⟩, tiers⟩⟩
    rw [pace?_perMinute]
    exact ⟨.windowed l, Option.map_eq_some_iff.mpr ⟨l, limiter, rfl⟩⟩

end RateLimitPlan

variable {e : ExchangeDescription}

theorem isValid_of_accepted (accepted : e.validate = .ok ()) : e.rateLimit.isValid = true := by
  cases valid : e.rateLimit.isValid with
  | true => rfl
  | false =>
    unfold ExchangeDescription.validate at accepted
    rw [valid, Bool.not_false, if_pos rfl] at accepted
    repeat' split at accepted
    all_goals cases accepted

theorem pace?_of_accepted (accepted : e.validate = .ok ()) {pace : Pace} :
    Adapter.pace? e = .ok pace ↔ e.rateLimit.pace? = some pace := by
  simp only [Adapter.pace?, accepted]
  cases e.rateLimit.pace? with
  | none => exact ⟨nofun, nofun⟩
  | some built => simp

/-- The rate limit of an accepted description is built just if its numbers fit. What is built is as
described, with a pause between 50 ms and a second. -/
theorem accepted_limit_is_built_iff_it_fits (accepted : e.validate = .ok ()) :
    ((∃ pace, Adapter.pace? e = .ok pace) ↔ e.rateLimit.Fits) ∧
      ∀ pace, Adapter.pace? e = .ok pace → e.rateLimit.Paced pace := by
  have valid := isValid_of_accepted accepted
  simp only [pace?_of_accepted accepted]
  refine ⟨⟨?_, RateLimitPlan.exists_pace? valid⟩, fun pace built => ?_⟩
  · rintro ⟨pace, built⟩
    exact (RateLimitPlan.fits_and_paced valid built).1
  · exact (RateLimitPlan.fits_and_paced valid built).2

def pacedExchange : ExchangeDescription :=
  { id := "x", network := "X", baseUrl := "http://mock", pairSeparator := some '_'
    rateLimit := .perMinute 60 2 (some 20) none }

theorem paced_exchange_is_built :
    pacedExchange.validate = .ok () ∧
      ∃ pace, Adapter.pace? pacedExchange = .ok pace ∧ pacedExchange.rateLimit.Paced pace := by
  have accepted : pacedExchange.validate = .ok () := by decide +kernel
  have fits : pacedExchange.rateLimit.Fits := by
    show 2 * 60 < twoTo 64 ∧ 2 * 60 < twoTo 64 ∧ ¬ twoTo 32 ∣ 20
    decide
  obtain ⟨built_iff, described⟩ := accepted_limit_is_built_iff_it_fits accepted
  obtain ⟨pace, built⟩ := built_iff.mpr fits
  exact ⟨accepted, pace, built, described pace built⟩

def boundlessExchange : ExchangeDescription :=
  { pacedExchange with rateLimit := .perMinute 4294967296 1 none none }

/-- An accepted description whose limiter cannot be built. -/
theorem boundless_exchange_is_not_built :
    boundlessExchange.validate = .ok () ∧
      Adapter.pace? boundlessExchange = .error .noLimiter := by
  have accepted : boundlessExchange.validate = .ok () := by decide +kernel
  refine ⟨accepted, ?_⟩
  rw [Adapter.pace?, accepted]
  rfl

end PriceDesk
