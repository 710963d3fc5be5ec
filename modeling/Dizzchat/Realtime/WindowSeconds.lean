import Dizzchat.Realtime.RateLimiter

set_option autoImplicit false

/-! # The frame quota under every configuration

`Settings` takes any integer for `ws_rate_limit_window_seconds`, and `allow` turns every exception into
permission. The window length is a divisor, so `_key` raises at zero; it is a time to live, so below
zero `EXPIRE` takes the counter away that `INCR` has just made, and one that Redis refuses raises. What is
left is `limits_iff`: the limiter limits if and only if the length is a positive one that `EXPIRE`
takes. -/

namespace Dizzchat

open Transition

section Allow

/- Which durations, in seconds, `EXPIRE` takes at a reading of the clock; the others it answers with an
   error. -/
variable (takes : ℤ → ℤ → Bool)

/-- What calls return one after the other. -/
def AllowCall.answers : List AllowCall → Volatile.Counters String → List (AllowCall × Bool)
  | [], _ => []
  | call :: calls, redis =>
      (call, (call.allow takes redis).2) :: answers calls (call.allow takes redis).1

/-- What a limiter owes at a reading of the clock, whatever calls were made before: a key for every
    user, a refusal among more calls of a user than the limit, however many calls of others lie between
    them, and an exception only where Redis is not there. -/
structure Limits (limiter : RedisRateLimiter) (now : Datetime) : Prop where
  keyed : ∀ userId, ∃ key, limiter.windowKey userId now = .ok key
  refuses : ∀ past calls userId,
    (∀ call ∈ calls, call.limiter = limiter ∧ call.now = now ∧ call.reachable = true) →
    limiter.limit < (calls.countP fun call => decide (call.userId = userId) : ℕ) →
    ∃ call, (call, false) ∈ AllowCall.answers takes calls (AllowCall.countersLeft takes past) ∧
      call.userId = userId
  failsOpen : ∀ past (call : AllowCall) e, call.limiter = limiter → call.now = now →
    (call.attempt takes (AllowCall.countersLeft takes past)).2 = .error e → call.reachable = false

/-! ## Calls that count -/

variable {takes}

/-- A call whose limiter has a positive window that `EXPIRE` takes. -/
structure AllowCall.Sound (takes : ℤ → ℤ → Bool) (call : AllowCall) : Prop where
  window : 1 ≤ call.limiter.windowSeconds
  taken : call.taken takes = true

/-- A call that counts returns what the counter says. -/
theorem allow_counted {call : AllowCall} (hlimit : 1 ≤ call.limiter.limit)
    (hzero : call.limiter.windowSeconds ≠ 0) (hreachable : call.reachable = true)
    (htaken : call.taken takes = true) {redis redis' : Volatile.Counters String} {count : ℕ}
    (huse : Volatile.use true call.limiter.ttl call.use redis = (redis', some count)) :
    call.allow takes redis = (redis', decide ((count : ℤ) ≤ call.limiter.limit)) := by
  rw [allow_eq hlimit hzero hreachable, htaken, huse]
  rfl

/-- A call that Redis refuses the time to live of raises, though it has counted. -/
theorem attempt_refused {call : AllowCall} (hzero : call.limiter.windowSeconds ≠ 0)
    (hreachable : call.reachable = true) (htaken : call.taken takes = false)
    (redis : Volatile.Counters String) :
    (call.attempt takes redis).2 = .error .responseError := by
  rw [attempt_eq hzero hreachable, htaken]
  rfl

/-- No exception but for a Redis that is not there. -/
theorem attempt_raises {call : AllowCall} (hsound : call.Sound takes)
    {redis : Volatile.Counters String} {e : AllowError}
    (h : (call.attempt takes redis).2 = .error e) : call.reachable = false := by
  have hwindow := hsound.window
  by_contra hreachable
  rw [Bool.not_eq_false] at hreachable
  obtain ⟨redis', count, huse⟩ := Volatile.exists_use call.limiter.ttl call.use redis
  rw [attempt_eq (by omega) hreachable, hsound.taken, huse] at h
  cases h

/-! ## The refusal -/

section Instant

variable {limiter : RedisRateLimiter} {now : Datetime} (hlimit : 1 ≤ limiter.limit)
include hlimit

/-- What a call on the limiter returns, at a reading where `EXPIRE` takes its window. -/
theorem allow_at (hzero : limiter.windowSeconds ≠ 0)
    (htaken : takes limiter.windowSeconds now.instant = true) {call : AllowCall}
    (hsame : call.limiter = limiter) (hnow : call.now = now) (hreachable : call.reachable = true)
    {redis redis' : Volatile.Counters String} {count : ℕ}
    (huse : Volatile.use true call.limiter.ttl call.use redis = (redis', some count)) :
    call.allow takes redis = (redis', decide ((count : ℤ) ≤ limiter.limit)) := by
  subst hsame hnow
  exact allow_counted hlimit hzero hreachable htaken huse

/-- While no call of the user is refused, its counter is the number of them at least, so there are no
    more than the limit. -/
theorem refused_of_atLeast (hwindow : 1 ≤ limiter.windowSeconds)
    (htaken : takes limiter.windowSeconds now.instant = true) (userId : UUID)
    {calls : List AllowCall}
    (hcalls : ∀ call ∈ calls, call.limiter = limiter ∧ call.now = now ∧ call.reachable = true)
    {redis : Volatile.Counters String} {n : ℕ} (hn : (n : ℤ) ≤ limiter.limit)
    (hatLeast : Volatile.AtLeast now.instant
      (RedisRateLimiter.key userId (limiter.window now)) n redis)
    (hmany : limiter.limit <
      ((n + calls.countP fun call => decide (call.userId = userId) : ℕ) : ℤ)) :
    ∃ call, (call, false) ∈ AllowCall.answers takes calls redis ∧ call.userId = userId := by
  induction calls generalizing redis n with
  | nil =>
      rw [List.countP_nil] at hmany
      omega
  | cons call calls ih =>
      obtain ⟨hsame, hnow, hreachable⟩ := hcalls call List.mem_cons_self
      have hrest := fun c hc => hcalls c (List.mem_cons_of_mem call hc)
      have hwindows : call.window = limiter.window now := by rw [AllowCall.window, hsame, hnow]
      have hinstant : call.use.now = now.instant := by
        rw [← hnow]
        rfl
      obtain ⟨redis', count, huse⟩ := Volatile.exists_use call.limiter.ttl call.use redis
      rw [AllowCall.answers, allow_at hlimit (by omega) htaken hsame hnow hreachable huse]
      rw [← hinstant] at hatLeast
      by_cases huser : call.userId = userId
      · have hkey : RedisRateLimiter.key userId (limiter.window now) = call.use.key := by
          rw [AllowCall.use_key, huser, hwindows]
        rw [hkey] at hatLeast
        have httl : 0 < call.limiter.ttl := ttl_pos (by rw [hsame]; exact hwindow)
        obtain ⟨hlt, hnext⟩ := hatLeast.use httl huse
        by_cases hle : (count : ℤ) ≤ limiter.limit
        · -- the call is let through, and its counter is one further
          rw [hinstant, ← hkey] at hnext
          obtain ⟨c, hc, hcuser⟩ := ih hrest (by push_cast; omega) hnext (by
            rw [List.countP_cons_of_pos (by simpa using huser)] at hmany
            push_cast at hmany ⊢
            omega)
          exact ⟨c, List.mem_cons_of_mem _ hc, hcuser⟩
        · refine ⟨call, ?_, huser⟩
          rw [decide_eq_false hle]
          exact List.mem_cons_self
      · have hne : call.use.key ≠ RedisRateLimiter.key userId (limiter.window now) := by
          intro hkey
          rw [AllowCall.use_key] at hkey
          exact huser (key_injective hkey).1
        have hnext := Volatile.AtLeast.use_of_ne huse hne hatLeast
        rw [hinstant] at hnext
        obtain ⟨c, hc, hcuser⟩ := ih hrest hn hnext (by
          rwa [List.countP_cons_of_neg (by simpa using huser)] at hmany)
        exact ⟨c, List.mem_cons_of_mem _ hc, hcuser⟩

/-- Below zero every call finds its counter gone, so none is refused. -/
theorem granted_of_negative (hwindow : limiter.windowSeconds < 0)
    (htaken : takes limiter.windowSeconds now.instant = true) {call : AllowCall}
    (hsame : call.limiter = limiter) (hnow : call.now = now) (hreachable : call.reachable = true)
    {redis : Volatile.Counters String} (habsent : redis call.use.key = none) (n : ℕ) :
    ∀ answer ∈ AllowCall.answers takes (List.replicate n call) redis, answer.2 = true := by
  have httl : call.limiter.ttl ≤ 0 := by
    rw [hsame, RedisRateLimiter.ttl]
    omega
  induction n generalizing redis with
  | zero => simp [AllowCall.answers]
  | succ n ih =>
      obtain ⟨redis', hone, hgone⟩ := Volatile.use_absent httl habsent
      rw [List.replicate_succ, AllowCall.answers,
        allow_at hlimit (by omega) htaken hsame hnow hreachable hone]
      intro answer hanswer
      rcases List.mem_cons.1 hanswer with hfirst | hlater
      · rw [hfirst]
        exact decide_eq_true (by omega)
      · exact ih hgone answer hlater

/-- The limiter limits, at a reading of the clock, if and only if its window is at least a second and a
    duration that `EXPIRE` takes then. -/
theorem limits_iff :
    Limits takes limiter now ↔
      1 ≤ limiter.windowSeconds ∧ takes limiter.windowSeconds now.instant = true := by
  constructor
  · intro h
    have hzero : limiter.windowSeconds ≠ 0 := by
      intro hzero
      obtain ⟨key, hkey⟩ := h.keyed 0
      rw [RedisRateLimiter.windowKey, if_pos hzero] at hkey
      cases hkey
    -- one user's calls at this reading, with Redis there
    have hreach : ∀ call : AllowCall, call = ⟨limiter, 0, now, true, fun _ => true⟩ →
        call.limiter = limiter ∧ call.now = now ∧ call.reachable = true := by
      intro call hcall
      rw [hcall]
      exact ⟨rfl, rfl, rfl⟩
    obtain ⟨hsame, hnow, hreachable⟩ := hreach _ rfl
    have htaken : takes limiter.windowSeconds now.instant = true := by
      by_contra hrefused
      rw [Bool.not_eq_true] at hrefused
      have hraises := attempt_refused hzero hreachable hrefused (AllowCall.countersLeft takes [])
      have hunreachable := h.failsOpen [] _ _ hsame hnow hraises
      cases hunreachable
    refine ⟨?_, htaken⟩
    by_contra hwindow
    have hgranted := granted_of_negative hlimit (by omega) htaken hsame hnow hreachable
      (show AllowCall.countersLeft takes [] _ = none from rfl) (limiter.limit.toNat + 1)
    obtain ⟨call, hrefused, _⟩ := h.refuses [] (List.replicate (limiter.limit.toNat + 1)
      ⟨limiter, 0, now, true, fun _ => true⟩) 0
      (fun call hcall => hreach call (List.eq_of_mem_replicate hcall)) (by
        rw [List.countP_replicate, if_pos (decide_eq_true rfl)]
        omega)
    have htrue := hgranted _ hrefused
    cases htrue
  · rintro ⟨hwindow, htaken⟩
    refine ⟨fun userId => ⟨_, RedisRateLimiter.windowKey_ok (by omega) userId now⟩, ?_, ?_⟩
    · intro past calls userId hcalls hmany
      exact refused_of_atLeast hlimit hwindow htaken userId hcalls (by push_cast; omega)
        Volatile.AtLeast.zero (by rwa [Nat.zero_add])
    · intro past call e hsame hnow hraises
      refine attempt_raises ⟨?_, ?_⟩ hraises
      · rw [hsame]
        exact hwindow
      · rw [AllowCall.taken, hsame, hnow, htaken]

end Instant

end Allow

/-- The configuration the settings default to. -/
theorem limits_default : Limits expirable ⟨20, 10⟩ ⟨1704110400000000, 0⟩ := by
  refine (limits_iff ?_).2 ?_
  · decide
  · decide

/-- Twenty-one calls of one user at one instant, with a limit of twenty and Redis there: a window of no
    seconds has no key, and it and one of minus a second let every call through. -/
theorem limits_nobody :
    let now : Datetime := ⟨1704110400000000, 0⟩
    let calls (windowSeconds : ℤ) : List AllowCall :=
      List.replicate 21 ⟨⟨20, windowSeconds⟩, 7, now, true, fun _ => true⟩
    let answers (windowSeconds : ℤ) :=
      AllowCall.answers expirable (calls windowSeconds) fun _ => none
    RedisRateLimiter.windowKey ⟨20, 0⟩ 7 now = .error .zeroDivisionError ∧
      (∀ answer ∈ answers 0 ++ answers (-1), answer.2 = true) ∧
      ¬ Limits expirable ⟨20, 0⟩ now ∧ ¬ Limits expirable ⟨20, -1⟩ now := by
  intro now calls answers
  have hgranted : ∀ answer ∈ answers 0 ++ answers (-1), answer.2 = true := by decide +kernel
  have hraises : RedisRateLimiter.windowKey ⟨20, 0⟩ 7 now = .error .zeroDivisionError := rfl
  refine ⟨hraises, hgranted, ?_, ?_⟩
  · intro h
    obtain ⟨key, hkey⟩ := h.keyed 7
    rw [hraises] at hkey
    cases hkey
  · intro h
    have hcalls : ∀ call ∈ calls (-1),
        call.limiter = ⟨20, -1⟩ ∧ call.now = now ∧ call.reachable = true := by
      intro call hcall
      rw [List.eq_of_mem_replicate hcall]
      exact ⟨rfl, rfl, rfl⟩
    obtain ⟨call, hrefused, _⟩ := h.refuses [] (calls (-1)) 7 hcalls (by decide)
    have htrue := hgranted _ (List.mem_append_right _ hrefused)
    cases htrue

end Dizzchat
