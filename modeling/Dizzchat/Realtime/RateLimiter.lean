import Dizzchat.Shared.Isoformat
import Dizzchat.Shared.Uuid
import Dizzchat.Transition.Volatile
import Mathlib.Tactic.Linarith

set_option autoImplicit false

/-! # The frame quota

`RedisRateLimiter.allow` on one counter store, with what its `try` may raise. Each window of a user
counts under a key of its own. A reading that is a window's length later is in a later window
(`window_lt`), so a key never expires before its window is over, and a window's `k`-th call reads `k`. It
is answered by that unless Redis refuses the time to live, which `allow` turns into permission:
`quota_exact_iff`.

The number of a window is the integer part of a `float`. From 2514 on that may be a second ahead, from
then on by less and less of a second each time the seconds need a bit more; at such a moment a stretch of
a window's length may have readings of three windows (`quota_notExact`). -/

namespace Dizzchat

open Transition Text

/-! ## The limiter -/

/-- What the `try` of `allow` raises: the division in `_key`, a Redis that is not there, and a command
    that Redis answers with an error. -/
inductive AllowError where
  | zeroDivisionError
  | connectionError
  | responseError
deriving DecidableEq

structure RedisRateLimiter where
  limit : ℤ
  windowSeconds : ℤ
deriving DecidableEq

namespace RedisRateLimiter

/-- The time to live, in microseconds. -/
def ttl (limiter : RedisRateLimiter) : ℤ := limiter.windowSeconds * 1000000

def window (limiter : RedisRateLimiter) (now : Datetime) : ℤ :=
  now.seconds.fdiv limiter.windowSeconds

/-- `f"ratelimit:ws:{user_id}:{window}"` -/
def key (userId : UUID) (window : ℤ) : String :=
  String.ofList ("ratelimit:ws:".toList ++ UUID.chars userId ++ ':' :: decimal window)

/-- `_key` -/
def windowKey (limiter : RedisRateLimiter) (userId : UUID) (now : Datetime) :
    Except AllowError String :=
  if limiter.windowSeconds = 0 then .error .zeroDivisionError
  else .ok (key userId (limiter.window now))

theorem windowKey_ok {limiter : RedisRateLimiter} (h : limiter.windowSeconds ≠ 0) (userId : UUID)
    (now : Datetime) : limiter.windowKey userId now = .ok (key userId (limiter.window now)) :=
  if_neg h

end RedisRateLimiter

/-- One call of `allow`: on which limiter, for whom, at which reading of the clock, whether Redis is
    there, and which keys past their deadline it has dropped by then. -/
structure AllowCall where
  limiter : RedisRateLimiter
  userId : UUID
  now : Datetime
  reachable : Bool
  gone : String → Bool

namespace AllowCall

def window (call : AllowCall) : ℤ := call.limiter.window call.now

def use (call : AllowCall) : Volatile.Use String where
  key := RedisRateLimiter.key call.userId call.window
  now := call.now.instant
  gone := call.gone

theorem use_key (call : AllowCall) :
    call.use.key = RedisRateLimiter.key call.userId call.window := rfl

/-- The calls of a user in a window. -/
def inWindow (userId : UUID) (window : ℤ) (call : AllowCall) : Bool :=
  decide (call.userId = userId) && decide (call.window = window)

/-- The calls of a user in a stretch of time. -/
def inInterval (userId : UUID) (start length : ℤ) (call : AllowCall) : Bool :=
  decide (call.userId = userId) && decide (start ≤ call.now.instant) &&
    decide (call.now.instant < start + length)

/-- How many calls the call is in its window, counting itself. -/
def rank (call : AllowCall) (past : List AllowCall) : ℕ :=
  past.countP (inWindow call.userId call.window) + 1

/- Which durations, in seconds, `EXPIRE` takes at a reading of the clock; the others it answers with an
   error. -/
variable (takes : ℤ → ℤ → Bool)

def taken (call : AllowCall) : Bool := takes call.limiter.windowSeconds call.now.instant

/-- `_increment` -/
def increment (call : AllowCall) (key : String) (redis : Volatile.Counters String) :
    Volatile.Counters String × Except AllowError ℕ :=
  if call.reachable then
    match Volatile.use (call.taken takes) call.limiter.ttl ⟨key, call.now.instant, call.gone⟩ redis with
    | (redis, some count) => (redis, .ok count)
    | (redis, none) => (redis, .error .responseError)
  else (redis, .error .connectionError)

/-- The `try` of `allow`. -/
def attempt (call : AllowCall) (redis : Volatile.Counters String) :
    Volatile.Counters String × Except AllowError ℕ :=
  match call.limiter.windowKey call.userId call.now with
  | .error e => (redis, .error e)
  | .ok key => call.increment takes key redis

/-- `RedisRateLimiter.allow`, with the counters it leaves. -/
def allow (call : AllowCall) (redis : Volatile.Counters String) : Volatile.Counters String × Bool :=
  if call.limiter.limit ≤ 0 then (redis, true)
  else
    match call.attempt takes redis with
    | (redis, .error _) => (redis, true)
    | (redis, .ok count) => (redis, decide ((count : ℤ) ≤ call.limiter.limit))

/-- The counters after some calls, the last one first. -/
def countersLeft : List AllowCall → Volatile.Counters String
  | [] => fun _ => none
  | call :: past => (call.allow takes (countersLeft past)).1

/-- What a call returns after others. -/
def allowed (call : AllowCall) (past : List AllowCall) : Bool :=
  (call.allow takes (countersLeft takes past)).2

/-- How many of the calls have returned `True`. -/
def granted (counts : AllowCall → Bool) : List AllowCall → ℕ
  | [] => 0
  | call :: past => granted counts past + if counts call && call.allowed takes past then 1 else 0

end AllowCall

/-! ## Keys -/

theorem key_injective {u v : UUID} {w x : ℤ}
    (h : RedisRateLimiter.key u w = RedisRateLimiter.key v x) : u = v ∧ w = x := by
  have hchars := String.ofList_injective h
  rw [List.append_assoc, List.append_assoc] at hchars
  have htail := List.append_cancel_left hchars
  have hlength : (UUID.chars u).length = (UUID.chars v).length := by
    rw [UUID.length_chars, UUID.length_chars]
  obtain ⟨huser, hwindow⟩ := List.append_inj htail hlength
  exact ⟨UUID.chars_injective huser, decimal_injective (List.cons.inj hwindow).2⟩

theorem use_key_eq_iff {call other : AllowCall} :
    other.use.key = call.use.key ↔ AllowCall.inWindow call.userId call.window other = true := by
  rw [AllowCall.use_key, AllowCall.use_key, AllowCall.inWindow, Bool.and_eq_true, decide_eq_true_iff,
    decide_eq_true_iff]
  constructor
  · intro hkey
    exact key_injective hkey
  · rintro ⟨huser, hwindows⟩
    rw [huser, hwindows]

/-! ## Windows -/

/-- A stretch no longer than a window touches two windows at most. -/
theorem window_of_interval {length start t : ℤ} (hlength : 0 < length) (hstart : start ≤ t)
    (hend : t < start + length) : t / length = start / length ∨ t / length = start / length + 1 := by
  have hle := Int.ediv_le_ediv hlength hstart
  have hlt : t / length < start / length + 2 := by
    rw [Int.ediv_lt_iff_lt_mul hlength]
    have hb := Int.lt_ediv_add_one_mul_self start hlength
    linarith
  omega

section Windows

variable {limiter : RedisRateLimiter} (hwindow : 1 ≤ limiter.windowSeconds)
include hwindow

theorem ttl_pos : 0 < limiter.ttl := by
  unfold RedisRateLimiter.ttl
  omega

/-- A reading that is the length of a window later lies in a later window, rounded or not. -/
theorem window_lt {a b : Datetime} (ha : 0 ≤ a.instant) (hb : b.instant < 2 ^ 52 * 1000000)
    (h : a.instant + limiter.ttl ≤ b.instant) : limiter.window a < limiter.window b := by
  obtain ⟨length, hlength⟩ := Int.eq_ofNat_of_zero_le (show 0 ≤ limiter.windowSeconds by omega)
  unfold RedisRateLimiter.ttl at h
  unfold RedisRateLimiter.window
  rw [hlength] at h hwindow ⊢
  have hseconds := Datetime.seconds_add_le ha hb h
  rw [Int.fdiv_eq_ediv_of_nonneg _ (by omega), Int.fdiv_eq_ediv_of_nonneg _ (by omega)]
  have hstep : (a.seconds + length) / length = a.seconds / length + 1 :=
    Int.add_ediv_of_dvd_right (Int.dvd_refl _) |>.trans (by rw [Int.ediv_self (by omega)])
  have hle : (a.seconds + length) / length ≤ b.seconds / length :=
    Int.ediv_le_ediv (by omega) hseconds
  omega

theorem window_early {now : Datetime} (h : 0 ≤ now.instant)
    (hearly : now.instant < 2 ^ 34 * 1000000) : limiter.window now = now.instant / limiter.ttl := by
  unfold RedisRateLimiter.window RedisRateLimiter.ttl
  rw [Datetime.seconds_exact h hearly, Int.fdiv_eq_ediv_of_nonneg _ (by omega),
    Int.ediv_ediv_of_nonneg (by omega), mul_comm]

end Windows

/-- The readings in a stretch of a window's length are of two windows, one after the other. -/
def RedisRateLimiter.TwoWindows (limiter : RedisRateLimiter) (start : ℤ) : Prop :=
  ∃ window, ∀ now : Datetime, 0 ≤ now.instant → start ≤ now.instant →
    now.instant < start + limiter.ttl → limiter.window now = window ∨ limiter.window now = window + 1

/-- Up to 2514 they always are. -/
theorem twoWindows_early {limiter : RedisRateLimiter} (hwindow : 1 ≤ limiter.windowSeconds) {start : ℤ}
    (hearly : start + limiter.ttl ≤ 2 ^ 34 * 1000000) : limiter.TwoWindows start := by
  refine ⟨max start 0 / limiter.ttl, fun now hepoch hstart hend => ?_⟩
  rw [window_early hwindow hepoch (by omega)]
  exact window_of_interval (ttl_pos hwindow) (by omega) (by omega)

/-! ## What a call returns -/

section Allow

variable {takes : ℤ → ℤ → Bool} {call : AllowCall}

/-- With Redis there a call counts, and raises if its time to live is refused. -/
theorem attempt_eq (hzero : call.limiter.windowSeconds ≠ 0) (hreachable : call.reachable = true)
    (redis : Volatile.Counters String) :
    call.attempt takes redis =
      ((Volatile.use (call.taken takes) call.limiter.ttl call.use redis).1,
        (Volatile.use (call.taken takes) call.limiter.ttl call.use redis).2.elim
          (.error .responseError) .ok) := by
  have huse : (⟨RedisRateLimiter.key call.userId call.window, call.now.instant, call.gone⟩ :
      Volatile.Use String) = call.use := rfl
  rw [AllowCall.attempt, RedisRateLimiter.windowKey_ok hzero]
  show call.increment takes (RedisRateLimiter.key call.userId call.window) redis = _
  rw [AllowCall.increment, if_pos hreachable, huse]
  rcases Volatile.use (call.taken takes) call.limiter.ttl call.use redis with ⟨redis', count⟩
  cases count <;> rfl

/-- Such a call is answered by its count, if there is one. -/
theorem allow_eq (hlimit : 1 ≤ call.limiter.limit) (hzero : call.limiter.windowSeconds ≠ 0)
    (hreachable : call.reachable = true) (redis : Volatile.Counters String) :
    call.allow takes redis =
      ((Volatile.use (call.taken takes) call.limiter.ttl call.use redis).1,
        (Volatile.use (call.taken takes) call.limiter.ttl call.use redis).2.elim true
          fun count => decide ((count : ℤ) ≤ call.limiter.limit)) := by
  have hon : ¬ call.limiter.limit ≤ 0 := by omega
  rw [AllowCall.allow, if_neg hon, attempt_eq hzero hreachable]
  rcases Volatile.use (call.taken takes) call.limiter.ttl call.use redis with ⟨redis', count⟩
  cases count <;> rfl

end Allow

/-! ## The quota -/

/-- Calls on one counter store with one clock that does not go back, the last call first: all limiters
    have the same two values, and Redis is reachable. -/
structure OneStore (limiter : RedisRateLimiter) (calls : List AllowCall) : Prop where
  same : ∀ call ∈ calls, call.limiter = limiter
  reachable : ∀ call ∈ calls, call.reachable = true
  epoch : ∀ call ∈ calls, 0 ≤ call.now.instant
  valid : ∀ call ∈ calls, call.now.Valid
  clock : calls.Pairwise fun later earlier => earlier.now.instant ≤ later.now.instant

/-- A call returns `True` if and only if it is one of the first `limit` of its user and window. -/
def Ranked (takes : ℤ → ℤ → Bool) (limit : ℤ) (calls : List AllowCall) : Prop :=
  ∀ later call past, calls = later ++ call :: past →
    call.allowed takes past = decide ((call.rank past : ℤ) ≤ limit)

/-- `EXPIRE` takes the length of the window at every call beyond the limit. -/
def Armed (takes : ℤ → ℤ → Bool) (limit : ℤ) (calls : List AllowCall) : Prop :=
  ∀ later call past, calls = later ++ call :: past → limit < (call.rank past : ℤ) →
    call.taken takes = true

section Quota

variable {takes : ℤ → ℤ → Bool} {limiter : RedisRateLimiter} {call : AllowCall}
  {calls past : List AllowCall}

theorem OneStore.tail (h : OneStore limiter (call :: past)) : OneStore limiter past where
  same := fun c hc => h.same c (List.mem_cons_of_mem call hc)
  reachable := fun c hc => h.reachable c (List.mem_cons_of_mem call hc)
  epoch := fun c hc => h.epoch c (List.mem_cons_of_mem call hc)
  valid := fun c hc => h.valid c (List.mem_cons_of_mem call hc)
  clock := (List.pairwise_cons.1 h.clock).2

theorem OneStore.suffix {later : List AllowCall} (h : OneStore limiter (later ++ past)) :
    OneStore limiter past := by
  induction later with
  | nil => exact h
  | cons call later ih => exact ih h.tail

/-- The last year of a `datetime` is 9999. -/
theorem instant_lt_of_valid {now : Datetime} (h : now.Valid) : now.instant < 2 ^ 52 * 1000000 := by
  obtain ⟨-, hwall, hoffset, -⟩ := h
  unfold Datetime.wall Datetime.epochOrdinal Datetime.microsPerDay Calendar.maxOrdinal at hwall
  unfold Datetime.microsPerDay at hoffset
  omega

theorem granted_le_add {counts first second : AllowCall → Bool}
    (h : ∀ call ∈ calls, counts call = true → first call = true ∨ second call = true) :
    AllowCall.granted takes counts calls ≤
      AllowCall.granted takes first calls + AllowCall.granted takes second calls := by
  induction calls with
  | nil => simp [AllowCall.granted]
  | cons call past ih =>
      have hpast := ih fun c hc => h c (List.mem_cons_of_mem call hc)
      simp only [AllowCall.granted]
      by_cases hin : counts call = true
      · rcases h call List.mem_cons_self hin with hfirst | hsecond
        · rw [hin, hfirst]
          omega
        · rw [hin, hsecond]
          omega
      · rw [Bool.not_eq_true] at hin
        simp only [hin, Bool.false_and, Bool.false_eq_true, if_false]
        omega

theorem Ranked.tail {limit : ℤ} (h : Ranked takes limit (call :: past)) : Ranked takes limit past := by
  intro later other earlier hpast
  exact h (call :: later) other earlier (by rw [hpast, List.cons_append])

/-- Where the answers go by the rank, a window grants its first `limit` calls and no others. -/
theorem granted_window {limit : ℤ} (hlimit : 1 ≤ limit) (h : Ranked takes limit calls) (userId : UUID)
    (window : ℤ) :
    (AllowCall.granted takes (AllowCall.inWindow userId window) calls : ℤ) =
      min (calls.countP (AllowCall.inWindow userId window) : ℤ) limit := by
  induction calls with
  | nil => simp [AllowCall.granted]; omega
  | cons call past ih =>
      have hpast := ih h.tail
      have hallowed := h [] call past rfl
      rw [AllowCall.granted, List.countP_cons, hallowed]
      by_cases hin : AllowCall.inWindow userId window call = true
      · have hrank : call.rank past = past.countP (AllowCall.inWindow userId window) + 1 := by
          simp only [AllowCall.inWindow, Bool.and_eq_true, decide_eq_true_eq] at hin
          rw [AllowCall.rank, hin.1, hin.2]
        rw [hin, hrank]
        by_cases hle : (((past.countP (AllowCall.inWindow userId window) + 1 : ℕ) : ℤ) ≤ limit)
        · simp only [hle, decide_true, Bool.and_self, if_true]
          push_cast at hle ⊢
          omega
        · simp only [hle, decide_false, Bool.and_false, Bool.false_eq_true, if_false, if_true]
          push_cast at hle ⊢
          omega
      · rw [Bool.not_eq_true] at hin
        simp [hin, hpast]

theorem granted_interval_le (h : OneStore limiter calls) (userId : UUID) {start : ℤ}
    (htwo : limiter.TwoWindows start) (takes : ℤ → ℤ → Bool) :
    ∃ window, AllowCall.granted takes (AllowCall.inInterval userId start limiter.ttl) calls ≤
      AllowCall.granted takes (AllowCall.inWindow userId window) calls +
        AllowCall.granted takes (AllowCall.inWindow userId (window + 1)) calls := by
  obtain ⟨window, hwindows⟩ := htwo
  refine ⟨window, granted_le_add fun call hcall hin => ?_⟩
  simp only [AllowCall.inInterval, Bool.and_eq_true, decide_eq_true_eq] at hin
  obtain ⟨⟨huser, hstart⟩, hend⟩ := hin
  have hlimiter : call.window = limiter.window call.now := by rw [AllowCall.window, h.same call hcall]
  rcases hwindows call.now (h.epoch call hcall) hstart hend with hfirst | hsecond
  · left
    simp [AllowCall.inWindow, huser, hlimiter, hfirst]
  · right
    simp [AllowCall.inWindow, huser, hlimiter, hsecond]

variable (hlimit : 1 ≤ limiter.limit) (hwindow : 1 ≤ limiter.windowSeconds)
include hlimit hwindow

/-- The calls are uses of their keys, and nothing else touches the counters. -/
theorem countersLeft_eq (h : OneStore limiter calls) :
    AllowCall.countersLeft takes calls =
      Volatile.after (fun u => takes limiter.windowSeconds u.now) limiter.ttl
        (calls.map AllowCall.use) := by
  induction calls with
  | nil => rfl
  | cons call past ih =>
      have hsame := h.same call List.mem_cons_self
      rw [AllowCall.countersLeft, ih h.tail, allow_eq (by rw [hsame]; exact hlimit)
        (by rw [hsame]; omega) (h.reachable call List.mem_cons_self), AllowCall.taken, hsame]
      rfl

/-- A call is answered by its rank, unless `EXPIRE` is refused: then it returns `True`. -/
theorem allowed_eq (h : OneStore limiter (call :: past)) :
    call.allowed takes past =
      (!call.taken takes || decide ((call.rank past : ℤ) ≤ limiter.limit)) := by
  have hsame := h.same call List.mem_cons_self
  have hclock : ∀ x ∈ past.map AllowCall.use, x.now ≤ call.use.now := by
    intro x hx
    obtain ⟨c, hc, rfl⟩ := List.mem_map.1 hx
    exact (List.pairwise_cons.1 h.clock).1 c hc
  -- a call under the same key is of the same window, so it is not as old as the time to live
  have hfresh : ∀ x ∈ past.map AllowCall.use, x.key = call.use.key →
      call.use.now < x.now + limiter.ttl := by
    intro x hx hkey
    obtain ⟨c, hc, rfl⟩ := List.mem_map.1 hx
    have hmem := List.mem_cons_of_mem call hc
    have hwindows : limiter.window c.now = limiter.window call.now := by
      rw [AllowCall.use_key, AllowCall.use_key, AllowCall.window, AllowCall.window, h.same c hmem,
        hsame] at hkey
      exact (key_injective hkey).2
    by_contra hold
    have hlater := window_lt hwindow (h.epoch c hmem)
      (instant_lt_of_valid (h.valid call List.mem_cons_self)) (not_lt.1 hold)
    omega
  have hcount : (past.map AllowCall.use).countP (fun x => decide (x.key = call.use.key)) =
      past.countP (AllowCall.inWindow call.userId call.window) := by
    rw [List.countP_map]
    refine List.countP_congr fun c _ => ?_
    rw [Function.comp_apply, decide_eq_true_iff]
    exact use_key_eq_iff
  have hanswer := Volatile.use_exact (fun u => takes limiter.windowSeconds u.now) (ttl_pos hwindow)
    hclock hfresh
  have htaken : call.taken takes = takes limiter.windowSeconds call.use.now := by
    rw [AllowCall.taken, hsame]
    rfl
  rw [hcount] at hanswer
  rw [AllowCall.allowed, countersLeft_eq hlimit hwindow h.tail, allow_eq (by rw [hsame]; exact hlimit)
    (by rw [hsame]; omega) (h.reachable call List.mem_cons_self), htaken, hsame, hanswer, AllowCall.rank]
  cases takes limiter.windowSeconds call.use.now <;> rfl

/-- The quota is exact and shared if and only if `EXPIRE` takes the length of the window at every call
    beyond the limit: whatever limiter a call is made on and whatever other users do, the `k`-th call of
    a user in a window then returns `True` if and only if `k` is within the limit. And then no more than
    twice the limit is granted in a stretch of a window's length whose readings are of two windows, as
    they are up to 2514. The first call of a window is never refused. -/
theorem quota_exact_iff (h : OneStore limiter calls) :
    (Ranked takes limiter.limit calls ↔ Armed takes limiter.limit calls) ∧
    (Armed takes limiter.limit calls → ∀ userId start, limiter.TwoWindows start ∨
        start + limiter.windowSeconds * 1000000 ≤ 2 ^ 34 * 1000000 →
      (AllowCall.granted takes (AllowCall.inInterval userId start
        (limiter.windowSeconds * 1000000)) calls : ℤ) ≤ 2 * limiter.limit) ∧
    ∀ later call past, calls = later ++ call :: past →
      (∀ c ∈ past, AllowCall.inWindow call.userId call.window c = false) →
      call.allowed takes past = true := by
  have hanswer : ∀ later call past, calls = later ++ call :: past → call.allowed takes past =
      (!call.taken takes || decide ((call.rank past : ℤ) ≤ limiter.limit)) := by
    intro later call past hcalls
    exact allowed_eq hlimit hwindow (hcalls ▸ h).suffix
  have hranked : Ranked takes limiter.limit calls ↔ Armed takes limiter.limit calls := by
    constructor
    · intro hranked later call past hcalls hmany
      have hrefused := hranked later call past hcalls
      rw [hanswer later call past hcalls, decide_eq_false (by omega), Bool.or_false] at hrefused
      simpa using hrefused
    · intro harmed later call past hcalls
      rw [hanswer later call past hcalls]
      by_cases hle : (call.rank past : ℤ) ≤ limiter.limit
      · rw [decide_eq_true hle, Bool.or_true]
      · rw [harmed later call past hcalls (by omega)]
        rfl
  refine ⟨hranked, fun harmed userId start htwo => ?_, fun later call past hcalls hfirst => ?_⟩
  · have htwo : limiter.TwoWindows start := htwo.elim id (twoWindows_early hwindow)
    obtain ⟨window, hle⟩ := granted_interval_le h userId htwo takes
    have hone := granted_window hlimit (hranked.2 harmed) userId window
    have hnext := granted_window hlimit (hranked.2 harmed) userId (window + 1)
    show (AllowCall.granted takes (AllowCall.inInterval userId start limiter.ttl) calls : ℤ) ≤
      2 * limiter.limit
    omega
  · have hnone : past.countP (AllowCall.inWindow call.userId call.window) = 0 := by
      rw [List.countP_eq_zero]
      intro c hc
      simp [hfirst c hc]
    rw [hanswer later call past hcalls, AllowCall.rank, hnone, decide_eq_true (by simpa using hlimit),
      Bool.or_true]

end Quota

/-- The durations Redis takes: the deadline, in milliseconds, is a signed 64-bit number. -/
def expirable (seconds now : ℤ) : Bool :=
  decide (-9223372036854775 ≤ seconds) &&
    decide (seconds * 1000 + now / 1000 ≤ 9223372036854775807)

/-- A call of one user at a reading of the clock, with Redis there. -/
def oneCall (limiter : RedisRateLimiter) (userId : UUID) (instant : ℤ) : AllowCall :=
  ⟨limiter, userId, ⟨instant, 0⟩, true, fun _ => true⟩

/-- Two replicas, a limit of two: the third call of the user in the window is refused, though another
    user has called in between. -/
theorem quota_exact_shared :
    let call := oneCall ⟨2, 10⟩
    let calls := [call 7 3000000, call 7 2000000, call 8 1500000, call 7 1000000]
    Ranked expirable 2 calls ∧ (call 7 3000000).rank calls.tail = 3 ∧
      (AllowCall.granted expirable (AllowCall.inInterval 7 0 10000000) calls : ℤ) ≤ 2 * 2 := by
  intro call calls
  have hstore : OneStore ⟨2, 10⟩ calls :=
    ⟨by simp [calls, call, oneCall], by simp [calls, call, oneCall], by simp [calls, call, oneCall],
      by decide, by simp [calls, call, oneCall]⟩
  have htaken : ∀ c ∈ calls, c.taken expirable = true := by decide
  have harmed : Armed expirable 2 calls := fun later c past hcalls _ =>
    htaken c (hcalls ▸ List.mem_append_right later List.mem_cons_self)
  have hranked : Ranked expirable 2 calls :=
    (quota_exact_iff (by decide) (by decide) hstore).1.2 harmed
  have htwo := (quota_exact_iff (by decide) (by decide) hstore).2.1 harmed 7 0 (.inr (by decide))
  exact ⟨hranked, by decide, htwo⟩

/-- With a window that Redis does not take, a limit of one lets a second call through. And in 3058, where
    the seconds need a bit more, three calls of a user within ten seconds are of three windows. -/
theorem quota_notExact :
    ¬ Ranked expirable 1
        [oneCall ⟨1, 10 ^ 16⟩ 7 2000000, oneCall ⟨1, 10 ^ 16⟩ 7 1000000] ∧
      AllowCall.granted expirable (AllowCall.inInterval 7 34359738359999998 10000000)
        [oneCall ⟨1, 10⟩ 7 34359738369999997, oneCall ⟨1, 10⟩ 7 34359738365000000,
          oneCall ⟨1, 10⟩ 7 34359738359999998] = 3 := by
  refine ⟨fun hranked => ?_, by decide +kernel⟩
  have hsecond := hranked [] _ _ rfl
  revert hsecond
  decide +kernel

end Dizzchat
