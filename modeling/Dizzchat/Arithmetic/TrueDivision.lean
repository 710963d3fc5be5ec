import Mathlib.Algebra.Order.Ring.Nat
import Mathlib.Tactic.Linarith
import Mathlib.Tactic.Ring

set_option autoImplicit false

/-! # The integer part of a quotient in floating point

A quotient of natural numbers is rounded to a binary number with `bits` bits after the leading one, to
the nearest, ties to even, and then cut down to its integer part. `truncDiv_eq` says when that is one
more than the quotient; a quotient of few bits never is (`truncDiv_exact`). What is counted by it stays
in step: it is monotone, and `d` more in the dividend are one more at least. -/

namespace Arithmetic

/-- The nearest natural number to the quotient, the even one of two that are as near. -/
def roundHalfEven (n d : ℕ) : ℕ :=
  if 2 * (n % d) < d then n / d
  else if d < 2 * (n % d) then n / d + 1
  else n / d + n / d % 2

/-- How many of its last place make one, in a number with integer part `q`. -/
def places (bits q : ℕ) : ℕ := 2 ^ (bits - q.log2)

/-- The integer part of the quotient in floating point, for quotients below `2 ^ (bits + 1)`. Of a
    quotient below one it takes fewer bits than there are, which tells only for divisors of more than
    `2 ^ (bits + 1)`. -/
def truncDiv (bits n d : ℕ) : ℕ := roundHalfEven (n * places bits (n / d)) d / places bits (n / d)

variable {bits n m d q : ℕ}

theorem places_pos : 0 < places bits q := Nat.two_pow_pos _

theorem places_even (hbits : 0 < bits) (hq : q < 2 ^ bits) : places bits q % 2 = 0 := by
  have hlog : q.log2 < bits := by
    rcases Nat.eq_zero_or_pos q with rfl | hpos
    · rwa [Nat.log2_zero]
    · exact (Nat.log2_lt hpos.ne').2 hq
  obtain ⟨k, hk⟩ := Nat.exists_eq_add_of_lt hlog
  have hplaces : places bits q = 2 ^ (k + 1) := by
    unfold places
    congr 1
    omega
  rw [hplaces, pow_succ, Nat.mul_mod_left]

/-- There are fewer places to a larger number. -/
theorem places_antitone {p : ℕ} (h : q ≤ p) : places bits p ≤ places bits q := by
  unfold places
  refine Nat.pow_le_pow_right (by omega) (Nat.sub_le_sub_left ?_ bits)
  rcases Nat.eq_zero_or_pos q with rfl | hpos
  · rw [Nat.log2_zero]
    exact Nat.zero_le _
  · rw [Nat.le_log2 (by omega)]
    exact (Nat.log2_self_le hpos.ne').trans h

theorem le_places {k : ℕ} (hq : q < 2 ^ (k + 1)) : 2 ^ (bits - k) ≤ places bits q := by
  unfold places
  refine Nat.pow_le_pow_right (by omega) (Nat.sub_le_sub_left ?_ bits)
  rcases Nat.eq_zero_or_pos q with rfl | hpos
  · rw [Nat.log2_zero]
    exact Nat.zero_le _
  · exact Nat.le_of_lt_succ ((Nat.log2_lt hpos.ne').2 hq)

/-- Rounding takes the quotient to the next natural number. -/
def RoundsUp (bits n d : ℕ) : Prop := 2 * (places bits (n / d) * (d - n % d)) ≤ d

instance (bits n d : ℕ) : Decidable (RoundsUp bits n d) := inferInstanceAs (Decidable (_ ≤ _))

/-- A number that lies below a multiple of `d` by `y`, at most half of `d`, is rounded to it, when the
    multiple is an even one. -/
theorem roundHalfEven_up {a y : ℕ} (ha : a % 2 = 0) (hpos : 0 < a) (hy : 0 < y) (hup : 2 * y ≤ d) :
    roundHalfEven (a * d - y) d = a := by
  have hsplit : a * d - y = (d - y) + d * (a - 1) := by
    obtain ⟨b, rfl⟩ := Nat.exists_eq_add_of_lt hpos
    have hmul : (0 + b + 1) * d = d * b + d := by ring
    rw [hmul, show 0 + b + 1 - 1 = b by omega]
    omega
  have hmod : (a * d - y) % d = d - y := by
    rw [hsplit, Nat.add_mul_mod_self_left, Nat.mod_eq_of_lt (by omega)]
  have hdiv : (a * d - y) / d = a - 1 := by
    rw [hsplit, Nat.add_mul_div_left _ _ (by omega), Nat.div_eq_of_lt (by omega), Nat.zero_add]
  unfold roundHalfEven
  rw [hmod, hdiv]
  split
  · omega
  · split
    · omega
    · omega

/-- A number that lies below a multiple of `d` by more than half of `d` is not rounded to it. -/
theorem roundHalfEven_lt {a y : ℕ} (hd : 0 < d) (hy : y ≤ a * d) (hdown : d < 2 * y) :
    roundHalfEven (a * d - y) d < a := by
  have hlt : (a * d - y) / d < a := (Nat.div_lt_iff_lt_mul hd).2 (by omega)
  have hmod := Nat.div_add_mod (a * d - y) d
  unfold roundHalfEven
  split
  · exact hlt
  · next hnear =>
    -- half or more is left over, so there is a whole multiple between
    have hnext : (a * d - y) / d + 1 < a := by
      by_contra hge
      have heq : (a * d - y) / d + 1 = a := by omega
      have hmul : a * d = d * ((a * d - y) / d) + d :=
        (congrArg (· * d) heq.symm).trans (by ring)
      omega
    split
    · exact hnext
    · omega

theorem le_roundHalfEven : n / d ≤ roundHalfEven n d := by
  unfold roundHalfEven
  split
  · exact le_rfl
  · split <;> omega

theorem div_roundHalfEven (hd : 0 < d) {u : ℕ} (heven : u % 2 = 0) (hpos : 0 < u) :
    roundHalfEven (n * u) d / u = if 2 * (u * (d - n % d)) ≤ d then n / d + 1 else n / d := by
  have hlt := Nat.mod_lt n hd
  -- in last places, how far the quotient lies below the next integer
  have hbelow : n * u + u * (d - n % d) = (n / d + 1) * u * d := by
    have hn : n + (d - n % d) = (n / d + 1) * d := by
      have hmod := Nat.div_add_mod n d
      have hmul : (n / d + 1) * d = d * (n / d) + d := by ring
      omega
    calc n * u + u * (d - n % d) = (n + (d - n % d)) * u := by ring
      _ = (n / d + 1) * u * d := by rw [hn]; ring
  have hy : 0 < u * (d - n % d) := Nat.mul_pos hpos (by omega)
  generalize u * (d - n % d) = y at hbelow hy
  have hn : n * u = (n / d + 1) * u * d - y := by omega
  have hle : n / d * u ≤ roundHalfEven (n * u) d := by
    refine le_trans ?_ le_roundHalfEven
    rw [mul_comm, mul_comm n u]
    exact Nat.mul_div_le_mul_div_assoc u n d
  split
  · next hup =>
    have hnext : ((n / d + 1) * u) % 2 = 0 := by
      rw [Nat.mul_mod, heven, Nat.mul_zero, Nat.zero_mod]
    rw [hn, roundHalfEven_up hnext (Nat.mul_pos (Nat.succ_pos _) hpos) hy hup,
      Nat.mul_div_cancel _ hpos]
  · next hdown =>
    have hlt : roundHalfEven (n * u) d < (n / d + 1) * u := by
      rw [hn]
      exact roundHalfEven_lt hd (by omega) (by omega)
    refine le_antisymm (Nat.le_of_lt_succ ?_) ?_
    · exact (Nat.div_lt_iff_lt_mul hpos).2 hlt
    · exact (Nat.le_div_iff_mul_le hpos).2 hle

/-- The quotient is cut down to its integer part, or rounded up to the next. -/
theorem truncDiv_eq (hbits : 0 < bits) (hd : 0 < d) (hq : n / d < 2 ^ bits) :
    truncDiv bits n d = if RoundsUp bits n d then n / d + 1 else n / d :=
  div_roundHalfEven hd (places_even hbits hq) places_pos

/-- A divisor with fewer than half a last place to a unit is exact. -/
theorem truncDiv_exact (hbits : 0 < bits) (hd : 0 < d) (hq : n / d < 2 ^ bits)
    (hexact : d < 2 * places bits (n / d)) : truncDiv bits n d = n / d := by
  rw [truncDiv_eq hbits hd hq, if_neg]
  intro hup
  have hlt := Nat.mod_lt n hd
  have hone : places bits (n / d) * 1 ≤ places bits (n / d) * (d - n % d) :=
    Nat.mul_le_mul_left _ (by omega)
  unfold RoundsUp at hup
  omega

theorem le_truncDiv (hbits : 0 < bits) (hd : 0 < d) (hq : n / d < 2 ^ bits) :
    n / d ≤ truncDiv bits n d := by
  rw [truncDiv_eq hbits hd hq]
  split <;> omega

theorem truncDiv_le (hbits : 0 < bits) (hd : 0 < d) (hq : n / d < 2 ^ bits) :
    truncDiv bits n d ≤ n / d + 1 := by
  rw [truncDiv_eq hbits hd hq]
  split <;> omega

theorem truncDiv_mono (hbits : 0 < bits) (hd : 0 < d) (hq : m / d < 2 ^ bits) (h : n ≤ m) :
    truncDiv bits n d ≤ truncDiv bits m d := by
  have hdiv : n / d ≤ m / d := Nat.div_le_div_right h
  have hq' : n / d < 2 ^ bits := lt_of_le_of_lt hdiv hq
  rcases Nat.lt_or_eq_of_le hdiv with hlt | heq
  · exact (truncDiv_le hbits hd hq').trans (le_trans hlt (le_truncDiv hbits hd hq))
  · -- the same integer part, and the larger one has more left over
    have hup : RoundsUp bits n d → RoundsUp bits m d := by
      intro hup
      have hn := Nat.div_add_mod n d
      have hm := Nat.div_add_mod m d
      rw [heq] at hn
      unfold RoundsUp at hup ⊢
      rw [heq] at hup
      refine le_trans (Nat.mul_le_mul_left 2 (Nat.mul_le_mul_left _ ?_)) hup
      omega
    rw [truncDiv_eq hbits hd hq', truncDiv_eq hbits hd hq, heq]
    split
    · next hn => rw [if_pos (hup hn)]
    · split <;> omega

/-- One divisor more is one more at least: what is rounded up is rounded up there as well. -/
theorem truncDiv_succ (hbits : 0 < bits) (hd : 0 < d) (hq : (n + d) / d < 2 ^ bits) :
    truncDiv bits n d + 1 ≤ truncDiv bits (n + d) d := by
  have hdiv : (n + d) / d = n / d + 1 := Nat.add_div_right n hd
  have hup : RoundsUp bits n d → RoundsUp bits (n + d) d := by
    intro hup
    unfold RoundsUp at hup ⊢
    rw [Nat.add_mod_right]
    refine le_trans (Nat.mul_le_mul_left 2 (Nat.mul_le_mul_right _ (places_antitone ?_))) hup
    omega
  rw [truncDiv_eq hbits hd (by omega), truncDiv_eq hbits hd hq, hdiv]
  split
  · next hn => rw [if_pos (hup hn)]
  · split <;> omega

theorem truncDiv_add (hbits : 0 < bits) (hd : 0 < d) {k : ℕ} (hq : (n + k * d) / d < 2 ^ bits) :
    truncDiv bits n d + k ≤ truncDiv bits (n + k * d) d := by
  induction k with
  | zero => simp
  | succ k ih =>
      have hstep : n + (k + 1) * d = n + k * d + d := by ring
      rw [hstep] at hq ⊢
      have hsmall : (n + k * d) / d < 2 ^ bits :=
        lt_of_le_of_lt (Nat.div_le_div_right (Nat.le_add_right _ _)) hq
      have hih := ih hsmall
      have hsucc := truncDiv_succ hbits hd hq
      omega

end Arithmetic
