import Dizzchat.Arithmetic.TrueDivision
import Mathlib.Data.Int.Notation
import Mathlib.Data.List.DropRight

set_option autoImplicit false

/-! # Values of the Python runtime

The library types the domain is built from: `uuid.UUID`, timezone-aware `datetime`, `timedelta`,
and `str.strip`. -/

namespace Dizzchat

/-- A `uuid.UUID`. -/
abbrev UUID := BitVec 128

/-- A `timedelta`, in microseconds. -/
structure Timedelta where
  micros : Int
deriving DecidableEq, Repr

/-- A timezone-aware `datetime`: the instant it names, in microseconds since the epoch, and the
    offset it is written with. Comparison looks at the instant only. -/
structure Datetime where
  instant : Int
  utcoffset : Int := 0
deriving DecidableEq, Repr

namespace Datetime

instance : LT Datetime := ⟨fun a b => a.instant < b.instant⟩

instance (a b : Datetime) : Decidable (a < b) := inferInstanceAs (Decidable (a.instant < b.instant))

instance : HAdd Datetime Timedelta Datetime :=
  ⟨fun t d => { t with instant := t.instant + d.micros }⟩

/-- `int(now.timestamp())`. The timestamp is a `float`: the microseconds are divided by a million, and
    the quotient is rounded before `int` cuts it down. -/
def seconds (now : Datetime) : ℤ :=
  now.instant.sign * (Arithmetic.truncDiv 52 now.instant.natAbs 1000000 : ℕ)

section Seconds

variable {now later : Datetime}

theorem seconds_of_nonneg (h : 0 ≤ now.instant) :
    now.seconds = (Arithmetic.truncDiv 52 now.instant.toNat 1000000 : ℕ) := by
  obtain ⟨instant, offset⟩ := now
  obtain ⟨n, rfl⟩ := Int.eq_ofNat_of_zero_le h
  cases n with
  | zero =>
      have hzero : Arithmetic.truncDiv 52 0 1000000 = 0 := by decide
      show (0 : ℤ).sign * _ = ((Arithmetic.truncDiv 52 0 1000000 : ℕ) : ℤ)
      rw [hzero, Int.sign_zero, Int.zero_mul, Int.natCast_zero]
  | succ n =>
      show ((n + 1 : ℕ) : ℤ).sign * _ = _
      rw [Int.sign_natCast_of_ne_zero (Nat.succ_ne_zero n), one_mul]
      rfl

/-- Up to 2514 the rounding does not reach the next second. -/
theorem seconds_exact (h : 0 ≤ now.instant) (hearly : now.instant < 2 ^ 34 * 1000000) :
    now.seconds = now.instant / 1000000 := by
  have hquotient : now.instant.toNat / 1000000 < 2 ^ (33 + 1) :=
    Nat.div_lt_of_lt_mul (by omega)
  have hplaces : 2 ^ (52 - 33) ≤ Arithmetic.places 52 (now.instant.toNat / 1000000) :=
    Arithmetic.le_places hquotient
  rw [seconds_of_nonneg h, Arithmetic.truncDiv_exact (by omega) (by omega) (by omega) (by omega)]
  omega

/-- A reading that is whole seconds later is as many seconds later at least, rounded or not. -/
theorem seconds_add_le (h : 0 ≤ now.instant) (hlater : later.instant < 2 ^ 52 * 1000000) {k : ℕ}
    (hle : now.instant + k * 1000000 ≤ later.instant) : now.seconds + k ≤ later.seconds := by
  have hquotient : later.instant.toNat / 1000000 < 2 ^ 52 := Nat.div_lt_of_lt_mul (by omega)
  have hsum : now.instant.toNat + k * 1000000 ≤ later.instant.toNat := by omega
  have hmono : Arithmetic.truncDiv 52 (now.instant.toNat + k * 1000000) 1000000 ≤
      Arithmetic.truncDiv 52 later.instant.toNat 1000000 :=
    Arithmetic.truncDiv_mono (by omega) (by omega) hquotient hsum
  have hadd : Arithmetic.truncDiv 52 now.instant.toNat 1000000 + k ≤
      Arithmetic.truncDiv 52 (now.instant.toNat + k * 1000000) 1000000 :=
    Arithmetic.truncDiv_add (by omega) (by omega)
      (lt_of_le_of_lt (Nat.div_le_div_right hsum) hquotient)
  rw [seconds_of_nonneg h, seconds_of_nonneg (by omega)]
  omega

end Seconds

end Datetime

/-! ## `str.strip` -/

/-- The characters `str.strip` removes: Unicode white space as `str.isspace` counts it. -/
def isSpace (c : Char) : Bool :=
  let n := c.toNat
  (9 ≤ n && n ≤ 13) || (28 ≤ n && n ≤ 32) || n = 0x85 || n = 0xa0 || n = 0x1680 ||
    (0x2000 ≤ n && n ≤ 0x200a) || n = 0x2028 || n = 0x2029 || n = 0x202f || n = 0x205f || n = 0x3000

def stripChars (cs : List Char) : List Char :=
  (cs.dropWhile isSpace).rdropWhile isSpace

/-- `str.strip()`. -/
def strip (s : String) : String :=
  String.ofList (stripChars s.toList)

theorem stripChars_idem (cs : List Char) : stripChars (stripChars cs) = stripChars cs := by
  have hhead : (stripChars cs).dropWhile isSpace = stripChars cs := by
    rw [List.dropWhile_eq_self_iff]
    intro hpos
    -- The first character left is the first one `dropWhile` stopped at.
    have hpre : stripChars cs <+: cs.dropWhile isSpace := List.rdropWhile_prefix isSpace _
    have hlen : 0 < (cs.dropWhile isSpace).length := Nat.lt_of_lt_of_le hpos hpre.length_le
    have hstop := (List.dropWhile_eq_self_iff (p := isSpace)).1
      (List.dropWhile_idempotent isSpace cs) hlen
    rwa [← hpre.getElem hpos] at hstop
  rw [stripChars, hhead, stripChars]
  exact List.rdropWhile_idempotent _ _

theorem strip_idem (s : String) : strip (strip s) = strip s := by
  rw [strip, strip, String.toList_ofList, stripChars_idem]

/-- A character that is not white space survives. -/
theorem strip_ne_empty {s : String} {c : Char} (hc : c ∈ s.toList) (hspace : isSpace c = false) :
    strip s ≠ "" := by
  intro h
  have hnil : stripChars s.toList = [] := by
    simpa [strip] using congrArg String.toList h
  rw [stripChars, List.rdropWhile_eq_nil_iff] at hnil
  have hmem : c ∈ s.toList.takeWhile isSpace ++ s.toList.dropWhile isSpace := by
    rwa [List.takeWhile_append_dropWhile]
  have htrue : isSpace c = true := by
    rcases List.mem_append.1 hmem with h | h
    · exact List.mem_takeWhile_imp h
    · exact hnil c h
  simp [hspace] at htrue

example : strip " \t team chat\n" = "team chat" := by decide

end Dizzchat
