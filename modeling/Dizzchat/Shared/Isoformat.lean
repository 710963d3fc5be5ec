import Dizzchat.Shared.Values
import Dizzchat.Text.Calendar
import Dizzchat.Text.Numeral

set_option autoImplicit false

/-! # The text of a datetime

`datetime.isoformat` of a timezone-aware `datetime`, and `datetime.fromisoformat` for the texts of that
shape; the other forms of ISO 8601 are refused. Offsets are in microseconds. -/

namespace Dizzchat

open Text

namespace Datetime

/-- The ordinal of the first of January 1970. -/
def epochOrdinal : Int := 719163

def microsPerDay : Int := 86400000000

/-- What the clock on the wall shows, in microseconds since the epoch. -/
def wall (t : Datetime) : Int := t.instant + t.utcoffset

/-- The bounds of the constructors of `datetime` and `timezone`: a year of four digits from 1 on, and
    an offset of less than a day. -/
def Valid (t : Datetime) : Prop :=
  1 ≤ t.wall / microsPerDay + epochOrdinal ∧
    t.wall / microsPerDay + epochOrdinal ≤ Calendar.maxOrdinal ∧
    -microsPerDay < t.utcoffset ∧ t.utcoffset < microsPerDay

instance (t : Datetime) : Decidable t.Valid := inferInstanceAs (Decidable (_ ∧ _))

/-! ## Writing -/

def fractionChars (micros : ℕ) : List Char :=
  if micros = 0 then [] else '.' :: pad 10 6 micros

/-- `HH:MM`, in microseconds of a day. -/
def minuteChars (micros : ℕ) : List Char :=
  pad 10 2 (micros / 3600000000) ++ ':' :: pad 10 2 (micros / 60000000 % 60)

def secondChars (micros : ℕ) : List Char :=
  ':' :: (pad 10 2 (micros / 1000000 % 60) ++ fractionChars (micros % 1000000))

/-- No seconds where there are none. -/
def spanChars (micros : ℕ) : List Char :=
  minuteChars micros ++ if micros % 60000000 = 0 then [] else secondChars micros

/-- `_format_offset` -/
def offsetChars (utcoffset : Int) : List Char :=
  if utcoffset < 0 then '-' :: spanChars utcoffset.natAbs else '+' :: spanChars utcoffset.natAbs

def dateChars (date : Calendar.Date) : List Char :=
  pad 10 4 date.year ++ '-' :: (pad 10 2 date.month ++ '-' :: pad 10 2 date.day)

/-- `datetime.isoformat()` -/
def isoformat (t : Datetime) : String :=
  let date := Calendar.ofOrdinal (t.wall / microsPerDay + epochOrdinal).toNat
  let micros := (t.wall % microsPerDay).toNat
  String.ofList (dateChars date ++ 'T' :: (minuteChars micros ++
    (secondChars micros ++ offsetChars t.utcoffset)))

/-! ## Reading -/

/-- A number of a fixed width below a limit. -/
def scanDigits (width limit : ℕ) (cs : List Char) : Option (ℕ × List Char) :=
  if (cs.take width).length = width then
    (read 10 (cs.take width)).bind fun n => if n < limit then some (n, cs.drop width) else none
  else none

def scanChar (c : Char) : List Char → Option (List Char)
  | [] => none
  | d :: cs => if d = c then some cs else none

def scanDate (cs : List Char) : Option (Calendar.Date × List Char) := do
  let (year, cs) ← scanDigits 4 10000 cs
  let cs ← scanChar '-' cs
  let (month, cs) ← scanDigits 2 13 cs
  let cs ← scanChar '-' cs
  let (day, cs) ← scanDigits 2 32 cs
  if Calendar.Date.Valid ⟨year, month, day⟩ then some (⟨year, month, day⟩, cs) else none

def scanMinutes (cs : List Char) : Option (ℕ × List Char) := do
  let (hour, cs) ← scanDigits 2 24 cs
  let cs ← scanChar ':' cs
  let (minute, cs) ← scanDigits 2 60 cs
  some (hour * 3600000000 + minute * 60000000, cs)

def scanFraction (cs : List Char) : Option (ℕ × List Char) :=
  match scanChar '.' cs with
  | some cs => scanDigits 6 1000000 cs
  | none => some (0, cs)

def scanSeconds (cs : List Char) : Option (ℕ × List Char) := do
  let cs ← scanChar ':' cs
  let (second, cs) ← scanDigits 2 60 cs
  let (micros, cs) ← scanFraction cs
  some (second * 1000000 + micros, cs)

def scanSpan (cs : List Char) : Option ℕ := do
  let (minutes, cs) ← scanMinutes cs
  let (seconds, cs) ← if cs = [] then some (0, cs) else scanSeconds cs
  if cs = [] then some (minutes + seconds) else none

def scanOffset : List Char → Option Int
  | '+' :: cs => (scanSpan cs).map fun micros => (micros : Int)
  | '-' :: cs => (scanSpan cs).map fun micros => -(micros : Int)
  | _ => none

/-- `datetime.fromisoformat(text)` -/
def fromisoformat (text : String) : Option Datetime := do
  let (date, cs) ← scanDate text.toList
  let cs ← scanChar 'T' cs
  let (minutes, cs) ← scanMinutes cs
  let (seconds, cs) ← scanSeconds cs
  let utcoffset ← scanOffset cs
  let wall := (date.ordinal - epochOrdinal) * microsPerDay + (minutes + seconds : ℕ)
  some { instant := wall - utcoffset, utcoffset }

/-! ## What is written is read back -/

theorem scanDigits_pad {width limit n : ℕ} (hwidth : 0 < width) (hn : n < 10 ^ width)
    (hlimit : n < limit) (cs : List Char) :
    scanDigits width limit (pad 10 width n ++ cs) = some (n, cs) := by
  have htake : (pad 10 width n ++ cs).take width = pad 10 width n := by
    rw [List.take_append_of_le_length (by simp), List.take_of_length_le (by simp)]
  have hdrop : (pad 10 width n ++ cs).drop width = cs := by
    rw [List.drop_append_of_le_length (by simp), List.drop_of_length_le (by simp)]
    rfl
  rw [scanDigits, htake, hdrop, if_pos (length_pad _ _ _),
    read_pad (by omega) (by omega) hwidth hn, Option.bind_some, if_pos hlimit]

@[simp]
theorem scanChar_cons (c : Char) (cs : List Char) : scanChar c (c :: cs) = some cs := by
  simp [scanChar]

theorem scanDate_dateChars {date : Calendar.Date} (hvalid : date.Valid) (cs : List Char) :
    scanDate (dateChars date ++ cs) = some (date, cs) := by
  obtain ⟨hyear, hyear', hmonth, hmonth', hday, hday'⟩ := hvalid
  have hlast : date.day < 32 := by
    have hdays : ∀ leap : Bool, ∀ month ≤ 12, Calendar.daysInMonth leap month ≤ 31 := by decide
    have hthis := hdays (Calendar.isLeap date.year) date.month hmonth'
    omega
  unfold scanDate dateChars
  simp only [List.append_assoc, List.cons_append]
  rw [scanDigits_pad (by omega) (by omega) (by omega)]
  simp only [Option.bind_eq_bind, Option.bind_some, scanChar_cons]
  rw [scanDigits_pad (by omega) (by omega) (by omega)]
  simp only [Option.bind_some, scanChar_cons]
  rw [scanDigits_pad (by omega) (by omega) hlast]
  exact if_pos ⟨hyear, hyear', hmonth, hmonth', hday, hday'⟩

theorem scanMinutes_minuteChars {micros : ℕ} (hday : micros < 86400000000) (cs : List Char) :
    scanMinutes (minuteChars micros ++ cs) = some (micros / 60000000 * 60000000, cs) := by
  have hhour : micros / 3600000000 < 24 := by omega
  have hminute : micros / 60000000 % 60 < 60 := by omega
  have hsum : micros / 3600000000 * 3600000000 + micros / 60000000 % 60 * 60000000 =
      micros / 60000000 * 60000000 := by omega
  unfold scanMinutes minuteChars
  simp only [List.append_assoc, List.cons_append]
  rw [scanDigits_pad (by omega) (by omega) hhour]
  simp only [Option.bind_eq_bind, Option.bind_some, scanChar_cons]
  rw [scanDigits_pad (by omega) (by omega) hminute]
  rw [Option.bind_some, hsum]

theorem scanFraction_fractionChars {micros : ℕ} (hmicros : micros < 1000000) {cs : List Char}
    (hstop : cs.head? ≠ some '.') : scanFraction (fractionChars micros ++ cs) = some (micros, cs) := by
  unfold fractionChars
  split
  · next hzero =>
      have hnone : scanChar '.' cs = none := by
        cases cs with
        | nil => rfl
        | cons c cs => exact if_neg fun h => hstop (congrArg some h)
      rw [List.nil_append, scanFraction, hnone, hzero]
  · show scanDigits 6 1000000 (pad 10 6 micros ++ cs) = _
    exact scanDigits_pad (by omega) (by omega) hmicros cs

theorem scanSeconds_secondChars (micros : ℕ) (cs : List Char) (hstop : cs.head? ≠ some '.') :
    scanSeconds (secondChars micros ++ cs) = some (micros % 60000000, cs) := by
  have hsecond : micros / 1000000 % 60 < 60 := by omega
  have hfraction := scanFraction_fractionChars (Nat.mod_lt micros (by omega : 0 < 1000000)) hstop
  have hsum : micros / 1000000 % 60 * 1000000 + micros % 1000000 = micros % 60000000 := by omega
  unfold scanSeconds secondChars
  simp only [List.append_assoc, List.cons_append, scanChar_cons, Option.bind_eq_bind,
    Option.bind_some]
  rw [scanDigits_pad (by omega) (by omega) hsecond]
  simp only [Option.bind_some, hfraction, hsum]

theorem scanSpan_spanChars {micros : ℕ} (hday : micros < 86400000000) :
    scanSpan (spanChars micros) = some micros := by
  unfold scanSpan spanChars
  rw [scanMinutes_minuteChars hday]
  simp only [Option.bind_eq_bind, Option.bind_some]
  split
  · next hzero =>
      have hwhole : micros / 60000000 * 60000000 = micros := by omega
      simp [hwhole]
  · next hseconds =>
      have hscan := scanSeconds_secondChars micros [] (by simp)
      have hsum : micros / 60000000 * 60000000 + micros % 60000000 = micros := by omega
      have hne : secondChars micros ≠ [] := by simp [secondChars]
      rw [List.append_nil] at hscan
      rw [if_neg hne, hscan]
      simp [hsum]

theorem scanOffset_offsetChars {utcoffset : Int} (hlow : -microsPerDay < utcoffset)
    (hhigh : utcoffset < microsPerDay) : scanOffset (offsetChars utcoffset) = some utcoffset := by
  have hday : utcoffset.natAbs < 86400000000 := by
    unfold microsPerDay at hlow hhigh
    omega
  unfold offsetChars
  split
  · rw [scanOffset, scanSpan_spanChars hday]
    have habs : -(utcoffset.natAbs : Int) = utcoffset := by omega
    exact congrArg some habs
  · rw [scanOffset, scanSpan_spanChars hday]
    have habs : (utcoffset.natAbs : Int) = utcoffset := by omega
    exact congrArg some habs

theorem offsetChars_head (utcoffset : Int) (c : Char) (hplus : c ≠ '+') (hminus : c ≠ '-') :
    (offsetChars utcoffset).head? ≠ some c := by
  unfold offsetChars
  split
  · intro h
    exact hminus (Option.some.inj h).symm
  · intro h
    exact hplus (Option.some.inj h).symm

/-- A datetime that is written and read again is the same instant with the same offset. -/
theorem fromisoformat_isoformat {t : Datetime} (hvalid : t.Valid) :
    fromisoformat t.isoformat = some t := by
  obtain ⟨hfirst, hlast, hlow, hhigh⟩ := hvalid
  have hpos : 0 < microsPerDay := by decide
  have hordinal : 1 ≤ (t.wall / microsPerDay + epochOrdinal).toNat := by omega
  have hmax : (t.wall / microsPerDay + epochOrdinal).toNat ≤ Calendar.maxOrdinal := by omega
  have hdate := Calendar.ofOrdinal_valid hordinal hmax
  have hmicros : (t.wall % microsPerDay).toNat < 86400000000 := by
    have hlt := Int.emod_lt_of_pos t.wall hpos
    unfold microsPerDay at hlt ⊢
    omega
  have hsum : (t.wall % microsPerDay).toNat / 60000000 * 60000000 +
      (t.wall % microsPerDay).toNat % 60000000 = (t.wall % microsPerDay).toNat := by omega
  have hwall : ((t.wall / microsPerDay + epochOrdinal).toNat - epochOrdinal) * microsPerDay +
      (t.wall % microsPerDay).toNat = t.wall := by
    have hday : ((t.wall / microsPerDay + epochOrdinal).toNat : Int) =
        t.wall / microsPerDay + epochOrdinal := Int.toNat_of_nonneg (by omega)
    have hrest : ((t.wall % microsPerDay).toNat : Int) = t.wall % microsPerDay :=
      Int.toNat_of_nonneg (Int.emod_nonneg _ (by omega))
    rw [hday, hrest, Int.add_sub_cancel, Int.mul_comm]
    exact Int.mul_ediv_add_emod t.wall microsPerDay
  unfold fromisoformat isoformat
  simp only [String.toList_ofList]
  rw [scanDate_dateChars hdate]
  simp only [Option.bind_eq_bind, Option.bind_some, scanChar_cons]
  rw [scanMinutes_minuteChars hmicros, Option.bind_some,
    scanSeconds_secondChars _ _ (offsetChars_head t.utcoffset '.' (by decide) (by decide)),
    Option.bind_some, scanOffset_offsetChars hlow hhigh]
  simp only [Option.bind_some, Calendar.ordinal_ofOrdinal hordinal, hsum, hwall]
  show some (Datetime.mk (t.instant + t.utcoffset - t.utcoffset) t.utcoffset) = some t
  rw [Int.add_sub_cancel]

example : isoformat ⟨1704067200000000, 0⟩ = "2024-01-01T00:00:00+00:00" := by decide +kernel

example : isoformat ⟨951827696123456, -12600000000⟩ = "2000-02-29T09:04:56.123456-03:30" := by
  decide +kernel

end Datetime

end Dizzchat
