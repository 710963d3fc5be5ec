import Mathlib.Algebra.Order.Group.Nat
import Mathlib.Tactic.Ring

set_option autoImplicit false

/-! # Numerals

Numbers as text: `pad` writes a fixed number of digits in a base up to 16 and `read` reads them back,
`decimal` writes an integer with as many digits as it needs. Texts are lists of characters. -/

namespace Text

/-! ## Fixed width -/

/-- The value of a digit, in either case. -/
def digitValue (c : Char) : Option ℕ :=
  if '0' ≤ c ∧ c ≤ '9' then some (c.toNat - '0'.toNat)
  else if 'a' ≤ c ∧ c ≤ 'f' then some (c.toNat - 'a'.toNat + 10)
  else if 'A' ≤ c ∧ c ≤ 'F' then some (c.toNat - 'A'.toNat + 10)
  else none

/-- The number whose digits follow those of `acc`. -/
def readFrom (base acc : ℕ) : List Char → Option ℕ
  | [] => some acc
  | c :: cs =>
      match digitValue c with
      | some d => if d < base then readFrom base (acc * base + d) cs else none
      | none => none

def read (base : ℕ) (cs : List Char) : Option ℕ :=
  if cs = [] then none else readFrom base 0 cs

/-- The last `width` digits of a number, with leading zeros. -/
def pad (base : ℕ) : ℕ → ℕ → List Char
  | 0, _ => []
  | width + 1, n => pad base width (n / base) ++ [Nat.digitChar (n % base)]

theorem digitValue_digitChar {d : ℕ} (h : d < 16) : digitValue (Nat.digitChar d) = some d := by
  revert h
  revert d
  decide

@[simp]
theorem length_pad (base width n : ℕ) : (pad base width n).length = width := by
  induction width generalizing n with
  | zero => rfl
  | succ width ih => simp [pad, ih]

theorem readFrom_append (base acc : ℕ) (xs ys : List Char) :
    readFrom base acc (xs ++ ys) = (readFrom base acc xs).bind fun acc => readFrom base acc ys := by
  induction xs generalizing acc with
  | nil => rfl
  | cons x xs ih =>
      simp only [List.cons_append, readFrom]
      split
      · split
        · exact ih _
        · rfl
      · rfl

/-- A padded number is made of digits of its base. -/
theorem mem_pad {base : ℕ} (hpos : 0 < base) {width n : ℕ} {c : Char} (h : c ∈ pad base width n) :
    ∃ d < base, c = Nat.digitChar d := by
  induction width generalizing n with
  | zero => simp [pad] at h
  | succ width ih =>
      rw [pad, List.mem_append] at h
      rcases h with h | h
      · exact ih h
      · exact ⟨n % base, Nat.mod_lt n hpos, List.mem_singleton.1 h⟩

section Pad

variable {base : ℕ} (hpos : 0 < base) (hbase : base ≤ 16)
include hpos hbase

theorem readFrom_pad (acc width n : ℕ) :
    readFrom base acc (pad base width n) = some (acc * base ^ width + n % base ^ width) := by
  induction width generalizing n with
  | zero => simp [pad, readFrom, Nat.mod_one]
  | succ width ih =>
      have hdigit : n % base < base := Nat.mod_lt n hpos
      rw [pad, readFrom_append, ih]
      simp only [Option.bind_some, readFrom, digitValue_digitChar (lt_of_lt_of_le hdigit hbase),
        hdigit, if_true]
      have hsplit : n % base ^ (width + 1) = n % base + base * (n / base % base ^ width) := by
        rw [pow_succ', Nat.mod_mul]
      rw [hsplit, pow_succ]
      congr 1
      ring

theorem read_pad {width n : ℕ} (hwidth : 0 < width) (hn : n < base ^ width) :
    read base (pad base width n) = some n := by
  have hne : pad base width n ≠ [] := by
    intro h
    have hlength := congrArg List.length h
    rw [length_pad, List.length_nil] at hlength
    omega
  rw [read, if_neg hne, readFrom_pad hpos hbase, Nat.mod_eq_of_lt hn]
  simp

end Pad

/-! ## Decimal -/

/-- `str` of an integer. -/
def decimal (n : ℤ) : List Char :=
  if n < 0 then '-' :: Nat.toDigits 10 n.natAbs else Nat.toDigits 10 n.natAbs

theorem isDigit_of_mem_toDigits {n : ℕ} {c : Char} (h : c ∈ Nat.toDigits 10 n) :
    c.isDigit = true :=
  Nat.isDigit_of_mem_toDigits (by omega) (by omega) h

theorem toDigits_injective {m n : ℕ} (h : Nat.toDigits 10 m = Nat.toDigits 10 n) : m = n := by
  rw [← Nat.ofDigitChars_ten_toDigits (n := m), h, Nat.ofDigitChars_ten_toDigits]

/-- A numeral has no leading zero. -/
theorem toDigits_of_head_zero {n : ℕ} (h : (Nat.toDigits 10 n).head? = some '0') :
    Nat.toDigits 10 n = ['0'] := by
  induction n using Nat.strongRecOn with
  | ind n ih =>
      by_cases hn : n < 10
      · rw [Nat.toDigits_of_lt_base hn] at h ⊢
        rw [Option.some.inj h]
      · have hle : 10 ≤ n := Nat.not_lt.1 hn
        rw [Nat.toDigits_of_base_le (by omega) hle] at h
        obtain ⟨d, ds, hds⟩ := List.exists_cons_of_ne_nil
          (Nat.toDigits_ne_nil (b := 10) (n := n / 10))
        have hhead : (Nat.toDigits 10 (n / 10)).head? = some '0' := by
          rw [hds] at h ⊢
          exact h
        have hzero : n / 10 = 0 := toDigits_injective (ih (n / 10) (by omega) hhead)
        omega

theorem decimal_head (n : ℤ) : ∃ c cs, decimal n = c :: cs ∧ (c = '-' ∨ c.isDigit = true) := by
  unfold decimal
  split
  · exact ⟨_, _, rfl, .inl rfl⟩
  · obtain ⟨c, cs, hcs⟩ := List.exists_cons_of_ne_nil
      (Nat.toDigits_ne_nil (b := 10) (n := n.natAbs))
    exact ⟨c, cs, hcs, .inr (isDigit_of_mem_toDigits (hcs ▸ List.mem_cons_self))⟩

theorem decimal_injective {m n : ℤ} (h : decimal m = decimal n) : m = n := by
  have hminus : ∀ k j : ℕ, '-' :: Nat.toDigits 10 k ≠ Nat.toDigits 10 j := by
    intro k j heq
    have hdigit : Char.isDigit '-' = true :=
      isDigit_of_mem_toDigits (heq ▸ List.mem_cons_self)
    simp at hdigit
  unfold decimal at h
  split at h
  · split at h
    · have habs := toDigits_injective (List.cons.inj h).2
      omega
    · exact absurd h (hminus _ _)
  · split at h
    · exact absurd h.symm (hminus _ _)
    · have habs := toDigits_injective h
      omega

end Text
