import Dizzchat.Shared.Values
import Dizzchat.Text.Numeral

set_option autoImplicit false

/-! # The text of a UUID

`str` of a `uuid.UUID`, and `UUID(hex)`, which drops hyphens, curly braces and a URN prefix before it
reads 32 hexadecimal digits. -/

namespace Dizzchat

open Text

namespace UUID

/-- Digits in groups of 8, 4, 4, 4 and the rest. -/
def grouped (hex : List Char) : List Char :=
  hex.take 8 ++ '-' :: ((hex.drop 8).take 4 ++ '-' :: ((hex.drop 12).take 4 ++
    '-' :: ((hex.drop 16).take 4 ++ '-' :: hex.drop 20)))

def chars (u : UUID) : List Char := grouped (pad 16 32 u.toNat)

def str (u : UUID) : String := String.ofList (chars u)

/-- `str.replace(pattern, "")`, `skip` characters into an occurrence. -/
def removeAll (pattern : List Char) (skip : ℕ) : List Char → List Char
  | [] => []
  | c :: cs =>
      if 0 < skip then removeAll pattern (skip - 1) cs
      else if pattern.isPrefixOf (c :: cs) then removeAll pattern (pattern.length - 1) cs
      else c :: removeAll pattern 0 cs

def isBrace (c : Char) : Bool := c = '{' || c = '}'

/-- `UUID(hex)`, for ASCII digits only: blanks around the digits, a sign, `0x`, underscores and other
    decimal digits, which `int(hex, 16)` takes, are refused here. -/
def ofHex (text : String) : Option UUID :=
  let chars := removeAll "uuid:".toList 0 (removeAll "urn:".toList 0 text.toList)
  let digits := ((chars.dropWhile isBrace).rdropWhile isBrace).filter fun c => c ≠ '-'
  if digits.length = 32 then (read 16 digits).map fun n => BitVec.ofNat 128 n else none

theorem removeAll_of_not_mem {p : Char} {ps cs : List Char} (h : p ∉ cs) :
    removeAll (p :: ps) 0 cs = cs := by
  induction cs with
  | nil => rfl
  | cons c cs ih =>
      rw [List.mem_cons, not_or] at h
      have hprefix : (p :: ps).isPrefixOf (c :: cs) = false := by
        simp [List.isPrefixOf, h.1]
      rw [removeAll, if_neg (lt_irrefl 0), hprefix, if_neg Bool.false_ne_true, ih h.2]

theorem mem_grouped {hex : List Char} {c : Char} (h : c ∈ grouped hex) : c = '-' ∨ c ∈ hex := by
  simp only [grouped, List.mem_append, List.mem_cons] at h
  rcases h with h | h | h | h | h | h | h | h | h
  · exact .inr (List.mem_of_mem_take h)
  · exact .inl h
  · exact .inr (List.mem_of_mem_drop (List.mem_of_mem_take h))
  · exact .inl h
  · exact .inr (List.mem_of_mem_drop (List.mem_of_mem_take h))
  · exact .inl h
  · exact .inr (List.mem_of_mem_drop (List.mem_of_mem_take h))
  · exact .inl h
  · exact .inr (List.mem_of_mem_drop h)

/-- Without its hyphens a grouping is the digits again. -/
theorem filter_grouped {hex : List Char} (hhex : '-' ∉ hex) :
    ((grouped hex).filter fun c => c ≠ '-') = hex := by
  have hpart : ∀ cs : List Char, cs ⊆ hex → (cs.filter fun c => c ≠ '-') = cs := by
    intro cs hsub
    refine List.filter_eq_self.2 fun c hc => ?_
    have hne : c ≠ '-' := fun heq => hhex (heq ▸ hsub hc)
    simpa using hne
  have hdrop : ∀ n, hex.drop n = (hex.drop n).take 4 ++ hex.drop (n + 4) := by
    intro n
    rw [← List.drop_drop, List.take_append_drop]
  have htake : ∀ n, (hex.drop n).take 4 ⊆ hex := fun n =>
    List.Subset.trans (List.take_subset _ _) (List.drop_subset _ _)
  simp only [grouped, List.filter_append, List.filter_cons, hpart _ (List.take_subset 8 hex),
    hpart _ (htake 8), hpart _ (htake 12), hpart _ (htake 16), hpart _ (List.drop_subset 20 hex)]
  simp only [ne_eq, not_true_eq_false, decide_false, Bool.false_eq_true, if_false]
  rw [← hdrop 16, ← hdrop 12, ← hdrop 8, List.take_append_drop]

/-- What a UUID is written with. -/
theorem mem_chars {u : UUID} {c : Char} (h : c ∈ chars u) :
    c = '-' ∨ ∃ d < 16, c = Nat.digitChar d :=
  (mem_grouped h).imp_right fun hhex => mem_pad (by omega) hhex

theorem not_mem_chars {u : UUID} {c : Char} (hdash : c ≠ '-')
    (hdigit : ∀ d < 16, c ≠ Nat.digitChar d) : c ∉ chars u := by
  intro h
  rcases mem_chars h with rfl | ⟨d, hd, rfl⟩
  · exact hdash rfl
  · exact hdigit d hd rfl

theorem filter_chars (u : UUID) :
    ((chars u).filter fun c => c ≠ '-') = pad 16 32 u.toNat := by
  refine filter_grouped fun h => ?_
  obtain ⟨d, hd, hchar⟩ := mem_pad (by omega) h
  exact absurd hchar ((by decide : ∀ d < 16, '-' ≠ Nat.digitChar d) d hd)

/-- What `str` has written, `UUID` reads back. -/
theorem ofHex_str (u : UUID) : ofHex (str u) = some u := by
  have hbrace : ∀ c ∈ chars u, isBrace c = false := by
    intro c hc
    rcases mem_chars hc with rfl | ⟨d, hd, rfl⟩
    · rfl
    · exact (by decide : ∀ d < 16, isBrace (Nat.digitChar d) = false) d hd
  have hu : 'u' ∉ chars u := not_mem_chars (by decide) (by decide)
  have hurn : removeAll "urn:".toList 0 (chars u) = chars u := removeAll_of_not_mem hu
  have huuid : removeAll "uuid:".toList 0 (chars u) = chars u := removeAll_of_not_mem hu
  have hstrip : ((chars u).dropWhile isBrace).rdropWhile isBrace = chars u := by
    have hhead : (chars u).dropWhile isBrace = chars u := by
      rw [List.dropWhile_eq_self_iff]
      intro hpos
      simp [hbrace _ (List.getElem_mem hpos)]
    rw [hhead, List.rdropWhile_eq_self_iff]
    intro hne
    simp [hbrace _ (List.getLast_mem hne)]
  have hlt : u.toNat < 16 ^ 32 := lt_of_lt_of_eq u.isLt (by decide)
  unfold ofHex
  simp only [str, String.toList_ofList, hurn, huuid, hstrip, filter_chars, length_pad, if_true]
  rw [read_pad (by omega) (by omega) (by omega) hlt]
  simp

theorem str_injective {u v : UUID} (h : str u = str v) : u = v := by
  have hparse := congrArg ofHex h
  rw [ofHex_str, ofHex_str] at hparse
  exact Option.some.inj hparse

theorem chars_injective {u v : UUID} (h : chars u = chars v) : u = v :=
  str_injective (congrArg String.ofList h)

@[simp]
theorem length_chars (u : UUID) : (chars u).length = 36 := by
  simp [chars, grouped]

end UUID

end Dizzchat
