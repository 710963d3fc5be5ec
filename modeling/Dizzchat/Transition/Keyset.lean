import Mathlib.Data.List.Sort
import Mathlib.Order.Lattice

set_option autoImplicit false

/-! # Keyset pagination

A page is the first `limit` rows beyond a cursor, in the order of their keys; the cursor of the next
page is the key of the last row. The rows may change between two pages. `mem_page_or_lt` is what a
walk rests on: a row beyond the cursor is on the page, or the page is full and the row is beyond
everything on it. -/

namespace Transition

namespace Keyset

variable {ρ κ : Type*} [LinearOrder κ] {key : ρ → κ}

/-- The row lies beyond the cursor; without a cursor every row does. -/
def beyond (key : ρ → κ) (after : Option κ) (r : ρ) : Bool :=
  match after with
  | none => true
  | some a => decide (a < key r)

def page (key : ρ → κ) (after : Option κ) (limit : ℕ) (rows : List ρ) : List ρ :=
  ((rows.filter fun r => beyond key after r).insertionSort fun a b => key a ≤ key b).take limit

@[simp]
theorem beyond_some {a : κ} {r : ρ} : beyond key (some a) r = true ↔ a < key r := by
  simp [beyond]

theorem mem_of_mem_page {after : Option κ} {limit : ℕ} {rows : List ρ} {r : ρ}
    (h : r ∈ page key after limit rows) : r ∈ rows ∧ beyond key after r = true := by
  have hsorted := List.mem_of_mem_take h
  rwa [List.mem_insertionSort, List.mem_filter] at hsorted

theorem length_page_le (after : Option κ) (limit : ℕ) (rows : List ρ) :
    (page key after limit rows).length ≤ rows.length := by
  unfold page
  refine (List.length_take_le' _ _).trans ?_
  rw [List.length_insertionSort]
  exact List.length_filter_le _ rows

/-- Rows of another form with the same keys have the same pages. -/
theorem page_map {σ : Type*} {f : σ → ρ} (after : Option κ) (limit : ℕ) (rows : List σ) :
    page key after limit (rows.map f) = (page (key ∘ f) after limit rows).map f := by
  have hbeyond : (fun r => beyond key after r) ∘ f = fun r => beyond (key ∘ f) after r := by
    funext r
    cases after <;> rfl
  have hsort := List.map_insertionSort (fun a b => key (f a) ≤ key (f b)) (fun a b => key a ≤ key b) f
    (rows.filter fun r => beyond (key ∘ f) after r) fun a _ b _ => Iff.rfl
  unfold page
  rw [List.map_take, List.filter_map, hbeyond, ← hsort]
  rfl

theorem pairwise_sorted (rows : List ρ) :
    (rows.insertionSort fun a b => key a ≤ key b).Pairwise fun a b => key a ≤ key b := by
  have : Std.Total fun a b : ρ => key a ≤ key b := ⟨fun a b => le_total (key a) (key b)⟩
  have : IsTrans ρ fun a b => key a ≤ key b := ⟨fun a b c => le_trans⟩
  exact List.pairwise_insertionSort _ rows

/-- A row beyond the cursor is on the page, or the page is full of rows that come before it. -/
theorem mem_page_or_le {after : Option κ} (limit : ℕ) {rows : List ρ} {r : ρ} (hr : r ∈ rows)
    (hbeyond : beyond key after r = true) :
    r ∈ page key after limit rows ∨
      (page key after limit rows).length = limit ∧
        ∀ x ∈ page key after limit rows, key x ≤ key r := by
  have hmem : r ∈ (rows.filter fun r => beyond key after r).insertionSort
      fun a b => key a ≤ key b := by
    rw [List.mem_insertionSort, List.mem_filter]
    exact ⟨hr, hbeyond⟩
  unfold page
  generalize hall : ((rows.filter fun r => beyond key after r).insertionSort
    fun a b => key a ≤ key b) = all at hmem ⊢
  rw [← List.take_append_drop limit all, List.mem_append] at hmem
  rcases hmem with hin | hout
  · exact .inl hin
  · refine .inr ⟨?_, fun x hx => ?_⟩
    · have hlt : limit < all.length := by
        by_contra hle
        rw [List.drop_eq_nil_of_le (by omega)] at hout
        exact absurd hout List.not_mem_nil
      rw [List.length_take]
      omega
    · have hsorted : all.Pairwise fun a b => key a ≤ key b := hall ▸ pairwise_sorted _
      exact hsorted.rel_of_mem_take_of_mem_drop hx hout

/-- With one row for each key, a row that is not on the page lies beyond all of it. -/
theorem mem_page_or_lt {after : Option κ} (limit : ℕ) {rows : List ρ} {r : ρ}
    (hinj : ∀ a ∈ rows, ∀ b ∈ rows, key a = key b → a = b) (hr : r ∈ rows)
    (hbeyond : beyond key after r = true) :
    r ∈ page key after limit rows ∨
      (page key after limit rows).length = limit ∧
        ∀ x ∈ page key after limit rows, key x < key r := by
  by_cases hin : r ∈ page key after limit rows
  · exact .inl hin
  · rcases mem_page_or_le limit hr hbeyond with h | ⟨hfull, hle⟩
    · exact absurd h hin
    · refine .inr ⟨hfull, fun x hx => lt_of_le_of_ne (hle x hx) fun heq => hin ?_⟩
      exact hinj x (mem_of_mem_page hx).1 r hr heq ▸ hx

/-! ## Walks

A walk asks for page after page, each time beyond the last row it has read. -/

/-- What a walk has read when it stands at a cursor: it is in order, and none of it is beyond the
    cursor. -/
structure Walked (key : ρ → κ) (start cursor : Option κ) (read : List ρ) : Prop where
  ascending : read.Pairwise fun a b => key a < key b
  past : ∀ r ∈ read, beyond key start r = true ∧ beyond key cursor r = false
  within : ∀ r, beyond key cursor r = true → beyond key start r = true

theorem Walked.nil (start : Option κ) : Walked key start start [] where
  ascending := List.Pairwise.nil
  past := fun _ hr => absurd hr List.not_mem_nil
  within := fun _ hr => hr

/-- The key of a row that is not beyond the cursor is below that of one that is. -/
theorem lt_of_beyond {cursor : Option κ} {a b : ρ} (ha : beyond key cursor a = false)
    (hb : beyond key cursor b = true) : key a < key b := by
  cases cursor with
  | none => simp [beyond] at ha
  | some c =>
      rw [beyond_some] at hb
      have hle : key a ≤ c := by simpa [beyond] using ha
      exact lt_of_le_of_lt hle hb

/-- With one row for each key, sorted rows are strictly ascending. -/
theorem sorted_ascending {rows : List ρ} (hdistinct : rows.Pairwise fun a b => key a ≠ key b) :
    (rows.insertionSort fun a b => key a ≤ key b).Pairwise fun a b => key a < key b := by
  have hperm := List.perm_insertionSort (fun a b => key a ≤ key b) rows
  have hne : (rows.insertionSort fun a b => key a ≤ key b).Pairwise fun a b => key a ≠ key b := by
    rwa [hperm.pairwise_iff fun h => h.symm]
  refine ((pairwise_sorted rows).and hne).imp ?_
  intro a b h
  exact lt_of_le_of_ne h.1 h.2

/-- A page is strictly ascending as well. -/
theorem page_ascending {after : Option κ} (limit : ℕ) {rows : List ρ}
    (hdistinct : rows.Pairwise fun a b => key a ≠ key b) :
    (page key after limit rows).Pairwise fun a b => key a < key b := by
  refine List.Pairwise.sublist (List.take_sublist _ _) ?_
  exact sorted_ascending (hdistinct.sublist List.filter_sublist)

/-- Rows in strict order are the same list once they are the same rows. -/
theorem eq_of_ascending {l l' : List ρ} (h : l.Pairwise fun a b => key a < key b)
    (h' : l'.Pairwise fun a b => key a < key b) (hmem : ∀ r, r ∈ l ↔ r ∈ l') : l = l' := by
  have : Std.Irrefl fun a b : ρ => key a < key b := ⟨fun a => lt_irrefl (key a)⟩
  have : Std.Antisymm fun a b : ρ => key a < key b :=
    ⟨fun a b hab hba => absurd hba (lt_asymm hab)⟩
  exact h.eq_of_mem_iff h' hmem

section Page

variable {start cursor : Option κ} {read rows : List ρ} {limit : ℕ}

theorem Walked.append_page (h : Walked key start cursor read)
    (hdistinct : rows.Pairwise fun a b => key a ≠ key b) :
    (read ++ page key cursor limit rows).Pairwise (fun a b => key a < key b) ∧
      ∀ r ∈ read ++ page key cursor limit rows, beyond key start r = true := by
  constructor
  · refine List.pairwise_append.2 ⟨h.ascending, page_ascending limit hdistinct, ?_⟩
    intro a ha b hb
    exact lt_of_beyond (h.past a ha).2 (mem_of_mem_page hb).2
  · intro r hr
    rcases List.mem_append.1 hr with hr | hr
    · exact (h.past r hr).1
    · exact h.within r (mem_of_mem_page hr).2

/-- The last row of a page is the cursor of the next one. -/
theorem Walked.advance (h : Walked key start cursor read)
    (hdistinct : rows.Pairwise fun a b => key a ≠ key b) {last : ρ}
    (hlast : (page key cursor limit rows).getLast? = some last) :
    Walked key start (some (key last)) (read ++ page key cursor limit rows) := by
  have hpage : (read ++ page key cursor limit rows).Pairwise (fun a b => key a < key b) ∧ _ :=
    h.append_page hdistinct
  obtain ⟨hascending, hstart⟩ := hpage
  have hmem := List.mem_of_getLast? hlast
  have hbeyond := (mem_of_mem_page hmem).2
  refine ⟨hascending, ?_, ?_⟩
  · intro r hr
    refine ⟨hstart r hr, ?_⟩
    have hle : key r ≤ key last := by
      obtain ⟨init, hinit⟩ := List.getLast?_eq_some_iff.1 hlast
      rw [hinit, ← List.append_assoc] at hascending hr
      rcases List.mem_append.1 hr with hr | hr
      · exact le_of_lt ((List.pairwise_append.1 hascending).2.2 r hr last (List.mem_singleton_self _))
      · rw [List.mem_singleton.1 hr]
    simpa [beyond] using hle
  · intro r hr
    rw [beyond_some] at hr
    refine h.within r ?_
    cases cursor with
    | none => rfl
    | some c => exact beyond_some.2 (lt_trans (beyond_some.1 hbeyond) hr)

/-- A row a walk has read, or has still to come to, is on the next page or beyond all of it. -/
theorem mem_append_page_or_lt {r : ρ} (hdistinct : rows.Pairwise fun a b => key a ≠ key b)
    (hr : r ∈ rows) (h : r ∈ read ∨ beyond key cursor r = true) :
    r ∈ read ++ page key cursor limit rows ∨
      (page key cursor limit rows).length = limit ∧
        ∀ x ∈ page key cursor limit rows, key x < key r := by
  rcases h with h | h
  · exact .inl (List.mem_append_left _ h)
  · have hinj : ∀ a ∈ rows, ∀ b ∈ rows, key a = key b → a = b := by
      intro a ha b hb hab
      exact List.inj_on_of_nodup_map (List.pairwise_map.2 hdistinct) ha hb hab
    exact (mem_page_or_lt limit hinj hr h).imp_left (List.mem_append_right _)

end Page

/-- There is less beyond a row than there was beyond a cursor that the row is beyond. -/
theorem length_beyond_lt {cursor : Option κ} {rows : List ρ} {r : ρ} (hr : r ∈ rows)
    (h : beyond key cursor r = true) :
    (rows.filter fun x => beyond key (some (key r)) x).length <
      (rows.filter fun x => beyond key cursor x).length := by
  have hstep : ∀ x, beyond key (some (key r)) x = true → beyond key cursor x = true := by
    intro x hx
    rw [beyond_some] at hx
    cases cursor with
    | none => rfl
    | some c => exact beyond_some.2 (lt_trans (beyond_some.1 h) hx)
  have hfilter : (rows.filter fun x => beyond key (some (key r)) x) =
      (rows.filter fun x => beyond key cursor x).filter fun x => beyond key (some (key r)) x := by
    rw [List.filter_filter]
    refine List.filter_congr fun x _ => ?_
    cases hx : beyond key (some (key r)) x with
    | false => simp
    | true => simp [hstep x hx]
  rw [hfilter, List.length_filter_lt_length_iff_exists]
  refine ⟨r, List.mem_filter.2 ⟨hr, h⟩, ?_⟩
  simp [beyond]

end Keyset

end Transition
