import Mathlib.Algebra.Order.Group.Int
import Mathlib.Data.List.Count

set_option autoImplicit false

/-! # Counters under keys that expire

A store of counters in which every use of a key adds one and arms the time to live of the key anew. A
server runs two commands for it, which do not go together for every time to live: `INCR` keeps whatever
deadline there is, and `EXPIRE` may be refused, or given no time at all, which takes the key away. A key
is there until its deadline; from then on it may be taken away at any moment.

`after_exact` is what a user rests on: with some time to live, and while no use of a key is as old as
that, the counter is the number of its uses, those included that could not arm it. Where other times to
live have been given too, a counter is known from below (`AtLeast`). -/

namespace Transition

namespace Volatile

variable {κ : Type*}

structure Counter where
  count : ℕ
  deadline : Option ℤ
deriving DecidableEq

abbrev Counters (κ : Type*) := κ → Option Counter

/-- One use of a key: when, and which of the keys past their deadline are gone by then. -/
structure Use (κ : Type*) where
  key : κ
  now : ℤ
  gone : κ → Bool

def Counter.past (now : ℤ) (e : Counter) : Bool :=
  e.deadline.elim false fun deadline => decide (deadline ≤ now)

def purge (gone : κ → Bool) (now : ℤ) (c : Counters κ) : Counters κ := fun k =>
  (c k).filter fun e => !(gone k && e.past now)

def value (c : Counters κ) (k : κ) : ℕ := ((c k).map Counter.count).getD 0

/-- Nothing takes the key away by `now`. -/
def Lasts (now : ℤ) (k : κ) (c : Counters κ) : Prop := ∀ e, c k = some e → e.past now = false

theorem Counter.past_mono {e : Counter} {now later : ℤ} (hle : now ≤ later)
    (h : e.past later = false) : e.past now = false := by
  unfold Counter.past at h ⊢
  cases hdeadline : e.deadline with
  | none => rfl
  | some deadline =>
      rw [hdeadline] at h
      have hnot : ¬ deadline ≤ later := of_decide_eq_false h
      exact decide_eq_false (by omega)

theorem Lasts.purge_eq {now : ℤ} {k : κ} {c : Counters κ} (h : Lasts now k c) (gone : κ → Bool) :
    purge gone now c k = c k := by
  unfold purge
  cases hk : c k with
  | none => rfl
  | some e => simp [Option.filter_some, h e hk]

theorem value_congr {c c' : Counters κ} {k : κ} (h : c k = c' k) : value c k = value c' k := by
  rw [value, value, h]

/-- The counter is at least `n`, and nothing takes it away by `now`. -/
def AtLeast (now : ℤ) (k : κ) (n : ℕ) (c : Counters κ) : Prop :=
  n = 0 ∨ ∃ e deadline, c k = some e ∧ n ≤ e.count ∧ e.deadline = some deadline ∧ now < deadline

theorem AtLeast.zero {now : ℤ} {k : κ} {c : Counters κ} : AtLeast now k 0 c := Or.inl rfl

/-- What is not past its deadline stays. -/
theorem AtLeast.purge {now : ℤ} {k : κ} {n : ℕ} {c : Counters κ} (h : AtLeast now k n c)
    (gone : κ → Bool) : AtLeast now k n (purge gone now c) := by
  rcases h with hzero | ⟨e, deadline, hentry, hcount, hdeadline, hlt⟩
  · exact Or.inl hzero
  · have hkept : e.past now = false := by
      rw [Counter.past, hdeadline]
      exact decide_eq_false (by omega)
    refine Or.inr ⟨e, deadline, ?_, hcount, hdeadline, hlt⟩
    simp [Volatile.purge, hentry, Option.filter_some, hkept]

theorem AtLeast.le_value {now : ℤ} {k : κ} {n : ℕ} {c : Counters κ} (h : AtLeast now k n c) :
    n ≤ value c k := by
  rcases h with hzero | ⟨e, deadline, hentry, hcount, _, _⟩
  · omega
  · simpa [value, hentry] using hcount

variable [DecidableEq κ]

def incr (k : κ) (c : Counters κ) : Counters κ × ℕ :=
  let n := value c k + 1
  (Function.update c k (some ⟨n, (c k).bind Counter.deadline⟩), n)

def expire (ttl now : ℤ) (k : κ) (c : Counters κ) : Counters κ :=
  Function.update c k
    (if ttl ≤ 0 then none else (c k).map fun e => ⟨e.count, some (now + ttl)⟩)

/-- `INCR` and `EXPIRE` in one transaction. Where `EXPIRE` is refused there is no answer, but `INCR` has
    counted. -/
def use (taken : Bool) (ttl : ℤ) (u : Use κ) (c : Counters κ) :
    Counters κ × Option ℕ :=
  let counted := incr u.key (purge u.gone u.now c)
  if taken then (expire ttl u.now u.key counted.1, some counted.2) else (counted.1, none)

theorem use_taken (ttl : ℤ) (u : Use κ) (c : Counters κ) :
    (use true ttl u c).2 = some (value (purge u.gone u.now c) u.key + 1) := rfl

theorem use_of_ne {taken : Bool} {ttl : ℤ} {u : Use κ} {c : Counters κ} {k : κ}
    (h : u.key ≠ k) : (use taken ttl u c).1 k = purge u.gone u.now c k := by
  cases taken
  · simp [use, incr, Function.update_of_ne (Ne.symm h)]
  · simp [use, incr, expire, Function.update_of_ne (Ne.symm h)]

theorem use_self {ttl : ℤ} (httl : 0 < ttl) (u : Use κ) (c : Counters κ) :
    (use true ttl u c).1 u.key =
      some ⟨value (purge u.gone u.now c) u.key + 1, some (u.now + ttl)⟩ := by
  have hpos : ¬ ttl ≤ 0 := by omega
  simp [use, incr, expire, hpos]

theorem exists_use (ttl : ℤ) (u : Use κ) (c : Counters κ) :
    ∃ c' count, use true ttl u c = (c', some count) := ⟨_, _, rfl⟩

/-- With some time to live, a use counts one more than there was, and keeps it. -/
theorem AtLeast.use {ttl : ℤ} (httl : 0 < ttl) {u : Use κ} {n count : ℕ}
    {c c' : Counters κ} (huse : use true ttl u c = (c', some count))
    (h : AtLeast u.now u.key n c) : n < count ∧ AtLeast u.now u.key (n + 1) c' := by
  have hvalue := (h.purge u.gone).le_value
  have hcount := use_taken ttl u c
  have hself := use_self httl u c
  rw [huse, Option.some.injEq] at hcount
  rw [huse] at hself
  refine ⟨by omega, Or.inr ⟨_, _, hself, ?_, rfl, by omega⟩⟩
  show n + 1 ≤ value (Volatile.purge u.gone u.now c) u.key + 1
  omega

/-- A use of another key leaves the counter. -/
theorem AtLeast.use_of_ne {taken : Bool} {ttl : ℤ} {u : Use κ} {k : κ} {n : ℕ}
    {c c' : Counters κ} {count : Option ℕ} (huse : Volatile.use taken ttl u c = (c', count))
    (hne : u.key ≠ k) (h : AtLeast u.now k n c) : AtLeast u.now k n c' := by
  have hsame : (Volatile.use taken ttl u c).1 k = Volatile.purge u.gone u.now c k :=
    Volatile.use_of_ne hne
  rw [huse] at hsame
  have hpurged := h.purge u.gone
  rwa [AtLeast, ← hsame] at hpurged

/-- Given no time to live, a key that is not there counts one and is taken away at once. -/
theorem use_absent {ttl : ℤ} (httl : ttl ≤ 0) {u : Use κ} {c : Counters κ}
    (h : c u.key = none) : ∃ c', use true ttl u c = (c', some 1) ∧ c' u.key = none := by
  have hpurged : purge u.gone u.now c u.key = none := by simp [purge, h]
  refine ⟨_, Prod.ext rfl ?_, ?_⟩
  · simp [use_taken, value, hpurged]
  · simp [use, expire, httl]

/-! ## Exact counters -/

theorem use_answer (taken : Bool) (ttl : ℤ) (u : Use κ) (c : Counters κ) :
    (use taken ttl u c).2 = if taken then some (value (purge u.gone u.now c) u.key + 1) else none := by
  cases taken <;> rfl

/-- With some time to live the key is there after a use, taken or refused, and has counted it. -/
theorem value_use_self {ttl : ℤ} (httl : 0 < ttl) (taken : Bool) (u : Use κ) (c : Counters κ) :
    value (use taken ttl u c).1 u.key = value (purge u.gone u.now c) u.key + 1 := by
  cases taken with
  | true => rw [value, use_self httl, Option.map_some, Option.getD_some]
  | false => simp [value, use, incr]

/-- A use that is taken arms the key anew; one that is refused leaves its deadline. -/
theorem Lasts.use_self {ttl now : ℤ} {u : Use κ} {c : Counters κ} (httl : 0 < ttl)
    (h : Lasts now u.key (purge u.gone u.now c)) (hfresh : now < u.now + ttl) (taken : Bool) :
    Lasts now u.key (use taken ttl u c).1 := by
  intro e he
  cases taken with
  | true =>
      rw [Volatile.use_self httl, Option.some.injEq] at he
      subst he
      exact decide_eq_false (by omega)
  | false =>
      simp only [use, incr, Bool.false_eq_true, if_false, Function.update_self,
        Option.some.injEq] at he
      subst he
      cases hkey : purge u.gone u.now c u.key with
      | none => simp [Counter.past]
      | some e => exact h e hkey

/-- The counters after some uses, the last one first; `taken` says where `EXPIRE` is not refused. -/
def after (taken : Use κ → Bool) (ttl : ℤ) : List (Use κ) → Counters κ
  | [] => fun _ => none
  | u :: us => (use (taken u) ttl u (after taken ttl us)).1

/-- A key none of whose uses is as old as the time to live has them all counted, and stays. -/
theorem after_exact (taken : Use κ → Bool) {ttl : ℤ} (httl : 0 < ttl) {us : List (Use κ)} {k : κ}
    {now : ℤ} (hclock : ∀ u ∈ us, u.now ≤ now) (hfresh : ∀ u ∈ us, u.key = k → now < u.now + ttl) :
    value (after taken ttl us) k = us.countP (fun u => decide (u.key = k)) ∧
      Lasts now k (after taken ttl us) := by
  induction us with
  | nil => exact ⟨rfl, fun e he => by cases he⟩
  | cons u us ih =>
      obtain ⟨hvalue, hlasts⟩ := ih (fun x hx => hclock x (List.mem_cons_of_mem u hx))
        fun x hx => hfresh x (List.mem_cons_of_mem u hx)
      have hkept : purge u.gone u.now (after taken ttl us) k = after taken ttl us k :=
        Lasts.purge_eq (fun e he => Counter.past_mono (hclock u List.mem_cons_self) (hlasts e he)) u.gone
      have hlasts' : Lasts now k (purge u.gone u.now (after taken ttl us)) := by
        rwa [Lasts, hkept]
      by_cases hk : u.key = k
      · subst hk
        refine ⟨?_, hlasts'.use_self httl (hfresh u List.mem_cons_self rfl) (taken u)⟩
        rw [after, value_use_self httl, value_congr hkept, hvalue]
        simp
      · have hsame : after taken ttl (u :: us) k = after taken ttl us k :=
          (use_of_ne hk).trans hkept
        rw [value_congr hsame, hvalue, Lasts, hsame]
        exact ⟨by simp [hk], hlasts⟩

/-- What the next use of the key is answered with. -/
theorem use_exact (taken : Use κ → Bool) {ttl : ℤ} (httl : 0 < ttl) {us : List (Use κ)} {u : Use κ}
    (hclock : ∀ x ∈ us, x.now ≤ u.now)
    (hfresh : ∀ x ∈ us, x.key = u.key → u.now < x.now + ttl) :
    (use (taken u) ttl u (after taken ttl us)).2 =
      if taken u then some (us.countP (fun x => decide (x.key = u.key)) + 1) else none := by
  obtain ⟨hvalue, hlasts⟩ := after_exact taken httl hclock hfresh
  rw [use_answer, value_congr (hlasts.purge_eq u.gone), hvalue]

end Volatile

end Transition
