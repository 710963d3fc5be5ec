import Dizzchat.Realtime.ConnectionManager

set_option autoImplicit false

/-! # The set objects of `ConnectionManager`

`_connections` as Python has it: a dict to set objects, which others keep references to. `register`
puts a new object into the dict for a conversation it does not find there, and `unregister` takes an
object out once it is empty; an object out of the dict stays as it is.

`ConnectionManager` is the map of what the objects hold (`register_manager`, `unregister_manager`). -/

namespace Dizzchat

variable {κ : Type*}

/-- A set object is known by the number of those made before it. -/
structure ConnectionSets (κ : Type*) where
  /-- The dict, in the order its keys were put in. -/
  connections : List (ConversationId × ℕ)
  sets : ℕ → Finset κ
  created : ℕ

namespace ConnectionSets

def init : ConnectionSets κ := ⟨[], fun _ => ∅, 0⟩

/-- `_connections.get(c)` -/
def find (c : ConversationId) (m : ConnectionSets κ) : Option ℕ := m.connections.lookup c

/-- `_connections.setdefault(c, set())` -/
def setdefault (c : ConversationId) (m : ConnectionSets κ) : ConnectionSets κ × ℕ :=
  match m.find c with
  | some s => (m, s)
  | none =>
      ({ connections := m.connections ++ [(c, m.created)]
         sets := Function.update m.sets m.created ∅
         created := m.created + 1 }, m.created)

/-- The object holds something else. -/
def put (s : ℕ) (ks : Finset κ) (m : ConnectionSets κ) : ConnectionSets κ :=
  { m with sets := Function.update m.sets s ks }

/-- `del _connections[c]` -/
def delete (c : ConversationId) (m : ConnectionSets κ) : ConnectionSets κ :=
  { m with connections := m.connections.filter fun p => p.1 ≠ c }

variable [DecidableEq κ]

def register (c : ConversationId) (k : κ) (m : ConnectionSets κ) : ConnectionSets κ × Bool :=
  let (m, s) := m.setdefault c
  (m.put s (insert k (m.sets s)), decide (m.sets s = ∅))

def unregister (c : ConversationId) (k : κ) (m : ConnectionSets κ) : ConnectionSets κ × Bool :=
  match m.find c with
  | none => (m, false)
  | some s =>
      if (m.sets s).erase k = ∅ then ((m.put s ∅).delete c, true)
      else (m.put s ((m.sets s).erase k), false)

/-! ## The dict -/

section Dict

omit [DecidableEq κ]

variable (c : ConversationId) (m : ConnectionSets κ)

@[simp]
theorem find_put (s : ℕ) (ks : Finset κ) : (m.put s ks).find c = m.find c := rfl

theorem find_delete_self : (m.delete c).find c = none := by
  unfold find delete
  rw [List.lookup_eq_none_iff]
  intro p hp
  have hne : p.1 ≠ c := of_decide_eq_true (List.mem_filter.1 hp).2
  simp [hne.symm]

theorem find_delete_of_ne {c c' : ConversationId} (hc : c' ≠ c) :
    (m.delete c).find c' = m.find c' := by
  unfold find delete
  simp only
  induction m.connections with
  | nil => rfl
  | cons p ps ih =>
      obtain ⟨c₀, s⟩ := p
      by_cases h : c₀ = c
      · subst h
        rw [List.filter_cons_of_neg (by simp), ih, List.lookup_cons, beq_false_of_ne hc]
      · rw [List.filter_cons_of_pos (by simpa using h), List.lookup_cons, List.lookup_cons, ih]

theorem find_append_of_ne {c c' : ConversationId} (hc : c' ≠ c) (ps : List (ConversationId × ℕ))
    (s : ℕ) : (ps ++ [(c, s)]).lookup c' = ps.lookup c' := by
  rw [List.lookup_append, List.lookup_cons, beq_false_of_ne hc]
  exact Option.or_none

theorem mem_connections_of_find {c : ConversationId} {m : ConnectionSets κ} {s : ℕ}
    (h : m.find c = some s) : (c, s) ∈ m.connections := by
  obtain ⟨ps, qs, heq, -⟩ := List.lookup_eq_some_iff.1 h
  rw [heq]
  simp

end Dict

/-! ## What the objects hold -/

/-- The dict maps to objects it has made, to no object twice, and to no empty one; what is out of the
    dict is empty. -/
structure WellFormed (m : ConnectionSets κ) : Prop where
  made : ∀ p ∈ m.connections, p.2 < m.created
  apart : ∀ c c' s, m.find c = some s → m.find c' = some s → c = c'
  nonempty : ∀ c s, m.find c = some s → (m.sets s).Nonempty
  live : ∀ s, (m.sets s).Nonempty → ∃ c, m.find c = some s

omit [DecidableEq κ] in
theorem wellFormed_init : (init : ConnectionSets κ).WellFormed := by
  refine ⟨?_, ?_, ?_, ?_⟩ <;> simp [init, find]

omit [DecidableEq κ] in
theorem WellFormed.lt_created {m : ConnectionSets κ} (hm : m.WellFormed) {c : ConversationId} {s : ℕ}
    (h : m.find c = some s) : s < m.created :=
  hm.made (c, s) (mem_connections_of_find h)

/-- What `register` leaves: the conversation maps to an object that holds the connection too. -/
structure Registered (c : ConversationId) (k : κ) (m m' : ConnectionSets κ) (s : ℕ) : Prop where
  found : m'.find c = some s
  others : ∀ c', c' ≠ c → m'.find c' = m.find c'
  entries : ∀ p ∈ m'.connections, p ∈ m.connections ∨ p.2 = s
  /-- The object found in the dict, or a new one. -/
  object : m.find c = some s ∨ m.find c = none ∧ s = m.created ∧ m.sets s = ∅
  sets : m'.sets = Function.update m.sets s (insert k (m.sets s))
  created : m.created ≤ m'.created ∧ s < m'.created

theorem register_spec {m : ConnectionSets κ} (hm : m.WellFormed) (c : ConversationId) (k : κ) :
    ∃ s, Registered c k m (m.register c k).1 s ∧
      ((m.register c k).2 = true ↔ m.find c = none) := by
  cases hfind : m.find c with
  | some s =>
      have hne : m.sets s ≠ ∅ := (hm.nonempty c s hfind).ne_empty
      refine ⟨s, ⟨?_, ?_, ?_, .inl hfind, ?_, ?_⟩, ?_⟩
      · simp [register, setdefault, hfind]
      · intro c' _
        simp [register, setdefault, hfind]
      · intro p hp
        exact .inl (by simpa [register, setdefault, hfind, put] using hp)
      · simp [register, setdefault, hfind, put]
      · have hmade := hm.lt_created hfind
        simpa [register, setdefault, hfind, put] using hmade
      · simp [register, setdefault, hfind, hne]
  | none =>
      have hempty : m.sets m.created = ∅ := by
        by_contra hne
        obtain ⟨c', hc'⟩ := hm.live m.created (Finset.nonempty_iff_ne_empty.2 hne)
        exact absurd (hm.lt_created hc') (lt_irrefl _)
      refine ⟨m.created, ⟨?_, ?_, ?_, .inr ⟨hfind, rfl, hempty⟩, ?_, ?_⟩, ?_⟩
      · have hlookup : m.connections.lookup c = none := hfind
        simp [register, setdefault, find, put, List.lookup_append, hlookup]
      · intro c' hc'
        simp only [register, setdefault, hfind]
        exact find_append_of_ne hc' _ _
      · intro p hp
        simp only [register, setdefault, hfind, put, List.mem_append, List.mem_singleton] at hp
        exact hp.imp_right fun h => by rw [h]
      · simp [register, setdefault, hfind, put, hempty]
      · simp [register, setdefault, hfind, put]
      · simp [register, setdefault, hfind]

theorem register_wellFormed {m : ConnectionSets κ} (hm : m.WellFormed) (c : ConversationId) (k : κ) :
    (m.register c k).1.WellFormed := by
  obtain ⟨s, h, -⟩ := register_spec hm c k
  -- no other conversation has the object
  have hapart : ∀ c', c' ≠ c → m.find c' ≠ some s := by
    intro c' hc' hfind
    rcases h.object with hold | ⟨-, hnew, -⟩
    · exact hc' (hm.apart c' c s hfind hold)
    · exact absurd (hm.lt_created hfind) (by omega)
  refine ⟨?_, ?_, ?_, ?_⟩
  · intro p hp
    rcases h.entries p hp with hold | hnew
    · exact lt_of_lt_of_le (hm.made p hold) h.created.1
    · rw [hnew]
      exact h.created.2
  · intro c₁ c₂ s' h₁ h₂
    by_cases hc₁ : c₁ = c
    · by_cases hc₂ : c₂ = c
      · rw [hc₁, hc₂]
      · rw [hc₁, h.found] at h₁
        rw [h.others c₂ hc₂] at h₂
        exact absurd (h₂.trans h₁.symm) (hapart c₂ hc₂)
    · by_cases hc₂ : c₂ = c
      · rw [hc₂, h.found] at h₂
        rw [h.others c₁ hc₁] at h₁
        exact absurd (h₁.trans h₂.symm) (hapart c₁ hc₁)
      · rw [h.others c₁ hc₁] at h₁
        rw [h.others c₂ hc₂] at h₂
        exact hm.apart c₁ c₂ s' h₁ h₂
  · intro c' s' hfind
    rw [h.sets]
    by_cases hs : s' = s
    · rw [hs, Function.update_self]
      exact Finset.insert_nonempty _ _
    · rw [Function.update_of_ne hs]
      have hc' : c' ≠ c := by
        rintro rfl
        exact hs (Option.some.inj (hfind.symm.trans h.found))
      exact hm.nonempty c' s' (h.others c' hc' ▸ hfind)
  · intro s' hs'
    rw [h.sets] at hs'
    by_cases hs : s' = s
    · exact ⟨c, hs ▸ h.found⟩
    · rw [Function.update_of_ne hs] at hs'
      obtain ⟨c', hfind⟩ := hm.live s' hs'
      refine ⟨c', ?_⟩
      rw [h.others c' ?_]
      · exact hfind
      · rintro rfl
        rcases h.object with hold | ⟨hnone, -⟩
        · exact hs (Option.some.inj (hfind.symm.trans hold))
        · rw [hnone] at hfind
          cases hfind

/-- What `unregister` leaves: nothing has changed, or the object of the conversation is without the
    connection, and out of the dict if nothing else was in it. -/
inductive Unregistered (c : ConversationId) (k : κ) (m : ConnectionSets κ) : ConnectionSets κ → Prop
  | unknown (h : m.find c = none) : Unregistered c k m m
  | keeps (s : ℕ) (h : m.find c = some s) (hrest : (m.sets s).erase k ≠ ∅) :
      Unregistered c k m (m.put s ((m.sets s).erase k))
  | empties (s : ℕ) (h : m.find c = some s) (hrest : (m.sets s).erase k = ∅) :
      Unregistered c k m ((m.put s ((m.sets s).erase k)).delete c)

theorem unregister_spec (m : ConnectionSets κ) (c : ConversationId) (k : κ) :
    Unregistered c k m (m.unregister c k).1 := by
  unfold unregister
  split
  · next h => exact .unknown h
  · next s h =>
      split
      · next hrest => simpa only [hrest] using Unregistered.empties s h hrest
      · next hrest => exact .keeps s h hrest

theorem unregister_wellFormed {m : ConnectionSets κ} (hm : m.WellFormed) (c : ConversationId)
    (k : κ) : (m.unregister c k).1.WellFormed := by
  have hspec := unregister_spec m c k
  generalize (m.unregister c k).1 = m' at hspec
  cases hspec with
  | unknown => exact hm
  | keeps s h hrest =>
      refine ⟨hm.made, hm.apart, ?_, ?_⟩
      · intro c' s' hfind
        by_cases hs : s' = s
        · subst hs
          simpa [put] using Finset.nonempty_iff_ne_empty.2 hrest
        · simpa [put, hs] using hm.nonempty c' s' hfind
      · intro s' hs'
        by_cases hs : s' = s
        · exact ⟨c, hs ▸ h⟩
        · exact hm.live s' (by simpa [put, hs] using hs')
  | empties s h hrest =>
      have hold : ∀ c' s', ((m.put s ((m.sets s).erase k)).delete c).find c' = some s' →
          c' ≠ c ∧ m.find c' = some s' := by
        intro c' s' hfind
        by_cases hc' : c' = c
        · rw [hc', find_delete_self] at hfind
          cases hfind
        · rw [find_delete_of_ne _ hc'] at hfind
          exact ⟨hc', hfind⟩
      refine ⟨?_, ?_, ?_, ?_⟩
      · intro p hp
        exact hm.made p (List.mem_filter.1 hp).1
      · intro c₁ c₂ s' h₁ h₂
        exact hm.apart c₁ c₂ s' (hold c₁ s' h₁).2 (hold c₂ s' h₂).2
      · intro c' s' hfind
        obtain ⟨hc', hfind'⟩ := hold c' s' hfind
        have hs : s' ≠ s := by
          rintro rfl
          exact hc' (hm.apart c' c _ hfind' h)
        simpa [put, delete, hs] using hm.nonempty c' s' hfind'
      · intro s' hs'
        have hs : s' ≠ s := by
          rintro rfl
          simp [put, delete, hrest] at hs'
        obtain ⟨c', hfind⟩ := hm.live s' (by simpa [put, delete, hs] using hs')
        refine ⟨c', ?_⟩
        rw [find_delete_of_ne]
        · exact hfind
        · rintro rfl
          exact hs (Option.some.inj (hfind.symm.trans h))

/-! ## The map of connections -/

omit [DecidableEq κ] in
/-- The connections of a conversation. -/
def registered (c : ConversationId) (m : ConnectionSets κ) : Finset κ :=
  ((m.find c).map m.sets).getD ∅

omit [DecidableEq κ] in
theorem registered_of_find {c : ConversationId} {m : ConnectionSets κ} {s : ℕ}
    (h : m.find c = some s) : m.registered c = m.sets s := by
  simp [registered, h]

omit [DecidableEq κ] in
theorem registered_of_unknown {c : ConversationId} {m : ConnectionSets κ} (h : m.find c = none) :
    m.registered c = ∅ := by
  simp [registered, h]

section Registered

variable {m : ConnectionSets κ} (hm : m.WellFormed) (c : ConversationId) (k : κ)

include hm

theorem register_registered : (m.register c k).1.registered c = insert k (m.registered c) := by
  obtain ⟨s, h, -⟩ := register_spec hm c k
  rw [registered_of_find h.found, h.sets, Function.update_self]
  rcases h.object with hfind | ⟨hnone, -, hempty⟩
  · rw [registered_of_find hfind]
  · rw [registered_of_unknown hnone, hempty]

theorem register_registered_of_ne {c' : ConversationId} (hc' : c' ≠ c) :
    (m.register c k).1.registered c' = m.registered c' := by
  obtain ⟨s, h, -⟩ := register_spec hm c k
  unfold registered
  rw [h.others c' hc', h.sets]
  cases hfind : m.find c' with
  | none => rfl
  | some s' =>
      have hs : s' ≠ s := by
        rintro rfl
        rcases h.object with hold | ⟨-, hnew, -⟩
        · exact hc' (hm.apart c' c _ hfind hold)
        · exact absurd (hm.lt_created hfind) (by omega)
      rw [Option.map_some, Option.map_some, Function.update_of_ne hs]

omit hm in
theorem unregister_registered : (m.unregister c k).1.registered c = (m.registered c).erase k := by
  have hspec := unregister_spec m c k
  generalize (m.unregister c k).1 = m' at hspec
  cases hspec with
  | unknown h => simp [registered_of_unknown h]
  | keeps s h =>
      rw [registered_of_find h, registered_of_find (s := s) (by simpa using h)]
      simp [put]
  | empties s h hrest =>
      rw [registered_of_find h, hrest, registered_of_unknown (find_delete_self _ _)]

theorem unregister_registered_of_ne {c' : ConversationId} (hc' : c' ≠ c) :
    (m.unregister c k).1.registered c' = m.registered c' := by
  have hspec := unregister_spec m c k
  generalize (m.unregister c k).1 = m' at hspec
  have hother : ∀ s s', m.find c = some s → m.find c' = some s' → s' ≠ s := by
    rintro s s' h h' rfl
    exact hc' (hm.apart c' c _ h' h)
  unfold registered
  cases hspec with
  | unknown h => rfl
  | keeps s h =>
      rw [find_put]
      cases hfind : m.find c' with
      | none => rfl
      | some s' => simp [put, hother s s' h hfind]
  | empties s h =>
      rw [find_delete_of_ne _ hc', find_put]
      cases hfind : m.find c' with
      | none => rfl
      | some s' => simp [put, delete, hother s s' h hfind]

theorem unregister_last : (m.unregister c k).2 = true ↔ m.registered c = {k} := by
  unfold unregister
  split
  · next h => simp [registered_of_unknown h]
  · next s h =>
      have hne : m.sets s ≠ ∅ := (hm.nonempty c s h).ne_empty
      rw [registered_of_find h]
      split
      · next hrest => simpa using (Finset.erase_eq_empty_iff _ _).1 hrest |>.resolve_left hne
      · next hrest =>
          simp only [Bool.false_eq_true, false_iff]
          intro hsole
          exact hrest (by rw [hsole, Finset.erase_singleton])

end Registered

/-! ## One object for each connection

A connection is registered with one conversation only, and so is in the object of that one. -/

section Owner

variable {conversation : κ → ConversationId} {m m' : ConnectionSets κ} {k k₀ : κ}

theorem mem_register (hm : m.WellFormed) (k₀ k : κ) :
    k ∈ (m.register (conversation k₀) k₀).1.registered (conversation k) ↔
      k = k₀ ∨ k ∈ m.registered (conversation k) := by
  by_cases hc : conversation k = conversation k₀
  · rw [hc, register_registered hm, Finset.mem_insert]
  · rw [register_registered_of_ne hm _ _ hc]
    exact (or_iff_right fun hk => hc (by rw [hk])).symm

theorem mem_unregister (hm : m.WellFormed) (k₀ k : κ) :
    k ∈ (m.unregister (conversation k₀) k₀).1.registered (conversation k) ↔
      k ≠ k₀ ∧ k ∈ m.registered (conversation k) := by
  by_cases hc : conversation k = conversation k₀
  · rw [hc, unregister_registered, Finset.mem_erase]
  · rw [unregister_registered_of_ne hm _ _ hc]
    refine (and_iff_right ?_).symm
    intro hk
    exact hc (by rw [hk])

/-- The objects hold everybody else as before. -/
theorem Registered.mem_sets_of_ne {c : ConversationId} {s : ℕ} (h : Registered c k₀ m m' s)
    (hk : k ≠ k₀) (t : ℕ) : k ∈ m'.sets t ↔ k ∈ m.sets t := by
  rw [h.sets]
  by_cases ht : t = s
  · simp [ht, hk]
  · rw [Function.update_of_ne ht]

variable (howner : ∀ s k, k ∈ m.sets s → m.find (conversation k) = some s)

include howner

theorem Registered.mem_sets_self {s : ℕ} (h : Registered (conversation k₀) k₀ m m' s) (t : ℕ) :
    k₀ ∈ m'.sets t ↔ t = s := by
  rw [h.sets]
  by_cases ht : t = s
  · simp [ht]
  · rw [Function.update_of_ne ht]
    refine iff_of_false (fun hk => ?_) ht
    have hfind := howner t k₀ hk
    rcases h.object with hold | ⟨hnone, -⟩
    · exact ht (Option.some.inj (hfind.symm.trans hold))
    · rw [hnone] at hfind
      cases hfind

theorem Registered.owner {s : ℕ} (h : Registered (conversation k₀) k₀ m m' s) (t : ℕ) (k : κ)
    (hk : k ∈ m'.sets t) : m'.find (conversation k) = some t := by
  by_cases hk₀ : k = k₀
  · subst hk₀
    rw [(h.mem_sets_self howner t).1 hk]
    exact h.found
  · have hfind := howner t k ((h.mem_sets_of_ne hk₀ t).1 hk)
    by_cases hc : conversation k = conversation k₀
    · rw [hc] at hfind ⊢
      rcases h.object with hold | ⟨hnone, -⟩
      · rw [h.found, ← hold, hfind]
      · rw [hnone] at hfind
        cases hfind
    · rw [h.others _ hc]
      exact hfind

theorem Unregistered.mem_sets (h : Unregistered (conversation k₀) k₀ m m') (k : κ) (t : ℕ) :
    k ∈ m'.sets t ↔ k ∈ m.sets t ∧ k ≠ k₀ := by
  -- an object of another conversation never had the connection in it
  have hother : ∀ s, m.find (conversation k₀) = some s → t ≠ s →
      (k ∈ m.sets t ↔ k ∈ m.sets t ∧ k ≠ k₀) := by
    intro s hs ht
    refine (and_iff_left_of_imp ?_).symm
    rintro hk rfl
    exact ht (Option.some.inj ((howner t k hk).symm.trans hs))
  cases h with
  | unknown h =>
      refine (and_iff_left_of_imp ?_).symm
      rintro hk rfl
      rw [howner t k hk] at h
      cases h
  | keeps s h | empties s h =>
      by_cases ht : t = s
      · simp [put, delete, ht, and_comm]
      · simpa [put, delete, ht] using hother s h ht

theorem Unregistered.owner (h : Unregistered (conversation k₀) k₀ m m') (t : ℕ) (k : κ)
    (hk : k ∈ m'.sets t) : m'.find (conversation k) = some t := by
  obtain ⟨hin, hk₀⟩ := (h.mem_sets howner k t).1 hk
  have hfind := howner t k hin
  cases h with
  | unknown | keeps => exact hfind
  | empties s h hrest =>
      rw [find_delete_of_ne]
      · exact hfind
      · -- the object that is out of the dict held nobody else
        intro hc
        rw [hc, h] at hfind
        obtain rfl := Option.some.inj hfind
        have hnobody : k ∈ (m.sets s).erase k₀ := Finset.mem_erase.2 ⟨hk₀, hin⟩
        rw [hrest] at hnobody
        exact absurd hnobody (Finset.notMem_empty _)

end Owner

theorem Unregistered.created {c : ConversationId} {k : κ} {m m' : ConnectionSets κ}
    (h : Unregistered c k m m') : m'.created = m.created := by
  cases h <;> rfl

omit [DecidableEq κ] in
def manager (m : ConnectionSets κ) (hm : m.WellFormed) : ConnectionManager κ where
  connections c := (m.find c).map m.sets
  nonempty c ks h := by
    obtain ⟨s, hfind, rfl⟩ := Option.map_eq_some_iff.1 h
    exact hm.nonempty c s hfind

omit [DecidableEq κ] in
/-- A conversation without connections is not in the map. -/
theorem manager_ext {n n' : ConnectionManager κ} (h : ∀ c, n.registered c = n'.registered c) :
    n = n' := by
  have hget : ∀ (n : ConnectionManager κ) (c : ConversationId) (ks : Finset κ),
      n.connections c = some ks ↔ n.registered c = ks ∧ ks.Nonempty := by
    intro n c ks
    constructor
    · intro hks
      exact ⟨by simp [ConnectionManager.registered, hks], n.nonempty c ks hks⟩
    · rintro ⟨rfl, hne⟩
      cases hconnections : n.connections c with
      | none => simp [ConnectionManager.registered, hconnections] at hne
      | some ks => simp [ConnectionManager.registered, hconnections]
  have hconnections : n.connections = n'.connections := by
    funext c
    apply Option.ext
    intro ks
    rw [hget, hget, h c]
  obtain ⟨connections, hn⟩ := n
  obtain ⟨connections', hn'⟩ := n'
  simp only at hconnections
  subst hconnections
  rfl

theorem register_manager {m : ConnectionSets κ} (hm : m.WellFormed) (c : ConversationId) (k : κ) :
    ((m.manager hm).register c k).1 = (m.register c k).1.manager (register_wellFormed hm c k) ∧
      ((m.manager hm).register c k).2 = (m.register c k).2 := by
  constructor
  · apply manager_ext
    intro c'
    by_cases hc' : c' = c
    · rw [hc', ConnectionManager.register_registered]
      exact (register_registered hm c k).symm
    · rw [ConnectionManager.register_registered_of_ne hc']
      exact (register_registered_of_ne hm c k hc').symm
  · obtain ⟨s, -, hfirst⟩ := register_spec hm c k
    rw [Bool.eq_iff_iff, hfirst, ConnectionManager.register_first]
    show m.registered c = ∅ ↔ _
    cases hfind : m.find c with
    | none => simp [registered_of_unknown hfind]
    | some s => simp [registered_of_find hfind, (hm.nonempty c s hfind).ne_empty]

theorem unregister_manager {m : ConnectionSets κ} (hm : m.WellFormed) (c : ConversationId) (k : κ) :
    ((m.manager hm).unregister c k).1 =
        (m.unregister c k).1.manager (unregister_wellFormed hm c k) ∧
      ((m.manager hm).unregister c k).2 = (m.unregister c k).2 := by
  constructor
  · apply manager_ext
    intro c'
    by_cases hc' : c' = c
    · rw [hc', ConnectionManager.unregister_registered]
      exact (unregister_registered c k).symm
    · rw [ConnectionManager.unregister_registered_of_ne hc']
      exact (unregister_registered_of_ne hm c k hc').symm
  · rw [Bool.eq_iff_iff, unregister_last hm, ConnectionManager.unregister_last]
    exact Iff.rfl

end ConnectionSets

end Dizzchat
