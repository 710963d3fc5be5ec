import Dizzchat.Identity.RefreshToken
import Dizzchat.Transition.Run
import Dizzchat.Transition.Table
import Mathlib.Data.Fintype.Basic

set_option autoImplicit false

/-! # Concurrent rotation of refresh tokens

Any number of `RefreshAccessToken.execute` calls, each in its own transaction: the call reads its
row and decides on the copy, the flush writes the revoked row (`merge` is an unconditional update)
and inserts the successor, and the commit makes both visible and hands the pair to the caller.

Nothing in the code keeps a second call from reading the row in between, so a token is single-use
only in the runs where no call reads the row, still active, while another call is between its read
and its commit. `RotationInv` is the invariant that carries this. -/

namespace Dizzchat

open Transition

variable {ι : Type*} [DecidableEq ι]

/-! ## The calls -/

/-- How far a call has come. -/
inductive RefreshCall
  | started
  /-- The row was read and rotated in memory; nothing is written yet. -/
  | rotated (stored successor : RefreshToken) (pair : TokenPair)
  /-- Both rows are written and not yet committed. -/
  | flushed (stored successor : RefreshToken) (pair : TokenPair)
  | returned (stored successor : RefreshToken) (pair : TokenPair)
  | raised (error : IdentityError)
deriving DecidableEq

/-- The steps of a call. The read takes the clock readings of `rotate` and `issue_access` and the
    random parts of the new token. -/
inductive RefreshStep
  | read (now accessNow : Datetime) (newJti newSecret : String)
  | flush
  | commit

abbrev RefreshWorld (ι : Type*) := World ι (Table ι RefreshToken) RefreshCall

/-- No two rows share a `jti`, the primary key. -/
def RefreshToken.clash (a b : RefreshToken) : Bool := decide (a.jti = b.jti)

/-- `RefreshAccessToken.execute` by call `i`, which presents the string `presented i`. A generated
    `jti` is a fresh `uuid4`, so an insert that would meet an existing row does not happen. -/
def RefreshAccessToken.execute (tokens : TokenService) (ttl : Timedelta) (presented : ι → String)
    (i : ι) : RefreshStep → Table ι RefreshToken → RefreshCall →
      Option (Table ι RefreshToken × RefreshCall)
  | .read now accessNow newJti newSecret, T, .started =>
      match TokenService.parseRefresh (presented i) with
      | .error e => some (T, .raised e)
      | .ok (jti, secret) =>
          match executeOn tokens ttl secret now accessNow (tokens.generateRefresh newJti newSecret)
              (lookup RefreshToken.jti jti T.rows) with
          | .error e => some (T, .raised e)
          | .ok (stored, successor, pair) => some (T, .rotated stored successor pair)
  | .flush, T, .rotated stored successor pair =>
      (T.update RefreshToken.jti i stored).bind fun T' =>
        match T'.insert RefreshToken.clash i successor with
        | .done T'' => some (T'', .flushed stored successor pair)
        | .blocked | .duplicate => none
  | .commit, T, .flushed stored successor pair =>
      some (T.commit RefreshToken.jti i, .returned stored successor pair)
  | _, _, _ => none

/-- Every call is about to start. -/
def RefreshWorld.init (rows : List RefreshToken) : RefreshWorld ι :=
  ⟨{ rows, writes := [] }, fun _ => .started⟩

/-! ## What a step can do -/

namespace RefreshCall

/-- The call read the row `jti` as active and has not committed yet. -/
def rotating (jti : String) : RefreshCall → Bool
  | .rotated stored _ _ | .flushed stored _ _ => decide (stored.jti = jti)
  | .started | .returned .. | .raised _ => false

/-- The call committed its rotation of the row `jti`. -/
def rotatedAway (jti : String) : RefreshCall → Bool
  | .returned stored _ _ => decide (stored.jti = jti)
  | .started | .rotated .. | .flushed .. | .raised _ => false

/-- The uncommitted images of a call. -/
def images : RefreshCall → List RefreshToken
  | .flushed stored successor _ => [stored, successor]
  | .started | .rotated .. | .returned .. | .raised _ => []

end RefreshCall

/-- The row the call reads, if the presented secret is the row's. -/
def RefreshWorld.readRow (tokens : TokenService) (presented : ι → String) (w : RefreshWorld ι)
    (i : ι) : Option RefreshToken :=
  match TokenService.parseRefresh (presented i) with
  | .error _ => none
  | .ok (jti, secret) => (lookup RefreshToken.jti jti w.shared.rows).filter fun r =>
      tokens.verifyRefresh secret r.tokenHash

/-- The `jti` a string presents. -/
def TokenService.presentedJti (token : String) : Option String :=
  (parseRefresh token).toOption.map Prod.fst

omit [DecidableEq ι] in
theorem readRow_eq_some {tokens : TokenService} {presented : ι → String} {w : RefreshWorld ι}
    {i : ι} {r : RefreshToken} (h : w.readRow tokens presented i = some r) :
    TokenService.presentedJti (presented i) = some r.jti ∧
      lookup RefreshToken.jti r.jti w.shared.rows = some r := by
  rw [RefreshWorld.readRow] at h
  split at h
  · cases h
  · next jti secret hp =>
      have hrow := (Option.filter_eq_some_iff.1 h).1
      have hjti : r.jti = jti := key_of_lookup hrow
      rw [TokenService.presentedJti, hp, hjti]
      exact ⟨rfl, hrow⟩

/-- The read decides between raising and rotating an active row; it writes nothing. -/
theorem execute_read {tokens : TokenService} {ttl : Timedelta} {presented : ι → String} {i : ι}
    {now accessNow : Datetime} {newJti newSecret : String} {w : RefreshWorld ι}
    {T' : Table ι RefreshToken} {l : RefreshCall}
    (h : RefreshAccessToken.execute tokens ttl presented i
      (.read now accessNow newJti newSecret) w.shared (w.proc i) = some (T', l)) :
    T' = w.shared ∧ w.proc i = .started ∧
      ((∃ e, l = .raised e) ∨
        ∃ r successor pair, w.readRow tokens presented i = some r ∧ r.isActive now = true ∧
          l = .rotated (r.revoke now) successor pair) := by
  cases hl : w.proc i with
  | started =>
      rw [hl, RefreshAccessToken.execute] at h
      rw [RefreshWorld.readRow]
      cases hp : TokenService.parseRefresh (presented i) with
      | error e =>
          rw [hp] at h
          obtain ⟨rfl, rfl⟩ := Prod.mk.inj (Option.some.inj h)
          exact ⟨rfl, rfl, Or.inl ⟨e, rfl⟩⟩
      | ok parts =>
          obtain ⟨jti, secret⟩ := parts
          rw [hp] at h
          simp only at h
          split at h
          · next e _ =>
              obtain ⟨rfl, rfl⟩ := Prod.mk.inj (Option.some.inj h)
              exact ⟨rfl, rfl, Or.inl ⟨e, rfl⟩⟩
          · next stored successor pair hok =>
              obtain ⟨rfl, rfl⟩ := Prod.mk.inj (Option.some.inj h)
              obtain ⟨r, hrow, hactive, hverify, rfl, _⟩ := RefreshAccessToken.executeOn_eq_ok hok
              exact ⟨rfl, rfl, Or.inr ⟨r, successor, pair,
                Option.filter_eq_some_iff.2 ⟨hrow, hverify⟩, hactive, rfl⟩⟩
  | rotated | flushed | returned | raised => rw [hl] at h; cases h

/-- The flush takes the row lock and adds both images. -/
theorem execute_flush {tokens : TokenService} {ttl : Timedelta} {presented : ι → String} {i : ι}
    {T T' : Table ι RefreshToken} {l l' : RefreshCall}
    (h : RefreshAccessToken.execute tokens ttl presented i .flush T l = some (T', l')) :
    ∃ stored successor pair, l = .rotated stored successor pair ∧
      l' = .flushed stored successor pair ∧
      (∀ v ∈ T.writes, v.2.jti = stored.jti → v.1 = i) ∧
      (∀ x ∈ T.rows, x.jti ≠ successor.jti) ∧
      (∀ v ∈ T.writes, v.2.jti ≠ successor.jti) ∧ stored.jti ≠ successor.jti ∧
      T' = (T.write i stored).write i successor := by
  cases l with
  | rotated stored successor pair =>
      rw [RefreshAccessToken.execute, Option.bind_eq_some_iff] at h
      obtain ⟨T₁, hupd, h⟩ := h
      obtain ⟨hfree, rfl⟩ := Table.update_eq_some.1 hupd
      split at h
      · next T₂ hins =>
          obtain ⟨rfl, rfl⟩ := Prod.mk.inj (Option.some.inj h)
          obtain ⟨hrows, hwrites, rfl⟩ := Table.insert_eq_done.1 hins
          simp only [RefreshToken.clash, decide_eq_false_iff_not, Table.mem_write] at hrows hwrites
          exact ⟨stored, successor, pair, rfl, rfl, hfree, hrows,
            fun v hv => hwrites v (Or.inl hv), hwrites (i, stored) (Or.inr rfl), rfl⟩
      · cases h
      · cases h
  | started | flushed | returned | raised => cases h

theorem execute_commit {tokens : TokenService} {ttl : Timedelta} {presented : ι → String} {i : ι}
    {T T' : Table ι RefreshToken} {l l' : RefreshCall}
    (h : RefreshAccessToken.execute tokens ttl presented i .commit T l = some (T', l')) :
    ∃ stored successor pair, l = .flushed stored successor pair ∧
      l' = .returned stored successor pair ∧ T' = T.commit RefreshToken.jti i := by
  cases l with
  | flushed stored successor pair =>
      obtain ⟨rfl, rfl⟩ := Prod.mk.inj (Option.some.inj h)
      exact ⟨stored, successor, pair, rfl, rfl, rfl⟩
  | started | rotated | returned | raised => cases h

/-! ## The invariant -/

/-- What holds of every interleaving in which reads meet no rotation in progress. -/
structure RotationInv (w : RefreshWorld ι) : Prop where
  exclusive : w.shared.Exclusive RefreshToken.jti
  own : ∀ i, w.shared.own i = (w.proc i).images
  revoked : ∀ i stored successor pair, w.proc i = .rotated stored successor pair ∨
    w.proc i = .flushed stored successor pair → stored.revokedAt.isSome = true
  fresh : ∀ i stored successor pair, w.proc i = .flushed stored successor pair →
    stored.jti ≠ successor.jti ∧ ∀ x ∈ w.shared.rows, x.jti ≠ successor.jti
  /-- At most one call is rotating a row. -/
  alone : ∀ jti i j, (w.proc i).rotating jti = true → (w.proc j).rotating jti = true → i = j
  /-- A row being rotated has not been rotated away. -/
  unspent : ∀ jti i j, (w.proc i).rotating jti = true → (w.proc j).rotatedAway jti = false
  spent : ∀ jti i, (w.proc i).rotatedAway jti = true →
    ∃ r, lookup RefreshToken.jti jti w.shared.rows = some r ∧ r.revokedAt.isSome = true
  once : ∀ jti i j, (w.proc i).rotatedAway jti = true → (w.proc j).rotatedAway jti = true → i = j

theorem rotationInv_init (rows : List RefreshToken) :
    RotationInv (RefreshWorld.init rows : RefreshWorld ι) where
  exclusive := Table.exclusive_of_writes_nil rfl
  own _ := rfl
  revoked _ _ _ _ h := by rcases h with h | h <;> cases h
  fresh _ _ _ _ h := by cases h
  alone _ _ _ h := by cases h
  unspent _ _ _ h := by cases h
  spent _ _ h := by cases h
  once _ _ _ h := by cases h

/-- A call that ends at its read changes nothing that the invariant speaks of. -/
theorem rotationInv_raised {w : RefreshWorld ι} (hw : RotationInv w) {i : ι} (e : IdentityError)
    (hi : w.proc i = .started) :
    RotationInv ⟨w.shared, Function.update w.proc i (.raised e)⟩ := by
  have hrotating : ∀ jti j, (Function.update w.proc i (.raised e) j).rotating jti =
      (w.proc j).rotating jti := fun jti => view_update_eq (by rw [hi]; rfl)
  have haway : ∀ jti j, (Function.update w.proc i (.raised e) j).rotatedAway jti =
      (w.proc j).rotatedAway jti := fun jti => view_update_eq (by rw [hi]; rfl)
  have himages : ∀ j, (Function.update w.proc i (.raised e) j).images = (w.proc j).images :=
    view_update_eq (by rw [hi]; rfl)
  have hother : ∀ j l, l ≠ .raised e → Function.update w.proc i (.raised e) j = l →
      w.proc j = l := by
    intro j l hl h
    by_cases hj : j = i
    · rw [hj, Function.update_self] at h
      exact absurd h.symm hl
    · rwa [Function.update_of_ne hj] at h
  refine ⟨hw.exclusive, fun j => (hw.own j).trans (himages j).symm, ?_, ?_, ?_, ?_, ?_, ?_⟩
  · exact fun j s r p h => hw.revoked j s r p (h.imp (hother j _ (by simp)) (hother j _ (by simp)))
  · exact fun j s r p h => hw.fresh j s r p (hother j _ (by simp) h)
  · simpa only [hrotating] using hw.alone
  · simpa only [hrotating, haway] using hw.unspent
  · simpa only [haway] using hw.spent
  · simpa only [haway] using hw.once

/-- A read of an active row that nobody else is rotating. -/
theorem rotationInv_rotated {w : RefreshWorld ι} (hw : RotationInv w) {i : ι} {now : Datetime}
    {r successor : RefreshToken} {pair : TokenPair} (hi : w.proc i = .started)
    (hrow : lookup RefreshToken.jti r.jti w.shared.rows = some r) (hactive : r.isActive now = true)
    (hfree : ∀ j, (w.proc j).rotating r.jti = false) :
    RotationInv ⟨w.shared, Function.update w.proc i (.rotated (r.revoke now) successor pair)⟩ := by
  have haway : ∀ jti j, (Function.update w.proc i (.rotated (r.revoke now) successor pair)
      j).rotatedAway jti = (w.proc j).rotatedAway jti :=
    fun jti => view_update_eq (by rw [hi]; rfl)
  have himages : ∀ j, (Function.update w.proc i (.rotated (r.revoke now) successor pair)
      j).images = (w.proc j).images := view_update_eq (by rw [hi]; rfl)
  -- The row has not been rotated away: its `revoked_at` is still empty.
  have hunspent : ∀ j, (w.proc j).rotatedAway r.jti = false := by
    intro j
    by_contra haway
    obtain ⟨x, hx, hrevoked⟩ := hw.spent r.jti j (by simpa using haway)
    obtain rfl : r = x := Option.some.inj (hrow.symm.trans hx)
    simp [RefreshToken.isActive, Option.isSome_iff_ne_none.1 hrevoked] at hactive
  have hrotating : ∀ jti j, (Function.update w.proc i (.rotated (r.revoke now) successor pair)
      j).rotating jti = true → (j = i ∧ jti = r.jti) ∨ (j ≠ i ∧ (w.proc j).rotating jti = true) := by
    intro jti j h
    by_cases hj : j = i
    · rw [hj, Function.update_self] at h
      exact Or.inl ⟨hj, by simpa [RefreshCall.rotating, eq_comm] using h⟩
    · rw [Function.update_of_ne hj] at h
      exact Or.inr ⟨hj, h⟩
  refine ⟨hw.exclusive, fun j => (hw.own j).trans (himages j).symm, fun j s r' p h => ?_,
    fun j s r' p h => ?_, fun jti j k hj hk => ?_, fun jti j k hj => ?_, ?_, ?_⟩
  · by_cases hj : j = i
    · simp only [hj, Function.update_self, RefreshCall.rotated.injEq, reduceCtorEq, or_false] at h
      exact h.1 ▸ r.revoke_revokedAt_isSome now
    · simp only [Function.update_of_ne hj] at h
      exact hw.revoked j s r' p h
  · have hj : j ≠ i := fun hj => by simp [hj] at h
    simp only [Function.update_of_ne hj] at h
    exact hw.fresh j s r' p h
  · rcases hrotating jti j hj with ⟨rfl, rfl⟩ | ⟨_, hj'⟩ <;>
      rcases hrotating _ k hk with ⟨rfl, hjti⟩ | ⟨_, hk'⟩
    · rfl
    · exact absurd hk' (by simp [hfree k])
    · rw [hjti, hfree j] at hj'
      cases hj'
    · exact hw.alone jti j k hj' hk'
  · rw [haway]
    rcases hrotating jti j hj with ⟨_, rfl⟩ | ⟨_, hj⟩
    · exact hunspent k
    · exact hw.unspent jti j k hj
  · simpa only [haway] using hw.spent
  · simpa only [haway] using hw.once

/-- The flush: the call keeps the row it was already rotating. -/
theorem rotationInv_flushed {w : RefreshWorld ι} (hw : RotationInv w) {i : ι}
    {stored successor : RefreshToken} {pair : TokenPair}
    (hi : w.proc i = .rotated stored successor pair)
    (hfree : ∀ v ∈ w.shared.writes, v.2.jti = stored.jti → v.1 = i)
    (hrows : ∀ x ∈ w.shared.rows, x.jti ≠ successor.jti)
    (hwrites : ∀ v ∈ w.shared.writes, v.2.jti ≠ successor.jti)
    (hne : stored.jti ≠ successor.jti) :
    RotationInv ⟨(w.shared.write i stored).write i successor,
      Function.update w.proc i (.flushed stored successor pair)⟩ := by
  have hrotating : ∀ jti j, (Function.update w.proc i (.flushed stored successor pair)
      j).rotating jti = (w.proc j).rotating jti := fun jti => view_update_eq (by rw [hi]; rfl)
  have haway : ∀ jti j, (Function.update w.proc i (.flushed stored successor pair)
      j).rotatedAway jti = (w.proc j).rotatedAway jti := fun jti => view_update_eq (by rw [hi]; rfl)
  refine ⟨?_, fun j => ?_, fun j s r p h => ?_, fun j s r p h => ?_, ?_, ?_, ?_, ?_⟩
  · refine (hw.exclusive.write hfree).write fun v hv hk => ?_
    rcases Table.mem_write.1 hv with hv | rfl
    · exact absurd hk (hwrites v hv)
    · rfl
  · rw [Table.own_write, Table.own_write, hw.own j]
    by_cases hj : j = i
    · simp [hj, hi, RefreshCall.images]
    · simp only [if_neg (Ne.symm hj), Function.update_of_ne hj]
  · by_cases hj : j = i
    · simp only [hj, Function.update_self, RefreshCall.flushed.injEq, reduceCtorEq, false_or] at h
      exact h.1 ▸ hw.revoked i stored successor pair (Or.inl hi)
    · simp only [Function.update_of_ne hj] at h
      exact hw.revoked j s r p h
  · by_cases hj : j = i
    · simp only [hj, Function.update_self, RefreshCall.flushed.injEq] at h
      obtain ⟨rfl, rfl, rfl⟩ := h
      exact ⟨hne, hrows⟩
    · simp only [Function.update_of_ne hj] at h
      exact hw.fresh j s r p h
  · simpa only [hrotating] using hw.alone
  · simpa only [hrotating, haway] using hw.unspent
  · simpa only [haway, Table.write_rows] using hw.spent
  · simpa only [haway] using hw.once

/-- What the commit of a flushed call leaves under a key. -/
theorem lookup_commit_flushed {w : RefreshWorld ι} (hw : RotationInv w) {i : ι}
    {stored successor : RefreshToken} {pair : TokenPair}
    (hi : w.proc i = .flushed stored successor pair) (jti : String) :
    lookup RefreshToken.jti jti (w.shared.commit RefreshToken.jti i).rows =
      if successor.jti = jti then some successor
      else if stored.jti = jti then some stored
      else lookup RefreshToken.jti jti w.shared.rows := by
  have hown : w.shared.own i = [stored, successor] := by rw [hw.own i, hi]; rfl
  simp only [Table.commit, hown, List.foldl_cons, List.foldl_nil, lookup_upsert]

/-- A row that has been rotated away, or is now, stays in the table with its `revoked_at`. -/
theorem spent_commit_flushed {w : RefreshWorld ι} (hw : RotationInv w) {i : ι}
    {stored successor : RefreshToken} {pair : TokenPair}
    (hi : w.proc i = .flushed stored successor pair) {jti : String}
    (h : jti = stored.jti ∨ ∃ j, (w.proc j).rotatedAway jti = true) :
    ∃ r, lookup RefreshToken.jti jti (w.shared.commit RefreshToken.jti i).rows = some r ∧
      r.revokedAt.isSome = true := by
  obtain ⟨hne, hrows⟩ := hw.fresh i stored successor pair hi
  have hrevoked := hw.revoked i stored successor pair (Or.inr hi)
  rw [lookup_commit_flushed hw hi]
  rcases h with rfl | ⟨j, h⟩
  · exact ⟨stored, by rw [if_neg (Ne.symm hne), if_pos rfl], hrevoked⟩
  · obtain ⟨r, hr, hsome⟩ := hw.spent jti j h
    have hfresh : successor.jti ≠ jti := fun hk =>
      hrows r (mem_of_lookup hr) ((key_of_lookup hr).trans hk.symm)
    rw [if_neg hfresh]
    split
    · exact ⟨stored, rfl, hrevoked⟩
    · exact ⟨r, hr, hsome⟩

/-- The successor of another flushed call is as new after the commit as before. -/
theorem fresh_commit_flushed {w : RefreshWorld ι} (hw : RotationInv w) {i j : ι} (hj : j ≠ i)
    {stored successor : RefreshToken} {pair : TokenPair}
    (h : w.proc j = .flushed stored successor pair) :
    ∀ x ∈ (w.shared.commit RefreshToken.jti i).rows, x.jti ≠ successor.jti := by
  intro x hx hk
  rcases Table.mem_commit_rows hx with hx | hx
  · -- An image of `i` with the key of the successor would make `i` and `j` the same call.
    have hmine : (j, successor) ∈ w.shared.writes :=
      Table.mem_own.1 (by simp [hw.own j, h, RefreshCall.images])
    exact hj (hw.exclusive _ hmine _ hx hk.symm)
  · exact (hw.fresh j stored successor pair h).2 x hx hk

/-- The commit: the row the call was rotating is rotated away, and by nobody else. -/
theorem rotationInv_returned {w : RefreshWorld ι} (hw : RotationInv w) {i : ι}
    {stored successor : RefreshToken} {pair : TokenPair}
    (hi : w.proc i = .flushed stored successor pair) :
    RotationInv ⟨w.shared.commit RefreshToken.jti i,
      Function.update w.proc i (.returned stored successor pair)⟩ := by
  have hself : (w.proc i).rotating stored.jti = true := by rw [hi]; simp [RefreshCall.rotating]
  have hrotating : ∀ jti j, (Function.update w.proc i (.returned stored successor pair)
      j).rotating jti = true → j ≠ i ∧ (w.proc j).rotating jti = true := by
    intro jti j h
    by_cases hj : j = i
    · rw [hj, Function.update_self] at h
      cases h
    · exact ⟨hj, by rwa [Function.update_of_ne hj] at h⟩
  have haway : ∀ jti j, (Function.update w.proc i (.returned stored successor pair)
      j).rotatedAway jti = true →
      (j = i ∧ jti = stored.jti) ∨ (j ≠ i ∧ (w.proc j).rotatedAway jti = true) := by
    intro jti j h
    by_cases hj : j = i
    · rw [hj, Function.update_self] at h
      exact Or.inl ⟨hj, by simpa [RefreshCall.rotatedAway, eq_comm] using h⟩
    · exact Or.inr ⟨hj, by rwa [Function.update_of_ne hj] at h⟩
  refine ⟨hw.exclusive.commit i, fun j => ?_, fun j s r p h => ?_, fun j s r p h => ?_,
    fun jti j k hj hk => ?_, fun jti j k hj => ?_, fun jti j h => ?_, fun jti j k hj hk => ?_⟩
  · by_cases hj : j = i
    · subst hj
      simp only [Table.own_commit_self, Function.update_self, RefreshCall.images]
    · simp only [Table.own_commit_of_ne hj, Function.update_of_ne hj, hw.own j]
  · have hj : j ≠ i := fun hj => by simp [hj] at h
    simp only [Function.update_of_ne hj] at h
    exact hw.revoked j s r p h
  · have hj : j ≠ i := fun hj => by simp [hj] at h
    simp only [Function.update_of_ne hj] at h
    exact ⟨(hw.fresh j s r p h).1, fresh_commit_flushed hw hj h⟩
  · exact hw.alone jti j k (hrotating jti j hj).2 (hrotating jti k hk).2
  · obtain ⟨hji, hj'⟩ := hrotating jti j hj
    by_contra hk
    rcases haway jti k (by simpa using hk) with ⟨rfl, rfl⟩ | ⟨_, hk⟩
    · exact hji (hw.alone _ j k hj' hself)
    · exact absurd (hw.unspent jti j k hj') (by simp [hk])
  · exact spent_commit_flushed hw hi ((haway jti j h).imp And.right fun h => ⟨j, h.2⟩)
  · rcases haway jti j hj with ⟨rfl, rfl⟩ | ⟨_, hj'⟩ <;>
      rcases haway _ k hk with ⟨rfl, hjti⟩ | ⟨_, hk'⟩
    · rfl
    · exact absurd (hw.unspent _ j k hself) (by simp [hk'])
    · subst hjti
      exact absurd (hw.unspent _ k j hself) (by simp [hj'])
    · exact hw.once jti j k hj' hk'

/-! ## Runs -/

/-- The step is not a read of an active row that another call is rotating. -/
def ReadsAlone (tokens : TokenService) (presented : ι → String) (w : RefreshWorld ι) :
    ι × RefreshStep → Prop
  | (i, .read now _ _ _) => ∀ r ∈ w.readRow tokens presented i, r.isActive now = true →
      ∀ j, (w.proc j).rotating r.jti = false
  | (_, .flush) | (_, .commit) => True

instance [Fintype ι] (tokens : TokenService) (presented : ι → String) (w : RefreshWorld ι) :
    ∀ e : ι × RefreshStep, Decidable (ReadsAlone tokens presented w e)
  | (i, .read now _ _ _) => inferInstanceAs (Decidable (∀ r ∈ w.readRow tokens presented i,
      r.isActive now = true → ∀ j, (w.proc j).rotating r.jti = false))
  | (_, .flush) | (_, .commit) => inferInstanceAs (Decidable True)

theorem rotationInv_step {tokens : TokenService} {ttl : Timedelta} {presented : ι → String}
    {w w' : RefreshWorld ι} {e : ι × RefreshStep} (hw : RotationInv w)
    (halone : ReadsAlone tokens presented w e)
    (h : World.move (RefreshAccessToken.execute tokens ttl presented) w e = some w') :
    RotationInv w' := by
  obtain ⟨i, c⟩ := e
  obtain ⟨T, l, hstep, rfl⟩ := World.move_eq_some.1 h
  cases c with
  | read now accessNow newJti newSecret =>
      obtain ⟨rfl, hi, ⟨e, rfl⟩ | ⟨r, successor, pair, hread, hactive, rfl⟩⟩ := execute_read hstep
      · exact rotationInv_raised hw e hi
      · exact rotationInv_rotated hw hi (readRow_eq_some hread).2 hactive
          (halone r hread hactive)
  | flush =>
      obtain ⟨stored, successor, pair, hi, rfl, hfree, hrows, hwrites, hne, rfl⟩ :=
        execute_flush hstep
      exact rotationInv_flushed hw hi hfree hrows hwrites hne
  | commit =>
      obtain ⟨stored, successor, pair, hi, rfl, rfl⟩ := execute_commit hstep
      exact rotationInv_returned hw hi

/-- A call works on the row whose `jti` it presents. -/
def PresentsItsRow (presented : ι → String) (w : RefreshWorld ι) : Prop :=
  ∀ i stored successor pair, (w.proc i = .rotated stored successor pair ∨
    w.proc i = .flushed stored successor pair ∨ w.proc i = .returned stored successor pair) →
    TokenService.presentedJti (presented i) = some stored.jti

theorem presentsItsRow_step {tokens : TokenService} {ttl : Timedelta} {presented : ι → String}
    {w w' : RefreshWorld ι} {e : ι × RefreshStep} (hw : PresentsItsRow presented w)
    (h : World.move (RefreshAccessToken.execute tokens ttl presented) w e = some w') :
    PresentsItsRow presented w' := by
  obtain ⟨i, c⟩ := e
  obtain ⟨T, l, hstep, rfl⟩ := World.move_eq_some.1 h
  intro j stored successor pair hj
  by_cases hji : j = i
  · subst hji
    simp only [Function.update_self] at hj
    cases c with
    | read now accessNow newJti newSecret =>
        obtain ⟨rfl, -, ⟨e, rfl⟩ | ⟨r, _, _, hread, -, rfl⟩⟩ := execute_read hstep
        · rcases hj with hj | hj | hj <;> cases hj
        · rcases hj with hj | hj | hj <;> cases hj
          rw [RefreshToken.revoke_jti]
          exact (readRow_eq_some hread).1
    | flush =>
        obtain ⟨_, _, _, hi, rfl, -⟩ := execute_flush hstep
        rcases hj with hj | hj | hj <;> cases hj
        exact hw j _ _ _ (Or.inl hi)
    | commit =>
        obtain ⟨_, _, _, hi, rfl, -⟩ := execute_commit hstep
        rcases hj with hj | hj | hj <;> cases hj
        exact hw j _ _ _ (Or.inr (Or.inl hi))
  · simp only [Function.update_of_ne hji] at hj
    exact hw j stored successor pair hj

/-! ## Single use -/

/-- The call has handed out a pair. -/
def RefreshCall.hasReturned : RefreshCall → Bool
  | .returned .. => true
  | .started | .rotated .. | .flushed .. | .raised _ => false

/-- The call is over. -/
def RefreshCall.hasEnded : RefreshCall → Bool
  | .returned .. | .raised _ => true
  | .started | .rotated .. | .flushed .. => false

/-- A committed call rotated the row `jti` into `successor`. -/
def RefreshWorld.SuccessorOf (w : RefreshWorld ι) (jti : String) (successor : RefreshToken) : Prop :=
  ∃ i stored pair, w.proc i = .returned stored successor pair ∧ stored.jti = jti

/-- Of the calls that present one string at most one returns a pair, and those that end beside it
    raise `InvalidRefreshToken`; no row has two successors. -/
structure SingleUse (presented : ι → String) (w : RefreshWorld ι) : Prop where
  once : ∀ i j, presented i = presented j → (w.proc i).hasReturned = true →
    (w.proc j).hasReturned = true → i = j
  rejected : ∀ i j, i ≠ j → presented i = presented j → (w.proc i).hasReturned = true →
    (w.proc j).hasEnded = true → w.proc j = .raised .invalidRefreshToken
  successor : ∀ jti s s', w.SuccessorOf jti s → w.SuccessorOf jti s' → s = s'

theorem hasReturned_eq_true {l : RefreshCall} (h : l.hasReturned = true) :
    ∃ stored successor pair, l = .returned stored successor pair := by
  cases l with
  | returned stored successor pair => exact ⟨stored, successor, pair, rfl⟩
  | started | rotated | flushed | raised => cases h

theorem singleUse_of_rotationInv {presented : ι → String} {w : RefreshWorld ι}
    (hw : RotationInv w) (hp : PresentsItsRow presented w) : SingleUse presented w := by
  have honce : ∀ i j, presented i = presented j → (w.proc i).hasReturned = true →
      (w.proc j).hasReturned = true → i = j := by
    intro i j hij hi hj
    obtain ⟨s, r, p, hi⟩ := hasReturned_eq_true hi
    obtain ⟨s', r', p', hj⟩ := hasReturned_eq_true hj
    have hs := hp i s r p (Or.inr (Or.inr hi))
    rw [hij, hp j s' r' p' (Or.inr (Or.inr hj)), Option.some.injEq] at hs
    exact hw.once s.jti i j (by simp [hi, RefreshCall.rotatedAway])
      (by simp [hj, RefreshCall.rotatedAway, hs])
  refine ⟨honce, fun i j hne hij hi hj => ?_, fun jti s s' hs hs' => ?_⟩
  · cases hl : w.proc j with
    | raised e => cases e; rfl
    | returned s r p => exact absurd (honce i j hij hi (by rw [hl]; rfl)) hne
    | started | rotated | flushed => rw [hl] at hj; cases hj
  · obtain ⟨i, stored, pair, hi, rfl⟩ := hs
    obtain ⟨j, stored', pair', hj, hjti⟩ := hs'
    obtain rfl : i = j := hw.once stored.jti i j (by simp [hi, RefreshCall.rotatedAway])
      (by simp [hj, RefreshCall.rotatedAway, hjti])
    rw [hi] at hj
    cases hj
    rfl

/-- A refresh token is single-use in every run in which no call reads a row, still active, that
    another call has read as active and not yet committed. -/
theorem refresh_singleUse (tokens : TokenService) (ttl : Timedelta) (presented : ι → String)
    (rows : List RefreshToken) (es : List (ι × RefreshStep)) (w : RefreshWorld ι)
    (halone : StepsMeet (World.move (RefreshAccessToken.execute tokens ttl presented))
      (ReadsAlone tokens presented) (RefreshWorld.init rows) es)
    (hrun : exec (World.move (RefreshAccessToken.execute tokens ttl presented))
      (RefreshWorld.init rows) es = some w) :
    SingleUse presented w := by
  have hinv : RotationInv w := exec_invariant_of_stepsMeet
    (fun w e w' hw halone h => rotationInv_step hw halone h) (rotationInv_init rows) halone hrun
  have hpresents : PresentsItsRow presented w := exec_invariant
    (fun w e w' hw h => presentsItsRow_step hw h) (fun _ _ _ _ h => by simp [RefreshWorld.init] at h)
    hrun
  exact singleUse_of_rotationInv hinv hpresents

/-! ## Two calls on one token -/

/-- The token service on the inputs of the two runs below. -/
def twoCallsTokens : TokenService where
  hashSecret
    | "Zk3nq8Jv1bT0yRwXcL5sPdU7mFhGa2eN9oKiQ4tVxYs" =>
        "9a80bbeb3ac0bf88df50b7ce55d6a7bd1e561926b4dab4de1d483934858f0e9c"
    | "b7QmWc0RkN5zXv2LpTg8YhJd1fSa9uEi4oKxZr6DtVc" =>
        "86921ae9dad526feea0472c09d4ad54f3ee28143a7e5e553d1eec1cc3ef04f8c"
    | _ => "a2d1565416a8f604d7415f3dcf1b9496783f6889fee0d2b4d47d35bb8dbacd93"
  issueAccess _ _ := "eyJhbGciOiJIUzI1NiIsInR5cCI6IkpXVCJ9." ++
    "eyJzdWIiOiIwMDAwMDAwMC0wMDAwLTAwMDAtMDAwMC0wMDAwMDAwMDAwMGEiLCJpYXQiOjEwMDAsImV4cCI6MTkwMH0" ++
    ".rl_wpIxWTJ-saLaL786femFzr5Lb8bsoxMKXPK5e1LI"

def twoCallsRow : RefreshToken where
  jti := "0b54c9d1a6f84e07b2c3d4e5f6a7b8c9"
  userId := ⟨10⟩
  tokenHash := "9a80bbeb3ac0bf88df50b7ce55d6a7bd1e561926b4dab4de1d483934858f0e9c"
  expiresAt := ⟨2_000_000_000, 0⟩

def twoCallsPresented (_ : Bool) : String :=
  "0b54c9d1a6f84e07b2c3d4e5f6a7b8c9.Zk3nq8Jv1bT0yRwXcL5sPdU7mFhGa2eN9oKiQ4tVxYs"

def twoCallsRead : Bool → RefreshStep
  | false => .read ⟨1_000_000_000, 0⟩ ⟨1_000_000_000, 0⟩ "1c65dae2b7095f18c3d4e5f6a7b8c9d0"
      "b7QmWc0RkN5zXv2LpTg8YhJd1fSa9uEi4oKxZr6DtVc"
  | true => .read ⟨1_000_100_000, 0⟩ ⟨1_000_100_000, 0⟩ "2d76ebf3c81a6029d4e5f6a7b8c9d0e1"
      "Hq2Vn7xLs5RzKc9Jd0TgYb3Wm8PfAu1Ei4oXkZr6QtD"

/-- The second call starts after the commit of the first. -/
def twoCallsInTurn : List (Bool × RefreshStep) :=
  [(false, twoCallsRead false), (false, .flush), (false, .commit), (true, twoCallsRead true)]

/-- Both calls read before either commits. -/
def twoCallsOverlapping : List (Bool × RefreshStep) :=
  [(false, twoCallsRead false), (true, twoCallsRead true), (false, .flush), (false, .commit),
    (true, .flush), (true, .commit)]

/-- In turn, the first call returns a pair and the second finds the row revoked. -/
theorem refresh_singleUse_inTurn :
    ∃ w, exec (World.move (RefreshAccessToken.execute twoCallsTokens ⟨600_000_000⟩
        twoCallsPresented)) (RefreshWorld.init [twoCallsRow]) twoCallsInTurn = some w ∧
      ((w.proc false).hasReturned = true ∧ w.proc true = .raised .invalidRefreshToken) ∧
      SingleUse twoCallsPresented w := by
  obtain ⟨w, hrun, hends⟩ := exec_reaches (World.move (RefreshAccessToken.execute twoCallsTokens
    ⟨600_000_000⟩ twoCallsPresented)) (RefreshWorld.init [twoCallsRow]) twoCallsInTurn
    (fun w => (w.proc false).hasReturned = true ∧ w.proc true = .raised .invalidRefreshToken)
    (by decide +kernel)
  exact ⟨w, hrun, hends, refresh_singleUse twoCallsTokens ⟨600_000_000⟩ twoCallsPresented
    [twoCallsRow] twoCallsInTurn w (by decide +kernel) hrun⟩

/-- Overlapping, both calls return a pair. -/
theorem refresh_bothReturn :
    ∃ w, exec (World.move (RefreshAccessToken.execute twoCallsTokens ⟨600_000_000⟩
        twoCallsPresented)) (RefreshWorld.init [twoCallsRow]) twoCallsOverlapping = some w ∧
      ¬ SingleUse twoCallsPresented w := by
  obtain ⟨w, hrun, hfirst, hsecond⟩ := exec_reaches (World.move (RefreshAccessToken.execute
    twoCallsTokens ⟨600_000_000⟩ twoCallsPresented)) (RefreshWorld.init [twoCallsRow])
    twoCallsOverlapping (fun w => (w.proc false).hasReturned = true ∧
      (w.proc true).hasReturned = true) (by decide +kernel)
  exact ⟨w, hrun, fun h => absurd (h.once false true rfl hfirst hsecond) (by simp)⟩

end Dizzchat
