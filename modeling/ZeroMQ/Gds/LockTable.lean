import Mathlib.Data.Finmap
import Mathlib.Data.Finset.Max
import Mathlib.Data.Nat.Bitwise

/-!
# Lock tables of the GDS message processors

The processors of the GDS server keep their locks in maps of maps: what is locked, a row of a table, a
table or a file, is mapped to the users that have locks on it, and each of these users, known by number,
to a state, which is a bit mask of the kinds of lock the user holds.

`CMsgEditDBProcess`, `CMsgAddDBProcess` and `CMsgEditFileProcess` have the same code for locking and
unlocking up to the map they work on and the test of two states for a conflict; here they are one
function each, with the key and the test as parameters. `release` is the loop of `CCloseProjectMsgDB`
over the whole map, with the iterators of the map as the source moves them.

What a table says is the `state` of each user at each key, zero where there is no entry. A table is
`WellFormed` when no entry is superfluous, and then it is determined by its states.
-/

namespace Gds

open Option Finmap Finset Nat

/-- The users that have locks on one thing, with the state of each. -/
abbrev Users := Finmap fun _ : ℤ => ℕ

/-- A map from what can be locked to the users that have locks on it. -/
abbrev Table (κ : Type) := Finmap fun _ : κ => Users

section Operations

variable {κ : Type} [DecidableEq κ]

/-- `DoProcessLock`: nothing is done if the user has the lock, the lock is refused if another user has a
conflicting state, and otherwise the kind of lock is added to the state of the user. -/
def lock (isStateConflict : ℕ → ℕ → Bool) (table : Table κ) (item : κ) (iIdIndex : ℤ)
    (iMsgType : ℕ) : Bool × Table κ :=
  match table.lookup item with
  | some users =>
    -- include state
    if (users.lookup iIdIndex).getD 0 &&& iMsgType ≠ 0 then (true, table)
    -- check conflict
    else if ∃ itUser ∈ users.keys, isStateConflict ((users.lookup itUser).getD 0) iMsgType = true ∧
        (iIdIndex ∉ users ∨ iIdIndex ≠ itUser) then (false, table)
    else
      match users.lookup iIdIndex with
      | some state => (true, table.insert item (users.insert iIdIndex (state ||| iMsgType)))
      | none => (true, table.insert item (users.insert iIdIndex iMsgType))
  | none => (true, table.insert item (Finmap.insert iIdIndex iMsgType ∅))

/-- What becomes of a key when an entry of its map of users has been erased: with the last entry the key
is erased too. -/
def eraseEmpty (table : Table κ) (item : κ) (users : Users) : Table κ :=
  if users.keys = ∅ then table.erase item else table.insert item users

/-- `DoProcessUnLock`: the kind of lock is taken from the state of the user; an entry that has become
zero is erased, and with the last entry the map of the users. -/
def unlock (table : Table κ) (item : κ) (iIdIndex : ℤ)
    (iMsgType : ℕ) : Table κ :=
  match table.lookup item with
  | some users =>
    match users.lookup iIdIndex with
    | some state =>
      let users' := users.insert iIdIndex (state.ldiff iMsgType)
      if state.ldiff iMsgType = 0 then eraseEmpty table item (users'.erase iIdIndex)
      else table.insert item users'
    | none => table
  | none => table

end Operations

section Release

variable {κ : Type} [LinearOrder κ]

/-- `begin ()`: the least key, or the end if there is none. -/
def first (table : Table κ) : WithTop κ := table.keys.min

/-- `++it`: the least key above `item`, or the end. -/
def next (table : Table κ) (item : κ) : WithTop κ := (table.keys.filter fun k => item < k).min

/-- `--it`: the greatest key below `item`, or nothing if `item` is the first. -/
def previous (table : Table κ) (item : κ) : WithBot κ := (table.keys.filter fun k => k < item).max

/-- The loop of `CCloseProjectMsgDB::DoProcess` with the iterator at `it`. Where the user has an entry,
the iterator is set back before the entry is erased and forward again after; a key that keeps other users
is visited twice. -/
def releaseFrom (iIdIndex : ℤ) : ℕ → Table κ → WithTop κ → Table κ
  | 0, table, _ => table
  | _ + 1, table, none => table
  | fuel + 1, table, some item =>
    match table.lookup item with
    | none => table
    | some users =>
      if iIdIndex ∈ users then
        let table' := eraseEmpty table item (users.erase iIdIndex)
        match previous table item with
        | none => releaseFrom iIdIndex fuel table' (first table')
        | some itBack => releaseFrom iIdIndex fuel table' (next table' itBack)
      else releaseFrom iIdIndex fuel table (next table item)

/-- The whole loop: every key is visited at most twice. -/
def release (table : Table κ) (iIdIndex : ℤ) : Table κ :=
  releaseFrom iIdIndex (2 * table.keys.card + 1) table (first table)

end Release

/-! ### States -/

section State

variable {κ : Type} [DecidableEq κ] {table table' : Table κ} {item key : κ} {users : Users}
  {iIdIndex user : ℤ}

/-- The state of a user among those that have locks on one thing; zero without an entry. -/
def userState (users : Users) (user : ℤ) : ℕ := (users.lookup user).getD 0

/-- The state of a user at a key; zero without an entry. -/
def state (table : Table κ) (key : κ) (user : ℤ) : ℕ :=
  userState ((table.lookup key).getD ∅) user

/-- No key has an empty map of users and no user has the state zero. -/
structure WellFormed (table : Table κ) : Prop where
  nonempty : ∀ key users, table.lookup key = some users → users ≠ ∅
  nonzero : ∀ key users user, table.lookup key = some users → users.lookup user ≠ some 0

lemma wellFormed_empty : WellFormed (∅ : Table κ) where
  nonempty _ _ h := by cases h
  nonzero _ _ _ h := by cases h

lemma userState_eq_zero (h : user ∉ users) : userState users user = 0 := by
  rw [userState, lookup_eq_none.mpr h, getD_none]

lemma state_of_lookup (h : table.lookup key = some users) :
    state table key user = userState users user := by
  rw [state, h, getD_some]

lemma state_of_lookup_none (h : table.lookup key = none) : state table key user = 0 := by
  rw [state, h, getD_none]
  exact userState_eq_zero notMem_empty

lemma state_empty : state (∅ : Table κ) key user = 0 :=
  state_of_lookup_none (lookup_empty key)

lemma userState_insert (st : ℕ) :
    userState (users.insert iIdIndex st) user = if user = iIdIndex then st else userState users user := by
  unfold userState
  split
  next h => rw [h, lookup_insert, getD_some]
  next h => rw [lookup_insert_of_ne _ h]

lemma userState_erase :
    userState (users.erase iIdIndex) user = if user = iIdIndex then 0 else userState users user := by
  unfold userState
  split
  next h => rw [h, lookup_erase, getD_none]
  next h => rw [lookup_erase_ne h]

lemma state_insert :
    state (table.insert item users) key user =
      if key = item then userState users user else state table key user := by
  split
  next h => rw [h, state_of_lookup (lookup_insert table)]
  next h => rw [state, state, lookup_insert_of_ne _ h]

lemma state_erase :
    state (table.erase item) key user = if key = item then 0 else state table key user := by
  split
  next h => rw [h, state_of_lookup_none (lookup_erase item table)]
  next h => rw [state, state, lookup_erase_ne h]

lemma WellFormed.lookup_user (h : WellFormed table) (hkey : table.lookup key = some users) (user : ℤ) :
    users.lookup user = if state table key user = 0 then none else some (state table key user) := by
  rw [state_of_lookup hkey, userState]
  cases hu : users.lookup user with
  | none => rfl
  | some st =>
    have hst : st ≠ 0 := by
      rintro rfl
      exact h.nonzero key users user hkey hu
    rw [getD_some, if_neg hst]

lemma WellFormed.mem_iff (h : WellFormed table) : key ∈ table ↔ ∃ user, state table key user ≠ 0 := by
  constructor
  · intro hmem
    obtain ⟨users, hkey⟩ := Finmap.mem_iff.mp hmem
    by_contra hno
    push Not at hno
    refine h.nonempty key users hkey (Finmap.ext_lookup fun user => ?_)
    rw [h.lookup_user hkey, if_pos (hno user), Finmap.lookup_empty]
  · rintro ⟨user, huser⟩
    by_contra hmem
    exact huser (state_of_lookup_none (Finmap.lookup_eq_none.mpr hmem))

lemma WellFormed.ext (h : WellFormed table) (h' : WellFormed table')
    (hstate : ∀ key user, state table key user = state table' key user) : table = table' := by
  refine Finmap.ext_lookup fun key => ?_
  have hmem : key ∈ table ↔ key ∈ table' := by simp only [h.mem_iff, h'.mem_iff, hstate]
  cases hkey : table.lookup key with
  | none => exact (Finmap.lookup_eq_none.mpr (mt hmem.mpr (Finmap.lookup_eq_none.mp hkey))).symm
  | some users =>
    obtain ⟨users', hkey'⟩ := Finmap.mem_iff.mp (hmem.mp (Finmap.mem_of_lookup_eq_some hkey))
    have husers : users = users' := by
      refine Finmap.ext_lookup fun user => ?_
      rw [h.lookup_user hkey, h'.lookup_user hkey', hstate]
    rw [hkey', husers]

lemma WellFormed.insert (h : WellFormed table) (hne : users ≠ ∅)
    (hnonzero : ∀ user, users.lookup user ≠ some 0) : WellFormed (table.insert item users) where
  nonempty := by
    intro key users' hkey
    by_cases hk : key = item
    · rw [hk, lookup_insert, some_inj] at hkey
      rwa [← hkey]
    · rw [lookup_insert_of_ne _ hk] at hkey
      exact h.nonempty key users' hkey
  nonzero := by
    intro key users' user hkey
    by_cases hk : key = item
    · rw [hk, lookup_insert, some_inj] at hkey
      rw [← hkey]
      exact hnonzero user
    · rw [lookup_insert_of_ne _ hk] at hkey
      exact h.nonzero key users' user hkey

lemma WellFormed.erase (h : WellFormed table) : WellFormed (table.erase item) where
  nonempty := by
    intro key users' hkey
    have hk : key ≠ item := by
      rintro rfl
      rw [lookup_erase] at hkey
      cases hkey
    rw [lookup_erase_ne hk] at hkey
    exact h.nonempty key users' hkey
  nonzero := by
    intro key users' user hkey
    have hk : key ≠ item := by
      rintro rfl
      rw [lookup_erase] at hkey
      cases hkey
    rw [lookup_erase_ne hk] at hkey
    exact h.nonzero key users' user hkey

lemma state_eraseEmpty :
    state (eraseEmpty table item users) key user =
      if key = item then userState users user else state table key user := by
  unfold eraseEmpty
  split
  next hempty =>
    have hnone : userState users user = 0 := by
      refine userState_eq_zero ?_
      rw [← mem_keys, hempty]
      exact notMem_empty user
    rw [state_erase, hnone]
  next => exact state_insert

lemma WellFormed.eraseEmpty (h : WellFormed table) (hnonzero : ∀ user, users.lookup user ≠ some 0) :
    WellFormed (eraseEmpty table item users) := by
  unfold Gds.eraseEmpty
  split
  next => exact h.erase
  next hne =>
    refine h.insert (fun hempty => hne ?_) hnonzero
    rw [hempty, keys_empty]

end State

/-! ### Locking and unlocking -/

section LockUnlock

variable {κ : Type} [DecidableEq κ] {table : Table κ} {item key : κ} {users : Users}
  {iIdIndex user : ℤ} {iMsgType bit : ℕ} {conflict : ℕ → ℕ → Bool}

lemma and_two_pow_ne_zero (st bit : ℕ) : st &&& 2 ^ bit ≠ 0 ↔ st.testBit bit = true := by
  rw [and_two_pow]
  cases st.testBit bit <;> simp

lemma or_two_pow_eq_self {st bit : ℕ} (h : st.testBit bit = true) : st ||| 2 ^ bit = st := by
  refine eq_of_testBit_eq fun b => ?_
  rw [testBit_or, testBit_two_pow]
  by_cases hb : bit = b
  · rw [← hb, h, Bool.true_or]
  · simp [hb]

lemma exists_conflict_iff (hzero : conflict 0 iMsgType = false) (hkey : table.lookup item = some users) :
    (∃ itUser ∈ users.keys, conflict ((users.lookup itUser).getD 0) iMsgType = true ∧
        (iIdIndex ∉ users ∨ iIdIndex ≠ itUser)) ↔
      ∃ user, user ≠ iIdIndex ∧ conflict (state table item user) iMsgType = true := by
  constructor
  · rintro ⟨itUser, hmem, hconflict, hother⟩
    refine ⟨itUser, ?_, by rw [state_of_lookup hkey]; exact hconflict⟩
    rintro rfl
    exact hother.elim (fun h => h (mem_keys.mp hmem)) fun h => h rfl
  · rintro ⟨user, hne, hconflict⟩
    rw [state_of_lookup hkey] at hconflict
    have hmem : user ∈ users := by
      by_contra hno
      rw [userState_eq_zero hno, hzero] at hconflict
      cases hconflict
    exact ⟨user, mem_keys.mpr hmem, hconflict, .inr hne.symm⟩

lemma lock_of_held (h : state table item iIdIndex &&& iMsgType ≠ 0) :
    lock conflict table item iIdIndex iMsgType = (true, table) := by
  unfold lock
  cases hkey : table.lookup item with
  | none =>
    rw [state_of_lookup_none hkey, zero_and] at h
    exact absurd rfl h
  | some users =>
    rw [state_of_lookup hkey, userState] at h
    simp only [if_pos h]

section

variable (hzero : conflict 0 iMsgType = false)

include hzero

lemma lock_of_conflict
    (h : ¬state table item iIdIndex &&& iMsgType ≠ 0)
    (hconflict : ∃ user, user ≠ iIdIndex ∧ conflict (state table item user) iMsgType = true) :
    lock conflict table item iIdIndex iMsgType = (false, table) := by
  unfold lock
  cases hkey : table.lookup item with
  | none =>
    obtain ⟨user, -, huser⟩ := hconflict
    rw [state_of_lookup_none hkey, hzero] at huser
    cases huser
  | some users =>
    rw [state_of_lookup hkey, userState] at h
    simp only [if_neg h, if_pos ((exists_conflict_iff hzero hkey).mpr hconflict)]

lemma lock_of_free
    (h : ¬state table item iIdIndex &&& iMsgType ≠ 0)
    (hfree : ¬∃ user, user ≠ iIdIndex ∧ conflict (state table item user) iMsgType = true) :
    lock conflict table item iIdIndex iMsgType =
      (true, table.insert item (((table.lookup item).getD ∅).insert iIdIndex
        (state table item iIdIndex ||| iMsgType))) := by
  unfold lock
  cases hkey : table.lookup item with
  | none => rw [state_of_lookup_none hkey, zero_or, getD_none]
  | some users =>
    rw [state_of_lookup hkey] at h ⊢
    rw [userState] at h
    simp only [if_neg h, if_neg (mt (exists_conflict_iff hzero hkey).mp hfree)]
    cases hu : users.lookup iIdIndex with
    | none => rw [getD_some, userState, hu, getD_none, zero_or]
    | some st => rw [getD_some, userState, hu, getD_some]

lemma lock_granted_iff :
    (lock conflict table item iIdIndex iMsgType).1 = true ↔
      state table item iIdIndex &&& iMsgType ≠ 0 ∨
        ∀ user, user ≠ iIdIndex → conflict (state table item user) iMsgType = false := by
  by_cases h : state table item iIdIndex &&& iMsgType ≠ 0
  · rw [lock_of_held h]
    exact ⟨fun _ => .inl h, fun _ => rfl⟩
  by_cases hconflict : ∃ user, user ≠ iIdIndex ∧ conflict (state table item user) iMsgType = true
  · rw [lock_of_conflict hzero h hconflict]
    obtain ⟨user, hne, huser⟩ := hconflict
    refine ⟨fun hfalse => (by cases hfalse), fun hor => ?_⟩
    rw [hor.resolve_left h user hne] at huser
    exact huser
  · rw [lock_of_free hzero h hconflict]
    push Not at hconflict
    exact ⟨fun _ => .inr fun user hne => Bool.eq_false_of_not_eq_true (hconflict user hne), fun _ => rfl⟩

lemma lock_refused
    (hno : (lock conflict table item iIdIndex iMsgType).1 = false) :
    (lock conflict table item iIdIndex iMsgType).2 = table := by
  by_cases h : state table item iIdIndex &&& iMsgType ≠ 0
  · rw [lock_of_held h]
  by_cases hconflict : ∃ user, user ≠ iIdIndex ∧ conflict (state table item user) iMsgType = true
  · rw [lock_of_conflict hzero h hconflict]
  · rw [lock_of_free hzero h hconflict] at hno
    cases hno

end

lemma lock_state (hzero : conflict 0 (2 ^ bit) = false)
    (hyes : (lock conflict table item iIdIndex (2 ^ bit)).1 = true) :
    state (lock conflict table item iIdIndex (2 ^ bit)).2 key user =
      if key = item ∧ user = iIdIndex then state table item iIdIndex ||| 2 ^ bit
      else state table key user := by
  by_cases h : state table item iIdIndex &&& 2 ^ bit ≠ 0
  · rw [lock_of_held h]
    split
    next heq => rw [heq.1, heq.2, or_two_pow_eq_self ((and_two_pow_ne_zero _ _).mp h)]
    next => rfl
  · by_cases hconflict : ∃ user, user ≠ iIdIndex ∧ conflict (state table item user) (2 ^ bit) = true
    · rw [lock_of_conflict hzero h hconflict] at hyes
      cases hyes
    · rw [lock_of_free hzero h hconflict, state_insert, userState_insert]
      by_cases hk : key = item
      · by_cases hu : user = iIdIndex
        · simp only [hk, hu, and_self, if_true]
        · simp only [hk, hu, and_false, if_true, if_false]
          rfl
      · simp only [hk, false_and, if_false]

lemma WellFormed.lock (hwf : WellFormed table) (hzero : conflict 0 (2 ^ bit) = false) :
    WellFormed (lock conflict table item iIdIndex (2 ^ bit)).2 := by
  by_cases h : state table item iIdIndex &&& 2 ^ bit ≠ 0
  · rw [lock_of_held h]
    exact hwf
  by_cases hconflict : ∃ user, user ≠ iIdIndex ∧ conflict (state table item user) (2 ^ bit) = true
  · rw [lock_of_conflict hzero h hconflict]
    exact hwf
  · rw [lock_of_free hzero h hconflict]
    refine hwf.insert (fun hempty => ?_) fun user huser => ?_
    · have hmem : iIdIndex ∈ ((table.lookup item).getD ∅).insert iIdIndex
          (state table item iIdIndex ||| 2 ^ bit) := mem_insert.mpr (.inl rfl)
      rw [hempty] at hmem
      exact notMem_empty hmem
    · by_cases hu : user = iIdIndex
      · rw [hu, lookup_insert, some_inj] at huser
        have hbit : (state table item iIdIndex ||| 2 ^ bit).testBit bit = true := by
          rw [testBit_or, testBit_two_pow_self, Bool.or_true]
        rw [huser, zero_testBit] at hbit
        cases hbit
      · rw [lookup_insert_of_ne _ hu] at huser
        cases hkey : table.lookup item with
        | none =>
          rw [hkey, getD_none, lookup_empty] at huser
          cases huser
        | some users =>
          rw [hkey, getD_some] at huser
          exact hwf.nonzero item users user hkey huser

lemma unlock_of_entry {st : ℕ} (hkey : table.lookup item = some users)
    (huser : users.lookup iIdIndex = some st) :
    unlock table item iIdIndex iMsgType =
      if st.ldiff iMsgType = 0 then
        eraseEmpty table item ((users.insert iIdIndex (st.ldiff iMsgType)).erase iIdIndex)
      else table.insert item (users.insert iIdIndex (st.ldiff iMsgType)) := by
  simp only [unlock, hkey, huser]

lemma unlock_of_no_entry (hkey : table.lookup item = some users)
    (huser : users.lookup iIdIndex = none) : unlock table item iIdIndex iMsgType = table := by
  simp only [unlock, hkey, huser]

lemma unlock_of_no_key (hkey : table.lookup item = none) :
    unlock table item iIdIndex iMsgType = table := by
  simp only [unlock, hkey]

lemma zero_ldiff (iMsgType : ℕ) : ldiff 0 iMsgType = 0 := by
  refine eq_of_testBit_eq fun b => ?_
  rw [testBit_ldiff, zero_testBit, Bool.false_and]

lemma unlock_state :
    state (unlock table item iIdIndex iMsgType) key user =
      if key = item ∧ user = iIdIndex then (state table item iIdIndex).ldiff iMsgType
      else state table key user := by
  have hnothing (h0 : state table item iIdIndex = 0) : state table key user =
      if key = item ∧ user = iIdIndex then (state table item iIdIndex).ldiff iMsgType
      else state table key user := by
    split
    next heq => rw [heq.1, heq.2, h0, zero_ldiff]
    next => rfl
  cases hkey : table.lookup item with
  | none =>
    rw [unlock_of_no_key hkey]
    exact hnothing (state_of_lookup_none hkey)
  | some users =>
    have hitem (u : ℤ) : state table item u = userState users u := state_of_lookup hkey
    cases huser : users.lookup iIdIndex with
    | none =>
      rw [unlock_of_no_entry hkey huser]
      refine hnothing ?_
      rw [hitem, userState, huser, getD_none]
    | some st =>
      have hst : state table item iIdIndex = st := by
        rw [hitem, userState, huser, getD_some]
      have hstate : state (unlock table item iIdIndex iMsgType) key user =
          if key = item then (if user = iIdIndex then st.ldiff iMsgType else userState users user)
          else state table key user := by
        rw [unlock_of_entry hkey huser]
        split
        next hzero =>
          rw [state_eraseEmpty, userState_erase, userState_insert, hzero]
          by_cases hu : user = iIdIndex
          · simp only [hu, if_true]
          · simp only [hu, if_false]
        next => rw [state_insert, userState_insert]
      rw [hstate, hst]
      by_cases hk : key = item
      · by_cases hu : user = iIdIndex
        · simp only [hk, hu, and_self, if_true]
        · rw [if_pos hk, if_neg hu, if_neg fun h => hu h.2, hk, hitem]
      · rw [if_neg hk, if_neg fun h => hk h.1]

lemma WellFormed.unlock (hwf : WellFormed table) : WellFormed (unlock table item iIdIndex iMsgType) := by
  cases hkey : table.lookup item with
  | none => rwa [unlock_of_no_key hkey]
  | some users =>
    have hnonzero (user : ℤ) : users.lookup user ≠ some 0 := hwf.nonzero item users user hkey
    cases huser : users.lookup iIdIndex with
    | none => rwa [unlock_of_no_entry hkey huser]
    | some st =>
      rw [unlock_of_entry hkey huser]
      split
      next =>
        refine hwf.eraseEmpty fun user => ?_
        by_cases hu : user = iIdIndex
        · rw [hu, lookup_erase]
          exact fun h => (by cases h)
        · rw [lookup_erase_ne hu, lookup_insert_of_ne _ hu]
          exact hnonzero user
      next hst =>
        refine hwf.insert (fun hempty => ?_) fun user => ?_
        · have hmem : iIdIndex ∈ users.insert iIdIndex (st.ldiff iMsgType) :=
            mem_insert.mpr (.inl rfl)
          rw [hempty] at hmem
          exact notMem_empty hmem
        · by_cases hu : user = iIdIndex
          · rw [hu, lookup_insert, Ne, some_inj]
            exact hst
          · rw [lookup_insert_of_ne _ hu]
            exact hnonzero user

end LockUnlock

/-! ### Releasing the locks of a user -/

section ReleaseLoop

variable {κ : Type} [LinearOrder κ] {table : Table κ} {item key : κ} {users : Users} {iIdIndex user : ℤ}
  {it : WithTop κ}

/-- The keys the iterator has not passed. -/
def ahead (table : Table κ) (it : WithTop κ) : Finset κ := table.keys.filter fun k => it ≤ (k : WithTop κ)

/-- Those of them where the user still has an entry. -/
def heldAhead (iIdIndex : ℤ) (table : Table κ) (it : WithTop κ) : Finset κ :=
  (ahead table it).filter fun k => state table k iIdIndex ≠ 0

/-- The iterations the loop has still to make. -/
def workLeft (iIdIndex : ℤ) (table : Table κ) (it : WithTop κ) : ℕ :=
  (ahead table it).card + (heldAhead iIdIndex table it).card

/-- The loop is at the end or at a key, and the user has no entry at the keys before. -/
structure Releasing (iIdIndex : ℤ) (table : Table κ) (it : WithTop κ) : Prop where
  wellFormed : WellFormed table
  mem : ∀ item : κ, it = item → item ∈ table
  done : ∀ item : κ, (item : WithTop κ) < it → state table item iIdIndex = 0

lemma mem_ahead : key ∈ ahead table it ↔ key ∈ table ∧ it ≤ (key : WithTop κ) := by
  rw [ahead, mem_filter, mem_keys]

lemma mem_heldAhead :
    key ∈ heldAhead iIdIndex table it ↔ key ∈ ahead table it ∧ state table key iIdIndex ≠ 0 := by
  rw [heldAhead, mem_filter]

lemma min_filter_spec (p : κ → Prop) [DecidablePred p] (hit : it = (table.keys.filter p).min) :
    (∀ k : κ, it = k → k ∈ table ∧ p k) ∧ ∀ k, k ∈ table → p k → it ≤ (k : WithTop κ) := by
  constructor
  · intro k hk
    rw [hk] at hit
    have hmem := mem_of_min hit.symm
    rw [mem_filter, mem_keys] at hmem
    exact hmem
  · intro k hk hp
    rw [hit]
    exact min_le (mem_filter.mpr ⟨mem_keys.mpr hk, hp⟩)

/-- Setting the iterator back before an entry is erased and forward again after leaves it at the first
key that is not before the one that was visited. -/
lemma back_and_forth {table' : Table κ} (hsub : ∀ k, k ∈ table' → k ∈ table) :
    (match previous table item with
      | none => first table'
      | some itBack => next table' itBack) = (table'.keys.filter fun k => item ≤ k).min := by
  have hmem (k : κ) : k ∈ table.keys.filter (fun k => k < item) ↔ k ∈ table ∧ k < item := by
    rw [mem_filter, mem_keys]
  cases hprev : previous table item with
  | bot =>
    have hnone : table.keys.filter (fun k => k < item) = ∅ := max_eq_bot.mp hprev
    have hall : table'.keys.filter (fun k => item ≤ k) = table'.keys := by
      refine filter_true_of_mem fun k hk => not_lt.mp fun hlt => ?_
      have hk' := (hmem k).mpr ⟨hsub k (mem_keys.mp hk), hlt⟩
      rw [hnone] at hk'
      exact notMem_empty k hk'
    rw [hall]
    rfl
  | coe itBack =>
    have hback := (hmem itBack).mp (mem_of_max hprev)
    have hfilter : table'.keys.filter (fun k => itBack < k) = table'.keys.filter fun k => item ≤ k := by
      refine filter_congr fun k hk => ⟨fun hlt => not_lt.mp fun hk' => ?_, fun hle => ?_⟩
      · have hle := le_max ((hmem k).mpr ⟨hsub k (mem_keys.mp hk), hk'⟩)
        rw [show (table.keys.filter fun k => k < item).max = itBack from hprev] at hle
        exact absurd hlt (not_lt.mpr (WithBot.coe_le_coe.mp hle))
      · exact lt_of_lt_of_le hback.2 hle
    rw [← hfilter]
    rfl

lemma state_eraseEmpty_erase (hkey : table.lookup item = some users) :
    state (eraseEmpty table item (users.erase iIdIndex)) key user =
      if key = item ∧ user = iIdIndex then 0 else state table key user := by
  rw [state_eraseEmpty, userState_erase]
  by_cases hk : key = item
  · by_cases hu : user = iIdIndex
    · simp only [hk, hu, and_self, if_true]
    · rw [if_pos hk, if_neg hu, if_neg fun h => hu h.2, hk, state_of_lookup hkey]
  · rw [if_neg hk, if_neg fun h => hk h.1]

lemma mem_of_mem_eraseEmpty (hitem : item ∈ table) (h : key ∈ eraseEmpty table item users) :
    key ∈ table := by
  unfold eraseEmpty at h
  split at h
  · exact (mem_erase.mp h).2
  rcases mem_insert.mp h with rfl | hmem
  · exact hitem
  · exact hmem

lemma Releasing.pass (h : Releasing iIdIndex table item) (hkey : table.lookup item = some users)
    (huser : iIdIndex ∉ users) :
    Releasing iIdIndex table (next table item) ∧
      workLeft iIdIndex table (next table item) < workLeft iIdIndex table item := by
  obtain ⟨hread, hleast⟩ := min_filter_spec (fun k => item < k) (rfl : next table item = _)
  have hzero : state table item iIdIndex = 0 := by
    rw [state_of_lookup hkey]
    exact userState_eq_zero huser
  have hbehind (k : κ) (hk : (k : WithTop κ) < next table item) (hmem : k ∈ table) : k ≤ item :=
    not_lt.mp fun hlt => absurd hk (not_lt.mpr (hleast k hmem hlt))
  have hbeyond (k : κ) (hk : next table item ≤ (k : WithTop κ)) : item < k := by
    obtain ⟨m, hm, hmk⟩ := WithTop.le_coe_iff.mp hk
    exact lt_of_lt_of_le (hread m hm).2 hmk
  refine ⟨⟨h.wellFormed, fun k hk => (hread k hk).1, fun k hk => ?_⟩, ?_⟩
  · by_cases hmem : k ∈ table
    · rcases lt_or_eq_of_le (hbehind k hk hmem) with hlt | rfl
      · exact h.done k (WithTop.coe_lt_coe.mpr hlt)
      · exact hzero
    · exact state_of_lookup_none (lookup_eq_none.mpr hmem)
  · have hsub : ahead table (next table item) ⊂ ahead table item := by
      rw [ssubset_iff_of_subset]
      · refine ⟨item, mem_ahead.mpr ⟨h.mem item rfl, le_refl _⟩, fun hno => ?_⟩
        exact lt_irrefl item (hbeyond item (mem_ahead.mp hno).2)
      · intro k hk
        rw [mem_ahead] at hk ⊢
        exact ⟨hk.1, WithTop.coe_le_coe.mpr (le_of_lt (hbeyond k hk.2))⟩
    have hheld : heldAhead iIdIndex table (next table item) ⊆ heldAhead iIdIndex table item :=
      filter_subset_filter _ hsub.subset
    exact Nat.add_lt_add_of_lt_of_le (card_lt_card hsub) (card_le_card hheld)

lemma Releasing.erase (h : Releasing iIdIndex table item) (hkey : table.lookup item = some users)
    (huser : iIdIndex ∈ users)
    (hit : it = ((eraseEmpty table item (users.erase iIdIndex)).keys.filter fun k => item ≤ k).min) :
    Releasing iIdIndex (eraseEmpty table item (users.erase iIdIndex)) it ∧
      workLeft iIdIndex (eraseEmpty table item (users.erase iIdIndex)) it <
        workLeft iIdIndex table item := by
  obtain ⟨hread, hleast⟩ := min_filter_spec (fun k => item ≤ k) hit
  have hstate (k : κ) : state (eraseEmpty table item (users.erase iIdIndex)) k iIdIndex =
      if k = item then 0 else state table k iIdIndex := by
    rw [state_eraseEmpty_erase hkey]
    simp only [and_true]
  have hmem (k : κ) (hk : k ∈ eraseEmpty table item (users.erase iIdIndex)) : k ∈ table :=
    mem_of_mem_eraseEmpty (h.mem item rfl) hk
  have hbeyond (k : κ) (hk : it ≤ (k : WithTop κ)) : item ≤ k := by
    obtain ⟨m, hm, hmk⟩ := WithTop.le_coe_iff.mp hk
    exact le_trans (hread m hm).2 hmk
  have hnonzero : state table item iIdIndex ≠ 0 := by
    obtain ⟨st, hst⟩ := mem_iff.mp huser
    rw [state_of_lookup hkey, userState, hst, getD_some]
    rintro rfl
    exact h.wellFormed.nonzero item users iIdIndex hkey hst
  have hsub : ahead (eraseEmpty table item (users.erase iIdIndex)) it ⊆ ahead table item := by
    intro k hk
    rw [mem_ahead] at hk ⊢
    exact ⟨hmem k hk.1, WithTop.coe_le_coe.mpr (hbeyond k hk.2)⟩
  refine ⟨⟨?_, fun k hk => (hread k hk).1, fun k hk => ?_⟩, ?_⟩
  · refine h.wellFormed.eraseEmpty fun u => ?_
    by_cases hu : u = iIdIndex
    · rw [hu, lookup_erase]
      exact fun h => (by cases h)
    · rw [lookup_erase_ne hu]
      exact h.wellFormed.nonzero item users u hkey
  · by_cases hk' : k ∈ eraseEmpty table item (users.erase iIdIndex)
    · have hlt : k < item := not_le.mp fun hle => absurd hk (not_lt.mpr (hleast k hk' hle))
      rw [hstate, if_neg hlt.ne]
      exact h.done k (WithTop.coe_lt_coe.mpr hlt)
    · exact state_of_lookup_none (lookup_eq_none.mpr hk')
  · have hheld : heldAhead iIdIndex (eraseEmpty table item (users.erase iIdIndex)) it ⊂
        heldAhead iIdIndex table item := by
      rw [ssubset_iff_of_subset]
      · refine ⟨item, mem_heldAhead.mpr ⟨mem_ahead.mpr ⟨h.mem item rfl, le_refl _⟩, hnonzero⟩, fun hno => ?_⟩
        refine (mem_heldAhead.mp hno).2 ?_
        rw [hstate, if_pos rfl]
      · intro k hk
        rw [mem_heldAhead] at hk ⊢
        refine ⟨hsub hk.1, fun hk0 => hk.2 ?_⟩
        rw [hstate, hk0, ite_self]
    exact Nat.add_lt_add_of_le_of_lt (card_le_card hsub) (card_lt_card hheld)

lemma releaseFrom_spec (h : Releasing iIdIndex table it) {fuel : ℕ}
    (hfuel : workLeft iIdIndex table it < fuel) :
    WellFormed (releaseFrom iIdIndex fuel table it) ∧
      ∀ key user, state (releaseFrom iIdIndex fuel table it) key user =
        if user = iIdIndex then 0 else state table key user := by
  induction fuel generalizing table it with
  | zero => exact absurd hfuel (not_lt_zero _)
  | succ fuel ih =>
    cases it with
    | top =>
      refine ⟨h.wellFormed, fun key user => ?_⟩
      split
      next hu =>
        rw [hu]
        exact h.done key (WithTop.coe_lt_top key)
      next => rfl
    | coe item =>
      obtain ⟨users, hkey⟩ := mem_iff.mp (h.mem item rfl)
      by_cases huser : iIdIndex ∈ users
      · have hstep : releaseFrom iIdIndex (fuel + 1) table item =
            releaseFrom iIdIndex fuel (eraseEmpty table item (users.erase iIdIndex))
              ((eraseEmpty table item (users.erase iIdIndex)).keys.filter fun k => item ≤ k).min := by
          rw [← back_and_forth fun k hk => mem_of_mem_eraseEmpty (h.mem item rfl) hk]
          refine (releaseFrom.eq_3 iIdIndex table fuel item).trans ?_
          simp only [hkey, if_pos huser]
          cases previous table item <;> rfl
        obtain ⟨h', hless⟩ := h.erase hkey huser rfl
        obtain ⟨hwf, hstate⟩ := ih h' (by omega)
        rw [hstep]
        refine ⟨hwf, fun key user => ?_⟩
        rw [hstate, state_eraseEmpty_erase hkey]
        by_cases hu : user = iIdIndex
        · rw [if_pos hu, if_pos hu]
        · rw [if_neg hu, if_neg hu, if_neg fun h => hu h.2]
      · have hstep : releaseFrom iIdIndex (fuel + 1) table item =
            releaseFrom iIdIndex fuel table (next table item) := by
          refine (releaseFrom.eq_3 iIdIndex table fuel item).trans ?_
          simp only [hkey, if_neg huser]
        obtain ⟨h', hless⟩ := h.pass hkey huser
        rw [hstep]
        exact ih h' (by omega)

lemma release_spec (iIdIndex : ℤ) (h : WellFormed table) :
    WellFormed (release table iIdIndex) ∧
      ∀ key user, state (release table iIdIndex) key user =
        if user = iIdIndex then 0 else state table key user := by
  have hfirst : first table = (table.keys.filter fun _ => True).min := by
    rw [first, filter_true]
  obtain ⟨hread, hleast⟩ := min_filter_spec (fun _ => True) hfirst
  have hstart : Releasing iIdIndex table (first table) := by
    refine ⟨h, fun k hk => (hread k hk).1, fun k hk => ?_⟩
    refine state_of_lookup_none (lookup_eq_none.mpr fun hmem => ?_)
    exact absurd hk (not_lt.mpr (hleast k hmem trivial))
  refine releaseFrom_spec hstart ?_
  have hahead : (ahead table (first table)).card ≤ table.keys.card :=
    card_le_card (filter_subset _ _)
  have hheld : (heldAhead iIdIndex table (first table)).card ≤ (ahead table (first table)).card :=
    card_le_card (filter_subset _ _)
  unfold workLeft
  omega

end ReleaseLoop

end Gds
