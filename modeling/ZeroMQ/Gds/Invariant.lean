import ZeroMQ.Gds.Manager

/-!
# What the lock tables of the GDS managers always satisfy

While the counters do not run over, numbers are never given twice, so every entry of a table belongs to the user its number was given to.
The entries for rows are under numbers the database manager still knows, because it forgets a number only
when it has released the rows; the entries for tables can outlive the number. For every kind of lock that
excludes others at most one number has the bit at each key.
-/

namespace Gds

open Function Option Finmap Nat

lemma editDBConflict_value (kind : RowKind) (st : ℕ) :
    editDBConflict st kind.type.value = st.testBit kind.type.bit := by
  unfold editDBConflict MsgType.value
  rw [and_two_pow]
  cases kind <;> cases st.testBit _ <;> decide

lemma addDBConflict_value (st : ℕ) : addDBConflict st MsgType.addDB.value = st.testBit MsgType.addDB.bit := by
  unfold addDBConflict MsgType.value
  rw [and_two_pow]
  cases st.testBit _ <;> decide

lemma editFileConflict_value (kind : FileKind) (st : ℕ) :
    editFileConflict st kind.type.value = (decide (kind = .edit) && st.testBit kind.type.bit) := by
  unfold editFileConflict MsgType.value
  rw [and_two_pow, ite_self]
  cases kind <;> cases st.testBit _ <;> decide

/-! ### Tables -/

section Touches

variable {κ : Type} [DecidableEq κ] {table table' : Table κ} {item : κ} {iIdIndex : ℤ} {bit : ℕ}
  {conflict : ℕ → ℕ → Bool}

/-- A table differs from another in one entry at most. -/
structure Touches (item : κ) (iIdIndex : ℤ) (table table' : Table κ) : Prop where
  wellFormed : WellFormed table → WellFormed table'
  frame : ∀ key user, ¬(key = item ∧ user = iIdIndex) → state table' key user = state table key user

/-- At most one user has the bit at each key. -/
def ExclusiveBit (bit : ℕ) (table : Table κ) : Prop :=
  ∀ key user user', (state table key user).testBit bit = true →
    (state table key user').testBit bit = true → user = user'

lemma exclusiveBit_empty : ExclusiveBit bit (∅ : Table κ) := fun _ _ _ h => by
  rw [state_empty, zero_testBit] at h
  cases h

lemma ExclusiveBit.mono (h : ExclusiveBit bit table)
    (hold : ∀ key user, (state table' key user).testBit bit = true → (state table key user).testBit bit = true) :
    ExclusiveBit bit table' :=
  fun key user user' hu hu' => h key user user' (hold key user hu) (hold key user' hu')

lemma Touches.entries (h : Touches item iIdIndex table table') {P : κ → ℤ → Prop}
    (hold : ∀ key user, state table key user ≠ 0 → P key user)
    (hnew : state table' item iIdIndex ≠ 0 → P item iIdIndex) (key : κ) (user : ℤ)
    (hne : state table' key user ≠ 0) : P key user := by
  by_cases heq : key = item ∧ user = iIdIndex
  · obtain ⟨rfl, rfl⟩ := heq
    exact hnew hne
  · rw [h.frame key user heq] at hne
    exact hold key user hne

lemma lock_touches (hzero : conflict 0 (2 ^ bit) = false) :
    Touches item iIdIndex table (lock conflict table item iIdIndex (2 ^ bit)).2 where
  wellFormed hwf := hwf.lock hzero
  frame key user hne := by
    cases hgranted : (lock conflict table item iIdIndex (2 ^ bit)).1 with
    | false => rw [lock_refused hzero hgranted]
    | true => rw [lock_state hzero hgranted, if_neg hne]

variable {iMsgType bit' : ℕ}

lemma unlock_touches : Touches item iIdIndex table (unlock table item iIdIndex iMsgType) where
  wellFormed hwf := hwf.unlock
  frame key user hne := by rw [unlock_state, if_neg hne]

lemma ExclusiveBit.lock (h : ExclusiveBit bit' table) (hzero : conflict 0 (2 ^ bit) = false)
    (hconflict : bit' = bit → ∀ st, conflict st (2 ^ bit) = st.testBit bit) :
    ExclusiveBit bit' (lock conflict table item iIdIndex (2 ^ bit)).2 := by
  cases hgranted : (Gds.lock conflict table item iIdIndex (2 ^ bit)).1 with
  | false =>
    rw [lock_refused hzero hgranted]
    exact h
  | true =>
    -- A bit that is new is the one that was locked, and then nobody else had it.
    have hnew (key : κ) (user : ℤ)
        (hbit : (state (Gds.lock conflict table item iIdIndex (2 ^ bit)).2 key user).testBit bit' = true) :
        (state table key user).testBit bit' = true ∨
          (key = item ∧ user = iIdIndex ∧
            ∀ other, other ≠ iIdIndex → (state table item other).testBit bit' = false) := by
      rw [lock_state hzero hgranted] at hbit
      split at hbit
      next heq =>
        obtain ⟨rfl, rfl⟩ := heq
        by_cases hb : bit' = bit
        · subst hb
          rcases (lock_granted_iff hzero).mp hgranted with hheld | hfree
          · exact .inl ((and_two_pow_ne_zero _ _).mp hheld)
          · refine .inr ⟨rfl, rfl, fun other hne => ?_⟩
            rw [← hconflict rfl]
            exact hfree other hne
        · rw [testBit_or, testBit_two_pow_of_ne (Ne.symm hb), Bool.or_false] at hbit
          exact .inl hbit
      next => exact .inl hbit
    intro key user user' hu hu'
    rcases hnew key user hu with hold | ⟨rfl, rfl, hfree⟩
    · rcases hnew key user' hu' with hold' | ⟨rfl, rfl, hfree'⟩
      · exact h key user user' hold hold'
      · by_contra hne
        rw [hfree' user hne] at hold
        cases hold
    · rcases hnew key user' hu' with hold' | ⟨-, rfl, -⟩
      · by_contra hne
        rw [hfree user' (Ne.symm hne)] at hold'
        cases hold'
      · rfl

lemma ExclusiveBit.unlock (h : ExclusiveBit bit' table) :
    ExclusiveBit bit' (unlock table item iIdIndex iMsgType) := by
  refine h.mono fun key user hbit => ?_
  rw [unlock_state] at hbit
  split at hbit
  next heq =>
    rw [testBit_ldiff, Bool.and_eq_true] at hbit
    rw [heq.1, heq.2]
    exact hbit.1
  next => exact hbit

lemma ExclusiveBit.release {κ : Type} [LinearOrder κ] {table : Table κ}
    (h : ExclusiveBit bit' table) (hwf : WellFormed table) : ExclusiveBit bit' (release table iIdIndex) := by
  refine h.mono fun key user hbit => ?_
  rw [(release_spec iIdIndex hwf).2] at hbit
  split at hbit
  next =>
    rw [zero_testBit] at hbit
    cases hbit
  next => exact hbit

end Touches

/-- What holds of the managers after every message. -/
structure State.Inv (s : State) : Prop where
  /-- The database manager knows users by numbers that were given to them. -/
  dbUsers : ∀ u i, s.db.mapUserID.lookup u = some i → s.owner i = some u
  fileUsers : ∀ u i, s.file.mapUserID.lookup u = some i → s.owner i = some u
  /-- The numbers that were given are those below the counter. -/
  owners : ∀ i u, s.owner i = some u → 0 < i ∧ i < s.iUserIndex
  fileIDs : ∀ f k, s.file.mapFileID.lookup f = some k → 0 < k ∧ k < s.iFilerIndex
  fileIDs_injective : ∀ f f' k, s.file.mapFileID.lookup f = some k → s.file.mapFileID.lookup f' = some k → f = f'
  userIndex_pos : 0 < s.iUserIndex
  userIndex_le : s.iUserIndex ≤ 2 ^ 31 - 1
  filerIndex_pos : 0 < s.iFilerIndex
  filerIndex_le : s.iFilerIndex ≤ 2 ^ 31 - 1
  rows : WellFormed s.db.mapUserStates
  tables : WellFormed s.db.mapTableStates
  files : WellFormed s.file.mapUserStates
  /-- A number with a lock on a row is one the database manager knows. -/
  rowEntries : ∀ key i, state s.db.mapUserStates key i ≠ 0 → ∃ u, s.db.mapUserID.lookup u = some i
  tableEntries : ∀ key i, state s.db.mapTableStates key i ≠ 0 → ∃ u, s.owner i = some u
  /-- A number with a lock on a file was given to a user, and the file has a number. -/
  fileEntries : ∀ key i, state s.file.mapUserStates key i ≠ 0 →
    (∃ u, s.owner i = some u) ∧ 0 < key ∧ key < s.iFilerIndex
  rows_exclusive : ∀ kind : RowKind, ExclusiveBit kind.type.bit s.db.mapUserStates
  tables_exclusive : ExclusiveBit MsgType.addDB.bit s.db.mapTableStates
  files_exclusive : ExclusiveBit MsgType.editFile.bit s.file.mapUserStates

lemma State.inv_initial : State.initial.Inv where
  dbUsers _ _ h := by cases h
  fileUsers _ _ h := by cases h
  owners _ _ h := by cases h
  fileIDs _ _ h := by cases h
  fileIDs_injective _ _ _ h := by cases h
  userIndex_pos := by decide
  userIndex_le := by decide
  filerIndex_pos := by decide
  filerIndex_le := by decide
  rows := wellFormed_empty
  tables := wellFormed_empty
  files := wellFormed_empty
  rowEntries _ _ h := absurd state_empty h
  tableEntries _ _ h := absurd state_empty h
  fileEntries _ _ h := absurd state_empty h
  rows_exclusive _ := exclusiveBit_empty
  tables_exclusive := exclusiveBit_empty
  files_exclusive := exclusiveBit_empty

section Steps

variable {s : State} {u : String}

/-! ### Numbers -/

variable {ids db file : IDs} {name v name' : String} {i n : ℤ}

/-- A counter below the greatest `int` grows. -/
lemma increment_spec (hpos : 0 < i) (hlt : i < 2 ^ 31 - 1) : i < increment i ∧ increment i ≤ 2 ^ 31 - 1 := by
  have hnext : increment i = i + 1 := Int.bmod_eq_of_le (by omega) (by omega)
  omega

lemma findIndex_of_lookup (h : ids.lookup name = some i) : findIndex ids name = i := by
  rw [findIndex, h, getD_some]

lemma lookup_of_findIndex (h : findIndex ids name ≠ 0) : ids.lookup name = some (findIndex ids name) := by
  unfold findIndex at h ⊢
  cases hl : ids.lookup name with
  | none =>
    rw [hl] at h
    exact absurd rfl h
  | some i => rfl

lemma lookup_of_findIndex_eq_zero (h : findIndex ids name = 0)
    (hpos : ∀ i, ids.lookup name = some i → 0 < i) : ids.lookup name = none := by
  cases hl : ids.lookup name with
  | none => rfl
  | some i =>
    have hi := hpos i hl
    rw [← findIndex_of_lookup hl, h] at hi
    exact absurd hi (lt_irrefl 0)

lemma State.Inv.owner_fresh (h : s.Inv) : s.owner s.iUserIndex = none := by
  cases ho : s.owner s.iUserIndex with
  | none => rfl
  | some u => exact absurd (h.owners _ u ho).2 (lt_irrefl _)

lemma owner_update (hfresh : s.owner s.iUserIndex = none) (ho : s.owner i = some v) :
    update s.owner s.iUserIndex (some u) i = some v := by
  rw [update_of_ne, ho]
  rintro rfl
  rw [hfresh] at ho
  cases ho

/-- What giving a number to a user leaves alone. -/
structure Numbers (s s' : State) : Prop where
  rows : s'.db.mapUserStates = s.db.mapUserStates
  tables : s'.db.mapTableStates = s.db.mapTableStates
  files : s'.file.mapUserStates = s.file.mapUserStates
  owners : ∀ i v, s.owner i = some v → s'.owner i = some v
  dbUsers : ∀ v i, s.db.mapUserID.lookup v = some i → s'.db.mapUserID.lookup v = some i
  fileUsers : ∀ v i, s.file.mapUserID.lookup v = some i → s'.file.mapUserID.lookup v = some i
  fileIDs : ∀ f k, s.file.mapFileID.lookup f = some k → s'.file.mapFileID.lookup f = some k

lemma Numbers.refl (s : State) : Numbers s s :=
  ⟨rfl, rfl, rfl, fun _ _ h => h, fun _ _ h => h, fun _ _ h => h, fun _ _ h => h⟩

lemma Numbers.trans {s s' s'' : State} (h : Numbers s s') (h' : Numbers s' s'') : Numbers s s'' where
  rows := h'.rows.trans h.rows
  tables := h'.tables.trans h.tables
  files := h'.files.trans h.files
  owners i v ho := h'.owners i v (h.owners i v ho)
  dbUsers v i ho := h'.dbUsers v i (h.dbUsers v i ho)
  fileUsers v i ho := h'.fileUsers v i (h.fileUsers v i ho)
  fileIDs f k ho := h'.fileIDs f k (h.fileIDs f k ho)

lemma lookup_insert_of_lookup
    (hnone : ids.lookup name = none) (h : ids.lookup name' = some i) :
    (ids.insert name n).lookup name' = some i := by
  rw [lookup_insert_of_ne _ ?_, h]
  rintro rfl
  rw [hnone] at h
  cases h

/-- The state after a new number has been given to a user that the maps know by it. -/
structure Gives (s : State) (u : String) (db file : IDs) (s' : State) : Prop where
  eq : s' = { s with
    db := { s.db with mapUserID := db }, file := { s.file with mapUserID := file }
    iUserIndex := increment s.iUserIndex, owner := update s.owner s.iUserIndex (some u) }
  dbKept : ∀ v i, s.db.mapUserID.lookup v = some i → db.lookup v = some i
  fileKept : ∀ v i, s.file.mapUserID.lookup v = some i → file.lookup v = some i

lemma Gives.numbers {s' : State} (hgive : Gives s u db file s') (hfresh : s.owner s.iUserIndex = none) :
    Numbers s s' := by
  obtain ⟨rfl, hkept, hkept'⟩ := hgive
  exact ⟨rfl, rfl, rfl, fun i v => owner_update hfresh, hkept, hkept', fun _ _ hf => hf⟩

/-- A number below the greatest `int` keeps the invariant. -/
lemma State.Inv.give (h : s.Inv) {s' : State} (hgive : Gives s u db file s') (hroom : s.iUserIndex < 2 ^ 31 - 1)
    (hdb : ∀ v i, db.lookup v = some i → s.owner i = some v ∨ (v = u ∧ i = s.iUserIndex))
    (hfile : ∀ v i, file.lookup v = some i → s.owner i = some v ∨ (v = u ∧ i = s.iUserIndex)) : s'.Inv := by
  obtain ⟨rfl, hkept, -⟩ := hgive
  obtain ⟨hlt, hle⟩ := increment_spec h.userIndex_pos hroom
  have howner : ∀ {v i}, s.owner i = some v ∨ (v = u ∧ i = s.iUserIndex) →
      update s.owner s.iUserIndex (some u) i = some v := by
    rintro v i (ho | ⟨rfl, rfl⟩)
    · exact owner_update h.owner_fresh ho
    · exact update_self _ _ _
  refine { h with
    dbUsers := fun v i hv => howner (hdb v i hv)
    fileUsers := fun v i hv => howner (hfile v i hv)
    owners := fun i v hv => ?_
    userIndex_pos := lt_trans h.userIndex_pos hlt
    userIndex_le := hle
    rowEntries := fun key i hne => ?_
    tableEntries := fun key i hne => ?_
    fileEntries := fun key i hne => ?_ }
  · by_cases hi : i = s.iUserIndex
    · rw [hi]
      exact ⟨h.userIndex_pos, hlt⟩
    · obtain ⟨hpos, hi'⟩ := h.owners i v ((update_of_ne hi _ _).symm.trans hv)
      exact ⟨hpos, lt_trans hi' hlt⟩
  · obtain ⟨v, hv⟩ := h.rowEntries key i hne
    exact ⟨v, hkept v i hv⟩
  · obtain ⟨v, hv⟩ := h.tableEntries key i hne
    exact ⟨v, owner_update h.owner_fresh hv⟩
  · obtain ⟨⟨v, hv⟩, hkey⟩ := h.fileEntries key i hne
    exact ⟨⟨v, owner_update h.owner_fresh hv⟩, hkey⟩

lemma lookup_insert_cases (hids : ∀ v i, ids.lookup v = some i → s.owner i = some v)
    (hv : (ids.insert u n).lookup v = some i) : s.owner i = some v ∨ (v = u ∧ i = n) := by
  by_cases hvu : v = u
  · rw [hvu, lookup_insert, some_inj] at hv
    exact .inr ⟨hvu, hv.symm⟩
  · rw [lookup_insert_of_ne _ hvu] at hv
    exact .inl (hids v i hv)

/-- After asking for the number of a user the database manager knows it by that number, which was its
number before or is new. -/
lemma State.Inv.getDBUserIndex (h : s.Inv) (u : String) :
    ∃ i s', s.getDBUserIndex u = (i, s') ∧
      ((s.db.mapUserID.lookup u = none → s.iUserIndex < 2 ^ 31 - 1) → s'.Inv) ∧ Numbers s s' ∧
      s'.db.mapUserID.lookup u = some i ∧ (s.db.mapUserID.lookup u = some i ∨ s.owner i = none) := by
  unfold State.getDBUserIndex
  split
  next hfound =>
    exact ⟨_, _, rfl, fun _ => h, Numbers.refl s, lookup_of_findIndex hfound, .inl (lookup_of_findIndex hfound)⟩
  next hfound =>
    have hnone : s.db.mapUserID.lookup u = none := lookup_of_findIndex_eq_zero (not_not.mp hfound)
      fun i hi => (h.owners i u (h.dbUsers u i hi)).1
    have hgive : Gives s u (s.db.mapUserID.insert u s.iUserIndex) s.file.mapUserID _ :=
      ⟨rfl, fun v i => lookup_insert_of_lookup hnone, fun _ _ hv => hv⟩
    refine ⟨_, _, rfl, fun hroom => ?_, hgive.numbers h.owner_fresh, lookup_insert _, .inr h.owner_fresh⟩
    exact h.give hgive (hroom hnone) (fun v i => lookup_insert_cases h.dbUsers)
      fun v i hv => .inl (h.fileUsers v i hv)

/-- After asking for the number of a user the file manager knows it by that number, which was its number
before or is new. -/
lemma State.getFileUserIndex_spec (hpos : ∀ i, s.file.mapUserID.lookup u = some i → 0 < i)
    (hfresh : s.owner s.iUserIndex = none) :
    ∃ i s', s.getFileUserIndex u = (i, s') ∧
      (s.Inv → (s.file.mapUserID.lookup u = none → s.iUserIndex < 2 ^ 31 - 1) → s'.Inv) ∧ Numbers s s' ∧
      s'.file.mapUserID.lookup u = some i ∧ (s.file.mapUserID.lookup u = some i ∨ s.owner i = none) := by
  unfold State.getFileUserIndex
  split
  next hfound =>
    exact ⟨_, _, rfl, fun h _ => h, Numbers.refl s, lookup_of_findIndex hfound, .inl (lookup_of_findIndex hfound)⟩
  next hfound =>
    have hnone : s.file.mapUserID.lookup u = none := lookup_of_findIndex_eq_zero (not_not.mp hfound) hpos
    have hgive : Gives s u s.db.mapUserID (s.file.mapUserID.insert u s.iUserIndex) _ :=
      ⟨rfl, fun _ _ hv => hv, fun v i => lookup_insert_of_lookup hnone⟩
    refine ⟨_, _, rfl, fun h hroom => ?_, hgive.numbers hfresh, lookup_insert _, .inr hfresh⟩
    exact h.give hgive (hroom hnone) (fun v i hv => .inl (h.dbUsers v i hv))
      fun v i => lookup_insert_cases h.fileUsers

/-- After asking for the number of a file the file manager knows it by that number. -/
lemma State.Inv.getFileIndex (h : s.Inv) (f : String) :
    ∃ k s', s.getFileIndex f = (k, s') ∧
      ((s.file.mapFileID.lookup f = none → s.iFilerIndex < 2 ^ 31 - 1) → s'.Inv) ∧ Numbers s s' ∧
      s'.file.mapFileID.lookup f = some k ∧ s'.file.mapUserID = s.file.mapUserID ∧
      s'.iUserIndex = s.iUserIndex ∧ s'.owner = s.owner := by
  unfold State.getFileIndex
  split
  next hfound => exact ⟨_, _, rfl, fun _ => h, Numbers.refl s, lookup_of_findIndex hfound, rfl, rfl, rfl⟩
  next hfound =>
    have hnone : s.file.mapFileID.lookup f = none := lookup_of_findIndex_eq_zero (not_not.mp hfound)
      fun k hk => (h.fileIDs f k hk).1
    refine ⟨_, _, rfl, fun hroom => ?_, ⟨rfl, rfl, rfl, fun _ _ ho => ho, fun _ _ hv => hv, fun _ _ hv => hv,
        fun f' k => lookup_insert_of_lookup hnone⟩, lookup_insert _, rfl, rfl, rfl⟩
    obtain ⟨hlt, hle⟩ := increment_spec h.filerIndex_pos (hroom hnone)
    -- The new number is above all that were given.
    have hold (f' : String) (k : ℤ) (hne : f' ≠ f)
        (hk : (s.file.mapFileID.insert f s.iFilerIndex).lookup f' = some k) :
        s.file.mapFileID.lookup f' = some k ∧ 0 < k ∧ k < s.iFilerIndex := by
      rw [lookup_insert_of_ne _ hne] at hk
      exact ⟨hk, h.fileIDs f' k hk⟩
    have hnew (f' : String) (k : ℤ) (hf : f' = f)
        (hk : (s.file.mapFileID.insert f s.iFilerIndex).lookup f' = some k) : k = s.iFilerIndex := by
      rw [hf, lookup_insert, some_inj] at hk
      exact hk.symm
    refine { h with
      fileIDs := fun f' k hk => ?_, fileIDs_injective := fun f1 f2 k hk1 hk2 => ?_
      filerIndex_pos := lt_trans h.filerIndex_pos hlt, filerIndex_le := hle
      fileEntries := fun key i hne => ?_ }
    · by_cases hf : f' = f
      · rw [hnew f' k hf hk]
        exact ⟨h.filerIndex_pos, hlt⟩
      · obtain ⟨-, hpos, hk⟩ := hold f' k hf hk
        exact ⟨hpos, lt_trans hk hlt⟩
    · by_cases hf1 : f1 = f
      · by_cases hf2 : f2 = f
        · rw [hf1, hf2]
        · have := hnew f1 k hf1 hk1
          have := (hold f2 k hf2 hk2).2.2
          omega
      · by_cases hf2 : f2 = f
        · have := hnew f2 k hf2 hk2
          have := (hold f1 k hf1 hk1).2.2
          omega
        · exact h.fileIDs_injective f1 f2 k (hold f1 k hf1 hk1).1 (hold f2 k hf2 hk2).1
    · obtain ⟨ho, hkey⟩ := h.fileEntries key i hne
      exact ⟨ho, hkey.1, lt_trans hkey.2 hlt⟩

lemma State.Inv.setRows (h : s.Inv) {item : ℤ ×ₗ ℤ} {states : Table (ℤ ×ₗ ℤ)}
    (htouch : Touches item i s.db.mapUserStates states) (hi : ∃ u, s.db.mapUserID.lookup u = some i)
    (hexclusive : ∀ kind : RowKind, ExclusiveBit kind.type.bit states) :
    State.Inv { s with db := { s.db with mapUserStates := states } } :=
  { h with
    rows := htouch.wellFormed h.rows
    rowEntries := htouch.entries h.rowEntries fun _ => hi
    rows_exclusive := hexclusive }

lemma State.Inv.setTables (h : s.Inv) {item : ℤ} {states : Table ℤ}
    (htouch : Touches item i s.db.mapTableStates states) (hi : ∃ u, s.owner i = some u)
    (hexclusive : ExclusiveBit MsgType.addDB.bit states) :
    State.Inv { s with db := { s.db with mapTableStates := states } } :=
  { h with
    tables := htouch.wellFormed h.tables
    tableEntries := htouch.entries h.tableEntries fun _ => hi
    tables_exclusive := hexclusive }

lemma State.Inv.setFiles (h : s.Inv) {item i : ℤ} {states : Table ℤ}
    (htouch : Touches item i s.file.mapUserStates states) (hi : ∃ u, s.owner i = some u)
    (hitem : state states item i ≠ 0 → 0 < item ∧ item < s.iFilerIndex)
    (hexclusive : ExclusiveBit MsgType.editFile.bit states) :
    State.Inv { s with file := { s.file with mapUserStates := states } } :=
  { h with
    files := htouch.wellFormed h.files
    fileEntries := htouch.entries h.fileEntries fun hne => ⟨hi, hitem hne⟩
    files_exclusive := hexclusive }

lemma State.Inv.closeProject (h : s.Inv) (u : String) : (s.closeProject u).Inv := by
  unfold State.closeProject
  dsimp only
  split
  next => exact h
  next hfound =>
    have hu : s.db.mapUserID.lookup u = some (findIndex s.db.mapUserID u) := lookup_of_findIndex (by omega)
    obtain ⟨hwf, hstate⟩ := release_spec (findIndex s.db.mapUserID u) h.rows
    refine { h with
      dbUsers := ?_, rows := hwf, rowEntries := ?_
      rows_exclusive := fun kind => (h.rows_exclusive kind).release h.rows }
    · intro v i hv
      have hvu : v ≠ u := by
        rintro rfl
        rw [lookup_erase] at hv
        cases hv
      rw [lookup_erase_ne hvu] at hv
      exact h.dbUsers v i hv
    · intro key i hne
      rw [hstate] at hne
      split at hne
      next => exact absurd rfl hne
      next hi =>
        -- The entry is of another user, whose number is not forgotten.
        obtain ⟨v, hv⟩ := h.rowEntries key i hne
        refine ⟨v, ?_⟩
        rw [lookup_erase_ne, hv]
        rintro rfl
        rw [hu, some_inj] at hv
        exact hi hv.symm

lemma State.Inv.closeAll (h : s.Inv) : s.closeAll.Inv :=
  { h with
    dbUsers := fun _ _ hv => by cases hv
    rows := wellFormed_empty
    rowEntries := fun _ _ hne => absurd state_empty hne
    rows_exclusive := State.inv_initial.rows_exclusive }

end Steps

end Gds
