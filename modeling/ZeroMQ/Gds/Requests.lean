import ZeroMQ.Gds.Invariant

/-!
# Requests to the GDS project manager

The three processors that keep locks answer a request in the same way, each with its own table. `Item`
puts the keys of the three tables together, so that what a request does can be said once: `process_lock`
and `process_unlock` describe the reply and every state after it.
-/

namespace Gds

/-! ### Items -/

/-- A key of one of the three tables. -/
inductive Item
  | row (key : ℤ ×ₗ ℤ)
  | table (iTableType : ℤ)
  | file (iFileIdIndex : ℤ)
  deriving DecidableEq

/-- The state under a number in the table an item belongs to. -/
def State.stateAt (s : State) : Item → ℤ → ℕ
  | .row key => state s.db.mapUserStates key
  | .table iTableType => state s.db.mapTableStates iTableType
  | .file iFileIdIndex => state s.file.mapUserStates iFileIdIndex

/-- The item a lock is on. -/
def State.itemOf (s : State) : Lock → Item
  | .row _ iType iID => .row (toLex (iType, iID))
  | .table iTableType => .table iTableType
  | .file _ strFile => .file (findIndex s.file.mapFileID strFile)

/-- The map of users of the manager that is asked for a lock. -/
def State.usersOf (s : State) : Lock → IDs
  | .row _ _ _ => s.db.mapUserID
  | .table _ => s.db.mapUserID
  | .file _ _ => s.file.mapUserID

/-- The number under which a user has its locks, zero for a user that is not known. -/
def State.indexOf (s : State) (l : Lock) (u : String) : ℤ := findIndex (s.usersOf l) u

/-- The type of the message that asks for a lock. -/
def Lock.type : Lock → MsgType
  | .row kind _ _ => kind.type
  | .table _ => .addDB
  | .file kind _ => kind.type

/-- Whether a state is in the way of a lock. -/
def Lock.conflict : Lock → ℕ → Bool
  | .row kind _ _, st => editDBConflict st kind.type.value
  | .table _, st => addDBConflict st MsgType.addDB.value
  | .file kind _, st => editFileConflict st kind.type.value

/-- The manager answers with success and does nothing: a row that is not yet in the database, and the
option file. -/
def Lock.Void : Lock → Prop
  | .row _ _ iID => iID < 0
  | .table _ => False
  | .file kind _ => kind = .option

instance (l : Lock) : Decidable l.Void :=
  match l with
  | .row _ _ iID => inferInstanceAs (Decidable (iID < 0))
  | .table _ => inferInstanceAs (Decidable False)
  | .file kind _ => inferInstanceAs (Decidable (kind = .option))

/-- The user has the lock: its bit is in the state of the user. -/
def State.Has (s : State) (u : String) (l : Lock) : Prop :=
  (s.stateAt (s.itemOf l) (s.indexOf l u)).testBit l.type.bit = true

/-- The three tables of a state are those of another. -/
structure SameTables (s s' : State) : Prop where
  rows : s'.db.mapUserStates = s.db.mapUserStates
  tables : s'.db.mapTableStates = s.db.mapTableStates
  files : s'.file.mapUserStates = s.file.mapUserStates

lemma Numbers.sameTables {s s' : State} (h : Numbers s s') : SameTables s s' := { h with }

lemma SameTables.stateAt {s s' : State} (h : SameTables s s') (x : Item) (i : ℤ) :
    s'.stateAt x i = s.stateAt x i := by
  cases x with
  | row key => rw [State.stateAt, State.stateAt, h.rows]
  | table iTableType => rw [State.stateAt, State.stateAt, h.tables]
  | file iFileIdIndex => rw [State.stateAt, State.stateAt, h.files]

lemma SameTables.of_stateAt {s s' : State} (h : s.Inv) (h' : s'.Inv)
    (hstate : ∀ x i, s'.stateAt x i = s.stateAt x i) : SameTables s s' where
  rows := h'.rows.ext h.rows fun key => hstate (.row key)
  tables := h'.tables.ext h.tables fun key => hstate (.table key)
  files := h'.files.ext h.files fun key => hstate (.file key)

section Entries

variable {s : State}

lemma State.Inv.owner_of_state (h : s.Inv) {x : Item} {i : ℤ} (hne : s.stateAt x i ≠ 0) :
    ∃ u, s.owner i = some u := by
  cases x with
  | row key =>
    obtain ⟨u, hu⟩ := h.rowEntries key i hne
    exact ⟨u, h.dbUsers u i hu⟩
  | table iTableType => exact h.tableEntries iTableType i hne
  | file iFileIdIndex => exact (h.fileEntries iFileIdIndex i hne).1

lemma State.Inv.owner_of_lookup (h : s.Inv) {l : Lock} {u : String} {i : ℤ}
    (hu : (s.usersOf l).lookup u = some i) : s.owner i = some u := by
  cases l with
  | row kind iType iID | table iTableType => exact h.dbUsers u i hu
  | file kind strFile => exact h.fileUsers u i hu

lemma State.Inv.owner_indexOf (h : s.Inv) {l : Lock} {u : String} (hne : s.indexOf l u ≠ 0) :
    s.owner (s.indexOf l u) = some u :=
  h.owner_of_lookup (lookup_of_findIndex hne)

lemma State.Inv.indexOf_ne_zero (h : s.Inv) {x : Item} {l : Lock} {u : String}
    (hne : s.stateAt x (s.indexOf l u) ≠ 0) : s.indexOf l u ≠ 0 := by
  intro hzero
  obtain ⟨v, hv⟩ := h.owner_of_state hne
  rw [hzero] at hv
  exact absurd (h.owners 0 v hv).1 (lt_irrefl 0)

lemma Lock.conflict_zero (l : Lock) : l.conflict 0 = false := by
  cases l with
  | row kind iType iID => rw [Lock.conflict, editDBConflict_value, Nat.zero_testBit]
  | table iTableType => rw [Lock.conflict, addDBConflict_value, Nat.zero_testBit]
  | file kind strFile => rw [Lock.conflict, editFileConflict_value, Nat.zero_testBit, Bool.and_false]

lemma State.Inv.exclusive (h : s.Inv) {l : Lock} (hl : l.Exclusive) {i j : ℤ}
    (hi : (s.stateAt (s.itemOf l) i).testBit l.type.bit = true)
    (hj : (s.stateAt (s.itemOf l) j).testBit l.type.bit = true) : i = j := by
  cases l with
  | row kind iType iID => exact h.rows_exclusive kind _ i j hi hj
  | table iTableType => exact h.tables_exclusive _ i j hi hj
  | file kind strFile =>
    have hkind : kind = .edit := hl
    subst hkind
    exact h.files_exclusive _ i j hi hj

end Entries

/-! ### Places -/

/-- One of the three tables of a state. -/
structure Place (κ : Type) [DecidableEq κ] where
  /-- The item of a key. -/
  item : κ → Item
  /-- Read the table. -/
  get : State → Table κ
  /-- Replace the table. -/
  set : State → Table κ → State
  /-- Items of different keys are different. -/
  item_injective : Function.Injective item
  /-- The states at the items are those of the table. -/
  stateAt_item : ∀ s key i, s.stateAt (item key) i = state (get s) key i
  /-- The table that is read is the one that was put there. -/
  get_set : ∀ s table, get (set s table) = table
  /-- The states elsewhere do not change. -/
  stateAt_set : ∀ s table y i, (∀ key, y ≠ item key) → (set s table).stateAt y i = s.stateAt y i
  /-- Nothing changes when the table is put back. -/
  set_get : ∀ s, set s (get s) = s

/-- The locks on rows. -/
def rowPlace : Place (ℤ ×ₗ ℤ) where
  item := .row
  get s := s.db.mapUserStates
  set s table := { s with db := { s.db with mapUserStates := table } }
  item_injective _ _ h := Item.row.inj h
  stateAt_item _ _ _ := rfl
  get_set _ _ := rfl
  stateAt_set s table y i hy := by
    cases y with
    | row key => exact absurd rfl (hy key)
    | table | file => rfl
  set_get _ := rfl

/-- The locks on tables. -/
def tablePlace : Place ℤ where
  item := .table
  get s := s.db.mapTableStates
  set s table := { s with db := { s.db with mapTableStates := table } }
  item_injective _ _ h := Item.table.inj h
  stateAt_item _ _ _ := rfl
  get_set _ _ := rfl
  stateAt_set s table y i hy := by
    cases y with
    | table key => exact absurd rfl (hy key)
    | row | file => rfl
  set_get _ := rfl

/-- The locks on files. -/
def filePlace : Place ℤ where
  item := .file
  get s := s.file.mapUserStates
  set s table := { s with file := { s.file with mapUserStates := table } }
  item_injective _ _ h := Item.file.inj h
  stateAt_item _ _ _ := rfl
  get_set _ _ := rfl
  stateAt_set s table y i hy := by
    cases y with
    | file key => exact absurd rfl (hy key)
    | row | table => rfl
  set_get _ := rfl

section Place

variable {κ : Type} [DecidableEq κ] (P : Place κ) {s s1 : State} {key : κ} {i : ℤ} {bit : ℕ}
  {conflict : ℕ → ℕ → Bool}

lemma Place.stateAt_entry {table : Table κ} {st : ℕ}
    (h : ∀ key' j, state table key' j = if key' = key ∧ j = i then st else state (P.get s) key' j)
    (y : Item) (j : ℤ) :
    (P.set s table).stateAt y j = if y = P.item key ∧ j = i then st else s.stateAt y j := by
  by_cases hy : ∃ key', y = P.item key'
  · obtain ⟨key', rfl⟩ := hy
    rw [P.stateAt_item, P.get_set, h, P.stateAt_item]
    simp only [P.item_injective.eq_iff]
  · push Not at hy
    rw [if_neg fun hand => hy key hand.1]
    exact P.stateAt_set s table y j hy

lemma Place.lock_granted (hsame : SameTables s s1) (hzero : conflict 0 (2 ^ bit) = false) :
    (lock conflict (P.get s1) key i (2 ^ bit)).1 = true ↔
      (s.stateAt (P.item key) i).testBit bit = true ∨
        ∀ j, j ≠ i → conflict (s.stateAt (P.item key) j) (2 ^ bit) = false := by
  rw [lock_granted_iff hzero, and_two_pow_ne_zero]
  simp only [← hsame.stateAt, P.stateAt_item]

lemma Place.lock_unchanged (hsame : SameTables s s1) (hzero : conflict 0 (2 ^ bit) = false)
    (h : (lock conflict (P.get s1) key i (2 ^ bit)).1 = false ∨ (s.stateAt (P.item key) i).testBit bit = true) :
    SameTables s (P.set s1 (lock conflict (P.get s1) key i (2 ^ bit)).2) := by
  have hback : (lock conflict (P.get s1) key i (2 ^ bit)).2 = P.get s1 := by
    rcases h with hno | hheld
    · exact lock_refused hzero hno
    · rw [← hsame.stateAt, P.stateAt_item] at hheld
      rw [lock_of_held ((and_two_pow_ne_zero _ _).mpr hheld)]
  rw [hback, P.set_get]
  exact hsame

lemma Place.lock_added (hsame : SameTables s s1) (hzero : conflict 0 (2 ^ bit) = false)
    (hyes : (lock conflict (P.get s1) key i (2 ^ bit)).1 = true) (y : Item) (j : ℤ) :
    (P.set s1 (lock conflict (P.get s1) key i (2 ^ bit)).2).stateAt y j =
      if y = P.item key ∧ j = i then s.stateAt (P.item key) i ||| 2 ^ bit else s.stateAt y j := by
  rw [P.stateAt_entry fun key' j => lock_state hzero hyes, ← P.stateAt_item]
  simp only [hsame.stateAt]

lemma Place.unlock_removed (hsame : SameTables s s1) (y : Item) (j : ℤ) :
    (P.set s1 (unlock (P.get s1) key i (2 ^ bit))).stateAt y j =
      if y = P.item key ∧ j = i then (s.stateAt (P.item key) i).ldiff (2 ^ bit) else s.stateAt y j := by
  rw [P.stateAt_entry fun key' j => unlock_state, ← P.stateAt_item]
  simp only [hsame.stateAt]

end Place

/-! ### Requests -/

/-- What becomes of the numbers when a request is processed. -/
structure Renumbers (s s' : State) : Prop where
  owners : ∀ j v, s.owner j = some v → s'.owner j = some v
  users : ∀ l v j, (s.usersOf l).lookup v = some j → (s'.usersOf l).lookup v = some j
  fileIDs : ∀ f k, s.file.mapFileID.lookup f = some k → s'.file.mapFileID.lookup f = some k

/-- What a request for a lock leads to: the user has a number `i` and the item is `x`; the reply
depends on the states there, and a granted lock adds its bit. -/
structure LockSpec (s : State) (l : Lock) (u : String) (r : Bool × State) (x : Item) (i : ℤ) : Prop
    extends Renumbers s r.2 where
  inv : s.Room (l.message .lock u) → r.2.Inv
  /-- The user has the number afterwards. -/
  index : (r.2.usersOf l).lookup u = some i
  /-- It had the number before, or the number is new. -/
  index_old : (s.usersOf l).lookup u = some i ∨ s.owner i = none
  /-- The lock is on the item. -/
  item : r.2.itemOf l = x
  /-- The item was the same before, or it is new and nobody has a lock on it. -/
  item_old : s.itemOf l = x ∨ (∀ j, s.stateAt x j = 0) ∧ ∀ j, s.stateAt (s.itemOf l) j = 0
  /-- When the lock is granted. -/
  granted : r.1 = true ↔ (s.stateAt x i).testBit l.type.bit = true ∨ ∀ j, j ≠ i → l.conflict (s.stateAt x j) = false
  /-- A lock that the user has or does not get changes no table. -/
  unchanged : r.1 = false ∨ (s.stateAt x i).testBit l.type.bit = true → SameTables s r.2
  /-- A granted lock adds its bit and changes no other state. -/
  added : r.1 = true → ∀ y j, r.2.stateAt y j =
    if y = x ∧ j = i then s.stateAt x i ||| 2 ^ l.type.bit else s.stateAt y j

/-- What giving a lock back leads to: the bit is taken away. -/
structure UnlockSpec (s : State) (l : Lock) (u : String) (s' : State) (i : ℤ) : Prop
    extends Renumbers s s' where
  inv : s.Room (l.message .unlock u) → s'.Inv
  /-- The user has the number afterwards. -/
  index : (s'.usersOf l).lookup u = some i
  /-- It had the number before, or the number is new. -/
  index_old : (s.usersOf l).lookup u = some i ∨ s.owner i = none
  /-- The item is the one it was. -/
  item : s'.itemOf l = s.itemOf l
  /-- The bit is taken away and no other state changes. -/
  removed : ∀ y j, s'.stateAt y j =
    if y = s.itemOf l ∧ j = i then (s.stateAt (s.itemOf l) i).ldiff (2 ^ l.type.bit) else s.stateAt y j

section Requests

variable {s : State}

lemma Numbers.users {s s' : State} (h : Numbers s s') (l : Lock) (v : String) (j : ℤ)
    (hv : (s.usersOf l).lookup v = some j) : (s'.usersOf l).lookup v = some j := by
  cases l with
  | row | table => exact h.dbUsers v j hv
  | file => exact h.fileUsers v j hv

lemma State.Inv.lockRow (h : s.Inv) (kind : RowKind) (iType iID : ℤ) (u : String) :
    ∃ x i, LockSpec s (.row kind iType iID) u (s.lockRow kind iType iID u) x i := by
  obtain ⟨i, s1, hg, hinv, hnum, hidx, hold⟩ := h.getDBUserIndex u
  have hzero : editDBConflict 0 (2 ^ kind.type.bit) = false := (Lock.row kind iType iID).conflict_zero
  rw [State.lockRow, hg]
  refine ⟨.row (toLex (iType, iID)), i, ⟨⟨hnum.owners, hnum.users, hnum.fileIDs⟩, fun hroom => ?_, hidx, hold, rfl, .inl rfl,
    rowPlace.lock_granted hnum.sameTables hzero, rowPlace.lock_unchanged hnum.sameTables hzero,
    rowPlace.lock_added hnum.sameTables hzero⟩⟩
  have hinv := hinv hroom
  refine hinv.setRows (lock_touches hzero) ⟨u, hidx⟩ fun kind' => ?_
  exact (hinv.rows_exclusive kind').lock hzero fun _ st => editDBConflict_value kind st

lemma State.Inv.unlockRow (h : s.Inv) (kind : RowKind) (iType iID : ℤ) (u : String) :
    ∃ i, UnlockSpec s (.row kind iType iID) u (s.unlockRow kind iType iID u) i := by
  obtain ⟨i, s1, hg, hinv, hnum, hidx, hold⟩ := h.getDBUserIndex u
  rw [State.unlockRow, hg]
  refine ⟨i, ⟨⟨hnum.owners, hnum.users, hnum.fileIDs⟩, fun hroom => ?_, hidx, hold, rfl,
    rowPlace.unlock_removed hnum.sameTables⟩⟩
  have hinv := hinv hroom
  exact hinv.setRows unlock_touches ⟨u, hidx⟩ fun kind' => (hinv.rows_exclusive kind').unlock

lemma State.Inv.lockTable (h : s.Inv) (iTableType : ℤ) (u : String) :
    ∃ x i, LockSpec s (.table iTableType) u (s.lockTable iTableType u) x i := by
  obtain ⟨i, s1, hg, hinv, hnum, hidx, hold⟩ := h.getDBUserIndex u
  have hzero : addDBConflict 0 (2 ^ MsgType.addDB.bit) = false := (Lock.table iTableType).conflict_zero
  rw [State.lockTable, hg]
  refine ⟨.table iTableType, i, ⟨⟨hnum.owners, hnum.users, hnum.fileIDs⟩, fun hroom => ?_, hidx, hold, rfl, .inl rfl,
    tablePlace.lock_granted hnum.sameTables hzero, tablePlace.lock_unchanged hnum.sameTables hzero,
    tablePlace.lock_added hnum.sameTables hzero⟩⟩
  have hinv := hinv hroom
  refine hinv.setTables (lock_touches hzero) ⟨u, hinv.dbUsers u _ hidx⟩ ?_
  exact hinv.tables_exclusive.lock hzero fun _ st => addDBConflict_value st

lemma State.Inv.unlockTable (h : s.Inv) (iTableType : ℤ) (u : String) :
    ∃ i, UnlockSpec s (.table iTableType) u (s.unlockTable iTableType u) i := by
  obtain ⟨i, s1, hg, hinv, hnum, hidx, hold⟩ := h.getDBUserIndex u
  rw [State.unlockTable, hg]
  refine ⟨i, ⟨⟨hnum.owners, hnum.users, hnum.fileIDs⟩, fun hroom => ?_, hidx, hold, rfl,
    tablePlace.unlock_removed hnum.sameTables⟩⟩
  have hinv := hinv hroom
  exact hinv.setTables unlock_touches ⟨u, hinv.dbUsers u _ hidx⟩ hinv.tables_exclusive.unlock

lemma State.Inv.getFileIndex_item (h : s.Inv) (kind : FileKind) (f : String) :
    s.itemOf (.file kind f) = .file (s.getFileIndex f).1 ∨
      (∀ j, s.stateAt (.file (s.getFileIndex f).1) j = 0) ∧ ∀ j, s.stateAt (s.itemOf (.file kind f)) j = 0 := by
  unfold State.getFileIndex
  split
  next => exact .inl rfl
  next hfound =>
    refine .inr ⟨fun j => ?_, fun j => ?_⟩
    · by_contra hne
      exact absurd (h.fileEntries _ j hne).2.2 (lt_irrefl _)
    by_contra hne
    have hpos := (h.fileEntries _ j hne).2.1
    rw [not_not.mp hfound] at hpos
    exact absurd hpos (lt_irrefl 0)

lemma State.Inv.lockFile (h : s.Inv) (kind : FileKind) (f u : String) :
    ∃ x i, LockSpec s (.file kind f) u (s.lockFile kind f u) x i := by
  have hitem := h.getFileIndex_item kind f
  obtain ⟨k, s1, hk, hinv1, hnum1, hfile, husers, hnext, howner⟩ := h.getFileIndex f
  have hpos : ∀ i, s1.file.mapUserID.lookup u = some i → 0 < i := by
    rw [husers]
    exact fun i hi => (h.owners i u (h.fileUsers u i hi)).1
  obtain ⟨i, s2, hg, hinv, hnum2, hidx, hold⟩ :=
    State.getFileUserIndex_spec hpos (by rw [howner, hnext]; exact h.owner_fresh)
  have hnum := hnum1.trans hnum2
  have hfile' := hnum2.fileIDs f _ hfile
  have hold' : s.file.mapUserID.lookup u = some i ∨ s.owner i = none := by
    rwa [husers, howner] at hold
  have hzero : editFileConflict 0 (2 ^ kind.type.bit) = false := (Lock.file kind f).conflict_zero
  rw [hk] at hitem
  rw [State.lockFile, hk]
  dsimp only
  rw [hg]
  refine ⟨.file k, i, ⟨⟨hnum.owners, hnum.users, hnum.fileIDs⟩, fun hroom => ?_, hidx, hold',
    congrArg Item.file (findIndex_of_lookup hfile'), hitem, filePlace.lock_granted hnum.sameTables hzero,
    filePlace.lock_unchanged hnum.sameTables hzero, filePlace.lock_added hnum.sameTables hzero⟩⟩
  have hinv := hinv (hinv1 (hroom.2 rfl)) (by rw [husers, hnext]; exact hroom.1)
  refine hinv.setFiles (lock_touches hzero) ⟨u, hinv.fileUsers u _ hidx⟩ (fun _ => hinv.fileIDs f _ hfile') ?_
  refine hinv.files_exclusive.lock hzero fun hbit st => ?_
  have hkind : kind = .edit := by
    cases kind with
    | edit => rfl
    | read | option => cases hbit
  rw [← MsgType.value, editFileConflict_value, hkind]
  rfl

lemma State.Inv.unlockFile (h : s.Inv) (kind : FileKind) (f u : String) :
    ∃ i, UnlockSpec s (.file kind f) u (s.unlockFile kind f u) i := by
  have hids : (s.getFileUserIndex u).2.file.mapFileID = s.file.mapFileID := by
    unfold State.getFileUserIndex
    split <;> rfl
  obtain ⟨i, s1, hg, hinv, hnum, hidx, hold⟩ :=
    State.getFileUserIndex_spec (u := u) (fun i hi => (h.owners i u (h.fileUsers u i hi)).1) h.owner_fresh
  rw [hg] at hids
  rw [State.unlockFile, hg]
  refine ⟨i, ⟨⟨hnum.owners, hnum.users, hnum.fileIDs⟩, fun hroom => ?_, hidx, hold,
    congrArg (fun ids => Item.file (findIndex ids f)) hids, filePlace.unlock_removed hnum.sameTables⟩⟩
  have hinv := hinv h hroom.1
  refine hinv.setFiles unlock_touches ⟨u, hinv.fileUsers u _ hidx⟩ (fun hne => ?_) hinv.files_exclusive.unlock
  rw [unlock_state, if_pos ⟨rfl, rfl⟩] at hne
  refine (hinv.fileEntries _ i fun h0 => hne ?_).2
  rw [h0, zero_ldiff]

lemma State.Inv.process_lock (h : s.Inv) {l : Lock} (hl : ¬l.Void) (u : String) :
    ∃ x i, LockSpec s l u (s.process (l.message .lock u)) x i := by
  cases l with
  | row kind iType iID =>
    rw [State.process_eq]
    simp only [Lock.message, if_neg (show ¬iID < 0 from hl), processDispatch]
    exact h.lockRow kind iType iID u
  | table iTableType =>
    rw [State.process_eq]
    exact h.lockTable iTableType u
  | file kind f =>
    rw [State.process_eq]
    simp only [Lock.message, if_neg (show ¬kind = .option from hl), processDispatch]
    exact h.lockFile kind f u

lemma State.Inv.process_unlock (h : s.Inv) {l : Lock} (hl : ¬l.Void) (u : String) :
    ∃ i, UnlockSpec s l u (s.process (l.message .unlock u)).2 i := by
  cases l with
  | row kind iType iID =>
    rw [State.process_eq]
    simp only [Lock.message, if_neg (show ¬iID < 0 from hl), processDispatch]
    exact h.unlockRow kind iType iID u
  | table iTableType =>
    rw [State.process_eq]
    exact h.unlockTable iTableType u
  | file kind f =>
    rw [State.process_eq]
    simp only [Lock.message, if_neg (show ¬kind = .option from hl), processDispatch]
    exact h.unlockFile kind f u

/-- A user that has a number gives a lock back without a new one. -/
lemma State.room_unlock {l : Lock} {u : String} {i : ℤ} (hindex : (s.usersOf l).lookup u = some i) :
    s.Room (l.message .unlock u) := by
  have hknown : (s.usersOf l).lookup u ≠ none := by
    rw [hindex]
    exact Option.some_ne_none i
  cases l with
  | row | table => exact fun hnone => absurd hnone hknown
  | file => exact ⟨fun hnone => absurd hnone hknown, fun hop => (by cases hop)⟩

/-- The manager does nothing with a void request, nor with one that neither asks for a lock nor gives
one back. -/
lemma State.process_idle {l : Lock} {op : OperatorType} (h : l.Void ∨ op = .null) (u : String) :
    s.process (l.message op u) = (true, s) := by
  rw [State.process_eq]
  cases l with
  | row kind iType iID =>
    simp only [Lock.message]
    split
    next => rfl
    next hid =>
      rw [h.resolve_left hid]
      rfl
  | table iTableType =>
    rw [h.resolve_left fun hf => hf]
    rfl
  | file kind f =>
    simp only [Lock.message]
    split
    next => rfl
    next hkind =>
      rw [h.resolve_left hkind]
      rfl

end Requests

end Gds
