import ZeroMQ.Gds.Locks

/-!
# The lock tables of the GDS project manager

The tables change only where a request says so (`lock_tables`). A user that closes is not always rid of
its locks: the handler looks for them in the table of the rows only (`close_releases`).
-/

namespace Gds

open Option List Bool Nat

/-! ### Atomicity and inversion -/

section Tables

variable {s s' : State} {l : Lock} {u v : String}

lemma State.Inv.sameTables_of_refused (h : s.Inv) {msg : Message} (hno : (s.process msg).1 = false) :
    SameTables s (s.process msg).2 := by
  obtain ⟨l, op, u, rfl⟩ | ⟨op, kind, u, rfl⟩ := msg.lock_or_close
  · by_cases hidle : l.Void ∨ op = .null
    · rw [State.process_idle hidle] at hno
      cases hno
    · push Not at hidle
      cases op with
      | null => exact absurd rfl hidle.2
      | lock =>
        obtain ⟨x, i, hspec⟩ := h.process_lock hidle.1 u
        exact hspec.unchanged (.inl hno)
      | unlock =>
        rw [State.process_eq] at hno
        cases l with
        | row kind iType iID =>
          simp only [Lock.message, if_neg (show ¬iID < 0 from hidle.1), processDispatch] at hno
          cases hno
        | table iTableType => cases hno
        | file kind f =>
          simp only [Lock.message, if_neg (show ¬kind = .option from hidle.1), processDispatch] at hno
          cases hno
  · rw [State.process_eq] at hno
    cases kind <;> cases hno

lemma State.Inv.stateAt_old (h : s.Inv) {r : Bool × State} {x : Item} {i : ℤ} (hspec : LockSpec s l u r x i) :
    s.stateAt (s.itemOf l) (s.indexOf l u) = s.stateAt x i := by
  have hindex (y : Item) : s.stateAt y (s.indexOf l u) = s.stateAt y i := by
    rcases hspec.index_old with hold | hnew
    · rw [State.indexOf, findIndex_of_lookup hold]
    -- A number that is new has no entries, and neither has the user under another.
    have hright : s.stateAt y i = 0 := by
      by_contra hne
      obtain ⟨v, hv⟩ := h.owner_of_state hne
      rw [hnew] at hv
      cases hv
    have hleft : s.stateAt y (s.indexOf l u) = 0 := by
      by_contra hne
      have hknown := lookup_of_findIndex (h.indexOf_ne_zero hne)
      have hsame := hspec.users l u _ hknown
      rw [hspec.index, some_inj] at hsame
      rw [hsame] at hright
      exact hne hright
    rw [hleft, hright]
  rw [hindex]
  rcases hspec.item_old with heq | ⟨hnew, hold⟩
  · rw [heq]
  · rw [hnew, hold]

lemma State.Inv.sameTables_of_has (h : s.Inv) (hhas : s.Has u l) :
    SameTables s (s.process (l.message .lock u)).2 := by
  by_cases hvoid : l.Void
  · rw [State.process_idle (.inl hvoid)]
    exact (Numbers.refl s).sameTables
  obtain ⟨x, i, hspec⟩ := h.process_lock hvoid u
  refine hspec.unchanged (.inr ?_)
  rw [← h.stateAt_old hspec]
  exact hhas

lemma ldiff_or_two_pow {st bit : ℕ} (h : st.testBit bit = false) : (st ||| 2 ^ bit).ldiff (2 ^ bit) = st := by
  refine eq_of_testBit_eq fun b => ?_
  rw [testBit_ldiff, testBit_or, testBit_two_pow]
  by_cases hb : bit = b
  · rw [← hb, h]
    simp
  · simp [hb]

/-- Giving back what was just granted restores the tables. -/
lemma State.Inv.sameTables_of_lock_unlock (h : s.Inv) (hroom : s.Room (l.message .lock u)) (hnot : ¬s.Has u l)
    (hgranted : (s.process (l.message .lock u)).1 = true) :
    SameTables s ((s.process (l.message .lock u)).2.process (l.message .unlock u)).2 := by
  by_cases hvoid : l.Void
  · rw [State.process_idle (.inl hvoid), State.process_idle (.inl hvoid)]
    exact (Numbers.refl s).sameTables
  obtain ⟨x, i, hlock⟩ := h.process_lock hvoid u
  obtain ⟨i', hunlock⟩ := (hlock.inv hroom).process_unlock hvoid u
  have hindex : i' = i := by
    have hsame := hunlock.users l u i hlock.index
    rw [hunlock.index, some_inj] at hsame
    exact hsame
  have hbit : (s.stateAt x i).testBit l.type.bit = false := by
    rw [← h.stateAt_old hlock]
    exact eq_false_of_not_eq_true hnot
  refine SameTables.of_stateAt h (hunlock.inv (State.room_unlock hlock.index)) fun y j => ?_
  rw [hunlock.removed, hlock.item, hindex]
  split
  next heq =>
    rw [hlock.added hgranted, if_pos ⟨rfl, rfl⟩, heq.1, heq.2]
    exact ldiff_or_two_pow hbit
  next hne => rw [hlock.added hgranted, if_neg hne]

/-- The number another user comes to is its own or a new one. -/
lemma State.Inv.index_ne (h : s.Inv) {i j : ℤ} (hold : (s.usersOf l).lookup u = some i ∨ s.owner i = none)
    (hne : v ≠ u) (hj : s.owner j = some v) : j ≠ i := by
  rintro rfl
  rcases hold with hu | hnew
  · rw [h.owner_of_lookup hu, some_inj] at hj
    exact hne hj.symm
  · rw [hnew] at hj
    cases hj

lemma State.Inv.stateAt_other (h : s.Inv) {msg : Message} (hmsg : msg.type ≠ .closeAllDB)
    (hne : v ≠ msg.strUUID) {j : ℤ} (hj : s.owner j = some v) (x : Item) :
    (s.process msg).2.stateAt x j = s.stateAt x j := by
  obtain ⟨l, op, u, rfl⟩ | ⟨op, kind, u, rfl⟩ := msg.lock_or_close
  · have hvu : v ≠ u := by
      cases l <;> exact hne
    by_cases hidle : l.Void ∨ op = .null
    · rw [State.process_idle hidle]
    push Not at hidle
    cases op with
    | null => exact absurd rfl hidle.2
    | lock =>
      obtain ⟨y, i, hspec⟩ := h.process_lock hidle.1 u
      have hji := h.index_ne hspec.index_old hvu hj
      cases hr : (s.process (l.message .lock u)).1 with
      | false => exact (hspec.unchanged (.inl hr)).stateAt x j
      | true => rw [hspec.added hr, if_neg fun heq => hji heq.2]
    | unlock =>
      obtain ⟨i, hspec⟩ := h.process_unlock hidle.1 u
      have hji := h.index_ne hspec.index_old hvu hj
      rw [hspec.removed, if_neg fun heq => hji heq.2]
  · cases kind with
    | all => exact absurd rfl hmsg
    | project =>
      rw [State.process_eq]
      refine (h.closeProject_stateAt u x j).trans ?_
      cases x with
      | table | file => rfl
      | row key =>
        dsimp only
        rw [if_neg]
        rw [hj]
        exact fun heq => hne (some_inj.mp heq)

/-- What the tables of a state and the requests processed in it satisfy, where a lock is given back if
its request is one of those `allowed`. -/
structure State.Orderly (s : State) (allowed : Message → Prop) : Prop where
  refused : ∀ msg, (s.process msg).1 = false → SameTables s (s.process msg).2
  again : ∀ l u, s.Has u l → SameTables s (s.process (l.message .lock u)).2
  /-- A granted lock that the user had not and then gives back leaves the tables as they were. -/
  inverse : ∀ l u, allowed (l.message .lock u) → ¬s.Has u l → (s.process (l.message .lock u)).1 = true →
    SameTables s ((s.process (l.message .lock u)).2.process (l.message .unlock u)).2
  /-- The entries of a user are not changed by the locks, unlocks and closing of another. -/
  others : ∀ msg v i, msg.type ≠ .closeAllDB → v ≠ msg.strUUID → s.owner i = some v →
    ∀ x, (s.process msg).2.stateAt x i = s.stateAt x i
  /-- The locks on rows have no empty map of users and no state zero. -/
  rows : WellFormed s.db.mapUserStates
  tables : WellFormed s.db.mapTableStates
  files : WellFormed s.file.mapUserStates

/-- **Atomicity and inversion.** So it is after any messages for which the counters had room, for the
requests for which they still have. -/
theorem lock_tables (msgs : List Message) (hroom : Project.initial.RoomFrom msgs) :
    (Project.run msgs).state.Orderly (Project.run msgs).state.Room := by
  have h := Project.run_inv msgs hroom
  exact
    { refused := fun _ hno => h.sameTables_of_refused hno
      again := fun _ _ hhas => h.sameTables_of_has hhas
      inverse := fun _ _ hmsg hnot hgranted => h.sameTables_of_lock_unlock hmsg hnot hgranted
      others := fun _ _ _ hmsg hne hi x => h.stateAt_other hmsg hne hi x
      rows := h.rows
      tables := h.tables
      files := h.files }

/-- The other user is refused the row and changes nothing, and gets a lock and gives it back without a trace. -/
theorem lock_tables_two_users :
    let s := (Project.run [.editDB .lock .edit 1 7 "A", .addDB .lock 3 "B"]).state
    SameTables s (s.process (.editDB .lock .edit 1 7 "B")).2 ∧
      SameTables s ((s.process (.editDB .lock .delete 1 7 "B")).2.process (.editDB .unlock .delete 1 7 "B")).2 := by
  have h := lock_tables [.editDB .lock .edit 1 7 "A", .addDB .lock 3 "B"] (by decide +kernel)
  refine ⟨h.refused _ (by decide +kernel), ?_⟩
  exact h.inverse (.row .delete 1 7) "B" (by decide +kernel) (by unfold State.Has; decide +kernel) (by decide +kernel)

/-- The manager when the number that comes next is zero. -/
def State.zeroNext (owner : ℤ → Option String) : State :=
  { State.initial with iUserIndex := 0, owner := owner }

lemma State.zeroNext_lock (owner : ℤ → Option String) :
    (((State.zeroNext owner).process (.editDB .lock .edit 1 7 "A")).2.process
      (.editDB .unlock .edit 1 7 "A")).2.db.mapUserStates =
      Finmap.insert (toLex (1, 7)) (Finmap.insert 0 MsgType.editDB.value ∅) ∅ := by
  rfl

/-- The number that comes next is zero, which is taken for none: a user that gives its lock back is given
another number, and the lock stays. -/
theorem lock_tables_run_over : ¬∀ msgs, (Project.run msgs).state.Orderly fun _ => True := by
  intro hall
  obtain ⟨owner, hrounds⟩ := Project.run_rounds (2 ^ 32 - 1) (p := Project.initial) rfl rfl rfl
  have hcounter : increment^[2 ^ 32 - 1] (1 : ℤ) = 0 := iterate_increment (2 ^ 32 - 1) 1
  have hrun : (Project.run (rounds (2 ^ 32 - 1))).state = State.zeroNext owner := by
    rw [Project.run, hrounds, show Project.initial.state.iUserIndex = 1 from rfl, hcounter]
    rfl
  have hinverse := (hall (rounds (2 ^ 32 - 1))).inverse (.row .edit 1 7) "A" trivial
  rw [hrun] at hinverse
  have hnot : ¬(State.zeroNext owner).Has "A" (.row .edit 1 7) := by
    intro hhas
    change ((State.zeroNext owner).stateAt (.row (toLex (1, 7))) 0).testBit _ = true at hhas
    rw [show (State.zeroNext owner).stateAt (.row (toLex (1, 7))) 0 = 0 from state_empty, zero_testBit] at hhas
    cases hhas
  have hrows := (State.zeroNext_lock owner).symm.trans (hinverse hnot rfl).rows
  have hstate := congrArg (state · (toLex (1, 7)) 0) hrows
  rw [state_insert, if_pos rfl] at hstate
  cases hstate
end Tables

section Close

variable {s : State}

lemma State.Inv.lock_granted_iff (h : s.Inv) {l : Lock} (hl : ¬l.Void) (u : String) :
    (s.process (l.message .lock u)).1 = true ↔
      s.Has u l ∨ ∀ j, j ≠ s.indexOf l u → l.conflict (s.stateAt (s.itemOf l) j) = false := by
  obtain ⟨x, i, hspec⟩ := h.process_lock hl u
  rw [hspec.granted, State.Has, h.stateAt_old hspec]
  refine or_congr_right ?_
  have hitem (j : ℤ) : s.stateAt (s.itemOf l) j = s.stateAt x j := by
    rcases hspec.item_old with heq | ⟨hnew, hold⟩
    · rw [heq]
    · rw [hnew, hold]
  simp only [hitem]
  rcases hspec.index_old with hold | hnew
  · rw [State.indexOf, findIndex_of_lookup hold]
  -- Neither the new number nor that of a user that is not known has an entry.
  have hi : l.conflict (s.stateAt x i) = false := by
    have hzero : s.stateAt x i = 0 := by
      by_contra hne
      obtain ⟨v, hv⟩ := h.owner_of_state hne
      rw [hnew] at hv
      cases hv
    rw [hzero, l.conflict_zero]
  have hu : l.conflict (s.stateAt x (s.indexOf l u)) = false := by
    rw [← hitem, h.stateAt_old hspec]
    exact hi
  constructor
  · intro hfree j _
    by_cases hj : j = i
    · rw [hj, hi]
    · exact hfree j hj
  · intro hfree j _
    by_cases hj : j = s.indexOf l u
    · rw [hj, hu]
    · exact hfree j hj

/-! ### Granted locks -/

/-- The message gives the lock of a user back: the user gives it back or closes, or everybody closes. -/
def Message.Releases (msg : Message) (u : String) (l : Lock) : Prop :=
  msg = l.message .unlock u ∨ ∃ op, msg = .uuid op .project u ∨ ∃ v, msg = .uuid op .all v

lemma mem_heldAfter {held : Finset (String × Lock)} {msg : Message} {granted : Bool} {u : String} {l : Lock}
    (hmem : (u, l) ∈ held) (hmsg : ¬msg.Releases u l) : (u, l) ∈ heldAfter held msg granted := by
  obtain ⟨l', op, v, rfl⟩ | ⟨op, kind, v, rfl⟩ := msg.lock_or_close
  · rw [heldAfter_message]
    cases op with
    | null => exact hmem
    | lock =>
      dsimp only
      split
      · exact Finset.mem_insert_of_mem hmem
      · exact hmem
    | unlock =>
      refine Finset.mem_erase.mpr ⟨fun heq => hmsg (.inl ?_), hmem⟩
      obtain ⟨rfl, rfl⟩ := Prod.mk.inj heq
      rfl
  · cases kind with
    | project =>
      refine Finset.mem_filter.mpr ⟨hmem, fun heq => hmsg (.inr ⟨op, .inl ?_⟩)⟩
      rw [show v = u from heq.symm]
    | all => exact absurd (.inr ⟨op, .inr ⟨v, rfl⟩⟩) hmsg

lemma Project.mem_held_run {u : String} {l : Lock} {msgs : List Message} {p : Project}
    (hmem : (u, l) ∈ p.held) (hmsgs : ∀ msg ∈ msgs, ¬msg.Releases u l) :
    (u, l) ∈ (msgs.foldl Project.step p).held := by
  induction msgs generalizing p with
  | nil => exact hmem
  | cons msg msgs ih =>
    refine ih (mem_heldAfter hmem (hmsgs msg mem_cons_self)) fun msg' hmem' => ?_
    exact hmsgs msg' (mem_cons_of_mem _ hmem')

lemma Lock.conflict_of_exclusive {l : Lock} (hl : l.Exclusive) (st : ℕ) :
    l.conflict st = st.testBit l.type.bit := by
  cases l with
  | row kind iType iID => exact editDBConflict_value kind st
  | table iTableType => exact addDBConflict_value st
  | file kind f =>
    rw [Lock.conflict, editFileConflict_value, show kind = .edit from hl, decide_eq_true rfl, Bool.true_and]
    rfl

lemma State.Inv.refused_of_has (h : s.Inv) {l : Lock} (hl : l.Kept) {u v : String} (hhas : s.Has u l)
    (hne : v ≠ u) : (s.process (l.message .lock v)).1 = false := by
  rw [eq_false_iff, ne_eq, h.lock_granted_iff hl.2]
  rintro (hv | hfree)
  · exact hne (h.has_exclusive hl.1 hv hhas)
  have hindex : s.indexOf l u ≠ s.indexOf l v := by
    intro heq
    have hu := h.owner_of_has hhas
    have hv := h.owner_indexOf (l := l) (u := v) (by rw [← heq]; exact (h.owners _ _ hu).1.ne')
    rw [← heq, hu, some_inj] at hv
    exact hne hv.symm
  have hbit := hfree _ hindex
  rw [l.conflict_of_exclusive hl.1, show _ = true from hhas] at hbit
  cases hbit

/-- **Granted locks are recorded.** After any messages for which the counters had room, once a lock on a row that is in the database, on a
table or to edit a file has been granted to a user, every other user is refused it until the user gives it
back or closes, whatever is processed in between. -/
theorem granted_until_released (msgs later : List Message) (l : Lock) (u v : String)
    (hroom : Project.initial.RoomFrom (msgs ++ l.message .lock u :: later)) (hl : l.Kept)
    (hgranted : ((Project.run msgs).state.process (l.message .lock u)).1 = true)
    (hlater : ∀ msg ∈ later, ¬msg.Releases u l) (hne : v ≠ u) :
    ((Project.run (msgs ++ l.message .lock u :: later)).state.process (l.message .lock v)).1 = false := by
  have hmem : (u, l) ∈ (Project.run (msgs ++ l.message .lock u :: later)).held := by
    rw [Project.run, foldl_append, foldl_cons]
    refine Project.mem_held_run ?_ hlater
    change (u, l) ∈ heldAfter (Project.run msgs).held _ ((Project.run msgs).state.process _).1
    rw [heldAfter_message, hgranted]
    exact Finset.mem_insert_self _ _
  obtain ⟨hinv, hagrees⟩ := Project.run_agrees (msgs ++ l.message .lock u :: later) hroom
  exact hinv.refused_of_has hl (hagrees u l hmem hl) hne

/-- The second user asks for the file of the first while a third works on a table. -/
theorem granted_until_released_file :
    ((Project.run [.fileBase .lock .edit "a" "A", .addDB .lock 1 "C"]).state.process
      (.fileBase .lock .edit "a" "B")).1 = false :=
  granted_until_released [] [.addDB .lock 1 "C"] (.file .edit "a") "A" "B" (by decide +kernel) ⟨rfl, fun h => (by cases h)⟩
    (by decide +kernel) (by
      intro msg hmsg
      rw [mem_singleton.mp hmsg]
      rintro (h | ⟨op, h | ⟨v, h⟩⟩) <;> cases h) (by decide)

/-- A row that is not yet in the database is granted to everybody, and so is the option file. -/
theorem granted_to_everybody :
    (State.initial.process (.editDB .lock .edit 1 (-1) "A")).1 = true ∧
    ((Project.run [.editDB .lock .edit 1 (-1) "A"]).state.process (.editDB .lock .edit 1 (-1) "B")).1 = true ∧
    (State.initial.process (.fileBase .lock .option "{D7467E00-1F97-45A8-B478-E5E6AFDC67D0}" "A")).1 = true ∧
    ((Project.run [.fileBase .lock .option "{D7467E00-1F97-45A8-B478-E5E6AFDC67D0}" "A"]).state.process
      (.fileBase .lock .option "{D7467E00-1F97-45A8-B478-E5E6AFDC67D0}" "B")).1 = true := by
  decide +kernel

/-- A user is rid of its locks by what turned `s` into `s'`, the others are as they were, and a request
that was refused only because of the user is granted. -/
structure ReleasesUser (u : String) (s s' : State) : Prop where
  /-- No entry is left under any number the user was ever given. -/
  released : ∀ i, s.owner i = some u → ∀ x, s'.stateAt x i = 0
  others : ∀ v i, v ≠ u → s.owner i = some v → ∀ x, s'.stateAt x i = s.stateAt x i
  granted : ∀ l v, (s.process (l.message .lock v)).1 = false →
    (∀ i, i ≠ s.indexOf l v → l.conflict (s.stateAt (s.itemOf l) i) = true → s.owner i = some u) →
    (s'.process (l.message .lock v)).1 = true

/-- Nobody has a lock any more, and every request is granted. -/
structure ReleasesAll (s' : State) : Prop where
  released : ∀ i x, s'.stateAt x i = 0
  granted : ∀ (l : Lock) v, (s'.process (l.message .lock v)).1 = true

lemma State.Inv.closeProject_releases_iff (h : s.Inv) (u : String) :
    ReleasesUser u s (s.closeProject u) ↔
      ∀ i, s.owner i = some u →
        (∀ iTableType, s.stateAt (.table iTableType) i = 0) ∧ ∀ k, s.stateAt (.file k) i = 0 := by
  constructor
  · intro hrel i hi
    refine ⟨fun iTableType => ?_, fun k => ?_⟩
    · have hzero := hrel.released i hi (.table iTableType)
      rwa [h.closeProject_stateAt] at hzero
    · have hzero := hrel.released i hi (.file k)
      rwa [h.closeProject_stateAt] at hzero
  · intro hrows
    have hreleased (i : ℤ) (hi : s.owner i = some u) (x : Item) : (s.closeProject u).stateAt x i = 0 := by
      rw [h.closeProject_stateAt]
      cases x with
      | row key => exact if_pos hi
      | table iTableType => exact (hrows i hi).1 iTableType
      | file k => exact (hrows i hi).2 k
    have hothers (i : ℤ) (hi : s.owner i ≠ some u) (x : Item) :
        (s.closeProject u).stateAt x i = s.stateAt x i := by
      rw [h.closeProject_stateAt]
      cases x with
      | row key => exact if_neg hi
      | table | file => rfl
    refine ⟨hreleased, fun v i hne hi x => hothers i ?_ x, fun l v hno honly => ?_⟩
    · rw [hi]
      exact fun heq => hne (some_inj.mp heq)
    have hvoid : ¬l.Void := by
      intro hvoid
      rw [State.process_idle (.inl hvoid)] at hno
      cases hno
    rw [(h.closeProject u).lock_granted_iff hvoid]
    have hitem : (s.closeProject u).itemOf l = s.itemOf l := by
      cases l with
      | row | table => rfl
      | file kind f => rw [State.itemOf, State.itemOf, State.closeProject_fileIDs]
    refine .inr fun j hj => ?_
    rw [hitem]
    by_contra hconflict
    rw [not_eq_false] at hconflict
    have hne : (s.closeProject u).stateAt (s.itemOf l) j ≠ 0 := by
      intro hzero
      rw [hzero, l.conflict_zero] at hconflict
      cases hconflict
    have hju : s.owner j ≠ some u := fun hi => hne (hreleased j hi _)
    rw [hothers j hju] at hconflict
    -- What is left in the way was in the way before, so it is under the number of the one who asks.
    by_cases hjv : j = s.indexOf l v
    · have hjne : s.indexOf l v ≠ 0 := by
        refine h.indexOf_ne_zero (x := s.itemOf l) ?_
        rw [← hjv, ← hothers j hju]
        exact hne
      have hvu : v ≠ u := by
        rintro rfl
        rw [hjv] at hju
        exact hju (h.owner_indexOf hjne)
      have hsame := State.closeProject_users hvu l _ (lookup_of_findIndex hjne)
      refine hj (hjv.trans ?_)
      exact (findIndex_of_lookup hsame).symm
    · exact hju (honly j hjv hconflict)

lemma State.Inv.closeAll_releases_iff (h : s.Inv) :
    ReleasesAll s.closeAll ↔
      ∀ i, (∀ iTableType, s.stateAt (.table iTableType) i = 0) ∧ ∀ k, s.stateAt (.file k) i = 0 := by
  constructor
  · exact fun hrel i => ⟨fun iTableType => hrel.released i (.table iTableType), fun k => hrel.released i (.file k)⟩
  intro hrows
  have hreleased (i : ℤ) (x : Item) : s.closeAll.stateAt x i = 0 := by
    cases x with
    | row key => exact state_empty
    | table iTableType => exact (hrows i).1 iTableType
    | file k => exact (hrows i).2 k
  refine ⟨hreleased, fun l v => ?_⟩
  by_cases hvoid : l.Void
  · rw [State.process_idle (.inl hvoid)]
  · rw [h.closeAll.lock_granted_iff hvoid]
    refine .inr fun j _ => ?_
    rw [hreleased, l.conflict_zero]

end Close

/-- **Release on close.** After any messages for which the counters had room, a message with which a user closes its project rids the
user of its locks, leaves those of the others and lets through what only this user stood in the way of
exactly if the user has no lock on a table or a file; and a message with which everybody closes leaves no
lock exactly if nobody has a lock on a table or a file. -/
theorem close_releases (msgs : List Message) (hroom : Project.initial.RoomFrom msgs) (op : OperatorType) (u : String) :
    (ReleasesUser u (Project.run msgs).state ((Project.run msgs).state.process (.uuid op .project u)).2 ↔
      ∀ i, (Project.run msgs).state.owner i = some u →
        (∀ iTableType, (Project.run msgs).state.stateAt (.table iTableType) i = 0) ∧
          ∀ k, (Project.run msgs).state.stateAt (.file k) i = 0) ∧
    (ReleasesAll ((Project.run msgs).state.process (.uuid op .all u)).2 ↔
      ∀ i, (∀ iTableType, (Project.run msgs).state.stateAt (.table iTableType) i = 0) ∧
        ∀ k, (Project.run msgs).state.stateAt (.file k) i = 0) := by
  have h := Project.run_inv msgs hroom
  rw [State.process_eq, State.process_eq]
  exact ⟨h.closeProject_releases_iff u, h.closeAll_releases_iff⟩

/-- A user with locks on two rows closes, and another that was refused one of them gets it. -/
theorem close_releases_two_users :
    let s := (Project.run [.editDB .lock .edit 1 7 "A", .editDB .lock .edit 1 8 "B", .editDB .lock .delete 1 9 "A"]).state
    ReleasesUser "A" s (s.process (.uuid .null .project "A")).2 := by
  refine (close_releases _ (by decide +kernel) .null "A").1.mpr fun i _ => ⟨fun iTableType => ?_, fun k => ?_⟩
  · exact state_empty
  · exact state_empty

/-- A user that may add to a table closes, and so does everybody: the lock stays under a number that
nobody has any more, and another user is refused as before. -/
theorem close_keeps_table_lock :
    (¬∀ (msgs : List Message) (u : String), ReleasesUser u (Project.run msgs).state
      ((Project.run msgs).state.process (.uuid .null .project u)).2) ∧
    (¬∀ (msgs : List Message) (u : String),
      ReleasesAll ((Project.run msgs).state.process (.uuid .null .all u)).2) ∧
    ((Project.run [.addDB .lock 3 "A", .uuid .null .project "A", .uuid .null .all "A"]).state.process
      (.addDB .lock 3 "B")).1 = false := by
  refine ⟨fun hall => ?_, fun hall => ?_, by decide +kernel⟩
  · have hzero := (hall [.addDB .lock 3 "A"] "A").released 1 (by decide +kernel) (.table 3)
    exact absurd hzero (by decide +kernel)
  · have hzero := (hall [.addDB .lock 3 "A"] "A").released 1 (.table 3)
    exact absurd hzero (by decide +kernel)

end Gds
