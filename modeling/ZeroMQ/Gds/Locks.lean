import ZeroMQ.Gds.Requests

/-!
# Locks of the GDS project manager

A user that holds an exclusive lock has the bit of the lock in its state, under the number the manager
knows it by. Requests and closing keep it so, and as at most one number has the bit, no two users hold the
lock (`mutual_exclusion`).
-/

namespace Gds

open Finset Nat Option

section Step

variable {s s' : State} {l l' : Lock} {u v : String}

lemma Message.lock_or_close (msg : Message) :
    (∃ l op u, msg = Lock.message l op u) ∨ ∃ op kind u, msg = .uuid op kind u := by
  cases msg with
  | editDB op kind iType iID u => exact .inl ⟨.row kind iType iID, op, u, rfl⟩
  | addDB op iTableType u => exact .inl ⟨.table iTableType, op, u, rfl⟩
  | fileBase op kind strFile u => exact .inl ⟨.file kind strFile, op, u, rfl⟩
  | uuid op kind u => exact .inr ⟨op, kind, u, rfl⟩

/-- Processing a message keeps the invariant while the counters do not run over. -/
lemma State.Inv.process (h : s.Inv) {msg : Message} (hroom : s.Room msg) : (s.process msg).2.Inv := by
  obtain ⟨l, op, u, rfl⟩ | ⟨op, kind, u, rfl⟩ := msg.lock_or_close
  · by_cases hl : l.Void
    · rw [State.process_idle (.inl hl)]
      exact h
    · cases op with
      | null =>
        rw [State.process_idle (.inr rfl)]
        exact h
      | lock =>
        obtain ⟨x, i, hspec⟩ := h.process_lock hl u
        exact hspec.inv hroom
      | unlock =>
        obtain ⟨i, hspec⟩ := h.process_unlock hl u
        exact hspec.inv hroom
  · rw [State.process_eq]
    cases kind with
    | project => exact h.closeProject u
    | all => exact h.closeAll

/-- What a message with room keeps holds after a run that has room for all of its messages. -/
lemma Project.run_invariant {P : Project → Prop} (msgs : List Message) (hroom : Project.initial.RoomFrom msgs)
    (hinit : P Project.initial) (hstep : ∀ p, P p → ∀ msg ∈ msgs, p.state.Room msg → P (p.step msg)) :
    P (Project.run msgs) := by
  suffices hgen : ∀ p : Project, P p → p.RoomFrom msgs → P (msgs.foldl Project.step p) from
    hgen Project.initial hinit hroom
  clear hroom
  induction msgs with
  | nil => exact fun p hp _ => hp
  | cons msg msgs ih =>
    intro p hp hroom
    have hkeep (p : Project) (hp : P p) (msg' : Message) (hmem : msg' ∈ msgs) :=
      hstep p hp msg' (List.mem_cons_of_mem msg hmem)
    exact ih hkeep (p.step msg) (hstep p hp msg List.mem_cons_self hroom.1) hroom.2

lemma Project.run_inv (msgs : List Message) (hroom : Project.initial.RoomFrom msgs) :
    (Project.run msgs).state.Inv :=
  Project.run_invariant (P := fun p => p.state.Inv) msgs hroom State.inv_initial fun _ h _ _ hmsg => h.process hmsg

/-! ### Who has a lock -/

lemma State.Inv.known_of_has (h : s.Inv) (hhas : s.Has u l) :
    (s.usersOf l).lookup u = some (s.indexOf l u) ∧
      ∀ kind f, l = .file kind f → s.file.mapFileID.lookup f = some (findIndex s.file.mapFileID f) := by
  have hne : s.stateAt (s.itemOf l) (s.indexOf l u) ≠ 0 := by
    intro hzero
    rw [State.Has, hzero, zero_testBit] at hhas
    cases hhas
  refine ⟨lookup_of_findIndex (h.indexOf_ne_zero hne), ?_⟩
  rintro kind f rfl
  exact lookup_of_findIndex (h.fileEntries _ _ hne).2.1.ne'

lemma State.Inv.owner_of_has (h : s.Inv) (hhas : s.Has u l) : s.owner (s.indexOf l u) = some u :=
  h.owner_of_lookup (h.known_of_has hhas).1

lemma State.Inv.found_again (h : s.Inv) (hhas : s.Has u l)
    (husers : ∀ j, (s.usersOf l).lookup u = some j → (s'.usersOf l).lookup u = some j)
    (hfiles : ∀ f k, s.file.mapFileID.lookup f = some k → s'.file.mapFileID.lookup f = some k) :
    s'.itemOf l = s.itemOf l ∧ s'.indexOf l u = s.indexOf l u := by
  obtain ⟨huser, hfile⟩ := h.known_of_has hhas
  refine ⟨?_, findIndex_of_lookup (husers _ huser)⟩
  cases l with
  | row | table => rfl
  | file kind f =>
    exact congrArg Item.file (findIndex_of_lookup (hfiles f _ (hfile kind f rfl)))

lemma State.Inv.has_exclusive (h : s.Inv) (hl : l.Exclusive) (hu : s.Has u l) (hv : s.Has v l) : u = v := by
  have hindex := h.exclusive hl hu hv
  have hou := h.owner_of_has hu
  rw [hindex, h.owner_of_has hv, some_inj] at hou
  exact hou.symm

lemma State.Inv.lock_eq (h : s.Inv) (hhas : s.Has v l') (hitem : s.itemOf l' = s.itemOf l)
    (htype : l'.type = l.type) : l' = l := by
  cases l' with
  | row kind' iType' iID' =>
    cases l with
    | table | file => cases hitem
    | row kind iType iID =>
      have hkey : (iType', iID') = (iType, iID) := toLex.injective (Item.row.inj hitem)
      obtain ⟨rfl, rfl⟩ := Prod.mk.inj hkey
      have hkind : kind' = kind := by cases kind' <;> cases kind <;> first | rfl | cases htype
      rw [hkind]
  | table iTableType' =>
    cases l with
    | row | file => cases hitem
    | table iTableType => rw [Item.table.inj hitem]
  | file kind' f' =>
    cases l with
    | row | table => cases hitem
    | file kind f =>
      have hf' := (h.known_of_has hhas).2 kind' f' rfl
      have hf : s.file.mapFileID.lookup f = some (findIndex s.file.mapFileID f') := by
        rw [Item.file.inj hitem]
        refine lookup_of_findIndex ?_
        rw [← Item.file.inj hitem]
        exact (h.fileIDs f' _ hf').1.ne'
      have hkind : kind' = kind := by cases kind' <;> cases kind <;> first | rfl | cases htype
      rw [h.fileIDs_injective f' f _ hf' hf, hkind]

lemma State.Inv.has_lock (h : s.Inv) {r : Bool × State} {x : Item} {i : ℤ} (hspec : LockSpec s l u r x i)
    (hhas : s.Has v l') : r.2.Has v l' := by
  obtain ⟨hitem, hindex⟩ := h.found_again hhas (hspec.users l' v) hspec.fileIDs
  rw [State.Has, hitem, hindex]
  cases hr : r.1 with
  | false =>
    rw [(hspec.unchanged (.inl hr)).stateAt]
    exact hhas
  | true =>
    rw [hspec.added hr]
    split
    next heq =>
      rw [← heq.1, ← heq.2, testBit_or]
      rw [show (s.stateAt (s.itemOf l') (s.indexOf l' v)).testBit l'.type.bit = true from hhas, Bool.true_or]
    next => exact hhas

lemma LockSpec.has {r : Bool × State} {x : Item} {i : ℤ} (hspec : LockSpec s l u r x i) (hr : r.1 = true) :
    r.2.Has u l := by
  rw [State.Has, hspec.item, State.indexOf, findIndex_of_lookup hspec.index, hspec.added hr,
    if_pos ⟨rfl, rfl⟩, testBit_or, testBit_two_pow_self, Bool.or_true]

lemma State.Inv.has_unlock (h : s.Inv) {i : ℤ} (hspec : UnlockSpec s l u s' i) (hne : (v, l') ≠ (u, l))
    (hhas : s.Has v l') : s'.Has v l' := by
  obtain ⟨hitem, hindex⟩ := h.found_again hhas (hspec.users l' v) hspec.fileIDs
  rw [State.Has, hitem, hindex, hspec.removed]
  split
  next heq =>
    -- The entry is that of the user who gives a lock back, so the locks have different types.
    have hvu : v = u := by
      have hov := h.owner_of_has hhas
      rw [heq.2] at hov
      rcases hspec.index_old with hold | hnew
      · rw [h.owner_of_lookup hold, some_inj] at hov
        exact hov.symm
      · rw [hnew] at hov
        cases hov
    have htype : l.type.bit ≠ l'.type.bit := fun hbit =>
      hne (by rw [hvu, h.lock_eq hhas heq.1 (MsgType.bit_injective hbit.symm)])
    rw [testBit_ldiff, testBit_two_pow_of_ne htype, Bool.not_false, Bool.and_true, ← heq.1, ← heq.2]
    exact hhas
  next => exact hhas

lemma State.Inv.closeProject_stateAt (h : s.Inv) (u : String) (x : Item) (i : ℤ) :
    (s.closeProject u).stateAt x i =
      match x with
      | .row key => if s.owner i = some u then 0 else s.stateAt (.row key) i
      | x => s.stateAt x i := by
  have hrow (key : ℤ ×ₗ ℤ) (hi : s.stateAt (.row key) i ≠ 0) (ho : s.owner i = some u) :
      s.db.mapUserID.lookup u = some i := by
    obtain ⟨v, hv⟩ := h.rowEntries key i hi
    have hov := h.dbUsers v i hv
    rw [ho, some_inj] at hov
    rwa [hov]
  unfold State.closeProject
  dsimp only
  split
  next hfound =>
    cases x with
    | table | file => rfl
    | row key =>
      dsimp only
      split
      next ho =>
        by_contra hi
        have hu := findIndex_of_lookup (hrow key hi ho)
        have hpos := (h.owners i u ho).1
        omega
      next => rfl
  next hfound =>
    have hu : s.owner (findIndex s.db.mapUserID u) = some u := h.dbUsers u _ (lookup_of_findIndex (by omega))
    cases x with
    | table | file => rfl
    | row key =>
      refine ((release_spec _ h.rows).2 key i).trans ?_
      dsimp only
      split
      next hi => rw [hi, if_pos hu]
      next hi =>
        split
        next ho =>
          by_contra hne
          exact hi (findIndex_of_lookup (hrow key hne ho)).symm
        next => rfl

lemma State.closeProject_users (hne : v ≠ u) (l : Lock) (j : ℤ)
    (hv : (s.usersOf l).lookup v = some j) : ((s.closeProject u).usersOf l).lookup v = some j := by
  unfold State.closeProject
  dsimp only
  split
  · exact hv
  cases l with
  | row | table =>
    refine (Finmap.lookup_erase_ne ?_).trans hv
    exact hne
  | file => exact hv

lemma State.closeProject_fileIDs (s : State) (u : String) :
    (s.closeProject u).file.mapFileID = s.file.mapFileID := by
  unfold State.closeProject
  dsimp only
  split <;> rfl

lemma State.Inv.has_closeProject (h : s.Inv) (hne : v ≠ u) (hhas : s.Has v l) : (s.closeProject u).Has v l := by
  obtain ⟨hitem, hindex⟩ := h.found_again hhas (State.closeProject_users hne l)
    (fun f k hf => by rw [State.closeProject_fileIDs, hf])
  rw [State.Has, hitem, hindex, h.closeProject_stateAt]
  cases hx : s.itemOf l with
  | row key =>
    dsimp only
    rw [h.owner_of_has hhas, if_neg fun heq => hne (some_inj.mp heq), ← hx]
    exact hhas
  | table | file =>
    dsimp only
    rw [← hx]
    exact hhas

end Step

/-! ### Mutual exclusion -/

/-- The row a message is about has an identifier, which rows that are not yet in the database have not. -/
def Message.NonNegative : Message → Prop
  | .editDB _ _ _ iID _ => 0 ≤ iID
  | _ => True

instance (msg : Message) : Decidable msg.NonNegative :=
  match msg with
  | .editDB _ _ _ iID _ => inferInstanceAs (Decidable (0 ≤ iID))
  | .addDB _ _ _ => inferInstanceAs (Decidable True)
  | .fileBase _ _ _ _ => inferInstanceAs (Decidable True)
  | .uuid _ _ _ => inferInstanceAs (Decidable True)

/-- The tables agree with the replies: whoever holds an exclusive lock has it. -/
def Project.Agrees (p : Project) : Prop := ∀ u l, (u, l) ∈ p.held → l.Exclusive → p.state.Has u l

lemma Lock.not_void {l : Lock} {op : OperatorType} {u : String} (hl : l.Exclusive)
    (hmsg : (l.message op u).NonNegative) : ¬l.Void := by
  cases l with
  | row kind iType iID => exact not_lt.mpr hmsg
  | table iTableType => exact not_false
  | file kind f =>
    rw [show kind = .edit from hl]
    exact fun h => (by cases h)

lemma heldAfter_message (held : Finset (String × Lock)) (l : Lock) (op : OperatorType) (u : String)
    (granted : Bool) :
    heldAfter held (l.message op u) granted =
      match op with
      | .lock => if granted then insert (u, l) held else held
      | .unlock => held.erase (u, l)
      | .null => held := by
  cases l <;> rfl

/-- The tables agree with the replies about some of the locks. -/
def Project.AgreesOn (Q : Lock → Prop) (p : Project) : Prop := ∀ u l, (u, l) ∈ p.held → Q l → p.state.Has u l

lemma Project.AgreesOn.step {Q : Lock → Prop} {p : Project} (h : p.AgreesOn Q) (hinv : p.state.Inv)
    {msg : Message} (hmsg : ∀ l op u, msg = Lock.message l op u → Q l → ¬l.Void) :
    (p.step msg).AgreesOn Q := by
  obtain ⟨l, op, u, rfl⟩ | ⟨op, kind, u, rfl⟩ := msg.lock_or_close
  · intro v l' hheld hl'
    rw [Project.step, heldAfter_message] at hheld
    cases op with
    | null =>
      rw [Project.step, State.process_idle (.inr rfl)]
      exact h v l' hheld hl'
    | lock =>
      dsimp only at hheld
      by_cases hvoid : l.Void
      · -- The lock itself is none of these, so nothing is new.
        rw [State.process_idle (.inl hvoid), if_pos rfl, mem_insert] at hheld
        rw [Project.step, State.process_idle (.inl hvoid)]
        rcases hheld with heq | hold
        · obtain ⟨rfl, rfl⟩ := Prod.mk.inj heq
          exact absurd hvoid (hmsg _ _ _ rfl hl')
        · exact h v l' hold hl'
      · obtain ⟨x, i, hspec⟩ := hinv.process_lock hvoid u
        split at hheld
        next hgranted =>
          rcases mem_insert.mp hheld with heq | hold
          · obtain ⟨rfl, rfl⟩ := Prod.mk.inj heq
            exact hspec.has hgranted
          · exact hinv.has_lock hspec (h v l' hold hl')
        next => exact hinv.has_lock hspec (h v l' hheld hl')
    | unlock =>
      obtain ⟨hne, hold⟩ := mem_erase.mp hheld
      by_cases hvoid : l.Void
      · rw [Project.step, State.process_idle (.inl hvoid)]
        exact h v l' hold hl'
      · obtain ⟨i, hspec⟩ := hinv.process_unlock hvoid u
        exact hinv.has_unlock hspec hne (h v l' hold hl')
  · intro v l' hheld hl'
    cases kind with
    | project =>
      obtain ⟨hold, hne⟩ := mem_filter.mp hheld
      rw [Project.step, State.process_eq]
      exact hinv.has_closeProject hne (h v l' hold hl')
    | all => exact absurd hheld (notMem_empty _)

lemma Project.Agrees.step {p : Project} (h : p.Agrees) (hinv : p.state.Inv) {msg : Message}
    (hmsg : msg.NonNegative) : (p.step msg).Agrees := by
  refine Project.AgreesOn.step (Q := Lock.Exclusive) h hinv fun l op u heq hl => ?_
  exact Lock.not_void hl (heq ▸ hmsg)

/-- A lock that is kept in the tables, for one user at a time. -/
def Lock.Kept (l : Lock) : Prop := l.Exclusive ∧ ¬l.Void

/-- After a run the tables agree with the replies about the locks that are kept. -/
lemma Project.run_agrees (msgs : List Message) (hroom : Project.initial.RoomFrom msgs) :
    (Project.run msgs).state.Inv ∧ (Project.run msgs).AgreesOn Lock.Kept := by
  refine Project.run_invariant (P := fun p => p.state.Inv ∧ p.AgreesOn Lock.Kept) msgs hroom
    ⟨State.inv_initial, fun u l hmem => absurd hmem (notMem_empty _)⟩ ?_
  intro p hp msg _ hmsg
  exact ⟨hp.1.process hmsg, hp.2.step hp.1 fun l op u _ hl => hl.2⟩

/-- **Mutual exclusion.** After any messages about rows with proper identifiers for which the counters had
room, whatever was locked, given back and closed, no two users hold the lock to edit one row, to delete one
row, to add to one table or to edit one file. -/
theorem mutual_exclusion (msgs : List Message) (hroom : Project.initial.RoomFrom msgs) (hmsgs : ∀ msg ∈ msgs, msg.NonNegative) (l : Lock)
    (hl : l.Exclusive) (u v : String) (hu : (u, l) ∈ (Project.run msgs).held)
    (hv : (v, l) ∈ (Project.run msgs).held) : u = v := by
  have hrun : (Project.run msgs).state.Inv ∧ (Project.run msgs).Agrees := by
    refine Project.run_invariant (P := fun p => p.state.Inv ∧ p.Agrees) msgs hroom
      ⟨State.inv_initial, fun u l hmem => absurd hmem (notMem_empty _)⟩ ?_
    intro p hp msg hmem hmsg
    exact ⟨hp.1.process hmsg, hp.2.step hp.1 (hmsgs msg hmem)⟩
  exact hrun.1.has_exclusive hl (hrun.2 u l hu hl) (hrun.2 v l hv hl)

/-- Two users compete for a row; the second gets it when the first has closed, comes back under a new
number, and the first is then refused. -/
theorem mutual_exclusion_two_users :
    ∃ msgs : List Message, ("B", Lock.row .edit 1 7) ∈ (Project.run msgs).held ∧
      ∀ u, (u, Lock.row .edit 1 7) ∈ (Project.run msgs).held → u = "B" := by
  refine ⟨[.editDB .lock .edit 1 7 "A", .editDB .lock .edit 1 7 "B", .uuid .null .project "A",
    .editDB .lock .edit 1 7 "B", .editDB .lock .edit 1 7 "A"], by decide +kernel, fun u hu => ?_⟩
  exact mutual_exclusion _ (by decide +kernel) (by decide) (.row .edit 1 7) trivial u "B" hu (by decide +kernel)

/-! ### Counters that run over -/

/-- A user gets a number, giving back a lock it has not, and everybody closes. -/
def round : List Message := [.editDB .unlock .edit 0 0 "C", .uuid .null .all "C"]

/-- The messages of a round, any number of times. -/
def rounds (n : ℕ) : List Message := (List.replicate n round).flatten

lemma Project.step_round {p : Project} (hids : p.state.db.mapUserID = ∅) (hrows : p.state.db.mapUserStates = ∅) :
    ∃ owner, round.foldl Project.step p =
      { state := { p.state with iUserIndex := increment p.state.iUserIndex, owner := owner }, held := ∅ } := by
  obtain ⟨⟨⟨ids, rows, tables⟩, file, iUserIndex, iFilerIndex, owner⟩, held⟩ := p
  obtain rfl : ids = ∅ := hids
  obtain rfl : rows = ∅ := hrows
  exact ⟨_, rfl⟩

lemma iterate_increment (n : ℕ) (i : ℤ) : increment^[n] (i.bmod (2 ^ 32)) = (i + n).bmod (2 ^ 32) := by
  induction n generalizing i with
  | zero => simp
  | succ n ih =>
    rw [Function.iterate_succ_apply, increment, Int.bmod_add_bmod, ih]
    rw [Int.add_assoc, Int.natCast_succ, Int.add_comm 1]

lemma Project.run_rounds (n : ℕ) {p : Project} (hids : p.state.db.mapUserID = ∅)
    (hrows : p.state.db.mapUserStates = ∅) (hheld : p.held = ∅) :
    ∃ owner, (rounds n).foldl Project.step p =
      { state := { p.state with iUserIndex := increment^[n] p.state.iUserIndex, owner := owner }, held := ∅ } := by
  induction n generalizing p with
  | zero => exact ⟨p.state.owner, by rw [← hheld]; rfl⟩
  | succ n ih =>
    obtain ⟨owner, hround⟩ := Project.step_round hids hrows
    rw [rounds, List.replicate_succ, List.flatten_cons, List.foldl_append, hround]
    exact ih hids hrows rfl


/-- The manager when the number that comes next is the one the file manager knows `A` by. -/
def State.repeating (owner : ℤ → Option String) : State :=
  { State.initial with
    file := { mapUserID := Finmap.insert "A" 1 ∅, mapUserStates := ∅, mapFileID := ∅ }, owner := owner }

lemma State.repeating_lock (owner : ℤ → Option String) :
    (State.repeating owner).process (.fileBase .lock .edit "f" "A") =
      (true, { State.repeating owner with
        file := { mapUserID := Finmap.insert "A" 1 ∅
                  mapUserStates := Finmap.insert 1 (Finmap.insert 1 MsgType.editFile.value ∅) ∅
                  mapFileID := Finmap.insert "f" 1 ∅ }
        iFilerIndex := 2 }) :=
  rfl

/-- `B` comes to the number of `A`, which has the lock. -/
lemma State.repeating_lock_again (owner : ℤ → Option String) :
    (((State.repeating owner).process (.fileBase .lock .edit "f" "A")).2.process
      (.fileBase .lock .edit "f" "B")).1 = true := by
  rw [State.repeating_lock, State.process_eq]
  simp only [reduceCtorEq, if_false, processDispatch, State.lockFile, State.getFileIndex, findIndex,
    Finmap.lookup_insert, getD_some, ne_eq, one_ne_zero, not_false_eq_true, if_true, State.getFileUserIndex]
  simp [State.repeating, State.initial, lock, FileKind.type, MsgType.value]

lemma nonNegative_of_mem_rounds {n : ℕ} {msg : Message} (hmem : msg ∈ rounds n) : msg.NonNegative := by
  have hround : ∀ msg ∈ round, msg.NonNegative := by decide
  obtain ⟨part, hpart, hmsg⟩ := List.mem_flatten.mp hmem
  rw [List.eq_of_mem_replicate hpart] at hmsg
  exact hround msg hmsg

/-- As many users as there are numbers come and go after `A`, and then `B` is given the number of `A`: both
hold the lock to edit the file. -/
theorem mutual_exclusion_runs_over :
    ¬∀ msgs : List Message, (∀ msg ∈ msgs, msg.NonNegative) → ∀ l : Lock, l.Exclusive → ∀ u v,
      (u, l) ∈ (Project.run msgs).held → (v, l) ∈ (Project.run msgs).held → u = v := by
  intro hall
  obtain ⟨owner, hrounds⟩ := Project.run_rounds (2 ^ 32 - 1)
    (p := Project.initial.step (.fileBase .unlock .edit "f" "A")) rfl rfl rfl
  have hcounter : increment^[2 ^ 32 - 1] (2 : ℤ) = 1 := iterate_increment (2 ^ 32 - 1) 2
  have hrun : Project.run (.fileBase .unlock .edit "f" "A" :: rounds (2 ^ 32 - 1)) =
      { state := State.repeating owner, held := ∅ } := by
    rw [Project.run, List.foldl_cons, hrounds, show (Project.initial.step _).state.iUserIndex = 2 from rfl, hcounter]
    rfl
  have hheld : (Project.run (.fileBase .unlock .edit "f" "A" :: rounds (2 ^ 32 - 1) ++
      [.fileBase .lock .edit "f" "A", .fileBase .lock .edit "f" "B"])).held =
        insert ("B", .file .edit "f") (insert ("A", .file .edit "f") ∅) := by
    rw [Project.run, List.foldl_append, ← Project.run, hrun, List.foldl_cons, List.foldl_cons, List.foldl_nil]
    simp only [Project.step]
    rw [State.repeating_lock_again, State.repeating_lock]
    rfl
  have hmsgs : ∀ msg ∈ [Message.fileBase .lock .edit "f" "A", .fileBase .lock .edit "f" "B"], msg.NonNegative := by
    decide
  have hsame := hall _ (fun msg hmem => ?_) (.file .edit "f") rfl "A" "B" (by rw [hheld]; decide)
    (by rw [hheld]; decide)
  · exact absurd hsame (by decide)
  · rcases List.mem_append.mp hmem with hmem | hmem
    · rcases List.mem_cons.mp hmem with rfl | hmem
      · trivial
      · exact nonNegative_of_mem_rounds hmem
    · exact hmsgs msg hmem

/-- **Numbers.** In no run for which the counters have room do two users come to the same number, whichever
manager gave it to them, or two files to the same number, and a number that has a lock on a row is that of a
user the manager knows. -/
theorem numbers_apart (msgs : List Message) (hroom : Project.initial.RoomFrom msgs) :
    (∀ l l' u v i, ((Project.run msgs).state.usersOf l).lookup u = some i →
      ((Project.run msgs).state.usersOf l').lookup v = some i → u = v) ∧
    (∀ f f' k, (Project.run msgs).state.file.mapFileID.lookup f = some k →
      (Project.run msgs).state.file.mapFileID.lookup f' = some k → f = f') ∧
    ∀ key i, (Project.run msgs).state.stateAt (.row key) i ≠ 0 →
      ∃ u, (Project.run msgs).state.db.mapUserID.lookup u = some i := by
  have hinv := Project.run_inv msgs hroom
  refine ⟨fun l l' u v i hu hv => ?_, hinv.fileIDs_injective, hinv.rowEntries⟩
  have howner := hinv.owner_of_lookup hu
  rw [hinv.owner_of_lookup hv, some_inj] at howner
  exact howner.symm

/-- A user closes and comes back under the number three while another holds a file under the number two. -/
theorem numbers_apart_back : ∃ s, s = (Project.run [.addDB .lock 3 "A", .fileBase .lock .edit "f" "B",
      .uuid .null .project "A", .editDB .lock .edit 1 7 "A"]).state ∧
    (s.usersOf (.row .edit 1 7)).lookup "A" = some 3 ∧ ∀ l v, (s.usersOf l).lookup v = some 3 → v = "A" := by
  refine ⟨_, rfl, by decide +kernel, fun l v hv => ?_⟩
  exact (numbers_apart _ (by decide +kernel)).1 l (.row .edit 1 7) v "A" 3 hv (by decide +kernel)

end Gds
