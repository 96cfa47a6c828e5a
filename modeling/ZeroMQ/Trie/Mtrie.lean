import Mathlib.Data.Finset.Sort
import ZeroMQ.Trie.Remove
import ZeroMQ.Trie.Walk

/-!
# The trie of pipes

`mtrie_t` stores a set of pipes for each prefix. A node without a set has a null pointer `pipes`, and
a set that becomes empty is deleted. Pipes are addresses, so they come from an arbitrary linear
order, in which `std::set` iterates.

This module has the operations of the class and what adding, removing a pipe for a prefix and
matching do; removing a pipe for all prefixes is in the next one.
-/

namespace Zmq

/-- A pointer to an `mtrie_t`. -/
abbrev Mtrie (P : Type) := Node (Option (Finset P))

namespace Mtrie

open Node Function List

variable {P : Type} [LinearOrder P]

/-- The set of a node is created if there is none, and the pipe is inserted. -/
def insertPipe (pipe : P) : Option (Finset P) → Bool × Option (Finset P)
  | none => (true, some {pipe})
  | some s => (false, some (insert pipe s))

/-- `mtrie_t::add`. -/
def add (key : List UInt8) (pipe : P) (t : Mtrie P) : Except TrieFault (Bool × Mtrie P) :=
  addHelper (insertPipe pipe) (fun _ _ => true) key t

/-- The part of `mtrie_t::rm_helper` for a prefix that deletes the child for `c` and compacts the
table. -/
def prune (t : Children (Option (Finset P))) (c : UInt8) :
    Except TrieFault (Children (Option (Finset P))) :=
  if ¬t.count > 0 then throw .assertFailed
  else if t.count = 1 then
    -- after the decrement `live_nodes` is to be zero
    if t.live ≠ 1 then throw .assertFailed
    else return ⟨⟨t.min, 0, update t.next 0 .null⟩, t.live - 1⟩
  else
    let next := update t.next (c.toNat - t.min.toNat) .null
    if ¬t.live > 1 then throw .assertFailed
    else
      let live := t.live - 1
      if live = 1 then
        let i := scanUp (fun i => (next i).isLive) 0 t.count
        if ¬i < t.count then throw .assertFailed
        else return ⟨⟨t.min + UInt8.ofNat i, 1, fun _ => next i⟩, live⟩
      else if c = t.min then
        -- compact the table from the left
        let i := scanUp (fun i => (next i).isLive) 1 (t.count - 1)
        if ¬i < t.count then throw .assertFailed
        else return ⟨⟨t.min + UInt8.ofNat i, t.count - i, fun j => next (i + j)⟩, live⟩
      else if c.toNat = t.min.toNat + t.count - 1 then
        -- compact the table from the right
        let i := scanUp (fun i => (next (t.count - 1 - i)).isLive) 1 (t.count - 1)
        if ¬i < t.count then throw .assertFailed
        else return ⟨⟨t.min, t.count - i, next⟩, live⟩
      else return ⟨⟨t.min, t.count, next⟩, live⟩

/-- The pipe is erased from the set of a node, which is deleted when it becomes empty. -/
def erasePipe (pipe : P) : Option (Finset P) → Except TrieFault (Bool × Option (Finset P))
  | none => .ok (true, none)
  | some s =>
    if pipe ∉ s then .error .assertFailed
    else if s.erase pipe = ∅ then .ok (true, none)
    else .ok (false, some (s.erase pipe))

/-- `mtrie_t::rm` for a prefix. -/
def rm (key : List UInt8) (pipe : P) (t : Mtrie P) : Except TrieFault (Bool × Mtrie P) :=
  rmHelper (erasePipe pipe) prune key t

/-- Removing the pipe makes the set empty. -/
def losesLast (pipe : P) : Option (Finset P) → Bool
  | none => false
  | some s => pipe ∈ s && s.erase pipe = ∅

/-- The set without the pipe; a set that becomes empty is deleted. -/
def dropPipe (pipe : P) : Option (Finset P) → Option (Finset P)
  | none => none
  | some s => if losesLast pipe (some s) then none else some (s.erase pipe)

/-- The variables of the loop of `mtrie_t::rm_helper` for a pipe: the calls of the function so far, the
buffer, the table, `live_nodes`, `new_min` and `new_max`. -/
structure Sweep (P : Type) where
  calls : List (List UInt8)
  buff : Buffer
  next : ℕ → Mtrie P
  live : ℕ
  newMin : UInt8
  newMax : UInt8

/-- The body of that loop: `visit` removes the pipe from the child at an index. -/
def sweepChild (size : ℕ) (min : UInt8) (next : ℕ → Mtrie P)
    (visit : ℕ → Buffer → Except TrieFault (List (List UInt8) × Buffer × Mtrie P))
    (st : Sweep P) (c : ℕ) : Except TrieFault (Sweep P) := do
  let buff ← st.buff.put size (UInt8.ofNat (min.toNat + c))
  if (next c).isLive then
    let (more, buff, child) ← visit c buff
    if child.isRedundant then
      if ¬st.live > 0 then throw .assertFailed
      return { st with calls := st.calls ++ more, buff := buff, live := st.live - 1
                       next := update st.next c .null }
    else
      -- a candidate for the new first and the new last child
      return { st with
        calls := st.calls ++ more
        buff := buff
        next := update st.next c child
        newMin := if c + min.toNat < st.newMin.toNat then UInt8.ofNat (c + min.toNat) else st.newMin
        newMax := if c + min.toNat > st.newMax.toNat then UInt8.ofNat (c + min.toNat) else st.newMax }
  else return { st with buff := buff }

/-- The compaction after that loop. -/
def compact (min : UInt8) (count : ℕ) (st : Sweep P) :
    Except TrieFault (Children (Option (Finset P))) :=
  if ¬count > 1 then throw .assertFailed
  else if st.live = 0 then return ⟨⟨min, 0, fun _ => .null⟩, st.live⟩
  else if st.live = 1 then
    if st.newMin ≠ st.newMax then throw .assertFailed
    else if ¬(st.newMin ≥ min ∧ st.newMin.toNat < min.toNat + count) then throw .assertFailed
    else if !(st.next (st.newMin.toNat - min.toNat)).isLive then throw .assertFailed
    else return ⟨⟨st.newMin, 1, fun _ => st.next (st.newMin.toNat - min.toNat)⟩, st.live⟩
  else if st.newMin > min ∨ st.newMax.toNat < min.toNat + count - 1 then
    if ¬(st.newMax.toNat : ℤ) - st.newMin.toNat + 1 > 1 then throw .assertFailed
    else if ¬st.newMin ≥ min then throw .assertFailed
    else if ¬st.newMax.toNat ≤ min.toNat + count - 1 then throw .assertFailed
    else if ¬(st.newMax.toNat : ℤ) - st.newMin.toNat + 1 < count then throw .assertFailed
    else return ⟨⟨st.newMin, st.newMax.toNat - st.newMin.toNat + 1,
      fun i => st.next (st.newMin.toNat - min.toNat + i)⟩, st.live⟩
  else return ⟨⟨min, count, st.next⟩, st.live⟩

/-- `mtrie_t::rm_helper` for a pipe: the prefixes the function is called with, the buffer and the
node. -/
def rmPipeHelper (pipe : P) :
    Mtrie P → Buffer → ℕ → ℕ → Except TrieFault (List (List UInt8) × Buffer × Mtrie P)
  | .null, _, _, _ => .error .nullPointer
  | .node pipes min count live next, buff, size, max => do
    let calls := if losesLast pipe pipes then [buff.contents size] else []
    let pipes := dropPipe pipe pipes
    let (buff, max) := buff.adjust size max
    if count = 0 then return (calls, buff, .node pipes min count live next)
    if count = 1 then
      let buff ← buff.put size min
      let (more, buff, child) ← rmPipeHelper pipe (next 0) buff (size + 1) max
      if child.isRedundant then
        if live ≠ 1 then throw .assertFailed
        return (calls ++ more, buff,
          .node pipes min 0 (live - 1) (update next 0 .null))
      else return (calls ++ more, buff, .node pipes min count live (update next 0 child))
    let st ← (List.range count).foldlM
      (sweepChild size min next fun c buff => rmPipeHelper pipe (next c) buff (size + 1) max)
      ⟨calls, buff, next, live, UInt8.ofNat (min.toNat + count - 1), min⟩
    let t ← compact min count st
    return (st.calls, st.buff, .node pipes t.min t.count t.live t.next)

/-- `mtrie_t::rm` for a pipe. -/
def rmPipe (pipe : P) (t : Mtrie P) : Except TrieFault (List (List UInt8) × Mtrie P) := do
  let (calls, _, t) ← rmPipeHelper pipe t Buffer.null 0 0
  return (calls, t)

/-- The pipes attached to a node, in the order of `std::set`. -/
def attached : Option (Finset P) → List P
  | none => []
  | some s => s.sort (· ≤ ·)

/-- `mtrie_t::match`: the pipes the function is called with. -/
def matchPipes : List UInt8 → Mtrie P → Except TrieFault (List P)
  | _, .null => .error .nullPointer
  | [], .node pipes .. => return attached pipes
  | c :: data, .node pipes min count _ next => do
    let calls := attached pipes
    if count = 0 then return calls
    if count = 1 then
      if c ≠ min then return calls
      let more ← matchPipes data (next 0)
      return calls ++ more
    if outOfRange min count c then return calls
    let child ← index count next (c.toNat - min.toNat)
    if !child.isLive then return calls
    let more ← matchPipes data child
    return calls ++ more

/-! ### Adding and removing -/

lemma add_spec (key : List UInt8) (pipe : P) {t : Mtrie P} (hwf : WF t) (hlive : t.isLive = true) :
    ∃ t', add key pipe t = .ok ((get key t).isNone, t') ∧ WF t' ∧ t'.isLive = true ∧
      ∀ k, get k t' = if k = key then some (insert pipe ((get key t).getD ∅)) else get k t := by
  have hne : (insertPipe pipe (get key t)).2 ≠ none := by
    cases get key t <;> simp [insertPipe]
  obtain ⟨t', hok, hwf', hlive', hget⟩ :=
    addHelper_spec rfl (fun _ _ _ _ => rfl) key hwf hlive hne
  have hres : insertPipe pipe (get key t) =
      ((get key t).isNone, some (insert pipe ((get key t).getD ∅))) := by
    cases get key t <;> rfl
  rw [hres] at hok hget
  exact ⟨t', hok, hwf', hlive', hget⟩

lemma toNat_add_ofNat {min : UInt8} {i : ℕ} (h : min.toNat + i < 256) :
    (min + UInt8.ofNat i).toNat = min.toNat + i := by
  rw [UInt8.toNat_add, UInt8.toNat_ofNat']
  omega

omit [LinearOrder P] in
lemma prune_spec : PruneSpec (prune (P := P)) := by
  intro min count live next c hshape hc
  have he := hshape.erased hc
  have hlow := he.low
  have hhigh := he.high
  have hb := he.bound
  have hpos := hshape.live_pos (by omega)
  have h0 : count > 0 := by omega
  unfold prune
  simp only [h0, not_true_eq_false, ↓reduceIte]
  by_cases h1 : count = 1
  · obtain ⟨hzero, hpruned⟩ := he.only h1 (update next 0 .null)
    have hlive : live = 1 := by omega
    simp only [if_pos h1, hlive, ↓reduceIte, ne_eq, not_true_eq_false]
    exact ⟨_, rfl, hpruned⟩
  have hpos' := he.live_pos h1
  have hgt : live > 1 := by omega
  simp only [h1, hgt, not_true_eq_false, ↓reduceIte]
  obtain ⟨next1, hnext1⟩ : ∃ next1, next1 = update next (c.toNat - min.toNat) .null :=
    ⟨_, rfl⟩
  rw [← hnext1] at he ⊢
  by_cases h2 : live - 1 = 1
  · -- the loop finds the only child left
    obtain ⟨j, hj, hl⟩ := he.exists_live h1
    obtain ⟨-, -, -, hfound⟩ := scanUp_spec (fun i => (next1 i).isLive) 0 count
    have hle := scanUp_le (p := fun i => (next1 i).isLive) count (Nat.zero_le j) hl
    obtain ⟨i, hi⟩ : ∃ i, i = scanUp (fun i => (next1 i).isLive) 0 count := ⟨_, rfl⟩
    rw [← hi] at hfound hle
    have hlt : i < count := by omega
    have hpruned := he.single h2 hlt (hfound (by omega)) (toNat_add_ofNat (by omega))
      (fun _ => next1 i) rfl
    rw [h2] at hpruned
    simp only [h2, ↓reduceIte, ← hi, hlt, not_true_eq_false]
    exact ⟨_, rfl, hpruned⟩
  simp only [h2, ↓reduceIte]
  by_cases hmin : c = min
  · obtain ⟨h₁, h₂, hpruned⟩ := he.left h1 hmin
    simp only [hmin, ↓reduceIte, h₂, not_true_eq_false]
    rw [hmin] at hpruned
    exact ⟨_, rfl, hpruned _ (toNat_add_ofNat (by omega))⟩
  by_cases hlast : c.toNat = min.toNat + (count - 1)
  · obtain ⟨h₁, h₂, hpruned⟩ := he.right h1 hlast
    have hend : c.toNat = min.toNat + count - 1 := by omega
    simp only [hmin, if_pos hend, ↓reduceIte, h₂, not_true_eq_false]
    exact ⟨_, rfl, hpruned⟩
  · have hend : c.toNat ≠ min.toNat + count - 1 := by omega
    simp only [hmin, hend, ↓reduceIte]
    exact ⟨_, rfl, he.middle hmin hlast⟩

lemma rm_spec (key : List UInt8) {pipe : P} {s : Finset P} {t : Mtrie P} (hwf : WF t)
    (hget : get key t = some s) (hmem : pipe ∈ s) :
    ∃ t', rm key pipe t = .ok (decide (s.erase pipe = ∅), t') ∧ WF t' ∧ t'.isLive = true ∧
      ∀ k, get k t' = if k = key then dropPipe pipe (some s) else get k t := by
  refine rmHelper_of_stored prune_spec key hwf (by simp [hget]) ?_
  simp only [hget, erasePipe, hmem, not_true_eq_false, ↓reduceIte, dropPipe, losesLast, decide_true,
    Bool.true_and, decide_eq_true_eq]
  split <;> simp_all

lemma matchPipes_cons {pipes : Option (Finset P)} {min : UInt8} {count live : ℕ}
    {next : ℕ → Mtrie P} (hshape : Shape min count live next) (c : UInt8) (data : List UInt8) :
    matchPipes (c :: data) (node pipes min count live next) =
      if (slot min count next c.toNat).isLive then do
        let more ← matchPipes data (slot min count next c.toNat)
        return attached pipes ++ more
      else .ok (attached pipes) := by
  by_cases hrange : min.toNat ≤ c.toNat ∧ c.toNat < min.toNat + count
  · have hslot := slot_of_mem next hrange.1 hrange.2
    have hguard : outOfRange min count c = false := by
      simp only [outOfRange, Bool.or_eq_false_iff, decide_eq_false_iff_not]
      omega
    have hindex : index count next (c.toNat - min.toNat) =
        .ok (slot min count next c.toNat) := by
      rw [index, if_pos (by omega), hslot]
    have h0 : count ≠ 0 := by omega
    by_cases h1 : count = 1
    · -- the single child is there
      have hzero : c.toNat - min.toNat = 0 := by omega
      have hc : c = min := UInt8.toNat_inj.mp (by omega)
      have hlive : (next 0).isLive = true := hshape.first (by omega)
      rw [hzero] at hslot
      rw [hslot, if_pos hlive]
      simp [matchPipes, h1, hc]
    · simp only [matchPipes, h0, hguard, h1, hindex, bind, Except.bind]
      cases (slot min count next c.toNat).isLive <;> rfl
  · have hslot : slot min count next c.toNat = .null := slot_of_not_mem next (by omega)
    have hguard : outOfRange min count c = true := by
      simp only [outOfRange, Bool.or_eq_true, decide_eq_true_eq]
      omega
    have hne : count = 1 → c ≠ min := fun h1 heq => hrange (by rw [heq]; omega)
    rw [hslot]
    by_cases h0 : count = 0
    · simp only [matchPipes, h0]
      rfl
    by_cases h1 : count = 1
    · have hc : c ≠ min := hne h1
      simp only [matchPipes, h0, if_pos h1, if_pos hc, ↓reduceIte]
      rfl
    · simp only [matchPipes, h0, h1, hguard]
      rfl

lemma matchPipes_spec (data : List UInt8) {t : Mtrie P} (hwf : WF t) (hlive : t.isLive = true) :
    matchPipes data t = .ok (data.inits.flatMap fun k => attached (get k t)) := by
  induction data generalizing t with
  | nil =>
    cases t with
    | null => simp at hlive
    | node pipes min count live next =>
      simp only [matchPipes, inits, flatMap_cons, flatMap_nil, get_nil,
        append_nil]
      rfl
  | cons c data ih =>
    cases t with
    | null => simp at hlive
    | node pipes min count live next =>
      obtain ⟨hshape, hslots⟩ := wf_node_iff.mp hwf
      rw [matchPipes_cons hshape]
      simp only [inits, flatMap_cons, get_nil, flatMap_map, get_cons]
      cases hl : (slot min count next c.toNat).isLive with
      | false =>
        have hnone : (data.inits.flatMap fun k =>
            attached (get k (slot min count next c.toNat))) = [] := by
          rw [eq_null hl]
          simp only [get_null]
          exact flatMap_eq_nil_iff.mpr fun _ _ => rfl
        rw [hnone, append_nil]
        rfl
      | true =>
        rw [if_pos rfl, ih (hslots c.toNat).1 hl]
        rfl

end Mtrie

end Zmq
