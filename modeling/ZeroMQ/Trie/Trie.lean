import Mathlib.Algebra.Ring.Nat
import ZeroMQ.Foundation.Machine
import ZeroMQ.Trie.Remove
import ZeroMQ.Trie.Walk

/-!
# The trie of subscriptions

`trie_t` stores byte strings with a 32-bit reference count for each. Adding counts up, removing
counts down, and a message matches if a stored string is a prefix of it.

The abstract counterpart is a multiset of strings. As long as no string is stored `2 ^ 32` times the
trie and the multiset give the same answers; the addition that makes the reference count wrap round
forgets all earlier ones.
-/

namespace Zmq

open Function Nat Bool Except
open List hiding count

/-- A pointer to a `trie_t`. -/
abbrev Trie := Node UInt32

namespace Trie

open Node

/-- `trie_t::add`. -/
def add (key : List UInt8) (t : Trie) : Except TrieFault (Bool × Trie) :=
  addHelper (fun refcnt => (refcnt + 1 = 1, refcnt + 1))
    (fun count live => if count = 1 then live = 1 else live > 1) key t

/-- The part of `trie_t::rm` that deletes the child for `c` and compacts the table. -/
def prune (t : Children UInt32) (c : UInt8) : Except TrieFault (Children UInt32) :=
  if t.count = 0 then throw .assertFailed
  else if t.count = 1 then
    -- after the decrement `live_nodes` is to be zero
    if t.live ≠ 1 then throw .assertFailed
    else return ⟨⟨t.min, 0, update t.next 0 .null⟩, t.live - 1⟩
  else
    let next := update t.next (c.toNat - t.min.toNat) .null
    if t.live ≤ 1 then throw .assertFailed
    else
      let live := t.live - 1
      if live = 1 then
        let kept := if c = t.min then (next (t.count - 1), UInt8.ofNat (t.min.toNat + (t.count - 1)))
          else if c.toNat = t.min.toNat + t.count - 1 then (next 0, t.min)
          else (.null, t.min)
        if !kept.1.isLive then throw .assertFailed
        else return ⟨⟨kept.2, 1, fun _ => kept.1⟩, live⟩
      else if c = t.min then
        -- compact the table from the left
        let i := scanUp (fun i => (next i).isLive) 1 (t.count - 1)
        let newMin := if i < t.count then UInt8.ofNat (i + t.min.toNat) else t.min
        if newMin = t.min then throw .assertFailed
        else if ¬t.min < newMin then throw .assertFailed
        else if t.count ≤ newMin.toNat - t.min.toNat then throw .assertFailed
        else return ⟨⟨newMin, t.count - (newMin.toNat - t.min.toNat),
          fun i => next (newMin.toNat - t.min.toNat + i)⟩, live⟩
      else if c.toNat = t.min.toNat + t.count - 1 then
        -- compact the table from the right
        let i := scanUp (fun i => (next (t.count - 1 - i)).isLive) 1 (t.count - 1)
        let newCount := if i < t.count then t.count - i else t.count
        if newCount = t.count then throw .assertFailed
        else return ⟨⟨t.min, newCount, next⟩, live⟩
      else return ⟨⟨t.min, t.count, next⟩, live⟩

/-- `trie_t::rm`. -/
def rm (key : List UInt8) (t : Trie) : Except TrieFault (Bool × Trie) :=
  rmHelper (fun refcnt => if refcnt = 0 then .ok (false, refcnt)
    else .ok (refcnt - 1 = 0, refcnt - 1)) prune key t

/-- `trie_t::check`. -/
def check : List UInt8 → Trie → Except TrieFault Bool
  | _, .null => .error .nullPointer
  | [], .node refcnt .. => return refcnt ≠ 0
  | c :: data, .node refcnt min count _ next => do
    if refcnt ≠ 0 then return true
    if outOfRange min count c then return false
    if count = 1 then check data (next 0)
    else
      let child ← index count next (c.toNat - min.toNat)
      if child.isLive then check data child else return false

/-- The body of the loop of `trie_t::apply_helper`: `visit` walks over the child at an index. -/
def applyChild (size : ℕ) (min : UInt8) (next : ℕ → Trie)
    (visit : ℕ → Buffer → Except TrieFault (List (List UInt8) × Buffer))
    (st : List (List UInt8) × Buffer) (c : ℕ) : Except TrieFault (List (List UInt8) × Buffer) := do
  let buff ← st.2.put size (UInt8.ofNat (min.toNat + c))
  if (next c).isLive then
    let (more, buff) ← visit c buff
    return (st.1 ++ more, buff)
  else return (st.1, buff)

/-- `trie_t::apply_helper`: the byte strings the function is called with, and the buffer. -/
def applyHelper : Trie → Buffer → ℕ → ℕ → Except TrieFault (List (List UInt8) × Buffer)
  | .null, _, _, _ => .error .nullPointer
  | .node refcnt min count _ next, buff, size, max => do
    let calls := if refcnt ≠ 0 then [buff.contents size] else []
    let (buff, max) := buff.adjust size max
    if count = 0 then return (calls, buff)
    if count = 1 then
      let buff ← buff.put size min
      let (more, buff) ← applyHelper (next 0) buff (size + 1) max
      return (calls ++ more, buff)
    (List.range count).foldlM
      (applyChild size min next fun c buff => applyHelper (next c) buff (size + 1) max) (calls, buff)

/-- `trie_t::apply`. -/
def apply (t : Trie) : Except TrieFault (List (List UInt8)) := do
  let (calls, _) ← applyHelper t Buffer.null 0 0
  return calls

variable {f next : ℕ → Trie}

lemma kept_spec {c min : UInt8} {count live : ℕ}
    (h : Erased f c min count live next) (hmany : count ≠ 1) (hone : live = 1) :
    let kept := if c = min then (next (count - 1), UInt8.ofNat (min.toNat + (count - 1)))
      else if c.toNat = min.toNat + count - 1 then (next 0, min) else (.null, min)
    kept.1.isLive = true ∧ Shape kept.2 1 live (fun _ => kept.1) ∧
      slot kept.2 1 (fun _ => kept.1) = update f c.toNat .null := by
  have hb := h.bound
  have hlow := h.low
  have hhigh := h.high
  by_cases hmin : c = min
  · have hl := h.last (by rw [hmin]; omega)
    have hnat : (UInt8.ofNat (min.toNat + (count - 1))).toNat = min.toNat + (count - 1) := by
      rw [UInt8.toNat_ofNat']
      omega
    have := h.single hone (by omega) hl hnat (fun _ => next (count - 1)) rfl
    simp only [if_pos hmin]
    exact ⟨hl, this⟩
  · have hl := h.first hmin
    have hlast : c.toNat = min.toNat + (count - 1) := by
      by_contra hne
      have := h.unique hone (by omega) (by omega) hl (h.last hne)
      omega
    have := h.single hone (by omega) hl (add_zero _).symm (fun _ => next 0) rfl
    simp only [if_neg hmin, if_pos (show c.toNat = min.toNat + count - 1 by omega)]
    exact ⟨hl, this⟩

lemma prune_spec : PruneSpec prune := by
  intro min count live next c hshape hc
  have he := hshape.erased hc
  have hhigh := he.high
  have hlow := he.low
  have hb := he.bound
  have hpos := hshape.live_pos (by omega)
  have h0 : count ≠ 0 := by omega
  unfold prune
  simp only [h0, ↓reduceIte]
  by_cases h1 : count = 1
  · obtain ⟨hzero, hpruned⟩ := he.only h1 (update next 0 .null)
    have hlive : live = 1 := by omega
    simp only [if_pos h1, hlive, ↓reduceIte, ne_eq, not_true_eq_false]
    exact ⟨_, rfl, hpruned⟩
  have hpos' := he.live_pos h1
  have hle : ¬live ≤ 1 := by omega
  simp only [h1, hle, ↓reduceIte]
  obtain ⟨next1, hnext1⟩ : ∃ next1, next1 = update next (c.toNat - min.toNat) .null :=
    ⟨_, rfl⟩
  rw [← hnext1] at he ⊢
  by_cases h2 : live - 1 = 1
  · obtain ⟨hkept, hpruned⟩ := kept_spec he h1 h2
    rw [h2] at hpruned
    simp only [h2, ↓reduceIte, hkept, Bool.not_true, Bool.false_eq_true]
    exact ⟨_, rfl, hpruned⟩
  simp only [h2, ↓reduceIte]
  by_cases hmin : c = min
  · obtain ⟨h₁, h₂, hpruned⟩ := he.left h1 hmin
    obtain ⟨i, hi⟩ : ∃ i, i = scanUp (fun i => (next1 i).isLive) 1 (count - 1) := ⟨_, rfl⟩
    rw [← hi] at h₁ h₂ hpruned
    have hnat : (UInt8.ofNat (i + min.toNat)).toNat = min.toNat + i := by
      rw [UInt8.toNat_ofNat']
      omega
    have hne : UInt8.ofNat (i + min.toNat) ≠ min := fun heq => by
      have := congrArg UInt8.toNat heq
      omega
    have hlt : min < UInt8.ofNat (i + min.toNat) := UInt8.lt_iff_toNat_lt.mpr (by omega)
    have hsub : (UInt8.ofNat (i + min.toNat)).toNat - min.toNat = i := by omega
    have hle' : ¬count ≤ i := by omega
    simp only [hmin, ↓reduceIte, ← hi, h₂, hne, hlt, not_true_eq_false, hsub, hle']
    rw [hmin] at hpruned
    exact ⟨_, rfl, hpruned _ hnat⟩
  by_cases hlast : c.toNat = min.toNat + (count - 1)
  · obtain ⟨h₁, h₂, hpruned⟩ := he.right h1 hlast
    obtain ⟨i, hi⟩ : ∃ i, i = scanUp (fun i => (next1 (count - 1 - i)).isLive) 1 (count - 1) :=
      ⟨_, rfl⟩
    rw [← hi] at h₁ h₂ hpruned
    have hne : count - i ≠ count := by omega
    have hend : c.toNat = min.toNat + count - 1 := by omega
    simp only [hmin, if_pos hend, ↓reduceIte, ← hi, h₂, hne]
    exact ⟨_, rfl, hpruned⟩
  · have hend : c.toNat ≠ min.toNat + count - 1 := by omega
    simp only [hmin, hend, ↓reduceIte]
    exact ⟨_, rfl, he.middle hmin hlast⟩

/-! ### What the operations do -/

lemma default_eq : (default : UInt32) = 0 := rfl

/-- A reference count that says that the string is stored. -/
def stored (refcnt : UInt32) : Bool := refcnt ≠ 0

variable {t : Trie}

lemma add_spec (key : List UInt8) (hwf : WF t) (hlive : t.isLive = true)
    (hne : get key t + 1 ≠ 0) :
    ∃ t', add key t = .ok (decide (get key t + 1 = 1), t') ∧ WF t' ∧ t'.isLive = true ∧
      ∀ k, get k t' = if k = key then get key t + 1 else get k t :=
  addHelper_spec rfl (fun count live h1 h2 => by simp [h1, h2]) key hwf hlive hne

lemma rm_spec (key : List UInt8) (hwf : WF t) (hne : get key t ≠ 0) :
    ∃ t', rm key t = .ok (decide (get key t - 1 = 0), t') ∧ WF t' ∧ t'.isLive = true ∧
      ∀ k, get k t' = if k = key then get key t - 1 else get k t :=
  rmHelper_of_stored prune_spec key hwf hne (by simp [hne])

lemma check_cons {min : UInt8} {count live : ℕ}
    (hshape : Shape min count live next) (c : UInt8) (data : List UInt8) :
    check (c :: data) (node 0 min count live next) =
      if (slot min count next c.toNat).isLive then check data (slot min count next c.toNat)
      else .ok false := by
  by_cases hrange : min.toNat ≤ c.toNat ∧ c.toNat < min.toNat + count
  · have hslot := slot_of_mem next hrange.1 hrange.2
    have hguard : outOfRange min count c = false := by
      simp only [outOfRange, or_eq_false_iff, decide_eq_false_iff_not]
      omega
    have hindex : index count next (c.toNat - min.toNat) =
        .ok (slot min count next c.toNat) := by
      rw [index, if_pos (by omega), hslot]
    by_cases h1 : count = 1
    · -- the single child is there
      have hzero : c.toNat - min.toNat = 0 := by omega
      have hlive : (next 0).isLive = true := hshape.first (by omega)
      rw [hzero] at hslot
      rw [hslot, if_pos hlive]
      rw [h1] at hguard
      simp [check, hguard, h1]
    · simp only [check, hguard, h1, hindex, bind, bind]
      rfl
  · have hslot : slot min count next c.toNat = .null := slot_of_not_mem next (by omega)
    have hguard : outOfRange min count c = true := by
      simp only [outOfRange, or_eq_true, decide_eq_true_eq]
      omega
    simp only [check, hguard, hslot]
    rfl

lemma check_spec (data : List UInt8) (hwf : WF t) (hlive : t.isLive = true) :
    ∃ b, check data t = .ok b ∧ (b = true ↔ ∃ k, k <+: data ∧ get k t ≠ 0) := by
  induction data generalizing t with
  | nil =>
    cases t with
    | null => simp at hlive
    | node refcnt min count live next =>
      refine ⟨decide (refcnt ≠ 0), rfl, ?_⟩
      simp
  | cons c data ih =>
    cases t with
    | null => simp at hlive
    | node refcnt min count live next =>
      obtain ⟨hshape, hslots⟩ := wf_node_iff.mp hwf
      by_cases hr : refcnt = 0
      swap
      · refine ⟨true, ?_, ?_⟩
        · simp only [check, ne_eq, hr, not_false_eq_true, ↓reduceIte]
          rfl
        · simpa using ⟨[], nil_prefix, by simpa⟩
      subst hr
      -- the empty string is not stored, so a stored prefix begins with `c`
      have hstored : (∃ k, k <+: c :: data ∧ get k (node 0 min count live next) ≠ 0) ↔
          ∃ k, k <+: data ∧ get k (slot min count next c.toNat) ≠ 0 := by
        constructor
        · rintro ⟨k, hk, hne⟩
          cases k with
          | nil => simp at hne
          | cons a k =>
            obtain ⟨hac, hk'⟩ := cons_prefix_cons.mp hk
            exact ⟨k, hk', by simpa [hac] using hne⟩
        · rintro ⟨k, hk, hne⟩
          exact ⟨c :: k, cons_prefix_cons.mpr ⟨rfl, hk⟩, by simpa using hne⟩
      rw [hstored, check_cons hshape]
      cases hl : (slot min count next c.toNat).isLive with
      | false =>
        refine ⟨false, rfl, ?_⟩
        rw [eq_null hl]
        simp [default_eq]
      | true =>
        rw [if_pos rfl]
        exact ih (hslots c.toNat).1 hl

lemma foldlM_applyChild {size max : ℕ} {min : UInt8}
    {visit : ℕ → Buffer → Except TrieFault (List (List UInt8) × Buffer)} {q : UInt32 → Bool}
    {buff0 : Buffer} (hmax : size < max) (is : List ℕ)
    (hvisit : ∀ i ∈ is, (next i).isLive = true → ∀ buff : Buffer, max ≤ buff.capacity →
      ∃ buff', visit i buff =
          .ok ((keysWhere q (next i)).map (buff.contents (size + 1) ++ ·), buff') ∧
        max ≤ buff'.capacity ∧ buff.Agree (size + 1) buff')
    (calls : List (List UInt8)) {buff : Buffer} (hcap : max ≤ buff.capacity)
    (hagree : buff0.Agree size buff) :
    ∃ buff', is.foldlM (applyChild size min next visit) (calls, buff) =
        .ok (calls ++ is.flatMap (fun i => (keysWhere q (next i)).map
          fun k => buff0.contents size ++ UInt8.ofNat (min.toNat + i) :: k), buff') ∧
      max ≤ buff'.capacity ∧ buff0.Agree size buff' := by
  induction is generalizing calls buff with
  | nil => exact ⟨buff, by simp; rfl, hcap, hagree⟩
  | cons i is ih =>
    obtain ⟨buff1, hput, hcap1, hagree1, hcont⟩ :=
      buff.put_spec size (UInt8.ofNat (min.toNat + i)) (lt_of_lt_of_le hmax hcap)
    have hvisit' := fun j hj => hvisit j (mem_cons_of_mem i hj)
    rw [foldlM_cons]
    cases hl : (next i).isLive with
    | false =>
      have hstep : applyChild size min next visit (calls, buff) i = .ok (calls, buff1) := by
        simp only [applyChild, hput, hl, bind, Except.bind]
        rfl
      have hnil : keysWhere q (next i) = [] := by rw [eq_null hl]; rfl
      obtain ⟨buff2, hrun, hrest⟩ := ih hvisit' calls (hcap1 ▸ hcap) (hagree.trans hagree1)
      refine ⟨buff2, ?_, hrest⟩
      simp only [hstep, bind, Except.bind, hrun, flatMap_cons, hnil, map_nil,
        nil_append]
    | true =>
      obtain ⟨buff2, hv, hcap2, hagree2⟩ :=
        hvisit i mem_cons_self hl buff1 (hcap1 ▸ hcap)
      have hkeys : (keysWhere q (next i)).map (buff1.contents (size + 1) ++ ·) =
          (keysWhere q (next i)).map
            fun k => buff0.contents size ++ UInt8.ofNat (min.toNat + i) :: k := by
        simp only [hcont, hagree.contents_eq, append_assoc, cons_append,
          nil_append]
      rw [hkeys] at hv
      have hstep : applyChild size min next visit (calls, buff) i = .ok (calls ++
          (keysWhere q (next i)).map
            (fun k => buff0.contents size ++ UInt8.ofNat (min.toNat + i) :: k), buff2) := by
        simp only [applyChild, hput, hl, bind, Except.bind, hv]
        rfl
      have hagree' : buff0.Agree size buff2 :=
        (hagree.trans hagree1).trans fun j hj => hagree2 j (by omega)
      obtain ⟨buff3, hrun, hrest⟩ := ih hvisit' (calls ++ (keysWhere q (next i)).map
        fun k => buff0.contents size ++ UInt8.ofNat (min.toNat + i) :: k) hcap2 hagree'
      refine ⟨buff3, ?_, hrest⟩
      simp only [hstep, bind, Except.bind, hrun, flatMap_cons, append_assoc]

/-- `apply_helper` calls the function with the stored strings, each behind the bytes in the buffer,
and gives the buffer back with these bytes in it. -/
lemma applyHelper_spec (hwf : WF t) (hlive : t.isLive = true) (buff : Buffer)
    (size max : ℕ) (hcap : max ≤ buff.capacity) :
    ∃ buff', applyHelper t buff size max =
        .ok ((keysWhere stored t).map (buff.contents size ++ ·), buff') ∧
      max ≤ buff'.capacity ∧ buff.Agree size buff' := by
  induction t generalizing buff size max with
  | null => simp at hlive
  | node refcnt min count live next ih =>
    obtain ⟨hshape, hchildren⟩ := hwf
    obtain ⟨hbytes, hlt, hle, hcap1⟩ := buff.adjust_spec size hcap
    obtain ⟨⟨buff1, max1⟩, hadj⟩ : ∃ r, r = buff.adjust size max := ⟨_, rfl⟩
    rw [← hadj] at hbytes hlt hle hcap1
    dsimp only at hbytes hlt hle hcap1
    have hagree1 : buff.Agree size buff1 := fun i _ => congrFun hbytes i
    have hcalls : ((if stored refcnt then [[]] else []).map (buff.contents size ++ ·)) =
        if refcnt ≠ 0 then [buff.contents size] else [] := by
      by_cases hr : refcnt = 0 <;> simp [stored, hr]
    rw [keysWhere, map_append, hcalls, map_flatMap]
    simp only [applyHelper, ← hadj]
    by_cases h0 : count = 0
    · subst h0
      exact ⟨buff1, by simp; rfl, by omega, hagree1⟩
    by_cases h1 : count = 1
    · subst h1
      have hl := hshape.first (by omega)
      obtain ⟨buff2, hput, hcap2, hagree2, hcont⟩ := buff1.put_spec size min (by omega)
      obtain ⟨buff3, hrun, hcap3, hagree3⟩ := ih 0 (hchildren 0 (by omega)).1 hl buff2 (size + 1)
        max1 (by omega)
      refine ⟨buff3, ?_, by omega, ?_⟩
      · simp only [h0, ↓reduceIte, hput, hrun, bind, Except.bind, hcont, hagree1.contents_eq]
        simp only [range_one, flatMap_cons, flatMap_nil, append_nil,
          map_map, comp_def, append_assoc, cons_append, nil_append,
          add_zero, UInt8.ofNat_toNat]
        rfl
      · exact (hagree1.trans hagree2).trans fun j hj => hagree3 j (by omega)
    · obtain ⟨buff2, hrun, hcap2, hagree2⟩ := foldlM_applyChild hlt (range count)
        (fun i hi hl buff hcap => ih i (hchildren i (mem_range.mp hi)).1 hl buff (size + 1)
          max1 hcap) (if refcnt ≠ 0 then [buff.contents size] else []) hcap1 fun _ _ => rfl
      refine ⟨buff2, ?_, hle.trans hcap2, hagree1.trans hagree2⟩
      simp only [h0, h1, ↓reduceIte]
      refine hrun.trans ?_
      simp only [hagree1.contents_eq, map_map, comp_def]

lemma apply_spec (hwf : WF t) (hlive : t.isLive = true) :
    apply t = .ok (keysWhere stored t) := by
  obtain ⟨buff, hrun, -⟩ := applyHelper_spec hwf hlive Buffer.null 0 0 (le_refl _)
  simp only [apply, hrun, bind, bind]
  simp [Buffer.contents]
  rfl

end Trie

/-! ### The multiset of strings -/

/-- The operations of a trie. -/
inductive TrieOp
  | add (key : List UInt8)
  | rm (key : List UInt8)
  | check (data : List UInt8)
  | apply

/-- Their results; the calls of the function given to `apply` in no particular order. -/
inductive TrieOutput
  | bool (b : Bool)
  | calls (keys : Multiset (List UInt8))

namespace Trie

open Node Foundation

/-- An operation of the trie. -/
def step (t : Trie) : TrieOp → Except TrieFault (TrieOutput × Trie)
  | .add key => do
    let (b, t) ← add key t
    return (.bool b, t)
  | .rm key => do
    let (b, t) ← rm key t
    return (.bool b, t)
  | .check data => do
    let b ← check data t
    return (.bool b, t)
  | .apply => do
    let calls ← apply t
    return (.calls calls, t)

/-- What a trie is for: the same operations on a multiset of strings. -/
def spec (S : Multiset (List UInt8)) :
    TrieOp → TrieOutput × Multiset (List UInt8)
  | .add key => (.bool (S.count key = 0), key ::ₘ S)
  | .rm key => (.bool (S.count key = 1), S.erase key)
  | .check data => (.bool (0 < S.countP (· <+: data)), S)
  | .apply => (.calls S.dedup, S)

/-- The reference count has room for an addition. -/
def Fits (S : Multiset (List UInt8)) : TrieOp → Prop
  | .add key => S.count key + 1 < 2 ^ 32
  | _ => True

/-- The trie stores the multiset. -/
structure Represents (t : Trie) (S : Multiset (List UInt8)) : Prop where
  wf : WF t
  live : t.isLive = true
  count : ∀ key, (get key t).toNat = S.count key

lemma Represents.new : Represents Node.new 0 :=
  ⟨wf_new, rfl, fun key => by simp [default_eq]⟩

variable {t : Trie} {S : Multiset (List UInt8)}

lemma Represents.get_eq_zero (h : Represents t S)
    (key : List UInt8) : get key t = 0 ↔ S.count key = 0 := by
  rw [← h.count key, ← UInt32.toNat_inj]
  rfl

lemma Represents.rm_absent (h : Represents t S)
    {key : List UInt8} (hkey : S.count key = 0) : rm key t = .ok (false, t) :=
  rmHelper_of_default (b := false) rfl key h.wf h.live ((h.get_eq_zero key).mpr hkey)

lemma Represents.add {t : Trie} {S : Multiset (List UInt8)} (h : Represents t S)
    {key : List UInt8} (hfits : S.count key + 1 < 2 ^ 32) :
    ∃ t', Trie.add key t = .ok (decide (S.count key = 0), t') ∧ Represents t' (key ::ₘ S) := by
  have hcount := h.count key
  have hnat : (get key t + 1).toNat = S.count key + 1 := by
    rw [UInt32.toNat_add, hcount]
    exact mod_eq_of_lt hfits
  have hne : get key t + 1 ≠ 0 := fun heq => by
    rw [heq] at hnat
    simp at hnat
  have hiff : get key t + 1 = 1 ↔ S.count key = 0 := by
    rw [← UInt32.toNat_inj, hnat]
    simp
  obtain ⟨t', hok, hwf, hlive, hget⟩ := add_spec key h.wf h.live hne
  refine ⟨t', ?_, hwf, hlive, fun k => ?_⟩
  · rw [hok]
    simp only [hiff]
  rw [hget, Multiset.count_cons]
  split
  next hk => rw [hk, hnat]
  next => rw [h.count k, add_zero]

lemma Represents.rm (h : Represents t S)
    (key : List UInt8) :
    ∃ t', Trie.rm key t = .ok (decide (S.count key = 1), t') ∧ Represents t' (S.erase key) := by
  by_cases hzero : S.count key = 0
  · refine ⟨t, ?_, ?_⟩
    · rw [h.rm_absent hzero, hzero]
      rfl
    · rwa [Multiset.erase_of_notMem (Multiset.count_eq_zero.mp hzero)]
  · have hne : get key t ≠ 0 := (h.get_eq_zero key).not.mpr hzero
    have hcount := h.count key
    have hlt := (get key t).toNat_lt
    have hnat : (get key t - 1).toNat = S.count key - 1 := by
      rw [UInt32.toNat_sub, hcount]
      simp only [UInt32.toNat_one]
      omega
    have hiff : get key t - 1 = 0 ↔ S.count key = 1 := by
      rw [← UInt32.toNat_inj, hnat]
      simp only [UInt32.toNat_zero]
      omega
    obtain ⟨t', hok, hwf, hlive, hget⟩ := rm_spec key h.wf hne
    refine ⟨t', ?_, hwf, hlive, fun k => ?_⟩
    · rw [hok]
      simp only [hiff]
    rw [hget]
    split
    next hk => rw [hk, hnat, Multiset.count_erase_self]
    next hk => rw [h.count k, Multiset.count_erase_of_ne hk]

lemma Represents.apply (h : Represents t S) :
    ∃ calls, Trie.apply t = .ok calls ∧ (calls : Multiset (List UInt8)) = S.dedup := by
  refine ⟨_, apply_spec h.wf h.live, ?_⟩
  have hnodup : (keysWhere stored t : Multiset (List UInt8)).Nodup := nodup_keysWhere h.wf
  refine (hnodup.ext (Multiset.nodup_dedup S)).mpr fun k => ?_
  rw [Multiset.mem_coe, mem_keysWhere rfl h.wf, Multiset.mem_dedup, ← Multiset.count_ne_zero, ne_eq,
    ← h.get_eq_zero k]
  simp [stored]

lemma Represents.step (h : Represents t S) (op : TrieOp)
    (hfits : Fits S op) :
    ∃ t', Trie.step t op = .ok ((spec S op).1, t') ∧ Represents t' (spec S op).2 := by
  cases op with
  | add key =>
    obtain ⟨t', hok, ht'⟩ := h.add hfits
    refine ⟨t', ?_, ht'⟩
    simp only [Trie.step, hok, bind, Except.bind, spec]
    rfl
  | rm key =>
    obtain ⟨t', hok, ht'⟩ := h.rm key
    refine ⟨t', ?_, ht'⟩
    simp only [Trie.step, hok, bind, Except.bind, spec]
    rfl
  | check data =>
    obtain ⟨b, hok, hiff⟩ := check_spec data h.wf h.live
    refine ⟨t, ?_, h⟩
    have hb : b = decide (0 < S.countP (· <+: data)) := by
      rw [Bool.eq_iff_iff, hiff, decide_eq_true_iff, Multiset.countP_pos]
      constructor
      · rintro ⟨k, hk, hne⟩
        exact ⟨k, Multiset.count_ne_zero.mp ((h.get_eq_zero k).not.mp hne), hk⟩
      · rintro ⟨k, hk, hdata⟩
        exact ⟨k, hdata, (h.get_eq_zero k).not.mpr (Multiset.count_ne_zero.mpr hk)⟩
    simp only [Trie.step, hok, bind, Except.bind, spec, hb]
    rfl
  | apply =>
    obtain ⟨calls, hok, hcalls⟩ := h.apply
    refine ⟨t, ?_, h⟩
    simp only [Trie.step, hok, bind, Except.bind, spec, hcalls]
    rfl

end Trie

open Foundation in
/-- **The trie refines a multiset of strings.** In every sequence of operations in which no string is
stored `2 ^ 32` times, no assertion fails and no pointer is null or out of bounds, every result is the
one the operation has on the multiset, and the representation is well formed afterwards. A string
that is not stored can be removed without a trace. -/
theorem trie_refines_multiset (ops : List TrieOp) (hfits : InputsMeet Trie.spec Trie.Fits 0 ops) :
    ∃ t, runMachine Trie.step Node.new ops = .ok ((runSpec Trie.spec 0 ops).1, t) ∧
      Trie.Represents t (runSpec Trie.spec 0 ops).2 ∧
      ∀ key, (runSpec Trie.spec 0 ops).2.count key = 0 → Trie.rm key t = .ok (false, t) := by
  obtain ⟨t, hrun, ht⟩ := refines_run (R := Trie.Represents)
    (fun t S op h hop => Trie.Represents.step h op hop) Trie.Represents.new hfits
  exact ⟨t, hrun, ht, fun key hkey => ht.rm_absent hkey⟩

/-- Two additions of a string and their removal, with a second string that keeps the table open. -/
theorem trie_refines_multiset_example :
    ∃ t, Foundation.runMachine Trie.step Node.new
        [.add [1, 2], .add [1, 2], .add [3], .rm [1, 2], .check [1, 2, 7], .rm [1, 2], .apply] =
      .ok ((Foundation.runSpec Trie.spec 0 [.add [1, 2], .add [1, 2], .add [3], .rm [1, 2],
        .check [1, 2, 7], .rm [1, 2], .apply]).1, t) ∧
      Trie.Represents t (Foundation.runSpec Trie.spec 0 [.add [1, 2], .add [1, 2], .add [3],
        .rm [1, 2], .check [1, 2, 7], .rm [1, 2], .apply]).2 ∧
      ∀ key, (Foundation.runSpec Trie.spec 0 [.add [1, 2], .add [1, 2], .add [3],
        .rm [1, 2], .check [1, 2, 7], .rm [1, 2], .apply]).2.count key = 0 →
          Trie.rm key t = .ok (false, t) :=
  trie_refines_multiset _ (by simp [Foundation.InputsMeet, Trie.spec, Trie.Fits])

namespace Trie

open Node Foundation

lemma runMachine_replicate_add (n : ℕ) (refcnt : UInt32) :
    ∃ outs, runMachine step (node refcnt 0 0 0 fun _ => .null) (replicate n (.add [])) =
      .ok (outs, node (refcnt + UInt32.ofNat n) 0 0 0 fun _ => .null) := by
  induction n generalizing refcnt with
  | zero => exact ⟨[], by simp [runMachine]⟩
  | succ n ih =>
    obtain ⟨outs, hrun⟩ := ih (refcnt + 1)
    have hsum : refcnt + 1 + UInt32.ofNat n = refcnt + UInt32.ofNat (n + 1) := by
      rw [UInt32.ofNat_add, UInt32.add_assoc, UInt32.add_comm 1 (UInt32.ofNat n)]
      rfl
    refine ⟨.bool (refcnt + 1 = 1) :: outs, ?_⟩
    rw [replicate_succ, runMachine]
    have hstep : step (node refcnt 0 0 0 fun _ => .null) (.add []) =
        .ok (.bool (refcnt + 1 = 1), node (refcnt + 1) 0 0 0 fun _ => .null) := rfl
    rw [hstep]
    simp only [hrun, hsum]

lemma runSpec_replicate_add (n : ℕ) (S : Multiset (List UInt8)) :
    (runSpec spec S (replicate n (.add []))).2 = Multiset.replicate n [] + S := by
  induction n generalizing S with
  | zero => simp [runSpec]
  | succ n ih =>
    rw [replicate_succ, runSpec]
    simp only [ih, spec]
    rw [Multiset.replicate_succ, Multiset.cons_add, Multiset.add_cons]

end Trie

/-- After `2 ^ 32` additions of the empty string, which is a prefix of everything, `check` finds
nothing. -/
theorem trie_refcnt_wraps :
    (∃ outs t, Foundation.runMachine Trie.step Node.new
        (replicate (2 ^ 32) (.add []) ++ [.check []]) = .ok (outs ++ [.bool false], t)) ∧
      (Trie.spec (Foundation.runSpec Trie.spec 0 (replicate (2 ^ 32) (.add []))).2
        (.check [])).1 = .bool true := by
  constructor
  · obtain ⟨outs, hrun⟩ := Trie.runMachine_replicate_add (2 ^ 32) 0
    have hzero : (0 : UInt32) + UInt32.ofNat (2 ^ 32) = 0 := by decide
    rw [hzero] at hrun
    exact ⟨outs, _, Foundation.runMachine_append hrun rfl⟩
  · rw [Trie.runSpec_replicate_add]
    have hpos : 0 < (Multiset.replicate (2 ^ 32) [] + 0 : Multiset (List UInt8)).countP
        (· <+: []) := by
      rw [Multiset.countP_pos]
      refine ⟨[], ?_, prefix_rfl⟩
      rw [Multiset.add_zero, Multiset.mem_replicate]
      exact ⟨by decide, rfl⟩
    simp only [Trie.spec, hpos, decide_true]

end Zmq
