import ZeroMQ.Trie.Node

/-!
# Removing keys

Removing walks to the node of a key and changes its payload; on the way back, a child that has become
redundant is deleted and the table of its parent is compacted. The two classes compact their tables
in different ways, so the walk is over an arbitrary compaction, and `PruneSpec` says what the walk
needs of it. `shape_window` is the fact all compactions rest on: a table may be cut down to any part
that contains all its children and begins and ends with one.
-/

namespace Zmq

open Function Finset Nat

namespace Node

variable {ρ : Type}

/-- The fields of a node after its table was compacted. -/
structure Children (ρ : Type) extends Table ρ where
  live : ℕ

/-- The loop `for (; i < count; ++i) if (p (i)) break;`, with `n` bytes left. -/
def scanUp (p : ℕ → Bool) : ℕ → ℕ → ℕ
  | i, 0 => i
  | i, n + 1 => if p i then i else scanUp p (i + 1) n

/-- The walk of `trie_t::rm` and `mtrie_t::rm_helper`: `leave` changes the payload of the key and
gives the result, `prune` deletes the child for a byte and compacts the table. -/
def rmHelper [Inhabited ρ] [DecidableEq ρ] (leave : ρ → Except TrieFault (Bool × ρ))
    (prune : Children ρ → UInt8 → Except TrieFault (Children ρ)) :
    List UInt8 → Node ρ → Except TrieFault (Bool × Node ρ)
  | _, .null => .error .nullPointer
  | [], .node payload min count live next => do
    let (ret, payload) ← leave payload
    return (ret, .node payload min count live next)
  | c :: key, .node payload min count live next => do
    if count = 0 || outOfRange min count c then return (false, .node payload min count live next)
    let i := if count = 1 then 0 else c.toNat - min.toNat
    let child ← index count next i
    if !child.isLive then return (false, .node payload min count live next)
    let (ret, child) ← rmHelper leave prune key child
    if child.isRedundant then
      let t ← prune ⟨⟨min, count, next⟩, live⟩ c
      return (ret, .node payload t.min t.count t.live t.next)
    else return (ret, .node payload min count live (update next i child))

/-! ### Cutting a table -/

lemma scanUp_spec (p : ℕ → Bool) (i n : ℕ) :
    i ≤ scanUp p i n ∧ scanUp p i n ≤ i + n ∧ (∀ j, i ≤ j → j < scanUp p i n → p j = false) ∧
      (scanUp p i n < i + n → p (scanUp p i n) = true) := by
  induction n generalizing i with
  | zero =>
    refine ⟨le_refl _, le_refl _, fun j h1 h2 => ?_, fun h => ?_⟩ <;> simp only [scanUp] at * <;> omega
  | succ n ih =>
    rw [scanUp]
    split
    next hp =>
      exact ⟨le_refl _, by omega, fun j h1 h2 => by omega, fun _ => hp⟩
    next hp =>
      obtain ⟨h1, h2, h3, h4⟩ := ih (i + 1)
      refine ⟨by omega, by omega, fun j hj hlt => ?_, fun h => h4 (by omega)⟩
      by_cases hji : j = i
      · rw [hji]
        simpa using hp
      · exact h3 j (by omega) hlt

lemma scanUp_le {p : ℕ → Bool} {i k : ℕ} (n : ℕ) (h1 : i ≤ k) (hk : p k = true) :
    scanUp p i n ≤ k := by
  by_contra hlt
  have := (scanUp_spec p i n).2.2.1 k h1 (by omega)
  rw [hk] at this
  exact absurd this (by decide)

section Window

variable {min min' : UInt8} {count count' lo hi : ℕ} {next next' : ℕ → Node ρ}

/-- A table is cut down to the part from `lo` to `hi`, which contains all its children and begins and
ends with one. -/
lemma shape_window (hb : min.toNat + count ≤ 256) (hle : lo ≤ hi) (hhi : hi < count)
    (hfirst : (next lo).isLive = true) (hlast : (next hi).isLive = true)
    (hout : ∀ i < count, (next i).isLive = true → lo ≤ i ∧ i ≤ hi)
    (hmin : min'.toNat = min.toNat + lo) (hcount : count' = hi - lo + 1)
    (hnext : ∀ i < count', next' i = next (lo + i)) :
    slot min' count' next' = slot min count next ∧
      Shape min' count' (liveSet (slot min count next)).card next' := by
  have hslot : slot min' count' next' = slot min count next := by
    funext n
    by_cases hm : min.toNat + lo ≤ n ∧ n ≤ min.toNat + hi
    · rw [slot_of_mem _ (by omega) (by omega), slot_of_mem _ (by omega) (by omega),
        hnext _ (by omega)]
      congr 1
      omega
    · rw [slot_of_not_mem _ (by omega)]
      symm
      refine eq_null ?_
      by_contra hl
      have hl' : (slot min count next n).isLive = true := by simpa using hl
      have hrange := mem_range hl'
      rw [slot_of_mem _ hrange.1 hrange.2] at hl'
      have := hout _ (by omega) hl'
      omega
  refine ⟨hslot, by omega, by rw [hslot], fun _ => ?_, fun _ => ?_⟩
  · rw [hnext 0 (by omega), Nat.add_zero]
    exact hfirst
  · rw [hnext _ (by omega), show lo + (count' - 1) = hi by omega]
    exact hlast

lemma shape_empty (hnone : liveSet (slot min count next) = ∅) (hb : min.toNat + count ≤ 256)
    (next' : ℕ → Node ρ) :
    slot min 0 next' = slot min count next ∧ Shape min 0 0 next' := by
  have hslot : slot min 0 next' = slot min count next := by
    funext n
    rw [slot_of_not_mem _ (by omega)]
    symm
    refine eq_null ?_
    by_contra hl
    have hl' : (slot min count next n).isLive = true := by simpa using hl
    have hrange := mem_range hl'
    have hmem : n ∈ liveSet (slot min count next) := mem_liveSet.mpr ⟨by omega, hl'⟩
    rw [hnone] at hmem
    exact absurd hmem (notMem_empty n)
  refine ⟨hslot, by omega, ?_, by simp, by simp⟩
  rw [hslot, hnone]
  rfl

lemma slot_one (min : UInt8) (next : ℕ → Node ρ) (n : ℕ) :
    slot min 1 next n = if n = min.toNat then next 0 else .null := by
  split
  next hn =>
    rw [slot_of_mem _ (by omega) (by omega), hn, Nat.sub_self]
  next hn => exact slot_of_not_mem _ (by omega)

lemma liveSet_one (min : UInt8) {next : ℕ → Node ρ} (hl : (next 0).isLive = true) :
    liveSet (slot min 1 next) = {min.toNat} := by
  ext n
  rw [mem_liveSet, mem_singleton, slot_one]
  constructor
  · rintro ⟨-, h⟩
    by_contra hne
    rw [if_neg hne] at h
    simp at h
  · rintro rfl
    rw [if_pos rfl]
    exact ⟨min.toNat_lt, hl⟩

lemma shape_one (min : UInt8) {next : ℕ → Node ρ} (hl : (next 0).isLive = true) :
    Shape min 1 1 next := by
  refine ⟨min.toNat_lt, ?_, fun _ => hl, fun _ => hl⟩
  rw [liveSet_one min hl, card_singleton]

end Window

/-- A table from which the child for the byte `c` was deleted, before it is compacted: `next` is the
table with the null pointer, `live` the number of children left. -/
structure Erased (f : ℕ → Node ρ) (c min : UInt8) (count live : ℕ) (next : ℕ → Node ρ) : Prop where
  bound : min.toNat + count ≤ 256
  low : min.toNat ≤ c.toNat
  high : c.toNat < min.toNat + count
  slot_eq : slot min count next = update f c.toNat null
  live_eq : live = (liveSet (slot min count next)).card
  null : (next (c.toNat - min.toNat)).isLive = false
  first : c ≠ min → (next 0).isLive = true
  last : c.toNat ≠ min.toNat + (count - 1) → (next (count - 1)).isLive = true

lemma Shape.erased {min : UInt8} {count live : ℕ} {next : ℕ → Node ρ}
    (h : Shape min count live next) {c : UInt8}
    (hc : (slot min count next c.toNat).isLive = true) :
    Erased (slot min count next) c min count (live - 1)
      (update next (c.toNat - min.toNat) null) := by
  obtain ⟨hlow, hhigh⟩ := mem_range hc
  have hslot := slot_update next hlow hhigh null
  have hmem : c.toNat ∈ liveSet (slot min count next) := mem_liveSet.mpr ⟨c.toNat_lt, hc⟩
  refine ⟨h.bound, hlow, hhigh, hslot, ?_, by simp, fun hne => ?_, fun hne => ?_⟩
  · rw [hslot, liveSet_update_null, card_erase_of_mem hmem, ← h.live_eq]
  · have : c.toNat ≠ min.toNat := fun heq => hne (UInt8.toNat_inj.mp heq)
    rw [update_of_ne (by omega)]
    exact h.first (by omega)
  · rw [update_of_ne (by omega)]
    exact h.last (by omega)

namespace Erased

variable {f : ℕ → Node ρ} {c min : UInt8} {count live : ℕ} {next : ℕ → Node ρ}

section

variable (h : Erased f c min count live next)

include h

lemma mem_liveSet_add {i : ℕ} (hi : i < count)
    (hl : (next i).isLive = true) : min.toNat + i ∈ liveSet (slot min count next) := by
  have := h.bound
  rw [mem_liveSet, slot_add _ _ hi]
  exact ⟨by omega, hl⟩

lemma liveSet_eq_empty (hone : count = 1) :
    liveSet (slot min count next) = ∅ := by
  have hlow := h.low
  have hhigh := h.high
  refine eq_empty_iff_forall_notMem.mpr fun n hn => ?_
  obtain ⟨-, hl⟩ := mem_liveSet.mp hn
  obtain ⟨h1, h2⟩ := mem_range hl
  have hnull := h.null
  rw [slot_of_mem _ h1 h2, show n = c.toNat by omega, hnull] at hl
  exact absurd hl (by decide)

lemma exists_live (hmany : count ≠ 1) :
    ∃ i < count, (next i).isLive = true := by
  have hlow := h.low
  have hhigh := h.high
  by_cases hc : c = min
  · subst hc
    exact ⟨count - 1, by omega, h.last (by omega)⟩
  · exact ⟨0, by omega, h.first hc⟩

lemma live_pos (hmany : count ≠ 1) : 0 < live := by
  obtain ⟨i, hi, hl⟩ := h.exists_live hmany
  rw [h.live_eq]
  exact card_pos.mpr ⟨_, h.mem_liveSet_add hi hl⟩

lemma unique (hone : live = 1) {i j : ℕ} (hi : i < count)
    (hj : j < count) (hli : (next i).isLive = true) (hlj : (next j).isLive = true) : i = j := by
  have hcard := h.live_eq
  rw [hone] at hcard
  have := card_le_one.mp hcard.symm.le _ (h.mem_liveSet_add hi hli) _
    (h.mem_liveSet_add hj hlj)
  omega

lemma window {lo hi : ℕ} (hle : lo ≤ hi) (hhi : hi < count)
    (hfirst : (next lo).isLive = true) (hlast : (next hi).isLive = true)
    (hout : ∀ i < count, (next i).isLive = true → lo ≤ i ∧ i ≤ hi) {min' : UInt8} {n : ℕ}
    {next' : ℕ → Node ρ} (hmin : min'.toNat = min.toNat + lo) (hn : n = hi - lo + 1)
    (hnext : ∀ i < n, next' i = next (lo + i)) :
    Shape min' n live next' ∧ slot min' n next' = update f c.toNat Node.null := by
  obtain ⟨hslot, hshape⟩ := shape_window h.bound hle hhi hfirst hlast hout hmin hn hnext
  rw [← h.live_eq] at hshape
  exact ⟨hshape, hslot.trans h.slot_eq⟩

lemma single (hone : live = 1) {i : ℕ} (hi : i < count)
    (hli : (next i).isLive = true) {min' : UInt8} (hmin : min'.toNat = min.toNat + i)
    (next' : ℕ → Node ρ) (hnext : next' 0 = next i) :
    Shape min' 1 live next' ∧ slot min' 1 next' = update f c.toNat Node.null := by
  refine h.window (le_refl i) hi hli hli (fun j hj hlj => ?_) hmin (by omega) fun j hj => ?_
  · have := h.unique hone hi hj hli hlj
    omega
  · rw [show j = 0 by omega, hnext, Nat.add_zero]

lemma scan_left (hmany : count ≠ 1) (hc : c = min) :
    let i := scanUp (fun i => (next i).isLive) 1 (count - 1)
    1 ≤ i ∧ i < count ∧ (next i).isLive = true ∧
      ∀ j < count, (next j).isLive = true → i ≤ j ∧ j ≤ count - 1 := by
  intro i
  have hhigh := h.high
  have hlow := h.low
  subst hc
  have hlast := h.last (by omega)
  obtain ⟨h1, -, h3, h4⟩ := scanUp_spec (fun i => (next i).isLive) 1 (count - 1)
  have hle : i ≤ count - 1 := scanUp_le (count - 1) (by omega) hlast
  refine ⟨h1, by omega, h4 (by omega), fun j hj hl => ⟨?_, by omega⟩⟩
  by_contra hlt
  rcases Nat.eq_zero_or_pos j with rfl | hpos
  · have := h.null
    rw [Nat.sub_self, hl] at this
    exact absurd this (by decide)
  · have := h3 j (by omega) (by omega)
    simp only [hl] at this
    exact absurd this (by decide)

lemma scan_right (hmany : count ≠ 1)
    (hc : c.toNat = min.toNat + (count - 1)) :
    let i := scanUp (fun i => (next (count - 1 - i)).isLive) 1 (count - 1)
    1 ≤ i ∧ i < count ∧ (next (count - 1 - i)).isLive = true ∧
      ∀ j < count, (next j).isLive = true → 0 ≤ j ∧ j ≤ count - 1 - i := by
  intro i
  have hhigh := h.high
  have hlow := h.low
  have hfirst := h.first fun heq => by rw [heq] at hc; omega
  obtain ⟨h1, -, h3, h4⟩ := scanUp_spec (fun i => (next (count - 1 - i)).isLive) 1 (count - 1)
  have hle : i ≤ count - 1 := by
    refine scanUp_le (count - 1) (by omega) ?_
    rw [Nat.sub_self]
    exact hfirst
  refine ⟨h1, by omega, h4 (by omega), fun j hj hl => ⟨Nat.zero_le _, ?_⟩⟩
  by_contra hlt
  by_cases hj' : j = count - 1
  · have := h.null
    rw [hc, Nat.add_sub_cancel_left, ← hj', hl] at this
    exact absurd this (by decide)
  · have := h3 (count - 1 - j) (by omega) (by omega)
    simp only [show count - 1 - (count - 1 - j) = j by omega, hl] at this
    exact absurd this (by decide)

lemma only (hone : count = 1) (next' : ℕ → Node ρ) :
    live = 0 ∧ Shape min 0 0 next' ∧ slot min 0 next' = update f c.toNat Node.null := by
  have hempty := h.liveSet_eq_empty hone
  obtain ⟨hslot, hshape⟩ := shape_empty hempty h.bound next'
  refine ⟨?_, hshape, hslot.trans h.slot_eq⟩
  rw [h.live_eq, hempty, card_empty]

lemma left (hmany : count ≠ 1) (hc : c = min) :
    let i := scanUp (fun i => (next i).isLive) 1 (count - 1)
    1 ≤ i ∧ i < count ∧ ∀ min' : UInt8, min'.toNat = min.toNat + i →
      Shape min' (count - i) live (fun j => next (i + j)) ∧
        slot min' (count - i) (fun j => next (i + j)) = update f c.toNat Node.null := by
  intro i
  have hhigh := h.high
  have hlow := h.low
  obtain ⟨h1, h2, h3, h4⟩ : 1 ≤ i ∧ i < count ∧ (next i).isLive = true ∧
    ∀ j < count, (next j).isLive = true → i ≤ j ∧ j ≤ count - 1 := h.scan_left hmany hc
  refine ⟨h1, h2, fun min' hmin => ?_⟩
  have hlast := h.last (by rw [hc]; omega)
  exact h.window (by omega) (by omega) h3 hlast h4 hmin (by omega) fun j _ => rfl

lemma right (hmany : count ≠ 1)
    (hc : c.toNat = min.toNat + (count - 1)) :
    let i := scanUp (fun i => (next (count - 1 - i)).isLive) 1 (count - 1)
    1 ≤ i ∧ i < count ∧ Shape min (count - i) live next ∧
      slot min (count - i) next = update f c.toNat Node.null := by
  intro i
  have hhigh := h.high
  have hlow := h.low
  have hfirst := h.first fun heq => by rw [heq] at hc; omega
  obtain ⟨h1, h2, h3, h4⟩ : 1 ≤ i ∧ i < count ∧ (next (count - 1 - i)).isLive = true ∧
    ∀ j < count, (next j).isLive = true → 0 ≤ j ∧ j ≤ count - 1 - i := h.scan_right hmany hc
  refine ⟨h1, h2, ?_⟩
  exact h.window (by omega) (by omega) hfirst h3 h4 (Nat.add_zero _).symm (by omega)
    fun j _ => by rw [Nat.zero_add]

lemma middle (hfirst : c ≠ min)
    (hlast : c.toNat ≠ min.toNat + (count - 1)) :
    Shape min count live next ∧ slot min count next = update f c.toNat Node.null := by
  have hhigh := h.high
  have hlow := h.low
  exact h.window (by omega) (by omega) (h.first hfirst) (h.last hlast)
    (fun j hj _ => ⟨Nat.zero_le _, by omega⟩) (Nat.add_zero _).symm (by omega)
    fun j _ => by rw [Nat.zero_add]

end

end Erased

/-- What the walk needs of a compaction. -/
def PruneSpec (prune : Children ρ → UInt8 → Except TrieFault (Children ρ)) : Prop :=
  ∀ (min : UInt8) (count live : ℕ) (next : ℕ → Node ρ) (c : UInt8), Shape min count live next →
    (slot min count next c.toNat).isLive = true →
    ∃ t, prune ⟨⟨min, count, next⟩, live⟩ c = .ok t ∧ Shape t.min t.count t.live t.next ∧
      slot t.min t.count t.next = update (slot min count next) c.toNat null

section Walk

variable [Inhabited ρ] [DecidableEq ρ] {leave : ρ → Except TrieFault (Bool × ρ)}
  {prune : Children ρ → UInt8 → Except TrieFault (Children ρ)}

lemma rmHelper_cons {p : ρ} {min : UInt8} {count live : ℕ} {next : ℕ → Node ρ}
    (c : UInt8) (key : List UInt8) :
    let child := slot min count next c.toNat
    rmHelper leave prune (c :: key) (node p min count live next) =
      if child.isLive then do
        let (ret, child) ← rmHelper leave prune key child
        if child.isRedundant then
          let t ← prune ⟨⟨min, count, next⟩, live⟩ c
          return (ret, .node p t.min t.count t.live t.next)
        else return (ret, .node p min count live
          (update next (c.toNat - min.toNat) child))
      else .ok (false, node p min count live next) := by
  intro child
  by_cases hrange : min.toNat ≤ c.toNat ∧ c.toNat < min.toNat + count
  · have hslot : child = next (c.toNat - min.toNat) := slot_of_mem _ hrange.1 hrange.2
    have hguard : (decide (count = 0) || outOfRange min count c) = false := by
      simp only [outOfRange, Bool.or_eq_false_iff, decide_eq_false_iff_not]
      omega
    have hi : (if count = 1 then 0 else c.toNat - min.toNat) = c.toNat - min.toNat := by
      split <;> omega
    have hindex : index count next (c.toNat - min.toNat) = .ok child := by
      rw [index, if_pos (by omega), hslot]
    simp only [rmHelper, hguard, hi, hindex, bind, Except.bind]
    cases hl : child.isLive <;> rfl
  · have hslot : child = null := slot_of_not_mem _ (by omega)
    have hguard : (decide (count = 0) || outOfRange min count c) = true := by
      simp only [outOfRange, Bool.or_eq_true, decide_eq_true_eq]
      omega
    simp only [rmHelper, hguard, hslot]
    rfl

/-- Removing a key for which nothing is stored changes nothing. The result is the one for an empty
payload, if the walk gets as far as that. -/
lemma rmHelper_of_default {b : Bool} (hleave : leave default = .ok (b, default)) (key : List UInt8)
    {t : Node ρ} (hwf : WF t) (hlive : t.isLive = true) (hget : get key t = default) :
    rmHelper leave prune key t = .ok (b && t.reaches key, t) := by
  induction key generalizing t with
  | nil =>
    cases t with
    | null => simp at hlive
    | node p min count live next =>
      rw [get_nil] at hget
      simp only [rmHelper, hget, hleave, bind, Except.bind, reaches, Bool.and_true]
      rfl
  | cons c key ih =>
    cases t with
    | null => simp at hlive
    | node p min count live next =>
      obtain ⟨hshape, hslots⟩ := wf_node_iff.mp hwf
      obtain ⟨hcwf, hcred⟩ := hslots c.toNat
      rw [rmHelper_cons, reaches]
      cases hl : (slot min count next c.toNat).isLive with
      | false =>
        rw [eq_null hl]
        cases key <;> simp [reaches]
      | true =>
        have hrange := mem_range hl
        have hsame : update next (c.toNat - min.toNat) (slot min count next c.toNat) =
            next := by
          rw [slot_of_mem _ hrange.1 hrange.2, update_eq_self]
        simp only [↓reduceIte, ih hcwf hl hget, bind, Except.bind, hcred, hsame]
        rfl

lemma rmHelper_of_error (key : List UInt8) {t : Node ρ} {e : TrieFault} (hget : get key t ≠ default)
    (hleave : leave (get key t) = .error e) : rmHelper leave prune key t = .error e := by
  induction key generalizing t with
  | nil =>
    cases t with
    | null => simp at hget
    | node p min count live next =>
      rw [get_nil] at hleave
      simp only [rmHelper, hleave, bind, Except.bind]
  | cons c key ih =>
    cases t with
    | null => simp at hget
    | node p min count live next =>
      rw [get_cons] at hget hleave
      have hl : (slot min count next c.toNat).isLive = true := by
        by_contra hl
        have hnull : slot min count next c.toNat = null := eq_null (by simpa using hl)
        rw [hnull] at hget
        simp at hget
      rw [rmHelper_cons]
      simp only [hl, ↓reduceIte, ih hget hleave, bind, Except.bind]

/-- **Removing.** The walk changes the payload of a key for which something is stored and no other,
and keeps the representation. -/
theorem rmHelper_of_stored (hprune : PruneSpec prune) (key : List UInt8) {t : Node ρ} {b : Bool}
    {v : ρ} (hwf : WF t) (hget : get key t ≠ default) (hleave : leave (get key t) = .ok (b, v)) :
    ∃ t', rmHelper leave prune key t = .ok (b, t') ∧ WF t' ∧ t'.isLive = true ∧
      ∀ k, get k t' = if k = key then v else get k t := by
  induction key generalizing t with
  | nil =>
    cases t with
    | null => simp at hget
    | node p min count live next =>
      rw [get_nil] at hleave
      refine ⟨.node v min count live next, ?_, hwf, rfl, fun k => ?_⟩
      · simp only [rmHelper, hleave, bind, Except.bind]
        rfl
      · cases k <;> simp
  | cons c key ih =>
    cases t with
    | null => simp at hget
    | node p min count live next =>
      obtain ⟨hshape, hslots⟩ := wf_node_iff.mp hwf
      obtain ⟨hcwf, -⟩ := hslots c.toNat
      rw [get_cons] at hget hleave
      have hl : (slot min count next c.toNat).isLive = true := by
        by_contra hl
        have hnull : slot min count next c.toNat = null := eq_null (by simpa using hl)
        rw [hnull] at hget
        simp at hget
      have hrange := mem_range hl
      obtain ⟨child, hchild, hwf', hlive', hget'⟩ := ih hcwf hget hleave
      rw [rmHelper_cons]
      simp only [hl, ↓reduceIte, hchild, bind, Except.bind]
      cases hred : child.isRedundant with
      | true =>
        obtain ⟨t, hok, hshape', hslot'⟩ := hprune min count live next c hshape hl
        simp only [↓reduceIte, hok]
        refine ⟨_, rfl, wf_node_iff.mpr ⟨hshape', fun n => ?_⟩, rfl, fun k => ?_⟩
        · rw [hslot']
          by_cases hn : n = c.toNat
          · rw [hn, update_self]
            exact ⟨trivial, rfl⟩
          · rw [update_of_ne hn]
            exact hslots n
        · cases k with
          | nil => simp
          | cons a k =>
            rw [get_update hslot', get_cons, get_null]
            by_cases ha : a = c
            · -- nothing is stored below the child that was deleted
              subst ha
              have := get_of_redundant hwf' hred k
              rw [hget' k] at this
              simp only [↓reduceIte, List.cons.injEq, true_and]
              exact this.symm
            · simp [ha]
      | false =>
        have hslot' := slot_update next hrange.1 hrange.2 child
        have hnr : (false = true) = False := by simp
        refine ⟨_, rfl, wf_node_iff.mpr ⟨?_, fun n => ?_⟩, rfl, fun k => ?_⟩
        · have hready := hshape.ready (c := c) (by
            simp only [outOfRange, Bool.or_eq_false_iff, decide_eq_false_iff_not]
            omega)
          have hmem : c.toNat ∈ liveSet (slot min count next) := mem_liveSet.mpr ⟨c.toNat_lt, hl⟩
          have := hready.shape hlive'
          rwa [insert_eq_of_mem hmem, ← hshape.live_eq] at this
        · rw [hslot']
          by_cases hn : n = c.toNat
          · rw [hn, update_self]
            exact ⟨hwf', hred⟩
          · rw [update_of_ne hn]
            exact hslots n
        · cases k with
          | nil => simp
          | cons a k =>
            rw [get_update hslot', get_cons]
            by_cases ha : a = c
            · subst ha
              simp [hget']
            · simp [ha]

end Walk

end Node

end Zmq
