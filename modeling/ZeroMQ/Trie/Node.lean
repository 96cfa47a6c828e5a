import Mathlib.Data.Finset.Card

/-!
# Nodes with a sliding table of children

`trie_t` and `mtrie_t` share one representation. A node handles the bytes from `min` to
`min + count - 1`: with `count = 1` it has a pointer to one child, with more a table of pointers,
some of which may be null. `live_nodes` counts the pointers that are not null. The two classes
differ in what a node stores for its own key, so nodes are over an arbitrary type of payloads, whose
default value says that nothing is stored.

The pointer of a single child and the table are one function `next` here; index `0` is the single
child. An access outside the table, a null dereference and a failed assertion are faults.

A node stands for a function from keys to payloads, `Node.get`. `Node.slot` is the child for a byte
whatever part of the byte range the table covers, and the invariant `Node.WF` counts the live
children by their bytes: moving the table then changes nothing but its two ends.
-/

namespace Zmq

open Function Finset Nat UInt8

/-- What can go wrong in a trie. -/
inductive TrieFault
  | assertFailed
  | nullPointer
  | outOfBounds
  deriving DecidableEq, Repr

/-- A pointer to a node: null, or a node with its payload, `min`, `count`, `live_nodes` and `next`. -/
inductive Node (ρ : Type) : Type
  | null
  | node (payload : ρ) (min : UInt8) (count live : ℕ) (next : ℕ → Node ρ)

namespace Node

variable {ρ : Type}

/-- The pointer is not null. -/
def isLive : Node ρ → Bool
  | .null => false
  | .node .. => true

/-- The constructor: nothing stored and no children. -/
def new [Inhabited ρ] : Node ρ := .node default 0 0 0 fun _ => .null

/-- `is_redundant`. -/
def isRedundant [Inhabited ρ] [DecidableEq ρ] : Node ρ → Bool
  | .null => false
  | .node payload _ _ live _ => payload = default && live = 0

/-- The part of a node that says where its children are. -/
structure Table (ρ : Type) where
  min : UInt8
  count : ℕ
  next : ℕ → Node ρ

/-- The byte is out of range of the bytes currently handled. -/
def outOfRange (min : UInt8) (count : ℕ) (c : UInt8) : Bool :=
  c.toNat < min.toNat || c.toNat ≥ min.toNat + count

/-- Access the table. -/
def index (count : ℕ) (next : ℕ → Node ρ) (i : ℕ) : Except TrieFault (Node ρ) :=
  if i < count then .ok (next i) else .error .outOfBounds

/-- The byte is out of range: extend the table. -/
def extend (min : UInt8) (count : ℕ) (next : ℕ → Node ρ) (c : UInt8) : Table ρ :=
  if count = 0 then ⟨c, 1, fun _ => .null⟩
  else if count = 1 then
    let min' := if min < c then min else c
    ⟨min', (if min < c then c.toNat - min.toNat else min.toNat - c.toNat) + 1,
      update (fun _ => .null) (min.toNat - min'.toNat) (next 0)⟩
  else if min < c then
    -- the new byte is above the current range
    ⟨min, c.toNat - min.toNat + 1, fun i => if i < count then next i else .null⟩
  else
    -- the new byte is below the current range
    ⟨c, min.toNat + count - c.toNat,
      fun i => if i < min.toNat - c.toNat then .null else next (i - (min.toNat - c.toNat))⟩

/-- `trie_t::add` and `mtrie_t::add_helper`: walk to the node of the key, creating what is missing,
and change its payload by `touch`, which also gives the result. `check` is the assertion on `count`
and `live_nodes` after a node was created. -/
def addHelper [Inhabited ρ] (touch : ρ → Bool × ρ) (check : ℕ → ℕ → Bool) :
    List UInt8 → Node ρ → Except TrieFault (Bool × Node ρ)
  | _, .null => .error .nullPointer
  | [], .node payload min count live next =>
    .ok ((touch payload).1, .node (touch payload).2 min count live next)
  | c :: key, .node payload min count live next => do
    let t := if outOfRange min count c then extend min count next c else ⟨min, count, next⟩
    let i := if t.count = 1 then 0 else c.toNat - t.min.toNat
    let child ← index t.count t.next i
    let live := if child.isLive then live else live + 1
    if !child.isLive && !check t.count live then throw .assertFailed
    let (ret, child) ← addHelper touch check key (if child.isLive then child else new)
    return (ret, .node payload t.min t.count live (update t.next i child))

/-! ### Meaning -/

/-- The child for the byte `n`. -/
def slot (min : UInt8) (count : ℕ) (next : ℕ → Node ρ) (n : ℕ) : Node ρ :=
  if min.toNat ≤ n ∧ n < min.toNat + count then next (n - min.toNat) else .null

/-- The payload stored for a key. -/
def get [Inhabited ρ] : List UInt8 → Node ρ → ρ
  | _, .null => default
  | [], .node payload .. => payload
  | c :: key, .node _ min count _ next => get key (slot min count next c.toNat)

/-- The walk for a key ends at a node. -/
def reaches : List UInt8 → Node ρ → Bool
  | _, .null => false
  | [], .node .. => true
  | c :: key, .node _ min count _ next => reaches key (slot min count next c.toNat)

/-- The bytes with a child. -/
def liveSet (f : ℕ → Node ρ) : Finset ℕ := (Finset.range 256).filter fun n => (f n).isLive

/-- The representation of the children: the table lies in the byte range, `live_nodes` counts the
children, and the first and the last pointer of the table are not null. In particular a node with
`count = 1` has its child. -/
structure Shape (min : UInt8) (count live : ℕ) (next : ℕ → Node ρ) : Prop where
  bound : min.toNat + count ≤ 256
  live_eq : live = (liveSet (slot min count next)).card
  first : 0 < count → (next 0).isLive = true
  last : 0 < count → (next (count - 1)).isLive = true

/-- The representation is well formed all over the tree, and no node but the root is redundant. -/
def WF [Inhabited ρ] [DecidableEq ρ] : Node ρ → Prop
  | .null => True
  | .node _ min count live next => Shape min count live next ∧
    ∀ i < count, WF (next i) ∧ (next i).isRedundant = false

@[simp] lemma isLive_null : (null : Node ρ).isLive = false := rfl

@[simp] lemma isLive_node (p : ρ) (min : UInt8) (count live : ℕ) (next : ℕ → Node ρ) :
    (node p min count live next).isLive = true := rfl

@[simp] lemma get_null [Inhabited ρ] (key : List UInt8) : get key (null : Node ρ) = default := by
  cases key <;> rfl

@[simp] lemma get_nil [Inhabited ρ] (p : ρ) (min : UInt8) (count live : ℕ) (next : ℕ → Node ρ) :
    get [] (node p min count live next) = p := rfl

@[simp] lemma get_cons [Inhabited ρ] (c : UInt8) (key : List UInt8) (p : ρ) (min : UInt8) (count live : ℕ)
    (next : ℕ → Node ρ) : get (c :: key) (node p min count live next) =
      get key (slot min count next c.toNat) := rfl

lemma eq_null {t : Node ρ} (h : t.isLive = false) : t = null := by
  cases t with
  | null => rfl
  | node => simp at h

section Slots

variable {min : UInt8} {count live : ℕ} {next : ℕ → Node ρ}

variable {n i : ℕ}

lemma slot_of_mem (next : ℕ → Node ρ) (h1 : min.toNat ≤ n) (h2 : n < min.toNat + count) :
    slot min count next n = next (n - min.toNat) := if_pos ⟨h1, h2⟩

lemma slot_add (min : UInt8) (next : ℕ → Node ρ) (h : i < count) :
    slot min count next (min.toNat + i) = next i := by
  rw [slot_of_mem _ (by omega) (by omega), Nat.add_sub_cancel_left]

lemma slot_of_not_mem (next : ℕ → Node ρ) (h : n < min.toNat ∨ min.toNat + count ≤ n) :
    slot min count next n = null := by
  rw [slot, if_neg]
  omega

lemma mem_range (hn : (slot min count next n).isLive = true) :
    min.toNat ≤ n ∧ n < min.toNat + count := by
  by_contra hout
  rw [slot_of_not_mem _ (by omega)] at hn
  simp at hn

variable {c : UInt8}

lemma slot_update (next : ℕ → Node ρ) (h1 : min.toNat ≤ c.toNat) (h2 : c.toNat < min.toNat + count)
    (t : Node ρ) : slot min count (update next (c.toNat - min.toNat) t) =
      update (slot min count next) c.toNat t := by
  funext n
  by_cases hn : n = c.toNat
  · rw [hn, slot_of_mem _ h1 h2, update_self, update_self]
  rw [update_of_ne hn]
  by_cases hm : min.toNat ≤ n ∧ n < min.toNat + count
  · rw [slot_of_mem _ hm.1 hm.2, slot_of_mem _ hm.1 hm.2, update_of_ne (by omega)]
  · rw [slot_of_not_mem _ (by omega), slot_of_not_mem _ (by omega)]

variable {f : ℕ → Node ρ}

lemma mem_liveSet :
    n ∈ liveSet f ↔ n < 256 ∧ (f n).isLive = true := by
  simp [liveSet]

lemma liveSet_update_live (hn : n < 256) {t : Node ρ}
    (ht : t.isLive = true) : liveSet (update f n t) = insert n (liveSet f) := by
  ext k
  rw [mem_insert, mem_liveSet, mem_liveSet]
  by_cases hk : k = n
  · subst hk
    simp [hn, ht]
  · simp [hk]

lemma liveSet_update_null :
    liveSet (update f n null) = (liveSet f).erase n := by
  ext k
  rw [mem_erase, mem_liveSet, mem_liveSet]
  by_cases hk : k = n
  · subst hk
    simp
  · simp [hk]

lemma wf_node_iff [Inhabited ρ] [DecidableEq ρ] {p : ρ} : WF (node p min count live next) ↔
    Shape min count live next ∧
    ∀ n, WF (slot min count next n) ∧ (slot min count next n).isRedundant = false := by
  refine and_congr_right fun _ => ⟨fun h n => ?_, fun h i hi => ?_⟩
  · by_cases hm : min.toNat ≤ n ∧ n < min.toNat + count
    · rw [slot_of_mem _ hm.1 hm.2]
      exact h _ (by omega)
    · rw [slot_of_not_mem _ (by omega)]
      exact ⟨trivial, rfl⟩
  · have := h (min.toNat + i)
    rwa [slot_add _ _ hi] at this

namespace Shape

lemma first_mem (h : Shape min count live next) (hc : 0 < count) :
    min.toNat ∈ liveSet (slot min count next) := by
  have hb := h.bound
  rw [mem_liveSet]
  refine ⟨by omega, ?_⟩
  have := slot_add min next hc
  rw [Nat.add_zero] at this
  rw [this]
  exact h.first hc

lemma live_pos (h : Shape min count live next) (hc : 0 < count) : 0 < live := by
  rw [h.live_eq]
  exact card_pos.mpr ⟨_, h.first_mem hc⟩

end Shape

/-! ### Room for a byte -/

/-- The table holds the children `f` and has room for the byte `c`, where it may be null at an
end. -/
structure Ready (f : ℕ → Node ρ) (c min : UInt8) (count : ℕ) (next : ℕ → Node ρ) : Prop where
  low : min.toNat ≤ c.toNat
  high : c.toNat < min.toNat + count
  bound : min.toNat + count ≤ 256
  slot_eq : slot min count next = f
  first : (next 0).isLive = true ∨ c.toNat = min.toNat
  last : (next (count - 1)).isLive = true ∨ c.toNat = min.toNat + (count - 1)

lemma Shape.ready (h : Shape min count live next)
    (hc : outOfRange min count c = false) : Ready (slot min count next) c min count next := by
  simp only [outOfRange, Bool.or_eq_false_iff, decide_eq_false_iff_not, not_lt, ge_iff_le,
    not_le] at hc
  exact ⟨hc.1, hc.2, h.bound, rfl, .inl (h.first (by omega)), .inl (h.last (by omega))⟩

lemma Shape.extend_ready (h : Shape min count live next)
    (hc : outOfRange min count c = true) :
    let t := extend min count next c
    Ready (slot min count next) c t.min t.count t.next := by
  have hb := h.bound
  have hc256 : c.toNat < 256 := c.toNat_lt
  simp only [outOfRange, Bool.or_eq_true, decide_eq_true_eq, ge_iff_le] at hc
  unfold extend
  split
  next h0 =>
    -- there were no children
    refine ⟨le_refl _, by simp, hc256, ?_, Or.inr rfl, Or.inr (by simp)⟩
    funext n
    rw [slot_of_not_mem next (by omega)]
    unfold slot
    split <;> rfl
  split
  next h0 h1 =>
    -- there was one child
    subst h1
    have hfirst := h.first (by omega)
    rcases Nat.lt_or_ge min.toNat c.toNat with hlt | hge
    · have hlt' : min < c := hlt
      simp only [if_pos hlt', Nat.sub_self]
      refine ⟨by omega, by omega, by omega, ?_, Or.inl ?_, Or.inr (by omega)⟩
      · funext n
        by_cases hn : n = min.toNat
        · subst hn
          rw [slot_of_mem _ (le_refl _) (by omega), slot_of_mem _ (le_refl _) (by omega)]
          simp
        · rw [slot_of_not_mem next (by omega)]
          unfold slot
          split
          · rw [update_of_ne (by omega)]
          · rfl
      · simpa using hfirst
    · have hlt : c.toNat < min.toNat := by omega
      have hlt' : ¬min < c := fun hh => absurd (lt_iff_toNat_lt.mp hh) (by omega)
      simp only [if_neg hlt']
      refine ⟨le_refl _, by omega, by omega, ?_, Or.inr rfl, Or.inl ?_⟩
      · funext n
        by_cases hn : n = min.toNat
        · subst hn
          rw [slot_of_mem _ (by omega) (by omega), slot_of_mem _ (le_refl _) (by omega)]
          simp
        · rw [slot_of_not_mem next (by omega)]
          unfold slot
          split
          · rw [update_of_ne (by omega)]
          · rfl
      · simpa using hfirst
  split
  next h0 h1 hlt' =>
    have hlt : min.toNat < c.toNat := hlt'
    dsimp only
    refine ⟨by omega, by omega, by omega, ?_, Or.inl ?_, Or.inr (by omega)⟩
    · funext n
      by_cases hm : min.toNat ≤ n ∧ n < min.toNat + count
      · rw [slot_of_mem next hm.1 hm.2, slot_of_mem _ hm.1 (by omega), if_pos (by omega)]
      rw [slot_of_not_mem next (by omega)]
      unfold slot
      split
      · exact if_neg (by omega)
      · rfl
    · simpa [Nat.pos_of_ne_zero h0] using h.first (by omega)
  next h0 h1 hlt' =>
    have hlt : c.toNat < min.toNat := by
      have : ¬min.toNat < c.toNat := hlt'
      omega
    dsimp only
    refine ⟨le_refl _, by omega, by omega, ?_, Or.inr rfl, Or.inl ?_⟩
    · funext n
      by_cases hm : min.toNat ≤ n ∧ n < min.toNat + count
      · rw [slot_of_mem next hm.1 hm.2, slot_of_mem _ (by omega) (by omega),
          if_neg (by omega)]
        congr 1
        omega
      · rw [slot_of_not_mem next (by omega)]
        unfold slot
        split
        · exact if_pos (by omega)
        · rfl
    · have hlast := h.last (by omega)
      rw [if_neg (by omega)]
      have : min.toNat + count - c.toNat - 1 - (min.toNat - c.toNat) = count - 1 := by omega
      rwa [this]

lemma Ready.shape (h : Ready f c min count next) {child : Node ρ}
    (hchild : child.isLive = true) :
    Shape min count (insert c.toNat (liveSet f)).card
      (update next (c.toNat - min.toNat) child) where
  bound := h.bound
  live_eq := by
    rw [slot_update _ h.low h.high, h.slot_eq, liveSet_update_live c.toNat_lt hchild]
  first _ := by
    have hlow := h.low
    by_cases hi : 0 = c.toNat - min.toNat
    · rw [← hi, update_self]
      exact hchild
    · rw [update_of_ne hi]
      exact h.first.resolve_right (by omega)
  last _ := by
    have hlow := h.low
    by_cases hi : count - 1 = c.toNat - min.toNat
    · rw [hi, update_self]
      exact hchild
    · rw [update_of_ne hi]
      exact h.last.resolve_right (by omega)

lemma Ready.liveSet_of_null (h : Ready f c min count next)
    (hnull : (f c.toNat).isLive = false) :
    (count = 1 → liveSet f = ∅) ∧ (count ≠ 1 → (liveSet f).Nonempty) := by
  have hlow := h.low
  have hhigh := h.high
  have hb := h.bound
  constructor
  · intro hone
    refine eq_empty_iff_forall_notMem.mpr fun n hn => ?_
    obtain ⟨-, hl⟩ := mem_liveSet.mp hn
    have hrange := mem_range (h.slot_eq ▸ hl)
    rw [show n = c.toNat by omega, hnull] at hl
    exact absurd hl (by decide)
  · intro hmany
    rcases h.first with hfirst | hfirst
    · refine ⟨min.toNat, mem_liveSet.mpr ⟨by omega, ?_⟩⟩
      rw [← h.slot_eq, slot_of_mem _ (le_refl _) (by omega), Nat.sub_self]
      exact hfirst
    · refine ⟨min.toNat + (count - 1), mem_liveSet.mpr ⟨by omega, ?_⟩⟩
      rw [← h.slot_eq, slot_add _ _ (by omega)]
      exact h.last.resolve_right (by omega)

end Slots

/-! ### Keys -/

section Keys

variable [Inhabited ρ]

@[simp] lemma get_new (key : List UInt8) : get key (new : Node ρ) = default := by
  cases key with
  | nil => rfl
  | cons c key => simp [new, slot]

variable {child t : Node ρ}

lemma get_update {p : ρ} {min : UInt8} {count live : ℕ} {next : ℕ → Node ρ} {f : ℕ → Node ρ}
    {c : UInt8} (hslot : slot min count next = update f c.toNat child)
    (a : UInt8) (k : List UInt8) : get (a :: k) (node p min count live next) =
      if a = c then get k child else get k (f a.toNat) := by
  rw [get_cons, hslot]
  by_cases ha : a = c
  · rw [if_pos ha, ha, update_self]
  · have : a.toNat ≠ c.toNat := fun h => ha (UInt8.toNat_inj.mp h)
    rw [if_neg ha, update_of_ne this]

variable [DecidableEq ρ]

lemma wf_new : WF (new : Node ρ) := by
  refine ⟨⟨by simp, ?_, by simp, by simp⟩, by simp⟩
  simp [liveSet, slot]

lemma exists_stored (h : WF t) (hlive : t.isLive = true)
    (hred : t.isRedundant = false) : ∃ key, get key t ≠ default := by
  induction t with
  | null => simp at hlive
  | node p min count live next ih =>
    obtain ⟨hshape, hslots⟩ := wf_node_iff.mp h
    by_cases hp : p = default
    · -- nothing is stored in the node itself, so it has a child
      have hpos : live ≠ 0 := by simpa [isRedundant, hp] using hred
      rw [hshape.live_eq] at hpos
      obtain ⟨n, hn⟩ := card_ne_zero.mp hpos
      obtain ⟨hlt, hchild⟩ := mem_liveSet.mp hn
      have hslot : slot min count next n = next (n - min.toNat) :=
        slot_of_mem _ (mem_range hchild).1 (mem_range hchild).2
      obtain ⟨hcwf, hcred⟩ := hslots n
      rw [hslot] at hchild hcwf hcred
      obtain ⟨key, hkey⟩ := ih (n - min.toNat) hcwf hchild hcred
      refine ⟨ofNat n :: key, ?_⟩
      rw [get_cons, toNat_ofNat', mod_eq_of_lt hlt, hslot]
      exact hkey
    · exact ⟨[], hp⟩

/-- The walk for a key ends at a node exactly if something is stored for an extension of it, or at the
root. -/
lemma reaches_iff (key : List UInt8) (h : WF t) (hlive : t.isLive = true) :
    reaches key t = true ↔ key = [] ∨ ∃ rest, get (key ++ rest) t ≠ default := by
  induction key generalizing t with
  | nil =>
    cases t with
    | null => simp at hlive
    | node p min count live next => simp [reaches]
  | cons c key ih =>
    cases t with
    | null => simp at hlive
    | node p min count live next =>
      obtain ⟨-, hslots⟩ := wf_node_iff.mp h
      obtain ⟨hcwf, hcred⟩ := hslots c.toNat
      simp only [reaches, List.cons_ne_nil, false_or, List.cons_append, get_cons]
      cases hl : (slot min count next c.toNat).isLive with
      | false =>
        rw [eq_null hl]
        simp [reaches]
      | true =>
        rw [ih hcwf hl]
        refine or_iff_right_of_imp ?_
        rintro rfl
        exact exists_stored hcwf hl hcred

lemma get_of_redundant (h : WF t) (hred : t.isRedundant = true)
    (key : List UInt8) : get key t = default := by
  cases t with
  | null => simp
  | node p min count live next =>
    simp only [isRedundant, Bool.and_eq_true, decide_eq_true_eq] at hred
    obtain ⟨rfl, rfl⟩ := hred
    cases key with
    | nil => rfl
    | cons c key =>
      have hcount : count = 0 := by
        by_contra hne
        exact absurd (h.1.live_pos (Nat.pos_of_ne_zero hne)) (by decide)
      rw [get_cons, slot_of_not_mem _ (by omega), get_null]

lemma not_redundant (h : WF t) (key : List UInt8) (hne : get key t ≠ default) :
    t.isRedundant = false := by
  by_contra hred
  exact hne (get_of_redundant h (by simpa using hred) key)

/-- **Adding.** The walk succeeds, changes the payload of the key and no other, and keeps the
representation, provided something is stored afterwards. -/
theorem addHelper_spec {touch : ρ → Bool × ρ} {check : ℕ → ℕ → Bool} (hone : check 1 1 = true)
    (hmany : ∀ count live, count ≠ 1 → 1 < live → check count live = true) (key : List UInt8) (hwf : WF t)
    (hlive : t.isLive = true) (htouch : (touch (get key t)).2 ≠ default) :
    ∃ t', addHelper touch check key t = .ok ((touch (get key t)).1, t') ∧ WF t' ∧
      t'.isLive = true ∧ ∀ k, get k t' = if k = key then (touch (get key t)).2 else get k t := by
  induction key generalizing t with
  | nil =>
    cases t with
    | null => simp at hlive
    | node p min count live next =>
      refine ⟨.node (touch p).2 min count live next, rfl, hwf, rfl, fun k => ?_⟩
      cases k <;> simp
  | cons c key ih =>
    cases t with
    | null => simp at hlive
    | node p min count live next =>
      obtain ⟨hshape, hslots⟩ := wf_node_iff.mp hwf
      obtain ⟨t, ht, hready⟩ : ∃ t : Table ρ,
          t = (if outOfRange min count c then extend min count next c else ⟨min, count, next⟩) ∧
          Ready (slot min count next) c t.min t.count t.next := by
        refine ⟨_, rfl, ?_⟩
        cases hc : outOfRange min count c with
        | true => exact hshape.extend_ready hc
        | false => exact hshape.ready hc
      have hlow := hready.low
      have hhigh := hready.high
      have hi : (if t.count = 1 then 0 else c.toNat - t.min.toNat) = c.toNat - t.min.toNat := by
        split <;> omega
      have hchild : t.next (c.toNat - t.min.toNat) = slot min count next c.toNat := by
        rw [← hready.slot_eq, slot_of_mem _ hready.low hready.high]
      obtain ⟨child, hchild'⟩ : ∃ child, child = slot min count next c.toNat := ⟨_, rfl⟩
      have hcard : (if child.isLive then live else live + 1) =
          (insert c.toNat (liveSet (slot min count next))).card := by
        rw [hshape.live_eq]
        cases hl : child.isLive with
        | true =>
          have hmem : c.toNat ∈ liveSet (slot min count next) :=
            mem_liveSet.mpr ⟨c.toNat_lt, by rw [← hchild']; exact hl⟩
          rw [insert_eq_of_mem hmem]
          rfl
        | false =>
          rw [card_insert_of_notMem]
          · rfl
          · rw [mem_liveSet, ← hchild', hl]
            simp
      have hcheck : child.isLive = false → check t.count (live + 1) = true := by
        intro hl
        obtain ⟨hempty, hnonempty⟩ := hready.liveSet_of_null (hchild' ▸ hl)
        by_cases hc : t.count = 1
        · rw [hshape.live_eq, hempty hc, hc]
          exact hone
        · have := card_pos.mpr (hnonempty hc)
          exact hmany _ _ hc (by rw [hshape.live_eq]; omega)
      -- the child the walk goes on with
      have hcwf := (hslots c.toNat).1
      obtain ⟨next', hnext', hwf', hlive', hget'⟩ : ∃ u,
          addHelper touch check key (if child.isLive then child else new) =
            .ok ((touch (get key child)).1, u) ∧ WF u ∧ u.isLive = true ∧
            ∀ k, get k u = if k = key then (touch (get key child)).2 else get k child := by
        cases hl : child.isLive with
        | true =>
          rw [hchild'] at hl ⊢
          exact ih hcwf hl htouch
        | false =>
          obtain rfl := eq_null hl
          rw [get_cons, ← hchild', get_null] at htouch
          simpa using ih wf_new rfl (by rwa [get_new])
      refine ⟨.node p t.min t.count (insert c.toNat (liveSet (slot min count next))).card
        (update t.next (c.toNat - t.min.toNat) next'), ?_, ?_, rfl, fun k => ?_⟩
      · have hindex : index t.count t.next (c.toNat - t.min.toNat) = .ok child := by
          rw [index, if_pos (by omega), hchild, ← hchild']
        have hassert : (!child.isLive && !check t.count
            (insert c.toNat (liveSet (slot min count next))).card) = false := by
          rw [← hcard]
          cases hl : child.isLive with
          | true => rfl
          | false => simp [hcheck hl]
        simp only [addHelper, ← ht, hi, hindex, bind, Except.bind, hcard, hassert, hnext']
        rw [get_cons, ← hchild']
        rfl
      · have hslot := slot_update t.next hready.low hready.high next'
        rw [hready.slot_eq] at hslot
        refine wf_node_iff.mpr ⟨hready.shape hlive', fun n => ?_⟩
        rw [hslot]
        by_cases hn : n = c.toNat
        · rw [hn, update_self]
          refine ⟨hwf', not_redundant hwf' key ?_⟩
          rw [hget', if_pos rfl]
          rwa [get_cons, ← hchild'] at htouch
        · rw [update_of_ne hn]
          exact hslots n
      · have hslot := slot_update t.next hready.low hready.high next'
        rw [hready.slot_eq] at hslot
        cases k with
        | nil => simp
        | cons a k =>
          rw [get_update hslot, get_cons, get_cons, ← hchild']
          by_cases ha : a = c
          · subst ha
            rw [if_pos rfl, hget', ← hchild']
            simp
          · simp [ha]

end Keys

end Node

end Zmq
