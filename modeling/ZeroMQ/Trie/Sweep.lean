import ZeroMQ.Foundation.Machine
import ZeroMQ.Trie.Mtrie

/-!
# Removing a pipe everywhere

`mtrie_t::rm` for a pipe visits all nodes, and the loop over a table deletes the children that have
become redundant while it looks for the first and the last one that stay. `Swept` is the invariant
of the loop; the table is compacted after it.
-/

namespace Zmq

open Function List Nat UInt8

namespace Mtrie

open Node

variable {P : Type} [LinearOrder P]

/-- What is left of the child at an index, where `kids` are the children after the pipe was removed
from them. -/
def survivor (next kids : ℕ → Mtrie P) (i : ℕ) : Mtrie P :=
  if (next i).isLive && !(kids i).isRedundant then kids i else .null

/-- The children after the pipe was removed from them. -/
def Dropped (pipe : P) (count : ℕ) (next kids : ℕ → Mtrie P) : Prop :=
  ∀ i < count, (next i).isLive = true → WF (kids i) ∧ (kids i).isLive = true ∧
    ∀ k, get k (kids i) = dropPipe pipe (get k (next i))

section Loop

variable {pipe : P} {size max : ℕ} {min : UInt8} {count : ℕ} {next kids : ℕ → Mtrie P}
  {visit : ℕ → Buffer → Except TrieFault (List (List UInt8) × Buffer × Mtrie P)}
  {calls : List (List UInt8)} {buff₀ : Buffer}

/-- `new_min` and `new_max` after the first `j` entries of the table: the bytes of the first and the
last child that is left, or their initial values. -/
structure Ends (min : UInt8) (count : ℕ) (next kids : ℕ → Mtrie P) (j : ℕ)
    (newMin newMax : UInt8) : Prop where
  min_le : ∀ i < j, (survivor next kids i).isLive = true → newMin.toNat ≤ min.toNat + i
  le_max : ∀ i < j, (survivor next kids i).isLive = true → min.toNat + i ≤ newMax.toNat
  min_eq : newMin.toNat = min.toNat + count - 1 ∨
    ∃ i < j, (survivor next kids i).isLive = true ∧ newMin.toNat = min.toNat + i
  max_eq : newMax = min ∨
    ∃ i < j, (survivor next kids i).isLive = true ∧ newMax.toNat = min.toNat + i

/-- The loop has gone through the first `j` entries of the table. -/
structure Swept (pipe : P) (size max : ℕ) (min : UInt8) (count : ℕ) (next kids : ℕ → Mtrie P)
    (calls : List (List UInt8)) (buff₀ : Buffer) (j : ℕ) (st : Sweep P) : Prop where
  calls_eq : st.calls = calls ++ (List.range j).flatMap fun i =>
    (keysWhere (losesLast pipe) (next i)).map
      fun k => buff₀.contents size ++ UInt8.ofNat (min.toNat + i) :: k
  capacity : max ≤ st.buff.capacity
  agree : buff₀.Agree size st.buff
  next_eq : st.next = fun i => if i < j then survivor next kids i else next i
  live_eq : st.live = (liveSet (slot min count st.next)).card
  ends : Ends min count next kids j st.newMin st.newMax

lemma update_survivor (next kids : ℕ → Mtrie P) (j : ℕ) :
    update (fun i => if i < j then survivor next kids i else next i) j
      (survivor next kids j) = fun i => if i < j + 1 then survivor next kids i else next i := by
  funext i
  by_cases hi : i = j
  · subst hi
    simp
  · rw [update_of_ne hi]
    simp only [show i < j + 1 ↔ i < j by omega]

variable {newMin newMax : UInt8}

lemma Ends.congr {kids' : ℕ → Mtrie P} {j : ℕ}
    (h : Ends min count next kids j newMin newMax)
    (hsurv : ∀ i < j, survivor next kids' i = survivor next kids i) :
    Ends min count next kids' j newMin newMax := by
  refine ⟨fun i hi hl => ?_, fun i hi hl => ?_, h.min_eq.imp_right ?_, h.max_eq.imp_right ?_⟩
  · exact h.min_le i hi (hsurv i hi ▸ hl)
  · exact h.le_max i hi (hsurv i hi ▸ hl)
  · rintro ⟨i, hi, hl, heq⟩
    exact ⟨i, hi, by rwa [hsurv i hi], heq⟩
  · rintro ⟨i, hi, hl, heq⟩
    exact ⟨i, hi, by rwa [hsurv i hi], heq⟩

lemma Ends.skip {j : ℕ} (h : Ends min count next kids j newMin newMax)
    (hnull : survivor next kids j = .null) : Ends min count next kids (j + 1) newMin newMax := by
  have hlt : ∀ i < j + 1, (survivor next kids i).isLive = true → i < j := by
    intro i hi hl
    by_contra hij
    rw [show i = j by omega, hnull] at hl
    simp at hl
  refine ⟨fun i hi hl => h.min_le i (hlt i hi hl) hl, fun i hi hl => h.le_max i (hlt i hi hl) hl,
    ?_, ?_⟩
  · exact h.min_eq.imp_right fun ⟨i, hi, hrest⟩ => ⟨i, by omega, hrest⟩
  · exact h.max_eq.imp_right fun ⟨i, hi, hrest⟩ => ⟨i, by omega, hrest⟩

lemma Ends.keep {j : ℕ} (h : Ends min count next kids j newMin newMax)
    (hj : min.toNat + j < 256) (hlj : (survivor next kids j).isLive = true) :
    Ends min count next kids (j + 1)
      (if j + min.toNat < newMin.toNat then ofNat (j + min.toNat) else newMin)
      (if j + min.toNat > newMax.toNat then ofNat (j + min.toNat) else newMax) := by
  have hnat : (ofNat (j + min.toNat)).toNat = min.toNat + j := by
    rw [toNat_ofNat']
    omega
  refine ⟨fun i hi hl => ?_, fun i hi hl => ?_, ?_, ?_⟩
  · have hle := fun hij => h.min_le i hij hl
    split
    · rw [hnat]
      by_cases hij : i = j
      · omega
      · have := hle (by omega)
        omega
    · by_cases hij : i = j
      · omega
      · exact hle (by omega)
  · have hle := fun hij => h.le_max i hij hl
    split
    · rw [hnat]
      omega
    · by_cases hij : i = j
      · omega
      · exact hle (by omega)
  · split
    · exact .inr ⟨j, by omega, hlj, hnat⟩
    · exact h.min_eq.imp_right fun ⟨i, hi, hrest⟩ => ⟨i, by omega, hrest⟩
  · split
    · exact .inr ⟨j, by omega, hlj, hnat⟩
    · exact h.max_eq.imp_right fun ⟨i, hi, hrest⟩ => ⟨i, by omega, hrest⟩

variable {st : Sweep P}

lemma Swept.congr {kids' : ℕ → Mtrie P} {j : ℕ}
    (h : Swept pipe size max min count next kids calls buff0 j st)
    (hkids : ∀ i < j, kids' i = kids i) :
    Swept pipe size max min count next kids' calls buff0 j st := by
  have hsurv : ∀ i < j, survivor next kids' i = survivor next kids i := fun i hi => by
    rw [survivor, hkids i hi, survivor]
  refine ⟨h.calls_eq, h.capacity, h.agree, ?_, h.live_eq, h.ends.congr hsurv⟩
  rw [h.next_eq]
  funext i
  split
  next hi => rw [hsurv i hi]
  next => rfl

variable {buff₁ buff₂ : Buffer}

lemma Swept.skip {j : ℕ}
    (h : Swept pipe size max min count next kids calls buff0 j st)
    (hl : (next j).isLive = false)
    (hcap : max ≤ buff1.capacity) (hagree : st.buff.Agree size buff1) :
    Swept pipe size max min count next kids calls buff0 (j + 1) { st with buff := buff1 } := by
  have hsurv : survivor next kids j = .null := by simp [survivor, hl]
  have hkeys : keysWhere (losesLast pipe) (next j) = [] := by rw [eq_null hl]; rfl
  have hnextj : st.next j = next j := by rw [h.next_eq]; simp
  have hnext : (fun i => if i < j + 1 then survivor next kids i else next i) = st.next := by
    rw [← update_survivor, ← h.next_eq, hsurv, ← eq_null hl, ← hnextj, update_eq_self]
  refine ⟨?_, hcap, h.agree.trans hagree, hnext.symm, h.live_eq, h.ends.skip hsurv⟩
  rw [range_succ, flatMap_append, ← append_assoc, ← h.calls_eq]
  simp [hkeys]

lemma Swept.calls_succ {j : ℕ}
    (h : Swept pipe size max min count next kids calls buff₀ j st)
    (hcont : buff₁.contents (size + 1) = st.buff.contents size ++ [ofNat (min.toNat + j)]) :
    st.calls ++ (keysWhere (losesLast pipe) (next j)).map (buff₁.contents (size + 1) ++ ·) =
      calls ++ (range (j + 1)).flatMap fun i => (keysWhere (losesLast pipe) (next i)).map
        fun k => buff₀.contents size ++ ofNat (min.toNat + i) :: k := by
  rw [range_succ, flatMap_append, ← append_assoc, ← h.calls_eq]
  simp only [flatMap_cons, flatMap_nil, append_nil, hcont, h.agree.contents_eq,
    append_assoc, cons_append, nil_append]

lemma Swept.liveSet_update {j : ℕ}
    (h : Swept pipe size max min count next kids calls buff0 j st)
    (hb : min.toNat + count ≤ 256) (hj : j < count) (hl : (next j).isLive = true) :
    min.toNat + j ∈ liveSet (slot min count st.next) ∧
      liveSet (slot min count (update st.next j .null)) =
        (liveSet (slot min count st.next)).erase (min.toNat + j) ∧
      ∀ t : Mtrie P, t.isLive = true →
        liveSet (slot min count (update st.next j t)) =
          liveSet (slot min count st.next) := by
  have hnextj : st.next j = next j := by rw [h.next_eq]; simp
  -- the byte of the child
  obtain ⟨c, hc⟩ : ∃ c : UInt8, c.toNat = min.toNat + j :=
    ⟨ofNat (min.toNat + j), by rw [toNat_ofNat']; omega⟩
  have hcj : c.toNat - min.toNat = j := by omega
  have hmem : min.toNat + j ∈ liveSet (slot min count st.next) := by
    rw [mem_liveSet, slot_add _ _ hj, hnextj]
    exact ⟨by omega, hl⟩
  have hslot : ∀ t, slot min count (update st.next j t) =
      update (slot min count st.next) (min.toNat + j) t := fun t => by
    rw [← hc, ← slot_update st.next (by omega) (by omega), hcj]
  refine ⟨hmem, ?_, fun t ht => ?_⟩
  · rw [hslot, liveSet_update_null]
  · rw [hslot, liveSet_update_live (by omega) ht, Finset.insert_eq_of_mem hmem]

lemma Swept.delete {j : ℕ} {st : Sweep P} {buff1 buff2 : Buffer}
    (h : Swept pipe size max min count next kids calls buff0 j st)
    (hb : min.toNat + count ≤ 256) (hj : j < count) (hl : (next j).isLive = true)
    (hcont : buff1.contents (size + 1) = st.buff.contents size ++ [ofNat (min.toNat + j)])
    (hcap : max ≤ buff2.capacity) (hagree : st.buff.Agree size buff2)
    (hred : (kids j).isRedundant = true) :
    st.live > 0 ∧ Swept pipe size max min count next kids calls buff0 (j + 1)
      { st with calls := st.calls ++ (keysWhere (losesLast pipe) (next j)).map
                  (buff1.contents (size + 1) ++ ·)
                buff := buff2, live := st.live - 1, next := update st.next j .null } := by
  have hsurv : survivor next kids j = .null := by simp [survivor, hred]
  obtain ⟨hmem, hdel, -⟩ := h.liveSet_update hb hj hl
  constructor
  · rw [h.live_eq]
    exact Finset.card_pos.mpr ⟨_, hmem⟩
  refine ⟨h.calls_succ hcont, hcap, h.agree.trans hagree, ?_, ?_, h.ends.skip hsurv⟩
  · dsimp only
    rw [← update_survivor, ← h.next_eq, hsurv]
  · dsimp only
    rw [hdel, Finset.card_erase_of_mem hmem, ← h.live_eq]

lemma Swept.keep {j : ℕ}
    (h : Swept pipe size max min count next kids calls buff₀ j st)
    (hb : min.toNat + count ≤ 256) (hj : j < count) (hl : (next j).isLive = true)
    (hcont : buff₁.contents (size + 1) = st.buff.contents size ++ [ofNat (min.toNat + j)])
    (hcap : max ≤ buff₂.capacity) (hagree : st.buff.Agree size buff₂)
    (hklive : (kids j).isLive = true) (hred : (kids j).isRedundant = false) :
    Swept pipe size max min count next kids calls buff₀ (j + 1)
      { st with
        calls := st.calls ++ (keysWhere (losesLast pipe) (next j)).map
          (buff₁.contents (size + 1) ++ ·)
        buff := buff₂
        next := update st.next j (kids j)
        newMin := if j + min.toNat < st.newMin.toNat then ofNat (j + min.toNat) else st.newMin
        newMax := if j + min.toNat > st.newMax.toNat then ofNat (j + min.toNat)
          else st.newMax } := by
  have hsurv : survivor next kids j = kids j := by simp [survivor, hl, hred]
  have hlj : (survivor next kids j).isLive = true := by rw [hsurv]; exact hklive
  obtain ⟨-, -, hset⟩ := h.liveSet_update hb hj hl
  refine ⟨h.calls_succ hcont, hcap, h.agree.trans hagree, ?_, ?_, h.ends.keep (by omega) hlj⟩
  · dsimp only
    rw [← update_survivor, ← h.next_eq, hsurv]
  · dsimp only
    rw [hset _ hklive, h.live_eq]

/-- What a visit of the child at an index does. -/
def Visits (pipe : P) (size max : ℕ) (child : Mtrie P)
    (visit : Buffer → Except TrieFault (List (List UInt8) × Buffer × Mtrie P)) : Prop :=
  ∀ buff : Buffer, max ≤ buff.capacity → ∃ buff' child',
    visit buff = .ok ((keysWhere (losesLast pipe) child).map (buff.contents size ++ ·),
      buff', child') ∧ max ≤ buff'.capacity ∧ buff.Agree size buff' ∧ WF child' ∧
      child'.isLive = true ∧ ∀ k, get k child' = dropPipe pipe (get k child)

lemma Swept.step (hb : min.toNat + count ≤ 256) (hmax : size < max) {j : ℕ} (hj : j < count)
    (hvisit : (next j).isLive = true → Visits pipe (size + 1) max (next j) (visit j))
    (h : Swept pipe size max min count next kids calls buff0 j st)
    (hdropped : Dropped pipe j next kids) :
    ∃ st' kids', sweepChild size min next visit st j = .ok st' ∧
      Swept pipe size max min count next kids' calls buff0 (j + 1) st' ∧
      Dropped pipe (j + 1) next kids' := by
  obtain ⟨buff1, hput, hcap1, hagree1, hcont⟩ :=
    st.buff.put_spec size (ofNat (min.toNat + j)) (lt_of_lt_of_le hmax h.capacity)
  cases hl : (next j).isLive with
  | false =>
    refine ⟨_, kids, ?_, h.skip hl (hcap1 ▸ h.capacity) hagree1, fun i hi hli => ?_⟩
    · simp only [sweepChild, hput, hl, bind, Except.bind]
      rfl
    refine hdropped i ?_ hli
    by_contra hij
    rw [show i = j by omega, hl] at hli
    exact absurd hli (by decide)
  | true =>
    obtain ⟨buff2, child, hv, hcap2, hagree2, hkwf, hklive, hkget⟩ :=
      hvisit hl buff1 (hcap1 ▸ h.capacity)
    have hagree : st.buff.Agree size buff2 := hagree1.trans fun i hi => hagree2 i (by omega)
    have hj' : update kids j child j = child := update_self ..
    have hne : ∀ i < j, update kids j child i = kids i :=
      fun i hi => update_of_ne (by omega) _ _
    have h' := h.congr hne
    have hdropped' : Dropped pipe (j + 1) next (update kids j child) := by
      intro i hi hli
      by_cases hij : i = j
      · rw [hij, hj']
        exact ⟨hkwf, hklive, hkget⟩
      · rw [hne i (by omega)]
        exact hdropped i (by omega) hli
    rw [← hj'] at hv hklive
    cases hred : child.isRedundant with
    | true =>
      rw [← hj'] at hred
      obtain ⟨hpos, hst'⟩ := h'.delete hb hj hl hcont hcap2 hagree hred
      refine ⟨_, _, ?_, hst', hdropped'⟩
      simp only [sweepChild, hput, hl, bind, Except.bind, hv, hred, hpos]
      rfl
    | false =>
      rw [← hj'] at hred
      refine ⟨_, _, ?_, h'.keep hb hj hl hcont hcap2 hagree hklive hred, hdropped'⟩
      simp only [sweepChild, hput, hl, bind, Except.bind, hv, hred]
      rfl

lemma Swept.run (calls : List (List UInt8)) {live : ℕ} (hshape : Shape min count live next) (hmax : size < max)
    (hvisit : ∀ i < count, (next i).isLive = true → Visits pipe (size + 1) max (next i) (visit i))
    (hcap : max ≤ buff0.capacity) {j : ℕ} (hj : j ≤ count) :
    ∃ st kids, (range j).foldlM (sweepChild size min next visit)
        ⟨calls, buff0, next, live, ofNat (min.toNat + count - 1), min⟩ = .ok st ∧
      Swept pipe size max min count next kids calls buff0 j st ∧ Dropped pipe j next kids := by
  have hb := hshape.bound
  induction j with
  | zero =>
    refine ⟨_, next, rfl, ⟨by simp, hcap, fun _ _ => rfl, by simp, hshape.live_eq,
      ⟨by simp, by simp, .inl ?_, .inl rfl⟩⟩, fun i hi => by omega⟩
    rw [toNat_ofNat']
    omega
  | succ j ih =>
    obtain ⟨st, kids, hrun, hst, hdropped⟩ := ih (by omega)
    obtain ⟨st', kids', hstep, hst', hdropped'⟩ := hst.step hb hmax hj (hvisit j hj) hdropped
    refine ⟨st', kids', ?_, hst', hdropped'⟩
    rw [range_succ, foldlM_append, hrun]
    simp only [bind, Except.bind, foldlM_cons, hstep, foldlM_nil]
    rfl

section

variable (h : Swept pipe size max min count next kids calls buff₀ count st)

include h

lemma Swept.slot_eq :
    slot min count st.next = slot min count (survivor next kids) := by
  funext n
  unfold slot
  split
  next hn =>
    rw [h.next_eq]
    simp only [show n - min.toNat < count by omega, ↓reduceIte]
  next => rfl

lemma Swept.next_of_lt {i : ℕ} (hi : i < count) :
    st.next i = survivor next kids i := by
  rw [h.next_eq]
  simp only [hi, ↓reduceIte]

lemma Swept.first_last (hlive : st.live ≠ 0) :
    ∃ lo hi, lo ≤ hi ∧ hi < count ∧ st.newMin.toNat = min.toNat + lo ∧
      st.newMax.toNat = min.toNat + hi ∧ (st.next lo).isLive = true ∧ (st.next hi).isLive = true ∧
      ∀ i < count, (st.next i).isLive = true → lo ≤ i ∧ i ≤ hi := by
  -- some child is left
  obtain ⟨n, hn⟩ : (liveSet (slot min count st.next)).Nonempty := by
    rw [← Finset.card_pos, ← h.live_eq]
    omega
  obtain ⟨-, hl⟩ := mem_liveSet.mp hn
  obtain ⟨hlow, hhigh⟩ := mem_range hl
  rw [slot_of_mem _ hlow hhigh, h.next_of_lt (by omega)] at hl
  have hmin_le := h.ends.min_le _ (by omega) hl
  have hle_max := h.ends.le_max _ (by omega) hl
  -- both ends are children that are left
  have hlo : ∃ lo < count, (survivor next kids lo).isLive = true ∧
      st.newMin.toNat = min.toNat + lo := by
    rcases h.ends.min_eq with heq | hex
    · exact ⟨_, by omega, hl, by omega⟩
    · exact hex
  have hhi : ∃ hi < count, (survivor next kids hi).isLive = true ∧
      st.newMax.toNat = min.toNat + hi := by
    rcases h.ends.max_eq with heq | hex
    · have := congrArg toNat heq
      exact ⟨_, by omega, hl, by omega⟩
    · exact hex
  obtain ⟨lo, hlo_lt, hlo_live, hlo_eq⟩ := hlo
  obtain ⟨hi, hhi_lt, hhi_live, hhi_eq⟩ := hhi
  refine ⟨lo, hi, by omega, hhi_lt, hlo_eq, hhi_eq, ?_, ?_, fun i hi' hli => ?_⟩
  · rw [h.next_of_lt hlo_lt]
    exact hlo_live
  · rw [h.next_of_lt hhi_lt]
    exact hhi_live
  · rw [h.next_of_lt hi'] at hli
    have := h.ends.min_le i hi' hli
    have := h.ends.le_max i hi' hli
    omega

lemma Swept.compact
    (hb : min.toNat + count ≤ 256) (hmany : count > 1) :
    ∃ t, Mtrie.compact min count st = .ok t ∧ Shape t.min t.count t.live t.next ∧
      slot t.min t.count t.next = slot min count (survivor next kids) := by
  unfold Mtrie.compact
  simp only [hmany, not_true_eq_false, ↓reduceIte]
  by_cases h0 : st.live = 0
  · have hempty : liveSet (slot min count st.next) = ∅ := by
      rw [← Finset.card_eq_zero, ← h.live_eq, h0]
    obtain ⟨hslot, hshape⟩ := shape_empty hempty hb fun _ => .null
    simp only [h0, ↓reduceIte]
    exact ⟨_, rfl, hshape, hslot.trans h.slot_eq⟩
  obtain ⟨lo, hi, hle, hlt, hmin, hmax, hlo, hhi, hout⟩ := h.first_last h0
  have hlo_eq : st.newMin.toNat - min.toNat = lo := by omega
  have hwindow : ∀ (n : ℕ) (next' : ℕ → Mtrie P), n = hi - lo + 1 →
      (∀ i < n, next' i = st.next (lo + i)) → Shape st.newMin n st.live next' ∧
        slot st.newMin n next' = slot min count (survivor next kids) := fun n next' hn hnext' => by
    obtain ⟨hslot, hshape⟩ := shape_window hb hle hlt hlo hhi hout hmin hn hnext'
    rw [← h.live_eq] at hshape
    exact ⟨hshape, hslot.trans h.slot_eq⟩
  have hge : st.newMin ≥ min := UInt8.le_iff_toNat_le.mpr (by omega)
  by_cases h1 : st.live = 1
  · -- the first and the last child are the same
    have hsame : lo = hi := by
      have hcard := h.live_eq
      rw [h1] at hcard
      have hmem : ∀ {i}, i < count → (st.next i).isLive = true →
          min.toNat + i ∈ liveSet (slot min count st.next) := fun hi' hli => by
        rw [mem_liveSet, slot_add _ _ hi']
        exact ⟨by omega, hli⟩
      have := Finset.card_le_one.mp hcard.symm.le _ (hmem (by omega) hlo) _ (hmem hlt hhi)
      omega
    have heq : st.newMin = st.newMax := UInt8.toNat_inj.mp (by omega)
    have hrange : st.newMin ≥ min ∧ st.newMin.toNat < min.toNat + count := ⟨hge, by omega⟩
    have hw := hwindow 1 (fun _ => st.next lo) (by omega)
      fun i hi' => by rw [show i = 0 by omega, add_zero]
    simp only [h1, ↓reduceIte, ← heq, ne_eq, not_true_eq_false, hrange, hlo_eq, hlo,
      Bool.not_true, Bool.false_eq_true]
    rw [h1] at hw
    exact ⟨_, rfl, hw⟩
  simp only [h0, h1, ↓reduceIte]
  by_cases hcut : st.newMin > min ∨ st.newMax.toNat < min.toNat + count - 1
  · have hne : lo ≠ hi := fun heq => by
      have hsub : liveSet (slot min count st.next) ⊆ {min.toNat + lo} := fun n hn => by
        obtain ⟨-, hl⟩ := mem_liveSet.mp hn
        obtain ⟨h₁, h2⟩ := mem_range hl
        rw [slot_of_mem _ h₁ h2] at hl
        have := hout _ (by omega) hl
        rw [Finset.mem_singleton]
        omega
      have := Finset.card_le_card hsub
      rw [← h.live_eq, Finset.card_singleton] at this
      omega
    have hshorter : lo ≠ 0 ∨ hi ≠ count - 1 := by
      rcases hcut with hgt | hlt'
      · have := UInt8.lt_iff_toNat_lt.mp hgt
        omega
      · omega
    have ha1 : (st.newMax.toNat : ℤ) - st.newMin.toNat + 1 > 1 := by omega
    have ha2 : st.newMax.toNat ≤ min.toNat + count - 1 := by omega
    have ha3 : (st.newMax.toNat : ℤ) - st.newMin.toNat + 1 < count := by omega
    simp only [hcut, ↓reduceIte, ha1, hge, ha2, ha3, not_true_eq_false, hlo_eq]
    exact ⟨_, rfl, hwindow (st.newMax.toNat - st.newMin.toNat + 1) _ (by omega) fun _ _ => rfl⟩
  · have hlo0 : lo = 0 := by
      have : ¬min.toNat < st.newMin.toNat := fun hlt' => hcut (.inl (UInt8.lt_iff_toNat_lt.mpr hlt'))
      omega
    have hhi' : hi = count - 1 := by omega
    have hmin' : st.newMin = min := UInt8.toNat_inj.mp (by omega)
    have hw := hwindow count st.next (by omega)
      fun i _ => by rw [hlo0, zero_add]
    rw [hmin'] at hw
    simp only [hcut, ↓reduceIte]
    exact ⟨_, rfl, hw⟩

end

end Loop

lemma wf_of_survivors {pipe : P} {min min' : UInt8} {count count' live' : ℕ}
    {next next' kids : ℕ → Mtrie P} (hdropped : Dropped pipe count next kids)
    (hshape : Shape min' count' live' next')
    (hslot : slot min' count' next' = slot min count (survivor next kids))
    (pipes : Option (Finset P)) (live : ℕ) :
    WF (node (dropPipe pipe pipes) min' count' live' next') ∧
      ∀ k, get k (node (dropPipe pipe pipes) min' count' live' next') =
        dropPipe pipe (get k (node pipes min count live next)) := by
  -- what a slot holds
  have hkid : ∀ n, (slot min count (survivor next kids) n = .null ∧
      ∀ k, dropPipe pipe (get k (slot min count next n)) = none) ∨
      ∃ i < count, slot min count (survivor next kids) n = kids i ∧ slot min count next n = next i ∧
        (next i).isLive = true ∧ (kids i).isRedundant = false := by
    intro n
    by_cases hn : min.toNat ≤ n ∧ n < min.toNat + count
    · have hi : n - min.toNat < count := by omega
      rw [slot_of_mem _ hn.1 hn.2, slot_of_mem _ hn.1 hn.2]
      cases hl : (next (n - min.toNat)).isLive with
      | false =>
        refine .inl ⟨by simp [survivor, hl], fun k => ?_⟩
        rw [eq_null hl, get_null]
        rfl
      | true =>
        cases hred : (kids (n - min.toNat)).isRedundant with
        | true =>
          obtain ⟨hkwf, -, hkget⟩ := hdropped _ hi hl
          refine .inl ⟨by simp [survivor, hred], fun k => ?_⟩
          rw [← hkget, get_of_redundant hkwf hred]
          rfl
        | false => exact .inr ⟨_, hi, by simp [survivor, hl, hred], rfl, hl, hred⟩
    · refine .inl ⟨slot_of_not_mem _ (by omega), fun k => ?_⟩
      rw [slot_of_not_mem _ (by omega), get_null]
      rfl
  constructor
  · refine wf_node_iff.mpr ⟨hshape, fun n => ?_⟩
    rw [hslot]
    rcases hkid n with ⟨hnull, -⟩ | ⟨i, hi, heq, -, hl, hred⟩
    · rw [hnull]
      exact ⟨trivial, rfl⟩
    · rw [heq]
      exact ⟨(hdropped i hi hl).1, hred⟩
  · intro k
    cases k with
    | nil => simp
    | cons c k =>
      rw [get_cons, get_cons, hslot]
      rcases hkid c.toNat with ⟨hnull, hnone⟩ | ⟨i, hi, heq, heq', hl, -⟩
      · rw [hnull, hnone, get_null]
        rfl
      · rw [heq, heq']
        exact (hdropped i hi hl).2.2 k

/-- **Removing a pipe.** The function is called with the prefixes that lose their last pipe, each
behind the bytes in the buffer, the pipe is dropped everywhere, and the representation is kept. -/
theorem rmPipeHelper_spec (pipe : P) {t : Mtrie P} (hwf : WF t) (hlive : t.isLive = true)
    (size max : ℕ) : Visits pipe size max t fun buff => rmPipeHelper pipe t buff size max := by
  induction t generalizing size max with
  | null => simp at hlive
  | node pipes min count live next ih =>
    intro buff hcap
    obtain ⟨hshape, hchildren⟩ := hwf
    have hb := hshape.bound
    obtain ⟨hbytes, hlt, hle, hcap1⟩ := buff.adjust_spec size hcap
    obtain ⟨⟨buff1, max1⟩, hadj⟩ : ∃ r, r = buff.adjust size max := ⟨_, rfl⟩
    rw [← hadj] at hbytes hlt hle hcap1
    dsimp only at hbytes hlt hle hcap1
    have hagree1 : buff.Agree size buff1 := fun i _ => congrFun hbytes i
    have hcalls : ((if losesLast pipe pipes then [[]] else []).map (buff.contents size ++ ·)) =
        if losesLast pipe pipes then [buff.contents size] else [] := by
      split <;> simp
    rw [keysWhere, map_append, hcalls, map_flatMap]
    simp only [rmPipeHelper, ← hadj]
    by_cases h0 : count = 0
    · subst h0
      have hdropped : Dropped pipe 0 next next := fun i hi => by omega
      have hslot : slot min 0 next = slot min 0 (survivor next next) := by
        funext n
        rw [slot_of_not_mem _ (by omega), slot_of_not_mem _ (by omega)]
      obtain ⟨hwf', hget⟩ := wf_of_survivors hdropped hshape hslot pipes live
      refine ⟨buff1, _, by simp; rfl, by omega, hagree1, hwf', rfl, hget⟩
    by_cases h1 : count = 1
    · subst h1
      have hl := hshape.first (by omega)
      obtain ⟨buff2, hput, hcap2, hagree2, hcont⟩ := buff1.put_spec size min (by omega)
      obtain ⟨buff3, child, hrun, hcap3, hagree3, hkwf, hklive, hkget⟩ :=
        ih 0 (hchildren 0 (by omega)).1 hl (size + 1) max1 buff2 (by omega)
      have hagree : buff.Agree size buff3 :=
        (hagree1.trans hagree2).trans fun j hj => hagree3 j (by omega)
      have hdropped : Dropped pipe 1 next fun _ => child := by
        intro i hi _
        rw [show i = 0 by omega]
        exact ⟨hkwf, hklive, hkget⟩
      have hkeys : (range 1).flatMap (fun i => ((keysWhere (losesLast pipe) (next i)).map
            (UInt8.ofNat (min.toNat + i) :: ·)).map (buff.contents size ++ ·)) =
          (keysWhere (losesLast pipe) (next 0)).map (buff2.contents (size + 1) ++ ·) := by
        simp only [range_one, flatMap_cons, flatMap_nil, append_nil,
          map_map, comp_def, hcont, hagree1.contents_eq, append_assoc,
          cons_append, nil_append, add_zero, UInt8.ofNat_toNat]
      have hlive1 : live = 1 := by
        rw [hshape.live_eq, liveSet_one min hl, Finset.card_singleton]
      subst hlive1
      rw [hkeys]
      cases hred : child.isRedundant with
      | true =>
        have hslot : slot min 0 (update next 0 .null) =
            slot min 1 (survivor next fun _ => child) := by
          funext n
          rw [slot_of_not_mem _ (by omega), slot_one]
          simp [survivor, hred]
        have hshape' : Shape min 0 0 (update next 0 (.null : Mtrie P)) :=
          ((hshape.erased (c := min) (by rw [slot_one, if_pos rfl]; exact hl)).only rfl _).2.1
        obtain ⟨hwf', hget⟩ := wf_of_survivors hdropped hshape' hslot pipes 1
        refine ⟨buff3, _, ?_, by omega, hagree, hwf', rfl, hget⟩
        simp only [hput, hrun, bind, Except.bind, hred]
        rfl
      | false =>
        have hslot : slot min 1 (update next 0 child) =
            slot min 1 (survivor next fun _ => child) := by
          funext n
          rw [slot_one, slot_one]
          simp [survivor, hl, hred]
        have hshape' : Shape min 1 1 (update next 0 child) :=
          shape_one min (by rw [update_self]; exact hklive)
        obtain ⟨hwf', hget⟩ := wf_of_survivors hdropped hshape' hslot pipes 1
        refine ⟨buff3, _, ?_, by omega, hagree, hwf', rfl, hget⟩
        simp only [hput, hrun, bind, Except.bind, hred]
        rfl
    · obtain ⟨st, kids, hrun, hst, hdropped⟩ := Swept.run
        (if losesLast pipe pipes then [buff.contents size] else []) hshape hlt
        (fun i hi hl => ih i (hchildren i hi).1 hl (size + 1) max1) hcap1 (le_refl count)
      obtain ⟨t, hok, hshape', hslot⟩ := hst.compact hb (by omega)
      obtain ⟨hwf', hget⟩ := wf_of_survivors hdropped hshape' hslot pipes live
      refine ⟨st.buff, _, ?_, hle.trans hst.capacity, hagree1.trans hst.agree, hwf', rfl, hget⟩
      simp only [h0, h1, ↓reduceIte, hrun, hok, bind, Except.bind]
      rw [hst.calls_eq]
      simp only [hagree1.contents_eq, map_map, comp_def]
      rfl

lemma rmPipe_spec (pipe : P) {t : Mtrie P} (hwf : WF t) (hlive : t.isLive = true) :
    ∃ t', rmPipe pipe t = .ok (keysWhere (losesLast pipe) t, t') ∧ WF t' ∧ t'.isLive = true ∧
      ∀ k, get k t' = dropPipe pipe (get k t) := by
  obtain ⟨buff, t', hrun, -, -, hwf', hlive', hget⟩ :=
    rmPipeHelper_spec pipe hwf hlive 0 0 Buffer.null (le_refl _)
  refine ⟨t', ?_, hwf', hlive', hget⟩
  simp only [rmPipe, hrun, bind, Except.bind]
  simp [Buffer.contents]
  rfl

end Mtrie

/-! ### The set of pairs -/

/-- The operations of the trie of pipes. -/
inductive MtrieOp (P : Type)
  | add (key : List UInt8) (pipe : P)
  | rm (key : List UInt8) (pipe : P)
  | rmPipe (pipe : P)
  | matchPipes (data : List UInt8)

/-- Their results; the calls of a function in no particular order. -/
inductive MtrieOutput (P : Type)
  | bool (b : Bool)
  | keys (calls : Multiset (List UInt8))
  | pipes (calls : Multiset P)

namespace Mtrie

open Node Foundation

variable {P : Type} [LinearOrder P]

/-- An operation of the trie of pipes. -/
def step (t : Mtrie P) : MtrieOp P → Except TrieFault (MtrieOutput P × Mtrie P)
  | .add key pipe => do
    let (b, t) ← add key pipe t
    return (.bool b, t)
  | .rm key pipe => do
    let (b, t) ← rm key pipe t
    return (.bool b, t)
  | .rmPipe pipe => do
    let (calls, t) ← rmPipe pipe t
    return (.keys calls, t)
  | .matchPipes data => do
    let calls ← matchPipes data t
    return (.pipes calls, t)

/-- What the trie of pipes is for: the same operations on a set of pairs of a prefix and a pipe. -/
def spec (S : Finset (List UInt8 × P)) : MtrieOp P → MtrieOutput P × Finset (List UInt8 × P)
  | .add key pipe => (.bool (∀ x ∈ S, x.1 ≠ key), insert (key, pipe) S)
  | .rm key pipe => (.bool (∀ x ∈ S.erase (key, pipe), x.1 ≠ key), S.erase (key, pipe))
  | .rmPipe pipe =>
    (.keys ((S.filter fun x => ∀ y ∈ S, y.1 = x.1 → y.2 = pipe).image Prod.fst).val,
      S.filter fun x => x.2 ≠ pipe)
  | .matchPipes data => (.pipes ((S.filter fun x => x.1 <+: data).val.map Prod.snd), S)

/-- A pipe is removed for a prefix only if it is there. -/
def Present (S : Finset (List UInt8 × P)) : MtrieOp P → Prop
  | .rm key pipe => (key, pipe) ∈ S
  | _ => True

/-- The trie stores the set of pairs. -/
structure Represents (t : Mtrie P) (S : Finset (List UInt8 × P)) : Prop where
  wf : WF t
  live : t.isLive = true
  mem : ∀ key pipe, (key, pipe) ∈ S ↔ pipe ∈ (get key t).getD ∅
  nonempty : ∀ key, get key t ≠ some ∅

lemma Represents.new : Represents (Node.new : Mtrie P) ∅ := by
  refine ⟨wf_new, rfl, fun key pipe => ?_, fun key => ?_⟩
  · rw [get_new]
    simp [default]
  · rw [get_new]
    simp [default]

section Represents

variable {t : Mtrie P} {S : Finset (List UInt8 × P)}

lemma Represents.get_eq_none (h : Represents t S) (key : List UInt8) :
    get key t = none ↔ ∀ x ∈ S, x.1 ≠ key := by
  constructor
  · rintro hnone ⟨k, p⟩ hx rfl
    have := (h.mem k p).mp hx
    rw [hnone] at this
    simp at this
  · intro hall
    cases hget : get key t with
    | none => rfl
    | some s =>
      obtain ⟨p, hp⟩ : s.Nonempty :=
        Finset.nonempty_iff_ne_empty.mpr fun hs => h.nonempty key (by rw [hget, hs])
      exact absurd rfl (hall (key, p) ((h.mem key p).mpr (by rw [hget]; exact hp)))

lemma mem_dropPipe (pipe q : P) (pipes : Option (Finset P)) :
    q ∈ (dropPipe pipe pipes).getD ∅ ↔ q ≠ pipe ∧ q ∈ pipes.getD ∅ := by
  cases pipes with
  | none => simp [dropPipe]
  | some s =>
    rw [dropPipe]
    split
    next hlast =>
      simp only [losesLast, Bool.and_eq_true, decide_eq_true_eq] at hlast
      rw [Option.getD_none, Option.getD_some, ← Finset.mem_erase, hlast.2]
    next => rw [Option.getD_some, Option.getD_some, Finset.mem_erase]

lemma dropPipe_ne_empty (pipe : P) {pipes : Option (Finset P)} (h : pipes ≠ some ∅) :
    dropPipe pipe pipes ≠ some ∅ := by
  cases pipes with
  | none => simp [dropPipe]
  | some s =>
    rw [dropPipe]
    split
    next => simp
    next hlast =>
      intro hempty
      have hs : s.erase pipe = ∅ := Option.some.inj hempty
      refine hlast ?_
      simp only [losesLast, hs, decide_true, Bool.and_true, decide_eq_true_eq]
      by_contra hmem
      rw [Finset.erase_eq_of_notMem hmem] at hs
      exact h (by rw [hs])

lemma Represents.add (h : Represents t S) (key : List UInt8) (pipe : P) :
    ∃ t', Mtrie.add key pipe t = .ok (decide (∀ x ∈ S, x.1 ≠ key), t') ∧
      Represents t' (insert (key, pipe) S) := by
  obtain ⟨t', hok, hwf, hlive, hget⟩ := add_spec key pipe h.wf h.live
  refine ⟨t', ?_, hwf, hlive, fun k p => ?_, fun k => ?_⟩
  · have hnone : (get key t).isNone = decide (∀ x ∈ S, x.1 ≠ key) := by
      rw [Bool.eq_iff_iff, decide_eq_true_iff, Option.isNone_iff_eq_none, h.get_eq_none]
    rw [hok, hnone]
  · rw [hget, Finset.mem_insert, Prod.mk.injEq, h.mem]
    by_cases hk : k = key
    · subst hk
      simp
    · simp [hk]
  · rw [hget]
    split
    · simp
    · exact h.nonempty k

lemma Represents.rm (h : Represents t S) {key : List UInt8} {pipe : P} (hmem : (key, pipe) ∈ S) :
    ∃ t', Mtrie.rm key pipe t = .ok (decide (∀ x ∈ S.erase (key, pipe), x.1 ≠ key), t') ∧
      Represents t' (S.erase (key, pipe)) := by
  have hp := (h.mem key pipe).mp hmem
  cases hs : get key t with
  | none =>
    rw [hs] at hp
    simp at hp
  | some s =>
    rw [hs, Option.getD_some] at hp
    obtain ⟨t', hok, hwf, hlive, hget⟩ := rm_spec key h.wf hs hp
    have ht' : Represents t' (S.erase (key, pipe)) := by
      refine ⟨hwf, hlive, fun k q => ?_, fun k => ?_⟩
      · rw [hget, Finset.mem_erase, ne_eq, Prod.mk.injEq, h.mem]
        by_cases hk : k = key
        · subst hk
          rw [if_pos rfl, mem_dropPipe, hs]
          simp
        · simp [hk]
      · rw [hget]
        split
        · exact dropPipe_ne_empty pipe (hs ▸ h.nonempty key)
        · exact h.nonempty k
    refine ⟨t', ?_, ht'⟩
    have hlast : decide (s.erase pipe = ∅) = decide (∀ x ∈ S.erase (key, pipe), x.1 ≠ key) := by
      rw [decide_eq_decide, ← ht'.get_eq_none key, hget, if_pos rfl, dropPipe]
      simp [losesLast, hp]
    rw [hok, hlast]

/-- Removing a pipe that is not there for this prefix fails if other pipes are. Otherwise it changes
nothing, and reports that the prefix is not needed any more if a longer one is stored. -/
lemma Represents.rm_absent (h : Represents t S) {key : List UInt8} {pipe : P}
    (hmem : (key, pipe) ∉ S) :
    ((∃ x ∈ S, x.1 = key) ∧ Mtrie.rm key pipe t = .error .assertFailed) ∨
      (∀ x ∈ S, x.1 ≠ key) ∧
        Mtrie.rm key pipe t = .ok (decide (key = [] ∨ ∃ x ∈ S, key <+: x.1), t) := by
  have hp : pipe ∉ (get key t).getD ∅ := fun hp => hmem ((h.mem key pipe).mpr hp)
  cases hs : get key t with
  | some pipes =>
    left
    rw [hs, Option.getD_some] at hp
    have hne : ¬get key t = none := by simp [hs]
    rw [h.get_eq_none] at hne
    refine ⟨by simpa using hne, rmHelper_of_error key (by simp [hs]) ?_⟩
    rw [hs]
    simp [erasePipe, hp]
  | none =>
    right
    refine ⟨(h.get_eq_none key).mp hs, ?_⟩
    rw [Mtrie.rm, rmHelper_of_default rfl key h.wf h.live hs, Bool.true_and]
    have hiff : t.reaches key = true ↔ key = [] ∨ ∃ x ∈ S, key <+: x.1 := by
      rw [reaches_iff key h.wf h.live]
      refine or_congr_right ⟨?_, ?_⟩
      · rintro ⟨rest, hrest⟩
        have hex : ¬∀ x ∈ S, x.1 ≠ key ++ rest := fun hnone => hrest ((h.get_eq_none _).mpr hnone)
        push Not at hex
        obtain ⟨x, hx, heq⟩ := hex
        exact ⟨x, hx, heq ▸ prefix_append key rest⟩
      · rintro ⟨x, hx, rest, heq⟩
        refine ⟨rest, fun hnone => (h.get_eq_none _).mp hnone x hx heq.symm⟩
    congr 2
    rw [Bool.eq_iff_iff, hiff, decide_eq_true_iff]

lemma Represents.rmPipe (h : Represents t S) (pipe : P) :
    ∃ t' calls, Mtrie.rmPipe pipe t = .ok (calls, t') ∧ (calls : Multiset (List UInt8)) =
        ((S.filter fun x => ∀ y ∈ S, y.1 = x.1 → y.2 = pipe).image Prod.fst).val ∧
      Represents t' (S.filter fun x => x.2 ≠ pipe) := by
  obtain ⟨t', hok, hwf, hlive, hget⟩ := rmPipe_spec pipe h.wf h.live
  refine ⟨t', _, hok, ?_, hwf, hlive, fun k q => ?_, fun k => ?_⟩
  · have hnodup : (keysWhere (losesLast pipe) t : Multiset (List UInt8)).Nodup :=
      nodup_keysWhere h.wf
    refine (hnodup.ext (Finset.nodup _)).mpr fun k => ?_
    rw [Multiset.mem_coe, mem_keysWhere rfl h.wf, Finset.mem_val, Finset.mem_image]
    constructor
    · intro hlast
      cases hs : get k t with
      | none =>
        rw [hs] at hlast
        exact absurd hlast (by simp [losesLast])
      | some s =>
        rw [hs] at hlast
        simp only [losesLast, Bool.and_eq_true, decide_eq_true_eq] at hlast
        refine ⟨(k, pipe), Finset.mem_filter.mpr ⟨?_, ?_⟩, rfl⟩
        · rw [h.mem, hs]
          exact hlast.1
        rintro ⟨k', q⟩ hy rfl
        rw [h.mem, hs, Option.getD_some] at hy
        by_contra hne
        have : q ∈ s.erase pipe := Finset.mem_erase.mpr ⟨hne, hy⟩
        rw [hlast.2] at this
        exact absurd this (Finset.notMem_empty q)
    · rintro ⟨⟨k', p⟩, hfilter, rfl⟩
      obtain ⟨hx, hall⟩ := Finset.mem_filter.mp hfilter
      obtain rfl : p = pipe := hall _ hx rfl
      have hp := (h.mem k' p).mp hx
      cases hs : get k' t with
      | none =>
        rw [hs] at hp
        simp at hp
      | some s =>
        rw [hs, Option.getD_some] at hp
        simp only [losesLast, hp, decide_true, Bool.true_and, decide_eq_true_eq]
        refine Finset.eq_empty_iff_forall_notMem.mpr fun q hq => ?_
        obtain ⟨hne, hq⟩ := Finset.mem_erase.mp hq
        exact hne (hall (k', q) ((h.mem k' q).mpr (by rw [hs]; exact hq)) rfl)
  · rw [hget, Finset.mem_filter, mem_dropPipe, h.mem, and_comm]
  · rw [hget]
    exact dropPipe_ne_empty pipe (h.nonempty k)

lemma nodup_inits (l : List UInt8) : l.inits.Nodup := by
  induction l with
  | nil => simp
  | cons a l ih =>
    rw [inits_cons, nodup_cons]
    exact ⟨by simp, ih.map fun _ _ h => (cons.inj h).2⟩

lemma Represents.matchPipes (h : Represents t S) (data : List UInt8) :
    ∃ calls, Mtrie.matchPipes data t = .ok calls ∧
      (calls : Multiset P) = (S.filter fun x => x.1 <+: data).val.map Prod.snd := by
  refine ⟨_, matchPipes_spec data h.wf h.live, ?_⟩
  -- the calls with the prefix they are made for
  let pairs := data.inits.flatMap fun k => (attached (get k t)).map (Prod.mk k)
  have hsnd : pairs.map Prod.snd = data.inits.flatMap fun k => attached (get k t) := by
    simp only [pairs, map_flatMap, map_map, comp_def, map_id']
  have hattached : ∀ k p, p ∈ attached (get k t) ↔ p ∈ (get k t).getD ∅ := fun k p => by
    cases get k t <;> simp [attached]
  have hpairs : (pairs : Multiset (List UInt8 × P)) = (S.filter fun x => x.1 <+: data).val := by
    have hnodup : (pairs : Multiset (List UInt8 × P)).Nodup := by
      refine Multiset.coe_nodup.mpr (nodup_flatMap.mpr ⟨fun k _ => ?_, ?_⟩)
      · refine List.Nodup.map (fun a b hab => (Prod.mk.inj hab).2) ?_
        cases get k t with
        | none => exact nodup_nil
        | some s => exact s.sort_nodup _
      · refine (nodup_inits data).pairwise_of_forall_ne fun k _ k' _ hne => ?_
        simp only [onFun, disjoint_left, mem_map]
        rintro _ ⟨p, -, rfl⟩ ⟨p', -, heq⟩
        exact hne (Prod.mk.inj heq).1.symm
    refine (hnodup.ext (Finset.nodup _)).mpr fun x => ?_
    obtain ⟨k, p⟩ := x
    rw [Multiset.mem_coe, Finset.mem_val, Finset.mem_filter, h.mem]
    simp only [pairs, mem_flatMap, mem_map, Prod.mk.injEq, mem_inits]
    constructor
    · rintro ⟨k', hk, p', hp, rfl, rfl⟩
      exact ⟨(hattached _ _).mp hp, hk⟩
    · rintro ⟨hp, hk⟩
      exact ⟨k, hk, p, (hattached k p).mpr hp, rfl, rfl⟩
  rw [← hsnd, ← hpairs, Multiset.map_coe]

lemma Represents.step (h : Represents t S) (op : MtrieOp P) (hop : Present S op) :
    ∃ t', Mtrie.step t op = .ok ((spec S op).1, t') ∧ Represents t' (spec S op).2 := by
  cases op with
  | add key pipe =>
    obtain ⟨t', hok, ht'⟩ := h.add key pipe
    refine ⟨t', ?_, ht'⟩
    simp only [Mtrie.step, hok, bind, Except.bind, spec]
    rfl
  | rm key pipe =>
    obtain ⟨t', hok, ht'⟩ := h.rm hop
    refine ⟨t', ?_, ht'⟩
    simp only [Mtrie.step, hok, bind, Except.bind, spec]
    rfl
  | rmPipe pipe =>
    obtain ⟨t', calls, hok, hcalls, ht'⟩ := h.rmPipe pipe
    refine ⟨t', ?_, ht'⟩
    simp only [Mtrie.step, hok, bind, Except.bind, spec, hcalls]
    rfl
  | matchPipes data =>
    obtain ⟨calls, hok, hcalls⟩ := h.matchPipes data
    refine ⟨t, ?_, h⟩
    simp only [Mtrie.step, hok, bind, Except.bind, spec, hcalls]
    rfl

end Represents

end Mtrie

open Foundation in
/-- **The trie of pipes refines a set of pairs.** In every sequence of operations in which a pipe is
removed for a prefix only if it is there, no assertion fails and no pointer is null or out of bounds,
every result is the one the operation has on the set, and the representation is well formed
afterwards. -/
theorem mtrie_refines_pairs {P : Type} [LinearOrder P] (ops : List (MtrieOp P))
    (hpresent : InputsMeet Mtrie.spec Mtrie.Present ∅ ops) :
    ∃ t, runMachine Mtrie.step Node.new ops = .ok ((runSpec Mtrie.spec ∅ ops).1, t) ∧
      Mtrie.Represents t (runSpec Mtrie.spec ∅ ops).2 :=
  refines_run (fun _ _ op h hop => h.step op hop) Mtrie.Represents.new hpresent

/-- Two pipes share a prefix; one of them is removed everywhere, the other for that prefix. -/
theorem mtrie_refines_pairs_example :
    ∃ t, Foundation.runMachine (Mtrie.step (P := ℕ)) Node.new
        [.add [1, 2] 7, .add [1, 2] 8, .add [3] 7, .rmPipe 7, .matchPipes [1, 2, 5], .rm [1, 2] 8] =
      .ok ((Foundation.runSpec Mtrie.spec ∅ [.add [1, 2] 7, .add [1, 2] 8, .add [3] 7, .rmPipe 7,
        .matchPipes [1, 2, 5], .rm [1, 2] 8]).1, t) ∧
      Mtrie.Represents t (Foundation.runSpec Mtrie.spec ∅ [.add [1, 2] 7, .add [1, 2] 8,
        .add [3] 7, .rmPipe 7, .matchPipes [1, 2, 5], .rm [1, 2] 8]).2 :=
  mtrie_refines_pairs _ (by simp [Foundation.InputsMeet, Mtrie.spec, Mtrie.Present])

end Zmq
