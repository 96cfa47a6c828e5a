import Mathlib.Data.List.Basic

/-!
# Arrays of items that know their index

`array_t` is a vector of pointers to items, and every item stores the index it stands at, so that an
item can be swapped and erased in constant time. An access outside of the vector is undefined in the
source and has no result here.

`PipeArray.WF` says that the stored indices are right. The lemmas describe what is at each index after
an operation.
-/

namespace Zmq

open Function List Option

/-- `array_t`: the vector, of fewer than 2^31 items, and the field `array_index` of the items. -/
structure PipeArray (P : Type) where
  items : List P
  index : P → ℕ

namespace PipeArray

variable {P : Type} [DecidableEq P] {a : PipeArray P} {i j k : ℕ} {p q x y : P}

/-- The empty array. -/
def empty : PipeArray P := ⟨[], fun _ => 0⟩

/-- `array_t::push_back`. -/
def pushBack (a : PipeArray P) (p : P) : PipeArray P :=
  ⟨a.items ++ [p], update a.index p a.items.length⟩

/-- `array_t::erase`: the last item takes the place of the erased one. -/
def erase (a : PipeArray P) (i : ℕ) : Option (PipeArray P) :=
  match a.items.getLast? with
  | none => none
  | some back =>
    if i < a.items.length then
      some ⟨(a.items.set i back).dropLast, update a.index back i⟩
    else none

/-- `array_t::swap`. -/
def swap (a : PipeArray P) (i j : ℕ) : Option (PipeArray P) :=
  match a.items[i]?, a.items[j]? with
  | some x, some y =>
    some ⟨(a.items.set i y).set j x, update (update a.index x j) y i⟩
  | _, _ => none

/-- An item below index `k` changes places with the last of these items, so that it is not one of the
first `k - 1`. -/
def leave (a : PipeArray P) (k : ℕ) (p : P) : Option (PipeArray P × ℕ) :=
  if a.index p < k then (a.swap (a.index p) (k - 1)).map fun a => (a, k - 1) else some (a, k)

/-- Every item knows its index. -/
def WF (a : PipeArray P) : Prop := ∀ i p, a.items[i]? = some p → a.index p = i

/-! ### What is where -/

omit [DecidableEq P] in
lemma empty_wf : (empty : PipeArray P).WF := by
  intro i p h
  simp [empty] at h

omit [DecidableEq P] in
lemma lt_length (h : a.items[i]? = some p) : i < a.items.length :=
  (List.getElem?_eq_some_iff.mp h).1

omit [DecidableEq P] in
lemma exists_item (h : i < a.items.length) : ∃ p, a.items[i]? = some p :=
  ⟨a.items[i], getElem?_eq_getElem h⟩

omit [DecidableEq P] in
lemma WF.at_index (h : a.WF) (hp : p ∈ a.items) : a.items[a.index p]? = some p := by
  obtain ⟨i, hi⟩ := mem_iff_getElem?.mp hp
  rwa [h i p hi]

omit [DecidableEq P] in
lemma WF.inj (h : a.WF) (hi : a.items[i]? = some p) (hj : a.items[j]? = some p) : i = j :=
  (h i p hi).symm.trans (h j p hj)

lemma pushBack_items (a : PipeArray P) (p : P) (k : ℕ) :
    (a.pushBack p).items[k]? = if k = a.items.length then some p else a.items[k]? := by
  simp only [pushBack, getElem?_append, getElem?_singleton]
  by_cases hk : k < a.items.length
  · rw [if_pos hk, if_neg (Nat.ne_of_lt hk)]
  rw [if_neg hk]
  by_cases heq : k = a.items.length
  · rw [if_pos heq, if_pos (by omega)]
  · rw [if_neg heq, if_neg (by omega), getElem?_eq_none (by omega)]

lemma WF.pushBack (h : a.WF) (hp : p ∉ a.items) : (a.pushBack p).WF := by
  intro k q hk
  rw [pushBack_items] at hk
  split at hk
  next heq =>
    obtain rfl := some.inj hk
    simp [PipeArray.pushBack, heq]
  have hne : q ≠ p := fun heq => hp (heq ▸ mem_of_getElem? hk)
  simp only [PipeArray.pushBack, update_of_ne hne]
  exact h k q hk

omit [DecidableEq P] in
lemma set_set_items (l : List P) (hi : i < l.length) (hj : j < l.length) (k : ℕ) :
    ((l.set i y).set j x)[k]? = if k = j then some x else if k = i then some y else l[k]? := by
  simp only [getElem?_set, length_set]
  by_cases hkj : k = j
  · simp [hkj, hj]
  rw [if_neg (Ne.symm hkj), if_neg hkj]
  by_cases hki : k = i
  · simp [hki, hi]
  · rw [if_neg (Ne.symm hki), if_neg hki]

lemma WF.swap (h : a.WF) (hi : a.items[i]? = some x) (hj : a.items[j]? = some y) :
    ∃ b, a.swap i j = some b ∧ b.WF ∧ b.items.length = a.items.length ∧
      ∀ k, b.items[k]? = if k = j then some x else if k = i then some y else a.items[k]? := by
  have hitems := set_set_items (x := x) (y := y) a.items (lt_length hi) (lt_length hj)
  refine ⟨⟨(a.items.set i y).set j x, update (update a.index x j) y i⟩,
    by rw [PipeArray.swap, hi, hj], ?_, by simp, hitems⟩
  intro k p hk
  simp only [hitems] at hk
  split at hk
  next hkj =>
    obtain rfl := some.inj hk
    -- the item at `i` is now at `j`; it is also the second one only if `i = j`
    by_cases hxy : x = y
    · subst hxy
      simp [hkj, h.inj hi hj]
    · simp [update_of_ne hxy, hkj]
  next hkj =>
    split at hk
    next hki =>
      obtain rfl := some.inj hk
      simp [hki]
    next hki =>
      have hpx : p ≠ x := fun heq => hki (h.inj hk (heq ▸ hi))
      have hpy : p ≠ y := fun heq => hkj (h.inj hk (heq ▸ hj))
      simp only [update_of_ne hpy, update_of_ne hpx]
      exact h k p hk

lemma WF.swap_self (h : a.WF) (hi : a.items[i]? = some x) : a.swap i i = some a := by
  obtain ⟨hlt, rfl⟩ := List.getElem?_eq_some_iff.mp hi
  have hindex : a.index a.items[i] = i := h i _ hi
  simp only [PipeArray.swap, hi, List.set_getElem_self, update_idem]
  rw [update_eq_self_iff.mpr hindex.symm]

lemma WF.swap_comm (h : a.WF) (i j : ℕ) : a.swap i j = a.swap j i := by
  simp only [PipeArray.swap]
  cases hi : a.items[i]? with
  | none => cases a.items[j]? <;> rfl
  | some x =>
    cases hj : a.items[j]? with
    | none => rfl
    | some y =>
      by_cases hij : i = j
      · subst hij
        rw [some.inj (hi.symm.trans hj)]
      have hxy : x ≠ y := by
        rintro rfl
        exact hij (h.inj hi hj)
      simp only
      rw [set_comm _ _ hij, update_comm hxy]

lemma WF.erase (h : a.WF) (hi : a.items[i]? = some p) :
    ∃ b, a.erase i = some b ∧ b.WF ∧ b.items.length + 1 = a.items.length ∧
      (∀ k, k ≠ i → k + 1 < a.items.length → b.items[k]? = a.items[k]?) ∧
      ∀ q, q ∈ b.items ↔ q ∈ a.items ∧ q ≠ p := by
  have hlt := lt_length hi
  obtain ⟨back, hback⟩ : ∃ back, a.items[a.items.length - 1]? = some back := exists_item (by omega)
  have hlast : a.items.getLast? = some back := by rw [getLast?_eq_getElem?, hback]
  have hitems : ∀ k, (a.items.set i back).dropLast[k]? =
      if k + 1 < a.items.length then if k = i then some back else a.items[k]? else none := by
    intro k
    rw [getElem?_dropLast, length_set, getElem?_set]
    by_cases hk : k + 1 < a.items.length
    · rw [if_pos (by omega), if_pos hk]
      by_cases hki : k = i
      · simp [hki, hlt]
      · rw [if_neg (Ne.symm hki), if_neg hki]
    · rw [if_neg (by omega), if_neg hk]
  refine ⟨⟨(a.items.set i back).dropLast, update a.index back i⟩, ?_, ?_, ?_, ?_, ?_⟩
  · simp only [PipeArray.erase, hlast, if_pos hlt]
  · intro k q hk
    simp only [hitems] at hk
    split at hk
    next hk1 =>
      split at hk
      next hki =>
        obtain rfl := some.inj hk
        simp [hki]
      next hki =>
        have hne : q ≠ back := by
          rintro rfl
          have := h.inj hk hback
          omega
        simp only [update_of_ne hne]
        exact h k q hk
    next => simp at hk
  · simp
    omega
  · intro k hki hk
    rw [hitems, if_pos hk, if_neg hki]
  · intro q
    simp only [mem_iff_getElem?, hitems]
    constructor
    · rintro ⟨k, hk⟩
      split at hk
      next hk1 =>
        split at hk
        next hki =>
          obtain rfl := some.inj hk
          refine ⟨⟨_, hback⟩, ?_⟩
          rintro rfl
          have := h.inj hi hback
          omega
        next hki =>
          refine ⟨⟨k, hk⟩, ?_⟩
          rintro rfl
          exact hki (h.inj hk hi)
      next => simp at hk
    · rintro ⟨⟨k, hk⟩, hne⟩
      have hkl := lt_length hk
      by_cases hlastk : k + 1 < a.items.length
      · refine ⟨k, ?_⟩
        have hki : k ≠ i := by
          rintro rfl
          exact hne (some.inj (hk.symm.trans hi))
        rw [if_pos hlastk, if_neg hki, hk]
      · -- the last item is at `i` now
        obtain rfl : k = a.items.length - 1 := by omega
        have hqb : q = back := some.inj (hk.symm.trans hback)
        have hii : i ≠ a.items.length - 1 := by
          rintro rfl
          exact hne (some.inj (hk.symm.trans hi))
        exact ⟨i, by rw [if_pos (by omega), if_pos rfl, hqb]⟩

/-! ### Items below an index -/

/-- The item `x` moves to index `j`, and the item that was there takes its place. -/
structure Moved (a b : PipeArray P) (x : P) (j : ℕ) : Prop where
  wf : b.WF
  length : b.items.length = a.items.length
  mem_iff : ∀ q, q ∈ b.items ↔ q ∈ a.items
  index_self : b.index x = j
  /-- Any other item stays, or it was at `j` and is now where `x` was. -/
  index_of_ne : ∀ q ∈ a.items, q ≠ x →
    (a.index q ≠ j ∧ b.index q = a.index q) ∨
      (a.index q = j ∧ a.index x ≠ j ∧ b.index q = a.index x)

omit [DecidableEq P] in
lemma WF.index_inj (h : a.WF) (hp : p ∈ a.items) (hq : q ∈ a.items)
    (heq : a.index p = a.index q) : p = q := by
  have hat := h.at_index hp
  rw [heq, h.at_index hq] at hat
  exact (some.inj hat).symm

omit [DecidableEq P] in
lemma WF.index_lt (h : a.WF) (hp : p ∈ a.items) : a.index p < a.items.length :=
  lt_length (h.at_index hp)

lemma WF.move (h : a.WF) (hx : x ∈ a.items) (hj : j < a.items.length) :
    ∃ b, a.swap (a.index x) j = some b ∧ Moved a b x j := by
  obtain ⟨y, hy⟩ := exists_item hj
  obtain ⟨b, hb, hwf, hlen, hitems⟩ := h.swap (h.at_index hx) hy
  have hbx : b.items[j]? = some x := by rw [hitems, if_pos rfl]
  refine ⟨b, hb, hwf, hlen, fun q => ?_, hwf j x hbx, fun q hq hne => ?_⟩
  · simp only [mem_iff_getElem?]
    constructor
    · rintro ⟨k, hk⟩
      rw [hitems] at hk
      split_ifs at hk
      · exact ⟨_, hk ▸ h.at_index hx⟩
      · exact ⟨j, hk ▸ hy⟩
      · exact ⟨k, hk⟩
    · rintro ⟨k, hk⟩
      by_cases hqx : q = x
      · exact ⟨j, hqx ▸ hbx⟩
      by_cases hkj : k = j
      · have hqy : q = y := by
          rw [hkj, hy] at hk
          exact (some.inj hk).symm
        have hyx : y ≠ x := hqy ▸ hqx
        refine ⟨a.index x, ?_⟩
        have hxj : a.index x ≠ j := by
          intro heq
          rw [← heq, h.at_index hx] at hy
          exact hyx (some.inj hy).symm
        rw [hitems, if_neg hxj, if_pos rfl, hqy]
      · refine ⟨k, ?_⟩
        have hkx : k ≠ a.index x := by
          rintro rfl
          rw [h.at_index hx] at hk
          exact hqx (some.inj hk).symm
        rw [hitems, if_neg hkj, if_neg hkx, hk]
  · by_cases hqj : a.index q = j
    · right
      have hqy : q = y := by
        have := h.at_index hq
        rw [hqj, hy] at this
        exact (some.inj this).symm
      have hxj : a.index x ≠ j := fun heq => hne (h.index_inj hq hx (hqj.trans heq.symm))
      refine ⟨hqj, hxj, hwf _ _ ?_⟩
      rw [hitems, if_neg hxj, if_pos rfl, hqy]
    · left
      have hqx : a.index q ≠ a.index x := fun heq => hne (h.index_inj hq hx heq)
      refine ⟨hqj, hwf _ _ ?_⟩
      rw [hitems, if_neg hqj, if_neg hqx]
      exact h.at_index hq

lemma WF.of_swap {b : PipeArray P} (h : a.WF) (hb : a.swap i j = some b) :
    b.WF ∧ ∀ q, q ∈ b.items ↔ q ∈ a.items := by
  cases hi : a.items[i]? with
  | none => simp [PipeArray.swap, hi] at hb
  | some x =>
    cases hj : a.items[j]? with
    | none => simp [PipeArray.swap, hj] at hb
    | some y =>
      obtain ⟨b', hb', hmoved⟩ := h.move (mem_of_getElem? hi) (lt_length hj)
      rw [h i x hi, hb] at hb'
      obtain rfl := some.inj hb'
      exact ⟨hmoved.wf, hmoved.mem_iff⟩

namespace Moved

variable {b : PipeArray P}

lemma lt_iff (h : Moved a b x j) (hk : a.index x < k ↔ j < k) (hq : q ∈ a.items) :
    b.index q < k ↔ a.index q < k := by
  by_cases hqx : q = x
  · rw [hqx, h.index_self, hk]
  · rcases h.index_of_ne q hq hqx with ⟨-, heq⟩ | ⟨hqj, -, heq⟩
    · rw [heq]
    · rw [heq, hqj, hk]

lemma lt_iff_demoted (h : Moved a b x j) (hx : a.index x ≤ j) (hq : q ∈ a.items) :
    b.index q < j ↔ a.index q < j + 1 ∧ q ≠ x := by
  by_cases hqx : q = x
  · rw [hqx, h.index_self]
    simp
  rcases h.index_of_ne q hq hqx with ⟨hne, heq⟩ | ⟨hqj, hxj, heq⟩
  · simp only [heq, hqx, ne_eq, not_false_eq_true, and_true]
    omega
  · simp only [heq, hqj, hqx, ne_eq, not_false_eq_true, and_true]
    omega

lemma lt_iff_promoted (h : Moved a b x j) (hx : j ≤ a.index x) (hq : q ∈ a.items) :
    b.index q < j + 1 ↔ a.index q < j ∨ q = x := by
  by_cases hqx : q = x
  · rw [hqx, h.index_self]
    simp
  rcases h.index_of_ne q hq hqx with ⟨hne, heq⟩ | ⟨hqj, hxj, heq⟩
  · simp only [heq, hqx, or_false]
    omega
  · simp only [heq, hqj, hqx, or_false]
    omega

lemma below_iff (h : Moved a b x j) (hk : a.index x < k ↔ j < k) (q : P) :
    q ∈ b.items ∧ b.index q < k ↔ q ∈ a.items ∧ a.index q < k := by
  rw [h.mem_iff]
  exact and_congr_right fun hq => h.lt_iff hk hq

lemma below_demoted (h : Moved a b x j) (hx : a.index x ≤ j) (q : P) :
    q ∈ b.items ∧ b.index q < j ↔ (q ∈ a.items ∧ a.index q < j + 1) ∧ q ≠ x := by
  rw [h.mem_iff, and_assoc]
  exact and_congr_right fun hq => h.lt_iff_demoted hx hq

lemma below_promoted (h : Moved a b x j) (hmem : x ∈ a.items) (hx : j ≤ a.index x) (q : P) :
    q ∈ b.items ∧ b.index q < j + 1 ↔ (q ∈ a.items ∧ a.index q < j) ∨ q = x := by
  rw [h.mem_iff]
  constructor
  · rintro ⟨hq, hlt⟩
    exact ((h.lt_iff_promoted hx hq).1 hlt).imp (fun hlt => ⟨hq, hlt⟩) id
  · rintro (⟨hq, hlt⟩ | rfl)
    · exact ⟨hq, (h.lt_iff_promoted hx hq).2 (.inl hlt)⟩
    · exact ⟨hmem, (h.lt_iff_promoted hx hmem).2 (.inr rfl)⟩

end Moved

lemma WF.leave (h : a.WF) (hp : p ∈ a.items) (hk : k ≤ a.items.length) :
    ∃ b k', a.leave k p = some (b, k') ∧ b.WF ∧ b.items.length = a.items.length ∧
      (∀ q, q ∈ b.items ↔ q ∈ a.items) ∧ k' + (if a.index p < k then 1 else 0) = k ∧
      (∀ q, q ∈ b.items ∧ b.index q < k' ↔ (q ∈ a.items ∧ a.index q < k) ∧ q ≠ p) ∧
      ∀ j, (j ≤ a.index p ∨ k ≤ j) → ∀ q, q ∈ b.items ∧ b.index q < j ↔ q ∈ a.items ∧ a.index q < j := by
  unfold PipeArray.leave
  by_cases hlt : a.index p < k
  · obtain ⟨b, hb, hmoved⟩ := h.move hp (j := k - 1) (by omega)
    have hless := hmoved.below_demoted (by omega)
    rw [Nat.sub_add_cancel (by omega)] at hless
    refine ⟨b, k - 1, ?_, hmoved.wf, hmoved.length, hmoved.mem_iff, ?_, hless, fun j hj => ?_⟩
    · rw [if_pos hlt, hb]
      rfl
    · rw [if_pos hlt]
      omega
    · exact hmoved.below_iff (by omega)
  · refine ⟨a, k, if_neg hlt, h, rfl, fun _ => Iff.rfl, by rw [if_neg hlt, Nat.add_zero], fun q => ?_,
      fun _ _ _ => Iff.rfl⟩
    refine ⟨fun hq => ⟨hq, ?_⟩, fun hq => hq.1⟩
    rintro rfl
    exact hlt hq.2

lemma WF.insertAt (h : a.WF) (hp : p ∉ a.items) (hj : j ≤ a.items.length) :
    ∃ b, (a.pushBack p).swap j ((a.pushBack p).items.length - 1) = some b ∧ b.WF ∧
      b.items.length = a.items.length + 1 ∧ (∀ q, q ∈ b.items ↔ q ∈ a.items ∨ q = p) ∧
      (∀ k ≤ j, ∀ q, q ∈ b.items ∧ b.index q < k ↔ q ∈ a.items ∧ a.index q < k) ∧
      ∀ q, q ∈ b.items ∧ b.index q < j + 1 ↔ (q ∈ a.items ∧ a.index q < j) ∨ q = p := by
  have hwf : (a.pushBack p).WF := h.pushBack hp
  have hlen : (a.pushBack p).items.length = a.items.length + 1 := by simp [PipeArray.pushBack]
  have hmem : ∀ q, q ∈ (a.pushBack p).items ↔ q ∈ a.items ∨ q = p := by
    simp [PipeArray.pushBack]
  have hpidx : (a.pushBack p).index p = a.items.length := by simp [PipeArray.pushBack]
  have hidx : ∀ q ∈ a.items, (a.pushBack p).index q = a.index q := by
    intro q hq
    have hne : q ≠ p := by
      rintro rfl
      exact hp hq
    simp [PipeArray.pushBack, update_of_ne hne]
  obtain ⟨b, hb, hmoved⟩ := hwf.move ((hmem p).2 (.inr rfl)) (j := j) (by omega)
  have hbmem : ∀ q, q ∈ b.items ↔ q ∈ a.items ∨ q = p := fun q => (hmoved.mem_iff q).trans (hmem q)
  refine ⟨b, ?_, hmoved.wf, by rw [hmoved.length, hlen], hbmem, fun k hk q => ?_, fun q => ?_⟩
  · rw [hwf.swap_comm, hlen, Nat.add_sub_cancel, ← hpidx]
    exact hb
  · rw [hbmem]
    constructor
    · rintro ⟨hq, hlt⟩
      rw [hmoved.lt_iff (by omega) ((hmem q).2 hq)] at hlt
      rcases hq with hq | rfl
      · exact ⟨hq, hidx q hq ▸ hlt⟩
      · omega
    · rintro ⟨hq, hlt⟩
      refine ⟨.inl hq, ?_⟩
      rw [hmoved.lt_iff (by omega) ((hmem q).2 (.inl hq)), hidx q hq]
      exact hlt
  · rw [hbmem]
    constructor
    · rintro ⟨hq, hlt⟩
      rw [hmoved.lt_iff_promoted (by omega) ((hmem q).2 hq)] at hlt
      rcases hlt with hlt | rfl
      · rcases hq with hq | rfl
        · exact .inl ⟨hq, hidx q hq ▸ hlt⟩
        · exact .inr rfl
      · exact .inr rfl
    · rintro (⟨hq, hlt⟩ | rfl)
      · refine ⟨.inl hq, ?_⟩
        rw [hmoved.lt_iff_promoted (by omega) ((hmem q).2 (.inl hq)), hidx q hq]
        exact .inl hlt
      · refine ⟨.inr rfl, ?_⟩
        rw [hmoved.index_self]
        omega

lemma WF.erase_index (h : a.WF) (hp : p ∈ a.items) :
    ∃ b, a.erase (a.index p) = some b ∧ b.WF ∧ b.items.length + 1 = a.items.length ∧
      (∀ q, q ∈ b.items ↔ q ∈ a.items ∧ q ≠ p) ∧
      ∀ k ≤ a.index p, ∀ q ∈ b.items, b.index q < k ↔ a.index q < k := by
  obtain ⟨b, hb, hwf, hlen, hitems, hmem⟩ := h.erase (h.at_index hp)
  have hlt := h.index_lt hp
  refine ⟨b, hb, hwf, hlen, hmem, fun k hk q hq => ?_⟩
  have hqa := ((hmem q).1 hq).1
  constructor
  · intro hlt'
    have hat := hwf.at_index hq
    rw [hitems _ (by omega) (by omega)] at hat
    rwa [h _ _ hat]
  · intro hlt'
    have hat := h.at_index hqa
    rw [← hitems _ (by omega) (by omega)] at hat
    rwa [hwf _ _ hat]

end PipeArray

end Zmq
