import ZeroMQ.Foundation.Run
import ZeroMQ.Pattern.PipeArray

/-!
# The active pipes of a socket

The load balancer and the fair queue keep their pipes in an array. The first `active` of them are
worth a try, and `current` is the index of the one whose turn it is. A pipe that turns out to be full
or empty is swapped behind the active ones, a pipe that is ready again is swapped back, and a pipe that
is gone is swapped behind the active ones and erased.

`Ring` is what the two classes have in common. The lemmas say what an operation does to the pipes of
the ring, to the active ones and to the current one; the loop that looks for a pipe that can be used is
`Ring.search`, and `Ring.search_rule` is the rule for it.
-/

namespace Zmq

open Option Nat List

/-- The array of pipes, the number of active ones and the index of the current one. -/
structure Ring (P : Type) where
  pipes : PipeArray P
  active : ℕ
  current : ℕ

namespace Ring

variable {P : Type} [DecidableEq P] {r r' : Ring P} {p q : P}

/-- No pipes. -/
def empty : Ring P := ⟨PipeArray.empty, 0, 0⟩

/-- `fq_t::activated` and `lb_t::activated`: move the pipe to the active ones. -/
def activated (r : Ring P) (p : P) : Option (Ring P) := do
  let pipes ← r.pipes.swap (r.pipes.index p) r.active
  return ⟨pipes, r.active + 1, r.current⟩

/-- Move the current pipe behind the active ones. -/
def deactivate (r : Ring P) : Option (Ring P) := do
  let active := r.active - 1
  let pipes ← r.pipes.swap r.current active
  return ⟨pipes, active, if r.current = active then 0 else r.current⟩

/-- Remove the pipe and adjust the number of active pipes. -/
def remove (r : Ring P) (p : P) : Option (Ring P) := do
  let index := r.pipes.index p
  if index < r.active then
    let active := r.active - 1
    let pipes ← r.pipes.swap index active
    let pipes ← pipes.erase (pipes.index p)
    return ⟨pipes, active, if r.current = active then 0 else r.current⟩
  else
    let pipes ← r.pipes.erase index
    return ⟨pipes, r.active, r.current⟩

/-- `current = (current + 1) % active`. -/
def advance (r : Ring P) : Ring P := { r with current := (r.current + 1) % r.active }

/-! ### The pipes of a ring -/

/-- The pipe is in the array. -/
def Mem (r : Ring P) (p : P) : Prop := p ∈ r.pipes.items

/-- The pipe is an active one. -/
def IsActive (r : Ring P) (p : P) : Prop := ∃ i < r.active, r.pipes.items[i]? = some p

/-- It is the turn of the pipe. -/
def IsCurrent (r : Ring P) (p : P) : Prop :=
  r.current < r.active ∧ r.pipes.items[r.current]? = some p

/-- The indices are right, and the current pipe is an active one if there is any. -/
structure WF (r : Ring P) : Prop where
  pipes : r.pipes.WF
  active : r.active ≤ r.pipes.items.length
  current : r.current < r.active ∨ (r.active = 0 ∧ r.current = 0)

omit [DecidableEq P] in
lemma empty_wf : (empty : Ring P).WF := ⟨PipeArray.empty_wf, by simp [empty], by simp [empty]⟩

namespace WF

omit [DecidableEq P] in
lemma exists_current (h : r.WF) (hactive : 0 < r.active) : ∃ p, r.IsCurrent p := by
  have hlt : r.current < r.active := by
    rcases h.current with hlt | ⟨h0, -⟩
    · exact hlt
    · omega
  obtain ⟨p, hp⟩ := PipeArray.exists_item (a := r.pipes) (Nat.lt_of_lt_of_le hlt h.active)
  exact ⟨p, hlt, hp⟩

omit [DecidableEq P] in
lemma index_current (h : r.WF) (hp : r.IsCurrent p) : r.pipes.index p = r.current :=
  h.pipes _ _ hp.2

omit [DecidableEq P] in
lemma isActive_iff (h : r.WF) (hp : r.Mem p) : r.IsActive p ↔ r.pipes.index p < r.active := by
  constructor
  · rintro ⟨i, hi, hpi⟩
    rwa [h.pipes i p hpi]
  · intro hlt
    exact ⟨_, hlt, h.pipes.at_index hp⟩

end WF

omit [DecidableEq P] in
lemma IsActive.mem (h : r.IsActive p) : r.Mem p := by
  obtain ⟨i, -, hi⟩ := h
  exact mem_of_getElem? hi

omit [DecidableEq P] in
lemma IsCurrent.isActive (h : r.IsCurrent p) : r.IsActive p := ⟨_, h.1, h.2⟩

omit [DecidableEq P] in
lemma IsCurrent.unique (h : r.IsCurrent p) (h' : r.IsCurrent q) : p = q :=
  some.inj (h.2.symm.trans h'.2)

/-- A well-formed ring with these pipes and these active pipes. -/
structure Holds (r : Ring P) (mem active : P → Prop) : Prop where
  wf : r.WF
  mem_iff : ∀ q, r.Mem q ↔ mem q
  active_iff : ∀ q, r.IsActive q ↔ active q

/-! ### What the operations do -/

namespace WF

lemma swap (h : r.WF) {i j : ℕ} {x y : P} (hi : r.pipes.items[i]? = some x)
    (hj : r.pipes.items[j]? = some y) :
    ∃ b, r.pipes.swap i j = some b ∧ b.WF ∧ b.items.length = r.pipes.items.length ∧
      (∀ k, b.items[k]? =
        if k = j then some x else if k = i then some y else r.pipes.items[k]?) ∧
      ∀ q, q ∈ b.items ↔ r.Mem q := by
  obtain ⟨b, hb, hwf, hlen, hitems⟩ := h.pipes.swap hi hj
  refine ⟨b, hb, hwf, hlen, hitems, fun q => ?_⟩
  simp only [Mem, mem_iff_getElem?, hitems]
  constructor
  · rintro ⟨k, hk⟩
    split at hk
    · exact ⟨i, hk ▸ hi⟩
    · split at hk
      · exact ⟨j, hk ▸ hj⟩
      · exact ⟨k, hk⟩
  · rintro ⟨k, hk⟩
    by_cases hki : k = i
    · exact ⟨j, by rw [if_pos rfl, ← hi, ← hki, hk]⟩
    by_cases hkj : k = j
    · by_cases hij : i = j
      · exact absurd (hkj.trans hij.symm) hki
      · exact ⟨i, by rw [if_neg hij, if_pos rfl, ← hj, ← hkj, hk]⟩
    · exact ⟨k, by rw [if_neg hkj, if_neg hki, hk]⟩

lemma activated (h : r.WF) (hp : r.Mem p) (hn : ¬r.IsActive p) :
    ∃ r', r.activated p = some r' ∧
      r'.Holds r.Mem (fun q => r.IsActive q ∨ q = p) ∧ ∀ q, r.IsCurrent q → r'.IsCurrent q := by
  have hidx := h.pipes.at_index hp
  have hge : r.active ≤ r.pipes.index p := Nat.le_of_not_lt fun hlt => hn ⟨_, hlt, hidx⟩
  have hlt := PipeArray.lt_length hidx
  obtain ⟨y, hy⟩ := PipeArray.exists_item (a := r.pipes) (Nat.lt_of_le_of_lt hge hlt)
  obtain ⟨b, hb, hwf, hlen, hitems, hmem⟩ := h.swap hidx hy
  have hbefore : ∀ k < r.active, b.items[k]? = r.pipes.items[k]? := by
    intro k hk
    rw [hitems, if_neg (by omega), if_neg (by omega)]
  refine ⟨⟨b, r.active + 1, r.current⟩, by rw [Ring.activated, hb]; rfl, ⟨⟨hwf, ?_, ?_⟩, hmem, ?_⟩, ?_⟩
  · simp only [hlen]
    omega
  · have := h.current
    simp only
    omega
  · intro q
    constructor
    · rintro ⟨i, hi, hq⟩
      by_cases hia : i = r.active
      · rw [hia, hitems, if_pos rfl] at hq
        exact Or.inr (some.inj hq).symm
      have hi' : i < r.active := by
        simp only at hi
        omega
      exact Or.inl ⟨i, hi', by rw [← hbefore i hi', hq]⟩
    · rintro (⟨i, hi, hq⟩ | rfl)
      · exact ⟨i, Nat.lt_succ_of_lt hi, by rw [hbefore i hi, hq]⟩
      · exact ⟨r.active, Nat.lt_succ_self _, by rw [hitems, if_pos rfl]⟩
  · rintro q ⟨hc, hq⟩
    exact ⟨Nat.lt_succ_of_lt hc, by rw [hbefore _ hc, hq]⟩

lemma attach (h : r.WF) (hp : ¬r.Mem p) :
    ∃ r', Ring.activated { r with pipes := r.pipes.pushBack p } p = some r' ∧
      r'.Holds (fun q => r.Mem q ∨ q = p) (fun q => r.IsActive q ∨ q = p) ∧
      ∀ q, r.IsCurrent q → r'.IsCurrent q := by
  have hbefore : ∀ k < r.active, (r.pipes.pushBack p).items[k]? = r.pipes.items[k]? := by
    intro k hk
    have := h.active
    rw [PipeArray.pushBack_items, if_neg (by omega)]
  have hwf : Ring.WF { r with pipes := r.pipes.pushBack p } := by
    refine ⟨h.pipes.pushBack hp, ?_, h.current⟩
    have := h.active
    simp only [PipeArray.pushBack, length_append, length_singleton]
    omega
  have hmem : ∀ q, Ring.Mem { r with pipes := r.pipes.pushBack p } q ↔ r.Mem q ∨ q = p := by
    intro q
    simp [Mem, PipeArray.pushBack]
  have hactive : ∀ q, Ring.IsActive { r with pipes := r.pipes.pushBack p } q ↔ r.IsActive q := by
    intro q
    constructor
    · rintro ⟨i, hi, hq⟩
      exact ⟨i, hi, by rw [← hbefore i hi, hq]⟩
    · rintro ⟨i, hi, hq⟩
      exact ⟨i, hi, by rw [hbefore i hi, hq]⟩
  have hn : ¬Ring.IsActive { r with pipes := r.pipes.pushBack p } p := fun hcon =>
    hp ((hactive p).mp hcon).mem
  obtain ⟨r', hr', ⟨hwf', hmem', hact'⟩, hcur⟩ := hwf.activated ((hmem p).mpr (.inr rfl)) hn
  refine ⟨r', hr', ⟨hwf', fun q => (hmem' q).trans (hmem q), fun q => ?_⟩, ?_⟩
  · rw [hact', hactive]
  · rintro q ⟨hc, hq⟩
    exact hcur q ⟨hc, by rw [← hq]; exact hbefore _ hc⟩

/-- An active pipe becomes passive: it changes places with the last active one. If that is the
current pipe, it keeps its turn only if it comes to the first place. -/
lemma passivate (h : r.WF) {i : ℕ} (hi : i < r.active) (hp : r.pipes.items[i]? = some p) :
    ∃ b, r.pipes.swap i (r.active - 1) = some b ∧
      Holds ⟨b, r.active - 1, if r.current = r.active - 1 then 0 else r.current⟩ r.Mem
        (fun q => r.IsActive q ∧ q ≠ p) ∧
      ∀ q, r.IsCurrent q → q ≠ p → (r.current + 1 = r.active → i = 0) →
        IsCurrent ⟨b, r.active - 1, if r.current = r.active - 1 then 0 else r.current⟩ q := by
  have hle := h.active
  obtain ⟨y, hy⟩ := PipeArray.exists_item (a := r.pipes) (i := r.active - 1) (by omega)
  obtain ⟨b, hb, hwf, hlen, hitems, hmem⟩ := h.swap hp hy
  refine ⟨b, hb, ⟨⟨hwf, ?_, ?_⟩, hmem, fun q => ?_⟩, fun q hq hne hfirst => ?_⟩
  · simp only [hlen]
    omega
  · have := h.current
    simp only
    split <;> omega
  · constructor
    · rintro ⟨k, hk, hq⟩
      simp only at hk
      rw [hitems, if_neg (by omega)] at hq
      split at hq
      next hki =>
        refine ⟨⟨r.active - 1, by omega, hq ▸ hy⟩, ?_⟩
        rintro rfl
        have := h.pipes.inj hp (hq ▸ hy)
        omega
      next hki =>
        refine ⟨⟨k, by omega, hq⟩, ?_⟩
        rintro rfl
        exact hki (h.pipes.inj hq hp)
    · rintro ⟨⟨k, hk, hq⟩, hne⟩
      have hki : k ≠ i := by
        rintro rfl
        exact hne (some.inj (hq.symm.trans hp))
      by_cases hkl : k = r.active - 1
      · refine ⟨i, by simp only; omega, ?_⟩
        rw [hitems, if_neg (by omega), if_pos rfl, ← hy, ← hkl, hq]
      · exact ⟨k, by simp only; omega, by rw [hitems, if_neg hkl, if_neg hki, hq]⟩
  · obtain ⟨hc, hq⟩ := hq
    have hci : r.current ≠ i := by
      intro heq
      rw [heq, hp] at hq
      exact hne (some.inj hq).symm
    by_cases hlast : r.current = r.active - 1
    · obtain rfl : i = 0 := hfirst (by omega)
      refine ⟨by simp only [if_pos hlast]; omega, ?_⟩
      simp only [if_pos hlast]
      rw [hitems, if_neg (by omega), if_pos rfl, ← hy, ← hlast, hq]
    · refine ⟨by simp only [if_neg hlast]; omega, ?_⟩
      simp only [if_neg hlast]
      rw [hitems, if_neg hlast, if_neg hci, hq]

lemma deactivate (h : r.WF) (hp : r.IsCurrent p) :
    ∃ r', r.deactivate = some r' ∧ r'.active + 1 = r.active ∧
      r'.Holds r.Mem (fun q => r.IsActive q ∧ q ≠ p) := by
  obtain ⟨b, hb, hholds, -⟩ := h.passivate hp.1 hp.2
  have hpos := hp.1
  exact ⟨_, by rw [Ring.deactivate, hb]; rfl, by simp only; omega, hholds⟩

lemma erase (h : r.WF) (hp : r.Mem p) (hn : ¬r.IsActive p) :
    ∃ b, r.pipes.erase (r.pipes.index p) = some b ∧
      Holds { r with pipes := b } (fun q => r.Mem q ∧ q ≠ p) r.IsActive ∧
      ∀ q, r.IsCurrent q → IsCurrent { r with pipes := b } q := by
  have hidx := h.pipes.at_index hp
  have hge : r.active ≤ r.pipes.index p := Nat.le_of_not_lt fun hlt => hn ⟨_, hlt, hidx⟩
  have hlt := PipeArray.lt_length hidx
  obtain ⟨b, hb, hwf, hlen, hitems, hmem⟩ := h.pipes.erase hidx
  have hbefore : ∀ k < r.active, b.items[k]? = r.pipes.items[k]? := fun k hk =>
    hitems k (by omega) (by omega)
  refine ⟨b, hb, ⟨⟨hwf, by simp only; omega, h.current⟩, hmem, fun q => ?_⟩, ?_⟩
  · constructor
    · rintro ⟨i, hi, hq⟩
      exact ⟨i, hi, by rw [← hbefore i hi, hq]⟩
    · rintro ⟨i, hi, hq⟩
      exact ⟨i, hi, by rw [hbefore i hi, hq]⟩
  · rintro q ⟨hc, hq⟩
    exact ⟨hc, by rw [hbefore _ hc, hq]⟩

end WF

/-- Removing the pipe gives the turn of the current pipe to another one: the current pipe is the last
of the active ones and takes the place of the removed pipe, which is not the first, but the turn goes
to the first place. -/
def Misplaces (r : Ring P) (p : P) : Prop :=
  r.pipes.index p < r.active ∧ r.pipes.index p ≠ 0 ∧ r.pipes.index p ≠ r.current ∧
    r.current + 1 = r.active

instance (r : Ring P) (p : P) : Decidable (r.Misplaces p) :=
  inferInstanceAs (Decidable (_ ∧ _ ∧ _ ∧ _))

lemma WF.remove (h : r.WF) (hp : r.Mem p) :
    ∃ r', r.remove p = some r' ∧
      r'.Holds (fun q => r.Mem q ∧ q ≠ p) (fun q => r.IsActive q ∧ q ≠ p) ∧
      ∀ q, r.IsCurrent q → q ≠ p → ¬r.Misplaces p → r'.IsCurrent q := by
  by_cases hact : r.IsActive p
  · have hi := (h.isActive_iff hp).mp hact
    obtain ⟨b, hb, hholds, hcur⟩ := h.passivate hi (h.pipes.at_index hp)
    have hn : ¬IsActive _ p := fun hcon => ((hholds.active_iff p).mp hcon).2 rfl
    obtain ⟨c, hc, hholds', hcur'⟩ := hholds.wf.erase ((hholds.mem_iff p).mpr hp) hn
    refine ⟨_, ?_, ⟨hholds'.wf, fun q => ?_, fun q => ?_⟩, fun q hq hne hgood => hcur' q ?_⟩
    · rw [Ring.remove]
      simp only [if_pos hi, hb, bind, Option.bind]
      rw [hc]
      rfl
    · rw [hholds'.mem_iff, hholds.mem_iff]
    · rw [hholds'.active_iff, hholds.active_iff]
    · refine hcur q hq hne fun hlast => ?_
      by_contra hne0
      refine hgood ⟨hi, hne0, fun heq => hne ?_, hlast⟩
      have hidx := h.pipes.at_index hp
      rw [heq] at hidx
      exact some.inj (hq.2.symm.trans hidx)
  · have hi : ¬r.pipes.index p < r.active := fun hlt => hact ((h.isActive_iff hp).mpr hlt)
    obtain ⟨b, hb, hholds, hcur⟩ := h.erase hp hact
    refine ⟨_, ?_, ⟨hholds.wf, hholds.mem_iff, fun q => ?_⟩, fun q hq _ _ => hcur q hq⟩
    · rw [Ring.remove]
      simp only [if_neg hi, hb, bind, Option.bind]
      rfl
    · rw [hholds.active_iff]
      refine ⟨fun hq => ⟨hq, ?_⟩, And.left⟩
      rintro rfl
      exact hact hq

omit [DecidableEq P] in
lemma WF.advance (h : r.WF) (hactive : 0 < r.active) :
    r.advance.Holds r.Mem r.IsActive :=
  ⟨⟨h.pipes, h.active, .inl (mod_lt _ hactive)⟩, fun _ => Iff.rfl, fun _ => Iff.rfl⟩

/-! ### Looking for a pipe -/

variable {σ β ε : Type}

/-- The loop `while (active > 0)` of both classes: try the current pipe, and if it cannot be used do
what the source does with it, `drop`, after the check `onFail`. The number `n` of rounds left is
`active`, since every round that goes on leaves one active pipe less. Access outside of the array is
the fault `bounds`. -/
def search (bounds : ε) (probe : P → σ → Except ε (Option β × σ)) (onFail : Except ε Unit)
    (drop : Ring P → Option (Ring P)) : ℕ → Ring P → σ → Except ε (Option β × Ring P × σ)
  | 0, r, s => .ok (none, r, s)
  | n + 1, r, s =>
    match r.pipes.items[r.current]? with
    | none => .error bounds
    | some p =>
      match probe p s with
      | .error e => .error e
      | .ok (some b, s) => .ok (some b, r, s)
      | .ok (none, s) =>
        match onFail with
        | .error e => .error e
        | .ok () =>
          match drop r with
          | none => .error bounds
          | some r => search bounds probe onFail drop n r s

variable {probe : P → σ → Except ε (Option β × σ)} {onFail : Except ε Unit} {drop : Ring P → Option (Ring P)}
  {s s' : σ}

omit [DecidableEq P] in
lemma search_current {bounds : ε} {b : β}
    (hp : r.IsCurrent p) (hprobe : probe p s = .ok (some b, s')) :
    search bounds probe onFail drop r.active r s = .ok (some b, r, s') := by
  obtain ⟨n, hn⟩ : ∃ n, r.active = n + 1 := ⟨r.active - 1, by have := hp.1; omega⟩
  rw [hn, search]
  simp only [hp.2, hprobe]

/-- **Rule for the search.** An invariant that a pipe in vain leaves intact when the pipe is taken from
the active ones holds until a pipe is found or there are no active ones left. -/
theorem search_rule (bounds : ε) {I : Ring P → σ → Prop} {Q : β → P → Ring P → σ → Prop}
    (hdrop : ∀ (r : Ring P) p, r.WF → r.IsCurrent p → drop r = r.deactivate)
    (hprobe : ∀ r s p, r.WF → I r s → r.IsCurrent p →
      (∃ b s', probe p s = .ok (some b, s') ∧ Q b p r s') ∨
      (∃ s', probe p s = .ok (none, s') ∧ onFail = .ok () ∧
        ∀ r' : Ring P, r'.Holds r.Mem (fun q => r.IsActive q ∧ q ≠ p) → I r' s'))
    {r : Ring P} (hwf : r.WF) (hI : I r s) :
    (∃ b p r' s', search bounds probe onFail drop r.active r s = .ok (some b, r', s') ∧
      r'.WF ∧ r'.IsCurrent p ∧ Q b p r' s') ∨
    (∃ r' s', search bounds probe onFail drop r.active r s = .ok (none, r', s') ∧
      r'.WF ∧ r'.active = 0 ∧ I r' s') := by
  induction hn : r.active generalizing r s with
  | zero => exact .inr ⟨r, s, rfl, hwf, hn, hI⟩
  | succ n ih =>
    obtain ⟨p, hp⟩ := hwf.exists_current (by omega)
    rw [search]
    simp only [hp.2]
    obtain ⟨b, s', heq, hQ⟩ | ⟨s', heq, hfail, hnext⟩ := hprobe r s p hwf hI hp
    · rw [heq]
      exact .inl ⟨b, p, r, s', rfl, hwf, hp, hQ⟩
    obtain ⟨r', hr', hactive, hholds⟩ := hwf.deactivate hp
    subst hfail
    simp only [heq, hdrop r p hwf hp, hr']
    exact ih hholds.wf (hnext r' hholds) (by omega)

omit [DecidableEq P] in
lemma search_ensures {bounds : ε} {I : σ → Prop}
    (hprobe : ∀ p s, I s → Foundation.Ensures (probe p s) fun r => I r.2) (n : ℕ) (hs : I s)
    (r : Ring P) : Foundation.Ensures (search bounds probe onFail drop n r s) fun x => I x.2.2 := by
  induction n generalizing r s with
  | zero => exact .ok hs
  | succ n ih =>
    rw [search]
    split
    · exact .error _
    next p hp =>
    split
    · exact .error _
    · next b s' hfound => exact .ok (hprobe p s hs _ hfound)
    · next s' hvain =>
      have hs' : I s' := hprobe p s hs _ hvain
      split
      · exact .error _
      · split
        · exact .error _
        · exact ih hs' _

omit [DecidableEq P] in
lemma search_found {bounds : ε} {I : σ → Prop} (hprobe : ∀ p s, I s → Foundation.Ensures (probe p s) fun r => I r.2)
    {n : ℕ} {r r' : Ring P} {b : β} (hs : I s) (h : search bounds probe onFail drop n r s = .ok (some b, r', s')) :
    ∃ p s0, r'.pipes.items[r'.current]? = some p ∧ I s0 ∧ probe p s0 = .ok (some b, s') := by
  induction n generalizing r s with
  | zero => cases h
  | succ n ih =>
    rw [search] at h
    split at h
    · cases h
    next p hp =>
    split at h
    · cases h
    · next b' s1 hfound =>
      cases h
      exact ⟨p, s, hp, hs, hfound⟩
    · next s1 hvain =>
      have hs1 : I s1 := hprobe p s hs _ hvain
      split at h
      · cases h
      · split at h
        · cases h
        · exact ih hs1 h

omit [DecidableEq P] in
lemma search_none_of_fault {bounds e : ε} {n : ℕ} {r : Ring P} {x : Ring P × σ}
    (h : search bounds probe (.error e) drop n r s = .ok (none, x)) : n = 0 := by
  cases n with
  | zero => rfl
  | succ n =>
    rw [search] at h
    split at h
    · cases h
    · split at h <;> cases h

/-- The ring holds the same pipes, and they know their indices. -/
structure SamePipes (r r' : Ring P) : Prop where
  wf : r'.pipes.WF
  mem_iff : ∀ q, r'.Mem q ↔ r.Mem q

omit [DecidableEq P] in
lemma SamePipes.refl (h : r.pipes.WF) : SamePipes r r := ⟨h, fun _ => Iff.rfl⟩

omit [DecidableEq P] in
lemma SamePipes.trans {r'' : Ring P} (h : SamePipes r r') (h' : SamePipes r' r'') : SamePipes r r'' :=
  ⟨h'.wf, fun q => (h'.mem_iff q).trans (h.mem_iff q)⟩

lemma SamePipes.of_activated (h : r.pipes.WF) (hr : r.activated p = some r') : SamePipes r r' := by
  obtain ⟨pipes, hswap, rfl⟩ : ∃ pipes, r.pipes.swap (r.pipes.index p) r.active = some pipes ∧
      (⟨pipes, r.active + 1, r.current⟩ : Ring P) = r' := by
    simpa [activated, bind_eq_some_iff] using hr
  obtain ⟨hwf, hmem⟩ := h.of_swap hswap
  exact ⟨hwf, hmem⟩

lemma SamePipes.of_deactivate (h : r.pipes.WF) (hr : r.deactivate = some r') : SamePipes r r' := by
  obtain ⟨pipes, hswap, hr⟩ := bind_eq_some_iff.mp hr
  obtain rfl := some.inj hr
  obtain ⟨hwf, hmem⟩ := h.of_swap hswap
  exact ⟨hwf, hmem⟩

lemma SamePipes.of_search {bounds : ε} {n : ℕ} {x : Option β × Ring P × σ} (h : r.pipes.WF)
    (hx : search bounds probe onFail deactivate n r s = .ok x) : SamePipes r x.2.1 := by
  induction n generalizing r s with
  | zero =>
    rw [search] at hx
    cases hx
    exact .refl h
  | succ n ih =>
    rw [search] at hx
    split at hx
    · cases hx
    split at hx
    · cases hx
    · cases hx
      exact .refl h
    · split at hx
      · cases hx
      · split at hx
        · cases hx
        · next r' hr' =>
          have hsame := SamePipes.of_deactivate h hr'
          exact hsame.trans (ih hsame.wf hx)

lemma search_ensures_mem {bounds : ε} {I : σ → Prop} (h : r.pipes.WF)
    (hprobe : ∀ p s, r.Mem p → I s → Foundation.Ensures (probe p s) fun r => I r.2) (n : ℕ)
    (hs : I s) : Foundation.Ensures (search bounds probe onFail deactivate n r s) fun x => I x.2.2 := by
  induction n generalizing r s with
  | zero => exact .ok hs
  | succ n ih =>
    rw [search]
    split
    · exact .error _
    next p hp =>
    have hmem : r.Mem p := mem_of_getElem? hp
    split
    · exact .error _
    · next b s' hfound => exact .ok (hprobe p s hmem hs _ hfound)
    · next s' hvain =>
      have hs' : I s' := hprobe p s hmem hs _ hvain
      split
      · exact .error _
      split
      · exact .error _
      · next r' hr' =>
        have hsame := SamePipes.of_deactivate h hr'
        exact ih hsame.wf (fun q t hq => hprobe q t ((hsame.mem_iff q).mp hq)) hs'

lemma of_remove (h : r.pipes.WF) (hp : r.Mem p) (hr : r.remove p = some r') :
    r'.pipes.WF ∧ ∀ q, r'.Mem q ↔ r.Mem q ∧ q ≠ p := by
  unfold remove at hr
  simp only at hr
  split at hr
  · obtain ⟨pipes, hswap, hr⟩ := bind_eq_some_iff.mp hr
    obtain ⟨pipes', herase, hr⟩ := bind_eq_some_iff.mp hr
    obtain rfl := some.inj hr
    obtain ⟨hwf, hmem⟩ := h.of_swap hswap
    obtain ⟨b, hb, hwf', -, hmem', -⟩ := hwf.erase_index ((hmem p).mpr hp)
    obtain rfl := some.inj (hb.symm.trans herase)
    refine ⟨hwf', fun q => ?_⟩
    rw [Mem, hmem', hmem]
    rfl
  · obtain ⟨pipes, herase, hr⟩ := bind_eq_some_iff.mp hr
    obtain rfl := some.inj hr
    obtain ⟨b, hb, hwf', -, hmem', -⟩ := h.erase_index hp
    obtain rfl := some.inj (hb.symm.trans herase)
    exact ⟨hwf', hmem'⟩

end Ring

end Zmq
