import ZeroMQ.Pattern.Ring

/-!
# The order of turns in a ring

The active pipes of a ring have their turns in the order of their indices from `current` on, and from
the first one after the last. `Ring.Precedes q p` says that the active pipe `q` has its turn before `p`;
a passive pipe comes after all those whose turn is due before the last index, since that is where it is
put when it becomes active.

A pipe that becomes active, a pipe that is attached and a turn that is used keep this order. An empty
pipe does not: the last active pipe takes its place, and so has its turn before all pipes between the
two. `Ring.overtakes` says that this happens in a search and that the pipe moved is not empty itself.
-/

namespace Zmq

open Option Nat

namespace Ring

variable {P : Type} [DecidableEq P] {r r' : Ring P} {p q x : P}

/-- The pipe `q` has its turn before `p`. -/
structure Precedes (r : Ring P) (q p : P) : Prop where
  mem : r.Mem p
  active : r.IsActive q
  order : (r.current ≤ r.pipes.index q ∧ (r.pipes.index q < r.pipes.index p ∨ r.pipes.index p < r.current)) ∨
    (r.pipes.index q < r.pipes.index p ∧ r.pipes.index p < r.current)

/-- It is the turn of `p`, although that of `q` comes before the turns of the pipes at the front. -/
structure Jumped (r : Ring P) (p q : P) : Prop where
  current : r.IsCurrent p
  active : r.IsActive q
  order : r.current < r.pipes.index q

omit [DecidableEq P] in
lemma IsActive.index_lt (h : r.IsActive q) (hwf : r.WF) : r.pipes.index q < r.active :=
  (hwf.isActive_iff h.mem).mp h

omit [DecidableEq P] in
lemma Precedes.ne (h : r.Precedes q p) : q ≠ p := by
  rintro rfl
  have := h.order
  omega

omit [DecidableEq P] in
lemma Precedes.not_current (h : r.Precedes q p) (hwf : r.WF) : ¬r.IsCurrent p := by
  intro hp
  have hindex := hwf.index_current hp
  have := h.order
  omega

omit [DecidableEq P] in
lemma precedes_advance_current (hwf : r.WF) (hp : r.IsCurrent p) (hq : r.IsActive q) (hqp : q ≠ p) :
    r.advance.Precedes q p := by
  have hindex := hwf.index_current hp
  have hlt := hq.index_lt hwf
  have hne : r.pipes.index q ≠ r.current := fun heq =>
    hqp (hwf.pipes.index_inj hq.mem hp.isActive.mem (heq.trans hindex.symm))
  refine ⟨hp.isActive.mem, hq, ?_⟩
  have hcurrent := hp.1
  simp only [advance]
  by_cases hlast : r.current + 1 = r.active
  · rw [hlast, mod_self]
    omega
  · rw [mod_eq_of_lt (by omega)]
    omega

omit [DecidableEq P] in
lemma Precedes.advance (h : r.Precedes q p) (hwf : r.WF) (hx : r.IsCurrent x) (hxq : x ≠ q) :
    r.advance.Precedes q p := by
  have hindex := hwf.index_current hx
  have hlt := h.active.index_lt hwf
  have hne : r.pipes.index q ≠ r.current := fun heq =>
    hxq (hwf.pipes.index_inj hx.isActive.mem h.active.mem (hindex.trans heq.symm))
  refine ⟨h.mem, h.active, ?_⟩
  have hcurrent := hx.1
  have horder := h.order
  simp only [Ring.advance]
  by_cases hlast : r.current + 1 = r.active
  · rw [hlast, mod_self]
    omega
  · rw [mod_eq_of_lt (by omega)]
    omega

lemma Precedes.activated (h : r.Precedes q p) (hwf : r.WF) (hx : r.Mem x) (hn : ¬r.IsActive x)
    (hr : r.activated x = some r') : r'.Precedes q p := by
  have hge : r.active ≤ r.pipes.index x := Nat.le_of_not_lt fun hlt => hn ((hwf.isActive_iff hx).mpr hlt)
  obtain ⟨b, hb, hmoved⟩ := hwf.pipes.move hx (Nat.lt_of_le_of_lt hge (hwf.pipes.index_lt hx))
  obtain ⟨r'', hr'', hholds, -⟩ := hwf.activated hx hn
  obtain rfl : r' = r'' := some.inj (hr.symm.trans hr'')
  have hr1 : r' = ⟨b, r.active + 1, r.current⟩ := by
    rw [Ring.activated, hb] at hr
    exact (some.inj hr).symm
  have hlt := h.active.index_lt hwf
  have hqx : q ≠ x := by
    rintro rfl
    exact hn h.active
  have hq : b.index q = r.pipes.index q := by
    rcases hmoved.index_of_ne q h.active.mem hqx with ⟨-, heq⟩ | ⟨heq, -⟩
    · exact heq
    · omega
  refine ⟨(hholds.mem_iff p).mpr h.mem, (hholds.active_iff q).mpr (Or.inl h.active), ?_⟩
  have horder := h.order
  have hle := hwf.current
  rw [hr1]
  simp only [hq]
  by_cases hpx : p = x
  · subst hpx
    have hself := hmoved.index_self
    omega
  · rcases hmoved.index_of_ne p h.mem hpx with ⟨-, heq⟩ | ⟨hat, -, heq⟩
    · rw [heq]
      exact horder
    · rw [heq]
      omega

lemma Precedes.attach (h : r.Precedes q p) (hwf : r.WF) (hx : ¬r.Mem x)
    (hr : Ring.activated { r with pipes := r.pipes.pushBack x } x = some r') : r'.Precedes q p := by
  have hindex : ∀ y, r.Mem y → (r.pipes.pushBack x).index y = r.pipes.index y := by
    intro y hy
    have hne : y ≠ x := by
      rintro rfl
      exact hx hy
    simp [PipeArray.pushBack, Function.update_of_ne hne]
  have hlength : (r.pipes.pushBack x).items.length = r.pipes.items.length + 1 := by
    simp [PipeArray.pushBack]
  have hbefore : ∀ k < r.active, (r.pipes.pushBack x).items[k]? = r.pipes.items[k]? := by
    intro k hk
    have := hwf.active
    rw [PipeArray.pushBack_items, if_neg (by omega)]
  have hwf' : Ring.WF { r with pipes := r.pipes.pushBack x } := by
    refine ⟨hwf.pipes.pushBack hx, ?_, hwf.current⟩
    have := hwf.active
    simp only [hlength]
    omega
  have hmem : ∀ y, r.Mem y → Ring.Mem { r with pipes := r.pipes.pushBack x } y := by
    intro y hy
    simp only [Mem, PipeArray.pushBack, List.mem_append]
    exact .inl hy
  have hpassive : ¬Ring.IsActive { r with pipes := r.pipes.pushBack x } x := by
    rintro ⟨k, hk, hget⟩
    rw [hbefore k hk] at hget
    exact hx (List.mem_of_getElem? hget)
  refine Precedes.activated ⟨hmem p h.mem, ?_, ?_⟩ hwf' (by simp [Mem, PipeArray.pushBack]) hpassive hr
  · obtain ⟨k, hk, hget⟩ := h.active
    exact ⟨k, hk, (hbefore k hk).trans hget⟩
  · simp only [hindex q h.active.mem, hindex p h.mem]
    exact h.order

lemma deactivate_index (hwf : r.WF) (hx : r.IsCurrent x) (hr : r.deactivate = some r') :
    r'.active + 1 = r.active ∧ r'.current = (if r.current = r'.active then 0 else r.current) ∧
      r'.pipes.index x = r'.active ∧
      ∀ y, r.Mem y → y ≠ x → (r.pipes.index y ≠ r'.active ∧ r'.pipes.index y = r.pipes.index y) ∨
        (r.pipes.index y = r'.active ∧ r.current ≠ r'.active ∧ r'.pipes.index y = r.current) := by
  have hpos := hx.1
  have hle := hwf.active
  have hindex := hwf.index_current hx
  obtain ⟨b, hb, hmoved⟩ := hwf.pipes.move (j := r.active - 1) hx.isActive.mem (by omega)
  rw [hindex] at hb
  rw [Ring.deactivate, hb] at hr
  obtain rfl := some.inj hr
  refine ⟨Nat.sub_add_cancel (by omega), rfl, hmoved.index_self, fun y hy hyx => ?_⟩
  rw [← hindex]
  exact hmoved.index_of_ne y hy hyx

/-- The current pipe is empty. Either the order of the two others stays, or `p` was the last active pipe
and takes its place although `q` stands in between. -/
lemma Precedes.deactivate (h : r.Precedes q p) (hwf : r.WF) (hx : r.IsCurrent x) (hxq : x ≠ q)
    (hr : r.deactivate = some r') :
    r'.Precedes q p ∨ (r'.Jumped p q ∧ r.pipes.index p + 1 = r.active ∧
      r.current < r.pipes.index q ∧ r.pipes.index q < r.pipes.index p) := by
  obtain ⟨r'', hr'', -, hholds⟩ := hwf.deactivate hx
  obtain rfl : r' = r'' := some.inj (hr.symm.trans hr'')
  obtain ⟨hactive, hcurrent, -, hother⟩ := deactivate_index hwf hx hr
  have hpx : p ≠ x := by
    rintro rfl
    exact h.not_current hwf hx
  have hindex := hwf.index_current hx
  have hne : r.pipes.index q ≠ r.current := fun heq =>
    hxq (hwf.pipes.index_inj hx.isActive.mem h.active.mem (hindex.trans heq.symm))
  have hpq : r.pipes.index p ≠ r.pipes.index q := fun heq =>
    h.ne (hwf.pipes.index_inj h.active.mem h.mem heq.symm)
  have hlt := h.active.index_lt hwf
  have horder := h.order
  have hmem : r'.Mem p := (hholds.mem_iff p).mpr h.mem
  have hq : r'.IsActive q := (hholds.active_iff q).mpr ⟨h.active, hxq.symm⟩
  have hcur := hx.1
  rcases hother q h.active.mem hxq.symm with ⟨hqlast, hq'⟩ | ⟨hqlast, hcne, hq'⟩
  · rcases hother p h.mem hpx with ⟨hplast, hp'⟩ | ⟨hplast, hcne, hp'⟩
    · refine .inl ⟨hmem, hq, ?_⟩
      rw [hcurrent, hq', hp']
      split <;> omega
    · refine .inr ⟨⟨⟨?_, ?_⟩, hq, ?_⟩, by omega, by omega, by omega⟩
      · rw [hcurrent, if_neg hcne]
        omega
      · rw [hcurrent, if_neg hcne, ← hp']
        exact hholds.wf.pipes.at_index hmem
      · rw [hcurrent, if_neg hcne, hq']
        omega
  · rcases hother p h.mem hpx with ⟨hplast, hp'⟩ | ⟨hplast, -, hp'⟩
    · refine .inl ⟨hmem, hq, ?_⟩
      rw [hcurrent, if_neg hcne, hq', hp']
      omega
    · exact absurd (hplast.trans hqlast.symm) hpq

lemma Jumped.deactivate (h : r.Jumped p q) (hwf : r.WF) (hr : r.deactivate = some r') : r'.Precedes q p := by
  obtain ⟨r'', hr'', -, hholds⟩ := hwf.deactivate h.current
  obtain rfl : r' = r'' := some.inj (hr.symm.trans hr'')
  obtain ⟨hactive, hcurrent, hself, hother⟩ := deactivate_index hwf h.current hr
  have horder := h.order
  have hlt := h.active.index_lt hwf
  have hqp : q ≠ p := by
    rintro rfl
    have := hwf.index_current h.current
    omega
  refine ⟨(hholds.mem_iff p).mpr h.current.isActive.mem, (hholds.active_iff q).mpr ⟨h.active, hqp⟩, ?_⟩
  rw [hcurrent, hself]
  have hcne : r.current ≠ r'.active := by omega
  rw [if_neg hcne]
  rcases hother q h.active.mem hqp with ⟨hqlast, hq'⟩ | ⟨-, -, hq'⟩
  · omega
  · omega

variable {σ β ε : Type} {probe : P → σ → Except ε (Option β × σ)}

/-- An attempt at the pipe succeeds. -/
def finds (probe : P → σ → Except ε (Option β × σ)) (p : P) (s : σ) : Bool :=
  match probe p s with
  | .ok (some _, _) => true
  | _ => false

/-- In one of `n` rounds of a search the last active pipe `p`, which is not empty, takes the place of the
current pipe, which is, and `q` stands in between. -/
def overtakes (probe : P → σ → Except ε (Option β × σ)) (p q : P) : ℕ → Ring P → σ → Bool
  | 0, _, _ => false
  | n + 1, r, s =>
    match r.pipes.items[r.current]? with
    | none => false
    | some x =>
      match probe x s with
      | .ok (none, s) =>
        decide (r.pipes.index p + 1 = r.active ∧ r.current < r.pipes.index q ∧
            r.pipes.index q < r.pipes.index p ∧ finds probe p s) ||
          match r.deactivate with
          | none => false
          | some r => overtakes probe p q n r s
      | _ => false

lemma search_wf {bounds : ε} {onFail : Except ε Unit} {s s' : σ} {b : Option β} {n : ℕ} (hwf : r.WF)
    (hn : n = r.active) (h : search bounds probe onFail Ring.deactivate n r s = .ok (b, r', s')) :
    r'.WF ∧ (b.isSome → r'.current < r'.active) := by
  induction n generalizing r s with
  | zero =>
    rw [search] at h
    cases h
    exact ⟨hwf, fun hb => (by cases hb)⟩
  | succ n ih =>
    obtain ⟨x, hx⟩ := hwf.exists_current (by omega)
    rw [search] at h
    simp only [hx.2] at h
    cases hprobe : probe x s with
    | error e => simp [hprobe] at h
    | ok out =>
      obtain ⟨found, t⟩ := out
      rw [hprobe] at h
      cases found with
      | some c =>
        cases h
        exact ⟨hwf, fun _ => hx.1⟩
      | none =>
        obtain ⟨r1, hr1, hactive, hholds⟩ := hwf.deactivate hx
        cases onFail with
        | error e => simp at h
        | ok u =>
          simp only [hr1] at h
          exact ih hholds.wf (by omega) h

/-- What a search that succeeds leaves to a pipe that is not empty: it stays active, and it has its turn
before the pipes it preceded unless one of them has overtaken it. -/
lemma search_order {bounds : ε} {onFail : Except ε Unit} {s s' : σ} {b : Option β} {n : ℕ}
    (hkeep : ∀ x t t', x ≠ q → probe x t = .ok (none, t') → finds probe q t → finds probe q t')
    (hwf : r.WF) (hq : r.IsActive q) (hfinds : finds probe q s) (hn : n = r.active)
    (h : search bounds probe onFail Ring.deactivate n r s = .ok (b, r', s')) :
    r'.IsActive q ∧ b.isSome ∧
      ((r.Precedes q p ∨ (r.Jumped p q ∧ finds probe p s = false)) → overtakes probe p q n r s = false →
        r'.Precedes q p) := by
  induction n generalizing r s with
  | zero =>
    have := hq.index_lt hwf
    omega
  | succ n ih =>
    obtain ⟨x, hx⟩ := hwf.exists_current (by omega)
    rw [search] at h
    simp only [hx.2] at h
    cases hprobe : probe x s with
    | error e => simp [hprobe] at h
    | ok out =>
      obtain ⟨found, t⟩ := out
      cases found with
      | some c =>
        rw [hprobe] at h
        cases h
        refine ⟨hq, rfl, fun hbefore _ => ?_⟩
        rcases hbefore with hbefore | ⟨hjumped, hempty⟩
        · exact hbefore
        · rw [hjumped.current.unique hx, finds, hprobe] at hempty
          cases hempty
      | none =>
        rw [hprobe] at h
        have hxq : x ≠ q := by
          rintro rfl
          rw [finds, hprobe] at hfinds
          cases hfinds
        obtain ⟨r1, hr1, hactive, hholds⟩ := hwf.deactivate hx
        cases onFail with
        | error e => simp at h
        | ok u =>
          simp only [hr1] at h
          obtain ⟨hq', hsome, horder⟩ := ih hholds.wf ((hholds.active_iff q).mpr ⟨hq, hxq.symm⟩)
            (hkeep x s t hxq hprobe hfinds) (by omega) h
          refine ⟨hq', hsome, fun hbefore hnot => ?_⟩
          rw [overtakes] at hnot
          simp only [hx.2, hprobe, hr1, Bool.or_eq_false_iff, decide_eq_false_iff_not] at hnot
          refine horder ?_ hnot.2
          rcases hbefore with hbefore | ⟨hjumped, -⟩
          · rcases hbefore.deactivate hwf hx hxq hr1 with hafter | ⟨hjumped, hlast, hcur, hlt⟩
            · exact .inl hafter
            · refine .inr ⟨hjumped, ?_⟩
              by_contra hfound
              exact hnot.1 ⟨hlast, hcur, hlt, by simpa using hfound⟩
          · exact .inl (hjumped.deactivate hwf hr1)

end Ring

end Zmq
