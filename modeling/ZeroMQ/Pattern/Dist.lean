import ZeroMQ.Pattern.Attached

/-!
# The distributor

`dist_t` sends a frame to all of its pipes or to some of them. The pipes stand in one array: first the
ones the current message goes to (`matching`), then the others that would take a frame of it (`active`),
then the ones that have to wait for the next message (`eligible`), and behind them the passive ones, to
which the last write failed. The three numbers are the ends of these parts.

`Dist.WF` is the representation invariant, and `Dist.Holds` says which pipes are in which part. One
lemma for each operation says what it does to the parts.
-/

namespace Zmq

open Function List Option Prod

/-- `dist_t`. -/
structure Dist where
  pipes : PipeArray ℕ
  /-- Number of pipes the current message goes to. -/
  matching : ℕ
  /-- Number of active pipes. -/
  active : ℕ
  /-- Number of pipes that are active or will be after the current message. -/
  eligible : ℕ
  /-- In the middle of a multipart message. -/
  more : Bool

namespace Link

/-- `pipe_t::check_hwm`. -/
def checkHwm (s : Link) : Bool :=
  !(0 < s.near.pipe.hwm ∧
    (s.near.pipe.msgsWritten : ℤ) - s.near.pipe.peersMsgsRead ≥ s.near.pipe.hwm - 1 : Bool)

/-- `dist_t::write` as far as the pipe is concerned: the last frame of a message is flushed. -/
def offer (s : Link) (m : Msg) : Except PipeFault (Bool × Link) :=
  match s.write m with
  | .error e => .error e
  | .ok (false, s) => .ok (false, s)
  | .ok (true, s) => if m.more then .ok (true, s) else s.flush.map (true, ·)

end Link

namespace Dist

/-- The constructor of `dist_t`. -/
def new : Dist := ⟨PipeArray.empty, 0, 0, 0, false⟩

/-- `dist_t::attach`. -/
def attach (d : Dist) (p : ℕ) : Option Dist :=
  let pipes := d.pipes.pushBack p
  if d.more then do
    let pipes ← pipes.swap d.eligible (pipes.items.length - 1)
    return { d with pipes := pipes, eligible := d.eligible + 1 }
  else do
    let pipes ← pipes.swap d.active (pipes.items.length - 1)
    return { d with pipes := pipes, active := d.active + 1, eligible := d.eligible + 1 }

/-- `dist_t::match`. -/
def matchPipe (d : Dist) (p : ℕ) : Option Dist :=
  if d.pipes.index p < d.matching then some d
  else if d.pipes.index p ≥ d.eligible then some d
  else do
    let pipes ← d.pipes.swap (d.pipes.index p) d.matching
    return { d with pipes := pipes, matching := d.matching + 1 }

/-- `dist_t::unmatch`. -/
def unmatch (d : Dist) : Dist := { d with matching := 0 }

/-- The pipe changes places with the last one of the matching pipes, if it is one of them; then the same
for the active and the eligible pipes. -/
def leave (d : Dist) (p : ℕ) : Option Dist := do
  let (pipes, matching) ← d.pipes.leave d.matching p
  let (pipes, active) ← pipes.leave d.active p
  let (pipes, eligible) ← pipes.leave d.eligible p
  return { d with pipes := pipes, matching := matching, active := active, eligible := eligible }

/-- `dist_t::pipe_terminated`. -/
def pipeTerminated (d : Dist) (p : ℕ) : Option Dist := do
  let d ← d.leave p
  let pipes ← d.pipes.erase (d.pipes.index p)
  return { d with pipes := pipes }

/-- `dist_t::activated`. -/
def activated (d : Dist) (p : ℕ) : Option Dist := do
  let pipes ← d.pipes.swap (d.pipes.index p) d.eligible
  let eligible := d.eligible + 1
  if d.more then return { d with pipes := pipes, eligible := eligible }
  else
    let pipes ← pipes.swap (eligible - 1) d.active
    return { d with pipes := pipes, active := d.active + 1, eligible := eligible }

/-- What `dist_t::write` does with a pipe that refuses the frame. -/
def demote (d : Dist) (p : ℕ) : Option Dist := do
  let pipes ← d.pipes.swap (d.pipes.index p) (d.matching - 1)
  let pipes ← pipes.swap (pipes.index p) (d.active - 1)
  let pipes ← pipes.swap (d.active - 1) (d.eligible - 1)
  return { d with pipes := pipes, matching := d.matching - 1, active := d.active - 1,
                  eligible := d.eligible - 1 }

/-- `dist_t::write`. -/
def write (d : Dist) (p : ℕ) (m : Msg) (links : Pipes) :
    Except PatternFault (Bool × Dist × Pipes) :=
  match (links p).offer m with
  | .error e => .error (.pipe e)
  | .ok (true, l) => .ok (true, d, update links p l)
  | .ok (false, l) =>
    match d.demote p with
    | none => .error .outOfBounds
    | some d => .ok (false, d, update links p l)

/-- The loop of `dist_t::distribute` from index `i` on, and the writes with their results. A round goes
on to the next pipe or makes `matching` smaller, so there are as many rounds as there are matching pipes
left. -/
def distributeFrom (m : Msg) :
    ℕ → ℕ → Dist → Pipes → Except PatternFault (List (ℕ × Bool) × Dist × Pipes)
  | 0, _, d, links => .ok ([], d, links)
  | n + 1, i, d, links =>
    match d.pipes.items[i]? with
    | none => .error .outOfBounds
    | some p =>
      match d.write p m links with
      | .error e => .error e
      | .ok (ok, d, links) =>
        match distributeFrom m n (if ok then i + 1 else i) d links with
        | .error e => .error e
        | .ok (log, d, links) => .ok ((p, ok) :: log, d, links)

/-- `dist_t::distribute`. -/
def distribute (d : Dist) (m : Msg) (links : Pipes) :
    Except PatternFault (List (ℕ × Bool) × Dist × Pipes) :=
  distributeFrom m d.matching 0 d links

/-- `dist_t::send_to_matching`. -/
def sendToMatching (d : Dist) (m : Msg) (links : Pipes) :
    Except PatternFault (List (ℕ × Bool) × Dist × Pipes) :=
  match d.distribute m links with
  | .error e => .error e
  | .ok (log, d, links) =>
    .ok (log, { d with active := if m.more then d.active else d.eligible, more := m.more }, links)

/-- `dist_t::send_to_all`. -/
def sendToAll (d : Dist) (m : Msg) (links : Pipes) :
    Except PatternFault (List (ℕ × Bool) × Dist × Pipes) :=
  { d with matching := d.active }.sendToMatching m links

/-- `dist_t::check_hwm`. -/
def checkHwm (d : Dist) (links : Pipes) : Bool :=
  (d.pipes.items.take d.matching).all fun p => (links p).checkHwm

/-! ### The parts of the array -/

/-- The pipe is in the array. -/
def Mem (d : Dist) (p : ℕ) : Prop := p ∈ d.pipes.items

/-- The current message goes to the pipe. -/
def IsMatching (d : Dist) (p : ℕ) : Prop := d.Mem p ∧ d.pipes.index p < d.matching

/-- The pipe is an active one. -/
def IsActive (d : Dist) (p : ℕ) : Prop := d.Mem p ∧ d.pipes.index p < d.active

/-- The pipe is not passive. -/
def IsEligible (d : Dist) (p : ℕ) : Prop := d.Mem p ∧ d.pipes.index p < d.eligible

/-- The indices are right, the parts are in order, and between two messages all eligible pipes are
active. -/
structure WF (d : Dist) : Prop where
  pipes : d.pipes.WF
  matching : d.matching ≤ d.active
  active : d.active ≤ d.eligible
  eligible : d.eligible ≤ d.pipes.items.length
  between : d.more = false → d.active = d.eligible

/-- A well-formed distributor with these pipes in these parts. -/
structure Holds (d : Dist) (mem matching active eligible : ℕ → Prop) : Prop where
  wf : d.WF
  mem_iff : ∀ q, d.Mem q ↔ mem q
  matching_iff : ∀ q, d.IsMatching q ↔ matching q
  active_iff : ∀ q, d.IsActive q ↔ active q
  eligible_iff : ∀ q, d.IsEligible q ↔ eligible q

variable {d d' : Dist} {p q : ℕ}

lemma IsMatching.isActive (h : d.WF) (hp : d.IsMatching p) : d.IsActive p :=
  ⟨hp.1, hp.2.trans_le h.matching⟩

lemma IsActive.isEligible (h : d.WF) (hp : d.IsActive p) : d.IsEligible p :=
  ⟨hp.1, hp.2.trans_le h.active⟩

lemma new_wf : new.WF := ⟨PipeArray.empty_wf, le_rfl, le_rfl, le_rfl, fun _ => rfl⟩

lemma WF.attach (h : d.WF) (hp : ¬ d.Mem p) :
    ∃ d', d.attach p = some d' ∧ d'.more = d.more ∧
      d'.Holds (fun q => d.Mem q ∨ q = p) d.IsMatching
        (fun q => d.IsActive q ∨ (q = p ∧ d.more = false)) (fun q => d.IsEligible q ∨ q = p) := by
  obtain ⟨b, hb, hwf, hlen, hmem, hbelow, hnew⟩ := h.pipes.insertAt hp h.eligible
  have hma := h.matching
  have hae := h.active
  have hle := h.eligible
  by_cases hmore : d.more = true
  · refine ⟨{ d with pipes := b, eligible := d.eligible + 1 }, ?_, rfl,
      ⟨hwf, hma, by simp only; omega, by simp only; omega, fun hm => by simp [hmore] at hm⟩, hmem,
      hbelow d.matching (by omega), fun q => ?_, hnew⟩
    · simp only [Dist.attach, hmore, if_true, hb]
      rfl
    · have := hbelow d.active hae q
      simpa [IsActive, Mem, hmore] using this
  · have hactive := h.between (by simpa using hmore)
    refine ⟨{ d with pipes := b, active := d.active + 1, eligible := d.eligible + 1 }, ?_, rfl,
      ⟨hwf, by simp only; omega, by simp only; omega, by simp only; omega,
        fun _ => by simp only; omega⟩, hmem, hbelow d.matching (by omega), fun q => ?_, hnew⟩
    · simp only [Dist.attach, hmore, hactive, hb]
      rfl
    · have := hnew q
      simpa [IsActive, Mem, hmore, hactive] using this

lemma WF.activated (h : d.WF) (hp : d.Mem p) (hpassive : ¬ d.IsEligible p) :
    ∃ d', d.activated p = some d' ∧ d'.more = d.more ∧
      d'.Holds d.Mem d.IsMatching (fun q => d.IsActive q ∨ (q = p ∧ d.more = false))
        (fun q => d.IsEligible q ∨ q = p) := by
  have hma := h.matching
  have hae := h.active
  have hidx : d.eligible ≤ d.pipes.index p := not_lt.1 fun hlt => hpassive ⟨hp, hlt⟩
  have hlt := h.pipes.index_lt hp
  obtain ⟨b, hb, hmoved⟩ := h.pipes.move hp (j := d.eligible) (by omega)
  have hlen := hmoved.length
  have hmatching := hmoved.below_iff (k := d.matching) (by omega)
  by_cases hmore : d.more = true
  · refine ⟨{ d with pipes := b, eligible := d.eligible + 1 }, ?_, rfl,
      ⟨hmoved.wf, hma, by simp only; omega, by simp only; omega, fun hm => by simp [hmore] at hm⟩,
      hmoved.mem_iff, hmatching, fun q => ?_, hmoved.below_promoted hp hidx⟩
    · simp only [Dist.activated, hb, hmore]
      rfl
    · have := hmoved.below_iff (k := d.active) (by omega) q
      simpa [IsActive, Mem, hmore] using this
  · have hactive := h.between (by simpa using hmore)
    have hself : b.swap d.eligible d.eligible = some b := by
      have hat := hmoved.wf.at_index ((hmoved.mem_iff p).2 hp)
      rw [hmoved.index_self] at hat
      exact hmoved.wf.swap_self hat
    refine ⟨{ d with pipes := b, active := d.active + 1, eligible := d.eligible + 1 }, ?_, rfl,
      ⟨hmoved.wf, by simp only; omega, by simp only; omega, by simp only; omega,
        fun _ => by simp only; omega⟩, hmoved.mem_iff, hmatching, fun q => ?_,
      hmoved.below_promoted hp hidx⟩
    · simp only [Dist.activated, hb, hmore, hactive, Nat.add_sub_cancel, bind_eq_bind,
        bind_some, hself]
      rfl
    · have := hmoved.below_promoted hp hidx q
      simpa [IsActive, Mem, hmore, hactive] using this

lemma WF.leave (h : d.WF) (hp : d.Mem p) :
    ∃ d', d.leave p = some d' ∧ d'.more = d.more ∧
      d'.matching + (if d.pipes.index p < d.matching then 1 else 0) = d.matching ∧
      (∀ j ≤ d.pipes.index p, ∀ q, d'.Mem q ∧ d'.pipes.index q < j ↔ d.Mem q ∧ d.pipes.index q < j) ∧
      d'.Holds d.Mem (fun q => d.IsMatching q ∧ q ≠ p) (fun q => d.IsActive q ∧ q ≠ p)
        (fun q => d.IsEligible q ∧ q ≠ p) := by
  have hma := h.matching
  have hae := h.active
  have hle := h.eligible
  obtain ⟨b1, m, hb1, hwf1, hlen1, hmem1, hm, hless1, hkeep1⟩ :=
    h.pipes.leave hp (h.matching.trans (h.active.trans h.eligible))
  have hp1 : p ∈ b1.items := (hmem1 p).2 hp
  obtain ⟨b2, a, hb2, hwf2, hlen2, hmem2, ha, hless2, hkeep2⟩ :=
    hwf1.leave hp1 (k := d.active) (by omega)
  have hp2 : p ∈ b2.items := (hmem2 p).2 hp1
  obtain ⟨b3, e, hb3, hwf3, hlen3, hmem3, he, hless3, hkeep3⟩ :=
    hwf2.leave hp2 (k := d.eligible) (by omega)
  -- The pipe stands behind each part it has left, and on the same side of those it has not.
  have hside1 : ∀ j, d.matching ≤ j → (b1.index p < j ↔ d.pipes.index p < j) := by
    intro j hj
    have := hkeep1 j (.inr hj) p
    simpa [hp1, show p ∈ d.pipes.items from hp] using this
  have hside2 : ∀ j, d.active ≤ j → (b2.index p < j ↔ b1.index p < j) := by
    intro j hj
    have := hkeep2 j (.inr hj) p
    simpa [hp1, hp2] using this
  have hleft1 : m ≤ b1.index p := by
    have := hless1 p
    simpa [hp1] using this
  have hleft2 : a ≤ b2.index p := by
    have := hless2 p
    simpa [hp2] using this
  have hactive := hside1 d.active hma
  have heligible := (hside2 d.eligible hae).trans (hside1 d.eligible (hma.trans hae))
  have hma' : m ≤ a := by split_ifs at hm ha <;> omega
  have hae' : a ≤ e := by split_ifs at ha he <;> omega
  refine ⟨{ d with pipes := b3, matching := m, active := a, eligible := e }, ?_, rfl, hm, fun j hj q => ?_,
    ⟨hwf3, hma', hae', ?_, fun hmore => ?_⟩, fun q => ?_, fun q => ?_, fun q => ?_, fun q => ?_⟩
  · simp only [Dist.leave, bind_eq_bind, hb1, bind_some, hb2, hb3]
    rfl
  · have hj1 : j ≤ b1.index p := by
      have := hkeep1 j (.inl hj) p
      simp only [hp1, show p ∈ d.pipes.items from hp, true_and] at this
      omega
    have hj2 : j ≤ b2.index p := by
      have := hkeep2 j (.inl hj1) p
      simp only [hp1, hp2, true_and] at this
      omega
    exact (hkeep3 j (.inl hj2) q).trans ((hkeep2 j (.inl hj1) q).trans (hkeep1 j (.inl hj) q))
  · simp only
    split_ifs at he <;> omega
  · have hjoin := h.between hmore
    simp only
    split_ifs at ha he <;> omega
  · exact (hmem3 q).trans ((hmem2 q).trans (hmem1 q))
  · exact (hkeep3 m (.inl (hma'.trans hleft2)) q).trans
      ((hkeep2 m (.inl hleft1) q).trans (hless1 q))
  · refine (hkeep3 a (.inl hleft2) q).trans ((hless2 q).trans ?_)
    exact and_congr_left fun _ => hkeep1 d.active (.inr hma) q
  · refine (hless3 q).trans ?_
    exact and_congr_left fun _ =>
      (hkeep2 d.eligible (.inr hae) q).trans (hkeep1 d.eligible (.inr (hma.trans hae)) q)

lemma WF.pipeTerminated (h : d.WF) (hp : d.Mem p) :
    ∃ d', d.pipeTerminated p = some d' ∧ d'.more = d.more ∧
      d'.Holds (fun q => d.Mem q ∧ q ≠ p) (fun q => d.IsMatching q ∧ q ≠ p)
        (fun q => d.IsActive q ∧ q ≠ p) (fun q => d.IsEligible q ∧ q ≠ p) := by
  obtain ⟨d1, hd1, hmore, -, -, hwf, hmem, hmatching, hactive, heligible⟩ := h.leave hp
  have hp1 : p ∈ d1.pipes.items := (hmem p).2 hp
  have hpassive : d1.eligible ≤ d1.pipes.index p :=
    not_lt.1 fun hlt => ((heligible p).1 ⟨hp1, hlt⟩).2 rfl
  obtain ⟨b, hb, hbwf, hlen, hbmem, hbelow⟩ := hwf.pipes.erase_index hp1
  have hlt := hwf.pipes.index_lt hp1
  have hma := hwf.matching
  have hae := hwf.active
  have hpart : ∀ k ≤ d1.eligible, ∀ q, (q ∈ b.items ∧ b.index q < k ↔ q ∈ d1.pipes.items ∧ d1.pipes.index q < k) := by
    intro k hk q
    constructor
    · rintro ⟨hq, hlt⟩
      exact ⟨((hbmem q).1 hq).1, (hbelow k (hk.trans hpassive) q hq).1 hlt⟩
    rintro ⟨hq, hlt⟩
    have hne : q ≠ p := by
      rintro rfl
      omega
    have hq' := (hbmem q).2 ⟨hq, hne⟩
    exact ⟨hq', (hbelow k (hk.trans hpassive) q hq').2 hlt⟩
  refine ⟨{ d1 with pipes := b }, ?_, hmore, ⟨hbwf, hma, hae, by simp only; omega, hwf.between⟩, fun q => ?_,
    fun q => ?_, fun q => ?_, fun q => ?_⟩
  · simp only [Dist.pipeTerminated, bind_eq_bind, hd1, bind_some, hb]
    rfl
  · exact (hbmem q).trans (and_congr_left fun _ => hmem q)
  · exact (hpart d1.matching (hma.trans hae) q).trans (hmatching q)
  · exact (hpart d1.active hae q).trans (hactive q)
  · exact (hpart d1.eligible le_rfl q).trans (heligible q)

/-! ### Frames -/

lemma WF.demote (h : d.WF) (hp : d.IsMatching p) : d.demote p = d.leave p := by
  have hma := h.matching
  have hae := h.active
  have hle := h.eligible
  have hlt := hp.2
  obtain ⟨b1, hb1, hmoved1⟩ := h.pipes.move hp.1 (j := d.matching - 1) (by omega)
  have hp1 : p ∈ b1.items := (hmoved1.mem_iff p).2 hp.1
  have hidx1 := hmoved1.index_self
  have hlen1 := hmoved1.length
  obtain ⟨b2, hb2, hmoved2⟩ := hmoved1.wf.move hp1 (j := d.active - 1) (by omega)
  have hidx2 := hmoved2.index_self
  simp only [Dist.demote, Dist.leave, PipeArray.leave, if_pos hlt, hb1, bind_eq_bind,
    bind_some, map_some, hb2]
  rw [if_pos (by omega)]
  simp only [bind_some]
  rw [if_pos (by omega), hidx2]
  cases b2.swap (d.active - 1) (d.eligible - 1) <;> rfl

lemma WF.matchPipe (h : d.WF) (hp : d.Mem p) (hmore : d.more = false) :
    ∃ d', d.matchPipe p = some d' ∧ d'.more = d.more ∧
      d'.Holds d.Mem (fun q => d.IsMatching q ∨ (q = p ∧ d.IsEligible p)) d.IsActive d.IsEligible := by
  have hma := h.matching
  have hle := h.eligible
  have hactive := h.between hmore
  unfold Dist.matchPipe
  split_ifs with hlt hge
  · refine ⟨d, rfl, rfl, h, fun _ => Iff.rfl, fun q => ⟨.inl, ?_⟩, fun _ => Iff.rfl, fun _ => Iff.rfl⟩
    rintro (hq | ⟨rfl, -⟩)
    · exact hq
    · exact ⟨hp, hlt⟩
  · refine ⟨d, rfl, rfl, h, fun _ => Iff.rfl, fun q => ⟨.inl, ?_⟩, fun _ => Iff.rfl, fun _ => Iff.rfl⟩
    rintro (hq | ⟨rfl, -, hlt'⟩)
    · exact hq
    · omega
  · obtain ⟨b, hb, hmoved⟩ := h.pipes.move hp (j := d.matching) (by omega)
    have hlen := hmoved.length
    refine ⟨{ d with pipes := b, matching := d.matching + 1 }, ?_, rfl,
      ⟨hmoved.wf, by simp only; omega, h.active, by simp only; omega, h.between⟩, hmoved.mem_iff,
      fun q => ?_, hmoved.below_iff (k := d.active) (by omega),
      hmoved.below_iff (k := d.eligible) (by omega)⟩
    · rw [hb]
      rfl
    · refine (hmoved.below_promoted hp (by omega) q).trans (or_congr_right ?_)
      exact ⟨fun heq => ⟨heq, hp, by omega⟩, fun hq => hq.1⟩

lemma WF.matchAll (h : d.WF) {calls : List ℕ} (hcalls : ∀ p ∈ calls, d.Mem p)
    (hmore : d.more = false) :
    ∃ d', calls.foldlM Dist.matchPipe d = some d' ∧ d'.more = d.more ∧
      d'.Holds d.Mem (fun q => d.IsMatching q ∨ (q ∈ calls ∧ d.IsEligible q)) d.IsActive
        d.IsEligible := by
  induction calls generalizing d with
  | nil =>
    refine ⟨d, rfl, rfl, h, fun _ => Iff.rfl, fun q => ?_, fun _ => Iff.rfl, fun _ => Iff.rfl⟩
    simp
  | cons p calls ih =>
    obtain ⟨d1, hd1, hmore1, hholds1⟩ := h.matchPipe (hcalls p mem_cons_self) hmore
    have hcalls1 : ∀ q ∈ calls, d1.Mem q := fun q hq =>
      (hholds1.mem_iff q).2 (hcalls q (mem_cons_of_mem p hq))
    obtain ⟨d', hd', hmore', hholds⟩ := ih hholds1.wf hcalls1 (hmore1.trans hmore)
    refine ⟨d', ?_, hmore'.trans hmore1, hholds.wf, fun q => ?_, fun q => ?_, fun q => ?_,
      fun q => ?_⟩
    · rw [foldlM_cons, hd1]
      exact hd'
    · exact (hholds.mem_iff q).trans (hholds1.mem_iff q)
    · rw [hholds.matching_iff, hholds1.matching_iff, hholds1.eligible_iff, mem_cons]
      constructor
      · rintro ((hq | ⟨rfl, hq⟩) | ⟨hmem, hq⟩)
        · exact .inl hq
        · exact .inr ⟨.inl rfl, hq⟩
        · exact .inr ⟨.inr hmem, hq⟩
      · rintro (hq | ⟨rfl | hmem, hq⟩)
        · exact .inl (.inl hq)
        · exact .inl (.inr ⟨rfl, hq⟩)
        · exact .inr ⟨hmem, hq⟩
    · exact (hholds.active_iff q).trans (hholds1.active_iff q)
    · exact (hholds.eligible_iff q).trans (hholds1.eligible_iff q)

/-- The pipe still has to get the frame when the loop of `distribute` is at index `i`. -/
def Pending (d : Dist) (i q : ℕ) : Prop := d.IsMatching q ∧ i ≤ d.pipes.index q

lemma WF.pending_succ (h : d.WF) {i : ℕ} (hp : d.Pending i p) (hpidx : d.pipes.index p = i) (q : ℕ) :
    d.Pending (i + 1) q ↔ d.Pending i q ∧ q ≠ p := by
  constructor
  · rintro ⟨hq, hge⟩
    refine ⟨⟨hq, by omega⟩, ?_⟩
    rintro rfl
    omega
  · rintro ⟨⟨hq, hge⟩, hne⟩
    have hneq : d.pipes.index q ≠ i := fun heq => hne (h.pipes.index_inj hq.1 hp.1.1 (heq.trans hpidx.symm))
    exact ⟨hq, by omega⟩

/-- When a pipe has left, the others are as pending as before. -/
lemma Holds.pending_leave {active eligible : ℕ → Prop} {i : ℕ}
    (hholds : d'.Holds d.Mem (fun q => d.IsMatching q ∧ q ≠ p) active eligible)
    (hbelow : ∀ q, d'.Mem q ∧ d'.pipes.index q < i ↔ d.Mem q ∧ d.pipes.index q < i) (q : ℕ) :
    d'.Pending i q ↔ d.Pending i q ∧ q ≠ p := by
  rw [Pending, Pending, hholds.matching_iff]
  constructor
  · rintro ⟨⟨hq, hne⟩, hge⟩
    refine ⟨⟨hq, not_lt.1 fun hlt => ?_⟩, hne⟩
    exact absurd ((hbelow q).2 ⟨hq.1, hlt⟩).2 (not_lt.2 hge)
  · rintro ⟨⟨hq, hge⟩, hne⟩
    refine ⟨⟨hq, hne⟩, not_lt.1 fun hlt => ?_⟩
    exact absurd ((hbelow q).1 ⟨(hholds.mem_iff q).2 hq.1, hlt⟩).2 (not_lt.2 hge)

variable {taken t : ℕ → Bool} {after a : ℕ → Link}

/-- The log of a loop that begins with `p`. -/
lemma offered_cons {pending pending' : ℕ → Prop} {links links' : Pipes} {log : List (ℕ × Bool)} (hp : pending p)
    (hpend : ∀ q, pending' q ↔ pending q ∧ q ≠ p) (hnodup : (log.map fst).Nodup)
    (hin : ∀ q, pending' q → links' q = after q ∧ log.lookup q = some (taken q))
    (hout : ∀ q, ¬pending' q → links' q = update links p (after p) q ∧ log.lookup q = none) :
    (((p, taken p) :: log).map fst).Nodup ∧
    (∀ q, pending q → links' q = after q ∧ ((p, taken p) :: log).lookup q = some (taken q)) ∧
    ∀ q, ¬pending q → links' q = links q ∧ ((p, taken p) :: log).lookup q = none := by
  refine ⟨nodup_cons.2 ⟨?_, hnodup⟩, fun q hq => ?_, fun q hq => ?_⟩
  · have hnone := (hout p fun hp' => ((hpend p).1 hp').2 rfl).2
    rw [lookup_eq_none_iff] at hnone
    intro hmem
    obtain ⟨x, hx, heq⟩ := mem_map.1 hmem
    simpa [heq] using hnone x hx
  · by_cases hqp : q = p
    · subst hqp
      rw [(hout q fun hq' => ((hpend q).1 hq').2 rfl).1, update_self]
      exact ⟨rfl, lookup_cons_self⟩
    · have := hin q ((hpend q).2 ⟨hq, hqp⟩)
      rwa [lookup_cons, beq_false_of_ne hqp]
  · have hqp : q ≠ p := by
      rintro rfl
      exact hq hp
    have := hout q fun hq' => hq ((hpend q).1 hq').1
    rw [update_of_ne hqp] at this
    rwa [lookup_cons, beq_false_of_ne hqp]

/-- The loop offers the frame to every pending pipe once; `taken` and `after` say what comes of it.
Those that refuse become passive. -/
lemma WF.distributeFrom {m : Msg} (n : ℕ) {i : ℕ}
    {links : Pipes} (h : d.WF) (hn : i + n = d.matching)
    (hoffer : ∀ q, d.Pending i q → (links q).offer m = .ok (taken q, after q)) :
    ∃ log d' links', Dist.distributeFrom m n i d links = .ok (log, d', links') ∧ d'.more = d.more ∧
      d'.Holds d.Mem (fun q => d.IsMatching q ∧ (d.Pending i q → taken q = true))
        (fun q => d.IsActive q ∧ (d.Pending i q → taken q = true))
        (fun q => d.IsEligible q ∧ (d.Pending i q → taken q = true)) ∧
      (log.map fst).Nodup ∧
      (∀ q, d.Pending i q → links' q = after q ∧ log.lookup q = some (taken q)) ∧
      ∀ q, ¬ d.Pending i q → links' q = links q ∧ log.lookup q = none := by
  induction n generalizing i d links with
  | zero =>
    have hnone : ∀ q, ¬ d.Pending i q := by
      rintro q ⟨hq, hge⟩
      have := hq.2
      omega
    refine ⟨[], d, links, rfl, rfl, ⟨h, fun _ => Iff.rfl, fun q => ?_, fun q => ?_, fun q => ?_⟩,
      nodup_nil, fun q hq => absurd hq (hnone q), fun q _ => ⟨rfl, rfl⟩⟩
    all_goals exact ⟨fun hq => ⟨hq, fun hp => absurd hp (hnone q)⟩, fun hq => hq.1⟩
  | succ n ih =>
    have hma := h.matching
    have hae := h.active
    have hle := h.eligible
    obtain ⟨p, hp⟩ := PipeArray.exists_item (a := d.pipes) (i := i) (by omega)
    have hpidx := h.pipes i p hp
    have hpmatch : d.IsMatching p := ⟨mem_of_getElem? hp, by omega⟩
    have hppend : d.Pending i p := ⟨hpmatch, by omega⟩
    -- Whatever comes of it, the frame is not offered to `p` again, and the others are as before.
    have hothers : ∀ {d1 : Dist} {i1 : ℕ}, (∀ q, d1.Pending i1 q ↔ d.Pending i q ∧ q ≠ p) → ∀ q, d1.Pending i1 q →
        (update links p (after p) q).offer m = .ok (taken q, after q) := by
      intro d1 i1 hpend q hq
      obtain ⟨hq, hne⟩ := (hpend q).1 hq
      rw [update_of_ne hne]
      exact hoffer q hq
    simp only [Dist.distributeFrom, hp, Dist.write, hoffer p hppend]
    cases htaken : taken p with
    | true =>
      have hpend := h.pending_succ hppend hpidx
      have hkeep : ∀ q, (d.Pending (i + 1) q → taken q = true) ↔ (d.Pending i q → taken q = true) := by
        intro q
        rw [hpend]
        refine ⟨fun hq hpend' => ?_, fun hq hpend' => hq hpend'.1⟩
        by_cases hqp : q = p
        · rw [hqp, htaken]
        · exact hq ⟨hpend', hqp⟩
      obtain ⟨log, d', links', hrun, hmore, hholds, hnodup, hin, hout⟩ := ih h (by omega) (hothers hpend)
      refine ⟨(p, true) :: log, d', links', ?_, hmore, ?_, ?_⟩
      · simp only [if_true, hrun]
      · simpa only [hkeep] using hholds
      · rw [← htaken]
        exact offered_cons hppend hpend hnodup hin hout
    | false =>
      obtain ⟨d1, hd1, hmore1, hmatching1, hbelow1, hholds1⟩ := h.leave hpmatch.1
      rw [if_pos hpmatch.2] at hmatching1
      have hpend := hholds1.pending_leave (hbelow1 i (by omega))
      have hkeep : ∀ {P : Prop} q, ((P ∧ q ≠ p) ∧ (d1.Pending i q → taken q = true) ↔
          P ∧ (d.Pending i q → taken q = true)) := by
        intro P q
        rw [hpend]
        constructor
        · rintro ⟨⟨hP, hne⟩, hq⟩
          exact ⟨hP, fun hpend' => hq ⟨hpend', hne⟩⟩
        rintro ⟨hP, hq⟩
        refine ⟨⟨hP, ?_⟩, fun hpend' => hq hpend'.1⟩
        rintro rfl
        rw [hq hppend] at htaken
        cases htaken
      obtain ⟨log, d', links', hrun, hmore, hholds, hnodup, hin, hout⟩ :=
        ih hholds1.wf (by omega) (hothers hpend)
      refine ⟨(p, false) :: log, d', links', ?_, hmore.trans hmore1, ?_, ?_⟩
      · simp only [h.demote hpmatch, hd1]
        simp only [Bool.false_eq_true, if_false, hrun]
      · refine ⟨hholds.wf, fun q => ?_, fun q => ?_, fun q => ?_, fun q => ?_⟩
        · exact (hholds.mem_iff q).trans (hholds1.mem_iff q)
        · rw [hholds.matching_iff, hholds1.matching_iff, hkeep]
        · rw [hholds.active_iff, hholds1.active_iff, hkeep]
        · rw [hholds.eligible_iff, hholds1.eligible_iff, hkeep]
      · rw [← htaken]
        exact offered_cons hppend hpend hnodup hin hout

lemma WF.sendToMatching {m : Msg} {links : Pipes} (h : d.WF)
    (hoffer : ∀ q, d.IsMatching q → (links q).offer m = .ok (t q, a q)) :
    ∃ log d' links', d.sendToMatching m links = .ok (log, d', links') ∧ d'.more = m.more ∧
      d'.Holds d.Mem (fun q => d.IsMatching q ∧ t q = true)
        (fun q => (if m.more then d.IsActive q else d.IsEligible q) ∧
          (d.IsMatching q → t q = true))
        (fun q => d.IsEligible q ∧ (d.IsMatching q → t q = true)) ∧
      (log.map fst).Nodup ∧
      (∀ q, d.IsMatching q → links' q = a q ∧ log.lookup q = some (t q)) ∧
      ∀ q, ¬ d.IsMatching q → links' q = links q ∧ log.lookup q = none := by
  have hpend : ∀ q, d.Pending 0 q ↔ d.IsMatching q := fun q => ⟨And.left, fun hq => ⟨hq, Nat.zero_le _⟩⟩
  obtain ⟨log, d', links', hrun, hmore, hholds, hnodup, hin, hout⟩ :=
    h.distributeFrom d.matching (by omega) (fun q hq => hoffer q ((hpend q).1 hq))
  simp only [hpend] at hholds hin hout
  refine ⟨log, { d' with active := if m.more then d'.active else d'.eligible, more := m.more }, links',
    ?_, rfl, ⟨⟨hholds.wf.pipes, ?_, ?_, hholds.wf.eligible, fun hm => ?_⟩, hholds.mem_iff, fun q => ?_,
      fun q => ?_, hholds.eligible_iff⟩, hnodup, hin, hout⟩
  · rw [Dist.sendToMatching, distribute, hrun]
  · have := hholds.wf.matching
    have := hholds.wf.active
    simp only
    split <;> omega
  · have := hholds.wf.active
    simp only
    split <;> omega
  · simp only at hm
    simp [hm]
  · refine (hholds.matching_iff q).trans (and_congr_right fun hq => ?_)
    exact ⟨fun htaken => htaken hq, fun htaken _ => htaken⟩
  · cases hm : m.more with
    | true => simpa [IsActive, Mem, hm] using hholds.active_iff q
    | false => simpa [IsActive, IsEligible, Mem, hm] using hholds.eligible_iff q

end Dist

end Zmq
