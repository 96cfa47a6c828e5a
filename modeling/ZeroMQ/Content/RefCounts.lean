import ZeroMQ.Content.Distribute

/-!
# Reference counts over whole runs

A run is any sequence of operations on messages and of distributions. `fits` says that a step does not
take a counter beyond its 32 bits and that a distribution does not write to conflating pipes, which take the
message away from the pipes behind them. `proper` is the way `add_refs`, `rm_refs` and copies bit by bit are
to be used: a value whose reference went to a copy is not used before it is initialised again, and `rm_refs`
removes references that were added and not used, and the value's own at most.

In runs of steps that fit and are proper a content is freed exactly when its last reference goes, it is not
accessed after that, and the counter of a shared one is the number of the references. Where references are
added and removed by distributions only, these are the values that point to the content.
-/

namespace Zmq

open Foundation List Bool Except

namespace MsgHeap

variable {h h' : MsgHeap} {i j k n : ℕ} {v w : MsgValue}

/-! ### How messages are used -/

/-- The value, if there is one, has not lost its reference to a copy. -/
def owns (h : MsgHeap) (i : ℕ) : Bool := h.values[i]?.all fun v => !v.spent

/-- The counter of the content can take `n` more references. -/
def room (h : MsgHeap) (i n : ℕ) : Bool :=
  h.values[i]?.all fun v =>
    match v.kind with
    | .lmsg k _ => h.refs k + n < 2 ^ 32
    | _ => true

/-- None of the matching pipes is a conflating one. -/
def Targets.ordinary (t : Targets) (d : Dist) : Bool :=
  (d.pipes.items.take d.matching).all fun p => (t.back p).isNone

/-- At most the references that no value holds and the value's own are removed. -/
def covered (h : MsgHeap) (i : ℕ) (refs : ℤ) : Bool :=
  h.values[i]?.all fun v =>
    match v.kind with
    | .lmsg k true => refs ≤ (h.contents k).reserved + 1
    | _ => true

/-- No counter overflows, and no pipe takes the message away. -/
def fits (h : MsgHeap) : MsgAct → Bool
  | .copy _ j => h.room j 1
  | .addRefs i refs => h.room i refs.toNat
  | .distribute i d t => h.room i (d.1.matching - 1) && t.ordinary d.1
  | _ => true

/-- Values that gave their reference to a copy are not used, and only what was added is removed. -/
def proper (h : MsgHeap) : MsgAct → Bool
  | .create _ _ => true
  | .init _ => true
  | .close i => h.owns i
  | .move i j => h.owns i && h.owns j
  | .copy i j => h.owns i && h.owns j
  | .addRefs i _ => h.owns i
  | .rmRefs i refs => h.owns i && h.covered i refs
  | .podCopy i => h.owns i
  | .distribute i _ _ => h.owns i

/-- The step leaves no reference without a value. -/
def isWhole : MsgAct → Bool
  | .addRefs _ _ => false
  | .rmRefs _ _ => false
  | .podCopy _ => false
  | .init _ => false
  | _ => true

/-- Every reference is held by a value. -/
structure Plain (h : MsgHeap) : Prop where
  reserved : ∀ k, (h.contents k).reserved = 0
  spent : ∀ v ∈ h.values, v.spent = false

lemma Plain.empty : Plain empty := ⟨fun _ => rfl, by simp [MsgHeap.empty]⟩

lemma Plain.owns (hplain : h.Plain) (i : ℕ) : h.owns i = true := by
  unfold MsgHeap.owns
  cases hv : h.values[i]? with
  | none => rfl
  | some v => simp [hplain.spent v (mem_of_getElem? hv)]

lemma Plain.proper (hplain : h.Plain) {a : MsgAct} (ha : isWhole a = true) : h.proper a = true := by
  cases a <;> simp_all [isWhole, MsgHeap.proper, hplain.owns]

lemma Tidy.plain (htidy : Tidy h h') (hplain : h.Plain) : h'.Plain := by
  refine ⟨fun k => (htidy.reserved k).trans (hplain.reserved k), fun v hv => ?_⟩
  by_contra hspent
  replace hspent : v.spent = true := by simpa using hspent
  have := hplain.spent v (htidy.spent v hv hspent)
  rw [hspent] at this
  cases this

lemma Plain.create (hplain : h.Plain) (metadata : Bool) (new : NewMsg) : (h.create metadata new).Plain := by
  have hpush : ∀ kind, ∀ v ∈ h.values ++ [⟨kind, metadata, false⟩], v.spent = false := by
    intro kind v hv
    rcases mem_append.mp hv with hv | hv
    · exact hplain.spent v hv
    · rw [mem_singleton.mp hv]
  cases new with
  | vsm | cmsg | delimiter => exact ⟨hplain.reserved, hpush _⟩
  | lmsg =>
    refine ⟨fun k => ?_, hpush _⟩
    by_cases heq : k = h.size
    · simp [MsgHeap.create, heq]
    · have : (h.create metadata .lmsg).contents k = h.contents k := Function.update_of_ne heq ..
      rw [this]
      exact hplain.reserved k

/-! ### One step -/

lemma value_none (hv : h.values[i]? = none) : h.value i = .error .badAddress := by
  rw [value, hv]

lemma owns_some (howns : h.owns i = true) (hv : h.values[i]? = some v) : v.spent = false := by
  simpa [owns, hv] using howns

lemma room_some (hroom : h.room i n = true) (hv : h.values[i]? = some v) (k : ℕ) (shared : Bool)
    (hkind : v.kind = .lmsg k shared) : h.refs k + n < 2 ^ 32 := by
  simpa [room, hv, hkind] using hroom

/-- What a step does with the references. -/
def Steps (h : MsgHeap) (a : MsgAct) (h' : MsgHeap) : Prop := h'.Inv ∧ (isWhole a = true → h.Plain → h'.Plain)

lemma Tidy.steps (htidy : Tidy h h') (a : MsgAct) : Steps h a h' :=
  ⟨htidy.inv, fun _ hplain => htidy.plain hplain⟩

lemma step_close (hinv : h.Inv) (howns : h.owns i = true) :
    Yields (h.close i) (fun r => Tidy h r.2) (· ≠ .freed) := by
  cases hv : h.values[i]? with
  | none =>
    rw [MsgHeap.close, value_none hv]
    exact fun heq => (by cases heq)
  | some v =>
    have hown := owns_some howns hv
    obtain ⟨-, hclose⟩ | ⟨-, h', hclose, hcloses⟩ := hinv.close hv hown
    · rw [hclose]
      exact Tidy.refl hinv
    · rw [hclose]
      exact hcloses.tidy hown

lemma yields_badAddress {σ : Type} {Q : σ → Prop} :
    Yields (.error .badAddress : Except MsgFault σ) Q (· ≠ .freed) :=
  fun heq => (by cases heq)

lemma step_move (hinv : h.Inv) (hi : h.owns i = true) (hj : h.owns j = true) :
    Yields (h.move i j) (fun r => Tidy h r.2) (· ≠ .freed) := by
  cases hw : h.values[j]? with
  | none =>
    rw [MsgHeap.move, value_none hw]
    exact yields_badAddress
  | some w =>
    cases hv : h.values[i]? with
    | none =>
      simp only [MsgHeap.move, MsgHeap.close, value_of hw, value_none hv, bind, Except.bind]
      split
      · exact Tidy.refl hinv
      · exact yields_badAddress
    | some v =>
      obtain ⟨rc, h', hmove, htidy⟩ := hinv.move hv hw (owns_some hi hv) (owns_some hj hw)
      rw [hmove]
      exact htidy

lemma step_copy (hinv : h.Inv) (hi : h.owns i = true) (hj : h.owns j = true)
    (hroom : h.room j 1 = true) : Yields (h.copy i j) (fun r => Tidy h r.2) (· ≠ .freed) := by
  cases hw : h.values[j]? with
  | none =>
    rw [MsgHeap.copy, value_none hw]
    exact yields_badAddress
  | some w =>
    cases hv : h.values[i]? with
    | none =>
      simp only [MsgHeap.copy, MsgHeap.close, value_of hw, value_none hv, bind, Except.bind]
      split
      · exact Tidy.refl hinv
      · exact yields_badAddress
    | some v =>
      obtain ⟨rc, h', hcopy, htidy⟩ := hinv.copy hv hw (owns_some hi hv) (owns_some hj hw) (room_some hroom hw)
      rw [hcopy]
      exact htidy

lemma step_addRefs (hinv : h.Inv) (hi : h.owns i = true) {refs : ℤ}
    (hroom : h.room i refs.toNat = true) : Yields (h.addRefs i refs) Inv (· ≠ .freed) := by
  cases hv : h.values[i]? with
  | none =>
    simp only [MsgHeap.addRefs, value_none hv, bind, bind, throw, throwThe, MonadExceptOf.throw]
    split
    · exact fun heq => (by cases heq)
    · exact yields_badAddress
  | some v =>
    obtain hassert | ⟨hok, -⟩ | ⟨-, k, shared, h', -, hok, hinv', -⟩ :=
      hinv.addRefs hv (owns_some hi hv) refs (room_some hroom hv)
    · rw [hassert]
      exact fun heq => (by cases heq)
    · rw [hok]
      exact hinv
    · rw [hok]
      exact hinv'

lemma step_rmRefs (hinv : h.Inv) (hi : h.owns i = true) {refs : ℤ} (hcovered : h.covered i refs = true) :
    Yields (h.rmRefs i refs) (fun r => r.2.Inv) (· ≠ .freed) := by
  cases hv : h.values[i]? with
  | none =>
    simp only [MsgHeap.rmRefs, value_none hv, bind, bind, throw, throwThe, MonadExceptOf.throw]
    split
    · exact fun heq => (by cases heq)
    · exact yields_badAddress
  | some v =>
    have hown := owns_some hi hv
    obtain hassert | ⟨-, hok⟩ | ⟨-, k, hkind, heq⟩ | ⟨-, hkind, heq⟩ := rmRefs_cases hv refs
    · rw [hassert]
      exact fun heq => (by cases heq)
    · rw [hok]
      exact hinv
    · have hle : refs ≤ (h.contents k).reserved + 1 := by simpa [covered, hv, hkind] using hcovered
      obtain ⟨freed, h1, hdrop, hinv', -⟩ := hinv.payBack (n := refs.toNat) hv hkind hown (by omega)
      rw [heq, hdrop]
      exact hinv'
    · rw [heq]
      refine Yields.map ?_
      exact (step_close hinv hi).mono fun r htidy => htidy.inv

lemma step_podCopy (hinv : h.Inv) (hi : h.owns i = true) : Yields (h.podCopy i) Inv (· ≠ .freed) := by
  cases hv : h.values[i]? with
  | none =>
    rw [MsgHeap.podCopy, value_none hv]
    exact yields_badAddress
  | some v =>
    obtain ⟨hok, hinv'⟩ := hinv.podCopy hv (owns_some hi hv)
    rw [hok]
    exact hinv'

lemma step_init (hinv : h.Inv) : Yields (h.init i) Inv (· ≠ .freed) := by
  cases hv : h.values[i]? with
  | none =>
    rw [MsgHeap.init, value_none hv]
    exact yields_badAddress
  | some v =>
    obtain ⟨hok, hinv'⟩ := hinv.init hv
    rw [hok]
    exact hinv'

lemma step_distribute (hinv : h.Inv) (hi : h.owns i = true) {d : Dist} (hwf : d.WF) {t : Targets}
    (hroom : h.room i (d.matching - 1) = true) (hback : t.ordinary d = true) :
    Yields (h.distribute i d t) (fun r => Tidy h r.2) (· ≠ .freed) := by
  cases hv : h.values[i]? with
  | none =>
    rw [MsgHeap.distribute, value_none hv]
    exact yields_badAddress
  | some v =>
    refine hinv.distribute hv (owns_some hi hv) hwf (fun p hp => ?_) (room_some hroom hv)
    have hmem : p ∈ d.pipes.items.take d.matching :=
      mem_of_getElem? ((getElem?_take_of_lt hp.2).trans (hwf.pipes.at_index hp.1))
    simpa using (all_eq_true.mp hback) p hmem

/-- **One step.** -/
theorem Inv.step (hinv : h.Inv) {a : MsgAct} (hfits : h.fits a = true) (hproper : h.proper a = true) :
    Yields (h.step a) (Steps h a) (· ≠ .freed) := by
  cases a with
  | create metadata new => exact ⟨hinv.create metadata new, fun _ hplain => hplain.create metadata new⟩
  | close i => exact ((step_close hinv hproper).mono fun r htidy => htidy.steps _).map
  | move i j =>
    simp only [MsgHeap.proper, and_eq_true] at hproper
    exact ((step_move hinv hproper.1 hproper.2).mono fun r htidy => htidy.steps _).map
  | copy i j =>
    simp only [MsgHeap.proper, and_eq_true] at hproper
    exact ((step_copy hinv hproper.1 hproper.2 hfits).mono fun r htidy => htidy.steps _).map
  | addRefs i refs =>
    exact (step_addRefs hinv hproper hfits).mono fun h' hinv' => ⟨hinv', fun hw => (by cases hw)⟩
  | rmRefs i refs =>
    simp only [MsgHeap.proper, and_eq_true] at hproper
    exact ((step_rmRefs hinv hproper.1 hproper.2).mono fun r hinv' =>
      show Steps h _ r.2 from ⟨hinv', fun hw => (by cases hw)⟩).map
  | podCopy i => exact (step_podCopy hinv hproper).mono fun h' hinv' => ⟨hinv', fun hw => (by cases hw)⟩
  | init i => exact (step_init hinv).mono fun h' hinv' => ⟨hinv', fun hw => (by cases hw)⟩
  | distribute i d t =>
    simp only [MsgHeap.fits, and_eq_true] at hfits
    exact ((step_distribute hinv hproper d.2 hfits.1 hfits.2).mono fun r htidy => htidy.steps _).map

/-- A content is freed if and only if no reference is left. Before that its counter is the number of the
references, or there is one reference and it does not count. -/
def Referenced (h : MsgHeap) (k : ℕ) : Prop :=
  ((h.contents k).freed = true ↔ h.refs k = 0) ∧
    ((h.contents k).freed = false →
      (h.count k false = 0 ∧ (h.contents k).refcnt = h.refs k) ∨ (h.count k true = 0 ∧ h.refs k = 1))

lemma Inv.referenced (hinv : h.Inv) (hk : k < h.size) : h.Referenced k := by
  have hcounted := hinv.counted k hk
  have hfreed := hcounted.freed_iff
  refine ⟨hfreed, fun hlive => ?_⟩
  simp only [refs, live]
  obtain ⟨hnone, hrefcnt⟩ | ⟨hnone, hone⟩ := hcounted.counter hlive
  · exact .inl ⟨hnone, by omega⟩
  · exact .inr ⟨hnone, by omega⟩

/-- **Reference counts.** In every run of steps that fit and are proper no content is accessed after it was
freed, a content is freed if and only if no reference to it is left, and the counter of a shared content is
the number of the references. Where references are added and removed by copies, moves and distributions
only, every reference is a value that points to the content, and every step that fits is proper. -/
theorem content_refcounts (acts : List MsgAct) :
    (StepsMeet step (fun h a => h.fits a = true ∧ h.proper a = true) empty acts →
      Yields (runSteps step empty acts) (fun h => ∀ k < h.size, h.Referenced k) (· ≠ .freed)) ∧
    ((∀ a ∈ acts, isWhole a = true) → StepsMeet step (fun h a => h.fits a = true) empty acts →
      Yields (runSteps step empty acts)
        (fun h => ∀ k < h.size, h.Referenced k ∧ h.refs k = h.live k) (· ≠ .freed)) := by
  constructor
  · intro hgood
    refine (Yields.runSteps (I := Inv) ?_ Inv.empty hgood).mono fun h hinv k hk => hinv.referenced hk
    exact fun h a hinv ⟨hfits, hproper⟩ => (hinv.step hfits hproper).mono fun h' hsteps => hsteps.1
  · intro hwhole hgood
    have hboth : StepsMeet step (fun h a => isWhole a = true ∧ h.fits a = true) empty acts :=
      (stepsMeet_of_forall (fun a ha _ => hwhole a ha) _).and hgood
    have hplain : Yields (runSteps step empty acts) (fun h => h.Inv ∧ h.Plain) (· ≠ .freed) := by
      refine Yields.runSteps ?_ ⟨Inv.empty, Plain.empty⟩ hboth
      rintro h a ⟨hinv, hplain⟩ ⟨hw, hfits⟩
      refine (hinv.step hfits (hplain.proper hw)).mono fun h' hsteps => ?_
      exact ⟨hsteps.1, hsteps.2 hw hplain⟩
    refine hplain.mono fun h ⟨hinv, hplain⟩ k hk => ⟨hinv.referenced hk, ?_⟩
    rw [refs, hplain.reserved, add_zero]

/-- Two pipes, both matching. -/
def twoPipes : { d : Dist // d.WF } :=
  ⟨⟨⟨[0, 1], id⟩, 2, 2, 2, false⟩, by
    refine ⟨fun i p hp => ?_, le_rfl, le_rfl, le_rfl, fun _ => rfl⟩
    match i, hp with
    | 0, hp => exact (Option.some.inj hp).symm
    | 1, hp => exact (Option.some.inj hp).symm⟩

/-- Between `add_refs` and the copies the counter is ahead of the values; a counter of 32 bits overflows;
and a message that is written to two conflating pipes goes to the first of them, with both references. -/
theorem content_refcounts_ahead :
    okAnd (runSteps step empty [.create false .lmsg, .addRefs 0 1]) (fun h =>
      (h.contents 0).freed = false ∧ (h.contents 0).refcnt = 2 ∧ h.live 0 = 1) ∧
    okAnd (runSteps step empty [.create false .lmsg, .addRefs 0 (2 ^ 31 - 1), .addRefs 0 (2 ^ 31 - 1),
        .addRefs 0 2]) (fun h => (h.contents 0).refcnt = 1 ∧ h.refs 0 = 2 ^ 32 + 1) ∧
    okAnd (runSteps step empty [.create false .vsm, .create false .vsm, .create false .lmsg,
        .distribute 2 twoPipes ⟨fun _ => true, some⟩]) (fun h =>
      (h.contents 0).freed = false ∧ (h.contents 0).refcnt = 2 ∧ h.live 0 = 1) := by
  decide +kernel

/-- A long message is copied and distributed to two pipes, one of which refuses; then it is closed. -/
def distributed : List MsgAct :=
  [.create false .lmsg, .create false .vsm, .copy 1 0, .distribute 0 twoPipes ⟨(· = 1), fun _ => none⟩,
    .close 1, .close 2]

theorem content_refcounts_distributed :
    StepsMeet step (fun h a => h.fits a = true ∧ h.proper a = true) empty distributed ∧
    okAnd (runSteps step empty (distributed.take 4)) (fun h =>
      (h.contents 0).refcnt = 2 ∧ h.live 0 = 2) ∧
    ∃ h, runSteps step empty distributed = .ok h ∧ (h.contents 0).freed = true ∧ ∀ k < h.size, h.Referenced k := by
  have hgood : StepsMeet step (fun h a => h.fits a = true ∧ h.proper a = true) empty distributed := by
    decide +kernel
  refine ⟨hgood, by decide +kernel, okAnd.exists_and (by decide +kernel) fun h hh => ?_⟩
  have hall := (content_refcounts distributed).1 hgood
  rw [hh] at hall
  exact hall

end MsgHeap

end Zmq
