import ZeroMQ.Foundation.Turns
import ZeroMQ.Pattern.FqAtomic
import ZeroMQ.Pattern.RingOrder

/-!
# Fairness of the fair queue

Between two messages of a pipe every other pipe that has a message all the time should have its turn. The
turns go round the active pipes, but an empty pipe gives its place to the last of them, which may have had
its turn a moment ago, while the pipes in between wait. The comment in `fq_t::has_in` says that this does
not break the fairness.

As long as no search lets a pipe overtake another one in this way, fairness holds: a pipe that waits
precedes every pipe that has had a turn since its own.
-/

namespace Zmq

open Foundation List Bool Option

namespace FqSystem

variable {s t : FqSystem} {a : FqAct} {p q x : ℕ}

/-- The pipes that the messages received came from, oldest first. -/
def turns (s : FqSystem) : List ℕ := s.received.filterMap fun g => g.getLast?.map Prod.snd

/-- The pipe is active and there is a message in it. -/
structure Waits (s : FqSystem) (q : ℕ) : Prop where
  active : s.fq.IsActive q
  checkRead : Ring.finds Fq.tryCheckRead q s.links = true
  read : Ring.finds Fq.tryRead q s.links = true

instance (s : FqSystem) (q : ℕ) : Decidable (s.Waits q) :=
  decidable_of_iff ((∃ i < s.fq.active, s.fq.pipes.items[i]? = some q) ∧
      Ring.finds Fq.tryCheckRead q s.links = true ∧ Ring.finds Fq.tryRead q s.links = true)
    ⟨fun ⟨h₁, h₂, h₃⟩ => ⟨h₁, h₂, h₃⟩, fun h => ⟨h.active, h.checkRead, h.read⟩⟩

/-- No pipe is terminated by the step, so that `fq_t::pipe_terminated` is not called. -/
def Spares (s : FqSystem) : FqAct → Prop
  | .owner p a => a.1 = .deliver → (s.links p).near.inbox.head? ≠ some .pipeTermAck
  | _ => True

instance (s : FqSystem) (a : FqAct) : Decidable (s.Spares a) :=
  match a with
  | .owner _ _ => inferInstanceAs (Decidable (_ → _ ≠ _))
  | .attach _ _ | .recv | .hasIn | .peer _ _ => inferInstanceAs (Decidable True)

/-- The step searches for a message, and in the search `p` takes the place of an empty pipe and so has its
turn before `q`. -/
def Overtakes (s : FqSystem) (p q : ℕ) : FqAct → Bool
  | .recv => !s.fq.more && Ring.overtakes Fq.tryRead p q s.fq.active s.fq.toRing s.links
  | .hasIn => !s.fq.more && Ring.overtakes Fq.tryCheckRead p q s.fq.active s.fq.toRing s.links
  | _ => false

/-! ### Turns -/

lemma turns_record (s : FqSystem) (m : Msg) (p : ℕ) :
    (s.record (m, p)).turns = if m.more then s.turns else s.turns ++ [p] := by
  unfold record turns
  by_cases hm : m.more = true <;> simp [hm]

lemma append_ne_self (l : List ℕ) (x : ℕ) : l ≠ l ++ [x] := by
  intro h
  simpa using congrArg length h

/-- What a step does to the turns of two pipes. -/
structure TurnStep (s t : FqSystem) (p q : ℕ) : Prop where
  turns : t.turns = s.turns ∨ ∃ x, t.turns = s.turns ++ [x]
  stays : s.Waits q → t.fq.IsActive q
  took : t.turns = s.turns ++ [p] → t.fq.IsActive q → q ≠ p → t.fq.Precedes q p

/-- A step that keeps the order of two pipes. -/
def KeepsOrder (s t : FqSystem) (p q : ℕ) : Prop :=
  s.fq.Precedes q p → t.turns ≠ s.turns ++ [p] ∧ (t.turns = s.turns ++ [q] ∨ t.fq.Precedes q p)

lemma TurnStep.of_turns_eq (h : t.turns = s.turns) (hstays : s.Waits q → t.fq.IsActive q) :
    TurnStep s t p q :=
  ⟨.inl h, hstays, fun htook => absurd (h.symm.trans htook) (append_ne_self _ _)⟩

lemma KeepsOrder.of_turns_eq (h : t.turns = s.turns) (hkeep : s.fq.Precedes q p → t.fq.Precedes q p) :
    KeepsOrder s t p q := fun hbefore =>
  ⟨fun htook => absurd (h.symm.trans htook) (append_ne_self _ _), .inr (hkeep hbefore)⟩

variable {links links' : Pipes}

lemma tryRead_keeps {x : ℕ} (hxq : x ≠ q)
    (h : Fq.tryRead x links = .ok (none, links')) (hq : Ring.finds Fq.tryRead q links = true) :
    Ring.finds Fq.tryRead q links' = true := by
  unfold Fq.tryRead at h
  cases hread : (links x).read with
  | error e => simp [hread] at h
  | ok out =>
    rw [hread] at h
    obtain rfl := (Prod.mk.inj (Except.ok.inj h)).2
    unfold Ring.finds Fq.tryRead at hq ⊢
    rw [Function.update_of_ne hxq.symm]
    cases hq' : (links q).read with
    | error e => simp [hq'] at hq
    | ok out =>
      obtain ⟨found, l⟩ := out
      cases found with
      | none => simp [hq'] at hq
      | some m => rfl

lemma tryCheckRead_keeps {x : ℕ} (hxq : x ≠ q)
    (h : Fq.tryCheckRead x links = .ok (none, links'))
    (hq : Ring.finds Fq.tryCheckRead q links = true) : Ring.finds Fq.tryCheckRead q links' = true := by
  unfold Fq.tryCheckRead at h
  cases hread : (links x).checkRead with
  | error e => simp [hread] at h
  | ok out =>
    rw [hread] at h
    obtain rfl := (Prod.mk.inj (Except.ok.inj h)).2
    unfold Ring.finds Fq.tryCheckRead at hq ⊢
    rw [Function.update_of_ne hxq.symm]
    cases hq' : (links q).checkRead with
    | error e => simp [hq'] at hq
    | ok out =>
      obtain ⟨found, l⟩ := out
      cases found with
      | false => simp [hq'] at hq
      | true => rfl

/-! ### Steps -/

/-- The search of `recvpipe`. -/
abbrev readSearch (s : FqSystem) : Except PatternFault (Option Msg × Ring ℕ × Pipes) :=
  Ring.search .outOfBounds Fq.tryRead (if s.fq.more then .error .assertFailed else .ok ())
    Ring.deactivate s.fq.active s.fq.toRing s.links

/-- What a call of `recvpipe` that succeeds does to the turns: after the last frame of a message the turn
of the current pipe is used. -/
lemma recv_cases (h : s.step .recv = .ok t) :
    (∃ r links, s.readSearch = .ok (none, r, links) ∧ t.fq.toRing = r ∧ t.turns = s.turns) ∨
    ∃ m x r links, s.readSearch = .ok (some m, r, links) ∧ r.pipes.items[r.current]? = some x ∧
      ((t.fq.toRing = r ∧ t.turns = s.turns) ∨ (t.fq.toRing = r.advance ∧ t.turns = s.turns ++ [x])) := by
  simp only [FqSystem.step, Fq.recvpipe] at h
  cases hsearch : s.readSearch with
  | error e => simp [hsearch] at h
  | ok out =>
    obtain ⟨found, r, links⟩ := out
    cases found with
    | none =>
      simp only [hsearch] at h
      cases h
      exact .inl ⟨r, links, rfl, rfl, rfl⟩
    | some m =>
      cases hx : r.pipes.items[r.current]? with
      | none => simp [hsearch, hx] at h
      | some x =>
        refine .inr ⟨m, x, r, links, rfl, hx, ?_⟩
        cases hm : m.more with
        | true =>
          simp only [hsearch, hx, hm, if_true] at h
          cases h
          refine .inl ⟨?_, by rw [turns_record, hm]; rfl⟩
          simp [record, hm]
        | false =>
          simp only [hsearch, hx, hm, false_eq_true, if_false] at h
          cases h
          refine .inr ⟨?_, by rw [turns_record, hm]; rfl⟩
          simp [record, hm]

variable {r r' : Ring ℕ}

lemma readSearch_more {m : Option Msg} (hwf : s.fq.WF)
    (hmore : s.fq.more = true) (hq : s.fq.IsActive q) (h : s.readSearch = .ok (m, r, links)) :
    r = s.fq.toRing ∧ m.isSome := by
  obtain ⟨x, hx⟩ := hwf.exists_current (Nat.zero_lt_of_lt (hq.index_lt hwf))
  obtain ⟨n, hn⟩ : ∃ n, s.fq.active = n + 1 := ⟨s.fq.active - 1, by have := hx.1; omega⟩
  unfold readSearch at h
  rw [hn, hmore, Ring.search] at h
  simp only [hx.2] at h
  cases hprobe : Fq.tryRead x s.links with
  | error e => simp [hprobe] at h
  | ok out =>
    obtain ⟨found, l⟩ := out
    cases found with
    | none => simp [hprobe] at h
    | some c =>
      rw [hprobe] at h
      cases h
      exact ⟨rfl, rfl⟩

/-- The search of `recvpipe` leaves a pipe that waits active and, unless another one overtakes it, in its
place before that one. -/
lemma readSearch_order {m : Option Msg} (hwf : s.fq.WF) (hq : s.Waits q)
    (h : s.readSearch = .ok (m, r, links)) :
    r.IsActive q ∧ m.isSome ∧ (s.fq.Precedes q p → s.Overtakes p q .recv = false → r.Precedes q p) := by
  cases hmore : s.fq.more with
  | true =>
    obtain ⟨rfl, hfound⟩ := readSearch_more hwf hmore hq.active h
    exact ⟨hq.active, hfound, fun hbefore _ => hbefore⟩
  | false =>
    obtain ⟨hactive, hfound, horder⟩ := Ring.search_order (p := p)
      (fun x links links' hxq hx => tryRead_keeps hxq hx) hwf hq.active hq.read rfl h
    refine ⟨hactive, hfound, fun hbefore hnot => horder (.inl hbefore) ?_⟩
    simpa [Overtakes, hmore] using hnot

lemma turnStep_recv (hs : FqInv s) (h : s.step .recv = .ok t) : TurnStep s t p q := by
  have hwf := hs.core.ring
  obtain ⟨r, links, hsearch, hring, hturns⟩ | ⟨m, x, r, links, hsearch, hx, hcases⟩ := recv_cases h
  · refine .of_turns_eq hturns fun hq => ?_
    rw [hring]
    exact (readSearch_order (p := p) hwf hq hsearch).1
  have hstays : s.Waits q → r.IsActive q := fun hq => (readSearch_order (p := p) hwf hq hsearch).1
  rcases hcases with ⟨hring, hturns⟩ | ⟨hring, hturns⟩
  · exact .of_turns_eq hturns fun hq => hring ▸ hstays hq
  refine ⟨.inr ⟨x, hturns⟩, fun hq => hring ▸ hstays hq, fun htook hq hqp => ?_⟩
  rw [hturns] at htook
  obtain rfl : x = p := (cons.inj (append_cancel_left htook)).1
  obtain ⟨hwf', hcurrent⟩ := Ring.search_wf hwf rfl hsearch
  rw [hring] at hq ⊢
  exact Ring.precedes_advance_current hwf' ⟨hcurrent rfl, hx⟩ hq hqp

lemma keepsOrder_recv (hs : FqInv s) (hq : s.Waits q) (hnot : s.Overtakes p q .recv = false)
    (h : s.step .recv = .ok t) : KeepsOrder s t p q := by
  have hwf := hs.core.ring
  obtain ⟨r, links, hsearch, hring, hturns⟩ | ⟨m, x, r, links, hsearch, hx, hcases⟩ := recv_cases h
  · have hfound := (readSearch_order (p := p) hwf hq hsearch).2.1
    cases hfound
  obtain ⟨-, -, horder⟩ := readSearch_order (p := p) hwf hq hsearch
  rcases hcases with ⟨hring, hturns⟩ | ⟨hring, hturns⟩
  · exact .of_turns_eq hturns fun hbefore => hring ▸ horder hbefore hnot
  intro hbefore
  obtain ⟨hwf', hcurrent⟩ := Ring.search_wf hwf rfl hsearch
  have hafter := horder hbefore hnot
  have hturn : r.IsCurrent x := ⟨hcurrent rfl, hx⟩
  rw [hturns, hring]
  refine ⟨fun htook => ?_, ?_⟩
  · obtain rfl : x = p := (cons.inj (append_cancel_left htook)).1
    exact hafter.not_current hwf' hturn
  · by_cases hxq : x = q
    · exact .inl (by rw [hxq])
    · exact .inr (hafter.advance hwf' hturn hxq)

lemma hasIn_cases (h : s.step .hasIn = .ok t) :
    t.turns = s.turns ∧ ((s.fq.more = true ∧ t.fq = s.fq) ∨ (s.fq.more = false ∧
      ∃ found links, Ring.search .outOfBounds Fq.tryCheckRead (.ok ()) Ring.deactivate s.fq.active
        s.fq.toRing s.links = .ok (found, t.fq.toRing, links))) := by
  simp only [FqSystem.step, Fq.hasIn] at h
  cases hmore : s.fq.more with
  | true =>
    simp only [hmore, if_true] at h
    cases h
    exact ⟨rfl, .inl ⟨rfl, rfl⟩⟩
  | false =>
    simp only [hmore, false_eq_true, if_false] at h
    cases hsearch : Ring.search .outOfBounds Fq.tryCheckRead (.ok ()) Ring.deactivate s.fq.active
        s.fq.toRing s.links with
    | error e => simp [hsearch] at h
    | ok out =>
      rw [hsearch] at h
      cases h
      exact ⟨rfl, .inr ⟨rfl, _, _, rfl⟩⟩

lemma turnStep_hasIn (hs : FqInv s) (h : s.step .hasIn = .ok t) : TurnStep s t p q := by
  obtain ⟨hturns, ⟨-, hsame⟩ | ⟨-, found, links, hsearch⟩⟩ := hasIn_cases h
  · exact .of_turns_eq hturns fun hq => hsame ▸ hq.active
  · refine .of_turns_eq hturns fun hq => ?_
    exact (Ring.search_order (p := p) (fun x links links' hxq hx => tryCheckRead_keeps hxq hx)
      hs.core.ring hq.active hq.checkRead rfl hsearch).1

lemma keepsOrder_hasIn (hs : FqInv s) (hq : s.Waits q) (hnot : s.Overtakes p q .hasIn = false)
    (h : s.step .hasIn = .ok t) : KeepsOrder s t p q := by
  obtain ⟨hturns, ⟨-, hsame⟩ | ⟨hmore, found, links, hsearch⟩⟩ := hasIn_cases h
  · exact .of_turns_eq hturns fun hbefore => hsame ▸ hbefore
  refine .of_turns_eq hturns fun hbefore => ?_
  refine (Ring.search_order (p := p) (fun x links links' hxq hx => tryCheckRead_keeps hxq hx)
    hs.core.ring hq.active hq.checkRead rfl hsearch).2.2 (.inl hbefore) ?_
  simpa [Overtakes, hmore] using hnot

/-- What the other steps do to the ring: nothing, or there is one more active pipe. -/
inductive Enlarged (r r' : Ring ℕ) : Prop
  | same (h : r' = r)
  | activated (x : ℕ) (hx : r.Mem x) (hn : ¬r.IsActive x) (h : r.activated x = some r')
  | attached (x : ℕ) (hx : ¬r.Mem x)
      (h : Ring.activated { r with pipes := r.pipes.pushBack x } x = some r')

lemma Enlarged.isActive (h : Enlarged r r') (hwf : r.WF) (hq : r.IsActive q) : r'.IsActive q := by
  cases h with
  | same h => exact h ▸ hq
  | activated x hx hn h =>
    obtain ⟨r'', hr'', hholds, -⟩ := hwf.activated hx hn
    obtain rfl : r' = r'' := some.inj (h.symm.trans hr'')
    exact (hholds.active_iff q).mpr (.inl hq)
  | attached x hx h =>
    obtain ⟨r'', hr'', hholds, -⟩ := hwf.attach hx
    obtain rfl : r' = r'' := some.inj (h.symm.trans hr'')
    exact (hholds.active_iff q).mpr (.inl hq)

lemma Enlarged.precedes (h : Enlarged r r') (hwf : r.WF) (hbefore : r.Precedes q p) : r'.Precedes q p := by
  cases h with
  | same h => exact h ▸ hbefore
  | activated x hx hn h => exact hbefore.activated hwf hx hn h
  | attached x hx h => exact hbefore.attach hwf hx h

lemma enlarged_attach (hs : FqInv s) {hwm0 hwm1 : ℤ} (h : s.step (.attach hwm0 hwm1) = .ok t) :
    t.turns = s.turns ∧ Enlarged s.fq.toRing t.fq.toRing := by
  have hnew := hs.core.count_notMem
  simp only [FqSystem.step, FqInv.fq_attach_eq hs.core.ring hnew] at h
  cases hr : Ring.activated { s.fq.toRing with pipes := s.fq.pipes.pushBack s.count } s.count with
  | none => simp [hr] at h
  | some r =>
    rw [hr] at h
    cases h
    exact ⟨rfl, .attached s.count hnew hr⟩

lemma enlarged_peer {x : ℕ} {act : EndAct} (h : s.step (.peer x act) = .ok t) :
    t.turns = s.turns ∧ Enlarged s.fq.toRing t.fq.toRing := by
  simp only [FqSystem.step] at h
  split at h
  · split at h
    · cases h
    · cases h
      exact ⟨rfl, .same rfl⟩
  · cases h
    exact ⟨rfl, .same rfl⟩

lemma enlarged_owner (hs : FqInv s) {x : ℕ} {act : { a : EndAct // a.KeepsInput }}
    (hspares : s.Spares (.owner x act)) (h : s.step (.owner x act) = .ok t) :
    t.turns = s.turns ∧ Enlarged s.fq.toRing t.fq.toRing := by
  simp only [FqSystem.step] at h
  split at h
  swap
  · cases h
    exact ⟨rfl, .same rfl⟩
  next hx =>
    have hin := hs.core.inv x hx
    obtain ⟨l, e, hact, ⟨rfl, rfl⟩ | ⟨halive, hmove⟩⟩ := hin.shutdown.exists_move act.1
    · simp only [hact, react] at h
      cases h
      exact ⟨rfl, .same rfl⟩
    rw [hact] at h
    have hframe := hmove.inFrame hin.shutdown halive act.2
    rcases e with _ | e
    · cases h
      exact ⟨rfl, .same rfl⟩
    cases e with
    | readActivated =>
      -- the pipe was not among the active ones
      have hpassive : ¬s.fq.IsActive x := by
        intro hactive
        have hasleep := (hframe.woken rfl).1
        rw [hs.core.active x hactive] at hasleep
        exact absurd hasleep (by decide)
      have hmem := (hs.core.mem_iff x).mpr ⟨hx, halive⟩
      obtain ⟨r, hr, -, -⟩ := hs.core.ring.activated hmem hpassive
      simp only [react, Fq.activated, hr, map_some] at h
      cases h
      exact ⟨rfl, .activated x hmem hpassive hr⟩
    | pipeTerminated =>
      obtain ⟨hdeliver, hack⟩ := hmove.of_pipeTerminated rfl
      exact absurd hack (hspares hdeliver)
    | writeActivated | hiccuped =>
      cases h
      exact ⟨rfl, .same rfl⟩

lemma turnStep (hs : FqInv s) (hspares : s.Spares a) (h : s.step a = .ok t) : TurnStep s t p q := by
  have hwf := hs.core.ring
  have hother : t.turns = s.turns ∧ Enlarged s.fq.toRing t.fq.toRing → TurnStep s t p q :=
    fun ⟨hturns, hring⟩ => .of_turns_eq hturns fun hq => hring.isActive hwf hq.active
  cases a with
  | recv => exact turnStep_recv hs h
  | hasIn => exact turnStep_hasIn hs h
  | attach hwm0 hwm1 => exact hother (enlarged_attach hs h)
  | owner x act => exact hother (enlarged_owner hs hspares h)
  | peer x act => exact hother (enlarged_peer h)

lemma keepsOrder (hs : FqInv s) (hspares : s.Spares a) (hq : s.Waits q)
    (hnot : s.Overtakes p q a = false) (h : s.step a = .ok t) : KeepsOrder s t p q := by
  have hwf := hs.core.ring
  have hother : t.turns = s.turns ∧ Enlarged s.fq.toRing t.fq.toRing → KeepsOrder s t p q :=
    fun ⟨hturns, hring⟩ => .of_turns_eq hturns (hring.precedes hwf)
  cases a with
  | recv => exact keepsOrder_recv hs hq hnot h
  | hasIn => exact keepsOrder_hasIn hs hq hnot h
  | attach hwm0 hwm1 => exact hother (enlarged_attach hs h)
  | owner x act => exact hother (enlarged_owner hs hspares h)
  | peer x act => exact hother (enlarged_peer h)

/-- A step that succeeds without terminating a pipe is one of those after which messages stay whole: in
the middle of a message a pipe that cannot be read fails the assertion. -/
lemma good_of_spares (hs : FqInv s) (hspares : s.Spares a) (h : s.step a = .ok t) : s.Good a := by
  cases a with
  | recv =>
    intro hmore p hp
    by_contra hreading
    have hcurrent : s.fq.IsCurrent p := by
      cases hs.phase with
      | between hno => rw [hno] at hmore; cases hmore
      | inside x _ hcur => exact some.inj (hcur.2.symm.trans hp) ▸ hcur
    have hcan : Link.canRead (s.links p).near.pipe = false := by
      simp only [Link.reading, Bool.not_eq_true] at hreading
      rw [Link.canRead, hreading, Bool.and_false]
    have hread : (s.links p).read = .ok (none, s.links p) := by
      simp only [Link.read, hcan, Bool.not_false, if_true]
      rfl
    obtain ⟨n, hn⟩ : ∃ n, s.fq.active = n + 1 := ⟨s.fq.active - 1, by have := hcurrent.1; omega⟩
    simp [FqSystem.step, Fq.recvpipe, hn, Ring.search, hcurrent.2, Fq.tryRead, hread, hmore] at h
  | owner p act =>
    intro _ hdeliver hack
    exact absurd hack (hspares hdeliver)
  | attach hwm0 hwm1 | hasIn | peer p act => trivial

lemma inv_of_spares (hs : FqInv s) (hspares : s.Spares a) (h : s.step a = .ok t) : FqInv t := by
  obtain ⟨t', ht', hinv⟩ := hs.step a (good_of_spares hs hspares h)
  rwa [Except.ok.inj (h.symm.trans ht')]

/-! ### Runs -/

/-- A step at which `q` waits and is not overtaken by `p`. -/
def FairTo (p q : ℕ) (s : FqSystem) (a : FqAct) : Prop := s.Spares a ∧ s.Waits q ∧ s.Overtakes p q a = false

/-- A step at which the pipes wait and do not overtake each other. -/
def FairAmong (pipes : List ℕ) (s : FqSystem) (a : FqAct) : Prop :=
  s.Spares a ∧ (∀ q ∈ pipes, s.Waits q) ∧ ∀ p ∈ pipes, ∀ q ∈ pipes, q ≠ p → s.Overtakes p q a = false

instance (pipes : List ℕ) (s : FqSystem) (a : FqAct) : Decidable (FairAmong pipes s a) :=
  inferInstanceAs (Decidable (_ ∧ (∀ q ∈ pipes, _) ∧ ∀ p ∈ pipes, ∀ q ∈ pipes, _ → _ = _))

/-- Since `s₀`, before which there were the turns `before`, the turns were fair to `q`, and if it is due it
precedes `p`. -/
structure TurnInv (before : List ℕ) (s₀ : FqSystem) (p q : ℕ) (s : FqSystem) : Prop where
  inv : FqInv s
  fair : ∃ l, s.turns = s₀.turns ++ l ∧ Alternates p q (before ++ l) ∧ (Due p q (before ++ l) → s.fq.Precedes q p)

lemma TurnInv.step {before : List ℕ} {s0 : FqSystem} (hqp : q ≠ p) (h : TurnInv before s0 p q s)
    (hfair : FairTo p q s a) (hstep : s.step a = .ok t) : TurnInv before s0 p q t := by
  obtain ⟨hspares, hwaits, hnot⟩ := hfair
  obtain ⟨l, hl, halt, hdue⟩ := h.fair
  have hturn : TurnStep s t p q := turnStep h.inv hspares hstep
  have hkeeps : KeepsOrder s t p q := keepsOrder h.inv hspares hwaits hnot hstep
  refine ⟨inv_of_spares h.inv hspares hstep, ?_⟩
  rcases hturn.turns with hsame | ⟨x, hx⟩
  · refine ⟨l, hsame.trans hl, halt, fun hd => ?_⟩
    rcases (hkeeps (hdue hd)).2 with hq | hafter
    · exact absurd (hsame.symm.trans hq) (append_ne_self _ _)
    · exact hafter
  · have hassoc : before ++ (l ++ [x]) = (before ++ l) ++ [x] := (append_assoc _ _ _).symm
    refine ⟨l ++ [x], by rw [hx, hl, append_assoc], ?_, ?_⟩
    · rw [hassoc]
      refine halt.append fun hxp hd => (hkeeps (hdue hd)).1 ?_
      rw [hx, hxp]
    · rw [hassoc]
      intro hd
      rcases hd.of_append with rfl | ⟨hxq, hd⟩
      · exact hturn.took hx (hturn.stays hwaits) hqp
      rcases (hkeeps (hdue hd)).2 with hq | hafter
      · rw [hx] at hq
        exact absurd (cons.inj (append_cancel_left hq)).1 hxq
      · exact hafter

variable {acts between : List FqAct}

lemma TurnInv.run {before : List ℕ} {s0 : FqSystem} (hqp : q ≠ p)
    (h : TurnInv before s0 p q s) (hfair : StepsMeet FqSystem.step (FairTo p q) s acts)
    (hrun : s.run acts = .ok t) : TurnInv before s0 p q t :=
  runSteps_preserves (fun _ _ _ hs ha hstep => hs.step hqp ha hstep) h hfair hrun

lemma turns_of_run (hs : FqInv s)
    (hspares : StepsMeet FqSystem.step FqSystem.Spares s acts) (hrun : s.run acts = .ok t) :
    FqInv t ∧ ∃ l, t.turns = s.turns ++ l := by
  refine runSteps_preserves (I := fun t => FqInv t ∧ ∃ l, t.turns = s.turns ++ l)
    (fun u a v hu ha hstep => ⟨inv_of_spares hu.1 ha hstep, ?_⟩) ⟨hs, [], by simp⟩ hspares hrun
  obtain ⟨l, hl⟩ := hu.2
  rcases (turnStep (p := 0) (q := 0) hu.1 ha hstep).turns with hsame | ⟨x, hx⟩
  · exact ⟨l, hsame.trans hl⟩
  · exact ⟨l ++ [x], by rw [hx, hl, append_assoc]⟩

lemma fair_between {s1 s2 s3 : FqSystem} (hs : FqInv s) (hqp : q ≠ p)
    (hfirst : s.step .recv = .ok s1) (hp : s1.turns = s.turns ++ [p])
    (hbetween : s1.run between = .ok s2) (hlast : s2.step .recv = .ok s3)
    (hp' : s3.turns = s2.turns ++ [p])
    (hfair : StepsMeet FqSystem.step (FairTo p q) s1 (between ++ [.recv])) :
    ∃ l, s2.turns = s1.turns ++ l ∧ q ∈ l := by
  have hinv : FqInv s1 := inv_of_spares (a := .recv) hs trivial hfirst
  have hwaits : s1.Waits q := by
    cases between with
    | nil | cons a acts => exact hfair.1.2.1
  have hstart : TurnInv [p] s1 p q s1 := by
    refine ⟨hinv, [], by simp, Alternates.singleton p q p, fun _ => ?_⟩
    exact (turnStep (a := .recv) hs trivial hfirst).took hp hwaits.active hqp
  have hrun : s1.run (between ++ [.recv]) = .ok s3 := by
    rw [FqSystem.run, runSteps_append hbetween, runSteps_cons_ok hlast]
    rfl
  obtain ⟨l3, hl3, halt, -⟩ := (hstart.run hqp hfair hrun).fair
  obtain ⟨-, l, hl⟩ := turns_of_run hinv (hfair.of_append.mono fun _ _ h => h.1) hbetween
  refine ⟨l, hl, ?_⟩
  obtain rfl : l3 = l ++ [p] := by
    rw [hp', hl, append_assoc] at hl3
    exact (append_cancel_left hl3).symm
  exact halt.mem_between

lemma fair_among {pipes : List ℕ} (hs : FqInv s) (hpipes : pipes.Nodup)
    (hfair : StepsMeet FqSystem.step (FairAmong pipes) s acts) (hrun : s.run acts = .ok t) :
    ∃ l, t.turns = s.turns ++ l ∧
      ((∀ x ∈ l, x ∈ pipes) → ∀ w, w <:+: l → w.length = pipes.length → w.Perm pipes) := by
  obtain ⟨-, l, hl⟩ := turns_of_run hs (hfair.mono fun _ _ h => h.1) hrun
  refine ⟨l, hl, fun hmem w hw hlength =>
    perm_of_alternates hpipes (fun p hp q hq hqp => ?_) hmem hw hlength⟩
  have hstart : TurnInv [] s p q s := by
    refine ⟨hs, [], by simp, Alternates.nil p q, fun hd => absurd hd Due.not_nil⟩
  have hfair' : StepsMeet FqSystem.step (FairTo p q) s acts :=
    hfair.mono fun _ _ h => ⟨h.1, h.2.1 q hq, h.2.2 p hp q hq hqp⟩
  obtain ⟨l', hl', halt, -⟩ := (hstart.run hqp hfair' hrun).fair
  rwa [append_cancel_left (hl.symm.trans hl')]

end FqSystem

open FqSystem in
/-- **Fairness of the fair queue.** From any state that is reached without terminations: if between two
messages of `p` the pipe `q` waits all the time and `p` does not overtake it, there is a message of `q`
between the two. And if `k` pipes wait all the time and do not overtake each other, and all messages come
from them, each of them gets one of every `k` messages. -/
theorem fq_fair {acts : List FqAct} {s : FqSystem}
    (hspares : StepsMeet FqSystem.step Spares FqSystem.new acts)
    (hrun : FqSystem.new.run acts = .ok s) :
    (∀ (p q : ℕ) (between : List FqAct) (s1 s2 s3 : FqSystem), q ≠ p →
      s.step .recv = .ok s1 → s1.turns = s.turns ++ [p] → s1.run between = .ok s2 →
      s2.step .recv = .ok s3 → s3.turns = s2.turns ++ [p] →
      StepsMeet FqSystem.step (FairTo p q) s1 (between ++ [.recv]) →
      ∃ l, s2.turns = s1.turns ++ l ∧ q ∈ l) ∧
    ∀ (pipes : List ℕ) (more : List FqAct) (t : FqSystem), pipes.Nodup →
      StepsMeet FqSystem.step (FairAmong pipes) s more → s.run more = .ok t →
      ∃ l, t.turns = s.turns ++ l ∧
        ((∀ x ∈ l, x ∈ pipes) → ∀ w, w <:+: l → w.length = pipes.length → w.Perm pipes) := by
  obtain ⟨hs, -⟩ := turns_of_run .new hspares hrun
  exact ⟨fun p q between s1 s2 s3 hqp hfirst hp hbetween hlast hp' hfair =>
      fair_between hs hqp hfirst hp hbetween hlast hp' hfair,
    fun pipes more t hpipes hfair hmore => fair_among hs hpipes hfair hmore⟩

/-- Two pipes with two messages each: they are received alternately. -/
theorem fq_fair_two :
    ∃ s t, FqSystem.new.run ([.attach 0 0, .attach 0 0] ++ [0, 1, 0, 1].flatMap fun p =>
        [.peer p (.write (frameFlags false) [1]), .peer p .flush]) = .ok s ∧
      s.run [.recv, .recv, .hasIn, .recv] = .ok t ∧
      ∃ l, t.turns = s.turns ++ l ∧ ((∀ x ∈ l, x ∈ [0, 1]) → ∀ w, w <:+: l → w.length = 2 → w.Perm [0, 1]) := by
  have hspares : StepsMeet FqSystem.step FqSystem.Spares FqSystem.new
      ([.attach 0 0, .attach 0 0] ++ [0, 1, 0, 1].flatMap fun p =>
        [.peer p (.write (frameFlags false) [1]), .peer p .flush]) := by decide
  exact ⟨_, _, rfl, rfl, (fq_fair hspares rfl).2 [0, 1] [.recv, .recv, .hasIn, .recv] _ (by decide) (by decide) rfl⟩

/-- The first of three pipes is empty when its turn comes again, and the last one takes its place: it has
two turns in a row, although the second pipe has a message all the time. -/
theorem fq_overtakes :
    ∃ s1 s2 s3, FqSystem.new.run ([.attach 0 0, .attach 0 0, .attach 0 0] ++
        ([0, 1, 1, 2, 2].flatMap fun p =>
          [.peer p (.write (frameFlags false) [1]), .peer p .flush]) ++ [.recv, .recv]) = .ok s1 ∧
      s1.step .recv = .ok s2 ∧ s2.step .recv = .ok s3 ∧
      s2.turns = s1.turns ++ [2] ∧ s3.turns = s2.turns ++ [2] ∧ s1.Waits 1 ∧ s2.Waits 1 ∧
      s2.Overtakes 2 1 .recv = true :=
  ⟨_, _, _, rfl, rfl, rfl, by decide, by decide, by decide, by decide, by decide⟩

end Zmq
