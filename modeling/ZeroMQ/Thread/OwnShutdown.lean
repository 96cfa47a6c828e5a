import ZeroMQ.Thread.OwnSteps

/-!
# Orderly shutdown of the ownership tree

An object is deallocated when it is terminating, has no acknowledgement to wait for and
`processed_seqnum` equals `sent_seqnum`. The last test compares a counter of 64 bits with one of 32,
so it says that no announced command is on the way only as long as fewer than `2 ^ 32` are, and the
acknowledgements are counted in an `int`. In every run in which `inc_seqnum` and `launch_child` are called
within these limits each object receives at most one `term`, sends at
most one `term_ack`, is deallocated at most once and only when everything it waits for has arrived, and
no assertion fails (`own_shutdown`).
-/

namespace Zmq

open Function List

/-- A child is reported. -/
def OwnCommand.isOwn : OwnCommand → Bool
  | .own _ => true
  | _ => false

namespace Own

/-- The number of children that the object is launching, that are reported to it, that it owns or whose
acknowledgement it waits for. -/
def children (o : Own) : ℕ :=
  o.launching.toList.length + o.inbox.countP OwnCommand.isOwn + o.owned.card + o.awaited

/-- The counters of the object are in their ranges. -/
structure Bounded (o : Own) : Prop where
  announced : o.incs < o.processedSeqnum + 2 ^ 32
  children : o.children < 2 ^ 31

lemma Bounded.of_le {o o' : Own} (h : o.Bounded)
    (hannounced : o'.incs + o.processedSeqnum ≤ o.incs + o'.processedSeqnum)
    (hchildren : o'.children ≤ o.children) : o'.Bounded :=
  ⟨by have := h.announced; omega, hchildren.trans_lt h.children⟩

lemma Bounded.push {o : Own} {m : OwnCommand} (h : o.Bounded) (hm : m.isOwn = false) : (o.push m).Bounded :=
  h.of_le le_rfl (by simp [Own.children, Own.push, countP_append, hm])

lemma Bounded.ask {o : Own} (h : o.Bounded) : o.ask.Bounded := (h.push rfl).of_le le_rfl le_rfl

lemma children_take {o : Own} {m : OwnCommand} {cs : List OwnCommand} (h : o.inbox = m :: cs) :
    o.children = ({ o with inbox := cs } : Own).children + if m.isOwn then 1 else 0 := by
  simp only [Own.children, h, countP_cons]
  omega

/-- The counters are in their ranges, and no announced command is on the way to an object that is
deallocated. -/
structure Settled (o : Own) : Prop where
  bound : o.Bounded
  dead : o.destroys ≠ 0 → o.processedSeqnum = o.incs

/-- A child is gone when its owner is deallocated. -/
def Outlives (_ : ℕ) (o o' : Own) : Prop := o.destroys ≠ 0 → o'.stage = .gone

end Own

/-- Every object outlives its children and the commands announced to it. -/
def OwnTree.Safe (s : OwnTree) : Prop := s.Holds Own.Settled Own.Outlives

namespace OwnShape

variable {s t : OwnTree} {p c : ℕ}

lemma safe_update (h : OwnShape s) (hs : s.Safe) (halive : (s.objects p).destroys = 0)
    (g : Own → Own) (howner : (g (s.objects p)).owner = (s.objects p).owner)
    (hstage : (g (s.objects p)).stage = (s.objects p).stage)
    (hdestroys : (g (s.objects p)).destroys = (s.objects p).destroys)
    (hbound : (g (s.objects p)).Bounded) : (s.modify p g).Safe := by
  have hgalive : (g (s.objects p)).destroys = 0 := by rw [hdestroys, halive]
  refine hs.update h.owner_lt g howner ⟨hbound, fun hd => absurd hgalive hd⟩ ?_ ?_
  · exact fun _ _ _ hd => absurd hgalive hd
  · intro q hq hd
    rw [hstage]
    exact hq hd

lemma safe_update₂ (h : OwnShape s) (hs : s.Safe) (hc : (s.objects c).owner = some p)
    (halive : (s.objects p).destroys = 0) (g k : Own → Own)
    (hgowner : (g (s.objects p)).owner = (s.objects p).owner)
    (hgstage : (g (s.objects p)).stage = (s.objects p).stage)
    (hgdestroys : (g (s.objects p)).destroys = (s.objects p).destroys)
    (hgbound : (g (s.objects p)).Bounded)
    (hkowner : (k (s.objects c)).owner = (s.objects c).owner)
    (hknode : (k (s.objects c)).Settled)
    (hkparent : ∀ d, (s.objects d).owner = some c → (k (s.objects c)).destroys ≠ 0 →
      (s.objects d).stage = .gone) :
    ((s.modify p g).modify c k).Safe := by
  have hgalive : (g (s.objects p)).destroys = 0 := by rw [hgdestroys, halive]
  refine hs.update₂ h.owner_lt hc g k hgowner hkowner ⟨hgbound, fun hd => absurd hgalive hd⟩ hknode
    (fun hd => absurd hgalive hd) ?_ ?_ (fun d hd _ => hkparent d hd)
  · exact fun _ _ _ _ hd => absurd hgalive hd
  · intro q hq hd
    rw [hgstage]
    exact hq hd

lemma alive_owner (hs : s.Safe) (hc : (s.objects c).owner = some p)
    (hstage : (s.objects c).stage ≠ .gone) : (s.objects p).destroys = 0 := by
  by_contra hd
  exact hstage (hs.edge hc hd)

section

variable (h : OwnShape s) (hs : s.Safe)

include h hs

lemma termAcks_toNat (p : ℕ) : (s.objects p).termAcks.toNat = (s.objects p).awaited ∧
    (s.objects p).awaited < 2 ^ 31 := by
  have hlt : (s.objects p).awaited < 2 ^ 31 :=
    lt_of_le_of_lt (Nat.le_add_left _ _) (hs.node p).bound.children
  refine ⟨?_, hlt⟩
  rw [(h.node p).termAcks, BitVec.toNat_ofNat, Nat.mod_eq_of_lt (by omega)]

lemma awaited_eq_zero (hacks : (s.objects p).termAcks = 0) : (s.objects p).awaited = 0 := by
  rw [← (h.termAcks_toNat hs p).1, hacks]
  rfl

/-- The assertion of `unregister_term_ack` holds. -/
lemma termAcks_pos {cs : List OwnCommand} (ht : s.Takes p (.termAck c) cs) :
    0 < (s.objects p).termAcks.toInt := by
  obtain ⟨hacks, hlt⟩ := h.termAcks_toNat hs p
  have hpos := h.awaited_ne_zero ht
  rw [BitVec.toInt_eq_toNat_of_lt (by omega), hacks]
  omega

lemma ready (hp : s.Idle p)
    (hterm : (s.objects p).terminating = true)
    (hseqnum : (s.objects p).processedSeqnum = (s.objects p).sentSeqnum)
    (hacks : (s.objects p).termAcks = 0) :
    (s.objects p).processedSeqnum = (s.objects p).incs ∧
      ∀ c, (s.objects c).owner = some p → (s.objects c).stage = .gone := by
  have hnode := h.node p
  have hcounted := hnode.counted
  have hprocessed : (s.objects p).processedSeqnum = (s.objects p).incs := by
    have hbound := (hs.node p).bound.announced
    have hsent := hnode.sent
    omega
  refine ⟨hprocessed, fun c hc => ?_⟩
  have hedge := h.edge hc
  have hwaits : (s.objects c).stage.waits = false := by
    by_contra hne
    have hzero : s.awaited p = 0 := by rw [← h.acks p, h.awaited_eq_zero hs hacks]
    have hall := Finset.sum_eq_zero_iff.1 hzero c (Finset.mem_range.2 (h.lt_count hc))
    rw [if_pos ⟨hc, by simpa using hne⟩] at hall
    omega
  cases hst : (s.objects c).stage with
  | gone => rfl
  | root =>
    have := (h.node c).root.2 hst
    rw [hc] at this
    cases this
  | launching =>
    have := hedge.launching.2 hst
    rw [hp.2.2] at this
    cases this
  | launched =>
    -- The command `own` would be announced and not processed.
    have hown := hedge.own
    rw [if_pos hst] at hown
    have hmem : .own c ∈ (s.objects p).news := count_pos_iff.1 (by omega)
    have hpos : 0 < (s.objects p).inbox.countP OwnCommand.isCounted :=
      countP_pos_iff.2 ⟨.own c, (Own.mem_news.1 hmem).1, rfl⟩
    omega
  | owned =>
    have := hedge.owned.2 hst
    rw [hnode.empty hterm] at this
    exact absurd this (Finset.notMem_empty c)
  | asked | dying | acked =>
    rw [hst] at hwaits
    cases hwaits

lemma safe_destroy (hp : s.Idle p)
    (hterm : (s.objects p).terminating = true)
    (hseqnum : (s.objects p).processedSeqnum = (s.objects p).sentSeqnum)
    (hacks : (s.objects p).termAcks = 0) : (s.destroy p).Safe := by
  obtain ⟨hprocessed, hgone⟩ := h.ready hs hp hterm hseqnum hacks
  have hbound := (hs.node p).bound
  unfold OwnTree.destroy
  split
  · refine hs.update h.owner_lt _ rfl ⟨hbound.of_le le_rfl le_rfl, fun _ => hprocessed⟩ ?_ (fun _ hq => hq)
    exact fun d hd _ _ => hgone d hd
  rename_i q howner
  have hdone := h.isDone_of_alive howner hp.2.1
  have hstage : (s.objects p).stage ≠ .gone := by
    intro hst
    rw [hst] at hdone
    cases hdone
  rw [OwnTree.modify_comm _ (h.owner_ne howner).symm]
  exact h.safe_update₂ hs howner (alive_owner hs howner hstage) _ _ rfl rfl rfl
    ((hs.node q).bound.push rfl) rfl ⟨hbound.of_le le_rfl le_rfl, fun _ => hprocessed⟩
    (fun d hd _ => hgone d hd)

lemma safe_launch (hp : s.Idle p) (hroom : (s.objects p).children + 1 < 2 ^ 31) :
    OwnTree.Safe ⟨Function.update (s.modify p fun o => { o with launching := some s.count }).objects
      s.count ((Own.new (some p)).incSeqnum.push .plug), s.count + 1⟩ := by
  have hmod : (s.modify p fun o => { o with launching := some s.count }).Safe :=
    h.safe_update hs hp.2.1 _ rfl rfl rfl
      ⟨(hs.node p).bound.announced, by simp only [Own.children, hp.2.2] at hroom ⊢; simp_all; omega⟩
  have hnew : ((Own.new (some p)).incSeqnum.push .plug).Settled := by
    refine ⟨⟨?_, ?_⟩, fun hd => ?_⟩
    · simp [Own.new, Own.incSeqnum, Own.push]
    · simp [Own.children, Own.new, Own.incSeqnum, Own.push, OwnCommand.isOwn]
    · simp [Own.new, Own.incSeqnum, Own.push] at hd
  refine hmod.add hp.1 (h.no_child_of_new _ rfl) _ rfl hnew fun hdead => ?_
  rw [OwnTree.modify_objects_self] at hdead
  exact absurd hp.2.1 hdead

lemma safe_move (hm : OwnMove s t) : t.Safe := by
  cases hm with
  | root =>
    have hnew : Function.update s.objects s.count (Own.new none) = s.objects := by
      rw [← h.fresh s.count le_rfl, update_eq_self]
    rw [hnew]
    exact ⟨hs.node, hs.edge⟩
  | ask p c hterm hc =>
    have halive : (s.objects p).destroys = 0 := by
      by_contra hd
      rw [((h.node p).dead hd).1] at hterm
      cases hterm
    have howner : (s.objects c).owner = some p := h.kin (.inr (.inr (.inr (.inl hc))))
    refine h.safe_update₂ hs howner halive _ Own.ask rfl rfl rfl ?_ rfl
      ⟨(hs.node c).bound.ask, (hs.node c).dead⟩ fun d hd hdead => hs.edge hd hdead
    refine (hs.node p).bound.of_le le_rfl ?_
    have hcard := Finset.card_erase_add_one hc
    simp only [Own.children, Own.registerTermAcks]
    omega
  | send p hp =>
    have halive : (s.objects p).destroys = 0 := by
      by_contra hd
      have hcounted := (h.node p).counted
      have := (hs.node p).dead hd
      omega
    exact h.safe_update hs halive _ rfl rfl rfl (((hs.node p).bound.push rfl).of_le le_rfl le_rfl)
  | takeCounted p ht hm =>
    refine h.safe_update hs ht.alive _ rfl rfl rfl ((hs.node p).bound.of_le (by simp only; omega) ?_)
    exact (Nat.le_add_right _ _).trans_eq (Own.children_take ht.inbox).symm
  | takeOwn p c ht hterm =>
    refine h.safe_update₂ hs (h.owner_of_takes ht rfl) ht.alive _ _ rfl rfl rfl ?_ rfl
      ⟨(hs.node c).bound.of_le le_rfl le_rfl, (hs.node c).dead⟩ fun d hd hdead => hs.edge hd hdead
    refine (hs.node p).bound.of_le (by simp only; omega) ?_
    have hcard := Finset.card_insert_le c (s.objects p).owned
    have hchildren := Own.children_take ht.inbox
    simp only [Own.children, OwnCommand.isOwn, if_true] at hchildren ⊢
    omega
  | takeOwnLate p c ht hterm =>
    refine h.safe_update₂ hs (h.owner_of_takes ht rfl) ht.alive _ Own.ask rfl rfl rfl ?_ rfl
      ⟨(hs.node c).bound.ask, (hs.node c).dead⟩ fun d hd hdead => hs.edge hd hdead
    refine (hs.node p).bound.of_le (by simp only [Own.registerTermAcks]; omega) ?_
    have hchildren := Own.children_take ht.inbox
    simp only [Own.children, Own.registerTermAcks, OwnCommand.isOwn, if_true] at hchildren ⊢
    omega
  | takeTermReq p c ht hc =>
    exact h.safe_update hs ht.alive _ rfl rfl rfl
      ((hs.node p).bound.of_le le_rfl (Own.children_take ht.inbox).ge)
  | takeTerm p ht =>
    obtain ⟨hstage, q, howner⟩ := h.asked_of_takes ht
    have halive := alive_owner hs howner (by simp [hstage])
    have hsame : s.modify q id = s := by simp [OwnTree.modify]
    rw [← hsame]
    exact h.safe_update₂ hs howner halive id _ rfl rfl rfl (hs.node q).bound rfl
      ⟨(hs.node p).bound.of_le le_rfl (Own.children_take ht.inbox).ge, (hs.node p).dead⟩
      fun d hd hdead => hs.edge hd hdead
  | startTerm p hp hempty hroot =>
    exact h.safe_update hs hp.2.1 _ rfl rfl rfl ((hs.node p).bound.of_le le_rfl le_rfl)
  | takeTermAck p c ht =>
    refine h.safe_update₂ hs (h.owner_of_takes ht rfl) ht.alive _ _ rfl rfl rfl ?_ rfl
      ⟨(hs.node c).bound.of_le le_rfl le_rfl, (hs.node c).dead⟩ fun d hd hdead => hs.edge hd hdead
    refine (hs.node p).bound.of_le le_rfl ?_
    have hchildren := Own.children_take ht.inbox
    simp only [Own.children, Own.unregisterTermAck] at hchildren ⊢
    omega
  | destroy p hp hterm hseqnum hacks => exact h.safe_destroy hs hp hterm hseqnum hacks

lemma safe_moves (hm : OwnMoves s t) : t.Safe := by
  have hboth : OwnShape t ∧ t.Safe := by
    induction hm with
    | refl => exact ⟨h, hs⟩
    | tail _ hlast ih => exact ⟨ih.1.move hlast, ih.1.safe_move ih.2 hlast⟩
  exact hboth.2

end

end OwnShape

namespace OwnTree

variable {s t : OwnTree} {p c : ℕ}

/-- A call of `inc_seqnum` leaves fewer than `2 ^ 32` announced commands on the way, and a call of
`launch_child` fewer than `2 ^ 31` children. -/
def InCount (s : OwnTree) : OwnAct → Prop
  | .launch p => (s.objects p).children + 1 < 2 ^ 31
  | .sendOwn p => (s.objects p).incs + 1 < (s.objects p).processedSeqnum + 2 ^ 32
  | .incSeqnum p => (s.objects p).incs + 1 < (s.objects p).processedSeqnum + 2 ^ 32
  | _ => True

instance (s : OwnTree) : ∀ a, Decidable (s.InCount a)
  | .launch _ => inferInstanceAs (Decidable (_ < _))
  | .sendOwn _ => inferInstanceAs (Decidable (_ < _))
  | .incSeqnum _ => inferInstanceAs (Decidable (_ < _))
  | .root | .termChild _ _ | .terminate _ | .send _ | .deliver _ _
  | .proceedWithTerm _ => .isTrue trivial

lemma Safe.call {a : OwnAct} (h : OwnShape s) (hs : s.Safe) (hc : OwnCall s a t)
    (ha : s.InCount a) : t.Safe := by
  cases hc with
  | launch p hp => exact h.safe_launch hs hp ha
  | sendOwn p c hc =>
    have halive : (s.objects p).destroys = 0 := by
      by_contra hd
      rw [((h.node p).dead hd).2] at hc
      cases hc
    have howner : (s.objects c).owner = some p := h.kin (.inr (.inr (.inr (.inr hc))))
    refine h.safe_update₂ hs howner halive _ _ rfl rfl rfl ⟨ha, ?_⟩ rfl
      ⟨(hs.node c).bound.of_le le_rfl le_rfl, (hs.node c).dead⟩ fun d hd hdead => hs.edge hd hdead
    refine lt_of_eq_of_lt ?_ (hs.node p).bound.children
    simp [Own.children, Own.push, Own.incSeqnum, hc, OwnCommand.isOwn, countP_append, add_comm]
  | incSeqnum p hp halive => exact h.safe_update hs halive _ rfl rfl rfl ⟨ha, (hs.node p).bound.children⟩
  | request p q hp hterm howner =>
    have hdone := h.isDone_of_alive howner hp.2.1
    have hstage : (s.objects p).stage ≠ .gone := by
      intro hst
      rw [hst] at hdone
      cases hdone
    exact h.safe_update₂ hs howner (OwnShape.alive_owner hs howner hstage) _ _ rfl rfl rfl
      ((hs.node q).bound.push rfl) rfl ⟨(hs.node p).bound.of_le le_rfl le_rfl, (hs.node p).dead⟩
      fun d hd hdead => hs.edge hd hdead

lemma Safe.inbox_eq_nil (h : OwnShape s) (hs : s.Safe) (hd : (s.objects p).destroys ≠ 0) :
    (s.objects p).inbox = [] := by
  have hnode := h.node p
  have hcounted := hnode.counted
  have hprocessed := (hs.node p).dead hd
  have hzero : (s.objects p).inbox.countP OwnCommand.isCounted = 0 := by omega
  have hgone : ∀ c, (s.objects p).Mentions c → (s.objects c).stage = .gone :=
    fun c hm => hs.edge (h.kin hm) hd
  refine eq_nil_iff_forall_not_mem.2 fun m hm => ?_
  have hnot : m.isCounted = false := by
    by_contra hne
    have : 0 < (s.objects p).inbox.countP OwnCommand.isCounted :=
      countP_pos_iff.2 ⟨m, hm, by simpa using hne⟩
    omega
  cases m with
  | plug | announced | own c => cases hnot
  | term =>
    have hterm := hnode.term
    have hpos : 0 < (s.objects p).inbox.count .term := count_pos_iff.2 hm
    have hasked : (s.objects p).stage = .asked := by
      by_contra hne
      rw [if_neg hne] at hterm
      omega
    have htermed := hnode.termed (hnode.dead hd).1 (by rw [ne_eq, hnode.root, hasked]; decide)
    rw [hasked] at htermed
    cases htermed
  | termReq c =>
    have hmentions : (s.objects p).Mentions c := .inr (.inl hm)
    exact (h.edge (h.kin hmentions)).gone (hgone c hmentions) (Own.mem_news.2 ⟨hm, rfl⟩)
  | termAck c =>
    have hmentions : (s.objects p).Mentions c := .inr (.inr (.inl hm))
    have hacked := (h.edge (h.kin hmentions)).stage_of_mem.2.2 hm
    rw [hgone c hmentions] at hacked
    cases hacked

/-- What the shutdown of an object is to be like: one `term`, one acknowledgement and one deallocation
at most, and the last one only when the object is terminating, all its children have acknowledged and
every announced command has been processed. -/
structure Orderly (s : OwnTree) (p : ℕ) : Prop where
  terms : (s.objects p).terms + (s.objects p).inbox.count .term ≤ 1
  acks : (s.objects p).acks ≤ 1
  destroys : (s.objects p).destroys ≤ 1
  terminating : (s.objects p).destroys ≠ 0 → (s.objects p).terminating = true
  children : (s.objects p).destroys ≠ 0 → ∀ c, (s.objects c).owner = some p →
    (s.objects c).acks = 1 ∧ .termAck c ∉ (s.objects p).inbox
  commands : (s.objects p).destroys ≠ 0 → (s.objects p).processedSeqnum = (s.objects p).incs

lemma Safe.orderly (h : OwnShape s) (hs : s.Safe) (p : ℕ) : s.Orderly p where
  terms := by
    rw [(h.node p).terms, (h.node p).term]
    cases (s.objects p).stage <;> decide
  acks := by
    rw [(h.node p).acks]
    split <;> decide
  destroys := (h.node p).destroys_le
  terminating := fun hd => ((h.node p).dead hd).1
  children := fun hd c hc => by
    have hgone := hs.edge hc hd
    refine ⟨?_, ?_⟩
    · rw [(h.node c).acks, hgone]
      rfl
    · rw [hs.inbox_eq_nil h hd]
      exact not_mem_nil
  commands := (hs.node p).dead

lemma Safe.step (h : OwnShape s) (hs : s.Safe) (a : OwnAct) (ha : s.InCount a) :
    ∃ t, s.step a = .ok t ∧ OwnShape t ∧ t.Safe := by
  have halive : s.Alive a := by
    cases a with
    | deliver p defer =>
      intro m hm hl
      obtain ⟨cs, hin⟩ := head?_eq_some_iff.1 hm
      have halive : (s.objects p).destroys = 0 := by
        by_contra hd
        rw [hs.inbox_eq_nil h hd] at hin
        cases hin
      refine ⟨halive, fun c hc => ?_⟩
      subst hc
      exact h.termAcks_pos hs ⟨hin, halive, hl⟩
    | _ => trivial
  obtain ⟨t, ht, hcall | hmoves⟩ := step_moves h a halive
  · exact ⟨t, ht, h.call hcall, hs.call h hcall ha⟩
  · exact ⟨t, ht, h.moves hmoves, h.safe_moves hs hmoves⟩

end OwnTree

/-- **Orderly shutdown.** In every run in which `inc_seqnum` is called only while fewer than
`2 ^ 32 - 1` announced commands to the object are unprocessed, and `launch_child` only while it has fewer
than `2 ^ 31 - 1` children that have not acknowledged, no assertion fails, no command is
delivered to a deallocated object, and the shutdown of every object is orderly. -/
theorem own_shutdown (acts : List OwnAct)
    (h : Foundation.StepsMeet OwnTree.step OwnTree.InCount OwnTree.empty acts) :
    ∃ s, OwnTree.empty.run acts = .ok s ∧ ∀ p, s.Orderly p := by
  have hempty : OwnTree.empty.Safe := by
    refine ⟨fun p => ⟨⟨by simp [OwnTree.empty, Own.new], by simp [OwnTree.empty, Own.new, Own.children]⟩, fun hd => absurd rfl hd⟩, fun hc => ?_⟩
    simp [OwnTree.empty, Own.new] at hc
  obtain ⟨s, hs, hshape, hsafe⟩ := Foundation.runSteps_invariant
    (I := fun s => OwnShape s ∧ s.Safe)
    (fun s a hinv ha => OwnTree.Safe.step hinv.1 hinv.2 a ha) ⟨OwnShape.empty, hempty⟩ h
  exact ⟨s, hs, fun p => hsafe.orderly hshape p⟩

/-- An object launches a child and terminates while the report of the child is still on the way. -/
theorem own_shutdown_late_child :
    Foundation.StepsMeet OwnTree.step OwnTree.InCount OwnTree.empty
      [.root, .launch 0, .sendOwn 0, .terminate 0, .deliver 1 false, .deliver 0 false,
        .deliver 1 true, .proceedWithTerm 1, .deliver 0 false] ∧
    ∃ s, OwnTree.empty.run [.root, .launch 0, .sendOwn 0, .terminate 0, .deliver 1 false,
      .deliver 0 false, .deliver 1 true, .proceedWithTerm 1, .deliver 0 false] = .ok s ∧
      ∀ p, s.Orderly p :=
  ⟨by decide +kernel, own_shutdown _ (by decide +kernel)⟩

namespace OwnTree

/-- One object, to which `n` commands are on the way. -/
def flooded (n : ℕ) : OwnTree :=
  ⟨update empty.objects 0 { Own.new none with
    sentSeqnum := n % 2 ^ 32, incs := n, inbox := List.replicate n .announced }, 1⟩

/-- `n` commands are announced and sent to object 0. -/
def flood (n : ℕ) : List OwnAct := (List.replicate n [.incSeqnum 0, .send 0]).flatten

lemma run_flood (n : ℕ) : (flooded 0).run (flood n) = .ok (flooded n) := by
  induction n with
  | zero => rfl
  | succ n ih =>
    have hsplit : flood (n + 1) = flood n ++ [.incSeqnum 0, .send 0] := by
      simp [flood, replicate_succ']
    have hlast : (flooded n).run [.incSeqnum 0, .send 0] = .ok (flooded (n + 1)) := by
      simp [run, Foundation.runSteps, step, flooded, modify, Own.incSeqnum, Own.push, Own.new,
        replicate_succ']
    rw [hsplit, run, Foundation.runSteps_append ih]
    exact hlast

end OwnTree

/-- `2 ^ 32` commands are on the way to an object when it is told to terminate: `sent_seqnum` is zero
again, and the object is deallocated before any of them is processed. -/
theorem own_seqnum_wraps :
    ¬ ∃ s, OwnTree.empty.run (.root :: OwnTree.flood (2 ^ 32) ++ [.terminate 0]) = .ok s ∧
      ∀ p, s.Orderly p := by
  have hroot : OwnTree.empty.step .root = .ok (OwnTree.flooded 0) := by
    simp [OwnTree.step, OwnTree.flooded, OwnTree.empty, Own.new]
  have hterm : ∃ t, (OwnTree.flooded (2 ^ 32)).run [.terminate 0] = .ok t ∧
      (t.objects 0).destroys = 1 ∧ (t.objects 0).processedSeqnum = 0 ∧
      (t.objects 0).incs = 2 ^ 32 := by
    refine ⟨_, rfl, rfl, rfl, rfl⟩
  obtain ⟨t, ht, hdestroys, hprocessed, hincs⟩ := hterm
  rintro ⟨s, hs, horderly⟩
  rw [OwnTree.run, cons_append, Foundation.runSteps_cons_ok hroot,
    Foundation.runSteps_append (OwnTree.run_flood (2 ^ 32))] at hs
  have hst : s = t := by
    rw [OwnTree.run] at ht
    rw [hs] at ht
    exact Except.ok.inj ht
  have hcommands := (horderly 0).commands
  rw [hst, hdestroys, hprocessed, hincs] at hcommands
  exact absurd (hcommands (by decide)) (by decide)

end Zmq
