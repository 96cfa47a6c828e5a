import ZeroMQ.Thread.OwnMoves

/-!
# The steps of the ownership tree

A step of the tree succeeds unless it delivers a command to a deallocated object, or an acknowledgement
to one that does not seem to wait for it, and it is then a call
or a sequence of moves. Whatever all calls and moves preserve is preserved by every step.
-/

namespace Zmq

open Finset

/-- A sequence of moves. -/
def OwnMoves (s t : OwnTree) : Prop := Relation.ReflTransGen OwnMove s t

lemma OwnShape.moves {s t : OwnTree} (h : OwnShape s) (hm : OwnMoves s t) : OwnShape t := by
  induction hm with
  | refl => exact h
  | tail _ hlast ih => exact ih.move hlast

namespace OwnTree

variable {s : OwnTree} {p c : ℕ}

lemma askAll_objects (s : OwnTree) (cs : Finset ℕ) (i : ℕ) :
    (s.askAll cs).objects i = if i ∈ cs then (s.objects i).ask else s.objects i := rfl

lemma askAll_modify {cs : Finset ℕ} (hp : p ∉ cs) (g : Own → Own) :
    (s.modify p g).askAll cs = (s.askAll cs).modify p g := by
  refine congrArg₂ OwnTree.mk (funext fun i => ?_) rfl
  show (if i ∈ cs then ((s.modify p g).objects i).ask else (s.modify p g).objects i) =
    ((s.askAll cs).modify p g).objects i
  rw [modify_objects, modify_objects, askAll_objects, askAll_objects, if_neg hp]
  by_cases hi : i = p
  · subst hi
    simp [hp]
  · simp [hi]

lemma askAll_insert {cs : Finset ℕ} (hc : c ∉ cs) : s.askAll (insert c cs) = (s.askAll cs).modify c Own.ask := by
  refine congrArg₂ OwnTree.mk (funext fun i => ?_) rfl
  show (if i ∈ insert c cs then (s.objects i).ask else s.objects i) = ((s.askAll cs).modify c Own.ask).objects i
  rw [modify_objects, askAll_objects, askAll_objects, if_neg hc]
  by_cases hi : i = c
  · subst hi
    simp
  · simp [hi, mem_insert]

lemma moves_askAll (hterm : (s.objects p).terminating = false) (hp : p ∉ (s.objects p).owned)
    (cs : Finset ℕ) (hcs : cs ⊆ (s.objects p).owned) :
    OwnMoves s ((s.askAll cs).modify p fun o =>
      { o.registerTermAcks cs.card with owned := o.owned \ cs }) := by
  induction cs using Finset.induction_on with
  | empty =>
    have hask : s.askAll ∅ = s := by simp [askAll]
    have hsame : (s.modify p fun o =>
        { o.registerTermAcks (∅ : Finset ℕ).card with owned := o.owned \ ∅ }) = s := by
      simp [modify, Own.registerTermAcks]
    rw [hask, hsame]
    exact .refl
  | insert c cs hc ih =>
    have hsub : cs ⊆ (s.objects p).owned := fun i hi => hcs (Finset.mem_insert_of_mem hi)
    have hcp : c ∈ (s.objects p).owned := hcs (Finset.mem_insert_self c cs)
    have hne : c ≠ p := by
      rintro rfl
      exact hp hcp
    have hpcs : p ∉ cs := fun hin => hp (hsub hin)
    refine (ih hsub).tail ?_
    have hobj : ((s.askAll cs).modify p fun o =>
        { o.registerTermAcks cs.card with owned := o.owned \ cs }).objects p =
        { (s.objects p).registerTermAcks cs.card with owned := (s.objects p).owned \ cs } := by
      rw [modify_objects_self, askAll_objects, if_neg hpcs]
    have hmove := OwnMove.ask (s := (s.askAll cs).modify p fun o =>
      { o.registerTermAcks cs.card with owned := o.owned \ cs }) p c
      (by rw [hobj]; exact hterm) (by rw [hobj]; exact Finset.mem_sdiff.2 ⟨hcp, hc⟩)
    rw [modify_modify, ← modify_comm _ hne] at hmove
    rw [askAll_insert hc]
    convert hmove using 2
    funext o
    simp [Own.registerTermAcks, Finset.card_insert_of_notMem hc, Finset.sdiff_insert,
      BitVec.ofNat_add, BitVec.add_assoc, Nat.add_assoc]

/-! ### The operations -/

lemma checkTermAcks_moves (h : OwnShape s) (hp : s.Idle p) : ∃ t, s.checkTermAcks p = .ok t ∧ OwnMoves s t := by
  unfold checkTermAcks
  split
  · rename_i hcond
    rw [if_pos ((h.node p).empty hcond.1)]
    exact ⟨_, rfl, .single (.destroy p hp hcond.1 hcond.2.1 hcond.2.2)⟩
  · exact ⟨s, rfl, .refl⟩

lemma checkTermAcks_after {t : OwnTree} (h : OwnShape s) (hm : OwnMoves s t) (hp : t.Idle p) :
    ∃ u, t.checkTermAcks p = .ok u ∧ OwnMoves s u := by
  obtain ⟨u, hu, htu⟩ := checkTermAcks_moves (h.moves hm) hp
  exact ⟨u, hu, hm.trans htu⟩

lemma processTerm_moves (h : OwnShape s) (hp : s.Idle p)
    (hterm : (s.objects p).terminating = false)
    (hroot : (s.objects p).owner = none ∨ (s.objects p).pendingTerm = true) :
    ∃ t, s.processTerm p = .ok t ∧ OwnMoves s t := by
  have hself : p ∉ (s.objects p).owned := by
    intro hin
    exact h.owner_ne (h.kin (.inr (.inr (.inr (.inl hin))))) rfl
  unfold processTerm
  rw [if_neg (by simp [hterm])]
  have hasked := moves_askAll hterm hself _ (Finset.Subset.refl (s.objects p).owned)
  have hobj : (s.askAll (s.objects p).owned).objects p = s.objects p := by
    rw [askAll_objects, if_neg hself]
  have hstart := OwnMove.startTerm (s := (s.askAll (s.objects p).owned).modify p fun o =>
    { o.registerTermAcks (s.objects p).owned.card with owned := o.owned \ (s.objects p).owned }) p
    (by rw [Idle, modify_objects_self, hobj]; exact hp)
    (by rw [modify_objects_self, hobj]; exact Finset.sdiff_self _)
    (by rw [modify_objects_self, hobj]; exact hroot)
  have hmoves := hasked.tail hstart
  rw [modify_modify] at hmoves
  have hstate : ((s.askAll (s.objects p).owned).modify p fun o =>
      { o.registerTermAcks o.owned.card with
        owned := ∅, terminating := true, pendingTerm := false }) =
      ((s.askAll (s.objects p).owned).modify p fun o =>
        { o.registerTermAcks (s.objects p).owned.card with
          owned := o.owned \ (s.objects p).owned, terminating := true, pendingTerm := false }) := by
    simp [modify, hobj, Own.registerTermAcks]
  rw [hstate]
  refine checkTermAcks_after h hmoves ?_
  rw [Idle, modify_objects_self, hobj]
  exact hp

lemma processTerm_setPending (hp : p ∉ (s.objects p).owned) :
    (s.modify p fun o => { o with pendingTerm := true }).processTerm p = s.processTerm p := by
  unfold processTerm
  rw [modify_objects_self]
  rw [askAll_modify hp, modify_modify]
  rfl

lemma processTermReq_moves (p c : ℕ) : OwnMoves s (s.processTermReq p c) := by
  unfold processTermReq
  split
  · exact .refl
  rename_i hterm
  split
  · rename_i hc
    exact .single (.ask p c (by simpa using hterm) hc)
  · exact .refl

lemma processCommand_moves {m : OwnCommand} {cs : List OwnCommand} (h : OwnShape s)
    (ht : s.Takes p m cs) (hacks : ∀ c, m = .termAck c → 0 < (s.objects p).termAcks.toInt)
    (defer : Bool) :
    ∃ t, (s.modify p fun o => { o with inbox := cs }).processCommand p defer m = .ok t ∧
      OwnMoves s t := by
  have hidle : s.Idle p := ⟨h.lt_count_of_inbox (by simp [ht.inbox]), ht.alive, ht.idle⟩
  cases m with
  | plug | announced =>
    simp only [processCommand, processSeqnum, modify_modify]
    refine checkTermAcks_after h (.single (.takeCounted p ht (by simp))) ?_
    rw [Idle, modify_objects_self]
    exact hidle
  | own c =>
    have hne := h.owner_ne (h.owner_of_takes ht rfl)
    simp only [processCommand, processSeqnum, processOwn, modify_objects_self]
    split
    · rename_i hterm
      rw [modify_modify, ← modify_comm _ hne, modify_modify]
      refine checkTermAcks_after h (.single (.takeOwnLate p c ht hterm)) ?_
      rw [Idle, modify_objects_ne _ _ hne, modify_objects_self]
      exact hidle
    · rename_i hterm
      rw [modify_modify, ← modify_comm _ hne, modify_modify]
      refine checkTermAcks_after h (.single (.takeOwn p c ht (by simpa using hterm))) ?_
      rw [Idle, modify_objects_ne _ _ hne, modify_objects_self]
      exact hidle
  | termReq c =>
    refine ⟨_, rfl, ?_⟩
    simp only [processTermReq, modify_objects_self]
    split_ifs with hterm hc
    · refine .single (.takeTermReq p c ht ?_)
      rw [(h.node p).empty hterm]
      exact notMem_empty c
    -- The child can as well be asked before the request is taken from the inbox.
    · have hne := h.owner_ne (h.owner_of_takes ht rfl)
      have hobj : ((s.modify p fun o =>
          { o.registerTermAcks 1 with owned := o.owned.erase c }).modify c Own.ask).objects p =
          { (s.objects p).registerTermAcks 1 with owned := (s.objects p).owned.erase c } := by
        rw [modify_objects_ne _ _ hne, modify_objects_self]
      have htake := OwnMove.takeTermReq p c
        (s := (s.modify p fun o =>
          { o.registerTermAcks 1 with owned := o.owned.erase c }).modify c Own.ask)
        ⟨by rw [hobj]; exact ht.inbox, by rw [hobj]; exact ht.alive, by rw [hobj]; exact ht.idle⟩
        (by rw [hobj]; exact notMem_erase c _)
      rw [← modify_comm _ hne, modify_modify] at htake
      rw [modify_modify]
      exact Relation.ReflTransGen.tail (.single (.ask p c (by simpa using hterm) hc)) htake
    · exact .single (.takeTermReq p c ht hc)
  | term =>
    have hmove := OwnMove.takeTerm p ht
    have hshape := h.move hmove
    simp only [processCommand, modify_modify]
    split
    · exact ⟨_, rfl, .single hmove⟩
    have hself : p ∉ (s.objects p).owned := by
      intro hin
      exact h.owner_ne (h.kin (.inr (.inr (.inr (.inl hin))))) rfl
    rw [← processTerm_setPending (by rw [modify_objects_self]; exact hself), modify_modify]
    obtain ⟨t, ht', hmoves⟩ := processTerm_moves hshape
      (by rw [Idle, modify_objects_self]; exact hidle)
      ((hshape.node p).pending (by rw [modify_objects_self])).2
      (.inr (by rw [modify_objects_self]))
    exact ⟨t, ht', Relation.ReflTransGen.head hmove hmoves⟩
  | termAck c =>
    have howner := h.owner_of_takes ht rfl
    have hne := h.owner_ne howner
    simp only [processCommand, processTermAck, modify_objects_self]
    rw [if_neg (by simpa using hacks c rfl), ← modify_comm _ hne, modify_modify]
    refine checkTermAcks_after h (.single (.takeTermAck p c ht)) ?_
    rw [Idle, modify_objects_ne _ _ hne, modify_objects_self]
    exact hidle

lemma terminate_moves (h : OwnShape s) (hp : s.Idle p) :
    ∃ t, s.terminate p = .ok t ∧ (OwnCall s (.terminate p) t ∨ OwnMoves s t) := by
  unfold terminate
  split
  · exact ⟨s, rfl, .inr .refl⟩
  rename_i hterm
  have hlive : (s.objects p).terminating = false := by simpa using hterm
  cases howner : (s.objects p).owner with
  | none =>
    obtain ⟨t, ht, hmoves⟩ := processTerm_moves h hp hlive (.inl howner)
    exact ⟨t, ht, .inr hmoves⟩
  | some q =>
    refine ⟨_, rfl, .inl ?_⟩
    rw [modify_comm _ (h.owner_ne howner).symm]
    exact .request p q hp hlive howner

/-- The next command is for an object that is not deallocated, and that waits for it if it is an
acknowledgement. -/
def Alive (s : OwnTree) : OwnAct → Prop
  | .deliver p _ => ∀ m ∈ (s.objects p).inbox.head?, (s.objects p).launching = none →
    (s.objects p).destroys = 0 ∧ ∀ c, m = .termAck c → 0 < (s.objects p).termAcks.toInt
  | _ => True

lemma step_moves (h : OwnShape s) (a : OwnAct) (ha : s.Alive a) :
    ∃ t, s.step a = .ok t ∧ (OwnCall s a t ∨ OwnMoves s t) := by
  cases a with
  | root => exact ⟨_, rfl, .inr (.single .root)⟩
  | launch p =>
    simp only [step]
    split
    · rename_i hp
      exact ⟨_, rfl, .inl (.launch p hp)⟩
    · exact ⟨s, rfl, .inr .refl⟩
  | sendOwn p =>
    simp only [step]
    cases hl : (s.objects p).launching with
    | none => exact ⟨s, rfl, .inr .refl⟩
    | some c => exact ⟨_, rfl, .inl (.sendOwn p c hl)⟩
  | termChild p c =>
    simp only [step]
    split
    · exact ⟨_, rfl, .inr (processTermReq_moves p c)⟩
    · exact ⟨s, rfl, .inr .refl⟩
  | terminate p =>
    simp only [step]
    split
    · rename_i hp
      exact terminate_moves h hp
    · exact ⟨s, rfl, .inr .refl⟩
  | incSeqnum p =>
    simp only [step]
    split
    · rename_i hp
      exact ⟨_, rfl, .inl (.incSeqnum p hp.1 hp.2)⟩
    · exact ⟨s, rfl, .inr .refl⟩
  | send p =>
    simp only [step]
    split
    · exact ⟨s, rfl, .inr .refl⟩
    · rename_i hp
      exact ⟨_, rfl, .inr (.single (.send p hp))⟩
  | deliver p defer =>
    simp only [step]
    split
    · exact ⟨s, rfl, .inr .refl⟩
    rename_i c cs hin
    split_ifs with hl hd
    · exact ⟨s, rfl, .inr .refl⟩
    all_goals obtain ⟨halive, hacks⟩ := ha c (by simp [hin]) (by simpa using hl)
    · exact absurd halive hd
    · obtain ⟨t, ht, hmoves⟩ := processCommand_moves h ⟨hin, halive, by simpa using hl⟩ hacks defer
      exact ⟨t, ht, .inr hmoves⟩
  | proceedWithTerm p =>
    simp only [step]
    split
    · rename_i hp
      obtain ⟨t, ht, hmoves⟩ := processTerm_moves h hp.1 ((h.node p).pending hp.2).2 (.inr hp.2)
      exact ⟨t, ht, .inr hmoves⟩
    · exact ⟨s, rfl, .inr .refl⟩

lemma alive_of_step {t : OwnTree} {a : OwnAct} (h : s.step a = .ok t) : s.Alive a := by
  cases a with
  | deliver p defer =>
    intro m hm hl
    obtain ⟨cs, hbox⟩ := List.head?_eq_some_iff.1 hm
    have halive : (s.objects p).destroys = 0 := by
      by_contra hd
      simp [step, hbox, hl, hd] at h
    refine ⟨halive, fun c hc => ?_⟩
    by_contra hacks
    subst hc
    simp [step, hbox, hl, halive, processCommand, processTermAck, not_lt.1 hacks] at h
  | _ => trivial

end OwnTree

end Zmq
