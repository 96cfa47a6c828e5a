import ZeroMQ.Thread.OwnSteps

/-!
# Requests for termination

A child that wants to terminate sends `term_req` to its owner. The owner ignores a request of a child it
does not own, since such a child should have been asked already. But `launch_child` plugs the child in
before it reports the child to itself, so a child that is quick may send its request before the owner
sends `own`; the request is then lost, and the child is never asked (`own_request_lost`). In every run
in which no child calls `terminate` before its owner has left `launch_child` all requests are heard
(`own_requests_heard`).
-/

namespace Zmq

open List

/-- The request of a child that is not asked yet is on the way, behind the report of the child. -/
structure Own.Hears (c : ℕ) (o o' : Own) : Prop where
  launching : o'.requested = true → o'.stage ≠ .launching
  launched : o'.requested = true → o'.stage = .launched → [.own c, .termReq c].Sublist o.news
  owned : o'.requested = true → o'.stage = .owned → .termReq c ∈ o.news

namespace Own.Hears

variable {c : ℕ} {o o' child child' : Own} {m : OwnCommand}

lemma of_waits (h : child.stage.waits = true ∨ child.stage = .gone) : o.Hears c child := by
  refine ⟨fun _ hst => ?_, fun _ hst => ?_, fun _ hst => ?_⟩
  all_goals
    rw [hst] at h
    rcases h with h | h <;> cases h

lemma congr (h : Own.Hears c o child) (hnews : o'.news = o.news) : Own.Hears c o' child := by
  refine ⟨h.launching, ?_, ?_⟩ <;> rw [hnews]
  · exact h.launched
  · exact h.owned

lemma append (h : Own.Hears c o child) (hin : o'.inbox = o.inbox ++ [m]) : Own.Hears c o' child := by
  have hsub : o.news.Sublist o'.news := by
    rw [Own.news_of_append hin]
    split
    · exact sublist_append_left _ _
    · exact List.Sublist.refl _
  exact ⟨h.launching, fun hr hst => (h.launched hr hst).trans hsub, fun hr hst => hsub.subset (h.owned hr hst)⟩

lemma tail (h : Own.Hears c o child) (hin : o.inbox = m :: o'.inbox) (hown : m ≠ .own c)
    (hreq : m = .termReq c → child.stage ≠ .owned) : Own.Hears c o' child := by
  have hnews := Own.news_of_cons hin
  refine ⟨h.launching, fun hr hst => ?_, fun hr hst => ?_⟩
  · have hsub := h.launched hr hst
    rw [hnews] at hsub
    split at hsub
    · exact hsub.of_cons_of_ne hown.symm
    · exact hsub
  · have hmem := h.owned hr hst
    rw [hnews] at hmem
    split at hmem
    · rcases mem_cons.1 hmem with heq | hmem
      · exact absurd hst (hreq heq.symm)
      · exact hmem
    · exact hmem

lemma takeOwn (h : Own.Hears c o child) (hin : o.inbox = .own c :: o'.inbox)
    (hstage : child.stage = .launched) (hstage' : child'.stage = .owned)
    (hrequested : child'.requested = child.requested) : Own.Hears c o' child' := by
  refine ⟨fun _ => ?_, fun _ hst => ?_, fun hr _ => ?_⟩
  · simp [hstage']
  · rw [hstage'] at hst
    cases hst
  · rw [hrequested] at hr
    have hsub := h.launched hr hstage
    rw [Own.news_of_cons hin, OwnCommand.isNews, if_pos rfl] at hsub
    exact singleton_sublist.1 (cons_sublist_cons.1 hsub)

lemma request (hk : o.Knows c child.stage) (hin : o'.inbox = o.inbox ++ [.termReq c])
    (hstage : child.stage ≠ .launching) (hstage' : child'.stage = child.stage) :
    Own.Hears c o' child' := by
  have hnews : o'.news = o.news ++ [.termReq c] := by
    rw [Own.news_of_append hin, OwnCommand.isNews, if_pos rfl]
  refine ⟨fun _ => by rwa [hstage'], fun _ hst => ?_, fun _ _ => ?_⟩
  · rw [hstage'] at hst
    have hown := hk.own
    rw [if_pos hst] at hown
    have hmem : .own c ∈ o.news := count_pos_iff.1 (by omega)
    rw [hnews]
    exact (singleton_sublist.2 hmem).append (List.Sublist.refl [OwnCommand.termReq c])
  · rw [hnews]
    exact mem_append_right _ (mem_singleton.2 rfl)

end Own.Hears

/-- Every request is heard. -/
def OwnTree.Heard (s : OwnTree) : Prop := s.Holds (fun _ => True) Own.Hears

namespace OwnShape

variable {s t : OwnTree} {p c : ℕ} {m : OwnCommand} {cs : List OwnCommand}

lemma heard_update (h : OwnShape s) (hs : s.Heard) (g : Own → Own)
    (howner : (g (s.objects p)).owner = (s.objects p).owner)
    (hstage : (g (s.objects p)).stage = (s.objects p).stage)
    (hrequested : (g (s.objects p)).requested = (s.objects p).requested)
    (hparent : ∀ c, (s.objects c).owner = some p → Own.Hears c (s.objects p) (s.objects c) →
      Own.Hears c (g (s.objects p)) (s.objects c)) : (s.modify p g).Heard := by
  refine hs.update h.owner_lt g howner trivial hparent fun q hq => ?_
  refine ⟨?_, ?_, ?_⟩ <;> rw [hstage, hrequested]
  · exact hq.launching
  · exact hq.launched
  · exact hq.owned

lemma heard_update₂ (h : OwnShape s) (hs : s.Heard) (hc : (s.objects c).owner = some p)
    (g k : Own → Own) (hgowner : (g (s.objects p)).owner = (s.objects p).owner)
    (hgstage : (g (s.objects p)).stage = (s.objects p).stage)
    (hgrequested : (g (s.objects p)).requested = (s.objects p).requested)
    (hgparent : ∀ d, d ≠ c → Own.Hears d (s.objects p) (s.objects d) → Own.Hears d (g (s.objects p)) (s.objects d))
    (hkowner : (k (s.objects c)).owner = (s.objects c).owner)
    (hknews : (k (s.objects c)).news = (s.objects c).news)
    (hedge : Own.Hears c (g (s.objects p)) (k (s.objects c))) :
    ((s.modify p g).modify c k).Heard := by
  refine hs.update₂ h.owner_lt hc g k hgowner hkowner trivial trivial hedge
    (fun d hd _ hh => hgparent d hd hh) (fun q hq => ?_) (fun d _ hh => hh.congr hknews)
  refine ⟨?_, ?_, ?_⟩ <;> rw [hgstage, hgrequested]
  · exact hq.launching
  · exact hq.launched
  · exact hq.owned

lemma heard_move (h : OwnShape s) (hs : s.Heard) (hm : OwnMove s t) : t.Heard := by
  cases hm with
  | root =>
    have hnew : Function.update s.objects s.count (Own.new none) = s.objects := by
      rw [← h.fresh s.count le_rfl, Function.update_eq_self]
    rw [hnew]
    exact ⟨hs.node, hs.edge⟩
  | ask p c hterm hc =>
    have howner : (s.objects c).owner = some p := h.kin (.inr (.inr (.inr (.inl hc))))
    exact h.heard_update₂ hs howner _ Own.ask rfl rfl rfl (fun d _ hh => hh.congr rfl) rfl
      (Own.sameView_ask _).news (.of_waits (.inl rfl))
  | send p hp => exact h.heard_update hs _ rfl rfl rfl fun c _ hh => hh.append rfl
  | takeCounted p ht hm =>
    refine h.heard_update hs _ rfl rfl rfl fun c _ hh => hh.tail ht.inbox ?_ ?_
    all_goals rcases hm with rfl | rfl <;> simp
  | takeOwn p c ht hterm =>
    have howner := h.owner_of_takes ht rfl
    refine h.heard_update₂ hs howner _ _ rfl rfl rfl (fun d hd hh => ?_) rfl rfl ?_
    · exact hh.tail ht.inbox (by simpa using hd.symm) (by simp)
    · have hstage := (h.edge howner).stage_of_mem.2.1 (by rw [ht.inbox]; exact mem_cons_self)
      exact (hs.edge howner).takeOwn ht.inbox hstage rfl rfl
  | takeOwnLate p c ht hterm =>
    refine h.heard_update₂ hs (h.owner_of_takes ht rfl) _ Own.ask rfl rfl rfl (fun d hd hh => ?_) rfl
      (Own.sameView_ask _).news (.of_waits (.inl rfl))
    exact hh.tail ht.inbox (by simpa using hd.symm) (by simp)
  | takeTermReq p c ht hc =>
    refine h.heard_update hs _ rfl rfl rfl fun d hd hh => hh.tail ht.inbox (by simp) ?_
    intro heq hst
    cases heq
    exact hc ((h.edge hd).owned.2 hst)
  | takeTerm p ht =>
    obtain ⟨hstage, q, howner⟩ := h.asked_of_takes ht
    have hsame : s.modify q id = s := by simp [OwnTree.modify]
    rw [← hsame]
    refine h.heard_update₂ hs howner id _ rfl rfl rfl (fun d _ hh => hh) rfl ?_ (.of_waits (.inl rfl))
    rw [Own.news, Own.news, ht.inbox, filter_cons_of_neg (by simp [OwnCommand.isNews])]
  | startTerm p hp hempty hroot =>
    exact h.heard_update hs _ rfl rfl rfl fun c _ hh => hh.congr rfl
  | takeTermAck p c ht =>
    refine h.heard_update₂ hs (h.owner_of_takes ht rfl) _ _ rfl rfl rfl (fun d hd hh => ?_) rfl rfl
      (.of_waits (.inr rfl))
    exact hh.tail ht.inbox (by simp) (by simp)
  | destroy p hp hterm hseqnum hacks =>
    unfold OwnTree.destroy
    split
    · exact h.heard_update hs _ rfl rfl rfl fun c _ hh => hh.congr rfl
    · rename_i q howner
      rw [OwnTree.modify_comm _ (h.owner_ne howner).symm]
      exact h.heard_update₂ hs howner _ _ rfl rfl rfl (fun d _ hh => hh.append rfl) rfl rfl (.of_waits (.inl rfl))

lemma heard_moves (h : OwnShape s) (hs : s.Heard) (hm : OwnMoves s t) : t.Heard := by
  have hboth : OwnShape t ∧ t.Heard := by
    induction hm with
    | refl => exact ⟨h, hs⟩
    | tail _ hlast ih => exact ⟨ih.1.move hlast, ih.1.heard_move ih.2 hlast⟩
  exact hboth.2

end OwnShape

namespace OwnTree

variable {s t : OwnTree} {a : OwnAct} {p : ℕ}

/-- A child that calls `terminate` is not being launched any more: its owner has left
`launch_child`. -/
def Registered (s : OwnTree) : OwnAct → Prop
  | .terminate p => ∀ q ∈ (s.objects p).owner, (s.objects q).launching ≠ some p
  | _ => True

instance (s : OwnTree) : ∀ a, Decidable (s.Registered a)
  | .terminate _ => inferInstanceAs (Decidable (∀ q ∈ (_ : Option ℕ), _))
  | .sendOwn _ | .incSeqnum _ | .root | .launch _ | .termChild _ _ | .send _ | .deliver _ _
  | .proceedWithTerm _ => .isTrue trivial

lemma Heard.call (h : OwnShape s) (hs : s.Heard) (hc : OwnCall s a t) (ha : s.Registered a) : t.Heard := by
  cases hc with
  | launch p hp =>
    have hmod : (s.modify p fun o => { o with launching := some s.count }).Heard :=
      h.heard_update hs _ rfl rfl rfl fun c _ hh => hh.congr rfl
    refine hmod.add hp.1 (h.no_child_of_new _ rfl) _ rfl trivial ?_
    constructor <;> simp [Own.new, Own.incSeqnum, Own.push]
  | sendOwn p c hc =>
    have howner : (s.objects c).owner = some p := h.kin (.inr (.inr (.inr (.inr hc))))
    have hstage : (s.objects c).stage = .launching := (h.edge howner).launching.1 hc
    refine h.heard_update₂ hs howner _ _ rfl rfl rfl (fun d _ hh => hh.append rfl) rfl rfl ?_
    -- A child that is being launched has asked for nothing.
    have hquiet : (s.objects c).requested ≠ true := fun hr => (hs.edge howner).launching hr hstage
    exact ⟨fun hr => absurd hr hquiet, fun hr => absurd hr hquiet, fun hr => absurd hr hquiet⟩
  | incSeqnum p hp halive => exact h.heard_update hs _ rfl rfl rfl fun c _ hh => hh.congr rfl
  | request p q hp hterm howner =>
    refine h.heard_update₂ hs howner _ _ rfl rfl rfl (fun d _ hh => hh.append rfl) rfl rfl ?_
    refine .request (h.edge howner) rfl ?_ rfl
    intro hst
    exact ha q howner ((h.edge howner).launching.2 hst)

lemma Heard.step (h : OwnShape s) (hs : s.Heard) (ha : s.Registered a) (hstep : s.step a = .ok t) :
    OwnShape t ∧ t.Heard := by
  obtain ⟨t', ht', hmoves⟩ := step_moves h a (alive_of_step hstep)
  rw [hstep] at ht'
  cases ht'
  rcases hmoves with hcall | hmoves
  · exact ⟨h.call hcall, hs.call h hcall ha⟩
  · exact ⟨h.moves hmoves, h.heard_moves hs hmoves⟩

/-- No command is on the way, and nobody is inside `launch_child`. -/
def Quiet (s : OwnTree) : Prop := ∀ p, (s.objects p).inbox = [] ∧ (s.objects p).launching = none

lemma Heard.terms_of_quiet (h : OwnShape s) (hs : s.Heard) (hquiet : s.Quiet) {q : ℕ}
    (howner : (s.objects p).owner = some q) (hr : (s.objects p).requested = true) :
    (s.objects p).terms = 1 := by
  have hedge := h.edge howner
  have hhears := hs.edge howner
  have hnews : (s.objects q).news = [] := by rw [Own.news, (hquiet q).1, filter_nil]
  rw [(h.node p).terms]
  cases hst : (s.objects p).stage with
  | dying | acked | gone => rfl
  | root =>
    have := (h.node p).root.2 hst
    rw [howner] at this
    cases this
  | launching => exact absurd hst (hhears.launching hr)
  | launched =>
    have hsub := hhears.launched hr hst
    rw [hnews] at hsub
    exact absurd (sublist_nil.1 hsub) (by simp)
  | owned =>
    have hmem := hhears.owned hr hst
    rw [hnews] at hmem
    exact absurd hmem not_mem_nil
  | asked =>
    have hterm := (h.node p).term
    rw [(hquiet p).1, if_pos hst] at hterm
    cases hterm

end OwnTree

/-- **No request is lost.** In every run in which no child calls `terminate` while its owner is inside
`launch_child` for it, every child that has asked to be terminated has received `term` by the time all
commands have been delivered. -/
theorem own_requests_heard (acts : List OwnAct) (s : OwnTree)
    (h : Foundation.StepsMeet OwnTree.step OwnTree.Registered OwnTree.empty acts)
    (hrun : OwnTree.empty.run acts = .ok s) (hquiet : s.Quiet) {p q : ℕ}
    (howner : (s.objects p).owner = some q) (hr : (s.objects p).requested = true) :
    (s.objects p).terms = 1 := by
  have hempty : OwnTree.empty.Heard := by
    refine ⟨fun _ => trivial, fun hc => ?_⟩
    simp [OwnTree.empty, Own.new] at hc
  obtain ⟨hshape, hheard⟩ := Foundation.runSteps_preserves (I := fun s => OwnShape s ∧ s.Heard)
    (fun s a t hinv ha ht => OwnTree.Heard.step hinv.1 hinv.2 ha ht) ⟨OwnShape.empty, hempty⟩ h hrun
  exact hheard.terms_of_quiet hshape hquiet howner hr

/-- A child asks while the report to its owner is on the way. -/
theorem own_requests_heard_early :
    ∃ s, OwnTree.empty.run [.root, .launch 0, .sendOwn 0, .deliver 1 false, .terminate 1,
      .deliver 0 false, .deliver 0 false, .deliver 1 true] = .ok s ∧ (s.objects 1).terms = 1 := by
  refine ⟨_, rfl, own_requests_heard [.root, .launch 0, .sendOwn 0, .deliver 1 false, .terminate 1,
    .deliver 0 false, .deliver 0 false, .deliver 1 true] _ (by decide +kernel) rfl ?_ (q := 0) rfl rfl⟩
  intro p
  match p with
  | 0 | 1 | _ + 2 => exact ⟨rfl, rfl⟩

/-- A child that is plugged in and asks to be terminated before its owner reports it to itself is
registered afterwards and never asked. -/
theorem own_request_lost :
    ∃ s, OwnTree.empty.run [.root, .launch 0, .deliver 1 false, .terminate 1, .sendOwn 0,
      .deliver 0 false, .deliver 0 false] = .ok s ∧ s.Quiet ∧ (s.objects 1).owner = some 0 ∧
      (s.objects 1).requested = true ∧ 1 ∈ (s.objects 0).owned ∧ (s.objects 1).terms = 0 := by
  refine ⟨_, rfl, fun p => ?_, rfl, rfl, by decide, rfl⟩
  match p with
  | 0 | 1 | _ + 2 => exact ⟨rfl, rfl⟩

end Zmq
