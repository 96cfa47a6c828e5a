import ZeroMQ.Thread.OwnShape

/-!
# The moves of the ownership tree

Every step of the tree is a call (`OwnCall`: the launch of a child, an announcement of a command or a
request for termination) or a short sequence of moves (`OwnMove`). Taking a command from the inbox
together with its immediate effect is one move, asking a child to terminate is one, and the deallocation
at the end of `check_term_acks` is one. The shape of the tree is kept by each of them, and `OwnShape.step` puts the
steps together from the moves: none of the assertions of `own_t` fails.
-/

namespace Zmq

open List Option

namespace OwnTree

/-- The oldest command to `p` is `m`, and `p` can process it. -/
structure Takes (s : OwnTree) (p : ℕ) (m : OwnCommand) (cs : List OwnCommand) : Prop where
  inbox : (s.objects p).inbox = m :: cs
  alive : (s.objects p).destroys = 0
  idle : (s.objects p).launching = none

end OwnTree

/-- What an object can do by itself or on a command. -/
inductive OwnMove (s : OwnTree) : OwnTree → Prop
  | root : OwnMove s ⟨Function.update s.objects s.count (Own.new none), s.count + 1⟩
  | ask (p c : ℕ) (hterm : (s.objects p).terminating = false) (hc : c ∈ (s.objects p).owned) :
      OwnMove s ((s.modify p fun o =>
        { o.registerTermAcks 1 with owned := o.owned.erase c }).modify c Own.ask)
  | send (p : ℕ) (hp : (s.objects p).toSend ≠ 0) :
      OwnMove s (s.modify p fun o => { o.push .announced with toSend := o.toSend - 1 })
  /-- `plug`, `attach`, `bind` or `inproc_connected` is processed. -/
  | takeCounted (p : ℕ) {m : OwnCommand} {cs : List OwnCommand} (h : s.Takes p m cs)
      (hm : m = .plug ∨ m = .announced) :
      OwnMove s (s.modify p fun o =>
        { o with inbox := cs, processedSeqnum := o.processedSeqnum + 1 })
  | takeOwn (p c : ℕ) {cs : List OwnCommand} (h : s.Takes p (.own c) cs)
      (hterm : (s.objects p).terminating = false) :
      OwnMove s ((s.modify p fun o =>
        { o with inbox := cs, owned := insert c o.owned,
                 processedSeqnum := o.processedSeqnum + 1 }).modify c
        fun o => { o with stage := .owned })
  /-- A child is reported to an object that is terminating. -/
  | takeOwnLate (p c : ℕ) {cs : List OwnCommand} (h : s.Takes p (.own c) cs)
      (hterm : (s.objects p).terminating = true) :
      OwnMove s ((s.modify p fun o =>
        { o.registerTermAcks 1 with
                 inbox := cs, processedSeqnum := o.processedSeqnum + 1 }).modify c Own.ask)
  /-- A request of a child that is not owned, or not any more. -/
  | takeTermReq (p c : ℕ) {cs : List OwnCommand} (h : s.Takes p (.termReq c) cs)
      (hc : c ∉ (s.objects p).owned) :
      OwnMove s (s.modify p fun o => { o with inbox := cs })
  | takeTerm (p : ℕ) {cs : List OwnCommand} (h : s.Takes p .term cs) :
      OwnMove s (s.modify p fun o =>
        { o with inbox := cs, terms := o.terms + 1, stage := .dying, pendingTerm := true })
  /-- The end of `process_term`, when all children have been asked. -/
  | startTerm (p : ℕ) (hp : s.Idle p) (hempty : (s.objects p).owned = ∅)
      (hroot : (s.objects p).owner = none ∨ (s.objects p).pendingTerm = true) :
      OwnMove s (s.modify p fun o => { o with terminating := true, pendingTerm := false })
  | takeTermAck (p c : ℕ) {cs : List OwnCommand} (h : s.Takes p (.termAck c) cs) :
      OwnMove s ((s.modify p fun o => { o.unregisterTermAck with inbox := cs }).modify c
        fun o => { o with stage := .gone })
  /-- The end of `check_term_acks`. -/
  | destroy (p : ℕ) (hp : s.Idle p) (hterm : (s.objects p).terminating = true)
      (hseqnum : (s.objects p).processedSeqnum = (s.objects p).sentSeqnum)
      (hacks : (s.objects p).termAcks = 0) : OwnMove s (s.destroy p)

/-- A child is launched, a command is announced, or a child asks to be terminated. -/
inductive OwnCall (s : OwnTree) : OwnAct → OwnTree → Prop
  | launch (p : ℕ) (hp : s.Idle p) :
      OwnCall s (.launch p) ⟨Function.update (s.modify p fun o => { o with launching := some s.count }).objects
        s.count ((Own.new (some p)).incSeqnum.push .plug), s.count + 1⟩
  | sendOwn (p c : ℕ) (hc : (s.objects p).launching = some c) :
      OwnCall s (.sendOwn p) ((s.modify p fun o =>
        { (o.incSeqnum.push (.own c)) with launching := none }).modify c
        fun o => { o with stage := .launched })
  | incSeqnum (p : ℕ) (hp : p < s.count) (halive : (s.objects p).destroys = 0) :
      OwnCall s (.incSeqnum p)
        (s.modify p fun o => { o.incSeqnum with toSend := o.toSend + 1 })
  | request (p q : ℕ) (hp : s.Idle p) (hterm : (s.objects p).terminating = false)
      (howner : (s.objects p).owner = some q) :
      OwnCall s (.terminate p) ((s.modify q fun o => o.push (.termReq p)).modify p
        fun o => { o with requested := true })

lemma OwnStage.eq_dying {st : OwnStage} (htermed : st.isTermed = true) (hdone : st.isDone = false) :
    st = .dying := by
  cases st with
  | dying => rfl
  | acked | gone => cases hdone
  | root | launching | launched | owned | asked => cases htermed

/-! ### Commands come and go -/

/-- The child a command tells about. -/
def OwnCommand.about : OwnCommand → Option ℕ
  | .own c => some c
  | .termReq c => some c
  | .termAck c => some c
  | _ => none

lemma sublist_pair_of_append {α : Type} {a b m : α} {l : List α} (hb : b ≠ m)
    (h : [a, b].Sublist (l ++ [m])) : [a, b].Sublist l := by
  have hrev : [b, a].Sublist (m :: l.reverse) := by simpa using h.reverse
  have := hrev.of_cons_of_ne hb
  simpa using this.reverse

namespace Own

namespace Edge

variable {c d : ℕ} {news : List OwnCommand} {owned : Finset ℕ} {launching : Option ℕ}
  {stage : OwnStage} {m : OwnCommand}

lemma congr {owned' : Finset ℕ} {launching' : Option ℕ} (h : Edge c news owned launching stage)
    (ho : c ∈ owned' ↔ c ∈ owned) (hl : launching' = some c ↔ launching = some c) :
    Edge c news owned' launching' stage :=
  { h with owned := ho.trans h.owned, launching := hl.trans h.launching }

lemma append (h : Edge c news owned launching stage) (hm : m.about ≠ some c) :
    Edge c (news ++ [m]) owned launching stage where
  own := by
    have : ¬ (m == .own c) = true := by
      rw [beq_iff_eq]
      rintro rfl
      exact hm rfl
    rw [count_append, h.own, count_singleton, if_neg this, add_zero]
  ack := by
    have : ¬ (m == .termAck c) = true := by
      rw [beq_iff_eq]
      rintro rfl
      exact hm rfl
    rw [count_append, h.ack, count_singleton, if_neg this, add_zero]
  owned := h.owned
  launching := h.launching
  order := fun hsub => by
    have : OwnCommand.termReq c ≠ m := by
      rintro rfl
      exact hm rfl
    exact h.order (sublist_pair_of_append this hsub)
  gone := fun hg hin => by
    rcases mem_append.1 hin with hin | hin
    · exact h.gone hg hin
    · rw [← mem_singleton.1 hin] at hm
      exact hm rfl

lemma tail (h : Edge c (m :: news) owned launching stage) (hown : m ≠ .own c)
    (hack : m ≠ .termAck c) : Edge c news owned launching stage where
  own := by rw [← h.own, count_cons_of_ne hown]
  ack := by rw [← h.ack, count_cons_of_ne hack]
  owned := h.owned
  launching := h.launching
  order := fun hsub => h.order (hsub.cons m)
  gone := fun hg hin => h.gone hg (mem_cons_of_mem _ hin)

end Edge

variable {o o' : Own} {c : ℕ} {stage : OwnStage} {m : OwnCommand}

lemma news_of_cons (h : o.inbox = m :: o'.inbox) :
    o.news = if m.isNews then m :: o'.news else o'.news := by
  rw [news, h, filter_cons, news]

lemma news_of_append (h : o'.inbox = o.inbox ++ [m]) :
    o'.news = if m.isNews then o.news ++ [m] else o.news := by
  rw [news, h, filter_append, filter_cons, filter_nil, news]
  split <;> simp

lemma Knows.congr (h : o.Knows c stage) (hin : o'.inbox = o.inbox)
    (ho : c ∈ o'.owned ↔ c ∈ o.owned) (hl : o'.launching = some c ↔ o.launching = some c) :
    o'.Knows c stage := by
  have hnews : o'.news = o.news := by rw [news, news, hin]
  rw [Knows, hnews]
  exact Edge.congr h ho hl

lemma Knows.append (h : o.Knows c stage) (hin : o'.inbox = o.inbox ++ [m])
    (hm : m.about ≠ some c) (ho : c ∈ o'.owned ↔ c ∈ o.owned)
    (hl : o'.launching = some c ↔ o.launching = some c) : o'.Knows c stage := by
  rw [Knows, news_of_append hin]
  split
  · exact (Edge.append h hm).congr ho hl
  · exact Edge.congr h ho hl

lemma Knows.tail (h : o.Knows c stage) (hin : o.inbox = m :: o'.inbox) (hown : m ≠ .own c)
    (hack : m ≠ .termAck c) (ho : c ∈ o'.owned ↔ c ∈ o.owned)
    (hl : o'.launching = some c ↔ o.launching = some c) : o'.Knows c stage := by
  rw [Knows, news_of_cons hin] at h
  split at h
  · exact (Edge.tail h hown hack).congr ho hl
  · exact Edge.congr h ho hl

lemma mentions_of_mem (hin : m ∈ o.inbox) (hm : m.about = some c) : o.Mentions c := by
  cases m with
  | own d =>
    cases hm
    exact .inl hin
  | termReq d =>
    cases hm
    exact .inr (.inl hin)
  | termAck d =>
    cases hm
    exact .inr (.inr (.inl hin))
  | plug | announced | term => cases hm

lemma Mentions.mono (h : o'.Mentions c)
    (hin : ∀ m : OwnCommand, m.about = some c → m ∈ o'.inbox → m ∈ o.inbox)
    (ho : c ∈ o'.owned → c ∈ o.owned) (hl : o'.launching = some c → o.launching = some c) :
    o.Mentions c := by
  rcases h with h | h | h | h | h
  · exact .inl (hin _ rfl h)
  · exact .inr (.inl (hin _ rfl h))
  · exact .inr (.inr (.inl (hin _ rfl h)))
  · exact .inr (.inr (.inr (.inl (ho h))))
  · exact .inr (.inr (.inr (.inr (hl h))))

lemma Mentions.of_tail (h : o'.Mentions c) (hin : o.inbox = m :: o'.inbox)
    (ho : c ∈ o'.owned → c ∈ o.owned) (hl : o'.launching = some c → o.launching = some c) :
    o.Mentions c := by
  refine h.mono (fun m' _ hm' => ?_) ho hl
  rw [hin]
  exact mem_cons_of_mem _ hm'

lemma Mentions.of_append (h : o'.Mentions c) (hin : o'.inbox = o.inbox ++ [m])
    (hm : m.about ≠ some c) (ho : c ∈ o'.owned → c ∈ o.owned)
    (hl : o'.launching = some c → o.launching = some c) : o.Mentions c := by
  refine h.mono (fun m' habout hm' => ?_) ho hl
  rw [hin] at hm'
  rcases mem_append.1 hm' with hm' | hm'
  · exact hm'
  · rw [mem_singleton.1 hm'] at habout
    exact absurd habout hm

/-! ### Counters of an object -/

lemma Node.term_tail {x : Own} (h : o.Node) (hin : o.inbox = m :: x.inbox) (hm : m ≠ .term) :
    x.inbox.count .term = if o.stage = .asked then 1 else 0 := by
  rw [← h.term, hin, count_cons_of_ne hm]

lemma Node.term_append {x : Own} (h : o.Node) (hin : x.inbox = o.inbox ++ [m]) (hm : m ≠ .term) :
    x.inbox.count .term = if o.stage = .asked then 1 else 0 := by
  have : ¬ (m == .term) = true := by rwa [beq_iff_eq]
  rw [hin, count_append, h.term, count_singleton, if_neg this, add_zero]

lemma Node.setStage (h : o.Node) {st : OwnStage} (howner : o.owner ≠ none) (hroot : st ≠ .root)
    (hold : o.stage.isTermed = false) (hasked : o.stage ≠ .asked) (hnew : st.isTermed = false)
    (hst : st ≠ .asked) : ({ o with stage := st } : Own).Node := by
  have hdone : ∀ st' : OwnStage, st'.isTermed = false → st'.isDone = false := by
    intro st' hst'
    cases st' <;> first | rfl | cases hst'
  have hterms := h.terms
  have hacks := h.acks
  have hterm := h.term
  rw [hold] at hterms
  rw [hdone _ hold] at hacks
  rw [if_neg hasked] at hterm
  refine { h with root := ?_, term := ?_, terms := ?_, acks := ?_, pending := ?_, termed := ?_ }
  · exact ⟨fun h' => absurd h' howner, fun h' => absurd h' hroot⟩
  · simpa [hst] using hterm
  · simpa [hnew] using hterms
  · simpa [hdone _ hnew] using hacks
  · intro hp
    have := (h.pending hp).1
    rw [this] at hold
    cases hold
  · intro ht _
    have := h.termed ht howner
    rw [this] at hold
    cases hold

lemma Node.registerTermAcks (h : o.Node) (n : ℕ) : (o.registerTermAcks n).Node :=
  { h with termAcks := by simp [Own.registerTermAcks, h.termAcks, BitVec.ofNat_add] }

lemma Node.unregisterTermAck (h : o.Node) (hpos : o.awaited ≠ 0) : o.unregisterTermAck.Node := by
  obtain ⟨n, hn⟩ := Nat.exists_eq_succ_of_ne_zero hpos
  refine { h with termAcks := ?_ }
  simp only [Own.unregisterTermAck, h.termAcks, hn, Nat.succ_eq_add_one, BitVec.ofNat_add,
    Nat.add_sub_cancel]
  exact BitVec.add_sub_cancel _ _

lemma Node.ask (h : o.Node) (hst : o.stage = .launched ∨ o.stage = .owned) : o.ask.Node := by
  have howner : o.owner ≠ none := by
    rw [ne_eq, h.root]
    rcases hst with hst | hst <;> simp [hst]
  have hold : o.stage.isTermed = false ∧ o.stage.isDone = false ∧ o.stage ≠ .asked := by
    rcases hst with hst | hst <;> simp [hst, OwnStage.isTermed, OwnStage.isDone]
  have hterms := h.terms
  have hacks := h.acks
  have hterm := h.term
  rw [hold.1] at hterms
  rw [hold.2.1] at hacks
  rw [if_neg hold.2.2] at hterm
  refine { h with root := ?_, term := ?_, terms := ?_, acks := ?_, pending := ?_, termed := ?_,
                  counted := ?_ }
  · exact ⟨fun h' => absurd h' howner, fun h' => by cases h'⟩
  · simpa [Own.ask, Own.push] using hterm
  · exact hterms
  · exact hacks
  · intro hp
    have := (h.pending hp).1
    rw [this] at hold
    cases hold.1
  · intro ht _
    have := h.termed ht howner
    rw [this] at hold
    cases hold.1
  · simpa [Own.ask, Own.push, OwnCommand.isCounted] using h.counted

lemma sameView_ask (o : Own) : SameView o o.ask := by
  refine ⟨?_, rfl, rfl⟩
  rw [news_of_append (o := o) (m := .term) rfl]
  rfl

lemma Knows.stage_of_mem (h : o.Knows c stage) :
    (c ∈ o.owned → stage = .owned) ∧ (.own c ∈ o.inbox → stage = .launched) ∧
      (.termAck c ∈ o.inbox → stage = .acked) := by
  refine ⟨h.owned.1, fun hin => ?_, fun hin => ?_⟩
  · have hpos : 0 < o.news.count (.own c) := count_pos_iff.2 (mem_news.2 ⟨hin, rfl⟩)
    by_contra hne
    rw [h.own, if_neg hne] at hpos
    exact absurd hpos (lt_irrefl 0)
  · have hpos : 0 < o.news.count (.termAck c) := count_pos_iff.2 (mem_news.2 ⟨hin, rfl⟩)
    by_contra hne
    rw [h.ack, if_neg hne] at hpos
    exact absurd hpos (lt_irrefl 0)

lemma Knows.takeOwn {st : OwnStage} (h : o.Knows c .launched) (hin : o.inbox = .own c :: o'.inbox)
    (hl : o'.launching = o.launching) (ho : c ∈ o'.owned ↔ st = .owned)
    (hst : st = .owned ∨ st = .asked) : o'.Knows c st := by
  rw [Knows, news_of_cons hin] at h
  have hne : st ≠ .launched ∧ st ≠ .acked ∧ st ≠ .launching ∧ st ≠ .gone := by
    rcases hst with rfl | rfl <;> decide
  refine ⟨?_, ?_, ho, ?_, fun hsub => h.order (hsub.cons _), fun hg => absurd hg hne.2.2.2⟩
  · simpa [OwnCommand.isNews, hne.1] using h.own
  · simpa [OwnCommand.isNews, hne.2.1] using h.ack
  · simpa [OwnCommand.isNews, hne.2.2.1, hl] using h.launching

lemma Knows.ask (h : o.Knows c .owned) (hin : o'.inbox = o.inbox) (ho : c ∉ o'.owned)
    (hl : o'.launching = o.launching) : o'.Knows c .asked := by
  have hnews : o'.news = o.news := by rw [news, news, hin]
  refine ⟨?_, ?_, ?_, ?_, ?_, fun hg => by cases hg⟩
  · simpa [hnews] using h.own
  · simpa [hnews] using h.ack
  · simpa using ho
  · simpa [hl] using h.launching
  · rw [hnews]
    exact h.order

lemma Knows.takeTermAck (h : o.Knows c .acked) (hin : o.inbox = .termAck c :: o'.inbox)
    (ho : o'.owned = o.owned) (hl : o'.launching = o.launching) : o'.Knows c .gone := by
  rw [Knows, news_of_cons hin] at h
  refine ⟨?_, ?_, ?_, ?_, fun hsub => h.order (hsub.cons _), fun _ hreq => ?_⟩
  · simpa [OwnCommand.isNews] using h.own
  · simpa [OwnCommand.isNews] using h.ack
  · simpa [ho] using h.owned
  · simpa [hl] using h.launching
  · exact h.order (List.Sublist.cons_cons _ (singleton_sublist.2 hreq))

lemma knows_new (h : ¬ o.Mentions c) (hin : o'.inbox = o.inbox) (ho : o'.owned = o.owned)
    (hl : o'.launching = some c) : o'.Knows c .launching := by
  have hnews : ∀ m : OwnCommand, m.about = some c → m ∉ o'.news := by
    intro m hm hmem
    refine h (mentions_of_mem ?_ hm)
    rw [← hin]
    exact (mem_news.1 hmem).1
  refine ⟨?_, ?_, ?_, ?_, fun hsub => ?_, fun hg => by cases hg⟩
  · exact count_eq_zero.2 (hnews _ rfl)
  · exact count_eq_zero.2 (hnews _ rfl)
  · rw [ho]
    refine iff_of_false (fun hmem => h (.inr (.inr (.inr (.inl hmem))))) ?_
    decide
  · exact iff_of_true hl rfl
  · exact hnews _ rfl (hsub.subset mem_cons_self)

lemma Knows.takeTerm (h : o.Knows c .asked) : o.Knows c .dying := by
  refine ⟨?_, ?_, ?_, ?_, Edge.order h, fun hg => by cases hg⟩
  · simpa using Edge.own h
  · simpa using Edge.ack h
  · simpa using Edge.owned h
  · simpa using Edge.launching h

lemma Knows.ack (h : o.Knows c .dying) (hin : o'.inbox = o.inbox ++ [.termAck c])
    (ho : o'.owned = o.owned) (hl : o'.launching = o.launching) : o'.Knows c .acked := by
  rw [Knows, news_of_append hin]
  refine ⟨?_, ?_, ?_, ?_, fun hsub => ?_, fun hg => by cases hg⟩
  · simpa [OwnCommand.isNews] using Edge.own h
  · simpa [OwnCommand.isNews] using Edge.ack h
  · simpa [ho] using Edge.owned h
  · simpa [hl] using Edge.launching h
  · exact Edge.order h (sublist_pair_of_append (by simp) hsub)

lemma Knows.sendOwn (h : o.Knows c .launching) (hin : o'.inbox = o.inbox ++ [.own c])
    (ho : o'.owned = o.owned) (hl : o'.launching = none) : o'.Knows c .launched := by
  rw [Knows, news_of_append hin]
  refine ⟨?_, ?_, ?_, ?_, fun hsub => ?_, fun hg => by cases hg⟩
  · simpa [OwnCommand.isNews] using Edge.own h
  · simpa [OwnCommand.isNews] using Edge.ack h
  · simpa [ho] using Edge.owned h
  · simp [hl]
  · exact Edge.order h (sublist_pair_of_append (by simp) hsub)

lemma Knows.request (h : o.Knows c stage) (hin : o'.inbox = o.inbox ++ [.termReq c])
    (ho : o'.owned = o.owned) (hl : o'.launching = o.launching) (hst : stage.isDone = false) :
    o'.Knows c stage := by
  have hacked : stage ≠ .acked := by
    rintro rfl
    cases hst
  rw [Knows, news_of_append hin]
  refine ⟨?_, ?_, ?_, ?_, fun hsub => ?_, fun hg => ?_⟩
  · simpa [OwnCommand.isNews] using Edge.own h
  · simpa [OwnCommand.isNews] using Edge.ack h
  · simpa [ho] using Edge.owned h
  · simpa [hl] using Edge.launching h
  · have hin' : .termAck c ∈ o.news := by
      have := hsub.subset mem_cons_self
      simpa [OwnCommand.isNews] using this
    exact hacked (h.stage_of_mem.2.2 (mem_news.1 hin').1)
  · rw [hg] at hst
    cases hst

end Own

namespace OwnShape

variable {s : OwnTree} {p c q : ℕ} {m : OwnCommand} {cs : List OwnCommand}

/-- Everything an object takes from its inbox without changing its stage, its children or the number of
acknowledgements it waits for. -/
lemma take (h : OwnShape s) (ht : s.Takes p m cs) (n : ℕ) (hterm : m ≠ .term)
    (hown : ∀ c, m ≠ .own c) (hack : ∀ c, m ≠ .termAck c) (hn : n = if m.isCounted then 1 else 0) :
    OwnShape (s.modify p fun o =>
      { o with inbox := cs, processedSeqnum := o.processedSeqnum + n }) := by
  have hin : (s.objects p).inbox = m :: cs := ht.inbox
  refine h.update (h.lt_count_of_inbox (by simp [hin])) _ rfl rfl rfl ?_ ?_ ?_
  · have hcounted := (h.node p).counted
    rw [hin, countP_cons] at hcounted
    refine { h.node p with term := ?_, counted := ?_ }
    · exact (h.node p).term_tail hin hterm
    · simp only
      omega
  · intro c stage hk
    exact hk.tail hin (hown c) (hack c) Iff.rfl Iff.rfl
  · intro c hm
    exact hm.of_tail hin id id

lemma send (h : OwnShape s) (hp : (s.objects p).toSend ≠ 0) :
    OwnShape (s.modify p fun o => { o.push .announced with toSend := o.toSend - 1 }) := by
  have hlt : p < s.count := by
    apply h.lt_count_of_ne_new
    intro hnew
    rw [hnew] at hp
    exact hp rfl
  refine h.update hlt _ rfl rfl rfl ?_ ?_ ?_
  · have hcounted := (h.node p).counted
    refine { h.node p with term := ?_, counted := ?_ }
    · exact (h.node p).term_append (x := (s.objects p).push .announced) rfl (by decide)
    · simp only [Own.push, countP_append, countP_singleton, OwnCommand.isCounted, if_true]
      omega
  · intro c stage hk
    exact hk.append (m := .announced) rfl (by simp [OwnCommand.about]) Iff.rfl Iff.rfl
  · intro c hm
    exact hm.of_append (m := .announced) rfl (by simp [OwnCommand.about]) id id

lemma incSeqnum (h : OwnShape s) (hp : p < s.count) :
    OwnShape (s.modify p fun o => { o.incSeqnum with toSend := o.toSend + 1 }) := by
  refine h.update hp _ rfl rfl rfl ?_ (fun _ _ hk => hk) (fun _ hm => hm)
  refine { h.node p with counted := ?_, sent := ?_ }
  · have := (h.node p).counted
    simp only [Own.incSeqnum]
    omega
  · have := (h.node p).sent
    simp only [Own.incSeqnum]
    omega

/-! ### Moves of an object and one of its children -/

section

variable (h : OwnShape s)

include h

lemma owner_of_takes (ht : s.Takes p m cs) (hm : m.about = some c) :
    (s.objects c).owner = some p := by
  apply h.kin
  refine Own.mentions_of_mem ?_ hm
  rw [ht.inbox]
  exact mem_cons_self

lemma ask (hterm : (s.objects p).terminating = false)
    (hc : c ∈ (s.objects p).owned) :
    OwnShape ((s.modify p fun o =>
      { o.registerTermAcks 1 with owned := o.owned.erase c }).modify c Own.ask) := by
  have howner : (s.objects c).owner = some p := h.kin (.inr (.inr (.inr (.inl hc))))
  have hedge := h.edge howner
  have hstage : (s.objects c).stage = .owned := hedge.stage_of_mem.1 hc
  refine h.update₂ howner _ Own.ask rfl rfl ?_ ?_ ?_ rfl rfl ((h.node c).ask (.inr hstage))
    (Own.sameView_ask _) ?_ ?_
  · refine { (h.node p).registerTermAcks 1 with empty := ?_ }
    intro ht
    rw [Own.registerTermAcks, hterm] at ht
    cases ht
  · intro d stage hd hk
    exact hk.congr rfl (by simp [hd]) Iff.rfl
  · intro d hd hm
    exact hm.mono (fun _ _ hin => hin) (fun hin => Finset.mem_of_mem_erase hin) id
  · rw [hstage] at hedge
    exact hedge.ask rfl (by simp) rfl
  · simp [hstage, Own.ask, Own.registerTermAcks, OwnStage.waits]

lemma node_take (ht : s.Takes p m cs) (hterm : m ≠ .term) (n : ℕ)
    (hn : n = if m.isCounted then 1 else 0) :
    ({ s.objects p with inbox := cs,
                        processedSeqnum := (s.objects p).processedSeqnum + n } : Own).Node := by
  have hcounted := (h.node p).counted
  rw [ht.inbox, countP_cons] at hcounted
  refine { h.node p with term := ?_, counted := ?_ }
  · exact (h.node p).term_tail (x := { s.objects p with inbox := cs }) ht.inbox hterm
  · simp only
    omega

lemma takeOwn (ht : s.Takes p (.own c) cs)
    (hterm : (s.objects p).terminating = false) :
    OwnShape ((s.modify p fun o =>
      { o with inbox := cs, owned := insert c o.owned,
               processedSeqnum := o.processedSeqnum + 1 }).modify c
      fun o => { o with stage := .owned }) := by
  have howner := h.owner_of_takes ht rfl
  have hedge := h.edge howner
  have hstage : (s.objects c).stage = .launched :=
    hedge.stage_of_mem.2.1 (by rw [ht.inbox]; exact mem_cons_self)
  rw [hstage] at hedge
  refine h.update₂ howner _ _ rfl rfl ?_ ?_ ?_ rfl rfl ?_ ⟨rfl, rfl, rfl⟩ ?_ ?_
  · refine { h.node_take ht (by simp) 1 rfl with empty := ?_ }
    intro ht
    rw [hterm] at ht
    cases ht
  · intro d stage hd hk
    exact hk.tail ht.inbox (by simpa using hd.symm) (by simp) (by simp [hd]) Iff.rfl
  · intro d hd hm
    exact hm.of_tail ht.inbox (fun hin => (Finset.mem_insert.1 hin).resolve_left hd) id
  · refine (h.node c).setStage ?_ (by decide) ?_ ?_ rfl (by decide)
    · simp [howner]
    · rw [hstage]
      rfl
    · simp [hstage]
  · exact hedge.takeOwn ht.inbox rfl (by simp) (.inl rfl)
  · simp [hstage, OwnStage.waits]

lemma takeOwnLate (ht : s.Takes p (.own c) cs) :
    OwnShape ((s.modify p fun o =>
      { o.registerTermAcks 1 with
               inbox := cs, processedSeqnum := o.processedSeqnum + 1 }).modify c Own.ask) := by
  have howner := h.owner_of_takes ht rfl
  have hedge := h.edge howner
  have hstage : (s.objects c).stage = .launched :=
    hedge.stage_of_mem.2.1 (by rw [ht.inbox]; exact mem_cons_self)
  rw [hstage] at hedge
  refine h.update₂ howner _ Own.ask rfl rfl ((h.node_take ht (by simp) 1 rfl).registerTermAcks 1)
    ?_ ?_ rfl rfl
    ((h.node c).ask (.inl hstage)) (Own.sameView_ask _) ?_ ?_
  · intro d stage hd hk
    exact hk.tail ht.inbox (by simpa using hd.symm) (by simp) Iff.rfl Iff.rfl
  · intro d hd hm
    exact hm.of_tail ht.inbox id id
  · refine hedge.takeOwn ht.inbox rfl ?_ (.inr rfl)
    simpa [Own.ask, Own.registerTermAcks] using hedge.owned
  · simp [hstage, Own.ask, Own.registerTermAcks, OwnStage.waits]

lemma awaited_ne_zero (ht : s.Takes p (.termAck c) cs) :
    (s.objects p).awaited ≠ 0 := by
  have howner := h.owner_of_takes ht rfl
  have hstage : (s.objects c).stage = .acked :=
    (h.edge howner).stage_of_mem.2.2 (by rw [ht.inbox]; exact mem_cons_self)
  have hle : (if s.Awaits p c then 1 else 0) ≤ s.awaited p :=
    Finset.single_le_sum (f := fun i => if s.Awaits p i then 1 else 0) (fun _ _ => Nat.zero_le _)
      (Finset.mem_range.2 (h.lt_count howner))
  rw [if_pos ⟨howner, by rw [hstage]; rfl⟩, ← h.acks p] at hle
  omega

lemma takeTermAck (ht : s.Takes p (.termAck c) cs) :
    OwnShape ((s.modify p fun o => { o.unregisterTermAck with inbox := cs }).modify c
      fun o => { o with stage := .gone }) := by
  have howner := h.owner_of_takes ht rfl
  have hedge := h.edge howner
  have hstage : (s.objects c).stage = .acked :=
    hedge.stage_of_mem.2.2 (by rw [ht.inbox]; exact mem_cons_self)
  rw [hstage] at hedge
  have hpos : (s.objects p).awaited ≠ 0 := h.awaited_ne_zero ht
  refine h.update₂ howner _ _ rfl rfl ((h.node_take ht (by simp) 0 rfl).unregisterTermAck hpos) ?_ ?_ rfl rfl ?_
    ⟨rfl, rfl, rfl⟩ ?_ ?_
  · intro d stage hd hk
    exact hk.tail ht.inbox (by simp) (by simpa using hd.symm) Iff.rfl Iff.rfl
  · intro d hd hm
    exact hm.of_tail ht.inbox id id
  · have hnode := h.node c
    refine { hnode with root := ?_, term := ?_, terms := ?_, acks := ?_, pending := ?_, termed := ?_ }
    · simp [howner]
    · simpa [hstage] using hnode.term
    · simpa [hstage, OwnStage.isTermed] using hnode.terms
    · simpa [hstage, OwnStage.isDone] using hnode.acks
    · intro hp
      have := (hnode.pending hp).1
      rw [hstage] at this
      cases this
    · exact fun _ _ => rfl
  · exact hedge.takeTermAck ht.inbox rfl rfl
  · simp only [hstage, OwnStage.waits, if_true, Own.unregisterTermAck]
    simp
    omega

lemma asked_of_takes (ht : s.Takes p .term cs) :
    (s.objects p).stage = .asked ∧ ∃ q, (s.objects p).owner = some q := by
  have hterm := (h.node p).term
  rw [ht.inbox, count_cons_self] at hterm
  have hstage : (s.objects p).stage = .asked := by
    by_contra hne
    rw [if_neg hne] at hterm
    omega
  refine ⟨hstage, ne_none_iff_exists'.1 ?_⟩
  rw [ne_eq, (h.node p).root, hstage]
  decide

lemma takeTerm (ht : s.Takes p .term cs) :
    OwnShape (s.modify p fun o =>
      { o with inbox := cs, terms := o.terms + 1, stage := .dying, pendingTerm := true }) := by
  have hnode := h.node p
  have hterm := hnode.term
  rw [ht.inbox, count_cons_self] at hterm
  obtain ⟨hstage, q, howner⟩ := h.asked_of_takes ht
  have hlive : (s.objects p).terminating = false := by
    by_contra hne
    have := hnode.termed (by simpa using hne) (by simp [howner])
    rw [hstage] at this
    cases this
  have hcounted := hnode.counted
  rw [ht.inbox, countP_cons] at hcounted
  have hsame : s.modify q id = s := by simp [OwnTree.modify]
  rw [← hsame]
  refine h.update₂ howner id _ rfl rfl (h.node q) (fun _ _ _ hk => hk) (fun _ _ hm => hm) rfl rfl ?_
    ?_ ?_ ?_
  · refine { hnode with root := ?_, term := ?_, terms := ?_, acks := ?_, pending := ?_, termed := ?_,
                        counted := ?_ }
    · simp [howner]
    · simpa [hstage] using hterm
    · simpa [hstage, OwnStage.isTermed] using hnode.terms
    · simpa [hstage, OwnStage.isDone] using hnode.acks
    · exact fun _ => ⟨rfl, hlive⟩
    · exact fun _ _ => rfl
    · simpa [OwnCommand.isCounted] using hcounted
  · refine ⟨?_, rfl, rfl⟩
    rw [Own.news, Own.news, ht.inbox, filter_cons_of_neg (by simp [OwnCommand.isNews])]
  · have := h.edge howner
    rw [hstage] at this
    exact this.takeTerm
  · simp [hstage, OwnStage.waits]

lemma sendOwn (hc : (s.objects p).launching = some c) :
    OwnShape ((s.modify p fun o =>
      { (o.incSeqnum.push (.own c)) with launching := none }).modify c
      fun o => { o with stage := .launched }) := by
  have howner : (s.objects c).owner = some p := h.kin (.inr (.inr (.inr (.inr hc))))
  have hedge := h.edge howner
  have hstage : (s.objects c).stage = .launching := hedge.launching.1 hc
  rw [hstage] at hedge
  refine h.update₂ howner _ _ rfl rfl ?_ ?_ ?_ rfl rfl ?_ ⟨rfl, rfl, rfl⟩ ?_ ?_
  · have hcounted := (h.node p).counted
    have hsent := (h.node p).sent
    refine { h.node p with term := ?_, dead := ?_, counted := ?_, sent := ?_ }
    · exact (h.node p).term_append (x := (s.objects p).push (.own c)) rfl (by simp)
    · exact fun hd => ⟨((h.node p).dead hd).1, rfl⟩
    · simp only [Own.push, Own.incSeqnum, countP_append, countP_singleton,
        OwnCommand.isCounted, if_true]
      omega
    · simp only [Own.push, Own.incSeqnum]
      omega
  · intro d stage hd hk
    refine hk.append (m := .own c) rfl ?_ Iff.rfl ?_
    · simpa [OwnCommand.about] using hd.symm
    · simpa [hc] using hd.symm
  · intro d hd hm
    exact hm.of_append (m := .own c) rfl (by simpa [OwnCommand.about] using hd.symm) id
      (fun hl => by cases hl)
  · refine (h.node c).setStage ?_ (by decide) ?_ ?_ rfl (by decide)
    · simp [howner]
    · rw [hstage]
      rfl
    · simp [hstage]
  · exact hedge.sendOwn rfl rfl rfl
  · simp [hstage, OwnStage.waits, Own.push, Own.incSeqnum]

lemma isDone_of_alive (howner : (s.objects p).owner = some q)
    (halive : (s.objects p).destroys = 0) : (s.objects p).stage.isDone = false := by
  have hacks := (h.node p).acks
  rw [← (h.node p).destroys (by simp [howner]), halive] at hacks
  cases hdone : (s.objects p).stage.isDone with
  | false => rfl
  | true =>
    rw [hdone] at hacks
    cases hacks

lemma request (halive : (s.objects p).destroys = 0)
    (howner : (s.objects p).owner = some q) :
    OwnShape ((s.modify q fun o => o.push (.termReq p)).modify p
      fun o => { o with requested := true }) := by
  refine h.update₂ howner _ _ rfl rfl ?_ ?_ ?_ rfl rfl ?_ ⟨rfl, rfl, rfl⟩ ?_ rfl
  · have hcounted := (h.node q).counted
    refine { h.node q with term := ?_, counted := ?_ }
    · exact (h.node q).term_append (x := (s.objects q).push (.termReq p)) rfl (by simp)
    · simpa [Own.push, OwnCommand.isCounted] using hcounted
  · intro d stage hd hk
    exact hk.append (m := .termReq p) rfl (by simpa [OwnCommand.about] using hd.symm) Iff.rfl Iff.rfl
  · intro d hd hm
    exact hm.of_append (m := .termReq p) rfl (by simpa [OwnCommand.about] using hd.symm) id id
  · exact { h.node p with }
  · exact (h.edge howner).request rfl rfl rfl (h.isDone_of_alive howner halive)

lemma startTerm (hp : s.Idle p) (hempty : (s.objects p).owned = ∅)
    (hroot : (s.objects p).owner = none ∨ (s.objects p).pendingTerm = true) :
    OwnShape (s.modify p fun o => { o with terminating := true, pendingTerm := false }) := by
  refine h.update hp.1 _ rfl rfl rfl ?_ (fun _ _ hk => hk) (fun _ hm => hm)
  refine { h.node p with pending := ?_, termed := ?_, empty := fun _ => hempty, dead := ?_ }
  · intro hpending
    cases hpending
  · intro _ howner
    rcases hroot with hroot | hroot
    · exact absurd hroot howner
    · show (s.objects p).stage.isTermed = true
      rw [((h.node p).pending hroot).1]
      rfl
  · exact fun _ => ⟨rfl, hp.2.2⟩

lemma destroy (hp : s.Idle p) (hterm : (s.objects p).terminating = true) :
    OwnShape (s.destroy p) := by
  have hnode := h.node p
  have halive : (s.objects p).destroys = 0 := hp.2.1
  unfold OwnTree.destroy
  split
  · rename_i howner
    refine h.update hp.1 _ rfl rfl rfl ?_ (fun _ _ hk => hk) (fun _ hm => hm)
    refine { hnode with destroys := ?_, destroys_le := ?_, dead := fun _ => ⟨hterm, hp.2.2⟩ }
    · exact fun hne => absurd howner hne
    · show (s.objects p).destroys + 1 ≤ 1
      rw [halive]
  · rename_i q howner
    have hdone := h.isDone_of_alive howner halive
    have htermed := hnode.termed hterm (by simp [howner])
    have hstage : (s.objects p).stage = .dying := OwnStage.eq_dying htermed hdone
    rw [OwnTree.modify_comm _ (h.owner_ne howner).symm]
    refine h.update₂ howner _ _ rfl rfl ?_ ?_ ?_ rfl rfl ?_ ⟨rfl, rfl, rfl⟩ ?_ ?_
    · have hcounted := (h.node q).counted
      refine { h.node q with term := ?_, counted := ?_ }
      · exact (h.node q).term_append (x := (s.objects q).push (.termAck p)) rfl (by simp)
      · simpa [Own.push, OwnCommand.isCounted] using hcounted
    · intro d stage hd hk
      exact hk.append (m := .termAck p) rfl (by simpa [OwnCommand.about] using hd.symm) Iff.rfl
        Iff.rfl
    · intro d hd hm
      exact hm.of_append (m := .termAck p) rfl (by simpa [OwnCommand.about] using hd.symm) id id
    · have hacks := hnode.destroys (by simp [howner])
      refine { hnode with root := ?_, term := ?_, terms := ?_, acks := ?_, destroys := ?_,
                          destroys_le := ?_, pending := ?_, termed := fun _ _ => rfl,
                          dead := fun _ => ⟨hterm, hp.2.2⟩ }
      · simp [howner]
      · simpa [hstage] using hnode.term
      · simpa [hstage, OwnStage.isTermed] using hnode.terms
      · simp [← hacks, halive, OwnStage.isDone]
      · intro _
        simp [hacks]
      · show (s.objects p).destroys + 1 ≤ 1
        rw [halive]
      · intro hpending
        have := (hnode.pending hpending).2
        rw [hterm] at this
        cases this
    · have := h.edge howner
      rw [hstage] at this
      exact this.ack rfl rfl rfl
    · simp [hstage, OwnStage.waits, Own.push]

end

/-! ### New objects -/

lemma root (h : OwnShape s) :
    OwnShape ⟨Function.update s.objects s.count (Own.new none), s.count + 1⟩ := by
  have hnew : Function.update s.objects s.count (Own.new none) = s.objects := by
    rw [← h.fresh s.count le_rfl, Function.update_eq_self]
  rw [hnew]
  refine ⟨fun p hp => h.fresh p (by simp only at hp; omega), h.owner_lt, ⟨h.node, h.edge⟩, h.kin,
    fun p => ?_⟩
  have hno : ¬ s.Awaits p s.count := by
    intro haw
    exact absurd (h.lt_count haw.1) (lt_irrefl _)
  rw [h.acks p, OwnTree.awaited, OwnTree.awaited, Finset.sum_range_succ]
  exact (Nat.add_eq_left.2 (if_neg hno)).symm

lemma no_child_of_new (h : OwnShape s) (g : Own → Own)
    (hg : (g (s.objects p)).owner = (s.objects p).owner) (d : ℕ) :
    ((s.modify p g).objects d).owner ≠ some (s.modify p g).count := by
  intro hd
  have hd' : (s.objects d).owner = some s.count := by
    rw [OwnTree.modify_objects] at hd
    split_ifs at hd with hdp
    · rw [hdp, ← hg]
      exact hd
    · exact hd
  exact absurd ((h.owner_lt hd').trans (h.lt_count hd')) (lt_irrefl _)

lemma launch (h : OwnShape s) (hp : s.Idle p) :
    OwnShape ⟨Function.update (s.modify p fun o => { o with launching := some s.count }).objects
      s.count ((Own.new (some p)).incSeqnum.push .plug), s.count + 1⟩ := by
  have hfresh := h.fresh s.count le_rfl
  have hunknown : ∀ q, ¬ (s.objects q).Mentions s.count := by
    intro q hm
    exact absurd (h.lt_count (h.kin hm)) (lt_irrefl _)
  set t : OwnTree := ⟨Function.update (s.modify p fun o =>
    { o with launching := some s.count }).objects s.count
    ((Own.new (some p)).incSeqnum.push .plug), s.count + 1⟩ with ht
  have hobj : ∀ i, t.objects i = if i = s.count then (Own.new (some p)).incSeqnum.push .plug
      else if i = p then { s.objects p with launching := some s.count } else s.objects i := by
    intro i
    simp only [ht, Function.update_apply, OwnTree.modify_objects]
  have hold : ∀ i, i ≠ s.count → (t.objects i).owner = (s.objects i).owner ∧
      (t.objects i).stage = (s.objects i).stage := by
    intro i hi
    rw [hobj, if_neg hi]
    split_ifs with hip
    · rw [hip]
      exact ⟨rfl, rfl⟩
    · exact ⟨rfl, rfl⟩
  have hownerNew : (t.objects s.count).owner = some p := by
    rw [hobj, if_pos rfl]
    rfl
  have hmod : (s.modify p fun o => { o with launching := some s.count }).Holds Own.Node
      fun c o o' => o.Knows c o'.stage := by
    refine h.holds.update h.owner_lt _ rfl ?_ (fun c hc hk => ?_) (fun _ hk => hk)
    · exact { h.node p with dead := fun hd => absurd hp.2.1 hd }
    refine hk.congr rfl Iff.rfl ?_
    have hlt := h.lt_count hc
    rw [hp.2.2]
    simp only [some.injEq, reduceCtorEq, iff_false]
    omega
  refine ⟨fun i hi => ?_, fun {q d} hd => ?_, ?_, fun {q d} hm => ?_, fun i => ?_⟩
  · have hi' : s.count + 1 ≤ i := hi
    rw [hobj, if_neg (by omega), if_neg (by have := hp.1; omega)]
    exact h.fresh i (by omega)
  · by_cases hdc : d = s.count
    · subst hdc
      rw [hownerNew] at hd
      rw [← some.inj hd]
      exact hp.1
    · rw [(hold d hdc).1] at hd
      exact h.owner_lt hd
  · refine hmod.add hp.1 (h.no_child_of_new _ rfl) _ rfl ?_ ?_
    · constructor <;>
        simp [Own.new, Own.incSeqnum, Own.push, OwnStage.isTermed, OwnStage.isDone,
          OwnCommand.isCounted]
    · rw [OwnTree.modify_objects_self]
      exact Own.knows_new (hunknown p) rfl rfl rfl
  · rw [hobj] at hm
    split_ifs at hm with hqc hqp
    · rcases hm with hm | hm | hm | hm | hm <;>
        simp [Own.new, Own.incSeqnum, Own.push] at hm
    · subst hqp
      by_cases hdc : d = s.count
      · rw [hdc, hownerNew]
      · rw [(hold d hdc).1]
        refine h.kin (hm.mono (fun _ _ hin => hin) id fun hl => ?_)
        exact absurd (some.inj hl).symm hdc
    · by_cases hdc : d = s.count
      · subst hdc
        exact absurd hm (hunknown q)
      · rw [(hold d hdc).1]
        exact h.kin hm
  · have hno : ¬ t.Awaits i s.count := by
      intro haw
      have := haw.2
      rw [hobj, if_pos rfl] at this
      cases this
    have hsame : ∀ d ∈ Finset.range s.count,
        (if t.Awaits i d then 1 else 0) = (if s.Awaits i d then 1 else 0) := by
      intro d hd
      have hdc : d ≠ s.count := (Finset.mem_range.1 hd).ne
      have haw : t.Awaits i d ↔ s.Awaits i d := by
        rw [OwnTree.Awaits, OwnTree.Awaits, (hold d hdc).1, (hold d hdc).2]
      simp only [haw]
    have hsum : t.awaited i = s.awaited i := by
      rw [OwnTree.awaited, OwnTree.awaited, ← Finset.sum_congr rfl hsame]
      rw [Finset.sum_range_succ, if_neg hno, add_zero]
    rw [hsum, hobj]
    split_ifs with hi hip
    · rw [← h.acks i, hi, hfresh]
      rfl
    · rw [hip]
      exact h.acks p
    · exact h.acks i

lemma move {t : OwnTree} (h : OwnShape s) (hm : OwnMove s t) : OwnShape t := by
  cases hm with
  | root => exact h.root
  | ask p c hterm hc => exact h.ask hterm hc
  | send p hp => exact h.send hp
  | takeCounted p ht hm =>
    refine h.take ht 1 ?_ ?_ ?_ ?_
    all_goals rcases hm with rfl | rfl <;> simp [OwnCommand.isCounted]
  | takeOwn p c ht hterm => exact h.takeOwn ht hterm
  | takeOwnLate p c ht hterm => exact h.takeOwnLate ht
  | takeTermReq p c ht hc => exact h.take ht 0 (by simp) (by simp) (by simp) rfl
  | takeTerm p ht => exact h.takeTerm ht
  | startTerm p hp hempty hroot => exact h.startTerm hp hempty hroot
  | takeTermAck p c ht => exact h.takeTermAck ht
  | destroy p hp hterm hseqnum hacks => exact h.destroy hp hterm

lemma call {t : OwnTree} {a : OwnAct} (h : OwnShape s) (hc : OwnCall s a t) : OwnShape t := by
  cases hc with
  | launch p hp => exact h.launch hp
  | sendOwn p c hc => exact h.sendOwn hc
  | incSeqnum p hp halive => exact h.incSeqnum hp
  | request p q hp hterm howner => exact h.request hp.2.1 howner

end OwnShape

end Zmq
