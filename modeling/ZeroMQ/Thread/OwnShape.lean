import Mathlib.Algebra.BigOperators.Group.Finset.Piecewise
import Mathlib.Algebra.Order.BigOperators.Group.Finset
import ZeroMQ.Thread.Own

/-!
# The shape of the ownership tree

`OwnShape` is the invariant of every reachable tree. It says for each object how its counters agree
with the commands on the way to it (`Own.Node`), and for each child how its stage agrees with what its
owner knows about it and has still to be told (`Own.Edge`): exactly one `own` is on the way while it is
launched, exactly one `term_ack` after it has acknowledged, and so on. The number of acknowledgements
an object waits for is the number of children in a stage between `asked` and `acked`.

An owner sees of a child only what stands in its commands, in `owned` and in `launching`; a child is
seen by its owner only through its stage. `OwnShape.update` and `OwnShape.update₂` use this to reduce the
invariant after a change of one object, or of a child and its owner, to the edges that changed.
-/

namespace Zmq

open Function Finset

/-- The command tells an owner something about a child. -/
def OwnCommand.isNews : OwnCommand → Bool
  | .own _ => true
  | .termReq _ => true
  | .termAck _ => true
  | _ => false

/-- The command was announced by `inc_seqnum`. -/
def OwnCommand.isCounted : OwnCommand → Bool
  | .plug => true
  | .own _ => true
  | .announced => true
  | _ => false

/-- The owner waits for the acknowledgement of the child. -/
def OwnStage.waits : OwnStage → Bool
  | .asked => true
  | .dying => true
  | .acked => true
  | _ => false

/-- The child has received `term`. -/
def OwnStage.isTermed : OwnStage → Bool
  | .dying => true
  | .acked => true
  | .gone => true
  | _ => false

/-- The child is deallocated. -/
def OwnStage.isDone : OwnStage → Bool
  | .acked => true
  | .gone => true
  | _ => false

namespace Own

/-- What is on the way to the object about its children. -/
def news (o : Own) : List OwnCommand := o.inbox.filter OwnCommand.isNews

/-- How the counters of an object agree with one another and with the commands on the way to it. -/
structure Node (o : Own) : Prop where
  root : o.owner = none ↔ o.stage = .root
  term : o.inbox.count .term = if o.stage = .asked then 1 else 0
  terms : o.terms = if o.stage.isTermed then 1 else 0
  acks : o.acks = if o.stage.isDone then 1 else 0
  destroys : o.owner ≠ none → o.destroys = o.acks
  destroys_le : o.destroys ≤ 1
  pending : o.pendingTerm = true → o.stage = .dying ∧ o.terminating = false
  termed : o.terminating = true → o.owner ≠ none → o.stage.isTermed = true
  empty : o.terminating = true → o.owned = ∅
  dead : o.destroys ≠ 0 → o.terminating = true ∧ o.launching = none
  counted : o.incs = o.processedSeqnum + o.toSend + o.inbox.countP OwnCommand.isCounted
  sent : o.sentSeqnum = o.incs % 2 ^ 32
  termAcks : o.termAcks = BitVec.ofNat 32 o.awaited

/-- The object knows of the child, or is about to learn something about it. -/
def Mentions (o : Own) (c : ℕ) : Prop :=
  .own c ∈ o.inbox ∨ .termReq c ∈ o.inbox ∨ .termAck c ∈ o.inbox ∨ c ∈ o.owned ∨ o.launching = some c

/-- How the stage of child `c` agrees with what its owner knows: the commands about its children, the
set of its children and the child it is launching. -/
structure Edge (c : ℕ) (news : List OwnCommand) (owned : Finset ℕ) (launching : Option ℕ)
    (stage : OwnStage) : Prop where
  own : news.count (.own c) = if stage = .launched then 1 else 0
  ack : news.count (.termAck c) = if stage = .acked then 1 else 0
  owned : c ∈ owned ↔ stage = .owned
  launching : launching = some c ↔ stage = .launching
  order : ¬ [.termAck c, .termReq c].Sublist news
  gone : stage = .gone → .termReq c ∉ news

/-- The edge from an object to child `c`, which is in stage `stage`. -/
def Knows (o : Own) (c : ℕ) (stage : OwnStage) : Prop := Edge c o.news o.owned o.launching stage

/-- What an object knows of its children is the same in both. -/
structure SameView (o o' : Own) : Prop where
  news : o'.news = o.news
  owned : o'.owned = o.owned
  launching : o'.launching = o.launching

lemma SameView.knows {o o' : Own} (h : SameView o o') {c : ℕ} {stage : OwnStage}
    (hk : o.Knows c stage) : o'.Knows c stage := by
  rw [Knows, h.news, h.owned, h.launching]
  exact hk

lemma mem_news {o : Own} {m : OwnCommand} : m ∈ o.news ↔ m ∈ o.inbox ∧ m.isNews = true := List.mem_filter

lemma SameView.mentions {o o' : Own} (h : SameView o o') {c : ℕ} (hm : o'.Mentions c) : o.Mentions c := by
  have hnews : ∀ m : OwnCommand, m.isNews = true → m ∈ o'.inbox → m ∈ o.inbox := by
    intro m hm hin
    have : m ∈ o'.news := mem_news.2 ⟨hin, hm⟩
    rw [h.news] at this
    exact (mem_news.1 this).1
  rcases hm with hm | hm | hm | hm | hm
  · exact .inl (hnews _ rfl hm)
  · exact .inr (.inl (hnews _ rfl hm))
  · exact .inr (.inr (.inl (hnews _ rfl hm)))
  · exact .inr (.inr (.inr (.inl (h.owned ▸ hm))))
  · exact .inr (.inr (.inr (.inr (h.launching ▸ hm))))

lemma Node.new_root : (Own.new none).Node := by
  constructor <;> simp [Own.new, OwnStage.isTermed, OwnStage.isDone]

end Own

namespace OwnTree

@[simp] lemma modify_count (s : OwnTree) (p : ℕ) (g : Own → Own) : (s.modify p g).count = s.count := rfl

lemma modify_objects (s : OwnTree) (p : ℕ) (g : Own → Own) (i : ℕ) :
    (s.modify p g).objects i = if i = p then g (s.objects p) else s.objects i := by
  by_cases h : i = p <;> simp [modify, update, h]

@[simp] lemma modify_objects_self (s : OwnTree) (p : ℕ) (g : Own → Own) :
    (s.modify p g).objects p = g (s.objects p) := by
  rw [modify_objects, if_pos rfl]

lemma modify_objects_ne (s : OwnTree) {p i : ℕ} (g : Own → Own) (h : i ≠ p) :
    (s.modify p g).objects i = s.objects i := by
  rw [modify_objects, if_neg h]

lemma modify_modify (s : OwnTree) (p : ℕ) (g k : Own → Own) :
    (s.modify p g).modify p k = s.modify p (fun o => k (g o)) := by
  simp [modify]

lemma modify_comm (s : OwnTree) {p c : ℕ} (h : p ≠ c) (g k : Own → Own) :
    (s.modify p g).modify c k = (s.modify c k).modify p g := by
  simp [modify, update_of_ne h, update_of_ne h.symm, update_comm h]

/-- `c` is a child of `p` whose acknowledgement `p` waits for. -/
def Awaits (s : OwnTree) (p c : ℕ) : Prop := (s.objects c).owner = some p ∧ (s.objects c).stage.waits = true

instance (s : OwnTree) (p c : ℕ) : Decidable (s.Awaits p c) := inferInstanceAs (Decidable (_ ∧ _))

/-- The number of acknowledgements `p` waits for. -/
def awaited (s : OwnTree) (p : ℕ) : ℕ := ∑ c ∈ Finset.range s.count, if s.Awaits p c then 1 else 0

/-- `N` holds of every object, and `R c` of every object and each of its children `c`. -/
structure Holds (s : OwnTree) (N : Own → Prop) (R : ℕ → Own → Own → Prop) : Prop where
  node : ∀ p, N (s.objects p)
  edge : ∀ {p c}, (s.objects c).owner = some p → R c (s.objects p) (s.objects c)

namespace Holds

variable {s : OwnTree} {N : Own → Prop} {R : ℕ → Own → Own → Prop} {p c : ℕ}

lemma update (h : s.Holds N R) (hlt : ∀ {p c}, (s.objects c).owner = some p → p < c)
    (g : Own → Own) (howner : (g (s.objects p)).owner = (s.objects p).owner)
    (hnode : N (g (s.objects p)))
    (hparent : ∀ c, (s.objects c).owner = some p → R c (s.objects p) (s.objects c) →
      R c (g (s.objects p)) (s.objects c))
    (hchild : ∀ q, R p q (s.objects p) → R p q (g (s.objects p))) : (s.modify p g).Holds N R where
  node := fun i => by
    rw [modify_objects]
    split_ifs
    · exact hnode
    · exact h.node i
  edge := fun {q d} hd => by
    by_cases hdp : d = p
    · subst hdp
      rw [modify_objects_self, howner] at hd
      rw [modify_objects_self, modify_objects_ne _ _ (hlt hd).ne]
      exact hchild _ (h.edge hd)
    · rw [modify_objects_ne _ _ hdp] at hd ⊢
      rw [modify_objects]
      split_ifs with hq
      · subst hq
        exact hparent d hd (h.edge hd)
      · exact h.edge hd

/-- An object and one of its children change: the edge between the two has to be proved, and the other
edges at the two to be looked at again. -/
lemma update₂ (h : s.Holds N R) (hlt : ∀ {p c}, (s.objects c).owner = some p → p < c)
    (hc : (s.objects c).owner = some p) (g k : Own → Own)
    (hgowner : (g (s.objects p)).owner = (s.objects p).owner)
    (hkowner : (k (s.objects c)).owner = (s.objects c).owner)
    (hgnode : N (g (s.objects p))) (hknode : N (k (s.objects c)))
    (hedge : R c (g (s.objects p)) (k (s.objects c)))
    (hgparent : ∀ d, d ≠ c → (s.objects d).owner = some p → R d (s.objects p) (s.objects d) →
      R d (g (s.objects p)) (s.objects d))
    (hgchild : ∀ q, R p q (s.objects p) → R p q (g (s.objects p)))
    (hkparent : ∀ d, (s.objects d).owner = some c → R d (s.objects c) (s.objects d) →
      R d (k (s.objects c)) (s.objects d)) :
    ((s.modify p g).modify c k).Holds N R where
  node := fun i => by
    rw [modify_objects, modify_objects_ne _ _ (hlt hc).ne', modify_objects]
    split_ifs
    · exact hknode
    · exact hgnode
    · exact h.node i
  edge := fun {q d} hd => by
    have hne : p ≠ c := (hlt hc).ne
    by_cases hdc : d = c
    · subst hdc
      rw [modify_objects_self, modify_objects_ne _ _ hne.symm, hkowner, hc] at hd
      rw [← Option.some.inj hd, modify_objects_self, modify_objects_ne _ _ hne.symm,
        modify_objects_ne _ _ hne, modify_objects_self]
      exact hedge
    · rw [modify_objects_ne _ _ hdc] at hd ⊢
      by_cases hdp : d = p
      · subst hdp
        rw [modify_objects_self, hgowner] at hd
        have hqd : q ≠ d := (hlt hd).ne
        rw [modify_objects_self]
        have hqc : q ≠ c := ((hlt hd).trans (hlt hc)).ne
        rw [modify_objects_ne _ _ hqc, modify_objects_ne _ _ hqd]
        exact hgchild _ (h.edge hd)
      · rw [modify_objects_ne _ _ hdp] at hd ⊢
        rw [modify_objects, modify_objects_ne _ _ hne.symm, modify_objects]
        split_ifs with hqc hqp
        · subst hqc
          exact hkparent d hd (h.edge hd)
        · subst hqp
          exact hgparent d hdc hd (h.edge hd)
        · exact h.edge hd

lemma add (h : s.Holds N R) (hp : p < s.count) (hnone : ∀ d, (s.objects d).owner ≠ some s.count)
    (o : Own) (howner : o.owner = some p) (hnode : N o) (hedge : R s.count (s.objects p) o) :
    OwnTree.Holds ⟨Function.update s.objects s.count o, s.count + 1⟩ N R where
  node := fun i => by
    simp only [update_apply]
    split_ifs
    · exact hnode
    · exact h.node i
  edge := fun {q d} hd => by
    simp only [update_apply] at hd ⊢
    by_cases hdc : d = s.count
    · rw [if_pos hdc, howner] at hd
      rw [← Option.some.inj hd, if_neg hp.ne, if_pos hdc, hdc]
      exact hedge
    · rw [if_neg hdc] at hd ⊢
      have hq : q ≠ s.count := by
        rintro rfl
        exact hnone d hd
      rw [if_neg hq]
      exact h.edge hd

end Holds

end OwnTree

/-- The invariant of the ownership tree. -/
structure OwnShape (s : OwnTree) : Prop where
  fresh : ∀ p, s.count ≤ p → s.objects p = Own.new none
  owner_lt : ∀ {p c}, (s.objects c).owner = some p → p < c
  holds : s.Holds Own.Node fun c o o' => o.Knows c o'.stage
  kin : ∀ {p c}, (s.objects p).Mentions c → (s.objects c).owner = some p
  acks : ∀ p, (s.objects p).awaited = s.awaited p

namespace OwnShape

variable {s : OwnTree} {p c : ℕ}

lemma node (h : OwnShape s) (p : ℕ) : (s.objects p).Node := h.holds.node p

lemma edge (h : OwnShape s) (hc : (s.objects c).owner = some p) : (s.objects p).Knows c (s.objects c).stage :=
  h.holds.edge hc

lemma lt_count (h : OwnShape s) (hc : (s.objects c).owner = some p) : c < s.count := by
  by_contra hge
  rw [h.fresh c (by omega)] at hc
  simp [Own.new] at hc

lemma owner_ne (h : OwnShape s) (hc : (s.objects c).owner = some p) : p ≠ c := (h.owner_lt hc).ne

lemma lt_count_of_ne_new (h : OwnShape s) (hp : s.objects p ≠ Own.new none) : p < s.count := by
  by_contra hge
  exact hp (h.fresh p (by omega))

lemma lt_count_of_inbox (h : OwnShape s) (hp : (s.objects p).inbox ≠ []) : p < s.count := by
  apply h.lt_count_of_ne_new
  intro hnew
  rw [hnew] at hp
  exact hp rfl

lemma empty : OwnShape OwnTree.empty where
  fresh := fun _ _ => rfl
  owner_lt := by simp [OwnTree.empty, Own.new]
  holds := ⟨fun _ => Own.Node.new_root, by simp [OwnTree.empty, Own.new]⟩
  kin := by simp [OwnTree.empty, Own.new, Own.Mentions]
  acks := by simp [OwnTree.empty, Own.new, OwnTree.awaited]

/-- The number of acknowledgements an object waits for, when only the stages of the children of one
object change. -/
lemma awaited_congr {t : OwnTree} (hcount : t.count = s.count)
    (h : ∀ i, t.Awaits p i ↔ s.Awaits p i) : t.awaited p = s.awaited p := by
  simp only [OwnTree.awaited, hcount, h]

lemma awaited_update {t : OwnTree} (hcount : t.count = s.count) (hc : c < s.count)
    (h : ∀ i, i ≠ c → (t.Awaits p i ↔ s.Awaits p i)) :
    t.awaited p + (if s.Awaits p c then 1 else 0) = s.awaited p + (if t.Awaits p c then 1 else 0) := by
  have hmem : c ∈ range s.count := mem_range.2 hc
  have hs := add_sum_erase _ (fun i => if s.Awaits p i then 1 else 0) hmem
  have ht := add_sum_erase _ (fun i => if t.Awaits p i then 1 else 0) hmem
  have hrest : ∑ i ∈ (range s.count).erase c, (if t.Awaits p i then 1 else 0) =
      ∑ i ∈ (range s.count).erase c, (if s.Awaits p i then 1 else 0) :=
    sum_congr rfl fun i hi => by simp only [h i (ne_of_mem_erase hi)]
  simp only [OwnTree.awaited, hcount]
  omega

/-- The shape is kept when one object changes, if its owner, its stage and the number of
acknowledgements it waits for are the same and the edges to its children still hold. -/
lemma update (h : OwnShape s) (hp : p < s.count) (g : Own → Own)
    (howner : (g (s.objects p)).owner = (s.objects p).owner)
    (hstage : (g (s.objects p)).stage = (s.objects p).stage)
    (hacks : (g (s.objects p)).awaited = (s.objects p).awaited)
    (hnode : (g (s.objects p)).Node)
    (hedge : ∀ c stage, (s.objects p).Knows c stage → (g (s.objects p)).Knows c stage)
    (hkin : ∀ c, (g (s.objects p)).Mentions c → (s.objects p).Mentions c) :
    OwnShape (s.modify p g) := by
  have hown : ∀ i, ((s.modify p g).objects i).owner = (s.objects i).owner := by
    intro i
    rw [OwnTree.modify_objects]
    split_ifs with hi
    · rw [howner, hi]
    · rfl
  have hst : ∀ i, ((s.modify p g).objects i).stage = (s.objects i).stage := by
    intro i
    rw [OwnTree.modify_objects]
    split_ifs with hi
    · rw [hstage, hi]
    · rfl
  refine ⟨fun i hi => ?_, fun {q c} hc => ?_, ?_, fun {q c} hm => ?_, fun i => ?_⟩
  · have hne : i ≠ p := by rintro rfl; exact absurd hp (not_lt.2 hi)
    rw [OwnTree.modify_objects_ne _ _ hne]
    exact h.fresh i hi
  · exact h.owner_lt (hown c ▸ hc)
  · refine h.holds.update h.owner_lt g howner hnode (fun c _ hk => hedge c _ hk) fun q hk => ?_
    rw [hstage]
    exact hk
  · rw [hown]
    rw [OwnTree.modify_objects] at hm
    split_ifs at hm with hq
    · subst hq
      exact h.kin (hkin c hm)
    · exact h.kin hm
  · have hall : ∀ j, (s.modify p g).Awaits i j ↔ s.Awaits i j := by
      intro j
      rw [OwnTree.Awaits, OwnTree.Awaits, hown, hst]
    rw [awaited_congr (s := s) (t := s.modify p g) rfl hall, OwnTree.modify_objects]
    split_ifs with hi
    · rw [hacks, hi, h.acks p]
    · exact h.acks i

/-- The shape is kept when an object and one of its children change: the edge between the two has to
hold afterwards, the other edges of the owner must not notice, and the owner must count the child among
those it waits for. -/
lemma update₂ (h : OwnShape s) (hc : (s.objects c).owner = some p) (g k : Own → Own)
    (hgowner : (g (s.objects p)).owner = (s.objects p).owner)
    (hgstage : (g (s.objects p)).stage = (s.objects p).stage)
    (hgnode : (g (s.objects p)).Node)
    (hgedge : ∀ d stage, d ≠ c → (s.objects p).Knows d stage → (g (s.objects p)).Knows d stage)
    (hgkin : ∀ d, d ≠ c → (g (s.objects p)).Mentions d → (s.objects p).Mentions d)
    (hkowner : (k (s.objects c)).owner = (s.objects c).owner)
    (hkacks : (k (s.objects c)).awaited = (s.objects c).awaited)
    (hknode : (k (s.objects c)).Node)
    (hkview : Own.SameView (s.objects c) (k (s.objects c)))
    (hedge : (g (s.objects p)).Knows c (k (s.objects c)).stage)
    (hacks : (g (s.objects p)).awaited + (if (s.objects c).stage.waits then 1 else 0) =
      (s.objects p).awaited + (if (k (s.objects c)).stage.waits then 1 else 0)) :
    OwnShape ((s.modify p g).modify c k) := by
  have hne : p ≠ c := h.owner_ne hc
  have hobj : ∀ i, ((s.modify p g).modify c k).objects i =
      if i = c then k (s.objects c) else if i = p then g (s.objects p) else s.objects i := by
    intro i
    rw [OwnTree.modify_objects, OwnTree.modify_objects_ne _ _ hne.symm, OwnTree.modify_objects]
  have hown : ∀ i, (((s.modify p g).modify c k).objects i).owner = (s.objects i).owner := by
    intro i
    rw [hobj]
    split_ifs with hi hi'
    · rw [hkowner, hi]
    · rw [hgowner, hi']
    · rfl
  have hst : ∀ i, i ≠ c → (((s.modify p g).modify c k).objects i).stage = (s.objects i).stage := by
    intro i hi
    rw [hobj, if_neg hi]
    split_ifs with hi'
    · rw [hgstage, hi']
    · rfl
  have hstc : (((s.modify p g).modify c k).objects c).stage = (k (s.objects c)).stage := by
    rw [hobj, if_pos rfl]
  have hlt := h.lt_count hc
  refine ⟨fun i hi => ?_, fun {q d} hd => ?_, ?_, fun {q d} hm => ?_, fun i => ?_⟩
  · have hic : i ≠ c := by rintro rfl; exact absurd hlt (not_lt.2 hi)
    have hip : i ≠ p := by rintro rfl; exact absurd ((h.owner_lt hc).trans hlt) (not_lt.2 hi)
    rw [hobj, if_neg hic, if_neg hip]
    exact h.fresh i hi
  · exact h.owner_lt (hown d ▸ hd)
  · refine h.holds.update₂ h.owner_lt hc g k hgowner hkowner hgnode hknode hedge
      (fun d hd _ hk => hgedge d _ hd hk) (fun q hk => ?_) (fun d _ hk => hkview.knows hk)
    rw [hgstage]
    exact hk
  · rw [hown]
    rw [hobj] at hm
    split_ifs at hm with hq hq'
    · subst hq
      exact h.kin (hkview.mentions hm)
    · subst hq'
      by_cases hdc : d = c
      · rw [hdc, hc]
      · exact h.kin (hgkin d hdc hm)
    · exact h.kin hm
  · have haw : ∀ j, j ≠ c → (((s.modify p g).modify c k).Awaits i j ↔ s.Awaits i j) := by
      intro j hj
      rw [OwnTree.Awaits, OwnTree.Awaits, hown, hst j hj]
    by_cases hip : i = p
    · subst hip
      have hsum := awaited_update (s := s) (t := (s.modify i g).modify c k) rfl hlt haw
      simp only [OwnTree.Awaits, hown, hstc, hc, true_and] at hsum
      have hi := h.acks i
      rw [hobj, if_neg hne, if_pos rfl]
      omega
    · have hall : ∀ j, ((s.modify p g).modify c k).Awaits i j ↔ s.Awaits i j := by
        intro j
        by_cases hj : j = c
        · subst hj
          have hsome : some p ≠ some i := fun heq => hip (Option.some.inj heq).symm
          simp only [OwnTree.Awaits, hown, hc, hsome, false_and]
        · exact haw j hj
      rw [awaited_congr (s := s) (t := (s.modify p g).modify c k) rfl hall, ← h.acks i, hobj, if_neg hip]
      split_ifs with hic
      · rw [hkacks, hic]
      · rfl

end OwnShape

end Zmq
