import ZeroMQ.Czmq.Rings
import ZeroMQ.Czmq.ZhashRefine
import ZeroMQ.Czmq.Zring

/-!
# The shape of a ring

The cells of a ring are its nodes, each with the element it carries, an item and perhaps a key. In a ring of the
right shape the nodes form a ring, and the dictionary leads from a key to the node that carries it and to no other.
-/

namespace Czmq

open Foundation Function List Option Prod

/-- An element of a ring. -/
structure Elem (α : Type) where
  item : α
  key : Option CString
  deriving DecidableEq

section Linked

variable {α : Type}

/-- The key of a node is that of an element: it is the key of an item of the dictionary that leads to the node. -/
def KeyOf (dict : ℕ → Option (CString × ℕ)) (p : ℕ) : Option ℕ → Option CString → Prop
  | none, none => True
  | some q, some k => dict q = some (k, p)
  | _, _ => False

/-- A node carries an element. -/
def Carries (content : ℕ → Option (Option α × Option ℕ)) (dict : ℕ → Option (CString × ℕ)) (p : ℕ)
    (e : Elem α) : Prop :=
  ∃ key, content p = some (some e.item, key) ∧ KeyOf dict p key e.key

/-- The cells form a ring, and the dictionary leads to those with a key. -/
structure Linked (next prev : ℕ → Option ℕ) (content : ℕ → Option (Option α × Option ℕ))
    (dict : ℕ → Option (CString × ℕ)) (head : ℕ) (cells : List (ℕ × Elem α)) : Prop where
  ring : IsRing next prev head (cells.map Prod.fst)
  top : content head = some (none, none)
  carries : ∀ p e, (p, e) ∈ cells → Carries content dict p e
  dict : ∀ q k p, dict q = some (k, p) → p ∈ cells.map Prod.fst ∧ ∃ item, content p = some (item, some q)

variable {next prev next' prev' : ℕ → Option ℕ} {content content' : ℕ → Option (Option α × Option ℕ)}
  {dict dict' : ℕ → Option (CString × ℕ)} {head p q : ℕ} {cells l₁ l₂ : List (ℕ × Elem α)} {e : Elem α}

lemma Carries.congr (h : Carries content dict p e) (hcontent : content' p = content p)
    (hdict : ∀ q k, dict q = some (k, p) → dict' q = dict q) : Carries content' dict' p e := by
  obtain ⟨key, hp, hkey⟩ := h
  refine ⟨key, hcontent.trans hp, ?_⟩
  cases key with
  | none =>
    cases hk : e.key with
    | none => trivial
    | some k =>
      rw [hk] at hkey
      exact hkey
  | some q =>
    cases hk : e.key with
    | none =>
      rw [hk] at hkey
      exact hkey
    | some k =>
      rw [hk] at hkey
      exact (hdict q k hkey).trans hkey

lemma Linked.ne (h : Linked next prev content dict head (l1 ++ (p, e) :: l2)) :
    p ≠ head ∧ ∀ p' e', (p', e') ∈ l1 ++ l2 → p' ≠ p := by
  have hnodup := h.ring.nodup
  rw [map_append, map_cons] at hnodup
  obtain ⟨hp, -⟩ := nodup_middle.mp hnodup
  refine ⟨fun heq => hp (mem_cons.mpr (.inl heq)), fun p' e' hmem heq => hp ?_⟩
  rw [← map_append]
  exact mem_cons_of_mem _ (mem_map.mpr ⟨(p', e'), hmem, heq⟩)

lemma Linked.of_dict (h : Linked next prev content dict head cells) {k : CString} (hq : dict q = some (k, p)) :
    ∃ e, (p, e) ∈ cells ∧ e.key = some k := by
  obtain ⟨hmem, item, hitem⟩ := h.dict q k p hq
  obtain ⟨⟨p, e⟩, hcell, rfl⟩ := mem_map.mp hmem
  obtain ⟨key, hcontent, hkey⟩ := h.carries p e hcell
  obtain ⟨-, rfl⟩ := mk.inj (some.inj (hitem.symm.trans hcontent))
  refine ⟨e, hcell, ?_⟩
  cases hk : e.key with
  | none =>
    rw [hk] at hkey
    exact hkey.elim
  | some k' =>
    rw [hk] at hkey
    exact congrArg (fun entry => some entry.1) (some.inj (hkey.symm.trans hq))

lemma Linked.to_dict (h : Linked next prev content dict head cells) {k : CString} (hcell : (p, e) ∈ cells)
    (hkey : e.key = some k) : ∃ q, dict q = some (k, p) := by
  obtain ⟨key, -, hkeyOf⟩ := h.carries p e hcell
  rw [hkey] at hkeyOf
  cases key with
  | none => exact hkeyOf.elim
  | some q => exact ⟨q, hkeyOf⟩

lemma linked_nil (hnext : next head = some head) (hprev : prev head = some head)
    (hcontent : content head = some (none, none)) : Linked next prev content (fun _ => none) head [] where
  ring := isRing_nil hnext hprev
  top := hcontent
  carries _ _ hmem := by cases hmem
  dict _ _ _ h := by cases h

lemma Linked.put (h : Linked next prev content dict head (l1 ++ l2)) {x y : ℕ}
    (hx : x = (l1.map fst).getLastD head) (hy : y = (l2.map fst).headD head) (hq : content q = none)
    (item : α) :
    Linked (update (update next q (some y)) x (some q))
      (update (update prev q (some x)) y (some q))
      (update content q (some (some item, none))) dict head (l1 ++ (q, ⟨item, none⟩) :: l2) := by
  have hcarried : ∀ p e, (p, e) ∈ l1 ++ l2 → p ≠ q := by
    rintro p e hmem rfl
    obtain ⟨key, hp, -⟩ := h.carries p e hmem
    rw [hq] at hp
    cases hp
  have htop : head ≠ q := by
    rintro rfl
    have htop := h.top
    rw [hq] at htop
    cases htop
  have hnew : q ∉ head :: (l1.map fst ++ l2.map fst) := by
    rw [← map_append]
    intro hmem
    rcases mem_cons.mp hmem with heq | hmem
    · exact htop heq.symm
    · obtain ⟨⟨p, e⟩, hcell, heq⟩ := mem_map.mp hmem
      exact hcarried p e hcell heq
  have hends := gap_ne hnew
  rw [← hx, ← hy] at hends
  obtain ⟨hxq, hyq⟩ := hends
  have hring := h.ring
  rw [map_append] at hring
  refine ⟨?_, (update_of_ne htop _ _).trans h.top, fun p e hmem => ?_, fun q' k p hdict => ?_⟩
  · rw [map_append, map_cons]
    subst hx hy
    refine hring.insert hnew (update_self _ _ _) ?_ (fun z hz hzq => ?_) (update_self _ _ _) ?_ fun z hz hzq => ?_
    · rw [update_of_ne hxq.symm, update_self]
    · rw [update_of_ne hz, update_of_ne hzq]
    · rw [update_of_ne hyq.symm, update_self]
    · rw [update_of_ne hz, update_of_ne hzq]
  · rcases mem_append.mp hmem with hmem | hmem
    · have hmem' := mem_append_left l2 hmem
      exact (h.carries p e hmem').congr (update_of_ne (hcarried p e hmem') _ _) fun _ _ _ => rfl
    · rcases mem_cons.mp hmem with heq | hmem
      · obtain ⟨rfl, rfl⟩ := mk.inj heq
        exact ⟨none, update_self _ _ _, trivial⟩
      · have hmem' := mem_append_right l1 hmem
        exact (h.carries p e hmem').congr (update_of_ne (hcarried p e hmem') _ _) fun _ _ _ => rfl
  · obtain ⟨hmem, item', hp⟩ := h.dict q' k p hdict
    have hpq : p ≠ q := by
      rintro rfl
      rw [hq] at hp
      cases hp
    refine ⟨?_, item', (update_of_ne hpq _ _).trans hp⟩
    rw [map_append] at hmem
    rw [map_append, map_cons]
    exact mem_append.mpr ((mem_append.mp hmem).imp_right (mem_cons_of_mem _))

lemma Linked.addKey {item : α} (h : Linked next prev content dict head (l1 ++ (p, ⟨item, none⟩) :: l2))
    (hq : dict q = none) (k : CString) :
    Linked next prev (update content p (some (some item, some q))) (update dict q (some (k, p)))
      head (l1 ++ (p, ⟨item, some k⟩) :: l2) := by
  obtain ⟨htop, hothers⟩ := h.ne
  have hdict : ∀ q' k' p', dict q' = some (k', p') → update dict q (some (k, p)) q' = dict q' :=
    fun q' k' p' hq' => by
      refine update_of_ne ?_ _ _
      rintro rfl
      rw [hq] at hq'
      cases hq'
  have hnodes : (l1 ++ (p, (⟨item, some k⟩ : Elem α)) :: l2).map fst =
      (l1 ++ (p, (⟨item, none⟩ : Elem α)) :: l2).map fst := by
    rw [map_append, map_append, map_cons, map_cons]
  have hcarries : ∀ p' e', (p', e') ∈ l1 ++ l2 → Carries (update content p (some (some item, some q)))
      (update dict q (some (k, p))) p' e' := fun p' e' hmem => by
    have hmem' : (p', e') ∈ l1 ++ (p, ⟨item, none⟩) :: l2 :=
      mem_append.mpr ((mem_append.mp hmem).imp_right (mem_cons_of_mem _))
    exact (h.carries p' e' hmem').congr (update_of_ne (hothers p' e' hmem) _ _) fun q' k' => hdict q' k' p'
  refine ⟨by rw [hnodes]; exact h.ring, (update_of_ne htop.symm _ _).trans h.top, fun p' e' hmem => ?_,
    fun q' k' p' hq' => ?_⟩
  · rcases mem_append.mp hmem with hmem | hmem
    · exact hcarries p' e' (mem_append_left _ hmem)
    · rcases mem_cons.mp hmem with heq | hmem
      · obtain ⟨rfl, rfl⟩ := mk.inj heq
        exact ⟨some q, update_self _ _ _, update_self _ _ _⟩
      · exact hcarries p' e' (mem_append_right _ hmem)
  · rw [hnodes]
    rw [update_apply] at hq'
    split at hq'
    next heq =>
      obtain ⟨-, rfl⟩ := mk.inj (some.inj hq')
      rw [heq]
      refine ⟨?_, some item, update_self _ _ _⟩
      rw [map_append, map_cons]
      exact mem_append_right _ mem_cons_self
    obtain ⟨hmem, item', hp'⟩ := h.dict q' k' p' hq'
    have hne : p' ≠ p := by
      rintro rfl
      obtain ⟨key, hp, hkey⟩ := h.carries p' ⟨item, none⟩ (mem_append_right _ mem_cons_self)
      rw [hp'] at hp
      obtain ⟨-, rfl⟩ := mk.inj (some.inj hp)
      exact hkey
    exact ⟨hmem, item', (update_of_ne hne _ _).trans hp'⟩

/-- What the dictionary is after the key of a node has been deleted, if the node has one. -/
def dropKey (dict : ℕ → Option (CString × ℕ)) : Option ℕ → ℕ → Option (CString × ℕ)
  | none => dict
  | some q => update dict q none

lemma Linked.take (h : Linked next prev content dict head (l1 ++ (p, e) :: l2)) {x y : ℕ}
    (hx : x = (l1.map fst).getLastD head) (hy : y = (l2.map fst).headD head) {item : Option α}
    {key : Option ℕ} (hp : content p = some (item, key)) :
    Linked (update (update next x (some y)) p none)
      (update (update prev y (some x)) p none) (update content p none)
      (dropKey dict key) head (l1 ++ l2) := by
  obtain ⟨htop, hothers⟩ := h.ne
  have hmiddle : ∀ c, c ∈ l1 ++ l2 → c ∈ l1 ++ (p, e) :: l2 := fun c hmem =>
    mem_append.mpr ((mem_append.mp hmem).imp_right (mem_cons_of_mem _))
  obtain ⟨key', hp', hkey⟩ := h.carries p e (mem_append_right _ mem_cons_self)
  obtain ⟨rfl, rfl⟩ := mk.inj (some.inj (hp.symm.trans hp'))
  have hring := h.ring
  rw [map_append, map_cons] at hring
  obtain ⟨hnotMem, -⟩ := nodup_middle.mp hring.nodup
  have hends := gap_ne hnotMem
  rw [← hx, ← hy] at hends
  obtain ⟨hxp, hyp⟩ := hends
  refine ⟨?_, (update_of_ne htop.symm _ _).trans h.top, fun p' e' hmem => ?_, fun q k p' hq => ?_⟩
  · rw [map_append]
    subst hx hy
    refine hring.remove ?_ (fun z hz hzp => ?_) ?_ fun z hz hzp => ?_
    · rw [update_of_ne hxp, update_self]
    · rw [update_of_ne hzp, update_of_ne hz]
    · rw [update_of_ne hyp, update_self]
    · rw [update_of_ne hzp, update_of_ne hz]
  · refine (h.carries p' e' (hmiddle _ hmem)).congr (update_of_ne (hothers p' e' hmem) _ _) fun q k hq => ?_
    cases key with
    | none => rfl
    | some q' =>
      refine update_of_ne ?_ _ _
      rintro rfl
      cases hk : e.key with
      | none =>
        rw [hk] at hkey
        exact hkey
      | some k' =>
        rw [hk] at hkey
        exact hothers p' e' hmem (congrArg snd (some.inj (hq.symm.trans hkey)))
  · have hold : dict q = some (k, p') ∧ key ≠ some q := by
      cases key with
      | none => exact ⟨hq, nofun⟩
      | some q' =>
        rw [dropKey, update_apply] at hq
        split at hq
        next => cases hq
        next hne => exact ⟨hq, fun heq => hne (some.inj heq).symm⟩
    obtain ⟨hmem, item', hp''⟩ := h.dict q k p' hold.1
    have hne : p' ≠ p := by
      rintro rfl
      rw [hp] at hp''
      exact hold.2 (congrArg snd (some.inj hp''))
    refine ⟨?_, item', (update_of_ne hne _ _).trans hp''⟩
    rw [map_append, map_cons] at hmem
    rw [map_append]
    rcases mem_append.mp hmem with hmem | hmem
    · exact mem_append_left _ hmem
    · exact mem_append_right _ (mem_of_ne_of_mem hne hmem)

end Linked

namespace Zring

variable {α : Type}

/-! ### Nodes -/

/-- The pointers of the nodes forward. -/
def nextOf (heap : ℕ → Option (RingNode α)) (p : ℕ) : Option ℕ := (heap p).map RingNode.next

/-- The pointers of the nodes backward. -/
def prevOf (heap : ℕ → Option (RingNode α)) (p : ℕ) : Option ℕ := (heap p).map RingNode.prev

/-- What else is in the nodes. -/
def contentOf (heap : ℕ → Option (RingNode α)) (p : ℕ) : Option (Option α × Option ℕ) :=
  (heap p).map fun x => (x.item, x.key)

/-- What the pointers of the nodes are, and what else is in them. -/
structure Views (heap : ℕ → Option (RingNode α)) (next prev : ℕ → Option ℕ)
    (content : ℕ → Option (Option α × Option ℕ)) : Prop where
  next : nextOf heap = next
  prev : prevOf heap = prev
  content : contentOf heap = content

section Nodes

variable {s : Zring α} {heap : ℕ → Option (RingNode α)} {next prev : ℕ → Option ℕ}
  {content : ℕ → Option (Option α × Option ℕ)} {p n m : ℕ} {c : Option α × Option ℕ}

lemma views (heap : ℕ → Option (RingNode α)) : Views heap (nextOf heap) (prevOf heap) (contentOf heap) :=
  ⟨rfl, rfl, rfl⟩

lemma Views.update (h : Views heap next prev content) (p : ℕ) (x : Option (RingNode α)) :
    Views (update heap p x) (update next p (x.map RingNode.next))
      (update prev p (x.map RingNode.prev))
      (update content p (x.map fun x => (x.item, x.key))) := by
  obtain ⟨rfl, rfl, rfl⟩ := h
  refine ⟨funext fun q => ?_, funext fun q => ?_, funext fun q => ?_⟩
  all_goals
    simp only [nextOf, prevOf, contentOf, update_apply]
    split <;> rfl

lemma Views.heap_eq (h : Views heap next prev content) (hp : content p = some c) :
    ∃ n m, next p = some n ∧ prev p = some m ∧ heap p = some ⟨n, m, c.1, c.2⟩ := by
  obtain ⟨rfl, rfl, rfl⟩ := h
  obtain ⟨x, hx, rfl⟩ := map_eq_some_iff.mp hp
  exact ⟨x.next, x.prev, by rw [nextOf, hx]; rfl, by rw [prevOf, hx]; rfl, hx⟩

section

variable (h : Views s.heap next prev content)

include h

lemma Views.node (hp : content p = some c) (hnext : next p = some n)
    (hprev : prev p = some m) : s.node p = .ok ⟨n, m, c.1, c.2⟩ := by
  obtain ⟨n', m', hn, hm, hx⟩ := h.heap_eq hp
  obtain rfl := some.inj (hnext.symm.trans hn)
  obtain rfl := some.inj (hprev.symm.trans hm)
  rw [Zring.node, hx]

lemma Views.setNext (hp : content p = some c) (n : ℕ) :
    ∃ heap, s.setNext p n = .ok { s with heap } ∧ Views heap (Function.update next p (some n)) prev content := by
  obtain ⟨n', m, hnext, hprev, hx⟩ := h.heap_eq hp
  have hviews := h.update p (some ⟨n, m, c.1, c.2⟩)
  simp only [map_some, ← hprev, ← hp, update_eq_self] at hviews
  exact ⟨_, by simp only [Zring.setNext, write, Zring.node, hx, bind, Except.bind], hviews⟩

lemma Views.setPrev (hp : content p = some c) (m : ℕ) :
    ∃ heap, s.setPrev p m = .ok { s with heap } ∧ Views heap next (Function.update prev p (some m)) content := by
  obtain ⟨n, m', hnext, hprev, hx⟩ := h.heap_eq hp
  have hviews := h.update p (some ⟨n, m, c.1, c.2⟩)
  simp only [map_some, ← hnext, ← hp, update_eq_self] at hviews
  exact ⟨_, by simp only [Zring.setPrev, write, Zring.node, hx, bind, Except.bind], hviews⟩

lemma Views.setItem (hp : content p = some c) (item : Option α) :
    ∃ heap, s.setItem p item = .ok { s with heap } ∧
      Views heap next prev (Function.update content p (some (item, c.2))) := by
  obtain ⟨n, m, hnext, hprev, hx⟩ := h.heap_eq hp
  have hviews := h.update p (some ⟨n, m, item, c.2⟩)
  simp only [map_some, ← hnext, ← hprev, update_eq_self] at hviews
  exact ⟨_, by simp only [Zring.setItem, write, Zring.node, hx, bind, Except.bind], hviews⟩

lemma Views.setKey (hp : content p = some c) (key : Option ℕ) :
    ∃ heap, s.setKey p key = .ok { s with heap } ∧
      Views heap next prev (Function.update content p (some (c.1, key))) := by
  obtain ⟨n, m, hnext, hprev, hx⟩ := h.heap_eq hp
  have hviews := h.update p (some ⟨n, m, c.1, key⟩)
  simp only [map_some, ← hnext, ← hprev, update_eq_self] at hviews
  exact ⟨_, by simp only [Zring.setKey, write, Zring.node, hx, bind, Except.bind], hviews⟩

lemma Views.nodeNew (prev' next' : ℕ) (item : α) :
    Views (s.nodeNew prev' next' item).2.heap (Function.update next s.fresh (some next'))
      (Function.update prev s.fresh (some prev')) (Function.update content s.fresh (some (some item, none))) :=
  h.update s.fresh (some ⟨next', prev', some item, none⟩)

lemma Views.nodeDestroy {x y : ℕ} {key : Option ℕ}
    {cx cy : Option α × Option ℕ} (hp : content p = some (none, key)) (hnext : next p = some y)
    (hprev : prev p = some x) (hx : content x = some cx) (hy : content y = some cy) (hxp : x ≠ p) :
    ∃ heap, s.nodeDestroy p = .ok { s with heap } ∧
      Views heap (Function.update (Function.update next x (some y)) p none)
        (Function.update (Function.update prev y (some x)) p none) (Function.update content p none) := by
  have hnode : s.node p = .ok ⟨y, x, none, key⟩ := h.node hp hnext hprev
  obtain ⟨heap1, hok1, h1⟩ := h.setNext hx y
  have hnode1 : ({ s with heap := heap1 } : Zring α).node p = .ok ⟨y, x, none, key⟩ :=
    h1.node hp (by rw [update_of_ne hxp.symm, hnext]) hprev
  obtain ⟨heap2, hok2, h2⟩ := Views.setPrev (s := { s with heap := heap1 }) h1 hy x
  refine ⟨Function.update heap2 p none, ?_, h2.update p none⟩
  simp only [Zring.nodeDestroy, hnode, hok1, hnode1, hok2, bind, Except.bind, isSome_none, Bool.false_eq_true,
    if_false]

end

end Nodes

/-! ### Rings -/

/-- What the dictionary has. -/
def dictOf : Option (Zhash CString ℕ) → ℕ → Option (CString × ℕ)
  | none => fun _ => none
  | some hash => hash.entryAt

/-- The ring has the right shape, wherever the cursor is. -/
structure Keeps (primes : List ℕ) (s : Zring α) (cells : List (ℕ × Elem α)) : Prop where
  linked : Linked (nextOf s.heap) (prevOf s.heap) (contentOf s.heap) (dictOf s.hash) s.head cells
  size : s.size = cells.length
  hash : ∀ hash, s.hash = some hash → ∃ m, Zhash.Stores primes bernsteinHash hash m
  fresh : ∀ p, s.fresh ≤ p → contentOf s.heap p = none

section Keeps

variable {primes : List ℕ} {s s' : Zring α} {cells l₁ l₂ : List (ℕ × Elem α)} {p : ℕ} {e : Elem α}

lemma keeps_new : Keeps primes (Zring.new α) [] where
  linked := by
    have hcontent : contentOf (Zring.new α).heap 0 = some (none, none) := rfl
    exact linked_nil rfl rfl hcontent
  size := rfl
  hash _ h := by cases h
  fresh p hp := by
    have hne : p ≠ 0 := Nat.ne_of_gt hp
    have hheap : (Zring.new α).heap p = none := by
      change update (fun _ : ℕ => (none : Option (RingNode α))) 0 _ p = none
      rw [update_of_ne hne]
    rw [contentOf, hheap]
    rfl

lemma Keeps.of_eq (h : Keeps primes s cells) (hhead : s'.head = s.head) (hsize : s'.size = s.size)
    (hhash : s'.hash = s.hash) (hheap : s'.heap = s.heap) (hfresh : s'.fresh = s.fresh) : Keeps primes s' cells := by
  obtain ⟨hlinked, hlength, hstores, hfree⟩ := h
  refine ⟨?_, hsize.trans hlength, ?_, ?_⟩
  · rw [hheap, hhash, hhead]
    exact hlinked
  · rw [hhash]
    exact hstores
  · rw [hheap, hfresh]
    exact hfree

lemma Keeps.content (h : Keeps primes s cells) (hp : p ∈ s.head :: cells.map fst) :
    ∃ c, contentOf s.heap p = some c := by
  rcases mem_cons.mp hp with rfl | hp
  · exact ⟨_, h.linked.top⟩
  · obtain ⟨⟨p, e⟩, hmem, rfl⟩ := mem_map.mp hp
    obtain ⟨key, hcontent, -⟩ := h.linked.carries p e hmem
    exact ⟨_, hcontent⟩

lemma Keeps.at_gap (h : Keeps primes s (l1 ++ l2)) {x y : ℕ} (hx : x = (l1.map fst).getLastD s.head)
    (hy : y = (l2.map fst).headD s.head) :
    nextOf s.heap x = some y ∧ prevOf s.heap y = some x ∧ (∃ c, contentOf s.heap x = some c) ∧
      ∃ c, contentOf s.heap y = some c := by
  have hring := h.linked.ring
  rw [map_append] at hring
  obtain ⟨hnext, hprev⟩ := hring.at_gap
  subst hx hy
  refine ⟨hnext, hprev, h.content ?_, h.content ?_⟩
  · have hmem : (l1.map fst).getLastD s.head ∈ s.head :: l1.map fst := getLastD_mem_cons
    rw [map_append]
    exact mem_cons.mpr ((mem_cons.mp hmem).imp_right (mem_append_left _))
  · cases l2 with
    | nil => exact mem_cons_self
    | cons c l2 =>
      rw [map_append]
      exact mem_cons_of_mem _ (mem_append_right _ mem_cons_self)

/-- What adding an item does: there is a new cell, at the cursor, and the rest stays. -/
structure Added (primes : List ℕ) (s s' : Zring α) (l₁ l₂ : List (ℕ × Elem α)) (item : α) : Prop where
  keeps : Keeps primes s' (l₁ ++ (s'.cursor, ⟨item, none⟩) :: l₂)
  head : s'.head = s.head
  hash : s'.hash = s.hash
  destroyed : s'.destroyed = s.destroyed

lemma Keeps.put (h : Keeps primes s (l1 ++ l2)) {x y : ℕ} (hx : x = (l1.map fst).getLastD s.head)
    (hy : y = (l2.map fst).headD s.head) {item : α} {heap : ℕ → Option (RingNode α)}
    (hviews : Views heap (update (update (nextOf s.heap) s.fresh (some y)) x (some s.fresh))
      (update (update (prevOf s.heap) s.fresh (some x)) y (some s.fresh))
      (update (contentOf s.heap) s.fresh (some (some item, none)))) :
    Added primes s { s with heap, fresh := s.fresh + 1, cursor := s.fresh, size := s.size + 1 } l1 l2 item := by
  refine ⟨⟨?_, ?_, h.hash, fun p hp => ?_⟩, rfl, rfl, rfl⟩
  · have hlinked := h.linked.put hx hy (h.fresh _ le_rfl) item
    rw [← hviews.next, ← hviews.prev, ← hviews.content] at hlinked
    exact hlinked
  · have hsize := h.size
    simp only [length_append, length_cons] at hsize ⊢
    omega
  · have hlt : s.fresh < p := hp
    rw [hviews.content, update_of_ne (Nat.ne_of_gt hlt)]
    exact h.fresh p (Nat.le_of_lt hlt)

variable (c : RingHandlers α)

lemma append_spec (h : Keeps primes s cells) {item x : α} (hitem : c.duplicate item = some x) :
    ∃ s', s.append c item = .ok (0, s') ∧ Added primes s s' cells [] x := by
  have h' : Keeps primes s (cells ++ []) := by rwa [append_nil]
  obtain ⟨hnext, hprev, ⟨cl, hl⟩, ⟨ch, hh⟩⟩ := h'.at_gap rfl rfl
  generalize hlast : (cells.map fst).getLastD s.head = last at *
  have hne : ∀ {p : ℕ} {c : Option α × Option ℕ}, contentOf s.heap p = some c → p ≠ s.fresh := by
    rintro p c hp rfl
    rw [h.fresh _ le_rfl] at hp
    cases hp
  obtain ⟨first, hfirst⟩ : ∃ first, nextOf s.heap s.head = some first := by
    obtain ⟨n, m, hn, -⟩ := (views s.heap).heap_eq h.linked.top
    exact ⟨n, hn⟩
  have hnode := (views s.heap).node h.linked.top hfirst hprev
  have hnew := (views s.heap).nodeNew last s.head x
  obtain ⟨heap1, hok1, h1⟩ := hnew.setNext (c := cl) (by rw [update_of_ne (hne hl), hl]) s.fresh
  obtain ⟨heap2, hok2, h2⟩ := Views.setPrev (s := { (s.nodeNew last s.head x).2 with heap := heap1 }) h1
    (p := s.head) (c := (none, none)) (by rw [update_of_ne (hne h.linked.top), h.linked.top]) s.fresh
  refine ⟨_, ?_, h'.put hlast.symm rfl h2⟩
  rw [nodeNew] at hok1 hok2
  simp only [append, nodeNew, hitem, hnode, hok1, hok2, bind, Except.bind]

lemma prepend_spec (h : Keeps primes s cells) {item x : α} (hitem : c.duplicate item = some x) :
    ∃ s', s.prepend c item = .ok (0, s') ∧ Added primes s s' [] cells x := by
  have h' : Keeps primes s ([] ++ cells) := h
  obtain ⟨hnext, hprev, ⟨ch, hh⟩, ⟨cf, hf⟩⟩ := h'.at_gap rfl rfl
  generalize hfirst : (cells.map fst).headD s.head = first at *
  have hne : ∀ {p : ℕ} {c : Option α × Option ℕ}, contentOf s.heap p = some c → p ≠ s.fresh := by
    rintro p c hp rfl
    rw [h.fresh _ le_rfl] at hp
    cases hp
  obtain ⟨last, hlast⟩ : ∃ last, prevOf s.heap s.head = some last := by
    obtain ⟨n, m, -, hm, -⟩ := (views s.heap).heap_eq h.linked.top
    exact ⟨m, hm⟩
  have hnode := (views s.heap).node h.linked.top hnext hlast
  have hnew := (views s.heap).nodeNew s.head first x
  obtain ⟨heap1, hok1, h1⟩ := hnew.setPrev (c := cf) (by rw [update_of_ne (hne hf), hf]) s.fresh
  obtain ⟨heap2, hok2, h2⟩ := Views.setNext (s := { (s.nodeNew s.head first x).2 with heap := heap1 }) h1
    (p := s.head) (c := (none, none)) (by rw [update_of_ne (hne h.linked.top), h.linked.top]) s.fresh
  refine ⟨_, ?_, h'.put rfl hfirst.symm h2⟩
  rw [nodeNew] at hok1 hok2
  simp only [prepend, nodeNew, hitem, hnode, hok1, hok2, bind, Except.bind]

lemma deleteKey_spec (hprimes : Zhash.Narrow primes) {key : Option ℕ}
    (hhash : ∀ hash, s.hash = some hash → ∃ m, Zhash.Stores primes bernsteinHash hash m) {k : Option CString}
    (hkey : KeyOf (dictOf s.hash) p key k) :
    Yields (s.deleteKey primes key)
      (fun s' => ∃ hash, s' = { s with hash } ∧ dictOf hash = dropKey (dictOf s.hash) key ∧
        ∀ h, hash = some h → ∃ m, Zhash.Stores primes bernsteinHash h m)
      (· = .exhausted) := by
  cases key with
  | none =>
    rw [deleteKey]
    exact ⟨s.hash, rfl, rfl, hhash⟩
  | some q =>
    cases k with
    | none => exact hkey.elim
    | some k =>
      cases hh : s.hash with
      | none =>
        rw [hh] at hkey
        cases hkey
      | some hash =>
        rw [hh] at hkey
        obtain ⟨x, hx, rfl, -⟩ := Zhash.entryAt_some hkey
        obtain ⟨m, chains, hshape⟩ := hhash hash hh
        have hderef : hash.deref q = .ok x := by rw [Zhash.deref, hx]
        simp only [deleteKey, hh, hderef, bind, Except.bind]
        refine (Zhash.delete_spec hprimes hshape x.key).bind fun hash' hdeleted => ?_
        obtain ⟨hentry, hstores⟩ := hdeleted
        refine ⟨some hash', rfl, hentry q p hkey, fun h' heq => ?_⟩
        obtain rfl := some.inj heq
        exact ⟨_, hstores⟩

lemma detachCursor_spec (hprimes : Zhash.Narrow primes) (h : Keeps primes s (l1 ++ (p, e) :: l2))
    (hcursor : s.cursor = p) :
    Yields (s.detachCursor primes)
      (fun r => r.1 = some e.item ∧ Keeps primes r.2 (l1 ++ l2) ∧ r.2.cursor = (l2.map fst).headD s.head ∧
        r.2.head = s.head ∧ r.2.destroyed = s.destroyed)
      (· = .exhausted) := by
  obtain ⟨key, hp, hkey⟩ := h.linked.carries p e (mem_append_right _ mem_cons_self)
  -- The cells on both sides of the node.
  have h' : Keeps primes s ((l1 ++ [(p, e)]) ++ l2) := by rwa [append_assoc, singleton_append]
  obtain ⟨-, hprev, ⟨cx, hx⟩, -⟩ := h.at_gap rfl rfl
  obtain ⟨hnext, -, -, ⟨cy, hy⟩⟩ := h'.at_gap rfl rfl
  rw [map_append, map_singleton, getLastD_concat] at hnext
  rw [map_cons, headD_cons] at hprev
  have hring := h.linked.ring
  rw [map_append, map_cons] at hring
  obtain ⟨hxp, hyp⟩ := gap_ne (nodup_middle.mp hring.nodup).1
  have hlinked := h.linked.take rfl rfl hp
  generalize (l1.map fst).getLastD s.head = x, (l2.map fst).headD s.head = y at *
  have hnode := (views s.heap).node hp hnext hprev
  simp only [detachCursor, hcursor, hnode, bind]
  refine (deleteKey_spec hprimes (s := { s with cursor := y, size := s.size - 1 }) h.hash hkey).bind
    fun s1 ⟨hash, hs1, hdict, hstores⟩ => ?_
  subst hs1
  obtain ⟨heap2, hok2, h2⟩ := Views.setItem
    (s := { s with cursor := y, size := s.size - 1, hash }) (views s.heap) hp none
  obtain ⟨heap3, hok3, h3⟩ := Views.nodeDestroy
    (s := { s with cursor := y, size := s.size - 1, hash, heap := heap2 }) h2 (update_self _ _ _) hnext hprev
    (by rw [update_of_ne hxp, hx]) (by rw [update_of_ne hyp, hy]) hxp
  rw [update_idem] at h3
  simp only [hok2, hok3, Except.bind]
  refine ⟨rfl, ⟨?_, ?_, hstores, fun q hq => ?_⟩, rfl, rfl, rfl⟩
  · rw [← h3.next, ← h3.prev, ← h3.content, ← hdict] at hlinked
    exact hlinked
  · have hsize := h.size
    simp only [length_append, length_cons] at hsize ⊢
    omega
  · rw [h3.content, update_apply]
    split
    · rfl
    · exact h.fresh q hq

end Keeps

end Zring

end Czmq
