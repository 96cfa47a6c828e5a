import ZeroMQ.Czmq.ZhashRun
import ZeroMQ.Czmq.ZringRefine

/-!
# Runs of the ring

`zring_refines_list` is about every sequence of calls after `zring_new` in which no call looks for an item that is
in the ring but not at the cursor, and none makes the dictionary larger than 2^32 chains: every call returns what it
returns on a list with a cursor, and in the end the nodes form a ring with the elements of the list, and the
dictionary leads from a key to the node that has it.

`zring_detaches_cursor` has calls that look for an item elsewhere: the cursor stays, and what is detached is the
node at the cursor, which may be the head.
-/

namespace Czmq

open Foundation Prod Option Ensures

namespace Zring

open Zhash (Agrees narrowPrimes narrowPrimes_narrow narrowPrimes_begin)

/-! ### The list of primes -/

section Primes

variable {α : Type} {primes primes' : List ℕ} {s : Zring α}

/-- The dictionary has a size from the list. -/
def InList (primes : List ℕ) (s : Zring α) : Prop := ∀ hash, s.hash = some hash → hash.primeIndex < primes.length

lemma InList.related {hash : Zhash CString ℕ} (hs : InList primes s) (hhash : s.hash = some hash)
    (hbegin : primes <+: primes') : Zhash.Related (fun _ => Agrees) primes primes' bernsteinHash ℕ (· < primes.length) :=
  Zhash.related_of_begin hbegin (hs hash hhash) bernsteinHash ℕ

lemma lookup_agrees (hbegin : primes <+: primes') (hs : InList primes s) (key : CString) :
    Agrees (s.lookup primes key) (s.lookup primes' key) := by
  rw [Zring.lookup, Zring.lookup]
  cases hhash : s.hash with
  | none => exact .refl _
  | some hash => exact Agrees.bind ((hs.related hhash hbegin).lookup (hs hash hhash) key) fun _ _ => .refl _

lemma lookup_inList (hs : InList primes s) (key : CString) :
    Ensures (s.lookup primes key) fun r => InList primes r.2 := by
  rw [Zring.lookup]
  cases hhash : s.hash with
  | none => exact .ok hs
  | some hash =>
    refine ((Zhash.grows_inList (hs hash hhash) bernsteinHash ℕ).lookup (hs hash hhash) key).ensures.bind fun looked hin => ?_
    obtain ⟨found, hash'⟩ := looked
    have hin' : ∀ cursor, InList primes { s with hash := some hash', cursor } := fun cursor h heq => by
      obtain rfl := some.inj heq
      exact hin
    cases found with
    | none => exact .ok (hin' s.cursor)
    | some p => exact bind (Q := fun _ => True) (fun _ _ => trivial) fun _ _ => .ok (hin' p)

lemma deleteKey_agrees (hbegin : primes <+: primes') (hs : InList primes s) (key : Option ℕ) :
    Agrees (s.deleteKey primes key) (s.deleteKey primes' key) := by
  cases key with
  | none => exact .refl _
  | some q =>
    cases hhash : s.hash with
    | none =>
      simp only [deleteKey, hhash]
      exact .refl _
    | some hash =>
      simp only [deleteKey, hhash]
      refine (Agrees.refl _).bind fun item _ => ?_
      exact Agrees.bind ((hs.related hhash hbegin).delete (hs hash hhash) item.key) fun _ _ => .refl _

lemma deleteKey_inList (hs : InList primes s) (key : Option ℕ) :
    Ensures (s.deleteKey primes key) (InList primes) := by
  cases key with
  | none => exact .ok hs
  | some q =>
    cases hhash : s.hash with
    | none =>
      simp only [deleteKey, hhash]
      exact .error _
    | some hash =>
      simp only [deleteKey, hhash]
      refine bind (Q := fun _ => True) (fun _ _ => trivial) fun item _ => ?_
      refine ((Zhash.grows_inList (hs hash hhash) bernsteinHash ℕ).delete (hs hash hhash) item.key).ensures.bind fun hash' hin => .ok fun h heq => ?_
      obtain rfl := some.inj heq
      exact hin

lemma write_inList (hs : InList primes s) (p : ℕ) (f : RingNode α → RingNode α) :
    Ensures (s.write p f) (InList primes) :=
  bind (Q := fun _ => True) (fun _ _ => trivial) fun _ _ => .ok hs

lemma nodeDestroy_inList (hs : InList primes s) (p : ℕ) : Ensures (s.nodeDestroy p) (InList primes) := by
  refine bind (Q := fun _ => True) (fun _ _ => trivial) fun x _ => ?_
  split
  · exact .error _
  · refine (write_inList hs x.prev _).bind fun s1 hs1 => ?_
    refine bind (Q := fun _ => True) (fun _ _ => trivial) fun x1 _ => ?_
    exact (write_inList hs1 x1.next _).bind fun s2 hs2 => .ok hs2

lemma detachCursor_agrees (hbegin : primes <+: primes') (hs : InList primes s) :
    Agrees (s.detachCursor primes) (s.detachCursor primes') := by
  refine (Agrees.refl _).bind fun x _ => ?_
  have hs' : InList primes { s with cursor := x.next, size := s.size - 1 } := hs
  exact (deleteKey_agrees hbegin hs' x.key).bind fun _ _ => .refl _

lemma detachCursor_inList (hs : InList primes s) :
    Ensures (s.detachCursor primes) fun r => InList primes r.2 := by
  refine bind (Q := fun _ => True) (fun _ _ => trivial) fun x _ => ?_
  have hs' : InList primes { s with cursor := x.next, size := s.size - 1 } := hs
  refine (deleteKey_inList hs' x.key).bind fun s1 hs1 => ?_
  refine (write_inList hs1 s.cursor _).bind fun s2 hs2 => ?_
  exact (nodeDestroy_inList hs2 s.cursor).bind fun s3 hs3 => .ok hs3

variable [DecidableEq α] (c : RingHandlers α)

omit [DecidableEq α] in
lemma insert_agrees (hbegin : primes <+: primes') (hne : primes ≠ []) (hs : InList primes s) (key : CString)
    (item : α) : Agrees (s.insert c primes key item) (s.insert c primes' key item) := by
  have hin : (s.hash.getD (Zhash.new CString ℕ)).primeIndex < primes.length := by
    cases hhash : s.hash with
    | none => exact List.length_pos_of_ne_nil hne
    | some hash => exact hs hash hhash
  simp only [Zring.insert]
  cases c.duplicate item with
  | none => exact .refl _
  | some x =>
    have hrelated := Zhash.related_of_begin hbegin hin bernsteinHash ℕ
    refine Agrees.bind (hrelated.lookup hin key) fun looked hr => ?_
    obtain ⟨found, hash1⟩ := looked
    have hin1 : hash1.primeIndex < primes.length := (hrelated.grows.lookup hin key).ensures _ hr
    cases found with
    | some p => exact .refl _
    | none =>
      refine (Agrees.refl _).bind fun appended _ => ?_
      obtain ⟨status, s2⟩ := appended
      split
      · exact .refl _
      · exact Agrees.bind (hrelated.insert hin1 key s2.cursor) fun _ _ => .refl _

lemma remove_agrees (hbegin : primes <+: primes') (hs : InList primes s) (item : Option α) :
    Agrees (s.remove c primes item) (s.remove c primes' item) := by
  refine Agrees.bind ?_ fun _ _ => .refl _
  refine (Agrees.refl _).bind fun found _ => ?_
  cases found with
  | false => exact .refl _
  | true => exact detachCursor_agrees hbegin hs

lemma remove_inList (hs : InList primes s) (item : Option α) :
    Ensures (s.remove c primes item) fun r => InList primes r.2 := by
  have hdetach : Ensures (s.detach c primes item) fun r => InList primes r.2 := by
    refine bind (Q := fun _ => True) (fun _ _ => trivial) fun found _ => ?_
    cases found with
    | false => exact .ok hs
    | true => exact detachCursor_inList hs
  refine hdetach.bind fun ⟨x, s1⟩ hs1 => ?_
  cases x with
  | none => exact .ok hs1
  | some x =>
    refine .ok ?_
    split
    · exact hs1
    · exact hs1

lemma purgeLoop_agrees (hbegin : primes <+: primes') (hs : InList primes s) (fuel : ℕ) :
    Agrees (purgeLoop c primes fuel s) (purgeLoop c primes' fuel s) := by
  induction fuel generalizing s with
  | zero => exact .refl _
  | succ fuel ih =>
    have hfirst : Ensures s.first fun r => InList primes r.2 := by
      refine bind (Q := fun _ => True) (fun _ _ => trivial) fun x _ => ?_
      exact bind (Q := fun _ => True) (fun _ _ => trivial) fun _ _ => .ok hs
    refine (Agrees.refl _).bind fun ⟨item, s1⟩ hr => ?_
    have hs1 : InList primes s1 := hfirst _ hr
    refine (remove_agrees c hbegin hs1 item).bind fun ⟨removed, s2⟩ hr2 => ?_
    have hs2 : InList primes s2 := remove_inList c hs1 item _ hr2
    dsimp only
    split
    · exact ih hs2
    · exact .refl _

lemma step_agrees (hbegin : primes <+: primes') (hne : primes ≠ []) (hs : InList primes s) (op : ZringOp α) :
    Agrees (s.step c primes op) (s.step c primes' op) := by
  cases op with
  | insert key item => exact (insert_agrees c hbegin hne hs key item).map _
  | lookup key => exact (lookup_agrees hbegin hs key).map _
  | detach item =>
    refine Agrees.map ((Agrees.refl _).bind fun found _ => ?_) _
    cases found with
    | false => exact .refl _
    | true => exact detachCursor_agrees hbegin hs
  | remove item => exact (remove_agrees c hbegin hs item).map _
  | delete key =>
    refine Agrees.map ((lookup_agrees hbegin hs key).bind fun ⟨x, s1⟩ hr => ?_) _
    cases x with
    | none => exact .refl _
    | some x => exact remove_agrees c hbegin (lookup_inList hs key _ hr) none
  | purge => exact (purgeLoop_agrees c hbegin hs (s.size + 1)).map _
  | prepend | append | find | size | first | last | next | prev | item => exact .refl _

end Primes

section Runs

variable {α : Type} [DecidableEq α] (c : RingHandlers α)

/-- A call makes the dictionary grow beyond the sizes that fit into 32 bits. -/
def Widens (s : Zring α) (op : ZringOp α) : Prop :=
  match s.step c narrowPrimes op with
  | .error .exhausted => True
  | _ => False

instance (s : Zring α) (op : ZringOp α) : Decidable (Widens c s op) := by
  unfold Widens
  split <;> infer_instance

omit [DecidableEq α] in
lemma Refines.inList {primes : List ℕ} {s : Zring α} {r : Ring α} (h : Refines primes s r) : InList primes s := by
  obtain ⟨l1, l2, h⟩ := h
  intro hash hhash
  obtain ⟨m, chains, hshape⟩ := h.keeps.hash hash hhash
  exact hshape.prime

/-- The nodes form one ring through the head, with the elements of the list and the cursor of the list, and the
dictionary leads from a key to the node that has it. -/
structure Sound (s : Zring α) (r : Ring α) (l₁ l₂ : List (ℕ × Elem α)) : Prop where
  ring : IsRing (nextOf s.heap) (prevOf s.heap) s.head ((l₁ ++ l₂).map Prod.fst)
  before : r.before = l₁.map Prod.snd
  after : r.after = l₂.map Prod.snd
  cursor : s.cursor = (l₂.map Prod.fst).headD s.head
  size : s.size = r.all.length
  items : ∀ p e, (p, e) ∈ l₁ ++ l₂ → ∃ x, s.heap p = some x ∧ x.item = some e.item ∧ KeyOf (dictOf s.hash) p x.key e.key
  dictionary : ∃ m, (∀ hash, s.hash = some hash → ∃ chains, Zhash.Sound hash m chains) ∧ (s.hash = none → m = ∅) ∧
    ∀ key p, m.lookup key = some p ↔ ∃ e, (p, e) ∈ l₁ ++ l₂ ∧ e.key = some key
  destroyed : s.destroyed = r.destroyed

omit [DecidableEq α] in
lemma Rep.sound {s : Zring α} {r : Ring α} {l1 l2 : List (ℕ × Elem α)} (h : Rep narrowPrimes s r l1 l2) :
    Sound s r l1 l2 := by
  refine ⟨h.keeps.linked.ring, h.before, h.after, h.cursor, ?_, fun p e hcell => ?_, ?_, h.destroyed⟩
  · rw [h.all_eq, List.length_map]
    exact h.keeps.size
  · obtain ⟨key, hcontent, hkey⟩ := h.keeps.linked.carries p e hcell
    obtain ⟨n, m, -, -, hx⟩ := (views s.heap).heap_eq hcontent
    exact ⟨_, hx, rfl, hkey⟩
  · cases hhash : s.hash with
    | none =>
      refine ⟨∅, nofun, fun _ => rfl, fun key p => ?_⟩
      rw [Finmap.lookup_empty]
      refine ⟨nofun, fun ⟨e, hcell, hkey⟩ => ?_⟩
      obtain ⟨q, hq⟩ := h.keeps.linked.to_dict hcell hkey
      rw [hhash] at hq
      cases hq
    | some hash =>
      obtain ⟨m, hstores⟩ := h.keeps.hash hash hhash
      have hlookup : ∀ key p, m.lookup key = some p ↔ ∃ e, (p, e) ∈ l1 ++ l2 ∧ e.key = some key := fun key p =>
        h.keeps.lookup hhash hstores key
      refine ⟨m, fun hash' heq => ?_, nofun, hlookup⟩
      obtain rfl := some.inj heq
      obtain ⟨chains, hshape⟩ := hstores
      exact ⟨chains, hshape.sound⟩

/-- A call that does not miss and does not make the dictionary too large does on the ring what it does on the list. -/
lemma step_narrow (hrefl : ∀ x, c.equal x x = true) {s : Zring α} {r : Ring α} (op : ZringOp α)
    (hs : Refines narrowPrimes s r) (hnarrow : ¬ Widens c s op) (hfound : ¬ r.Misses c op) :
    ∃ s', s.step c zhashPrimes op = .ok ((r.step c op).1, s') ∧ Refines narrowPrimes s' (r.step c op).2 := by
  have hne : narrowPrimes ≠ [] := by decide
  have hyields := step_spec c narrowPrimes_narrow hne hrefl hs op hfound
  have hagrees := step_agrees c narrowPrimes_begin hne hs.inList op
  rw [Widens] at hnarrow
  cases hr : s.step c narrowPrimes op with
  | error e =>
    rw [hr] at hyields hnarrow
    obtain rfl : e = .exhausted := hyields
    exact absurd trivial hnarrow
  | ok out =>
    rw [hr] at hyields hagrees
    obtain ⟨hreply, hrefines⟩ := hyields
    have hok := hagrees.resolve_left nofun
    exact ⟨out.2, by rw [hok, ← hreply], hrefines⟩

/-- A run in which no call misses or makes the dictionary too large leads to a ring with the elements of the list. -/
lemma run_sound (hrefl : ∀ x, c.equal x x = true) (ops : List (ZringOp α))
    (hfound : InputsMeet (Ring.step c) (fun r op => ¬ r.Misses c op) (Ring.empty α) ops)
    (hnarrow : StepsMeet (fun s op => (Zring.step c zhashPrimes s op).map snd)
      (fun s op => ¬ Widens c s op) (Zring.new α) ops) :
    ∃ s l1 l2, runMachine (Zring.step c zhashPrimes) (Zring.new α) ops =
        .ok ((runSpec (Ring.step c) (Ring.empty α) ops).1, s) ∧
      Sound s (runSpec (Ring.step c) (Ring.empty α) ops).2 l1 l2 := by
  obtain ⟨s, hrun, l1, l2, hrep⟩ := refines_run_of_both
    (fun _ _ op hs hnarrow hfound => step_narrow c hrefl op hs hnarrow hfound) refines_new hnarrow hfound
  exact ⟨s, l1, l2, hrun, hrep.sound⟩

/-- **The ring.** In every sequence of calls in which none looks for an item that is in the ring but not at the
cursor, and none makes the dictionary larger than 2^32 chains, every call returns what it returns on a list with a
cursor, and in the end ring and dictionary have the elements of the list. -/
theorem zring_refines_list (hcomparator : ∀ comparator, c.comparator = some comparator → ∀ x, comparator x x = 0)
    (ops : List (ZringOp α)) (hfound : InputsMeet (Ring.step c) (fun r op => ¬ r.Misses c op) (Ring.empty α) ops)
    (hnarrow : StepsMeet (fun s op => (Zring.step c zhashPrimes s op).map snd)
      (fun s op => ¬ Widens c s op) (Zring.new α) ops) :
    ∃ s l1 l2, runMachine (Zring.step c zhashPrimes) (Zring.new α) ops =
        .ok ((runSpec (Ring.step c) (Ring.empty α) ops).1, s) ∧
      Sound s (runSpec (Ring.step c) (Ring.empty α) ops).2 l1 l2 := by
  have hrefl : ∀ x, c.equal x x = true := fun x => by
    rw [RingHandlers.equal]
    cases hc : c.comparator with
    | none => exact decide_eq_true rfl
    | some comparator => exact decide_eq_true (hcomparator comparator hc x)
  exact run_sound c hrefl ops hfound hnarrow

/-- Items of a ring of numbers are compared by their values, duplicated and destroyed. -/
def valueHandlers : RingHandlers ℕ := ⟨true, some some, some fun x y => (x : ℤ) - y⟩

/-- Items are added, found, detached and removed. -/
def ringCalls : List (ZringOp ℕ) :=
  [.insert (.ofBytes [97]) 1, .append 2, .prepend 3, .lookup (.ofBytes [97]), .detach (some 1), .first,
    .remove (some 3), .insert (.ofBytes [98]) 4, .delete (.ofBytes [98]), .find 5, .last,
    .insert (.ofBytes [97]) 6, .size, .prev]

theorem zring_refines_list_calls : ∃ s l1 l2, runMachine (Zring.step valueHandlers zhashPrimes) (Zring.new ℕ)
      ringCalls =
      .ok ([.status 0, .status 0, .status 0, .item (some 1), .item (some 1), .item (some 3), .status 0, .status 0,
        .status 0, .item none, .item (some 2), .status 0, .size 2, .item (some 2)], s) ∧
    Sound s ⟨[], [⟨2, none⟩, ⟨6, some ⟨[97], by decide⟩⟩], [3, 4]⟩ l1 l2 := by
  have hspec : runSpec (Ring.step valueHandlers) (Ring.empty ℕ) ringCalls =
      ([.status 0, .status 0, .status 0, .item (some 1), .item (some 1), .item (some 3), .status 0, .status 0,
        .status 0, .item none, .item (some 2), .status 0, .size 2, .item (some 2)],
        ⟨[], [⟨2, none⟩, ⟨6, some ⟨[97], by decide⟩⟩], [3, 4]⟩) := by decide +kernel
  have hcomparator : ∀ comparator, valueHandlers.comparator = some comparator → ∀ x, comparator x x = 0 := by
    intro comparator h x
    obtain rfl := some.inj h
    exact sub_self _
  have hrun := zring_refines_list valueHandlers hcomparator ringCalls (by decide +kernel) (by decide +kernel)
  rw [hspec] at hrun
  exact hrun

/-- With two items in the ring and the cursor at the second one, looking for the first leaves the cursor at the
second, and detaching the first detaches the second. With the cursor at the head, detaching an item frees the head,
so that the next call follows a pointer that leads nowhere. -/
theorem zring_detaches_cursor :
    (runMachine (Zring.step valueHandlers zhashPrimes) (Zring.new ℕ)
        [.append 1, .append 2, .find 1, .item, .detach (some 1), .first]).map fst =
      .ok [.status 0, .status 0, .item (some 1), .item (some 2), .item (some 2), .item (some 1)] ∧
    (runSpec (Ring.step valueHandlers) (Ring.empty ℕ)
        [.append 1, .append 2, .find 1, .item, .detach (some 1), .first]).1 =
      [.status 0, .status 0, .item (some 1), .item (some 1), .item (some 1), .item (some 2)] ∧
    (runMachine (Zring.step valueHandlers zhashPrimes) (Zring.new ℕ)
        [.append 1, .append 2, .next, .detach (some 1)]).map fst =
      .ok [.status 0, .status 0, .item none, .item none] ∧
    (runMachine (Zring.step valueHandlers zhashPrimes) (Zring.new ℕ)
        [.append 1, .append 2, .next, .detach (some 1), .first]).map fst = .error .dangling := by
  decide +kernel

end Runs

end Zring

end Czmq
