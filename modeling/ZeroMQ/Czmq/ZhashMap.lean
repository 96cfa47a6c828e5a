import ZeroMQ.Czmq.ZhashShape

/-!
# The hash table is a map

Every operation keeps the shape of the table and does to the map of its entries what its name says. Searching
and inserting do so in tables of every size; taking an item out of its chain needs the index of the item, and is
right as long as the sizes in the list of primes fit into 32 bits.
-/

namespace Czmq

open Foundation Function List Option Finmap Nat Except

variable {κ β : Type} [DecidableEq κ]

namespace Zhash

section Insert

variable {primes : List ℕ} {hasher : κ → UInt64} {s s' : Zhash κ β} {m : Finmap fun _ : κ => β}
  {chains : ℕ → List ℕ} {out : Option ℕ}

/-! ### Inserting -/

omit [DecidableEq κ] in
lemma entryAt_update {p : ℕ} (x : Option (Item κ β)) (hs : s'.heap = Function.update s.heap p x) :
    s'.entryAt = Function.update s.entryAt p (x.map Item.entry) := by
  have hcomp : ∀ t : Zhash κ β, t.entryAt = Option.map Item.entry ∘ t.heap := fun _ => rfl
  rw [hcomp, hcomp, hs, Function.comp_update]

lemma Shape.addItem (h : Shape primes hasher s m chains none) {key : κ} (value : β) (hkey : key ∉ m)
    (hcached : s.cachedIndex = s.bucket primes hasher key) :
    Shape primes hasher (s.addItem key value) (m.insert key value)
      (Function.update chains s.cachedIndex (s.fresh :: chains s.cachedIndex)) none := by
  have hfree : s.heap s.fresh = none := h.fresh _ le_rfl
  have hnew : ∀ i, s.fresh ∉ chains i := fun i hmem => by
    obtain ⟨x, hx, -⟩ := h.placed i _ hmem
    rw [hfree] at hx
    cases hx
  have hentry : (s.addItem key value).entryAt = Function.update s.entryAt s.fresh (some (key, value)) :=
    entryAt_update (some ⟨value, s.items s.cachedIndex, UInt32.ofNat s.cachedIndex, key⟩) rfl
  have hheap : ∀ p, (s.addItem key value).heap p =
      if p = s.fresh then some ⟨value, s.items s.cachedIndex, UInt32.ofNat s.cachedIndex, key⟩ else s.heap p :=
    fun p => update_apply _ _ _ _
  have hold : ∀ p x, s.heap p = some x → p ≠ s.fresh := by
    rintro p x hx rfl
    rw [hfree] at hx
    cases hx
  refine ⟨h.prime, h.table.push hnew rfl, fun i p hp => ?_, fun p x hx _ => ?_, nofun, ?_, ?_, fun p hp => ?_,
    fun p hp => ?_⟩
  · rw [hheap]
    rw [update_apply] at hp
    have hcases : (p = s.fresh ∧ i = s.cachedIndex) ∨ p ∈ chains i := by
      split at hp
      next hi => exact (mem_cons.mp hp).imp (fun heq => ⟨heq, hi⟩) fun hmem => hi ▸ hmem
      next => exact .inr hp
    rcases hcases with ⟨rfl, rfl⟩ | hp
    · exact ⟨_, if_pos rfl, hcached.symm, rfl⟩
    · obtain ⟨x, hx, hplaced⟩ := h.placed i p hp
      exact ⟨x, by rw [if_neg (hold p x hx)]; exact hx, hplaced⟩
  · rw [hheap] at hx
    change p ∈ Function.update chains s.cachedIndex _ (s.bucket primes hasher x.key)
    rw [update_apply]
    split at hx
    next heq =>
      have hindex : s.bucket primes hasher x.key = s.cachedIndex := by rw [← some.inj hx, hcached]
      rw [heq, if_pos hindex]
      exact mem_cons_self
    have hmem := h.stored p x hx nofun
    split
    next heq => exact mem_cons_of_mem _ (heq ▸ hmem)
    next => exact hmem
  · rw [hentry]
    exact h.holds.insert value (by rw [entryAt, hfree]; rfl) hkey
  · rw [card_keys_insert m value hkey, ← h.size]
    rfl
  · obtain rfl : s.fresh = p := some.inj hp
    exact ⟨_, by rw [hheap, if_pos rfl]⟩
  · have hle : s.fresh + 1 ≤ p := hp
    rw [hheap, if_neg (by omega)]
    exact h.fresh p (by omega)

lemma growLoaded_spec (hprimes : Allocatable primes) (h : Shape primes hasher s m chains none) :
    Yields (s.growLoaded primes hasher) (fun s' => Kept s s' ∧ ∃ chains', Shape primes hasher s' m chains' none)
      (· = .exhausted) := by
  rw [growLoaded]
  split
  · refine ((rehash_spec hprimes h _).mono_error fun _ he => he.1).bind fun s' hrehashed => ?_
    obtain ⟨hkept, -, -, chains', hshape⟩ := hrehashed
    exact ⟨⟨hkept.entry, hkept.size⟩, chains', hshape.prime, hshape.table, hshape.placed, hshape.stored,
      hshape.apart, hshape.holds, hshape.size, hshape.cursor, hshape.fresh⟩
  · exact ⟨⟨fun _ => rfl, rfl⟩, chains, h⟩

/-- What inserting a new key does: the entries are those of the table before and a new one, at the cursor. -/
structure Inserted (primes : List ℕ) (hasher : κ → UInt64) (s : Zhash κ β) (m : Finmap fun _ : κ => β) (key : κ)
    (value : β) (s' : Zhash κ β) : Prop where
  shape : ∃ chains', Shape primes hasher s' (m.insert key value) chains' none
  cursorKey : s'.cursorKey = some key
  entry : ∃ p, s.entryAt p = none ∧ s'.entryAt = Function.update s.entryAt p (some (key, value)) ∧
    s'.cursorItem = some p

lemma insert_spec (hprimes : Allocatable primes) (h : Shape primes hasher s m chains none) (key : κ) (value : β) :
    Yields (s.insert primes hasher key value)
      (fun r => (key ∈ m → r.1 = -1 ∧ Kept s r.2 ∧ ∃ chains', Shape primes hasher r.2 m chains' none) ∧
        (key ∉ m → r.1 = 0 ∧ Inserted primes hasher s m key value r.2))
      (· = .exhausted) := by
  refine (growLoaded_spec hprimes h).bind fun s1 hgrown => ?_
  obtain ⟨hkept1, chains1, h1⟩ := hgrown
  have hinsert : Yields (s1.itemInsert primes hasher key value)
      (fun r => (key ∈ m → r.1 = false ∧ Kept s r.2 ∧ ∃ chains', Shape primes hasher r.2 m chains' none) ∧
        (key ∉ m → r.1 = true ∧ Inserted primes hasher s m key value r.2)) (· = .exhausted) := by
    refine (itemLookup_spec hprimes h1 key).bind fun r hlooked => ?_
    obtain ⟨item, s2⟩ := r
    obtain ⟨hfound, hkept2, hcached, ⟨chains2, h2⟩, -⟩ := hlooked
    have hkept : Kept s s2 := hkept1.trans hkept2
    cases item with
    | none =>
      refine ⟨fun hmem => absurd hmem hfound, fun hkey => ⟨rfl, ⟨_, h2.addItem value hkey hcached⟩, rfl, ?_⟩⟩
      have hfree : s2.entryAt s2.fresh = none := by rw [entryAt, h2.fresh _ le_rfl]; rfl
      refine ⟨s2.fresh, by rw [← hkept.entry, hfree], ?_, rfl⟩
      rw [← funext hkept.entry]
      exact entryAt_update (some ⟨value, s2.items s2.cachedIndex, UInt32.ofNat s2.cachedIndex, key⟩) rfl
    | some p =>
      obtain ⟨v, hp⟩ := hfound
      have hmem : key ∈ m := mem_iff.mpr ⟨v, h2.holds.lookup hp⟩
      exact ⟨fun _ => ⟨rfl, hkept, chains2, h2⟩, fun hkey => absurd hmem hkey⟩
  refine hinsert.bind fun r hr => ⟨fun hmem => ?_, fun hkey => ?_⟩
  · obtain ⟨hfalse, hrest⟩ := hr.1 hmem
    exact ⟨by rw [hfalse]; rfl, hrest⟩
  · obtain ⟨htrue, hinserted⟩ := hr.2 hkey
    exact ⟨by rw [htrue]; rfl, hinserted⟩

lemma insert_erase (key : κ) (value : β) : (m.erase key).insert key value = m.insert key value := by
  refine ext_lookup fun k => ?_
  by_cases hk : k = key
  · rw [hk, lookup_insert, lookup_insert]
  · rw [lookup_insert_of_ne _ hk, lookup_insert_of_ne _ hk, lookup_erase_ne hk]

lemma Shape.write (h : Shape primes hasher s m chains none) {p : ℕ} {x : Item κ β} (hx : s.heap p = some x)
    (value : β) :
    Shape primes hasher { s with heap := Function.update s.heap p (some { x with value }) } (m.insert x.key value)
      chains none := by
  have hheap : ∀ q y, s.heap q = some y → ∃ y', Function.update s.heap p (some { x with value }) q = some y' ∧
      y'.key = y.key ∧ y'.index = y.index := fun q y hy => by
    rw [update_apply]
    split
    next heq =>
      rw [heq, hx] at hy
      obtain rfl := some.inj hy
      exact ⟨_, rfl, rfl, rfl⟩
    next => exact ⟨y, hy, rfl, rfl⟩
  have hback : ∀ q y', Function.update s.heap p (some { x with value }) q = some y' →
      ∃ y, s.heap q = some y ∧ y'.key = y.key := fun q y' hy' => by
    rw [update_apply] at hy'
    split at hy'
    next heq =>
      rw [← some.inj hy', heq]
      exact ⟨x, hx, rfl⟩
    next => exact ⟨y', hy', rfl⟩
  refine ⟨h.prime, h.table.congr fun i q hq => ?_, fun i q hq => ?_, fun q y' hy' _ => ?_, nofun, ?_, ?_,
    fun q hq => ?_, fun q hq => ?_⟩
  · change (Function.update s.heap p _ q).map Item.next = _
    rw [update_apply]
    split
    next heq =>
      rw [heq, hx]
      rfl
    next => rfl
  · obtain ⟨y, hy, hplaced, hindex⟩ := h.placed i q hq
    obtain ⟨y', hy', hkey, hindex'⟩ := hheap q y hy
    exact ⟨y', hy', by rw [hkey]; exact hplaced, hindex'.trans hindex⟩
  · obtain ⟨y, hy, hkey⟩ := hback q y' hy'
    rw [hkey]
    exact h.stored q y hy nofun
  · have hentry : entryAt { s with heap := Function.update s.heap p (some { x with value }) } =
        Function.update s.entryAt p (some (x.key, value)) := entryAt_update (some { x with value }) rfl
    rw [hentry, ← insert_erase]
    exact h.holds.replace value (entryAt_eq hx) (.inl rfl)
  · have hmem : x.key ∈ m := mem_iff.mpr ⟨x.value, h.holds.lookup (entryAt_eq hx)⟩
    have hcard := card_keys_erase m hmem
    rw [← insert_erase, card_keys_insert _ value (by rw [mem_erase]; exact fun hc => hc.1 rfl), hcard]
    exact h.size
  · obtain ⟨y, hy⟩ := h.cursor q hq
    obtain ⟨y', hy', -⟩ := hheap q y hy
    exact ⟨y', hy'⟩
  · have hnone := h.fresh q hq
    have hne : q ≠ p := by
      rintro rfl
      rw [hx] at hnone
      cases hnone
    exact (update_of_ne hne _ _).trans hnone

lemma update_spec (hprimes : Allocatable primes) (h : Shape primes hasher s m chains none) (key : κ) (value : β) :
    Yields (s.update primes hasher key value)
      (fun s' => ∃ chains', Shape primes hasher s' (m.insert key value) chains' none) (· = .exhausted) := by
  refine (itemLookup_spec hprimes h key).bind fun ⟨item, s1⟩ ⟨hfound, _, _, ⟨chains1, h1⟩, _⟩ => ?_
  cases item with
  | none =>
    refine (insert_spec hprimes h1 key value).bind fun r ⟨_, hnew⟩ => ?_
    exact (hnew hfound).2.shape
  | some p =>
    obtain ⟨v, hp⟩ := hfound
    obtain ⟨x, hx, rfl, -⟩ := entryAt_some hp
    have hderef : s1.deref p = .ok x := by rw [deref, hx]
    simp only [hderef, bind, bind]
    exact ⟨chains1, h1.write hx value⟩

lemma lookup_spec (hprimes : Allocatable primes) (h : Shape primes hasher s m chains none) (key : κ) :
    Yields (s.lookup primes hasher key)
      (fun r => r.1 = m.lookup key ∧ Kept s r.2 ∧ ∃ chains', Shape primes hasher r.2 m chains' none)
      (· = .exhausted) := by
  refine (itemLookup_spec hprimes h key).bind fun ⟨item, s1⟩ ⟨hfound, hkept, _, ⟨chains1, h1⟩, _⟩ => ?_
  cases item with
  | none => exact ⟨(lookup_eq_none.mpr hfound).symm, hkept, chains1, h1⟩
  | some p =>
    obtain ⟨v, hp⟩ := hfound
    obtain ⟨x, hx, hkey, hvalue⟩ := entryAt_some hp
    have hderef : s1.deref p = .ok x := by rw [deref, hx]
    simp only [hderef, bind, bind]
    refine ⟨?_, ⟨hkept.entry, hkept.size⟩, chains1, h1.prime, h1.table, h1.placed, h1.stored, h1.apart, h1.holds,
      h1.size, fun q hq => ?_, h1.fresh⟩
    · rw [h1.holds.lookup hp, hvalue]
    · exact ⟨x, by rw [← some.inj hq]; exact hx⟩

end Insert

/-! ### Taking an item out of its chain -/

/-- The list of primes has positive sizes that fit into 32 bits. -/
def Narrow (primes : List ℕ) : Prop := ∀ l ∈ primes, 0 < l ∧ l < 2 ^ 32

lemma Narrow.allocatable {primes : List ℕ} (h : Narrow primes) : Allocatable primes := fun l hl => by
  obtain ⟨hpos, hlt⟩ := h l hl
  exact ⟨hpos, by omega⟩

section Unlink

variable {primes : List ℕ} {hasher : κ → UInt64} {s s' : Zhash κ β} {m : Finmap fun _ : κ => β}
  {chains : ℕ → List ℕ}

variable {p : ℕ} {l₁ l₂ l : List ℕ}

omit [DecidableEq κ] in
lemma findPrev_spec {heap : ℕ → Option (Item κ β)} {head : Option ℕ} (fuel : ℕ)
    (prev : Option ℕ) (hchain : IsChain Item.next heap head (l1 ++ p :: l2)) (hp : p ∉ l1)
    (hfuel : l1.length < fuel) : findPrev heap p fuel prev head = .ok (l1.getLast?.or prev) := by
  induction l1 generalizing fuel prev head with
  | nil =>
    obtain ⟨rfl, -⟩ := hchain
    cases fuel with
    | zero => exact absurd hfuel (not_lt_zero _)
    | succ fuel => rw [findPrev, if_pos rfl]; rfl
  | cons q l1 ih =>
    obtain ⟨rfl, x, hx, hrest⟩ := hchain
    obtain ⟨hne, hp⟩ := not_or.mp (mem_cons.not.mp hp)
    cases fuel with
    | zero => exact absurd hfuel (not_lt_zero _)
    | succ fuel =>
      rw [findPrev, if_neg (Ne.symm hne), hx]
      refine (ih fuel (some q) hrest hp (lt_of_succ_lt_succ hfuel)).trans ?_
      rw [getLast?_cons]
      cases l1.getLast? <;> rfl

/-- Items keep what they are while some are taken out of their chains. -/
structure Unlinked (s s' : Zhash κ β) : Prop where
  items : ∀ p x, s.heap p = some x → ∃ x', s'.heap p = some x' ∧ x'.key = x.key ∧ x'.value = x.value ∧
    x'.index = x.index
  others : ∀ p, s.heap p = none → s'.heap p = none
  fields : s'.primeIndex = s.primeIndex ∧ s'.cachedIndex = s.cachedIndex ∧ s'.cursorItem = s.cursorItem ∧
    s'.fresh = s.fresh

omit [DecidableEq κ] in
lemma Unlinked.entryAt (h : Unlinked s s') : s'.entryAt = s.entryAt := by
  funext q
  rw [Zhash.entryAt, Zhash.entryAt]
  cases hq : s.heap q with
  | none => rw [h.others q hq]
  | some x =>
    obtain ⟨x', hx', hkey, hvalue, -⟩ := h.items q x hq
    rw [hx', map_some, map_some, Item.entry, Item.entry, hkey, hvalue]

lemma Shape.of_unlinked (h : Shape primes hasher s m chains none) (hunlinked : Unlinked s s')
    {chains' : ℕ → List ℕ} (hp : ∃ x, s.heap p = some x)
    (htable : IsTable Item.next s'.heap s'.items chains')
    (hmem : ∀ i q, q ∈ chains' i ↔ q ∈ chains i ∧ q ≠ p) (hsize : s'.size + 1 = s.size) :
    Shape primes hasher s' m chains' (some p) := by
  have hentry : s'.entryAt = s.entryAt := hunlinked.entryAt
  obtain ⟨hitems, hothers, hprime, -, hcursor, hfresh⟩ := hunlinked
  have hback : ∀ q x', s'.heap q = some x' → ∃ x, s.heap q = some x ∧ x'.key = x.key := fun q x' hx' => by
    cases hq : s.heap q with
    | none => cases hx'.symm.trans (hothers q hq)
    | some x =>
      obtain ⟨y, hy, hkey, -⟩ := hitems q x hq
      obtain rfl := some.inj (hx'.symm.trans hy)
      exact ⟨x, rfl, hkey⟩
  have hbucket : ∀ key, s'.bucket primes hasher key = s.bucket primes hasher key := fun key => by
    rw [bucket, bucket, limit, limit, hprime]
  refine ⟨by rw [hprime]; exact h.prime, htable, fun i q hq => ?_, fun q x' hx' hout => ?_, fun q hq => ?_, ?_, ?_,
    fun q hq => ?_, fun q hq => ?_⟩
  · obtain ⟨x, hx, hplaced, hindex⟩ := h.placed i q ((hmem i q).mp hq).1
    obtain ⟨x', hx', hkey, -, hindex'⟩ := hitems q x hx
    exact ⟨x', hx', by rw [hbucket, hkey]; exact hplaced, hindex'.trans hindex⟩
  · obtain ⟨x, hx, hkey⟩ := hback q x' hx'
    refine (hmem _ q).mpr ⟨?_, fun heq => hout (by rw [heq])⟩
    rw [hbucket, hkey]
    exact h.stored q x hx fun h => (by cases h)
  · obtain rfl := some.inj hq
    obtain ⟨x, hx⟩ := hp
    obtain ⟨x', hx', -⟩ := hitems p x hx
    exact ⟨⟨x', hx'⟩, fun i hmem' => ((hmem i p).mp hmem').2 rfl⟩
  · rw [hentry]
    exact h.holds
  · exact hsize.trans h.size
  · rw [hcursor] at hq
    obtain ⟨x, hx⟩ := h.cursor q hq
    obtain ⟨x', hx', -⟩ := hitems q x hx
    exact ⟨x', hx'⟩
  · rw [hfresh] at hq
    exact hothers q (h.fresh q hq)

variable {x : Item κ β}

lemma unlink_of_index (h : Shape primes hasher s m chains none) (hx : s.heap p = some x)
    (hindex : x.index.toNat = s.bucket primes hasher x.key)
    (hsplit : chains (s.bucket primes hasher x.key) = l1 ++ p :: l2) :
    ∃ s', s.unlink p = .ok s' ∧ Unlinked s s' ∧
      Shape primes hasher s' m (Function.update chains (s.bucket primes hasher x.key) (l1 ++ l2)) (some p) := by
  generalize s.bucket primes hasher x.key = i at hsplit hindex
  have hnodup : (l1 ++ p :: l2).Nodup := hsplit ▸ h.table.nodup i
  have hp : p ∉ l1 ∧ p ∉ l2 := by
    have hcons := (perm_middle.nodup_iff).mp hnodup
    exact ⟨fun hmem => (nodup_cons.mp hcons).1 (mem_append_left _ hmem),
      fun hmem => (nodup_cons.mp hcons).1 (mem_append_right _ hmem)⟩
  have hmem : ∀ j q, q ∈ Function.update chains i (l1 ++ l2) j ↔ q ∈ chains j ∧ q ≠ p := fun j q => by
    by_cases hj : j = i
    · rw [hj, update_self, hsplit]
      simp only [mem_append, mem_cons]
      constructor
      · rintro (hq | hq)
        · exact ⟨.inl hq, fun heq => hp.1 (heq ▸ hq)⟩
        · exact ⟨.inr (.inr hq), fun heq => hp.2 (heq ▸ hq)⟩
      · rintro ⟨hq | heq | hq, hne⟩
        · exact .inl hq
        · exact absurd heq hne
        · exact .inr hq
    · rw [update_of_ne hj]
      refine ⟨fun hq => ⟨hq, ?_⟩, And.left⟩
      rintro rfl
      exact hj (h.table.apart j i q hq (by rw [hsplit]; simp))
  have hlength : l1.length < s.size := by
    have hle := h.length_le i
    rw [hsplit, length_append, length_cons] at hle
    omega
  have hchain : IsChain Item.next s.heap (s.items i) (l1 ++ p :: l2) := hsplit ▸ h.table.chain i
  have hprev := findPrev_spec s.size none hchain hp.1 hlength
  have hderef : s.deref p = .ok x := by rw [deref, hx]
  have hsize : s.size - 1 + 1 = s.size := by omega
  rcases eq_nil_or_concat l1 with rfl | ⟨l1, q, rfl⟩
  · -- The item is the first: the array gets the next one.
    have hunlinked : Unlinked s { s with items := Function.update s.items i x.next, size := s.size - 1 } :=
      ⟨fun q y hy => ⟨y, hy, rfl, rfl, rfl⟩, fun q hq => hq, rfl, rfl, rfl, rfl⟩
    refine ⟨_, ?_, hunlinked, h.of_unlinked hunlinked ⟨x, hx⟩ ?_ hmem hsize⟩
    · simp only [unlink, hderef, hindex, hprev, bind, Except.bind]
      rfl
    · refine h.table.shorten ?_ (hchain.behind hx) fun _ _ _ _ => rfl
      rw [hsplit]
      exact sublist_cons_self p l2
  · -- The item before it gets the next one.
    rw [concat_eq_append] at hsplit hnodup hmem hchain hprev ⊢
    have hsplit' : l1 ++ [q] ++ p :: l2 = l1 ++ q :: p :: l2 := append_cons .. |>.symm
    rw [hsplit'] at hsplit hnodup hchain
    obtain ⟨y, hy⟩ : ∃ y, s.heap q = some y := hchain.mem (by simp)
    have hderef' : s.deref q = .ok y := by rw [deref, hy]
    have hheap : ∀ r z, s.heap r = some z →
        ∃ z', Function.update s.heap q (some { y with next := x.next }) r = some z' ∧
        z'.key = z.key ∧ z'.value = z.value ∧ z'.index = z.index := fun r z hz => by
      rw [update_apply]
      split
      next heq =>
        rw [heq, hy] at hz
        obtain rfl := some.inj hz
        exact ⟨_, rfl, rfl, rfl, rfl⟩
      next => exact ⟨z, hz, rfl, rfl, rfl⟩
    have hunlinked : Unlinked s
        { s with heap := Function.update s.heap q (some { y with next := x.next }), size := s.size - 1 } := by
      refine ⟨hheap, fun r hr => ?_, rfl, rfl, rfl, rfl⟩
      have hne : r ≠ q := by
        rintro rfl
        rw [hy] at hr
        cases hr
      exact (update_of_ne hne _ _).trans hr
    refine ⟨_, ?_, hunlinked, h.of_unlinked hunlinked ⟨x, hx⟩ ?_ hmem hsize⟩
    · have hprev' : findPrev s.heap p s.size none (s.items i) = .ok (some q) := by
        rw [hprev, getLast?_concat]
        rfl
      simp only [unlink, hderef, hindex, hprev', hderef', bind, Except.bind]
    · have hshort : IsChain Item.next (Function.update s.heap q (some { y with next := x.next })) (s.items i)
          (l1 ++ q :: l2) := hchain.unlink hnodup hx rfl
      have hsub : (l1 ++ q :: l2).Sublist (chains i) := by
        rw [hsplit]
        exact ((sublist_cons_self p l2).cons_cons q).append_left l1
      have htable := h.table.shorten hsub hshort fun j hj r hr => ?_
      · rw [update_eq_self] at htable
        rw [append_assoc]
        exact htable
      · have hne : r ≠ q := by
          rintro rfl
          exact hj (h.table.apart j i r hr (by rw [hsplit]; simp))
        rw [update_of_ne hne]

omit [DecidableEq κ] in
lemma findPrev_absent {heap : ℕ → Option (Item κ β)} {head : Option ℕ} (fuel : ℕ)
    (prev : Option ℕ) (hchain : IsChain Item.next heap head l) (hp : p ∉ l) (hfuel : l.length ≤ fuel) :
    findPrev heap p fuel prev head = .error .assertion := by
  induction l generalizing fuel prev head with
  | nil =>
    obtain rfl : head = none := hchain
    cases fuel <;> rfl
  | cons q l ih =>
    obtain ⟨rfl, x, hx, hrest⟩ := hchain
    obtain ⟨hne, hp⟩ := not_or.mp (mem_cons.not.mp hp)
    cases fuel with
    | zero => exact absurd hfuel (not_succ_le_zero _)
    | succ fuel =>
      rw [findPrev, if_neg (Ne.symm hne), hx]
      exact ih fuel (some q) hrest hp (le_of_succ_le_succ hfuel)

/-- The index of an item does not fit into 32 bits. -/
def Truncated (primes : List ℕ) (e : CzmqFault) : Prop := e = .assertion ∧ ¬ Narrow primes

lemma unlink_yields (hprimes : Allocatable primes) (h : Shape primes hasher s m chains none)
    (hx : s.heap p = some x) (hsplit : chains (s.bucket primes hasher x.key) = l1 ++ p :: l2) :
    Yields (s.unlink p) (fun s' => Unlinked s s' ∧
      Shape primes hasher s' m (Function.update chains (s.bucket primes hasher x.key) (l1 ++ l2)) (some p))
      (Truncated primes) := by
  by_cases hindex : x.index.toNat = s.bucket primes hasher x.key
  · obtain ⟨s', hok, hunlinked, hshape⟩ := unlink_of_index h hx hindex hsplit
    rw [hok]
    exact ⟨hunlinked, hshape⟩
  · have hplaced : p ∈ chains (s.bucket primes hasher x.key) := by
      rw [hsplit]
      exact mem_append_right _ mem_cons_self
    have habsent : p ∉ chains x.index.toNat := fun hmem => hindex (h.table.apart _ _ p hmem hplaced)
    have hprev := findPrev_absent s.size none (h.table.chain x.index.toNat) habsent (h.length_le _)
    have hderef : s.deref p = .ok x := by rw [deref, hx]
    simp only [unlink, hderef, hprev, bind, Except.bind]
    refine ⟨rfl, fun hnarrow => hindex ?_⟩
    obtain ⟨y, hy, -, hyi⟩ := h.placed _ p hplaced
    obtain rfl := some.inj (hx.symm.trans hy)
    rw [hyi]
    exact UInt32.toNat_ofNat_of_lt' ((h.bucket_lt hprimes x.key).trans (hnarrow _ h.limit_mem).2)

lemma Shape.free (h : Shape primes hasher s m chains (some p)) (hx : s.heap p = some x) :
    Shape primes hasher
      { s with cursorItem := none, cursorKey := none, heap := Function.update s.heap p none } (m.erase x.key)
      chains none := by
  have hnot : ∀ i, p ∉ chains i := (h.apart p rfl).2
  have hne : ∀ i, ∀ q ∈ chains i, q ≠ p := fun i q hq heq => hnot i (heq ▸ hq)
  refine ⟨h.prime, h.table.congr fun i q hq => ?_, fun i q hq => ?_, fun q y hy _ => ?_, nofun, ?_, ?_, nofun,
    fun q hq => ?_⟩
  · exact congrArg (Option.map Item.next) (update_of_ne (hne i q hq) _ _)
  · obtain ⟨y, hy, hplaced⟩ := h.placed i q hq
    exact ⟨y, (update_of_ne (hne i q hq) _ _).trans hy, hplaced⟩
  · change Function.update s.heap p none q = some y at hy
    rw [update_apply] at hy
    split at hy
    next => cases hy
    next hqp => exact h.stored q y hy fun heq => hqp (some.inj heq).symm
  · have hentry : entryAt { s with cursorItem := none, cursorKey := none, heap := Function.update s.heap p none } =
        Function.update s.entryAt p none := entryAt_update none rfl
    rw [hentry]
    exact h.holds.erase (entryAt_eq hx)
  · have hmem : x.key ∈ m := mem_iff.mpr ⟨x.value, h.holds.lookup (entryAt_eq hx)⟩
    exact succ.inj (h.size.trans (card_keys_erase m hmem).symm)
  · change Function.update s.heap p none q = none
    rw [update_apply]
    split
    · rfl
    · exact h.fresh q hq

lemma itemDestroy_yields (hprimes : Allocatable primes) (h : Shape primes hasher s m chains none)
    (hx : s.heap p = some x) (hsplit : chains (s.bucket primes hasher x.key) = l1 ++ p :: l2) :
    Yields (s.itemDestroy p) (fun s' => s'.primeIndex = s.primeIndex ∧
      s'.entryAt = Function.update s.entryAt p none ∧ Shape primes hasher s' (m.erase x.key)
        (Function.update chains (s.bucket primes hasher x.key) (l1 ++ l2)) none) (Truncated primes) := by
  refine (unlink_yields hprimes h hx hsplit).bind fun s1 ⟨hunlinked, hshape⟩ => ?_
  obtain ⟨x', hx', hkey, -⟩ := hunlinked.items p x hx
  refine ⟨hunlinked.fields.1, ?_, ?_⟩
  · rw [← hunlinked.entryAt]
    exact entryAt_update none rfl
  · have hfreed := hshape.free hx'
    rw [hkey] at hfreed
    exact hfreed

lemma itemDestroy_spec (hprimes : Narrow primes) (h : Shape primes hasher s m chains none)
    (hx : s.heap p = some x) (hsplit : chains (s.bucket primes hasher x.key) = l1 ++ p :: l2) :
    ∃ s', s.itemDestroy p = .ok s' ∧ s'.primeIndex = s.primeIndex ∧
      s'.entryAt = Function.update s.entryAt p none ∧ Shape primes hasher s' (m.erase x.key)
        (Function.update chains (s.bucket primes hasher x.key) (l1 ++ l2)) none := by
  have hdestroyed := itemDestroy_yields hprimes.allocatable h hx hsplit
  cases hr : s.itemDestroy p with
  | error e =>
    rw [hr] at hdestroyed
    exact absurd hprimes hdestroyed.2
  | ok s' =>
    rw [hr] at hdestroyed
    exact ⟨s', rfl, hdestroyed⟩

/-- The list of primes is exhausted, or the index of an item does not fit into 32 bits. -/
def Outgrown (primes : List ℕ) (e : CzmqFault) : Prop := e = .exhausted ∨ Truncated primes e

lemma Outgrown.exhausted {e : CzmqFault} (h : Outgrown primes e) (hprimes : Narrow primes) : e = .exhausted :=
  h.resolve_right fun htruncated => htruncated.2 hprimes

lemma delete_yields (hprimes : Allocatable primes) (h : Shape primes hasher s m chains none) (key : κ) :
    Yields (s.delete primes hasher key)
      (fun s' => (∀ p value, s.entryAt p = some (key, value) → s'.entryAt = Function.update s.entryAt p none) ∧
        ∃ chains', Shape primes hasher s' (m.erase key) chains' none)
      (Outgrown primes) := by
  refine ((itemLookup_spec hprimes h key).mono_error fun _ => .inl).bind
    fun ⟨item, s1⟩ ⟨hfound, hkept, _, ⟨chains1, h1⟩, _⟩ => ?_
  cases item with
  | none =>
    have hsame : m.erase key = m := by
      refine ext_lookup fun k => ?_
      by_cases hk : k = key
      · rw [hk, lookup_erase, lookup_eq_none.mpr hfound]
      · rw [lookup_erase_ne hk]
    rw [hsame]
    refine ⟨fun p value hp => ?_, chains1, h1⟩
    exact absurd (mem_iff.mpr ⟨value, h.holds.lookup hp⟩) hfound
  | some p =>
    obtain ⟨v, hp⟩ := hfound
    obtain ⟨x, hx, rfl, -⟩ := entryAt_some hp
    obtain ⟨l1, l2, hsplit⟩ := append_of_mem (h1.stored p x hx nofun)
    refine ((itemDestroy_yields hprimes h1 hx hsplit).mono fun s2 ⟨_, hentry, hshape⟩ => ?_).mono_error
      fun _ => .inr
    refine ⟨fun q value hq => ?_, _, hshape⟩
    rw [hkept.entry] at hp
    rw [hentry, funext hkept.entry, h.holds.distinct q p _ value v hq hp]

lemma delete_spec (hprimes : Narrow primes) (h : Shape primes hasher s m chains none) (key : κ) :
    Yields (s.delete primes hasher key)
      (fun s' => (∀ p value, s.entryAt p = some (key, value) → s'.entryAt = Function.update s.entryAt p none) ∧
        ∃ chains', Shape primes hasher s' (m.erase key) chains' none)
      (· = .exhausted) :=
  (delete_yields hprimes.allocatable h key).mono_error fun _ he => he.exhausted hprimes

lemma Shape.rekey (h : Shape primes hasher s m chains (some p)) (hx : s.heap p = some x)
    {key : κ} (hkey : key ∉ m) (hcached : s.cachedIndex = s.bucket primes hasher key) :
    Shape primes hasher (s.rekey p x key) ((m.erase x.key).insert key x.value)
      (Function.update chains s.cachedIndex (p :: chains s.cachedIndex)) none := by
  have hnot : ∀ i, p ∉ chains i := (h.apart p rfl).2
  have hheap : ∀ q, (s.rekey p x key).heap q = if q = p then
      some { x with key, index := UInt32.ofNat s.cachedIndex, next := s.items s.cachedIndex } else s.heap q :=
    fun q => update_apply _ _ _ _
  refine ⟨h.prime, h.table.push hnot rfl, fun i q hq => ?_, fun q y hy _ => ?_, nofun, ?_, ?_, fun q hq => ?_,
    fun q hq => ?_⟩
  · rw [hheap]
    rw [update_apply] at hq
    have hcases : (q = p ∧ i = s.cachedIndex) ∨ q ∈ chains i := by
      split at hq
      next hi => exact (mem_cons.mp hq).imp (fun heq => ⟨heq, hi⟩) fun hmem => hi ▸ hmem
      next => exact .inr hq
    rcases hcases with ⟨rfl, rfl⟩ | hq
    · exact ⟨_, if_pos rfl, hcached.symm, rfl⟩
    · obtain ⟨y, hy, hplaced⟩ := h.placed i q hq
      have hne : q ≠ p := fun heq => hnot i (heq ▸ hq)
      exact ⟨y, by rw [if_neg hne]; exact hy, hplaced⟩
  · rw [hheap] at hy
    change q ∈ Function.update chains s.cachedIndex _ (s.bucket primes hasher y.key)
    rw [update_apply]
    split at hy
    next heq =>
      have hindex : s.bucket primes hasher y.key = s.cachedIndex := by rw [← some.inj hy, hcached]
      rw [heq, if_pos hindex]
      exact mem_cons_self
    next hne =>
      have hmem := h.stored q y hy fun heq => hne (some.inj heq).symm
      split
      next heq => exact mem_cons_of_mem _ (heq ▸ hmem)
      next => exact hmem
  · have hentry : (s.rekey p x key).entryAt = Function.update s.entryAt p (some (key, x.value)) :=
      entryAt_update (some { x with key, index := UInt32.ofNat s.cachedIndex, next := s.items s.cachedIndex }) rfl
    rw [hentry]
    exact h.holds.replace x.value (entryAt_eq hx) (.inr hkey)
  · have hmem : x.key ∈ m := mem_iff.mpr ⟨x.value, h.holds.lookup (entryAt_eq hx)⟩
    rw [card_keys_insert _ _ (by rw [mem_erase]; exact fun hc => hkey hc.2), card_keys_erase m hmem]
    exact h.size
  · obtain rfl : p = q := some.inj hq
    exact ⟨_, by rw [hheap, if_pos rfl]⟩
  · have hnone := h.fresh q hq
    rw [hheap, if_neg]
    · exact hnone
    · rintro rfl
      rw [hx] at hnone
      cases hnone

lemma rename_yields (hprimes : Allocatable primes) (h : Shape primes hasher s m chains none) (oldKey newKey : κ) :
    Yields (s.rename primes hasher oldKey newKey)
      (fun r => (∀ value, m.lookup oldKey = some value → newKey ∉ m → r.1 = 0 ∧
          ∃ chains', Shape primes hasher r.2 ((m.erase oldKey).insert newKey value) chains' none) ∧
        (oldKey ∉ m ∨ newKey ∈ m → r.1 = -1 ∧ ∃ chains', Shape primes hasher r.2 m chains' none))
      (Outgrown primes) := by
  refine ((itemLookup_spec hprimes h oldKey).mono_error fun _ => .inl).bind
    fun ⟨oldItem, s1⟩ ⟨hold, _, _, ⟨chains1, h1⟩, _⟩ => ?_
  refine ((itemLookup_spec hprimes h1 newKey).mono_error fun _ => .inl).bind
    fun ⟨newItem, s2⟩ ⟨hnew, hkept, hcached, ⟨chains2, h2⟩, _⟩ => ?_
  cases oldItem with
  | none =>
    refine ⟨fun value hvalue _ => ?_, fun _ => ⟨rfl, chains2, h2⟩⟩
    exact absurd (mem_iff.mpr ⟨value, hvalue⟩) hold
  | some p =>
    obtain ⟨v, hp⟩ := hold
    have holdMem : m.lookup oldKey = some v := h1.holds.lookup hp
    cases newItem with
    | some q =>
      obtain ⟨w, hq⟩ := hnew
      have hnewMem : newKey ∈ m := mem_iff.mpr ⟨w, h2.holds.lookup hq⟩
      exact ⟨fun _ _ hnot => absurd hnewMem hnot, fun _ => ⟨rfl, chains2, h2⟩⟩
    | none =>
      rw [← hkept.entry] at hp
      obtain ⟨x, hx, rfl, rfl⟩ := entryAt_some hp
      obtain ⟨l1, l2, hsplit⟩ := append_of_mem (h2.stored p x hx nofun)
      refine ((unlink_yields hprimes h2 hx hsplit).mono_error fun _ => .inr).bind fun s3 ⟨hunlinked, hshape⟩ => ?_
      obtain ⟨x', hx', hkey, hvalue, -⟩ := hunlinked.items p x hx
      have hderef : s3.deref p = .ok x' := by rw [deref, hx']
      have hcached' : s3.cachedIndex = s3.bucket primes hasher newKey := by
        rw [hunlinked.fields.2.1, hcached, bucket, bucket, limit, limit, hunlinked.fields.1]
      have hrekeyed := hshape.rekey hx' hnew hcached'
      rw [hkey, hvalue] at hrekeyed
      simp only [hderef, bind, bind]
      refine ⟨fun value hval _ => ?_, fun hor => ?_⟩
      · obtain rfl := some.inj (holdMem.symm.trans hval)
        exact ⟨rfl, _, hrekeyed⟩
      · exact absurd hor (not_or.mpr ⟨not_not.mpr (mem_iff.mpr ⟨x.value, holdMem⟩), hnew⟩)

end Unlink

end Zhash

end Czmq
