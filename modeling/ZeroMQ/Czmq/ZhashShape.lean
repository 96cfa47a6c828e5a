import Mathlib.Data.List.GetD
import ZeroMQ.Czmq.Slots
import ZeroMQ.Czmq.Zhash

/-!
# The shape of a hash table

In a table that has the right shape every item is in the chain of its key, once, its index is that of the chain
as far as 32 bits go, and the items are the entries of a finite map. Rehashing and searching keep the shape;
they need no index, so that this holds of tables of every size.
-/

namespace Czmq

open Foundation Function List Nat

variable {κ β : Type} [DecidableEq κ]

/-- The key and the value of an item. -/
def Item.entry (x : Item κ β) : κ × β := (x.key, x.value)

namespace Zhash

/-- The entry at a pointer. -/
def entryAt (s : Zhash κ β) (p : ℕ) : Option (κ × β) := (s.heap p).map Item.entry

/-- The index of the chain of a key. -/
def bucket (primes : List ℕ) (hasher : κ → UInt64) (s : Zhash κ β) (key : κ) : ℕ :=
  (hasher key).toNat % s.limit primes

/-- The shape of a table with the entries of a map. An item may be `out` of its chain. -/
structure Shape (primes : List ℕ) (hasher : κ → UInt64) (s : Zhash κ β) (m : Finmap fun _ : κ => β)
    (chains : ℕ → List ℕ) (out : Option ℕ) : Prop where
  prime : s.primeIndex < primes.length
  table : IsTable Item.next s.heap s.items chains
  /-- What is in a chain is an item of the chain, with its index. -/
  placed : ∀ i, ∀ p ∈ chains i, ∃ x, s.heap p = some x ∧ s.bucket primes hasher x.key = i ∧ x.index = UInt32.ofNat i
  stored : ∀ p x, s.heap p = some x → out ≠ some p → p ∈ chains (s.bucket primes hasher x.key)
  apart : ∀ p, out = some p → (∃ x, s.heap p = some x) ∧ ∀ i, p ∉ chains i
  holds : Holds s.entryAt m
  size : s.size + out.toList.length = m.keys.card
  cursor : ∀ p, s.cursorItem = some p → ∃ x, s.heap p = some x
  fresh : ∀ p, s.fresh ≤ p → s.heap p = none

/-- The list of primes has positive sizes, for which an array can be allocated. -/
def Allocatable (primes : List ℕ) : Prop := ∀ l ∈ primes, 0 < l ∧ 8 * l < 2 ^ 64

section Shape

variable {primes : List ℕ} {hasher : κ → UInt64} {s s' : Zhash κ β} {m : Finmap fun _ : κ => β}
  {chains : ℕ → List ℕ} {out : Option ℕ}

omit [DecidableEq κ] in
lemma entryAt_eq {p : ℕ} {x : Item κ β} (h : s.heap p = some x) : s.entryAt p = some (x.key, x.value) := by
  rw [entryAt, h]
  rfl

omit [DecidableEq κ] in
lemma entryAt_some {p : ℕ} {key : κ} {value : β} (h : s.entryAt p = some (key, value)) :
    ∃ x, s.heap p = some x ∧ x.key = key ∧ x.value = value := by
  obtain ⟨x, hx, heq⟩ := Option.map_eq_some_iff.mp h
  exact ⟨x, hx, congrArg Prod.fst heq, congrArg Prod.snd heq⟩

lemma Shape.limit_mem (h : Shape primes hasher s m chains out) : s.limit primes ∈ primes := by
  rw [limit, getD_eq_getElem _ _ h.prime]
  exact getElem_mem h.prime

lemma Shape.bucket_lt (h : Shape primes hasher s m chains out) (hprimes : Allocatable primes) (key : κ) :
    s.bucket primes hasher key < s.limit primes :=
  mod_lt _ (hprimes _ h.limit_mem).1

lemma Shape.length_le (h : Shape primes hasher s m chains none) (i : ℕ) : (chains i).length ≤ s.size := by
  have hsize : s.size = m.keys.card := h.size
  rw [hsize]
  refine h.holds.length_le (h.table.nodup i) fun p hp => ?_
  obtain ⟨x, hx, -⟩ := h.placed i p hp
  exact ⟨_, entryAt_eq hx⟩

end Shape

/-! ### Rehashing -/

section Rehash

variable {hasher : κ → UInt64} {newLimit : ℕ} {old old' : ℕ → Prop} {heap heap₁ heap₂ : ℕ → Option (Item κ β)}
  {chains chains₁ chains₂ : ℕ → List ℕ}

/-- The items among `old` have been moved to their new chains. -/
structure Moved (hasher : κ → UInt64) (newLimit : ℕ) (old : ℕ → Prop) (heap heap' : ℕ → Option (Item κ β))
    (chains chains' : ℕ → List ℕ) : Prop where
  mem : ∀ i p, p ∈ chains' i ↔ p ∈ chains i ∨ (old p ∧ ∃ x, heap p = some x ∧ (hasher x.key).toNat % newLimit = i)
  others : ∀ p, ¬ old p → heap' p = heap p
  items : ∀ p x, old p → heap p = some x → ∃ x', heap' p = some x' ∧ x'.key = x.key ∧ x'.value = x.value ∧
    x'.index = UInt32.ofNat ((hasher x.key).toNat % newLimit)

omit [DecidableEq κ] in
lemma Moved.refl (hnone : ∀ p, ¬ old p) : Moved hasher newLimit old heap heap chains chains where
  mem _ p := ⟨.inl, fun h => h.resolve_right fun hmoved => hnone p hmoved.1⟩
  others _ _ := rfl
  items p _ hp := absurd hp (hnone p)

omit [DecidableEq κ] in
lemma Moved.trans (h : Moved hasher newLimit old heap heap1 chains chains1)
    (h' : Moved hasher newLimit old' heap1 heap2 chains1 chains2) (hapart : ∀ p, old p → ¬ old' p) :
    Moved hasher newLimit (fun p => old p ∨ old' p) heap heap2 chains chains2 where
  mem i p := by
    rw [h'.mem, h.mem, or_assoc]
    refine or_congr_right ?_
    have hsame : old' p → heap1 p = heap p := fun hp => h.others p fun hold => hapart p hold hp
    constructor
    · rintro (⟨hp, x, hx, hi⟩ | ⟨hp, x, hx, hi⟩)
      · exact ⟨.inl hp, x, hx, hi⟩
      · exact ⟨.inr hp, x, by rw [← hsame hp]; exact hx, hi⟩
    · rintro ⟨hp | hp, x, hx, hi⟩
      · exact .inl ⟨hp, x, hx, hi⟩
      · exact .inr ⟨hp, x, by rw [hsame hp]; exact hx, hi⟩
  others p hp := by
    rw [h'.others p fun hold => hp (.inr hold), h.others p fun hold => hp (.inl hold)]
  items p x hp hx := by
    by_cases hold : old p
    · obtain ⟨x', hx', hmoved⟩ := h.items p x hold hx
      exact ⟨x', by rw [h'.others p (hapart p hold)]; exact hx', hmoved⟩
    · exact h'.items p x (hp.resolve_left hold) (by rw [h.others p hold]; exact hx)

omit [DecidableEq κ] in
lemma Moved.iff (h : Moved hasher newLimit old heap heap1 chains chains1) (hiff : ∀ p, old p ↔ old' p) :
    Moved hasher newLimit old' heap heap1 chains chains1 := by
  rwa [← funext fun p => propext (hiff p)]

omit [DecidableEq κ] in
lemma Moved.one {p : ℕ} {x x' : Item κ β} (hx : heap p = some x) (hkey : x'.key = x.key)
    (hvalue : x'.value = x.value) (hindex : x'.index = UInt32.ofNat ((hasher x.key).toNat % newLimit)) :
    Moved hasher newLimit (· = p) heap (Function.update heap p (some x')) chains
      (Function.update chains ((hasher x.key).toNat % newLimit)
        (p :: chains ((hasher x.key).toNat % newLimit))) where
  mem i q := by
    rw [update_apply]
    constructor
    · intro hq
      split at hq
      next hi =>
        rcases mem_cons.mp hq with rfl | hq
        · exact .inr ⟨rfl, x, hx, hi.symm⟩
        · exact .inl (hi ▸ hq)
      next => exact .inl hq
    · rintro (hq | ⟨rfl, y, hy, rfl⟩)
      · split
        next hi => exact mem_cons_of_mem _ (hi ▸ hq)
        next => exact hq
      · obtain rfl := Option.some.inj (hx.symm.trans hy)
        rw [if_pos rfl]
        exact mem_cons_self
  others q hq := update_of_ne hq _ _
  items q y hq hy := by
    obtain rfl : q = p := hq
    obtain rfl := Option.some.inj (hx.symm.trans hy)
    exact ⟨x', update_self _ _ _, hkey, hvalue, hindex⟩

variable (hasher newLimit)

omit [DecidableEq κ] in
lemma moveChain_spec {items : ℕ → Option ℕ} {head : Option ℕ} {l : List ℕ} (fuel : ℕ)
    (hchain : IsChain Item.next heap head l) (hfuel : l.length ≤ fuel) (hnodup : l.Nodup)
    (htable : IsTable Item.next heap items chains) (hnew : ∀ i, ∀ p ∈ l, p ∉ chains i) :
    ∃ items' heap' chains', moveChain hasher newLimit fuel head items heap = .ok (items', heap') ∧
      IsTable Item.next heap' items' chains' ∧ Moved hasher newLimit (· ∈ l) heap heap' chains chains' := by
  induction l generalizing fuel head items heap chains with
  | nil =>
    obtain rfl : head = none := hchain
    exact ⟨items, heap, chains, by cases fuel <;> rfl, htable, .refl fun p hp => (by cases hp)⟩
  | cons p l ih =>
    obtain ⟨rfl, x, hx, hrest⟩ := hchain
    obtain ⟨hp, hnodup⟩ := nodup_cons.mp hnodup
    cases fuel with
    | zero => exact absurd hfuel (by simp)
    | succ fuel =>
      have hpnew : ∀ i, p ∉ chains i := fun i => hnew i p mem_cons_self
      -- The item goes to the front of its chain, and the others are still behind it.
      let x' : Item κ β := { x with
        index := UInt32.ofNat ((hasher x.key).toNat % newLimit)
        next := items ((hasher x.key).toNat % newLimit) }
      have htable' := htable.push hpnew (show x'.next = items ((hasher x.key).toNat % newLimit) from rfl)
      have hone : Moved hasher newLimit (· = p) heap (Function.update heap p (some x')) chains _ :=
        .one hx rfl rfl rfl
      have hnew' : ∀ i, ∀ q ∈ l, q ∉ Function.update chains ((hasher x.key).toNat % newLimit)
          (p :: chains ((hasher x.key).toNat % newLimit)) i := fun i q hq hmem => by
        rcases (hone.mem i q).mp hmem with hmem | ⟨rfl, -⟩
        · exact hnew i q (mem_cons_of_mem _ hq) hmem
        · exact hp hq
      obtain ⟨items', heap', chains', hok, htable'', hmoved⟩ :=
        ih fuel (hrest.update hp _) (le_of_succ_le_succ hfuel) hnodup htable' hnew'
      refine ⟨items', heap', chains', by rw [moveChain, hx]; exact hok, htable'', ?_⟩
      refine (hone.trans hmoved fun q hq hmem => hp ?_).iff fun q => mem_cons.symm
      rwa [← show q = p from hq]

omit [DecidableEq κ] in
lemma moveChains_spec (s : Zhash κ β) {items : ℕ → Option ℕ} (n index : ℕ) {oldChains : ℕ → List ℕ}
    (hchain : ∀ i, index ≤ i → IsChain Item.next heap (s.items i) (oldChains i))
    (hfuel : ∀ i, (oldChains i).length ≤ s.size) (hnodup : ∀ i, (oldChains i).Nodup)
    (hapart : ∀ i j p, p ∈ oldChains i → p ∈ oldChains j → i = j)
    (htable : IsTable Item.next heap items chains)
    (hnew : ∀ i j, index ≤ i → ∀ p ∈ oldChains i, p ∉ chains j) :
    ∃ items' heap' chains', s.moveChains hasher newLimit n index items heap = .ok (items', heap') ∧
      IsTable Item.next heap' items' chains' ∧
      Moved hasher newLimit (fun p => ∃ i, index ≤ i ∧ i < index + n ∧ p ∈ oldChains i) heap heap' chains chains' := by
  induction n generalizing index items heap chains with
  | zero =>
    refine ⟨items, heap, chains, rfl, htable, .refl ?_⟩
    rintro p ⟨i, hle, hlt, -⟩
    omega
  | succ n ih =>
    obtain ⟨items1, heap1, chains1, hok, htable1, hmoved⟩ := moveChain_spec hasher newLimit s.size
      (hchain index le_rfl) (hfuel index) (hnodup index) htable fun i => hnew index i le_rfl
    have hlater : ∀ i, index + 1 ≤ i → ∀ p ∈ oldChains i, p ∉ oldChains index := fun i hi p hp hmem => by
      have heq := hapart i index p hp hmem
      omega
    have hchain1 : ∀ i, index + 1 ≤ i → IsChain Item.next heap1 (s.items i) (oldChains i) := fun i hi =>
      (hchain i (by omega)).congr fun p hp => by rw [hmoved.others p (hlater i hi p hp)]
    have hnew1 : ∀ i j, index + 1 ≤ i → ∀ p ∈ oldChains i, p ∉ chains1 j := fun i j hi p hp hmem => by
      rcases (hmoved.mem j p).mp hmem with hmem | ⟨hold, -⟩
      · exact hnew i j (by omega) p hp hmem
      · exact hlater i hi p hp hold
    obtain ⟨items', heap', chains', hok', htable', hmoved'⟩ := ih (index + 1) hchain1 htable1 hnew1
    refine ⟨items', heap', chains', ?_, htable', (hmoved.trans hmoved' ?_).iff fun p => ?_⟩
    · simp only [moveChains, hok, bind, Except.bind]
      exact hok'
    · rintro p hp ⟨i, hi, -, hmem⟩
      exact hlater i hi p hmem hp
    · constructor
      · rintro (hp | ⟨i, hle, hlt, hp⟩)
        · exact ⟨index, le_rfl, by omega, hp⟩
        · exact ⟨i, by omega, by omega, hp⟩
      · rintro ⟨i, hle, hlt, hp⟩
        rcases eq_or_lt_of_le hle with rfl | hlt'
        · exact .inl hp
        · exact .inr ⟨i, hlt', by omega, hp⟩

end Rehash

section Rehash

variable {primes : List ℕ} {hasher : κ → UInt64} {s s' : Zhash κ β} {m : Finmap fun _ : κ => β}
  {chains : ℕ → List ℕ}

/-- What a search, and the rehashing it may do, leaves as it is. -/
structure Kept (s s' : Zhash κ β) : Prop where
  entry : ∀ p, s'.entryAt p = s.entryAt p
  size : s'.size = s.size

omit [DecidableEq κ] in
lemma Kept.trans {s1 s2 s3 : Zhash κ β} (h : Kept s1 s2) (h' : Kept s2 s3) : Kept s1 s3 :=
  ⟨fun p => (h'.entry p).trans (h.entry p), h'.size.trans h.size⟩

/-- The list of primes has no such index. -/
def Beyond (primes : List ℕ) (index : ℕ) (e : CzmqFault) : Prop := e = .exhausted ∧ primes.length ≤ index

lemma rehash_spec (hprimes : Allocatable primes) (h : Shape primes hasher s m chains none) (newPrimeIndex : ℕ) :
    Yields (s.rehash primes hasher newPrimeIndex)
      (fun s' => Kept s s' ∧ s'.primeIndex = newPrimeIndex ∧ s'.chainLimit = s.chainLimit ∧
        ∃ chains', Shape primes hasher s' m chains' none)
      (Beyond primes newPrimeIndex) := by
  rw [rehash]
  cases hlimit : primes[newPrimeIndex]? with
  | none => exact ⟨rfl, List.getElem?_eq_none_iff.mp hlimit⟩
  | some newLimit =>
    obtain ⟨hpos, hsize⟩ := hprimes newLimit (List.mem_of_getElem? hlimit)
    obtain ⟨items', heap', chains', hok, htable, hmoved⟩ := moveChains_spec hasher newLimit s (s.limit primes) 0
      (fun i _ => h.table.chain i) h.length_le h.table.nodup h.table.apart (isTable_empty Item.next s.heap)
      fun i j _ p _ hmem => (by cases hmem)
    -- What is moved is what is on the heap.
    have hmoved : Moved hasher newLimit (fun p => ∃ x, s.heap p = some x) s.heap heap' (fun _ => []) chains' := by
      refine hmoved.iff fun p => ?_
      constructor
      · rintro ⟨i, -, -, hp⟩
        obtain ⟨x, hx, -⟩ := h.placed i p hp
        exact ⟨x, hx⟩
      · rintro ⟨x, hx⟩
        have hlt := h.bucket_lt hprimes x.key
        exact ⟨_, zero_le _, by omega, h.stored p x hx nofun⟩
    have hentry : ∀ p, (heap' p).map Item.entry = (s.heap p).map Item.entry := fun p => by
      cases hp : s.heap p with
      | none => rw [hmoved.others p (by rw [hp]; exact nofun), hp]
      | some x =>
        obtain ⟨x', hx', hkey, hvalue, -⟩ := hmoved.items p x ⟨x, hp⟩ hp
        rw [hx', Option.map_some, Option.map_some, Item.entry, Item.entry, hkey, hvalue]
    have hheap : ∀ p x', heap' p = some x' → ∃ x, s.heap p = some x ∧ x'.key = x.key ∧
        x'.index = UInt32.ofNat ((hasher x.key).toNat % newLimit) := fun p x' hx' => by
      cases hp : s.heap p with
      | none =>
        rw [hmoved.others p (by rw [hp]; exact nofun), hp] at hx'
        cases hx'
      | some x =>
        obtain ⟨y, hy, hkey, -, hindex⟩ := hmoved.items p x ⟨x, hp⟩ hp
        obtain rfl := Option.some.inj (hx'.symm.trans hy)
        exact ⟨x, rfl, hkey, hindex⟩
    have hlim : (primes.getD newPrimeIndex 0) = newLimit := by rw [List.getD_eq_getElem?_getD, hlimit]; rfl
    simp only [if_neg (not_le.mpr hsize), hok, bind, Except.bind]
    refine ⟨⟨hentry, rfl⟩, rfl, rfl, chains', ?_⟩
    have hbucket : ∀ key, bucket primes hasher { s with items := items', heap := heap', primeIndex := newPrimeIndex }
        key = (hasher key).toNat % newLimit := fun key => by rw [bucket, limit, hlim]
    refine ⟨(List.getElem?_eq_some_iff.mp hlimit).1, htable, fun i p hp => ?_, fun p x' hx' _ => ?_, nofun, ?_,
      h.size, fun p hp => ?_, fun p hp => ?_⟩
    · obtain ⟨hold, x, hx, hi⟩ := ((hmoved.mem i p).mp hp).resolve_left fun hmem => (by cases hmem)
      obtain ⟨x', hx', hkey, -, hindex⟩ := hmoved.items p x hold hx
      exact ⟨x', hx', by rw [hbucket, hkey, hi], by rw [hindex, hi]⟩
    · obtain ⟨x, hx, hkey, -⟩ := hheap p x' hx'
      exact (hmoved.mem _ p).mpr (.inr ⟨⟨x, hx⟩, x, hx, by rw [hbucket, hkey]⟩)
    · have hsame : entryAt { s with items := items', heap := heap', primeIndex := newPrimeIndex } = s.entryAt :=
        funext hentry
      rw [hsame]
      exact h.holds
    · obtain ⟨x, hx⟩ := h.cursor p hp
      obtain ⟨x', hx', -⟩ := hmoved.items p x ⟨x, hx⟩ hx
      exact ⟨x', hx'⟩
    · have hnone := h.fresh p hp
      exact (hmoved.others p (by rw [hnone]; exact nofun)).trans hnone

end Rehash

/-! ### Searching -/

section Lookup

variable {primes : List ℕ} {hasher : κ → UInt64} {s s' : Zhash κ β} {m : Finmap fun _ : κ => β}
  {chains : ℕ → List ℕ}

lemma walk_spec {heap : ℕ → Option (Item κ β)} (key : κ) {head : Option ℕ} {l : List ℕ} (fuel len : ℕ)
    (hchain : IsChain Item.next heap head l) (hfuel : l.length ≤ fuel) :
    ∃ found n, walk heap key fuel head len = .ok (found, n) ∧
      (∀ p, found = some p → ∃ x, heap p = some x ∧ x.key = key) ∧
      (found = none → n = len + l.length ∧ ∀ p ∈ l, ∀ x, heap p = some x → x.key ≠ key) := by
  induction l generalizing fuel len head with
  | nil =>
    obtain rfl : head = none := hchain
    exact ⟨none, len, by cases fuel <;> rfl, nofun, fun _ => ⟨rfl, fun _ hp => (by cases hp)⟩⟩
  | cons p l ih =>
    obtain ⟨rfl, x, hx, hrest⟩ := hchain
    cases fuel with
    | zero => exact absurd hfuel (by simp)
    | succ fuel =>
      rw [walk, hx]
      by_cases hkey : x.key = key
      · refine ⟨some p, len, if_pos hkey, fun q hq => ?_, nofun⟩
        obtain rfl := Option.some.inj hq
        exact ⟨x, hx, hkey⟩
      · obtain ⟨found, n, hok, hsome, hnone⟩ := ih fuel (len + 1) hrest (le_of_succ_le_succ hfuel)
        refine ⟨found, n, by simp only [if_neg hkey, hok], hsome, fun hfound => ?_⟩
        obtain ⟨hn, hall⟩ := hnone hfound
        refine ⟨by rw [hn, length_cons]; omega, fun q hq y hy => ?_⟩
        rcases mem_cons.mp hq with rfl | hq
        · rw [← Option.some.inj (hx.symm.trans hy)]
          exact hkey
        · exact hall q hq y hy

/-- What a search finds: an item with the key, or that the key is not in the map. -/
def Found (s : Zhash κ β) (m : Finmap fun _ : κ => β) (key : κ) : Option ℕ → Prop
  | none => key ∉ m
  | some p => ∃ value, s.entryAt p = some (key, value)

lemma Shape.cache (h : Shape primes hasher s m chains none) (key : κ) :
    Shape primes hasher (s.cache primes hasher key) m chains none :=
  { h with }

/-- What a search returns and does, in all. -/
structure LookedUp (primes : List ℕ) (hasher : κ → UInt64) (s : Zhash κ β) (m : Finmap fun _ : κ => β)
    (chains : ℕ → List ℕ) (key : κ) (r : Option ℕ × Zhash κ β) : Prop where
  found : Found r.2 m key r.1
  kept : Kept s r.2
  cached : r.2.cachedIndex = r.2.bucket primes hasher key
  shape : ∃ chains', Shape primes hasher r.2 m chains' none
  /-- The table grows if the key is not in the map and its chain is too long. -/
  grown : key ∉ m → s.chainLimit < (chains (s.bucket primes hasher key)).length →
    r.2.primeIndex = s.primeIndex + growthFactor ∧ r.2.chainLimit = s.chainLimit

lemma itemLookup_grows (hprimes : Allocatable primes) (h : Shape primes hasher s m chains none) (key : κ) :
    Yields (s.itemLookup primes hasher key) (LookedUp primes hasher s m chains key)
      (Beyond primes (s.primeIndex + growthFactor)) := by
  obtain ⟨found, n, hok, hsome, hnone⟩ := walk_spec key s.size 0
    (h.table.chain (s.bucket primes hasher key)) (h.length_le _)
  have hfound : ∀ s' : Zhash κ β, Kept s s' → Found s' m key found := fun s' hkept => by
    cases found with
    | none =>
      refine h.holds.notMem fun p value hp => ?_
      obtain ⟨x, hx, hkey, -⟩ := entryAt_some hp
      have hmem := h.stored p x hx nofun
      rw [hkey] at hmem
      exact (hnone rfl).2 p hmem x hx hkey
    | some p =>
      obtain ⟨x, hx, hkey⟩ := hsome p rfl
      exact ⟨x.value, by rw [hkept.entry, entryAt_eq hx, hkey]⟩
  have hlen : key ∉ m → n = (chains (s.bucket primes hasher key)).length := fun hkey => by
    cases found with
    | none => rw [(hnone rfl).1, zero_add]
    | some p =>
      obtain ⟨value, hp⟩ := hfound s ⟨fun _ => rfl, rfl⟩
      exact absurd (Finmap.mem_iff.mpr ⟨value, h.holds.lookup hp⟩) hkey
  have hwalk : walk (s.cache primes hasher key).heap key (s.cache primes hasher key).size
      ((s.cache primes hasher key).items (s.cache primes hasher key).cachedIndex) 0 = .ok (found, n) := hok
  simp only [itemLookup, hwalk, bind, Except.bind]
  by_cases hlong : n > (s.cache primes hasher key).chainLimit
  · rw [if_pos hlong]
    have hgrown := rehash_spec hprimes (h.cache key) ((s.cache primes hasher key).primeIndex + growthFactor)
    cases hr : (s.cache primes hasher key).rehash primes hasher
        ((s.cache primes hasher key).primeIndex + growthFactor) with
    | error e =>
      rw [hr] at hgrown
      exact hgrown
    | ok s1 =>
      rw [hr] at hgrown
      obtain ⟨hkept, hprime, hlimit, chains', hshape⟩ := hgrown
      have hkept' : Kept s (s1.cache primes hasher key) := ⟨hkept.entry, hkept.size⟩
      exact ⟨hfound _ hkept', hkept', rfl, ⟨chains', hshape.cache key⟩, fun _ _ => ⟨hprime, hlimit⟩⟩
  · rw [if_neg hlong]
    have hkept : Kept s (s.cache primes hasher key) := ⟨fun _ => rfl, rfl⟩
    refine ⟨hfound _ hkept, hkept, rfl, ⟨chains, h.cache key⟩, fun hkey hlt => absurd ?_ hlong⟩
    rw [hlen hkey]
    exact hlt

lemma itemLookup_spec (hprimes : Allocatable primes) (h : Shape primes hasher s m chains none) (key : κ) :
    Yields (s.itemLookup primes hasher key) (LookedUp primes hasher s m chains key) (· = .exhausted) :=
  (itemLookup_grows hprimes h key).mono_error fun _ he => he.1

end Lookup

end Zhash

end Czmq
