import ZeroMQ.Czmq.ZhashMap

/-!
# The hash table refines the finite map

Every call returns what it returns on the finite map of the entries and does to the table what it does to the
map, as long as the table has no more than 2^32 chains; the list of primes goes on beyond that, and the list
that is cut there decides whether a call makes the table larger. In every state of such a run
`zhash_first` and `zhash_next` visit every entry once.
-/

namespace Czmq

open Foundation Function List Finmap Nat

variable {κ β : Type} [DecidableEq κ]

namespace Zhash

section Purge

variable {primes : List ℕ} {hasher : κ → UInt64} {s s' : Zhash κ β} {m : Finmap fun _ : κ => β}
  {chains : ℕ → List ℕ}

lemma purgeChain_spec (hprimes : Narrow primes) (fuel i : ℕ) (h : Shape primes hasher s m chains none)
    (hfuel : (chains i).length ≤ fuel) :
    ∃ s' m' chains', purgeChain fuel (s.items i) s = .ok s' ∧ Shape primes hasher s' m' chains' none ∧
      s'.primeIndex = s.primeIndex ∧ chains' i = [] ∧ ∀ j, j ≠ i → chains' j = chains j := by
  induction hl : chains i generalizing fuel s m chains with
  | nil =>
    have hnone : s.items i = none := by
      have hchain := h.table.chain i
      rwa [hl] at hchain
    refine ⟨s, m, chains, ?_, h, rfl, hl, fun _ _ => rfl⟩
    rw [hnone]
    cases fuel <;> rfl
  | cons p l ih =>
    cases fuel with
    | zero => exact absurd hfuel (by rw [hl]; simp)
    | succ fuel =>
      have hchain := h.table.chain i
      rw [hl] at hchain
      obtain ⟨hhead, x, hx, hbehind⟩ := hchain
      have hbucket : s.bucket primes hasher x.key = i := by
        obtain ⟨y, hy, hplaced, -⟩ := h.placed i p (by rw [hl]; exact mem_cons_self)
        rwa [← Option.some.inj (hx.symm.trans hy)] at hplaced
      have hsplit : chains (s.bucket primes hasher x.key) = [] ++ p :: l := by rw [hbucket, hl]; rfl
      obtain ⟨s1, hok, hprime, -, hshape⟩ := itemDestroy_spec hprimes h hx hsplit
      rw [hbucket, nil_append] at hshape
      -- The next item was read before the item was destroyed, and is now the first of the chain.
      have hnext : x.next = s1.items i := by
        have hfirst := hshape.table.chain i
        rw [update_self] at hfirst
        rw [hbehind.head_eq, hfirst.head_eq]
      have hlen : (Function.update chains i l i).length ≤ fuel := by
        rw [update_self]
        rw [hl] at hfuel
        exact le_of_succ_le_succ hfuel
      obtain ⟨s', m', chains', hok', hshape', hprime', hempty, hothers⟩ :=
        ih fuel hshape hlen (update_self _ _ _)
      refine ⟨s', m', chains', ?_, hshape', hprime'.trans hprime, hempty, fun j hj => ?_⟩
      · have hderef : s.deref p = .ok x := by rw [deref, hx]
        rw [hhead]
        simp only [purgeChain, hderef, hok, hnext, bind, Except.bind]
        exact hok'
      · rw [hothers j hj, update_of_ne hj]

lemma purgeChains_spec (hprimes : Narrow primes) (n index : ℕ) (h : Shape primes hasher s m chains none) :
    ∃ s' m' chains', purgeChains n index s = .ok s' ∧ Shape primes hasher s' m' chains' none ∧
      s'.primeIndex = s.primeIndex ∧ (∀ i, index ≤ i → i < index + n → chains' i = []) ∧
      ∀ i, i < index → chains' i = chains i := by
  induction n generalizing index s m chains with
  | zero => exact ⟨s, m, chains, rfl, h, rfl, fun i hle hlt => by omega, fun _ _ => rfl⟩
  | succ n ih =>
    obtain ⟨s1, m1, chains1, hok, h1, hprime, hempty, hothers⟩ :=
      purgeChain_spec hprimes s.size index h (h.length_le index)
    have hitems : s1.items index = none := by
      have hchain := h1.table.chain index
      rwa [hempty] at hchain
    have hsame : { s1 with items := Function.update s1.items index none } = s1 := by
      rw [← hitems, update_eq_self]
    obtain ⟨s', m', chains', hok', hshape, hprime', hempty', hothers'⟩ := ih (index + 1) h1
    refine ⟨s', m', chains', ?_, hshape, hprime'.trans hprime, fun i hle hlt => ?_, fun i hi => ?_⟩
    · simp only [purgeChains, hok, hsame, bind, Except.bind]
      exact hok'
    · rcases eq_or_lt_of_le hle with rfl | hlt'
      · rw [hothers' index (by omega), hempty]
      · exact hempty' i hlt' (by omega)
    · rw [hothers' i (by omega), hothers i (by omega)]

lemma purge_spec (hprimes : Narrow primes) (h : Shape primes hasher s m chains none) :
    ∃ s' chains', s.purge primes = .ok s' ∧ Shape primes hasher s' ∅ chains' none := by
  obtain ⟨s1, m1, chains1, hok, h1, hprime, hempty, -⟩ := purgeChains_spec hprimes (s.limit primes) 0 h
  have hlimit : s1.limit primes = s.limit primes := by rw [limit, limit, hprime]
  have hlt := (hprimes _ h.limit_mem).2
  have hnone : ∀ p, s1.heap p = none := fun p => by
    cases hp : s1.heap p with
    | none => rfl
    | some x =>
      have hmem := h1.stored p x hp fun h => (by cases h)
      have hbucket := h1.bucket_lt hprimes.allocatable x.key
      rw [hempty _ (zero_le _) (by omega)] at hmem
      cases hmem
  have hm : m1 = ∅ := by
    refine ext_lookup fun key => ?_
    rw [lookup_empty, lookup_eq_none]
    refine h1.holds.notMem fun p value hp => ?_
    rw [entryAt, hnone p] at hp
    cases hp
  rw [hm] at h1
  by_cases hlarge : s1.primeIndex > initialPrime
  · refine ⟨{ s1 with primeIndex := initialPrime, chainLimit := initialChain, items := fun _ => none }, fun _ => [],
      by simp only [purge, purgeItems, if_neg (not_le.mpr hlt), hok, bind, Except.bind, if_pos hlarge], ?_⟩
    refine ⟨lt_of_le_of_lt (zero_le _) h1.prime, isTable_empty _ _, fun i p hp => (by cases hp),
      fun p x hx _ => ?_, fun p hp => (by cases hp), h1.holds, h1.size, h1.cursor, h1.fresh⟩
    cases (hnone p).symm.trans hx
  · exact ⟨s1, chains1, by
      simp only [purge, purgeItems, if_neg (not_le.mpr hlt), hok, bind, Except.bind, if_neg hlarge], h1⟩

end Purge

/-! ### The map -/

/-- What a call returns on a map, and what it does to it. -/
def spec (m : Finmap fun _ : κ => β) : ZhashOp κ β → ZhashReply β × Finmap fun _ : κ => β
  | .insert key value =>
    match m.lookup key with
    | some _ => (.status (-1), m)
    | none => (.status 0, m.insert key value)
  | .update key value => (.done, m.insert key value)
  | .delete key => (.done, m.erase key)
  | .lookup key => (.value (m.lookup key), m)
  | .rename oldKey newKey =>
    match m.lookup oldKey, m.lookup newKey with
    | some value, none => (.status 0, (m.erase oldKey).insert newKey value)
    | _, _ => (.status (-1), m)
  | .purge => (.done, ∅)
  | .size => (.size m.keys.card, m)

section Step

variable {primes : List ℕ} {hasher : κ → UInt64} {s s' : Zhash κ β} {m : Finmap fun _ : κ => β}

/-- The table has the right shape and the entries of the map. -/
def Stores (primes : List ℕ) (hasher : κ → UInt64) (s : Zhash κ β) (m : Finmap fun _ : κ => β) : Prop :=
  ∃ chains, Shape primes hasher s m chains none

lemma stores_new (hprimes : primes ≠ []) : Stores primes hasher (new κ β) ∅ := by
  refine ⟨fun _ => [], length_pos_of_ne_nil hprimes, isTable_empty _ _, fun i p hp => (by cases hp),
    fun p x hx _ => (by cases hx), nofun, holds_empty, rfl, nofun, fun p _ => rfl⟩

/-- Every call but one that purges the table does on the table what it does on the map, unless the table is too
large. -/
lemma step_yields (hprimes : Allocatable primes) (h : Stores primes hasher s m) {op : ZhashOp κ β}
    (hop : op ≠ .purge) :
    Yields (s.step primes hasher op)
      (fun r => r.1 = (spec m op).1 ∧ Stores primes hasher r.2 (spec m op).2) (Outgrown primes) := by
  obtain ⟨chains, h⟩ := h
  cases op with
  | insert key value =>
    refine Yields.map (((insert_spec hprimes h key value).mono fun r ⟨hold, hnew⟩ => ?_).mono_error fun _ => .inl)
    rw [spec]
    cases hkey : m.lookup key with
    | some v =>
      obtain ⟨hr, -, hstores⟩ := hold (mem_iff.mpr ⟨v, hkey⟩)
      exact ⟨by rw [hr], hstores⟩
    | none =>
      obtain ⟨hr, hinserted⟩ := hnew (lookup_eq_none.mp hkey)
      exact ⟨by rw [hr], hinserted.shape⟩
  | update key value =>
    exact Yields.map (((update_spec hprimes h key value).mono fun _ hs => ⟨rfl, hs⟩).mono_error fun _ => .inl)
  | delete key => exact Yields.map ((delete_yields hprimes h key).mono fun _ hs => ⟨rfl, hs.2⟩)
  | lookup key =>
    exact Yields.map (((lookup_spec hprimes h key).mono
      fun _ ⟨hr, _, hs⟩ => ⟨congrArg ZhashReply.value hr, hs⟩).mono_error fun _ => .inl)
  | rename oldKey newKey =>
    refine Yields.map ((rename_yields hprimes h oldKey newKey).mono fun r ⟨hmoved, hkept⟩ => ?_)
    rw [spec]
    cases hold : m.lookup oldKey with
    | none =>
      obtain ⟨hr, hs⟩ := hkept (.inl (lookup_eq_none.mp hold))
      exact ⟨congrArg ZhashReply.status hr, hs⟩
    | some value =>
      cases hnew : m.lookup newKey with
      | some v =>
        obtain ⟨hr, hs⟩ := hkept (.inr (mem_iff.mpr ⟨v, hnew⟩))
        exact ⟨congrArg ZhashReply.status hr, hs⟩
      | none =>
        obtain ⟨hr, hs⟩ := hmoved value hold (lookup_eq_none.mp hnew)
        exact ⟨congrArg ZhashReply.status hr, hs⟩
  | purge => exact absurd rfl hop
  | size => exact ⟨congrArg ZhashReply.size h.size, chains, h⟩

lemma step_spec (hprimes : Narrow primes) (h : Stores primes hasher s m) (op : ZhashOp κ β) :
    Yields (s.step primes hasher op)
      (fun r => r.1 = (spec m op).1 ∧ Stores primes hasher r.2 (spec m op).2) (· = .exhausted) := by
  by_cases hop : op = .purge
  · subst hop
    obtain ⟨chains, h⟩ := h
    obtain ⟨s', chains', hok, hshape⟩ := purge_spec hprimes h
    simp only [step, hok, Except.map]
    exact ⟨rfl, chains', hshape⟩
  · exact (step_yields hprimes.allocatable h hop).mono_error fun _ he => he.exhausted hprimes

end Step

/-! ### Iterating -/

/-- Calls of `zhash_next` after a call return the entries of a list, one after the other, and then nothing. -/
def Returns (primes : List ℕ) : Except CzmqFault (Option (κ × β) × Zhash κ β) → List (κ × β) → Prop
  | r, [] => ∃ s, r = .ok (none, s)
  | r, entry :: rest => ∃ s, r = .ok (some entry, s) ∧ Returns primes (s.next primes) rest

/-- `zhash_first` and then `zhash_next` visit every entry of the map once. -/
def VisitsOnce (primes : List ℕ) (s : Zhash κ β) (m : Finmap fun _ : κ => β) : Prop :=
  ∃ entries : List (κ × β), (entries.map Prod.fst).Nodup ∧
    (∀ key value, (key, value) ∈ entries ↔ m.lookup key = some value) ∧ Returns primes (s.first primes) entries

section Visit

variable {primes : List ℕ} {hasher : κ → UInt64} {s s' : Zhash κ β} {m : Finmap fun _ : κ => β}
  {chains : ℕ → List ℕ}

/-- The items of the chains behind an index. -/
def later (limit : ℕ) (chains : ℕ → List ℕ) (index : ℕ) : List ℕ :=
  (List.range' (index + 1) (limit - 1 - index)).flatMap chains

lemma later_eq {limit index : ℕ} (h : index < limit - 1) :
    later limit chains index = chains (index + 1) ++ later limit chains (index + 1) := by
  have hlen : limit - 1 - index = limit - 1 - (index + 1) + 1 := by omega
  rw [later, hlen, range'_succ, flatMap_cons]
  rfl

lemma later_end {limit index : ℕ} (h : limit - 1 ≤ index) : later limit chains index = [] := by
  rw [later, Nat.sub_eq_zero_of_le h]
  rfl

variable (primes) in
omit [DecidableEq κ] in
lemma skip_spec (hchains : ∀ i, IsChain Item.next s.heap (s.items i) (chains i)) (n : ℕ) {l : List ℕ}
    (hl : IsChain Item.next s.heap s.cursorItem l) (hn : s.limit primes - 1 - s.cursorIndex ≤ n) :
    ∃ index item l', s.skip primes n = { s with cursorIndex := index, cursorItem := item } ∧
      IsChain Item.next s.heap item l' ∧
      l' ++ later (s.limit primes) chains index = l ++ later (s.limit primes) chains s.cursorIndex ∧
      (l' = [] → later (s.limit primes) chains index = []) := by
  induction n generalizing s l with
  | zero => exact ⟨s.cursorIndex, s.cursorItem, l, rfl, hl, rfl, fun _ => later_end (by omega)⟩
  | succ n ih =>
    rw [skip]
    by_cases hskip : s.cursorItem = none ∧ s.cursorIndex < s.limit primes - 1
    · obtain ⟨hnone, hlt⟩ := hskip
      obtain rfl : l = [] := by
        rw [hnone] at hl
        exact head?_eq_none_iff.mp hl.head_eq.symm
      have hrest := ih (s := { s with
        cursorIndex := s.cursorIndex + 1, cursorItem := s.items (s.cursorIndex + 1) }) hchains
        (hchains (s.cursorIndex + 1)) (by
          change s.limit primes - 1 - (s.cursorIndex + 1) ≤ n
          omega)
      obtain ⟨index, item, l', hok, hchain, hsame, hend⟩ := hrest
      refine ⟨index, item, l', by rw [if_pos ⟨hnone, hlt⟩]; exact hok, hchain, ?_, hend⟩
      rw [nil_append, later_eq hlt]
      exact hsame
    · refine ⟨s.cursorIndex, s.cursorItem, l, if_neg hskip, hl, rfl, fun hnil => later_end ?_⟩
      rw [hnil] at hl
      exact not_lt.mp fun hlt => hskip ⟨hl, hlt⟩

omit [DecidableEq κ] in
lemma next_returns (hchains : ∀ i, IsChain Item.next s.heap (s.items i) (chains i)) {pending l : List ℕ}
    (hl : IsChain Item.next s.heap s.cursorItem l)
    (hpending : l ++ later (s.limit primes) chains s.cursorIndex = pending) :
    Returns primes (s.next primes) (pending.filterMap s.entryAt) := by
  induction pending generalizing s l with
  | nil =>
    obtain ⟨index, item, l', hskip, hchain, hsame, -⟩ := skip_spec primes hchains (s.limit primes) hl (by omega)
    rw [hpending, append_eq_nil_iff] at hsame
    obtain rfl := hsame.1
    obtain rfl : item = none := hchain
    exact ⟨_, by rw [next, hskip]⟩
  | cons p pending ih =>
    obtain ⟨index, item, l', hskip, hchain, hsame, hend⟩ := skip_spec primes hchains (s.limit primes) hl (by omega)
    rw [hpending] at hsame
    cases l' with
    | nil =>
      rw [hend rfl] at hsame
      cases hsame
    | cons q l' =>
      obtain ⟨hq, hsame⟩ := cons.inj hsame
      obtain ⟨rfl, x, hx, hrest⟩ := hchain
      rw [hq] at hx
      have hentry : s.entryAt p = some (x.key, x.value) := entryAt_eq hx
      rw [filterMap_cons_some hentry]
      refine ⟨{ s with cursorIndex := index, cursorKey := some x.key, cursorItem := x.next }, ?_,
        ih hchains hrest hsame⟩
      rw [next, hskip, hq]
      simp only [deref, hx, bind, Except.bind]

lemma Shape.visitsOnce (hpos : 0 < s.limit primes) (h : Shape primes hasher s m chains none) :
    VisitsOnce primes s m := by
  have hall : chains 0 ++ later (s.limit primes) chains 0 = (range' 0 (s.limit primes)).flatMap chains := by
    obtain ⟨n, hn⟩ : ∃ n, s.limit primes = n + 1 := ⟨s.limit primes - 1, by omega⟩
    rw [later, hn, range'_succ, flatMap_cons]
    rfl
  generalize hflat : (range' 0 (s.limit primes)).flatMap chains = flat at hall
  have hmem : ∀ p, p ∈ flat ↔ ∃ x, s.heap p = some x := fun p => by
    rw [← hflat, mem_flatMap]
    constructor
    · rintro ⟨i, -, hp⟩
      obtain ⟨x, hx, -⟩ := h.placed i p hp
      exact ⟨x, hx⟩
    · rintro ⟨x, hx⟩
      refine ⟨_, ?_, h.stored p x hx nofun⟩
      have hlt : s.bucket primes hasher x.key < s.limit primes := mod_lt _ hpos
      exact mem_range'_1.mpr ⟨zero_le _, by omega⟩
  have hnodup : flat.Nodup := by
    rw [← hflat]
    refine nodup_flatMap.mpr ⟨fun i _ => h.table.nodup i, ?_⟩
    refine List.Nodup.pairwise_of_forall_ne nodup_range' fun i _ j _ hij => ?_
    exact fun p hp hp' => hij (h.table.apart i j p hp hp')
  have hreturns : Returns primes (s.first primes) (flat.filterMap s.entryAt) :=
    next_returns (s := { s with cursorIndex := 0, cursorItem := s.items 0 }) h.table.chain (h.table.chain 0) hall
  refine ⟨flat.filterMap s.entryAt, ?_, fun key value => ?_, hreturns⟩
  · rw [map_filterMap]
    refine hnodup.filterMap fun p q key hp hq => ?_
    obtain ⟨⟨k, v⟩, hp', hk⟩ := Option.map_eq_some_iff.mp hp
    obtain ⟨⟨k', v'⟩, hq', hk'⟩ := Option.map_eq_some_iff.mp hq
    obtain rfl : k' = k := hk'.trans hk.symm
    exact h.holds.distinct p q k' v v' hp' hq'
  · rw [mem_filterMap, h.holds.content]
    constructor
    · exact fun ⟨p, _, hp⟩ => ⟨p, hp⟩
    · rintro ⟨p, hp⟩
      obtain ⟨x, hx, -⟩ := entryAt_some hp
      exact ⟨p, (hmem p).mpr ⟨x, hx⟩, hp⟩

end Visit

section Sizes

/-- Growing leads from places in a list of primes to such places, or fails in a way that is allowed; so may whatever
does not have to do with the list. -/
structure Grows (primes : List ℕ) (hasher : κ → UInt64) (β : Type) (good : ℕ → Prop) (E : CzmqFault → Prop) :
    Prop where
  grown : ∀ s : Zhash κ β, good s.primeIndex →
    Yields (s.rehash primes hasher (s.primeIndex + growthFactor)) (fun s' => good s'.primeIndex) E
  start : good initialPrime
  inner : ∀ e, e ≠ .exhausted → E e

/-- A relation between outcomes is kept when both computations go on. -/
structure Congruent (R : (α : Type) → Except CzmqFault α → Except CzmqFault α → Prop) : Prop where
  refl : ∀ {α : Type} (r : Except CzmqFault α), R α r r
  bind : ∀ {α γ : Type} {r r' : Except CzmqFault α} {f f' : α → Except CzmqFault γ}, R α r r' →
    (∀ a, r = .ok a → R γ (f a) (f' a)) → R γ (r >>= f) (r' >>= f')

/-- For tables whose size is at certain places in a list of primes another list has the same size there, and growing
has related outcomes. -/
structure Related (R : (α : Type) → Except CzmqFault α → Except CzmqFault α → Prop) (primes primes' : List ℕ)
    (hasher : κ → UInt64) (β : Type) (good : ℕ → Prop) : Prop extends Congruent R where
  limit : ∀ i, good i → primes'.getD i 0 = primes.getD i 0
  grow : ∀ s : Zhash κ β, good s.primeIndex →
    R (Zhash κ β) (s.rehash primes hasher (s.primeIndex + growthFactor))
      (s.rehash primes' hasher (s.primeIndex + growthFactor))
  grows : Grows primes hasher β good fun _ => True

variable {R : (α : Type) → Except CzmqFault α → Except CzmqFault α → Prop} {primes primes' : List ℕ}
  {hasher : κ → UInt64} {good : ℕ → Prop} {E : CzmqFault → Prop} {s : Zhash κ β}

lemma Congruent.map {α γ : Type} (hR : Congruent R) {r r' : Except CzmqFault α} (h : R α r r') (f : α → γ) :
    R γ (r.map f) (r'.map f) := by
  have hbind : ∀ r : Except CzmqFault α, r.map f = r >>= fun a => .ok (f a) := fun r => by
    cases r with
    | error e | ok a => rfl
  rw [hbind, hbind]
  exact hR.bind h fun a _ => hR.refl _

/-! ### What does not have to do with the list -/

omit [DecidableEq κ] in
lemma deref_inner (p : ℕ) : Yields (s.deref p) (fun _ => True) (· ≠ .exhausted) := by
  rw [deref]
  cases s.heap p with
  | none => exact fun he => by cases he
  | some x => trivial

lemma walk_inner (heap : ℕ → Option (Item κ β)) (key : κ) (fuel : ℕ) (item : Option ℕ) (len : ℕ) :
    Yields (walk heap key fuel item len) (fun r => r.2 ≤ len + fuel) (· ≠ .exhausted) := by
  induction fuel generalizing item len with
  | zero =>
    cases item with
    | none => exact le_refl len
    | some p => exact fun he => by cases he
  | succ fuel ih =>
    cases item with
    | none => exact le_add_right len _
    | some p =>
      rw [walk]
      cases heap p with
      | none => exact fun he => by cases he
      | some x =>
        dsimp only
        split
        · exact le_add_right len _
        · refine (ih x.next (len + 1)).mono fun r hr => ?_
          omega

omit [DecidableEq κ] in
lemma findPrev_inner (heap : ℕ → Option (Item κ β)) (p fuel : ℕ) (prev item : Option ℕ) :
    Yields (findPrev heap p fuel prev item) (fun _ => True) (· ≠ .exhausted) := by
  induction fuel generalizing prev item with
  | zero =>
    cases item with
    | none | some q => exact fun he => by cases he
  | succ fuel ih =>
    cases item with
    | none => exact fun he => by cases he
    | some q =>
      rw [findPrev]
      split
      · trivial
      · cases heap q with
        | none => exact fun he => by cases he
        | some x => exact ih (some q) x.next

omit [DecidableEq κ] in
lemma unlink_inner (hs : good s.primeIndex) (p : ℕ) :
    Yields (s.unlink p) (fun s' => good s'.primeIndex) (· ≠ .exhausted) := by
  refine (deref_inner p).bind fun item _ => ?_
  refine (findPrev_inner _ p _ _ _).bind fun before _ => ?_
  cases before with
  | none => exact hs
  | some q => exact (deref_inner q).bind fun _ _ => hs

omit [DecidableEq κ] in
lemma itemDestroy_inner (hs : good s.primeIndex) (p : ℕ) :
    Yields (s.itemDestroy p) (fun s' => good s'.primeIndex) (· ≠ .exhausted) :=
  (unlink_inner hs p).bind fun _ hs1 => hs1

omit [DecidableEq κ] in
lemma purgeChain_inner (fuel : ℕ) (item : Option ℕ) (hs : good s.primeIndex) :
    Yields (purgeChain fuel item s) (fun s' => good s'.primeIndex) (· ≠ .exhausted) := by
  induction fuel generalizing item s with
  | zero =>
    cases item with
    | none => exact hs
    | some p => exact fun he => by cases he
  | succ fuel ih =>
    cases item with
    | none => exact hs
    | some p =>
      refine (deref_inner p).bind fun x _ => ?_
      exact (itemDestroy_inner hs p).bind fun s1 hs1 => ih x.next hs1

omit [DecidableEq κ] in
lemma purgeChains_inner (n index : ℕ) (hs : good s.primeIndex) :
    Yields (purgeChains n index s) (fun s' => good s'.primeIndex) (· ≠ .exhausted) := by
  induction n generalizing index s with
  | zero => exact hs
  | succ n ih => exact (purgeChain_inner _ _ hs).bind fun s1 hs1 => ih (index + 1) hs1

omit [DecidableEq κ] in
lemma purgeItems_inner (hs : good s.primeIndex) :
    Yields (s.purgeItems primes) (fun s' => good s'.primeIndex) (· ≠ .exhausted) := by
  rw [purgeItems]
  split
  · exact fun he => by cases he
  · exact purgeChains_inner _ _ hs

/-! ### Calls lead from place to place -/

lemma Grows.itemLookup (h : Grows primes hasher β good E) (hs : good s.primeIndex) (key : κ) :
    Yields (s.itemLookup primes hasher key) (fun r => good r.2.primeIndex) E := by
  simp only [Zhash.itemLookup]
  refine ((walk_inner _ key _ _ 0).mono_error h.inner).bind fun r _ => ?_
  split
  · exact (h.grown (s.cache primes hasher key) hs).bind fun s1 hs1 => hs1
  · exact hs

omit [DecidableEq κ] in
lemma Grows.growLoaded (h : Grows primes hasher β good E) (hs : good s.primeIndex) :
    Yields (s.growLoaded primes hasher) (fun s' => good s'.primeIndex) E := by
  rw [Zhash.growLoaded]
  split
  · exact (h.grown s hs).bind fun s1 hs1 => hs1
  · exact hs

lemma Grows.insert (h : Grows primes hasher β good E) (hs : good s.primeIndex) (key : κ) (value : β) :
    Yields (s.insert primes hasher key value) (fun r => good r.2.primeIndex) E := by
  refine (h.growLoaded hs).bind fun s1 hs1 => ?_
  have hinsert : Yields (s1.itemInsert primes hasher key value) (fun r => good r.2.primeIndex) E := by
    refine (h.itemLookup hs1 key).bind fun ⟨item, s2⟩ hs2 => ?_
    cases item with
    | none | some p => exact hs2
  exact hinsert.bind fun r hr => hr

lemma Grows.lookup (h : Grows primes hasher β good E) (hs : good s.primeIndex) (key : κ) :
    Yields (s.lookup primes hasher key) (fun r => good r.2.primeIndex) E := by
  refine (h.itemLookup hs key).bind fun ⟨item, s1⟩ hs1 => ?_
  cases item with
  | none => exact hs1
  | some p => exact ((deref_inner p).mono_error h.inner).bind fun _ _ => hs1

lemma Grows.delete (h : Grows primes hasher β good E) (hs : good s.primeIndex) (key : κ) :
    Yields (s.delete primes hasher key) (fun s' => good s'.primeIndex) E := by
  refine (h.itemLookup hs key).bind fun ⟨item, s1⟩ hs1 => ?_
  cases item with
  | none => exact hs1
  | some p => exact (itemDestroy_inner hs1 p).mono_error h.inner

lemma Grows.step (h : Grows primes hasher β good E) (hs : good s.primeIndex) (op : ZhashOp κ β) :
    Yields (s.step primes hasher op) (fun r => good r.2.primeIndex) E := by
  cases op with
  | insert key value => exact Yields.map (h.insert hs key value)
  | update key value =>
    refine Yields.map ((h.itemLookup hs key).bind fun ⟨item, s1⟩ hs1 => ?_)
    cases item with
    | some p => exact ((deref_inner p).mono_error h.inner).bind fun _ _ => hs1
    | none => exact (h.insert hs1 key value).bind fun _ hr => hr
  | delete key => exact Yields.map (h.delete hs key)
  | lookup key => exact Yields.map (h.lookup hs key)
  | rename oldKey newKey =>
    refine Yields.map ((h.itemLookup hs oldKey).bind fun ⟨oldItem, s1⟩ hs1 => ?_)
    refine (h.itemLookup hs1 newKey).bind fun ⟨newItem, s2⟩ hs2 => ?_
    cases oldItem with
    | none => exact hs2
    | some p =>
      cases newItem with
      | some q => exact hs2
      | none =>
        refine ((unlink_inner hs2 p).mono_error h.inner).bind fun s3 hs3 => ?_
        exact ((deref_inner p).mono_error h.inner).bind fun _ _ => hs3
  | purge =>
    refine Yields.map (((purgeItems_inner hs).mono_error h.inner).bind fun s1 hs1 => ?_)
    split
    · exact h.start
    · exact hs1
  | size => exact hs

/-! ### Calls have related outcomes -/

omit [DecidableEq κ] in
lemma Related.limit_eq (h : Related R primes primes' hasher β good) (hs : good s.primeIndex) :
    s.limit primes' = s.limit primes :=
  h.limit _ hs

lemma Related.itemLookup (h : Related R primes primes' hasher β good) (hs : good s.primeIndex) (key : κ) :
    R _ (s.itemLookup primes hasher key) (s.itemLookup primes' hasher key) := by
  have hcache : ∀ s : Zhash κ β, good s.primeIndex → s.cache primes' hasher key = s.cache primes hasher key :=
    fun s hs => by rw [cache, cache, h.limit_eq hs]
  simp only [Zhash.itemLookup, hcache s hs]
  refine h.bind (h.refl _) fun r _ => ?_
  split
  · refine h.bind (h.grow (s.cache primes hasher key) hs) fun s1 hs1 => ?_
    rw [hcache s1 ((h.grows.grown (s.cache primes hasher key) hs).ensures s1 hs1)]
    exact h.refl _
  · exact h.refl _

omit [DecidableEq κ] in
lemma Related.growLoaded (h : Related R primes primes' hasher β good) (hs : good s.primeIndex) :
    R _ (s.growLoaded primes hasher) (s.growLoaded primes' hasher) := by
  rw [Zhash.growLoaded, Zhash.growLoaded, h.limit_eq hs]
  split
  · exact h.bind (h.grow _ hs) fun _ _ => h.refl _
  · exact h.refl _

lemma Related.insert (h : Related R primes primes' hasher β good) (hs : good s.primeIndex) (key : κ) (value : β) :
    R _ (s.insert primes hasher key value) (s.insert primes' hasher key value) := by
  refine h.bind (h.growLoaded hs) fun s1 hs1 => ?_
  have hgood : good s1.primeIndex := (h.grows.growLoaded hs).ensures s1 hs1
  refine h.bind ?_ fun _ _ => h.refl _
  exact h.bind (h.itemLookup hgood key) fun _ _ => h.refl _

lemma Related.lookup (h : Related R primes primes' hasher β good) (hs : good s.primeIndex) (key : κ) :
    R _ (s.lookup primes hasher key) (s.lookup primes' hasher key) :=
  h.bind (h.itemLookup hs key) fun _ _ => h.refl _

lemma Related.delete (h : Related R primes primes' hasher β good) (hs : good s.primeIndex) (key : κ) :
    R _ (s.delete primes hasher key) (s.delete primes' hasher key) :=
  h.bind (h.itemLookup hs key) fun _ _ => h.refl _

lemma Related.step (h : Related R primes primes' hasher β good) (hs : good s.primeIndex) (op : ZhashOp κ β) :
    R _ (s.step primes hasher op) (s.step primes' hasher op) := by
  cases op with
  | insert key value => exact h.map (h.insert hs key value) _
  | update key value =>
    refine h.map (h.bind (h.itemLookup hs key) fun ⟨item, s1⟩ hr => ?_) _
    have hgood : good s1.primeIndex := (h.grows.itemLookup hs key).ensures _ hr
    cases item with
    | some p => exact h.refl _
    | none => exact h.bind (h.insert hgood key value) fun _ _ => h.refl _
  | delete key => exact h.map (h.delete hs key) _
  | lookup key => exact h.map (h.lookup hs key) _
  | rename oldKey newKey =>
    refine h.map (h.bind (h.itemLookup hs oldKey) fun r hr => ?_) _
    have hgood : good r.2.primeIndex := (h.grows.itemLookup hs oldKey).ensures r hr
    exact h.bind (h.itemLookup hgood newKey) fun _ _ => h.refl _
  | purge =>
    have hpurge : s.purgeItems primes' = s.purgeItems primes := by
      rw [purgeItems, purgeItems, h.limit_eq hs]
    simp only [Zhash.step, purge, hpurge]
    exact h.refl _
  | size => exact h.refl _

end Sizes

/-! ### The list of primes -/

section Primes

variable {α γ : Type} {primes primes' : List ℕ} {hasher : κ → UInt64} {s : Zhash κ β}

/-- A call with a shorter list of primes does the same, unless the list is exhausted. -/
def Agrees (r r' : Except CzmqFault α) : Prop := r = .error .exhausted ∨ r' = r

lemma Agrees.bind {r r' : Except CzmqFault α} {f f' : α → Except CzmqFault γ} (h : Agrees r r')
    (hf : ∀ a, r = .ok a → Agrees (f a) (f' a)) : Agrees (r >>= f) (r' >>= f') := by
  obtain rfl | rfl := h
  · exact .inl rfl
  · cases hr : r' with
    | error e => exact .inr rfl
    | ok a => exact hf a hr

lemma Agrees.map {r r' : Except CzmqFault α} (h : Agrees r r') (f : α → γ) : Agrees (r.map f) (r'.map f) := by
  obtain rfl | rfl := h
  · exact .inl rfl
  · exact .inr rfl

lemma Agrees.refl (r : Except CzmqFault α) : Agrees r r := .inr rfl

omit [DecidableEq κ] in
lemma limit_of_begin (hbegin : primes <+: primes') (hs : s.primeIndex < primes.length) :
    s.limit primes' = s.limit primes := by
  obtain ⟨rest, rfl⟩ := hbegin
  rw [limit, limit, getD_append _ _ _ _ hs]

lemma Shape.of_limit {m : Finmap fun _ : κ => β} {chains : ℕ → List ℕ} (h : Shape primes hasher s m chains none)
    (hprime : s.primeIndex < primes'.length) (hlimit : s.limit primes' = s.limit primes) :
    Shape primes' hasher s m chains none := by
  have hbucket : ∀ key, s.bucket primes' hasher key = s.bucket primes hasher key := fun key => by
    rw [bucket, bucket, hlimit]
  refine ⟨hprime, h.table, fun i p hp => ?_, fun p x hx hout => ?_, h.apart, h.holds, h.size, h.cursor, h.fresh⟩
  · obtain ⟨x, hx, hplaced, hindex⟩ := h.placed i p hp
    exact ⟨x, hx, (hbucket _).trans hplaced, hindex⟩
  · rw [hbucket]
    exact h.stored p x hx hout

lemma Shape.of_begin {m : Finmap fun _ : κ => β} {chains : ℕ → List ℕ} (hbegin : primes <+: primes')
    (h : Shape primes hasher s m chains none) : Shape primes' hasher s m chains none :=
  h.of_limit (h.prime.trans_le hbegin.length_le) (limit_of_begin hbegin h.prime)

omit [DecidableEq κ] in
lemma grows_inList {i : ℕ} (hi : i < primes.length) (hasher : κ → UInt64) (β : Type) :
    Grows primes hasher β (· < primes.length) fun _ => True where
  grown s _ := by
    rw [rehash]
    cases hlimit : primes[s.primeIndex + growthFactor]? with
    | none => trivial
    | some newLimit =>
      have hlt := (List.getElem?_eq_some_iff.mp hlimit).1
      dsimp only
      split
      · trivial
      · exact Yields.bind (Q := fun _ => True) (yields_true _) fun _ _ => hlt
  start := zero_lt_of_lt hi
  inner _ _ := trivial

omit [DecidableEq κ] in
lemma related_of_begin (hbegin : primes <+: primes') {i : ℕ} (hi : i < primes.length) (hasher : κ → UInt64)
    (β : Type) : Related (fun _ => Agrees) primes primes' hasher β (· < primes.length) where
  refl := .refl
  bind := .bind
  limit i hi := by
    obtain ⟨rest, rfl⟩ := hbegin
    exact List.getD_append _ _ _ _ hi
  grow s hs := by
    rw [rehash, rehash, limit_of_begin hbegin hs]
    cases hlimit : primes[s.primeIndex + growthFactor]? with
    | none => exact .inl rfl
    | some newLimit =>
      obtain ⟨rest, rfl⟩ := hbegin
      have hlt := (List.getElem?_eq_some_iff.mp hlimit).1
      rw [List.getElem?_append_left hlt, hlimit]
      exact .refl _
  grows := grows_inList hi hasher β

lemma step_agrees (hbegin : primes <+: primes') (hs : s.primeIndex < primes.length) (op : ZhashOp κ β) :
    Agrees (s.step primes hasher op) (s.step primes' hasher op) :=
  (related_of_begin hbegin hs hasher β).step hs op

end Primes

end Zhash

end Czmq
