import ZeroMQ.Content.Heap

/-!
# The counter of a content

`MsgHeap.Counted` says how the counter of a content and the values that point to it belong together. Every
operation on messages keeps it for all contents, and while it holds no content is accessed after it was
freed.
-/

namespace Zmq

open Foundation Function List Nat

namespace MsgHeap

variable {h h' : MsgHeap} {i j k n : ℕ} {shared : Bool} {v w : MsgValue}

/-! ### Counting values -/

/-- The contribution of a value. -/
def tally (v : MsgValue) (k : ℕ) (shared : Bool) : ℕ := if Holds v k shared then 1 else 0

@[simp] lemma put_contents : (h.put i v).contents = h.contents := rfl

@[simp] lemma put_size : (h.put i v).size = h.size := rfl

@[simp] lemma put_values : (h.put i v).values = h.values.set i v := rfl

@[simp] lemma push_contents : (h.push v).contents = h.contents := rfl

@[simp] lemma push_size : (h.push v).size = h.size := rfl

variable {c : Content}

@[simp] lemma setContent_values : (h.setContent k c).values = h.values := rfl

@[simp] lemma setContent_size : (h.setContent k c).size = h.size := rfl

@[simp] lemma setContent_contents_self : (h.setContent k c).contents k = c :=
  update_self ..

@[simp] lemma setContent_count {k' : ℕ} :
    (h.setContent k c).count k' shared = h.count k' shared := rfl

lemma setContent_contents_of_ne {k' : ℕ} (hk : k' ≠ k) :
    (h.setContent k c).contents k' = h.contents k' :=
  update_of_ne hk ..

lemma tally_le_count (hv : h.values[i]? = some v) (k : ℕ) (shared : Bool) :
    tally v k shared ≤ h.count k shared := by
  unfold tally
  split
  case isTrue hholds =>
    exact countP_pos_iff.mpr ⟨v, mem_of_getElem? hv, by simpa using hholds⟩
  case isFalse => exact zero_le _

lemma count_put (hv : h.values[i]? = some v) (w : MsgValue) (k : ℕ) (shared : Bool) :
    (h.put i w).count k shared + tally v k shared = h.count k shared + tally w k shared := by
  obtain ⟨hi, hget⟩ := List.getElem?_eq_some_iff.mp hv
  have hle := tally_le_count hv k shared
  simp only [count, put_values, List.countP_set hi, hget, tally, decide_eq_true_eq] at hle ⊢
  omega

lemma count_push (w : MsgValue) (k : ℕ) (shared : Bool) :
    (h.push w).count k shared = h.count k shared + tally w k shared := by
  simp [count, push, tally, countP_append, countP_singleton]

/-! ### The invariant -/

/-- A content with counter and account, pointed to by `s` values as a shared one and by `u` values as the
only one. -/
structure Counted (c : Content) (s u : ℕ) : Prop where
  bound : s + u + c.reserved < 2 ^ 32
  freed_iff : c.freed = true ↔ s + u + c.reserved = 0
  /-- The counter is the number of references, unless there is one that needs no counter. -/
  counter : c.freed = false → (u = 0 ∧ c.refcnt = s + c.reserved) ∨ (s = 0 ∧ u + c.reserved = 1)

/-- All contents are counted. -/
structure Inv (h : MsgHeap) : Prop where
  range : ∀ v ∈ h.values, ∀ k shared, v.kind = .lmsg k shared → k < h.size
  counted : ∀ k < h.size, Counted (h.contents k) (h.count k true) (h.count k false)

lemma Inv.empty : Inv empty where
  range := by simp [MsgHeap.empty]
  counted := by simp [MsgHeap.empty]

lemma Inv.focus (hinv : h.Inv) (k : ℕ) (hsize : h'.size = h.size)
    (hrange : ∀ v ∈ h'.values, ∀ k shared, v.kind = .lmsg k shared → k < h.size)
    (hcontents : ∀ k', k' ≠ k → h'.contents k' = h.contents k')
    (hcounts : ∀ k', k' ≠ k → ∀ shared, h'.count k' shared = h.count k' shared)
    (hk : k < h.size → Counted (h'.contents k) (h'.count k true) (h'.count k false)) : h'.Inv where
  range := by
    rw [hsize]
    exact hrange
  counted := by
    intro k' hk'
    rw [hsize] at hk'
    by_cases heq : k' = k
    · rw [heq] at hk' ⊢
      exact hk hk'
    · rw [hcontents k' heq, hcounts k' heq, hcounts k' heq]
      exact hinv.counted k' hk'

lemma Inv.replace (hinv : h.Inv) (hv : h.values[i]? = some v)
    (hrange : ∀ k' shared, w.kind = .lmsg k' shared → k' < h.size)
    (hother : ∀ k', k' ≠ k → ∀ shared, tally w k' shared = tally v k' shared)
    (hk : k < h.size → ∀ s u, s + tally v k true = h.count k true + tally w k true →
      u + tally v k false = h.count k false + tally w k false → Counted c s u) :
    ((h.setContent k c).put i w).Inv := by
  have hcount : ∀ k' shared, ((h.setContent k c).put i w).count k' shared + tally v k' shared =
      h.count k' shared + tally w k' shared :=
    fun k' shared => count_put (h := h.setContent k c) hv w k' shared
  refine hinv.focus k rfl ?_ (fun k' hne => setContent_contents_of_ne hne) ?_ ?_
  · intro v' hv'
    rcases mem_or_eq_of_mem_set hv' with hold | rfl
    · exact hinv.range v' hold
    · exact hrange
  · intro k' hne shared
    have := hcount k' shared
    have := hother k' hne shared
    omega
  · intro hlt
    rw [put_contents, setContent_contents_self]
    exact hk hlt _ _ (hcount k true) (hcount k false)

lemma Inv.extend (hinv : h.Inv) (hrange : ∀ k' shared, w.kind = .lmsg k' shared → k' < h.size)
    (hother : ∀ k', k' ≠ k → ∀ shared, tally w k' shared = 0)
    (hk : k < h.size →
      Counted c (h.count k true + tally w k true) (h.count k false + tally w k false)) :
    ((h.setContent k c).push w).Inv := by
  refine hinv.focus k rfl ?_ (fun k' hne => setContent_contents_of_ne hne) ?_ ?_
  · intro v' hv'
    rcases mem_append.mp hv' with hold | hnew
    · exact hinv.range v' hold
    · rw [mem_singleton.mp hnew]
      exact hrange
  · intro k' hne shared
    rw [count_push, hother k' hne shared]
    rfl
  · intro hlt
    rw [push_contents, setContent_contents_self, count_push, count_push]
    exact hk hlt

/-! ### One value -/

lemma tally_eq_zero (hv : ∀ k shared, v.kind ≠ .lmsg k shared) (k : ℕ) (shared : Bool) :
    tally v k shared = 0 := by
  simp [tally, Holds, hv]

lemma tally_lmsg (hkind : v.kind = .lmsg k shared) (k' : ℕ) (shared' : Bool) :
    tally v k' shared' = if k' = k ∧ shared' = shared ∧ v.spent = false then 1 else 0 := by
  simp only [tally, Holds, hkind, MsgKind.lmsg.injEq]
  congr 1
  rw [eq_iff_iff]
  constructor
  · rintro ⟨⟨rfl, rfl⟩, hspent⟩
    exact ⟨rfl, rfl, hspent⟩
  · rintro ⟨rfl, rfl, hspent⟩
    exact ⟨⟨rfl, rfl⟩, hspent⟩

lemma tally_held (hkind : v.kind = .lmsg k shared) (hown : v.spent = false) :
    tally v k true = (if shared then 1 else 0) ∧ tally v k false = (if shared then 0 else 1) := by
  cases shared <;> simp [tally_lmsg hkind, hown]

lemma value_of (hv : h.values[i]? = some v) : h.value i = .ok v := by
  rw [value, hv]

lemma Inv.lt_size (hinv : h.Inv) (hv : h.values[i]? = some v) (hkind : v.kind = .lmsg k shared) :
    k < h.size :=
  hinv.range v (mem_of_getElem? hv) k shared hkind

lemma Inv.held (hinv : h.Inv) (hv : h.values[i]? = some v) (hkind : v.kind = .lmsg k shared)
    (hown : v.spent = false) :
    h.content k = .ok (h.contents k) ∧ (h.contents k).freed = false ∧
      h.count k true + h.count k false + (h.contents k).reserved < 2 ^ 32 ∧
      if shared then
        1 ≤ h.count k true ∧ h.count k false = 0 ∧
          (h.contents k).refcnt = h.count k true + (h.contents k).reserved
      else h.count k true = 0 ∧ h.count k false = 1 ∧ (h.contents k).reserved = 0 := by
  have hc := hinv.counted k (hinv.lt_size hv hkind)
  have hle := tally_le_count hv k shared
  simp only [tally_lmsg hkind, hown, and_self, if_true] at hle
  have hfreed : (h.contents k).freed = false := by
    by_contra hf
    have hzero := hc.freed_iff.mp (by simpa using hf)
    cases shared <;> omega
  refine ⟨by simp [content, hfreed], hfreed, hc.bound, ?_⟩
  have hcounter := hc.counter hfreed
  cases shared with
  | true =>
    rw [if_pos rfl]
    omega
  | false =>
    rw [if_neg (by decide)]
    omega

/-! ### Closing -/

lemma wordSub_of_le (hn : n ≤ k) (hk : k < 2 ^ 32) : wordSub k n = k - n := by
  unfold wordSub
  omega

lemma drop_of (hc : h.content k = .ok (h.contents k)) (hfreed : (h.contents k).freed = false)
    (hn : n ≤ (h.contents k).refcnt) (hb : (h.contents k).refcnt < 2 ^ 32) :
    h.drop k n = .ok (decide ((h.contents k).refcnt = n),
      h.setContent k { h.contents k with
        refcnt := (h.contents k).refcnt - n, freed := decide ((h.contents k).refcnt = n) }) := by
  have hword := wordSub_of_le hn hb
  unfold drop
  rw [hc]
  by_cases heq : (h.contents k).refcnt = n
  · have hzero : wordSub (h.contents k).refcnt n = 0 := by omega
    simp only [bind, Except.bind, hzero, if_true, free, content, setContent_contents_self, hfreed,
      pure, Except.pure, Bool.false_eq_true, if_false]
    simp [setContent, heq]
  · have hpos : (h.contents k).refcnt - n ≠ 0 := by omega
    simp only [bind, Except.bind, hword, if_neg hpos, pure, Except.pure, heq, decide_false, hfreed]

/-- The heap after a value was closed. -/
structure Closes (h : MsgHeap) (i : ℕ) (v : MsgValue) (h' : MsgHeap) : Prop where
  inv : h'.Inv
  values : h'.values = h.values.set i { v with kind := .invalid }
  size : h'.size = h.size
  reserved : ∀ k, (h'.contents k).reserved = (h.contents k).reserved

lemma setContent_reserved (hc : c.reserved = (h.contents k).reserved) (k' : ℕ) :
    ((h.setContent k c).contents k').reserved = (h.contents k').reserved := by
  by_cases heq : k' = k
  · rw [heq, setContent_contents_self, hc]
  · rw [setContent_contents_of_ne heq]

lemma setContent_self : h.setContent k (h.contents k) = h := by
  simp [setContent]

lemma Inv.put_neutral (hinv : h.Inv) (hv : h.values[i]? = some v)
    (hw : ∀ k shared, w.kind ≠ .lmsg k shared) (hzero : ∀ k shared, tally v k shared = 0) :
    (h.put i w).Inv := by
  have hinv' := hinv.replace (w := w) (k := h.size) (c := h.contents h.size) hv
    (fun k' shared hkind => absurd hkind (hw k' shared))
    (fun k' _ shared => by rw [tally_eq_zero hw, hzero]) (fun hlt => absurd hlt (lt_irrefl _))
  rwa [setContent_self] at hinv'

lemma Inv.release (hinv : h.Inv) (hv : h.values[i]? = some v) (hkind : v.kind = .lmsg k shared)
    (hown : v.spent = false) :
    ∃ c, h.release k shared = .ok (h.setContent k c) ∧ c.reserved = (h.contents k).reserved ∧
      ∀ s u, s + tally v k true = h.count k true → u + tally v k false = h.count k false →
        Counted c s u := by
  obtain ⟨hcontent, hfreed, hbound, hcount⟩ := hinv.held hv hkind hown
  cases shared with
  | true =>
    obtain ⟨hpos, hnone, hrefcnt⟩ : 1 ≤ h.count k true ∧ h.count k false = 0 ∧
        (h.contents k).refcnt = h.count k true + (h.contents k).reserved := by
      simpa using hcount
    refine ⟨{ h.contents k with
        refcnt := (h.contents k).refcnt - 1, freed := decide ((h.contents k).refcnt = 1) }, ?_, rfl, ?_⟩
    · rw [MsgHeap.release, if_pos rfl, drop_of hcontent hfreed (by omega) (by omega)]
      rfl
    · intro s u hs hu
      simp only [tally_lmsg hkind, hown, and_self, if_true, Bool.false_eq_true, false_and, and_false,
        if_false] at hs hu
      refine ⟨by simp only; omega, ?_, fun _ => .inl ⟨by omega, by simp only; omega⟩⟩
      simp only [decide_eq_true_eq]
      omega
  | false =>
    obtain ⟨hnone, hone, hzero⟩ : h.count k true = 0 ∧ h.count k false = 1 ∧
        (h.contents k).reserved = 0 := by
      simpa using hcount
    refine ⟨{ h.contents k with freed := true }, ?_, rfl, ?_⟩
    · simp only [MsgHeap.release, Bool.false_eq_true, if_false, free, hcontent]
      rfl
    intro s u hs hu
    simp only [tally_lmsg hkind, hown, and_self, if_true, reduceCtorEq, false_and, and_false,
      if_false] at hs hu
    exact ⟨by simp only; omega, by simp only [true_iff]; omega, fun hf => by simp at hf⟩

lemma tally_invalid (k : ℕ) (shared : Bool) : tally { v with kind := .invalid } k shared = 0 :=
  tally_eq_zero (by simp) k shared

lemma tally_of_ne (hkind : v.kind = .lmsg k shared) {k' : ℕ} (hne : k' ≠ k) (shared' : Bool) :
    tally v k' shared' = 0 := by
  rw [tally_lmsg hkind, if_neg fun h => hne h.1]

/-- **Closing.** A value that is valid is closed, and the content goes with the last reference. -/
theorem Inv.close (hinv : h.Inv) (hv : h.values[i]? = some v) (hown : v.spent = false) :
    (v.kind = .invalid ∧ h.close i = .ok (false, h)) ∨
      (v.kind ≠ .invalid ∧ ∃ h', h.close i = .ok (true, h') ∧ Closes h i v h') := by
  have hneutral : (∀ k shared, v.kind ≠ .lmsg k shared) →
      Closes h i v (h.put i { v with kind := .invalid }) := by
    intro hkind
    exact ⟨hinv.put_neutral hv (by simp) (tally_eq_zero hkind), rfl, rfl, fun _ => rfl⟩
  unfold MsgHeap.close
  rw [value_of hv]
  cases hkind : v.kind with
  | invalid =>
    left
    simp only [bind, Except.bind, hkind, pure, Except.pure, and_self]
  | vsm | delimiter | cmsg =>
    right
    refine ⟨by simp, _, ?_, hneutral (by simp [hkind])⟩
    simp only [bind, Except.bind, hkind, pure, Except.pure]
  | lmsg k shared =>
    right
    obtain ⟨c, hrelease, hreserved, hcounted⟩ := hinv.release hv hkind hown
    refine ⟨by simp, (h.setContent k c).put i { v with kind := .invalid }, ?_, ?_, rfl, rfl,
      fun k' => setContent_reserved hreserved k'⟩
    · simp only [bind, Except.bind, hkind, hrelease, pure, Except.pure]
    refine hinv.replace hv (by simp) (fun k' hne shared' => ?_) fun _ s u hs hu => hcounted s u ?_ ?_
    · rw [tally_invalid, tally_of_ne hkind hne]
    · simpa [tally_invalid] using hs
    · simpa [tally_invalid] using hu

/-! ### Moving and copying -/

lemma Inv.congr (hinv : h.Inv) (hsize : h'.size = h.size) (hcontents : h'.contents = h.contents)
    (hcounts : ∀ k shared, h'.count k shared = h.count k shared)
    (hrange : ∀ v ∈ h'.values, ∀ k shared, v.kind = .lmsg k shared → k < h.size) : h'.Inv where
  range := by
    rw [hsize]
    exact hrange
  counted := by
    intro k hk
    rw [hcontents, hcounts, hcounts]
    exact hinv.counted k (hsize ▸ hk)

/-- The contents are counted, and nothing was borrowed or lent. -/
structure Tidy (h h' : MsgHeap) : Prop where
  inv : h'.Inv
  reserved : ∀ k, (h'.contents k).reserved = (h.contents k).reserved
  spent : ∀ x ∈ h'.values, x.spent = true → x ∈ h.values

lemma Tidy.refl (hinv : h.Inv) : Tidy h h := ⟨hinv, fun _ => rfl, fun _ hx _ => hx⟩

lemma spent_of_mem_set {l : List MsgValue} {x : MsgValue} (hx : x ∈ l.set i w) (hspent : x.spent = true)
    (hw : w.spent = false) : x ∈ l := by
  rcases mem_or_eq_of_mem_set hx with hmem | rfl
  · exact hmem
  · rw [hw] at hspent
    cases hspent

lemma Closes.tidy (hclose : Closes h i v h') (hown : v.spent = false) : Tidy h h' := by
  refine ⟨hclose.inv, hclose.reserved, fun x hx hspent => ?_⟩
  rw [hclose.values] at hx
  exact spent_of_mem_set hx hspent hown

lemma Closes.at_self (hclose : Closes h i v h') (hv : h.values[i]? = some v) :
    h'.values[i]? = some { v with kind := .invalid } := by
  obtain ⟨hi, -⟩ := List.getElem?_eq_some_iff.mp hv
  rw [hclose.values, List.getElem?_set_self hi]

lemma Closes.at_other (hclose : Closes h i v h') (hne : i ≠ j) : h'.values[j]? = h.values[j]? := by
  rw [hclose.values, getElem?_set_ne hne]

lemma Closes.refs_le (hclose : Closes h i v h') (hv : h.values[i]? = some v) (k : ℕ) :
    h'.refs k ≤ h.refs k := by
  have hcount : ∀ shared, h'.count k shared ≤ h.count k shared := by
    intro shared
    have hput := count_put hv { v with kind := .invalid } k shared
    have heq : (h.put i { v with kind := .invalid }).count k shared = h'.count k shared := by
      rw [count, count, hclose.values]
      rfl
    rw [heq, tally_invalid] at hput
    omega
  have := hcount true
  have := hcount false
  have := hclose.reserved k
  simp only [refs, live]
  omega

/-- **Moving.** The reference goes with the value. -/
theorem Inv.move (hinv : h.Inv) (hv : h.values[i]? = some v) (hw : h.values[j]? = some w)
    (hownv : v.spent = false) (hownw : w.spent = false) :
    ∃ rc h', h.move i j = .ok (rc, h') ∧ Tidy h h' := by
  unfold MsgHeap.move
  simp only [value_of hw, bind, Except.bind, pure, Except.pure]
  by_cases hinvalid : w.kind = .invalid
  · exact ⟨false, h, by rw [if_pos hinvalid], Tidy.refl hinv⟩
  rw [if_neg hinvalid]
  obtain ⟨hkind, hclose⟩ | ⟨hkind, h1, hclose, hcloses⟩ := hinv.close hv hownv
  · exact ⟨false, h, by simp [hclose], Tidy.refl hinv⟩
  have hat := hcloses.at_self hv
  by_cases hij : i = j
  · subst hij
    obtain rfl : v = w := by simpa [hv] using hw
    refine ⟨true, (h1.put i { v with kind := .invalid }).put i MsgValue.init,
      by simp [hclose, value_of hat], ?_, hcloses.reserved, ?_⟩
    · have hsame : (h1.put i { v with kind := .invalid }).put i MsgValue.init = h1.put i MsgValue.init := by
        simp [put, set_set]
      rw [hsame]
      exact hcloses.inv.put_neutral hat (by simp [MsgValue.init]) tally_invalid
    · intro x hx hspent
      refine (hcloses.tidy hownv).spent x ?_ hspent
      exact spent_of_mem_set (spent_of_mem_set hx hspent rfl) hspent hownv
  · have hatj : h1.values[j]? = some w := (hcloses.at_other hij).trans hw
    refine ⟨true, (h1.put i w).put j MsgValue.init, by simp [hclose, value_of hatj], ?_,
      hcloses.reserved, ?_⟩
    · refine hcloses.inv.congr rfl rfl (fun k shared => ?_) fun x hx => ?_
      · have hatj' : (h1.put i w).values[j]? = some w := by
          rw [put_values, getElem?_set_ne hij, hatj]
        have hcount1 := count_put hat w k shared
        have hcount2 := count_put hatj' MsgValue.init k shared
        have hinit : tally MsgValue.init k shared = 0 := tally_eq_zero (by simp [MsgValue.init]) k shared
        have := tally_invalid (v := v) k shared
        omega
      · rcases mem_or_eq_of_mem_set hx with hx | rfl
        · rcases mem_or_eq_of_mem_set hx with hx | rfl
          · exact hcloses.inv.range x hx
          · exact hcloses.inv.range x (mem_of_getElem? hatj)
        · simp [MsgValue.init]
    · intro x hx hspent
      refine (hcloses.tidy hownv).spent x ?_ hspent
      exact spent_of_mem_set (spent_of_mem_set hx hspent rfl) hspent hownw

/-- The counter after `n` references were added. -/
def raised (h : MsgHeap) (k n : ℕ) (shared : Bool) : ℕ :=
  if shared then wordAdd (h.contents k).refcnt n else (n + 1) % 2 ^ 32

lemma Inv.reserve (hinv : h.Inv) (hv : h.values[i]? = some v) (hkind : v.kind = .lmsg k shared)
    (hown : v.spent = false) (hroom : h.refs k + n < 2 ^ 32) :
    ((h.setContent k { h.contents k with
        refcnt := h.raised k n shared, reserved := (h.contents k).reserved + n }).put i
      { v with kind := .lmsg k true }).Inv := by
  obtain ⟨-, hfreed, hbound, hcount⟩ := hinv.held hv hkind hown
  have hw : ({ v with kind := .lmsg k true } : MsgValue).kind = .lmsg k true := rfl
  refine hinv.replace hv ?_ (fun k' hne shared' => ?_) fun _ s u hs hu => ?_
  · intro k' shared' heq
    obtain ⟨rfl, -⟩ := MsgKind.lmsg.inj heq
    exact hinv.lt_size hv hkind
  · rw [tally_of_ne hkind hne, tally_of_ne hw hne]
  · obtain ⟨hvt, hvf⟩ := tally_held hkind hown
    obtain ⟨hwt, hwf⟩ := tally_held hw hown
    rw [hvt, hwt] at hs
    rw [hvf, hwf] at hu
    simp only [refs, live] at hroom
    have hnot : ¬(s + u + ((h.contents k).reserved + n) = 0) := by
      cases shared <;> simp only [Bool.false_eq_true, if_true, if_false] at hs hu hcount <;> omega
    refine ⟨?_, by simp only [hfreed, Bool.false_eq_true, false_iff]; exact hnot, fun _ => .inl ?_⟩
    · cases shared <;> simp only [Bool.false_eq_true, if_true, if_false] at hs hu hcount ⊢ <;> omega
    · simp only [raised, wordAdd]
      cases shared <;> simp only [Bool.false_eq_true, if_true, if_false] at hs hu hcount ⊢ <;> omega

lemma Inv.take (hinv : h.Inv) (hv : h.values[i]? = some v) (hzero : ∀ k shared, tally v k shared = 0)
    (hw : h.values[j]? = some w) (hkind : w.kind = .lmsg k true) (hown : w.spent = false)
    (hpos : 0 < (h.contents k).reserved) :
    ((h.setContent k { h.contents k with reserved := (h.contents k).reserved - 1 }).put i w).Inv := by
  obtain ⟨-, hfreed, hbound, hcount⟩ := hinv.held hw hkind hown
  rw [if_pos rfl] at hcount
  refine hinv.replace hv ?_ (fun k' hne shared' => ?_) fun _ s u hs hu => ?_
  · intro k' shared' heq
    exact hinv.lt_size hw heq
  · rw [hzero, tally_of_ne hkind hne]
  · simp only [tally_lmsg hkind, hown, hzero, and_self, if_true, Bool.false_eq_true, false_and, and_false,
      if_false] at hs hu
    refine ⟨by simp only; omega, ?_, fun _ => .inl ⟨by omega, by simp only; omega⟩⟩
    simp only [hfreed, Bool.false_eq_true, false_iff]
    omega

/-- **Copying.** There is one more reference. -/
theorem Inv.copy (hinv : h.Inv) (hv : h.values[i]? = some v) (hw : h.values[j]? = some w)
    (hownv : v.spent = false) (hownw : w.spent = false)
    (hroom : ∀ k shared, w.kind = .lmsg k shared → h.refs k + 1 < 2 ^ 32) :
    ∃ rc h', h.copy i j = .ok (rc, h') ∧ Tidy h h' := by
  unfold MsgHeap.copy
  simp only [value_of hw, bind, Except.bind, pure, Except.pure]
  by_cases hinvalid : w.kind = .invalid
  · exact ⟨false, h, by rw [if_pos hinvalid], Tidy.refl hinv⟩
  rw [if_neg hinvalid]
  obtain ⟨hkind, hclose⟩ | ⟨hkind, h1, hclose, hcloses⟩ := hinv.close hv hownv
  · exact ⟨false, h, by simp [hclose], Tidy.refl hinv⟩
  have hat := hcloses.at_self hv
  -- The source is read again after the target was closed: it may be the same value.
  obtain ⟨src, hsrc, hownsrc, hroomsrc⟩ : ∃ src, h1.values[j]? = some src ∧ src.spent = false ∧
      ∀ k shared, src.kind = .lmsg k shared → h1.refs k + 1 < 2 ^ 32 ∧ i ≠ j := by
    by_cases hij : i = j
    · subst hij
      exact ⟨_, hat, hownv, by simp⟩
    refine ⟨w, (hcloses.at_other hij).trans hw, hownw, fun k shared hk => ⟨?_, hij⟩⟩
    have := hcloses.refs_le hv k
    have := hroom k shared hk
    omega
  simp only [hclose, Bool.not_true, Bool.false_eq_true, if_false, value_of hsrc]
  have hneutral : (∀ k shared, src.kind ≠ .lmsg k shared) → Tidy h (h1.put i src) := by
    intro hk
    refine ⟨hcloses.inv.put_neutral hat hk tally_invalid, hcloses.reserved, fun x hx hspent => ?_⟩
    exact (hcloses.tidy hownv).spent x (spent_of_mem_set hx hspent hownsrc) hspent
  cases hsrckind : src.kind with
  | lmsg k shared =>
    obtain ⟨hroom1, hij⟩ := hroomsrc k shared hsrckind
    obtain ⟨hcontent, -⟩ := hcloses.inv.held hsrc hsrckind hownsrc
    have hreserve := hcloses.inv.reserve hsrc hsrckind hownsrc hroom1
    have hraised : (if shared then wordAdd (h1.contents k).refcnt 1 else 2) = h1.raised k 1 shared := by
      cases shared <;> rfl
    simp only [share, hsrckind, hcontent, bind, Except.bind, pure, Except.pure, hraised]
    refine ⟨true, _, rfl, ?_, ?_, ?_⟩
    · obtain ⟨hlt, -⟩ := List.getElem?_eq_some_iff.mp hsrc
      have htake := hreserve.take (i := i) (j := j) (v := { v with kind := .invalid })
        (w := { src with kind := .lmsg k true }) (k := k)
        (by rw [put_values, List.getElem?_set_ne (Ne.symm hij)]; exact hat) tally_invalid
        (by rw [put_values, List.getElem?_set_self (by exact hlt)]) rfl hownsrc (by simp)
      simpa [setContent, put] using htake
    · intro k'
      rw [← hcloses.reserved]
      exact setContent_reserved (h := h1) (k := k)
        (c := { h1.contents k with refcnt := h1.raised k 1 shared }) rfl k'
    · intro x hx hspent
      refine (hcloses.tidy hownv).spent x ?_ hspent
      exact spent_of_mem_set (spent_of_mem_set hx hspent hownsrc) hspent hownsrc
  | invalid | vsm | delimiter | cmsg =>
    exact ⟨true, _, by simp [share, hsrckind, pure, Except.pure], hneutral (by simp [hsrckind])⟩

/-- **`add_refs`.** The references that are added are held by no value. -/
theorem Inv.addRefs (hinv : h.Inv) (hv : h.values[i]? = some v) (hown : v.spent = false) (refs : ℤ)
    (hroom : ∀ k shared, v.kind = .lmsg k shared → h.refs k + refs.toNat < 2 ^ 32) :
    h.addRefs i refs = .error .assertion ∨ (h.addRefs i refs = .ok h ∧
        (refs = 0 ∨ 0 < refs ∧ ∀ k shared, v.kind ≠ .lmsg k shared)) ∨
      (0 < refs ∧ ∃ k shared h', v.kind = .lmsg k shared ∧ h.addRefs i refs = .ok h' ∧ h'.Inv ∧
        h' = (h.setContent k { h.contents k with
            refcnt := h.raised k refs.toNat shared, reserved := (h.contents k).reserved + refs.toNat }).put i
          { v with kind := .lmsg k true }) := by
  unfold MsgHeap.addRefs
  simp only [value_of hv, bind, Except.bind, pure, Except.pure, throw, throwThe, MonadExceptOf.throw]
  by_cases hneg : refs < 0
  · exact .inl (by simp [hneg])
  by_cases hmeta : v.metadata = true
  · exact .inl (by simp [hneg, hmeta])
  by_cases hzero : refs = 0
  · exact .inr (.inl ⟨by simp [hmeta, hzero], .inl hzero⟩)
  have hpos : 0 < refs := by omega
  right
  cases hkind : v.kind with
  | lmsg k shared =>
    obtain ⟨hcontent, -⟩ := hinv.held hv hkind hown
    refine .inr ⟨hpos, k, shared, _, rfl, ?_, hinv.reserve hv hkind hown (hroom k shared hkind), rfl⟩
    simp only [hneg, hmeta, hzero, Bool.false_eq_true, if_false, hcontent, raised]
  | invalid | vsm | delimiter | cmsg => exact .inl ⟨by simp [hneg, hmeta, hzero], .inr ⟨hpos, by simp⟩⟩

lemma rmRefs_cases (hv : h.values[i]? = some v) (refs : ℤ) :
    h.rmRefs i refs = .error .assertion ∨ (refs = 0 ∧ h.rmRefs i refs = .ok (true, h)) ∨
      (0 < refs ∧ ∃ k, v.kind = .lmsg k true ∧
        h.rmRefs i refs = (h.drop k refs.toNat).map fun r => (!r.1, r.2.payBack i v k refs.toNat)) ∨
      (0 < refs ∧ (∀ k, v.kind ≠ .lmsg k true) ∧
        h.rmRefs i refs = (h.close i).map fun r => (false, r.2)) := by
  unfold MsgHeap.rmRefs
  simp only [value_of hv, bind, Except.bind, pure, Except.pure, throw, throwThe, MonadExceptOf.throw]
  by_cases hneg : refs < 0
  · exact .inl (by simp [hneg])
  by_cases hmeta : v.metadata = true
  · exact .inl (by simp [hneg, hmeta])
  by_cases hzero : refs = 0
  · exact .inr (.inl ⟨hzero, by simp [hmeta, hzero]⟩)
  have hpos : 0 < refs := by omega
  simp only [hneg, hmeta, hzero, Bool.false_eq_true, if_false]
  split
  case h_1 k heq => exact .inr (.inr (.inl ⟨hpos, k, heq, by cases h.drop k refs.toNat <;> rfl⟩))
  case h_2 hkind => exact .inr (.inr (.inr ⟨hpos, hkind, by cases h.close i <;> rfl⟩))

lemma Inv.payBack (hinv : h.Inv) (hv : h.values[i]? = some v) (hkind : v.kind = .lmsg k true)
    (hown : v.spent = false) (hn : n ≤ (h.contents k).reserved + 1) :
    ∃ freed h1, h.drop k n = .ok (freed, h1) ∧ (h1.payBack i v k n).Inv ∧
      h1.payBack i v k n =
        (h.setContent k { h.contents k with
            refcnt := (h.contents k).refcnt - n, freed := decide ((h.contents k).refcnt = n),
            reserved := (h.contents k).reserved - n }).put i
          { v with spent := decide ((h.contents k).reserved < n) } := by
  obtain ⟨hcontent, hfreed, hbound, hcount⟩ := hinv.held hv hkind hown
  rw [if_pos rfl] at hcount
  have hdrop := drop_of (n := n) hcontent hfreed (by omega) (by omega)
  have heq : ∀ c : Content, c.reserved = (h.contents k).reserved →
      (h.setContent k c).payBack i v k n = (h.setContent k { c with
        reserved := (h.contents k).reserved - n }).put i
          { v with spent := decide ((h.contents k).reserved < n) } := by
    intro c hc
    by_cases hle : n ≤ (h.contents k).reserved
    · have hput : h.values.set i { v with spent := decide ((h.contents k).reserved < n) } = h.values := by
        have hsame : ({ v with spent := decide ((h.contents k).reserved < n) } : MsgValue) = v := by
          rw [decide_eq_false (by omega), ← hown]
        obtain ⟨hi, hget⟩ := List.getElem?_eq_some_iff.mp hv
        rw [hsame, ← hget, List.set_getElem_self]
      simp only [MsgHeap.payBack, setContent_contents_self, hc, if_pos hle]
      simp [setContent, put, hput]
    · simp only [MsgHeap.payBack, setContent_contents_self, hc, if_neg hle]
      simp [setContent, put, Nat.lt_of_not_le hle]
  have hpaid := heq { h.contents k with
    refcnt := (h.contents k).refcnt - n, freed := decide ((h.contents k).refcnt = n) } rfl
  have hwkind : ({ v with spent := decide ((h.contents k).reserved < n) } : MsgValue).kind = .lmsg k true :=
    hkind
  refine ⟨_, _, hdrop, (congrArg Inv hpaid).mpr ?_, hpaid⟩
  refine hinv.replace hv (fun k' shared' heq => ?_) (fun k' hne shared' => ?_) fun _ s u hs hu => ?_
  · exact hinv.range v (List.mem_of_getElem? hv) k' shared' heq
  · rw [tally_of_ne hkind hne, tally_of_ne hwkind hne]
  · obtain ⟨hvt, hvf⟩ := tally_held hkind hown
    rw [hvt, tally_lmsg hwkind] at hs
    rw [hvf, tally_lmsg hwkind] at hu
    by_cases hle : (h.contents k).reserved < n
    · simp only [hle, decide_true, Bool.true_eq_false, and_false, if_true, if_false] at hs hu
      refine ⟨by simp only; omega, ?_, fun _ => .inl ⟨by omega, by simp only; omega⟩⟩
      simp only [decide_eq_true_eq]
      omega
    · simp only [hle, decide_false, and_self, if_true, Bool.false_eq_true, false_and, and_false,
        if_false] at hs hu
      refine ⟨by simp only; omega, ?_, fun _ => .inl ⟨by omega, by simp only; omega⟩⟩
      simp only [decide_eq_true_eq]
      omega

lemma Inv.push_neutral (hinv : h.Inv) (hw : ∀ k shared, w.kind ≠ .lmsg k shared) : (h.push w).Inv := by
  have hinv' := hinv.extend (w := w) (k := h.size) (c := h.contents h.size)
    (fun k' shared hkind => absurd hkind (hw k' shared)) (fun k' _ shared => tally_eq_zero hw k' shared)
    (fun hlt => absurd hlt (lt_irrefl _))
  rwa [setContent_self] at hinv'

/-- **A copy bit by bit.** It takes a reference that no value holds, or the value's own. -/
theorem Inv.podCopy (hinv : h.Inv) (hv : h.values[i]? = some v) (hown : v.spent = false) :
    h.podCopy i = .ok ((h.payCopy i v).push v) ∧ ((h.payCopy i v).push v).Inv := by
  constructor
  · have hsame : ({ v with spent := false } : MsgValue) = v := by rw [← hown]
    simp only [MsgHeap.podCopy, value_of hv, bind, Except.bind, pure, Except.pure, hsame]
  unfold MsgHeap.payCopy
  cases hkind : v.kind with
  | lmsg k shared =>
    obtain ⟨-, hfreed, hbound, hcount⟩ := hinv.held hv hkind hown
    obtain ⟨hvt, hvf⟩ := tally_held hkind hown
    simp only
    split
    case isTrue hpos =>
      refine hinv.extend (fun k' shared' heq => hinv.lt_size hv heq)
        (fun k' hne shared' => tally_of_ne hkind hne shared') fun _ => ?_
      rw [hvt, hvf]
      cases shared with
      | true =>
        simp only [if_true] at hcount ⊢
        refine ⟨by simp only; omega, ?_, fun _ => .inl ⟨by omega, by simp only; omega⟩⟩
        simp only [hfreed, Bool.false_eq_true, false_iff]
        omega
      | false =>
        simp only [Bool.false_eq_true, if_false] at hcount
        omega
    case isFalse hzero =>
      rw [← hkind]
      refine hinv.congr rfl rfl (fun k' shared' => ?_) fun x hx => ?_
      · have hput := count_put hv { v with spent := true } k' shared'
        have hspent : tally { v with spent := true } k' shared' = 0 := by simp [tally, Holds]
        rw [count_push]
        omega
      · rcases mem_append.mp hx with hx | hx
        · rcases mem_or_eq_of_mem_set hx with hx | rfl
          · exact hinv.range x hx
          · exact fun k' shared' heq => hinv.lt_size hv heq
        · rw [mem_singleton.mp hx]
          exact fun k' shared' heq => hinv.lt_size hv heq
  | invalid | vsm | delimiter | cmsg => exact hinv.push_neutral (by simp [hkind])

/-- **A value is overwritten.** Its reference is held by no value then. -/
theorem Inv.init (hinv : h.Inv) (hv : h.values[i]? = some v) :
    h.init i = .ok ((h.payInit v).put i MsgValue.init) ∧ ((h.payInit v).put i MsgValue.init).Inv := by
  constructor
  · simp only [MsgHeap.init, value_of hv, bind, Except.bind, pure, Except.pure]
  have hinit : ∀ k shared, MsgValue.init.kind ≠ .lmsg k shared := by simp [MsgValue.init]
  unfold MsgHeap.payInit
  cases hkind : v.kind with
  | lmsg k shared =>
    simp only
    split
    case isTrue hspent => exact hinv.put_neutral hv hinit (by simp [tally, Holds, hspent])
    case isFalse hown =>
      replace hown : v.spent = false := by simpa using hown
      obtain ⟨-, hfreed, hbound, hcount⟩ := hinv.held hv hkind hown
      obtain ⟨hvt, hvf⟩ := tally_held hkind hown
      refine hinv.replace hv (fun k' shared' heq => absurd heq (hinit k' shared')) (fun k' hne shared' => ?_)
        fun _ s u hs hu => ?_
      · rw [tally_of_ne hkind hne, tally_eq_zero hinit]
      rw [hvt, tally_eq_zero hinit] at hs
      rw [hvf, tally_eq_zero hinit] at hu
      cases shared with
      | true =>
        simp only [if_true] at hcount hs hu
        refine ⟨by simp only; omega, ?_, fun _ => .inl ⟨by omega, by simp only; omega⟩⟩
        simp only [hfreed, Bool.false_eq_true, false_iff]
        omega
      | false =>
        simp only [Bool.false_eq_true, if_false] at hcount hs hu
        refine ⟨by simp only; omega, ?_, fun _ => .inr ⟨by omega, by simp only; omega⟩⟩
        simp only [hfreed, Bool.false_eq_true, false_iff]
        omega
  | invalid | vsm | delimiter | cmsg => exact hinv.put_neutral hv hinit (tally_eq_zero (by simp [hkind]))

lemma Inv.count_eq_zero (hinv : h.Inv) (hk : h.size ≤ k) (shared : Bool) : h.count k shared = 0 := by
  rw [count, countP_eq_zero]
  intro v hv
  simp only [decide_eq_true_eq]
  rintro ⟨hkind, -⟩
  have := hinv.range v hv k shared hkind
  omega

/-- **A new message.** -/
theorem Inv.create (hinv : h.Inv) (metadata : Bool) (new : NewMsg) : (h.create metadata new).Inv := by
  cases new with
  | vsm | cmsg | delimiter => exact hinv.push_neutral (by simp)
  | lmsg =>
    have hkind : (⟨.lmsg h.size false, metadata, false⟩ : MsgValue).kind = .lmsg h.size false := rfl
    constructor
    · intro v hv k shared heq
      rcases mem_append.mp hv with hv | hv
      · exact (hinv.range v hv k shared heq).trans (lt_succ_self _)
      · rw [mem_singleton.mp hv] at heq
        obtain ⟨rfl, -⟩ := MsgKind.lmsg.inj heq
        exact lt_succ_self _
    · intro k hk
      have hcount : ∀ shared, (h.create metadata .lmsg).count k shared =
          h.count k shared + tally ⟨.lmsg h.size false, metadata, false⟩ k shared :=
        fun shared => count_push _ k shared
      rw [hcount, hcount]
      by_cases heq : k = h.size
      · obtain ⟨hvt, hvf⟩ := tally_held hkind rfl
        rw [heq, hvt, hvf, hinv.count_eq_zero le_rfl, hinv.count_eq_zero le_rfl]
        have hnew : (h.create metadata .lmsg).contents h.size = ⟨0, false, 0⟩ := update_self ..
        rw [hnew]
        exact ⟨by simp, by simp, fun _ => .inr ⟨rfl, rfl⟩⟩
      · have hold : (h.create metadata .lmsg).contents k = h.contents k := update_of_ne heq ..
        rw [hold, tally_of_ne hkind heq, tally_of_ne hkind heq]
        exact hinv.counted k (lt_of_le_of_ne (le_of_lt_succ hk) heq)

end MsgHeap

end Zmq
