import ZeroMQ.Content.Counting

/-!
# The references of a message that is distributed

`dist_t::distribute` adds a reference for every matching pipe but one before it writes, gives back those of
the writes that failed, and leaves the value without closing it. While it is at it the references at its
disposal are those that are to go to copies, with the value's own among them: `Distributing` is the account.
In the end there is none left, so that the counter of the content is the number of values again.
-/

namespace Zmq

open Foundation List Nat Bool

namespace MsgHeap

variable {h h₀ h' : MsgHeap} {i k n extra : ℕ} {shared : Bool} {v w : MsgValue}

/-- One if the value points to the content. -/
def points (v : MsgValue) (k : ℕ) : ℕ :=
  match v.kind with
  | .lmsg k' _ => if k = k' then 1 else 0
  | _ => 0

/-- The references of one value. -/
def own (v : MsgValue) (k : ℕ) : ℕ := if v.spent then 0 else points v k

lemma points_lmsg (hkind : v.kind = .lmsg k shared) (k' : ℕ) :
    points v k' = if k' = k then 1 else 0 := by
  rw [points, hkind]

lemma points_eq_zero (hkind : ∀ k shared, v.kind ≠ .lmsg k shared) (k' : ℕ) : points v k' = 0 := by
  unfold points
  split
  case h_1 heq => exact absurd heq (hkind _ _)
  case h_2 => rfl

lemma kind_cases (v : MsgValue) :
    (∃ k shared, v.kind = .lmsg k shared) ∨ ∀ k shared, v.kind ≠ .lmsg k shared := by
  by_cases hkind : ∃ k shared, v.kind = .lmsg k shared
  · exact .inl hkind
  · exact .inr fun k shared heq => hkind ⟨k, shared, heq⟩

/-- The heap in the middle of a distribution that began at `h₀`, with `extra` references at its
disposal. -/
structure Distributing (h₀ : MsgHeap) (i extra : ℕ) (v : MsgValue) (h : MsgHeap) : Prop where
  inv : h.Inv
  at_self : h.values[i]? = some v
  /-- The references at its disposal are those that no value holds and the value's own. -/
  account : ∀ k, (h.contents k).reserved + own v k = (h₀.contents k).reserved + points v k * extra
  own_last : v.spent = true → ∃ k, points v k = 1 ∧ (h.contents k).reserved = 0
  spent : ∀ i' x, i' ≠ i → h.values[i']? = some x → x.spent = true → x ∈ h₀.values

lemma Distributing.start (hinv : h.Inv) (hv : h.values[i]? = some v) (hown : v.spent = false) :
    Distributing h i 1 v h where
  inv := hinv
  at_self := hv
  account := by
    intro k
    simp [own, hown]
  own_last := by
    intro hspent
    rw [hown] at hspent
    cases hspent
  spent := fun _ _ _ hx _ => mem_of_getElem? hx

lemma Distributing.of_not_points (hd : Distributing h0 i n v h)
    (hkind : ∀ k shared, v.kind ≠ .lmsg k shared) (extra : ℕ) : Distributing h0 i extra v h where
  inv := hd.inv
  at_self := hd.at_self
  account := by
    intro k
    have := hd.account k
    rwa [points_eq_zero hkind, zero_mul] at this ⊢
  own_last := hd.own_last
  spent := hd.spent

lemma Distributing.own_of_pos (hd : Distributing h0 i extra v h) (hpos : 0 < extra) : v.spent = false := by
  by_contra hspent
  replace hspent : v.spent = true := by simpa using hspent
  obtain ⟨k, hk, hzero⟩ := hd.own_last hspent
  have haccount := hd.account k
  rw [hk, own, hspent, hzero, if_pos rfl] at haccount
  omega

lemma Distributing.addRefs (hinv : h.Inv) (hv : h.values[i]? = some v) (hown : v.spent = false)
    (hpos : 0 < n) (hroom : ∀ k shared, v.kind = .lmsg k shared → h.refs k + (n - 1) < 2 ^ 32) :
    h.addRefs i (n - 1 : ℤ) = .error .assertion ∨
      ∃ h' w, h.addRefs i (n - 1 : ℤ) = .ok h' ∧ Distributing h i n w h' := by
  have hnat : ((n : ℤ) - 1).toNat = n - 1 := by omega
  obtain hassert | ⟨hok, hcase⟩ | ⟨-, k, shared, h', hkind, hok, hinv', rfl⟩ :=
    hinv.addRefs hv hown ((n : ℤ) - 1) (by rw [hnat]; exact hroom)
  · exact .inl hassert
  · right
    have hstart := Distributing.start hinv hv hown
    obtain hone | ⟨-, hkind⟩ := hcase
    · obtain rfl : n = 1 := by omega
      exact ⟨h, v, hok, hstart⟩
    · exact ⟨h, v, hok, hstart.of_not_points hkind n⟩
  · refine .inr ⟨_, { v with kind := .lmsg k true }, hok, ?_⟩
    have hw : ({ v with kind := .lmsg k true } : MsgValue).kind = .lmsg k true := rfl
    obtain ⟨hi, -⟩ := List.getElem?_eq_some_iff.mp hv
    refine ⟨hinv', by rw [put_values]; exact List.getElem?_set_self hi, fun k' => ?_, ?_, ?_⟩
    · rw [own, points_lmsg hw, put_contents]
      by_cases heq : k' = k
      · subst heq
        simp only [setContent_contents_self, hnat, hown, false_eq_true, if_false, if_true]
        omega
      · simp only [setContent_contents_of_ne heq, heq, if_false, hown, false_eq_true, zero_mul]
    · intro hspent
      exact absurd hspent (by simp [hown])
    · intro i' x hne hx _
      rw [put_values, List.getElem?_set_ne (Ne.symm hne)] at hx
      exact List.mem_of_getElem? hx

lemma spent_of_append {l : List MsgValue} {i' : ℕ} {x : MsgValue} (hv : v.spent = false)
    (hx : (l ++ [v])[i']? = some x) (hspent : x.spent = true) : l[i']? = some x := by
  by_cases hlt : i' < l.length
  · rwa [getElem?_append_left hlt] at hx
  rw [getElem?_append_right (by omega)] at hx
  obtain rfl := mem_singleton.mp (mem_of_getElem? hx)
  rw [hv] at hspent
  cases hspent

lemma Distributing.podCopy (hd : Distributing h0 i (extra + 1) v h) :
    ∃ h' w, h.podCopy i = .ok h' ∧ Distributing h0 i extra w h' ∧ w.kind = v.kind := by
  have hown := hd.own_of_pos (succ_pos _)
  obtain ⟨hok, hinv⟩ := hd.inv.podCopy hd.at_self hown
  obtain ⟨hi, -⟩ := List.getElem?_eq_some_iff.mp hd.at_self
  rcases kind_cases v with ⟨k, shared, hkind⟩ | hkind
  · have haccount := hd.account
    by_cases hpos : 0 < (h.contents k).reserved
    · have hpay : h.payCopy i v =
          h.setContent k { h.contents k with reserved := (h.contents k).reserved - 1 } := by
        simp only [payCopy, hkind, if_pos hpos]
      rw [hpay] at hok hinv
      refine ⟨_, v, hok, ⟨hinv, ?_, fun k' => ?_, ?_, ?_⟩, rfl⟩
      · exact (List.getElem?_append_left hi).trans hd.at_self
      · have := haccount k'
        rw [points_lmsg hkind] at this ⊢
        rw [push_contents]
        by_cases heq : k' = k
        · subst heq
          rw [if_pos rfl] at this ⊢
          rw [setContent_contents_self]
          simp only
          omega
        · rw [if_neg heq] at this ⊢
          rw [setContent_contents_of_ne heq]
          omega
      · intro hspent
        rw [hown] at hspent
        cases hspent
      · intro i' x hne hx hspent
        exact hd.spent i' x hne (spent_of_append hown hx hspent) hspent
    · have hpay : h.payCopy i v = h.put i { v with spent := true } := by
        simp only [payCopy, hkind, if_neg hpos]
      rw [hpay] at hok hinv
      have hw : ({ v with spent := true } : MsgValue).kind = .lmsg k shared := hkind
      refine ⟨_, { v with spent := true }, hok, ⟨hinv, ?_, fun k' => ?_, ?_, ?_⟩, rfl⟩
      · refine (List.getElem?_append_left (by simpa using hi)).trans ?_
        rw [put_values, List.getElem?_set_self hi]
      · have := haccount k'
        rw [own, hown, points_lmsg hkind] at this
        rw [own, points_lmsg hw]
        simp only [push_contents, put_contents, if_true]
        by_cases heq : k' = k
        · subst heq
          simp only [false_eq_true, if_false, if_true] at this ⊢
          omega
        · simp only [false_eq_true, if_false, if_neg heq] at this ⊢
          omega
      · intro _
        refine ⟨k, by rw [points_lmsg hw, if_pos rfl], ?_⟩
        rw [push_contents, put_contents]
        omega
      · intro i' x hne hx hspent
        have hx' := spent_of_append hown hx hspent
        rw [put_values, List.getElem?_set_ne (Ne.symm hne)] at hx'
        exact hd.spent i' x hne hx' hspent
  · have hpay : h.payCopy i v = h := by
      unfold payCopy
      split
      case h_1 heq => exact absurd heq (hkind _ _)
      case h_2 => rfl
    rw [hpay] at hok hinv
    have hd' := hd.of_not_points hkind extra
    refine ⟨_, v, hok, ⟨hinv, (List.getElem?_append_left hi).trans hd.at_self, hd'.account, hd.own_last, ?_⟩,
      rfl⟩
    intro i' x hne hx hspent
    exact hd.spent i' x hne (spent_of_append hown hx hspent) hspent

lemma Distributing.distributeFrom (t : Targets) (n : ℕ) {j : ℕ} {d : Dist} (hwf : d.WF)
    (hn : j + n = d.matching) (hback : ∀ p, d.IsMatching p → t.back p = none)
    (hd : Distributing h0 i (extra + n) v h) :
    Yields (distributeFrom t i n j d h) (fun r => ∃ w, r.1 ≤ n ∧
      Distributing h0 i (extra + r.1) w r.2.2 ∧ w.kind = v.kind) (· ≠ .freed) := by
  induction n generalizing j d h v extra with
  | zero => exact ⟨v, le_rfl, hd, rfl⟩
  | succ n ih =>
    have hma := hwf.matching
    have hae := hwf.active
    have hle := hwf.eligible
    obtain ⟨p, hp⟩ := PipeArray.exists_item (a := d.pipes) (i := j) (by omega)
    have hidx := hwf.pipes j p hp
    have hmatch : d.IsMatching p := ⟨mem_of_getElem? hp, by omega⟩
    simp only [MsgHeap.distributeFrom, hp]
    cases haccepts : t.accepts p with
    | true =>
      obtain ⟨h1, v1, hcopy, hd1, hkind1⟩ := hd.podCopy
      rw [if_pos rfl, hback p hmatch, writePipe]
      refine Yields.bind (Q := fun x => h1 = x) (by rw [hcopy]; rfl) ?_
      rintro _ rfl
      refine (ih hwf (j := j + 1) (by omega) hback hd1).mono ?_
      rintro r ⟨w, hfailed, hd', hkind⟩
      exact ⟨w, by omega, hd', hkind.trans hkind1⟩
    | false =>
      obtain ⟨d1, hd1, -, hmatching1, -, hholds1⟩ := hwf.leave hmatch.1
      rw [if_pos hmatch.2] at hmatching1
      have hback1 : ∀ q, d1.IsMatching q → t.back q = none := by
        intro q hq
        exact hback q ((hholds1.matching_iff q).mp hq).1
      have hextra : extra + (n + 1) = (extra + 1) + n := by omega
      rw [hextra] at hd
      rw [if_neg (by decide), hwf.demote hmatch, hd1]
      refine (ih hholds1.wf (j := j) (by omega) hback1 hd).bind ?_
      rintro ⟨failed, d', h'⟩ ⟨w, hfailed, hd', hkind⟩
      refine ⟨w, succ_le_succ hfailed, ?_, hkind⟩
      have hextra' : extra + (failed + 1) = extra + 1 + failed := by omega
      rw [hextra']
      exact hd'

lemma Distributing.closes (hd : Distributing h0 i n v h) (hown : v.spent = false)
    (hone : ∀ k shared, v.kind = .lmsg k shared → n = 1) (hcloses : Closes h i v h') :
    Distributing h0 i 0 { v with kind := .invalid } h' := by
  have hzero : ∀ k, points { v with kind := .invalid } k = 0 := points_eq_zero (by simp)
  refine ⟨hcloses.inv, hcloses.at_self hd.at_self, fun k => ?_, fun hspent => ?_, fun i' x hne hx hspent => ?_⟩
  · have haccount := hd.account k
    rw [own, hown, if_neg (by decide)] at haccount
    rw [own, hzero, hcloses.reserved, zero_mul, ite_self, add_zero]
    rcases kind_cases v with ⟨k', shared, hkind⟩ | hkind
    · rw [hone k' shared hkind, mul_one] at haccount
      omega
    · rw [points_eq_zero hkind] at haccount
      omega
  · exact absurd hspent (by simp [hown])
  · rw [hcloses.at_other (Ne.symm hne)] at hx
    exact hd.spent i' x hne hx hspent

lemma Distributing.rmRefs (hd : Distributing h0 i n v h) (hpos : 0 < n) :
    h.rmRefs i n = .error .assertion ∨
      ∃ rc h' w, h.rmRefs i n = .ok (rc, h') ∧ Distributing h0 i 0 w h' := by
  have hown := hd.own_of_pos hpos
  have hv := hd.at_self
  obtain ⟨hi, -⟩ := List.getElem?_eq_some_iff.mp hv
  obtain hassert | ⟨hzero, -⟩ | ⟨-, k, hkind, heq⟩ | ⟨-, hkind, heq⟩ := rmRefs_cases hv (n : ℤ)
  · exact .inl hassert
  · omega
  · right
    have haccount := hd.account k
    rw [own, hown, points_lmsg hkind, if_neg (by decide), if_pos rfl, one_mul] at haccount
    obtain ⟨freed, h1, hdrop, hinv, hpaid⟩ := hd.inv.payBack (n := n) hv hkind hown (by omega)
    have hw : ({ v with spent := decide ((h.contents k).reserved < n) } : MsgValue).kind = .lmsg k true :=
      hkind
    refine ⟨!freed, h1.payBack i v k n, { v with spent := decide ((h.contents k).reserved < n) }, ?_,
      ⟨hinv, ?_, fun k' => ?_, fun hspent => ?_, fun i' x hne hx hspent => ?_⟩⟩
    · rw [heq, Int.toNat_natCast, hdrop]
      rfl
    · rw [hpaid, put_values]
      exact List.getElem?_set_self hi
    · rw [hpaid, put_contents, own, points_lmsg hw, mul_zero]
      by_cases heq : k' = k
      · subst heq
        simp only [setContent_contents_self, if_true, decide_eq_true_eq]
        split <;> omega
      · have := hd.account k'
        rw [own, hown, points_lmsg hkind, if_neg heq] at this
        rw [setContent_contents_of_ne heq, if_neg heq]
        split <;> simpa using this
    · refine ⟨k, by rw [points_lmsg hw, if_pos rfl], ?_⟩
      rw [hpaid, put_contents, setContent_contents_self]
      simp only [decide_eq_true_eq] at hspent ⊢
      omega
    · rw [hpaid, put_values, List.getElem?_set_ne (Ne.symm hne)] at hx
      exact hd.spent i' x hne hx hspent
  · right
    -- A value that is not shared is closed, and it was the only one.
    have hone : ∀ k shared, v.kind = .lmsg k shared → n = 1 := by
      intro k shared hkind'
      cases shared with
      | true => exact absurd hkind' (hkind k)
      | false =>
        obtain ⟨-, -, -, hcount⟩ := hd.inv.held hv hkind' hown
        simp only [false_eq_true, if_false] at hcount
        have haccount := hd.account k
        rw [own, hown, points_lmsg hkind', if_neg (by decide), if_pos rfl, one_mul] at haccount
        omega
    obtain ⟨hinvalid, hclose⟩ | ⟨-, h', hclose, hcloses⟩ := hd.inv.close hv hown
    · refine ⟨false, h, v, by rw [heq, hclose]; rfl, ?_⟩
      exact hd.of_not_points (by simp [hinvalid]) 0
    · exact ⟨false, h', _, by rw [heq, hclose]; rfl, hd.closes hown hone hcloses⟩

lemma Distributing.init (hd : Distributing h0 i 0 v h) : Yields (h.init i) (Tidy h0) (· ≠ .freed) := by
  obtain ⟨hok, hinv⟩ := hd.inv.init hd.at_self
  rw [hok]
  refine ⟨hinv, fun k => ?_, fun x hx hspent => ?_⟩
  · have haccount := hd.account k
    rw [mul_zero, add_zero] at haccount
    rw [← haccount, put_contents, payInit, own]
    rcases kind_cases v with ⟨k', shared, hkind⟩ | hkind
    · rw [points_lmsg hkind]
      simp only [hkind]
      by_cases hspent : v.spent = true
      · simp [hspent]
      simp only [hspent, false_eq_true, if_false]
      by_cases heq : k = k'
      · subst heq
        simp
      · rw [setContent_contents_of_ne heq, if_neg heq, add_zero]
    · rw [points_eq_zero hkind]
      split
      case h_1 heq => exact absurd heq (hkind _ _)
      case h_2 => simp
  · obtain ⟨i', hi'⟩ := List.mem_iff_getElem?.mp hx
    rw [put_values] at hi'
    have hvalues : (h.payInit v).values = h.values := by
      unfold payInit
      split
      · split <;> rfl
      · rfl
    rw [hvalues] at hi'
    by_cases hne : i' = i
    · obtain ⟨hlt, -⟩ := List.getElem?_eq_some_iff.mp hd.at_self
      rw [hne, List.getElem?_set_self hlt] at hi'
      rw [← Option.some.inj hi'] at hspent
      cases hspent
    · rw [List.getElem?_set_ne (Ne.symm hne)] at hi'
      exact hd.spent i' x hne hi' hspent

/-! ### The whole distribution -/

lemma toInt_cases (hn : n < 2 ^ 32) : toInt n = n ∨ toInt n < 0 := by
  unfold toInt
  rw [Int.bmod_def]
  split <;> omega

lemma toInt_of_lt (hn : n < 2 ^ 31) : toInt n = n := by
  unfold toInt
  rw [Int.bmod_def]
  split <;> omega

lemma Distributing.closeInit (hd : Distributing h0 i n v h) (hown : v.spent = false)
    (hone : ∀ k shared, v.kind = .lmsg k shared → n = 1) :
    Yields (h.closeInit i) (Tidy h0) (· ≠ .freed) := by
  unfold MsgHeap.closeInit
  obtain ⟨-, hclose⟩ | ⟨-, h1, hclose, hcloses⟩ := hd.inv.close hd.at_self hown
  · simp [hclose, bind, Except.bind, Yields, throw, throwThe, MonadExceptOf.throw]
  · have hinit := (hd.closes hown hone hcloses).init
    simpa [hclose, bind, Except.bind] using hinit

lemma Distributing.addRefs_matching (hinv : h.Inv) (hv : h.values[i]? = some v) (hown : v.spent = false)
    (hpos : 0 < n) (hroom : ∀ k shared, v.kind = .lmsg k shared → h.refs k + (n - 1) < 2 ^ 32) :
    Yields (h.addRefs i (toInt n - 1)) (fun h' => ∃ w, Distributing h i n w h' ∧
      ((∀ k shared, w.kind ≠ .lmsg k shared) ∨ n < 2 ^ 31)) (· ≠ .freed) := by
  have hassertion : ∀ {r : Except MsgFault MsgHeap} {Q : MsgHeap → Prop}, r = .error .assertion →
      Yields r Q (· ≠ .freed) := by
    rintro _ Q rfl
    exact fun heq => (by cases heq)
  rcases kind_cases v with ⟨k, shared, hkind⟩ | hkind
  · have hlt : n < 2 ^ 32 := by
      have := hroom k shared hkind
      have hheld := (hinv.held hv hkind hown).2.2.2
      simp only [refs, live] at this
      cases shared <;> simp only [false_eq_true, if_true, if_false] at hheld <;> omega
    obtain hint | hneg := toInt_cases hlt
    · rw [hint]
      have hsmall : n < 2 ^ 31 := by
        unfold toInt at hint
        rw [Int.bmod_def] at hint
        split at hint <;> omega
      obtain hassert | ⟨h', w, hok, hd⟩ := Distributing.addRefs hinv hv hown hpos hroom
      · exact hassertion hassert
      · rw [hok]
        exact ⟨w, hd, .inr hsmall⟩
    · have : toInt n - 1 < 0 := by omega
      apply hassertion
      simp [MsgHeap.addRefs, this, bind, Except.bind, throw, throwThe, MonadExceptOf.throw]
  · obtain hassert | ⟨hok, -⟩ | ⟨-, k, shared, -, hkind', -⟩ :=
      hinv.addRefs hv hown (toInt n - 1) (fun k shared hk => absurd hk (hkind k shared))
    · exact hassertion hassert
    · rw [hok]
      exact ⟨v, (Distributing.start hinv hv hown).of_not_points hkind n, .inl hkind⟩
    · exact absurd hkind' (hkind k shared)

lemma Distributing.rmRefs_failed (hd : Distributing h0 i n v h) (hn : toInt n ≠ 0)
    (hsmall : (∀ k shared, v.kind ≠ .lmsg k shared) ∨ n < 2 ^ 31) :
    h.rmRefs i (toInt n) = .error .assertion ∨
      ∃ rc h' w, h.rmRefs i (toInt n) = .ok (rc, h') ∧ Distributing h0 i 0 w h' := by
  obtain hkind | hlt := hsmall
  · have hown : v.spent = false := (hd.of_not_points hkind 1).own_of_pos one_pos
    obtain hassert | ⟨hzero, -⟩ | ⟨-, k, hkind', -⟩ | ⟨-, -, heq⟩ := rmRefs_cases hd.at_self (toInt n)
    · exact .inl hassert
    · exact absurd hzero hn
    · exact absurd hkind' (hkind k true)
    · right
      obtain ⟨-, hclose⟩ | ⟨-, h', hclose, hcloses⟩ := hd.inv.close hd.at_self hown
      · exact ⟨false, h, v, by rw [heq, hclose]; rfl, hd.of_not_points hkind 0⟩
      · refine ⟨false, h', _, by rw [heq, hclose]; rfl, hd.closes hown ?_ hcloses⟩
        exact fun k shared hk => absurd hk (hkind k shared)
  · rw [toInt_of_lt hlt] at hn ⊢
    exact hd.rmRefs (by omega)

lemma Distributing.giveBack (hd : Distributing h0 i n v h)
    (hsmall : (∀ k shared, v.kind ≠ .lmsg k shared) ∨ n < 2 ^ 31) :
    Yields (h.giveBack i n) (fun h' => ∃ w, Distributing h0 i 0 w h') (· ≠ .freed) := by
  unfold MsgHeap.giveBack
  by_cases hzero : toInt n = 0
  · rw [if_pos hzero]
    obtain hkind | hlt := hsmall
    · exact ⟨v, hd.of_not_points hkind 0⟩
    · rw [toInt_of_lt hlt] at hzero
      obtain rfl : n = 0 := by omega
      exact ⟨v, hd⟩
  · rw [if_neg hzero]
    obtain hassert | ⟨rc, h', w, hok, hd'⟩ := hd.rmRefs_failed hzero hsmall
    · rw [hassert]
      exact fun heq => (by cases heq)
    · rw [hok]
      exact ⟨w, hd'⟩

/-- **Distribution.** The references are as they were; those of the copies have come in addition. -/
theorem Inv.distribute (hinv : h.Inv) (hv : h.values[i]? = some v) (hown : v.spent = false) {d : Dist}
    (hwf : d.WF) {t : Targets} (hback : ∀ p, d.IsMatching p → t.back p = none)
    (hroom : ∀ k shared, v.kind = .lmsg k shared → h.refs k + (d.matching - 1) < 2 ^ 32) :
    Yields (h.distribute i d t) (fun r => Tidy h r.2) (· ≠ .freed) := by
  have hstart := Distributing.start hinv hv hown
  unfold MsgHeap.distribute
  refine Yields.bind (Q := fun x => v = x) (by rw [value_of hv]; rfl) ?_
  rintro _ rfl
  by_cases hzero : d.matching = 0
  · rw [if_pos hzero]
    refine (hstart.closeInit hown fun _ _ _ => rfl).bind ?_
    exact fun h' htidy => htidy
  have hpos : 0 < d.matching := pos_of_ne_zero hzero
  rw [if_neg hzero]
  by_cases hvsm : v.kind = .vsm
  · rw [if_pos hvsm]
    have hkind : ∀ k shared, v.kind ≠ .lmsg k shared := by simp [hvsm]
    have hloop := hstart.of_not_points hkind (0 + d.matching)
    refine (hloop.distributeFrom t d.matching hwf (zero_add _) hback).bind ?_
    rintro ⟨failed, d', h1⟩ ⟨w, -, hd, hkind1⟩
    have hkind2 : ∀ k shared, w.kind ≠ .lmsg k shared := by simp [hkind1, hvsm]
    have hown1 : w.spent = false := (hd.of_not_points hkind2 1).own_of_pos one_pos
    refine (hd.closeInit hown1 fun k shared hk => absurd hk (hkind2 k shared)).bind ?_
    exact fun h' htidy => htidy
  · rw [if_neg hvsm]
    refine (Distributing.addRefs_matching hinv hv hown hpos hroom).bind ?_
    rintro h1 ⟨w, hd, hsmall⟩
    rw [← zero_add d.matching] at hd
    refine (hd.distributeFrom t d.matching hwf (zero_add _) hback).bind ?_
    rintro ⟨failed, d', h2⟩ ⟨w2, hfailed, hd2, hkind2⟩
    rw [zero_add] at hd2
    refine (hd2.giveBack (hsmall.imp (fun hk => by rwa [hkind2]) (lt_of_le_of_lt hfailed))).bind ?_
    rintro h3 ⟨w3, hd3⟩
    refine hd3.init.bind ?_
    exact fun h' htidy => htidy

end MsgHeap

end Zmq
