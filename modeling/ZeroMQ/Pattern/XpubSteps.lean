import ZeroMQ.Pattern.Xpub

/-!
# The steps of a publisher

`XpubCore` is what holds of a publisher between two steps whatever its peers and the application do:
the distributor knows the pipes, passive pipes cannot be written to, and the trie stores who is
subscribed to what. Every step keeps it, except that a peer can make an assertion in the trie fail.

What else a step does is described twice. `Calm` is about the message in progress, which only a frame
that is accepted changes, and `Passes` is about what is passed upstream.
-/

namespace Zmq

open Foundation Function List Nat

lemma EndAct.Manages.keepsOutput {a : EndAct} (h : a.Manages) : a.KeepsOutput := by
  cases a <;> trivial

/-! ### What is passed upstream -/

namespace Subscribed

variable {S : Subscribed} {key : List UInt8} {p : ℕ}

lemma mem_topics : key ∈ S.topics ↔ ∃ q, (key, q) ∈ S := by
  simp [topics]

lemma not_mem_topics : key ∉ S.topics ↔ ∀ x ∈ S, x.1 ≠ key := by
  rw [mem_topics]
  constructor
  · rintro hnone x hx rfl
    exact hnone ⟨x.2, hx⟩
  · rintro hnone ⟨q, hq⟩
    exact hnone _ hq rfl

lemma mem_topics_insert {k : List UInt8} :
    k ∈ topics (insert (key, p) S) ↔ k = key ∨ k ∈ S.topics := by
  simp [topics]

end Subscribed

namespace Round

variable {S : Subscribed} {key : List UInt8} {p : ℕ} {verbose : Bool}

lemma exact_add {v unique : Bool} (hunique : unique = true ↔ key ∉ S.topics) :
    Exact ⟨S, insert (key, p) S, v, false, if unique then [1 :: key] else []⟩ := by
  intro k
  simp only [Subscribed.mem_topics_insert]
  by_cases hk : k = key
  · subst hk
    cases unique with
    | true => simp [hunique.1 rfl]
    | false => simp [not_not.1 (mt hunique.2 Bool.false_ne_true)]
  · cases unique with
    | true => simp [hk, Ne.symm hk]
    | false => simp [hk]

lemma exact_rm {v unique : Bool} (hmem : (key, p) ∈ S)
    (hunique : unique = true ↔ key ∉ Subscribed.topics (S.erase (key, p))) :
    Exact ⟨S, S.erase (key, p), v, false, if unique then [0 :: key] else []⟩ := by
  intro k
  by_cases hk : k = key
  · subst hk
    have hbefore : k ∈ S.topics := Subscribed.mem_topics.2 ⟨p, hmem⟩
    cases unique with
    | true => simp [hbefore, hunique.1 rfl]
    | false => simp [hbefore, not_not.1 (mt hunique.2 Bool.false_ne_true)]
  · have hsame : k ∈ Subscribed.topics (S.erase (key, p)) ↔ k ∈ S.topics := by
      simp [Subscribed.mem_topics, hk]
    cases unique with
    | true => simp [hsame, Ne.symm hk]
    | false => simp [hsame]

lemma exact_same {out : List (List UInt8)} (h0 : ∀ key, 0 :: key ∉ out)
    (h1 : ∀ key, 1 :: key ∉ out) : Exact ⟨S, S, verbose, false, out⟩ := by
  intro k
  simp [count_eq_zero.2 (h0 k), count_eq_zero.2 (h1 k)]

lemma exact_rmPipe {calls : List (List UInt8)} (hcalls : (calls : Multiset (List UInt8)) =
      ((S.filter fun x => ∀ y ∈ S, y.1 = x.1 → y.2 = p).image Prod.fst).val) :
    Exact ⟨S, S.filter fun x => x.2 ≠ p, verbose, false, calls.map (0 :: ·)⟩ := by
  intro k
  have hsub : k ∈ Subscribed.topics (S.filter fun x => x.2 ≠ p) → k ∈ S.topics := by
    rw [Subscribed.mem_topics, Subscribed.mem_topics]
    rintro ⟨q, hq⟩
    exact ⟨q, (Finset.mem_filter.1 hq).1⟩
  refine ⟨?_, ?_⟩
  · rw [count_eq_zero.2 (by simp), if_neg fun h => h.2 (hsub h.1)]
  have hcount : (calls.map (0 :: ·)).count (0 :: k) = calls.count k :=
    count_map_of_injective calls (0 :: ·) (cons_injective) k
  have hnodup : calls.Nodup := by
    rw [← Multiset.coe_nodup, hcalls]
    exact Finset.nodup _
  rw [hcount, hnodup.count]
  refine if_congr ?_ rfl rfl
  rw [← Multiset.mem_coe, hcalls]
  rw [Finset.mem_val, Finset.mem_image, Subscribed.mem_topics, Subscribed.mem_topics]
  constructor
  · rintro ⟨x, hx, rfl⟩
    obtain ⟨hx, hall⟩ := Finset.mem_filter.1 hx
    refine ⟨⟨x.2, hx⟩, ?_⟩
    rintro ⟨q, hq⟩
    obtain ⟨hq, hne⟩ := Finset.mem_filter.1 hq
    exact hne (hall _ hq rfl)
  · rintro ⟨⟨q, hq⟩, hnone⟩
    refine ⟨(k, q), Finset.mem_filter.2 ⟨hq, fun y hy hyk => ?_⟩, rfl⟩
    by_contra hne
    refine hnone ⟨y.2, Finset.mem_filter.2 ⟨?_, hne⟩⟩
    rw [← show y.1 = k from hyk]
    exact hy

end Round

/-! ### The invariant -/

/-- The distributor knows the pipes, passive pipes cannot be written to, and the trie stores who is
subscribed to what. -/
structure XpubCore (s : XpubSystem) : Prop where
  fanout : Fanout s.xpub.dist s.links s.count
  passive : ∀ p, s.xpub.dist.Mem p → ¬s.xpub.dist.IsEligible p →
    (s.links p).near.pipe.state = .active → (s.links p).near.pipe.outActive = false
  trie : Mtrie.Represents s.xpub.subscriptions s.subscribed
  attached : ∀ x ∈ s.subscribed, s.xpub.dist.Mem x.2
  more : s.xpub.dist.more = s.xpub.more

/-- A step that does not concern the message in progress: no frame was accepted, and the pipes the
message goes to are as ready for the next frame as before. -/
structure Calm (s t : XpubSystem) : Prop where
  core : XpubCore t
  sent : t.sent = s.sent
  more : t.xpub.more = s.xpub.more
  count : s.count ≤ t.count
  matching : s.xpub.more = true →
    ∀ q, t.xpub.dist.IsMatching q ↔ s.xpub.dist.IsMatching q ∧ t.xpub.dist.Mem q
  pipes : ∀ q < s.count, t.Alive q → (t.links q).near.pipe.state = .active →
    s.Alive q ∧ (s.links q).near.pipe.state = .active ∧
      (Ready (s.links q).near.pipe → Ready (t.links q).near.pipe)

/-- What was passed upstream in a step. -/
structure Passes (s t : XpubSystem) : Prop where
  pub : t.xpub.pub = s.xpub.pub
  rounds : ∃ new, t.rounds = s.rounds ++ new ∧ Chained s.subscribed new t.subscribed ∧
    (t.received ++ t.xpub.pending).map Prod.fst =
      (s.received ++ s.xpub.pending).map Prod.fst ++ new.flatMap Round.passed ∧
    (s.xpub.pub = false → ∀ r ∈ new, r.verbose = false → r.implicit = false → r.Exact)

variable {s t : XpubSystem} {p : ℕ} {l : Link}

lemma Passes.none (hpub : t.xpub.pub = s.xpub.pub) (hsub : t.subscribed = s.subscribed)
    (hrounds : t.rounds = s.rounds)
    (hqueue : t.received ++ t.xpub.pending = s.received ++ s.xpub.pending) : Passes s t :=
  ⟨hpub, [], by simp [hrounds], hsub.symm, by simp [hqueue], by simp⟩

lemma Passes.one {r : Round} {out : List (List UInt8 × MsgFlags)} (hpub : t.xpub.pub = s.xpub.pub)
    (hrounds : t.rounds = s.rounds ++ [r]) (hbefore : r.before = s.subscribed)
    (hafter : r.after = t.subscribed) (hreceived : t.received = s.received)
    (hpending : t.xpub.pending = s.xpub.pending ++ out) (hpassed : r.passed = out.map Prod.fst)
    (hexact : s.xpub.pub = false → r.verbose = false → r.implicit = false → r.Exact) :
    Passes s t := by
  refine ⟨hpub, [r], hrounds, ⟨hbefore, hafter⟩, ?_, fun hp r' hr' => ?_⟩
  · simp [hreceived, hpending, hpassed]
  · rw [mem_singleton.1 hr']
    exact hexact hp

lemma XpubCore.update (h : XpubCore s) {x : Xpub} {S : Subscribed} (hp : p < s.count)
    (hl : Outlet l) (hfrees : l.near.frees = (s.links p).near.frees)
    (hawake : Link.unblocks (s.links p).near.pipe = false → Link.unblocks l.near.pipe = false)
    (hactive : l.near.pipe.state = .active → (s.links p).near.pipe.state = .active)
    (hopen : l.near.pipe.state = .active → l.near.pipe.outActive = true →
      (s.links p).near.pipe.outActive = true)
    (hready : Ready (s.links p).near.pipe → Ready l.near.pipe) (hdist : x.dist = s.xpub.dist)
    (hmore : x.more = s.xpub.more) (htrie : Mtrie.Represents x.subscriptions S)
    (hatt : ∀ y ∈ S, s.xpub.dist.Mem y.2) (rounds : List Round)
    (received : List (List UInt8 × MsgFlags)) :
    Calm s { s with
      xpub := x
      links := update s.links p l
      subscribed := S
      rounds := rounds
      received := received } where
  core := {
    fanout := by
      simp only [hdist]
      exact h.fanout.update hfrees hl fun helig => hawake (h.fanout.awake p helig)
    passive := by
      simp only [hdist]
      intro q hq hpassive hst
      by_cases hqp : q = p
      · subst hqp
        rw [update_self] at hst ⊢
        by_contra ho
        have := hopen hst (by simpa using ho)
        rw [h.passive q hq hpassive (hactive hst)] at this
        cases this
      · rw [update_of_ne hqp] at hst ⊢
        exact h.passive q hq hpassive hst
    trie := htrie
    attached := by
      simp only [hdist]
      exact hatt
    more := by
      simp only [hdist, hmore]
      exact h.more }
  sent := rfl
  more := hmore
  count := le_rfl
  matching _ q := by
    simp only [hdist]
    exact ⟨fun hq => ⟨hq, hq.1⟩, fun hq => hq.1⟩
  pipes q hq halive hst := by
    simp only [XpubSystem.Alive] at halive ⊢
    by_cases hqp : q = p
    · subst hqp
      simp only [update_self] at halive hst ⊢
      exact ⟨⟨hq, hfrees ▸ halive.2⟩, hactive hst, hready⟩
    · simp only [update_of_ne hqp] at halive hst ⊢
      exact ⟨halive, hst, id⟩

lemma XpubCore.keep (h : XpubCore s) {x : Xpub} (hdist : x.dist = s.xpub.dist)
    (hmore : x.more = s.xpub.more) (htrie : x.subscriptions = s.xpub.subscriptions)
    (received : List (List UInt8 × MsgFlags)) :
    Calm s { s with xpub := x, received := received } where
  core := {
    fanout := by simpa only [hdist] using h.fanout
    passive := by simpa only [hdist] using h.passive
    trie := by simpa only [htrie] using h.trie
    attached := by simpa only [hdist] using h.attached
    more := by simpa only [hdist, hmore] using h.more }
  sent := rfl
  more := hmore
  count := le_rfl
  matching _ q := by
    simp only [hdist]
    exact ⟨fun hq => ⟨hq, hq.1⟩, fun hq => hq.1⟩
  pipes _ _ halive hst := ⟨halive, hst, id⟩

namespace XpubCore

lemma new (pub : Bool) : XpubCore (XpubSystem.new pub) where
  fanout := Fanout.new _
  passive p hp := absurd hp (by simp [XpubSystem.new, Xpub.new, Dist.new, Dist.Mem, PipeArray.empty])
  trie := Mtrie.Represents.new
  attached := by simp [XpubSystem.new]
  more := rfl

section

variable (h : XpubCore s)

include h

lemma alive_iff (p : ℕ) : s.Alive p ↔ s.xpub.dist.Mem p :=
  (h.fanout.mem_iff p).symm

lemma attach (hwm0 hwm1 : ℤ) (subscribeToAll : Bool) :
    ∃ t, s.step (.attach hwm0 hwm1 subscribeToAll) = .ok t ∧ Calm s t ∧ Passes s t := by
  obtain ⟨d, hd, hmore, hholds, hfanout⟩ := h.fanout.attach (l := Link.pipepair hwm0 hwm1) rfl
    (Outlet.pipepair hwm0 hwm1) rfl
  have hpassive : ∀ q, d.Mem q → ¬d.IsEligible q →
      (Function.update s.links s.count (Link.pipepair hwm0 hwm1) q).near.pipe.state = .active →
      (Function.update s.links s.count (Link.pipepair hwm0 hwm1) q).near.pipe.outActive = false := by
    intro q hq hpassive
    rw [hholds.eligible_iff, not_or] at hpassive
    rw [update_of_ne hpassive.2]
    exact h.passive q (((hholds.mem_iff q).1 hq).resolve_right hpassive.2) hpassive.1
  have hmatching : ∀ q, d.IsMatching q ↔ s.xpub.dist.IsMatching q ∧ d.Mem q := by
    intro q
    rw [hholds.matching_iff, hholds.mem_iff]
    exact ⟨fun hq => ⟨hq, .inl hq.1⟩, fun hq => hq.1⟩
  have hcalm : ∀ (T : Mtrie ℕ) (S : Subscribed) (rounds : List Round), Mtrie.Represents T S →
      (∀ y ∈ S, d.Mem y.2) → Calm s { s with
        xpub := { s.xpub with dist := d, subscriptions := T }
        links := Function.update s.links s.count (Link.pipepair hwm0 hwm1)
        count := s.count + 1
        subscribed := S
        rounds := rounds } := by
    intro T S rounds hT hS
    refine ⟨⟨hfanout, hpassive, hT, hS, hmore.trans h.more⟩, rfl, rfl, Nat.le_succ _,
      fun _ => hmatching, fun q hq halive hst => ?_⟩
    have hne : q ≠ s.count := Nat.ne_of_lt hq
    simp only [XpubSystem.Alive, update_of_ne hne] at halive hst ⊢
    exact ⟨⟨hq, halive.2⟩, hst, id⟩
  have hold : ∀ y ∈ s.subscribed, d.Mem y.2 := fun y hy =>
    (hholds.mem_iff _).2 (.inl (h.attached y hy))
  cases subscribeToAll with
  | false =>
    refine ⟨_, ?_, hcalm _ _ _ h.trie hold, .none rfl rfl rfl rfl⟩
    simp [XpubSystem.step, XpubSystem.xattachPipe, hd]
  | true =>
    obtain ⟨T, hadd, hT⟩ := h.trie.add [] s.count
    refine ⟨_, ?_, hcalm T (insert ([], s.count) s.subscribed) (s.rounds ++ [⟨s.subscribed,
      insert ([], s.count) s.subscribed, s.xpub.verbose, true, []⟩]) hT fun y hy => ?_,
      .one rfl rfl rfl rfl rfl (append_nil _).symm rfl (fun _ _ himp => by cases himp)⟩
    · simp [XpubSystem.step, XpubSystem.xattachPipe, XpubSystem.pass, hd, hadd]
    · rcases Finset.mem_insert.1 hy with rfl | hy
      · exact (hholds.mem_iff _).2 (.inr rfl)
      · exact hold y hy

lemma recv : ∃ t, s.step .recv = .ok t ∧ Calm s t ∧ Passes s t := by
  simp only [XpubSystem.step]
  cases hpending : s.xpub.pending with
  | nil => exact ⟨s, rfl, h.keep rfl rfl rfl _, .none rfl rfl rfl rfl⟩
  | cons m pending =>
    refine ⟨_, rfl, h.keep (x := { s.xpub with pending := pending }) rfl rfl rfl _, .none rfl rfl rfl ?_⟩
    simp [hpending]

lemma peer (p : ℕ) (a : EndAct) :
    ∃ t, s.step (.peer p a) = .ok t ∧ Calm s t ∧ Passes s t := by
  simp only [XpubSystem.step]
  split_ifs with hp
  · obtain ⟨t, e, hact, hl, hpipe, hfrees⟩ := (h.fanout.outlet p hp).far a
    rw [hact]
    refine ⟨_, rfl, h.update hp hl hfrees ?_ ?_ (fun _ => ?_) ?_ rfl rfl h.trie h.attached _ _,
      .none rfl rfl rfl rfl⟩
    all_goals
      rw [hpipe]
      exact id
  · exact ⟨s, rfl, h.keep rfl rfl rfl _, .none rfl rfl rfl rfl⟩

lemma writeActivated (hp : p < s.count) (halive : (s.links p).near.frees = 0)
    (hl : Outlet l) (hfrees : l.near.frees = (s.links p).near.frees) {a : EndAct}
    (hframe : SocketFrame (s.links p) a l (some .writeActivated)) :
    ∃ t, XpubSystem.react { s with links := Function.update s.links p l } p (some .writeActivated) =
      .ok t ∧ Calm s t ∧ Passes s t := by
  have hmem : s.xpub.dist.Mem p := (h.fanout.mem_iff p).2 ⟨hp, halive⟩
  obtain ⟨hunblocks, hawake⟩ := hframe.unblocked rfl
  have hpassive : ¬s.xpub.dist.IsEligible p := by
    intro helig
    rw [h.fanout.awake p helig] at hunblocks
    cases hunblocks
  obtain ⟨d, hd, hmore, hholds⟩ := h.fanout.dist.activated hmem hpassive
  refine ⟨{ s with
    xpub := { s.xpub with dist := d }
    links := Function.update s.links p l }, ?_, ⟨⟨?_, fun q hq hq' => ?_, h.trie, fun y hy => ?_, ?_⟩,
      rfl, rfl, le_rfl, fun _ q => ?_, fun q hq hqalive hst => ?_⟩, .none rfl rfl rfl rfl⟩
  · simp only [XpubSystem.react, hd]
  · refine h.fanout.set hholds hfrees hl ?_ fun _ => hawake
    rintro q (hq | hq) hqp
    · exact hq
    · exact absurd hq hqp
  · have hne : ¬s.xpub.dist.IsEligible q ∧ q ≠ p := by
      rw [← not_or]
      exact fun hor => hq' ((hholds.eligible_iff q).2 hor)
    simp only [update_of_ne hne.2]
    exact h.passive q ((hholds.mem_iff q).1 hq) hne.1
  · exact (hholds.mem_iff _).2 (h.attached y hy)
  · exact hmore.trans h.more
  · refine (hholds.matching_iff q).trans ⟨fun hq => ⟨hq, (hholds.mem_iff q).2 hq.1⟩, fun hq => hq.1⟩
  · simp only [XpubSystem.Alive] at hqalive ⊢
    by_cases hqp : q = p
    · subst hqp
      simp only [update_self] at hqalive hst ⊢
      exact ⟨⟨hp, halive⟩, hframe.active hst, hframe.ready⟩
    · simp only [update_of_ne hqp] at hqalive hst ⊢
      exact ⟨hqalive, hst, id⟩

lemma pipeTerminated (hp : p < s.count) (halive : (s.links p).near.frees = 0)
    (hl : Outlet l) (hfrees : l.near.frees ≠ 0) :
    ∃ t, XpubSystem.react { s with links := Function.update s.links p l } p (some .pipeTerminated) =
      .ok t ∧ Calm s t ∧ Passes s t := by
  have hmem : s.xpub.dist.Mem p := (h.fanout.mem_iff p).2 ⟨hp, halive⟩
  obtain ⟨T, calls, hrm, hcalls, hT⟩ := h.trie.rmPipe p
  obtain ⟨d, hd, hmore, hholds, hfanout⟩ := h.fanout.pipeTerminated hmem hfrees hl
  obtain ⟨out, hout⟩ : ∃ out, out = if s.xpub.pub then [] else
      calls.map fun key => ((0 :: key : List UInt8), MsgFlags.none) := ⟨_, rfl⟩
  refine ⟨{ s with
    xpub := { s.xpub with subscriptions := T, dist := d, pending := s.xpub.pending ++ out }
    links := Function.update s.links p l
    subscribed := s.subscribed.filter fun x => x.2 ≠ p
    rounds := s.rounds ++ [⟨s.subscribed, s.subscribed.filter fun x => x.2 ≠ p, s.xpub.verbose,
      false, out.map Prod.fst⟩] }, ?_,
    ⟨⟨hfanout, fun q hq hq' => ?_, hT, fun y hy => ?_, hmore.trans h.more⟩, rfl, rfl, le_rfl,
      fun _ q => ?_, fun q hq hqalive hst => ?_⟩, .one rfl rfl rfl rfl rfl rfl rfl fun hpub _ _ => ?_⟩
  · simp only [XpubSystem.react, Xpub.xpipeTerminated, hrm, hd, ← hout]
    rfl
  · obtain ⟨hq, hqp⟩ := (hholds.mem_iff q).1 hq
    have hne : ¬s.xpub.dist.IsEligible q := fun helig => hq' ((hholds.eligible_iff q).2 ⟨helig, hqp⟩)
    simp only [update_of_ne hqp]
    exact h.passive q hq hne
  · obtain ⟨hy, hne⟩ := Finset.mem_filter.1 hy
    exact (hholds.mem_iff _).2 ⟨h.attached y hy, hne⟩
  · refine (hholds.matching_iff q).trans ?_
    rw [show Dist.Mem _ q ↔ _ from hholds.mem_iff q]
    exact ⟨fun hq => ⟨hq.1, hq.1.1, hq.2⟩, fun hq => ⟨hq.1, hq.2.2⟩⟩
  · have hqp : q ≠ p := by
      rintro rfl
      have := hqalive.2
      simp only [update_self] at this
      exact hfrees this
    simp only [XpubSystem.Alive, update_of_ne hqp] at hqalive hst ⊢
    exact ⟨hqalive, hst, id⟩
  · simp only [hout, hpub, Bool.false_eq_true, if_false, map_map]
    exact Round.exact_rmPipe hcalls

lemma owner (p : ℕ) (a : { a : EndAct // a.Manages }) :
    ∃ t, s.step (.owner p a) = .ok t ∧ Calm s t ∧ Passes s t := by
  simp only [XpubSystem.step]
  split_ifs with hp
  swap
  · exact ⟨s, rfl, h.keep rfl rfl rfl _, .none rfl rfl rfl rfl⟩
  obtain ⟨l, e, hact, hl, hframe⟩ := (h.fanout.outlet p hp).socketAct a.2.keepsOutput
  simp only [hact]
  by_cases halive : (s.links p).near.frees = 0
  swap
  · obtain ⟨rfl, rfl⟩ := hframe.dead halive
    rw [update_eq_self]
    exact ⟨s, rfl, h.keep rfl rfl rfl _, .none rfl rfl rfl rfl⟩
  have hfrees : e ≠ some .pipeTerminated → l.near.frees = (s.links p).near.frees := fun hne =>
    (not_not.1 (mt (hframe.gone halive).1 hne)).trans halive.symm
  have hquiet : e ≠ some .pipeTerminated → e ≠ some .writeActivated →
      Calm s { s with links := Function.update s.links p l } := fun hterm hact =>
    h.update hp hl (hfrees hterm) hframe.keeps hframe.active
      (fun hst ho => (hframe.reopened hst ho).resolve_right hact) hframe.ready rfl rfl h.trie
      h.attached _ _
  rcases e with _ | e
  · exact ⟨_, rfl, hquiet (by decide) (by decide), .none rfl rfl rfl rfl⟩
  cases e with
  | readActivated => exact ⟨_, rfl, hquiet (by decide) (by decide), .none rfl rfl rfl rfl⟩
  | writeActivated => exact h.writeActivated hp halive hl (hfrees (by decide)) hframe
  | pipeTerminated => exact h.pipeTerminated hp halive hl ((hframe.gone halive).2 rfl)
  | hiccuped => exact absurd rfl hframe.not_hiccuped

/-- A message from a pipe that cancels what the pipe is not subscribed to and others are makes an
assertion fail. Every other message is processed. -/
lemma readSubscription (hp : s.xpub.dist.Mem p) (m : Msg) :
    (s.xpub.readSubscription p m = .error .assertFailed ∧
      ∃ key, m.body = 0 :: key ∧ (key, p) ∉ s.subscribed ∧ ∃ x ∈ s.subscribed, x.1 = key) ∨
    ∃ out T, s.xpub.readSubscription p m = .ok (out, T) ∧
      Mtrie.Represents T (s.subscribed.apply p m.body) ∧
      (∀ y ∈ s.subscribed.apply p m.body, s.xpub.dist.Mem y.2) ∧
      ((∀ key, m.body = 0 :: key →
          (key, p) ∈ s.subscribed ∨ (key ≠ [] ∧ ∀ x ∈ s.subscribed, ¬key <+: x.1)) →
        s.xpub.pub = false → s.xpub.verbose = false →
        Round.Exact ⟨s.subscribed, s.subscribed.apply p m.body, s.xpub.verbose,
          false, out.map Prod.fst⟩) := by
  obtain ⟨key, hbody⟩ | ⟨key, hbody⟩ | ⟨h0, h1⟩ := subscription_cases m.body
  · have happly : s.subscribed.apply p m.body = s.subscribed.erase (key, p) := by
      rw [hbody]
      rfl
    have hatt : ∀ y ∈ s.subscribed.apply p m.body, s.xpub.dist.Mem y.2 := by
      rw [happly]
      exact fun y hy => h.attached y (Finset.mem_of_mem_erase hy)
    by_cases hsub : (key, p) ∈ s.subscribed
    · obtain ⟨T, hrm, hT⟩ := h.trie.rm hsub
      refine .inr ⟨_, T, by simp only [Xpub.readSubscription, Xpub.subscribe, Xpub.upstream, hbody, hrm]; rfl,
        happly ▸ hT, hatt,
        fun _ hpub _ => ?_⟩
      rw [happly]
      have hunique : decide (∀ x ∈ s.subscribed.erase (key, p), x.1 ≠ key) = true ↔
          key ∉ Subscribed.topics (s.subscribed.erase (key, p)) := by
        rw [decide_eq_true_iff, Subscribed.not_mem_topics]
      have hexact := Round.exact_rm (v := s.xpub.verbose) hsub hunique
      simp only [hpub, Bool.not_false, Bool.true_and]
      convert hexact using 2
      split <;> rfl
    · have herase : s.subscribed.erase (key, p) = s.subscribed := Finset.erase_eq_of_notMem hsub
      obtain ⟨hex, hrm⟩ | ⟨hnone, hrm⟩ := h.trie.rm_absent hsub
      · refine .inl ⟨?_, key, hbody, hsub, hex⟩
        simp only [Xpub.readSubscription, Xpub.subscribe, hbody, hrm]
        rfl
      · refine .inr ⟨_, _, by simp only [Xpub.readSubscription, Xpub.subscribe, Xpub.upstream, hbody, hrm]; rfl,
          by rw [happly, herase]; exact h.trie, hatt, fun hpolite _ _ => ?_⟩
        obtain ⟨hne, hno⟩ := (hpolite key hbody).resolve_left hsub
        have hfalse : decide (key = [] ∨ ∃ x ∈ s.subscribed, key <+: x.1) = false :=
          decide_eq_false (not_or.2 ⟨hne, fun ⟨x, hx, hle⟩ => hno x hx hle⟩)
        rw [happly, herase]
        simp only [hfalse, Bool.and_false]
        exact Round.exact_same (by simp) (by simp)
  · obtain ⟨T, hadd, hT⟩ := h.trie.add key p
    have happly : s.subscribed.apply p m.body = insert (key, p) s.subscribed := by
      rw [hbody]
      rfl
    refine .inr ⟨_, T, by simp only [Xpub.readSubscription, Xpub.subscribe, Xpub.upstream, hbody, hadd]; rfl,
      happly ▸ hT, ?_,
      fun _ hpub hverbose => ?_⟩
    · rw [happly]
      intro y hy
      rcases Finset.mem_insert.1 hy with rfl | hy
      · exact hp
      · exact h.attached y hy
    · have hunique : decide (∀ x ∈ s.subscribed, x.1 ≠ key) = true ↔ key ∉ s.subscribed.topics := by
        rw [decide_eq_true_iff, Subscribed.not_mem_topics]
      have hexact := Round.exact_add (v := s.xpub.verbose) (p := p) hunique
      rw [happly]
      simp only [hpub, hverbose, Bool.not_false, Bool.true_and, Bool.or_false] at hexact ⊢
      convert hexact using 2
      split <;> rfl
  · have happly : s.subscribed.apply p m.body = s.subscribed := Subscribed.apply_of_other h0 h1 _ p
    refine .inr ⟨[(m.body, m.flags)], s.xpub.subscriptions, ?_, happly.symm ▸ h.trie,
      happly.symm ▸ h.attached, fun _ _ _ => ?_⟩
    · rw [Xpub.readSubscription, Xpub.subscribe_of_other h0 h1]
      unfold Xpub.upstream
      split
      · exact absurd ‹_› (h0 _)
      · exact absurd ‹_› (h1 _)
      · rfl
    · rw [happly]
      refine Round.exact_same (fun key hmem => ?_) fun key hmem => ?_
      · exact h0 key (mem_singleton.1 hmem).symm
      · exact h1 key (mem_singleton.1 hmem).symm

lemma read (p : ℕ) :
    (s.step (.read p) = .error (.trie .assertFailed) ∧ ¬s.Polite (.read p)) ∨
      ∃ t, s.step (.read p) = .ok t ∧ Calm s t ∧ (s.Polite (.read p) → Passes s t) := by
  simp only [XpubSystem.step]
  split_ifs with hp
  swap
  · exact .inr ⟨s, rfl, h.keep rfl rfl rfl _, fun _ => .none rfl rfl rfl rfl⟩
  obtain ⟨r, l, hread, hl, hframe⟩ := (h.fanout.outlet p hp.1).read hp.2
  have hfrees : l.near.frees = (s.links p).near.frees := by
    rw [hp.2]
    by_contra hne
    exact absurd ((hframe.gone hp.2).1 hne) (by decide)
  have hopen : l.near.pipe.state = .active → l.near.pipe.outActive = true →
      (s.links p).near.pipe.outActive = true := fun hst ho =>
    (hframe.reopened hst ho).resolve_right (by decide)
  simp only [XpubSystem.xread, hread]
  cases r with
  | none =>
    exact .inr ⟨_, rfl, h.update hp.1 hl hfrees hframe.keeps hframe.active hopen hframe.ready rfl rfl
      h.trie h.attached _ _, fun _ => .none rfl rfl rfl rfl⟩
  | some m =>
    have hcancels : ∀ key, m.body = 0 :: key → (s.links p).cancels = some key := by
      intro key hbody
      simp [Link.cancels, hread, hbody]
    obtain ⟨hfail, key, hbody, hsub, x, hx, hxk⟩ | ⟨out, T, hsub, hT, hatt, hexact⟩ :=
      h.readSubscription ((h.alive_iff p).1 hp) m
    · refine .inl ⟨by simp only [hfail], fun hpolite => ?_⟩
      obtain hin | ⟨-, hno⟩ := hpolite key (hcancels key hbody)
      · exact hsub hin
      · exact hno x hx (hxk ▸ prefix_rfl)
    · simp only [hsub]
      refine .inr ⟨_, rfl, h.update hp.1 hl hfrees hframe.keeps hframe.active hopen hframe.ready
        (x := { s.xpub with subscriptions := T, pending := s.xpub.pending ++ out }) rfl rfl hT hatt _ _,
        fun hpolite => .one rfl rfl rfl rfl rfl rfl rfl fun hpub hverbose _ =>
          hexact (fun key hbody => ?_) hpub hverbose⟩
      exact hpolite key (hcancels key hbody)

end

end XpubCore

/-! ### Sending -/

/-- A pipe a frame is offered to. -/
def XpubSystem.Target (s : XpubSystem) (body : List UInt8) (q : ℕ) : Prop :=
  s.xpub.dist.IsMatching q ∨
    (s.xpub.more = false ∧ s.subscribed.Matches q body ∧ s.xpub.dist.IsEligible q)

/-- A frame was accepted: it was written to the writable ones of the pipes it was offered to, and these
are the matching ones for the rest of the message. -/
structure Delivered (s : XpubSystem) (m : Msg) (t : XpubSystem) : Prop where
  core : XpubCore t
  more : t.xpub.more = m.more
  count : t.count = s.count
  sent : ∃ log, t.sent = s.publish m log ∧ (log.map Prod.fst).Nodup ∧
    ∀ q, log.lookup q = some true ↔
      s.Target m.body q ∧ Outbound.Writable (s.links q).near.pipe
  matching : m.more = true → ∀ q, t.xpub.dist.IsMatching q ↔
    s.Target m.body q ∧ Outbound.Writable (s.links q).near.pipe
  alive : ∀ q, t.Alive q ↔ s.Alive q
  state : ∀ q, s.Alive q → (t.links q).near.pipe.state = (s.links q).near.pipe.state
  ready : m.more = true → ∀ q, s.Target m.body q → Outbound.Writable (s.links q).near.pipe →
    Ready (t.links q).near.pipe

namespace XpubCore

lemma mark (h : XpubCore s) (body : List UInt8) :
    ∃ d, (if s.xpub.more then .ok s.xpub.dist else s.xpub.markMatching body) = .ok d ∧
      d.more = s.xpub.dist.more ∧
      d.Holds s.xpub.dist.Mem (s.Target body) s.xpub.dist.IsActive s.xpub.dist.IsEligible := by
  cases hmore : s.xpub.more with
  | true =>
    refine ⟨s.xpub.dist, rfl, rfl, h.fanout.dist, fun _ => Iff.rfl, fun q => ?_, fun _ => Iff.rfl,
      fun _ => Iff.rfl⟩
    simp [XpubSystem.Target, hmore]
  | false =>
    obtain ⟨calls, hmatch, hcalls⟩ := h.trie.matchPipes body
    have hmem : ∀ q, q ∈ calls ↔ s.subscribed.Matches q body := by
      intro q
      rw [← Multiset.mem_coe, hcalls, Multiset.mem_map]
      constructor
      · rintro ⟨x, hx, rfl⟩
        obtain ⟨hx, hle⟩ := Finset.mem_filter.1 hx
        exact ⟨x, hx, rfl, hle⟩
      · rintro ⟨x, hx, rfl, hle⟩
        exact ⟨x, Finset.mem_filter.2 ⟨hx, hle⟩, rfl⟩
    have hatt : ∀ q ∈ calls, s.xpub.dist.Mem q := by
      intro q hq
      obtain ⟨x, hx, rfl, -⟩ := (hmem q).1 hq
      exact h.attached x hx
    obtain ⟨d, hd, hmore', hholds⟩ := h.fanout.dist.matchAll hatt (h.more.trans hmore)
    refine ⟨d, ?_, hmore', hholds.wf, hholds.mem_iff, fun q => ?_, hholds.active_iff,
      hholds.eligible_iff⟩
    · simp [Xpub.markMatching, hmatch, hd]
    · rw [hholds.matching_iff, XpubSystem.Target, hmem]
      simp [hmore]

lemma deliver (h : XpubCore s) {m : Msg} (hdata : m.type = .data) {d : Dist}
    (hholds : d.Holds s.xpub.dist.Mem (s.Target m.body) s.xpub.dist.IsActive s.xpub.dist.IsEligible) :
    ∃ log d' links, d.sendToMatching m s.links = .ok (log, d', links) ∧
      Delivered s m { s with
        xpub := { s.xpub with dist := if m.more then d' else d'.unmatch, more := m.more }
        links := links
        sent := s.publish m log } := by
  have hfanout : Fanout d s.links s.count :=
    ⟨hholds.wf, fun q => (hholds.mem_iff q).trans (h.fanout.mem_iff q), h.fanout.outlet,
      fun q hq => h.fanout.awake q ((hholds.eligible_iff q).1 hq)⟩
  obtain ⟨taken, log, d', links, hsend, hmore', hholds', hfanout', hnodup, hin, hout⟩ :=
    hfanout.sendToMatching hdata
  have htaken : ∀ q, s.Target m.body q →
      (taken q = true ↔ Outbound.Writable (s.links q).near.pipe) :=
    fun q hq => (hin q ((hholds.matching_iff q).2 hq)).1.taken_iff
  have hfrees : ∀ q, (links q).near.frees = (s.links q).near.frees := by
    intro q
    by_cases hq : d.IsMatching q
    · exact (hin q hq).1.frees
    · rw [(hout q hq).1]
  have hmatching : ∀ q, d'.IsMatching q ↔
      s.Target m.body q ∧ Outbound.Writable (s.links q).near.pipe := by
    intro q
    rw [hholds'.matching_iff, hholds.matching_iff]
    exact and_congr_right fun hq => htaken q hq
  have hpassive : ∀ q, d'.Mem q → ¬d'.IsEligible q → (links q).near.pipe.state = .active →
      (links q).near.pipe.outActive = false := by
    intro q hq hq' hst
    rw [hholds'.eligible_iff, not_and_or] at hq'
    by_cases hqm : d.IsMatching q
    · have hrefused : taken q = false := by
        rcases hq' with hq' | hq'
        · exact absurd (hqm.isActive hholds.wf |>.isEligible hholds.wf) hq'
        · simpa [hqm] using hq'
      exact (hin q hqm).1.refused hrefused hst
    · have hne : ¬s.xpub.dist.IsEligible q := by
        rw [← hholds.eligible_iff]
        exact hq'.resolve_right fun hno => hno fun hm => absurd hm hqm
      rw [(hout q hqm).1] at hst ⊢
      exact h.passive q ((hholds.mem_iff q).1 ((hholds'.mem_iff q).1 hq)) hne hst
  -- At the end of a message the marks are removed, which changes nothing else.
  obtain ⟨d'', hd''⟩ : ∃ d'', d'' = if m.more then d' else d'.unmatch := ⟨_, rfl⟩
  have hparts : d''.pipes = d'.pipes ∧ d''.eligible = d'.eligible ∧ d''.more = d'.more ∧ d''.WF ∧
      (m.more = true → d'' = d') := by
    rw [hd'']
    split
    · exact ⟨rfl, rfl, rfl, hholds'.wf, fun _ => rfl⟩
    · exact ⟨rfl, rfl, rfl, ⟨hholds'.wf.pipes, zero_le _, hholds'.wf.active, hholds'.wf.eligible,
        hholds'.wf.between⟩, fun hm => by contradiction⟩
  obtain ⟨hpipes, heligible, hmore'', hwf, hsame⟩ := hparts
  have hmem'' : ∀ q, d''.Mem q ↔ d'.Mem q := fun q => by rw [Dist.Mem, hpipes, Dist.Mem]
  have helig'' : ∀ q, d''.IsEligible q ↔ d'.IsEligible q := fun q => by
    rw [Dist.IsEligible, hmem'', hpipes, heligible, Dist.IsEligible]
  refine ⟨log, d', links, hsend, ?_⟩
  rw [← hd'']
  refine ⟨⟨?_, fun q hq hq' => ?_, h.trie, fun y hy => ?_, hmore''.trans hmore'⟩, rfl, rfl,
    ⟨log, rfl, hnodup, fun q => ?_⟩, fun hm q => ?_, fun q => ?_, fun q hq => ?_, fun hm q hq hw => ?_⟩
  · exact ⟨hwf, fun q => (hmem'' q).trans (hfanout'.mem_iff q), hfanout'.outlet,
      fun q hq => hfanout'.awake q ((helig'' q).1 hq)⟩
  · exact hpassive q ((hmem'' q).1 hq) fun helig => hq' ((helig'' q).2 helig)
  · exact (hmem'' _).2 ((hholds'.mem_iff _).2 ((hholds.mem_iff _).2 (h.attached y hy)))
  · by_cases hq : d.IsMatching q
    · have hq' := (hholds.matching_iff q).1 hq
      rw [(hin q hq).2, Option.some.injEq, htaken q hq']
      exact (and_iff_right hq').symm
    · rw [(hout q hq).2]
      simp [mt (hholds.matching_iff q).2 hq]
  · simp only [hsame hm]
    exact hmatching q
  · simp only [XpubSystem.Alive, hfrees]
  · by_cases hqm : d.IsMatching q
    · exact (hin q hqm).1.state
    · simp only [(hout q hqm).1]
  · have hq' := (hholds.matching_iff q).2 hq
    have hpipe := (hin q hq').1.pipe ((htaken q hq).2 hw)
    have hroom := (h.fanout.outlet_of_mem ((hholds.mem_iff q).1 hq'.1)).ahead.full_iff.1 hw.2.2
    intro _
    simp only [hpipe, Link.counted, hm, Bool.not_true, Bool.false_and, Bool.false_eq_true, if_false,
      add_zero]
    exact ⟨hw.1, hroom⟩

lemma send (h : XpubCore s) (flags : MsgFlags) (body : List UInt8) :
    ∃ t, s.step (.send flags body) = .ok t ∧ Passes s t ∧
      (Calm s t ∨ Delivered s ⟨.data, flags, body⟩ t) := by
  obtain ⟨d, hmark, hmore, hholds⟩ := h.mark body
  by_cases hhwm : (s.xpub.lossy || d.checkHwm s.links) = true
  · obtain ⟨log, d', links, hsend, hdelivered⟩ := h.deliver (m := ⟨.data, flags, body⟩) rfl hholds
    refine ⟨_, ?_, ?_, .inr hdelivered⟩
    · simp only [XpubSystem.step, Xpub.xsend, hmark, if_pos hhwm, hsend]
    · exact .none rfl rfl rfl rfl
  · refine ⟨{ s with xpub := { s.xpub with dist := d } }, ?_, .none rfl rfl rfl rfl,
      .inl ⟨⟨?_, fun q hq hq' => ?_, h.trie, fun y hy => ?_, hmore.trans h.more⟩, rfl, rfl, le_rfl,
        fun hm q => ?_, fun q _ halive hst => ⟨halive, hst, id⟩⟩⟩
    · simp only [XpubSystem.step, Xpub.xsend, hmark, if_neg hhwm]
    · exact ⟨hholds.wf, fun q => (hholds.mem_iff q).trans (h.fanout.mem_iff q), h.fanout.outlet,
        fun q hq => h.fanout.awake q ((hholds.eligible_iff q).1 hq)⟩
    · exact h.passive q ((hholds.mem_iff q).1 hq) fun helig => hq' ((hholds.eligible_iff q).2 helig)
    · exact (hholds.mem_iff _).2 (h.attached y hy)
    · refine (hholds.matching_iff q).trans ?_
      rw [show Dist.Mem _ q ↔ _ from hholds.mem_iff q]
      simp only [XpubSystem.Target, hm, Bool.true_eq_false, false_and, or_false]
      exact ⟨fun hq => ⟨hq, hq.1⟩, fun hq => hq.1⟩

lemma step (h : XpubCore s) (a : XpubAct) :
    (s.step a = .error (.trie .assertFailed) ∧ ¬s.Polite a) ∨
      ∃ t, s.step a = .ok t ∧ (s.Polite a → Passes s t) ∧
        (Calm s t ∨ ∃ flags body, a = .send flags body ∧ Delivered s ⟨.data, flags, body⟩ t) := by
  have hcalm : (∃ t, s.step a = .ok t ∧ Calm s t ∧ Passes s t) →
      ∃ t, s.step a = .ok t ∧ (s.Polite a → Passes s t) ∧
        (Calm s t ∨ ∃ flags body, a = .send flags body ∧ Delivered s ⟨.data, flags, body⟩ t) := by
    rintro ⟨t, hstep, hcalm, hpasses⟩
    exact ⟨t, hstep, fun _ => hpasses, .inl hcalm⟩
  cases a with
  | attach hwm0 hwm1 subscribeToAll => exact .inr (hcalm (h.attach hwm0 hwm1 subscribeToAll))
  | setVerbose verbose =>
    exact .inr (hcalm ⟨_, rfl, h.keep (x := { s.xpub with verbose := verbose }) rfl rfl rfl _,
      .none rfl rfl rfl rfl⟩)
  | setNodrop nodrop =>
    exact .inr (hcalm ⟨_, rfl, h.keep (x := { s.xpub with lossy := !nodrop }) rfl rfl rfl _,
      .none rfl rfl rfl rfl⟩)
  | send flags body =>
    obtain ⟨t, hstep, hpasses, hor⟩ := h.send flags body
    exact .inr ⟨t, hstep, fun _ => hpasses, hor.imp_right fun hd => ⟨flags, body, rfl, hd⟩⟩
  | recv => exact .inr (hcalm h.recv)
  | read p =>
    obtain hfail | ⟨t, hstep, hcalm, hpasses⟩ := h.read p
    · exact .inl hfail
    · exact .inr ⟨t, hstep, hpasses, .inl hcalm⟩
  | owner p a => exact .inr (hcalm (h.owner p a))
  | peer p a => exact .inr (hcalm (h.peer p a))

end XpubCore

end Zmq
