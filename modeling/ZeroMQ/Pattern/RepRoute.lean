import ZeroMQ.Pattern.RepHolding

/-!
# The replies of a REP socket

A REP socket answers a request with the envelope of the request and the reply, in the pipe of the peer.
This breaks when a malformed request is discarded whose peer has no pipe, or whose pipe takes no message.
Then there is nothing to roll back, and `router_t::rollback` does not notice that a message is in
progress. The identity of the next peer is taken for another frame of that message, and the reply to the
next request is lost. In all other runs the replies are routed.
-/

namespace Zmq

open Foundation List Option Nat Ensures Function

/-- Where an exchange stands. -/
inductive Rep.Phase (s : Rep) : Prop
  /-- The next frame will be the identity of a peer. -/
  | idle (hcur : s.current = none) (hsend : s.sendingReply = false) (hbegins : s.requestBegins = true)
      (hbetween : s.router.Between)
  /-- The delimiter has not come yet. -/
  | envelope (e : Exchange) (hcur : s.current = some e) (hsend : s.sendingReply = false)
      (hbegins : s.requestBegins = true) (hreply : e.reply = [])
      (hstack : ∀ m ∈ e.request, m.more = true ∧ m.body ≠ [])
  /-- The application receives the request. -/
  | body (e : Exchange) (stack : List Msg) (delimiter : Msg) (body : List Msg) (hcur : s.current = some e)
      (hsend : s.sendingReply = false) (hbegins : s.requestBegins = false) (hreply : e.reply = [])
      (hrequest : e.request = stack ++ delimiter :: body)
      (hstack : ∀ m ∈ stack, m.more = true ∧ m.body ≠ []) (hmore : delimiter.more = true)
      (hempty : delimiter.body = []) (hbody : ∀ m ∈ body, m.more = true)
  /-- The application sends the reply. -/
  | reply (e : Exchange) (hcur : s.current = some e) (hsend : s.sendingReply = true)
      (hbegins : s.requestBegins = true) (hbetween : s.router.Between) (hwell : WellFormed e.request)

/-- A reply belongs to the pipe the request came from, unless that one has lost the identity. -/
def Exchange.Addressed (e : Exchange) : Prop := ∀ p, e.target = some p → e.source = some p ∨ e.displaced = true

/-- The invariant of a REP socket. -/
structure RepInv (s : Rep) : Prop where
  table : s.router.Table none
  input : s.router.Input
  holding : Rep.Holding (fun p => s.sentTo p) s.current s.router
  phase : s.Phase
  addressed : ∀ e ∈ s.replied ++ s.current.toList, e.Addressed
  replied_lt : ∀ e ∈ s.replied, ∀ p, e.target = some p → p < s.router.inp.count

lemma envelopeOf_stack {l : List Msg} (h : ∀ m ∈ l, m.body ≠ []) : envelopeOf l = l := by
  induction l with
  | nil => rfl
  | cons m l ih =>
    rw [envelopeOf, if_neg (h m mem_cons_self), ih fun m' hm' => h m' (mem_cons_of_mem _ hm')]

lemma envelopeOf_append {l body : List Msg} {d : Msg} (h : ∀ m ∈ l, m.body ≠ []) (hd : d.body = []) :
    envelopeOf (l ++ d :: body) = l ++ [d] := by
  induction l with
  | nil => simp [envelopeOf, hd]
  | cons m l ih =>
    rw [cons_append, envelopeOf, if_neg (h m mem_cons_self),
      ih fun m' hm' => h m' (mem_cons_of_mem _ hm'), cons_append]

namespace Exchange

variable {e : Exchange} {m : Msg} {r : Router} {id : Identity}

lemma frames_receive (hreply : e.reply = []) (h : ∀ m ∈ e.request, m.body ≠ []) (m : Msg) :
    (e.receive m).frames = e.frames ++ [m] := by
  have henv : envelopeOf (e.request ++ [m]) = e.request ++ [m] := by
    by_cases hm : m.body = []
    · exact envelopeOf_append h hm
    refine envelopeOf_stack fun m' hm' => ?_
    rcases mem_append.mp hm' with hm' | hm'
    · exact h m' hm'
    · rwa [mem_singleton.mp hm']
  simp only [frames, receive, hreply, append_nil, henv, envelopeOf_stack h]

lemma begin_addressed (hs : r.Table none) (hk : r.Known) : (begin id r).Addressed := by
  intro p hp
  by_cases hdis : (begin id r).displaced = true
  · exact .inr hdis
  left
  obtain ⟨q, hq, halive, hid⟩ : ∃ q, r.inp.lastFrom = some q ∧ (r.inp.links q).near.frees = 0 ∧
      r.identities q = id := by
    simpa [begin, Option.all_eq_true, and_assoc] using hdis
  obtain ⟨hlt, hanon⟩ := hk q hq
  have hplaced := (hs.attached q).mpr ⟨hlt, halive⟩
  have hmem : r.inp.fq.Mem q := by simpa [hanon] using hplaced
  obtain ⟨id', hid'⟩ := (hs.queued q).mpr hmem
  obtain rfl : id' = id := (hs.keyed id' q hid').symm.trans hid
  have htarget : r.pipeOf id' = some p := (Option.filter_eq_some_iff.mp hp).1
  obtain rfl := Option.some.inj (hid'.symm.trans htarget)
  exact hq

end Exchange

/-! ### Receiving -/

namespace Rep

variable {s t : Rep} {m : Msg}

/-- Every malformed request that was discarded came from a peer to which a reply could be sent. -/
def Answerable (s : Rep) : Prop := ∀ e ∈ s.discarded, e.target ≠ none

instance (s : Rep) : Decidable s.Answerable :=
  inferInstanceAs (Decidable (∀ e ∈ s.discarded, e.target ≠ none))

lemma Answerable.of_append (h : t.Answerable) (hst : s.discarded <+: t.discarded) : s.Answerable :=
  fun e he => h e (hst.subset he)

lemma copy_same {r : Router} (h : { s with router := r }.copy m = .ok t) :
    t.requestBegins = s.requestBegins ∧ t.sendingReply = s.sendingReply ∧ t.discarded = s.discarded := by
  unfold copy at h
  split at h
  · cases h
  · cases h
  · cases h
    exact ⟨rfl, rfl, rfl⟩

lemma rollback_discarded {r : Router} (h : { s with router := r }.rollback = .ok t) :
    s.discarded <+: t.discarded := by
  unfold rollback at h
  split at h
  · cases h
  · cases h
    exact prefix_append _ _

lemma recvEnvelope_discarded (rounds n : ℕ) (s : Rep) :
    Ensures (s.recvEnvelope rounds n) fun x => s.discarded <+: x.2.discarded := by
  induction n generalizing s with
  | zero => exact .error _
  | succ n ih =>
    unfold recvEnvelope
    split
    · exact .error _
    · exact .ok prefix_rfl
    · split
      · split
        · exact .error _
        · next t ht =>
          have hst : t.discarded = s.discarded := (copy_same ht).2.2
          split
          · exact .ok (by rw [hst])
          · exact (ih t).mono fun x hx => hst ▸ hx
      · split
        · exact .error _
        · next t ht =>
          have hst : s.discarded <+: t.discarded := rollback_discarded ht
          exact (ih t).mono fun x hx => hst.trans hx

lemma recvBody_discarded (n : ℕ) (s : Rep) : Ensures (s.recvBody n) fun x => s.discarded <+: x.2.discarded := by
  unfold recvBody
  split
  · exact .error _
  · exact .ok prefix_rfl
  · refine .ok ?_
    split <;> exact prefix_rfl

lemma xrecv_discarded (n : ℕ) (s : Rep) : Ensures (s.xrecv n) fun x => s.discarded <+: x.2.discarded := by
  unfold xrecv
  split
  · exact .ok prefix_rfl
  split
  · have hloop := recvEnvelope_discarded n n s
    split
    · exact .error _
    · next t ht => exact .ok (hloop _ ht)
    · next t ht => exact (recvBody_discarded n _).mono fun x hx => (hloop _ ht).trans hx
  · exact recvBody_discarded n s

lemma step_discarded (s : Rep) (a : RouterAct) : Ensures (s.step a) fun t => s.discarded <+: t.discarded := by
  have hrest : ∀ (r : Except RouterFault Router) (g : ℕ → List Msg),
      Ensures (r.map fun router => { s with router, greeted := g }) fun t => s.discarded <+: t.discarded :=
    fun r g => map fun _ _ => prefix_rfl
  cases a with
  | recv n => exact map (xrecv_discarded n s)
  | hasIn n =>
    refine map ?_
    unfold xhasIn
    split
    · exact .ok prefix_rfl
    · split
      · exact .error _
      · exact .ok prefix_rfl
  | send flags body =>
    refine map ?_
    unfold xsend
    split
    · exact .ok prefix_rfl
    split
    · exact .error _
    · exact .ok prefix_rfl
    · refine .ok ?_
      simp only [replyWith]
      split <;> exact prefix_rfl
  | attach hwm0 hwm1 before => exact hrest _ _
  | setConnectRid rid => exact hrest (s.router.step (.setConnectRid rid)) s.greeted
  | setRaw value => exact hrest (s.router.step (.setRaw value)) s.greeted
  | setMandatory value => exact hrest (s.router.step (.setMandatory value)) s.greeted
  | setProbeRouter value => exact hrest (s.router.step (.setProbeRouter value)) s.greeted
  | setHandover value => exact hrest (s.router.step (.setHandover value)) s.greeted
  | owner p a | peer p a => exact hrest _ s.greeted

end Rep

namespace RepInv

variable {s t : Rep} {r : Router} {m : Msg}

open Zmq.Rep

lemma new (rid : UInt32) : RepInv (Rep.new rid) where
  table := Router.new_table rid
  input := ⟨fun p hp => (by cases hp), rfl, fun hcon => (by cases hcon)⟩
  holding := by
    refine ⟨⟨rfl, rfl⟩, fun p hp => absurd hp (not_lt_zero p), rfl, fun p hp => (by cases hp),
      fun e p he => (by cases he), fun e p he => (by cases he), fun e p he => (by cases he)⟩
  phase := .idle rfl rfl rfl ⟨rfl, fun hcon => (by cases hcon)⟩
  addressed e he := by cases he
  replied_lt e he := by cases he

lemma phase_router (h : s.Phase) (hbet : s.router.Between → r.Between) (greeted : ℕ → List Msg) :
    ({ s with router := r, greeted } : Rep).Phase := by
  cases h with
  | idle hcur hsend hbegins hbetween => exact .idle hcur hsend hbegins (hbet hbetween)
  | envelope e hcur hsend hbegins hreply hstack => exact .envelope e hcur hsend hbegins hreply hstack
  | body e stack d body hcur hsend hbegins hreply hrequest hstack hmore hempty hbody =>
    exact .body e stack d body hcur hsend hbegins hreply hrequest hstack hmore hempty hbody
  | reply e hcur hsend hbegins hbetween hwell => exact .reply e hcur hsend hbegins (hbet hbetween) hwell

lemma withRouter (h : RepInv s) (hq : Router.Quiet s.router r) (ht : r.Table none) (hin : r.Input)
    (hbet : s.router.Between → r.Between) : RepInv { s with router := r } where
  table := ht
  input := hin
  holding := h.holding.quiet hq
  phase := phase_router h.phase hbet s.greeted
  addressed := h.addressed
  replied_lt e he p hp := by
    have hlt := h.replied_lt e he p hp
    rwa [← hq.count] at hlt

lemma idle (h : RepInv s) (hi : Router.Idle s.router r) (ht : r.Table none) : RepInv { s with router := r } :=
  h.withRouter hi.1 ht (hi.2.input (le_of_eq hi.1.count.symm) h.input) fun hb => hb.of_eq hi.2.inputState

lemma addressed_some {replied : List Exchange} {current : Option Exchange} {e : Exchange}
    (h : ∀ e ∈ replied ++ current.toList, e.Addressed) (he : e.Addressed) :
    ∀ e' ∈ replied ++ (some e).toList, e'.Addressed := by
  intro e' he'
  rcases mem_append.mp he' with he' | he'
  · exact h e' (mem_append_left _ he')
  · rwa [mem_singleton.mp he']

section

variable (h : RepInv s) (hbegins : s.requestBegins = true) (hsend : s.sendingReply = false) (hr : Router.Receives s.router (some m, r))

include h hbegins hsend hr

lemma copy (hm : m.more = true) :
    Ensures ({ s with router := r }.copy m) fun t =>
      RepInv (if m.body = [] then { t with requestBegins := false } else t) := by
  have htable := hr.aside.renamed.table h.table
  have hholding : Holding (fun p => s.sentTo p) s.current r := h.holding.quiet hr.quiet
  have hcount : r.inp.count = s.router.inp.count := hr.quiet.count
  -- what every state after the copy has in common
  have hnext : ∀ {e : Exchange} {router : Router}, r.xsend m = .ok (.ok (), router) →
      Holding (fun p => s.sentTo p) (some e) router → e.Addressed →
      ∀ (begins : Bool), ({ s with router, current := some e, requestBegins := begins } : Rep).Phase →
      RepInv { s with router, current := some e, requestBegins := begins } := by
    intro e router hx hhold haddr begins hphase
    have haside : Router.Aside r router := Router.xsend_aside m r _ hx
    have hsettled : Router.Settled r router := Router.xsend_settled m r _ hx
    refine ⟨haside.renamed.table htable, hsettled.input (le_of_eq haside.count.symm) hr.input, hhold,
      hphase, addressed_some h.addressed haddr, fun e' he' p hp => ?_⟩
    have hlt := h.replied_lt e' he' p hp
    rwa [← hcount, ← haside.count] at hlt
  unfold Rep.copy
  split
  · exact .error _
  · exact .error _
  · next router hx =>
    refine .ok ?_
    cases h.phase with
    | idle hcur hsend' hbegins' hbetween =>
      have hbody := (hr.first m rfl hbetween).2
      rw [hcur] at hholding
      have hhold := hholding.sendIdentity htable hm _ hx rfl
      rw [if_neg hbody, Rep.take, hcur]
      have hres := hnext hx hhold (Exchange.begin_addressed htable hr.input.known) s.requestBegins
      exact hres (.envelope _ rfl hsend hbegins rfl fun m' hm' => (by cases hm'))
    | envelope e hcur hsend' hbegins' hreply hstack =>
      rw [hcur] at hholding
      obtain ⟨router', hx', hacc⟩ := hholding.sendPart m ((e.write r).receive m) rfl
        (Exchange.frames_receive (e := e.write r) hreply (fun m' hm' => (hstack m' hm').2) m)
      obtain rfl : router = router' := (Prod.mk.inj (Except.ok.inj (hx.symm.trans hx'))).2
      have hhold := hacc.holding
      rw [hm] at hhold
      have haddr : ((e.write r).receive m).Addressed := by
        intro p hp
        exact h.addressed e (by simp [hcur]) p (filter_eq_some_iff.mp hp).1
      rw [Rep.take, hcur]
      split
      · next hempty =>
        refine hnext hx hhold haddr false (.body _ e.request m [] rfl hsend rfl hreply rfl hstack hm hempty ?_)
        exact fun m' hm' => (by cases hm')
      · next hbody =>
        refine hnext hx hhold haddr s.requestBegins (.envelope _ rfl hsend hbegins hreply fun m' hm' => ?_)
        rcases mem_append.mp hm' with hm' | hm'
        · exact hstack m' hm'
        · rw [mem_singleton.mp hm']
          exact ⟨hm, hbody⟩
    | body e stack d body hcur hsend' hbegins' => rw [hbegins] at hbegins'; cases hbegins'
    | reply e hcur hsend' => rw [hsend] at hsend'; cases hsend'

lemma rollback (hm : m.more = false) :
    Ensures ({ s with router := r }.rollback) fun t =>
      t.Answerable → RepInv t ∧ t.requestBegins = true ∧ t.sendingReply = false := by
  have htable := hr.aside.renamed.table h.table
  have hholding : Holding (fun p => s.sentTo p) s.current r := h.holding.quiet hr.quiet
  unfold Rep.rollback
  split
  · exact .error _
  next router hx =>
  refine .ok fun hans => ⟨?_, hbegins, hsend⟩
  cases h.phase with
  | idle hcur hsend' hbegins' hbetween =>
    have hmore := (hr.first m rfl hbetween).1
    rw [hm] at hmore
    cases hmore
  | envelope e hcur hsend' hbegins' hreply hstack =>
    rw [hcur] at hholding
    have htarget : (e.discard r).target ≠ none := hans _ (by simp [hcur])
    obtain ⟨router', hx', hhold⟩ := hholding.rollback htarget
    obtain rfl : router = router' := Except.ok.inj (hx.symm.trans hx')
    obtain ⟨haside, hsettled⟩ := Router.rollback_settled r _ hx
    refine ⟨haside.renamed.table htable, hsettled.input (le_of_eq haside.count.symm) hr.input, hhold,
      .idle rfl hsend hbegins ((hr.last m rfl hm).of_eq hsettled.inputState), fun e' he' => ?_,
      fun e' he' p hp => ?_⟩
    · exact h.addressed e' (mem_append_left _ (by simpa using he'))
    · have hlt := h.replied_lt e' he' p hp
      have hcount : r.inp.count = s.router.inp.count := hr.quiet.count
      rwa [← hcount, ← haside.count] at hlt
  | body e stack d body hcur hsend' hbegins' => rw [hbegins] at hbegins'; cases hbegins'
  | reply e hcur hsend' => rw [hsend] at hsend'; cases hsend'

end

lemma recvEnvelope (rounds n : ℕ) (h : RepInv s) (hbegins : s.requestBegins = true)
    (hsend : s.sendingReply = false) :
    Ensures (s.recvEnvelope rounds n) fun x => x.2.Answerable →
      RepInv (if x.1 then { x.2 with requestBegins := false } else x.2) := by
  induction n generalizing s with
  | zero => exact .error _
  | succ n ih =>
    unfold Rep.recvEnvelope
    split
    · exact .error _
    · next router hx =>
      have hr := Router.xrecv_receives rounds h.table h.input _ hx
      refine .ok fun _ => ?_
      exact h.withRouter hr.quiet (hr.aside.renamed.table h.table) hr.input (hr.between rfl)
    · next m router hx =>
      have hr := Router.xrecv_receives rounds h.table h.input _ hx
      split
      · next hm =>
        split
        · exact .error _
        next t ht =>
        have hcopy := h.copy hbegins hsend hr hm t ht
        simp only at hcopy
        split
        · next hempty =>
          rw [if_pos hempty] at hcopy
          exact .ok fun _ => hcopy
        · next hbody =>
          rw [if_neg hbody] at hcopy
          obtain ⟨hb, hs, -⟩ := copy_same ht
          exact ih hcopy (hb.trans hbegins) (hs.trans hsend)
      · next hm =>
        split
        · exact .error _
        next t ht =>
        intro x hx' hans
        have hroll := h.rollback hbegins hsend hr (by simpa using hm) t ht
        obtain ⟨hinv, hb, hs⟩ := hroll (hans.of_append (recvEnvelope_discarded rounds n t x hx'))
        exact ih hinv hb hs x hx' hans

lemma recvBody (n : ℕ) (h : RepInv s) (hbegins : s.requestBegins = false) :
    Ensures (s.recvBody n) fun x => RepInv x.2 := by
  unfold Rep.recvBody
  split
  · exact .error _
  · next router hx =>
    have hr := Router.xrecv_receives n h.table h.input _ hx
    exact .ok (h.withRouter hr.quiet (hr.aside.renamed.table h.table) hr.input (hr.between rfl))
  · next m router hx =>
    have hr := Router.xrecv_receives n h.table h.input _ hx
    refine .ok ?_
    cases h.phase with
    | idle hcur hsend hbegins' | envelope e hcur hsend hbegins' | reply e hcur hsend hbegins' =>
      rw [hbegins] at hbegins'; cases hbegins'
    | body e stack d body hcur hsend hbegins' hreply hrequest hstack hmore hempty hbody =>
      have hstack' : ∀ m ∈ stack, m.body ≠ [] := fun m' hm' => (hstack m' hm').2
      have hrequest' : (e.receive m).request = stack ++ d :: (body ++ [m]) := by
        simp [Exchange.receive, hrequest]
      have hframes : (e.receive m).frames = e.frames := by
        simp only [Exchange.frames, hrequest', hrequest, envelopeOf_append hstack' hempty]
        rfl
      have hholding : Holding (fun p => s.sentTo p) s.current router := h.holding.quiet hr.quiet
      rw [hcur] at hholding
      have hnext : ∀ {t : Rep}, t.router = router → t.current = some (e.receive m) → t.replied = s.replied →
          t.greeted = s.greeted → t.Phase → RepInv t := by
        intro t hrouter hcur' hreplied hgreeted hphase
        have hsent : (fun p => t.sentTo p) = fun p => s.sentTo p := by
          simp only [sentTo, hreplied, hgreeted]
        refine ⟨hrouter ▸ hr.aside.renamed.table h.table, hrouter ▸ hr.input, ?_, hphase, ?_, ?_⟩
        · rw [hsent, hcur', hrouter]
          exact hholding.replace rfl hframes
        · rw [hreplied, hcur']
          exact addressed_some h.addressed (h.addressed e (by simp [hcur]))
        · intro e' he' p hp
          rw [hreplied] at he'
          rw [hrouter, hr.quiet.count]
          exact h.replied_lt e' he' p hp
      have hcur' : s.current.map (Exchange.receive m) = some (e.receive m) := by rw [hcur]; rfl
      cases hm : m.more with
      | true =>
        refine hnext rfl hcur' rfl rfl (.body _ stack d (body ++ [m]) hcur' hsend hbegins hreply hrequest' hstack
          hmore hempty fun m' hm' => ?_)
        rcases mem_append.mp hm' with hm' | hm'
        · exact hbody m' hm'
        · rwa [mem_singleton.mp hm']
      | false =>
        refine hnext rfl hcur' rfl rfl (.reply _ hcur' rfl rfl (hr.last m rfl hm) ?_)
        exact ⟨stack, d, body ++ [m], hrequest', hstack, hmore, hempty, body, m, rfl, hbody, hm⟩

lemma xrecv (n : ℕ) (h : RepInv s) : Ensures (s.xrecv n) fun x => x.2.Answerable → RepInv x.2 := by
  unfold Rep.xrecv
  split
  · exact .ok fun _ => h
  next hsend =>
  split
  · next hbegins =>
    have hloop := h.recvEnvelope n n hbegins (by simpa using hsend)
    split
    · exact .error _
    · next t ht =>
      have hinv := hloop _ ht
      exact .ok fun hans => (by simpa using hinv hans)
    · next t ht =>
      intro x hx hans
      have hrecord := recvBody_discarded n { t with requestBegins := false } x hx
      have hinv := hloop _ ht (hans.of_append (s := t) hrecord)
      exact recvBody n (by simpa using hinv) rfl x hx
  · next hbegins => exact (h.recvBody n (by simpa using hbegins)).mono fun x hx _ => hx

lemma xhasIn (n : ℕ) (h : RepInv s) : Ensures (s.xhasIn n) fun x => RepInv x.2 := by
  unfold Rep.xhasIn
  split
  · exact .ok h
  split
  · exact .error _
  · next b router hx =>
    obtain ⟨hq, haside, hin, hbet⟩ := Router.xhasIn_receives n h.table h.input _ hx
    exact .ok (h.withRouter hq (haside.renamed.table h.table) hin hbet)

lemma sentTo_append (s : Rep) (e : Exchange) (p : ℕ) :
    ({ s with replied := s.replied ++ [e] } : Rep).sentTo p = Holding.completed (fun q => s.sentTo q) e p := by
  by_cases hp : e.target = some p <;> simp [sentTo, Holding.completed, hp]

lemma reply (h : RepInv s) {e : Exchange} (hcur : s.current = some e) (hsend : s.sendingReply = true)
    (hbegins : s.requestBegins = true) (hbetween : s.router.Between) (hwell : WellFormed e.request) (m : Msg) :
    ∃ t, s.xsend m = .ok (.ok (), t) ∧ RepInv t ∧
      ∀ p < s.router.inp.count, (t.router.inp.links p).outbox = (s.router.inp.links p).outbox ++
        if m.more = false ∧ (e.write s.router).target = some p then e.frames ++ [m] else [] := by
  have hholding := h.holding
  rw [hcur] at hholding
  have hframes : ((e.write s.router).answer m).frames = e.frames ++ [m] := by
    simp [Exchange.frames, Exchange.write, Exchange.answer]
  obtain ⟨router, hx, hacc⟩ := hholding.sendPart m ((e.write s.router).answer m) rfl hframes
  have haside : Router.Aside s.router router := Router.xsend_aside m _ _ hx
  have hsettled : Router.Settled s.router router := Router.xsend_settled m _ _ hx
  have htable := haside.renamed.table h.table
  have hin := hsettled.input (le_of_eq haside.count.symm) h.input
  have hbetween' := hbetween.of_eq hsettled.inputState
  have haddr : ((e.write s.router).answer m).Addressed := by
    intro p hp
    exact h.addressed e (by simp [hcur]) p (filter_eq_some_iff.mp hp).1
  have hall := addressed_some h.addressed haddr
  have hlt : ∀ e' ∈ s.replied, ∀ p, e'.target = some p → p < router.inp.count := by
    intro e' he' p hp
    rw [haside.count]
    exact h.replied_lt e' he' p hp
  refine ⟨{ s.replyWith m with router, sendingReply := m.more }, ?_, ?_, fun p hp => ?_⟩
  · simp only [Rep.xsend, hsend, Bool.not_true, Bool.false_eq_true, if_false, hx]
  · have hhold := hacc.holding
    cases hm : m.more with
    | true =>
      simp only [hm, if_true] at hhold
      simp only [replyWith, hcur, map_some, hm, if_true]
      exact ⟨htable, hin, hhold, .reply _ rfl rfl hbegins hbetween' hwell, hall, hlt⟩
    | false =>
      simp only [hm, Bool.false_eq_true, if_false] at hhold
      simp only [replyWith, hcur, map_some, hm, Bool.false_eq_true, if_false, toList_some]
      refine ⟨htable, hin, ?_, .idle rfl rfl hbegins hbetween', ?_, fun e' he' p hp => ?_⟩
      · have hsent := funext (sentTo_append s ((e.write s.router).answer m))
        exact hsent ▸ hhold
      · intro e' he'
        exact hall e' (by simpa using he')
      · rcases mem_append.mp he' with he' | he'
        · exact hlt e' he' p hp
        · rw [mem_singleton.mp he'] at hp
          rw [haside.count]
          exact hholding.lt e p rfl (filter_eq_some_iff.mp hp).1
  · rw [← hframes]
    exact hacc.outbox p hp

lemma xsend (h : RepInv s) (m : Msg) : Ensures (s.xsend m) fun x => RepInv x.2 := by
  by_cases hs : s.sendingReply = true
  · cases h.phase with
    | reply e hcur hsend hbegins hbetween hwell =>
      obtain ⟨t, hx, ht, -⟩ := h.reply hcur hsend hbegins hbetween hwell m
      rw [hx]
      exact .ok ht
    | idle hcur hsend | envelope e hcur hsend | body e stack d body hcur hsend => rw [hs] at hsend; cases hsend
  · unfold Rep.xsend
    rw [if_pos (by simpa using hs)]
    exact .ok h

/-! ### Pipes -/

lemma sentTo_greeted (h : RepInv s) (hello : List Msg) :
    (fun p => ({ s with router := r, greeted := update s.greeted s.router.inp.count hello } : Rep).sentTo p) =
      update (update (fun p => s.sentTo p) s.router.inp.count []) s.router.inp.count
        hello := by
  funext p
  by_cases hp : p = s.router.inp.count
  · have hnone : s.replied.filter (fun e => e.target = some p) = [] := by
      rw [filter_eq_nil_iff]
      intro e he htarget
      have := h.replied_lt e he p (by simpa using htarget)
      omega
    rw [hp] at hnone
    simp [sentTo, hp, hnone]
  · simp [sentTo, hp]

lemma attach (h : RepInv s) (hwm0 hwm1 : ℤ) (before : List EndAct) :
    Ensures (s.step (.attach hwm0 hwm1 before)) RepInv := by
  refine map fun r hr => ?_
  obtain ⟨hin, hstate, hcount⟩ := Router.attach_input h.table h.input hwm0 hwm1 before r hr
  refine ⟨Router.step_table h.table _ r hr, hin, ?_, phase_router h.phase (fun hb => hb.of_eq hstate) _,
    h.addressed, fun e he p hp => ?_⟩
  · have hhold := h.holding.attach h.table hwm0 hwm1 before r hr
    rw [← sentTo_greeted (r := r) h] at hhold
    exact hhold
  · have hlt := h.replied_lt e he p hp
    simp only [hcount]
    omega

lemma step (h : RepInv s) (a : RouterAct) (ha : a ≠ .setRaw true) :
    Ensures (s.step a) fun t => t.Answerable → RepInv t := by
  have hidle : Ensures (s.router.step a) (Router.Idle s.router) →
      Ensures ((s.router.step a).map fun router => { s with router }) fun t => t.Answerable → RepInv t := by
    intro hi
    refine map fun r hr => ?_
    exact fun _ => h.idle (hi r hr) (Router.step_table h.table a r hr)
  cases a with
  | attach hwm0 hwm1 before => exact (h.attach hwm0 hwm1 before).mono fun t ht _ => ht
  | recv n => exact map (h.xrecv n)
  | hasIn n => exact map ((h.xhasIn n).mono fun x hx _ => hx)
  | send flags body => exact map ((h.xsend _).mono fun x hx _ => hx)
  | setConnectRid rid =>
    refine hidle (.ok ?_)
    split
    · exact .refl _
    · exact ⟨.of_links rfl rfl rfl rfl, .of_eq rfl rfl rfl rfl⟩
  | setRaw value =>
    have hvalue : value = false := by simpa using ha
    refine hidle (.ok ⟨⟨rfl, fun _ _ => .refl _, fun _ hp => hp, fun hc => ?_, rfl, fun _ hp => hp,
      fun _ hp _ => hp⟩, .of_eq rfl rfl rfl rfl⟩)
    exact ⟨hvalue, by simp [hc.2, hvalue]⟩
  | setMandatory value | setProbeRouter value | setHandover value =>
    exact hidle (.ok ⟨.of_links rfl rfl rfl rfl, .of_eq rfl rfl rfl rfl⟩)
  | owner p a => exact hidle (Router.owner_idle h.table a)
  | peer p a => exact hidle (Router.peer_idle s.router p a)

lemma routes (h : RepInv s) : s.Routes where
  readable p hp := (h.holding.written p hp).out.readable
  source := h.addressed
  delivers hs := by
    cases h.phase with
    | reply e hcur hsend hbegins hbetween hwell =>
      refine ⟨e, hcur, hwell, fun m => ?_⟩
      obtain ⟨t, hx, -, hbox⟩ := h.reply hcur hsend hbegins hbetween hwell m
      exact ⟨t, hx, hbox⟩
    | idle hcur hsend | envelope e hcur hsend | body e stack d body hcur hsend => rw [hs] at hsend; cases hsend

end RepInv

/-- **Routing of a REP socket.** In every state of a run in which the socket was not made a raw one and
every malformed request that was discarded came from a peer to which a reply could be sent, the replies
are routed: with its last frame a reply and the envelope of its request are written to the pipe the reply
belongs to, or dropped as a whole if that pipe is gone or full, and no peer can read anything else. -/
theorem rep_routing (rid : UInt32) (acts : List RouterAct) (s : Rep) (hraw : ∀ a ∈ acts, a ≠ .setRaw true)
    (hrun : (Rep.new rid).run acts = .ok s) (hans : s.Answerable) : s.Routes := by
  have hmeet : StepsMeet Rep.step (fun _ a => a ≠ .setRaw true) (Rep.new rid) acts :=
    stepsMeet_of_forall (fun a ha _ => hraw a ha) _
  have hinv : s.Answerable → RepInv s := by
    refine runSteps_preserves (I := fun s => s.Answerable → RepInv s) ?_ (fun _ => .new rid) hmeet hrun
    intro s a t hs ha hstep hans
    exact (hs (hans.of_append (Rep.step_discarded s a t hstep))).step a ha t hstep hans
  exact (hinv hans).routes

/-- A malformed request is discarded whose peer could be replied to, and the next request is
answered. -/
theorem rep_routing_two_peers :
    ∃ s, (Rep.new 5).run [.attach 1 0 [.write .none [1], .flush], .attach 0 0 [.write .none [2], .flush],
        .peer 0 (.write (frameFlags false) [9]), .peer 0 .flush, .owner 0 ⟨.deliver, trivial, trivial⟩,
        .recv 9, .peer 1 (.write (frameFlags true) [6]), .peer 1 (.write (frameFlags true) []),
        .peer 1 (.write (frameFlags false) [7]), .peer 1 .flush, .owner 1 ⟨.deliver, trivial, trivial⟩,
        .recv 9] = .ok s ∧
      (s.Answerable ∧ s.discarded.length = 1 ∧ s.sendingReply = true) ∧ s.Routes := by
  refine okAnd.exists_imp (P := fun s : Rep => s.Answerable ∧ s.discarded.length = 1 ∧
    s.sendingReply = true) (by decide +kernel) fun s hrun hs => ?_
  exact ⟨hs, rep_routing 5 _ s (by simp) hrun hs.1⟩

lemma Rep.not_routes {s : Rep} {m : Msg} {p : ℕ} (hm : m.more = false) (hsend : s.sendingReply = true)
    (hlt : p < s.router.inp.count) (htarget : s.current.all fun e => (e.write s.router).target = some p)
    (hlost : okAnd (s.xsend m) fun x => (x.2.router.inp.links p).outbox = []) : ¬s.Routes := by
  intro h
  obtain ⟨e, he, -, hall⟩ := h.delivers hsend
  obtain ⟨t, ht, hbox⟩ := hall m
  obtain ⟨x, hx, hnil⟩ := hlost.exists
  obtain rfl : x = (.ok (), t) := Except.ok.inj (hx.symm.trans ht)
  have htar : (e.write s.router).target = some p := by simpa [he] using htarget
  have hp := hbox p hlt
  simp [hnil, hm, htar] at hp

/-- The pipe of the first peer is full, and its next request is malformed. The second peer gets no reply
to its request although its pipe has no limit. -/
theorem rep_loses_reply :
    ∃ s, (Rep.new 5).run [.attach 1 0 [.write .none [1], .flush], .attach 0 0 [.write .none [2], .flush],
        .peer 0 (.write (frameFlags true) []), .peer 0 (.write (frameFlags false) [7]), .peer 0 .flush,
        .owner 0 ⟨.deliver, trivial, trivial⟩, .recv 9, .send (frameFlags false) [8],
        .peer 0 (.write (frameFlags false) [9]), .peer 0 .flush, .owner 0 ⟨.deliver, trivial, trivial⟩,
        .recv 9, .peer 1 (.write (frameFlags true) []), .peer 1 (.write (frameFlags false) [7]),
        .peer 1 .flush, .owner 1 ⟨.deliver, trivial, trivial⟩, .recv 9] = .ok s ∧ ¬s.Routes := by
  refine okAnd.exists_imp (P := fun s : Rep => s.sendingReply = true ∧ 1 < s.router.inp.count ∧
    (s.current.all fun e => (e.write s.router).target = some 1) = true ∧
    okAnd (s.xsend ⟨.data, frameFlags false, [3]⟩) fun x => (x.2.router.inp.links 1).outbox = [])
    (by decide +kernel) fun s _ hs => ?_
  obtain ⟨hsend, hlt, htarget, hlost⟩ := hs
  exact Rep.not_routes rfl hsend hlt htarget hlost

end Zmq
