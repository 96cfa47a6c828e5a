import ZeroMQ.Pattern.FqFrames
import ZeroMQ.Pattern.RouterTable

/-!
# Polling a ROUTER socket

The application receives a message from a ROUTER socket as a block: the identity of the peer and then the
frames of the message. To find out whether there is a message, `xhas_in` has to take a frame from the
fair queue, since it may be one that is to be skipped: the identity of a peer that has connected again.
It keeps the frame, and the identity that goes before it, for `xrecv`.

`Polling` is the invariant: what `xrecv` has returned and what the socket keeps for it are the blocks of
the messages taken from the fair queue. So it makes no difference when `xhas_in` is called.
-/

namespace Zmq

open Foundation Function List Except Nat Ensures

namespace Router

variable {s t : Router} {p : ℕ} {g : List FrameFrom} {f : FrameFrom} {m : Msg} {ids : ℕ → Identity}

/-! ### Blocks -/

/-- The frames that are not the identity of a peer that has connected again. -/
def visible (g : List FrameFrom) : List FrameFrom := g.filter fun f => !f.1.isIdentity

/-- The identity of the peer and the frames of its message; nothing if the message is nothing but the
identity of a peer that has connected again. -/
def block (ids : ℕ → Identity) (g : List FrameFrom) : List Msg :=
  match visible g with
  | [] => []
  | f :: fs => identityMsg (ids f.2) :: (f :: fs).map Prod.fst

/-- The blocks of the messages taken from the fair queue. -/
def blocks (ids : ℕ → Identity) (inp : FqSystem) : List Msg := (inp.received ++ [inp.receiving]).flatMap (block ids)

/-- The frames that wait for `xrecv`. -/
def staged (s : Router) : List Msg :=
  if s.prefetched then
    if s.identitySent then [s.prefetchedMsg] else [s.prefetchedId, s.prefetchedMsg]
  else []

@[simp] lemma visible_nil : visible [] = [] := rfl

lemma visible_append (g : List FrameFrom) (f : FrameFrom) :
    visible (g ++ [f]) = if f.1.isIdentity then visible g else visible g ++ [f] := by
  cases hf : f.1.isIdentity <;> simp [visible, hf]

lemma block_append_identity (hf : f.1.isIdentity = true) : block ids (g ++ [f]) = block ids g := by
  rw [block, visible_append, if_pos hf]
  rfl

lemma block_append (hf : f.1.isIdentity = false) :
    block ids (g ++ [f]) = block ids g ++
      if visible g = [] then [identityMsg (ids f.2), f.1] else [f.1] := by
  rw [block, block, visible_append, hf]
  cases hg : visible g with
  | nil | cons f' fs => simp

lemma blocks_record (inp : FqSystem) (f : FrameFrom) :
    blocks ids (inp.record f) = blocks ids inp ++
      if f.1.isIdentity then [] else
        if visible inp.receiving = [] then [identityMsg (ids f.2), f.1] else [f.1] := by
  have hblock : block ids (inp.receiving ++ [f]) = block ids inp.receiving ++
      if f.1.isIdentity then [] else
        if visible inp.receiving = [] then [identityMsg (ids f.2), f.1] else [f.1] := by
    cases hf : f.1.isIdentity with
    | true => simp [block_append_identity hf]
    | false => simp [block_append hf]
  have hnil : block ids [] = [] := rfl
  unfold FqSystem.record blocks
  split <;> simp [flatMap_append, hblock, hnil]

lemma block_congr {ids' : ℕ → Identity} (h : ∀ f ∈ g, ids' f.2 = ids f.2) : block ids' g = block ids g := by
  unfold block
  split
  · rfl
  · next f fs hg =>
    have hmem : f ∈ visible g := by simp [hg]
    rw [h f (mem_of_mem_filter hmem)]

/-- Only the first frame of a message may be an identity. -/
def Leads (g : List Msg) : Prop := ∀ m ∈ g.tail, m.isIdentity = false

instance (g : List Msg) : Decidable (Leads g) := inferInstanceAs (Decidable (∀ m ∈ g.tail, _))

/-- The peers write identities only in front of messages. -/
def Leading (inp : FqSystem) : Prop := ∀ p, (∀ g ∈ inp.published p, Leads g) ∧ Leads (inp.pending p)

lemma continues_isIdentity {inp : FqSystem} (h : FqInv (inp.record (m, p))) (hlead : Leading inp)
    (hne : inp.receiving ≠ []) : m.isIdentity = false := by
  have hin : ∀ g rest, (inp.receiving ++ [(m, p)]).map Prod.fst ++ rest = g → Leads g → m.isIdentity = false := by
    rintro g rest rfl hg
    refine hg m ?_
    cases hrecv : inp.receiving with
    | nil => exact absurd hrecv hne
    | cons f fs => simp
  have hatomic := h.atomic
  cases hmore : m.more with
  | true =>
    have hrecv : (inp.record (m, p)).receiving = inp.receiving ++ [(m, p)] := by
      simp [FqSystem.record, hmore]
    have hpub : (inp.record (m, p)).published = inp.published := by
      simp [FqSystem.record, hmore]
    obtain ⟨q, -, -, rest, -, hpre⟩ := hatomic.receiving (by simp [hrecv])
    rw [hrecv, hpub] at hpre
    refine hin _ rest rfl ((hlead q).1 _ (hpre.subset ?_))
    simp
  | false =>
    have hrec : (inp.record (m, p)).received = inp.received ++ [inp.receiving ++ [(m, p)]] := by
      simp [FqSystem.record, hmore]
    have hpub : (inp.record (m, p)).published = inp.published := by
      simp [FqSystem.record, hmore]
    obtain ⟨q, hq, hfrom, -⟩ := hatomic.received (inp.receiving ++ [(m, p)]) (by simp [hrec])
    have htaken := hatomic.taken q hq
    rw [hrec, FqSystem.messagesFrom_append, if_pos hfrom, hpub] at htaken
    refine hin _ [] rfl ((hlead q).1 _ (htaken.subset ?_))
    simp

/-! ### The next frame -/

/-- Frames were taken from the fair queue. -/
structure Advanced (a b : FqSystem) : Prop where
  inv : FqInv b
  published : b.published = a.published
  pending : b.pending = a.pending
  count : b.count = a.count

lemma Advanced.trans {a b c : FqSystem} (h : Advanced a b) (h' : Advanced b c) : Advanced a c :=
  ⟨h'.inv, h'.published.trans h.published, h'.pending.trans h.pending, h'.count.trans h.count⟩

lemma Advanced.leading {a b : FqSystem} (h : Advanced a b) (ha : Leading a) : Leading b := by
  intro p
  rw [h.published, h.pending]
  exact ha p

lemma record_fields (inp : FqSystem) (f : FrameFrom) :
    (inp.record f).published = inp.published ∧ (inp.record f).pending = inp.pending ∧
      (inp.record f).count = inp.count ∧ (inp.record f).links = inp.links ∧
      (inp.record f).receiving = if f.1.more then inp.receiving ++ [f] else [] := by
  unfold FqSystem.record
  split <;> simp_all

/-- What the loop that skips identities comes to. -/
inductive Taken (s : Router) (n : ℕ) : Prop
  /-- The loop had not enough rounds. -/
  | running (h : s.recvFrame n = .error .running) (hn : n ≤ s.inp.unread)
  /-- There is no frame, and no message is in progress. -/
  | nothing (inp : FqSystem) (h : s.recvFrame n = .ok (none, { s with inp })) (hadv : Advanced s.inp inp)
      (hbefore : s.inp.receiving = []) (hafter : inp.receiving = [])
      (hblocks : blocks s.identities inp = blocks s.identities s.inp)
  /-- There is a frame. -/
  | frame (m : Msg) (p : ℕ) (inp : FqSystem) (h : s.recvFrame n = .ok (some (m, p), { s with inp }))
      (hadv : Advanced s.inp inp) (hmore : inp.receiving.isEmpty = !m.more)
      (hvisible : inp.receiving ≠ [] → visible inp.receiving ≠ [])
      (hblocks : blocks s.identities inp = blocks s.identities s.inp ++
        if visible s.inp.receiving = [] then [identityMsg (s.identities p), m] else [m])

lemma recvFrame_taken (n : ℕ) (s : Router) (h : FqInv s.inp) (hgood : s.inp.Good .recv)
    (hlead : Leading s.inp) : Taken s n := by
  induction n generalizing s with
  | zero => exact .running rfl (zero_le _)
  | succ n ih =>
    obtain ⟨fq, links, heq, hnil, hinv, -⟩ | ⟨m, p, fq, links, heq, hinv, hfewer, hgood'⟩ := h.recvpipe hgood
    · refine .nothing { s.inp with fq, links } ?_ ⟨hinv, rfl, rfl, rfl⟩ hnil hnil rfl
      simp only [recvFrame, recvpipe, heq]
    set inp := FqSystem.record { s.inp with fq, links } (m, p) with hrec
    obtain ⟨hpub, hpend, hcount, hlinks, hreceiving⟩ := record_fields { s.inp with fq, links } (m, p)
    rw [← hrec] at hpub hpend hcount hlinks hreceiving
    have hadv : Advanced s.inp inp := ⟨hinv, hpub, hpend, hcount⟩
    have hblocks : blocks s.identities inp = blocks s.identities s.inp ++
        if m.isIdentity then [] else
          if visible s.inp.receiving = [] then [identityMsg (s.identities p), m] else [m] :=
      blocks_record _ _
    cases hid : m.isIdentity with
    | false =>
      refine .frame m p inp ?_ hadv ?_ ?_ ?_
      · simp [recvFrame, recvpipe, heq, hid, ← hrec]
      · rw [hreceiving]
        cases m.more <;> simp
      · intro hne
        rw [hreceiving] at hne ⊢
        split at hne
        · next hmore => simp [hmore, visible_append, hid]
        · exact absurd rfl hne
      · simpa [hid] using hblocks
    | true =>
      -- an identity is in front of its message, so no frame of the message was returned yet
      have hnil : s.inp.receiving = [] := by
        by_contra hne
        have hlead' : Leading { s.inp with fq, links } := hlead
        have hcont := continues_isIdentity hinv hlead' hne
        simp [hid] at hcont
      have hvis : visible inp.receiving = [] := by
        rw [hreceiving, hnil]
        cases m.more <;> simp [visible, hid]
      have hunread : inp.unread < s.inp.unread := by
        have hsum : inp.unread = FqSystem.unread { s.inp with fq, links } := by
          simp only [FqSystem.unread, hlinks, hcount]
        rw [hsum]
        exact hfewer
      have hnext : s.recvFrame (n + 1) = recvFrame n { s with inp } := by
        simp [recvFrame, recvpipe, heq, hid, ← hrec]
      have hsame : blocks s.identities inp = blocks s.identities s.inp := by simpa [hid] using hblocks
      rcases ih { s with inp } hinv hgood' (hadv.leading hlead) with
        ⟨hrun, hn⟩ | ⟨inp', hrun, hadv', -, hafter, hblocks'⟩ | ⟨m', p', inp', hrun, hadv', hmore, hv, hblocks'⟩
      · exact .running (hnext.trans hrun) (lt_of_le_of_lt hn hunread)
      · exact .nothing inp' (hnext.trans hrun) (hadv.trans hadv') hnil hafter (hblocks'.trans hsame)
      · refine .frame m' p' inp' (hnext.trans hrun) (hadv.trans hadv') hmore hv ?_
        simp only [hvis, if_true] at hblocks'
        rw [hblocks', hsame, hnil]
        simp

/-! ### The invariant -/

/-- The fields of the socket that have to do with receiving, and what it has returned. -/
def inState (s : Router) : Bool × Bool × Bool × Msg × Msg × List Msg :=
  (s.prefetched, s.identitySent, s.moreIn, s.prefetchedId, s.prefetchedMsg, s.returned)

/-- All peers are identified, and what was returned and what is kept are the blocks of the messages taken
from the fair queue. -/
structure Polling (s : Router) : Prop where
  inv : FqInv s.inp
  named : s.anonymousPipes = ∅
  leading : Leading s.inp
  stream : s.returned ++ s.staged = blocks s.identities s.inp
  /-- The frame before the next one that is to be taken announces more if a message is in progress. -/
  more : (if s.prefetched then s.prefetchedMsg.more else s.moreIn) = !s.inp.receiving.isEmpty
  visible : s.inp.receiving ≠ [] → visible s.inp.receiving ≠ []

namespace Polling

lemma new (rid : UInt32) : (Router.new rid).Polling where
  inv := FqInv.new
  named := rfl
  leading p := ⟨fun g hg => (by cases hg), fun m hm => (by cases hm)⟩
  stream := rfl
  more := rfl
  visible h := absurd rfl h

lemma lt_count (h : s.Polling) : ∀ g ∈ s.inp.received ++ [s.inp.receiving], ∀ f ∈ g, f.2 < s.inp.count := by
  intro g hg f hf
  rcases mem_append.mp hg with hg | hg
  · obtain ⟨p, hp, hfrom, -⟩ := h.inv.received g hg
    rw [hfrom f hf]
    exact hp
  · obtain rfl := mem_singleton.mp hg
    cases h.inv.phase with
    | between hmore hnil => simp [hnil] at hf
    | inside p hmore hcur hne hfrom =>
      rw [hfrom f hf]
      exact h.inv.core.lt_count hcur.isActive

lemma still (h : s.Polling) (hinv : FqInv t.inp) (hnamed : t.anonymousPipes = s.anonymousPipes)
    (hlead : Leading t.inp) (hrec : t.inp.received = s.inp.received)
    (hrecv : t.inp.receiving = s.inp.receiving)
    (hids : ∀ p < s.inp.count, t.identities p = s.identities p) (hstate : t.inState = s.inState) :
    t.Polling := by
  simp only [inState, Prod.mk.injEq] at hstate
  obtain ⟨hpre, hsent, hmore, hpid, hpmsg, hret⟩ := hstate
  have hstaged : t.staged = s.staged := by
    simp only [staged, hpre, hsent, hpid, hpmsg]
  have hblocks : blocks t.identities t.inp = blocks s.identities s.inp := by
    rw [blocks, hrec, hrecv]
    refine flatMap_congr fun g hg => block_congr fun f hf => ?_
    exact hids f.2 (h.lt_count g hg f hf)
  refine ⟨hinv, hnamed.trans h.named, hlead, ?_, ?_, ?_⟩
  · rw [hret, hstaged, hblocks, h.stream]
  · rw [hpre, hpmsg, hmore, hrecv, h.more]
  · rw [hrecv]
    exact h.visible

lemma xrecv (h : s.Polling) {n : ℕ} (hgood : s.inp.Good .recv) :
    Ensures (s.xrecv n) fun r => Polling (recordReturned r) := by
  unfold Router.xrecv
  have hstream := h.stream
  have hmore := h.more
  split
  · next hpre =>
    simp only [staged, hpre, if_true] at hstream hmore
    split
    · next hsent =>
      refine .ok ⟨h.inv, h.named, h.leading, ?_, ?_, h.visible⟩
      · simpa [recordReturned, staged, hsent] using hstream
      · simpa [recordReturned] using hmore
    · next hsent =>
      refine .ok ⟨h.inv, h.named, h.leading, ?_, ?_, h.visible⟩
      · simpa [recordReturned, staged, hsent, hpre] using hstream
      · simpa [recordReturned, hpre] using hmore
  · next hpre =>
    simp only [staged, hpre, if_false, Bool.false_eq_true, append_nil] at hstream hmore
    rcases recvFrame_taken n s h.inv hgood h.leading with
      ⟨heq, -⟩ | ⟨inp, heq, hadv, hbefore, hafter, hblocks⟩ | ⟨m, p, inp, heq, hadv, hmore', hvis, hblocks⟩
    · rw [heq]
      exact .error _
    · rw [heq]
      refine .ok ⟨hadv.inv, h.named, hadv.leading h.leading, ?_, ?_, fun hne => absurd hafter hne⟩
      · simpa [recordReturned, staged, hpre] using hstream.trans hblocks.symm
      · simpa [recordReturned, hpre, hafter, hbefore] using hmore
    · rw [heq]
      simp only
      split
      · next hin =>
        have hne : s.inp.receiving ≠ [] := by
          intro hnil
          rw [hin, hnil] at hmore
          cases hmore
        rw [if_neg (h.visible hne)] at hblocks
        refine .ok ⟨hadv.inv, h.named, hadv.leading h.leading, ?_, ?_, hvis⟩
        · simpa [recordReturned, staged, hpre, hstream] using hblocks.symm
        · simp [recordReturned, hpre, hmore']
      · next hin =>
        have hnil : s.inp.receiving = [] := by
          simpa [hin] using hmore
        rw [hnil] at hblocks
        refine .ok ⟨hadv.inv, h.named, hadv.leading h.leading, ?_, ?_, hvis⟩
        · simpa [recordReturned, staged, hstream] using hblocks.symm
        · simp [recordReturned, hmore']

lemma good_of_nil {inp : FqSystem} (h : FqInv inp) (hnil : inp.receiving = []) : inp.Good .recv := by
  intro hmore
  cases h.phase with
  | between hmore' => simp [hmore'] at hmore
  | inside q hmore' hcur hne => exact absurd hnil hne

lemma xhasIn (h : s.Polling) {n : ℕ} : Ensures (s.xhasIn n) fun r => Polling r.2 := by
  unfold Router.xhasIn
  have hstream := h.stream
  have hmore := h.more
  split
  · exact .ok h
  next hin =>
  split
  · exact .ok h
  next hpre =>
  simp only [staged, hpre, if_false, Bool.false_eq_true, append_nil] at hstream hmore
  have hnil : s.inp.receiving = [] := by
    simpa [hin] using hmore
  rcases recvFrame_taken n s h.inv (good_of_nil h.inv hnil) h.leading with
    ⟨heq, -⟩ | ⟨inp, heq, hadv, -, hafter, hblocks⟩ | ⟨m, p, inp, heq, hadv, hmore', hvis, hblocks⟩
  · rw [heq]
    exact .error _
  · rw [heq]
    refine .ok ⟨hadv.inv, h.named, hadv.leading h.leading, ?_, ?_, fun hne => absurd hafter hne⟩
    · simpa [staged, hpre] using hstream.trans hblocks.symm
    · simpa [hpre, hafter, hnil] using hmore
  · rw [heq]
    rw [hnil] at hblocks
    refine .ok ⟨hadv.inv, h.named, hadv.leading h.leading, ?_, ?_, hvis⟩
    · simpa [staged, hstream] using hblocks.symm
    · simp [hmore']

end Polling

/-! ### Steps -/

end Router

/-- The peer writes an identity only in front of a message. -/
def EndAct.IdentityLeads (a : EndAct) (pending : List Msg) : Prop :=
  match a with
  | .write flags _ => flags.identity = true → pending = []
  | _ => True

instance (a : EndAct) (pending : List Msg) : Decidable (a.IdentityLeads pending) :=
  match a with
  | .write _ _ => inferInstanceAs (Decidable (_ → _))
  | .terminate _ | .setNodelay | .checkRead | .read | .checkWrite | .rollback | .flush | .hiccup
  | .deliver => inferInstanceAs (Decidable True)

namespace Router

variable {s t : Router} {p : ℕ}

lemma leads_publish {l : Link} {a : EndAct} {published : List (List Msg)} {pending : List Msg}
    (hpub : ∀ g ∈ published, Leads g) (hpend : Leads pending) (ha : a.IdentityLeads pending) :
    (∀ g ∈ (l.publish a published pending).1, Leads g) ∧ Leads (l.publish a published pending).2 := by
  have hnil : Leads [] := fun m hm => (by cases hm)
  cases a with
  | write flags body =>
    have hsnoc : Leads (pending ++ [⟨.data, flags, body⟩]) := by
      intro m hm
      cases hpending : pending with
      | nil => simp [hpending] at hm
      | cons f fs =>
        rw [hpending, cons_append, tail_cons, mem_append] at hm
        rcases hm with hm | hm
        · exact hpend m (by rw [hpending]; exact hm)
        rw [mem_singleton.mp hm]
        by_contra hid
        have hcon := ha (by simpa [Msg.isIdentity] using hid)
        rw [hpending] at hcon
        cases hcon
    simp only [Link.publish]
    split
    · split
      · exact ⟨hpub, hsnoc⟩
      · refine ⟨fun g hg => ?_, hnil⟩
        rcases mem_append.mp hg with hg | hg
        · exact hpub g hg
        · rw [mem_singleton.mp hg]
          exact hsnoc
    · exact ⟨hpub, hpend⟩
  | rollback | terminate delay => exact ⟨hpub, hnil⟩
  | _ => exact ⟨hpub, hpend⟩

lemma Polling.peer (h : s.Polling) {a : EndAct} (ha : a.IdentityLeads (s.inp.pending p)) :
    Ensures (s.peer p a) Polling := by
  unfold Router.peer
  obtain ⟨inp, hstep, hinv⟩ := h.inv.peer p a
  rw [hstep]
  refine .ok (h.still hinv rfl ?_ ?_ ?_ (fun _ _ => rfl) rfl)
  · intro q
    by_cases hp : p < s.inp.count ∧ a.CredentialBetween (s.inp.pending p)
    · simp only [FqSystem.step, if_pos hp] at hstep
      split at hstep
      · cases hstep
      rw [← ok.inj hstep]
      by_cases hq : q = p
      · subst hq
        simp only [update_self]
        exact leads_publish (h.leading q).1 (h.leading q).2 ha
      · simp only [update_of_ne hq]
        exact h.leading q
    · simp only [FqSystem.step, if_neg hp] at hstep
      rw [← ok.inj hstep]
      exact h.leading q
  all_goals
    simp only [FqSystem.step] at hstep
    split at hstep
    · split at hstep
      · cases hstep
      · rw [← ok.inj hstep]
    · rw [← ok.inj hstep]

lemma Polling.owner (h : s.Polling) (a : PipeAct) (hgood : s.inp.Good (.owner p ⟨a.1, a.2.1⟩)) :
    Ensures (s.owner p a) Polling := by
  unfold Router.owner
  split
  swap
  · exact .ok h
  next hp =>
  split
  · exact .error _
  next l e hact =>
  obtain ⟨u, hstep, hinv⟩ := h.inv.socketAct a.2.1 hp hgood hact
  have hnamed : p ∉ (s.setLink p l).anonymousPipes := by simp [setLink, h.named]
  have hset : FqInv (s.setLink p l).inp → Polling (s.setLink p l) := fun hl =>
    h.still hl rfl h.leading rfl rfl (fun _ _ => rfl) rfl
  rcases e with _ | e
  · cases hstep
    exact .ok (hset hinv)
  cases e with
  | readActivated =>
    simp only [FqSystem.react] at hstep
    simp only [react, xreadActivated]
    rw [if_neg hnamed]
    split at hstep
    · cases hstep
    next fq hfq =>
    cases hstep
    have hfq' : (s.setLink p l).inp.fq.activated p = some fq := hfq
    rw [hfq']
    exact .ok (h.still hinv rfl h.leading rfl rfl (fun _ _ => rfl) rfl)
  | writeActivated =>
    cases hstep
    simp only [react, xwriteActivated]
    split
    · exact .error _
    · split
      · exact .error _
      · exact .ok (h.still hinv rfl h.leading rfl rfl (fun _ _ => rfl) rfl)
  | hiccuped =>
    cases hstep
    exact .ok (hset hinv)
  | pipeTerminated =>
    simp only [FqSystem.react] at hstep
    simp only [react, xpipeTerminated]
    rw [if_neg hnamed]
    split
    · split at hstep
      · cases hstep
      · next fq hfq =>
        cases hstep
        have hfq' : (s.setLink p l).inp.fq.pipeTerminated p s.inp.links = some fq := hfq
        rw [hfq']
        exact .ok (h.still hinv rfl h.leading rfl rfl (fun _ _ => rfl) rfl)
    · exact .error _

/-! ### A new peer -/

variable {l : Link} {published : List (List Msg)} {pending : List Msg}

open FqSystem (Newcomer)

/-- Before a new pipe is attached, nothing has changed but the pipe. -/
structure Waits (s t : Router) (l : Link) (published : List (List Msg)) (pending : List Msg) : Prop where
  newcomer : Newcomer l published pending
  inp : t.inp = s.inp.withPipe l published pending
  named : t.anonymousPipes = s.anonymousPipes
  identities : ∀ q < s.inp.count, t.identities q = s.identities q
  inState : t.inState = s.inState

lemma addPipe_waits (h : FqInv s.inp) (hwm0 hwm1 : ℤ) :
    Waits s (s.addPipe hwm0 hwm1) (Link.pipepair hwm0 hwm1) [] [] := by
  obtain ⟨hpub, hpend⟩ := h.silent s.inp.count (le_refl _)
  have hsame : update s.inp.published s.inp.count [] = s.inp.published ∧
      update s.inp.pending s.inp.count [] = s.inp.pending :=
    ⟨update_eq_self_iff.mpr hpub.symm, update_eq_self_iff.mpr hpend.symm⟩
  refine ⟨.pipepair hwm0 hwm1, ?_, rfl, fun _ _ => rfl, rfl⟩
  simp only [addPipe, FqSystem.withPipe, hsame.1, hsame.2]

/-- The identity that is read from a pipe, if any, is not taken over from another peer. -/
def TakesOverNone (p : ℕ) (s : Router) : Prop :=
  s.handover = true → okAnd (s.inp.links p).read fun r => ∀ m ∈ r.1, s.outpipes.lookup m.body = none

section

variable (h : Waits s t l published pending)

include h

lemma Waits.peerActs (as : List EndAct) :
    Ensures (t.peerActs s.inp.count as) fun u => ∃ l' published' pending', Waits s u l' published' pending' := by
  induction as generalizing t l published pending with
  | nil => exact .ok ⟨l, published, pending, h⟩
  | cons a as ih =>
    obtain ⟨l', published', pending', hstep, hnew, -⟩ := h.newcomer.peer s.inp a
    unfold Router.peerActs Router.peer
    rw [h.inp, hstep]
    exact ih ⟨hnew, rfl, h.named, h.identities, h.inState⟩

lemma Waits.setLink {l' : Link}
    (hl : Newcomer l' published pending) : Waits s (t.setLink s.inp.count l') l' published pending := by
  refine ⟨hl, ?_, h.named, h.identities, h.inState⟩
  simp [Router.setLink, h.inp, FqSystem.withPipe]

lemma Waits.link : t.inp.links s.inp.count = l := by
  simp [h.inp, FqSystem.withPipe]

lemma Waits.probe : Ensures (t.probe s.inp.count) fun u => ∃ l', Waits s u l' published pending := by
  unfold Router.probe
  split
  · rw [h.link]
    split
    · exact .error _
    next l' hwrite =>
    have hact : l.act (.write .none []) = .ok (l', none) := by
      simp only [Link.act, Link.call, if_pos h.newcomer.alive]
      change ((l.write Dealer.probeMsg).map Prod.snd).map (·, none) = _
      rw [hwrite]
      rfl
    have hl' := h.newcomer.act (a := .write .none []) trivial hact
    split
    · exact .error _
    next l'' hflush =>
    have hact' : l'.act .flush = .ok (l'', none) := by
      simp only [Link.act, Link.call, if_pos hl'.alive, hflush]
      rfl
    exact .ok ⟨l'', h.setLink (hl'.act (a := .flush) trivial hact')⟩
  · exact .ok ⟨l, h⟩

lemma Waits.register (id : Identity) :
    Ensures (t.register s.inp.count id) fun u => Waits s u l published pending := by
  unfold Router.register insertOutpipe
  split
  · exact .error _
  · refine .ok ⟨h.newcomer, h.inp, h.named, fun q hq => ?_, h.inState⟩
    simp only [update_of_ne (Nat.ne_of_lt hq)]
    exact h.identities q hq

lemma Waits.identifyPeer (hhand : t.TakesOverNone s.inp.count)
    (hone : t.connectRid = [] → t.optionsRawSock = false → ∀ g ∈ published.head?, g.length = 1) :
    Ensures (t.identifyPeer s.inp.count) fun r => r.1 = true →
      ∃ l' published', Waits s r.2 l' published' pending ∧ ∀ g ∈ published', g ∈ published := by
  have hregister : ∀ {u : Router} {l' published'} (id : Identity), Waits s u l' published' pending →
      (∀ g ∈ published', g ∈ published) →
      Ensures ((u.register s.inp.count id).map (true, ·)) fun r => r.1 = true →
        ∃ l' published', Waits s r.2 l' published' pending ∧ ∀ g ∈ published', g ∈ published := by
    intro u l' published' id hu hsub
    exact map ((hu.register id).mono fun v hv _ => ⟨l', published', hv, hsub⟩)
  have hauto : ∀ {u : Router} {l' published'}, Waits s u l' published' pending →
      (∀ g ∈ published', g ∈ published) →
      Ensures ((u.registerAuto s.inp.count).map (true, ·)) fun r => r.1 = true →
        ∃ l' published', Waits s r.2 l' published' pending ∧ ∀ g ∈ published', g ∈ published := by
    intro u l' published' hu hsub
    have hnext : Waits s { u with nextRid := u.nextRid + 1 } l' published' pending := { hu with }
    exact hregister _ hnext hsub
  unfold Router.identifyPeer
  split
  · split
    · exact .error _
    · have hrid : Waits s { t with connectRid := [] } l published pending := { h with }
      exact hregister _ hrid fun _ hg => hg
  · next hrid =>
    split
    · exact hauto h fun _ hg => hg
    next hraw =>
    have hread := h.newcomer.read (hone (by simpa using hrid) (by simpa using hraw))
    rw [h.link]
    split
    · exact .error _
    · exact .ok fun hcon => (by cases hcon)
    · next m l' hl' =>
      obtain ⟨hmore, hnew⟩ := hread _ hl' m rfl
      have hwaits : Waits s (t.identityRead s.inp.count m l') l' (published.drop 1) pending := by
        refine ⟨hnew, ?_, h.named, h.identities, h.inState⟩
        simp [identityRead, hmore, h.inp, FqSystem.withPipe]
      have hsub : ∀ g ∈ published.drop 1, g ∈ published := fun g hg => mem_of_mem_drop hg
      simp only
      split
      · exact hauto hwaits hsub
      split
      · exact hregister _ hwaits hsub
      next old hold =>
      split
      · next hover =>
        have hnone := hhand hover
        rw [h.link, hl'] at hnone
        cases hold.symm.trans (hnone m rfl)
      · exact .ok fun hcon => (by cases hcon)

lemma Waits.fqAttach (hs : s.Polling)
    (hlead : (∀ g ∈ published, Leads g) ∧ Leads pending) :
    Ensures (t.fqAttach s.inp.count) Polling := by
  obtain ⟨fq, hfq, hinv, -⟩ := hs.inv.attachPipe h.newcomer
  have hfq' : t.inp.fq.attach s.inp.count = some fq := by
    rw [h.inp]
    exact hfq
  unfold Router.fqAttach
  rw [hfq']
  refine .ok (hs.still ?_ h.named ?_ ?_ ?_ h.identities h.inState)
  · simp only [h.inp]
    exact hinv
  · intro q
    simp only [h.inp, FqSystem.withPipe]
    by_cases hq : q = s.inp.count
    · subst hq
      simpa using hlead
    · simp only [update_of_ne hq]
      exact hs.leading q
  · simp only [h.inp, FqSystem.withPipe]
  · simp only [h.inp, FqSystem.withPipe]

end

/-- A new peer is identified at once, does not take over the identity of another peer and writes
identities only in front of messages; a message that is read to identify it has one frame. -/
def Introduces (p : ℕ) (s : Router) : Prop :=
  okAnd (s.identifyPeer p) (fun r => r.1 = true) ∧ s.TakesOverNone p ∧
    ((∀ g ∈ s.inp.published p, Leads g) ∧ Leads (s.inp.pending p)) ∧
    (s.connectRid = [] → s.optionsRawSock = false → ∀ g ∈ (s.inp.published p).head?, g.length = 1)

instance (p : ℕ) (s : Router) : Decidable (s.Introduces p) :=
  inferInstanceAs (Decidable (_ ∧ (_ → okAnd _ _) ∧ (_ ∧ _) ∧ (_ → _ → ∀ g ∈ _, _)))

/-- Receiving from identified peers: new peers are identified at once, and no pipe is terminated in the
middle of a message. -/
def Polls (s : Router) : RouterAct → Prop
  | .attach hwm₀ hwm₁ before => ∀ x ∈ s.identifies (.attach hwm₀ hwm₁ before), x.2.Introduces x.1
  | .recv _ => s.inp.Good .recv
  | .owner p a => s.inp.Good (.owner p ⟨a.1, a.2.1⟩)
  | .peer p a => a.IdentityLeads (s.inp.pending p)
  | .send _ _ => False
  | _ => True

instance (s : Router) (a : RouterAct) : Decidable (s.Polls a) :=
  match a with
  | .attach _ _ _ => inferInstanceAs (Decidable (∀ x ∈ _, _))
  | .recv _ => inferInstanceAs (Decidable (s.inp.Good .recv))
  | .owner p a => inferInstanceAs (Decidable (s.inp.Good (.owner p ⟨a.1, a.2.1⟩)))
  | .peer p a => inferInstanceAs (Decidable (a.IdentityLeads (s.inp.pending p)))
  | .send _ _ => inferInstanceAs (Decidable False)
  | .hasIn _ | .setConnectRid _ | .setRaw _ | .setMandatory _ | .setProbeRouter _ | .setHandover _ =>
    inferInstanceAs (Decidable True)

lemma Polling.attach (h : s.Polling) {hwm0 hwm1 : ℤ} {before : List EndAct}
    (hpolls : s.Polls (.attach hwm0 hwm1 before)) : Ensures (s.step (.attach hwm0 hwm1 before)) Polling := by
  simp only [step]
  cases hbefore : (s.addPipe hwm0 hwm1).peerActs s.inp.count before with
  | error f => exact .error _
  | ok t =>
    obtain ⟨l, published, pending, ht⟩ := (addPipe_waits h.inv hwm0 hwm1).peerActs before t hbefore
    simp only [xattachPipe]
    cases hprobe : t.probe s.inp.count with
    | error f => exact .error _
    | ok u =>
      obtain ⟨l', hu⟩ := ht.probe u hprobe
      obtain ⟨hident, hhand, hlead, hone⟩ := hpolls (s.inp.count, u) (by simp [identifies, hbefore, hprobe])
      have hpub : u.inp.published s.inp.count = published := by simp [hu.inp, FqSystem.withPipe]
      have hpend : u.inp.pending s.inp.count = pending := by simp [hu.inp, FqSystem.withPipe]
      simp only [hpub, hpend] at hlead hone
      have hspec := hu.identifyPeer hhand hone
      obtain ⟨⟨b, v⟩, hv, hb⟩ := hident.exists
      subst hb
      simp only [hv]
      obtain ⟨l'', published', hwaits, hsub⟩ := hspec _ hv rfl
      exact hwaits.fqAttach h ⟨fun g hg => hlead.1 g (hsub g hg), hlead.2⟩

lemma Polling.step (h : s.Polling) (a : RouterAct) (ha : s.Polls a) : Ensures (s.step a) Polling := by
  have hstill : ∀ t : Router, t.inp = s.inp → t.anonymousPipes = s.anonymousPipes →
      t.identities = s.identities → t.inState = s.inState →
      Ensures (.ok t : Except RouterFault Router) Polling := by
    intro t hinp hnamed hids hstate
    refine .ok (h.still ?_ hnamed ?_ ?_ ?_ (fun p _ => ?_) hstate)
    · rw [hinp]
      exact h.inv
    · rw [hinp]
      exact h.leading
    · rw [hinp]
    · rw [hinp]
    · rw [hids]
  cases a with
  | attach hwm0 hwm1 before => exact h.attach ha
  | recv n => exact map (h.xrecv ha)
  | hasIn n => exact map h.xhasIn
  | send flags body => exact ha.elim
  | setConnectRid rid =>
    simp only [Router.step]
    split
    · exact .ok h
    · exact hstill _ rfl rfl rfl rfl
  | setRaw value | setMandatory value | setProbeRouter value | setHandover value => exact hstill _ rfl rfl rfl rfl
  | owner p a => exact h.owner a ha
  | peer p a => exact h.peer ha

lemma Polling.recvFrame_ok (h : s.Polling) {n : ℕ} (hgood : s.inp.Good .recv) (hn : s.inp.unread < n) :
    ∃ r t, s.recvFrame n = .ok (r, t) ∧ (s.inp.receiving ≠ [] → r ≠ none) := by
  rcases recvFrame_taken n s h.inv hgood h.leading with
    ⟨heq, hle⟩ | ⟨inp, heq, -, hbefore, -⟩ | ⟨m, p, inp, heq, -⟩
  · omega
  · exact ⟨none, _, heq, fun hne => absurd hbefore hne⟩
  · exact ⟨some (m, p), _, heq, fun _ => (by simp)⟩

/-- Receiving works as if nobody had asked: what was returned and what waits are the blocks of the
messages taken from the pipes, one after the other and each as a whole. Both functions come to an end,
and the answer that there is a message is followed by a frame. -/
structure Transparent (s : Router) : Prop where
  frames : s.returned ++ s.staged = blocks s.identities s.inp
  whole : s.inp.Atomic
  xrecv_returns : ∀ n, s.inp.unread < n → s.inp.Good .recv → ∃ r t, s.xrecv n = .ok (r, t)
  xhasIn_returns : ∀ n, s.inp.unread < n → ∃ b t, s.xhasIn n = .ok (b, t)
  xhasIn_true : ∀ n t, s.xhasIn n = .ok (true, t) → t.inp.Good .recv →
    ∀ k, t.inp.unread < k → ∃ m u, t.xrecv k = .ok (some m, u)

lemma Polling.xrecv_returns (h : s.Polling) {n : ℕ} (hn : s.inp.unread < n) (hgood : s.inp.Good .recv) :
    ∃ r t, s.xrecv n = .ok (r, t) ∧ (s.prefetched = true ∨ s.moreIn = true → r ≠ none) := by
  unfold Router.xrecv
  split
  · split
    · exact ⟨_, _, rfl, fun _ => (by simp)⟩
    · exact ⟨_, _, rfl, fun _ => (by simp)⟩
  · next hpre =>
    obtain ⟨r, t, heq, hsome⟩ := h.recvFrame_ok hgood hn
    rw [heq]
    cases r with
    | none =>
      refine ⟨_, _, rfl, fun hin => absurd rfl (hsome ?_)⟩
      have hmore := h.more
      rcases hin with hin | hin
      · exact absurd hin hpre
      · simpa [hpre, hin] using hmore
    | some f =>
      simp only
      split
      · exact ⟨_, _, rfl, fun _ => (by simp)⟩
      · exact ⟨_, _, rfl, fun _ => (by simp)⟩

lemma Polling.transparent (h : s.Polling) : s.Transparent where
  frames := h.stream
  whole := h.inv.atomic
  xrecv_returns n hn hgood := by
    obtain ⟨r, t, heq, -⟩ := h.xrecv_returns hn hgood
    exact ⟨r, t, heq⟩
  xhasIn_returns n hn := by
    unfold Router.xhasIn
    split
    · exact ⟨_, _, rfl⟩
    next hin =>
    split
    · exact ⟨_, _, rfl⟩
    next hpre =>
    have hnil : s.inp.receiving = [] := by simpa [hpre, hin] using h.more
    obtain ⟨r, t, heq, -⟩ := h.recvFrame_ok (good_of_nil h.inv hnil) hn
    rw [heq]
    cases r with
    | none | some f => exact ⟨_, _, rfl⟩
  xhasIn_true n t ht hgood k hk := by
    have hkeeps : t.Polling := h.xhasIn _ ht
    have hin : t.prefetched = true ∨ t.moreIn = true := by
      unfold Router.xhasIn at ht
      split at ht
      · next hin =>
        cases ht
        exact .inr hin
      · split at ht
        · next hpre =>
          cases ht
          exact .inl hpre
        · split at ht
          · cases ht
          · cases ht
          · cases ht
            exact .inl rfl
    obtain ⟨r, u, heq, hsome⟩ := hkeeps.xrecv_returns hk hgood
    obtain ⟨m, rfl⟩ := Option.ne_none_iff_exists'.mp (hsome hin)
    exact ⟨m, u, heq⟩

end Router

end Zmq
