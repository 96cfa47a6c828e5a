import Mathlib.Algebra.Order.BigOperators.Group.Finset
import ZeroMQ.Pattern.FqAtomic
import ZeroMQ.Pattern.SocketAct
import ZeroMQ.Pipe.Contents

/-!
# Frames from the fair queue

A socket with a fair queue asks it for frames one by one. `FqInv.recvpipe` says what it gets: nothing,
and then no message is in progress, or a frame, and then the next frame of the same message is there
too. The frames that are still in the pipes become fewer with every frame, so a loop that skips some of
them ends.

`withPipe` is the queue with a new pipe, whose peer may have published messages before the pipe is
attached.
-/

namespace Zmq

open Foundation Function Except Nat List

namespace Link

/-- The frames that can be read. -/
def unread (l : Link) : ℕ := l.inQueue.flushed.length

/-- The end goes on to read. -/
structure ReadsOn (s : Link) (r : Option Msg × Link) : Prop where
  shrinks : r.2.unread + r.1.toList.length ≤ s.unread
  reading : r.1 ≠ none → reading r.2.near.pipe = true

lemma processDelimiter_unread (s : Link) : Ensures s.processDelimiter fun t => t.unread = s.unread := by
  unfold processDelimiter
  split
  · exact .ok rfl
  · exact .ok rfl
  · exact .error _

lemma readsOn (s : Link) : Ensures s.read (ReadsOn s) := by
  intro r hr
  by_cases hlive : (s.upipes s.near.pipe.inpipe).frees = 0
  swap
  · -- the call that would touch the pipe is a fault
    unfold Link.read at hr
    split at hr
    · cases hr
      exact ⟨le_refl _, fun h => absurd rfl h⟩
    · simp only [Link.load, if_neg hlive] at hr
      cases hr
  obtain ⟨creds, hsplit, -⟩ := skipCredentials_spec s.near.pipe.credential s.inQueue.flushed
  have hlen : ∀ ms, (skipCredentials s.near.pipe.credential s.inQueue.flushed).2 = ms → ms.length ≤ s.unread := by
    intro ms hms
    rw [unread, hsplit, hms, length_append]
    exact le_add_left _ _
  have hself := setInQueue_inQueue s (skipCredentials s.near.pipe.credential s.inQueue.flushed).1
  obtain ⟨-, heq⟩ | ⟨-, -, heq⟩ | ⟨-, m, ms, hk, -, heq⟩ | ⟨hcan, m, ms, hk, -, heq⟩ := read_cases hlive
  · cases heq.symm.trans hr
    exact ⟨le_refl _, fun h => absurd rfl h⟩
  · cases heq.symm.trans hr
    refine ⟨?_, fun h => absurd rfl h⟩
    have hnil := congrArg (fun u => u.flushed.length) (hself { s.inQueue with flushed := [], asleep := true })
    exact le_of_eq_of_le hnil (zero_le _)
  · have hms := hlen _ hk
    have hq := congrArg (fun u => u.flushed.length) (hself { s.inQueue with flushed := ms })
    refine Ensures.map (g := (none, ·)) ?_ r (heq.symm.trans hr)
    refine (processDelimiter_unread _).mono fun t ht => ⟨?_, fun h => absurd rfl h⟩
    rw [ht]
    refine le_of_eq_of_le hq (le_of_succ_le ?_)
    simpa using hms
  · cases heq.symm.trans hr
    have hms := hlen _ hk
    have hq := congrArg (fun u => u.flushed.length) (hself { s.inQueue with flushed := ms })
    refine ⟨?_, fun _ => ?_⟩
    · simp only [unread, inQueue, countRead_upipes, countRead_near]
      exact le_of_eq_of_le (congrArg (· + 1) hq) hms
    · rw [countRead_near]
      simp only [canRead, Bool.and_eq_true] at hcan
      exact hcan.2

end Link

/-! ### A frame from the fair queue -/

namespace FqSystem

variable {s : FqSystem}

/-- The frames that can be read from the pipes. -/
def unread (s : FqSystem) : ℕ := ∑ p ∈ Finset.range s.count, (s.links p).unread

lemma tryRead_unread (links : Pipes) (p : ℕ) (before : Pipes)
    (h : ∀ q, (links q).unread ≤ (before q).unread) :
    Ensures (Fq.tryRead p links) fun r => ∀ q, (r.2 q).unread ≤ (before q).unread := by
  unfold Fq.tryRead
  split
  · exact .error _
  next m l hl =>
  refine .ok fun q => ?_
  by_cases hq : q = p
  · subst hq
    have hshrinks := (Link.readsOn _ _ hl).shrinks
    simp only [update_self]
    exact (le_of_add_right_le hshrinks).trans (h q)
  · simp only [update_of_ne hq]
    exact h q

end FqSystem

namespace FqInv

variable {s : FqSystem}

open FqSystem

/-- The next frame: there is none and no message is in progress, or there is one and the rest of its
message can be read, too. -/
lemma recvpipe (h : FqInv s) (hgood : s.Good .recv) :
    (∃ fq links, s.fq.recvpipe s.links = .ok (none, fq, links) ∧ s.receiving = [] ∧
      FqInv { s with fq, links } ∧ unread { s with fq, links } ≤ s.unread) ∨
    (∃ m p fq links, s.fq.recvpipe s.links = .ok (some (m, p), fq, links) ∧
      FqInv (record { s with fq, links } (m, p)) ∧ unread { s with fq, links } < s.unread ∧
      Good (record { s with fq, links } (m, p)) .recv) := by
  obtain ⟨t, ht, hinv⟩ := h.recv hgood
  have hprobe : ∀ p links, (∀ q, (links q).unread ≤ (s.links q).unread) →
      Ensures (Fq.tryRead p links) fun r => ∀ q, (r.2 q).unread ≤ (s.links q).unread :=
    fun p links hlinks => tryRead_unread links p s.links hlinks
  cases hrecv : s.fq.recvpipe s.links with
  | error e => simp [FqSystem.step, hrecv] at ht
  | ok x =>
    obtain ⟨f, fq, links⟩ := x
    simp only [FqSystem.step, hrecv] at ht
    unfold Fq.recvpipe at hrecv
    split at hrecv
    · cases hrecv
    · next r links' hsearch =>
      cases hrecv
      simp only [ok.injEq] at ht
      subst ht
      refine .inl ⟨_, _, rfl, ?_, hinv, ?_⟩
      · cases h.phase with
        | between hmore hnil => exact hnil
        | inside p hmore hcur =>
          rw [if_pos hmore] at hsearch
          have hactive := Ring.search_none_of_fault hsearch
          have hpos := hcur.1
          omega
      · exact Finset.sum_le_sum fun q _ =>
          Ring.search_ensures hprobe _ (fun _ => le_refl _) _ _ hsearch q
    · next m r links' hsearch =>
      obtain ⟨p, links0, hp, hle, htry⟩ := Ring.search_found hprobe (fun _ => le_refl _) hsearch
      obtain ⟨l, hread, rfl⟩ : ∃ l, (links0 p).read = .ok (some m, l) ∧ links' = update links0 p l := by
        unfold Fq.tryRead at htry
        split at htry
        · cases htry
        · next l hl =>
          cases htry
          exact ⟨l, hl, rfl⟩
      have hreads := Link.readsOn _ _ hread
      have hcount : p ∈ Finset.range s.count := by
        have hsame := Ring.SamePipes.of_search h.core.ring.pipes hsearch
        have hmem := (hsame.mem_iff p).mp (mem_of_getElem? hp)
        exact Finset.mem_range.mpr ((h.core.mem_iff p).mp hmem).1
      have hfewer : (∑ q ∈ Finset.range s.count, (update links0 p l q).unread) < s.unread := by
        refine Finset.sum_lt_sum (fun q _ => ?_) ⟨p, hcount, ?_⟩
        · exact Ring.search_ensures hprobe _ (fun _ => le_refl _) _ _ hsearch q
        have hshrinks := hreads.shrinks
        simp only [update_self]
        exact lt_of_lt_of_le hshrinks (hle p)
      simp only [hp] at hrecv
      split at hrecv
      · next hmore =>
        cases hrecv
        simp only [ok.injEq] at ht
        subst ht
        refine .inr ⟨m, p, _, _, rfl, hinv, hfewer, fun _ q hq => ?_⟩
        simp only [record, hmore, if_true] at hq ⊢
        obtain rfl : p = q := Option.some.inj (hp.symm.trans hq)
        simp only [update_self]
        exact hreads.reading (by simp)
      · next hlast =>
        cases hrecv
        simp only [ok.injEq] at ht
        subst ht
        refine .inr ⟨m, p, _, _, rfl, hinv, hfewer, fun hmore => ?_⟩
        simp [record, hlast] at hmore

lemma terminate (h : FqInv s) {p : ℕ} (hp : p < s.count) (halive : (s.links p).near.frees = 0)
    {l : Link} (hl : (s.links p).terminate false = .ok l) :
    FqInv { s with links := update s.links p l } := by
  have hact : (s.links p).act (.terminate false) = .ok (l, none) := by
    simp [Link.act, Link.call, halive, hl, Except.map]
  obtain ⟨u, hstep, hinv⟩ := h.owner p ⟨.terminate false, trivial⟩ fun _ hdeliver => (by cases hdeliver)
  simp only [FqSystem.step, if_pos hp, hact, FqSystem.react] at hstep
  rw [ok.inj hstep]
  exact hinv

lemma socketAct (h : FqInv s) {p : ℕ} {a : EndAct} (ha : a.KeepsInput) (hp : p < s.count)
    (hgood : s.Good (.owner p ⟨a, ha⟩)) {l : Link} {e : Option SinkEvent}
    (hact : (s.links p).socketAct a = .ok (l, e)) :
    ∃ t, FqSystem.react { s with links := update s.links p l } s.links p e = .ok t ∧ FqInv t := by
  obtain ⟨u, hstep, hinv⟩ := h.owner p ⟨a, ha⟩ hgood
  simp only [FqSystem.step, if_pos hp] at hstep
  unfold Link.socketAct at hact
  split at hact
  · cases hact
  · next l' hact' =>
    simp only [hact', FqSystem.react, ok.injEq] at hstep
    subst hstep
    have halive : l'.near.frees = 0 := by
      obtain ⟨t', e', hmove, hsame | ⟨halive, -⟩⟩ := (h.core.inv p hp).shutdown.exists_move a
      · cases hact'.symm.trans hmove
        cases hsame.2
      · exact ((Link.Ends.act _ _ _ hact').stays fun heq => (by cases heq)).trans halive
    cases hterm : l'.terminate false with
    | error e => simp [hterm, Except.map] at hact
    | ok l'' =>
      simp only [hterm, Except.map, ok.injEq, Prod.mk.injEq] at hact
      obtain ⟨rfl, rfl⟩ := hact
      refine ⟨_, rfl, ?_⟩
      have hl := hinv.terminate hp (by simpa using halive) (by simpa using hterm)
      simpa only [update_idem] using hl
  · next l' e' _ hact' =>
    cases hact
    rw [hact'] at hstep
    exact ⟨u, hstep, hinv⟩

end FqInv

namespace FqSystem

variable {s : FqSystem} {l : Link} {published : List (List Msg)} {pending : List Msg}

lemma Newcomer.peer (h : Newcomer l published pending) (s : FqSystem) (a : EndAct) :
    ∃ l' published' pending', (s.withPipe l published pending).step (.peer s.count a) =
        .ok (s.withPipe l' published' pending') ∧ Newcomer l' published' pending' ∧
      ((published', pending') = (published, pending) ∨ (published', pending') = l.publish a published pending) := by
  by_cases ha : a.CredentialBetween pending
  · obtain ⟨t, e, hact, hin, hpipe, hfrees⟩ := h.inbound.far ha
    refine ⟨t.swap, (l.publish a published pending).1, (l.publish a published pending).2, ?_,
      ⟨hin, hfrees.trans h.alive, ?_⟩, .inr rfl⟩
    · simp [step, withPipe, ha, hact]
    · rw [hpipe]
      exact h.inActive
  · exact ⟨l, published, pending, by simp [step, withPipe, ha], h, .inl rfl⟩

lemma Newcomer.act (h : Newcomer l published pending) {a : EndAct} (ha : a.KeepsInput) {t : Link}
    (hact : l.act a = .ok (t, none)) : Newcomer t published pending := by
  obtain ⟨t', e, hact', hsame | ⟨halive, hmove⟩⟩ := h.inbound.shutdown.exists_move a
  · cases hact.symm.trans hact'
    obtain ⟨rfl, -⟩ := hsame
    exact h
  · cases hact.symm.trans hact'
    have hframe := hmove.inFrame h.inbound.shutdown halive ha
    refine ⟨h.inbound.keep halive ha hmove, ?_, hframe.inActive h.inActive⟩
    by_contra hne
    cases hframe.gone.mp hne

lemma Newcomer.read (h : Newcomer l published pending) (hone : ∀ g ∈ published.head?, g.length = 1) :
    Ensures l.read fun r => ∀ m ∈ r.1, m.more = false ∧ Newcomer r.2 (published.drop 1) pending := by
  intro r hr m hm
  obtain ⟨t, hread, -⟩ | ⟨m', t, hread, hin, hfrees, hact⟩ := h.inbound.read h.alive fun hne => absurd rfl hne
  · cases hr.symm.trans hread
    cases hm
  cases hr.symm.trans hread
  obtain rfl : m' = m := by simpa using hm
  cases hmore : m'.more with
  | true =>
    -- the frame would be the first of a longer message
    simp only [hmore, if_true, nil_append] at hin
    obtain ⟨tail, hne, hpre⟩ := (hin.flow hfrees).feeds.prefix_cur (by simp)
    obtain ⟨rest, hpub⟩ := hpre
    have hlen := hone ([m'] ++ tail) (by simp [← hpub])
    simp [hne] at hlen
  | false =>
    simp only [hmore, Bool.false_eq_true, if_false, nil_append] at hin
    obtain ⟨rest, rfl⟩ := hin.taken
    exact ⟨rfl, hin.forget, hfrees, hact⟩

end FqSystem

end Zmq
