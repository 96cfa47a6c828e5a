import ZeroMQ.Pattern.XpubSteps

/-!
# What a publisher passes upstream

A publisher passes a subscription upstream when it is the first one for its prefix, and a cancellation
when it was the last one. Both are left to the trie, which can be asked to cancel a subscription it does
not have. If other pipes are subscribed to the prefix an assertion fails, so that a peer can bring the
publisher down; if only longer prefixes are subscribed to, or if the prefix is empty, the cancellation is
passed upstream although nothing was cancelled. As long as no peer does this, no assertion fails and
what is passed upstream is exact.
-/

namespace Zmq

open Foundation

variable {s : XpubSystem}

lemma Chained.append {S T U : Subscribed} {rounds new : List Round} (h : Chained S rounds T)
    (hnew : Chained T new U) : Chained S (rounds ++ new) U := by
  induction rounds generalizing S with
  | nil =>
    rw [show S = T from h]
    exact hnew
  | cons r rounds ih => exact ⟨h.1, ih h.2⟩

/-- All that was passed upstream is exact. -/
structure XpubUpstream (s : XpubSystem) : Prop where
  core : XpubCore s
  pub : s.xpub.pub = false
  chained : Chained ∅ s.rounds s.subscribed
  queue : (s.received ++ s.xpub.pending).map Prod.fst = s.rounds.flatMap Round.passed
  exact : ∀ r ∈ s.rounds, r.verbose = false → r.implicit = false → r.Exact

namespace XpubUpstream

lemma new : XpubUpstream (XpubSystem.new false) where
  core := XpubCore.new false
  pub := rfl
  chained := rfl
  queue := rfl
  exact := by simp [XpubSystem.new]

lemma step (h : XpubUpstream s) (a : XpubAct) (hpolite : s.Polite a) :
    ∃ t, s.step a = .ok t ∧ XpubUpstream t := by
  obtain ⟨-, hno⟩ | ⟨t, hstep, hpasses, hor⟩ := h.core.step a
  · exact absurd hpolite hno
  obtain ⟨hpub, new, hrounds, hchained, hqueue, hexact⟩ := hpasses hpolite
  refine ⟨t, hstep, ?_, hpub.trans h.pub, ?_, ?_, fun r hr => ?_⟩
  · rcases hor with hcalm | ⟨_, _, _, hdelivered⟩
    · exact hcalm.core
    · exact hdelivered.core
  · rw [hrounds]
    exact h.chained.append hchained
  · rw [hqueue, h.queue, hrounds, List.flatMap_append]
  · rw [hrounds] at hr
    rcases List.mem_append.1 hr with hr | hr
    · exact h.exact r hr
    · exact hexact h.pub r hr

end XpubUpstream

/-- **A publisher and its peers.** In every run in which a pipe only cancels what it is subscribed to, or
a prefix that nothing anybody is subscribed to begins with, no assertion fails. The messages passed
upstream are those of the rounds, the rounds follow every change of the subscriptions, and in each of
them, unless the publisher is verbose, a subscription to a prefix is passed upstream exactly if there was
none before and a cancellation exactly if there is none afterwards. -/
theorem xpub_robust (acts : List XpubAct)
    (hpolite : StepsMeet XpubSystem.step XpubSystem.Polite (XpubSystem.new false) acts) :
    ∃ s, (XpubSystem.new false).run acts = .ok s ∧
      (s.received ++ s.xpub.pending).map Prod.fst = s.rounds.flatMap Round.passed ∧
      Chained ∅ s.rounds s.subscribed ∧
      ∀ r ∈ s.rounds, r.verbose = false → r.implicit = false → r.Exact := by
  obtain ⟨s, hrun, hs⟩ := runSteps_invariant (I := XpubUpstream) (fun s a h hp => h.step a hp)
    XpubUpstream.new hpolite
  exact ⟨s, hrun, hs.queue, hs.chained, hs.exact⟩

/-- Two pipes subscribe to the same prefix and cancel it again, one of them cancels something that does
not exist, and the other one is closed while it is subscribed to something else. -/
theorem xpub_robust_shared :
    ∃ s, (XpubSystem.new false).run [.attach 0 0 false, .attach 0 0 false,
        .peer 0 (.write MsgFlags.none [1, 97]), .peer 0 (.write MsgFlags.none [0, 98]),
        .peer 0 (.write MsgFlags.none [0, 97]), .peer 0 .flush, .read 0, .read 0,
        .peer 1 (.write MsgFlags.none [1, 97]), .peer 1 .flush, .read 1, .read 0, .recv,
        .owner 1 ⟨.terminate false, trivial⟩, .peer 1 .deliver, .owner 1 ⟨.deliver, trivial⟩] =
        .ok s ∧
      (s.received ++ s.xpub.pending).map Prod.fst = s.rounds.flatMap Round.passed ∧
      Chained ∅ s.rounds s.subscribed ∧
      ∀ r ∈ s.rounds, r.verbose = false → r.implicit = false → r.Exact :=
  xpub_robust _ (by decide +kernel)

/-- A pipe cancels a prefix that another one is subscribed to, and an assertion fails. And a pipe that is
subscribed to a prefix cancels a shorter one, which is passed upstream although nobody was subscribed to
it. -/
theorem xpub_not_robust :
    (XpubSystem.new false).run [.attach 0 0 false, .attach 0 0 false,
        .peer 0 (.write MsgFlags.none [1, 97]), .peer 0 .flush, .read 0,
        .peer 1 (.write MsgFlags.none [0, 97]), .peer 1 .flush, .read 1] =
      .error (.trie .assertFailed) ∧
    ∃ s, (XpubSystem.new false).run [.attach 0 0 false, .peer 0 (.write MsgFlags.none [1, 97, 98]),
        .peer 0 (.write MsgFlags.none [0, 97]), .peer 0 .flush, .read 0, .read 0] = .ok s ∧
      ¬∀ r ∈ s.rounds, r.verbose = false → r.implicit = false → r.Exact := by
  refine ⟨rfl, ?_⟩
  refine okAnd.exists_imp (P := fun s => ∃ r ∈ s.rounds, r.verbose = false ∧ r.implicit = false ∧
    r.passed.count [0, 97] = 1 ∧ [97] ∉ r.before.topics) (by decide +kernel) ?_
  rintro s - ⟨r, hr, hverbose, himplicit, hcount, hno⟩ h
  have hexact := (h r hr hverbose himplicit [97]).2
  rw [hcount, if_neg fun hand => hno hand.1] at hexact
  cases hexact

end Zmq
