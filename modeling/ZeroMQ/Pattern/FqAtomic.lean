import ZeroMQ.Pattern.Fq

/-!
# Messages stay whole in the fair queue

The fair queue takes every frame of a message from the pipe at the index `current`. As long as that is
the pipe of the message and its end can be read, the frame is there: a peer makes messages visible only
as a whole. `FqInv` says what holds between two steps: which pipes are in the ring, what was received
from each of them, and where the message in progress comes from.

Three things break it. If the owner terminates the pipe of the message between two frames (the
application disconnects the endpoint), the pipe cannot be read any more and the assertion that the next
frame is there fails. If that pipe is gone, the next frame is taken from another pipe. And if another
pipe is removed, the pipe of the message may be swapped to another index while the turn goes to the
first pipe. `FqSystem.Good` excludes these steps, and `fq_atomic` shows that in every other run messages
stay whole.
-/

namespace Zmq

open Foundation Function List Nat Prod

/-! ### The pipes of the fair queue -/

/-- From each pipe the messages `done` and the frames `cur` were received, and an active pipe does not
wait to be told that it can be read again. -/
abbrev FqCore (r : Ring ℕ) (links : Pipes) (count : ℕ) (published : ℕ → List (List Msg))
    (pending : ℕ → List Msg) (done : ℕ → List (List Msg)) (cur : ℕ → List Msg) : Prop :=
  Attached (fun p l => Inbound l (published p) (done p) (pending p) (cur p))
    (fun l => Link.wakes l.near.pipe = false) r links count

namespace FqCore

variable {r : Ring ℕ} {links : Pipes} {count p : ℕ} {published done : ℕ → List (List Msg)}
  {pending cur : ℕ → List Msg}

/-- The messages received after a frame was received from a pipe. -/
def doneWith (m : Msg) (p : ℕ) (done : ℕ → List (List Msg)) (cur : ℕ → List Msg) :
    ℕ → List (List Msg) :=
  update done p (if m.more then done p else done p ++ [cur p ++ [m]])

/-- The frames of unfinished messages after a frame was received from a pipe. -/
def curWith (m : Msg) (p : ℕ) (cur : ℕ → List Msg) : ℕ → List Msg :=
  update cur p (if m.more then cur p ++ [m] else [])

/-- A frame was read from the current pipe `p`. -/
structure Took (m : Msg) (p : ℕ) (before : Pipes) (r : Ring ℕ) (links : Pipes) (count : ℕ)
    (published : ℕ → List (List Msg)) (pending : ℕ → List Msg) (done : ℕ → List (List Msg))
    (cur : ℕ → List Msg) : Prop where
  current : r.IsCurrent p
  core : FqCore r links count published pending (doneWith m p done cur) (curWith m p cur)
  frees : ∀ q, (links q).near.frees = (before q).near.frees
  inActive : (links p).near.pipe.inActive = true

lemma tryRead (h : FqCore r links count published pending done cur) (hp : r.IsCurrent p)
    (hcur : cur p ≠ [] → Link.canRead (links p).near.pipe = true) :
    (∃ m links', Fq.tryRead p links = .ok (some m, links') ∧
      Took m p links r links' count published pending done cur) ∨
    (∃ l, Fq.tryRead p links = .ok (none, update links p l) ∧ cur p = [] ∧
      l.near.frees = (links p).near.frees ∧
      Inbound l (published p) (done p) (pending p) (cur p)) := by
  have halive := h.alive hp.isActive
  obtain ⟨t, hread, hnil, ht, hfrees⟩ | ⟨m, t, hread, ht, hfrees, hact⟩ :=
    (h.inv p (h.lt_count hp.isActive)).read halive hcur
  · exact .inr ⟨t, by simp only [Fq.tryRead, hread], hnil, hfrees.trans halive.symm, ht⟩
  refine .inl ⟨m, update links p t, by simp only [Fq.tryRead, hread], hp, ?_,
    fun q => ?_, ?_⟩
  · refine h.update (hfrees.trans halive.symm) (fun _ => ?_) (fun q k hq hk => ?_)
      (fun _ => Link.wakes_of_inActive hact)
    · simp only [doneWith, curWith, update_self]
      exact ht
    · simp only [doneWith, curWith, update_of_ne hq]
      exact hk
  · by_cases hq : q = p
    · rw [hq, update_self, hfrees, halive]
    · rw [update_of_ne hq]
  · rw [update_self]
    exact hact

lemma search_read (h : FqCore r links count published pending done cur) (hcur : ∀ p, cur p = []) :
    (∃ m p r' links', Ring.search .outOfBounds Fq.tryRead (.ok ()) Ring.deactivate r.active r links =
        .ok (some m, r', links') ∧ Took m p links r' links' count published pending done cur) ∨
    (∃ r' links', Ring.search .outOfBounds Fq.tryRead (.ok ()) Ring.deactivate r.active r links =
        .ok (none, r', links') ∧ FqCore r' links' count published pending done cur ∧
      ∀ q, (links' q).near.frees = (links q).near.frees) := by
  have hprobe : ∀ r' links' p, FqCore r' links' count published pending done cur →
      (∀ q, (links' q).near.frees = (links q).near.frees) → r'.IsCurrent p →
      (∃ m links'', Fq.tryRead p links' = .ok (some m, links'') ∧
        Took m p links r' links'' count published pending done cur) ∨
      (∃ l, Fq.tryRead p links' = .ok (none, update links' p l) ∧
        l.near.frees = (links' p).near.frees ∧
        Inbound l (published p) (done p) (pending p) (cur p)) := by
    intro r' links' p hcore hsame hp
    obtain ⟨m, links'', htry, htook⟩ | ⟨l, htry, -, hfrees, hl⟩ :=
      FqCore.tryRead hcore hp fun hne => absurd (hcur p) hne
    · exact .inl ⟨m, links'', htry, htook.current, htook.core,
        fun q => (htook.frees q).trans (hsame q), htook.inActive⟩
    · exact .inr ⟨l, htry, hfrees, hl⟩
  obtain ⟨m, p, r', links', hs, htook⟩ | hnone := h.search (fun _ _ _ _ => rfl) hprobe
  · exact .inl ⟨m, p, r', links', hs, htook⟩
  · exact .inr hnone

lemma search_checkRead (h : FqCore r links count published pending done cur)
    (hcur : ∀ p, cur p = []) :
    ∃ b r' links', Ring.search .outOfBounds Fq.tryCheckRead (.ok ()) Ring.deactivate r.active r links =
        .ok (b, r', links') ∧ FqCore r' links' count published pending done cur ∧
      ∀ q, (links' q).near.frees = (links q).near.frees := by
  have hprobe : ∀ r' links' p, FqCore r' links' count published pending done cur →
      (∀ q, (links' q).near.frees = (links q).near.frees) → r'.IsCurrent p →
      (∃ b links'', Fq.tryCheckRead p links' = .ok (some b, links'') ∧
        (FqCore r' links'' count published pending done cur ∧
          ∀ q, (links'' q).near.frees = (links q).near.frees)) ∨
      (∃ l, Fq.tryCheckRead p links' = .ok (none, update links' p l) ∧
        l.near.frees = (links' p).near.frees ∧
        Inbound l (published p) (done p) (pending p) (cur p)) := by
    intro r' links' p hcore hsame hp
    have halive := hcore.alive hp.isActive
    have hin := hcore.inv p (hcore.lt_count hp.isActive)
    rw [hcur p] at hin
    obtain ⟨b, t, hread, ht, hfrees, hact⟩ := hin.checkRead halive
    rw [← hcur p] at ht
    cases b with
    | false =>
      exact .inr ⟨t, by simp [Fq.tryCheckRead, hread], hfrees.trans halive.symm, ht⟩
    | true =>
      refine .inl ⟨(), update links' p t, by simp [Fq.tryCheckRead, hread], ?_,
        fun q => ?_⟩
      · exact hcore.update (hfrees.trans halive.symm) (fun _ => ht) (fun _ _ _ hk => hk)
          fun _ => Link.wakes_of_inActive (hact rfl)
      · rw [← hsame q]
        by_cases hq : q = p
        · rw [hq, update_self, hfrees, halive]
        · rw [update_of_ne hq]
  obtain ⟨b, p, r', links', hs, hcore⟩ | ⟨r', links', hs, hcore⟩ :=
    h.search (fun _ _ _ _ => rfl) hprobe
  · exact ⟨some b, r', links', hs, hcore⟩
  · exact ⟨none, r', links', hs, hcore⟩

end FqCore

namespace FqSystem

variable {s t : FqSystem} {p q : ℕ} {m : Msg} {g : List FrameFrom}

/-- The frames of a message in progress that came from a pipe. -/
def framesFrom (p : ℕ) (g : List FrameFrom) : List Msg := (g.filter fun f => f.2 = p).map Prod.fst

/-- Where the message in progress stands. -/
inductive Phase (s : FqSystem) : Prop
  /-- Between two messages. -/
  | between (hmore : s.fq.more = false) (hnil : s.receiving = [])
  /-- All frames so far came from the current pipe. -/
  | inside (p : ℕ) (hmore : s.fq.more = true) (hcur : s.fq.IsCurrent p) (hne : s.receiving ≠ [])
      (hfrom : From p s.receiving) (hact : (s.links p).near.pipe.inActive = true)

/-! ### The frames of a pipe -/

lemma framesFrom_append (p : ℕ) (g : List FrameFrom) (f : FrameFrom) :
    framesFrom p (g ++ [f]) = framesFrom p g ++ if f.2 = p then [f.1] else [] := by
  by_cases hf : f.2 = p <;> simp [framesFrom, hf]

lemma framesFrom_of_from (h : From p g) : framesFrom p g = g.map fst := by
  rw [framesFrom, filter_eq_self.mpr]
  intro f hf
  simp [h f hf]

lemma framesFrom_of_ne (h : From p g) (hq : q ≠ p) : framesFrom q g = [] := by
  rw [framesFrom, filter_eq_nil_iff.mpr, map_nil]
  intro f hf
  simp [h f hf, Ne.symm hq]

lemma not_from_of_ne (h : From p g) (hne : g ≠ []) (hq : q ≠ p) : ¬From q g := by
  intro h'
  obtain ⟨f, hf⟩ := exists_mem_of_ne_nil g hne
  exact hq ((h' f hf).symm.trans (h f hf))

lemma messagesFrom_append (p : ℕ) (received : List (List FrameFrom)) (g : List FrameFrom) :
    messagesFrom p (received ++ [g]) =
      messagesFrom p received ++ if From p g then [g.map fst] else [] := by
  by_cases hg : From p g <;> simp [messagesFrom, hg]

lemma messagesFrom_count
    (h : ∀ g ∈ s.received, ∃ p < s.count, From p g ∧ Whole Msg.more (g.map fst)) :
    messagesFrom s.count s.received = [] := by
  rw [messagesFrom, filter_eq_nil_iff.mpr, map_nil]
  intro g hg
  obtain ⟨p, hp, hfrom, first, last, hwhole, -⟩ := h g hg
  have hne : g ≠ [] := by
    rintro rfl
    simp at hwhole
  simpa using not_from_of_ne hfrom hne (ne_of_gt hp)

lemma Phase.mono (h : s.Phase) (hmore : t.fq.more = s.fq.more)
    (hreceiving : t.receiving = s.receiving)
    (hcur : s.fq.more = true → ∀ p, s.fq.IsCurrent p → (s.links p).near.pipe.inActive = true →
      t.fq.IsCurrent p ∧ (t.links p).near.pipe.inActive = true) : t.Phase := by
  cases h with
  | between h1 h2 => exact .between (hmore.trans h1) (hreceiving.trans h2)
  | inside p h1 h2 hne hfrom hact =>
    obtain ⟨hc, ha⟩ := hcur h1 p h2 hact
    rw [← hreceiving] at hne hfrom
    exact .inside p (hmore.trans h1) hc hne hfrom ha

lemma Phase.framesFrom_count (h : s.Phase) (hlt : ∀ p, s.fq.IsCurrent p → p < s.count) :
    framesFrom s.count s.receiving = [] := by
  cases h with
  | between h1 h2 => rw [h2]; rfl
  | inside p h1 h2 hne hfrom hact => exact framesFrom_of_ne hfrom (ne_of_gt (hlt p h2))

/-- There is a new pipe, and its peer has published messages and has written frames of the next one. -/
def withPipe (s : FqSystem) (l : Link) (published : List (List Msg)) (pending : List Msg) : FqSystem :=
  { s with
    links := update s.links s.count l
    count := s.count + 1
    published := update s.published s.count published
    pending := update s.pending s.count pending }

/-- A new pipe that can be read and of which nothing was received. -/
structure Newcomer (l : Link) (published : List (List Msg)) (pending : List Msg) : Prop where
  inbound : Inbound l published [] pending []
  alive : l.near.frees = 0
  inActive : l.near.pipe.inActive = true

lemma Newcomer.pipepair (hwm0 hwm1 : ℤ) : Newcomer (Link.pipepair hwm0 hwm1) [] [] :=
  ⟨.pipepair hwm0 hwm1, rfl, rfl⟩

end FqSystem

/-- The invariant of the fair queue. -/
structure FqInv (s : FqSystem) : Prop where
  core : FqCore s.fq.toRing s.links s.count s.published s.pending
    (fun p => FqSystem.messagesFrom p s.received) (fun p => FqSystem.framesFrom p s.receiving)
  phase : s.Phase
  received : ∀ g ∈ s.received, ∃ p < s.count, FqSystem.From p g ∧
    Whole Msg.more (g.map Prod.fst)
  /-- Nothing was published on a pipe that does not exist yet. -/
  silent : ∀ p, s.count ≤ p → s.published p = [] ∧ s.pending p = []
  lastIn : ∀ p, s.fq.lastIn = some p → s.fq.Mem p

/-! ### Steps -/

namespace FqInv

variable {s t : FqSystem}

open FqSystem

lemma new : FqInv FqSystem.new where
  core := Attached.empty _ _ _
  phase := .between rfl rfl
  received := by simp [FqSystem.new]
  silent _ _ := ⟨rfl, rfl⟩
  lastIn := by simp [FqSystem.new, Fq.new]

lemma fq_attach_eq {fq : Fq} {p : ℕ} (h : fq.toRing.WF) (hp : ¬fq.Mem p) :
    fq.attach p = (Ring.activated { fq.toRing with pipes := fq.pipes.pushBack p } p).map
      fun r => { fq with toRing := r } := by
  have hwf := h.pipes.pushBack hp
  have hindex : (fq.pipes.pushBack p).index p = (fq.pipes.pushBack p).items.length - 1 := by
    simp [PipeArray.pushBack]
  simp only [Fq.attach, Ring.activated, hindex, hwf.swap_comm fq.active]
  cases (fq.pipes.pushBack p).swap ((fq.pipes.pushBack p).items.length - 1) fq.active <;> rfl

lemma attachPipe (h : FqInv s) {l : Link} {published : List (List Msg)} {pending : List Msg}
    (hl : Newcomer l published pending) :
    ∃ fq, s.fq.attach s.count = some fq ∧ FqInv { s.withPipe l published pending with fq } ∧
      fq.more = s.fq.more := by
  obtain ⟨r, hr, hholds, hcur⟩ := h.core.ring.attach h.core.count_notMem
  have hlt : ∀ p, s.fq.IsCurrent p → p < s.count := fun p hp => h.core.lt_count hp.isActive
  refine ⟨{ s.fq with toRing := r }, ?_, ⟨?_, ?_, ?_, ?_, ?_⟩, rfl⟩
  · rw [fq_attach_eq h.core.ring h.core.count_notMem, hr]
    rfl
  · have hcore : FqCore s.fq.toRing s.links s.count (update s.published s.count published)
        (update s.pending s.count pending) (fun p => messagesFrom p s.received)
        (fun p => framesFrom p s.receiving) := by
      refine ⟨h.core.ring, h.core.mem_iff, fun p hp => ?_, h.core.active⟩
      simp only [update_of_ne (Nat.ne_of_lt hp)]
      exact h.core.inv p hp
    refine hcore.attach hholds hl.alive ?_ (Link.wakes_of_inActive hl.inActive)
    simp only [update_self, messagesFrom_count h.received, h.phase.framesFrom_count hlt]
    exact hl.inbound
  · refine h.phase.mono rfl rfl fun _ p hp hact => ⟨hcur p hp, ?_⟩
    simp only [withPipe, update_of_ne (Nat.ne_of_lt (hlt p hp))]
    exact hact
  · intro g hg
    obtain ⟨p, hp, hg'⟩ := h.received g hg
    exact ⟨p, Nat.lt_succ_of_lt hp, hg'⟩
  · intro p hp
    have hne : p ≠ s.count := Nat.ne_of_gt hp
    simp only [withPipe, update_of_ne hne]
    exact h.silent p (Nat.le_of_succ_le hp)
  · exact fun p hp => (hholds.mem_iff p).mpr (Or.inl (h.lastIn p hp))

lemma attach (h : FqInv s) (hwm0 hwm1 : ℤ) :
    ∃ t, s.step (.attach hwm0 hwm1) = .ok t ∧ FqInv t := by
  obtain ⟨fq, hfq, hinv, -⟩ := h.attachPipe (.pipepair hwm0 hwm1)
  obtain ⟨hpub, hpend⟩ := h.silent s.count (le_refl _)
  have hsame : update s.published s.count [] = s.published ∧
      update s.pending s.count [] = s.pending :=
    ⟨update_eq_self_iff.mpr hpub.symm, update_eq_self_iff.mpr hpend.symm⟩
  refine ⟨_, by simp only [FqSystem.step, hfq]; rfl, ?_⟩
  simp only [withPipe, hsame.1, hsame.2] at hinv
  exact hinv

lemma cur_eq_nil (hnil : s.receiving = []) (p : ℕ) : framesFrom p s.receiving = [] := by
  rw [hnil]
  rfl

lemma mem_of_core {r : Ring ℕ} {links : Pipes} {done : ℕ → List (List Msg)} {cur : ℕ → List Msg}
    (h : FqInv s) (hcore : FqCore r links s.count s.published s.pending done cur)
    (hfrees : ∀ q, (links q).near.frees = (s.links q).near.frees) {p : ℕ} (hp : s.fq.Mem p) :
    r.Mem p := by
  rw [hcore.mem_iff, hfrees]
  exact (h.core.mem_iff p).mp hp

lemma hasIn (h : FqInv s) : ∃ t, s.step .hasIn = .ok t ∧ FqInv t := by
  cases h.phase with
  | inside p hmore => exact ⟨s, by simp [step, Fq.hasIn, hmore], h⟩
  | between hmore hnil =>
    obtain ⟨b, r, links, hsearch, hcore, hfrees⟩ := FqCore.search_checkRead h.core (cur_eq_nil hnil)
    refine ⟨{ s with fq := { s.fq with toRing := r }, links := links }, ?_, hcore,
      .between hmore hnil, h.received, h.silent, fun p hp => ?_⟩
    · simp [step, Fq.hasIn, hmore, hsearch]
    · exact h.mem_of_core hcore hfrees (h.lastIn p hp)

lemma took_more {m : Msg} (hm : m.more = true) (p : ℕ) (done : ℕ → List (List Msg))
    (g : List FrameFrom) :
    FqCore.doneWith m p done (fun q => framesFrom q g) = done ∧
      FqCore.curWith m p (fun q => framesFrom q g) = fun q => framesFrom q (g ++ [(m, p)]) := by
  refine ⟨by simp [FqCore.doneWith, hm], funext fun q => ?_⟩
  rw [FqCore.curWith, hm, if_pos rfl, framesFrom_append]
  by_cases hq : q = p
  · simp [hq]
  · simp [hq, Ne.symm hq]

lemma took_last {m : Msg} (hm : m.more = false) {p : ℕ} {g : List FrameFrom} (hfrom : From p g)
    (received : List (List FrameFrom)) :
    FqCore.doneWith m p (fun q => messagesFrom q received) (fun q => framesFrom q g) =
        (fun q => messagesFrom q (received ++ [g ++ [(m, p)]])) ∧
      FqCore.curWith m p (fun q => framesFrom q g) = fun q => framesFrom q [] := by
  have hall : From p (g ++ [(m, p)]) := by
    intro f hf
    rcases mem_append.mp hf with hf | hf
    · exact hfrom f hf
    · rw [mem_singleton.mp hf]
  refine ⟨funext fun q => ?_, funext fun q => ?_⟩
  · rw [FqCore.doneWith, hm, messagesFrom_append]
    by_cases hq : q = p
    · subst hq
      rw [update_self, if_pos hall, framesFrom_of_from hfrom]
      simp
    · rw [update_of_ne hq, if_neg (not_from_of_ne hall (by simp) hq)]
      simp
  · rw [FqCore.curWith, hm]
    by_cases hq : q = p
    · rw [hq, update_self]
      rfl
    · rw [update_of_ne hq, framesFrom_of_ne hfrom hq]
      rfl

section

variable (h : FqInv s)

include h

lemma recordTook {m : Msg} {p : ℕ} (fq : Fq) (links : Pipes) (hp : p < s.count)
    (hfrom : From p s.receiving) (hall : ∀ f ∈ s.receiving, f.1.more = true)
    (hcore : FqCore fq.toRing links s.count s.published s.pending
      (FqCore.doneWith m p (fun q => messagesFrom q s.received) (fun q => framesFrom q s.receiving))
      (FqCore.curWith m p (fun q => framesFrom q s.receiving)))
    (hmore : fq.more = m.more) (hlast : ∀ q, fq.lastIn = some q → fq.Mem q)
    (hcur : m.more = true → fq.IsCurrent p ∧ (links p).near.pipe.inActive = true) :
    FqInv ({ s with fq := fq, links := links }.record (m, p)) := by
  have hfrom' : From p (s.receiving ++ [(m, p)]) := by
    intro f hf
    rcases mem_append.mp hf with hf | hf
    · exact hfrom f hf
    · rw [mem_singleton.mp hf]
  cases hm : m.more with
  | true =>
    obtain ⟨hc, hact⟩ := hcur hm
    simp only [record, hm, if_true]
    refine ⟨?_, .inside p (hmore.trans hm) hc (by simp) hfrom' hact, h.received, h.silent, hlast⟩
    obtain ⟨hdone, hpart⟩ := took_more hm p (fun q => messagesFrom q s.received) s.receiving
    rw [hdone, hpart] at hcore
    exact hcore
  | false =>
    simp only [record, hm, Bool.false_eq_true, if_false]
    refine ⟨?_, .between (hmore.trans hm) rfl, fun g hg => ?_, h.silent, hlast⟩
    · obtain ⟨hdone, hpart⟩ := took_last hm hfrom s.received
      rw [hdone, hpart] at hcore
      exact hcore
    · rcases mem_append.mp hg with hg | hg
      · exact h.received g hg
      · rw [mem_singleton.mp hg]
        refine ⟨p, hp, hfrom', s.receiving.map fst, m, by simp, fun f hf => ?_, hm⟩
        obtain ⟨x, hx, rfl⟩ := mem_map.mp hf
        exact hall x hx

lemma recvTook {m : Msg} {p : ℕ} {r : Ring ℕ} {links : Pipes}
    (hsearch : Ring.search .outOfBounds Fq.tryRead
      (if s.fq.more then .error .assertFailed else .ok ()) Ring.deactivate s.fq.active s.fq.toRing
      s.links = .ok (some m, r, links))
    (htook : FqCore.Took m p s.links r links s.count s.published s.pending
      (fun q => messagesFrom q s.received) (fun q => framesFrom q s.receiving))
    (hfrom : From p s.receiving) (hall : ∀ f ∈ s.receiving, f.1.more = true) :
    ∃ t, s.step .recv = .ok t ∧ FqInv t := by
  have hplt := htook.core.lt_count htook.current.isActive
  have hlast : ∀ q, s.fq.lastIn = some q → r.Mem q := fun q hq =>
    h.mem_of_core htook.core htook.frees (h.lastIn q hq)
  cases hm : m.more with
  | true =>
    refine ⟨_, ?_, h.recordTook { s.fq with toRing := r, more := true } links hplt hfrom hall
      htook.core hm.symm hlast fun _ => ⟨htook.current, htook.inActive⟩⟩
    simp [step, Fq.recvpipe, hsearch, htook.current.2, hm]
  | false =>
    have hholds := htook.core.ring.advance (zero_lt_of_lt htook.current.1)
    refine ⟨_, ?_, h.recordTook
      { s.fq with toRing := r.advance, more := false, lastIn := some p } links hplt hfrom hall ?_
      hm.symm ?_ fun hcon => absurd hcon (by simp [hm])⟩
    · simp [step, Fq.recvpipe, hsearch, htook.current.2, hm]
    · exact ⟨hholds.wf, fun q => (hholds.mem_iff q).trans (htook.core.mem_iff q), htook.core.inv,
        fun q hq => htook.core.active q ((hholds.active_iff q).mp hq)⟩
    · rintro q hq
      obtain rfl : p = q := Option.some.inj hq
      exact (hholds.mem_iff p).mpr htook.current.isActive.mem

lemma receiving_more {p : ℕ} (hcur : s.fq.IsCurrent p)
    (hfrom : From p s.receiving) : ∀ f ∈ s.receiving, f.1.more = true := by
  intro f hf
  have hfeeds := ((h.core.inv p (h.core.lt_count hcur.isActive)).flow
    (h.core.alive hcur.isActive)).feeds
  refine hfeeds.announced f.1 ?_
  simp only [framesFrom_of_from hfrom]
  exact mem_map_of_mem hf

lemma recv (hgood : s.Good .recv) : ∃ t, s.step .recv = .ok t ∧ FqInv t := by
  cases h.phase with
  | between hmore hnil =>
    obtain ⟨m, p, r, links, hsearch, htook⟩ | ⟨r, links, hsearch, hcore, hfrees⟩ :=
      FqCore.search_read h.core (cur_eq_nil hnil)
    · exact h.recvTook (by rw [hmore]; exact hsearch) htook (by simp [From, hnil]) (by simp [hnil])
    refine ⟨{ s with fq := { s.fq with toRing := r }, links := links }, ?_, hcore,
      .between hmore hnil, h.received, h.silent, fun p hp => ?_⟩
    · simp [step, Fq.recvpipe, hmore, hsearch]
    · exact h.mem_of_core hcore hfrees (h.lastIn p hp)
  | inside p hmore hcur hne hfrom hact =>
    -- the end can be read, and in the middle of a message there is another frame
    have hcan : Link.canRead (s.links p).near.pipe = true := by
      have hstate := hgood hmore p hcur.2
      simp only [Link.reading] at hstate
      simp only [Link.canRead, hact, hstate, Bool.and_self]
    obtain ⟨m, links, htry, htook⟩ | ⟨l, -, hnil, -⟩ := FqCore.tryRead h.core hcur fun _ => hcan
    · exact h.recvTook (Ring.search_current hcur htry) htook hfrom (h.receiving_more hcur hfrom)
    · simp only [framesFrom_of_from hfrom, map_eq_nil_iff] at hnil
      exact absurd hnil hne

lemma peer (p : ℕ) (a : EndAct) : ∃ t, s.step (.peer p a) = .ok t ∧ FqInv t := by
  by_cases hp : p < s.count ∧ a.CredentialBetween (s.pending p)
  swap
  · exact ⟨s, by simp only [step, if_neg hp], h⟩
  obtain ⟨l, e, hact, hl, hpipe, hfrees⟩ := (h.core.inv p hp.1).far hp.2
  have hstep : s.step (.peer p a) = .ok { s with
      links := update s.links p l.swap
      published := update s.published p
        ((s.links p).publish a (s.published p) (s.pending p)).1
      pending := update s.pending p
        ((s.links p).publish a (s.published p) (s.pending p)).2 } := by
    simp only [step, if_pos hp, hact]
  refine ⟨_, hstep, ?_, ?_, h.received, fun q hq => ?_, h.lastIn⟩
  · refine h.core.update hfrees (fun _ => ?_) (fun q k hq hk => ?_) fun hactive => ?_
    · simp only [update_self]
      exact hl
    · simp only [update_of_ne hq]
      exact hk
    · rw [hpipe]
      exact h.core.active p hactive
  · exact h.phase.mono rfl rfl fun _ q hq hact => ⟨hq, Pipes.update_of_imp
      (P := fun k => k.near.pipe.inActive = true) (by rw [hpipe]; exact id) hact⟩
  · have hqp : q ≠ p := ne_of_gt (lt_of_lt_of_le hp.1 hq)
    simp only [update_of_ne hqp]
    exact h.silent q hq

lemma pipeTerminated {p : ℕ} {l : Link} (hp : p < s.count)
    (halive : (s.links p).near.frees = 0) (hgone : l.near.frees ≠ 0)
    (hl : Inbound l (s.published p) (messagesFrom p s.received) (s.pending p)
      (framesFrom p s.receiving))
    (hgood : s.fq.more = true → s.fq.pipes.items[s.fq.current]? ≠ some p ∧ ¬s.fq.Misplaces p) :
    ∃ fq, s.fq.pipeTerminated p s.links = some fq ∧
      FqInv { s with fq := fq, links := update s.links p l } := by
  have hmem := (h.core.mem_iff p).mpr ⟨hp, halive⟩
  obtain ⟨r, hr, hholds, hcur⟩ := h.core.ring.remove hmem
  have hcore := h.core.remove hholds hgone fun _ => hl
  have hstays : s.fq.more = true → ∀ q, s.fq.IsCurrent q →
      (s.links q).near.pipe.inActive = true → r.IsCurrent q ∧
      (update s.links p l q).near.pipe.inActive = true := by
    intro hmore q hq hact
    have hqp : q ≠ p := by
      rintro rfl
      exact (hgood hmore).1 hq.2
    rw [update_of_ne hqp]
    exact ⟨hcur q hq hqp (hgood hmore).2, hact⟩
  rw [Fq.pipeTerminated, hr]
  by_cases hlast : s.fq.lastIn = some p
  · refine ⟨_, rfl, ?_⟩
    simp only [if_pos hlast]
    exact ⟨hcore, h.phase.mono rfl rfl hstays, h.received, h.silent, by simp⟩
  · refine ⟨_, rfl, ?_⟩
    simp only [if_neg hlast]
    refine ⟨hcore, h.phase.mono rfl rfl hstays, h.received, h.silent, fun q hq => ?_⟩
    refine (hholds.mem_iff q).mpr ⟨h.lastIn q hq, ?_⟩
    rintro rfl
    exact hlast hq

lemma owner (p : ℕ) (a : { a : EndAct // a.KeepsInput })
    (hgood : s.Good (.owner p a)) : ∃ t, s.step (.owner p a) = .ok t ∧ FqInv t := by
  by_cases hp : p < s.count
  swap
  · exact ⟨s, by simp [step, hp], h⟩
  have hin := h.core.inv p hp
  obtain ⟨l, e, hact, ⟨rfl, rfl⟩ | ⟨halive, hmove⟩⟩ := hin.shutdown.exists_move a.1
  · exact ⟨s, by simp [step, hp, hact, react], h⟩
  have hl := hin.keep halive a.2 hmove
  have hframe := hmove.inFrame hin.shutdown halive a.2
  by_cases hterm : e = some .pipeTerminated
  · obtain ⟨hdeliver, hack⟩ := hmove.of_pipeTerminated hterm
    obtain ⟨fq, hfq, hinv⟩ := h.pipeTerminated hp halive (hframe.gone.mpr hterm) hl fun hmore =>
      hgood hmore hdeliver hack
    refine ⟨_, ?_, hinv⟩
    simp [step, hp, hact, hterm, react, hfq]
  have hfrees : l.near.frees = (s.links p).near.frees := by
    rw [halive]
    by_contra hne
    exact hterm (hframe.gone.mp hne)
  have hstays : ∀ q, (s.links q).near.pipe.inActive = true →
      (update s.links p l q).near.pipe.inActive = true := fun q =>
    Pipes.update_of_imp (P := fun k => k.near.pipe.inActive = true) hframe.inActive
  by_cases hwoken : e = some .readActivated
  · -- the pipe was not among the active ones
    obtain ⟨hasleep, hawake⟩ := hframe.woken hwoken
    have hpassive : ¬s.fq.IsActive p := by
      intro hactive
      rw [h.core.active p hactive] at hasleep
      exact absurd hasleep (by decide)
    obtain ⟨r, hr, hholds, hcur⟩ :=
      h.core.ring.activated ((h.core.mem_iff p).mpr ⟨hp, halive⟩) hpassive
    refine ⟨{ s with fq := { s.fq with toRing := r }, links := update s.links p l }, ?_, ?_,
      h.phase.mono rfl rfl fun _ q hq hq' => ⟨hcur q hq, hstays q hq'⟩, h.received, h.silent,
      fun q hq => (hholds.mem_iff q).mpr (h.lastIn q hq)⟩
    · simp [step, hp, hact, hwoken, react, Fq.activated, hr]
    · refine h.core.set hholds hfrees (fun _ => hl) (fun _ _ _ hk => hk) ?_ fun _ => hawake
      rintro q (hq | hq) hqp
      · exact hq
      · exact absurd hq hqp
  · refine ⟨{ s with links := update s.links p l }, ?_, ?_,
      h.phase.mono rfl rfl fun _ q hq hq' => ⟨hq, hstays q hq'⟩, h.received, h.silent, h.lastIn⟩
    · simp only [step, if_pos hp, hact]
      rcases e with _ | e
      · rfl
      cases e with
      | readActivated => exact absurd rfl hwoken
      | pipeTerminated => exact absurd rfl hterm
      | _ => rfl
    · exact h.core.update hfrees (fun _ => hl) (fun _ _ _ hk => hk) fun hactive =>
        hframe.keeps (h.core.active p hactive)

lemma step (a : FqAct) (hgood : s.Good a) : ∃ t, s.step a = .ok t ∧ FqInv t := by
  cases a with
  | attach hwm0 hwm1 => exact h.attach hwm0 hwm1
  | recv => exact h.recv hgood
  | hasIn => exact h.hasIn
  | owner p a => exact h.owner p a hgood
  | peer p a => exact h.peer p a

lemma atomic : s.Atomic where
  received := h.received
  taken p hp := (h.core.inv p hp).taken
  receiving hne := by
    cases h.phase with
    | between hmore hnil => exact absurd hnil hne
    | inside p hmore hcur _ hfrom hact =>
      have hp := h.core.lt_count hcur.isActive
      have hfeeds := ((h.core.inv p hp).flow (h.core.alive hcur.isActive)).feeds
      simp only [framesFrom_of_from hfrom] at hfeeds
      exact ⟨p, hp, hfrom, hfeeds.prefix_cur (by simpa using hne)⟩

end

end FqInv

/-- **Message atomicity of the fair queue.** In every run whose frames that continue a message find the
current pipe in a state in which it can be read, and in which, while a message is being received,
neither the current pipe is removed nor a pipe whose removal gives its turn to another one, no assertion
fails and between two ends of a message the application receives one message of one pipe. -/
theorem fq_atomic (acts : List FqAct)
    (hgood : StepsMeet FqSystem.step FqSystem.Good FqSystem.new acts) :
    ∃ s, FqSystem.new.run acts = .ok s ∧ s.Atomic := by
  obtain ⟨s, hrun, hs⟩ := runSteps_invariant (I := FqInv) (fun s a h hg => h.step a hg) FqInv.new hgood
  exact ⟨s, hrun, hs.atomic⟩

/-- The peer of a pipe terminates it in the middle of a message; the rest of the message is received, and
then a message of the other pipe. -/
theorem fq_atomic_terminated :
    ∃ s, FqSystem.new.run [.attach 0 0, .attach 0 0, .peer 0 (.write (frameFlags true) [1]),
        .peer 0 (.write (frameFlags false) [2]), .peer 0 .flush,
        .peer 1 (.write (frameFlags false) [3]), .peer 1 .flush, .recv, .peer 0 (.terminate true),
        .owner 0 ⟨.deliver, trivial⟩, .owner 0 ⟨.deliver, trivial⟩, .hasIn, .recv, .recv] = .ok s ∧
      s.Atomic :=
  fq_atomic _ (by decide)

/-- If the application disconnects the endpoint of a pipe between two frames of its message, the
assertion in `recvpipe` fails when the next frame is asked for. And if the pipe is gone by then, the
next frame is taken from another pipe. -/
theorem fq_tears_messages :
    FqSystem.new.run [.attach 0 0, .peer 0 (.write (frameFlags true) [1]),
        .peer 0 (.write (frameFlags false) [2]), .peer 0 .flush, .recv,
        .owner 0 ⟨.terminate false, trivial⟩, .recv] = .error .assertFailed ∧
    ∃ s, FqSystem.new.run [.attach 0 0, .attach 0 0, .peer 0 (.write (frameFlags true) [1]),
        .peer 0 (.write (frameFlags false) [2]), .peer 0 .flush,
        .peer 1 (.write (frameFlags false) [3]), .peer 1 .flush, .recv,
        .owner 0 ⟨.terminate false, trivial⟩, .peer 0 .deliver, .peer 0 .read,
        .owner 0 ⟨.deliver, trivial⟩, .owner 0 ⟨.deliver, trivial⟩, .recv] = .ok s ∧ ¬s.Atomic := by
  refine ⟨rfl, _, rfl, fun h => ?_⟩
  obtain ⟨p, -, hfrom, -⟩ := h.received [(⟨.data, frameFlags true, [1]⟩, 0),
    (⟨.data, frameFlags false, [3]⟩, 1)] (mem_of_getElem? (i := 0) rfl)
  have h0 : 0 = p := hfrom _ mem_cons_self
  have h1 : 1 = p := hfrom _ (mem_cons_of_mem _ mem_cons_self)
  exact absurd (h0.trans h1.symm) (by decide)

end Zmq
