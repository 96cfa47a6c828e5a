import Mathlib.Data.List.Chain
import Mathlib.Data.Vector.Defs
import ZeroMQ.Foundation.Run

/-!
# The chunks of `yqueue_t`

The cells of a `yqueue_t` lie in chunks of `N` cells, which are linked in both directions. Elements are added in the
last chunk and removed from the first one; an emptied chunk is kept as the spare chunk and used for the next one that
is needed. Memory that `malloc` returns may hold anything.

`Represents` says that the cells of the chunks, without those before the begin and those behind the end, are the
elements of a list, and every operation does to this list what its name says. The back position is that of the last
element, but where there is none it may point to invalid memory.
-/

namespace Zmq

open Foundation Function Nat
open List hiding Vector

/-- `chunk_t`. -/
structure ChunkQueue.Chunk (α : Type) (n : ℕ) where
  values : Vector α n
  prev : Option ℕ
  next : Option ℕ

/-- `yqueue_t`, with the memory its chunks lie in. -/
structure ChunkQueue (α : Type) (n : ℕ) where
  allocated : ℕ → Bool
  values : ℕ → Vector α n
  prev : ℕ → Option ℕ
  next : ℕ → Option ℕ
  beginChunk : Option ℕ
  beginPos : ℕ
  backChunk : Option ℕ
  backPos : ℕ
  endChunk : Option ℕ
  endPos : ℕ
  spareChunk : Option ℕ

/-- Undefined behaviour. -/
inductive ChunkFault
  /-- A pointer that is null, or leads to no chunk. -/
  | invalidPointer
  | outOfBounds
  deriving DecidableEq

variable {α : Type} {n : ℕ}

namespace ChunkQueue

/-- A pointer to a chunk is followed. -/
def deref (q : ChunkQueue α n) : Option ℕ → Except ChunkFault ℕ
  | some p => if q.allocated p then .ok p else .error .invalidPointer
  | none => .error .invalidPointer

/-- `malloc`, which returns `chunk`; the memory holds `mem`. -/
def malloc (chunk : ℕ) (mem : Chunk α n) (q : ChunkQueue α n) : ChunkQueue α n where
  __ := q
  allocated := update q.allocated chunk true
  values := update q.values chunk mem.values
  prev := update q.prev chunk mem.prev
  next := update q.next chunk mem.next

/-- `free`, which does nothing with a null pointer. -/
def free (p : Option ℕ) (q : ChunkQueue α n) : Except ChunkFault (ChunkQueue α n) :=
  if p = none then .ok q
  else do
    let r ← q.deref p
    .ok { q with allocated := update q.allocated r false }

/-- `yqueue_t::yqueue_t`, if `malloc` returns `chunk`. -/
def new (chunk : ℕ) (mem : Chunk α n) : ChunkQueue α n :=
  ⟨update (fun _ => false) chunk true, fun _ => mem.values, fun _ => mem.prev, fun _ => mem.next,
    some chunk, 0, none, 0, some chunk, 0, none⟩

/-- `yqueue_t::back` as a value. -/
def back (q : ChunkQueue α n) : Except ChunkFault α := do
  let p ← q.deref q.backChunk
  match (q.values p)[q.backPos]? with
  | some v => .ok v
  | none => .error .outOfBounds

/-- The assignment `queue.back () = v`. -/
def assignBack (v : α) (q : ChunkQueue α n) : Except ChunkFault (ChunkQueue α n) := do
  let p ← q.deref q.backChunk
  if q.backPos < n then .ok { q with values := update q.values p ((q.values p).setIfInBounds q.backPos v) }
  else .error .outOfBounds

/-- The beginning of `push`: the back and the end move. -/
def advance (q : ChunkQueue α n) : ChunkQueue α n :=
  { q with backChunk := q.endChunk, backPos := q.endPos, endPos := q.endPos + 1 }

/-- The end of `push`: a chunk is linked behind the end chunk. -/
def link (sc : ℕ) (q : ChunkQueue α n) : Except ChunkFault (ChunkQueue α n) := do
  let e ← q.deref q.endChunk
  let _ ← q.deref (some sc)
  let next := update q.next e (some sc)
  let prev := update q.prev sc (some e)
  .ok { q with next, prev, endChunk := some sc, endPos := 0, spareChunk := none }

/-- `yqueue_t::push`. -/
def push (chunk : ℕ) (mem : Chunk α n) (q : ChunkQueue α n) : Except ChunkFault (ChunkQueue α n) :=
  if q.endPos + 1 ≠ n then .ok q.advance
  else match q.spareChunk with
    | some sc => q.advance.link sc
    | none => (q.advance.malloc chunk mem).link chunk

/-- `yqueue_t::unpush`: the back moves. -/
def unpushBack (q : ChunkQueue α n) : Except ChunkFault (ChunkQueue α n) :=
  if 0 < q.backPos then .ok { q with backPos := q.backPos - 1 }
  else do
    let p ← q.deref q.backChunk
    .ok { q with backPos := n - 1, backChunk := q.prev p }

/-- `yqueue_t::unpush`: the end moves. -/
def unpushEnd (q : ChunkQueue α n) : Except ChunkFault (ChunkQueue α n) :=
  if 0 < q.endPos then .ok { q with endPos := q.endPos - 1 }
  else do
    let e ← q.deref q.endChunk
    let p ← q.deref (q.prev e)
    let q1 ← q.free (q.next p)
    let _ ← q1.deref (some p)
    .ok { q1 with endPos := n - 1, endChunk := some p, next := update q.next p none }

/-- `yqueue_t::unpush`. -/
def unpush (q : ChunkQueue α n) : Except ChunkFault (ChunkQueue α n) := q.unpushBack >>= unpushEnd

/-- `yqueue_t::pop`. -/
def pop (q : ChunkQueue α n) : Except ChunkFault (ChunkQueue α n) :=
  if q.beginPos + 1 = n then do
    let o ← q.deref q.beginChunk
    let d ← q.deref (q.next o)
    let prev := update q.prev d none
    { q with prev, beginChunk := some d, beginPos := 0, spareChunk := some o }.free q.spareChunk
  else .ok { q with beginPos := q.beginPos + 1 }

/-- The operations. -/
inductive Act (α : Type) (n : ℕ)
  | push (chunk : ℕ) (mem : Chunk α n)
  | assignBack (v : α)
  | unpush
  | pop

/-- The queue and a plain list do the same. What is pushed is what the new back element happens to hold. -/
def step (s : ChunkQueue α n × List α) : Act α n → Except ChunkFault (ChunkQueue α n × List α)
  | .push chunk mem => do
    let q ← s.1.push chunk mem
    let v ← q.back
    .ok (q, s.2 ++ [v])
  | .assignBack v => do
    let q ← s.1.assignBack v
    .ok (q, s.2.dropLast ++ [v])
  | .unpush => do
    let q ← s.1.unpush
    .ok (q, s.2.dropLast)
  | .pop => do
    let q ← s.1.pop
    .ok (q, s.2.tail)

/-- `malloc` returns memory that is not in use, and there is an element where one is needed. -/
def Respects (s : ChunkQueue α n × List α) : Act α n → Prop
  | .push chunk _ => s.1.allocated chunk = false
  | .assignBack _ | .unpush | .pop => s.2 ≠ []

/-! ### The chunks -/

/-- Two chunks are linked in both directions. -/
def Linked (prev next : ℕ → Option ℕ) (p r : ℕ) : Prop := next p = some r ∧ prev r = some p

/-- All cells of some chunks. -/
def cells (values : ℕ → Vector α n) (cs : List ℕ) : List α := cs.flatMap fun p => (values p).toList

/-- The queue has the chunks `cs` and the elements `l`. -/
structure Represents (q : ChunkQueue α n) (cs : List ℕ) (l : List α) : Prop where
  first : cs.head? = q.beginChunk
  last : cs.getLast? = q.endChunk
  linked : cs.IsChain (Linked q.prev q.next)
  nodup : cs.Nodup
  /-- Nothing else is allocated. -/
  allocated : ∀ p, q.allocated p = true ↔ p ∈ cs ∨ q.spareChunk = some p
  spare : ∀ p ∈ cs, q.spareChunk ≠ some p
  beginPos_lt : q.beginPos < n
  endPos_lt : q.endPos < n
  elements : ∃ before behind, cells q.values cs = before ++ l ++ behind ∧ before.length = q.beginPos ∧
    behind.length + q.endPos = n
  /-- The back position is the one before the end position. -/
  back : l ≠ [] → (q.backChunk = q.endChunk ∧ q.backPos + 1 = q.endPos) ∨
    (q.endPos = 0 ∧ q.backPos + 1 = n ∧ q.backChunk = q.endChunk.bind q.prev)

variable {q : ChunkQueue α n} {cs : List ℕ} {l : List α} {v : α}

lemma linked_congr {prev prev' next next' : ℕ → Option ℕ} (hnodup : cs.Nodup) (h : cs.IsChain (Linked prev next))
    (hnext : ∀ p ∈ cs, cs.getLast? ≠ some p → next' p = next p)
    (hprev : ∀ p ∈ cs, cs.head? ≠ some p → prev' p = prev p) : cs.IsChain (Linked prev' next') := by
  rw [isChain_iff_forall_rel_of_append_cons_cons] at h ⊢
  rintro a b l₁ l₂ rfl
  obtain ⟨hab, hba⟩ := h rfl
  have hlast : (l₁ ++ a :: b :: l₂).getLast? ≠ some a := by
    intro heq
    have hmem : a ∈ b :: l₂ := mem_of_getLast? (by simpa using heq)
    simp [nodup_append, hmem] at hnodup
  have hhead : (l₁ ++ a :: b :: l₂).head? ≠ some b := by
    intro heq
    have hmem : b ∈ l₁ ++ [a] := mem_of_mem_head? (by cases l₁ <;> simpa using heq)
    rw [append_cons] at hnodup
    exact (nodup_append.mp hnodup).2.2 b hmem b mem_cons_self rfl
  exact ⟨(hnext a (by simp) hlast).trans hab, (hprev b (by simp) hhead).trans hba⟩

lemma cells_update {p : ℕ} (hp : p ∉ cs) (x : Vector α n) (values : ℕ → Vector α n) :
    cells (update values p x) cs = cells values cs := by
  refine flatMap_congr fun r hr => ?_
  rw [update_of_ne (ne_of_mem_of_not_mem hr hp)]

lemma cells_concat (values : ℕ → Vector α n) (p : ℕ) :
    cells values (cs ++ [p]) = cells values cs ++ (values p).toList := by
  simp [cells]

lemma deref_eq {p : ℕ} (hp : q.allocated p = true) : q.deref (some p) = .ok p := if_pos hp

/-! ### The operations -/

namespace Represents

lemma exists_last (h : Represents q cs l) : ∃ front e, cs = front ++ [e] ∧ q.endChunk = some e := by
  obtain ⟨before, behind, hcells, -, hbehind⟩ := h.elements
  rcases eq_nil_or_concat' cs with rfl | ⟨front, e, rfl⟩
  · have hend := h.endPos_lt
    have hlength := congrArg length hcells
    simp [cells] at hlength
    omega
  · exact ⟨front, e, rfl, by simpa using h.last.symm⟩

lemma isAllocated (h : Represents q cs l) {p : ℕ} (hp : p ∈ cs) : q.allocated p = true :=
  (h.allocated p).mpr (.inl hp)

lemma malloc (h : Represents q cs l) (hspare : q.spareChunk = none) {chunk : ℕ}
    (hfresh : q.allocated chunk = false) (mem : Chunk α n) :
    Represents { q.malloc chunk mem with spareChunk := some chunk } cs l := by
  have hchunk : chunk ∉ cs := fun hmem => by simpa [hfresh] using h.isAllocated hmem
  have hne (p) (hp : p ∈ cs) : p ≠ chunk := ne_of_mem_of_not_mem hp hchunk
  obtain ⟨front, e, rfl, he⟩ := h.exists_last
  refine { h with linked := ?_, allocated := fun p => ?_, spare := ?_, elements := ?_, back := ?_ }
  · exact linked_congr h.nodup h.linked (fun p hp _ => update_of_ne (hne p hp) _ _)
      fun p hp _ => update_of_ne (hne p hp) _ _
  · by_cases hp : p = chunk
    · simp [ChunkQueue.malloc, hp]
    · simpa [ChunkQueue.malloc, update_of_ne hp, hspare, Ne.symm hp] using h.allocated p
  · exact fun p hp heq => hne p hp (Option.some.inj heq).symm
  · obtain ⟨before, behind, hcells, hlength⟩ := h.elements
    exact ⟨before, behind, (cells_update hchunk _ _).trans hcells, hlength⟩
  · have hprev : q.endChunk.bind q.prev = q.endChunk.bind (update q.prev chunk mem.prev) := by
      rw [he]
      exact (update_of_ne (hne e (by simp)) _ _).symm
    exact fun hl => (h.back hl).imp_right fun hback => ⟨hback.1, hback.2.1, hback.2.2.trans hprev⟩

lemma link (h : Represents q cs l) (hpos : q.endPos + 1 = n) {sc : ℕ} (hspare : q.spareChunk = some sc) :
    ∃ q' v, q.advance.link sc = .ok q' ∧ Represents q' (cs ++ [sc]) (l ++ [v]) := by
  obtain ⟨before, behind, hcells, hbefore, hbehind⟩ := h.elements
  obtain ⟨v, rfl⟩ : ∃ v, behind = [v] := length_eq_one_iff.mp (by omega)
  obtain ⟨front, e, rfl, he⟩ := h.exists_last
  have hsc : sc ∉ front ++ [e] := fun hmem => h.spare sc hmem hspare
  have hrun : q.advance.link sc = .ok { q.advance with
      next := update q.next e (some sc)
      prev := update q.prev sc (some e)
      endChunk := some sc
      endPos := 0
      spareChunk := none } := by
    have hae : q.allocated e = true := h.isAllocated (by simp)
    have hasc : q.allocated sc = true := (h.allocated sc).mpr (.inr hspare)
    simp [ChunkQueue.link, advance, deref, he, hae, hasc, bind, Except.bind]
  have hchain : (front ++ [e]).IsChain (Linked (update q.prev sc (some e)) (update q.next e (some sc))) := by
    refine linked_congr h.nodup h.linked (fun p _ hlast => update_of_ne ?_ _ _) fun p hp _ => ?_
    · rintro rfl
      simp at hlast
    · exact update_of_ne (ne_of_mem_of_not_mem hp hsc) _ _
  have hlinked : Linked (update q.prev sc (some e)) (update q.next e (some sc)) e sc :=
    ⟨update_self _ _ _, update_self _ _ _⟩
  refine ⟨_, v, hrun, ?_⟩
  exact {
    first := Eq.trans (by cases front <;> rfl) h.first
    last := by simp
    linked := by
      rw [append_assoc]
      exact isChain_append_cons_cons.mpr ⟨hchain, hlinked, isChain_singleton _⟩
    nodup := nodup_append.mpr ⟨h.nodup, by simp, by grind⟩
    allocated p := (h.allocated p).trans (by simp [or_assoc, hspare, @eq_comm _ sc])
    spare _ _ := nofun
    beginPos_lt := h.beginPos_lt
    endPos_lt := zero_lt_of_lt h.beginPos_lt
    elements := by
      refine ⟨before, (q.values sc).toList, ?_, hbefore, by simp⟩
      rw [cells_concat, show cells q.advance.values (front ++ [e]) = _ from hcells]
      simp [advance]
    back _ := .inr ⟨rfl, hpos, he.trans hlinked.2.symm⟩ }

lemma push (h : Represents q cs l) {chunk : ℕ} (hfresh : q.allocated chunk = false) (mem : Chunk α n) :
    ∃ q' cs' v, q.push chunk mem = .ok q' ∧ Represents q' cs' (l ++ [v]) := by
  by_cases hpos : q.endPos + 1 = n
  · rw [ChunkQueue.push, if_neg (not_not.mpr hpos)]
    cases hspare : q.spareChunk with
    | some sc =>
      obtain ⟨q', v, hlink, hq'⟩ := h.link hpos hspare
      exact ⟨q', _, v, hlink, hq'⟩
    | none =>
      obtain ⟨q', v, hlink, hq'⟩ := (h.malloc hspare hfresh mem).link hpos rfl
      exact ⟨q', _, v, hlink, hq'⟩
  · rw [ChunkQueue.push, if_pos hpos]
    obtain ⟨before, behind, hcells, hbefore, hbehind⟩ := h.elements
    have hend := h.endPos_lt
    cases behind with
    | nil => simp at hbehind; omega
    | cons v behind =>
      refine ⟨_, cs, v, rfl, { h with endPos_lt := ?_, elements := ?_, back := fun _ => .inl ⟨rfl, rfl⟩ }⟩
      · show q.endPos + 1 < n
        omega
      · refine ⟨before, behind, ?_, hbefore, Eq.trans ?_ hbehind⟩
        · rw [show cells q.advance.values cs = _ from hcells]
          simp
        · simp [advance]
          omega

lemma exists_concat {A V B : List α} (h : A ++ V = B ++ [v]) (hV : 0 < V.length) :
    ∃ X, V = X ++ [v] ∧ A ++ X = B := by
  rcases eq_nil_or_concat' V with rfl | ⟨X, w, rfl⟩
  · cases hV
  · rw [← append_assoc] at h
    obtain ⟨hB, hw⟩ := append_inj' h rfl
    rw [cons.inj hw |>.1]
    exact ⟨X, rfl, hB⟩

lemma end_zero (h : Represents q cs l) (hl : l ≠ []) (hzero : q.endPos = 0) :
    ∃ front p e before, cs = front ++ [p, e] ∧ q.endChunk = some e ∧ Linked q.prev q.next p e ∧
      before.length = q.beginPos ∧ cells q.values (front ++ [p]) = before ++ l := by
  obtain ⟨before, behind, hcells, hbefore, hbehind⟩ := h.elements
  obtain ⟨front, e, rfl, he⟩ := h.exists_last
  rw [cells_concat] at hcells
  obtain ⟨hfront, -⟩ := append_inj' hcells (by rw [Vector.length_toList]; omega)
  rcases eq_nil_or_concat' front with rfl | ⟨front, p, rfl⟩
  · exact absurd (append_eq_nil_iff.mp hfront.symm).2 hl
  have hlinked := h.linked
  rw [append_assoc] at hlinked
  exact ⟨front, p, e, before, append_assoc _ _ _, he, (isChain_append_cons_cons.mp hlinked).2.1, hbefore, hfront⟩

lemma back_split (h : Represents q cs (l ++ [v])) :
    ∃ front p rest X Y before, cs = front ++ p :: rest ∧ q.backChunk = some p ∧ (q.values p).toList = X ++ v :: Y ∧
      X.length = q.backPos ∧ before.length = q.beginPos ∧ cells q.values front ++ X = before ++ l ∧
      (Y ++ cells q.values rest).length + q.endPos = n := by
  have hn := h.endPos_lt
  obtain ⟨hback, hpos⟩ | ⟨hzero, hpos, hback⟩ := h.back (by simp)
  · obtain ⟨before, behind, hcells, hbefore, hbehind⟩ := h.elements
    obtain ⟨front, e, rfl, he⟩ := h.exists_last
    have hlength : (q.values e).toList.length = n := Vector.length_toList
    rw [cells_concat, ← append_assoc] at hcells
    obtain ⟨A, hA, hE⟩ | ⟨C, -, hC⟩ := append_eq_append_iff.mp hcells
    · rw [hE, length_append] at hlength
      obtain ⟨X, rfl, hX⟩ := exists_concat (B := before ++ l) (v := v) (by rw [← hA, append_assoc]) (by omega)
      rw [append_assoc] at hE
      refine ⟨front, e, [], X, behind, before, rfl, hback.trans he, hE, ?_, hbefore, hX, ?_⟩
      · simp at hlength
        omega
      · simpa [cells] using hbehind
    · have := congrArg length hC
      simp at this
      omega
  · obtain ⟨front, p, e, before, rfl, he, ⟨-, hprev⟩, hbefore, hcells⟩ := h.end_zero (by simp) hzero
    rw [cells_concat, ← append_assoc] at hcells
    have hp : (q.values p).toList.length = n := Vector.length_toList
    obtain ⟨X, hX, hrest⟩ := exists_concat hcells (by omega)
    rw [he, Option.bind_some, hprev] at hback
    refine ⟨front, p, [e], X, [], before, rfl, hback, hX, ?_, hbefore, hrest, ?_⟩
    · rw [hX] at hp
      simp at hp
      omega
    · simp [cells, hzero]

lemma back_eq (h : Represents q cs (l ++ [v])) : q.back = .ok v := by
  obtain ⟨front, p, rest, X, Y, before, rfl, hback, hp, hX, -⟩ := h.back_split
  have hv : (q.values p)[q.backPos]? = some v := by
    rw [← Vector.getElem?_toList, hp, ← hX]
    simp
  rw [ChunkQueue.back, hback, deref_eq (h.isAllocated (by simp))]
  dsimp only [bind, Except.bind]
  rw [hv]

lemma assignBack (h : Represents q cs (l ++ [v])) (w : α) :
    ∃ q', q.assignBack w = .ok q' ∧ Represents q' cs (l ++ [w]) := by
  obtain ⟨front, p, rest, X, Y, before, rfl, hback, hp, hX, hbefore, hcells, hbehind⟩ := h.back_split
  have hlt : q.backPos < n := by
    have hlength := congrArg length hp
    simp at hlength
    omega
  have hderef : q.deref q.backChunk = .ok p := by rw [hback, deref_eq (h.isAllocated (by simp))]
  rw [ChunkQueue.assignBack, hderef]
  refine ⟨_, if_pos hlt, { h with elements := ?_, back := fun _ => h.back (by simp) }⟩
  obtain ⟨-, hnodup, hapart⟩ := nodup_append.mp h.nodup
  have hfront : p ∉ front := fun hmem => hapart p hmem p mem_cons_self rfl
  refine ⟨before, Y ++ cells q.values rest, ?_, hbefore, hbehind⟩
  rw [append_cons, cells, flatMap_append, ← cells, ← cells, cells_concat, cells_update hfront,
    cells_update (nodup_cons.mp hnodup).1]
  dsimp only
  rw [update_self, Vector.toList_setIfInBounds, hp, ← hX, ← append_assoc before, ← hcells]
  simp

lemma retreat (h : Represents q cs (l ++ [v])) (hpos : 0 < q.endPos) {backChunk : Option ℕ} {backPos : ℕ}
    (hback : backChunk = q.endChunk ∧ backPos + 1 = q.endPos - 1 ∨
      q.endPos - 1 = 0 ∧ backPos + 1 = n ∧ backChunk = q.endChunk.bind q.prev) :
    Represents { q with backChunk, backPos, endPos := q.endPos - 1 } cs l := by
  obtain ⟨before, behind, hcells, hbefore, hbehind⟩ := h.elements
  refine { h with endPos_lt := (sub_le _ _).trans_lt h.endPos_lt, elements := ?_, back := fun _ => hback }
  refine ⟨before, v :: behind, by simpa using hcells, hbefore, ?_⟩
  simp only [length_cons]
  omega

lemma unpushEnd_zero (h : Represents q cs (l ++ [v])) (hzero : q.endPos = 0) {backChunk : Option ℕ} {backPos : ℕ}
    (hback : ∀ p, q.endChunk.bind q.prev = some p → backChunk = some p ∧ backPos + 1 = n - 1 ∨
      n - 1 = 0 ∧ backPos + 1 = n ∧ backChunk = q.prev p) :
    ∃ q' cs', unpushEnd { q with backChunk, backPos } = .ok q' ∧ Represents q' cs' l := by
  obtain ⟨front, p, e, before, rfl, he, ⟨hnext, hprev⟩, hbefore, hcells⟩ := h.end_zero (by simp) hzero
  have hn := h.endPos_lt
  have hpe : p ≠ e := by
    rintro rfl
    simpa using (nodup_append.mp h.nodup).2.1
  have hnodup := h.nodup
  have hlinked := h.linked
  rw [append_cons] at hnodup hlinked
  have he' : e ∉ front ++ [p] := fun hmem => (nodup_append.mp hnodup).2.2 e hmem e (by simp) rfl
  have hae : q.allocated e = true := h.isAllocated (by simp)
  have hap : q.allocated p = true := h.isAllocated (by simp)
  have hrun : unpushEnd { q with backChunk, backPos } = .ok { q with
      backChunk, backPos
      allocated := update q.allocated e false
      endPos := n - 1
      endChunk := some p
      next := update q.next p none } := by
    simp [unpushEnd, hzero, deref, he, hae, hprev, hap, free, hnext, update_of_ne hpe, bind, Except.bind]
  refine ⟨_, front ++ [p], hrun, ?_⟩
  exact {
    first := Eq.trans (by cases front <;> rfl) h.first
    last := by simp
    linked := by
      refine linked_congr (nodup_append.mp hnodup).1 hlinked.left_of_append (fun r _ hr => ?_) fun _ _ _ => rfl
      refine update_of_ne ?_ _ _
      rintro rfl
      simp at hr
    nodup := (nodup_append.mp hnodup).1
    allocated r := by
      have hr := h.allocated r
      by_cases hre : r = e
      · have hspare := h.spare e (by simp)
        simp_all
      · simpa [update_of_ne hre, hre] using hr
    spare r hr := h.spare r (by simp at hr ⊢; tauto)
    beginPos_lt := h.beginPos_lt
    endPos_lt := sub_one_lt (by omega)
    elements := by
      refine ⟨before, [v], by rw [hcells, append_assoc], hbefore, ?_⟩
      simp
      omega
    back _ := by
      simpa using hback p (by rw [he, Option.bind_some, hprev]) }

lemma unpush (h : Represents q cs (l ++ [v])) : ∃ q' cs', q.unpush = .ok q' ∧ Represents q' cs' l := by
  obtain ⟨front, p, rest, -, -, -, rfl, hp, -⟩ := h.back_split
  have hn := h.endPos_lt
  have hmove : q.unpush = if 0 < q.backPos then unpushEnd { q with backPos := q.backPos - 1 }
      else unpushEnd { q with backPos := n - 1, backChunk := q.prev p } := by
    rw [ChunkQueue.unpush, unpushBack, hp, deref_eq (h.isAllocated (by simp))]
    split <;> rfl
  rw [hmove]
  obtain ⟨hback, hpos⟩ | ⟨hzero, hpos, hback⟩ := h.back (by simp)
  · split
    · exact ⟨_, _, if_pos (by dsimp only; omega), h.retreat (by omega) (.inl ⟨hback, by dsimp only; omega⟩)⟩
    · refine ⟨_, _, if_pos (by dsimp only; omega), h.retreat (by omega) (.inr ⟨by omega, by dsimp only; omega, ?_⟩)⟩
      rw [← hback, hp]
      rfl
  · split
    · exact h.unpushEnd_zero hzero fun r hr => .inl ⟨hback.trans hr, by omega⟩
    · refine h.unpushEnd_zero hzero fun r hr => .inr ⟨by omega, by omega, ?_⟩
      rw [Option.some.inj (hp.symm.trans (hback.trans hr))]

lemma pop {x : α} (h : Represents q cs (x :: l)) : ∃ q' cs', q.pop = .ok q' ∧ Represents q' cs' l := by
  obtain ⟨before, behind, hcells, hbefore, hbehind⟩ := h.elements
  have hend := h.endPos_lt
  rw [append_cons] at hcells
  by_cases hpos : q.beginPos + 1 = n
  · cases cs with
    | nil => simp [cells] at hcells
    | cons o rest =>
      have hsplit : (q.values o).toList ++ cells q.values rest = (before ++ [x]) ++ (l ++ behind) :=
        hcells.trans (append_assoc _ _ _)
      obtain ⟨-, hrest⟩ := append_inj hsplit (by simp; omega)
      cases rest with
      | nil => simp [cells] at hrest; simp [hrest.2] at hbehind; omega
      | cons d rest =>
        obtain ⟨⟨hnext, -⟩, hlinked⟩ := isChain_cons_cons.mp h.linked
        obtain ⟨ho, hnodup⟩ := nodup_cons.mp h.nodup
        have hao : q.allocated o = true := h.isAllocated (by simp)
        have had : q.allocated d = true := h.isAllocated (by simp)
        have hrun : ∃ allocated, q.pop = .ok { q with
            allocated
            prev := update q.prev d none
            beginChunk := some d
            beginPos := 0
            spareChunk := some o } ∧ ∀ r, allocated r = true ↔ r ∈ d :: rest ∨ some o = some r := by
          have ho' : q.deref q.beginChunk = .ok o := by rw [← h.first, head?_cons, deref_eq hao]
          rw [ChunkQueue.pop, if_pos hpos, ho']
          dsimp only [bind, Except.bind]
          rw [hnext, deref_eq had]
          cases hspare : q.spareChunk with
          | none =>
            refine ⟨_, rfl, fun r => (h.allocated r).trans ?_⟩
            simp [hspare]
            tauto
          | some s =>
            have hs := h.allocated s
            refine ⟨update q.allocated s false, by simp [free, deref, hs, hspare, bind, Except.bind], fun r => ?_⟩
            have hr := h.allocated r
            have hapart := h.spare s
            by_cases hrs : r = s
            · subst hrs
              have hr' : r ∉ o :: d :: rest := fun hmem => hapart hmem hspare
              simp only [mem_cons, not_or] at hr'
              simp [hr', Ne.symm hr'.1]
            · simp [update_of_ne hrs, hr, hspare, Ne.symm hrs]
              tauto
        obtain ⟨allocated, hrun, hallocated⟩ := hrun
        refine ⟨_, d :: rest, hrun, ?_⟩
        exact {
          first := rfl
          last := Eq.trans (by simp) h.last
          linked := linked_congr hnodup hlinked (fun _ _ _ => rfl) fun r _ hr =>
            update_of_ne (by rintro rfl; exact hr rfl) _ _
          nodup := hnodup
          allocated := hallocated
          spare r hr heq := ho (Option.some.inj heq ▸ hr)
          beginPos_lt := zero_lt_of_lt h.beginPos_lt
          endPos_lt := hend
          elements := ⟨[], behind, hrest, rfl, hbehind⟩
          back hl := by
            refine (h.back (by simp)).imp_right fun hback => ⟨hback.1, hback.2.1, hback.2.2.trans ?_⟩
            rw [← h.last]
            cases rest with
            | nil =>
              have hlength := congrArg length hrest
              have := length_pos_iff.mpr hl
              simp [cells] at hlength
              omega
            | cons r rest =>
              rw [getLast?_cons_cons, getLast?_cons_cons, getLast?_eq_some_getLast (cons_ne_nil r rest)]
              have hne : (r :: rest).getLast (cons_ne_nil r rest) ≠ d :=
                fun heq => (nodup_cons.mp hnodup).1 (heq ▸ getLast_mem _)
              exact (update_of_ne hne none q.prev).symm }
  · refine ⟨_, cs, if_neg hpos, { h with beginPos_lt := ?_, elements := ?_, back := fun _ => h.back (by simp) }⟩
    · have hlt := h.beginPos_lt
      show q.beginPos + 1 < n
      omega
    · exact ⟨before ++ [x], behind, hcells, by simp [hbefore], hbehind⟩

end Represents

lemma represents_new (hn : 0 < n) (chunk : ℕ) (mem : Chunk α n) : Represents (new chunk mem) [chunk] [] where
  first := rfl
  last := rfl
  linked := isChain_singleton _
  nodup := by simp
  allocated p := by simp [new, update_apply]
  spare _ _ := nofun
  beginPos_lt := hn
  endPos_lt := hn
  elements := ⟨[], mem.values.toList, by simp [cells, new], rfl, by simp [new]⟩
  back h := absurd rfl h

lemma step_represents {s : ChunkQueue α n × List α} {a : Act α n} (h : ∃ cs, Represents s.1 cs s.2)
    (hgood : Respects s a) : ∃ s', step s a = .ok s' ∧ ∃ cs, Represents s'.1 cs s'.2 := by
  obtain ⟨q, l⟩ := s
  obtain ⟨cs, h⟩ := h
  cases a with
  | push chunk mem =>
    obtain ⟨q', cs', v, hpush, hq'⟩ := h.push hgood mem
    refine ⟨(q', l ++ [v]), ?_, cs', hq'⟩
    rw [step, hpush]
    dsimp only [bind, Except.bind]
    rw [hq'.back_eq]
  | assignBack w =>
    obtain ⟨l, v, rfl⟩ := (eq_nil_or_concat' l).resolve_left hgood
    obtain ⟨q', hassign, hq'⟩ := h.assignBack w
    refine ⟨(q', l ++ [w]), ?_, cs, hq'⟩
    rw [step, hassign]
    simp [bind, Except.bind]
  | unpush =>
    obtain ⟨l, v, rfl⟩ := (eq_nil_or_concat' l).resolve_left hgood
    obtain ⟨q', cs', hunpush, hq'⟩ := h.unpush
    refine ⟨(q', l), ?_, cs', hq'⟩
    rw [step, hunpush]
    simp [bind, Except.bind]
  | pop =>
    obtain ⟨x, l, rfl⟩ := exists_cons_of_ne_nil hgood
    obtain ⟨q', cs', hpop, hq'⟩ := h.pop
    refine ⟨(q', l), ?_, cs', hq'⟩
    rw [step, hpop]
    rfl

/-- **`yqueue_t` is a double-ended sequence.** In every run that respects what the operations need, nothing undefined
happens, and the queue and a plain list that does the same have the same elements. The chunks are linked in both
directions, the begin and the end position lie in the first and the last one, the spare chunk is none of them, and as
long as there is an element the back position lies in one of them too. -/
theorem yqueue_refines_list (hn : 0 < n) (chunk : ℕ) (mem : Chunk α n) {acts : List (Act α n)}
    (hgood : StepsMeet step Respects (new chunk mem, []) acts) :
    ∃ s, runSteps step (new chunk mem, []) acts = .ok s ∧ ∃ cs, Represents s.1 cs s.2 ∧
      (s.2 ≠ [] → ∃ p ∈ cs, s.1.backChunk = some p ∧ s.1.backPos < n) := by
  obtain ⟨s, hrun, cs, hs⟩ := runSteps_invariant (I := fun s => ∃ cs, Represents s.1 cs s.2)
    (fun _ _ => step_represents) ⟨[chunk], represents_new hn chunk mem⟩ hgood
  refine ⟨s, hrun, cs, hs, fun hne => ?_⟩
  obtain ⟨l, v, hl⟩ := (eq_nil_or_concat' s.2).resolve_left hne
  rw [hl] at hs
  obtain ⟨front, p, rest, X, Y, -, rfl, hp, hX, hpos, -⟩ := hs.back_split
  refine ⟨p, by simp, hp, ?_⟩
  have hlength := congrArg length hX
  simp at hlength
  omega

/-- With one cell in a chunk, the first element leaves a spare chunk. -/
theorem yqueue_refines_list_two : ∃ s, runSteps step (new 0 (⟨#v[()], none, none⟩ : Chunk Unit 1), [])
    [.push 1 ⟨#v[()], none, none⟩, .pop] = .ok s ∧
      ∃ cs, Represents s.1 cs s.2 ∧ (s.2 ≠ [] → ∃ p ∈ cs, s.1.backChunk = some p ∧ s.1.backPos < 1) :=
  yqueue_refines_list Nat.one_pos 0 ⟨#v[()], none, none⟩
    ⟨rfl, fun s hs => ⟨by rw [← Except.ok.inj hs]; exact cons_ne_nil _ _, fun _ _ => trivial⟩⟩

/-- With one cell in a chunk, `unpush` of the only element leads the back to what memory happened to hold. -/
theorem yqueue_back_invalid : ∃ s, runSteps step (new 0 (⟨#v[()], some 7, none⟩ : Chunk Unit 1), [])
    [.push 1 ⟨#v[()], none, none⟩, .unpush] = .ok s ∧ s.1.backChunk = some 7 ∧ s.1.allocated 7 = false :=
  okAnd.exists (by decide +kernel)

end ChunkQueue

end Zmq
