import Mathlib.Algebra.BigOperators.Ring.Nat
import ZeroMQ.Foundation.Run

/-!
# The content size of messages

A message caches the sum of the sizes of its frames. What puts a frame in changes `content_size` before it knows
whether the list takes the frame, and `zmsg_remove` changes it whether or not the list has the frame.

Of a frame there is its address and its size. `zframe_new` and a list that needs a node may find no memory.
-/

namespace Czmq.MessageSize

open List Foundation Except

/-- `zframe_t`, with what `zframe_size` returns. -/
structure Zframe where
  address : ℕ
  size : UInt64
  deriving DecidableEq

/-- `zmsg_t`. -/
structure Zmsg where
  frames : List Zframe
  contentSize : UInt64
  deriving DecidableEq

/-- What is called. Where `zframe_new` is called there is what it returns, and for a list that needs a node whether
there is memory for it. -/
inductive ZmsgAct
  | prepend (frame : Zframe) (node : Bool)
  | append (frame : Zframe) (node : Bool)
  | push (frame : Zframe) (node : Bool)
  | add (frame : Zframe) (node : Bool)
  | pushmem (size : UInt64) (new : Option ℕ) (node : Bool)
  | addmem (size : UInt64) (new : Option ℕ) (node : Bool)
  /-- `zmsg_pushstr`, and `zmsg_pushstrf` with the formatted string: `len` is its `strlen`. -/
  | pushstr (len : UInt64) (new : Option ℕ) (node : Bool)
  /-- `zmsg_addstr`, and `zmsg_addstrf` with the formatted string. -/
  | addstr (len : UInt64) (new : Option ℕ) (node : Bool)
  /-- `zmsg_pop`; `zmsg_popstr` and `zmsg_popint` leave the same message. -/
  | pop
  | remove (frame : Zframe)
  | unwrap
  | wrap (frame : Zframe) (new : Option ℕ) (node node' : Bool)
  | dup (new : ℕ → Option ℕ) (node : ℕ → Bool)
  /-- `zmsg_decode`, with the sizes it finds in the buffer. -/
  | decode (sizes : List UInt64) (new : ℕ → Option ℕ) (node : ℕ → Bool)

namespace Zmsg

/-- `zmsg_new`. -/
def new : Zmsg := ⟨[], 0⟩

/-- The size is added, and the result is that of `zlist_push` or `zlist_append`. -/
def put (front : Bool) (self : Zmsg) (frame : Zframe) (node : Bool) : Zmsg × ℤ :=
  let contentSize := self.contentSize + frame.size
  if node then (⟨if front then frame :: self.frames else self.frames ++ [frame], contentSize⟩, 0)
  else (⟨self.frames, contentSize⟩, -1)

/-- A new frame is put in, if there is one. -/
def putmem (front : Bool) (self : Zmsg) (size : UInt64) (new : Option ℕ) (node : Bool) : Zmsg × ℤ :=
  match new with
  | none => (self, -1)
  | some address => self.put front ⟨address, size⟩ node

/-- `zmsg_prepend`. -/
def prepend : Zmsg → Zframe → Bool → Zmsg × ℤ := put true

/-- `zmsg_append`. -/
def append : Zmsg → Zframe → Bool → Zmsg × ℤ := put false

/-- `zmsg_push`. -/
def push : Zmsg → Zframe → Bool → Zmsg × ℤ := put true

/-- `zmsg_add`. -/
def add : Zmsg → Zframe → Bool → Zmsg × ℤ := put false

/-- `zmsg_pushmem`. -/
def pushmem : Zmsg → UInt64 → Option ℕ → Bool → Zmsg × ℤ := putmem true

/-- `zmsg_addmem`. -/
def addmem : Zmsg → UInt64 → Option ℕ → Bool → Zmsg × ℤ := putmem false

/-- `zmsg_pushstr`. -/
def pushstr : Zmsg → UInt64 → Option ℕ → Bool → Zmsg × ℤ := putmem true

/-- `zmsg_addstr`. -/
def addstr : Zmsg → UInt64 → Option ℕ → Bool → Zmsg × ℤ := putmem false

/-- `zmsg_pop`. -/
def pop (self : Zmsg) : Zmsg :=
  match self.frames with
  | [] => self
  | frame :: frames => ⟨frames, self.contentSize - frame.size⟩

/-- `zmsg_remove`. -/
def remove (self : Zmsg) (frame : Zframe) : Zmsg := ⟨self.frames.erase frame, self.contentSize - frame.size⟩

/-- `zmsg_unwrap`. -/
def unwrap (self : Zmsg) : Zmsg :=
  match self.pop.frames with
  | [] => self.pop
  | empty :: _ => if empty.size = 0 then self.pop.pop else self.pop

/-- `zmsg_wrap`. -/
def wrap (self : Zmsg) (frame : Zframe) (new : Option ℕ) (node node' : Bool) : Zmsg :=
  let r := self.pushmem 0 new node
  if r.2 = 0 then (r.1.push frame node').1 else r.1

/-- The loops of `zmsg_dup` and `zmsg_decode`: a copy that cannot be completed is destroyed. -/
def copyFrom (new : ℕ → Option ℕ) (node : ℕ → Bool) (copy : Zmsg) : List UInt64 → Option Zmsg
  | [] => some copy
  | size :: rest =>
    let r := copy.addmem size (new rest.length) (node rest.length)
    if r.2 = 0 then copyFrom new node r.1 rest else none

/-- A call. After `zmsg_dup` and `zmsg_decode` the message is the new one, unless there is none. -/
def step (self : Zmsg) : ZmsgAct → Except Empty Zmsg
  | .prepend frame node => .ok (self.prepend frame node).1
  | .append frame node => .ok (self.append frame node).1
  | .push frame node => .ok (self.push frame node).1
  | .add frame node => .ok (self.add frame node).1
  | .pushmem size new node => .ok (self.pushmem size new node).1
  | .addmem size new node => .ok (self.addmem size new node).1
  | .pushstr len new node => .ok (self.pushstr len new node).1
  | .addstr len new node => .ok (self.addstr len new node).1
  | .pop => .ok self.pop
  | .remove frame => .ok (self.remove frame)
  | .unwrap => .ok self.unwrap
  | .wrap frame new node node' => .ok (self.wrap frame new node node')
  | .dup new node => .ok ((copyFrom new node .new (self.frames.map Zframe.size)).getD self)
  | .decode sizes new node => .ok ((copyFrom new node .new sizes).getD self)

/-- The sum of sizes. -/
def total (sizes : List UInt64) : ℕ := (sizes.map UInt64.toNat).sum

/-- The content size is the sum of the sizes of the frames. -/
def Sized (self : Zmsg) : Prop := self.contentSize.toNat = total (self.frames.map Zframe.size)

/-- A size is added with a frame that the list takes, or is zero, and the sum is a `size_t`. -/
def Takes (self : Zmsg) (size : UInt64) (node : Bool) : Prop :=
  (node = true ∨ size = 0) ∧ total (self.frames.map Zframe.size) + size.toNat < 2 ^ 64

/-- The list takes every frame that is put in, a frame that is removed is in the list or empty, and the sum of the
sizes is a `size_t`. -/
def Meets (self : Zmsg) : ZmsgAct → Prop
  | .prepend frame node | .append frame node | .push frame node | .add frame node => self.Takes frame.size node
  | .pushmem size new node | .addmem size new node | .pushstr size new node | .addstr size new node =>
    new = none ∨ self.Takes size node
  | .remove frame => frame ∈ self.frames ∨ frame.size = 0
  | .wrap frame new node node' => new = none ∨ node = false ∨ self.Takes frame.size node'
  | .decode sizes _ _ => total sizes < 2 ^ 64
  | .pop | .unwrap | .dup _ _ => True

variable {self : Zmsg} {frame : Zframe} {size : UInt64} {new : Option ℕ} {front node : Bool}

lemma sized_new : Zmsg.new.Sized := rfl

/-- The sum of the sizes is a `size_t`. -/
lemma Sized.lt (h : self.Sized) : total (self.frames.map Zframe.size) < 2 ^ 64 := h ▸ self.contentSize.toNat_lt

/-- The list has the frame that it takes. -/
lemma total_put : total ((self.put front frame true).1.frames.map Zframe.size) =
    total (self.frames.map Zframe.size) + frame.size.toNat := by
  cases front <;> simp [put, total, Nat.add_comm]

/-- Putting a frame in keeps the content size right. -/
lemma Sized.put (h : self.Sized) (htakes : self.Takes frame.size node) : (self.put front frame node).1.Sized := by
  obtain ⟨hnode, hfits⟩ := htakes
  have hsum : (self.contentSize + frame.size).toNat =
      total (self.frames.map Zframe.size) + frame.size.toNat := by
    rw [UInt64.toNat_add, h]
    omega
  cases node with
  | true => exact hsum.trans total_put.symm
  | false => exact hsum.trans (by rw [hnode.resolve_left Bool.false_ne_true]; rfl)

lemma Sized.putmem (h : self.Sized) (htakes : new = none ∨ self.Takes size node) :
    (self.putmem front size new node).1.Sized := by
  cases new with
  | none => exact h
  | some address => exact @Sized.put self ⟨address, size⟩ _ _ h (htakes.resolve_left (Option.some_ne_none _))

/-- A new frame that has been put in has its size in the sum. -/
lemma total_putmem (hok : (self.putmem front size new node).2 = 0) :
    node = true ∧ total ((self.putmem front size new node).1.frames.map Zframe.size) =
      total (self.frames.map Zframe.size) + size.toNat := by
  cases new with
  | none => cases hok
  | some address =>
    cases node with
    | false => cases hok
    | true => exact ⟨rfl, total_put⟩

/-- Taking a size away keeps the content size right if the frames have lost it. -/
lemma Sized.sub {frames : List Zframe}
    (h : self.contentSize.toNat = total (frames.map Zframe.size) + size.toNat) :
    Sized ⟨frames, self.contentSize - size⟩ := by
  rw [Sized, UInt64.toNat_sub_of_le _ _ (UInt64.le_iff_toNat_le.mpr (by omega)), h, Nat.add_sub_cancel]

lemma Sized.pop (h : self.Sized) : self.pop.Sized := by
  rw [Zmsg.pop]
  split
  · exact h
  next frame frames hframes =>
    refine Sized.sub ?_
    rw [h, hframes, total, map_cons, map_cons, sum_cons, Nat.add_comm]
    rfl

lemma Sized.remove (h : self.Sized) (hframe : frame ∈ self.frames ∨ frame.size = 0) : (self.remove frame).Sized := by
  refine Sized.sub ?_
  rw [h, total, total]
  by_cases hmem : frame ∈ self.frames
  · rw [((perm_cons_erase hmem).map _ |>.map _).sum_eq, map_cons, map_cons, sum_cons, Nat.add_comm]
  · rw [erase_of_not_mem hmem, hframe.resolve_left hmem]
    rfl

lemma Sized.unwrap (h : self.Sized) : self.unwrap.Sized := by
  rw [Zmsg.unwrap]
  split
  · exact h.pop
  · split
    · exact h.pop.pop
    · exact h.pop

lemma Sized.wrap {node' : Bool} (h : self.Sized) (ha : new = none ∨ node = false ∨ self.Takes frame.size node') :
    (self.wrap frame new node node').Sized := by
  have hempty : (self.pushmem 0 new node).1.Sized := h.putmem (.inr ⟨.inr rfl, h.lt⟩)
  rw [Zmsg.wrap]
  split
  next hok =>
    obtain ⟨hnode, htotal⟩ := total_putmem hok
    have htakes : self.Takes frame.size node' := by
      obtain rfl | rfl | htakes := ha
      · cases hok
      · cases hnode
      · exact htakes
    exact hempty.put ⟨htakes.1, (congrArg (· + _) htotal).trans_lt htakes.2⟩
  · exact hempty

/-- A copy has the right content size. -/
lemma Sized.copyFrom {new : ℕ → Option ℕ} {node : ℕ → Bool} {sizes : List UInt64} {copy : Zmsg} (h : copy.Sized)
    (hfits : total (copy.frames.map Zframe.size) + total sizes < 2 ^ 64) :
    ∀ self ∈ Zmsg.copyFrom new node copy sizes, self.Sized := by
  induction sizes generalizing copy with
  | nil =>
    intro self hself
    rwa [← Option.some.inj hself]
  | cons size rest ih =>
    have hcons : total (size :: rest) = size.toNat + total rest := sum_cons
    rw [Zmsg.copyFrom]
    split
    next hok =>
      obtain ⟨hnode, htotal⟩ := total_putmem hok
      refine ih (h.putmem (.inr ⟨.inl hnode, by omega⟩)) ?_
      rw [addmem, htotal]
      omega
    · exact fun _ hnone => by cases hnone

/-- Every call that meets the condition keeps the content size right. -/
lemma Sized.step (h : self.Sized) (a : ZmsgAct) (ha : self.Meets a) : ∃ t, self.step a = .ok t ∧ t.Sized := by
  have hcopy {sizes : List UInt64} (new node) (hfits : total sizes < 2 ^ 64) :
      ((Zmsg.copyFrom new node .new sizes).getD self).Sized := by
    cases hsome : Zmsg.copyFrom new node .new sizes with
    | none => exact h
    | some copy => exact sized_new.copyFrom (by simpa [Zmsg.new, total] using hfits) copy hsome
  cases a with
  | prepend | append | push | add => exact ⟨_, rfl, h.put ha⟩
  | pushmem | addmem | pushstr | addstr => exact ⟨_, rfl, h.putmem ha⟩
  | pop => exact ⟨_, rfl, h.pop⟩
  | remove => exact ⟨_, rfl, h.remove ha⟩
  | unwrap => exact ⟨_, rfl, h.unwrap⟩
  | wrap => exact ⟨_, rfl, h.wrap ha⟩
  | dup new node => exact ⟨_, rfl, hcopy new node h.lt⟩
  | decode sizes new node => exact ⟨_, rfl, hcopy new node ha⟩

end Zmsg

/-- **The content size.** In every run in which the list takes what is put in, only frames of the message or empty
ones are removed and the sum of the sizes is a `size_t`, the content size is this sum. -/
theorem content_size_sum (acts : List ZmsgAct) (hmeets : StepsMeet Zmsg.step Zmsg.Meets .new acts) :
    ∃ s, runSteps Zmsg.step .new acts = .ok s ∧ s.Sized :=
  runSteps_invariant (I := Zmsg.Sized) (fun _ a hs ha => hs.step a ha) Zmsg.sized_new hmeets

/-- Two frames are put in, and one of them is removed. -/
theorem content_size_sum_two : ∃ s, runSteps Zmsg.step .new
    [.addmem 5 (some 0) true, .push ⟨1, 3⟩ true, .remove ⟨0, 5⟩] = .ok s ∧ s.Sized :=
  content_size_sum _ (by
    simp [StepsMeet, Zmsg.Meets, Zmsg.Takes, Zmsg.step, Zmsg.addmem, Zmsg.putmem, Zmsg.push, Zmsg.put, Zmsg.new,
      Zmsg.total])

/-- A frame that is not in the message is removed, and the content size wraps round. -/
theorem content_size_wraps : ∃ s, runSteps Zmsg.step .new [.remove ⟨0, 1⟩] = .ok s ∧ ¬s.Sized :=
  ⟨_, rfl, by rw [Zmsg.Sized]; decide⟩

end Czmq.MessageSize
