import Mathlib.Data.List.Infix
import ZeroMQ.Codec.Wire

/-!
# Messages in files

`zmsg_save` writes each frame as its size, a `size_t` as it is in memory, and its bytes; `zmsg_load` reads
frames until a size is cut off. `fwrite` and `fread` of one item of size zero return zero items: `zmsg_load`
looks at the size before it takes that for an error, `zmsg_save` does not. Memory is taken not to run out.
-/

namespace Czmq.MessageFile

open List Zmq

/-- What `fwrite` writes for one item, and the number of items it returns. -/
def fwrite (data : List UInt8) : List UInt8 × ℕ := (data, if data.length = 0 then 0 else 1)

/-- The number of items `fread` returns for one item of the size, what it reads, and the rest of the file. -/
def fread (size : ℕ) (file : List UInt8) : ℕ × List UInt8 × List UInt8 :=
  (if size = 0 ∨ file.length < size then 0 else 1, file.take size, file.drop size)

/-- A `size_t` in memory, least significant byte first. -/
def sizeBytes (size : ℕ) : List UInt8 := (putUint64 size).reverse

/-- The `size_t` that has been read. -/
def frameSize (bytes : List UInt8) : ℕ := getUint64 bytes.reverse

/-- `zmsg_save`: what is written to the file, and the result. -/
def save : List (List UInt8) → List UInt8 × ℤ
  | [] => ([], 0)
  | frame :: frames =>
    let size := fwrite (sizeBytes frame.length)
    let data := fwrite frame
    if size.2 ≠ 1 then (size.1, -1)
    else if data.2 ≠ 1 then (size.1 ++ data.1, -1)
    else (size.1 ++ data.1 ++ (save frames).1, (save frames).2)

/-- The loop of `zmsg_load`. -/
def loadLoop (self : List (List UInt8)) (file : List UInt8) : Option (List (List UInt8)) :=
  if (fread 8 file).1 = 1 then
    let size := frameSize (fread 8 file).2.1
    let data := fread size (fread 8 file).2.2
    if 0 < size ∧ data.1 ≠ 1 then none else loadLoop (self ++ [data.2.1]) data.2.2
  else some self
termination_by file.length
decreasing_by
  have hlen : ¬file.length < 8 := fun hlt => by simp [fread, hlt] at *
  simp only [fread, length_drop]
  omega

/-- `zmsg_load`, with `NULL` as a message without frames. -/
def load (self : List (List UInt8)) (file : List UInt8) : Option (List (List UInt8)) :=
  match loadLoop self file with
  | none => none
  | some [] => none
  | some frames => some frames

/-- A frame as it is in a file. -/
def record (frame : List UInt8) : List UInt8 := sizeBytes frame.length ++ frame

variable {frame file : List UInt8} {self m : List (List UInt8)}

lemma length_record : (record frame).length = 8 + frame.length := length_append

/-- Without eight bytes for a size the loop ends with what it has. -/
lemma loadLoop_short (h : file.length < 8) : loadLoop self file = some self := by
  rw [loadLoop, if_neg (by simp [fread, h])]

lemma loadLoop_size (hsize : frame.length < 2 ^ 64) (rest : List UInt8) :
    loadLoop self (sizeBytes frame.length ++ rest) =
      if rest.length < frame.length then none
      else loadLoop (self ++ [rest.take frame.length]) (rest.drop frame.length) := by
  have hread : fread 8 (sizeBytes frame.length ++ rest) = (1, sizeBytes frame.length, rest) := by
    simp [fread, sizeBytes, length_putUint64]
  have hframe : frameSize (sizeBytes frame.length) = frame.length := by
    rw [frameSize, sizeBytes, reverse_reverse, getUint64_putUint64 hsize]
  rw [loadLoop]
  simp only [hread, hframe, if_true]
  by_cases hlt : rest.length < frame.length
  · rw [if_pos hlt, if_pos ⟨by omega, by simp [fread, hlt]⟩]
  · rw [if_neg hlt, if_neg (by simp only [fread]; split <;> omega)]
    rfl

lemma loadLoop_record (hsize : frame.length < 2 ^ 64) (rest : List UInt8) :
    loadLoop self (record frame ++ rest) = loadLoop (self ++ [frame]) rest := by
  rw [record, append_assoc, loadLoop_size hsize, if_neg (by simp), take_left, drop_left]

lemma loadLoop_records (hsize : ∀ f ∈ m, f.length < 2 ^ 64) :
    loadLoop self (m.flatMap record) = some (self ++ m) := by
  induction m generalizing self with
  | nil => simpa using loadLoop_short (by simp)
  | cons frame m ih =>
    rw [flatMap_cons, loadLoop_record (hsize _ mem_cons_self), ih fun f hf => hsize f (mem_cons_of_mem _ hf),
      append_assoc, singleton_append]

/-- The frames that are complete in a part of a file are loaded, and nothing if a frame is cut off. -/
lemma loadLoop_take (self : List (List UInt8)) (hsize : ∀ f ∈ m, f.length < 2 ^ 64) (k : ℕ) :
    loadLoop self ((m.flatMap record).take k) = none ∨
      ∃ frames, frames <+: m ∧ loadLoop self ((m.flatMap record).take k) = some (self ++ frames) := by
  induction m generalizing self k with
  | nil => exact .inr ⟨[], nil_prefix, by simpa using loadLoop_short (by simp)⟩
  | cons frame m ih =>
    have hframe := hsize frame mem_cons_self
    rw [flatMap_cons]
    by_cases hcut : k < 8
    · refine .inr ⟨[], nil_prefix, ?_⟩
      rw [loadLoop_short (by rw [length_take]; omega), append_nil]
    by_cases hwhole : k < 8 + frame.length
    · -- The size is there, and some of the bytes are not.
      have htake : (record frame ++ m.flatMap record).take k = sizeBytes frame.length ++ frame.take (k - 8) := by
        rw [take_append_of_le_length (by rw [length_record]; omega), record, take_append]
        have hlen : (sizeBytes frame.length).length = 8 := rfl
        rw [take_of_length_le (by omega), hlen]
      refine .inl ?_
      rw [htake, loadLoop_size hframe, if_pos (by rw [length_take]; omega)]
    · rw [take_append, take_of_length_le (by rw [length_record]; omega), loadLoop_record hframe]
      obtain hnone | ⟨frames, hprefix, hload⟩ :=
        ih (self ++ [frame]) (fun f hf => hsize f (mem_cons_of_mem _ hf)) (k - (record frame).length)
      · exact .inl hnone
      · refine .inr ⟨frame :: frames, prefix_cons_inj frame |>.mpr hprefix, ?_⟩
        rw [hload, append_assoc, singleton_append]

/-- Frames are saved up to the first empty one, and it is an error if there is one. -/
lemma save_spec (m : List (List UInt8)) :
    ∃ frames, frames <+: m ∧ (save m).1 = frames.flatMap record ∧ ((save m).2 = 0 ↔ [] ∉ m) ∧
      ([] ∉ m → frames = m) := by
  induction m with
  | nil => exact ⟨[], nil_prefix, rfl, by simp [save], fun _ => rfl⟩
  | cons frame m ih =>
    cases frame with
    | nil => exact ⟨[[]], (prefix_cons_inj []).mpr nil_prefix, rfl, by simp [save, fwrite, sizeBytes, putUint64],
        fun hnot => absurd mem_cons_self hnot⟩
    | cons b frame =>
      have hsave : save ((b :: frame) :: m) = (record (b :: frame) ++ (save m).1, (save m).2) := rfl
      have hmem : [] ∉ (b :: frame) :: m ↔ [] ∉ m := by simp
      obtain ⟨frames, hprefix, hsaved, hrc, hall⟩ := ih
      rw [hsave, hmem]
      refine ⟨(b :: frame) :: frames, (prefix_cons_inj _).mpr hprefix, ?_, hrc, fun hnot => by rw [hall hnot]⟩
      rw [hsaved, flatMap_cons]

lemma load_of_loop (h : loadLoop [] file = some m) (hne : m ≠ []) : load [] file = some m := by
  obtain ⟨f, fs, rfl⟩ := exists_cons_of_ne_nil hne
  rw [load, h]

/-- **Messages in files.** A message with frames is saved, and loaded as it was, if and only if none of its frames
is empty. From a truncated file nothing is loaded, or frames that the message begins with. -/
theorem save_load_iff (m : List (List UInt8)) (hne : m ≠ []) (hsize : ∀ f ∈ m, f.length < 2 ^ 64) :
    ((save m).2 = 0 ∧ load [] (save m).1 = some m ↔ [] ∉ m) ∧
      ∀ k, load [] ((save m).1.take k) = none ∨
        ∃ frames, frames <+: m ∧ load [] ((save m).1.take k) = some frames := by
  obtain ⟨saved, hpre, hsaved, hrc, hall⟩ := save_spec m
  rw [hrc, hsaved]
  refine ⟨⟨And.left, fun hnot => ⟨hnot, ?_⟩⟩, fun k => ?_⟩
  · rw [hall hnot]
    exact load_of_loop (loadLoop_records hsize) hne
  · obtain hnone | ⟨frames, hframes, hload⟩ :=
      loadLoop_take [] (fun f hf => hsize f (hpre.subset hf)) k
    · exact .inl (by rw [load, hnone])
    · cases frames with
      | nil => exact .inl (by rw [load, hload]; rfl)
      | cons f fs => exact .inr ⟨f :: fs, hframes.trans hpre, load_of_loop hload (cons_ne_nil f fs)⟩

/-- A message of two frames, and what is loaded from a truncated file of it. -/
theorem save_load_two : ((save [[1], [2, 3]]).2 = 0 ∧ load [] (save [[1], [2, 3]]).1 = some [[1], [2, 3]]) ∧
    ∀ k, load [] ((save [[1], [2, 3]]).1.take k) = none ∨
      ∃ frames, frames <+: [[1], [2, 3]] ∧ load [] ((save [[1], [2, 3]]).1.take k) = some frames := by
  obtain ⟨hwhole, htruncated⟩ := save_load_iff [[1], [2, 3]] (by simp) (by simp)
  exact ⟨hwhole.mpr (by simp), htruncated⟩

/-- A message is not saved behind an empty frame. -/
theorem save_load_empty : (save [[1], [], [2]]).2 = -1 ∧
    ¬((save [[1], [], [2]]).2 = 0 ∧ load [] (save [[1], [], [2]]).1 = some [[1], [], [2]]) :=
  ⟨rfl, fun h => absurd h.1 (by decide)⟩

end Czmq.MessageFile
