import ZeroMQ.Czmq.ZconfigLoad

/-!
# Where a chunk is read

The loop of `zconfig_chunk_load` moves its pointer behind the whole line, and counts what fits into the buffer as
read. After a line that does not fit it counts more bytes than there are, or has a null pointer. It goes on then
if the part of the line in the buffer is accepted.
-/

namespace Czmq.Zconfig

open List Nat

/-- The lines of a chunk; the last one may lack its newline. -/
def chunkLines : List UInt8 → List (List UInt8)
  | [] => []
  | c :: data =>
    if c = newline then [] :: chunkLines data
    else
      match chunkLines data with
      | [] => [[c]]
      | line :: lines => (c :: line) :: lines

/-- The turns of the loop: the bytes from `data_ptr` to the end of the chunk, how many remain to be read, and the
line. -/
def turns : ℕ → List UInt8 → ℕ → Zconfig → List (List UInt8 × ℕ × List UInt8)
  | 0, _, _, _ => []
  | fuel + 1, data, remaining, self =>
    if remaining = 0 then []
    else
      let line := (data.take remaining).takeWhile (· ≠ newline)
      let eoln : Bool := line.length < min remaining data.length
      let curSize := min line.length 1024
      (data, remaining, line) ::
        match self.loadLine (line.take curSize) with
        | none => []
        | some self =>
          turns fuel (if eoln then data.drop (line.length + 1) else [])
            (remaining - (curSize + if eoln then 1 else 0)) self

/-- No line that does not fit into the buffer is accepted before a line is rejected. -/
def Fits : Zconfig → List (List UInt8) → Prop
  | _, [] => True
  | self, line :: lines =>
    ∀ self', self.loadLine (line.take 1024) = some self' → line.length ≤ 1024 ∧ Fits self' lines

/-- The chunk is read inside and line by line: as many bytes remain as there are, the lines are those of the chunk,
and what is loaded is what they say. -/
structure ReadInside (fuel : ℕ) (data : List UInt8) (config : Zconfig) : Prop where
  inside : ∀ t ∈ turns fuel data data.length config, t.2.1 = t.1.length
  lines : (turns fuel data data.length config).map (fun t => t.2.2) <+: chunkLines data
  result : loadLoop fuel data data.length config = .ok (config.loadLines ((chunkLines data).map (·.take 1024)))

lemma chunkLines_of_ne_nil {data : List UInt8} (h : data ≠ []) : chunkLines data =
    data.takeWhile (· ≠ newline) :: chunkLines (data.drop ((data.takeWhile (· ≠ newline)).length + 1)) := by
  induction data with
  | nil => exact absurd rfl h
  | cons c data ih =>
    by_cases hc : c = newline
    · rw [chunkLines, if_pos hc, takeWhile_cons_of_neg (by simp [hc])]
      rfl
    rw [chunkLines, if_neg hc, takeWhile_cons_of_pos (by simp [hc])]
    by_cases hnil : data = []
    · subst hnil
      rfl
    · rw [ih hnil]
      rfl

lemma turn_eq {fuel : ℕ} {data : List UInt8} (h : data ≠ []) (self : Zconfig) :
    ∃ line rest, chunkLines data = line :: chunkLines rest ∧ rest.length < data.length ∧
      line.length ≤ data.length ∧
      turns (fuel + 1) data data.length self = (data, data.length, line) ::
        (self.loadLine (line.take 1024)).elim [] (turns fuel rest (rest.length + (line.length - 1024))) ∧
      loadLoop (fuel + 1) data data.length self =
        (self.loadLine (line.take 1024)).elim (.ok none) (loadLoop fuel rest (rest.length + (line.length - 1024))) := by
  have hpos := length_pos_iff.2 h
  obtain ⟨line, hline⟩ : ∃ line, line = data.takeWhile (· ≠ newline) := ⟨_, rfl⟩
  have hle : line.length ≤ data.length := hline ▸ (takeWhile_sublist _).length_le
  have htake : line.take (min line.length 1024) = line.take 1024 := by
    rw [min_comm, ← take_take, take_length]
  have hrest : (if line.length < data.length then data.drop (line.length + 1) else []) = data.drop (line.length + 1) := by
    split_ifs with hlt
    · rfl
    · exact (drop_eq_nil_of_le (by omega)).symm
  have hremaining : data.length - (min line.length 1024 + if line.length < data.length then 1 else 0) =
      (data.drop (line.length + 1)).length + (line.length - 1024) := by
    rw [length_drop]
    split_ifs <;> omega
  refine ⟨line, data.drop (line.length + 1), hline ▸ chunkLines_of_ne_nil h, ?_, hle, ?_, ?_⟩
  · rw [length_drop]
    omega
  · rw [turns, if_neg (by omega), take_length, ← hline]
    simp only [min_self, decide_eq_true_eq, hrest, hremaining, htake]
    cases self.loadLine (line.take 1024) <;> rfl
  · rw [loadLoop, if_neg (by omega), take_length, ← hline]
    simp only [min_self, decide_eq_true_eq, lt_irrefl, and_false, if_false, hrest, hremaining, htake]
    cases self.loadLine (line.take 1024) <;> rfl

lemma readInside_of_fits {fuel : ℕ} {data : List UInt8} (hfuel : data.length ≤ fuel) {self : Zconfig}
    (h : Fits self (chunkLines data)) : ReadInside fuel data self := by
  induction fuel generalizing data self with
  | zero =>
    obtain rfl := length_eq_zero_iff.1 (Nat.le_zero.1 hfuel)
    exact ⟨fun t ht => absurd ht not_mem_nil, nil_prefix, rfl⟩
  | succ fuel ih =>
    by_cases hnil : data = []
    · subst hnil
      exact ⟨fun t ht => absurd ht not_mem_nil, nil_prefix, rfl⟩
    obtain ⟨line, rest, hlines, hlt, -, hturns, hloop⟩ := @turn_eq fuel data hnil self
    rw [hlines] at h
    cases hload : self.loadLine (line.take 1024) with
    | none =>
      rw [hload, Option.elim_none] at hturns hloop
      refine ⟨fun t ht => ?_, ?_, ?_⟩
      · rw [hturns, mem_singleton] at ht
        rw [ht]
      · rw [hturns, hlines]
        exact prefix_append [line] _
      · rw [hloop, hlines, map_cons, loadLines, foldlM_cons, hload]
        rfl
    | some self' =>
      obtain ⟨hshort, hfits⟩ := h self' hload
      have hread := ih (by omega) hfits
      rw [hload, Nat.sub_eq_zero_of_le hshort] at hturns hloop
      refine ⟨fun t ht => ?_, ?_, ?_⟩
      · rw [hturns, mem_cons] at ht
        obtain rfl | ht := ht
        · rfl
        · exact hread.inside t ht
      · rw [hturns, hlines]
        exact (cons_prefix_cons).2 ⟨rfl, hread.lines⟩
      · rw [hlines, map_cons, loadLines, foldlM_cons, hload]
        exact hloop.trans hread.result

lemma fits_of_inside {fuel : ℕ} {data : List UInt8} (hfuel : data.length ≤ fuel) {self : Zconfig}
    (h : ∀ t ∈ turns fuel data data.length self, t.2.1 = t.1.length) : Fits self (chunkLines data) := by
  induction fuel generalizing data self with
  | zero =>
    obtain rfl := length_eq_zero_iff.1 (Nat.le_zero.1 hfuel)
    trivial
  | succ fuel ih =>
    by_cases hnil : data = []
    · subst hnil
      trivial
    obtain ⟨line, rest, hlines, hlt, hle, hturns, -⟩ := @turn_eq fuel data hnil self
    rw [hlines]
    intro self' hload
    rw [hturns, hload] at h
    have hrest (t) (ht : t ∈ turns fuel rest (rest.length + (line.length - 1024)) self') : t.2.1 = t.1.length :=
      h t (mem_cons_of_mem _ ht)
    by_cases hshort : line.length ≤ 1024
    · rw [Nat.sub_eq_zero_of_le hshort] at hrest
      exact ⟨hshort, ih (by omega) hrest⟩
    obtain ⟨fuel, rfl⟩ := Nat.exists_eq_add_one_of_ne_zero (show fuel ≠ 0 by omega)
    rw [turns, if_neg (by omega)] at hrest
    have hfirst := hrest _ mem_cons_self
    dsimp only at hfirst
    omega

/-- **A chunk is read inside if and only if no line of more than 1024 bytes is accepted** before a line is
rejected. -/
theorem zconfig_reads_inside_iff (chunk : Zchunk) :
    ReadInside chunk.data.length chunk.data root ↔ Fits root (chunkLines chunk.data) :=
  ⟨fun h => fits_of_inside le_rfl h.inside, fun h => readInside_of_fits le_rfl h⟩

/-- A name of 1025 characters without a newline: the pointer is null, and one byte remains. -/
theorem zconfig_reads_outside :
    chunkLoad ((Zchunk.new 1025).append (replicate 1025 97)) = .error .overread := by
  decide +kernel

end Czmq.Zconfig
