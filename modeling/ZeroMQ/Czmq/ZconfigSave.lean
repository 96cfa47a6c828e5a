import ZeroMQ.Czmq.Zconfig

/-!
# What is saved

The text of a configuration is that of its lines: for every item, in preorder, its comments, an empty line if there
are any, and the line of the item. Saving writes this text and nothing else, into a chunk that has exactly its
size, as long as the size is that of an `int`.
-/

namespace Czmq

open List Nat

/-! ### Chunks -/

lemma Zchunk.ext_data {chunk chunk' : Zchunk} (hmax : chunk.maxSize = chunk'.maxSize)
    (hdata : chunk.data = chunk'.data) : chunk = chunk' := by
  obtain ⟨maxSize, data, hle⟩ := chunk
  obtain ⟨maxSize', data', hle'⟩ := chunk'
  obtain rfl : maxSize = maxSize' := hmax
  obtain rfl : data = data' := hdata
  rfl

lemma Zchunk.data_append (chunk : Zchunk) (data : List UInt8) :
    (chunk.append data).data = chunk.data ++ data.take (chunk.maxSize - chunk.data.length) := rfl

lemma Zchunk.append_nil (chunk : Zchunk) : chunk.append [] = chunk :=
  ext_data rfl (by rw [data_append, List.take_nil, List.append_nil])

lemma Zchunk.append_append (chunk : Zchunk) (a b : List UInt8) :
    (chunk.append a).append b = chunk.append (a ++ b) := by
  refine ext_data rfl ?_
  have hmax : (chunk.append a).maxSize = chunk.maxSize := rfl
  have hroom : chunk.maxSize - (chunk.data.length + min (chunk.maxSize - chunk.data.length) a.length) =
      chunk.maxSize - chunk.data.length - a.length := by omega
  simp only [data_append, hmax, length_append, length_take, append_assoc, take_append, hroom]

lemma Zchunk.append_new (data : List UInt8) : (new data.length).append data = ⟨data.length, data, le_rfl⟩ :=
  ext_data rfl take_length

namespace Zconfig

/-! ### Text -/

/-- The lines of an item on some level. -/
def entryLines (e : ℕ × ConfigItem) : List (List UInt8) :=
  e.2.comments.map commentLine ++ (if e.2.comments = [] then [] else [[]]) ++
    if e.1 > 0 then [itemLine e.2 e.1] else []

/-- The text of lines. -/
def textOf (lines : List (List UInt8)) : List UInt8 := lines.flatMap fun line => line ++ [newline]

lemma textOf_append (a b : List (List UInt8)) : textOf (a ++ b) = textOf a ++ textOf b := flatMap_append

lemma textOf_singleton (line : List UInt8) : textOf [line] = line ++ [newline] := flatMap_singleton _ _

/-- The lines of a configuration. -/
def lines (self : Zconfig) : List (List UInt8) :=
  entryLines (0, self.self) ++ (self.child.preorder 1).flatMap entryLines

/-! ### Writing -/

/-- A text has been written, behind others with a size so far. -/
def wrote (arg : Option Zchunk) (size : ℕ) (text : List UInt8) : Except ConfigFault (ℕ × Option Zchunk) :=
  if 2 ^ 31 ≤ size + text.length then .error .overflow
  else .ok (size + text.length, arg.map fun chunk => chunk.append text)

lemma wrote_nil (arg : Option Zchunk) {size : ℕ} (h : size < 2 ^ 31) : wrote arg size [] = .ok (size, arg) := by
  have harg : (arg.map fun chunk => chunk.append []) = arg := by
    cases arg with
    | none => rfl
    | some chunk => exact congrArg some chunk.append_nil
  rw [wrote, harg, length_nil, add_zero, if_neg (by omega)]

lemma printf_eq (arg : Option Zchunk) (string : List UInt8) : printf arg string = wrote arg 0 string := by
  rw [printf, wrote, zero_add]

lemma wrote_bind (arg : Option Zchunk) (size : ℕ) (a b : List UInt8)
    {f : ℕ × Option Zchunk → Except ConfigFault (ℕ × Option Zchunk)}
    (hf : ∀ n arg', n < 2 ^ 31 → f (n, arg') = wrote arg' n b) : wrote arg size a >>= f = wrote arg size (a ++ b) := by
  rw [wrote]
  by_cases hlarge : 2 ^ 31 ≤ size + a.length
  · rw [if_pos hlarge, wrote, if_pos (by rw [length_append]; omega)]
    rfl
  have harg : ((arg.map fun chunk => chunk.append a).map fun chunk => chunk.append b) =
      arg.map fun chunk => chunk.append (a ++ b) := by
    cases arg with
    | none => rfl
    | some chunk => exact congrArg some (chunk.append_append a b)
  rw [if_neg hlarge]
  refine (hf _ _ (by omega)).trans ?_
  rw [wrote, wrote, harg, length_append, add_assoc]

lemma wrote_add (arg : Option Zchunk) (size : ℕ) (a : List UInt8)
    (f : ℕ × Option Zchunk → Except ConfigFault (ℕ × Option Zchunk)) :
    (wrote arg 0 a >>= fun r => addSize size r.1 >>= fun n => f (n, r.2)) = wrote arg size a >>= f := by
  rw [wrote, wrote, zero_add]
  by_cases hlarge : 2 ^ 31 ≤ a.length
  · rw [if_pos hlarge, if_pos (by omega)]
    rfl
  rw [if_neg hlarge]
  simp only [bind, Except.bind, addSize]
  by_cases hsum : 2 ^ 31 ≤ size + a.length
  · rw [if_pos hsum, if_pos hsum]
  · rw [if_neg hsum, if_neg hsum]

lemma saveComments_eq (comments : List CString) {size : ℕ} (arg : Option Zchunk) (hsize : size < 2 ^ 31) :
    saveComments comments size arg = wrote arg size (textOf (comments.map commentLine)) := by
  induction comments generalizing size arg with
  | nil => exact (wrote_nil arg hsize).symm
  | cons comment rest ih =>
    have hline : textOf ((comment :: rest).map commentLine) =
        (commentLine comment ++ [newline]) ++ textOf (rest.map commentLine) := rfl
    rw [hline]
    refine Eq.trans ?_ (wrote_bind (f := fun r => saveComments rest r.1 r.2) arg size _ _ fun n arg' hn => ih arg' hn)
    rw [← wrote_add, ← printf_eq]
    rfl

lemma printf_add (arg : Option Zchunk) (string : List UInt8) {size : ℕ} :
    (do
      let (rc, arg) ← printf arg string
      let size ← addSize size rc
      .ok (size, arg)) = wrote arg size string := by
  have hadd := wrote_add arg size string .ok
  rw [← printf_eq] at hadd
  refine hadd.trans ?_
  cases wrote arg size string <;> rfl

lemma configSave_eq (item : ConfigItem) (arg : Option Zchunk) (level : ℕ) :
    configSave item arg level = wrote arg 0 (textOf (entryLines (level, item))) := by
  have hcomments : saveCommentsOf item arg =
      wrote arg 0 (textOf (item.comments.map commentLine ++ if item.comments = [] then [] else [[]])) := by
    rw [saveCommentsOf]
    by_cases hnil : item.comments = []
    · rw [if_pos hnil, if_pos hnil, hnil]
      exact (wrote_nil arg (by decide)).symm
    · rw [if_neg hnil, if_neg hnil, textOf_append, saveComments_eq item.comments arg (by decide)]
      exact wrote_bind arg 0 _ _ fun n arg' _ => printf_add arg' [newline]
  rw [configSave, entryLines, textOf_append, hcomments]
  refine wrote_bind arg 0 _ _ fun n arg' hn => ?_
  dsimp only
  by_cases hlevel : level > 0
  · rw [if_pos hlevel, if_pos hlevel, textOf_singleton]
    exact printf_add arg' _
  · rw [if_neg hlevel, if_neg hlevel]
    exact (wrote_nil arg' hn).symm

lemma executeChildren_eq (child : Forest ConfigItem) (arg : Option Zchunk) (level : ℕ) {size : ℕ}
    (hsize : size < 2 ^ 31) :
    executeChildren child arg level size = wrote arg size (textOf ((child.preorder level).flatMap entryLines)) := by
  induction child generalizing arg level size with
  | null => exact (wrote_nil arg hsize).symm
  | item x child next ihChild ihNext =>
    have htext : textOf (((Forest.item x child next).preorder level).flatMap entryLines) =
        (textOf (entryLines (level, x)) ++ textOf ((child.preorder (level + 1)).flatMap entryLines)) ++
          textOf ((next.preorder level).flatMap entryLines) := by
      rw [Forest.preorder, flatMap_cons, flatMap_append, textOf_append, textOf_append, append_assoc]
    have hitem : (do
        let (rc, arg) ← configSave x arg level
        executeChildren child arg (level + 1) rc) =
        wrote arg 0 (textOf (entryLines (level, x)) ++ textOf ((child.preorder (level + 1)).flatMap entryLines)) := by
      rw [configSave_eq]
      exact wrote_bind arg 0 _ _ fun n arg' hn => ihChild arg' (level + 1) hn
    rw [htext]
    refine Eq.trans ?_ (wrote_bind (f := fun r => executeChildren next r.2 level r.1) arg size _ _
      fun n arg' hn => ihNext arg' level hn)
    rw [← wrote_add, ← hitem, executeChildren]
    cases configSave x arg level <;> rfl

lemma execute_eq (self : Zconfig) (arg : Option Zchunk) : self.execute arg 0 = wrote arg 0 (textOf self.lines) := by
  rw [execute, configSave_eq, lines, textOf_append]
  exact wrote_bind arg 0 _ _ fun n arg' hn => executeChildren_eq self.child arg' 1 hn

lemma chunkSave_eq (self : Zconfig) :
    self.chunkSave = if 2 ^ 31 ≤ (textOf self.lines).length then .error .overflow
      else .ok ⟨(textOf self.lines).length, textOf self.lines, le_rfl⟩ := by
  rw [chunkSave, execute_eq, wrote, zero_add]
  split
  · rfl
  next hlarge =>
  simp only [bind, Except.bind]
  rw [execute_eq, wrote, zero_add, if_neg hlarge]
  simp only [Option.map_some, Option.getD_some, Zchunk.append_new]

end Zconfig

end Czmq
