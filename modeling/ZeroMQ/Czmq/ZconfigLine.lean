import ZeroMQ.Czmq.Zconfig

/-!
# What a line says

The line that is printed for an item says that there is this item, unless its value has a quote: such a line is wrong
or says another value. A line says nothing when it is blank, or when what comes behind white space is a comment and
the spaces at its start are those of a level.
-/

namespace Czmq

open List Option

/-! ### Characters -/

lemma isSpace_eq_false_of_isNamechar {c : UInt8} (h : isNamechar c = true) : isSpace c = false := by
  have hall : ∀ n : Fin 256, isNamechar (.ofFin n) = true → isSpace (.ofFin n) = false := by decide +kernel
  exact hall c.toFin h

lemma isNamechar_newline : isNamechar newline = false := by decide

lemma isNamechar_space : isNamechar space = false := by decide

lemma isNamechar_hashSign : isNamechar hashSign = false := by decide

lemma CString.ofBytes_bytes (s : CString) : ofBytes s.bytes = s := by
  obtain ⟨bytes, hzero⟩ := s
  have htake : bytes.takeWhile (· ≠ 0) = bytes :=
    takeWhile_eq_self_iff.mpr fun c hc => decide_eq_true fun h0 => hzero (h0 ▸ hc)
  simp only [ofBytes, htake]

/-! ### Scanning -/

/-- A scan of characters with a property stops at once. -/
def Stops (p : UInt8 → Bool) (line : List UInt8) : Prop := ∀ c ∈ line.head?, p c = false

lemma Stops.nil (p : UInt8 → Bool) : Stops p [] := fun c hc => (by cases hc)

lemma Stops.cons {p : UInt8 → Bool} {c : UInt8} (h : p c = false) (line : List UInt8) : Stops p (c :: line) := by
  intro d hd
  obtain rfl := some.inj hd
  exact h

lemma Stops.takeWhile {p : UInt8 → Bool} {line : List UInt8} (h : Stops p line) : line.takeWhile p = [] := by
  cases line with
  | nil => rfl
  | cons c line => exact takeWhile_cons_of_neg (by simp [h c rfl])

lemma Stops.dropWhile {p : UInt8 → Bool} {line : List UInt8} (h : Stops p line) : line.dropWhile p = line := by
  cases line with
  | nil => rfl
  | cons c line => exact dropWhile_cons_of_neg (by simp [h c rfl])

lemma Stops.takeWhile_append {p : UInt8 → Bool} {a line : List UInt8} (h : Stops p line) (ha : ∀ c ∈ a, p c = true) :
    (a ++ line).takeWhile p = a := by
  rw [takeWhile_append_of_pos ha, h.takeWhile, append_nil]

lemma Stops.dropWhile_append {p : UInt8 → Bool} {a line : List UInt8} (h : Stops p line) (ha : ∀ c ∈ a, p c = true) :
    (a ++ line).dropWhile p = line := by
  rw [dropWhile_append_of_pos ha, h.dropWhile]

lemma trimEnd_append_cons (a : List UInt8) {c : UInt8} (r : List UInt8) (hc : isSpace c = false) :
    trimEnd (a ++ c :: r) = a ++ c :: trimEnd r := by
  induction r using reverseRecOn with
  | nil => exact rdropWhile_concat_neg isSpace a c (by simp [hc])
  | append_singleton r d ih =>
    have hassoc : a ++ c :: (r ++ [d]) = (a ++ c :: r) ++ [d] := by simp
    rw [hassoc, trimEnd, trimEnd, rdropWhile_concat, rdropWhile_concat]
    by_cases hd : isSpace d = true
    · rw [if_pos hd, if_pos hd]
      exact ih
    · rw [if_neg hd, if_neg hd]
      exact hassoc.symm

lemma curLine_eq {line : List UInt8} (h : 0 ∉ line) : Zconfig.curLine line = trimEnd line := by
  have htake : line.takeWhile (· ≠ 0) = line :=
    takeWhile_eq_self_iff.mpr fun c hc => decide_eq_true fun h0 => h (h0 ▸ hc)
  rw [Zconfig.curLine, htake]

namespace Zconfig

/-! ### Lines that say nothing -/

lemma verifyEoln_iff (line : List UInt8) :
    verifyEoln line = true ↔ ∀ c ∈ (line.dropWhile isSpace).head?, c = hashSign := by
  induction line with
  | nil => exact ⟨fun _ c hc => (by cases hc), fun _ => rfl⟩
  | cons d line ih =>
    by_cases hd : isSpace d = true
    · rw [verifyEoln, if_pos hd, dropWhile_cons_of_pos hd]
      exact ih
    · rw [verifyEoln, if_neg hd, dropWhile_cons_of_neg hd, decide_eq_true_iff, head?_cons]
      exact ⟨fun h c hc => some.inj hc ▸ h, fun h => h d rfl⟩

lemma stops_of_verifyEoln {line : List UInt8} (h : verifyEoln line = true) : Stops isNamechar line := by
  intro c hc
  obtain ⟨rest, rfl⟩ : ∃ rest, line = c :: rest := head?_eq_some_iff.mp hc
  by_contra hname
  have hspace := isSpace_eq_false_of_isNamechar (Bool.eq_true_of_not_eq_false hname)
  have hhash := (verifyEoln_iff _).mp h c (by rw [dropWhile_cons_of_neg (by simp [hspace])]; rfl)
  rw [hhash] at hname
  exact hname isNamechar_hashSign

lemma dropWhile_isSpace_dropWhile (line : List UInt8) :
    (line.dropWhile (· = space)).dropWhile isSpace = line.dropWhile isSpace := by
  induction line with
  | nil => rfl
  | cons c line ih =>
    by_cases hc : c = space
    · rw [dropWhile_cons_of_pos (by simpa using hc), ih, dropWhile_cons_of_pos (by rw [hc]; decide)]
    · rw [dropWhile_cons_of_neg (by simpa using hc)]

lemma collectName_of_stops {line : List UInt8} (h : Stops isNamechar line) : collectName line = some ([], line) := by
  rw [collectName, h.takeWhile, h.dropWhile]
  rfl

lemma parseLine_eq_some_none_iff (line : List UInt8) : parseLine line = some none ↔
    4 ∣ (line.takeWhile (· = space)).length ∧ ∀ c ∈ (line.dropWhile isSpace).head?, c = hashSign := by
  rw [← dropWhile_isSpace_dropWhile, ← verifyEoln_iff, parseLine, collectLevel]
  by_cases hlevel : (line.takeWhile (· = space)).length / 4 * 4 = (line.takeWhile (· = space)).length
  · rw [if_neg (not_not.mpr hlevel), and_iff_right (Dvd.intro_left _ hlevel), bind_eq_bind, bind_some]
    dsimp only
    generalize line.dropWhile (· = space) = rest
    by_cases hstops : Stops isNamechar rest
    · rw [collectName_of_stops hstops, bind_eq_bind, bind_some]
      rw [if_neg (not_not.mpr rfl)]
      by_cases hverify : verifyEoln rest = true
      · rw [if_pos hverify]
        exact iff_of_true rfl hverify
      · rw [if_neg hverify]
        exact iff_of_false (by simp) hverify
    · refine iff_of_false (fun h => ?_) fun h => hstops (stops_of_verifyEoln h)
      obtain ⟨⟨name, after⟩, hname, h⟩ := bind_eq_some_iff.mp h
      have hne : name ≠ [] := by
        rintro rfl
        refine hstops fun c hc => ?_
        rw [collectName] at hname
        split at hname
        · cases hname
        obtain ⟨tail, rfl⟩ : ∃ tail, rest = c :: tail := head?_eq_some_iff.mp hc
        have htake := (Prod.mk.inj (some.inj hname)).1
        by_contra hc
        rw [takeWhile_cons_of_pos (Bool.eq_true_of_not_eq_false hc)] at htake
        cases htake
      rw [if_pos hne] at h
      obtain ⟨value, -, hvalue⟩ := bind_eq_some_iff.mp h
      cases hvalue
  · rw [if_pos hlevel]
    refine iff_of_false (fun h => by cases h) fun h => hlevel ?_
    exact Nat.div_mul_cancel h.1

/-- A line that says nothing: it is blank, or there is a comment behind white space and the spaces at the start are
those of a level. -/
def Silent (line : List UInt8) : Prop :=
  ∀ c ∈ (line.dropWhile isSpace).head?, c = hashSign ∧ 4 ∣ (line.takeWhile (· = space)).length

instance (line : List UInt8) : Decidable (Silent line) :=
  Option.decidableForallMem (line.dropWhile isSpace).head?

lemma parseLine_curLine_eq_some_none_iff {line : List UInt8} (hzero : 0 ∉ line) :
    parseLine (curLine line) = some none ↔ Silent line := by
  rw [curLine_eq hzero, parseLine_eq_some_none_iff, Silent]
  cases hdrop : line.dropWhile isSpace with
  | nil =>
    have htrim : trimEnd line = [] := rdropWhile_eq_nil_iff.mpr (dropWhile_eq_nil_iff.mp hdrop)
    rw [htrim]
    exact iff_of_true ⟨⟨0, rfl⟩, fun c hc => (by cases hc)⟩ fun c hc => (by cases hc)
  | cons c r =>
    have hc : isSpace c = false := by
      have hhead := head?_dropWhile_not isSpace line
      rw [hdrop] at hhead
      simpa using hhead
    have hline : line = line.takeWhile isSpace ++ c :: r := by
      rw [← hdrop, takeWhile_append_dropWhile]
    have hblank : ∀ d ∈ line.takeWhile isSpace, isSpace d = true := fun d hd => mem_takeWhile_imp hd
    have hspaces : ∀ r' : List UInt8, (line.takeWhile isSpace ++ c :: r').takeWhile (· = space) =
        (line.takeWhile isSpace).takeWhile (· = space) := by
      intro r'
      have hstops : Stops (· = space) (c :: r') := Stops.cons (by grind [isSpace]) r'
      rw [takeWhile_append, hstops.takeWhile, append_nil]
      split
      · next hall => exact (( takeWhile_prefix _).eq_of_length hall).symm
      · rfl
    have htrim : trimEnd line = line.takeWhile isSpace ++ c :: trimEnd r := by
      conv_lhs => rw [hline]
      exact trimEnd_append_cons _ r hc
    have hstart : (line.takeWhile (· = space)) = (line.takeWhile isSpace).takeWhile (· = space) := by
      conv_lhs => rw [hline]
      exact hspaces r
    have hfirst : ((trimEnd line).dropWhile isSpace).head? = some c := by
      rw [htrim, (Stops.cons hc (trimEnd r)).dropWhile_append hblank]
      rfl
    rw [hfirst, head?_cons, hstart, htrim, hspaces]
    constructor
    · rintro ⟨hlevel, hhash⟩ d hd
      exact ⟨hhash d hd, hlevel⟩
    · intro h
      exact ⟨(h c rfl).2, fun d hd => (h d hd).1⟩

/-! ### Lines of items -/

/-- A name that can be read: name characters, and no slash at either end. -/
structure IsName (name : CString) : Prop where
  nameChars : ∀ c ∈ name.bytes, isNamechar c = true
  head : name.bytes.head? ≠ some slash
  last : name.bytes.getLast? ≠ some slash

/-- What a quoted value looks like in a line. -/
def quoted (value : CString) : List UInt8 := [space, equals, space, quote] ++ value.bytes ++ [quote]

/-- What is in a line behind the name. -/
def valueText (item : ConfigItem) : List UInt8 :=
  match item.value with
  | some value => quoted value
  | none => []

variable {name : CString}

lemma itemLine_eq {item : ConfigItem} (h : item.name = some name) (level : ℕ) :
    itemLine item (level + 1) = replicate (level * 4) space ++ (name.bytes ++ valueText item) := by
  obtain ⟨itemName, value, comments⟩ := item
  obtain rfl : itemName = some name := h
  cases value <;> simp [itemLine, valueText, quoted]

lemma parseLine_named (hname : IsName name) (hne : name.bytes ≠ []) (level : ℕ)
    {rest : List UInt8} (hrest : Stops isNamechar rest) :
    parseLine (replicate (level * 4) space ++ (name.bytes ++ rest)) =
      (collectValue rest).map fun value => some (level, ⟨some name, some (.ofBytes value), []⟩) := by
  obtain ⟨c, tail, hbytes⟩ := exists_cons_of_ne_nil hne
  have hstops : Stops (· = space) (name.bytes ++ rest) := by
    rw [hbytes]
    refine Stops.cons (decide_eq_false fun hc => ?_) _
    have hchar := hname.nameChars c (by rw [hbytes]; exact mem_cons_self)
    rw [hc, isNamechar_space] at hchar
    cases hchar
  have hblank : ∀ d ∈ replicate (level * 4) space, decide (d = space) = true := fun d hd =>
    decide_eq_true (eq_of_mem_replicate hd)
  have hlevel : collectLevel (replicate (level * 4) space ++ (name.bytes ++ rest)) =
      some (level, name.bytes ++ rest) := by
    rw [collectLevel, hstops.takeWhile_append hblank, hstops.dropWhile_append hblank, length_replicate,
      Nat.mul_div_cancel level (by decide)]
    exact if_neg (not_not.mpr rfl)
  have hcollect : collectName (name.bytes ++ rest) = some (name.bytes, rest) := by
    rw [collectName, hrest.takeWhile_append hname.nameChars, hrest.dropWhile_append hname.nameChars]
    exact if_neg (not_or.mpr ⟨hname.head, hname.last⟩)
  rw [parseLine, hlevel, bind_eq_bind, bind_some]
  dsimp only
  rw [hcollect, bind_eq_bind, bind_some]
  rw [if_pos hne, CString.ofBytes_bytes]
  cases collectValue rest <;> rfl

lemma stops_valueText (item : ConfigItem) : Stops isNamechar (valueText item) := by
  rw [valueText]
  cases item.value with
  | none => exact Stops.nil _
  | some value => exact Stops.cons isNamechar_space _

lemma collectValue_quoted_eq (value : CString) : collectValue (quoted value) =
    match (value.bytes ++ [quote]).dropWhile (· ≠ quote) with
    | [] => none
    | _ :: after => if verifyEoln after then some ((value.bytes ++ [quote]).takeWhile (· ≠ quote)) else none := by
  have hdrop : (quoted value).dropWhile isSpace = equals :: space :: quote :: (value.bytes ++ [quote]) := by
    simp [quoted, isSpace, space, equals, quote]
  have hinside : (space :: quote :: (value.bytes ++ [quote])).dropWhile isSpace =
      quote :: (value.bytes ++ [quote]) := by
    simp [isSpace, space, quote]
  rw [collectValue, hdrop]
  dsimp only
  rw [if_pos rfl, hinside]
  refine (if_pos (.inl rfl)).trans ?_
  cases (value.bytes ++ [quote]).dropWhile (· ≠ quote) <;> rfl

lemma collectValue_quoted (value : CString) {value' : List UInt8} (h : collectValue (quoted value) = some value') :
    value' = (value.bytes ++ [quote]).takeWhile (· ≠ quote) := by
  rw [collectValue_quoted_eq] at h
  split at h
  · cases h
  · split at h
    · exact (some.inj h).symm
    · cases h

lemma collectValue_quoted_of_not_mem {value : CString} (h : quote ∉ value.bytes) :
    collectValue (quoted value) = some value.bytes := by
  have hstops : Stops (· ≠ quote) [quote] := Stops.cons (by decide) []
  have hbytes : ∀ c ∈ value.bytes, decide (c ≠ quote) = true := fun c hc => decide_eq_true fun hq => h (hq ▸ hc)
  rw [collectValue_quoted_eq, hstops.dropWhile_append hbytes, hstops.takeWhile_append hbytes]
  rfl

/-- What is read of an item: its name and its value, which is the empty one if there is none. -/
def loaded (item : ConfigItem) : ConfigItem := ⟨item.name, some (item.value.getD ⟨[], by decide⟩), []⟩

lemma curLine_itemLine {item : ConfigItem} (h : item.name = some name) (hname : IsName name)
    (hne : name.bytes ≠ []) (level : ℕ) : curLine (itemLine item (level + 1)) = itemLine item (level + 1) := by
  have hvalue : 0 ∉ valueText item := by
    rw [valueText]
    cases item.value with
    | none => exact not_mem_nil
    | some value => simpa [quoted, space, equals, quote] using value.noZero
  have hzero : 0 ∉ itemLine item (level + 1) := by
    rw [itemLine_eq h, mem_append, mem_append]
    rintro (h0 | h0 | h0)
    · exact absurd (eq_of_mem_replicate h0) (by decide)
    · exact name.noZero h0
    · exact hvalue h0
  obtain ⟨start, c, hc, hline⟩ : ∃ start c, isSpace c = false ∧ itemLine item (level + 1) = start ++ [c] := by
    rw [itemLine_eq h, valueText]
    cases item.value with
    | some value => exact ⟨replicate (level * 4) space ++ (name.bytes ++
        ([space, equals, space, quote] ++ value.bytes)), quote, by decide, by simp [quoted]⟩
    | none =>
      have hlast := dropLast_append_getLast hne
      refine ⟨replicate (level * 4) space ++ name.bytes.dropLast, name.bytes.getLast hne, ?_, ?_⟩
      · exact isSpace_eq_false_of_isNamechar (hname.nameChars _ (getLast_mem hne))
      · rw [append_nil, append_assoc, hlast]
  rw [curLine_eq hzero, hline, trimEnd_append_cons start [] hc]
  rfl

lemma parseLine_itemLine {item : ConfigItem} (h : item.name = some name) (hname : IsName name)
    (hne : name.bytes ≠ []) (level : ℕ) : parseLine (curLine (itemLine item (level + 1))) =
      (collectValue (valueText item)).map fun value => some (level, ⟨some name, some (.ofBytes value), []⟩) := by
  rw [curLine_itemLine h hname hne, itemLine_eq h, parseLine_named hname hne level (stops_valueText item)]

lemma parseLine_itemLine_ne {item : ConfigItem} (h : item.name = some name) (hname : IsName name)
    (hne : name.bytes ≠ []) (level : ℕ) : parseLine (curLine (itemLine item (level + 1))) ≠ some none := by
  rw [parseLine_itemLine h hname hne]
  intro hnone
  obtain ⟨value, -, hvalue⟩ := map_eq_some_iff.mp hnone
  cases hvalue

lemma parseLine_itemLine_iff {item : ConfigItem} (h : item.name = some name) (hname : IsName name)
    (hne : name.bytes ≠ []) (level : ℕ) :
    parseLine (curLine (itemLine item (level + 1))) = some (some (level, loaded item)) ↔
      ∀ value ∈ item.value, quote ∉ value.bytes := by
  rw [parseLine_itemLine h hname hne, valueText, loaded, h]
  cases item.value with
  | none => exact iff_of_true rfl fun value hvalue => (by cases hvalue)
  | some value =>
    rw [getD_some]
    constructor
    · intro hread value1 hvalue1 hquote
      obtain rfl := some.inj hvalue1
      obtain ⟨value', hvalue', heq⟩ := map_eq_some_iff.mp hread
      have hbytes : CString.ofBytes value' = value := by simpa using heq
      have hmem : quote ∈ value' := by
        rw [← hbytes] at hquote
        exact takeWhile_subset _ hquote
      rw [collectValue_quoted value hvalue'] at hmem
      simpa using mem_takeWhile_imp hmem
    · intro hquote
      rw [collectValue_quoted_of_not_mem (hquote value rfl), map_some, CString.ofBytes_bytes]

lemma name_of_parseLine {line : List UInt8} {level : ℕ} {item : ConfigItem}
    (h : parseLine line = some (some (level, item))) : ∃ name : CString, item.name = some name ∧ name.bytes ≠ [] := by
  obtain ⟨⟨level', rest⟩, -, h⟩ := bind_eq_some_iff.mp h
  obtain ⟨⟨name, after⟩, hname, h⟩ := bind_eq_some_iff.mp h
  dsimp only at h
  split at h
  · next hne =>
    obtain ⟨value, -, hvalue⟩ := bind_eq_some_iff.mp h
    obtain ⟨-, rfl⟩ : level = level' ∧ item = ⟨some (.ofBytes name), some (.ofBytes value), []⟩ := by
      simpa using (some.inj hvalue).symm
    refine ⟨.ofBytes name, rfl, ?_⟩
    rw [collectName] at hname
    split at hname
    · cases hname
    obtain rfl : rest.takeWhile isNamechar = name := (Prod.mk.inj (some.inj hname)).1
    obtain ⟨c, tail, htake⟩ := exists_cons_of_ne_nil hne
    have hc : isNamechar c = true := mem_takeWhile_imp (htake ▸ mem_cons_self)
    have hc0 : c ≠ 0 := by
      rintro rfl
      cases hc
    rw [htake, CString.ofBytes]
    simp [takeWhile_cons_of_pos, hc0]
  · split at h <;> cases h

end Zconfig

end Czmq
