import Mathlib.Data.List.DropRight
import ZeroMQ.Czmq.Forests
import ZeroMQ.Czmq.Zhash

/-!
# Configurations of CZMQ

A configuration is a tree of items with names and values. It is saved as text, one line for an item, indented by
its depth, and loaded from such a text. Saving goes over the tree twice: first it adds up the sizes of the lines
in an `int`, then it appends the lines to a chunk of that size. Loading copies each line into a buffer of 1024
characters.
-/

namespace Czmq

/-! ### Characters -/

def newline : UInt8 := 10
def space : UInt8 := 32
def quote : UInt8 := 34
def hashSign : UInt8 := 35
def apost : UInt8 := 39
def slash : UInt8 := 47
def equals : UInt8 := 61

/-- `isspace`. -/
def isSpace (c : UInt8) : Bool := c = space || (9 ≤ c && c ≤ 13)

/-- `isalnum`. -/
def isAlnum (c : UInt8) : Bool := (48 ≤ c && c ≤ 57) || (65 ≤ c && c ≤ 90) || (97 ≤ c && c ≤ 122)

/-- `s_is_namechar`: a letter, a digit or one of `$-_@.&+/`. -/
def isNamechar (c : UInt8) : Bool :=
  isAlnum c || c = 36 || c = 45 || c = 95 || c = 64 || c = 46 || c = 38 || c = 43 || c = slash

/-- White space at the end of a string is removed. -/
def trimEnd (l : List UInt8) : List UInt8 := l.rdropWhile isSpace

/-! ### State -/

/-- What is in a `zconfig_t`, without its pointers. -/
structure ConfigItem where
  name : Option CString
  value : Option CString
  comments : List CString
  deriving DecidableEq

/-- `zconfig_t`, with its children. -/
structure Zconfig where
  self : ConfigItem
  child : Forest ConfigItem
  deriving DecidableEq

/-- `zchunk_t`; `Chunks.Zchunk` has the memory behind `size` too. -/
structure Zchunk where
  maxSize : ℕ
  /-- `data`, as much of it as `size` says. -/
  data : List UInt8
  size_le : data.length ≤ maxSize
  deriving DecidableEq

/-- What goes wrong. -/
inductive ConfigFault
  /-- The value of an `int` would be too large. -/
  | overflow
  /-- Memory behind the chunk is read. -/
  | overread
  /-- A loop does not end. -/
  | endless
  deriving DecidableEq, Repr

/-- `zchunk_new` without data. -/
def Zchunk.new (size : ℕ) : Zchunk := ⟨size, [], Nat.zero_le _⟩

/-- `zchunk_append`. -/
def Zchunk.append (self : Zchunk) (data : List UInt8) : Zchunk :=
  ⟨self.maxSize, self.data ++ data.take (self.maxSize - self.data.length), by
    have hle := self.size_le
    rw [List.length_append, List.length_take]
    omega⟩

namespace Zconfig

/-! ### Saving -/

/-- `s_config_printf` of a string that has been formatted, with its size. -/
def printf (arg : Option Zchunk) (string : List UInt8) : Except ConfigFault (ℕ × Option Zchunk) :=
  if 2 ^ 31 ≤ string.length then .error .overflow
  else .ok (string.length, arg.map fun chunk => chunk.append string)

/-- `size += rc`. -/
def addSize (size rc : ℕ) : Except ConfigFault ℕ :=
  if 2 ^ 31 ≤ size + rc then .error .overflow else .ok (size + rc)

/-- `"#%s\n"`. -/
def commentLine (comment : CString) : List UInt8 := hashSign :: comment.bytes

/-- `"%*s%s = \"%s\"\n"` or `"%*s%s\n"`, without the end of the line. -/
def itemLine (item : ConfigItem) (level : ℕ) : List UInt8 :=
  let name := match item.name with
    | some name => name.bytes
    | none => [40, 85, 110, 110, 97, 109, 101, 100, 41]
  List.replicate ((level - 1) * 4) space ++ name ++
    match item.value with
    | some value => [space, equals, space, quote] ++ value.bytes ++ [quote]
    | none => []

/-- The loop of `s_config_save`, with the size so far. -/
def saveComments : List CString → ℕ → Option Zchunk → Except ConfigFault (ℕ × Option Zchunk)
  | [], size, arg => .ok (size, arg)
  | comment :: rest, size, arg => do
    let (rc, arg) ← printf arg (commentLine comment ++ [newline])
    let size ← addSize size rc
    saveComments rest size arg

/-- `s_config_save`: the comments, with an empty line behind them. -/
def saveCommentsOf (item : ConfigItem) (arg : Option Zchunk) : Except ConfigFault (ℕ × Option Zchunk) :=
  if item.comments = [] then .ok (0, arg)
  else do
    let (size, arg) ← saveComments item.comments 0 arg
    let (rc, arg) ← printf arg [newline]
    let size ← addSize size rc
    .ok (size, arg)

/-- `s_config_save`. -/
def configSave (item : ConfigItem) (arg : Option Zchunk) (level : ℕ) : Except ConfigFault (ℕ × Option Zchunk) := do
  let (size, arg) ← saveCommentsOf item arg
  if level > 0 then do
    let (rc, arg) ← printf arg (itemLine item level ++ [newline])
    let size ← addSize size rc
    .ok (size, arg)
  else .ok (size, arg)

/-- The loop of `s_config_execute` over children, with the size so far; every child is executed with its own. -/
def executeChildren : Forest ConfigItem → Option Zchunk → ℕ → ℕ → Except ConfigFault (ℕ × Option Zchunk)
  | .null, arg, _, size => .ok (size, arg)
  | .item item child next, arg, level, size => do
    let (rc, arg) ← configSave item arg level
    let (rc, arg) ← executeChildren child arg (level + 1) rc
    let size ← addSize size rc
    executeChildren next arg level size

/-- `s_config_execute` with the handler `s_config_save`. -/
def execute (self : Zconfig) (arg : Option Zchunk) (level : ℕ) : Except ConfigFault (ℕ × Option Zchunk) := do
  let (size, arg) ← configSave self.self arg level
  executeChildren self.child arg (level + 1) size

/-- `zconfig_chunk_save`. -/
def chunkSave (self : Zconfig) : Except ConfigFault Zchunk := do
  let (size, _) ← self.execute none 0
  let chunk := Zchunk.new size
  let (_, arg) ← self.execute (some chunk) 0
  .ok (arg.getD chunk)

/-! ### Reading a line -/

/-- `s_collect_level`, with what is left of the line. -/
def collectLevel (line : List UInt8) : Option (ℕ × List UInt8) :=
  let blanks := (line.takeWhile (· = space)).length
  let level := blanks / 4
  if level * 4 ≠ blanks then none else some (level, line.dropWhile (· = space))

/-- `s_collect_name`, with what is left of the line. -/
def collectName (line : List UInt8) : Option (List UInt8 × List UInt8) :=
  let name := line.takeWhile isNamechar
  if name.head? = some slash ∨ name.getLast? = some slash then none else some (name, line.dropWhile isNamechar)

/-- `s_verify_eoln`: whether there is nothing but white space and a comment. -/
def verifyEoln : List UInt8 → Bool
  | [] => true
  | c :: rest => if isSpace c then verifyEoln rest else c = hashSign

/-- An unquoted value, up to a comment and without the white space before it. If the value starts with the comment
and there is white space before, it is cut there, which is before the value. -/
def collectUnquoted (blank : Bool) (line : List UInt8) : List UInt8 :=
  match line.dropWhile (· ≠ hashSign) with
  | [] => line
  | _ => if blank ∧ line.head? = some hashSign then line else trimEnd (line.takeWhile (· ≠ hashSign))

/-- `s_collect_value`. -/
def collectValue (line : List UInt8) : Option (List UInt8) :=
  match line.dropWhile isSpace with
  | [] => some []
  | c :: rest =>
    if c = equals then
      let blank := decide (rest.takeWhile isSpace ≠ [])
      match rest.dropWhile isSpace with
      | [] => some []
      | q :: inside =>
        if q = quote ∨ q = apost then
          match inside.dropWhile (· ≠ q) with
          | [] => none
          | _ :: after => if verifyEoln after then some (inside.takeWhile (· ≠ q)) else none
        else some (collectUnquoted blank (q :: inside))
    else if verifyEoln (c :: rest) then some []
    else none

/-- What a line says: nothing, or that there is an item on some level. It may also be wrong. -/
def parseLine (line : List UInt8) : Option (Option (ℕ × ConfigItem)) := do
  let (level, line) ← collectLevel line
  let (name, line) ← collectName line
  if name ≠ [] then do
    let value ← collectValue line
    some (some (level, ⟨some (.ofBytes name), some (.ofBytes value), []⟩))
  else if verifyEoln line then some none
  else none

/-! ### Loading -/

/-- The line in the buffer: `cur_line`, trimmed. -/
def curLine (line : List UInt8) : List UInt8 := trimEnd (line.takeWhile (· ≠ 0))

/-- One turn of the loop of `zconfig_chunk_load`, when the line is in the buffer: a comment is collected, and an item
is attached to the last one above it. -/
def loadLine (self : Zconfig) (line : List UInt8) : Option Zconfig :=
  let line := curLine line
  let self : Zconfig := if line.head? = some hashSign then
    { self with self := { self.self with comments := self.self.comments ++ [.ofBytes line.tail] } } else self
  match parseLine line with
  | none => none
  | some none => some self
  | some (some (level, item)) => (self.child.attach item level).map fun child => { self with child }

/-- The loop of `zconfig_chunk_load`, with the bytes from `data_ptr` to the end of the chunk and how many remain to
be read; there is nothing behind a null pointer. -/
def loadLoop : ℕ → List UInt8 → ℕ → Zconfig → Except ConfigFault (Option Zconfig)
  | 0, _, remaining, self => if remaining = 0 then .ok (some self) else .error .endless
  | fuel + 1, data, remaining, self =>
    if remaining = 0 then .ok (some self)
    else
      let line := (data.take remaining).takeWhile (· ≠ newline)
      let eoln : Bool := line.length < min remaining data.length
      if ¬ eoln ∧ data.length < remaining then .error .overread
      else
        let curSize := min line.length 1024
        match self.loadLine (line.take curSize) with
        | none => .ok none
        | some self =>
          loadLoop fuel (if eoln then data.drop (line.length + 1) else [])
            (remaining - (curSize + if eoln then 1 else 0)) self

/-- `zconfig_new ("root", NULL)`. -/
def root : Zconfig := ⟨⟨some ⟨[114, 111, 111, 116], by decide⟩, none, []⟩, .null⟩

/-- `zconfig_chunk_load`; if there is an error, nothing is returned. -/
def chunkLoad (chunk : Zchunk) : Except ConfigFault (Option Zconfig) :=
  loadLoop chunk.data.length chunk.data chunk.data.length root

end Zconfig

end Czmq
