import ZeroMQ.Gds.LockTable
import Mathlib.Data.Prod.Lex
import Mathlib.Data.String.Basic

/-!
# The GDS project manager

`CProjectMsgManager` is a chain of processors. A message walks along the chain; a processor whose mask
has the bit of the message's type takes it, and the others pass it on. The two managers are links of the
chain like the others, each followed by the processors that were added to it, and pass every message on.

The database manager keeps the locks on rows and on tables, the file manager those on files. Both number
the users they hear of, each with a map of its own but from one counter, and the file manager numbers the
files. The counters are `int`s, which `State.Room` keeps from running over. `Lock` names what the users ask for, and `held` is what they have been granted and have not given
back, as the replies tell it.
-/

namespace Gds

open List Nat

/-! ### Messages -/

/-- `GDS_MSG_TYPE`, the types the processors deal with. -/
inductive MsgType
  | editDB | addDB | deleteDB | closeProjectDB | closeAllDB | editFile | readFile | editOptionFile
  deriving DecidableEq, Repr

/-- Each type has a bit of its own. -/
def MsgType.bit : MsgType → ℕ
  | .editDB => 8
  | .addDB => 9
  | .deleteDB => 10
  | .closeProjectDB => 11
  | .closeAllDB => 12
  | .editFile => 13
  | .readFile => 14
  | .editOptionFile => 15

/-- The value of a type, `0x1` shifted to its bit. -/
def MsgType.value (type : MsgType) : ℕ := 2 ^ type.bit

/-- `GDS_OPERATOR_TYPE`. -/
inductive OperatorType
  | null | lock | unlock
  deriving DecidableEq, Repr

/-- The types a `CMsgEditDB` is sent with. -/
inductive RowKind
  | edit | delete
  deriving DecidableEq, Repr

def RowKind.type : RowKind → MsgType
  | .edit => .editDB
  | .delete => .deleteDB

/-- The types a `CMsgFileBase` is sent with; the last is that of a `CMsgEditOption`. -/
inductive FileKind
  | edit | read | option
  deriving DecidableEq, Repr

def FileKind.type : FileKind → MsgType
  | .edit => .editFile
  | .read => .readFile
  | .option => .editOptionFile

/-- The types a `CMsgUUID` is sent with to the manager. -/
inductive CloseKind
  | project | all
  deriving DecidableEq, Repr

def CloseKind.type : CloseKind → MsgType
  | .project => .closeProjectDB
  | .all => .closeAllDB

/-- The messages, by class. -/
inductive Message
  /-- `CMsgEditDB` -/
  | editDB (iOperatorType : OperatorType) (iMsgType : RowKind) (iType iID : ℤ) (strUUID : String)
  /-- `CMsgAddDB` -/
  | addDB (iOperatorType : OperatorType) (iTableType : ℤ) (strUUID : String)
  /-- `CMsgFileBase` -/
  | fileBase (iOperatorType : OperatorType) (iMsgType : FileKind) (strFile strUUID : String)
  /-- `CMsgUUID` -/
  | uuid (iOperatorType : OperatorType) (iMsgType : CloseKind) (strUUID : String)
  deriving DecidableEq, Repr

/-- `Type ()`. -/
def Message.type : Message → MsgType
  | .editDB _ kind _ _ _ => kind.type
  | .addDB _ _ _ => .addDB
  | .fileBase _ kind _ _ => kind.type
  | .uuid _ kind _ => kind.type

/-- `m_iOperatorType`. -/
def Message.iOperatorType : Message → OperatorType
  | .editDB op _ _ _ _ | .addDB op _ _ | .fileBase op _ _ _ | .uuid op _ _ => op

/-- `m_strUUID`. -/
def Message.strUUID : Message → String
  | .editDB _ _ _ _ user | .addDB _ _ user | .fileBase _ _ _ user | .uuid _ _ user => user

/-! ### State -/

/-- A map from names to the numbers given to them. -/
abbrev IDs := Finmap fun _ : String => ℤ

/-- `CDBMsgManager`. -/
structure DBMsgManager where
  /-- The numbers of the users. -/
  mapUserID : IDs
  /-- The locks on rows, by table type and identifier of the row. -/
  mapUserStates : Table (ℤ ×ₗ ℤ)
  /-- The locks on tables, by table type. -/
  mapTableStates : Table ℤ

/-- `CFileMsgManager`. -/
structure FileMsgManager where
  /-- The numbers of the users. -/
  mapUserID : IDs
  /-- The locks on files, by number of the file. -/
  mapUserStates : Table ℤ
  /-- The numbers of the files. -/
  mapFileID : IDs

/-- The managers with the counters their functions keep. -/
structure State where
  /-- The database manager. -/
  db : DBMsgManager
  /-- The file manager. -/
  file : FileMsgManager
  /-- `s_iUserIndex`, the next number for a user. -/
  iUserIndex : ℤ
  /-- `s_iFilerIndex`, the next number for a file. -/
  iFilerIndex : ℤ
  /-- History: the user each number has been given to. -/
  owner : ℤ → Option String

/-- The managers before the first message. -/
def State.initial : State :=
  { db := { mapUserID := ∅, mapUserStates := ∅, mapTableStates := ∅ }
    file := { mapUserID := ∅, mapUserStates := ∅, mapFileID := ∅ }
    iUserIndex := 1
    iFilerIndex := 1
    owner := fun _ => none }

/-- `++` on an `int` of 32 bits, which runs over to the least one. -/
def increment (i : ℤ) : ℤ := (i + 1).bmod (2 ^ 32)

/-- `FindUserIndex` and `FindFileIndex`: the number of a name, zero if it has none. -/
def findIndex (ids : IDs) (name : String) : ℤ := (ids.lookup name).getD 0

/-- `CDBMsgManager::GetUserIndex`: the number of a user, which is given one if it has none. -/
def State.getDBUserIndex (s : State) (strUUID : String) : ℤ × State :=
  if findIndex s.db.mapUserID strUUID ≠ 0 then (findIndex s.db.mapUserID strUUID, s)
  else
    (s.iUserIndex,
      { s with
        db := { s.db with mapUserID := s.db.mapUserID.insert strUUID s.iUserIndex }
        iUserIndex := increment s.iUserIndex
        owner := Function.update s.owner s.iUserIndex (some strUUID) })

/-- `CFileMsgManager::GetUserIndex`, the same function with the other map. -/
def State.getFileUserIndex (s : State) (strUUID : String) : ℤ × State :=
  if findIndex s.file.mapUserID strUUID ≠ 0 then (findIndex s.file.mapUserID strUUID, s)
  else
    (s.iUserIndex,
      { s with
        file := { s.file with mapUserID := s.file.mapUserID.insert strUUID s.iUserIndex }
        iUserIndex := increment s.iUserIndex
        owner := Function.update s.owner s.iUserIndex (some strUUID) })

/-- `CFileMsgManager::GetFileIndex`. -/
def State.getFileIndex (s : State) (strFile : String) : ℤ × State :=
  if findIndex s.file.mapFileID strFile ≠ 0 then (findIndex s.file.mapFileID strFile, s)
  else
    (s.iFilerIndex,
      { s with
        file := { s.file with mapFileID := s.file.mapFileID.insert strFile s.iFilerIndex }
        iFilerIndex := increment s.iFilerIndex })

/-! ### Processors -/

/-- `CMsgEditDBProcess::IsStateConflict`. -/
def editDBConflict (scr des : ℕ) : Bool :=
  scr &&& des == MsgType.editDB.value || scr &&& des == MsgType.deleteDB.value

/-- `CMsgAddDBProcess::IsStateConflict`. -/
def addDBConflict (scr des : ℕ) : Bool := scr &&& des == MsgType.addDB.value

/-- `CMsgEditFileProcess::IsStateConflict`; the test for two readers changes nothing. -/
def editFileConflict (scr des : ℕ) : Bool :=
  if scr &&& des == MsgType.editFile.value then true
  else if scr &&& des == MsgType.readFile.value && scr == des then false
  else false

/-- `CMsgEditDBProcess::DoProcessLock`. -/
def State.lockRow (s : State) (kind : RowKind) (iType iID : ℤ) (strUUID : String) : Bool × State :=
  let (iIdIndex, s) := s.getDBUserIndex strUUID
  let (granted, states) := lock editDBConflict s.db.mapUserStates (toLex (iType, iID)) iIdIndex kind.type.value
  (granted, { s with db := { s.db with mapUserStates := states } })

/-- `CMsgEditDBProcess::DoProcessUnLock`. -/
def State.unlockRow (s : State) (kind : RowKind) (iType iID : ℤ) (strUUID : String) : State :=
  let (iIdIndex, s) := s.getDBUserIndex strUUID
  let states := unlock s.db.mapUserStates (toLex (iType, iID)) iIdIndex kind.type.value
  { s with db := { s.db with mapUserStates := states } }

/-- `CMsgAddDBProcess::DoProcessLock`. -/
def State.lockTable (s : State) (iTableType : ℤ) (strUUID : String) : Bool × State :=
  let (iIdIndex, s) := s.getDBUserIndex strUUID
  let (granted, states) := lock addDBConflict s.db.mapTableStates iTableType iIdIndex MsgType.addDB.value
  (granted, { s with db := { s.db with mapTableStates := states } })

/-- `CMsgAddDBProcess::DoProcessUnLock`. -/
def State.unlockTable (s : State) (iTableType : ℤ) (strUUID : String) : State :=
  let (iIdIndex, s) := s.getDBUserIndex strUUID
  let states := unlock s.db.mapTableStates iTableType iIdIndex MsgType.addDB.value
  { s with db := { s.db with mapTableStates := states } }

/-- `CMsgEditFileProcess::DoProcessLock`: a file is given a number if it has none. -/
def State.lockFile (s : State) (kind : FileKind) (strFile strUUID : String) : Bool × State :=
  let (iFileIdIndex, s) := s.getFileIndex strFile
  let (iIdIndex, s) := s.getFileUserIndex strUUID
  let (granted, states) := lock editFileConflict s.file.mapUserStates iFileIdIndex iIdIndex kind.type.value
  (granted, { s with file := { s.file with mapUserStates := states } })

/-- `CMsgEditFileProcess::DoProcessUnLock`: here a file is not given a number. -/
def State.unlockFile (s : State) (kind : FileKind) (strFile strUUID : String) : State :=
  let iFileIdIndex := findIndex s.file.mapFileID strFile
  let (iIdIndex, s) := s.getFileUserIndex strUUID
  let states := unlock s.file.mapUserStates iFileIdIndex iIdIndex kind.type.value
  { s with file := { s.file with mapUserStates := states } }

/-- `CCloseProjectMsgDB::DoProcess`: the rows of the user are released and its number is forgotten. -/
def State.closeProject (s : State) (strUUID : String) : State :=
  let iIdIndex := findIndex s.db.mapUserID strUUID
  if iIdIndex ≤ 0 then s
  else
    { s with
      db :=
        { s.db with
          mapUserStates := release s.db.mapUserStates iIdIndex
          mapUserID := s.db.mapUserID.erase strUUID } }

/-- `CCloseAllMsgDB::DoProcess`. -/
def State.closeAll (s : State) : State := { s with db := { s.db with mapUserID := ∅, mapUserStates := ∅ } }

/-! ### The chain -/

/-- The classes of the links. -/
inductive Processor
  | projectMsgManager | dbMsgManager | checkValidMsgDB | msgEditDBProcess | msgAddDBProcess
  | closeProjectMsgDB | closeAllMsgDB | fileMsgManager | msgEditFileProcess
  deriving DecidableEq, Repr

/-- A processor with its mask. -/
structure Link where
  /-- The class. -/
  processor : Processor
  /-- `m_iMask`. -/
  iMask : ℕ

/-- The value of a set of types. -/
def maskOf (types : List MsgType) : ℕ := types.foldl (fun mask type => mask ||| type.value) 0

/-- `AddProcessor`: the added links go to the end of the chain, and the first of them gets a mask. -/
def addProcessor (chain : List Link) (added : Processor × List Link) (iMask : ℕ) : List Link :=
  chain ++ ⟨added.1, iMask⟩ :: added.2

/-- The links `CDBMsgManager` adds to itself. -/
def dbMsgManagerLinks : List Link :=
  let chain := addProcessor [] (.checkValidMsgDB, []) (maskOf [.editDB, .addDB, .deleteDB])
  let chain := addProcessor chain (.msgEditDBProcess, []) (maskOf [.editDB, .deleteDB])
  let chain := addProcessor chain (.msgAddDBProcess, []) (maskOf [.addDB])
  let chain := addProcessor chain (.closeProjectMsgDB, []) (maskOf [.closeProjectDB])
  addProcessor chain (.closeAllMsgDB, []) (maskOf [.closeAllDB])

/-- The links `CFileMsgManager` adds to itself. -/
def fileMsgManagerLinks : List Link := addProcessor [] (.msgEditFileProcess, []) (maskOf [.editFile, .readFile])

/-- `CProjectMsgManager` with the managers it adds to itself. -/
def projectMsgManager : List Link :=
  let chain := [⟨.projectMsgManager, 0xFFFFF⟩]
  let chain := addProcessor chain (.dbMsgManager, dbMsgManagerLinks)
    (maskOf [.editDB, .addDB, .deleteDB, .closeProjectDB])
  addProcessor chain (.fileMsgManager, fileMsgManagerLinks) (maskOf [.editFile, .readFile])

/-- `CanProcess`. -/
def Link.canProcess (link : Link) (msg : Message) : Bool :=
  match link.processor with
  | .projectMsgManager => true
  | .dbMsgManager | .fileMsgManager =>
    msg.type.value &&& link.iMask != 0 && (msg.iOperatorType == .lock || msg.iOperatorType == .unlock)
  | _ => msg.type.value &&& link.iMask != 0

/-- `ProcessDispatch`. -/
def processDispatch (iOperatorType : OperatorType) (doProcessLock doProcessUnLock processNext : Bool × State) :
    Bool × State :=
  match iOperatorType with
  | .lock => doProcessLock
  | .unlock => doProcessUnLock
  | .null => processNext

/-- `DoProcess`, with the rest of the chain as `processNext`. The managers do nothing with a message
themselves. No processor gets a message of a class it does not cast to. -/
def Processor.doProcess (processor : Processor) (msg : Message) (s : State) (processNext : Bool × State) :
    Bool × State :=
  match processor, msg with
  | .checkValidMsgDB, .editDB _ _ _ iID _ => if iID < 0 then (true, s) else processNext
  | .msgEditDBProcess, .editDB op kind iType iID uuid =>
    processDispatch op (s.lockRow kind iType iID uuid) (true, s.unlockRow kind iType iID uuid) processNext
  | .msgAddDBProcess, .addDB op iTableType uuid =>
    processDispatch op (s.lockTable iTableType uuid) (true, s.unlockTable iTableType uuid) processNext
  | .closeProjectMsgDB, .uuid _ _ uuid => (true, s.closeProject uuid)
  | .closeAllMsgDB, .uuid _ _ _ => (true, s.closeAll)
  | .msgEditFileProcess, .fileBase op kind strFile uuid =>
    processDispatch op (s.lockFile kind strFile uuid) (true, s.unlockFile kind strFile uuid) processNext
  | _, _ => processNext

/-- `Process` from a link on; a message that no link takes is a success. -/
def processFrom (msg : Message) (s : State) : List Link → Bool × State
  | [] => (true, s)
  | link :: rest =>
    if link.canProcess msg then link.processor.doProcess msg s (processFrom msg s rest)
    else processFrom msg s rest

/-- `CProjectMsgManager::Process`: the reply and the state after the message. -/
def State.process (s : State) (msg : Message) : Bool × State := processFrom msg s projectMsgManager

lemma MsgType.bit_injective : Function.Injective MsgType.bit := by
  intro type type' h
  cases type <;> cases type' <;> first | rfl | cases h

lemma testBit_maskOf (types : List MsgType) (type : MsgType) :
    (maskOf types).testBit type.bit = decide (type ∈ types) := by
  suffices hgen : ∀ mask : ℕ, (types.foldl (fun mask type => mask ||| type.value) mask).testBit type.bit =
      (mask.testBit type.bit || decide (type ∈ types)) by
    rw [maskOf, hgen, zero_testBit, Bool.false_or]
  induction types with
  | nil => simp
  | cons type' types ih =>
    intro mask
    rw [foldl_cons, ih, testBit_or, MsgType.value, testBit_two_pow, Bool.or_assoc]
    simp only [MsgType.bit_injective.eq_iff, mem_cons, Bool.decide_or, eq_comm]

lemma value_and_maskOf (types : List MsgType) (type : MsgType) :
    (type.value &&& maskOf types != 0) = decide (type ∈ types) := by
  rw [← testBit_maskOf, land_comm, Bool.eq_iff_iff, bne_iff_ne]
  exact and_two_pow_ne_zero _ _

lemma State.process_eq (s : State) (msg : Message) :
    s.process msg =
      match msg with
      | .editDB op kind iType iID uuid =>
        if iID < 0 then (true, s)
        else processDispatch op (s.lockRow kind iType iID uuid) (true, s.unlockRow kind iType iID uuid) (true, s)
      | .addDB op iTableType uuid =>
        processDispatch op (s.lockTable iTableType uuid) (true, s.unlockTable iTableType uuid) (true, s)
      | .fileBase op kind strFile uuid =>
        if kind = .option then (true, s)
        else processDispatch op (s.lockFile kind strFile uuid) (true, s.unlockFile kind strFile uuid) (true, s)
      | .uuid _ .project uuid => (true, s.closeProject uuid)
      | .uuid _ .all _ => (true, s.closeAll) := by
  unfold State.process
  simp only [projectMsgManager, dbMsgManagerLinks, fileMsgManagerLinks, addProcessor, nil_append,
    cons_append, processFrom, Link.canProcess, value_and_maskOf]
  cases msg with
  | editDB op kind iType iID uuid | fileBase op kind strFile uuid | uuid op kind uuid => cases op <;> cases kind <;> rfl
  | addDB op iTableType uuid => cases op <;> rfl

/-! ### Runs -/

/-- What a user can ask for. -/
inductive Lock
  /-- To edit or to delete a row. -/
  | row (kind : RowKind) (iType iID : ℤ)
  /-- To add to a table. -/
  | table (iTableType : ℤ)
  /-- To edit or to read a file. -/
  | file (kind : FileKind) (strFile : String)
  deriving DecidableEq, Repr

/-- The message with which a user asks for a lock or gives it back. -/
def Lock.message (l : Lock) (op : OperatorType) (strUUID : String) : Message :=
  match l with
  | .row kind iType iID => .editDB op kind iType iID strUUID
  | .table iTableType => .addDB op iTableType strUUID
  | .file kind strFile => .fileBase op kind strFile strUUID

/-- Any number of users may read a file; every other lock on one thing is for one user at a time. The
option file is not under the care of any processor. -/
def Lock.Exclusive : Lock → Prop
  | .row _ _ _ => True
  | .table _ => True
  | .file kind _ => kind = .edit

/-- What the users hold after a message: a lock is held from the request that was granted until the
user gives it back or closes. -/
def heldAfter (held : Finset (String × Lock)) (msg : Message) (granted : Bool) : Finset (String × Lock) :=
  let asked (op : OperatorType) (l : Lock) (uuid : String) : Finset (String × Lock) :=
    match op with
    | .lock => if granted then insert (uuid, l) held else held
    | .unlock => held.erase (uuid, l)
    | .null => held
  match msg with
  | .editDB op kind iType iID uuid => asked op (.row kind iType iID) uuid
  | .addDB op iTableType uuid => asked op (.table iTableType) uuid
  | .fileBase op kind strFile uuid => asked op (.file kind strFile) uuid
  | .uuid _ .project uuid => held.filter fun entry => entry.1 ≠ uuid
  | .uuid _ .all _ => ∅

/-- The manager with what its replies have told the users. -/
structure Project where
  /-- The state of the manager. -/
  state : State
  /-- What the users hold. -/
  held : Finset (String × Lock)

/-- Process one message. -/
def Project.step (p : Project) (msg : Message) : Project :=
  { state := (p.state.process msg).2, held := heldAfter p.held msg (p.state.process msg).1 }

/-- The manager before the first message. -/
def Project.initial : Project := { state := State.initial, held := ∅ }

/-- Process the messages one after the other. -/
def Project.run (msgs : List Message) : Project := msgs.foldl Project.step Project.initial

/-- The number a message gives to a user or to a file that has none is below the greatest `int`, so that
the counter does not run over. -/
def State.Room (s : State) : Message → Prop
  | .editDB _ _ _ _ uuid => s.db.mapUserID.lookup uuid = none → s.iUserIndex < 2 ^ 31 - 1
  | .addDB _ _ uuid => s.db.mapUserID.lookup uuid = none → s.iUserIndex < 2 ^ 31 - 1
  | .fileBase op _ strFile uuid =>
    (s.file.mapUserID.lookup uuid = none → s.iUserIndex < 2 ^ 31 - 1) ∧
      (op = .lock → s.file.mapFileID.lookup strFile = none → s.iFilerIndex < 2 ^ 31 - 1)
  | .uuid _ _ _ => True

instance (s : State) (msg : Message) : Decidable (s.Room msg) :=
  match msg with
  | .editDB _ _ _ _ _ | .addDB _ _ _ => inferInstanceAs (Decidable (_ → _))
  | .fileBase _ _ _ _ => inferInstanceAs (Decidable (_ ∧ _))
  | .uuid _ _ _ => inferInstanceAs (Decidable True)

/-- There is room for every message of a run when it is processed. -/
def Project.RoomFrom (p : Project) : List Message → Prop
  | [] => True
  | msg :: msgs => p.state.Room msg ∧ (p.step msg).RoomFrom msgs

instance Project.decidableRoomFrom (p : Project) : (msgs : List Message) → Decidable (p.RoomFrom msgs)
  | [] => inferInstanceAs (Decidable True)
  | msg :: msgs =>
    have := (p.step msg).decidableRoomFrom msgs
    inferInstanceAs (Decidable (_ ∧ _))

end Gds
