import ZeroMQ.Gds.Json

/-!
# The GDS messages and their texts

A message is written as a JSON object with one member for each of its fields, the type of operation, and a
type by which the receiver knows the class of the message. Each class writes and reads its own fields;
`attributes` is what it writes, in the order of the source. A class that is derived from another without
overriding anything is a constructor of `FileClass`.

Reading takes a message of the class and replaces its fields. The type of operation is read through a
local variable that is not initialised, whose contents are a parameter.
-/

namespace Gds

open List Option Except Nat

/-! ### Types -/

/-- `GMT_CONNECT_SERVER` and so on, the values of `GDS_MSG_TYPE`. -/
def gmtConnectServer : ℤ := 1
def gmtProjectInfo : ℤ := 2
def gmtServerInfo : ℤ := 3
def gmtOpenProject : ℤ := 4
def gmtSuccess : ℤ := 5
def gmtFailure : ℤ := 6
def gmtWClosed : ℤ := 7
def gmtEditDB : ℤ := 256
def gmtAddDB : ℤ := 512
def gmtDeleteDB : ℤ := 1024

/-! ### Messages -/

/-- `CMsgProjectInfo`, with the type of operation of its base class. -/
structure ProjectInfo where
  iOperatorType : ℤ
  projectType : ℤ
  strName : String
  strPath : String
  strUUID : String
  deriving DecidableEq, Repr

/-- `CMsgFileBase` and the classes derived from it. -/
inductive FileClass
  | fileBase | editFile | editOption
  deriving DecidableEq, Repr

/-- The fields of the messages, by class. -/
inductive Body
  | generalCommand (iType : ℤ)
  | connectInfo (strUser strPassWord : String)
  | projectInfo (projectType : ℤ) (strName strPath strUUID : String)
  | projectList (vecProInfo : List ProjectInfo)
  | uuid (iMsgType : ℤ) (strUUID : String)
  | result (iMsgType : ℤ) (strInfo : String)
  | addDB (iTableType iType iID : ℤ) (strUUID : String)
  | editDB (iMsgType iType iID : ℤ) (strUUID : String)
  | fileBase (cls : FileClass) (iMsgType : ℤ) (strFile strUUID : String)
  deriving DecidableEq, Repr

/-- A message, with the field of the base class. -/
structure CMsg where
  iOperatorType : ℤ
  body : Body
  deriving DecidableEq, Repr

/-- `Type ()`. -/
def Body.type : Body → ℤ
  | .generalCommand iType => iType
  | .connectInfo _ _ => gmtConnectServer
  | .projectInfo _ _ _ _ => gmtProjectInfo
  | .projectList _ => gmtServerInfo
  | .uuid iMsgType _ => iMsgType
  | .result iMsgType _ => iMsgType
  | .addDB _ _ _ _ => gmtAddDB
  | .editDB iMsgType _ _ _ => iMsgType
  | .fileBase _ iMsgType _ _ => iMsgType

/-- Two messages are of one class. -/
def Body.SameClass : Body → Body → Prop
  | .generalCommand _, .generalCommand _ => True
  | .connectInfo _ _, .connectInfo _ _ => True
  | .projectInfo _ _ _ _, .projectInfo _ _ _ _ => True
  | .projectList _, .projectList _ => True
  | .uuid _ _, .uuid _ _ => True
  | .result _ _, .result _ _ => True
  | .addDB _ _ _ _, .addDB _ _ _ _ => True
  | .editDB _ _ _ _, .editDB _ _ _ _ => True
  | .fileBase cls _ _ _, .fileBase cls' _ _ _ => cls = cls'
  | _, _ => False

/-- A message about the database. -/
def Body.Database : Body → Prop
  | .editDB _ _ _ _ | .addDB _ _ _ _ => True
  | _ => False

/-! ### Writing -/

/-- What `CMsgProjectInfo` writes: it sets no type. -/
def projectAttributes (projectType : ℤ) (strName strPath strUUID : String) : List (String × Json) :=
  [("m_projectType", .int projectType), ("m_strName", .string strName), ("m_strPath", .string strPath),
    ("m_strUUID", .string strUUID)]

/-- `WriteToJsonNode` of a project in a list. -/
def ProjectInfo.node (info : ProjectInfo) : Except JsonFault Json :=
  setAll (("OperatorType", .int info.iOperatorType) ::
    projectAttributes info.projectType info.strName info.strPath info.strUUID) .null

/-- The loop of `CMsgProjectList::DoWriteToJsonNode`. -/
def projectNodes : List ProjectInfo → Except JsonFault (List Json)
  | [] => .ok []
  | info :: infos =>
    match info.node with
    | .error f => .error f
    | .ok node => (projectNodes infos).map (node :: ·)

/-- `DoWriteToJsonNode`: the members a message sets, in order. A `CMsgAddDB` sets its table type as the
type. -/
def Body.attributes : Body → Except JsonFault (List (String × Json))
  | .generalCommand iType => .ok [("MSGType", .int iType)]
  | .connectInfo strUser strPassWord =>
    .ok [("MSGType", .int gmtConnectServer), ("User", .string strUser), ("Pass", .string strPassWord)]
  | .projectInfo projectType strName strPath strUUID =>
    .ok (projectAttributes projectType strName strPath strUUID)
  | .projectList vecProInfo =>
    (projectNodes vecProInfo).map fun nodes =>
      [("MSGType", .int gmtServerInfo), ("ProjectList", Json.ofList nodes)]
  | .uuid iMsgType strUUID => .ok [("MSGType", .int iMsgType), ("UUID", .string strUUID)]
  | .result iMsgType strInfo => .ok [("MSGType", .int iMsgType), ("m_strInfo", .string strInfo)]
  | .addDB iTableType iType iID strUUID =>
    .ok [("MSGType", .int iTableType), ("m_iType", .int iType), ("m_iID", .int iID), ("m_strUUID", .string strUUID)]
  | .editDB iMsgType iType iID strUUID =>
    .ok [("MSGType", .int iMsgType), ("m_iType", .int iType), ("m_iID", .int iID), ("m_strUUID", .string strUUID)]
  | .fileBase _ iMsgType strFile strUUID =>
    .ok [("MSGType", .int iMsgType), ("m_strFile", .string strFile), ("m_strUUID", .string strUUID)]

/-- `WriteToJsonNode` on an empty node. -/
def CMsg.node (msg : CMsg) : Except JsonFault Json :=
  match msg.body.attributes with
  | .error f => .error f
  | .ok attributes => setAll (("OperatorType", .int msg.iOperatorType) :: attributes) .null

/-- `ToString`. -/
def CMsg.toString (lib : JsonLib) (msg : CMsg) (type : ℤ) : Except JsonFault String :=
  (CMsg.node { msg with iOperatorType := type }).map lib.write

/-! ### Reading -/

section Read

variable (debug : Bool)

/-- `&&` between a member that is read and what is read after it; `b` is what has been read when the member
is missing. -/
def andThen {α β : Type} (r : Except JsonFault (Option α)) (b : β) (f : α → Except JsonFault (Bool × β)) :
    Except JsonFault (Bool × β) :=
  match r with
  | .error e => .error e
  | .ok none => .ok (false, b)
  | .ok (some a) => f a

/-- `CMsgProjectInfo::DoReadFromJsonNode`. -/
def ProjectInfo.doRead (info : ProjectInfo) (node : Json) : Except JsonFault (Bool × ProjectInfo) :=
  andThen (getInt debug node "m_projectType") { info with projectType := 0 } fun iType =>
    let info := { info with projectType := iType }
    andThen (getString debug node "m_strName") info fun strName =>
      let info := { info with strName := strName }
      andThen (getString debug node "m_strPath") info fun strPath =>
        let info := { info with strPath := strPath }
        andThen (getString debug node "m_strUUID") info fun strUUID =>
          .ok (true, { info with strUUID := strUUID })

/-- The type of operation `ReadFromJsonNode` reads; `iType` is what the variable held. -/
def readOperatorType (iType : ℤ) (node : Json) : Except JsonFault ℤ :=
  (getInt debug node "OperatorType").map fun value => value.getD iType

/-- `CMsgProjectInfo::ReadFromJsonNode`. -/
def ProjectInfo.read (info : ProjectInfo) (iType : ℤ) (node : Json) : Except JsonFault (Bool × ProjectInfo) :=
  match readOperatorType debug iType node with
  | .error e => .error e
  | .ok op => ProjectInfo.doRead debug { info with iOperatorType := op } node

/-- `CMsgProjectInfo ()`; the type of operation is not initialised. -/
def ProjectInfo.new (iOperatorType : ℤ) : ProjectInfo := ⟨iOperatorType, 0, "", "", ""⟩

/-- The loop of `CMsgProjectList::DoReadFromJsonNode` from an index on. -/
def readProjects (iType : ℤ) (projectNode : Json) : List ProjectInfo → ℕ → Except JsonFault (List ProjectInfo)
  | [], _ => .ok []
  | info :: infos, i =>
    match projectNode.at_ i with
    | .error e => .error e
    | .ok node =>
      match info.read debug iType node with
      | .error e => .error e
      | .ok (_, info) => (readProjects iType projectNode infos (i + 1)).map (info :: ·)

/-- `DoReadFromJsonNode` of the class of a message. -/
def Body.doRead (iOther : ℤ) (node : Json) : Body → Except JsonFault (Bool × Body)
  | .generalCommand _ => (getNodeType debug node).map fun iType => (true, .generalCommand iType)
  | .connectInfo strUser strPassWord =>
    andThen (getString debug node "User") (.connectInfo strUser strPassWord) fun strUser =>
      andThen (getString debug node "Pass") (.connectInfo strUser strPassWord) fun strPassWord =>
        .ok (true, .connectInfo strUser strPassWord)
  | .projectInfo projectType strName strPath strUUID =>
    (ProjectInfo.doRead debug ⟨0, projectType, strName, strPath, strUUID⟩ node).map fun r =>
      (r.1, .projectInfo r.2.projectType r.2.strName r.2.strPath r.2.strUUID)
  | .projectList vecProInfo =>
    match node.get "ProjectList" with
    | .error e => .error e
    | .ok projectNode =>
      let resized := (vecProInfo ++ List.replicate projectNode.size (ProjectInfo.new iOther)).take projectNode.size
      (readProjects debug iOther projectNode resized 0).map fun infos => (true, .projectList infos)
  | .uuid _ strUUID =>
    match getNodeType debug node with
    | .error e => .error e
    | .ok iMsgType =>
      andThen (getString debug node "UUID") (.uuid iMsgType strUUID) fun strUUID =>
        .ok (true, .uuid iMsgType strUUID)
  | .result _ strInfo =>
    match getNodeType debug node with
    | .error e => .error e
    | .ok iMsgType =>
      andThen (getString debug node "m_strInfo") (.result iMsgType strInfo) fun strInfo =>
        .ok (true, .result iMsgType strInfo)
  | .addDB _ iType iID strUUID =>
    match getNodeType debug node with
    | .error e => .error e
    | .ok iTableType =>
      andThen (getInt debug node "m_iType") (.addDB iTableType iType iID strUUID) fun iType =>
        andThen (getInt debug node "m_iID") (.addDB iTableType iType iID strUUID) fun iID =>
          andThen (getString debug node "m_strUUID") (.addDB iTableType iType iID strUUID) fun strUUID =>
            .ok (true, .addDB iTableType iType iID strUUID)
  | .editDB _ iType iID strUUID =>
    match getNodeType debug node with
    | .error e => .error e
    | .ok iMsgType =>
      andThen (getInt debug node "m_iType") (.editDB iMsgType iType iID strUUID) fun iType =>
        andThen (getInt debug node "m_iID") (.editDB iMsgType iType iID strUUID) fun iID =>
          andThen (getString debug node "m_strUUID") (.editDB iMsgType iType iID strUUID) fun strUUID =>
            .ok (true, .editDB iMsgType iType iID strUUID)
  | .fileBase cls _ strFile strUUID =>
    match getNodeType debug node with
    | .error e => .error e
    | .ok iMsgType =>
      andThen (getString debug node "m_strFile") (.fileBase cls iMsgType strFile strUUID) fun strFile =>
        andThen (getString debug node "m_strUUID") (.fileBase cls iMsgType strFile strUUID) fun strUUID =>
          .ok (true, .fileBase cls iMsgType strFile strUUID)

/-- `ReadFromJsonNode`. -/
def CMsg.read (msg : CMsg) (iType : ℤ) (node : Json) : Except JsonFault (Bool × CMsg) :=
  match readOperatorType debug iType node with
  | .error e => .error e
  | .ok op => (Body.doRead debug iType node msg.body).map fun r => (r.1, ⟨op, r.2⟩)

/-- The message a worker reads from a text: it makes a message of the class that belongs to the type, and
other types are not for it. What the new message holds before it is read is not initialised. The case of
`GMT_C_ADD_DB` has no `break` and runs into the assertion of the default. -/
def workerRead (lib : JsonLib) (iOther : ℤ) (strInfo : String) : Except JsonFault (Option CMsg) :=
  match lib.parse strInfo with
  | none => .ok none
  | some rootNode =>
    let readAs (body : Body) : Except JsonFault (Option CMsg) :=
      (CMsg.read debug ⟨iOther, body⟩ iOther rootNode).map fun r => if r.1 then some r.2 else none
    match getNodeType debug rootNode with
    | .error e => .error e
    | .ok iType =>
      if iType = gmtEditDB ∨ iType = gmtDeleteDB then readAs (.editDB iOther iOther iOther "")
      else if iType = gmtAddDB then
        match readAs (.addDB iOther iOther iOther "") with
        | .error e => .error e
        | .ok msg => (assertC debug).map fun _ => msg
      else (assertC debug).map fun _ => none

end Read

/-- The class writes the type of the message: a project writes none, and a `CMsgAddDB` writes its table
type in place of it. -/
def Body.Typed : Body → Prop
  | .projectInfo _ _ _ _ => False
  | .addDB iTableType _ _ _ => iTableType = gmtAddDB
  | _ => True

/-- A message that a worker takes for what it is, and at which it does not fail. -/
def Body.ForWorker (debug : Bool) : Body → Prop
  | .addDB iTableType _ _ _ => iTableType = gmtAddDB ∧ debug = false
  | .editDB iMsgType _ _ _ => iMsgType = gmtEditDB ∨ iMsgType = gmtDeleteDB
  | _ => False

/-- The text of a message has its type, and every message of the class becomes the one that was written
when it is read from the text. -/
def CMsg.RoundTrips (lib : JsonLib) (debug : Bool) (msg : CMsg) (op : ℤ) : Prop :=
  ∃ text node, msg.toString lib op = .ok text ∧ lib.parse text = some node ∧
    getNodeType debug node = .ok msg.body.type ∧
    ∀ msg' : CMsg, msg'.body.SameClass msg.body → ∀ iType,
      msg'.read debug iType node = .ok (true, { msg with iOperatorType := op })

/-- A worker reads the message that was written from its text. -/
def CMsg.ReadByWorker (lib : JsonLib) (debug : Bool) (msg : CMsg) (op : ℤ) : Prop :=
  ∃ text, msg.toString lib op = .ok text ∧
    ∀ iOther, workerRead debug lib iOther text = .ok (some { msg with iOperatorType := op })

/-! ### Projects in a list -/

section Projects

variable {debug : Bool} {iType : ℤ}

/-- The node is what is written of a project. -/
def IsNode (info : ProjectInfo) (node : Json) : Prop :=
  ∃ members, node = .object members ∧ ∀ k, members.lookup k =
    (("OperatorType", .int info.iOperatorType) ::
      projectAttributes info.projectType info.strName info.strPath info.strUUID).reverse.lookup k

lemma ProjectInfo.node_spec (info : ProjectInfo) : ∃ node, info.node = .ok node ∧ IsNode info node := by
  have hne : ("OperatorType", .int info.iOperatorType) ::
    projectAttributes info.projectType info.strName info.strPath info.strUUID ≠ [] := cons_ne_nil _ _
  obtain ⟨members, hset, hlookup⟩ := setAll_null hne
  exact ⟨_, hset, members, rfl, hlookup⟩

lemma doRead_of_lookup {info info' : ProjectInfo} {members : List (String × Json)}
    (htype : members.lookup "m_projectType" = some (.int info.projectType))
    (hname : members.lookup "m_strName" = some (.string info.strName))
    (hpath : members.lookup "m_strPath" = some (.string info.strPath))
    (huuid : members.lookup "m_strUUID" = some (.string info.strUUID))
    (hop : info'.iOperatorType = info.iOperatorType) :
    info'.doRead debug (.object members) = .ok (true, info) := by
  rw [ProjectInfo.doRead, getInt_of_lookup htype, getString_of_lookup hname, getString_of_lookup hpath,
    getString_of_lookup huuid]
  simp [andThen, hop]

lemma IsNode.read {info : ProjectInfo} {node : Json} (h : IsNode info node) (info' : ProjectInfo) :
    info'.read debug iType node = .ok (true, info) := by
  obtain ⟨members, rfl, hlookup⟩ := h
  have hop : members.lookup "OperatorType" = some (.int info.iOperatorType) := by
    rw [hlookup]
    simp [projectAttributes, lookup_cons]
  rw [ProjectInfo.read, readOperatorType, getInt_of_lookup hop]
  refine doRead_of_lookup ?_ ?_ ?_ ?_ rfl <;> rw [hlookup] <;> simp [projectAttributes, lookup_cons]

lemma projectNodes_spec (infos : List ProjectInfo) :
    ∃ nodes, projectNodes infos = .ok nodes ∧ List.Forall₂ IsNode infos nodes := by
  induction infos with
  | nil => exact ⟨[], rfl, .nil⟩
  | cons info infos ih =>
    obtain ⟨node, hnode, his⟩ := info.node_spec
    obtain ⟨nodes, hnodes, hall⟩ := ih
    refine ⟨node :: nodes, ?_, .cons his hall⟩
    rw [projectNodes, hnode]
    simp [hnodes, Except.map]

lemma Json.size_ofList (nodes : List Json) : (Json.ofList nodes).size = nodes.length := by
  cases nodes <;> rfl

lemma Json.at_ofList {nodes : List Json} {i : ℕ} {node : Json} (h : nodes[i]? = some node) :
    (Json.ofList nodes).at_ i = .ok node := by
  cases nodes with
  | nil => cases h
  | cons first rest => rw [Json.ofList, Json.at_, h, getD_some]

lemma readProjects_spec {projectNode : Json} {infos : List ProjectInfo} {nodes : List Json}
    (hall : List.Forall₂ IsNode infos nodes) (old : List ProjectInfo) (i : ℕ)
    (hlen : old.length = nodes.length)
    (hat : ∀ j node, nodes[j]? = some node → projectNode.at_ (i + j) = .ok node) :
    readProjects debug iType projectNode old i = .ok infos := by
  induction hall generalizing old i with
  | nil =>
    rw [length_eq_zero_iff.mp hlen]
    rfl
  | @cons info node infos nodes his _ ih =>
    obtain ⟨info', old, rfl⟩ := exists_cons_of_length_eq_add_one hlen
    have hrest := ih old (i + 1) (succ.inj hlen) fun j node hj => by
      rw [add_assoc, add_comm 1 j]
      exact hat (j + 1) node hj
    rw [readProjects, show projectNode.at_ i = .ok node from hat 0 node rfl]
    simp [his.read, hrest, Except.map]

end Projects

/-! ### Messages -/

section Messages

variable {debug : Bool} {lib : JsonLib}

lemma CMsg.node_spec (msg : CMsg) : ∃ attributes members, msg.body.attributes = .ok attributes ∧
    msg.node = .ok (.object members) ∧
    ∀ k, members.lookup k = (("OperatorType", .int msg.iOperatorType) :: attributes).reverse.lookup k := by
  have hattributes : ∃ attributes, msg.body.attributes = .ok attributes := by
    cases h : msg.body with
    | projectList vecProInfo =>
      obtain ⟨nodes, hnodes, -⟩ := projectNodes_spec vecProInfo
      exact ⟨_, by rw [Body.attributes, hnodes]; rfl⟩
    | _ => exact ⟨_, rfl⟩
  obtain ⟨attributes, hattributes⟩ := hattributes
  have hne : ("OperatorType", Json.int msg.iOperatorType) :: attributes ≠ [] := cons_ne_nil _ _
  obtain ⟨members, hset, hlookup⟩ := setAll_null hne
  refine ⟨attributes, members, hattributes, ?_, hlookup⟩
  rw [CMsg.node, hattributes]
  exact hset

variable {node : Json} {attributes members : List (String × Json)}

lemma nodeType_of_attribute {msg : CMsg} (hnode : msg.node = .ok node)
    (hattributes : msg.body.attributes = .ok attributes) {t : ℤ}
    (ht : attributes.reverse.lookup "MSGType" = some (.int t)) : getNodeType debug node = .ok t := by
  obtain ⟨attributes', members, hattributes', hmembers, hlookup⟩ := msg.node_spec
  obtain rfl := ok.inj (hattributes.symm.trans hattributes')
  obtain rfl : .object members = node := ok.inj (hmembers.symm.trans hnode)
  refine getNodeType_of_lookup ?_
  rw [hlookup, reverse_cons, lookup_append, ht, some_or]

lemma nodeType_iff (msg : CMsg) (hnode : msg.node = .ok node) :
    getNodeType debug node = .ok msg.body.type ↔ msg.body.Typed := by
  obtain ⟨attributes, members, hattributes, hmembers, hlookup⟩ := msg.node_spec
  obtain rfl : .object members = node := ok.inj (hmembers.symm.trans hnode)
  obtain ⟨op, body⟩ := msg
  cases body with
  | projectInfo projectType strName strPath strUUID =>
    obtain rfl := ok.inj hattributes
    have hnone : members.lookup "MSGType" = none := by
      rw [hlookup]
      simp [projectAttributes, lookup_cons]
    rw [getNodeType_of_none hnone]
    cases debug <;> simp [Body.type, Body.Typed, gmtProjectInfo]
  | addDB iTableType iType iID strUUID =>
    have htype : getNodeType debug (.object members) = .ok iTableType := nodeType_of_attribute hnode rfl rfl
    rw [htype]
    simp [Body.type, Body.Typed]
  | projectList vecProInfo =>
    obtain ⟨nodes, hnodes, -⟩ := projectNodes_spec vecProInfo
    have hlist : (Body.projectList vecProInfo).attributes =
        .ok [("MSGType", .int gmtServerInfo), ("ProjectList", Json.ofList nodes)] := by
      rw [Body.attributes, hnodes]
      rfl
    exact iff_of_true (nodeType_of_attribute hnode hlist rfl) trivial
  | _ => exact iff_of_true (nodeType_of_attribute hnode rfl rfl) trivial

lemma operatorType_not_attribute {body : Body}
    (h : body.attributes = .ok attributes) : attributes.reverse.lookup "OperatorType" = none := by
  cases body with
  | projectList vecProInfo =>
    obtain ⟨nodes, hnodes, -⟩ := projectNodes_spec vecProInfo
    rw [Body.attributes, hnodes] at h
    obtain rfl := ok.inj h
    rfl
  | _ =>
    obtain rfl := ok.inj h
    rfl

lemma doRead_of_attributes {body body' : Body}
    (hattributes : body.attributes = .ok attributes)
    (hget : ∀ k v, attributes.reverse.lookup k = some v → members.lookup k = some v)
    (hclass : body'.SameClass body) (iType : ℤ) :
    body'.doRead debug iType (.object members) = .ok (true, body) := by
  cases body <;> cases body' <;> try exact hclass.elim
  case generalCommand.generalCommand =>
    obtain rfl := ok.inj hattributes
    have htype := hget "MSGType" _ rfl
    rw [Body.doRead, getNodeType_of_lookup htype]
    rfl
  case connectInfo.connectInfo =>
    obtain rfl := ok.inj hattributes
    have huser := hget "User" _ rfl
    have hpass := hget "Pass" _ rfl
    rw [Body.doRead, getString_of_lookup huser, getString_of_lookup hpass]
    rfl
  case projectInfo.projectInfo projectType strName strPath strUUID projectType' strName' strPath' strUUID' =>
    obtain rfl := ok.inj hattributes
    have hinfo : ProjectInfo.doRead debug ⟨0, projectType', strName', strPath', strUUID'⟩ (.object members) =
        .ok (true, ⟨0, projectType, strName, strPath, strUUID⟩) :=
      doRead_of_lookup (hget "m_projectType" _ rfl) (hget "m_strName" _ rfl) (hget "m_strPath" _ rfl)
        (hget "m_strUUID" _ rfl) rfl
    rw [Body.doRead, hinfo]
    rfl
  case projectList.projectList vecProInfo old =>
    obtain ⟨nodes, hnodes, hall⟩ := projectNodes_spec vecProInfo
    rw [Body.attributes, hnodes] at hattributes
    obtain rfl := ok.inj hattributes
    have hlist : (Json.object members).get "ProjectList" = .ok (Json.ofList nodes) := by
      rw [Json.get, hget "ProjectList" _ rfl, getD_some]
    have hinfos : readProjects debug iType (Json.ofList nodes)
        ((old ++ List.replicate nodes.length (ProjectInfo.new iType)).take nodes.length) 0 = .ok vecProInfo :=
      readProjects_spec hall _ 0 (by simp) fun j node hj => by rw [zero_add, Json.at_ofList hj]
    simp only [Body.doRead, hlist, Json.size_ofList, hinfos]
    rfl
  case uuid.uuid =>
    obtain rfl := ok.inj hattributes
    have htype := hget "MSGType" _ rfl
    have huuid := hget "UUID" _ rfl
    rw [Body.doRead, getNodeType_of_lookup htype, getString_of_lookup huuid]
    rfl
  case result.result =>
    obtain rfl := ok.inj hattributes
    have htype := hget "MSGType" _ rfl
    have hinfo := hget "m_strInfo" _ rfl
    rw [Body.doRead, getNodeType_of_lookup htype, getString_of_lookup hinfo]
    rfl
  case fileBase.fileBase =>
    obtain rfl := ok.inj hattributes
    obtain rfl := hclass
    have htype := hget "MSGType" _ rfl
    have hfile := hget "m_strFile" _ rfl
    have huuid := hget "m_strUUID" _ rfl
    rw [Body.doRead, getNodeType_of_lookup htype, getString_of_lookup hfile, getString_of_lookup huuid]
    rfl
  -- The messages about the database differ in the type only.
  all_goals
    obtain rfl := ok.inj hattributes
    have htype := hget "MSGType" _ rfl
    have hiType := hget "m_iType" _ rfl
    have hiID := hget "m_iID" _ rfl
    have huuid := hget "m_strUUID" _ rfl
    rw [Body.doRead, getNodeType_of_lookup htype, getInt_of_lookup hiType, getInt_of_lookup hiID,
      getString_of_lookup huuid]
    rfl

lemma read_node {msg msg' : CMsg} (hnode : msg.node = .ok node)
    (hclass : msg'.body.SameClass msg.body) (iType : ℤ) : msg'.read debug iType node = .ok (true, msg) := by
  obtain ⟨attributes, members, hattributes, hmembers, hlookup⟩ := msg.node_spec
  obtain rfl : .object members = node := ok.inj (hmembers.symm.trans hnode)
  have hget : ∀ k v, attributes.reverse.lookup k = some v → members.lookup k = some v := fun k v hk => by
    rw [hlookup, reverse_cons, lookup_append, hk, some_or]
  have hnone := operatorType_not_attribute hattributes
  have hop : members.lookup "OperatorType" = some (.int msg.iOperatorType) := by
    rw [hlookup, reverse_cons, lookup_append, hnone]
    rfl
  have hdo : msg'.body.doRead debug iType (.object members) = .ok (true, msg.body) :=
    doRead_of_attributes hattributes hget hclass iType
  rw [CMsg.read, readOperatorType, getInt_of_lookup hop]
  simp [hdo, Except.map]

lemma andThen_ok {α β : Type} {P : β → Prop} {x : Except JsonFault (Option α)} {b : β}
    {f : α → Except JsonFault (Bool × β)} {r : Bool × β} (h : andThen x b f = .ok r) (hb : P b)
    (hf : ∀ a, f a = .ok r → P r.2) : P r.2 := by
  cases x with
  | error e => cases h
  | ok value =>
    cases value with
    | none =>
      obtain rfl := ok.inj h
      exact hb
    | some a => exact hf a h

lemma doRead_database {body : Body} {iOther : ℤ} {r : Bool × Body} (hbody : body.Database)
    (h : body.doRead debug iOther node = .ok r) : r.2.Database := by
  cases body <;> try exact hbody.elim
  all_goals
    rw [Body.doRead] at h
    cases htype : getNodeType debug node with
    | error e =>
      rw [htype] at h
      cases h
    | ok iMsgType =>
      rw [htype] at h
      refine andThen_ok (P := Body.Database) h trivial fun iType h => ?_
      refine andThen_ok (P := Body.Database) h trivial fun iID h => ?_
      refine andThen_ok (P := Body.Database) h trivial fun strUUID h => ?_
      obtain rfl := ok.inj h
      trivial

lemma read_database {msg : CMsg} {iOther : ℤ} {r : Bool × CMsg} (hbody : msg.body.Database)
    (h : msg.read debug iOther node = .ok r) : r.2.body.Database := by
  unfold CMsg.read at h
  split at h
  next => cases h
  next op _ =>
    cases hdo : msg.body.doRead debug iOther node with
    | error e =>
      rw [hdo] at h
      cases h
    | ok r' =>
      rw [hdo] at h
      obtain rfl := ok.inj h
      exact doRead_database hbody hdo

/-- What a worker reads is a message about the database, for it reads it into one. -/
lemma workerRead_database {text : String} {iOther : ℤ} {msg : CMsg}
    (h : workerRead debug lib iOther text = .ok (some msg)) : msg.body.Database := by
  have hread (body : Body) (hbody : body.Database) (rootNode : Json)
      (h : ((CMsg.read debug ⟨iOther, body⟩ iOther rootNode).map fun r => if r.1 then some r.2 else none) =
        .ok (some msg)) : msg.body.Database := by
    cases hr : CMsg.read debug ⟨iOther, body⟩ iOther rootNode with
    | error e =>
      rw [hr] at h
      cases h
    | ok r =>
      rw [hr] at h
      have hmsg : (if r.1 then some r.2 else none) = some msg := ok.inj h
      split at hmsg
      next =>
        obtain rfl := some.inj hmsg
        exact read_database hbody hr
      next => cases hmsg
  unfold workerRead at h
  split at h
  next => cases h
  next rootNode _ =>
    dsimp only at h
    split at h
    next => cases h
    next iType _ =>
      split_ifs at h
      · exact hread (.editDB iOther iOther iOther "") trivial rootNode h
      · split at h
        next => cases h
        next msg' hmsg' =>
          refine hread (.addDB iOther iOther iOther "") trivial rootNode ?_
          cases debug with
          | true => cases h
          | false => exact hmsg'.trans h
      · cases debug <;> cases h

/-- The type in the text of a message about the database decides as which class a worker reads it. -/
lemma workerRead_node {op iMsgType iType iID : ℤ} {strUUID text : String}
    (hnode : CMsg.node ⟨op, .editDB iMsgType iType iID strUUID⟩ = .ok node) (hparse : lib.parse text = some node)
    (iOther : ℤ) :
    workerRead debug lib iOther text =
      if iMsgType = gmtEditDB ∨ iMsgType = gmtDeleteDB then .ok (some ⟨op, .editDB iMsgType iType iID strUUID⟩)
      else (assertC debug).map fun _ =>
        if iMsgType = gmtAddDB then some ⟨op, .addDB iMsgType iType iID strUUID⟩ else none := by
  have htype : getNodeType debug node = .ok iMsgType := nodeType_of_attribute hnode rfl rfl
  -- The members are also those of a message to add, as which the worker reads them for its type.
  have hadd : CMsg.node ⟨op, .addDB iMsgType iType iID strUUID⟩ = .ok node := hnode
  have hreadEdit : CMsg.read debug ⟨iOther, .editDB iOther iOther iOther ""⟩ iOther node =
      .ok (true, ⟨op, .editDB iMsgType iType iID strUUID⟩) := read_node hnode (by trivial) iOther
  have hreadAdd : CMsg.read debug ⟨iOther, .addDB iOther iOther iOther ""⟩ iOther node =
      .ok (true, ⟨op, .addDB iMsgType iType iID strUUID⟩) := read_node hadd (by trivial) iOther
  simp only [workerRead, hparse, htype, hreadEdit, hreadAdd, Except.map, if_true]
  split
  · rfl
  · split <;> rfl

lemma workerRead_iff {msg : CMsg} (hnode : msg.node = .ok node) {text : String}
    (hparse : lib.parse text = some node) (iOther : ℤ) :
    workerRead debug lib iOther text = .ok (some msg) ↔ msg.body.ForWorker debug := by
  obtain ⟨op, body⟩ := msg
  cases body with
  | editDB iMsgType iType iID strUUID =>
    rw [workerRead_node hnode hparse, Body.ForWorker]
    by_cases hedit : iMsgType = gmtEditDB ∨ iMsgType = gmtDeleteDB
    · rw [if_pos hedit]
      exact iff_of_true rfl hedit
    · rw [if_neg hedit]
      refine iff_of_false (fun h => ?_) hedit
      split at h <;> cases debug <;> cases h
  | addDB iTableType iType iID strUUID =>
    have hedit : CMsg.node ⟨op, .editDB iTableType iType iID strUUID⟩ = .ok node := hnode
    rw [workerRead_node hedit hparse, Body.ForWorker]
    by_cases hof : iTableType = gmtEditDB ∨ iTableType = gmtDeleteDB
    · rw [if_pos hof]
      refine iff_of_false (fun h => ?_) fun h => ?_
      · cases h
      · rw [h.1] at hof
        revert hof
        decide
    · rw [if_neg hof]
      by_cases hadd : iTableType = gmtAddDB
      · rw [if_pos hadd]
        cases debug with
        | true => exact iff_of_false (fun h => (by cases h)) fun h => (by cases h.2)
        | false => exact iff_of_true rfl ⟨hadd, rfl⟩
      · rw [if_neg hadd]
        refine iff_of_false (fun h => ?_) fun h => hadd h.1
        cases debug <;> cases h
  | _ =>
    exact iff_of_false (fun h => (workerRead_database h).elim) not_false

lemma toString_ok (lib : JsonLib) (msg : CMsg) (op : ℤ) : ∃ text, msg.toString lib op = .ok text := by
  obtain ⟨-, members, -, hnode, -⟩ := CMsg.node_spec { msg with iOperatorType := op }
  refine ⟨lib.write (.object members), ?_⟩
  rw [CMsg.toString, hnode]
  rfl

section Texts

variable {msg : CMsg} {op : ℤ}
  (hlib : ∀ node, CMsg.node { msg with iOperatorType := op } = .ok node → lib.parse (lib.write node) = some node)
include hlib

lemma toString_spec : ∃ text node, msg.toString lib op = .ok text ∧ lib.parse text = some node ∧
    CMsg.node { msg with iOperatorType := op } = .ok node := by
  obtain ⟨-, members, -, hnode, -⟩ := CMsg.node_spec { msg with iOperatorType := op }
  refine ⟨lib.write (.object members), _, ?_, hlib _ hnode, hnode⟩
  rw [CMsg.toString, hnode]
  rfl

lemma roundTrips_iff : msg.RoundTrips lib debug op ↔ msg.body.Typed := by
  obtain ⟨text, node, htext, hparse, hnode⟩ := toString_spec hlib
  constructor
  · rintro ⟨text', node', htext', hparse', htype, -⟩
    obtain rfl := ok.inj (htext.symm.trans htext')
    obtain rfl := some.inj (hparse.symm.trans hparse')
    exact (nodeType_iff _ hnode).mp htype
  · exact fun htyped => ⟨text, node, htext, hparse, (nodeType_iff _ hnode).mpr htyped,
      fun msg' hclass iType => read_node hnode hclass iType⟩

lemma readByWorker_iff : msg.ReadByWorker lib debug op ↔ msg.body.ForWorker debug := by
  obtain ⟨text, node, htext, hparse, hnode⟩ := toString_spec hlib
  constructor
  · rintro ⟨text', htext', hall⟩
    obtain rfl := ok.inj (htext.symm.trans htext')
    exact (workerRead_iff hnode hparse 0).mp (hall 0)
  · exact fun hfor => ⟨text, htext, (workerRead_iff hnode hparse · |>.mpr hfor)⟩

end Texts

/-- **Round trips.** The text of a message has the type of the message and gives the message back to every
message of its class exactly if the class writes the type, and it gives the message back to a worker exactly if
the message is one the worker takes for what it is. -/
theorem messages_round_trip (lib : JsonLib) (debug : Bool) (msg : CMsg) (op : ℤ)
    (hlib : ∀ node, CMsg.node { msg with iOperatorType := op } = .ok node →
      lib.parse (lib.write node) = some node) :
    (msg.RoundTrips lib debug op ↔ msg.body.Typed) ∧ (msg.ReadByWorker lib debug op ↔ msg.body.ForWorker debug) :=
  ⟨roundTrips_iff hlib, readByWorker_iff hlib⟩

/-- The library on one tree. -/
def JsonLib.only (text : String) (node : Json) : JsonLib :=
  ⟨fun _ => text, fun str => if str = text then some node else none⟩

lemma JsonLib.only_faithful {msg : CMsg} (h : msg.node = .ok node) (text : String) (node' : Json)
    (h' : msg.node = .ok node') :
    (JsonLib.only text node).parse ((JsonLib.only text node).write node') = some node' := by
  obtain rfl := ok.inj (h.symm.trans h')
  exact if_pos rfl

/-- `CMsgEditDB (GMT_C_EDIT_DB, 2, 7, "u")` written with the type of operation 3. -/
theorem messages_round_trip_editDB :
    let lib := JsonLib.only
      "\x7b\"MSGType\":256,\"OperatorType\":3,\"m_iID\":7,\"m_iType\":2,\"m_strUUID\":\"u\"\x7d\n"
      (.object [("MSGType", .int 256), ("OperatorType", .int 3), ("m_iID", .int 7), ("m_iType", .int 2),
        ("m_strUUID", .string "u")])
    CMsg.RoundTrips lib true ⟨0, .editDB 256 2 7 "u"⟩ 3 ∧ CMsg.ReadByWorker lib true ⟨0, .editDB 256 2 7 "u"⟩ 3 := by
  intro lib
  have h := messages_round_trip lib true ⟨0, .editDB 256 2 7 "u"⟩ 3 (JsonLib.only_faithful (by rfl) _)
  exact ⟨h.1.mpr trivial, h.2.mpr (.inl rfl)⟩

/-- A `CMsgAddDB` for the table type 3 has the type 3 in its text. -/
theorem addDB_not_round_trip : ∃ lib : JsonLib,
    (∀ node, CMsg.node ⟨3, .addDB 3 2 7 "u"⟩ = .ok node → lib.parse (lib.write node) = some node) ∧
    ¬ CMsg.RoundTrips lib false ⟨0, .addDB 3 2 7 "u"⟩ 3 := by
  obtain ⟨-, members, -, hnode, -⟩ := CMsg.node_spec ⟨3, .addDB 3 2 7 "u"⟩
  have hlib := JsonLib.only_faithful hnode
    "\x7b\"MSGType\":3,\"OperatorType\":3,\"m_iID\":7,\"m_iType\":2,\"m_strUUID\":\"u\"\x7d\n"
  refine ⟨_, hlib, fun h => ?_⟩
  have htyped : (3 : ℤ) = gmtAddDB := (roundTrips_iff hlib).mp h
  exact absurd htyped (by decide)

end Messages

end Gds
