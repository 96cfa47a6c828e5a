import ZeroMQ.Gds.BrokerMoves

/-!
# What the GDS broker makes of its input

Texts that are JSON are read without looking first what they are: the library asserts that only an object or
nothing is asked for a member, and `jsonAPI` asserts in a debug build that the member is there and has its
type. `Readable` is the exact condition under which members are read without a fault, and from it follows
when the services of the broker have an answer.
-/

namespace Gds

open Foundation List

/-- There is a result. -/
def Succeeds {ε α : Type} (r : Except ε α) : Prop := ∃ a, r = .ok a

/-! ### Reading -/

section Reading

variable {debug : Bool} {node : Json}

/-- Nothing, or an object: the library does not refuse to look for a member. -/
def Json.IsMembers (node : Json) : Prop :=
  match node with
  | .null => True
  | .object _ => True
  | _ => False

/-- The member is an integer. -/
def Json.IntAt (node : Json) (key : String) : Prop := ∃ value, node.get key = .ok (.int value)

/-- The member is a string. -/
def Json.StringAt (node : Json) (key : String) : Prop := ∃ value, node.get key = .ok (.string value)

/-- Members can be read: in a debug build they must be there and have their types. -/
def Readable (debug : Bool) (node : Json) (ints strings : List String) : Prop :=
  node.IsMembers ∧ (debug = true → (∀ key ∈ ints, node.IntAt key) ∧ ∀ key ∈ strings, node.StringAt key)

/-- When a member is read without a fault; `present` says that it is there and has the type. A debug build
does not tell the caller that it is not. -/
structure Reads {α : Type} (debug : Bool) (node : Json) (present : Prop) (r : Except JsonFault (Option α)) :
    Prop where
  succeeds : Succeeds r ↔ node.IsMembers ∧ (debug = true → present)
  found : debug = true → r ≠ .ok none

lemma getInt_reads (key : String) : Reads debug node (node.IntAt key) (getInt debug node key) := by
  cases node with
  | null => cases debug <;> constructor <;> simp [Succeeds, getInt, Json.get, Json.IsMembers, Json.IntAt, assertC]
  | object members =>
    cases hvalue : (members.lookup key).getD .null <;> cases debug <;> constructor <;>
      simp [Succeeds, getInt, Json.get, Json.IsMembers, Json.IntAt, assertC, hvalue]
  | _ => constructor <;> simp [Succeeds, getInt, Json.get, Json.IsMembers]

lemma getString_reads (key : String) : Reads debug node (node.StringAt key) (getString debug node key) := by
  cases node with
  | null =>
    cases debug <;> constructor <;> simp [Succeeds, getString, Json.get, Json.IsMembers, Json.StringAt, assertC]
  | object members =>
    cases hvalue : (members.lookup key).getD .null <;> cases debug <;> constructor <;>
      simp [Succeeds, getString, Json.get, Json.IsMembers, Json.StringAt, assertC, hvalue]
  | _ => constructor <;> simp [Succeeds, getString, Json.get, Json.IsMembers]

variable {α β ε : Type}

lemma Reads.andThen_iff {present after : Prop} {r : Except JsonFault (Option α)}
    (hr : Reads debug node present r) {other : β} {f : α → Except JsonFault (Bool × β)}
    (hf : ∀ a, Succeeds (f a) ↔ node.IsMembers ∧ (debug = true → after)) :
    Succeeds (andThen r other f) ↔ node.IsMembers ∧ (debug = true → present ∧ after) := by
  cases h : r with
  | error e =>
    have hnot : ¬ Succeeds r := by
      rintro ⟨a, ha⟩
      rw [h] at ha
      cases ha
    refine iff_of_false ?_ fun hall => hnot (hr.succeeds.mpr ⟨hall.1, fun hd => (hall.2 hd).1⟩)
    rintro ⟨a, ha⟩
    cases ha
  | ok o =>
    have hmembers := hr.succeeds.mp ⟨o, h⟩
    cases o with
    | none =>
      have hrelease : debug ≠ true := fun hd => hr.found hd h
      exact iff_of_true ⟨_, rfl⟩ ⟨hmembers.1, fun hd => absurd hd hrelease⟩
    | some a =>
      rw [show andThen (.ok (some a)) other f = f a from rfl, hf]
      exact ⟨fun hall => ⟨hall.1, fun hd => ⟨hmembers.2 hd, hall.2 hd⟩⟩,
        fun hall => ⟨hall.1, fun hd => (hall.2 hd).2⟩⟩

lemma Reads.andThen_ok_iff {present : Prop} {r : Except JsonFault (Option α)}
    (hr : Reads debug node present r) {other : β} {f : α → Except JsonFault (Bool × β)}
    (hf : ∀ a, Succeeds (f a)) :
    Succeeds (andThen r other f) ↔ node.IsMembers ∧ (debug = true → present) := by
  by_cases hmembers : node.IsMembers
  · have hall : Succeeds (andThen r other f) ↔ node.IsMembers ∧ (debug = true → present ∧ True) :=
      hr.andThen_iff fun a => iff_of_true (hf a) ⟨hmembers, fun _ => trivial⟩
    simpa using hall
  · refine iff_of_false ?_ fun hall => hmembers hall.1
    rintro ⟨x, hx⟩
    cases h : r with
    | error e =>
      rw [h] at hx
      cases hx
    | ok o => exact hmembers (hr.succeeds.mp ⟨o, h⟩).1

lemma Succeeds.map_iff {r : Except ε α} {f : α → β} : Succeeds (r.map f) ↔ Succeeds r := by
  cases r <;> simp [Succeeds, Except.map]

lemma Succeeds.bind_iff {r : Except ε α} {f : α → Except ε β} {P : Prop}
    (hf : ∀ a, r = .ok a → (Succeeds (f a) ↔ P)) : Succeeds (r >>= f) ↔ Succeeds r ∧ P := by
  cases r with
  | error e => simp [Succeeds, bind, Except.bind]
  | ok a =>
    rw [show (Except.ok a >>= f) = f a from rfl, hf a rfl]
    exact ⟨fun h => ⟨⟨a, rfl⟩, h⟩, fun h => h.2⟩

lemma succeeds_ofJson {r : Except JsonFault α} : Succeeds (ofJson r) ↔ Succeeds r := by
  cases r <;> simp [Succeeds, ofJson, Except.mapError]

lemma ProjectInfo.doRead_succeeds (info : ProjectInfo) : Succeeds (info.doRead debug node) ↔
    Readable debug node ["m_projectType"] ["m_strName", "m_strPath", "m_strUUID"] := by
  rw [ProjectInfo.doRead]
  refine ((getInt_reads _).andThen_iff fun iType => (getString_reads _).andThen_iff fun strName =>
    (getString_reads _).andThen_iff fun strPath => (getString_reads _).andThen_ok_iff fun strUUID =>
      ⟨_, rfl⟩).trans ?_
  simp [Readable]

lemma readOperatorType_succeeds (iType : ℤ) : Succeeds (readOperatorType debug iType node) ↔
    Readable debug node ["OperatorType"] [] := by
  rw [readOperatorType, Succeeds.map_iff, (getInt_reads _).succeeds]
  simp [Readable]

lemma getNodeType_succeeds : Succeeds (getNodeType debug node) ↔ Readable debug node ["MSGType"] [] := by
  rw [getNodeType, Succeeds.map_iff, (getInt_reads _).succeeds]
  simp [Readable]

lemma getNodeType_eq {type : ℤ} (h : getNodeType debug node = .ok type) (hne : type ≠ 0) :
    node.get "MSGType" = .ok (.int type) := by
  have hread : ∀ r, getInt debug node "MSGType" = .ok r → r.getD 0 = type := fun r hr => by
    rw [getNodeType, hr] at h
    exact Except.ok.inj h
  cases hnode : node.get "MSGType" with
  | error e => simp [getNodeType, getInt, hnode, Except.map] at h
  | ok value =>
    cases value with
    | int v =>
      have hv := hread (some v) (by simp [getInt, hnode])
      rw [← hv]
      rfl
    | _ =>
      exfalso
      cases debug with
      | true => simp [getNodeType, getInt, hnode, Except.map, assertC] at h
      | false => exact hne (hread none (by simp [getInt, hnode, assertC])).symm

lemma ProjectInfo.read_succeeds (info : ProjectInfo) (iType : ℤ) : Succeeds (info.read debug iType node) ↔
    Readable debug node ["OperatorType", "m_projectType"] ["m_strName", "m_strPath", "m_strUUID"] := by
  have hbind : info.read debug iType node = readOperatorType debug iType node >>= fun op =>
      ProjectInfo.doRead debug { info with iOperatorType := op } node := by
    rw [ProjectInfo.read]
    cases readOperatorType debug iType node <;> rfl
  rw [hbind, Succeeds.bind_iff fun op _ => ProjectInfo.doRead_succeeds _, readOperatorType_succeeds]
  simp only [Readable, forall_mem_cons]
  tauto

lemma CMsg.read_succeeds_connectInfo (op iType : ℤ) (strUser strPassWord : String) :
    Succeeds (CMsg.read debug ⟨op, .connectInfo strUser strPassWord⟩ iType node) ↔
      Readable debug node ["OperatorType"] ["User", "Pass"] := by
  have hbind : CMsg.read debug ⟨op, .connectInfo strUser strPassWord⟩ iType node =
    readOperatorType debug iType node >>= fun op =>
      ((Body.connectInfo strUser strPassWord).doRead debug iType node).map fun r => (r.1, ⟨op, r.2⟩) := by
    rw [CMsg.read]
    cases readOperatorType debug iType node <;> rfl
  have hdo : Succeeds ((Body.connectInfo strUser strPassWord).doRead debug iType node) ↔
      Readable debug node [] ["User", "Pass"] := by
    rw [Body.doRead]
    refine ((getString_reads _).andThen_iff fun _ => (getString_reads _).andThen_ok_iff fun _ => ⟨_, rfl⟩).trans ?_
    simp [Readable]
  rw [hbind, Succeeds.bind_iff fun op _ => Succeeds.map_iff.trans hdo, readOperatorType_succeeds]
  simp only [Readable, forall_mem_cons]
  tauto

lemma CMsg.read_succeeds_uuid (op iType iMsgType : ℤ) (strUUID : String) :
    Succeeds (CMsg.read debug ⟨op, .uuid iMsgType strUUID⟩ iType node) ↔
      Readable debug node ["OperatorType", "MSGType"] ["UUID"] := by
  have hbind : CMsg.read debug ⟨op, .uuid iMsgType strUUID⟩ iType node =
    readOperatorType debug iType node >>= fun op =>
      ((Body.uuid iMsgType strUUID).doRead debug iType node).map fun r => (r.1, ⟨op, r.2⟩) := by
    rw [CMsg.read]
    cases readOperatorType debug iType node <;> rfl
  have hdo : Succeeds ((Body.uuid iMsgType strUUID).doRead debug iType node) ↔
      Readable debug node ["MSGType"] ["UUID"] := by
    have hbind : (Body.uuid iMsgType strUUID).doRead debug iType node = getNodeType debug node >>= fun iMsgType =>
      andThen (getString debug node "UUID") (.uuid iMsgType strUUID) fun strUUID =>
        .ok (true, .uuid iMsgType strUUID) := by
      rw [Body.doRead]
      cases getNodeType debug node <;> rfl
    have hstring : ∀ t, getNodeType debug node = .ok t → (Succeeds (andThen (getString debug node "UUID")
        (Body.uuid t strUUID) fun strUUID => .ok (true, .uuid t strUUID)) ↔
          Readable debug node [] ["UUID"]) := fun t _ => by
      refine ((getString_reads _).andThen_ok_iff fun _ => ⟨_, rfl⟩).trans ?_
      simp [Readable]
    rw [hbind, Succeeds.bind_iff hstring, getNodeType_succeeds]
    simp only [Readable, forall_mem_cons]
    tauto
  rw [hbind, Succeeds.bind_iff fun op _ => Succeeds.map_iff.trans hdo, readOperatorType_succeeds]
  simp only [Readable, forall_mem_cons]
  tauto

end Reading

/-! ### Services of the broker -/

/-- What a client may send to the virtual service, as far as its text is JSON: a type and, for the types that
are read further, the fields that are read. -/
def VirtualReadable (debug : Bool) (node : Json) : Prop :=
  Readable debug node ["MSGType"] [] ∧
    (node.get "MSGType" = .ok (.int gmtConnectServer) → Readable debug node ["OperatorType"] ["User", "Pass"]) ∧
    (node.get "MSGType" = .ok (.int gmtOpenProject) → Readable debug node ["OperatorType", "MSGType"] ["UUID"])

section Services

variable {lib : JsonLib} {debug : Bool} {again : Prop} {memory : UInt64} {b : Broker}

lemma Live.projects (h : Live b) {l : List String} (hl : ∀ identity ∈ l, identity ∈ b.workers) :
    ∃ infos, b.projects l = .ok infos := by
  induction l with
  | nil => exact ⟨[], rfl⟩
  | cons identity rest ih =>
    obtain ⟨infos, hinfos⟩ := ih fun other hother => hl other (mem_cons_of_mem _ hother)
    obtain ⟨p, hp⟩ := Finmap.mem_iff.mp (hl identity mem_cons_self)
    obtain ⟨wrk, hwrk, -⟩ := h.named identity p hp
    exact ⟨wrk.projInfo :: infos, by
      simp only [Broker.projects, hp, Broker.deref, hwrk, hinfos, bind, Except.bind]⟩

lemma Live.allProjects (h : Live b) : ∃ infos, b.allProjects = .ok infos :=
  h.projects fun _ hmem => Finmap.mem_keys.mp ((Finset.mem_sort _).mp hmem)

lemma resultText_succeeds (body : Body) : Succeeds (Broker.resultText lib body) := by
  obtain ⟨text, htext⟩ := toString_ok lib ⟨0, body⟩ 0
  exact ⟨cstr text, by simp only [Broker.resultText, htext, ofJson, Except.mapError, bind, Except.bind]⟩

lemma ofJson_reads {α : Type} (result : Except JsonFault α) :
    Yields (ofJson result) (fun _ => True) (· ≠ .nullService) := by
  cases result with
  | error f => exact fun heq => (by cases heq)
  | ok a => trivial

lemma resultText_reads (body : Body) : Yields (Broker.resultText lib body) (fun _ => True) (· ≠ .nullService) :=
  (ofJson_reads _).bind fun _ _ => trivial

lemma virtualBody_reads (h : Live b) (iOther : ℤ) (body : String) :
    Yields (b.virtualBody lib debug iOther body) (fun _ => True) (· ≠ .nullService) := by
  obtain ⟨infos, hinfos⟩ := h.allProjects
  rw [Broker.virtualBody]
  split
  · trivial
  refine (ofJson_reads _).bind fun iType _ => ?_
  rw [hinfos]
  split
  · exact (ofJson_reads _).bind fun _ _ => resultText_reads _
  split
  · exact resultText_reads _
  split
  · exact (ofJson_reads _).bind fun _ _ =>
      Yields.bind (r := .ok infos) (Q := fun _ => True) trivial fun _ _ => resultText_reads _
  · trivial

lemma virtualBody_succeeds (h : Live b) (iOther : ℤ) (body : String) :
    Succeeds (b.virtualBody lib debug iOther body) ↔
      ∀ node, lib.parse body = some node → VirtualReadable debug node := by
  rw [Broker.virtualBody]
  cases hparse : lib.parse body with
  | none => exact iff_of_true ⟨body, rfl⟩ fun node hnode => (by cases hnode)
  | some node =>
    obtain ⟨infos, hinfos⟩ := h.allProjects
    simp only [Option.some.injEq, forall_eq']
    cases htype : getNodeType debug node with
    | error e =>
      have hnot : ¬ Readable debug node ["MSGType"] [] := fun hread => by
        obtain ⟨t, ht⟩ := getNodeType_succeeds.mpr hread
        rw [htype] at ht
        cases ht
      refine iff_of_false ?_ fun hread => hnot hread.1
      rintro ⟨text, htext⟩
      cases htext
    | ok type =>
      have hread : Readable debug node ["MSGType"] [] := getNodeType_succeeds.mp ⟨type, htype⟩
      have hmember : ∀ t, node.get "MSGType" = .ok (.int t) → t = type := fun t ht => by
        simpa [getNodeType, getInt, ht, Except.map] using htype
      have hget : type ≠ 0 → node.get "MSGType" = .ok (.int type) := getNodeType_eq htype
      have htail : ∀ t, type ≠ t → (node.get "MSGType" = .ok (.int t) ↔ False) := fun t hne =>
        iff_false_intro fun ht => hne (hmember t ht).symm
      rw [show (ofJson (.ok type : Except JsonFault ℤ)) = .ok type from rfl]
      change Succeeds (ite _ _ _) ↔ _
      by_cases hconnect : type = gmtConnectServer
      · rw [if_pos hconnect]
        refine (Succeeds.bind_iff fun _ _ => iff_true_intro (resultText_succeeds _)).trans ?_
        rw [succeeds_ofJson, CMsg.read_succeeds_connectInfo, VirtualReadable,
          htail gmtOpenProject (by rw [hconnect]; decide), ← hconnect, hget (by rw [hconnect]; decide)]
        simp [hread]
      rw [if_neg hconnect, VirtualReadable, htail gmtConnectServer hconnect]
      by_cases hinfo : type = gmtServerInfo
      · rw [if_pos hinfo, hinfos, htail gmtOpenProject (by rw [hinfo]; decide)]
        exact iff_of_true (resultText_succeeds _) ⟨hread, False.elim, False.elim⟩
      rw [if_neg hinfo]
      by_cases hopen : type = gmtOpenProject
      · have hbind : ∀ f : List ProjectInfo → Except BrokerFault String, (.ok infos >>= f) = f infos := fun _ => rfl
        simp only [if_pos hopen, hinfos, hbind]
        refine (Succeeds.bind_iff fun _ _ => iff_true_intro (resultText_succeeds _)).trans ?_
        rw [succeeds_ofJson, CMsg.read_succeeds_uuid, ← hopen, hget (by rw [hopen]; decide)]
        simp [hread]
      · rw [if_neg hopen, htail gmtOpenProject hopen]
        exact iff_of_true ⟨_, rfl⟩ ⟨hread, False.elim, False.elim⟩

lemma not_isRequest_answer (msg : Zmsg) (client name : String) :
    ¬ IsRequest (Zmsg.wrap (Zmsg.wrap msg mdpcClient name) client "") := fun h => by
  have hheader : mdpcClient = mdpwWorker := Option.some.inj h.1
  exact absurd hheader (by decide)

lemma answer_moves (name : String) {msg : Zmsg} (hne : msg ≠ []) :
    ∃ b', b.answer name msg = .ok b' ∧ Moves again memory b b' := by
  obtain ⟨client, rest, rfl⟩ := exists_cons_of_ne_nil hne
  exact ⟨_, rfl, .single (.send _ (not_isRequest_answer _ _ _))⟩

lemma bodySet_ne_nil (msg : Zmsg) (body : String) : Zmsg.bodySet msg body ≠ [] :=
  append_ne_nil_of_right_ne_nil _ (cons_ne_nil _ _)

end Services

end Gds
