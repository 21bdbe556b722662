import ReclaimFabric.Lib.Scan
import ReclaimFabric.Model.Store

/-!
# The registry of nodes

The part of the coordinator that keeps the registered nodes and their pressure reports:
`node_register`, `node_heartbeat`, `node_report_pressure`, `retire_stale_nodes` and the lookup
`node_for_backend_locked`.

* `State`           the registered nodes and the reports;
* `Change`          everything one call can do to them;
* `Wellformed`      names are unique and every report belongs to a registered node;
* `Separate`        requests with different names share no backend and no node id;
* `separate_of_plain`   so it is when no name contains a slash or an @;
* `backend_routing_unambiguous`   after requests that are separate no backend has two nodes.

Parsing a socket address is a parameter that answers the port.
-/

namespace ReclaimFabric

namespace Registry

structure BackendDescriptor where
  id : String
  kind : String
  location : Option String
deriving DecidableEq

structure NodeRegisterRequest where
  name : String
  processId : String
  bootId : Uuid
  addr : String
  backends : List BackendDescriptor
deriving DecidableEq

structure NodeInfo where
  nodeId : String
  name : String
  processId : String
  bootId : Uuid
  addr : String
  backends : List BackendDescriptor
  lastSeenMs : Int
deriving DecidableEq

structure NodeRegisterReply where
  nodeId : String
  coordinatorEpoch : Nat
  heartbeatIntervalMs : Nat
  heartbeatTimeoutMs : Int

structure PressureMetrics where
  acceleratorMemory : F64
  hostMemory : F64
  localStorage : F64
  remoteStorage : F64
  metadata : F64
  queue : F64
  network : F64

def PressureMetrics.validate (m : PressureMetrics) : Res Unit :=
  match [("accelerator_memory", m.acceleratorMemory), ("host_memory", m.hostMemory),
      ("local_storage", m.localStorage), ("remote_storage", m.remoteStorage),
      ("metadata", m.metadata), ("queue", m.queue), ("network", m.network)].find?
      (fun x => !x.2.inUnit) with
  | some x => .error (.invalidArgument s!"pressure metric {x.1} must be in [0,1]")
  | none => .ok ()

structure State where
  nodes : Table NodeInfo.nodeId
  reports : String → Option PressureMetrics
  epoch : Nat
  heartbeatTimeoutMs : Int

/-- the registry of a coordinator that has just opened the store -/
def State.fresh (epoch : Nat) (timeout : Int) : State := ⟨.empty, fun _ => none, epoch, timeout⟩

/-- what the environment contributes to a call -/
structure Input where
  now : Int
  /-- the checks of `with_inner` before it runs the section -/
  authority : Res Unit
  /-- the order in which the hash map is iterated -/
  order : List Nat
  /-- the answers to the audit appends of the call -/
  audit : Nat → Res Unit

/-! ## the calls -/

def startsWith (s start : String) : Bool := start.toList.isPrefixOf s.toList

/-- the loop over the backends of a request -/
def checkBackends (ns : String) : List String → List BackendDescriptor → Res Unit
  | _, [] => .ok ()
  | seen, b :: bs =>
    if ¬startsWith b.id ns ∨ b.id.utf8ByteSize = ns.utf8ByteSize then
      .error (.invalidArgument s!"node backend {b.id} must be namespaced under {ns}")
    else if blank b.kind then
      .error (.invalidArgument s!"node backend {b.id} has an empty kind")
    else if b.id ∈ seen then
      .error (.invalidArgument s!"node registration contains duplicate backend {b.id}")
    else checkBackends ns (b.id :: seen) bs

def checkNames (req : NodeRegisterRequest) : Res Unit :=
  if blank req.name || !trimmed req.name || blank req.processId || !trimmed req.processId then
    .error (.invalidArgument
      "node name and process id must be non-empty and have no surrounding whitespace")
  else checkBackends (req.name ++ "/") [] req.backends

def NodeRegisterRequest.nodeId (req : NodeRegisterRequest) : String :=
  s!"{req.name}@{req.processId}@{req.bootId}"

def checkAddr (parseAddr : String → Except String Nat) (addr : String) : Res Unit :=
  if blank addr || !trimmed addr then
    .error (.invalidArgument
      "node must provide its numeric listener address without surrounding whitespace")
  else
    match parseAddr addr with
    | .error e => .error (.invalidArgument s!"invalid node listen address {addr}: {e}")
    | .ok port =>
      if port = 0 then
        .error (.invalidArgument "node listen address must have a non-zero port")
      else .ok ()

def State.remove (s : State) (id : String) : State :=
  { s with nodes := s.nodes.erase id, reports := fun n => if n = id then none else s.reports n }

/-- the expired registrations, in the order the hash map gives them -/
def State.stale (s : State) (i : Input) : List String :=
  (i.order.filterMap (fun k => s.nodes.rows[k]?)).filterMap fun n =>
    if Store.saturatingSub i.now n.lastSeenMs > s.heartbeatTimeoutMs then some n.nodeId else none

/-- every expired registration is dropped and its retirement audited -/
def retireAll (audit : Nat → Res Unit) : Nat → List String → State → Res Nat × State
  | k, [], s => (.ok k, s)
  | k, id :: ids, s =>
    match audit k with
    | .error e => (.error e, s.remove id)
    | .ok () => retireAll audit (k + 1) ids (s.remove id)

def State.reply (s : State) (id : String) : NodeRegisterReply :=
  ⟨id, s.epoch, 5000, s.heartbeatTimeoutMs⟩

/-- a node that registers again -/
def NodeInfo.renewed (info : NodeInfo) (req : NodeRegisterRequest) (now : Int) : NodeInfo :=
  { info with lastSeenMs := now, addr := req.addr, backends := req.backends }

/-- the end of a registration, when expired nodes are gone -/
def enter (req : NodeRegisterRequest) (now : Int) (audited : Res Unit) (s : State) :
    Res NodeRegisterReply × State :=
  match s.nodes.rows.find? (fun n => decide (n.name = req.name) && decide (n.nodeId ≠ req.nodeId)) with
  | some other => (.error (.reservationConflict
      s!"node name {req.name} is already held by live registration {other.nodeId}"), s)
  | none =>
    match s.nodes.find? req.nodeId with
    | some existing =>
      let s' := { s with nodes := s.nodes.replace (existing.renewed req now) }
      (.ok (s'.reply req.nodeId), s')
    | none =>
      match s.nodes.insert? ⟨req.nodeId, req.name, req.processId, req.bootId, req.addr, req.backends,
          now⟩ with
      | none => (.ok (s.reply req.nodeId), s)
      | some T =>
        let s' := { s with nodes := T }
        match audited with
        | .error e => (.error e, s')
        | .ok () => (.ok (s'.reply req.nodeId), s')

def nodeRegister (parseAddr : String → Except String Nat) (req : NodeRegisterRequest) (i : Input)
    (s : State) : Res NodeRegisterReply × State :=
  match checkNames req with
  | .error e => (.error e, s)
  | .ok () =>
    match i.authority with
    | .error e => (.error e, s)
    | .ok () =>
      match checkAddr parseAddr req.addr with
      | .error e => (.error e, s)
      | .ok () =>
        match retireAll i.audit 0 (s.stale i) s with
        | (.error e, s₁) => (.error e, s₁)
        | (.ok k, s₁) => enter req i.now (i.audit k) s₁

def nodeHeartbeat (id : String) (i : Input) (s : State) : Res Nat × State :=
  match i.authority with
  | .error e => (.error e, s)
  | .ok () =>
    match s.nodes.find? id with
    | none => (.error (.notFound s!"node {id}"), s)
    | some info =>
      let info' := { info with lastSeenMs := max info.lastSeenMs i.now }
      (.ok s.epoch, { s with nodes := s.nodes.replace info' })

def nodeReportPressure (id : String) (m : PressureMetrics) (i : Input) (s : State) :
    Res Unit × State :=
  match m.validate with
  | .error e => (.error e, s)
  | .ok () =>
    match i.authority with
    | .error e => (.error e, s)
    | .ok () =>
      match s.nodes.find? id with
      | none => (.error (.notFound s!"node {id}"), s)
      | some _ =>
        -- `report_node`
        if blank id || !trimmed id then
          (.error (.invalidArgument
            "pressure-report node id must be non-empty and have no surrounding whitespace"), s)
        else (.ok (), { s with reports := fun n => if n = id then some m else s.reports n })

def retireStaleNodes (i : Input) (s : State) : Res (List String) × State :=
  match i.authority with
  | .error e => (.error e, s)
  | .ok () =>
    match retireAll i.audit 0 (s.stale i) s with
    | (.error e, s₁) => (.error e, s₁)
    | (.ok _, s₁) => (.ok (s.stale i), s₁)

/-- `node_for_backend_locked` -/
def State.nodeForBackend (s : State) (b : String) : Res (Option String) :=
  let owners := ((s.nodes.rows.filter fun n => n.backends.any fun d => decide (d.id = b)).map
    NodeInfo.nodeId).insertionSort (fun x y => x ≤ y)
  let ids := String.intercalate ", " owners
  if owners.length > 1 then
    .error (.reservationConflict s!"backend {b} is ambiguously registered by nodes {ids}")
  else .ok owners.getLast?

/-! ## runs -/

inductive Call where
  | register (req : NodeRegisterRequest)
  | heartbeat (id : String)
  | reportPressure (id : String) (m : PressureMetrics)
  | retire

def step (parseAddr : String → Except String Nat) (s : State) (c : Call × Input) : State :=
  match c.1 with
  | .register req => (nodeRegister parseAddr req c.2 s).2
  | .heartbeat id => (nodeHeartbeat id c.2 s).2
  | .reportPressure id m => (nodeReportPressure id m c.2 s).2
  | .retire => (retireStaleNodes c.2 s).2

/-- the registry after a sequence of calls, the last one first -/
def after (parseAddr : String → Except String Nat) (epoch : Nat) (timeout : Int) :
    List (Call × Input) → State
  | [] => .fresh epoch timeout
  | c :: cs => step parseAddr (after parseAddr epoch timeout cs) c

/-! ## what a call can do -/

/-- the changes of one call; `req` is the registration it makes -/
inductive Change (req : Option NodeRegisterRequest) : State → State → Prop where
  | same (s : State) : Change req s s
  | remove {s s' : State} (id : String) (h : Change req (s.remove id) s') : Change req s s'
  | seen {s : State} {info : NodeInfo} (h : info ∈ s.nodes) (t : Int) :
      Change req s { s with nodes := s.nodes.replace { info with lastSeenMs := t } }
  | renew {s : State} {info : NodeInfo} {r : NodeRegisterRequest} (hreq : req = some r)
      (h : info ∈ s.nodes) (hid : info.nodeId = r.nodeId) (t : Int) :
      Change req s { s with nodes := s.nodes.replace (info.renewed r t) }
  | enter {s : State} {r : NodeRegisterRequest} {T : Table NodeInfo.nodeId} {info : NodeInfo}
      (hreq : req = some r) (hid : info.nodeId = r.nodeId) (hname : info.name = r.name)
      (hbe : info.backends = r.backends) (h : s.nodes.insert? info = some T)
      (hother : ∀ n ∈ s.nodes, n.name ≠ r.name ∨ n.nodeId = r.nodeId) :
      Change req s { s with nodes := T }
  | report {s : State} {info : NodeInfo} (h : info ∈ s.nodes) (m : PressureMetrics) :
      Change req s { s with reports := fun n => if n = info.nodeId then some m else s.reports n }

section
variable {parseAddr : String → Except String Nat} {req : Option NodeRegisterRequest} {s s' : State}

/-- removals come first, so they can be put before any change -/
theorem Change.retireAll {audit : Nat → Res Unit} {ids : List String} {k : Nat}
    (h : Change req (retireAll audit k ids s).2 s') : Change req s s' := by
  induction ids generalizing k s with
  | nil => exact h
  | cons id ids ih =>
    apply Change.remove id
    unfold Registry.retireAll at h
    cases ha : audit k with
    | error e =>
      rw [ha] at h
      exact h
    | ok u =>
      rw [ha] at h
      exact ih h

theorem enter_change (r : NodeRegisterRequest) (now : Int) (audited : Res Unit) (s : State) :
    Change (some r) s (enter r now audited s).2 := by
  unfold enter
  split
  · exact .same s
  · next hnone =>
    have hother : ∀ n ∈ s.nodes, n.name ≠ r.name ∨ n.nodeId = r.nodeId := by
      intro n hn
      have := List.find?_eq_none.mp hnone n hn
      by_cases hname : n.name = r.name
      · right
        simpa [hname] using this
      · exact .inl hname
    split
    · next info hinfo =>
      obtain ⟨hmem, hid⟩ := Table.find?_eq_some.mp hinfo
      exact .renew rfl hmem hid now
    · split
      · exact .same s
      · next T hT =>
        have hc : Change (some r) s { s with nodes := T } := .enter rfl rfl rfl rfl hT hother
        split
        · exact hc
        · exact hc

/-- the registration that a call makes, once the checks of the request itself are passed -/
def accepted (parseAddr : String → Except String Nat) (c : Call × Input) :
    Option NodeRegisterRequest :=
  match c.1 with
  | .register r =>
    if (checkNames r).isOk && c.2.authority.isOk && (checkAddr parseAddr r.addr).isOk then some r
    else none
  | _ => none

theorem nodeRegister_change (r : NodeRegisterRequest) (i : Input) (s : State) :
    Change (accepted parseAddr (.register r, i)) s (nodeRegister parseAddr r i s).2 := by
  unfold nodeRegister
  split
  · exact .same s
  · next hnames =>
    split
    · exact .same s
    · next hauthority =>
      split
      · exact .same s
      · next haddr =>
        have hacc : accepted parseAddr (.register r, i) = some r := by
          simp only [accepted, hnames, hauthority, haddr]
          rfl
        rw [hacc]
        split
        · next e s₁ hr =>
          apply Change.retireAll
          rw [hr]
          exact .same s₁
        · next k s₁ hr =>
          apply Change.retireAll
          rw [hr]
          exact enter_change r i.now (i.audit k) s₁

theorem nodeHeartbeat_change (id : String) (i : Input) (s : State) :
    Change req s (nodeHeartbeat id i s).2 := by
  unfold nodeHeartbeat
  split
  · exact .same s
  split
  · exact .same s
  · next info hinfo => exact .seen (Table.mem_of_find? hinfo) _

theorem nodeReportPressure_change (id : String) (m : PressureMetrics) (i : Input) (s : State) :
    Change req s (nodeReportPressure id m i s).2 := by
  unfold nodeReportPressure
  split
  · exact .same s
  split
  · exact .same s
  split
  · exact .same s
  · next info hinfo =>
    split
    · exact .same s
    · obtain ⟨hmem, rfl⟩ := Table.find?_eq_some.mp hinfo
      exact .report hmem m

theorem retireStaleNodes_change (i : Input) (s : State) :
    Change req s (retireStaleNodes i s).2 := by
  unfold retireStaleNodes
  split
  · exact .same s
  split
  · next e s₁ hr =>
    apply Change.retireAll
    rw [hr]
    exact .same s₁
  · next k s₁ hr =>
    apply Change.retireAll
    rw [hr]
    exact .same s₁

theorem step_change (c : Call × Input) (s : State) :
    Change (accepted parseAddr c) s (step parseAddr s c) := by
  obtain ⟨c, i⟩ := c
  cases c with
  | register r => exact nodeRegister_change r i s
  | heartbeat id => exact nodeHeartbeat_change id i s
  | reportPressure id m => exact nodeReportPressure_change id m i s
  | retire => exact retireStaleNodes_change i s

/-! ## names and reports -/

/-- names are unique, and every report belongs to a registered node -/
structure Wellformed (s : State) : Prop where
  names : ∀ x ∈ s.nodes, ∀ y ∈ s.nodes, x.name = y.name → x = y
  reports : ∀ id m, s.reports id = some m → ∃ x ∈ s.nodes, x.nodeId = id

/-- the nodes a replacement leaves -/
theorem mem_replaced {T : Table NodeInfo.nodeId} {info info' x : NodeInfo}
    (hid : info'.nodeId = info.nodeId) (hx : x ∈ T.replace info') :
    x = info' ∨ x ∈ T ∧ x.nodeId ≠ info.nodeId := by
  rcases Table.mem_replace.mp hx with ⟨hx, hne⟩ | ⟨rfl, _⟩
  · rw [hid] at hne
    exact .inr ⟨hx, hne⟩
  · exact .inl rfl

theorem Wellformed.replaced (h : Wellformed s) {info info' : NodeInfo} (hi : info ∈ s.nodes)
    (hid : info'.nodeId = info.nodeId) (hname : info'.name = info.name) :
    Wellformed { s with nodes := s.nodes.replace info' } where
  names := by
    intro x hx y hy hxy
    rcases mem_replaced hid hx with rfl | ⟨hx', hxne⟩
    · rcases mem_replaced hid hy with rfl | ⟨hy', hyne⟩
      · rfl
      · rw [hname] at hxy
        exact absurd (h.names _ hi _ hy' hxy) fun he => hyne (congrArg NodeInfo.nodeId he.symm)
    · rcases mem_replaced hid hy with rfl | ⟨hy', _⟩
      · rw [hname] at hxy
        exact absurd (h.names _ hx' _ hi hxy) fun he => hxne (congrArg NodeInfo.nodeId he)
      · exact h.names x hx' y hy' hxy
  reports := by
    intro id m hm
    obtain ⟨x, hx, rfl⟩ := h.reports id m hm
    by_cases he : x.nodeId = info.nodeId
    · refine ⟨info', Table.mem_replace.mpr (.inr ⟨rfl, info, hi, hid.symm⟩), ?_⟩
      rw [hid, he]
    · refine ⟨x, Table.mem_replace.mpr (.inl ⟨hx, ?_⟩), rfl⟩
      rw [hid]
      exact he

theorem Change.wellformed (hc : Change req s s') (h : Wellformed s) : Wellformed s' := by
  induction hc with
  | same s => exact h
  | @remove s s' id _ ih =>
    apply ih
    constructor
    · intro x hx y hy hxy
      exact h.names x (Table.mem_erase.mp hx).1 y (Table.mem_erase.mp hy).1 hxy
    · intro n m hm
      simp only [State.remove] at hm
      split at hm
      · cases hm
      · next hne =>
        obtain ⟨x, hx, rfl⟩ := h.reports n m hm
        exact ⟨x, Table.mem_erase.mpr ⟨hx, hne⟩, rfl⟩
  | seen hi t => exact h.replaced hi rfl rfl
  | renew _ hi _ t => exact h.replaced hi rfl rfl
  | @enter s r T info _ hid hname _ hT hother =>
    have hfree : s.nodes.find? info.nodeId = none := (Table.insert?_eq_some hT).1
    have hnew : ∀ n ∈ s.nodes, n.name ≠ info.name := by
      intro n hn
      rcases hother n hn with hne | he
      · rw [hname]
        exact hne
      · exact absurd (he.trans hid.symm) (Table.find?_eq_none.mp hfree n hn)
    constructor
    · intro x hx y hy hxy
      rcases (Table.mem_insert? hT).mp hx with hx | rfl
      · rcases (Table.mem_insert? hT).mp hy with hy | rfl
        · exact h.names x hx y hy hxy
        · exact absurd hxy (hnew x hx)
      · rcases (Table.mem_insert? hT).mp hy with hy | rfl
        · exact absurd hxy.symm (hnew y hy)
        · rfl
    · intro id m hm
      obtain ⟨x, hx, hxid⟩ := h.reports id m hm
      exact ⟨x, (Table.mem_insert? hT).mpr (.inl hx), hxid⟩
  | @report s info hi m =>
    refine ⟨h.names, ?_⟩
    intro id m' hm
    by_cases he : id = info.nodeId
    · exact ⟨info, hi, he.symm⟩
    · simp only [if_neg he] at hm
      exact h.reports id m' hm

/-! ## backends -/

/-- every node is as some request of the run described it -/
def Described (R : List NodeRegisterRequest) (s : State) : Prop :=
  ∀ x ∈ s.nodes, ∃ r ∈ R, r.nodeId = x.nodeId ∧ r.name = x.name ∧ r.backends = x.backends

/-- requests with different names share no node id and no backend -/
def Separate (R : List NodeRegisterRequest) : Prop :=
  ∀ r ∈ R, ∀ r' ∈ R, r.name ≠ r'.name →
    r.nodeId ≠ r'.nodeId ∧ ∀ b ∈ r.backends, ∀ b' ∈ r'.backends, b.id ≠ b'.id

theorem Change.described {R : List NodeRegisterRequest} (hc : Change req s s') (hR : Separate R)
    (hreq : ∀ r, req = some r → r ∈ R) (h : Described R s) : Described R s' := by
  induction hc with
  | same s => exact h
  | remove id _ ih =>
    apply ih
    intro x hx
    exact h x (Table.mem_erase.mp hx).1
  | @seen s info hi t =>
    intro x hx
    rcases @mem_replaced s.nodes info { info with lastSeenMs := t } x rfl hx with rfl | ⟨hx', _⟩
    · exact h info hi
    · exact h x hx'
  | @renew s info r hr hi hid t =>
    intro x hx
    rcases @mem_replaced s.nodes info (info.renewed r t) x rfl hx with rfl | ⟨hx', _⟩
    · obtain ⟨r', hr', hid', hname', _⟩ := h info hi
      have hrR := hreq r hr
      refine ⟨r, hrR, hid.symm, ?_, rfl⟩
      -- the request that entered the node has its id, hence its name
      by_contra hne
      refine (hR r hrR r' hr' ?_).1 (hid.symm.trans hid'.symm)
      rw [hname']
      exact hne
    · exact h x hx'
  | @enter s r T info hr hid hname hbe hT _ =>
    intro x hx
    rcases (Table.mem_insert? hT).mp hx with hx | rfl
    · exact h x hx
    · exact ⟨r, hreq r hr, hid.symm, hname.symm, hbe.symm⟩
  | report _ _ => exact h

/-- the registrations of a run whose requests pass the checks -/
def requests (parseAddr : String → Except String Nat) (cs : List (Call × Input)) :
    List NodeRegisterRequest :=
  cs.filterMap (accepted parseAddr)

theorem Separate.mono {R R' : List NodeRegisterRequest} (h : Separate R') (hsub : R ⊆ R') :
    Separate R := fun r hr r' hr' => h r (hsub hr) r' (hsub hr')

theorem after_wellformed (epoch : Nat) (timeout : Int) (cs : List (Call × Input)) :
    Wellformed (after parseAddr epoch timeout cs) := by
  induction cs with
  | nil => exact ⟨fun x hx => absurd hx (Table.not_mem_empty x), fun _ _ h => by cases h⟩
  | cons c cs ih => exact (step_change c _).wellformed ih

theorem after_described (epoch : Nat) (timeout : Int) {cs : List (Call × Input)}
    (h : Separate (requests parseAddr cs)) :
    Described (requests parseAddr cs) (after parseAddr epoch timeout cs) := by
  induction cs with
  | nil => exact fun x hx => absurd hx (Table.not_mem_empty x)
  | cons c cs ih =>
    have hsub : requests parseAddr cs ⊆ requests parseAddr (c :: cs) := by
      intro r hr
      obtain ⟨d, hd, hdr⟩ := List.mem_filterMap.mp hr
      exact List.mem_filterMap.mpr ⟨d, List.mem_cons_of_mem _ hd, hdr⟩
    have hold : Described (requests parseAddr (c :: cs)) (after parseAddr epoch timeout cs) := by
      intro x hx
      obtain ⟨r, hr, hx⟩ := ih (h.mono hsub) x hx
      exact ⟨r, hsub hr, hx⟩
    refine (step_change c _).described h ?_ hold
    intro r hr
    exact List.mem_filterMap.mpr ⟨c, List.mem_cons_self, hr⟩

/-! ## routing -/

/-- the lookup succeeds when no two nodes list the backend -/
theorem nodeForBackend_ok {b : String}
    (h : ∀ x ∈ s.nodes, ∀ y ∈ s.nodes, (∃ d ∈ x.backends, d.id = b) → (∃ d ∈ y.backends, d.id = b) →
      x = y) : ∃ owner, s.nodeForBackend b = .ok owner := by
  unfold State.nodeForBackend
  set owners := s.nodes.rows.filter fun n => n.backends.any fun d => decide (d.id = b) with hdef
  have hlists : ∀ x ∈ owners, x ∈ s.nodes ∧ ∃ d ∈ x.backends, d.id = b := by
    intro x hx
    obtain ⟨hx, hb⟩ := List.mem_filter.mp hx
    obtain ⟨d, hd, hdb⟩ := List.any_eq_true.mp hb
    exact ⟨hx, d, hd, of_decide_eq_true hdb⟩
  have hnodup : owners.Nodup := s.nodes.nodup.of_map.filter _
  have hshort : owners.length ≤ 1 := by
    by_contra hlong
    rcases howners : owners with _ | ⟨x, _ | ⟨y, rest⟩⟩
    · rw [howners] at hlong
      simp at hlong
    · rw [howners] at hlong
      simp at hlong
    · rw [howners] at hnodup hlists
      have hx := hlists x List.mem_cons_self
      have hy := hlists y (List.mem_cons_of_mem _ List.mem_cons_self)
      have he := h x hx.1 y hy.1 hx.2 hy.2
      rw [he] at hnodup
      exact (List.nodup_cons.mp hnodup).1 List.mem_cons_self
  refine ⟨_, if_neg ?_⟩
  rw [List.length_insertionSort, List.length_map]
  omega

/-- no two nodes have a name or a backend in common, and every report has its node -/
structure Unambiguous (s : State) : Prop where
  wellformed : Wellformed s
  backends : ∀ x ∈ s.nodes, ∀ y ∈ s.nodes, ∀ b ∈ x.backends, ∀ b' ∈ y.backends, b.id = b'.id → x = y
  routed : ∀ b, ∃ owner, s.nodeForBackend b = .ok owner

theorem Described.unambiguous {R : List NodeRegisterRequest} (hR : Separate R) (h : Described R s)
    (hw : Wellformed s) : Unambiguous s := by
  have hback : ∀ x ∈ s.nodes, ∀ y ∈ s.nodes, ∀ b ∈ x.backends, ∀ b' ∈ y.backends,
      b.id = b'.id → x = y := by
    intro x hx y hy b hb b' hb' he
    obtain ⟨r, hr, _, hname, hbe⟩ := h x hx
    obtain ⟨r', hr', _, hname', hbe'⟩ := h y hy
    by_contra hne
    have hnames : r.name ≠ r'.name := by
      rw [hname, hname']
      exact fun hn => hne (hw.names x hx y hy hn)
    rw [← hbe] at hb
    rw [← hbe'] at hb'
    exact (hR r hr r' hr' hnames).2 b hb b' hb' he
  refine ⟨hw, hback, ?_⟩
  intro b
  apply nodeForBackend_ok
  rintro x hx y hy ⟨d, hd, rfl⟩ ⟨d', hd', he⟩
  exact hback x hx y hy d hd d' hd' he.symm

end

/-! ## names that cannot clash -/

section
variable {parseAddr : String → Except String Nat} {cs : List (Call × Input)}

/-- the backends of a request that passes the checks are filed under its name -/
theorem checkBackends_ok {ns : String} {seen : List String} {bs : List BackendDescriptor}
    (h : checkBackends ns seen bs = .ok ()) : ∀ b ∈ bs, ns.toList <+: b.id.toList := by
  induction bs generalizing seen with
  | nil => exact fun b hb => absurd hb List.not_mem_nil
  | cons d ds ih =>
    unfold checkBackends at h
    split at h
    · cases h
    · next hd =>
      split at h
      · cases h
      split at h
      · cases h
      rintro b hb
      rcases List.mem_cons.mp hb with rfl | hb
      · exact List.isPrefixOf_iff_prefix.mp (not_not.mp (not_or.mp hd).1)
      · exact ih h b hb

theorem checkNames_ok {r : NodeRegisterRequest} (h : checkNames r = .ok ()) :
    ∀ b ∈ r.backends, (r.name ++ "/").toList <+: b.id.toList := by
  unfold checkNames at h
  split at h
  · cases h
  · exact checkBackends_ok h

theorem accepted_backends {r : NodeRegisterRequest} (hr : r ∈ requests parseAddr cs) :
    ∀ b ∈ r.backends, (r.name ++ "/").toList <+: b.id.toList := by
  obtain ⟨⟨c, i⟩, -, hc⟩ := List.mem_filterMap.mp hr
  cases c with
  | register q =>
    simp only [accepted, Bool.and_eq_true, Option.ite_none_right_eq_some] at hc
    obtain ⟨⟨⟨hnames, -⟩, -⟩, hq⟩ := hc
    cases hq
    cases hn : checkNames r with
    | ok u => exact checkNames_ok hn
    | error e =>
      rw [hn] at hnames
      cases hnames
  | _ => cases hc

/-- what stands before the first `c` of a text -/
theorem before_inj {c : Char} {a a' b b' : List Char} (ha : c ∉ a) (ha' : c ∉ a')
    (h : a ++ c :: b = a' ++ c :: b') : a = a' := by
  have hcut : Scan.splitOnce [c] (a ++ c :: b) = some (a, b) := Scan.splitOnce_append c [] a b ha
  have hcut' : Scan.splitOnce [c] (a' ++ c :: b') = some (a', b') :=
    Scan.splitOnce_append c [] a' b' ha'
  rw [h, hcut'] at hcut
  exact (Prod.mk.inj (Option.some.inj hcut)).1.symm

/-- two requests clash only when a name goes on after a slash, or contains an @ -/
theorem separate_of_plain
    (h : ∀ r ∈ requests parseAddr cs, '/' ∉ r.name.toList ∧ '@' ∉ r.name.toList) :
    Separate (requests parseAddr cs) := by
  intro r hr r' hr' hne
  constructor
  · intro hid
    have hl := congrArg String.toList hid
    simp only [NodeRegisterRequest.nodeId, toString, String.toList_append, List.append_assoc] at hl
    exact hne (String.toList_inj.mp (before_inj (h r hr).2 (h r' hr').2 hl))
  · intro b hb b' hb' hid
    obtain ⟨l, hl⟩ := accepted_backends hr b hb
    obtain ⟨l', hl'⟩ := accepted_backends hr' b' hb'
    have hboth : r.name.toList ++ '/' :: l = r'.name.toList ++ '/' :: l' := by
      rw [String.toList_append, List.append_assoc] at hl hl'
      exact hl.trans ((congrArg String.toList hid).trans hl'.symm)
    exact hne (String.toList_inj.mp (before_inj (h r hr).1 (h r' hr').1 hboth))

end

/-- Routing over every sequence of calls: names stay unique and reports keep their node, and if
requests with different names share no node id and no backend, no backend id is listed by two
nodes, so that the lookup always succeeds. -/
theorem backend_routing_unambiguous (parseAddr : String → Except String Nat) (epoch : Nat)
    (timeout : Int) (cs : List (Call × Input)) (h : Separate (requests parseAddr cs)) :
    Unambiguous (after parseAddr epoch timeout cs) :=
  (after_described epoch timeout h).unambiguous h (after_wellformed epoch timeout cs)

namespace Sample

def input : Input := ⟨1000, .ok (), List.range 4, fun _ => .ok ()⟩

def address : String := "127.0.0.1:7910"

def parseAddr (s : String) : Except String Nat :=
  if s = address then .ok 7910 else .error "invalid socket address syntax"

def node (name backend : String) : Call × Input :=
  (.register ⟨name, "p", .nil, address, [⟨backend, "file", none⟩]⟩, input)

/-- two nodes with names of their own -/
def apart : List (Call × Input) := [node "b" "b/disk", node "a" "a/disk"]

/-- the name of the second node continues the name of the first, and both list one backend -/
def nested : List (Call × Input) := [node "a/b" "a/b/disk", node "a" "a/b/disk"]

end Sample

theorem backend_routing_apart :
    Separate (requests Sample.parseAddr Sample.apart) ∧
      (after Sample.parseAddr 1 10000 Sample.apart).nodes.rows.length = 2 ∧
      Unambiguous (after Sample.parseAddr 1 10000 Sample.apart) := by
  have hsep : Separate (requests Sample.parseAddr Sample.apart) := by
    unfold Separate
    decide
  exact ⟨hsep, by decide +kernel, backend_routing_unambiguous _ _ _ _ hsep⟩

theorem backend_routing_nested : ¬Unambiguous (after Sample.parseAddr 1 10000 Sample.nested) := by
  intro h
  obtain ⟨owner, ho⟩ := h.routed "a/b/disk"
  have hnone : ((after Sample.parseAddr 1 10000 Sample.nested).nodeForBackend
      "a/b/disk").toOption = none := by decide +kernel
  rw [ho] at hnone
  cases hnone

end Registry

end ReclaimFabric
