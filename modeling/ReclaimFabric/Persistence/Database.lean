import ReclaimFabric.Persistence.Rows

/-!
# Objects and replicas in the database

The methods of the store on rows.  A method is a transaction: an error rolls everything back
(`transaction`), so it leaves the database as it was.

* `createObject`, `updateObject`, `getObject`     objects by id;
* `addReplica`, `replicasFor`                     the replicas of an object;
* `createObject_free`, `updateObject_present`, `addReplica_free`   the row that is written.
-/

namespace ReclaimFabric

open Result (bind_ok mapM_ok mem_of_mapM ok_or_error)
open Sql (Value Row insertRow setRow ofOption)

/-! ## methods -/

/-- the primary keys -/
abbrev objectKey (r : Row ObjectColumn F64) : Value F64 := r .id

abbrev replicaKey (r : Row ReplicaColumn F64) : Value F64 := r .replicaId

structure Db where
  objects : Table objectKey
  replicas : Table replicaKey

namespace Db

/-- commit on success, roll back on an error -/
def transaction (body : Db → Res Db) (db : Db) : Res Unit × Db :=
  match body db with
  | .ok db' => (.ok (), db')
  | .error e => (.error e, db)

/-- `map_sqlite` -/
def mapSqlite {κ α : Type} (c : Crates) : Except (Sql.Error κ) α → Res α
  | .ok a => .ok a
  | .error e => .error (.persistence (c.sqlText κ e))

def insertObjectRow (c : Crates) (o : ReclaimObject) (db : Db) : Res Db := do
  Store.checkObjectRow o
  match db.objects.insert? (insertRow objectColumns (objectValues c o)) with
  | none => throw (Store.uniqueError "objects.id")
  | some t => pure { db with objects := t }

/-- the UPDATE does not assign the id -/
theorem setRow_key (params : List (Value F64)) (r : Row ObjectColumn F64) :
    objectKey (setRow objectAssignments params r) = objectKey r := rfl

/-- `WHERE id=?1` -/
def hasId (id : Uuid) (r : Row ObjectColumn F64) : Bool := decide (objectKey r = .text id.text)

def updateObjectRow (c : Crates) (o : ReclaimObject) (db : Db) : Res Db := do
  Store.checkObjectRow o
  let changed := db.objects.countWhere (hasId o.id)
  if changed ≠ 1 then
    throw (.notFound ("object " ++ o.id.text))
  let t := db.objects.updateWhere (hasId o.id) (setRow objectAssignments (objectValues c o))
    (setRow_key _)
  pure { db with objects := t }

def createObject (c : Crates) (o : ReclaimObject) : Db → Res Unit × Db :=
  transaction fun db => do
    o.validate
    insertObjectRow c o db

def updateObject (c : Crates) (o : ReclaimObject) : Db → Res Unit × Db :=
  transaction fun db => do
    o.validate
    updateObjectRow c o db

def getObject (c : Crates) (id : Uuid) (db : Db) : Res (Option ReclaimObject) :=
  match db.objects.find? (.text id.text) with
  | some r => (mapSqlite c (rowToObject c r)).map some
  | none => .ok none

def addReplica (r : Replica) : Db → Res Unit × Db :=
  transaction fun db => do
    Store.validateReplicaDescriptor r
    match db.replicas.insert? (insertRow replicaColumns (replicaValues r)) with
    | none => throw (Store.uniqueError "replicas.replica_id")
    | some t => pure { db with replicas := t }

/-- what the rows are sorted by; a row whose id is no TEXT is refused wherever it stands -/
def replicaIdText (r : Row ReplicaColumn F64) : String :=
  match replicaKey r with
  | .text s => s
  | _ => ""

def replicasFor (c : Crates) (id : Uuid) (db : Db) : Res (List Replica) :=
  ((db.replicas.rows.filter (fun r => decide (r .objectId = .text id.text))).insertionSort
    (fun a b => replicaIdText a ≤ replicaIdText b)).mapM (fun r => mapSqlite c (rowToReplica c r))

/-! ## transactions -/

theorem transaction_ok {body : Db → Res Db} {db db' : Db} (h : body db = .ok db') :
    transaction body db = (.ok (), db') := by
  rw [transaction, h]

theorem transaction_error {body : Db → Res Db} {db : Db} {e : ReclaimError}
    (h : body db = .error e) : transaction body db = (.error e, db) := by
  rw [transaction, h]

theorem mapSqlite_ok {κ α : Type} {c : Crates} {x : Except (Sql.Error κ) α} {a : α} :
    mapSqlite c x = .ok a ↔ x = .ok a := by
  cases x with
  | error e => exact ⟨nofun, nofun⟩
  | ok b =>
    constructor
    · intro h
      rw [Except.ok.inj h]
    · intro h
      rw [Except.ok.inj h]
      rfl

end Db

/-! ## ranges -/

/-- every unsigned 64 bit field is at most `i64::MAX` -/
structure ReclaimObject.InRange (o : ReclaimObject) : Prop where
  generation : o.generation ≤ i64Max
  logicalSize : o.logicalSize ≤ i64Max
  physicalSize : o.physicalSize ≤ i64Max
  compressedSize : ∀ n, o.compressedSize = some n → n ≤ i64Max
  accessCount : o.accessCount ≤ i64Max
  reuseHorizonSecs : ∀ n, o.reuseHorizonSecs = some n → n ≤ i64Max
  decisionEpoch : o.decisionEpoch ≤ i64Max

theorem sqlU64_ok {field : String} {n : Nat} {u : Unit} :
    Store.sqlU64 field n = .ok u ↔ n ≤ i64Max := by
  unfold Store.sqlU64
  split
  · next h => exact ⟨fun _ => h, fun _ => rfl⟩
  · next h => exact ⟨nofun, fun h' => absurd h' h⟩

theorem sqlOptionalU64_ok {field : String} {n : Option Nat} {u : Unit} :
    Store.sqlOptionalU64 field n = .ok u ↔ ∀ k, n = some k → k ≤ i64Max := by
  cases n with
  | none => exact ⟨fun _ => nofun, fun _ => rfl⟩
  | some k =>
    refine sqlU64_ok.trans ⟨?_, fun h => h k rfl⟩
    intro h j hj
    rw [← Option.some.inj hj]
    exact h

theorem checkObjectRow_ok {o : ReclaimObject} : Store.checkObjectRow o = .ok () ↔ o.InRange := by
  unfold Store.checkObjectRow
  constructor
  · intro h
    obtain ⟨_, hgen, h⟩ := bind_ok.mp h
    obtain ⟨_, hlogical, h⟩ := bind_ok.mp h
    obtain ⟨_, hphysical, h⟩ := bind_ok.mp h
    obtain ⟨_, hcompressed, h⟩ := bind_ok.mp h
    obtain ⟨_, hcount, h⟩ := bind_ok.mp h
    obtain ⟨_, hhorizon, h⟩ := bind_ok.mp h
    exact ⟨sqlU64_ok.mp hgen, sqlU64_ok.mp hlogical, sqlU64_ok.mp hphysical,
      sqlOptionalU64_ok.mp hcompressed, sqlU64_ok.mp hcount, sqlOptionalU64_ok.mp hhorizon,
      sqlU64_ok.mp h⟩
  · intro h
    refine bind_ok.mpr ⟨(), sqlU64_ok.mpr h.generation, ?_⟩
    refine bind_ok.mpr ⟨(), sqlU64_ok.mpr h.logicalSize, ?_⟩
    refine bind_ok.mpr ⟨(), sqlU64_ok.mpr h.physicalSize, ?_⟩
    refine bind_ok.mpr ⟨(), sqlOptionalU64_ok.mpr h.compressedSize, ?_⟩
    refine bind_ok.mpr ⟨(), sqlU64_ok.mpr h.accessCount, ?_⟩
    refine bind_ok.mpr ⟨(), sqlOptionalU64_ok.mpr h.reuseHorizonSecs, ?_⟩
    exact sqlU64_ok.mpr h.decisionEpoch

/-! ## what is written -/

namespace Db

section
variable {c : Crates} {o : ReclaimObject} {db : Db}

/-- the row of the object is the canonical one, the others are as before -/
structure HasObject (c : Crates) (o : ReclaimObject) (db db' : Db) : Prop where
  row : db'.objects.find? (.text o.id.text) = some (objectRow c o)
  others : ∀ k, k ≠ .text o.id.text → db'.objects.find? k = db.objects.find? k
  replicas : db'.replicas = db.replicas

theorem createObject_free (hv : o.validate = .ok ()) (hr : o.InRange)
    (hfree : db.objects.find? (.text o.id.text) = none) :
    ∃ db', createObject c o db = (.ok (), db') ∧ HasObject c o db db' := by
  obtain ⟨t, ht⟩ := Table.insert?_of_none (r := objectRow c o) hfree
  have hfind := fun k => Table.find?_insert? (k := k) ht
  refine ⟨{ db with objects := t }, transaction_ok ?_, ⟨?_, ?_, rfl⟩⟩
  · refine bind_ok.mpr ⟨(), hv, bind_ok.mpr ⟨(), checkObjectRow_ok.mpr hr, ?_⟩⟩
    rw [insertRow_object, ht]
    rfl
  · exact (hfind _).trans (if_pos rfl)
  · intro k hk
    exact (hfind k).trans (if_neg (Ne.symm hk))

theorem createObject_taken (hv : o.validate = .ok ()) (hr : o.InRange)
    (htaken : db.objects.find? (.text o.id.text) ≠ none) :
    createObject c o db = (.error (Store.uniqueError "objects.id"), db) := by
  refine transaction_error ?_
  have hins : db.objects.insert? (objectRow c o) = none := by
    cases h : db.objects.insert? (objectRow c o) with
    | none => rfl
    | some t => exact absurd (Table.insert?_eq_some h).1 htaken
  rw [hv]
  show insertObjectRow c o db = _
  rw [insertObjectRow, checkObjectRow_ok.mpr hr, insertRow_object, hins]
  rfl

theorem find?_hasId {id : Uuid} {T : Table objectKey} {f : Row ObjectColumn F64 → _} {hf}
    (r : Row ObjectColumn F64) (hr : T.find? (.text id.text) = some r) :
    (T.updateWhere (hasId id) f hf).find? (.text id.text) = some (f r) := by
  rw [Table.find?_updateWhere, hr, Option.map_some, if_pos]
  exact decide_eq_true (Table.key_of_find? hr)

theorem updateObject_present (hv : o.validate = .ok ()) (hr : o.InRange)
    (hrow : db.objects.find? (.text o.id.text) ≠ none) :
    ∃ db', updateObject c o db = (.ok (), db') ∧ HasObject c o db db' := by
  have hcount : db.objects.countWhere (hasId o.id) = 1 := Table.countWhere_key.trans (if_neg hrow)
  obtain ⟨row, hrow⟩ := Option.ne_none_iff_exists'.mp hrow
  let t := db.objects.updateWhere (hasId o.id) (setRow objectAssignments (objectValues c o))
    (setRow_key _)
  refine ⟨{ db with objects := t }, transaction_ok ?_, ⟨?_, ?_, rfl⟩⟩
  · refine bind_ok.mpr ⟨(), hv, bind_ok.mpr ⟨(), checkObjectRow_ok.mpr hr, ?_⟩⟩
    show (if db.objects.countWhere (hasId o.id) ≠ 1 then _ else _) = _
    rw [if_neg (not_not_intro hcount)]
    rfl
  · show t.find? _ = _
    have hid : objectKey row = .text o.id.text := Table.key_of_find? hrow
    rw [find?_hasId row hrow, setRow_object hid]
  · intro k hk
    show t.find? k = _
    rw [Table.find?_updateWhere]
    cases hold : db.objects.find? k with
    | none => rfl
    | some old =>
      rw [Option.map_some, if_neg]
      rw [hasId, decide_eq_true_iff, Table.key_of_find? hold]
      exact hk

theorem updateObject_absent (hv : o.validate = .ok ()) (hr : o.InRange)
    (habsent : db.objects.find? (.text o.id.text) = none) :
    updateObject c o db = (.error (.notFound ("object " ++ o.id.text)), db) := by
  have hcount : db.objects.countWhere (hasId o.id) = 0 :=
    Table.countWhere_key.trans (if_pos habsent)
  refine transaction_error ?_
  rw [hv]
  show updateObjectRow c o db = _
  rw [updateObjectRow, checkObjectRow_ok.mpr hr]
  show (if db.objects.countWhere (hasId o.id) ≠ 1 then _ else _) = _
  rw [hcount]
  rfl

/-- a value out of range is refused before a statement runs -/
theorem write_outOfRange (hv : o.validate = .ok ()) (hr : ¬o.InRange) :
    ∃ e, createObject c o db = (.error e, db) ∧ updateObject c o db = (.error e, db) := by
  rcases ok_or_error (Store.checkObjectRow o) with ⟨_, h⟩ | ⟨e, h⟩
  · exact absurd (checkObjectRow_ok.mp h) hr
  · refine ⟨e, transaction_error ?_, transaction_error ?_⟩
    · rw [hv]
      show insertObjectRow c o db = _
      rw [insertObjectRow, h]
      rfl
    · rw [hv]
      show updateObjectRow c o db = _
      rw [updateObjectRow, h]
      rfl

theorem getObject_of_row {row : Row ObjectColumn F64}
    (hrow : db.objects.find? (.text o.id.text) = some row) (h : rowToObject c row = .ok o) :
    getObject c o.id db = .ok (some o) := by
  rw [getObject, hrow]
  show (mapSqlite c (rowToObject c row)).map some = _
  rw [mapSqlite_ok.mpr h]
  rfl

end

/-! ## replicas -/

section
variable {c : Crates} {r : Replica} {db : Db}

theorem addReplica_free (hv : Store.validateReplicaDescriptor r = .ok ())
    (hfree : db.replicas.find? (.text r.replicaId.text) = none) :
    ∃ db', addReplica r db = (.ok (), db') ∧ db'.objects = db.objects ∧
      db'.replicas.rows = db.replicas.rows ++ [replicaRow r] := by
  obtain ⟨t, ht⟩ := Table.insert?_of_none (r := replicaRow r) hfree
  refine ⟨{ db with replicas := t }, transaction_ok ?_, rfl, (Table.insert?_eq_some ht).2⟩
  refine bind_ok.mpr ⟨(), hv, ?_⟩
  rw [insertRow_replica, ht]
  rfl

theorem addReplica_refused (h : Store.validateReplicaDescriptor r ≠ .ok ()) :
    ∃ e, addReplica r db = (.error e, db) := by
  rcases ok_or_error (Store.validateReplicaDescriptor r) with ⟨_, hv⟩ | ⟨e, he⟩
  · exact absurd hv h
  · refine ⟨e, transaction_error ?_⟩
    rw [he]
    rfl

theorem mem_replicasFor {id : Uuid} {l : List Replica} (h : replicasFor c id db = .ok l) :
    (∀ row ∈ db.replicas, row .objectId = .text id.text → ∃ x ∈ l, rowToReplica c row = .ok x) ∧
      ∀ x ∈ l, ∃ row ∈ db.replicas, row .objectId = .text id.text ∧
        rowToReplica c row = .ok x := by
  obtain ⟨hto, hfrom⟩ := mem_of_mapM h
  constructor
  · intro row hrow hobj
    obtain ⟨x, hx, hread⟩ := hto row
      ((List.mem_insertionSort _).mpr (List.mem_filter.mpr ⟨hrow, decide_eq_true hobj⟩))
    exact ⟨x, hx, mapSqlite_ok.mp hread⟩
  · intro x hx
    obtain ⟨row, hrow, hread⟩ := hfrom x hx
    obtain ⟨hrow, hobj⟩ := List.mem_filter.mp ((List.mem_insertionSort _).mp hrow)
    exact ⟨row, hrow, of_decide_eq_true hobj, mapSqlite_ok.mp hread⟩

theorem replicasFor_ok {id : Uuid}
    (h : ∀ row ∈ db.replicas, row .objectId = .text id.text → ∃ x, rowToReplica c row = .ok x) :
    ∃ l, replicasFor c id db = .ok l := by
  refine mapM_ok ?_
  intro row hrow
  obtain ⟨hrow, hobj⟩ := List.mem_filter.mp ((List.mem_insertionSort _).mp hrow)
  obtain ⟨x, hx⟩ := h row hrow (of_decide_eq_true hobj)
  exact ⟨x, mapSqlite_ok.mpr hx⟩

/-- the query returns the new replica beside those it returned before -/
theorem replicasFor_add {db' : Db} {l : List Replica}
    (hrows : db'.replicas.rows = db.replicas.rows ++ [replicaRow r])
    (hread : rowToReplica c (replicaRow r) = .ok r)
    (h : replicasFor c r.objectId db = .ok l) :
    ∃ l', replicasFor c r.objectId db' = .ok l' ∧ ∀ x, x ∈ l' ↔ x ∈ l ∨ x = r := by
  have hmem : ∀ row, row ∈ db'.replicas ↔ row ∈ db.replicas ∨ row = replicaRow r := by
    intro row
    rw [← Table.mem_rows, hrows, List.mem_append, List.mem_singleton]
    rfl
  obtain ⟨hto, hfrom⟩ := mem_replicasFor h
  obtain ⟨l', hl'⟩ : ∃ l', replicasFor c r.objectId db' = .ok l' := by
    refine replicasFor_ok ?_
    intro row hrow hobj
    rcases (hmem row).mp hrow with hold | rfl
    · obtain ⟨x, _, hx⟩ := hto row hold hobj
      exact ⟨x, hx⟩
    · exact ⟨r, hread⟩
  obtain ⟨hto', hfrom'⟩ := mem_replicasFor hl'
  refine ⟨l', hl', fun x => ⟨?_, ?_⟩⟩
  · intro hx
    obtain ⟨row, hrow, hobj, hx⟩ := hfrom' x hx
    rcases (hmem row).mp hrow with hold | rfl
    · obtain ⟨y, hy, hxy⟩ := hto row hold hobj
      rw [hx] at hxy
      rw [Except.ok.inj hxy]
      exact .inl hy
    · rw [hread] at hx
      exact .inr (Except.ok.inj hx).symm
  · rintro (hx | rfl)
    · obtain ⟨row, hrow, hobj, hx⟩ := hfrom x hx
      obtain ⟨y, hy, hxy⟩ := hto' row ((hmem row).mpr (.inl hrow)) hobj
      rw [hx] at hxy
      rw [Except.ok.inj hxy]
      exact hy
    · obtain ⟨y, hy, hxy⟩ := hto' (replicaRow x) ((hmem _).mpr (.inr rfl)) rfl
      rw [hread] at hxy
      rw [Except.ok.inj hxy]
      exact hy

end

end Db

end ReclaimFabric
