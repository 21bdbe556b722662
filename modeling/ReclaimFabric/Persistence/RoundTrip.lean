import ReclaimFabric.Persistence.Database

/-!
# Rows round-trip

What is written is read back, and what is read is written back as it was.

* `createObject_reads`, `updateObject_reads`      an object read back after a write;
* `CanonicalObject`, `CanonicalReplica`           the rows the readers accept;
* `rows_round_trip`                               both directions, for objects and replicas;
* `createObject_refines`, `updateObject_refines`  the typed table of `Model.Store` is what the
  rows read as, and the methods of both agree, errors included.
-/

namespace ReclaimFabric

open Result (bind_ok bind_of_ok bind_of_error ok_or_error)
open Sql (Value Row ofOption)

/-- `uuid` and `serde_json` read back what they print for the object -/
structure Crates.Lossless (c : Crates) (o : ReclaimObject) : Prop where
  uuid : c.parseUuid o.id.text = .ok o.id
  metadata : c.parseMetadata (c.metadataText o.appMetadata) = .ok o.appMetadata

structure Crates.LosslessIds (c : Crates) (r : Replica) : Prop where
  replica : c.parseUuid r.replicaId.text = .ok r.replicaId
  object : c.parseUuid r.objectId.text = .ok r.objectId

/-! ## written, then read -/

section
variable {c : Crates} {o : ReclaimObject} {db : Db}

theorem rowToObject_objectRow (hl : c.Lossless o) (hv : o.validate = .ok ())
    (hrep : o.replicationCount < 2 ^ 32) : rowToObject c (objectRow c o) = .ok o :=
  rowToObject_of_reads (readsObject_objectRow hl.uuid hl.metadata hrep) hv

theorem createObject_reads (hl : c.Lossless o) (hv : o.validate = .ok ())
    (hrep : o.replicationCount < 2 ^ 32) (hr : o.InRange)
    (hfree : db.objects.find? (.text o.id.text) = none) :
    ∃ db', Db.createObject c o db = (.ok (), db') ∧ Db.getObject c o.id db' = .ok (some o) := by
  obtain ⟨db', hcreate, hhas⟩ := Db.createObject_free (c := c) hv hr hfree
  exact ⟨db', hcreate, Db.getObject_of_row hhas.row (rowToObject_objectRow hl hv hrep)⟩

theorem updateObject_reads (hl : c.Lossless o) (hv : o.validate = .ok ())
    (hrep : o.replicationCount < 2 ^ 32) (hr : o.InRange)
    (hrow : db.objects.find? (.text o.id.text) ≠ none) :
    ∃ db', Db.updateObject c o db = (.ok (), db') ∧ Db.getObject c o.id db' = .ok (some o) := by
  obtain ⟨db', hupdate, hhas⟩ := Db.updateObject_present (c := c) hv hr hrow
  exact ⟨db', hupdate, Db.getObject_of_row hhas.row (rowToObject_objectRow hl hv hrep)⟩

theorem rowToReplica_replicaRow {r : Replica} (hl : c.LosslessIds r)
    (hv : Store.validateReplicaDescriptor r = .ok ()) : rowToReplica c (replicaRow r) = .ok r :=
  rowToReplica_of_reads ⟨rfl, hl.replica, hl.object⟩ hv

end

/-! ## read, then written -/

/-- the unsigned columns that hold a number -/
def unsignedColumns : List ObjectColumn :=
  [.generation, .logicalSize, .physicalSize, .accessCount, .replicationCount, .decisionEpoch]

/-- the unsigned columns that may be NULL -/
def optionalUnsignedColumns : List ObjectColumn := [.compressedSize, .reuseHorizonSecs]

structure CanonicalObject (row : Row ObjectColumn F64) : Prop where
  id : ∃ u : Uuid, row .id = .text u.text
  unsigned : ∀ col ∈ unsignedColumns, ∃ n : Nat, row col = .integer n
  optional : ∀ col ∈ optionalUnsignedColumns, row col = .null ∨ ∃ n : Nat, row col = .integer n
  bool : ∀ col ∈ [ObjectColumn.pinned, .isProtected], row col = .integer 0 ∨ row col = .integer 1
  hash : row .contentHash = .null ∨ ∃ h : ContentHash, row .contentHash = .text h.text
  durability : ∃ d, row .durabilityClass = .text (duraStr d)
  survivability : ∃ d, row .survivabilityClass = .text (survStr d)
  state : ∃ s : LifecycleState, row .lifecycleState = .text s.asStr

structure CanonicalReplica (row : Row ReplicaColumn F64) : Prop where
  id : ∃ u : Uuid, row .replicaId = .text u.text
  object : ∃ u : Uuid, row .objectId = .text u.text
  unsigned : ∀ col ∈ [ReplicaColumn.generation, .size], ∃ n : Nat, row col = .integer n
  bool : row .valid = .integer 0 ∨ row .valid = .integer 1
  hash : ∃ h : ContentHash, row .contentHash = .text h.text
  kind : ∃ k : PhysicalKind, row .kind = .text k.asStr

section
variable {φ : Type}

theorem boolInt_cases (b : Bool) :
    (Value.integer (boolInt b) : Value φ) = .integer 0 ∨
      (Value.integer (boolInt b) : Value φ) = .integer 1 := by
  cases b with
  | false => exact .inl rfl
  | true => exact .inr rfl

theorem ofOption_map {α β : Type} (f : β → Value φ) (g : α → β) (x : Option α) :
    ofOption f (x.map g) = .null ∨ ∃ a, ofOption f (x.map g) = f (g a) := by
  cases x with
  | none => exact .inl rfl
  | some a => exact .inr ⟨a, rfl⟩

end

theorem canonical_of_readsObject {c : Crates} {o : ReclaimObject} {row : Row ObjectColumn F64}
    (h : ReadsObject c row o) : CanonicalObject row where
  id := ⟨o.id, h.discrete .id rfl⟩
  unsigned col hcol := by
    simp only [unsignedColumns, List.mem_cons, List.not_mem_nil, or_false] at hcol
    rcases hcol with rfl | rfl | rfl | rfl | rfl | rfl
    · exact ⟨_, h.discrete .generation rfl⟩
    · exact ⟨_, h.discrete .logicalSize rfl⟩
    · exact ⟨_, h.discrete .physicalSize rfl⟩
    · exact ⟨_, h.discrete .accessCount rfl⟩
    · exact ⟨_, h.discrete .replicationCount rfl⟩
    · exact ⟨_, h.discrete .decisionEpoch rfl⟩
  optional col hcol := by
    simp only [optionalUnsignedColumns, List.mem_cons, List.not_mem_nil, or_false] at hcol
    rcases hcol with rfl | rfl
    · rw [h.discrete .compressedSize rfl]
      exact ofOption_map _ _ _
    · rw [h.discrete .reuseHorizonSecs rfl]
      exact ofOption_map _ _ _
  bool col hcol := by
    simp only [List.mem_cons, List.not_mem_nil, or_false] at hcol
    rcases hcol with rfl | rfl
    · rw [h.discrete .pinned rfl]
      exact boolInt_cases _
    · rw [h.discrete .isProtected rfl]
      exact boolInt_cases _
  hash := by
    rw [h.discrete .contentHash rfl]
    exact ofOption_map _ _ _
  durability := ⟨_, h.discrete .durabilityClass rfl⟩
  survivability := ⟨_, h.discrete .survivabilityClass rfl⟩
  state := ⟨_, h.discrete .lifecycleState rfl⟩

theorem canonical_replicaRow (r : Replica) : CanonicalReplica (replicaRow r) where
  id := ⟨_, rfl⟩
  object := ⟨_, rfl⟩
  unsigned col hcol := by
    simp only [List.mem_cons, List.not_mem_nil, or_false] at hcol
    rcases hcol with rfl | rfl
    · exact ⟨_, rfl⟩
    · exact ⟨_, rfl⟩
  bool := boolInt_cases _
  hash := ⟨_, rfl⟩
  kind := ⟨_, rfl⟩

/-- an INTEGER column holds a number of the range of `i64` -/
theorem le_i64Max {φ : Type} {n : Nat} (h : (Value.integer n : Value φ).Fits) : n ≤ i64Max := by
  have hlt : (n : Int) < 2 ^ 63 := h.2
  unfold i64Max
  omega

theorem ofOption_le_i64Max {φ : Type} {n : Option Nat}
    (h : (ofOption .integer (n.map Int.ofNat) : Value φ).Fits) : ∀ k, n = some k → k ≤ i64Max := by
  rintro k rfl
  exact le_i64Max h

theorem inRange_of_readsObject {c : Crates} {o : ReclaimObject} {row : Row ObjectColumn F64}
    (hfits : ∀ col, (row col).Fits) (h : ReadsObject c row o) : o.InRange where
  generation := le_i64Max (h.discrete .generation rfl ▸ hfits .generation)
  logicalSize := le_i64Max (h.discrete .logicalSize rfl ▸ hfits .logicalSize)
  physicalSize := le_i64Max (h.discrete .physicalSize rfl ▸ hfits .physicalSize)
  compressedSize := ofOption_le_i64Max (h.discrete .compressedSize rfl ▸ hfits .compressedSize)
  accessCount := le_i64Max (h.discrete .accessCount rfl ▸ hfits .accessCount)
  reuseHorizonSecs :=
    ofOption_le_i64Max (h.discrete .reuseHorizonSecs rfl ▸ hfits .reuseHorizonSecs)
  decisionEpoch := le_i64Max (h.discrete .decisionEpoch rfl ▸ hfits .decisionEpoch)

/-- a row that is read is written again with the same discrete columns -/
theorem rewrite_object {c : Crates} {o : ReclaimObject} {row : Row ObjectColumn F64} {db : Db}
    (hfits : ∀ col, (row col).Fits) (h : rowToObject c row = .ok o) :
    (db.objects.find? (.text o.id.text) = none → ∃ db' row',
      Db.createObject c o db = (.ok (), db') ∧
      db'.objects.find? (.text o.id.text) = some row' ∧
      ∀ col, col.discrete = true → row' col = row col) ∧
    (row ∈ db.objects → ∃ db' row',
      Db.updateObject c o db = (.ok (), db') ∧
      db'.objects.find? (.text o.id.text) = some row' ∧
      ∀ col, col.discrete = true → row' col = row col) := by
  obtain ⟨hreads, hv⟩ := rowToObject_ok.mp h
  have hr := inRange_of_readsObject hfits hreads
  have hsame : ∀ col, col.discrete = true → objectRow c o col = row col :=
    fun col hcol => (hreads.discrete col hcol).symm
  constructor
  · intro hfree
    obtain ⟨db', hcreate, hhas⟩ := Db.createObject_free (c := c) hv hr hfree
    exact ⟨db', objectRow c o, hcreate, hhas.row, hsame⟩
  · intro hrow
    have hid : objectKey row = .text o.id.text := hreads.discrete .id rfl
    have hfind : db.objects.find? (.text o.id.text) = some row :=
      Table.find?_eq_some.mpr ⟨hrow, hid⟩
    have hne : db.objects.find? (.text o.id.text) ≠ none := by
      rw [hfind]
      exact nofun
    obtain ⟨db', hupdate, hhas⟩ := Db.updateObject_present (c := c) hv hr hne
    exact ⟨db', objectRow c o, hupdate, hhas.row, hsame⟩

theorem rewrite_replica {c : Crates} {r : Replica} {row : Row ReplicaColumn F64} {db : Db}
    (h : rowToReplica c row = .ok r)
    (hfree : db.replicas.find? (.text r.replicaId.text) = none) :
    ∃ db', Db.addReplica r db = (.ok (), db') ∧
      db'.replicas.find? (.text r.replicaId.text) = some row := by
  obtain ⟨hreads, hv⟩ := readsReplica_of_ok h
  obtain ⟨db', hadd, _, hrows⟩ := Db.addReplica_free hv hfree
  refine ⟨db', hadd, Table.find?_eq_some.mpr ⟨?_, ?_⟩⟩
  · rw [← Table.mem_rows, hrows, hreads.columns]
    exact List.mem_append_right _ (List.mem_singleton_self _)
  · rw [hreads.columns]
    rfl

/-! ## the typed table -/

/-- the typed table is what the rows read as -/
def Represents (c : Crates) (db : Db) (s : Store) : Prop :=
  ∀ id, Db.getObject c id db = .ok (s.objects.find? id)

section
variable {c : Crates} {o : ReclaimObject} {db db' : Db} {s s' : Store}

theorem Represents.find?_none (h : Represents c db s) {id : Uuid} :
    db.objects.find? (.text id.text) = none ↔ s.objects.find? id = none := by
  have hid := h id
  unfold Db.getObject at hid
  cases hrow : db.objects.find? (.text id.text) with
  | none =>
    rw [hrow] at hid
    exact ⟨fun _ => (Except.ok.inj hid).symm, fun _ => rfl⟩
  | some row =>
    rw [hrow] at hid
    refine ⟨nofun, fun hnone => ?_⟩
    rw [hnone] at hid
    change (Db.mapSqlite c (rowToObject c row)).map some = _ at hid
    cases hread : Db.mapSqlite c (rowToObject c row) with
    | error e =>
      rw [hread] at hid
      cases hid
    | ok o =>
      rw [hread] at hid
      cases hid

theorem Represents.write (h : Represents c db s) (hhas : Db.HasObject c o db db')
    (hread : rowToObject c (objectRow c o) = .ok o)
    (hs : ∀ id, s'.objects.find? id = if o.id = id then some o else s.objects.find? id) :
    Represents c db' s' := by
  intro id
  rw [hs id]
  split
  · next hid =>
    rw [← hid]
    exact Db.getObject_of_row hhas.row hread
  · next hid =>
    have hne : (Value.text id.text : Value F64) ≠ .text o.id.text := by
      intro htext
      have hchars := congrArg String.toList (Value.text.inj htext)
      rw [Uuid.toList_text, Uuid.toList_text] at hchars
      exact hid (Uuid.chars_inj hchars).symm
    rw [Db.getObject, hhas.others _ hne]
    exact h id

/-- the typed `create_object` is the one on rows -/
theorem createObject_refines (h : Represents c db s) (hl : c.Lossless o)
    (hrep : o.replicationCount < 2 ^ 32) :
    (∀ u s', Store.createObject o s = .ok (u, s') →
      ∃ db', Db.createObject c o db = (.ok (), db') ∧ Represents c db' s') ∧
    ∀ e, Store.createObject o s = .error e → Db.createObject c o db = (.error e, db) := by
  constructor
  · intro u s' hs
    obtain ⟨_, hv, hs⟩ := bind_ok.mp hs
    obtain ⟨_, hins, hs⟩ := bind_ok.mp hs
    cases hs
    obtain ⟨_, hcheck, hins⟩ := bind_ok.mp hins
    cases ht : s.objects.insert? o with
    | none =>
      rw [ht] at hins
      cases hins
    | some t =>
      rw [ht] at hins
      cases hins
      have hfree := h.find?_none.mpr (Table.insert?_eq_some ht).1
      obtain ⟨db', hcreate, hhas⟩ :=
        Db.createObject_free (c := c) hv (checkObjectRow_ok.mp hcheck) hfree
      exact ⟨db', hcreate, h.write hhas (rowToObject_objectRow hl hv hrep) fun id =>
        Table.find?_insert? ht⟩
  · intro e hs
    unfold Store.createObject at hs
    rcases ok_or_error o.validate with ⟨_, hv⟩ | ⟨e', hv⟩
    · rcases ok_or_error (Store.checkObjectRow o) with ⟨_, hcheck⟩ | ⟨e', hcheck⟩
      · cases ht : s.objects.insert? o with
        | none =>
          have hins : Store.insertObjectRow o s = .error (Store.uniqueError "objects.id") := by
            rw [Store.insertObjectRow, bind_of_ok hcheck, ht]
            rfl
          rw [bind_of_ok hv, bind_of_error hins] at hs
          cases hs
          refine Db.createObject_taken hv (checkObjectRow_ok.mp hcheck) ?_
          exact mt h.find?_none.mp (Table.insert?_eq_none ht)
        | some t =>
          have hins : Store.insertObjectRow o s = .ok { s with objects := t } := by
            rw [Store.insertObjectRow, bind_of_ok hcheck, ht]
            rfl
          rw [bind_of_ok hv, bind_of_ok hins] at hs
          cases hs
      · have hins : Store.insertObjectRow o s = .error e' := bind_of_error hcheck
        rw [bind_of_ok hv, bind_of_error hins] at hs
        cases hs
        refine Db.transaction_error ((bind_of_ok hv).trans ?_)
        exact bind_of_error hcheck
    · rw [bind_of_error hv] at hs
      cases hs
      exact Db.transaction_error (bind_of_error hv)

/-- the typed `update_object` is the one on rows -/
theorem updateObject_refines (h : Represents c db s) (hl : c.Lossless o)
    (hrep : o.replicationCount < 2 ^ 32) :
    (∀ u s', Store.updateObject o s = .ok (u, s') →
      ∃ db', Db.updateObject c o db = (.ok (), db') ∧ Represents c db' s') ∧
    ∀ e, Store.updateObject o s = .error e → Db.updateObject c o db = (.error e, db) := by
  constructor
  · intro u s' hs
    obtain ⟨_, hv, hs⟩ := bind_ok.mp hs
    obtain ⟨_, hupd, hs⟩ := bind_ok.mp hs
    cases hs
    obtain ⟨_, hcheck, hupd⟩ := bind_ok.mp hupd
    cases hold : s.objects.find? o.id with
    | none =>
      rw [hold] at hupd
      cases hupd
    | some old =>
      rw [hold] at hupd
      cases hupd
      have hrow : db.objects.find? (.text o.id.text) ≠ none := by
        refine mt h.find?_none.mp ?_
        rw [hold]
        exact nofun
      obtain ⟨db', hupdate, hhas⟩ :=
        Db.updateObject_present (c := c) hv (checkObjectRow_ok.mp hcheck) hrow
      refine ⟨db', hupdate, h.write hhas (rowToObject_objectRow hl hv hrep) fun id => ?_⟩
      show (s.objects.replace o).find? id = _
      rw [Table.find?_replace]
      split
      · next hid =>
        rw [← hid, hold]
        rfl
      · rfl
  · intro e hs
    unfold Store.updateObject at hs
    rcases ok_or_error o.validate with ⟨_, hv⟩ | ⟨e', hv⟩
    · rcases ok_or_error (Store.checkObjectRow o) with ⟨_, hcheck⟩ | ⟨e', hcheck⟩
      · cases hold : s.objects.find? o.id with
        | none =>
          have hupd : Store.updateObjectRow o s = .error (.notFound ("object " ++ o.id.text)) := by
            rw [Store.updateObjectRow, bind_of_ok hcheck, hold]
            rfl
          rw [bind_of_ok hv, bind_of_error hupd] at hs
          cases hs
          exact Db.updateObject_absent hv (checkObjectRow_ok.mp hcheck) (h.find?_none.mpr hold)
        | some old =>
          have hupd : Store.updateObjectRow o s =
              .ok { s with objects := s.objects.replace o } := by
            rw [Store.updateObjectRow, bind_of_ok hcheck, hold]
            rfl
          rw [bind_of_ok hv, bind_of_ok hupd] at hs
          cases hs
      · have hupd : Store.updateObjectRow o s = .error e' := bind_of_error hcheck
        rw [bind_of_ok hv, bind_of_error hupd] at hs
        cases hs
        refine Db.transaction_error ((bind_of_ok hv).trans ?_)
        exact bind_of_error hcheck
    · rw [bind_of_error hv] at hs
      cases hs
      exact Db.transaction_error (bind_of_error hv)

end

/-! ## both directions -/

/-- Objects that pass `validate` and replicas that pass `validate_replica_descriptor`, written and
read; rows read and written.  `replication_count` is a `u32`; timestamps and deadlines are `i64`,
so a negative one is no corruption and is kept as it is. -/
theorem rows_round_trip (c : Crates) :
    (∀ (o : ReclaimObject) (db : Db),
      c.Lossless o → o.validate = .ok () → o.replicationCount < 2 ^ 32 →
      (o.InRange → db.objects.find? (.text o.id.text) = none →
        ∃ db', Db.createObject c o db = (.ok (), db') ∧
          Db.getObject c o.id db' = .ok (some o)) ∧
      (o.InRange → db.objects.find? (.text o.id.text) ≠ none →
        ∃ db', Db.updateObject c o db = (.ok (), db') ∧
          Db.getObject c o.id db' = .ok (some o)) ∧
      (¬o.InRange →
        ∃ e, Db.createObject c o db = (.error e, db) ∧ Db.updateObject c o db = (.error e, db))) ∧
    (∀ (r : Replica) (db : Db), c.LosslessIds r →
      (Store.validateReplicaDescriptor r = .ok () →
        db.replicas.find? (.text r.replicaId.text) = none →
        ∃ db', Db.addReplica r db = (.ok (), db') ∧
          (∃ row, db'.replicas.find? (.text r.replicaId.text) = some row ∧
            rowToReplica c row = .ok r) ∧
          ∀ l, Db.replicasFor c r.objectId db = .ok l →
            ∃ l', Db.replicasFor c r.objectId db' = .ok l' ∧ ∀ x, x ∈ l' ↔ x ∈ l ∨ x = r) ∧
      (Store.validateReplicaDescriptor r ≠ .ok () → ∃ e, Db.addReplica r db = (.error e, db))) ∧
    (∀ (row : Row ObjectColumn F64) (o : ReclaimObject) (db : Db),
      (∀ col, (row col).Fits) → rowToObject c row = .ok o →
      (db.objects.find? (.text o.id.text) = none → ∃ db' row',
        Db.createObject c o db = (.ok (), db') ∧
        db'.objects.find? (.text o.id.text) = some row' ∧
        ∀ col, col.discrete = true → row' col = row col) ∧
      (row ∈ db.objects → ∃ db' row',
        Db.updateObject c o db = (.ok (), db') ∧
        db'.objects.find? (.text o.id.text) = some row' ∧
        ∀ col, col.discrete = true → row' col = row col)) ∧
    (∀ (row : Row ReplicaColumn F64) (r : Replica) (db : Db), rowToReplica c row = .ok r →
      db.replicas.find? (.text r.replicaId.text) = none →
      ∃ db', Db.addReplica r db = (.ok (), db') ∧
        db'.replicas.find? (.text r.replicaId.text) = some row) ∧
    (∀ row : Row ObjectColumn F64, ¬CanonicalObject row → ∃ e, rowToObject c row = .error e) ∧
    (∀ row : Row ReplicaColumn F64, ¬CanonicalReplica row →
      ∃ e, rowToReplica c row = .error e) := by
  refine ⟨?_, ?_, ?_, ?_, ?_, ?_⟩
  · intro o db hl hv hrep
    exact ⟨createObject_reads hl hv hrep, updateObject_reads hl hv hrep, Db.write_outOfRange hv⟩
  · intro r db hl
    refine ⟨?_, Db.addReplica_refused⟩
    intro hv hfree
    have hread := rowToReplica_replicaRow hl hv
    obtain ⟨db', hadd, hfind⟩ := rewrite_replica hread hfree
    obtain ⟨db'', hadd', _, hrows⟩ := Db.addReplica_free hv hfree
    obtain rfl : db'' = db' := congrArg Prod.snd (hadd'.symm.trans hadd)
    exact ⟨db'', hadd, ⟨_, hfind, hread⟩, fun l => Db.replicasFor_add hrows hread⟩
  · intro row o db
    exact rewrite_object
  · intro row r db
    exact rewrite_replica
  · intro row hrow
    rcases ok_or_error (rowToObject c row) with ⟨o, ho⟩ | he
    · exact absurd (canonical_of_readsObject (rowToObject_ok.mp ho).1) hrow
    · exact he
  · intro row hrow
    rcases ok_or_error (rowToReplica c row) with ⟨r, hr⟩ | he
    · refine absurd ?_ hrow
      rw [(readsReplica_of_ok hr).1.columns]
      exact canonical_replicaRow r
    · exact he

/-- parsers that know the nil identifier and the empty map -/
def nilCrates : Crates where
  parseUuid s := if s = Uuid.nil.text then .ok .nil else .error "invalid character"
  metadataText m := if m.isEmpty then "\x7b\x7d" else "\x7b...\x7d"
  parseMetadata s := if s = "\x7b\x7d" then .ok [] else .error "expected value"
  ofInt z := .dec z 0
  sqlText _
    | .invalidColumnType _ => "Invalid column type"
    | .invalidParameterName m => "Invalid parameter name: " ++ m

def cacheObject (generation : Nat) : ReclaimObject := .new .nil generation "kv-cache" 1024 0

def cacheReplica (size : Nat) : Replica where
  replicaId := .nil
  objectId := .nil
  generation := 3
  location := ⟨"memory", "k", .hot⟩
  size := size
  contentHash := ⟨0⟩
  createdAtMs := -1
  verifiedAtMs := none
  valid := true
  ownerNode := none

theorem nilCrates_parseUuid : nilCrates.parseUuid Uuid.nil.text = .ok .nil := by
  simp [nilCrates]

/-- a table with the row of one object -/
def cacheDb : Db := ⟨⟨[objectRow nilCrates (cacheObject 3)], List.nodup_singleton _⟩, .empty⟩

theorem cacheDb_find (g : Nat) :
    cacheDb.objects.find? (.text (cacheObject g).id.text) =
      some (objectRow nilCrates (cacheObject 3)) :=
  Table.find?_eq_some.mpr ⟨List.mem_singleton_self _, rfl⟩

theorem rows_round_trip_cache :
    (∃ db', Db.createObject nilCrates (cacheObject 3) ⟨.empty, .empty⟩ = (.ok (), db') ∧
      Db.getObject nilCrates .nil db' = .ok (some (cacheObject 3))) ∧
    (∃ db', Db.updateObject nilCrates (cacheObject 4) cacheDb = (.ok (), db') ∧
      Db.getObject nilCrates .nil db' = .ok (some (cacheObject 4))) ∧
    (∃ e, Db.createObject nilCrates (cacheObject (2 ^ 63)) ⟨.empty, .empty⟩ =
      (.error e, ⟨.empty, .empty⟩)) ∧
    (∃ e, Db.updateObject nilCrates (cacheObject (2 ^ 63)) cacheDb = (.error e, cacheDb)) ∧
    (∃ db', Db.addReplica (cacheReplica 1024) ⟨.empty, .empty⟩ = (.ok (), db') ∧
      ∃ row, db'.replicas.find? (.text Uuid.nil.text) = some row ∧
        rowToReplica nilCrates row = .ok (cacheReplica 1024)) ∧
    (∃ e, Db.addReplica (cacheReplica (2 ^ 63)) ⟨.empty, .empty⟩ =
      (.error e, ⟨.empty, .empty⟩)) ∧
    (∃ db' row', Db.createObject nilCrates (cacheObject 3) ⟨.empty, .empty⟩ = (.ok (), db') ∧
      db'.objects.find? (.text Uuid.nil.text) = some row' ∧ row' .generation = .integer 3) ∧
    (∃ db' row', Db.updateObject nilCrates (cacheObject 3) cacheDb = (.ok (), db') ∧
      db'.objects.find? (.text Uuid.nil.text) = some row' ∧ row' .generation = .integer 3) ∧
    (∃ db', Db.addReplica (cacheReplica 1024) ⟨.empty, .empty⟩ = (.ok (), db') ∧
      db'.replicas.find? (.text Uuid.nil.text) = some (replicaRow (cacheReplica 1024))) ∧
    (∃ e, rowToObject nilCrates (fun _ => .integer (-1)) = .error e) ∧
    (∃ e, rowToReplica nilCrates (fun _ => .integer (-1)) = .error e) := by
  obtain ⟨hobject, hreplica, hrow, hreplicaRow, hbad, hbadReplica⟩ := rows_round_trip nilCrates
  have hl : ∀ g, nilCrates.Lossless (cacheObject g) := fun _ => ⟨nilCrates_parseUuid, rfl⟩
  have hids : ∀ n, nilCrates.LosslessIds (cacheReplica n) :=
    fun _ => ⟨nilCrates_parseUuid, nilCrates_parseUuid⟩
  have hr : (cacheObject 3).InRange :=
    ⟨by decide, by decide, by decide, nofun, by decide, nofun, by decide⟩
  have hr' : (cacheObject 4).InRange :=
    ⟨by decide, by decide, by decide, nofun, by decide, nofun, by decide⟩
  have hout : ¬(cacheObject (2 ^ 63)).InRange := fun h => absurd h.generation (by decide)
  have hv : Store.validateReplicaDescriptor (cacheReplica 1024) = .ok () := rfl
  have hread : rowToObject nilCrates (objectRow nilCrates (cacheObject 3)) = .ok (cacheObject 3) :=
    rowToObject_objectRow (hl 3) rfl (by decide)
  have hreadReplica : rowToReplica nilCrates (replicaRow (cacheReplica 1024)) =
      .ok (cacheReplica 1024) := rowToReplica_replicaRow (hids 1024) hv
  have hfits : ∀ col, (objectRow nilCrates (cacheObject 3) col).Fits := by
    intro col
    cases col <;> trivial
  refine ⟨?_, ?_, ?_, ?_, ?_, ?_, ?_, ?_, ?_, ?_, ?_⟩
  · exact (hobject (cacheObject 3) ⟨.empty, .empty⟩ (hl 3) rfl (by decide)).1 hr rfl
  · have hfound := (cacheDb_find 4).trans_ne (Option.some_ne_none _)
    exact (hobject (cacheObject 4) cacheDb (hl 4) rfl (by decide)).2.1 hr' hfound
  · obtain ⟨e, he, -⟩ :=
      (hobject (cacheObject (2 ^ 63)) ⟨.empty, .empty⟩ (hl _) rfl (by decide)).2.2 hout
    exact ⟨e, he⟩
  · obtain ⟨e, -, he⟩ := (hobject (cacheObject (2 ^ 63)) cacheDb (hl _) rfl (by decide)).2.2 hout
    exact ⟨e, he⟩
  · obtain ⟨db', hadd, hfind, -⟩ :=
      (hreplica (cacheReplica 1024) ⟨.empty, .empty⟩ (hids _)).1 hv rfl
    exact ⟨db', hadd, hfind⟩
  · exact (hreplica (cacheReplica (2 ^ 63)) ⟨.empty, .empty⟩ (hids _)).2 nofun
  · obtain ⟨db', row', hcreate, hfind, hsame⟩ :=
      (hrow _ (cacheObject 3) ⟨.empty, .empty⟩ hfits hread).1 rfl
    exact ⟨db', row', hcreate, hfind, hsame .generation rfl⟩
  · obtain ⟨db', row', hupdate, hfind, hsame⟩ :=
      (hrow _ (cacheObject 3) cacheDb hfits hread).2 (List.mem_singleton_self _)
    exact ⟨db', row', hupdate, hfind, hsame .generation rfl⟩
  · exact hreplicaRow _ (cacheReplica 1024) ⟨.empty, .empty⟩ hreadReplica rfl
  · apply hbad (fun _ => .integer (-1))
    intro h
    obtain ⟨u, hu⟩ := h.id
    cases hu
  · apply hbadReplica (fun _ => .integer (-1))
    intro h
    obtain ⟨u, hu⟩ := h.id
    cases hu

end ReclaimFabric
