import Mathlib.Logic.Relation
import ReclaimFabric.Archive.LocalFs
import ReclaimFabric.Lib.Disk
import ReclaimFabric.Model.World

/-!
# The file backend

`backends.rs`: a payload is written to a temporary file of its own, synced, and renamed to its key;
the directory is synced after a rename and after a removal.

* `validateKey`        the names that are keys; a temporary file has none of them;
* `get`, `exists_`, `keys`   the calls that change nothing;
* `Op`, `State`        `put` and `delete` calls under way, of any number of threads and processes;
* `Call`               one call of the operating system;
* `Turn`, `Step`       such a call or the end of a thread, and a crash besides.
-/

namespace ReclaimFabric

structure FileBackend where
  id : String
  root : String
  /-- what is read under a name that is a symbolic link: the target lies outside -/
  follow : String → Res Bytes

namespace FileBackend

/-! ## keys -/

def validateKey (key : String) : Res Unit :=
  if key = "" ∨ key.utf8ByteSize > 200 then
    .error (.invalidArgument "invalid payload key length")
  else if key = "." ∨ key = ".." ∨ ".tmp-".toList.isPrefixOf key.toList then
    .error (.invalidArgument "reserved payload key")
  else if ¬key.toList.all (fun c => decide (c.toNat < 128)) ∨ key.toList.any Char.isUpper then
    .error (.invalidArgument "payload key must be lowercase ASCII")
  else if key.toList.any (fun c => LocalFsArchive.isControl c ||
      decide (c ∈ ['<', '>', ':', '"', '/', '\\', '|', '?', '*'])) ∨
      key.toList.getLast? = some '.' ∨ key.toList.getLast? = some ' ' then
    .error (.invalidArgument "payload key contains a reserved character")
  else if LocalFsArchive.reservedDevice key.toList then
    .error (.invalidArgument "payload key uses a reserved device name")
  else .ok ()

def Key (key : String) : Prop := validateKey key = .ok ()

instance (key : String) : Decidable (Key key) :=
  match h : validateKey key with
  | .ok () => .isTrue h
  | .error _ => .isFalse fun h' => by cases h.symm.trans h'

/-- the temporary file of one `put` -/
def tmpName (key : String) (id : Uuid) : String := ".tmp-" ++ key ++ "-" ++ id.text

/-! ## calls that change nothing -/

section
variable (b : FileBackend)

def display (name : String) : String := b.root ++ "/" ++ name

/-- the metadata of one moment, the bytes of a later one -/
def get (key : String) (d₁ d₂ : Disk String Bytes) : Res Bytes :=
  match validateKey key with
  | .error e => .error e
  | .ok () =>
    match d₁.dir key with
    | some .link | some .folder => .error (.backend s!"payload {key} is not a regular file")
    | none => .error (.notFound s!"payload {key}")
    | some (.file _) =>
      match d₂.dir key with
      | some (.file i) => .ok (d₂.data i)
      | some .link => b.follow key
      | some .folder => .error (.io s!"reading {b.display key}: Is a directory (os error 21)")
      | none => .error (.notFound s!"payload {key}")

def exists_ (key : String) (d : Disk String Bytes) : Res Bool :=
  match validateKey key with
  | .error e => .error e
  | .ok () =>
    match d.dir key with
    | some .link | some .folder => .error (.backend s!"payload {key} is not a regular file")
    | none => .ok false
    | some (.file _) => .ok true

/-- a managed name of a regular file -/
def listed (d : Disk String Bytes) (name : String) : Bool :=
  decide (Key name) && (match d.dir name with | some (.file _) => true | _ => false)

/-- `keys`, of the names that `read_dir` gives -/
def keys (d : Disk String Bytes) (names : List String) : List String :=
  (names.filter (listed d)).insertionSort (· ≤ ·)

/-! ## calls under way -/

inductive Phase where
  | begun
  /-- the temporary file is there -/
  | opened (i : Nat)
  | written (i : Nat)
  | synced (i : Nat)
  /-- renamed, or removed -/
  | changed
  | failing (e : ReclaimError)
  | returned (e : Option ReclaimError)
  /-- the thread or the process is gone -/
  | lost
deriving DecidableEq

namespace Phase

def active : Phase → Bool
  | .returned _ => false
  | .lost => false
  | _ => true

/-- the temporary file a call owns -/
def inode : Phase → Option Nat
  | .opened i => some i
  | .written i => some i
  | .synced i => some i
  | _ => none

end Phase

structure Op where
  key : String
  /-- the payload of a `put`; a `delete` has none -/
  value : Option Bytes
  phase : Phase
  /-- the change has been made -/
  applied : Bool
  /-- no other call on the key has been under way since it began -/
  alone : Bool

structure State where
  disk : Disk String Bytes
  /-- every call, under the identifier of its temporary file -/
  ops : Uuid → Option Op
  /-- what the calls were asked to store -/
  asked : List (String × Option Bytes)
  /-- what a call that was alone on the key has stored or removed, and synced before it returned,
  while no other has begun; a `delete` that finds nothing syncs nothing -/
  firm : String → Option (Option Bytes)

namespace State

def start (disk : Disk String Bytes) : State := ⟨disk, fun _ => none, [], fun _ => none⟩

variable (s : State)

def set (id : Uuid) (op : Op) : State :=
  { s with ops := fun x => if x = id then some op else s.ops x }

/-- a call on the key; the others are alone no more -/
def begin (id : Uuid) (key : String) (value : Option Bytes) (alone : Bool) : State where
  disk := s.disk
  ops := fun x =>
    if x = id then some ⟨key, value, .begun, false, alone⟩
    else (s.ops x).map fun op => if op.key = key then { op with alone := false } else op
  asked := s.asked ++ [(key, value)]
  firm := fun k => if k = key then none else s.firm k

/-- a call that has synced the directory returns -/
def settle (id : Uuid) (op : Op) : State :=
  let s' := s.set id { op with phase := .returned none }
  { s' with
    disk := s.disk.syncDir
    firm := fun k => if k = op.key ∧ op.alone = true then some op.value else s.firm k }

def losing (op : Op) : Op := if op.phase.active then { op with phase := .lost } else op

end State

/-- one call of the operating system, made for a call under way -/
inductive Call (s : State) : State → Prop
  | begin {id : Uuid} {key : String} {value : Option Bytes} {alone : Bool} (hk : Key key)
      (hid : s.ops id = none)
      (ha : alone = true → ∀ x op, s.ops x = some op → op.phase.active = true → op.key ≠ key) :
      Call s (s.begin id key value alone)
  | create {id : Uuid} {op : Op} {d : Bytes} (ho : s.ops id = some op)
      (hv : op.value = some d) (hp : op.phase = .begun)
      (hn : s.disk.dir (tmpName op.key id) = none) :
      Call s { s.set id { op with phase := .opened s.disk.next } with
        disk := s.disk.create (tmpName op.key id) [] }
  | createFails {id : Uuid} {op : Op} {d : Bytes} {text : String} (ho : s.ops id = some op)
      (hv : op.value = some d) (hp : op.phase = .begun) :
      Call s (s.set id { op with
        phase := .failing (.io s!"creating {b.display (tmpName op.key id)}: {text}") })
  /-- `write_all` makes one write after the other -/
  | write {id : Uuid} {op : Op} {d l : Bytes} {i : Nat} (ho : s.ops id = some op)
      (hv : op.value = some d) (hp : op.phase = .opened i) (hl : s.disk.data i <+: l)
      (hd : l <+: d) : Call s { s with disk := s.disk.write i l }
  | writeFails {id : Uuid} {op : Op} {i : Nat} {text : String} (ho : s.ops id = some op)
      (hp : op.phase = .opened i) :
      Call s (s.set id { op with
        phase := .failing (.io s!"writing {b.display (tmpName op.key id)}: {text}") })
  | writeAll {id : Uuid} {op : Op} {i : Nat} (ho : s.ops id = some op)
      (hp : op.phase = .opened i) (hd : op.value = some (s.disk.data i)) :
      Call s (s.set id { op with phase := .written i })
  | sync {id : Uuid} {op : Op} {i : Nat} (ho : s.ops id = some op) (hp : op.phase = .written i) :
      Call s { s.set id { op with phase := .synced i } with disk := s.disk.sync i }
  | syncFails {id : Uuid} {op : Op} {i : Nat} {text : String} (ho : s.ops id = some op)
      (hp : op.phase = .written i) :
      Call s (s.set id { op with
        phase := .failing (.io s!"syncing {b.display (tmpName op.key id)}: {text}") })
  | rename {id : Uuid} {op : Op} {i : Nat} (ho : s.ops id = some op) (hp : op.phase = .synced i)
      (ht : s.disk.dir op.key ≠ some .folder) :
      Call s { s.set id { op with phase := .changed, applied := true } with
        disk := s.disk.rename (tmpName op.key id) op.key }
  | renameFails {id : Uuid} {op : Op} {i : Nat} {text : String} (ho : s.ops id = some op)
      (hp : op.phase = .synced i) :
      Call s (s.set id { op with
        phase := .failing (.io
          s!"renaming {b.display (tmpName op.key id)} -> {b.display op.key}: {text}") })
  /-- a link itself is removed, and a rename replaces it -/
  | remove {id : Uuid} {op : Op} (ho : s.ops id = some op) (hv : op.value = none)
      (hp : op.phase = .begun) (hf : s.disk.dir op.key ≠ none)
      (ht : s.disk.dir op.key ≠ some .folder) :
      Call s { s.set id { op with phase := .changed, applied := true } with
        disk := s.disk.remove op.key }
  /-- nothing is there, and nothing is synced -/
  | removeMissing {id : Uuid} {op : Op} (ho : s.ops id = some op) (hv : op.value = none)
      (hp : op.phase = .begun) (hf : s.disk.dir op.key = none) :
      Call s (s.set id { op with phase := .returned none, applied := true })
  | removeFails {id : Uuid} {op : Op} {text : String} (ho : s.ops id = some op)
      (hv : op.value = none) (hp : op.phase = .begun) :
      Call s (s.set id { op with
        phase := .returned (some (.io s!"deleting {b.display op.key}: {text}")) })
  | syncRoot {id : Uuid} {op : Op} (ho : s.ops id = some op) (hp : op.phase = .changed) :
      Call s (s.settle id op)
  /-- a `put` removes its temporary file after every error, a `delete` returns -/
  | syncRootFails {id : Uuid} {op : Op} {e : ReclaimError} (ho : s.ops id = some op)
      (hp : op.phase = .changed) :
      Call s (s.set id { op with
        phase := if op.value = none then .returned (some e) else .failing e })
  | cleanUp {id : Uuid} {op : Op} {e : ReclaimError} {i : Nat} (ho : s.ops id = some op)
      (hp : op.phase = .failing e) (hf : s.disk.dir (tmpName op.key id) = some (.file i)) :
      Call s { s.set id { op with phase := .returned (some e) } with
        disk := s.disk.remove (tmpName op.key id) }
  | cleanUpFails {id : Uuid} {op : Op} {e : ReclaimError} (ho : s.ops id = some op)
      (hp : op.phase = .failing e) : Call s (s.set id { op with phase := .returned (some e) })

inductive Turn (s : State) : State → Prop
  | call {s' : State} (h : Call b s s') : Turn s s'
  | kill {id : Uuid} {op : Op} (ho : s.ops id = some op) (ha : op.phase.active = true) :
      Turn s (s.set id { op with phase := .lost })

inductive Step (s : State) : State → Prop
  | turn {s' : State} (h : Turn b s s') : Step s s'
  | crash {d : Disk String Bytes} (h : s.disk.Crash d) :
      Step s { s with disk := d, ops := fun x => (s.ops x).map State.losing }

/-- a directory that has been left alone: everything is synced -/
structure Settled (d : Disk String Bytes) : Prop where
  kept : ∀ n, d.kept n = [d.dir n]
  synced : ∀ i, d.synced i = true
  bound : ∀ n i, d.dir n = some (.file i) → i < d.next

def Reach (disk : Disk String Bytes) (s : State) : Prop :=
  Settled disk ∧ Relation.ReflTransGen (Step b) (.start disk) s

end

end FileBackend

end ReclaimFabric
