import Mathlib.Algebra.Order.Ring.Int
import Mathlib.Data.List.Basic

/-!
# A directory that may lose what was not synced

Names are bound to files, whose contents are kept apart from the names, to symbolic links or to
directories.  A crash may undo the changes of a name since the directory was last synced, each name on its own, and
leaves a file that was not synced with any content.

* `kept`       the bindings of a name that a crash may leave, the present one among them;
* `write`, `sync`, `syncDir`, `create`, `rename`, `remove`   the calls that change a disk;
* `Crash`      the disk before and after a crash.
-/

/-- what a name is bound to -/
inductive Disk.Entry where
  | file (i : Nat)
  | link
  | folder
deriving DecidableEq

/-- a file, or nothing -/
def Disk.Entry.Plain (e : Option Disk.Entry) : Prop :=
  e ≠ some .link ∧ e ≠ some .folder

theorem Disk.Entry.plain_none : Plain none := ⟨nofun, nofun⟩

theorem Disk.Entry.plain_file (i : Nat) : Plain (some (.file i)) := ⟨nofun, nofun⟩

structure Disk (ν γ : Type) where
  /-- files from here on are not in use -/
  next : Nat
  data : Nat → γ
  synced : Nat → Bool
  dir : ν → Option Disk.Entry
  kept : ν → List (Option Disk.Entry)

namespace Disk

section
variable {ν γ : Type} (d : Disk ν γ) {i j : Nat} {c : γ}

/-! ## files -/

def write (i : Nat) (c : γ) : Disk ν γ :=
  { d with data := fun j => if j = i then c else d.data j }

def sync (i : Nat) : Disk ν γ :=
  { d with synced := fun j => if j = i then true else d.synced j }

def syncDir : Disk ν γ := { d with kept := fun n => [d.dir n] }

/-- the machine stops and starts again -/
structure Crash (d d' : Disk ν γ) : Prop where
  next : d'.next = d.next
  data : ∀ i, d.synced i = true → d'.data i = d.data i
  synced : ∀ i, d'.synced i = true
  dir : ∀ n, d'.dir n ∈ d.kept n
  kept : ∀ n, d'.kept n = [d'.dir n]

/-- the bytes behind a binding -/
def content : Option Entry → Option γ
  | some (.file i) => some (d.data i)
  | _ => none

theorem write_data_self : (d.write i c).data i = c := if_pos rfl
theorem write_data_ne (h : j ≠ i) : (d.write i c).data j = d.data j := if_neg h

theorem sync_synced_self : (d.sync i).synced i = true := if_pos rfl

theorem sync_synced_mono (h : d.synced j = true) : (d.sync i).synced j = true := by
  by_cases hj : j = i
  · exact if_pos hj
  · exact (if_neg hj).trans h

end

section
variable {ν γ : Type} [DecidableEq ν] (d : Disk ν γ) {a b n : ν} {i j : Nat} {c : γ}
  {e : Option Entry}

/-! ## names -/

def bind (n : ν) (e : Option Entry) : Disk ν γ :=
  { d with
    dir := fun m => if m = n then e else d.dir m
    kept := fun m => if m = n then e :: d.kept m else d.kept m }

/-- a new file, under a name that is free -/
def create (n : ν) (c : γ) : Disk ν γ :=
  let d' := d.bind n (some (.file d.next))
  { d' with
    next := d.next + 1
    data := fun j => if j = d.next then c else d.data j
    synced := fun j => if j = d.next then false else d.synced j }

/-- the binding of `a` becomes the one of `b` -/
def rename (a b : ν) : Disk ν γ := (d.bind b (d.dir a)).bind a none

def remove (n : ν) : Disk ν γ := d.bind n none

theorem bind_dir_self : (d.bind n e).dir n = e := if_pos rfl
theorem bind_dir_ne (h : a ≠ n) : (d.bind n e).dir a = d.dir a := if_neg h
theorem bind_kept_self : (d.bind n e).kept n = e :: d.kept n := if_pos rfl
theorem bind_kept_ne (h : a ≠ n) : (d.bind n e).kept a = d.kept a := if_neg h

theorem create_data_self : (d.create n c).data d.next = c := if_pos rfl
theorem create_data_ne (h : j ≠ d.next) : (d.create n c).data j = d.data j := if_neg h
theorem create_synced_ne (h : j ≠ d.next) : (d.create n c).synced j = d.synced j := if_neg h

end

end Disk
