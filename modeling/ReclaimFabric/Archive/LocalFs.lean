import ReclaimFabric.Model.Text

/-!
# The local filesystem archive

`archive.rs`: blobs are published under the name `blob-<hash of the key>`; the name an earlier
release used, the key with `/` replaced by `-`, is still consulted by every operation.

* `validateKey`, `pathFor`, `legacyPathFor`   the two names of a key;
* `write`, `read`, `delete`, `exists_`        the operations on the files of the root directory;
* `Apart`              no key of a set is the flattened spelling of another one's file name;
* `local_archive_map`  on a set of keys the archive is a map of immutable blobs just when the
                       keys are apart.

The hash is a parameter.  Files are regular files and no call of the operating system fails.
-/

namespace ReclaimFabric

/-- the files of the root directory -/
abbrev Files := String → Option Bytes

namespace Files

def set (fs : Files) (name : String) (content : Option Bytes) : Files :=
  fun n => if n = name then content else fs n

theorem set_self (fs : Files) (name : String) (c : Option Bytes) : fs.set name c name = c :=
  if_pos rfl

theorem set_other {fs : Files} {name n : String} {c : Option Bytes} (h : n ≠ name) :
    fs.set name c n = fs n := if_neg h

end Files

structure LocalFsArchive where
  id : String
  root : String

namespace LocalFsArchive

/-! ## keys -/

/-- `char::is_control` -/
def isControl (c : Char) : Bool :=
  decide (c.toNat < 0x20) || (decide (0x7f ≤ c.toNat) && decide (c.toNat ≤ 0x9f))

/-- `COM1` … `COM9`, `LPT1` … `LPT9` -/
def numberedDevice (start stem : List Char) : Bool :=
  start.isPrefixOf stem && decide ((stem.drop start.length).length = 1) &&
    (stem.drop start.length).all (fun c => decide ('1' ≤ c) && decide (c ≤ '9'))

def reservedDevice (component : List Char) : Bool :=
  let stem := (component.takeWhile (fun c => decide (c ≠ '.'))).map Char.toUpper
  decide (String.ofList stem ∈ ["CON", "PRN", "AUX", "NUL", "CLOCK$"]) ||
    numberedDevice "COM".toList stem || numberedDevice "LPT".toList stem

def checkComponents (key : String) : List (List Char) → Res Unit
  | [] => .ok ()
  | c :: cs =>
    if c = [] ∨ c = ['.'] ∨ c = ['.', '.'] ∨ c.getLast? = some '.' ∨ c.getLast? = some ' ' then
      .error (.archiveFailure s!"archive key contains a reserved path component: {quoted key}")
    else if reservedDevice c then
      .error (.archiveFailure s!"archive key uses a reserved device name: {quoted key}")
    else checkComponents key cs

/-- the key with its separators replaced -/
def flattened (key : String) : String :=
  String.ofList (key.toList.map fun c => if c = '/' then '-' else c)

def validateKey (key : String) : Res Unit :=
  if key = "" ∨ key.utf8ByteSize > 200 ∨ ¬key.toList.all (fun c => decide (c.toNat < 128)) then
    .error (.archiveFailure s!"invalid or traversal archive key: {quoted key}")
  else if key.toList.head? = some '/' ∨ key.toList.head? = some '\\' ∨ '\\' ∈ key.toList ∨
      key.toList.any Char.isUpper ∨
      key.toList.any (fun c => isControl c || decide (c ∈ ['<', '>', ':', '"', '|', '?', '*'])) then
    .error (.archiveFailure
      s!"archive key is not a portable lowercase ASCII path: {quoted key}")
  else
    match checkComponents key (key.toList.splitOn '/') with
    | .error e => .error e
    | .ok () =>
      if ".tmp-archive-".toList.isPrefixOf (flattened key).toList then
        .error (.archiveFailure "archive key aliases the reserved temporary-file namespace")
      else .ok ()

section
variable (sha256 : Bytes → ContentHash)

def keyBytes (key : String) : Bytes := key.toUTF8.data.toList

/-- the name a blob is published under -/
def blobName (key : String) : String := "blob-" ++ (sha256 (keyBytes key)).text

def pathFor (key : String) : Res String :=
  match validateKey key with
  | .error e => .error e
  | .ok () => .ok (blobName sha256 key)

def legacyPathFor (key : String) : Res String :=
  match pathFor sha256 key with
  | .error e => .error e
  | .ok _ => .ok (flattened key)

/-! ## operations -/

def verifySha256 (data : Bytes) (expected : ContentHash) : Res Unit :=
  if sha256 data = expected then .ok ()
  else .error (.integrityFailure s!"sha256 mismatch: expected {expected}, got {sha256 data}")

variable (a : LocalFsArchive) (fs : Files)

/-- `path.display()` -/
def display (name : String) : String := a.root ++ "/" ++ name

def readRegularFile (name : String) : Res Bytes :=
  match fs name with
  | some d => .ok d
  | none => .error (.notFound s!"archive file {a.display name}")

/-- a blob that is there already must be the one to be written -/
def checkExisting (data existing : Bytes) (expected : ContentHash) (different collision : String) :
    Res Nat :=
  match verifySha256 sha256 existing expected with
  | .error e => .error (.archiveFailure (different ++ toString e))
  | .ok () => if existing ≠ data then .error (.archiveFailure collision) else .ok data.length

/-- the temporary file, its link and the verification -/
def publish (key final tmp : String) (data : Bytes) (expected : ContentHash) : Res Nat × Files :=
  -- `create_new`; the guard removes the temporary file on every path
  match fs tmp with
  | some _ => (.error (.io s!"archive open {a.display tmp}: File exists (os error 17)"),
      fs.set tmp none)
  | none =>
    let fs₁ := fs.set tmp (some data)
    match fs₁ final with
    | some existing =>
      (checkExisting sha256 data existing expected
        s!"archive key {quoted key} concurrently created with different data: "
        s!"archive key {quoted key} concurrent content collision", fs₁.set tmp none)
    | none =>
      let fs₂ := fs₁.set final (some data)
      match readRegularFile a fs₂ final with
      | .error e => (.error (.archiveFailure (toString e)), (fs₂.set final none).set tmp none)
      | .ok written =>
        match verifySha256 sha256 written expected with
        | .error e => (.error (.archiveFailure
            s!"archive verification after publication failed: {e}"),
            (fs₂.set final none).set tmp none)
        | .ok () => (.ok data.length, fs₂.set tmp none)

/-- the earlier release has stored these very bytes -/
def legacyHolds (legacy : String) (data : Bytes) (expected : ContentHash) : Bool :=
  match fs legacy with
  | some existing => decide (sha256 existing = expected) && decide (existing = data)
  | none => false

/-- `write`; `n` is the identifier of the temporary file -/
def write (key : String) (data : Bytes) (expected : ContentHash) (n : Uuid) : Res Nat × Files :=
  match verifySha256 sha256 data expected with
  | .error e => (.error (.archiveFailure s!"refusing to archive corrupt payload: {e}"), fs)
  | .ok () =>
    match pathFor sha256 key with
    | .error e => (.error e, fs)
    | .ok final =>
      match fs final with
      | some existing =>
        (checkExisting sha256 data existing expected
          s!"archive key {quoted key} already contains different data: "
          s!"archive key {quoted key} content collision", fs)
      | none =>
        match legacyPathFor sha256 key with
        | .error e => (.error e, fs)
        | .ok legacy =>
          if legacyHolds sha256 fs legacy data expected then (.ok data.length, fs)
          else
            publish sha256 a fs key final s!".tmp-archive-{sha256 (keyBytes key)}-{n}" data expected

def read (key : String) : Res Bytes :=
  match pathFor sha256 key with
  | .error e => .error e
  | .ok path =>
    match fs path with
    | some _ => readRegularFile a fs path
    | none =>
      match legacyPathFor sha256 key with
      | .error e => .error e
      | .ok legacy => readRegularFile a fs legacy

def delete (key : String) : Res Unit × Files :=
  match pathFor sha256 key, legacyPathFor sha256 key with
  | .ok path, .ok legacy => (.ok (), (fs.set path none).set legacy none)
  | .error e, _ => (.error e, fs)
  | _, .error e => (.error e, fs)

def exists_ (key : String) : Res Bool :=
  match pathFor sha256 key, legacyPathFor sha256 key with
  | .ok path, .ok legacy => .ok ((fs path).isSome || (fs legacy).isSome)
  | .error e, _ => .error e
  | _, .error e => .error e

end

/-! ## sequences of calls -/

inductive Call where
  | write (key : String) (data : Bytes) (expected : ContentHash) (n : Uuid)
  | read (key : String)
  | exists_ (key : String)
  | delete (key : String)

inductive Reply where
  | size (r : Res Nat)
  | bytes (r : Res Bytes)
  | found (r : Res Bool)
  | done (r : Res Unit)

def Call.key : Call → String
  | .write k _ _ _ => k
  | .read k => k
  | .exists_ k => k
  | .delete k => k

section
variable (sha256 : Bytes → ContentHash)

/-- the hash handed in is the one of the data -/
def Call.Correct : Call → Prop
  | .write _ d h _ => sha256 d = h
  | _ => True

variable (a : LocalFsArchive)

def step (fs : Files) : Call → Reply × Files
  | .write k d h n => (.size (write sha256 a fs k d h n).1, (write sha256 a fs k d h n).2)
  | .read k => (.bytes (read sha256 a fs k), fs)
  | .exists_ k => (.found (exists_ sha256 fs k), fs)
  | .delete k => (.done (delete sha256 fs k).1, (delete sha256 fs k).2)

/-- the files and the answers after a sequence of calls on an empty root, the last one first -/
def after : List Call → Files × List (Call × Reply)
  | [] => (fun _ => none, [])
  | c :: cs =>
    ((step sha256 a (after cs).1 c).2, (c, (step sha256 a (after cs).1 c).1) :: (after cs).2)

/-- what the key stands for: the bytes of its last successful write, if it was not deleted since -/
def stored (key : String) : List (Call × Reply) → Option Bytes
  | [] => none
  | (.write k d _ _, .size (.ok _)) :: h => if k = key then some d else stored key h
  | (.delete k, .done (.ok _)) :: h => if k = key then none else stored key h
  | _ :: h => stored key h

/-- the archive is a map on the keys `K`, after these calls -/
structure MapLaw (K : Set String) (cs : List Call) : Prop where
  present : ∀ k ∈ K, ∀ d, stored k (after sha256 a cs).2 = some d →
    read sha256 a (after sha256 a cs).1 k = .ok d
  absent : ∀ k ∈ K, stored k (after sha256 a cs).2 = none →
    ∃ t, read sha256 a (after sha256 a cs).1 k = .error (.notFound t)
  found : ∀ k ∈ K, exists_ sha256 (after sha256 a cs).1 k =
    .ok (stored k (after sha256 a cs).2).isSome
  /-- a further call leaves every other key alone -/
  other : ∀ c : Call, c.key ∈ K → c.Correct sha256 → ∀ k ∈ K, k ≠ c.key →
    read sha256 a (step sha256 a (after sha256 a cs).1 c).2 k =
        read sha256 a (after sha256 a cs).1 k ∧
      exists_ sha256 (step sha256 a (after sha256 a cs).1 c).2 k =
        exists_ sha256 (after sha256 a cs).1 k

/-- no key is, up to its separators, the file name of another one -/
def Apart (K : Set String) : Prop :=
  ∀ k ∈ K, ∀ k' ∈ K, k ≠ k' → flattened k' ≠ blobName sha256 k

end

/-! ## names -/

section
variable {sha256 : Bytes → ContentHash} {a : LocalFsArchive} {fs : Files} {K : Set String}
  {k k' : String}

theorem pathFor_ok (h : validateKey k = .ok ()) : pathFor sha256 k = .ok (blobName sha256 k) := by
  simp [pathFor, h]

theorem legacyPathFor_ok (h : validateKey k = .ok ()) :
    legacyPathFor sha256 k = .ok (flattened k) := by
  simp [legacyPathFor, pathFor_ok h]

theorem tmp_ne_blob (h : ContentHash) (n : Uuid) (k : String) :
    s!".tmp-archive-{h}-{n}" ≠ blobName sha256 k := by
  intro he
  have hhead := congrArg (fun s => s.toList.head?) he
  simp only [blobName, String.toList_append] at hhead
  cases hhead

theorem blobName_inj (hinj : Set.InjOn (fun k => sha256 (keyBytes k)) K) (hk : k ∈ K)
    (hk' : k' ∈ K) (h : blobName sha256 k = blobName sha256 k') : k = k' := by
  apply hinj hk hk'
  apply ContentHash.text_inj
  have := congrArg String.toList h
  simpa [blobName] using this

theorem checkExisting_cases (sha256 : Bytes → ContentHash) (data existing : Bytes)
    (expected : ContentHash) (different collision : String) :
    (∃ e, checkExisting sha256 data existing expected different collision = .error e) ∨
      existing = data ∧
        checkExisting sha256 data existing expected different collision = .ok data.length := by
  unfold checkExisting
  split
  · exact .inl ⟨_, rfl⟩
  · by_cases h : existing = data
    · exact .inr ⟨h, if_neg (not_not.mpr h)⟩
    · exact .inl ⟨_, if_pos h⟩

/-! ## the files hold the map -/

/-- the files are the blobs of the map -/
structure Holds (sha256 : Bytes → ContentHash) (K : Set String) (fs : Files)
    (m : String → Option Bytes) : Prop where
  blob : ∀ k ∈ K, fs (blobName sha256 k) = m k
  only : ∀ n d, fs n = some d → ∃ k ∈ K, n = blobName sha256 k

variable {m : String → Option Bytes} {d : Bytes}

namespace Holds

/-- a file under the earlier name of a key is its blob -/
theorem legacy (hap : Apart sha256 K) (h : Holds sha256 K fs m) (hk : k ∈ K)
    (hd : fs (flattened k) = some d) : m k = some d := by
  obtain ⟨k', hk', hn⟩ := h.only _ d hd
  by_cases he : k' = k
  · subst he
    rw [hn, h.blob k' hk'] at hd
    exact hd
  · exact absurd hn (hap k' hk' k hk he)

theorem read_some (h : Holds sha256 K fs m) (hv : validateKey k = .ok ()) (hk : k ∈ K)
    (hd : m k = some d) : read sha256 a fs k = .ok d := by
  have hf : fs (blobName sha256 k) = some d := (h.blob k hk).trans hd
  simp [read, pathFor_ok hv, hf, readRegularFile]

theorem read_none (hap : Apart sha256 K) (h : Holds sha256 K fs m) (hv : validateKey k = .ok ())
    (hk : k ∈ K) (hd : m k = none) :
    read sha256 a fs k = .error (.notFound s!"archive file {a.display (flattened k)}") := by
  have hf : fs (blobName sha256 k) = none := (h.blob k hk).trans hd
  have hl : fs (flattened k) = none := by
    cases hc : fs (flattened k) with
    | none => rfl
    | some d =>
      rw [h.legacy hap hk hc] at hd
      cases hd
  simp [read, pathFor_ok hv, legacyPathFor_ok hv, hf, hl, readRegularFile]

theorem exists_eq (hap : Apart sha256 K) (h : Holds sha256 K fs m) (hv : validateKey k = .ok ())
    (hk : k ∈ K) : exists_ sha256 fs k = .ok (m k).isSome := by
  simp only [exists_, pathFor_ok hv, legacyPathFor_ok hv, h.blob k hk]
  cases hm : m k with
  | some d => rfl
  | none =>
    cases hc : fs (flattened k) with
    | none => rfl
    | some d =>
      rw [h.legacy hap hk hc] at hm
      cases hm

theorem delete (hinj : Set.InjOn (fun k => sha256 (keyBytes k)) K) (hap : Apart sha256 K)
    (h : Holds sha256 K fs m) (hv : validateKey k = .ok ()) (hk : k ∈ K) :
    (delete sha256 fs k).1 = .ok () ∧
      Holds sha256 K (delete sha256 fs k).2 (Function.update m k none) := by
  simp only [LocalFsArchive.delete, pathFor_ok hv, legacyPathFor_ok hv]
  refine ⟨trivial, ?_, ?_⟩
  · intro k' hk'
    by_cases he : k' = k
    · subst he
      rw [Function.update_self]
      by_cases hf : blobName sha256 k' = flattened k'
      · rw [hf, Files.set_self]
      · rw [Files.set_other hf, Files.set_self]
    · have hblob : blobName sha256 k' ≠ blobName sha256 k :=
        fun hb => he (blobName_inj hinj hk' hk hb)
      rw [Function.update_of_ne he, Files.set_other (hap k' hk' k hk he).symm,
        Files.set_other hblob, h.blob k' hk']
  · intro n d hn
    unfold Files.set at hn
    split at hn
    · cases hn
    · split at hn
      · cases hn
      · exact h.only n d hn

/-- a first write publishes the blob -/
theorem publish (hinj : Set.InjOn (fun k => sha256 (keyBytes k)) K) (h : Holds sha256 K fs m)
    (hk : k ∈ K) (hm : m k = none) (t : ContentHash) (n : Uuid) :
    ∃ fs', publish sha256 a fs k (blobName sha256 k) s!".tmp-archive-{t}-{n}" d (sha256 d) =
        (.ok d.length, fs') ∧ Holds sha256 K fs' (Function.update m k (some d)) := by
  set tmp := s!".tmp-archive-{t}-{n}" with htmp
  have hne (k' : String) : blobName sha256 k' ≠ tmp := fun he => tmp_ne_blob t n k' he.symm
  have hfinal : fs (blobName sha256 k) = none := (h.blob k hk).trans hm
  have htmp' : fs tmp = none := by
    cases hc : fs tmp with
    | none => rfl
    | some d =>
      obtain ⟨k', _, hk'⟩ := h.only _ d hc
      exact absurd hk'.symm (hne k')
  refine ⟨((fs.set tmp (some d)).set (blobName sha256 k) (some d)).set tmp none, ?_, ?_, ?_⟩
  · simp [LocalFsArchive.publish, htmp', Files.set_other (hne k), hfinal, Files.set_self,
      readRegularFile, verifySha256]
  · intro k' hk'
    rw [Files.set_other (hne k')]
    by_cases he : k' = k
    · subst he
      rw [Function.update_self, Files.set_self]
    · have hblob : blobName sha256 k' ≠ blobName sha256 k :=
        fun hb => he (blobName_inj hinj hk' hk hb)
      rw [Function.update_of_ne he, Files.set_other hblob, Files.set_other (hne k'), h.blob k' hk']
  · intro x y hx
    unfold Files.set at hx
    split at hx
    · cases hx
    · split at hx
      · next hb => exact ⟨k, hk, hb⟩
      · exact h.only x y (by simp_all)

variable (a d) in
theorem write_new (hinj : Set.InjOn (fun k => sha256 (keyBytes k)) K) (hap : Apart sha256 K)
    (h : Holds sha256 K fs m) (hv : validateKey k = .ok ()) (hk : k ∈ K) (hm : m k = none)
    (n : Uuid) : ∃ fs', write sha256 a fs k d (sha256 d) n = (.ok d.length, fs') ∧
      Holds sha256 K fs' (Function.update m k (some d)) := by
  have hver : verifySha256 sha256 d (sha256 d) = .ok () := if_pos rfl
  have hleg : legacyHolds sha256 fs (flattened k) d (sha256 d) = false := by
    unfold legacyHolds
    cases hc : fs (flattened k) with
    | none => rfl
    | some x =>
      rw [h.legacy hap hk hc] at hm
      cases hm
  obtain ⟨fs', hp, hh⟩ := @publish sha256 a fs K k m d hinj h hk hm (sha256 (keyBytes k)) n
  refine ⟨fs', ?_, hh⟩
  simp only [LocalFsArchive.write, hver, pathFor_ok hv, legacyPathFor_ok hv, h.blob k hk, hm, hleg,
    Bool.false_eq_true, if_false]
  exact hp

variable (a d) in
theorem write (hinj : Set.InjOn (fun k => sha256 (keyBytes k)) K) (hap : Apart sha256 K)
    (h : Holds sha256 K fs m) (hv : validateKey k = .ok ()) (hk : k ∈ K) (n : Uuid) :
    (∃ s fs', write sha256 a fs k d (sha256 d) n = (.ok s, fs') ∧
        Holds sha256 K fs' (Function.update m k (some d))) ∨
      ∃ e, write sha256 a fs k d (sha256 d) n = (.error e, fs) := by
  cases hm : m k with
  | some existing =>
    have hver : verifySha256 sha256 d (sha256 d) = .ok () := if_pos rfl
    simp only [LocalFsArchive.write, hver, pathFor_ok hv, h.blob k hk, hm]
    rcases checkExisting_cases sha256 d existing (sha256 d)
        s!"archive key {quoted k} already contains different data: "
        s!"archive key {quoted k} content collision" with ⟨e, he⟩ | ⟨rfl, he⟩
    · exact .inr ⟨e, by rw [he]⟩
    · refine .inl ⟨existing.length, fs, by rw [he], ?_⟩
      rw [← hm, Function.update_eq_self]
      exact h
  | none =>
    obtain ⟨fs', hw, hh⟩ := h.write_new a d hinj hap hv hk hm n
    exact .inl ⟨_, fs', hw, hh⟩

end Holds

/-! ## runs -/

/-- one call keeps the files and the map in step -/
theorem Holds.step (hK : ∀ k ∈ K, validateKey k = .ok ())
    (hinj : Set.InjOn (fun k => sha256 (keyBytes k)) K) (hap : Apart sha256 K)
    {h : List (Call × Reply)} (hh : Holds sha256 K fs (fun k => stored k h)) {c : Call}
    (hk : c.key ∈ K) (hc : c.Correct sha256) :
    Holds sha256 K (step sha256 a fs c).2
      (fun k => stored k ((c, (step sha256 a fs c).1) :: h)) := by
  cases c with
  | write key d e n =>
    obtain rfl : sha256 d = e := hc
    rcases hh.write a d hinj hap (hK key hk) hk n with ⟨s, fs', hw, hh'⟩ | ⟨e, hw⟩
    · simp only [LocalFsArchive.step, hw]
      have hm : (fun k => stored k ((.write key d (sha256 d) n, .size (.ok s)) :: h)) =
          Function.update (fun k => stored k h) key (some d) := by
        funext k
        by_cases he : k = key
        · rw [he, Function.update_self, stored, if_pos rfl]
        · rw [Function.update_of_ne he, stored, if_neg (Ne.symm he)]
      rw [hm]
      exact hh'
    · simp only [LocalFsArchive.step, hw]
      exact hh
  | read key => exact hh
  | exists_ key => exact hh
  | delete key =>
    obtain ⟨hd, hh'⟩ := hh.delete hinj hap (hK key hk) hk
    simp only [LocalFsArchive.step, hd]
    have hm : (fun k => stored k ((.delete key, .done (.ok ())) :: h)) =
        Function.update (fun k => stored k h) key none := by
      funext k
      by_cases he : k = key
      · rw [he, Function.update_self, stored, if_pos rfl]
      · rw [Function.update_of_ne he, stored, if_neg (Ne.symm he)]
    rw [hm]
    exact hh'

theorem after_holds (hK : ∀ k ∈ K, validateKey k = .ok ())
    (hinj : Set.InjOn (fun k => sha256 (keyBytes k)) K) (hap : Apart sha256 K) {cs : List Call}
    (hcs : ∀ c ∈ cs, c.key ∈ K ∧ c.Correct sha256) :
    Holds sha256 K (after sha256 a cs).1 (fun k => stored k (after sha256 a cs).2) := by
  induction cs with
  | nil => exact ⟨fun _ _ => rfl, fun _ _ h => by cases h⟩
  | cons c cs ih =>
    have hc := hcs c List.mem_cons_self
    exact Holds.step hK hinj hap (ih fun x hx => hcs x (List.mem_cons_of_mem _ hx)) hc.1 hc.2

/-- the answers about other keys do not change -/
theorem stored_other {c : Call} {r : Reply} {h : List (Call × Reply)} (hne : k ≠ c.key) :
    stored k ((c, r) :: h) = stored k h := by
  cases c with
  | write key d e n =>
    cases r with
    | size r =>
      cases r with
      | ok s => exact if_neg (Ne.symm hne)
      | error e => rfl
    | _ => rfl
  | read key => rfl
  | exists_ key => rfl
  | delete key =>
    cases r with
    | done r =>
      cases r with
      | ok u => exact if_neg (Ne.symm hne)
      | error e => rfl
    | _ => rfl

theorem mapLaw (hK : ∀ k ∈ K, validateKey k = .ok ())
    (hinj : Set.InjOn (fun k => sha256 (keyBytes k)) K) (hap : Apart sha256 K) {cs : List Call}
    (hcs : ∀ c ∈ cs, c.key ∈ K ∧ c.Correct sha256) : MapLaw sha256 a K cs := by
  have hh := @after_holds sha256 a K hK hinj hap cs hcs
  refine ⟨?_, ?_, ?_, ?_⟩
  · intro k hk d hd
    exact hh.read_some (hK k hk) hk hd
  · intro k hk hd
    exact ⟨_, hh.read_none hap (hK k hk) hk hd⟩
  · intro k hk
    exact hh.exists_eq hap (hK k hk) hk
  · intro c hc hcorrect k hk hne
    have hh' := @Holds.step sha256 a _ K hK hinj hap _ hh c hc hcorrect
    have hsame : stored k ((c, (step sha256 a (after sha256 a cs).1 c).1) :: (after sha256 a cs).2) =
        stored k (after sha256 a cs).2 := stored_other hne
    constructor
    · cases hd : stored k (after sha256 a cs).2 with
      | some d => rw [hh.read_some (hK k hk) hk hd, hh'.read_some (hK k hk) hk (hsame.trans hd)]
      | none =>
        rw [hh.read_none hap (hK k hk) hk hd, hh'.read_none hap (hK k hk) hk (hsame.trans hd)]
    · rw [hh.exists_eq hap (hK k hk) hk, hh'.exists_eq hap (hK k hk) hk, hsame]

/-- a key that spells the file name of another one reads its blob -/
theorem alias_read (hv : validateKey k = .ok ()) (hv' : validateKey k' = .ok ())
    (hne : blobName sha256 k' ≠ blobName sha256 k) (he : flattened k' = blobName sha256 k)
    (d : Bytes) (n : Uuid) :
    read sha256 a (after sha256 a [.write k d (sha256 d) n]).1 k' = .ok d := by
  -- the key alone is apart, so its blob is published as usual
  have hinj : Set.InjOn (fun k => sha256 (keyBytes k)) {k} := Set.injOn_singleton _ _
  have hap : Apart sha256 {k} := fun x hx y hy hxy => absurd (hx.trans hy.symm) hxy
  have hempty : Holds sha256 {k} (fun _ => none) (fun _ => none) :=
    ⟨fun _ _ => rfl, fun _ _ h => by cases h⟩
  obtain ⟨fs', hw, hh⟩ := hempty.write_new a d hinj hap hv rfl rfl n
  have hblob : fs' (blobName sha256 k) = some d := by
    rw [hh.blob k rfl, Function.update_self]
  have hnone : fs' (blobName sha256 k') = none := by
    cases hc : fs' (blobName sha256 k') with
    | none => rfl
    | some x =>
      obtain ⟨y, rfl, hy⟩ := hh.only _ x hc
      exact absurd hy hne
  simp only [after, step, hw, read, pathFor_ok hv', legacyPathFor_ok hv', hnone, readRegularFile, he,
    hblob]

end

/-- On keys the archive accepts, and as long as no two of them have the same hash, the archive is a
map of immutable blobs after every sequence of calls if and only if no key is, up to its
separators, the file name of another one. -/
theorem local_archive_map (sha256 : Bytes → ContentHash) (a : LocalFsArchive) (K : Set String)
    (hK : ∀ k ∈ K, validateKey k = .ok ())
    (hinj : Set.InjOn (fun k => sha256 (keyBytes k)) K) :
    (∀ cs : List Call, (∀ c ∈ cs, c.key ∈ K ∧ c.Correct sha256) → MapLaw sha256 a K cs) ↔
      Apart sha256 K := by
  constructor
  · intro h k hk k' hk' hne he
    have hcs : ∀ c ∈ [Call.write k [] (sha256 []) .nil], c.key ∈ K ∧ c.Correct sha256 := by
      intro c hc
      rw [List.mem_singleton.mp hc]
      exact ⟨hk, rfl⟩
    have hblob : blobName sha256 k' ≠ blobName sha256 k :=
      fun hb => hne (blobName_inj hinj hk' hk hb).symm
    have hnever : stored k' (after sha256 a [.write k [] (sha256 []) .nil]).2 = none :=
      stored_other (Ne.symm hne)
    obtain ⟨t, ht⟩ := (h _ hcs).absent k' hk' hnever
    rw [alias_read (hK k hk) (hK k' hk') hblob he] at ht
    cases ht
  · intro hap cs hcs
    exact mapLaw hK hinj hap hcs

namespace Sample

/-- the file name of the key `a`, as a key -/
def fileOfA : String := "blob-ca978112ca1bbdcafac231b39a23dc4da786eff8147c4e72b9807785afee48bb"

/-- SHA-256 on the byte strings of the examples below -/
def sha256 (b : Bytes) : ContentHash :=
  if b = keyBytes "a" then
    ⟨0xca978112ca1bbdcafac231b39a23dc4da786eff8147c4e72b9807785afee48bb⟩
  else if b = keyBytes fileOfA then
    ⟨0xb49a64c6b15b1eca3a3ae8c293c496274f885fdcbedd46ce6a66ca0cc0ecc6d8⟩
  else if b = keyBytes "a/b" then
    ⟨0xc14cddc033f64b9dea80ea675cf280a015e672516090a5626781153dc68fea11⟩
  else if b = keyBytes "a-b" then
    ⟨0xd44362d67d921091c7b9674d752e9e23c1f9ec8a4f0b82741bf01364eb97c830⟩
  else ⟨0x4bf5122f344554c53bde2ebb8cd2b7e3d1600ad631c385a5d7cce23c7785459a⟩

def archive : LocalFsArchive := ⟨"local", "/archive"⟩

end Sample

/-- keys that differ only in a separator are kept apart -/
theorem local_archive_map_separators :
    Apart Sample.sha256 {"a/b", "a-b"} ∧
      MapLaw Sample.sha256 Sample.archive {"a/b", "a-b"}
        [.delete "a-b", .write "a-b" [1] (Sample.sha256 [1]) .nil,
          .write "a/b" [1] (Sample.sha256 [1]) .nil] := by
  have hK : ∀ k ∈ ({"a/b", "a-b"} : Set String), validateKey k = .ok () := by
    rintro k (rfl | rfl)
    · decide +kernel
    · decide +kernel
  have hinj : Set.InjOn (fun k => Sample.sha256 (keyBytes k)) {"a/b", "a-b"} := by
    rintro k (rfl | rfl) k' (rfl | rfl) h
    · rfl
    · exact absurd h (by decide +kernel)
    · exact absurd h (by decide +kernel)
    · rfl
  have hap : Apart Sample.sha256 {"a/b", "a-b"} := by
    rintro k (rfl | rfl) k' (rfl | rfl) hne
    · exact absurd rfl hne
    · decide +kernel
    · decide +kernel
    · exact absurd rfl hne
  refine ⟨hap, (local_archive_map Sample.sha256 Sample.archive {"a/b", "a-b"} hK hinj).mpr hap _ ?_⟩
  intro c hc
  simp only [List.mem_cons, List.not_mem_nil, or_false] at hc
  rcases hc with rfl | rfl | rfl
  · exact ⟨.inr rfl, trivial⟩
  · exact ⟨.inr rfl, rfl⟩
  · exact ⟨.inl rfl, rfl⟩

/-- a key that spells the file name of another one reads its blob, though it was never written -/
theorem local_archive_alias :
    validateKey "a" = .ok () ∧ validateKey Sample.fileOfA = .ok () ∧
      Sample.sha256 (keyBytes "a") ≠ Sample.sha256 (keyBytes Sample.fileOfA) ∧
      ¬MapLaw Sample.sha256 Sample.archive {"a", Sample.fileOfA}
        [.write "a" [1] (Sample.sha256 [1]) .nil] := by
  have hv : validateKey "a" = .ok () := by decide +kernel
  have hv' : validateKey Sample.fileOfA = .ok () := by decide +kernel
  have hsha : Sample.sha256 (keyBytes "a") ≠ Sample.sha256 (keyBytes Sample.fileOfA) := by
    decide +kernel
  have hne : blobName Sample.sha256 Sample.fileOfA ≠ blobName Sample.sha256 "a" := by
    decide +kernel
  have he : flattened Sample.fileOfA = blobName Sample.sha256 "a" := by decide +kernel
  refine ⟨hv, hv', hsha, ?_⟩
  intro h
  obtain ⟨t, ht⟩ := h.absent Sample.fileOfA (.inr rfl) (stored_other (by decide))
  rw [alias_read hv hv' hne he] at ht
  cases ht

end LocalFsArchive

end ReclaimFabric
