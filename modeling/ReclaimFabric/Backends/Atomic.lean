import ReclaimFabric.Backends.File

/-!
# Atomic puts and deletes

What any number of concurrent calls on a file backend leave in its directory, with crashes of the
machine and threads that end anywhere.

* `Inv`             what is under a key is complete and synced, a file that is being written has no
                    other name;
* `Quiet`, `Moves`  the two kinds of change: of a temporary file, and of what is under a key;
* `Inv.call`        one call of the operating system;
* `put_returns`     a `put` that meets no failure;
* `file_backend_atomic`   the payloads change by whole puts and deletes, once for each call, and
                    what a call alone on its key has synced survives every crash.
-/

namespace ReclaimFabric

namespace FileBackend

/-! ## names -/

theorem not_key_tmpName (key : String) (id : Uuid) : ¬Key (tmpName key id) := by
  intro h
  have hstart : ".tmp-".toList.isPrefixOf (tmpName key id).toList = true := by
    rw [List.isPrefixOf_iff_prefix, tmpName, String.toList_append, String.toList_append,
      String.toList_append, List.append_assoc, List.append_assoc]
    exact List.prefix_append _ _
  unfold Key validateKey at h
  split at h
  · cases h
  · rw [if_pos (.inr (.inr hstart))] at h
    cases h

theorem Key.ne_tmpName {k key : String} {id : Uuid} (h : Key k) : k ≠ tmpName key id := by
  rintro rfl
  exact not_key_tmpName key id h

theorem tmpName_inj {k k' : String} {id id' : Uuid} (h : tmpName k id = tmpName k' id') :
    id = id' := by
  have hlist := congrArg String.toList h
  simp only [tmpName, String.toList_append, Uuid.toList_text] at hlist
  have hlen : id.chars.length = id'.chars.length := by
    rw [Uuid.chars_length, Uuid.chars_length]
  exact Uuid.chars_inj (List.append_inj_right' hlist hlen)

/-! ## the invariant -/

/-- a binding to a file with these bytes, or to nothing -/
def Rests (d : Disk String Bytes) (e : Option Disk.Entry) (x : Option Bytes) : Prop :=
  Disk.Entry.Plain e ∧ d.content e = x

/-- a payload that was there before, or one that a call was asked to store -/
def Known (disk : Disk String Bytes) (s : State) (k : String) (c : Bytes) : Prop :=
  disk.content (disk.dir k) = some c ∨ (k, some c) ∈ s.asked

/-- the temporary file of a call: it has one name, and holds the front of the payload -/
structure Owns (d : Disk String Bytes) (id : Uuid) (op : Op) (i : Nat) : Prop where
  lt : i < d.next
  tmp : d.dir (tmpName op.key id) = some (.file i)
  only : ∀ n, n ≠ tmpName op.key id → some (.file i) ∉ d.kept n
  front : ∃ c, op.value = some c ∧ d.data i <+: c
  full : op.phase ≠ .opened i → op.value = some (d.data i)
  synced : op.phase = .synced i → d.synced i = true

structure Inv (disk : Disk String Bytes) (s : State) : Prop where
  present : ∀ n, s.disk.dir n ∈ s.disk.kept n
  bound : ∀ n i, some (.file i) ∈ s.disk.kept n → i < s.disk.next
  whole : ∀ k, Key k → ∀ i, some (.file i) ∈ s.disk.kept k →
    s.disk.synced i = true ∧ Known disk s k (s.disk.data i)
  asked : ∀ id op, s.ops id = some op → Key op.key ∧ (op.key, op.value) ∈ s.asked
  own : ∀ id op, s.ops id = some op → ∀ i, op.phase.inode = some i → Owns s.disk id op i
  pending : ∀ id op, s.ops id = some op → op.phase = .begun ∨ op.phase.inode.isSome = true →
    op.applied = false
  done : ∀ id op, s.ops id = some op → op.phase = .returned none → op.applied = true
  changed : ∀ id op, s.ops id = some op → op.phase = .changed →
    op.applied = true ∧ (op.alone = true → Rests s.disk (s.disk.dir op.key) op.value)
  alone : ∀ id op, s.ops id = some op → op.phase.active = true → op.alone = true →
    ∀ id' op', s.ops id' = some op' → op'.phase.active = true → op'.key = op.key → id' = id
  firm : ∀ k x, s.firm k = some x → Key k ∧ (∀ e ∈ s.disk.kept k, Rests s.disk e x) ∧
    ∀ id op, s.ops id = some op → op.phase.active = true → op.key ≠ k

/-- a change of the temporary file of one call and of nothing else -/
structure Quiet (d d' : Disk String Bytes) (t : String) : Prop where
  next : d.next ≤ d'.next
  dir : ∀ n, n ≠ t → d'.dir n = d.dir n
  kept : ∀ n, n ≠ t → d'.kept n = d.kept n
  data : ∀ n i, n ≠ t → some (.file i) ∈ d.kept n → d'.data i = d.data i
  synced : ∀ n i, n ≠ t → some (.file i) ∈ d.kept n → d.synced i = true → d'.synced i = true
  here : d'.dir t ∈ d'.kept t
  fresh : ∀ i, some (.file i) ∈ d'.kept t → some (.file i) ∈ d.kept t ∨ d.next ≤ i ∧ i < d'.next

section
variable {disk d d' : Disk String Bytes} {s s' : State} {id : Uuid} {op op' : Op}

theorem Phase.active_of_inode {p : Phase} {i : Nat} (h : p.inode = some i) : p.active = true := by
  cases p with
  | opened | written | synced => rfl
  | begun | changed | failing | returned | lost => cases h

theorem State.set_ops_self : (s.set id op).ops id = some op := if_pos rfl

theorem State.set_ops_ne {x : Uuid} (h : x ≠ id) : (s.set id op).ops x = s.ops x := if_neg h

theorem Rests.quiet {k t : String} {e : Option Disk.Entry} {x : Option Bytes}
    (hq : Quiet d d' t) (hk : k ≠ t) (he : e ∈ d.kept k) (h : Rests d e x) : Rests d' e x := by
  refine ⟨h.1, ?_⟩
  rw [← h.2]
  match e, he with
  | none, _ => rfl
  | some .link, _ => rfl
  | some .folder, _ => rfl
  | some (.file i), he => exact congrArg some (hq.data k i hk he)

/-- the temporary file of another call is not touched -/
theorem Owns.quiet {t : String} {i : Nat} (hq : Quiet d d' t) (ht : tmpName op.key id ≠ t)
    (hp : d.dir (tmpName op.key id) ∈ d.kept (tmpName op.key id)) (h : Owns d id op i) :
    Owns d' id op i := by
  rw [h.tmp] at hp
  have hdata := hq.data _ i ht hp
  refine ⟨h.lt.trans_le hq.next, (hq.dir _ ht).trans h.tmp, ?_, ?_, ?_, ?_⟩
  · intro n hn hmem
    by_cases hnt : n = t
    · subst hnt
      rcases hq.fresh i hmem with hmem | ⟨hge, -⟩
      · exact h.only n hn hmem
      · exact absurd h.lt (Nat.not_lt.mpr hge)
    · rw [hq.kept n hnt] at hmem
      exact h.only n hn hmem
  · rw [hdata]
    exact h.front
  · rw [hdata]
    exact h.full
  · exact fun hp' => hq.synced _ i ht hp (h.synced hp')

/-- what a call goes on with is the same call -/
structure Op.Same (op op' : Op) : Prop where
  key : op'.key = op.key
  value : op'.value = op.value
  alone : op'.alone = op.alone
  active : op'.phase.active = true → op.phase.active = true

/-- every call, when one goes on -/
theorem State.forall_set {P : Uuid → Op → Prop}
    (h : ∀ x a, s.ops x = some a → x ≠ id → P x a) (hop : P id op') :
    ∀ x a, (s.set id op').ops x = some a → P x a := by
  intro x a hx
  by_cases hxid : x = id
  · subst hxid
    rw [State.set_ops_self] at hx
    cases hx
    exact hop
  · rw [State.set_ops_ne hxid] at hx
    exact h x a hx hxid

theorem Inv.alone_set (h : Inv disk s) (ho : s.ops id = some op) (hs : op.Same op') :
    ∀ x a, (s.set id op').ops x = some a → a.phase.active = true → a.alone = true →
      ∀ x' a', (s.set id op').ops x' = some a' → a'.phase.active = true → a'.key = a.key →
        x' = x := by
  have hback : ∀ x a, (s.set id op').ops x = some a → a.phase.active = true →
      ∃ a₀, s.ops x = some a₀ ∧ a₀.phase.active = true ∧ a₀.key = a.key ∧ a₀.alone = a.alone := by
    refine State.forall_set (fun x a hx _ ha => ⟨a, hx, ha, rfl, rfl⟩) ?_
    exact fun ha => ⟨op, ho, hs.active ha, hs.key.symm, hs.alone.symm⟩
  intro x a hx ha hal x' a' hx' ha' hkey
  obtain ⟨a₀, hx₀, ha₀, hk₀, hal₀⟩ := hback x a hx ha
  obtain ⟨a₁, hx₁, ha₁, hk₁, -⟩ := hback x' a' hx' ha'
  exact h.alone x a₀ hx₀ ha₀ (hal₀.trans hal) x' a₁ hx₁ ha₁ (hk₁.trans (hkey.trans hk₀.symm))

theorem Inv.firm_set (h : Inv disk s) (ho : s.ops id = some op) (hs : op.Same op') {k : String}
    {x : Option Bytes} (hf : s.firm k = some x) :
    ∀ y a, (s.set id op').ops y = some a → a.phase.active = true → a.key ≠ k := by
  refine State.forall_set (fun y a hy _ => (h.firm k x hf).2.2 y a hy) ?_
  intro ha hk
  exact (h.firm k x hf).2.2 id op ho (hs.active ha) (hs.key.symm.trans hk)

/-- a call goes on, and nothing but its temporary file changes -/
theorem Inv.quiet (h : Inv disk s) (ho : s.ops id = some op) (hs : op.Same op')
    (hq : Quiet s.disk d' (tmpName op.key id))
    (hown : ∀ i, op'.phase.inode = some i → Owns d' id op' i) (hchanged : op'.phase ≠ .changed)
    (hpending : op'.phase = .begun ∨ op'.phase.inode.isSome = true → op'.applied = false)
    (hdone : op'.phase = .returned none → op'.applied = true) :
    Inv disk { s.set id op' with disk := d' } where
  present := by
    intro n
    show d'.dir n ∈ d'.kept n
    by_cases hn : n = tmpName op.key id
    · rw [hn]
      exact hq.here
    · rw [hq.dir n hn, hq.kept n hn]
      exact h.present n
  bound := by
    intro n i hi
    by_cases hn : n = tmpName op.key id
    · subst hn
      rcases hq.fresh i hi with hi | ⟨-, hi⟩
      · exact (h.bound _ i hi).trans_le hq.next
      · exact hi
    · have hi' : some (.file i) ∈ s.disk.kept n := by
        rw [← hq.kept n hn]
        exact hi
      exact (h.bound n i hi').trans_le hq.next
  whole := by
    intro k hk i hi
    have hkt : k ≠ tmpName op.key id := hk.ne_tmpName
    have hi' : some (.file i) ∈ s.disk.kept k := by
      rw [← hq.kept k hkt]
      exact hi
    obtain ⟨hsync, hknown⟩ := h.whole k hk i hi'
    refine ⟨hq.synced k i hkt hi' hsync, ?_⟩
    show Known disk s k (d'.data i)
    rw [hq.data k i hkt hi']
    exact hknown
  asked := by
    refine State.forall_set (fun x a hx _ => h.asked x a hx) ?_
    rw [hs.key, hs.value]
    exact h.asked id op ho
  own := by
    refine State.forall_set (fun x a hx hne i hi => ?_) hown
    exact (h.own x a hx i hi).quiet hq (fun he => hne (tmpName_inj he)) (h.present _)
  pending := State.forall_set (fun x a hx _ => h.pending x a hx) hpending
  done := State.forall_set (fun x a hx _ => h.done x a hx) hdone
  changed := by
    refine State.forall_set (fun x a hx _ hp => ?_) (fun hp => absurd hp hchanged)
    obtain ⟨happ, hrest⟩ := h.changed x a hx hp
    have hkt : a.key ≠ tmpName op.key id := (h.asked x a hx).1.ne_tmpName
    refine ⟨happ, fun hal => ?_⟩
    show Rests d' (d'.dir a.key) a.value
    rw [hq.dir _ hkt]
    exact (hrest hal).quiet hq hkt (h.present _)
  alone := h.alone_set ho hs
  firm := by
    intro k x hf
    obtain ⟨hk, hrest, -⟩ := h.firm k x hf
    refine ⟨hk, ?_, h.firm_set ho hs hf⟩
    intro e he
    have hkt : k ≠ tmpName op.key id := hk.ne_tmpName
    have he' : e ∈ s.disk.kept k := by
      rw [← hq.kept k hkt]
      exact he
    exact (hrest e he').quiet hq hkt he'

/-- a change of what is under the key of a call; the temporary file may lose its name -/
structure Moves (d d' : Disk String Bytes) (key t : String) (e : Option Disk.Entry) : Prop where
  next : d'.next = d.next
  data : d'.data = d.data
  synced : d'.synced = d.synced
  dir : ∀ n, n ≠ key → n ≠ t → d'.dir n = d.dir n
  kept : ∀ n, n ≠ key → n ≠ t → d'.kept n = d.kept n
  dirKey : d'.dir key = e
  keptKey : d'.kept key = e :: d.kept key
  here : d'.dir t ∈ d'.kept t
  fresh : ∀ i, some (.file i) ∈ d'.kept t → some (.file i) ∈ d.kept t

/-- a call changes what is under its key -/
theorem Inv.moves {e : Option Disk.Entry} (h : Inv disk s) (ho : s.ops id = some op)
    (hactive : op.phase.active = true)
    (hm : Moves s.disk d' op.key (tmpName op.key id) e) (hrest : Rests s.disk e op.value)
    (hfile : ∀ i, e = some (.file i) → i < s.disk.next ∧ s.disk.synced i = true ∧
      s.disk.dir (tmpName op.key id) = some (.file i)) :
    Inv disk { s.set id { op with phase := .changed, applied := true } with disk := d' } := by
  obtain ⟨hkey, hasked⟩ := h.asked id op ho
  have hs : op.Same { op with phase := .changed, applied := true } :=
    ⟨rfl, rfl, rfl, fun _ => hactive⟩
  have hrest' : ∀ {e' x}, Rests s.disk e' x → Rests d' e' x := by
    rintro e' x ⟨hne, hc⟩
    refine ⟨hne, ?_⟩
    rw [← hc]
    match e' with
    | none => rfl
    | some .link => rfl
    | some .folder => rfl
    | some (.file i) => exact congrArg (fun f => some (f i)) hm.data
  exact
    { present := by
        intro n
        show d'.dir n ∈ d'.kept n
        by_cases hn : n = op.key
        · rw [hn, hm.dirKey, hm.keptKey]
          exact List.mem_cons_self
        · by_cases ht : n = tmpName op.key id
          · rw [ht]
            exact hm.here
          · rw [hm.dir n hn ht, hm.kept n hn ht]
            exact h.present n
      bound := by
        intro n i hi
        show i < d'.next
        rw [hm.next]
        by_cases hn : n = op.key
        · subst hn
          rw [show _ = _ from hm.keptKey] at hi
          rcases List.mem_cons.mp hi with hi | hi
          · exact (hfile i hi.symm).1
          · exact h.bound _ i hi
        · by_cases ht : n = tmpName op.key id
          · subst ht
            exact h.bound _ i (hm.fresh i hi)
          · rw [show _ = _ from hm.kept n hn ht] at hi
            exact h.bound n i hi
      whole := by
        intro k hk i hi
        show d'.synced i = true ∧ Known disk s k (d'.data i)
        rw [hm.synced, hm.data]
        by_cases hn : k = op.key
        · subst hn
          rw [show _ = _ from hm.keptKey] at hi
          rcases List.mem_cons.mp hi with hi | hi
          · refine ⟨(hfile i hi.symm).2.1, .inr ?_⟩
            rw [← hi] at hrest
            have hv : some (s.disk.data i) = op.value := hrest.2
            rw [hv]
            exact hasked
          · exact h.whole _ hk i hi
        · rw [show _ = _ from hm.kept k hn hk.ne_tmpName] at hi
          exact h.whole k hk i hi
      asked := State.forall_set (fun x a hx _ => h.asked x a hx) ⟨hkey, hasked⟩
      own := by
        refine State.forall_set (fun x a hx hne i hi => ?_) (fun i hi => nomatch hi)
        have hown := h.own x a hx i hi
        have hk : tmpName a.key x ≠ op.key := hkey.ne_tmpName.symm
        have ht : tmpName a.key x ≠ tmpName op.key id := fun he => hne (tmpName_inj he)
        have hni : e ≠ some (.file i) := by
          intro he
          have hmem := h.present (tmpName op.key id)
          rw [(hfile i he).2.2] at hmem
          exact hown.only _ ht.symm hmem
        refine ⟨?_, ?_, ?_, ?_, ?_, ?_⟩
        · show i < d'.next
          rw [hm.next]
          exact hown.lt
        · exact (hm.dir _ hk ht).trans hown.tmp
        · intro n hn hmem
          by_cases hnk : n = op.key
          · subst hnk
            rw [show _ = _ from hm.keptKey] at hmem
            rcases List.mem_cons.mp hmem with he | hmem
            · exact hni he.symm
            · exact hown.only _ hn hmem
          · by_cases hnt : n = tmpName op.key id
            · subst hnt
              exact hown.only _ hn (hm.fresh i hmem)
            · rw [show _ = _ from hm.kept n hnk hnt] at hmem
              exact hown.only n hn hmem
        · show ∃ c, a.value = some c ∧ d'.data i <+: c
          rw [hm.data]
          exact hown.front
        · show a.phase ≠ .opened i → a.value = some (d'.data i)
          rw [hm.data]
          exact hown.full
        · show a.phase = .synced i → d'.synced i = true
          rw [hm.synced]
          exact hown.synced
      pending := State.forall_set (fun x a hx _ => h.pending x a hx) (by
        rintro (hp | hp)
        · cases hp
        · cases hp)
      done := State.forall_set (fun x a hx _ => h.done x a hx) (fun hp => nomatch hp)
      changed := by
        refine State.forall_set (fun x a hx hne hp => ?_) (fun _ => ⟨rfl, fun _ => ?_⟩)
        · obtain ⟨happ, hr⟩ := h.changed x a hx hp
          refine ⟨happ, fun hal => ?_⟩
          have ha : a.phase.active = true := by
            rw [hp]
            rfl
          -- a call that is alone on the key has no other call there to change it
          have hk : a.key ≠ op.key := by
            intro he
            exact hne (h.alone x a hx ha hal id op ho hactive he.symm).symm
          show Rests d' (d'.dir a.key) a.value
          rw [hm.dir _ hk (h.asked x a hx).1.ne_tmpName]
          exact hrest' (hr hal)
        · show Rests d' (d'.dir op.key) op.value
          rw [hm.dirKey]
          exact hrest' hrest
      alone := h.alone_set ho hs
      firm := by
        intro k x hf
        obtain ⟨hk, hr, hno⟩ := h.firm k x hf
        refine ⟨hk, ?_, h.firm_set ho hs hf⟩
        intro e' he'
        have hkk : k ≠ op.key := fun he => hno id op ho hactive he.symm
        rw [show _ = _ from hm.kept k hkk hk.ne_tmpName] at he'
        exact hrest' (hr e' he') }

/-! ## the calls one by one -/

section
variable {t : String} {i : Nat}

theorem Quiet.refl (h : d.dir t ∈ d.kept t) : Quiet d d t where
  next := le_refl _
  dir := fun _ _ => rfl
  kept := fun _ _ => rfl
  data := fun _ _ _ _ => rfl
  synced := fun _ _ _ _ hs => hs
  here := h
  fresh := fun _ hi => .inl hi

theorem Quiet.create (hb : ∀ n i, some (.file i) ∈ d.kept n → i < d.next) :
    Quiet d (d.create t []) t where
  next := Nat.le_succ _
  dir := fun n hn => d.bind_dir_ne hn
  kept := fun n hn => d.bind_kept_ne hn
  data := fun n i _ hi => d.create_data_ne (hb n i hi).ne
  synced := fun n i _ hi hs => (d.create_synced_ne (hb n i hi).ne).trans hs
  here := by
    show (d.bind t _).dir t ∈ (d.bind t _).kept t
    rw [Disk.bind_dir_self, Disk.bind_kept_self]
    exact List.mem_cons_self
  fresh := by
    intro i hi
    rw [show (d.create t []).kept t = _ from d.bind_kept_self] at hi
    rcases List.mem_cons.mp hi with hi | hi
    · cases hi
      exact .inr ⟨le_refl _, Nat.lt_succ_self _⟩
    · exact .inl hi

theorem Quiet.write {c : Bytes} (h : d.dir t ∈ d.kept t)
    (ho : ∀ n, n ≠ t → some (.file i) ∉ d.kept n) : Quiet d (d.write i c) t where
  next := le_refl _
  dir := fun _ _ => rfl
  kept := fun _ _ => rfl
  data := by
    intro n j hn hj
    have hji : j ≠ i := by
      rintro rfl
      exact ho n hn hj
    exact d.write_data_ne hji
  synced := fun _ _ _ _ hs => hs
  here := h
  fresh := fun _ hj => .inl hj

theorem Quiet.sync (h : d.dir t ∈ d.kept t) : Quiet d (d.sync i) t where
  next := le_refl _
  dir := fun _ _ => rfl
  kept := fun _ _ => rfl
  data := fun _ _ _ _ => rfl
  synced := fun _ _ _ _ hs => d.sync_synced_mono hs
  here := h
  fresh := fun _ hj => .inl hj

theorem Quiet.remove : Quiet d (d.remove t) t where
  next := le_refl _
  dir := fun n hn => d.bind_dir_ne hn
  kept := fun n hn => d.bind_kept_ne hn
  data := fun _ _ _ _ => rfl
  synced := fun _ _ _ _ hs => hs
  here := by
    show (d.bind t none).dir t ∈ (d.bind t none).kept t
    rw [Disk.bind_dir_self, Disk.bind_kept_self]
    exact List.mem_cons_self
  fresh := by
    intro i hi
    rw [show (d.remove t).kept t = _ from d.bind_kept_self] at hi
    rcases List.mem_cons.mp hi with hi | hi
    · cases hi
    · exact .inl hi

theorem Moves.rename {key : String} (hne : key ≠ t) (hf : d.dir t = some (.file i)) :
    Moves d (d.rename t key) key t (some (.file i)) where
  next := rfl
  data := rfl
  synced := rfl
  dir := fun n hk ht => ((d.bind key _).bind_dir_ne ht).trans (d.bind_dir_ne hk)
  kept := fun n hk ht => ((d.bind key _).bind_kept_ne ht).trans (d.bind_kept_ne hk)
  dirKey := by
    rw [Disk.rename, Disk.bind_dir_ne _ hne, Disk.bind_dir_self, hf]
  keptKey := by
    rw [Disk.rename, Disk.bind_kept_ne _ hne, Disk.bind_kept_self, hf]
  here := by
    rw [Disk.rename, Disk.bind_dir_self, Disk.bind_kept_self]
    exact List.mem_cons_self
  fresh := by
    intro j hj
    rw [Disk.rename, Disk.bind_kept_self, Disk.bind_kept_ne _ hne.symm] at hj
    rcases List.mem_cons.mp hj with hj | hj
    · cases hj
    · exact hj

theorem Moves.remove {key : String} (hne : key ≠ t) (h : d.dir t ∈ d.kept t) :
    Moves d (d.remove key) key t none where
  next := rfl
  data := rfl
  synced := rfl
  dir := fun n hk _ => d.bind_dir_ne hk
  kept := fun n hk _ => d.bind_kept_ne hk
  dirKey := d.bind_dir_self
  keptKey := d.bind_kept_self
  here := by
    rw [Disk.remove, Disk.bind_dir_ne _ hne.symm, Disk.bind_kept_ne _ hne.symm]
    exact h
  fresh := by
    intro j hj
    rw [Disk.remove, Disk.bind_kept_ne _ hne.symm] at hj
    exact hj

end

theorem Inv.start (h : Settled disk) : Inv disk (.start disk) where
  present := by
    intro n
    show disk.dir n ∈ disk.kept n
    rw [h.kept n]
    exact List.mem_singleton_self _
  bound := by
    intro n i hi
    rw [show (State.start disk).disk.kept n = _ from h.kept n] at hi
    exact h.bound n i (List.mem_singleton.mp hi).symm
  whole := by
    intro k hk i hi
    rw [show (State.start disk).disk.kept k = _ from h.kept k] at hi
    refine ⟨h.synced i, .inl ?_⟩
    rw [← List.mem_singleton.mp hi]
    rfl
  asked := fun _ _ ho => nomatch ho
  own := fun _ _ ho => nomatch ho
  pending := fun _ _ ho => nomatch ho
  done := fun _ _ ho => nomatch ho
  changed := fun _ _ ho => nomatch ho
  alone := fun _ _ ho => nomatch ho
  firm := fun _ _ hf => nomatch hf

/-- the other calls, when one begins -/
theorem State.begin_ops {key : String} {value : Option Bytes} {alone : Bool} {x : Uuid} {a : Op}
    (hx : (s.begin id key value alone).ops x = some a) :
    x = id ∧ a = ⟨key, value, .begun, false, alone⟩ ∨
      x ≠ id ∧ ∃ a₀, s.ops x = some a₀ ∧ a.key = a₀.key ∧ a.value = a₀.value ∧
        a.phase = a₀.phase ∧ a.applied = a₀.applied ∧
        (a.alone = true → a₀.alone = true ∧ a₀.key ≠ key) := by
  simp only [State.begin] at hx
  by_cases hid : x = id
  · rw [if_pos hid] at hx
    cases hx
    exact .inl ⟨hid, rfl⟩
  · rw [if_neg hid] at hx
    obtain ⟨a₀, ha₀, rfl⟩ := Option.map_eq_some_iff.mp hx
    refine .inr ⟨hid, a₀, ha₀, ?_⟩
    by_cases hk : a₀.key = key
    · rw [if_pos hk]
      exact ⟨rfl, rfl, rfl, rfl, fun h => nomatch h⟩
    · rw [if_neg hk]
      exact ⟨rfl, rfl, rfl, rfl, fun h => ⟨h, hk⟩⟩

theorem Inv.begin {key : String} {value : Option Bytes} {alone : Bool} (h : Inv disk s)
    (hk : Key key)
    (ha : alone = true → ∀ x op, s.ops x = some op → op.phase.active = true → op.key ≠ key) :
    Inv disk (s.begin id key value alone) where
  present := h.present
  bound := h.bound
  whole := by
    intro k hk' i hi
    obtain ⟨hsync, hknown⟩ := h.whole k hk' i hi
    exact ⟨hsync, hknown.imp (fun hk => hk) fun hmem => List.mem_append_left _ hmem⟩
  asked := by
    intro x a hx
    rcases State.begin_ops hx with ⟨-, rfl⟩ | ⟨-, a₀, hx₀, hkey, hval, -⟩
    · exact ⟨hk, List.mem_append_right _ (List.mem_singleton_self _)⟩
    · rw [hkey, hval]
      exact ⟨(h.asked x a₀ hx₀).1, List.mem_append_left _ (h.asked x a₀ hx₀).2⟩
  own := by
    intro x a hx i hi
    rcases State.begin_ops hx with ⟨-, rfl⟩ | ⟨-, a₀, hx₀, hkey, hval, hphase, -⟩
    · cases hi
    · rw [hphase] at hi
      obtain ⟨h₁, h₂, h₃, h₄, h₅, h₆⟩ := h.own x a₀ hx₀ i hi
      rw [← hkey] at h₂ h₃
      rw [← hval] at h₄ h₅
      rw [← hphase] at h₅ h₆
      exact ⟨h₁, h₂, h₃, h₄, h₅, h₆⟩
  pending := by
    intro x a hx hp
    rcases State.begin_ops hx with ⟨-, rfl⟩ | ⟨-, a₀, hx₀, -, -, hphase, happ, -⟩
    · rfl
    · rw [hphase] at hp
      rw [happ]
      exact h.pending x a₀ hx₀ hp
  done := by
    intro x a hx hp
    rcases State.begin_ops hx with ⟨-, rfl⟩ | ⟨-, a₀, hx₀, -, -, hphase, happ, -⟩
    · cases hp
    · rw [hphase] at hp
      rw [happ]
      exact h.done x a₀ hx₀ hp
  changed := by
    intro x a hx hp
    rcases State.begin_ops hx with ⟨-, rfl⟩ | ⟨-, a₀, hx₀, hkey, hval, hphase, happ, hal⟩
    · cases hp
    · rw [hphase] at hp
      obtain ⟨happ₀, hrest⟩ := h.changed x a₀ hx₀ hp
      rw [happ, hkey, hval]
      exact ⟨happ₀, fun ha' => hrest (hal ha').1⟩
  alone := by
    intro x a hx hact hal x' a' hx' hact' hkey'
    rcases State.begin_ops hx with ⟨hxid, rfl⟩ | ⟨hxid, a₀, hx₀, hkey, -, hphase, -, hal₀⟩
    · rcases State.begin_ops hx' with ⟨hxid', -⟩ | ⟨-, a₁, hx₁, hk₁, -, hphase₁, -⟩
      · exact hxid'.trans hxid.symm
      · rw [hphase₁] at hact'
        exact absurd (hk₁.symm.trans hkey') (ha hal x' a₁ hx₁ hact')
    · rcases State.begin_ops hx' with ⟨-, rfl⟩ | ⟨-, a₁, hx₁, hk₁, -, hphase₁, -⟩
      · exact absurd (hkey.symm.trans hkey'.symm) (hal₀ hal).2
      · rw [hphase] at hact
        rw [hphase₁] at hact'
        exact h.alone x a₀ hx₀ hact (hal₀ hal).1 x' a₁ hx₁ hact'
          (hk₁.symm.trans (hkey'.trans hkey))
  firm := by
    intro k x hf
    by_cases hkk : k = key
    · rw [show (s.begin id key value alone).firm k = none from if_pos hkk] at hf
      cases hf
    · rw [show (s.begin id key value alone).firm k = s.firm k from if_neg hkk] at hf
      obtain ⟨hk', hrest, hno⟩ := h.firm k x hf
      refine ⟨hk', hrest, ?_⟩
      intro y a hy hact
      rcases State.begin_ops hy with ⟨-, rfl⟩ | ⟨-, a₀, hy₀, hkey, -, hphase, -⟩
      · exact Ne.symm hkk
      · rw [hkey]
        rw [hphase] at hact
        exact hno y a₀ hy₀ hact

theorem Inv.settle (h : Inv disk s) (ho : s.ops id = some op) (hp : op.phase = .changed) :
    Inv disk (s.settle id op) := by
  obtain ⟨hkey, hasked⟩ := h.asked id op ho
  obtain ⟨happ, hrest⟩ := h.changed id op ho hp
  have hactive : op.phase.active = true := by
    rw [hp]
    rfl
  have hs : op.Same { op with phase := .returned none } := ⟨rfl, rfl, rfl, fun hf => nomatch hf⟩
  have hsub : ∀ n e, e ∈ s.disk.syncDir.kept n → e ∈ s.disk.kept n := by
    intro n e he
    rw [List.mem_singleton.mp he]
    exact h.present n
  exact
    { present := fun n => List.mem_singleton_self _
      bound := fun n i hi => h.bound n i (hsub n _ hi)
      whole := fun k hk i hi => h.whole k hk i (hsub k _ hi)
      asked := State.forall_set (fun x a hx _ => h.asked x a hx) ⟨hkey, hasked⟩
      own := by
        refine State.forall_set (fun x a hx _ i hi => ?_) (fun i hi => nomatch hi)
        obtain ⟨h₁, h₂, h₃, h₄, h₅, h₆⟩ := h.own x a hx i hi
        exact ⟨h₁, h₂, fun n hn hmem => h₃ n hn (hsub n _ hmem), h₄, h₅, h₆⟩
      pending := State.forall_set (fun x a hx _ => h.pending x a hx) (by
        rintro (hp | hp)
        · cases hp
        · cases hp)
      done := State.forall_set (fun x a hx _ => h.done x a hx) (fun _ => happ)
      changed := State.forall_set (fun x a hx _ => h.changed x a hx) (fun hp' => nomatch hp')
      alone := h.alone_set ho hs
      firm := by
        intro k x hf
        by_cases hk : k = op.key ∧ op.alone = true
        · rw [show (s.settle id op).firm k = some op.value from if_pos hk] at hf
          cases hf
          obtain ⟨rfl, hal⟩ := hk
          refine ⟨hkey, ?_, ?_⟩
          · intro e he
            rw [List.mem_singleton.mp he]
            exact hrest hal
          · refine State.forall_set (fun y a hy hne ha hk => ?_) (fun ha => nomatch ha)
            exact hne (h.alone id op ho hactive hal y a hy ha hk)
        · rw [show (s.settle id op).firm k = s.firm k from if_neg hk] at hf
          obtain ⟨hk', hr, -⟩ := h.firm k x hf
          exact ⟨hk', fun e he => hr e (hsub k e he), h.firm_set ho hs hf⟩ }

/-- after a crash no call is under way, and what may be under a key was synced before -/
theorem Inv.crash (h : Inv disk s) (hc : s.disk.Crash d) :
    Inv disk { s with disk := d, ops := fun x => (s.ops x).map State.losing } := by
  have hops : ∀ x a, (s.ops x).map State.losing = some a → ∃ a₀, s.ops x = some a₀ ∧
      a.key = a₀.key ∧ a.value = a₀.value ∧ a.applied = a₀.applied ∧ a.phase.active = false ∧
      (a.phase = a₀.phase ∨ a.phase = .lost) := by
    intro x a hx
    obtain ⟨a₀, ha₀, rfl⟩ := Option.map_eq_some_iff.mp hx
    refine ⟨a₀, ha₀, ?_⟩
    unfold State.losing
    split
    · exact ⟨rfl, rfl, rfl, rfl, .inr rfl⟩
    · next hact => exact ⟨rfl, rfl, rfl, by simpa using hact, .inl rfl⟩
  have hsub : ∀ n e, e ∈ d.kept n → e ∈ s.disk.kept n := by
    intro n e he
    rw [hc.kept n] at he
    rw [List.mem_singleton.mp he]
    exact hc.dir n
  exact
    { present := by
        intro n
        show d.dir n ∈ d.kept n
        rw [hc.kept n]
        exact List.mem_singleton_self _
      bound := by
        intro n i hi
        show i < d.next
        rw [hc.next]
        exact h.bound n i (hsub n _ hi)
      whole := by
        intro k hk i hi
        obtain ⟨hsync, hknown⟩ := h.whole k hk i (hsub k _ hi)
        refine ⟨hc.synced i, ?_⟩
        show Known disk s k (d.data i)
        rw [hc.data i hsync]
        exact hknown
      asked := by
        intro x a hx
        obtain ⟨a₀, hx₀, hkey, hval, -⟩ := hops x a hx
        rw [hkey, hval]
        exact h.asked x a₀ hx₀
      own := by
        intro x a hx i hi
        obtain ⟨a₀, -, -, -, -, hact, -⟩ := hops x a hx
        rw [Phase.active_of_inode hi] at hact
        cases hact
      pending := by
        intro x a hx hp
        obtain ⟨a₀, hx₀, -, -, happ, -, hphase | hphase⟩ := hops x a hx
        · rw [hphase] at hp
          rw [happ]
          exact h.pending x a₀ hx₀ hp
        · rw [hphase] at hp
          rcases hp with hp | hp
          · cases hp
          · cases hp
      done := by
        intro x a hx hp
        obtain ⟨a₀, hx₀, -, -, happ, -, hphase | hphase⟩ := hops x a hx
        · rw [hphase] at hp
          rw [happ]
          exact h.done x a₀ hx₀ hp
        · rw [hphase] at hp
          cases hp
      changed := by
        intro x a hx hp
        obtain ⟨a₀, -, -, -, -, hact, -⟩ := hops x a hx
        rw [hp] at hact
        cases hact
      alone := by
        intro x a hx hact'
        obtain ⟨a₀, -, -, -, -, hact, -⟩ := hops x a hx
        rw [hact] at hact'
        cases hact'
      firm := by
        intro k x hf
        obtain ⟨hk, hrest, -⟩ := h.firm k x hf
        refine ⟨hk, ?_, ?_⟩
        · intro e he
          obtain ⟨hne, hcont⟩ := hrest e (hsub k e he)
          refine ⟨hne, ?_⟩
          rw [← hcont]
          match e, he with
          | none, _ => rfl
          | some .link, _ => rfl
          | some .folder, _ => rfl
          | some (.file i), he =>
            exact congrArg some (hc.data i (h.whole k hk i (hsub k _ he)).1)
        · intro y a hy hact'
          obtain ⟨a₀, -, -, -, -, hact, -⟩ := hops y a hy
          rw [hact] at hact'
          cases hact' }

/-! ## the payloads -/

/-- what is under a key -/
def State.payload (s : State) (k : String) : Option Bytes := s.disk.content (s.disk.dir k)

/-- the call with this identifier changes what is under its key, for the first time -/
structure Changes (s s' : State) (id : Uuid) (op op' : Op) : Prop where
  before : s.ops id = some op
  after : s'.ops id = some op'
  key : op'.key = op.key
  value : op'.value = op.value
  first : op.applied = false
  applied : op'.applied = true
  others : ∀ x a a', x ≠ id → s.ops x = some a → s'.ops x = some a' → a'.applied = a.applied
  payload : ∀ k, Key k → s'.payload k = if k = op.key then op.value else s.payload k

/-- nothing changes, or what one call is about -/
def Atomic (s s' : State) : Prop :=
  (∀ k, Key k → s'.payload k = s.payload k) ∧
      (∀ x a a', s.ops x = some a → s'.ops x = some a' → a'.applied = a.applied) ∨
    ∃ id op op', Changes s s' id op op'

theorem State.applied_set (ho : s.ops id = some op) (happ : op'.applied = op.applied) :
    ∀ x a a', s.ops x = some a → (s.set id op').ops x = some a' → a'.applied = a.applied := by
  intro x a a' hx hx'
  by_cases hxid : x = id
  · subst hxid
    rw [State.set_ops_self] at hx'
    rw [ho] at hx
    cases hx
    cases hx'
    exact happ
  · rw [State.set_ops_ne hxid, hx] at hx'
    cases hx'
    rfl

theorem Atomic.quiet (h : Inv disk s) (ho : s.ops id = some op)
    (hq : Quiet s.disk d' (tmpName op.key id)) (happ : op'.applied = op.applied) :
    Atomic s { s.set id op' with disk := d' } := by
  refine .inl ⟨fun k hk => ?_, State.applied_set ho happ⟩
  have hkt : k ≠ tmpName op.key id := hk.ne_tmpName
  have hp := h.present k
  show d'.content (d'.dir k) = s.disk.content (s.disk.dir k)
  rw [hq.dir k hkt]
  match he : s.disk.dir k with
  | none => rfl
  | some .link => rfl
  | some .folder => rfl
  | some (.file i) =>
    rw [he] at hp
    exact congrArg some (hq.data k i hkt hp)

theorem Atomic.moves {e : Option Disk.Entry} (ho : s.ops id = some op)
    (hm : Moves s.disk d' op.key (tmpName op.key id) e) (hrest : Rests s.disk e op.value)
    (hfirst : op.applied = false) :
    Atomic s { s.set id { op with phase := .changed, applied := true } with disk := d' } := by
  have hcontent : ∀ e', d'.content e' = s.disk.content e' := by
    intro e'
    match e' with
    | none => rfl
    | some .link => rfl
    | some .folder => rfl
    | some (.file i) => exact congrArg (fun f => some (f i)) hm.data
  refine .inr ⟨id, op, { op with phase := .changed, applied := true }, ho, State.set_ops_self, rfl,
    rfl, hfirst, rfl, ?_, ?_⟩
  · intro x a a' hx ha ha'
    rw [show _ = s.ops x from State.set_ops_ne hx, ha] at ha'
    cases ha'
    rfl
  · intro k hk
    show d'.content (d'.dir k) = _
    by_cases hkk : k = op.key
    · rw [if_pos hkk, hkk, hm.dirKey, hcontent]
      exact hrest.2
    · rw [if_neg hkk, hm.dir k hkk hk.ne_tmpName, hcontent]
      rfl

theorem Op.Same.phase {p : Phase} {applied : Bool} (h : op.phase.active = true) :
    op.Same { op with phase := p, applied := applied } := ⟨rfl, rfl, rfl, fun _ => h⟩

/-- a call fails or ends; at most its temporary file is removed -/
theorem Inv.ends {p : Phase} (h : Inv disk s) (ho : s.ops id = some op)
    (ha : op.phase.active = true) (hq : Quiet s.disk d' (tmpName op.key id))
    (hp : ∃ e, p = .failing e ∨ p = .returned (some e)) :
    Inv disk { s.set id { op with phase := p } with disk := d' } ∧
      Atomic s { s.set id { op with phase := p } with disk := d' } := by
  have hat : Atomic s { s.set id { op with phase := p } with disk := d' } :=
    .quiet h ho hq rfl
  obtain ⟨e, rfl | rfl⟩ := hp
  · refine ⟨h.quiet ho (.phase ha) hq (fun _ hi => nomatch hi) (fun hc => nomatch hc) ?_
      (fun hd => nomatch hd), hat⟩
    rintro (hp | hp)
    · cases hp
    · cases hp
  · refine ⟨h.quiet ho (.phase ha) hq (fun _ hi => nomatch hi) (fun hc => nomatch hc) ?_
      (fun hd => nomatch hd), hat⟩
    rintro (hp | hp)
    · cases hp
    · cases hp

/-- a `put` goes on with its temporary file -/
theorem Inv.goes_on {p : Phase} {i : Nat} (h : Inv disk s) (ho : s.ops id = some op)
    (hp : op.phase = .begun ∨ op.phase.inode.isSome = true)
    (hq : Quiet s.disk d' (tmpName op.key id)) (hi : p.inode = some i)
    (hown : Owns d' id { op with phase := p } i) :
    Inv disk { s.set id { op with phase := p } with disk := d' } ∧
      Atomic s { s.set id { op with phase := p } with disk := d' } := by
  have ha : op.phase.active = true := by
    rcases hp with hp | hp
    · rw [hp]
      rfl
    · obtain ⟨j, hj⟩ := Option.isSome_iff_exists.mp hp
      exact Phase.active_of_inode hj
  refine ⟨h.quiet ho (.phase ha) hq ?_ ?_ (fun _ => h.pending id op ho hp) ?_,
    Atomic.quiet h ho hq rfl⟩
  · intro j hj
    rw [show p.inode = some j from hj] at hi
    cases hi
    exact hown
  · rintro rfl
    cases hi
  · rintro rfl
    cases hi

/-- the last write of `write_all`, and every one before it -/
theorem Inv.write {c l : Bytes} {i : Nat} (h : Inv disk s) (ho : s.ops id = some op)
    (hv : op.value = some c) (hp : op.phase = .opened i) (hl : l <+: c) :
    Inv disk { s with disk := s.disk.write i l } ∧
      Atomic s { s with disk := s.disk.write i l } := by
  have hi : op.phase.inode = some i := by
    rw [hp]
    rfl
  have hown := h.own id op ho i hi
  have hown' : Owns (s.disk.write i l) id { op with phase := op.phase } i := by
    refine ⟨hown.lt, hown.tmp, hown.only, ⟨c, hv, ?_⟩, fun hne => absurd hp hne, ?_⟩
    · rw [Disk.write_data_self]
      exact hl
    · intro hp'
      rw [show op.phase = _ from hp'] at hp
      cases hp
  have hset : s.set id op = s := by
    have hops : (s.set id op).ops = s.ops := by
      funext x
      by_cases hx : x = id
      · rw [hx, ho, State.set_ops_self]
      · exact State.set_ops_ne hx
    exact congrArg (fun f => { s with ops := f }) hops
  have hgo := h.goes_on ho (.inr (by rw [hi]; rfl)) (.write (h.present _) hown.only) hi hown'
  rw [hset] at hgo
  exact hgo

/-- a `put` or a `delete` changes what is under its key -/
theorem Inv.change {e : Option Disk.Entry} (h : Inv disk s) (ho : s.ops id = some op)
    (hp : op.phase = .begun ∨ op.phase.inode.isSome = true)
    (hm : Moves s.disk d' op.key (tmpName op.key id) e) (hrest : Rests s.disk e op.value)
    (hfile : ∀ i, e = some (.file i) → Owns s.disk id op i ∧ op.phase = .synced i) :
    Inv disk { s.set id { op with phase := .changed, applied := true } with disk := d' } ∧
      Atomic s { s.set id { op with phase := .changed, applied := true } with disk := d' } := by
  have ha : op.phase.active = true := by
    rcases hp with hp | hp
    · rw [hp]
      rfl
    · obtain ⟨j, hj⟩ := Option.isSome_iff_exists.mp hp
      exact Phase.active_of_inode hj
  refine ⟨h.moves ho ha hm hrest fun i hi => ?_, Atomic.moves ho hm hrest (h.pending id op ho hp)⟩
  obtain ⟨hown, hphase⟩ := hfile i hi
  exact ⟨hown.lt, hown.synced hphase, hown.tmp⟩

/-- nothing is under the key of a `delete` -/
theorem Inv.missing (h : Inv disk s) (ho : s.ops id = some op) (hv : op.value = none)
    (hp : op.phase = .begun) (hf : s.disk.dir op.key = none) :
    Inv disk (s.set id { op with phase := .returned none, applied := true }) ∧
      Atomic s (s.set id { op with phase := .returned none, applied := true }) := by
  have ha : op.phase.active = true := by
    rw [hp]
    rfl
  have hpending : ∀ {p : Phase}, p = .returned none → ¬(p = .begun ∨ p.inode.isSome = true) := by
    rintro p rfl (hp | hp)
    · cases hp
    · cases hp
  refine ⟨h.quiet ho (.phase ha) (.refl (h.present _)) (fun _ hi => nomatch hi)
    (fun hc => nomatch hc) (fun hp' => absurd hp' (hpending rfl)) (fun _ => rfl),
    .inr ⟨id, op, { op with phase := .returned none, applied := true }, ?_⟩⟩
  refine ⟨ho, State.set_ops_self, rfl, rfl, h.pending id op ho (.inl hp), rfl, ?_, ?_⟩
  · intro x a a' hx hx₀ hx'
    rw [State.set_ops_ne hx, hx₀] at hx'
    cases hx'
    rfl
  · intro k _
    by_cases hkk : k = op.key
    · rw [if_pos hkk, hkk, hv]
      show s.disk.content (s.disk.dir op.key) = none
      rw [hf]
      rfl
    · rw [if_neg hkk]
      rfl

/-- what one call of the operating system does -/
theorem Inv.call {b : FileBackend} (h : Inv disk s) (hs : Call b s s') :
    Inv disk s' ∧ Atomic s s' := by
  have hrefl : ∀ t, Quiet s.disk s.disk t := fun t => .refl (h.present t)
  cases hs with
  | begin hk hid ha =>
    refine ⟨h.begin hk ha, .inl ⟨fun _ _ => rfl, ?_⟩⟩
    intro x a a' hx hx'
    rcases State.begin_ops hx' with ⟨rfl, -⟩ | ⟨-, a₀, hx₀, -, -, -, happ, -⟩
    · rw [hid] at hx
      cases hx
    · rw [hx] at hx₀
      cases hx₀
      exact happ
  | create ho hv hp hn =>
    refine h.goes_on ho (.inl hp) (.create h.bound) rfl ?_
    refine ⟨Nat.lt_succ_self _, Disk.bind_dir_self _, ?_, ⟨_, hv, ?_⟩, fun hne => absurd rfl hne,
      fun hp' => nomatch hp'⟩
    · intro n hn' hmem
      have hmem' : some (.file s.disk.next) ∈ s.disk.kept n := by
        rw [← Disk.bind_kept_ne _ hn']
        exact hmem
      exact absurd (h.bound n _ hmem') (lt_irrefl _)
    · rw [Disk.create_data_self]
      exact List.nil_prefix
  | createFails ho hv hp => exact h.ends ho (by rw [hp]; rfl) (hrefl _) ⟨_, .inl rfl⟩
  | write ho hv hp hl hd => exact h.write ho hv hp hd
  | writeFails ho hp => exact h.ends ho (by rw [hp]; rfl) (hrefl _) ⟨_, .inl rfl⟩
  | @writeAll id op i ho hp hd =>
    have hi : op.phase.inode = some i := by
      rw [hp]
      rfl
    have hown := h.own id op ho i hi
    exact h.goes_on ho (.inr (by rw [hi]; rfl)) (hrefl _) rfl
      ⟨hown.lt, hown.tmp, hown.only, hown.front, fun _ => hd, fun hp' => nomatch hp'⟩
  | @sync id op i ho hp =>
    have hi : op.phase.inode = some i := by
      rw [hp]
      rfl
    have hown := h.own id op ho i hi
    have hfull := hown.full (by rw [hp]; exact fun hp' => nomatch hp')
    exact h.goes_on ho (.inr (by rw [hi]; rfl)) (.sync (h.present _)) rfl
      ⟨hown.lt, hown.tmp, hown.only, hown.front, fun _ => hfull, fun _ => Disk.sync_synced_self _⟩
  | syncFails ho hp => exact h.ends ho (by rw [hp]; rfl) (hrefl _) ⟨_, .inl rfl⟩
  | @rename id op i ho hp ht =>
    have hi : op.phase.inode = some i := by
      rw [hp]
      rfl
    have hown := h.own id op ho i hi
    have hfull := hown.full (by rw [hp]; exact fun hp' => nomatch hp')
    have hrest : Rests s.disk (some (.file i)) op.value := ⟨Disk.Entry.plain_file i, hfull.symm⟩
    refine h.change ho (.inr (by rw [hi]; rfl))
      (.rename (h.asked id op ho).1.ne_tmpName hown.tmp) hrest ?_
    intro j hj
    cases hj
    exact ⟨hown, hp⟩
  | renameFails ho hp => exact h.ends ho (by rw [hp]; rfl) (hrefl _) ⟨_, .inl rfl⟩
  | @remove id op ho hv hp hf ht =>
    have hrest : Rests s.disk none op.value := ⟨Disk.Entry.plain_none, hv.symm⟩
    exact h.change ho (.inl hp) (.remove (h.asked id op ho).1.ne_tmpName (h.present _)) hrest
      (fun j hj => nomatch hj)
  | removeMissing ho hv hp hf => exact h.missing ho hv hp hf
  | removeFails ho hv hp => exact h.ends ho (by rw [hp]; rfl) (hrefl _) ⟨_, .inr rfl⟩
  | syncRoot ho hp => exact ⟨h.settle ho hp, .inl ⟨fun _ _ => rfl, State.applied_set ho rfl⟩⟩
  | @syncRootFails id op e ho hp =>
    refine h.ends ho (by rw [hp]; rfl) (hrefl _) ⟨e, ?_⟩
    by_cases hv : op.value = none
    · exact .inr (if_pos hv)
    · exact .inl (if_neg hv)
  | cleanUp ho hp hf => exact h.ends ho (by rw [hp]; rfl) .remove ⟨_, .inr rfl⟩
  | cleanUpFails ho hp => exact h.ends ho (by rw [hp]; rfl) (hrefl _) ⟨_, .inr rfl⟩

theorem Inv.turn {b : FileBackend} (h : Inv disk s) (hs : Turn b s s') : Inv disk s' := by
  cases hs with
  | call hs => exact (h.call hs).1
  | kill ho ha =>
    refine h.quiet ho ⟨rfl, rfl, rfl, fun hf => nomatch hf⟩ (.refl (h.present _))
      (fun _ hi => nomatch hi) (fun hc => nomatch hc) ?_ (fun hd => nomatch hd)
    rintro (hp | hp)
    · cases hp
    · cases hp

theorem Inv.step {b : FileBackend} (h : Inv disk s) (hs : Step b s s') : Inv disk s' := by
  cases hs with
  | turn hs => exact h.turn hs
  | crash hc => exact h.crash hc

theorem Reach.inv {b : FileBackend} (h : Reach b disk s) : Inv disk s := by
  obtain ⟨hdisk, hsteps⟩ := h
  induction hsteps with
  | refl => exact .start hdisk
  | tail _ hs ih => exact ih.step hs

/-! ## what callers see -/

theorem Moves.link {key t k : String} {e : Option Disk.Entry} (hm : Moves d d' key t e)
    (he : e ≠ some .link) (hk : k ≠ t) (hl : d'.dir k = some .link) : d.dir k = some .link := by
  by_cases hkk : k = key
  · rw [hkk, hm.dirKey] at hl
    exact absurd hl he
  · rw [← hm.dir k hkk hk]
    exact hl

/-- no call puts a link under a key -/
theorem Inv.call_link {b : FileBackend} {k : String} (h : Inv disk s) (hs : Call b s s')
    (hk : Key k) (hl : s'.disk.dir k = some .link) : s.disk.dir k = some .link := by
  cases hs with
  | create =>
    rw [← hl]
    exact (Disk.bind_dir_ne _ hk.ne_tmpName).symm
  | @rename id op i ho hp ht =>
    have hi : op.phase.inode = some i := by
      rw [hp]
      rfl
    have hm := Moves.rename (h.asked id op ho).1.ne_tmpName (h.own id op ho i hi).tmp
    exact hm.link nofun hk.ne_tmpName hl
  | @remove id op ho =>
    have hm := Moves.remove (h.asked id op ho).1.ne_tmpName (h.present (tmpName op.key id))
    exact hm.link nofun hk.ne_tmpName hl
  | cleanUp =>
    rw [← hl]
    exact (Disk.bind_dir_ne _ hk.ne_tmpName).symm
  | begin | createFails | write | writeFails | writeAll | sync | syncFails | renameFails
  | removeMissing | removeFails | syncRoot | syncRootFails | cleanUpFails => exact hl

/-- a key that is a link now was one since the machine was started -/
theorem Inv.turns_link {b : FileBackend} {k : String} (h : Inv disk s)
    (hs : Relation.ReflTransGen (Turn b) s s') (hk : Key k) (hl : s'.disk.dir k = some .link) :
    s.disk.dir k = some .link := by
  have hboth : Inv disk s' ∧ (s'.disk.dir k = some .link → s.disk.dir k = some .link) := by
    clear hl
    induction hs with
    | refl => exact ⟨h, fun hl => hl⟩
    | tail _ hs ih =>
      refine ⟨ih.1.turn hs, fun hl => ih.2 ?_⟩
      cases hs with
      | call hs => exact ih.1.call_link hs hk hl
      | kill => exact hl
  exact hboth.2 hl

theorem get_file {b : FileBackend} {k : String} {i : Nat} (hk : Key k)
    (hf : d.dir k = some (.file i)) : b.get k d d = .ok (d.data i) := by
  rw [get, show validateKey k = .ok () from hk]
  simp only [hf]

theorem exists_none {k : String} (hk : Key k) (hf : d.dir k = none) : exists_ k d = .ok false := by
  rw [exists_, show validateKey k = .ok () from hk]
  simp only [hf]

theorem get_ok {b : FileBackend} {k : String} {c : Bytes} (h : b.get k d d' = .ok c)
    (hl : Key k → d'.dir k = some .link → d.dir k = some .link) :
    Key k ∧ ∃ i, d'.dir k = some (.file i) ∧ d'.data i = c := by
  unfold get at h
  split at h
  · cases h
  · next hk =>
    refine ⟨hk, ?_⟩
    split at h
    · cases h
    · cases h
    · cases h
    · next hd =>
      split at h
      · next i hi =>
        cases h
        exact ⟨i, hi, rfl⟩
      · next hi =>
        rw [hl hk hi] at hd
        cases hd
      · cases h
      · cases h

theorem exists_ok {k : String} : exists_ k d = .ok true ↔ listed d k = true := by
  unfold exists_ listed
  by_cases hk : Key k
  · rw [show validateKey k = .ok () from hk, decide_eq_true hk, Bool.true_and]
    cases d.dir k with
    | none => simp
    | some e =>
      cases e with
      | file i => simp
      | link => simp
      | folder => simp
  · rw [decide_eq_false hk, Bool.false_and]
    cases hv : validateKey k with
    | error e => simp
    | ok u => exact absurd hv hk

theorem mem_keys {names : List String} {k : String} :
    k ∈ keys d names ↔ k ∈ names ∧ exists_ k d = .ok true := by
  rw [keys, List.mem_insertionSort, List.mem_filter, exists_ok]

/-- the answer of a call -/
def answer {α : Type} (x : α) : Option ReclaimError → Res α
  | none => .ok x
  | some e => .error e

/-- the payloads after a call of the coordinator's model -/
def Op.effect (op : Op) (backend : String) (w : World) : World :=
  if op.applied then w.setPayload backend op.key op.value else w

/-- a call has ended as one of the calls of the coordinator's model ends -/
def Op.Outcome (op : Op) (e : Option ReclaimError) : Prop :=
  match op.value with
  | some data => ∃ i : Input, ∀ backend w,
    execPut (.ok ⟨"file", validateKey⟩) backend op.key data i w =
      (answer data.length e, op.effect backend w)
  | none => ∃ i : Input, ∀ backend w,
    execDelete (.ok ⟨"file", validateKey⟩) backend op.key i w = (answer () e, op.effect backend w)

theorem Inv.outcome {e : Option ReclaimError} (h : Inv disk s) (ho : s.ops id = some op)
    (hp : op.phase = .returned e) : op.Outcome e := by
  have hkey : validateKey op.key = .ok () := (h.asked id op ho).1
  have happ : e = none → op.applied = true := by
    rintro rfl
    exact h.done id op ho hp
  unfold Op.Outcome
  split
  · next c hv =>
    refine ⟨{ fault := e, applied := op.applied }, fun backend w => ?_⟩
    cases e with
    | none => simp [execPut, onBackend, hkey, answer, Op.effect, happ rfl, hv]
    | some e => simp [execPut, onBackend, hkey, answer, Op.effect, hv]
  · next hv =>
    refine ⟨{ fault := e, applied := op.applied }, fun backend w => ?_⟩
    cases e with
    | none => simp [execDelete, onBackend, hkey, answer, Op.effect, happ rfl, hv]
    | some e => simp [execDelete, onBackend, hkey, answer, Op.effect, hv]

/-- a key whose last call has returned, before and after a crash -/
theorem Inv.rests {k : String} {x : Option Bytes} (h : Inv disk s) (hf : s.firm k = some x)
    (hd : d = s.disk ∨ s.disk.Crash d) : Key k ∧ Rests d (d.dir k) x := by
  rcases hd with rfl | hc
  · obtain ⟨hk, hrest, -⟩ := h.firm k x hf
    exact ⟨hk, hrest _ (h.present k)⟩
  · obtain ⟨hk, hrest, -⟩ := (h.crash hc).firm k x hf
    exact ⟨hk, hrest _ ((h.crash hc).present k)⟩

/-- a `put` that is alone on its key and meets no failure returns -/
theorem put_returns {b : FileBackend} {key : String} (c : Bytes) (hk : Key key)
    (hid : s.ops id = none)
    (ha : ∀ x a, s.ops x = some a → a.phase.active = true → a.key ≠ key)
    (ht : s.disk.dir (tmpName key id) = none) (hd : s.disk.dir key ≠ some .folder) :
    ∃ s', Relation.ReflTransGen (Step b) s s' ∧ s'.firm key = some (some c) := by
  let n := s.disk.next
  let t := tmpName key id
  let op : Phase → Op := fun p => ⟨key, some c, p, false, true⟩
  let s₁ := s.begin id key (some c) true
  let s₂ := { s₁.set id (op (.opened n)) with disk := s.disk.create t [] }
  let s₃ := { s₂ with disk := s₂.disk.write n c }
  let s₄ := s₃.set id (op (.written n))
  let s₅ := { s₄.set id (op (.synced n)) with disk := s₄.disk.sync n }
  let done : Op := { op (.synced n) with phase := .changed, applied := true }
  let s₆ := { s₅.set id done with disk := s₅.disk.rename t key }
  have h₁ : Call b s s₁ := .begin hk hid fun _ => ha
  have h₂ : Call b s₁ s₂ := @Call.create b s₁ id (op .begun) c (if_pos rfl) rfl rfl ht
  have hempty : s₂.disk.data n = [] := Disk.create_data_self _
  have h₃ : Call b s₂ s₃ := by
    refine @Call.write b s₂ id (op (.opened n)) c c n State.set_ops_self rfl rfl ?_ List.prefix_rfl
    rw [hempty]
    exact List.nil_prefix
  have hfull : s₃.disk.data n = c := Disk.write_data_self _
  have h₄ : Call b s₃ s₄ := by
    refine @Call.writeAll b s₃ id (op (.opened n)) n State.set_ops_self rfl ?_
    rw [hfull]
  have h₅ : Call b s₄ s₅ := @Call.sync b s₄ id (op (.written n)) n State.set_ops_self rfl
  have h₆ : Call b s₅ s₆ := by
    refine @Call.rename b s₅ id (op (.synced n)) n State.set_ops_self rfl ?_
    rw [show s₅.disk.dir key = s.disk.dir key from Disk.bind_dir_ne _ hk.ne_tmpName]
    exact hd
  have h₇ : Call b s₆ (s₆.settle id done) := .syncRoot State.set_ops_self rfl
  have hrun : Relation.ReflTransGen (Step b) s s₆ :=
    (((((Relation.ReflTransGen.single (.turn (.call h₁))).tail (.turn (.call h₂))).tail
      (.turn (.call h₃))).tail (.turn (.call h₄))).tail (.turn (.call h₅))).tail (.turn (.call h₆))
  exact ⟨_, hrun.tail (.turn (.call h₇)), if_pos ⟨rfl, rfl⟩⟩

/-- **The file backend under concurrent calls and crashes**: what is read under a key is a whole
payload that was there or was asked for; a call of the operating system changes no payload or makes
the change of one `put` or `delete`, once; a call that has returned has ended as the coordinator's
model has it; what a call alone on its key has stored or removed, and synced, is what is read then
and after a crash; a `put` that is alone and meets no failure does return; and a listing holds the keys that
are there. -/
theorem file_backend_atomic (b : FileBackend) {disk : Disk String Bytes} {s : State}
    (h : Reach b disk s) :
    (∀ s₀ k c, Reach b disk s₀ → Relation.ReflTransGen (Turn b) s₀ s →
        b.get k s₀.disk s.disk = .ok c → Known disk s k c) ∧
      (∀ s', Call b s s' → Atomic s s') ∧
      (∀ id op e, s.ops id = some op → op.phase = .returned e → op.Outcome e) ∧
      (∀ k c d, s.firm k = some (some c) → (d = s.disk ∨ s.disk.Crash d) →
        b.get k d d = .ok c) ∧
      (∀ k d, s.firm k = some none → (d = s.disk ∨ s.disk.Crash d) → exists_ k d = .ok false) ∧
      (∀ id k c, Key k → s.ops id = none →
        (∀ x a, s.ops x = some a → a.phase.active = true → a.key ≠ k) →
        s.disk.dir (tmpName k id) = none → s.disk.dir k ≠ some .folder →
        ∃ s', Relation.ReflTransGen (Step b) s s' ∧ s'.firm k = some (some c)) ∧
      ∀ names k, k ∈ keys s.disk names ↔ k ∈ names ∧ exists_ k s.disk = .ok true := by
  have hinv := h.inv
  refine ⟨?_, fun s' hs => (hinv.call hs).2, fun id op e ho hp => hinv.outcome ho hp, ?_, ?_,
    fun id k c hk hid ha ht hd => put_returns c hk hid ha ht hd, fun names k => mem_keys⟩
  · intro s₀ k c h₀ hturns hget
    obtain ⟨hk, i, hi, rfl⟩ := get_ok hget fun hk hl => h₀.inv.turns_link hturns hk hl
    have hp := hinv.present k
    rw [hi] at hp
    exact (hinv.whole k hk i hp).2
  · intro k c d hf hd
    obtain ⟨hk, hne, hc⟩ := hinv.rests hf hd
    match he : d.dir k with
    | none =>
      rw [he] at hc
      cases hc
    | some .link => exact absurd he hne.1
    | some .folder => exact absurd he hne.2
    | some (.file i) =>
      rw [he] at hc
      rw [get_file hk he]
      exact congrArg _ (Option.some.inj hc)
  · intro k d hf hd
    obtain ⟨hk, hne, hc⟩ := hinv.rests hf hd
    match he : d.dir k with
    | none => exact exists_none hk he
    | some .link => exact absurd he hne.1
    | some .folder => exact absurd he hne.2
    | some (.file i) =>
      rw [he] at hc
      cases hc

end

namespace Sample

def emptyRoot : Disk String Bytes := ⟨0, fun _ => [], fun _ => true, fun _ => none, fun _ => [none]⟩

theorem settled_emptyRoot : Settled emptyRoot :=
  ⟨fun _ => rfl, fun _ => rfl, fun _ _ h => nomatch h⟩

def volume : FileBackend := ⟨"file", "/payloads", fun key => .error (.notFound s!"payload {key}")⟩

theorem reach_emptyRoot : Reach volume emptyRoot (.start emptyRoot) :=
  ⟨settled_emptyRoot, .refl⟩

theorem key_payload : Key "payload-0" := by decide +kernel

end Sample

/-- a payload is stored, and read after a crash -/
theorem file_backend_atomic_put : ∃ s, Reach Sample.volume Sample.emptyRoot s ∧
    ∀ d, s.disk.Crash d → Sample.volume.get "payload-0" d d = .ok [1, 2, 3] := by
  obtain ⟨-, -, -, -, -, hput, -⟩ := file_backend_atomic Sample.volume Sample.reach_emptyRoot
  obtain ⟨s, hs, hf⟩ := hput .nil "payload-0" [1, 2, 3] Sample.key_payload rfl
    (fun _ _ hx => nomatch hx) rfl (fun h => nomatch h)
  have hreach : Reach Sample.volume Sample.emptyRoot s := ⟨Sample.settled_emptyRoot, hs⟩
  obtain ⟨-, -, -, hread, -⟩ := file_backend_atomic Sample.volume hreach
  exact ⟨s, hreach, fun d hd => hread "payload-0" [1, 2, 3] d hf (.inr hd)⟩

end FileBackend

end ReclaimFabric
