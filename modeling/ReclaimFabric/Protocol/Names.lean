import ReclaimFabric.Protocol.State
import ReclaimFabric.Model.Text

/-!
# A key stands for one content

Every payload key the coordinator builds determines the content it stands for, as long as no two
of the byte strings that occur have the same SHA-256 value: the hash is written into the key, or
the key names the object, or it is the key of the source with a suffix.  Archive keys name their
object.

* `Named.functional`     two contents of one key are the same;
* `ArchiveKeyOf.inj`     two objects of one archive key are the same.
-/

set_option linter.unusedSectionVars false

namespace ReclaimFabric

/-! ## archive keys -/

theorem toList_archiveKey (X : Uuid) (gen : Nat) (rid : Uuid) :
    ∃ l, (archiveKey X gen rid).toList = X.chars ++ l := by
  refine ⟨("/" ++ toString gen ++ "/gen" ++ toString rid).toList, ?_⟩
  have h : archiveKey X gen rid = X.text ++ ("/" ++ toString gen ++ "/gen" ++ toString rid) := by
    show _ ++ _ ++ _ ++ _ ++ _ = _
    simp only [String.append_assoc]
    rfl
  rw [h, String.toList_append, Uuid.toList_text]

theorem ArchiveKeyOf.inj {X Y : Uuid} {k : String} (hX : ArchiveKeyOf X k)
    (hY : ArchiveKeyOf Y k) : X = Y := by
  obtain ⟨gen, rid, rfl⟩ := hX
  obtain ⟨gen', rid', h⟩ := hY
  obtain ⟨l, hl⟩ := toList_archiveKey X gen rid
  obtain ⟨l', hl'⟩ := toList_archiveKey Y gen' rid'
  rw [h, hl'] at hl
  have hlen : Y.chars.length = X.chars.length := by
    rw [Uuid.chars_length, Uuid.chars_length]
  exact (Uuid.chars_inj (List.append_inj hl hlen).1).symm

theorem toList_restoredKey (X : Uuid) (gen : Nat) (rid : Uuid) :
    ∃ l, (restoredKey X gen rid).toList = X.chars ++ l ++ "-restored".toList := by
  obtain ⟨l, hl⟩ := toList_archiveKey X gen rid
  refine ⟨l.map fun c => if c = '/' ∨ c = '\\' then '-' else c, ?_⟩
  rw [restoredKey, Coordinator.flattenKey, String.toList_append, String.toList_ofList, hl,
    List.map_append]
  have hid : (X.chars.map fun c => if c = '/' ∨ c = '\\' then '-' else c) = X.chars := by
    conv_rhs => rw [← List.map_id X.chars]
    refine List.map_congr_left ?_
    intro c hc
    rw [if_neg, id]
    have hcase := X.chars_hex c hc
    rintro (rfl | rfl)
    · revert hcase
      decide
    · revert hcase
      decide
  rw [hid]

/-! ## payload keys -/

theorem toList_dedupKey (h : ContentHash) :
    (dedupKey h).toList = "dedup-".toList ++ hexDigits 64 h.bits := by
  rw [dedupKey, String.toList_append, ContentHash.toList_text]

theorem toList_copyKey (h : ContentHash) (i : Nat) :
    (dedupKey h ++ "-r" ++ toString i).toList =
      "dedup-".toList ++ hexDigits 64 h.bits ++ ("-r".toList ++ Nat.toDigits 10 i) := by
  rw [String.toList_append, String.toList_append, toList_dedupKey, Nat.toString_eq_repr,
    Nat.toList_repr, List.append_assoc (_ ++ _)]

/-- the last three characters of a key, in reverse: they tell the kinds of keys apart -/
def ending (k : String) : List Char := k.toList.reverse.take 3

theorem ending_zstd (k : String) : ending (k ++ "-zstd") = ['d', 't', 's'] := by
  rw [ending, String.toList_append, List.reverse_append]
  rfl

theorem ending_restored (X : Uuid) (gen : Nat) (rid : Uuid) :
    ending (restoredKey X gen rid) = ['d', 'e', 'r'] := by
  obtain ⟨l, hl⟩ := toList_restoredKey X gen rid
  rw [ending, hl, List.reverse_append]
  rfl

theorem ending_dedup (h : ContentHash) : ∀ c ∈ ending (dedupKey h), HexChar c := by
  have hlen : (hexDigits 64 h.bits).reverse.length = 64 := by
    rw [List.length_reverse, hexDigits_length]
  intro c hc
  rw [ending, toList_dedupKey, List.reverse_append,
    List.take_append_of_le_length (by rw [hlen]; decide)] at hc
  exact hexDigits_hex 64 h.bits c (List.mem_reverse.mp (List.mem_of_mem_take hc))

theorem ending_copy (h : ContentHash) (i : Nat) :
    ∃ c l, ending (dedupKey h ++ "-r" ++ toString i) = c :: l ∧ c.isDigit = true := by
  have hne : (Nat.toDigits 10 i).reverse ≠ [] := by
    rw [Ne, List.reverse_eq_nil_iff]
    exact Nat.toDigits_ne_nil
  obtain ⟨c, l, hcl⟩ := List.exists_cons_of_ne_nil hne
  set front := "dedup-".toList ++ hexDigits 64 h.bits
  refine ⟨c, (l ++ "-r".toList.reverse ++ front.reverse).take 2, ?_, ?_⟩
  · rw [ending, toList_copyKey, List.reverse_append, List.reverse_append, hcl]
    rfl
  · have hc : c ∈ Nat.toDigits 10 i := by
      rw [← List.mem_reverse, hcl]
      exact List.mem_cons_self
    exact Nat.isDigit_of_mem_toDigits (by decide) (by decide) hc

theorem length_dedupKey (h : ContentHash) : (dedupKey h).toList.length = 70 := by
  rw [toList_dedupKey, List.length_append, hexDigits_length]
  rfl

theorem length_copyKey (h : ContentHash) (i : Nat) :
    70 < (dedupKey h ++ "-r" ++ toString i).toList.length := by
  rw [String.toList_append, String.toList_append, List.length_append, List.length_append,
    length_dedupKey]
  have : "-r".toList.length = 2 := rfl
  omega

theorem dedupKey_inj {g h : ContentHash} {l l' : List Char}
    (e : (dedupKey g).toList ++ l = (dedupKey h).toList ++ l') : g = h := by
  have hlen : (dedupKey g).toList.length = (dedupKey h).toList.length := by
    rw [length_dedupKey, length_dedupKey]
  have h₁ := (List.append_inj e hlen).1
  rw [toList_dedupKey, toList_dedupKey] at h₁
  refine ContentHash.text_inj ?_
  rw [ContentHash.toList_text, ContentHash.toList_text]
  exact List.append_cancel_left h₁

theorem copyKey_inj {g h : ContentHash} {i j : Nat}
    (e : dedupKey g ++ "-r" ++ toString i = dedupKey h ++ "-r" ++ toString j) : g = h := by
  have := congrArg String.toList e
  rw [toList_copyKey, toList_copyKey, ← toList_dedupKey, ← toList_dedupKey] at this
  exact dedupKey_inj this

theorem restoredKey_inj {X Y : Uuid} {gen gen' : Nat} {rid rid' : Uuid}
    (e : restoredKey X gen rid = restoredKey Y gen' rid') : X = Y := by
  obtain ⟨l, hl⟩ := toList_restoredKey X gen rid
  obtain ⟨l', hl'⟩ := toList_restoredKey Y gen' rid'
  rw [e, hl', List.append_assoc, List.append_assoc] at hl
  have hlen : Y.chars.length = X.chars.length := by
    rw [Uuid.chars_length, Uuid.chars_length]
  exact (Uuid.chars_inj (List.append_inj hl hlen).1).symm

/-! ## no key is of two kinds -/

theorem dedup_ne_copy (g h : ContentHash) (i : Nat) :
    dedupKey g ≠ dedupKey h ++ "-r" ++ toString i := by
  intro e
  have := length_copyKey h i
  rw [← e, length_dedupKey] at this
  omega

theorem ending_dedup_ne_restored (h : ContentHash) (X : Uuid) (gen : Nat) (rid : Uuid) :
    ending (dedupKey h) ≠ ending (restoredKey X gen rid) := by
  intro e
  have := ending_dedup h 'r' (by rw [e, ending_restored]; decide)
  revert this
  decide

theorem ending_dedup_ne_zstd (h : ContentHash) (k : String) :
    ending (dedupKey h) ≠ ending (k ++ "-zstd") := by
  intro e
  have := ending_dedup h 't' (by rw [e, ending_zstd]; decide)
  revert this
  decide

theorem ending_copy_ne (h : ContentHash) (i : Nat) {c : Char} (l : List Char)
    (hc : c.isDigit = false) : ending (dedupKey h ++ "-r" ++ toString i) ≠ c :: l := by
  obtain ⟨c', l', he, hd⟩ := ending_copy h i
  intro e
  rw [he] at e
  rw [(List.cons.inj e).1, hc] at hd
  cases hd

theorem ending_copy_ne_restored (h : ContentHash) (i : Nat) (X : Uuid) (gen : Nat) (rid : Uuid) :
    ending (dedupKey h ++ "-r" ++ toString i) ≠ ending (restoredKey X gen rid) := by
  rw [ending_restored]
  exact ending_copy_ne h i _ (by decide)

theorem ending_copy_ne_zstd (h : ContentHash) (i : Nat) (k : String) :
    ending (dedupKey h ++ "-r" ++ toString i) ≠ ending (k ++ "-zstd") := by
  rw [ending_zstd]
  exact ending_copy_ne h i _ (by decide)

theorem ending_restored_ne_zstd (X : Uuid) (gen : Nat) (rid : Uuid) (k : String) :
    ending (restoredKey X gen rid) ≠ ending (k ++ "-zstd") := by
  rw [ending_restored, ending_zstd]
  decide

section
variable {env : Env} {S : Set Bytes} {w : Traced}

/-- **A key stands for one content.** -/
theorem Named.functional (hS : Set.InjOn env.sha256 S) {k : String} {g h : ContentHash}
    (hg : Named env S w k g) (hh : Named env S w k h) : g = h := by
  -- by induction on the derivation: only the suffix makes a key out of another one
  induction hg generalizing h with
  | fresh g =>
    generalize hk : dedupKey g = k at hh
    cases hh with
    | fresh _ => exact @dedupKey_inj _ _ [] [] (by rw [hk])
    | copy _ i => exact absurd hk (dedup_ne_copy g h i)
    | restored hrow hhash => exact absurd (congrArg ending hk) (ending_dedup_ne_restored g _ _ _)
    | zstd _ _ _ _ => exact absurd (congrArg ending hk) (ending_dedup_ne_zstd g _)
  | copy g i =>
    generalize hk : dedupKey g ++ "-r" ++ toString i = k at hh
    cases hh with
    | fresh _ => exact absurd hk.symm (dedup_ne_copy h g i)
    | copy _ i' => exact copyKey_inj hk
    | restored hrow hhash => exact absurd (congrArg ending hk) (ending_copy_ne_restored g i _ _ _)
    | zstd _ _ _ _ => exact absurd (congrArg ending hk) (ending_copy_ne_zstd g i _)
  | @restored X gen rid o g hrow hhash =>
    generalize hk : restoredKey X gen rid = k at hh
    cases hh with
    | fresh _ => exact absurd (congrArg ending hk.symm) (ending_dedup_ne_restored h _ _ _)
    | copy _ i => exact absurd (congrArg ending hk.symm) (ending_copy_ne_restored h i _ _ _)
    | @restored Y gen' rid' o' _ hrow' hhash' =>
      have hYX : Y = X := restoredKey_inj hk.symm
      subst hYX
      rw [hrow] at hrow'
      cases hrow'
      rw [hhash] at hhash'
      exact Option.some.inj hhash'
    | zstd _ _ _ _ => exact absurd (congrArg ending hk) (ending_restored_ne_zstd X gen rid _)
  | @zstd k g d c _ hd hsha henc ih =>
    generalize hk : k ++ "-zstd" = k₁ at hh
    cases hh with
    | fresh _ => exact absurd (congrArg ending hk.symm) (ending_dedup_ne_zstd h _)
    | copy _ i => exact absurd (congrArg ending hk.symm) (ending_copy_ne_zstd h i _)
    | @restored X gen rid _ _ _ _ =>
      exact absurd (congrArg ending hk.symm) (ending_restored_ne_zstd X gen rid _)
    | @zstd k' h' d' c' hk' hd' hsha' henc' =>
      have hkk : k = k' := by
        have := congrArg String.toList hk
        rw [String.toList_append, String.toList_append] at this
        exact String.toList_injective (List.append_cancel_right this)
      subst hkk
      have hh' := ih hk'
      rw [← hsha, ← hsha'] at hh'
      have hdd := hS hd hd' hh'
      subst hdd
      rw [henc] at henc'
      cases henc'
      rfl

/-- a key keeps its content when rows keep their identity -/
theorem Named.mono {w' : Traced} {k : String} {h : ContentHash}
    (hrows : ∀ X o, rowOf w X = some o → ∃ o', rowOf w' X = some o' ∧ o'.immut = o.immut)
    (hn : Named env S w k h) : Named env S w' k h := by
  induction hn with
  | fresh h => exact .fresh h
  | copy h i => exact .copy h i
  | restored hrow hhash =>
    obtain ⟨o', hrow', himm⟩ := hrows _ _ hrow
    have hsame : o'.immut.contentHash = _ := congrArg ReclaimObject.contentHash himm
    exact .restored hrow' (Eq.trans hsame hhash)
  | zstd _ hd hsha henc ih => exact .zstd ih hd hsha henc

end

end ReclaimFabric
