import ReclaimFabric.Logic.Core
import ReclaimFabric.Logic.Tables

/-!
# Rules for the loops of recovery

One rule for each loop of `recovery.rs`: what its single writes keep, the loop keeps.

* `repairDedupCounts`   the rows it sets are counted from replica rows it has read (`Live`);
* `restoreReplicas`, `restoreArchives`   put back rows of the journal;
* `commitReplicas`, `commitArchives`     drop rows of the journal that match the stored ones.

The rules do not say who runs recovery; the walk through `Coordinator::recover` and the frame of a
single reconciliation both use them.
-/

set_option linter.unusedSectionVars false

namespace ReclaimFabric

open Prog (attempt settle)

namespace Coordinator

/-! ## the counted entries -/

/-- a dedup entry with the identity, the key and the size of a replica row -/
def Live (rs : List Replica) (x : DedupEntry) : Prop :=
  ∃ r ∈ rs, r.contentHash = x.contentHash ∧ r.location.backend = x.backend ∧
    r.location.key = x.key ∧ r.size = x.payloadSize

theorem addLive_ok {r : Replica} {rs : List Replica} {live live' : List DedupEntry}
    (h : addLive r live = .ok live') (hr : r ∈ rs) (hl : ∀ x ∈ live, Live rs x) :
    ∀ x ∈ live', Live rs x := by
  induction live generalizing live' with
  | nil =>
    cases h
    intro x hx
    rw [List.mem_singleton.mp hx]
    exact ⟨r, hr, rfl, rfl, rfl, rfl⟩
  | cons e es ih =>
    simp only [addLive] at h
    split at h
    · split at h
      · cases h
      · split at h
        · cases h
        · cases h
          intro x hx
          rcases List.mem_cons.mp hx with rfl | hx
          · exact hl e List.mem_cons_self
          · exact hl x (List.mem_cons_of_mem _ hx)
    · cases hrec : addLive r es with
      | error e => rw [hrec] at h; cases h
      | ok es' =>
        rw [hrec] at h
        cases h
        intro x hx
        rcases List.mem_cons.mp hx with rfl | hx
        · exact hl x List.mem_cons_self
        · exact ih hrec (fun y hy => hl y (List.mem_cons_of_mem _ hy)) x hx

theorem liveEntries_ok {objects : List ReclaimObject} {rs all : List Replica}
    {live live' : List DedupEntry} (h : liveEntries objects rs live = .ok live')
    (hsub : ∀ r ∈ rs, r ∈ all) (hl : ∀ x ∈ live, Live all x) : ∀ x ∈ live', Live all x := by
  induction rs generalizing live with
  | nil =>
    cases h
    exact hl
  | cons r rs ih =>
    simp only [liveEntries] at h
    split at h
    · cases h
    · split at h
      · cases h
      · cases hrec : addLive r live with
        | error e => rw [hrec] at h; cases h
        | ok live₁ =>
          rw [hrec] at h
          exact ih h (fun x hx => hsub x (List.mem_cons_of_mem _ hx))
            (addLive_ok hrec (hsub r List.mem_cons_self) hl)

end Coordinator

namespace Party

namespace Triple

variable {env : Env} {A : Party env} {l : Bool} {P : Traced → Prop}
  {E : ReclaimError → Traced → Prop}

open Coordinator (Live)

/-! ## dedup repair -/

theorem repairStored {all : List Replica} {stored live : List DedupEntry}
    {repairs : List String} (hl : ∀ x ∈ live, Live all x)
    (hdel : ∀ h be, A.Triple l P (Coordinator.store (.deleteDedup h be)) (fun _ => P) E)
    (hset : ∀ x, Live all x → A.Triple l P (Coordinator.store (.upsertDedup x)) (fun _ => P) E) :
    A.Triple l P (Coordinator.repairStored stored live repairs)
      (fun out w => (∀ x ∈ out.1, Live all x) ∧ P w) E := by
  induction stored generalizing live repairs with
  | nil => exact Triple.pure fun w hw => ⟨hl, hw⟩
  | cons e es ih =>
    unfold Coordinator.repairStored
    simp only
    split
    · exact bind (hdel _ _) fun _ => ih hl
    · next x hx =>
      have hmem := List.mem_of_find?_eq_some hx
      have hid : x.contentHash = e.contentHash ∧ x.backend = e.backend := by
        simpa using List.find?_some hx
      have hrest : ∀ y ∈ live.filter (fun y => !(decide (y.contentHash = e.contentHash) &&
          decide (y.backend = e.backend))), Live all y :=
        fun y hy => hl y (List.mem_of_mem_filter hy)
      refine ite (fun _ => ?_) fun _ => ih hrest
      refine bind (hset _ ?_) fun _ => ih hrest
      obtain ⟨r, hr, h₁, h₂, h₃, h₄⟩ := hl x hmem
      exact ⟨r, hr, h₁.trans hid.1, h₂.trans hid.2, h₃, h₄⟩

theorem recreateMissing {all : List Replica} {xs : List DedupEntry} {repairs : List String}
    (hxs : ∀ x ∈ xs, Live all x)
    (hins : ∀ x, Live all x → A.Triple l P (Coordinator.store (.insertDedup x)) (fun _ => P) E) :
    A.Triple l P (Coordinator.recreateMissing xs repairs) (fun _ => P) E := by
  induction xs generalizing repairs with
  | nil => exact Triple.pure fun _ h => h
  | cons x xs ih =>
    refine bind (hins x (hxs x List.mem_cons_self)) fun _ => ?_
    exact ih fun y hy => hxs y (List.mem_cons_of_mem _ hy)

/-- `repair_dedup_counts`: `R rs` holds once the replica rows `rs` have been read -/
theorem repairDedupCounts {R : List Replica → Traced → Prop} (hP : A.Firm P)
    (hR : ∀ rs, A.Firm (R rs)) (hPE : ∀ e w, P w → E e w) (hRE : ∀ rs e w, R rs w → E e w)
    (hread : ∀ w rs s, P w → A.inv w → w.store.allReplicas = .ok (rs, s) → R rs w)
    (hdel : ∀ rs h be, A.Triple l (R rs) (Coordinator.store (.deleteDedup h be)) (fun _ => R rs) E)
    (hset : ∀ rs x, Live rs x →
      A.Triple l (R rs) (Coordinator.store (.upsertDedup x)) (fun _ => R rs) E)
    (hins : ∀ rs x, Live rs x →
      A.Triple l (R rs) (Coordinator.store (.insertDedup x)) (fun _ => R rs) E) :
    A.Triple l P Coordinator.repairDedupCounts (fun _ w => ∃ rs, R rs w) E := by
  refine bind ((storeCalm rfl hP).post (fun _ _ h => h) hPE) fun objects => ?_
  refine bind (answer hP hR rfl (fun w rs s hw hi hrun => hread w rs s hw hi hrun) hPE)
    fun rs => ?_
  refine bind (R := fun live w => (∀ x ∈ live, Live rs x) ∧ R rs w)
    (Triple.settle (fun live hlive w hw => ⟨?_, hw⟩) fun e _ w hw => hRE rs e w hw) fun live =>
    of_pure fun hlive => ?_
  · exact Coordinator.liveEntries_ok hlive (fun _ h => h) nofun
  refine bind ((storeCalm rfl (hR rs)).post (fun _ _ h => h) (hRE rs)) fun stored => ?_
  refine bind (repairStored hlive (hdel rs) (hset rs)) fun out => of_pure fun hout => ?_
  refine (recreateMissing ?_ (hins rs)).post (fun _ w h => ⟨rs, h⟩) (fun _ _ h => h)
  intro x hx
  rw [List.mem_insertionSort] at hx
  exact hout x hx

/-! ## rollback -/

theorem restoreReplicas {e : JournalEntry} {rs known : List Replica} (hPE : ∀ e w, P w → E e w)
    (hadd : ∀ r ∈ rs, A.Triple l P (Coordinator.store (.addReplica r)) (fun _ => P) E) :
    A.Triple l P (Coordinator.restoreReplicas e rs known) (fun _ => P) E := by
  induction rs generalizing known with
  | nil => exact Triple.pure fun _ h => h
  | cons r rs ih =>
    have ih' (known : List Replica) := @ih known fun x hx => hadd x (List.mem_cons_of_mem _ hx)
    unfold Coordinator.restoreReplicas
    split
    · exact refuse (fun _ w hw => hPE _ w hw) fun _ => ih' _
    · refine refuse (fun _ w hw => hPE _ w hw) fun _ => ?_
      exact bind (hadd r List.mem_cons_self) fun _ => ih' _

theorem restoreArchives {e : JournalEntry} {as known : List ArchiveRecord}
    (hPE : ∀ e w, P w → E e w)
    (hadd : ∀ a ∈ as, A.Triple l P (Coordinator.store (.insertArchive a)) (fun _ => P) E) :
    A.Triple l P (Coordinator.restoreArchives e as known) (fun _ => P) E := by
  induction as generalizing known with
  | nil => exact Triple.pure fun _ h => h
  | cons a as ih =>
    have ih' (known : List ArchiveRecord) := @ih known fun x hx => hadd x (List.mem_cons_of_mem _ hx)
    unfold Coordinator.restoreArchives
    split
    · exact refuse (fun _ w hw => hPE _ w hw) fun _ => ih' _
    · refine refuse (fun _ w hw => hPE _ w hw) fun _ => ?_
      exact bind (hadd a List.mem_cons_self) fun _ => ih' _

theorem restoreRollbackMetadata {e : JournalEntry} {p : ParsedJournalPayload} (hP : A.Firm P)
    (hPE : ∀ e w, P w → E e w)
    (hrep : ∀ r ∈ p.replicaDeletions,
      A.Triple l P (Coordinator.store (.addReplica r)) (fun _ => P) E)
    (harc : ∀ a ∈ p.archiveDeletions,
      A.Triple l P (Coordinator.store (.insertArchive a)) (fun _ => P) E) :
    A.Triple l P (Coordinator.restoreRollbackMetadata e p) (fun _ => P) E := by
  refine bind ((storeCalm rfl hP).post (fun _ _ h => h) hPE) fun rs => ?_
  refine bind (restoreReplicas hPE hrep) fun _ => ?_
  refine bind ((storeCalm rfl hP).post (fun _ _ h => h) hPE) fun as => ?_
  exact restoreArchives hPE harc

/-! ## commit -/

/-- the stored row of a deletion, if there is one, is the row the journal names -/
def Matches (known : List Replica) (r : Replica) : Prop :=
  ∀ x, known.find? (fun x => decide (x.replicaId = r.replicaId)) = some x →
    x.objectId = r.objectId ∧ x.generation = r.generation ∧ x.location = r.location ∧
      x.contentHash = r.contentHash

def MatchesArchive (known : List ArchiveRecord) (a : ArchiveRecord) : Prop :=
  ∀ x, known.find? (fun x => decide (x.archiveId = a.archiveId)) = some x →
    x.objectId = a.objectId ∧ x.generation = a.generation ∧ x.backend = a.backend ∧
      x.key = a.key ∧ x.contentHash = a.contentHash

/-- the first loop of `commit_after_crash`; `P done` holds once the rows `done` are dropped -/
theorem commitReplicas {e : JournalEntry} {P : List Replica → Traced → Prop}
    {rs known done : List Replica} (hPE : ∀ done e w, P done w → E e w)
    (hdel : ∀ done, ∀ r ∈ rs, Matches known r →
      A.Triple l (P done) (Coordinator.store (.deleteReplica r.replicaId))
        (fun _ => P (r :: done)) E)
    (hrel : ∀ done, ∀ r ∈ rs, A.Triple l (P done)
      (Coordinator.store (.dedupRelease r.contentHash r.location.backend)) (fun _ => P done)
      (fun _ => P done)) :
    A.Triple l (P done) (Coordinator.commitReplicas e known rs)
      (fun _ => P (rs.reverse ++ done)) E := by
  induction rs generalizing done with
  | nil => exact Triple.pure fun _ h => h
  | cons r rs ih =>
    have hdel' := hdel done r List.mem_cons_self
    have hrest : A.Triple l (P (r :: done)) (Coordinator.commitReplicas e known rs)
        (fun _ => P ((r :: rs).reverse ++ done)) E := by
      refine (ih (fun d x hx => hdel d x (List.mem_cons_of_mem _ hx))
        fun d x hx => hrel d x (List.mem_cons_of_mem _ hx)).post ?_ fun _ _ h => h
      intro _ w hw
      have he : (r :: rs).reverse ++ done = rs.reverse ++ r :: done := by simp
      rw [he]
      exact hw
    have htail (hm : Matches known r) : A.Triple l (P done) (do
        Coordinator.store (.deleteReplica r.replicaId)
        let _ ← Prog.attempt (Coordinator.store (.dedupRelease r.contentHash r.location.backend))
        Coordinator.commitReplicas e known rs) (fun _ => P ((r :: rs).reverse ++ done)) E := by
      refine bind (hdel' hm) fun _ => ?_
      exact attemptBind (hrel _ r List.mem_cons_self) (fun _ => hrest) fun _ => hrest
    unfold Coordinator.commitReplicas
    split
    · next x hx =>
      refine refuse (fun _ w hw => hPE done _ w hw) fun hc => htail ?_
      intro y hy
      rw [hx] at hy
      cases hy
      simpa [not_or] using hc
    · next hx =>
      refine htail ?_
      intro y hy
      rw [hx] at hy
      cases hy

/-- the second loop of `commit_after_crash` -/
theorem commitArchives {e : JournalEntry} {P : List ArchiveRecord → Traced → Prop}
    {as known done : List ArchiveRecord} (hPE : ∀ done e w, P done w → E e w)
    (hdel : ∀ done, ∀ a ∈ as, MatchesArchive known a →
      A.Triple l (P done) (Coordinator.store (.deleteArchive a.archiveId))
        (fun _ => P (a :: done)) E) :
    A.Triple l (P done) (Coordinator.commitArchives e known as)
      (fun _ => P (as.reverse ++ done)) E := by
  induction as generalizing done with
  | nil => exact Triple.pure fun _ h => h
  | cons a as ih =>
    have hrest : A.Triple l (P (a :: done)) (Coordinator.commitArchives e known as)
        (fun _ => P ((a :: as).reverse ++ done)) E := by
      refine (ih fun d x hx => hdel d x (List.mem_cons_of_mem _ hx)).post ?_ fun _ _ h => h
      intro _ w hw
      have he : (a :: as).reverse ++ done = as.reverse ++ a :: done := by simp
      rw [he]
      exact hw
    unfold Coordinator.commitArchives
    split
    · next x hx =>
      refine refuse (fun _ w hw => hPE done _ w hw) fun hc => ?_
      refine bind (hdel done a List.mem_cons_self ?_) fun _ => hrest
      intro y hy
      rw [hx] at hy
      cases hy
      simpa [not_or] using hc
    · next hx =>
      refine bind (hdel done a List.mem_cons_self ?_) fun _ => hrest
      intro y hy
      rw [hx] at hy
      cases hy

/-! ## physical truth -/

/-- look an archive backend up in the configuration -/
theorem lookupArchive {id : String} {missing : ReclaimError} (hP : A.Firm P) :
    A.Triple false P (Coordinator.lookupArchive id missing)
      (fun info w => info.id = id ∧ P w ∧ (w.proc.config.archive id).isSome = true)
      (fun _ => P) := by
  refine lockedConfig hP fun c => ?_
  cases hc : c.archive id with
  | none => exact throw fun _ h => h.1
  | some info =>
    refine Triple.pure fun w hw => ⟨?_, hw.1, ?_⟩
    · simpa using List.find?_some hc
    · rw [hw.2, hc]
      rfl

/-- the answers to the queries made so far; they agree -/
structure Asked {ι : Type} (F : ι → Bool → Traced → Prop) (done : List ι) (seen : Bool × Bool)
    (w : Traced) : Prop where
  agree : seen.1 = true → seen.2 = false
  answers : ∀ x ∈ done, ∃ d, F x d w ∧ (d = true → seen.1 = true) ∧ (d = false → seen.2 = true)

theorem Asked.firm {ι : Type} {F : ι → Bool → Traced → Prop} {done : List ι} {seen : Bool × Bool}
    (hF : ∀ x d, A.Firm (F x d)) : A.Firm (Asked F done seen) where
  rely := fun w w' hr hi h => ⟨h.agree, fun x hx => by
    obtain ⟨d, hd, hs⟩ := h.answers x hx
    exact ⟨d, (hF x d).rely w w' hr hi hd, hs⟩⟩
  quiet := fun w w' hq h => ⟨h.agree, fun x hx => by
    obtain ⟨d, hd, hs⟩ := h.answers x hx
    exact ⟨d, (hF x d).quiet w w' hq hd, hs⟩⟩

/-- one more answer -/
theorem Asked.note {ι : Type} {F : ι → Bool → Traced → Prop} {done : List ι}
    {seen seen' : Bool × Bool} {w : Traced} {x : ι} {found : Bool} (h : Asked F done seen w)
    (hn : Coordinator.noteExists seen found = .ok seen') (hx : F x found w) :
    Asked F (x :: done) seen' w := by
  obtain ⟨s, u⟩ := seen
  have hseen : seen' = (found || s, !found || u) ∧ ((found || s) = true → (!found || u) = false) := by
    unfold Coordinator.noteExists at hn
    cases found <;> cases s <;> cases u <;> cases hn <;> decide
  obtain ⟨rfl, hagree⟩ := hseen
  refine ⟨hagree, ?_⟩
  intro y hy
  rcases List.mem_cons.mp hy with rfl | hy
  · refine ⟨found, hx, ?_, ?_⟩
    · rintro rfl
      rfl
    · rintro rfl
      rfl
  · obtain ⟨d, hd, h₁, h₂⟩ := h.answers y hy
    refine ⟨d, hd, fun hd => ?_, fun hd => ?_⟩
    · show (found || s) = true
      rw [show s = true from h₁ hd, Bool.or_true]
    · show (!found || u) = true
      rw [show u = true from h₂ hd, Bool.or_true]

/-- when the queries agree, every answer is the first component -/
theorem Asked.all {ι : Type} {F : ι → Bool → Traced → Prop} {done : List ι} {seen : Bool × Bool}
    {w : Traced} (h : Asked F done seen w) {x : ι} (hx : x ∈ done) : F x seen.1 w := by
  obtain ⟨d, hd, h₁, h₂⟩ := h.answers x hx
  have : seen.1 = d := by
    cases d with
    | true => exact h₁ rfl
    | false =>
      by_contra hne
      have hne : seen.1 = true := by simpa using hne
      rw [h.agree hne] at h₂
      cases h₂ rfl
  rw [this]
  exact hd

/-- `F x d` holds once the presence query for item `x` was answered with `d` -/
structure Answers (A : Party env) (P : Traced → Prop)
    (F : Replica ⊕ ArchiveRecord → Bool → Traced → Prop) : Prop where
  firm : ∀ x d, A.Firm (F x d)
  payload : ∀ (r : Replica) w i d x, P w → A.inv w →
    A.allow (.exists_ r.location.backend r.location.key) i w →
    exec env A.tid (.exists_ r.location.backend r.location.key) i w.toWorld = some (.ok d, x) →
    F (.inl r) d (A.after (.exists_ r.location.backend r.location.key) (.ok d) w x)
  node : ∀ (r : Replica) n w i y x, P w → A.inv w →
    A.allow (.node n r.location.backend r.location.key .exists_) i w →
    exec env A.tid (.node n r.location.backend r.location.key .exists_) i w.toWorld =
      some (.ok y, x) → y.ok = true →
    F (.inl r) y.existed (A.after (.node n r.location.backend r.location.key .exists_) (.ok y) w x)
  archive : ∀ (a : ArchiveRecord) w i d x, P w → A.inv w →
    (w.proc.config.archive a.backend).isSome = true →
    A.allow (.archiveExists a.backend a.key) i w →
    exec env A.tid (.archiveExists a.backend a.key) i w.toWorld = some (.ok d, x) →
    F (.inr a) d (A.after (.archiveExists a.backend a.key) (.ok d) w x)

section
variable {F : Replica ⊕ ArchiveRecord → Bool → Traced → Prop}
  {done : List (Replica ⊕ ArchiveRecord)} {seen : Bool × Bool}

theorem payloadStates {rs : List Replica} (hP : A.Firm P) (hF : Answers A P F) :
    A.Triple false (fun w => P w ∧ Asked F done seen w) (Coordinator.payloadStates rs seen)
      (fun out w => P w ∧ Asked F ((rs.map .inl).reverse ++ done) out w) (fun _ => P) := by
  induction rs generalizing done seen with
  | nil => exact Triple.pure fun _ h => h
  | cons r rs ih =>
    have hPA : A.Firm fun w => P w ∧ Asked F done seen w := hP.and (Asked.firm hF.firm)
    refine bind (R := fun found w => P w ∧ Asked F done seen w ∧ F (.inl r) found w)
      (Triple.post (payloadExistsWith hPA ?_ ?_) (fun _ _ h => h) fun _ _ h => h.1) fun found => ?_
    · intro w i d x hw hi ha he h
      exact ⟨h.1, h.2, hF.payload r w i d x hw.1 hi ha he⟩
    · intro n w i y x hw hi ha he hok h
      exact ⟨h.1, h.2, hF.node r n w i y x hw.1 hi ha he hok⟩
    · refine bind (R := fun out w => P w ∧ Asked F (.inl r :: done) out w)
        (Triple.settle (fun out hout w hw => ⟨hw.1, hw.2.1.note hout hw.2.2⟩)
          fun _ _ w hw => hw.1) fun out => ?_
      refine Triple.post ih ?_ fun _ _ h => h
      intro out w hw
      rw [List.map_cons, List.reverse_cons, List.append_assoc, List.singleton_append]
      exact hw

theorem archiveStates {as : List ArchiveRecord} (hP : A.Firm P) (hF : Answers A P F) :
    A.Triple false (fun w => P w ∧ Asked F done seen w) (Coordinator.archiveStates as seen)
      (fun out w => P w ∧ Asked F ((as.map .inr).reverse ++ done) out w) (fun _ => P) := by
  induction as generalizing done seen with
  | nil => exact Triple.pure fun _ h => h
  | cons a as ih =>
    have hPA : A.Firm fun w => P w ∧ Asked F done seen w := hP.and (Asked.firm hF.firm)
    refine bind (Triple.post (lookupArchive hPA) (fun _ _ h => h) fun _ _ h => h.1) fun info =>
      of_pure fun hid => ?_
    rw [hid]
    refine bind (R := fun found w => P w ∧ Asked F done seen w ∧ F (.inr a) found w)
      (look (c := .archiveExists a.backend a.key) (k := fun r => r) rfl
        (hPA.and ⟨fun w w' hr _ h => by rw [A.config w w' hr]; exact h,
          fun w w' hq h => by rw [hq.config]; exact h⟩) ?_) fun found => ?_
    · intro w i r x hw hi ha he h
      cases r with
      | error e => exact h.1.1
      | ok d => exact ⟨h.1.1, h.1.2, hF.archive a w i d x hw.1.1 hi hw.2 ha he⟩
    · refine bind (R := fun out w => P w ∧ Asked F (.inr a :: done) out w)
        (Triple.settle (fun out hout w hw => ⟨hw.1, hw.2.1.note hout hw.2.2⟩)
          fun _ _ w hw => hw.1) fun out => ?_
      refine Triple.post ih ?_ fun _ _ h => h
      intro out w hw
      rw [List.map_cons, List.reverse_cons, List.append_assoc, List.singleton_append]
      exact hw

/-- the answer of `physical_state` is that of every single query -/
theorem physicalState {payload : JournalPayload} {dels plan : List Replica}
    {archs : List ArchiveRecord} (hp : parseJournalDeletions payload = .ok (dels, plan, archs))
    (hP : A.Firm P) (hF : Answers A P F) :
    A.Triple false P (Coordinator.physicalState payload)
      (fun x w => P w ∧ (∀ r ∈ plan, F (.inl r) x w) ∧ ∀ a ∈ archs, F (.inr a) x w)
      (fun _ => P) := by
  unfold Coordinator.physicalState
  rw [hp]
  refine bind (R := fun out w => out = (dels, plan, archs) ∧ P w)
    (Triple.settle (fun out hout w hw => ⟨(Except.ok.inj hout).symm, hw⟩) fun _ he => by cases he)
    fun out => of_pure fun hout => ?_
  subst hout
  refine ite (fun hc => Triple.pure fun w hw => ⟨hw, ?_, ?_⟩) fun _ => ?_
  · rw [hc.1]
    exact nofun
  · rw [hc.2]
    exact nofun
  have hnone : ∀ w, P w → P w ∧ Asked F [] (false, false) w := fun w hw => ⟨hw, nofun, nofun⟩
  refine bind (Triple.pre (payloadStates hP hF) hnone) fun out => ?_
  refine bind (archiveStates hP hF) fun out => Triple.pure fun w hw => ⟨hw.1, ?_, ?_⟩
  · intro r hr
    refine hw.2.all ?_
    rw [List.append_nil, List.mem_append, List.mem_reverse, List.mem_reverse]
    exact .inr (List.mem_map_of_mem hr)
  · intro a ha
    refine hw.2.all ?_
    rw [List.append_nil, List.mem_append, List.mem_reverse]
    exact .inl (List.mem_map_of_mem ha)

end

end Triple

end Party

end ReclaimFabric
