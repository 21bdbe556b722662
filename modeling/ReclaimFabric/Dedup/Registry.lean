import ReclaimFabric.Lib.Assoc
import ReclaimFabric.Model.Object
import ReclaimFabric.Logic.Tables

/-!
# The in-memory dedup registry

`dedup.rs`: the cache of deduplicated payloads, with an index from a physical key back to the
content that lives there.

* `DedupRegistry`        the two maps and their methods;
* `Call`, `played`       a sequence of method calls on a fresh registry, with the answers;
* `Indexed`              `by_key` is the inverse of `by_hash`;
* `GrantsFinal`          after a deletion grant nothing is acquired until a new insert;
* `Referenced`           no call acquires an entry that has no references.

A hash map is a finite map; the order of its keys plays no role (`remove_spec`).
-/

namespace ReclaimFabric

structure DedupRegistry where
  byHash : Assoc (ContentHash × String) DedupEntry
  byKey : Assoc (String × String) ContentHash

namespace DedupRegistry

def new : DedupRegistry := ⟨Assoc.empty, Assoc.empty⟩

/-! ## the methods -/

def insert (e : DedupEntry) (r : DedupRegistry) : Res Unit × DedupRegistry :=
  if e.backend = "" ∨ e.key = "" ∨ e.refCount = 0 then
    (.error (.dedup "dedup entry requires backend, key, and at least one reference"), r)
  else if (r.byKey.get (e.backend, e.key)).any (fun h => decide (h ≠ e.contentHash)) then
    (.error (.dedup
      s!"physical key {e.key} on {e.backend} is already assigned to different content"), r)
  else
    let byKey := match r.byHash.get (e.contentHash, e.backend) with
      | some previous => r.byKey.del (previous.backend, previous.key)
      | none => r.byKey
    (.ok (), ⟨r.byHash.put (e.contentHash, e.backend) e,
      byKey.put (e.backend, e.key) e.contentHash⟩)

def getOn (h : ContentHash) (backend : String) (r : DedupRegistry) : Option DedupEntry :=
  r.byHash.get (h, backend)

def removeOn (h : ContentHash) (backend : String) (r : DedupRegistry) : DedupRegistry :=
  match r.byHash.get (h, backend) with
  | some e => ⟨r.byHash.del (h, backend), r.byKey.del (e.backend, e.key)⟩
  | none => r

def remove (h : ContentHash) (r : DedupRegistry) : DedupRegistry :=
  let identities := r.byHash.keys.filter (fun i => decide (i.1 = h))
  identities.foldl (fun r i => r.removeOn i.1 i.2) r

def acquireOn (h : ContentHash) (backend : String) (r : DedupRegistry) :
    Res Unit × DedupRegistry :=
  match r.byHash.get (h, backend) with
  | none => (.error (.dedup s!"cannot acquire unknown content {h} on {backend}"), r)
  | some e =>
    if e.refCount + 1 < 2 ^ 64 then
      (.ok (), { r with byHash := r.byHash.put (h, backend) { e with refCount := e.refCount + 1 } })
    else (.error (.dedup "dedup ref_count overflow"), r)

/-- `true` when the payload is unreferenced and the caller may delete it -/
def releaseOn (h : ContentHash) (backend : String) (r : DedupRegistry) :
    Res Bool × DedupRegistry :=
  match r.byHash.get (h, backend) with
  | none => (.error (.dedup s!"cannot release unknown content {h} on {backend}"), r)
  | some e =>
    if e.refCount = 0 then (.error (.dedup s!"release on content {h} with zero references"), r)
    else (.ok (decide (e.refCount - 1 = 0)),
      { r with byHash := r.byHash.put (h, backend) { e with refCount := e.refCount - 1 } })

/-! ## sequences of calls -/

inductive Call where
  | insert (e : DedupEntry)
  | acquireOn (h : ContentHash) (backend : String)
  | releaseOn (h : ContentHash) (backend : String)
  | remove (h : ContentHash)
  | removeOn (h : ContentHash) (backend : String)

/-- a call: what it answers (`true` is a deletion grant) and the registry it leaves -/
def Call.exec : Call → DedupRegistry → Res Bool × DedupRegistry
  | .insert e, r => ((r.insert e).1.map (fun _ => false), (r.insert e).2)
  | .acquireOn h b, r => ((r.acquireOn h b).1.map (fun _ => false), (r.acquireOn h b).2)
  | .releaseOn h b, r => r.releaseOn h b
  | .remove h, r => (.ok false, r.remove h)
  | .removeOn h b, r => (.ok false, r.removeOn h b)

/-- one call of a run, with the registry it found -/
structure Event where
  call : Call
  before : DedupRegistry
  answer : Res Bool

def playStep (p : List Event × DedupRegistry) (c : Call) : List Event × DedupRegistry :=
  (p.1 ++ [⟨c, p.2, (c.exec p.2).1⟩], (c.exec p.2).2)

/-- the calls on a fresh registry: what happened, and the registry at the end -/
def played (cs : List Call) : List Event × DedupRegistry := cs.foldl playStep ([], new)

theorem played_snoc (cs : List Call) (c : Call) :
    played (cs ++ [c]) = playStep (played cs) c := by
  rw [played, List.foldl_append]
  rfl

/-- the call is a successful insert of content `h` on `b` -/
def Event.Inserts (h : ContentHash) (b : String) (x : Event) : Prop :=
  ∃ e, x.call = .insert e ∧ x.answer.isOk = true ∧ e.contentHash = h ∧ e.backend = b

/-- the call answered that the payload of `h` on `b` may be deleted -/
def Event.Grants (h : ContentHash) (b : String) (x : Event) : Prop :=
  x.call = .releaseOn h b ∧ x.answer = .ok true

/-- the payload of `h` on `b` was given up and no insert came since -/
def Granted (h : ContentHash) (b : String) (l : List Event) : Prop :=
  ∃ past x since, l = past ++ x :: since ∧ x.Grants h b ∧ ∀ y ∈ since, ¬ y.Inserts h b

/-- after a deletion grant every acquisition fails until a new insert -/
def GrantsFinal (l : List Event) : Prop :=
  ∀ past x rest h b, l = past ++ x :: rest → x.call = .acquireOn h b → Granted h b past →
    x.answer.isOk = false

/-- no acquisition finds an entry without references -/
def Referenced (l : List Event) : Prop :=
  ∀ x ∈ l, ∀ h b e, x.call = .acquireOn h b → x.before.getOn h b = some e → e.refCount ≠ 0

/-- the index from physical keys is the inverse of the map, and every entry is filed under its
own identity -/
structure Indexed (r : DedupRegistry) : Prop where
  filed : ∀ h b e, r.getOn h b = some e → e.contentHash = h ∧ e.backend = b
  inverse : ∀ b k h, r.byKey.get (b, k) = some h ↔ ∃ e, r.getOn h b = some e ∧ e.key = k

variable {r : DedupRegistry} {h h' : ContentHash} {b b' : String}

theorem Indexed.new : Indexed new where
  filed h b e he := by cases he
  inverse b k h := by
    constructor
    · intro hk
      cases hk
    · intro hk
      obtain ⟨e, he, -⟩ := hk
      cases he

/-- a physical key has one content -/
theorem Indexed.unique (H : Indexed r) {e e' : DedupEntry} (he : r.getOn h b = some e)
    (he' : r.getOn h' b = some e') (hk : e.key = e'.key) : h = h' := by
  have h1 := (H.inverse b e.key h).mpr ⟨e, he, rfl⟩
  have h2 := (H.inverse b e.key h').mpr ⟨e', he', hk.symm⟩
  rw [h1] at h2
  exact Option.some.inj h2

/-! ## what one method does -/

/-- an insert that is refused changes nothing; one that succeeds files its entry -/
theorem insert_cases (e : DedupEntry) (r : DedupRegistry) :
    ((∃ err, (r.insert e).1 = .error err) ∧ (r.insert e).2 = r) ∨
    ((r.insert e).1 = .ok () ∧ e.refCount ≠ 0 ∧
      (∀ x, r.byKey.get (e.backend, e.key) = some x → x = e.contentHash) ∧
      (r.insert e).2.byHash = r.byHash.put (e.contentHash, e.backend) e ∧
      (r.insert e).2.byKey =
        (match r.getOn e.contentHash e.backend with
          | some previous => r.byKey.del (previous.backend, previous.key)
          | none => r.byKey).put (e.backend, e.key) e.contentHash) := by
  unfold insert
  split
  · exact Or.inl ⟨⟨_, rfl⟩, rfl⟩
  · next hv =>
    split
    · exact Or.inl ⟨⟨_, rfl⟩, rfl⟩
    · next hk =>
      refine Or.inr ⟨rfl, fun h0 => hv (Or.inr (Or.inr h0)), ?_, rfl, rfl⟩
      intro x hx
      rw [hx] at hk
      by_contra hne
      exact hk (by simp [hne])

theorem getOn_insert {e : DedupEntry} (hok : (r.insert e).1 = .ok ()) :
    (r.insert e).2.getOn h b =
      if (e.contentHash, e.backend) = (h, b) then some e else r.getOn h b := by
  rcases insert_cases e r with hc | hc
  · obtain ⟨⟨err, he⟩, -⟩ := hc
    rw [he] at hok
    cases hok
  · rw [getOn, hc.2.2.2.1, Assoc.get_put]
    rfl

theorem Indexed.insert (H : Indexed r) (e : DedupEntry) : Indexed (r.insert e).2 := by
  rcases insert_cases e r with hc | hc
  · rw [hc.2]
    exact H
  obtain ⟨hok, -, hfree, -, hkey⟩ := hc
  -- the index without the key the entry had before
  have hdel : ∀ b k, (match r.getOn e.contentHash e.backend with
      | some previous => r.byKey.del (previous.backend, previous.key)
      | none => r.byKey).get (b, k) =
      if ∃ p, r.getOn e.contentHash e.backend = some p ∧ b = e.backend ∧ k = p.key then none
      else r.byKey.get (b, k) := by
    intro b k
    cases hp : r.getOn e.contentHash e.backend with
    | none =>
      rw [if_neg]
      intro hx
      obtain ⟨p, hp', -⟩ := hx
      cases hp'
    | some p =>
      have hb := (H.filed _ _ _ hp).2
      show (r.byKey.del (p.backend, p.key)).get (b, k) = _
      rw [Assoc.get_del, hb]
      refine if_congr ?_ rfl rfl
      constructor
      · intro hx
        obtain ⟨rfl, rfl⟩ := Prod.mk.inj hx
        exact ⟨p, rfl, rfl, rfl⟩
      · intro hx
        obtain ⟨q, hq, rfl, rfl⟩ := hx
        cases hq
        rfl
  constructor
  · intro h b x hx
    rw [getOn_insert hok] at hx
    split at hx
    · next hi =>
      obtain ⟨rfl, rfl⟩ := Prod.mk.inj hi
      cases hx
      exact ⟨rfl, rfl⟩
    · exact H.filed h b x hx
  · intro b k h
    rw [hkey, Assoc.get_put, getOn_insert hok]
    by_cases hbk : (e.backend, e.key) = (b, k)
    · -- the key of the entry itself
      obtain ⟨rfl, rfl⟩ := Prod.mk.inj hbk
      rw [if_pos rfl]
      constructor
      · intro hx
        cases hx
        exact ⟨e, if_pos rfl, rfl⟩
      · intro hx
        obtain ⟨x, hx, hk⟩ := hx
        split at hx
        · next hi => rw [(Prod.mk.inj hi).1]
        · rw [hfree h ((H.inverse _ _ _).mpr ⟨x, hx, hk⟩)]
    · rw [if_neg hbk, hdel]
      by_cases hi : (e.contentHash, e.backend) = (h, b)
      · -- another key of the same identity: gone with the previous entry
        obtain ⟨rfl, rfl⟩ := Prod.mk.inj hi
        rw [if_pos rfl]
        constructor
        · intro hx
          split at hx
          · cases hx
          · next hno =>
            obtain ⟨p, hp, hk⟩ := (H.inverse _ _ _).mp hx
            exact absurd ⟨p, hp, rfl, hk.symm⟩ hno
        · intro hx
          obtain ⟨x, hx, rfl⟩ := hx
          cases hx
          exact absurd rfl hbk
      · rw [if_neg hi, ← H.inverse]
        split
        · next hp =>
          -- the previous key belongs to the identity of the entry
          obtain ⟨p, hp, rfl, rfl⟩ := hp
          have hold := (H.inverse _ _ _).mpr ⟨p, hp, rfl⟩
          rw [hold]
          constructor
          · intro hx
            cases hx
          · intro hx
            cases hx
            exact absurd rfl hi
        · exact Iff.rfl

theorem getOn_removeOn :
    (r.removeOn h b).getOn h' b' = if (h, b) = (h', b') then none else r.getOn h' b' := by
  rw [removeOn]
  cases he : r.byHash.get (h, b) with
  | none =>
    show r.getOn h' b' = _
    by_cases hi : (h, b) = (h', b')
    · obtain ⟨rfl, rfl⟩ := Prod.mk.inj hi
      rw [if_pos rfl]
      exact he
    · rw [if_neg hi]
  | some e => exact Assoc.get_del _ _ _

theorem Indexed.removeOn (H : Indexed r) (h : ContentHash) (b : String) :
    Indexed (r.removeOn h b) := by
  have hfiled : ∀ h' b' e, (r.removeOn h b).getOn h' b' = some e →
      e.contentHash = h' ∧ e.backend = b' := by
    intro h' b' e he
    rw [getOn_removeOn] at he
    split at he
    · cases he
    · exact H.filed h' b' e he
  refine ⟨hfiled, ?_⟩
  intro b' k h'
  rw [getOn_removeOn]
  cases he : r.getOn h b with
  | none =>
    have hr : r.removeOn h b = r := by
      show (match r.getOn h b with | some e => _ | none => r) = r
      rw [he]
    rw [hr, H.inverse]
    by_cases hi : (h, b) = (h', b')
    · obtain ⟨rfl, rfl⟩ := Prod.mk.inj hi
      rw [if_pos rfl, he]
    · rw [if_neg hi]
  | some e =>
    have hr : (r.removeOn h b).byKey = r.byKey.del (e.backend, e.key) := by
      show (match r.getOn h b with
        | some e => (⟨r.byHash.del (h, b), r.byKey.del (e.backend, e.key)⟩ : DedupRegistry)
        | none => r).byKey = _
      rw [he]
    have hold := (H.inverse b e.key h).mpr ⟨e, he, rfl⟩
    rw [hr, Assoc.get_del, (H.filed _ _ _ he).2]
    by_cases hi : (h, b) = (h', b')
    · obtain ⟨rfl, rfl⟩ := Prod.mk.inj hi
      rw [if_pos rfl]
      constructor
      · intro hx
        split at hx
        · cases hx
        · next hne =>
          obtain ⟨x, hx, hk⟩ := (H.inverse _ _ _).mp hx
          rw [he] at hx
          cases hx
          exact absurd (by rw [hk]) hne
      · intro hx
        obtain ⟨x, hx, -⟩ := hx
        cases hx
    · rw [if_neg hi, ← H.inverse]
      split
      · next hk =>
        obtain ⟨rfl, rfl⟩ := Prod.mk.inj hk
        rw [hold]
        constructor
        · intro hx
          cases hx
        · intro hx
          cases hx
          exact absurd rfl hi
      · exact Iff.rfl

/-- the removals of a list of identities -/
theorem removeAll_spec (l : List (ContentHash × String)) (r : DedupRegistry) (H : Indexed r) :
    Indexed (l.foldl (fun r i => r.removeOn i.1 i.2) r) ∧
    ∀ h b, (l.foldl (fun r i => r.removeOn i.1 i.2) r).getOn h b =
      if (h, b) ∈ l then none else r.getOn h b := by
  induction l generalizing r with
  | nil => exact ⟨H, fun h b => by rw [if_neg List.not_mem_nil]; rfl⟩
  | cons i l ih =>
    obtain ⟨hw, hg⟩ := ih _ (H.removeOn i.1 i.2)
    refine ⟨hw, fun h b => ?_⟩
    rw [List.foldl_cons, hg, getOn_removeOn]
    by_cases hl : (h, b) ∈ l
    · rw [if_pos hl, if_pos (List.mem_cons_of_mem _ hl)]
    · rw [if_neg hl]
      by_cases hi : (i.1, i.2) = (h, b)
      · rw [if_pos hi, if_pos (by rw [← hi]; exact List.mem_cons_self)]
      · rw [if_neg hi, if_neg]
        intro hm
        rcases List.mem_cons.mp hm with hm | hm
        · exact hi hm.symm
        · exact hl hm

/-- `remove` drops the entries of a content on every backend, in whatever order the map lists
its keys -/
theorem remove_spec (H : Indexed r) (x : ContentHash) :
    Indexed (r.remove x) ∧
    ∀ h b, (r.remove x).getOn h b = if x = h then none else r.getOn h b := by
  obtain ⟨hw, hg⟩ := removeAll_spec (r.byHash.keys.filter (fun i => decide (i.1 = x))) r H
  refine ⟨hw, fun h b => (hg h b).trans ?_⟩
  have hmem : (h, b) ∈ r.byHash.keys.filter (fun i => decide (i.1 = x)) ↔
      (∃ e, r.getOn h b = some e) ∧ h = x := by
    rw [List.mem_filter, decide_eq_true_eq, Assoc.mem_keys]
    rfl
  by_cases hx : x = h
  · rw [if_pos hx]
    split
    · rfl
    · next hno =>
      cases he : r.getOn h b with
      | none => rfl
      | some e => exact absurd (hmem.mpr ⟨⟨e, he⟩, hx.symm⟩) hno
  · rw [if_neg hx, if_neg]
    intro hm
    exact hx (hmem.mp hm).2.symm

/-- a count that changes: the entry keeps its place in both maps -/
def recount (h : ContentHash) (b : String) (e : DedupEntry) (n : Nat) (r : DedupRegistry) :
    DedupRegistry := { r with byHash := r.byHash.put (h, b) { e with refCount := n } }

theorem getOn_recount {e : DedupEntry} {n : Nat} :
    (r.recount h b e n).getOn h' b' =
      if (h, b) = (h', b') then some { e with refCount := n } else r.getOn h' b' :=
  Assoc.get_put _ _ _ _

theorem Indexed.recount (H : Indexed r) {e : DedupEntry} (he : r.getOn h b = some e) (n : Nat) :
    Indexed (r.recount h b e n) := by
  constructor
  · intro h' b' x hx
    rw [getOn_recount] at hx
    split at hx
    · next hi =>
      obtain ⟨rfl, rfl⟩ := Prod.mk.inj hi
      cases hx
      exact H.filed h b e he
    · exact H.filed _ _ _ hx
  · intro b' k h'
    show r.byKey.get (b', k) = some h' ↔ _
    rw [H.inverse, getOn_recount]
    by_cases hi : (h, b) = (h', b')
    · obtain ⟨rfl, rfl⟩ := Prod.mk.inj hi
      rw [if_pos rfl]
      constructor
      · intro hx
        obtain ⟨x, hx, hk⟩ := hx
        rw [he] at hx
        cases hx
        exact ⟨_, rfl, hk⟩
      · intro hx
        obtain ⟨x, hx, hk⟩ := hx
        cases hx
        exact ⟨e, he, hk⟩
    · rw [if_neg hi]

theorem acquireOn_cases (h : ContentHash) (b : String) (r : DedupRegistry) :
    ((∃ err, (r.acquireOn h b).1 = .error err) ∧ (r.acquireOn h b).2 = r ∧
      ∀ e, r.getOn h b = some e → 2 ^ 64 ≤ e.refCount + 1) ∨
    (∃ e, r.getOn h b = some e ∧ (r.acquireOn h b).1 = .ok () ∧
      (r.acquireOn h b).2 = r.recount h b e (e.refCount + 1)) := by
  unfold acquireOn
  cases he : r.byHash.get (h, b) with
  | none => exact Or.inl ⟨⟨_, rfl⟩, rfl, fun e hx => by rw [getOn, he] at hx; cases hx⟩
  | some e =>
    simp only
    split
    · exact Or.inr ⟨e, he, rfl, rfl⟩
    · next hlt =>
      refine Or.inl ⟨⟨_, rfl⟩, rfl, ?_⟩
      intro x hx
      rw [getOn, he] at hx
      cases hx
      omega

theorem releaseOn_cases (h : ContentHash) (b : String) (r : DedupRegistry) :
    ((∃ err, (r.releaseOn h b).1 = .error err) ∧ (r.releaseOn h b).2 = r) ∨
    (∃ e, r.getOn h b = some e ∧ e.refCount ≠ 0 ∧
      (r.releaseOn h b).1 = .ok (decide (e.refCount - 1 = 0)) ∧
      (r.releaseOn h b).2 = r.recount h b e (e.refCount - 1)) := by
  unfold releaseOn
  cases he : r.byHash.get (h, b) with
  | none => exact Or.inl ⟨⟨_, rfl⟩, rfl⟩
  | some e =>
    simp only
    split
    · exact Or.inl ⟨⟨_, rfl⟩, rfl⟩
    · next h0 => exact Or.inr ⟨e, he, h0, rfl, rfl⟩

/-! ## what one call does to one entry -/

/-- how a call moves the entry of `h` on `b` -/
inductive Effect (h : ContentHash) (b : String) (x : Event) (r' : DedupRegistry) : Prop where
  | gone (hr' : r'.getOn h b = none)
  | same (hr' : r'.getOn h b = x.before.getOn h b) (hi : ¬ x.Inserts h b) (hg : ¬ x.Grants h b)
  | inserted (e : DedupEntry) (hr' : r'.getOn h b = some e) (he : e.refCount ≠ 0)
      (hi : x.Inserts h b)
  | acquired (e : DedupEntry) (hx : x.call = .acquireOn h b) (he : x.before.getOn h b = some e)
      (hr' : r'.getOn h b = some { e with refCount := e.refCount + 1 })
  | released (e : DedupEntry) (hx : x.call = .releaseOn h b) (he : x.before.getOn h b = some e)
      (h0 : e.refCount ≠ 0) (ha : x.answer = .ok (decide (e.refCount - 1 = 0)))
      (hr' : r'.getOn h b = some { e with refCount := e.refCount - 1 })

def Call.event (c : Call) (r : DedupRegistry) : Event := ⟨c, r, (c.exec r).1⟩

theorem Effect.exec (H : Indexed r) (c : Call) (h : ContentHash) (b : String) :
    Effect h b (c.event r) (c.exec r).2 := by
  cases c with
  | insert e =>
    rcases insert_cases e r with hc | hc
    · obtain ⟨⟨err, herr⟩, hr⟩ := hc
      refine .same (by show (r.insert e).2.getOn h b = _; rw [hr]; rfl) ?_ nofun
      intro hi
      obtain ⟨_, -, hok, -⟩ := hi
      have hbad : ((r.insert e).1.map (fun _ => false)).isOk = true := hok
      rw [herr] at hbad
      cases hbad
    · obtain ⟨hok, h0, -⟩ := hc
      have hget := getOn_insert (h := h) (b := b) hok
      by_cases hi : (e.contentHash, e.backend) = (h, b)
      · obtain ⟨rfl, rfl⟩ := Prod.mk.inj hi
        rw [if_pos rfl] at hget
        refine .inserted e hget h0 ⟨e, rfl, ?_, rfl, rfl⟩
        show ((r.insert e).1.map (fun _ => false)).isOk = true
        rw [hok]
        rfl
      · rw [if_neg hi] at hget
        refine .same hget ?_ nofun
        intro hins
        obtain ⟨e', he', -, hh, hb⟩ := hins
        cases he'
        exact hi (by rw [hh, hb])
  | acquireOn h' b' =>
    rcases acquireOn_cases h' b' r with hc | hc
    · exact .same (by show (r.acquireOn h' b').2.getOn h b = _; rw [hc.2.1]; rfl) nofun nofun
    · obtain ⟨e, he, -, hr⟩ := hc
      have hget : (r.acquireOn h' b').2.getOn h b = if (h', b') = (h, b) then
          some { e with refCount := e.refCount + 1 } else r.getOn h b := by
        rw [hr]
        exact getOn_recount
      by_cases hi : (h', b') = (h, b)
      · obtain ⟨rfl, rfl⟩ := Prod.mk.inj hi
        rw [if_pos rfl] at hget
        exact .acquired e rfl he hget
      · rw [if_neg hi] at hget
        exact .same hget nofun nofun
  | releaseOn h' b' =>
    rcases releaseOn_cases h' b' r with hc | hc
    · obtain ⟨⟨err, herr⟩, hr⟩ := hc
      refine .same (by show (r.releaseOn h' b').2.getOn h b = _; rw [hr]; rfl) nofun ?_
      intro hg
      have hbad : (r.releaseOn h' b').1 = .ok true := hg.2
      rw [herr] at hbad
      cases hbad
    · obtain ⟨e, he, h0, ha, hr⟩ := hc
      have hget : (r.releaseOn h' b').2.getOn h b = if (h', b') = (h, b) then
          some { e with refCount := e.refCount - 1 } else r.getOn h b := by
        rw [hr]
        exact getOn_recount
      by_cases hi : (h', b') = (h, b)
      · obtain ⟨rfl, rfl⟩ := Prod.mk.inj hi
        rw [if_pos rfl] at hget
        exact .released e rfl he h0 ha hget
      · rw [if_neg hi] at hget
        refine .same hget nofun ?_
        intro hg
        have hcall : Call.releaseOn h' b' = .releaseOn h b := hg.1
        injection hcall with h1 h2
        exact hi (by rw [h1, h2])
  | remove h' =>
    have hget := (remove_spec H h').2 h b
    by_cases hi : h' = h
    · rw [if_pos hi] at hget
      exact .gone hget
    · rw [if_neg hi] at hget
      exact .same hget nofun nofun
  | removeOn h' b' =>
    have hget : (r.removeOn h' b').getOn h b = _ := getOn_removeOn
    by_cases hi : (h', b') = (h, b)
    · rw [if_pos hi] at hget
      exact .gone hget
    · rw [if_neg hi] at hget
      exact .same hget nofun nofun

theorem Indexed.exec (H : Indexed r) (c : Call) : Indexed (c.exec r).2 := by
  cases c with
  | insert e => exact H.insert e
  | acquireOn h b =>
    show Indexed (r.acquireOn h b).2
    rcases acquireOn_cases h b r with hc | hc
    · rw [hc.2.1]
      exact H
    · obtain ⟨e, he, -, hr⟩ := hc
      rw [hr]
      exact H.recount he _
  | releaseOn h b =>
    show Indexed (r.releaseOn h b).2
    rcases releaseOn_cases h b r with hc | hc
    · rw [hc.2]
      exact H
    · obtain ⟨e, he, -, -, hr⟩ := hc
      rw [hr]
      exact H.recount he _
  | remove h => exact (remove_spec H h).1
  | removeOn h b => exact H.removeOn h b

/-! ## runs -/

variable {l : List Event} {x : Event}

theorem granted_snoc :
    Granted h b (l ++ [x]) ↔ x.Grants h b ∨ (Granted h b l ∧ ¬ x.Inserts h b) := by
  constructor
  · intro hg
    obtain ⟨past, y, since, hl, hy, hs⟩ := hg
    rcases List.eq_nil_or_concat since with rfl | ⟨since', z, rfl⟩
    · obtain ⟨-, hx⟩ := List.append_inj' hl rfl
      exact Or.inl (List.singleton_inj.mp hx ▸ hy)
    · have hl' : l ++ [x] = (past ++ y :: since') ++ [z] := by
        rw [hl, List.concat_eq_append, List.append_assoc, List.cons_append]
      obtain ⟨hp, hx⟩ := List.append_inj' hl' rfl
      have hxz := List.singleton_inj.mp hx
      rw [List.concat_eq_append] at hs
      refine Or.inr ⟨⟨past, y, since', hp, hy, fun w hw => hs w ?_⟩, ?_⟩
      · exact List.mem_append_left _ hw
      · rw [hxz]
        exact hs z (List.mem_append_right _ List.mem_cons_self)
  · intro hg
    rcases hg with hg | hg
    · exact ⟨l, x, [], rfl, hg, fun y hy => absurd hy List.not_mem_nil⟩
    · obtain ⟨⟨past, y, since, rfl, hy, hs⟩, hx⟩ := hg
      refine ⟨past, y, since ++ [x], by rw [List.append_assoc, List.cons_append], hy, ?_⟩
      intro z hz
      rcases List.mem_append.mp hz with hz | hz
      · exact hs z hz
      · rw [List.mem_singleton.mp hz]
        exact hx

theorem grantsFinal_snoc :
    GrantsFinal (l ++ [x]) ↔ GrantsFinal l ∧
      ∀ h b, x.call = .acquireOn h b → Granted h b l → x.answer.isOk = false := by
  constructor
  · intro hf
    refine ⟨?_, fun h b => hf l x [] h b rfl⟩
    intro past y rest h b hl
    exact hf past y (rest ++ [x]) h b (by rw [hl, List.append_assoc, List.cons_append])
  · intro hf past y rest h b hl hy hg
    rcases List.eq_nil_or_concat rest with rfl | ⟨rest', z, rfl⟩
    · obtain ⟨rfl, hx⟩ := List.append_inj' hl rfl
      obtain rfl := List.singleton_inj.mp hx
      exact hf.2 h b hy hg
    · have hl' : l ++ [x] = (past ++ y :: rest') ++ [z] := by
        rw [hl, List.concat_eq_append, List.append_assoc, List.cons_append]
      exact hf.1 past y rest' h b (List.append_inj' hl' rfl).1 hy hg

/-- what the registry at the end knows of the grants before it -/
structure Witnessed (l : List Event) (r : DedupRegistry) : Prop where
  indexed : Indexed r
  /-- an entry without references is one whose payload was given up -/
  granted : ∀ h b e, r.getOn h b = some e → e.refCount = 0 → Granted h b l
  /-- and it stays so as long as no acquisition finds one -/
  kept : Referenced l → ∀ h b, Granted h b l → ∀ e, r.getOn h b = some e → e.refCount = 0

theorem Witnessed.step (W : Witnessed l r) (c : Call) :
    Witnessed (l ++ [c.event r]) (c.exec r).2 := by
  refine ⟨W.indexed.exec c, ?_, ?_⟩
  · intro h b e he h0
    rw [granted_snoc]
    cases Effect.exec W.indexed c h b with
    | gone hr' => rw [hr'] at he; cases he
    | same hr' hi _ => exact Or.inr ⟨W.granted h b e (hr' ▸ he) h0, hi⟩
    | inserted e' hr' hne _ =>
      rw [hr'] at he
      cases he
      exact absurd h0 hne
    | acquired e' _ _ hr' =>
      rw [hr'] at he
      cases he
      exact absurd h0 (Nat.succ_ne_zero _)
    | released e' hx _ _ ha hr' =>
      rw [hr'] at he
      cases he
      have hz : e'.refCount - 1 = 0 := h0
      exact Or.inl ⟨hx, by rw [ha, decide_eq_true hz]⟩
  · intro href h b hg e he
    have hl : Referenced l := fun y hy => href y (List.mem_append_left _ hy)
    have hlast := href (c.event r) (List.mem_append_right _ List.mem_cons_self)
    cases Effect.exec W.indexed c h b with
    | gone hr' => rw [hr'] at he; cases he
    | same hr' _ hno =>
      rcases granted_snoc.mp hg with hg | hg
      · exact absurd hg hno
      · exact W.kept hl h b hg.1 e (hr' ▸ he)
    | inserted e' _ _ hi =>
      rcases granted_snoc.mp hg with hg | hg
      · obtain ⟨y, hy, -⟩ := hi
        rw [hg.1] at hy
        cases hy
      · exact absurd hi hg.2
    | acquired e' hx hb hr' =>
      -- the entry had references, so its payload was not given up
      rcases granted_snoc.mp hg with hg | hg
      · rw [hg.1] at hx
        cases hx
      · exact absurd (W.kept hl h b hg.1 e' hb) (hlast h b e' hx hb)
    | released e' hx hb h0 ha hr' =>
      rw [hr'] at he
      cases he
      rcases granted_snoc.mp hg with hg | hg
      · have hd := hg.2
        rw [ha] at hd
        exact of_decide_eq_true (Except.ok.inj hd)
      · exact absurd (W.kept hl h b hg.1 e' hb) h0

theorem played_witnessed (cs : List Call) : Witnessed (played cs).1 (played cs).2 := by
  induction cs using List.reverseRecOn with
  | nil =>
    refine ⟨Indexed.new, nofun, ?_⟩
    intro _ h b hg
    obtain ⟨past, x, since, hl, -⟩ := hg
    have hne : past ++ x :: since ≠ [] := by simp
    exact absurd hl.symm hne
  | append_singleton cs c ih =>
    rw [played_snoc]
    exact ih.step c

/-- an acquisition fails on an entry without references only if there is no entry -/
theorem acquire_answers (W : Witnessed l r) (href : Referenced l) (c : Call) :
    (∀ h b, (c.event r).call = .acquireOn h b → Granted h b l →
      (c.event r).answer.isOk = false) ↔
    ∀ h b e, (c.event r).call = .acquireOn h b → r.getOn h b = some e → e.refCount ≠ 0 := by
  constructor
  · intro hf h b e hc he h0
    have hbad := hf h b hc (W.granted h b e he h0)
    obtain rfl : c = .acquireOn h b := hc
    rcases acquireOn_cases h b r with ha | ha
    · have := ha.2.2 e he
      omega
    · obtain ⟨_, -, hok, -⟩ := ha
      have hbad' : ((r.acquireOn h b).1.map (fun _ => false)).isOk = false := hbad
      rw [hok] at hbad'
      cases hbad'
  · intro hr h b hc hg
    obtain rfl : c = .acquireOn h b := hc
    show ((r.acquireOn h b).1.map (fun _ => false)).isOk = false
    rcases acquireOn_cases h b r with ha | ha
    · obtain ⟨⟨err, herr⟩, -⟩ := ha
      rw [herr]
      rfl
    · obtain ⟨e, he, -⟩ := ha
      exact absurd (W.kept href h b hg e he) (hr h b e rfl he)

/-- the grants of a run are final exactly when no acquisition finds an entry without
references -/
theorem grantsFinal_iff (cs : List Call) :
    GrantsFinal (played cs).1 ↔ Referenced (played cs).1 := by
  induction cs using List.reverseRecOn with
  | nil =>
    constructor
    · intro _ x hx
      cases hx
    · intro _ past x rest h b hl
      have hne : past ++ x :: rest ≠ [] := by simp
      exact absurd hl.symm hne
  | append_singleton cs c ih =>
    rw [played_snoc]
    show GrantsFinal ((played cs).1 ++ [c.event (played cs).2]) ↔
      Referenced ((played cs).1 ++ [c.event (played cs).2])
    have W := played_witnessed cs
    rw [grantsFinal_snoc, ih]
    constructor
    · intro hf y hy
      rcases List.mem_append.mp hy with hy | hy
      · exact hf.1 y hy
      · rw [List.mem_singleton.mp hy]
        exact (acquire_answers W hf.1 c).mp hf.2
    · intro hr
      have hl : Referenced (played cs).1 := fun y hy => hr y (List.mem_append_left _ hy)
      exact ⟨hl, (acquire_answers W hl c).mpr
        (hr _ (List.mem_append_right _ List.mem_cons_self))⟩

/-- Over every sequence of calls on a fresh registry the index from physical keys stays the
inverse of the map, so no physical key has two contents; and the deletion grants are final
exactly when no `acquire_on` is called on an entry whose count is zero. -/
theorem dedup_grants_final_iff (cs : List Call) :
    Indexed (played cs).2 ∧
    (∀ h h' b e e', (played cs).2.getOn h b = some e → (played cs).2.getOn h' b = some e' →
      e.key = e'.key → h = h') ∧
    (GrantsFinal (played cs).1 ↔ Referenced (played cs).1) :=
  have W := played_witnessed cs
  ⟨W.indexed, fun _ _ _ _ _ he he' hk => W.indexed.unique he he' hk, grantsFinal_iff cs⟩

/-- one insert, the last release, and an acquisition that brings the entry back -/
def revival : List Call :=
  [.insert ⟨⟨7⟩, "mem", "dedup-1", 1, 14⟩, .releaseOn ⟨7⟩ "mem", .acquireOn ⟨7⟩ "mem"]

theorem dedup_grant_revoked : ¬ ∀ cs, GrantsFinal (played cs).1 := by
  intro hf
  have hzero := (grantsFinal_iff revival).mp (hf revival)
  obtain ⟨x, hx, hc, hb⟩ : ∃ x ∈ (played revival).1, x.call = .acquireOn ⟨7⟩ "mem" ∧
      x.before.getOn ⟨7⟩ "mem" = some ⟨⟨7⟩, "mem", "dedup-1", 0, 14⟩ :=
    ⟨_, List.mem_cons_of_mem _ (List.mem_cons_of_mem _ List.mem_cons_self), rfl, rfl⟩
  exact hzero x hx _ _ _ hc hb rfl

end DedupRegistry

/-! ## the store's own law -/

/-- a row that the store released for the last time is not acquired again -/
theorem Store.dedupAcquire_after_release {s s' : Store} {h : ContentHash} {b : String}
    (hr : s.dedupRelease h b = .ok (true, s')) : ∃ err, s'.dedupAcquire h b = .error err := by
  obtain ⟨e, -, -, hlast, T, hT, hfind⟩ := Store.dedupRelease_ok hr
  have h1 : e.refCount = 1 := of_decide_eq_true hlast.symm
  have hnone : s'.dedup.find? (h, b) = none := by
    have hs : s'.dedup = T := congrArg (fun d => d.dedup) hT
    rw [hs, hfind, if_pos rfl, if_pos h1]
  rw [Store.dedupAcquire, hnone]
  exact ⟨_, rfl⟩

end ReclaimFabric
