import ReclaimFabric.Lineage.Validate

/-!
# Graphs that are built

What the operations of `lineage.rs` keep.  A graph is built from the empty one by registering
objects and adding and removing edges, in any order and with any arguments, whether the calls are
refused or not.

* `Index.Filed`        an index whose edges lie under their own keys; what `push` and `retain` do
                       to such an index;
* `WellFormed.addEdge`, `WellFormed.removeEdge`, `WellFormed.addObject`
                       one step keeps the graph well-formed;
* `addEdge_error`      when an edge is refused;
* `build_exact`        every graph that is built is well-formed and validates, and an edge is
                       refused exactly when it is no edge of a graph without cycles.
-/

namespace ReclaimFabric

namespace Lineage

/-! ## filed indexes -/

namespace Index

/-- every edge is filed under its own key -/
def Filed (key : LineageEdge → Uuid) (I : Index) : Prop := ∀ x, ∀ e ∈ I.bucket x, key e = x

variable {I : Index} {key : LineageEdge → Uuid} {x : Uuid} {e e' : LineageEdge}
  {keep : LineageEdge → Bool}

theorem Filed.mem_edges (h : Filed key I) : e ∈ I.edges ↔ e ∈ I.bucket (key e) := by
  rw [Index.mem_edges]
  constructor
  · rintro ⟨y, hy⟩
    rw [h y e hy]
    exact hy
  · exact fun he => ⟨key e, he⟩

/-- the buckets of a filed index share no edge -/
theorem Filed.nodup_edges (h : Filed key I) : I.edges.Nodup ↔ ∀ y, (I.bucket y).Nodup := by
  rw [edges, List.nodup_flatMap]
  constructor
  · rintro ⟨hb, -⟩ y
    cases hg : I.get y with
    | none => simp [bucket, hg]
    | some es =>
      rw [bucket, hg, Option.getD_some]
      exact hb (y, es) (get_eq_some.mp hg)
  · intro hb
    refine ⟨fun r hr => ?_, ?_⟩
    · rw [← mem_rows_bucket hr]
      exact hb r.1
    · refine (List.pairwise_map.mp I.nodup).imp_of_mem ?_
      intro r s hr hs hne
      show List.Disjoint r.2 s.2
      intro a har has
      have h₁ := h r.1 a (mem_bucket.mpr ⟨r.2, hr, har⟩)
      have h₂ := h s.1 a (mem_bucket.mpr ⟨s.2, hs, has⟩)
      exact hne (h₁.symm.trans h₂)

theorem Filed.push (h : Filed key I) (hx : key e = x) : Filed key (I.push x e) := by
  intro y a ha
  rw [bucket_push, List.mem_append] at ha
  rcases ha with ha | ha
  · exact h y a ha
  · by_cases hxy : x = y
    · rw [if_pos hxy, List.mem_singleton] at ha
      rw [ha, hx, hxy]
    · rw [if_neg hxy] at ha
      exact absurd ha List.not_mem_nil

theorem Filed.mem_push (h : Filed key I) (hx : key e = x) :
    e' ∈ (I.push x e).edges ↔ e' ∈ I.edges ∨ e' = e := by
  rw [(h.push hx).mem_edges, h.mem_edges, bucket_push, List.mem_append]
  refine or_congr_right ⟨fun ha => ?_, ?_⟩
  · by_cases hk : x = key e'
    · rw [if_pos hk] at ha
      exact List.mem_singleton.mp ha
    · rw [if_neg hk] at ha
      exact absurd ha List.not_mem_nil
  · rintro rfl
    rw [if_pos hx.symm]
    exact List.mem_singleton_self _

theorem Filed.nodup_push (h : Filed key I) (hx : key e = x) (hn : I.edges.Nodup)
    (he : e ∉ I.edges) : (I.push x e).edges.Nodup := by
  rw [(h.push hx).nodup_edges]
  rw [h.nodup_edges] at hn
  intro y
  rw [bucket_push]
  by_cases hxy : x = y
  · rw [if_pos hxy, List.nodup_append]
    refine ⟨hn y, List.nodup_singleton e, ?_⟩
    intro a ha b hb hab
    rw [List.mem_singleton] at hb
    rw [hab, hb] at ha
    exact he (Index.mem_edges.mpr ⟨y, ha⟩)
  · rw [if_neg hxy, List.append_nil]
    exact hn y

theorem Filed.retain (h : Filed key I) : Filed key (I.retain x keep) := by
  intro y a ha
  rw [bucket_retain] at ha
  by_cases hxy : x = y
  · rw [if_pos hxy] at ha
    exact h y a (List.mem_filter.mp ha).1
  · rw [if_neg hxy] at ha
    exact h y a ha

theorem Filed.mem_retain (h : Filed key I) :
    e ∈ (I.retain x keep).edges ↔ e ∈ I.edges ∧ (key e = x → keep e = true) := by
  rw [h.retain.mem_edges, h.mem_edges, bucket_retain]
  by_cases hk : x = key e
  · rw [if_pos hk, List.mem_filter]
    exact and_congr_right fun _ => ⟨fun hke _ => hke, fun hke => hke hk.symm⟩
  · rw [if_neg hk]
    exact ⟨fun he => ⟨he, fun hke => absurd hke.symm hk⟩, And.left⟩

theorem Filed.nodup_retain (h : Filed key I) (hn : I.edges.Nodup) :
    (I.retain x keep).edges.Nodup := by
  rw [h.retain.nodup_edges]
  rw [h.nodup_edges] at hn
  intro y
  rw [bucket_retain]
  by_cases hxy : x = y
  · rw [if_pos hxy]
    exact (hn y).filter _
  · rw [if_neg hxy]
    exact hn y

end Index

namespace LineageGraph

variable {g : LineageGraph} {parent child x y : Uuid} {kind : EdgeKind} {e : LineageEdge}

/-! ## objects -/

theorem registered_addObject : (g.addObject x).Registered y ↔ y = x ∨ g.Registered y := by
  unfold addObject Registered
  cases h : g.objectIds.insert? x with
  | none =>
    have hx : x ∈ g.objectIds.rows := by
      by_contra hno
      refine Table.insert?_eq_none h (Table.find?_eq_none.mpr fun r hr hk => ?_)
      rw [show r = x from hk] at hr
      exact hno hr
    rw [Option.getD_none]
    refine ⟨.inr, ?_⟩
    rintro (rfl | hy)
    · exact hx
    · exact hy
  | some T =>
    rw [Option.getD_some, (Table.insert?_eq_some h).2, List.mem_append, List.mem_singleton,
      Or.comm]

theorem WellFormed.addObject (h : g.WellFormed) (x : Uuid) : (g.addObject x).WellFormed where
  keys := fun y hy => registered_addObject.mpr (.inr (h.keys y hy))
  endpoints := fun e he =>
    ⟨registered_addObject.mpr (.inr (h.endpoints e he).1),
      registered_addObject.mpr (.inr (h.endpoints e he).2)⟩
  filedParents := h.filedParents
  filedChildren := h.filedChildren
  nodupParents := h.nodupParents
  nodupChildren := h.nodupChildren
  same := h.same
  acyclic := h.acyclic

theorem default_wellFormed : default.WellFormed where
  keys := fun _ h => by rcases h with h | h <;> cases h
  endpoints := fun _ h => by rcases h with h | h <;> cases h
  filedParents := fun _ _ he => absurd he List.not_mem_nil
  filedChildren := fun _ _ he => absurd he List.not_mem_nil
  nodupParents := List.nodup_nil
  nodupChildren := List.nodup_nil
  same := fun _ => Iff.rfl
  acyclic := by
    intro x hx
    obtain ⟨y, ⟨e, he, -⟩, -⟩ := Relation.TransGen.head'_iff.mp hx
    exact absurd he List.not_mem_nil

/-! ## removing an edge -/

theorem mem_removeEdge (h : Indexed g) :
    (e ∈ (g.removeEdge parent child kind).parents.edges ↔
      e ∈ g.parents.edges ∧ e ≠ ⟨parent, child, kind⟩) ∧
    (e ∈ (g.removeEdge parent child kind).children.edges ↔
      e ∈ g.children.edges ∧ e ≠ ⟨parent, child, kind⟩) := by
  obtain ⟨p, c, k⟩ := e
  have hp : Index.Filed LineageEdge.parent g.parents := h.filedParents
  have hc : Index.Filed LineageEdge.child g.children := h.filedChildren
  constructor
  · rw [removeEdge, hp.mem_retain]
    refine and_congr_right fun _ => ?_
    simp only [Bool.not_eq_true', Bool.and_eq_false_imp, decide_eq_true_eq, decide_eq_false_iff_not,
      ne_eq, LineageEdge.mk.injEq, not_and]
  · rw [removeEdge, hc.mem_retain]
    refine and_congr_right fun _ => ?_
    simp only [Bool.not_eq_true', Bool.and_eq_false_imp, decide_eq_true_eq, decide_eq_false_iff_not,
      ne_eq, LineageEdge.mk.injEq, not_and]
    exact ⟨fun hk hpp hcc => hk hcc hpp, fun hk hcc hpp => hk hpp hcc⟩

theorem WellFormed.removeEdge (h : g.WellFormed) (parent child : Uuid) (kind : EdgeKind) :
    (g.removeEdge parent child kind).WellFormed where
  keys := fun x hx => h.keys x (hx.imp Index.hasKey_retain.mp Index.hasKey_retain.mp)
  endpoints := fun e he => h.endpoints e (he.imp
    (fun he => ((mem_removeEdge h.toIndexed).1.mp he).1)
    fun he => ((mem_removeEdge h.toIndexed).2.mp he).1)
  filedParents := Index.Filed.retain h.filedParents
  filedChildren := Index.Filed.retain h.filedChildren
  nodupParents := Index.Filed.nodup_retain h.filedParents h.nodupParents
  nodupChildren := Index.Filed.nodup_retain h.filedChildren h.nodupChildren
  same := fun e => by
    rw [(mem_removeEdge h.toIndexed).1, (mem_removeEdge h.toIndexed).2, h.same]
  acyclic := h.acyclic.mono fun a b ⟨e, he, hab⟩ =>
    ⟨e, ((mem_removeEdge h.toIndexed).1.mp he).1, hab⟩

/-! ## adding an edge -/

/-- the idempotence test looks for the edge itself -/
theorem any_bucket_iff (h : Indexed g) :
    (g.parents.bucket parent).any (fun e => e.child = child && e.kind = kind) = true ↔
      (⟨parent, child, kind⟩ : LineageEdge) ∈ g.parents.edges := by
  have hp : Index.Filed LineageEdge.parent g.parents := h.filedParents
  rw [hp.mem_edges, List.any_eq_true]
  constructor
  · rintro ⟨⟨p, c, k⟩, he, hk⟩
    have hpar : p = parent := h.filedParents parent _ he
    have hck : c = child ∧ k = kind := by simpa using hk
    rw [hpar, hck.1, hck.2] at he
    exact he
  · exact fun he => ⟨_, he, by simp⟩

theorem edge_eq_joined (h : Indexed g) : g.Edge = Joined g.parents.edges := by
  funext a b
  rw [← joined_iff h, mem_childIds]

/-- the four ways `addEdge` can end -/
theorem addEdge_cases (h : Indexed g) (parent child : Uuid) (kind : EdgeKind) :
    ((∃ err, g.addEdge parent child kind = (g, .error err)) ∧
      (parent = child ∨ ¬g.Registered parent ∨ ¬g.Registered child ∨
        (⟨parent, child, kind⟩ : LineageEdge) ∉ g.parents.edges ∧
          Relation.ReflTransGen (Joined g.parents.edges) child parent)) ∨
    (g.addEdge parent child kind = (g, .ok ()) ∧ parent ≠ child ∧ g.Registered parent ∧
      g.Registered child ∧ (⟨parent, child, kind⟩ : LineageEdge) ∈ g.parents.edges) ∨
    (g.addEdge parent child kind = ({ g with
        parents := g.parents.push parent ⟨parent, child, kind⟩
        children := g.children.push child ⟨parent, child, kind⟩ }, .ok ()) ∧
      parent ≠ child ∧ g.Registered parent ∧ g.Registered child ∧
      (⟨parent, child, kind⟩ : LineageEdge) ∉ g.parents.edges ∧
      ¬Relation.ReflTransGen (Joined g.parents.edges) child parent) := by
  unfold addEdge
  by_cases hself : parent = child
  · rw [if_pos hself]
    exact .inl ⟨⟨_, rfl⟩, .inl hself⟩
  rw [if_neg hself]
  by_cases hreg : ¬g.Registered parent ∨ ¬g.Registered child
  · rw [if_pos hreg]
    exact .inl ⟨⟨_, rfl⟩, .inr (hreg.imp_right .inl)⟩
  rw [if_neg hreg]
  rw [not_or, not_not, not_not] at hreg
  by_cases hany : (g.parents.bucket parent).any (fun e => e.child = child && e.kind = kind) = true
  · rw [if_pos hany]
    exact .inr (.inl ⟨rfl, hself, hreg.1, hreg.2, (any_bucket_iff h).mp hany⟩)
  rw [if_neg hany]
  have hnew := mt (any_bucket_iff h).mpr hany
  have hiff := reaches_iff (g := g) (a := child) (b := parent)
  rw [edge_eq_joined h] at hiff
  by_cases hreach : g.reaches child parent = true
  · rw [if_pos hreach]
    exact .inl ⟨⟨_, rfl⟩, .inr (.inr (.inr ⟨hnew, hiff.mp hreach⟩))⟩
  · rw [if_neg hreach]
    exact .inr (.inr ⟨rfl, hself, hreg.1, hreg.2, hnew, mt hiff.mpr hreach⟩)

/-- an edge between the same nodes, or none -/
theorem joined_insert {edges edges' : List LineageEdge}
    (hmem : ∀ e, e ∈ edges' ↔ e ∈ edges ∨ e = ⟨parent, child, kind⟩) (a b : Uuid) :
    Joined edges' a b ↔ Joined edges a b ∨ (a = parent ∧ b = child) := by
  constructor
  · rintro ⟨e, he, rfl, rfl⟩
    rcases (hmem e).mp he with he | rfl
    · exact .inl ⟨e, he, rfl, rfl⟩
    · exact .inr ⟨rfl, rfl⟩
  · rintro (⟨e, he, rfl, rfl⟩ | ⟨rfl, rfl⟩)
    · exact ⟨e, (hmem e).mpr (.inl he), rfl, rfl⟩
    · exact ⟨_, (hmem _).mpr (.inr rfl), rfl, rfl⟩

/-- an edge that is accepted is in both indexes afterwards, with the edges that were there -/
theorem addEdge_ok (h : Indexed g) (hok : (g.addEdge parent child kind).2 = .ok ()) :
    (∀ e, e ∈ (g.addEdge parent child kind).1.parents.edges ↔
      e ∈ g.parents.edges ∨ e = ⟨parent, child, kind⟩) ∧
    (∀ e, e ∈ (g.addEdge parent child kind).1.children.edges ↔
      e ∈ g.children.edges ∨ e = ⟨parent, child, kind⟩) ∧
    (g.addEdge parent child kind).1.objectIds = g.objectIds := by
  have hold (e₀ : LineageEdge) (l : List LineageEdge) (hm : e₀ ∈ l) (e : LineageEdge) :
      e ∈ l ↔ e ∈ l ∨ e = e₀ := by
    refine ⟨.inl, ?_⟩
    rintro (he | rfl)
    · exact he
    · exact hm
  rcases addEdge_cases h parent child kind with ⟨⟨err, heq⟩, -⟩ | ⟨heq, -, -, -, hin⟩ | ⟨heq, -⟩
  · rw [heq] at hok
    cases hok
  · rw [heq]
    exact ⟨hold _ _ hin, hold _ _ ((h.same _).mp hin), rfl⟩
  · rw [heq]
    have hp : Index.Filed LineageEdge.parent g.parents := h.filedParents
    have hc : Index.Filed LineageEdge.child g.children := h.filedChildren
    exact ⟨fun e => hp.mem_push rfl, fun e => hc.mem_push rfl, rfl⟩

/-- an edge is refused when it is a loop, when an endpoint is missing, or when it would close a
cycle -/
theorem addEdge_error (h : Indexed g) :
    (∃ err, (g.addEdge parent child kind).2 = .error err) ↔
      parent = child ∨ ¬g.Registered parent ∨ ¬g.Registered child ∨
        (⟨parent, child, kind⟩ : LineageEdge) ∉ g.parents.edges ∧
          Relation.ReflTransGen (Joined g.parents.edges) child parent := by
  rcases addEdge_cases h parent child kind with ⟨⟨err, heq⟩, hbad⟩ | ⟨heq, hne, hp, hc, hin⟩ |
    ⟨heq, hne, hp, hc, hnew, hno⟩
  · rw [heq]
    exact ⟨fun _ => hbad, fun _ => ⟨err, rfl⟩⟩
  · rw [heq]
    constructor
    · rintro ⟨err, he⟩
      cases he
    · rintro (he | he | he | he)
      · exact absurd he hne
      · exact absurd hp he
      · exact absurd hc he
      · exact absurd hin he.1
  · rw [heq]
    constructor
    · rintro ⟨err, he⟩
      cases he
    · rintro (he | he | he | he)
      · exact absurd he hne
      · exact absurd hp he
      · exact absurd hc he
      · exact absurd he.2 hno

theorem WellFormed.addEdge (h : g.WellFormed) (parent child : Uuid) (kind : EdgeKind) :
    (g.addEdge parent child kind).1.WellFormed := by
  rcases addEdge_cases h.toIndexed parent child kind with ⟨⟨err, heq⟩, -⟩ | ⟨heq, -⟩ |
    ⟨heq, hne, hp, hc, hnew, hno⟩
  · rw [heq]
    exact h
  · rw [heq]
    exact h
  · have hok : (g.addEdge parent child kind).2 = .ok () := by rw [heq]
    obtain ⟨hpar, hchild, -⟩ := addEdge_ok h.toIndexed hok
    have hacyc : Kahn.Acyclic (Joined (g.addEdge parent child kind).1.parents.edges) :=
      (h.acyclic.insert_iff (joined_insert hpar)).mpr hno
    have hends (e : LineageEdge)
        (he : (e ∈ g.parents.edges ∨ e = ⟨parent, child, kind⟩) ∨
          (e ∈ g.children.edges ∨ e = ⟨parent, child, kind⟩)) :
        g.Registered e.parent ∧ g.Registered e.child := by
      rcases he with (he | rfl) | (he | rfl)
      · exact h.endpoints e (.inl he)
      · exact ⟨hp, hc⟩
      · exact h.endpoints e (.inr he)
      · exact ⟨hp, hc⟩
    have hnew' := mt (h.same _).mpr hnew
    rw [heq] at hpar hchild hacyc ⊢
    refine ⟨⟨?_, ?_, Index.Filed.push h.filedParents rfl, Index.Filed.push h.filedChildren rfl,
      Index.Filed.nodup_push h.filedParents rfl h.nodupParents hnew,
      Index.Filed.nodup_push h.filedChildren rfl h.nodupChildren hnew', ?_⟩, hacyc⟩
    · rintro x (hx | hx)
      · rcases Index.hasKey_push.mp hx with rfl | hx
        · exact hp
        · exact h.keys x (.inl hx)
      · rcases Index.hasKey_push.mp hx with rfl | hx
        · exact hc
        · exact h.keys x (.inr hx)
    · exact fun e he => hends e (he.imp (hpar e).mp (hchild e).mp)
    · exact fun e => (hpar e).trans ((or_congr_left (h.same e)).trans (hchild e).symm)

/-! ## whole sequences -/

/-- one call that changes a graph -/
inductive Change where
  | addObject (id : Uuid)
  | addEdge (parent child : Uuid) (kind : EdgeKind)
  | removeEdge (parent child : Uuid) (kind : EdgeKind)

def Change.apply (g : LineageGraph) : Change → LineageGraph
  | .addObject id => g.addObject id
  | .addEdge parent child kind => (g.addEdge parent child kind).1
  | .removeEdge parent child kind => g.removeEdge parent child kind

/-- the graph after a sequence of calls on the empty one -/
def build (changes : List Change) : LineageGraph := changes.foldl Change.apply default

theorem WellFormed.apply (h : g.WellFormed) (change : Change) : (change.apply g).WellFormed := by
  cases change with
  | addObject id => exact h.addObject id
  | addEdge parent child kind => exact h.addEdge parent child kind
  | removeEdge parent child kind => exact h.removeEdge parent child kind

theorem WellFormed.foldl (h : g.WellFormed) (changes : List Change) :
    (changes.foldl Change.apply g).WellFormed := by
  induction changes generalizing g with
  | nil => exact h
  | cons change changes ih => exact ih (h.apply change)

/-- **Every graph that is built is well-formed.**  Every prefix of a sequence of calls is a
sequence of calls, so this is about every intermediate graph.  Validation accepts it, and the next
`addEdge` is refused exactly when the edge is a loop, has an unregistered endpoint, or is new and
closes a cycle; a refused call changes nothing, any other leaves the edges there were and this
one. -/
theorem build_exact (changes : List Change) :
    (build changes).WellFormed ∧
    (∀ ord, ∃ rounds, ∀ fuel, (build changes).validate ord (rounds + fuel) = .done (.ok ())) ∧
    ∀ parent child kind,
      ((∃ err, ((build changes).addEdge parent child kind).2 = .error err) ↔
        parent = child ∨ ¬(build changes).Registered parent ∨ ¬(build changes).Registered child ∨
          (⟨parent, child, kind⟩ : LineageEdge) ∉ (build changes).parents.edges ∧
            Relation.ReflTransGen (Joined (build changes).parents.edges) child parent) ∧
      ((∃ err, ((build changes).addEdge parent child kind).2 = .error err) →
        ((build changes).addEdge parent child kind).1 = build changes) ∧
      (((build changes).addEdge parent child kind).2 = .ok () →
        (∀ e, e ∈ ((build changes).addEdge parent child kind).1.parents.edges ↔
          e ∈ (build changes).parents.edges ∨ e = ⟨parent, child, kind⟩) ∧
        (∀ e, e ∈ ((build changes).addEdge parent child kind).1.children.edges ↔
          e ∈ (build changes).children.edges ∨ e = ⟨parent, child, kind⟩) ∧
        ((build changes).addEdge parent child kind).1.objectIds = (build changes).objectIds) := by
  have h : (build changes).WellFormed := default_wellFormed.foldl changes
  refine ⟨h, ?_, ?_⟩
  · exact fun ord => ⟨_, fun fuel => h.validates ord (Nat.le_add_right _ fuel)⟩
  · intro parent child kind
    refine ⟨addEdge_error h.toIndexed, ?_, addEdge_ok h.toIndexed⟩
    rintro ⟨err, he⟩
    rcases addEdge_cases h.toIndexed parent child kind with ⟨⟨err', heq⟩, -⟩ | ⟨heq, -⟩ | ⟨heq, -⟩
    · rw [heq]
    · rw [heq] at he
      cases he
    · rw [heq] at he
      cases he

end LineageGraph

end Lineage

end ReclaimFabric
