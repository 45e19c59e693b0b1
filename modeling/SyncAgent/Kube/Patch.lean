import SyncAgent.Kube.Object

/-! What a merge patch does to an object when the patch was made from two other objects: a client
computes it from an old and a new version of an object, the server merges it into the version that
it has. -/

namespace Kube

/-- The metadata `c` under a patch from `a` to `b`. -/
def ObjectMeta.patched (a b c : ObjectMeta) : ObjectMeta where
  name := patchValue a.name b.name c.name
  ns := patchValue a.ns b.ns c.ns
  labels := patchMap a.labels b.labels c.labels
  annotations := patchMap a.annotations b.annotations c.annotations
  finalizers := patchValue a.finalizers b.finalizers c.finalizers
  deletionTimestamp := patchValue a.deletionTimestamp b.deletionTimestamp c.deletionTimestamp
  creationTimestamp := patchValue a.creationTimestamp b.creationTimestamp c.creationTimestamp
  generation := patchValue a.generation b.generation c.generation
  resourceVersion := patchValue a.resourceVersion b.resourceVersion c.resourceVersion
  uid := patchValue a.uid b.uid c.uid
  ownerReferences := patchValue a.ownerReferences b.ownerReferences c.ownerReferences
  managedFields := patchValue a.managedFields b.managedFields c.managedFields
  selfLink := patchValue a.selfLink b.selfLink c.selfLink

variable (D : MergeDiff)

theorem ObjectMeta.ofFields_merge_create (a b c : ObjectMeta) :
    ofFields (c.toFields.merge (D.create a.toFields b.toFields)) = some (patched a b c) := by
  have hstring : ∀ k (x y z : String), a.toFields.get? k = Codec.string.encode x →
      b.toFields.get? k = Codec.string.encode y → c.toFields.get? k = Codec.string.encode z →
      Codec.string.decode ((c.toFields.merge (D.create a.toFields b.toFields)).get? k) =
        some (patchValue x y z) :=
    fun k x y z => Codec.decode_patched D Codec.string_flat
  have hnat : ∀ k (x y z : Nat), a.toFields.get? k = Codec.nat.encode x →
      b.toFields.get? k = Codec.nat.encode y → c.toFields.get? k = Codec.nat.encode z →
      Codec.nat.decode ((c.toFields.merge (D.create a.toFields b.toFields)).get? k) =
        some (patchValue x y z) :=
    fun k x y z => Codec.decode_patched D Codec.nat_flat
  have htime : ∀ k (x y z : Option Nat), a.toFields.get? k = Codec.natOption.encode x →
      b.toFields.get? k = Codec.natOption.encode y →
      c.toFields.get? k = Codec.natOption.encode z →
      Codec.natOption.decode ((c.toFields.merge (D.create a.toFields b.toFields)).get? k) =
        some (patchValue x y z) :=
    fun k x y z => Codec.decode_patched D Codec.natOption_flat
  have hdocs : ∀ k (x y z : List Doc), a.toFields.get? k = Codec.docs.encode x →
      b.toFields.get? k = Codec.docs.encode y → c.toFields.get? k = Codec.docs.encode z →
      Codec.docs.decode ((c.toFields.merge (D.create a.toFields b.toFields)).get? k) =
        some (patchValue x y z) :=
    fun k x y z => Codec.decode_patched D Codec.docs_flat
  have hstrings : ∀ k (x y z : List String), a.toFields.get? k = Codec.strings.encode x →
      b.toFields.get? k = Codec.strings.encode y → c.toFields.get? k = Codec.strings.encode z →
      Codec.strings.decode ((c.toFields.merge (D.create a.toFields b.toFields)).get? k) =
        some (patchValue x y z) :=
    fun k x y z => Codec.decode_patched D Codec.strings_flat
  have hmap : ∀ k (x y z : StringMap), a.toFields.get? k = Codec.stringMap.encode x →
      b.toFields.get? k = Codec.stringMap.encode y → c.toFields.get? k = Codec.stringMap.encode z →
      Codec.stringMap.decode ((c.toFields.merge (D.create a.toFields b.toFields)).get? k) =
        some (patchMap x y z) :=
    fun k x y z => Codec.decode_patched_stringMap D
  have hget : ∀ m : ObjectMeta, m.toFields.get? "annotations" =
    Codec.stringMap.encode m.annotations ∧
      m.toFields.get? "creationTimestamp" = Codec.natOption.encode m.creationTimestamp ∧
      m.toFields.get? "deletionTimestamp" = Codec.natOption.encode m.deletionTimestamp ∧
      m.toFields.get? "finalizers" = Codec.strings.encode m.finalizers ∧
      m.toFields.get? "generation" = Codec.nat.encode m.generation ∧
      m.toFields.get? "labels" = Codec.stringMap.encode m.labels ∧
      m.toFields.get? "managedFields" = Codec.docs.encode m.managedFields ∧
      m.toFields.get? "name" = Codec.string.encode m.name ∧
      m.toFields.get? "namespace" = Codec.string.encode m.ns ∧
      m.toFields.get? "ownerReferences" = Codec.docs.encode m.ownerReferences ∧
      m.toFields.get? "resourceVersion" = Codec.nat.encode m.resourceVersion ∧
      m.toFields.get? "selfLink" = Codec.string.encode m.selfLink ∧
      m.toFields.get? "uid" = Codec.nat.encode m.uid := by
    intro m
    simp [toFields, Assoc.get?]
  obtain ⟨a1, a2, a3, a4, a5, a6, a7, a8, a9, a10, a11, a12, a13⟩ := hget a
  obtain ⟨b1, b2, b3, b4, b5, b6, b7, b8, b9, b10, b11, b12, b13⟩ := hget b
  obtain ⟨c1, c2, c3, c4, c5, c6, c7, c8, c9, c10, c11, c12, c13⟩ := hget c
  simp only [ofFields, hmap _ _ _ _ a1 b1 c1, htime _ _ _ _ a2 b2 c2, htime _ _ _ _ a3 b3 c3,
    hstrings _ _ _ _ a4 b4 c4, hnat _ _ _ _ a5 b5 c5, hmap _ _ _ _ a6 b6 c6,
    hdocs _ _ _ _ a7 b7 c7, hstring _ _ _ _ a8 b8 c8, hstring _ _ _ _ a9 b9 c9,
    hdocs _ _ _ _ a10 b10 c10, hnat _ _ _ _ a11 b11 c11, hstring _ _ _ _ a12 b12 c12,
    hnat _ _ _ _ a13 b13 c13]
  rfl

/-- The content `c` under a patch from `a` to `b`. -/
def Content.patched (a b c : Content) : Content :=
  ⟨c.fields.merge (D.create a.fields b.fields), fun k hk => by
    rw [D.get?_merge_create, a.inside k hk, b.inside k hk, if_pos rfl, c.inside k hk]⟩

/-- The object `c` under a patch from `a` to `b`. -/
def Unstructured.patched (a b c : Unstructured) : Unstructured where
  typeMeta := c.typeMeta
  metadata := .patched a.metadata b.metadata c.metadata
  content := .patched D a.content b.content c.content

theorem Unstructured.ofFields_merge_create {a b : Unstructured} (h : a.typeMeta = b.typeMeta)
    (c : Unstructured) :
    ofFields (c.toFields.merge (D.create a.toFields b.toFields)) = some (patched D a b c) := by
  have hmeta : (c.toFields.merge (D.create a.toFields b.toFields)).child "metadata" =
      c.metadata.toFields.merge (D.create a.metadata.toFields b.metadata.toFields) := by
    rw [← child_toFields_metadata c]
    exact D.child_merge_create (by simp [toFields]) (by simp [toFields]) _
  have hversion : (c.toFields.merge (D.create a.toFields b.toFields)).get? "apiVersion" =
      some (.str c.typeMeta.apiVersion) := by
    rw [D.get?_merge_create, if_pos (by simp [toFields, h])]
    simp [toFields]
  have hkind : (c.toFields.merge (D.create a.toFields b.toFields)).get? "kind" =
      some (.str c.typeMeta.kind) := by
    rw [D.get?_merge_create, if_pos (by simp [toFields, h])]
    simp [toFields]
  have hcontent : Content.ofFields (c.toFields.merge (D.create a.toFields b.toFields)) =
      .patched D a.content b.content c.content := by
    refine Content.ext_get? fun k hk => ?_
    have hchild : c.toFields.child k = c.content.fields.child k := by
      unfold Fields.child
      rw [get?_toFields_content c hk]
    rw [Content.get?_ofFields, if_neg hk, Content.patched, D.get?_merge_create,
      D.get?_merge_create, get?_toFields_content a hk, get?_toFields_content b hk,
      get?_toFields_content c hk, hchild]
  simp [ofFields, hversion, hkind, hmeta, ObjectMeta.ofFields_merge_create, hcontent,
    Codec.string, c.typeMeta.kind_ne, patched]

theorem Unstructured.patched_self (a c : Unstructured) : patched D a a c = c := by
  have hcontent : Content.patched D a.content a.content c.content = c.content := by
    refine Content.ext ?_
    show c.content.fields.merge (D.create a.content.fields a.content.fields) = c.content.fields
    rw [D.create_self, Fields.merge_empty]
  have hmeta : ObjectMeta.patched a.metadata a.metadata c.metadata = c.metadata := by
    simp [ObjectMeta.patched, patchValue, patchMap]
  rw [patched, hcontent, hmeta]

theorem Unstructured.patched_annotations (o cur : Unstructured) (annotations : StringMap) :
    patched D o { o with metadata.annotations := annotations } cur =
      { cur with metadata.annotations :=
          patchMap o.metadata.annotations annotations cur.metadata.annotations } := by
  simp [patched, ObjectMeta.patched, Content.patched, patchValue, patchMap, D.create_self,
    Fields.merge_empty]

theorem Unstructured.patched_finalizers (o cur : Unstructured) (finalizers : List String) :
    patched D o { o with metadata.finalizers := finalizers } cur =
      { cur with metadata.finalizers :=
          patchValue o.metadata.finalizers finalizers cur.metadata.finalizers } := by
  simp [patched, ObjectMeta.patched, Content.patched, patchValue, patchMap, D.create_self,
    Fields.merge_empty]

end Kube
