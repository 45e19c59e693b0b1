import SyncAgent.Lib.MergePatch

/-! Kubernetes objects as the agent handles them: typed metadata and the other top-level fields as
JSON.  `Unstructured.toFields` and `Unstructured.ofFields` are the JSON form of an object and its
reading; an API server reads an object in this way after it has merged a patch into it. -/

namespace Kube

/-- Labels, annotations and other maps of strings.  An absent map and an empty one are the same. -/
abbrev StringMap := SortedMap String String

/-- The type of an object: group and version, and the kind, which is never empty. -/
structure TypeMeta where
  apiVersion : String
  kind : String
  kind_ne : kind ≠ ""
deriving DecidableEq

namespace TypeMeta

def secret : TypeMeta := ⟨"v1", "Secret", by decide⟩

def configMap : TypeMeta := ⟨"v1", "ConfigMap", by decide⟩

end TypeMeta

/-- The metadata of an object.  The empty string, zero and the empty list stand for an absent
field.  Resource versions and UIDs are opaque tokens. -/
structure ObjectMeta where
  name : String := ""
  ns : String := ""
  labels : StringMap := ∅
  annotations : StringMap := ∅
  finalizers : List String := []
  deletionTimestamp : Option Nat := none
  creationTimestamp : Option Nat := none
  generation : Nat := 0
  resourceVersion : Nat := 0
  uid : Nat := 0
  ownerReferences : List Doc := []
  managedFields : List Doc := []
  selfLink : String := ""
deriving DecidableEq

namespace ObjectMeta

/-- The JSON form of metadata. -/
def toFields (m : ObjectMeta) : Fields :=
  SortedMap.ofOptions [
    ("annotations", Codec.stringMap.encode m.annotations),
    ("creationTimestamp", Codec.natOption.encode m.creationTimestamp),
    ("deletionTimestamp", Codec.natOption.encode m.deletionTimestamp),
    ("finalizers", Codec.strings.encode m.finalizers),
    ("generation", Codec.nat.encode m.generation),
    ("labels", Codec.stringMap.encode m.labels),
    ("managedFields", Codec.docs.encode m.managedFields),
    ("name", Codec.string.encode m.name),
    ("namespace", Codec.string.encode m.ns),
    ("ownerReferences", Codec.docs.encode m.ownerReferences),
    ("resourceVersion", Codec.nat.encode m.resourceVersion),
    ("selfLink", Codec.string.encode m.selfLink),
    ("uid", Codec.nat.encode m.uid)]
    (show List.Pairwise (· < ·) ["annotations", "creationTimestamp", "deletionTimestamp",
      "finalizers", "generation", "labels", "managedFields", "name", "namespace",
      "ownerReferences", "resourceVersion", "selfLink", "uid"] by decide)

/-- The reading of metadata; fields that metadata does not have are dropped. -/
def ofFields (f : Fields) : Option ObjectMeta := do
  let annotations ← Codec.stringMap.decode (f.get? "annotations")
  let creationTimestamp ← Codec.natOption.decode (f.get? "creationTimestamp")
  let deletionTimestamp ← Codec.natOption.decode (f.get? "deletionTimestamp")
  let finalizers ← Codec.strings.decode (f.get? "finalizers")
  let generation ← Codec.nat.decode (f.get? "generation")
  let labels ← Codec.stringMap.decode (f.get? "labels")
  let managedFields ← Codec.docs.decode (f.get? "managedFields")
  let name ← Codec.string.decode (f.get? "name")
  let ns ← Codec.string.decode (f.get? "namespace")
  let ownerReferences ← Codec.docs.decode (f.get? "ownerReferences")
  let resourceVersion ← Codec.nat.decode (f.get? "resourceVersion")
  let selfLink ← Codec.string.decode (f.get? "selfLink")
  let uid ← Codec.nat.decode (f.get? "uid")
  return { name, ns, labels, annotations, finalizers, deletionTimestamp, creationTimestamp,
           generation, resourceVersion, uid, ownerReferences, managedFields, selfLink }

theorem ofFields_toFields (m : ObjectMeta) : ofFields m.toFields = some m := by
  simp [ofFields, toFields, Assoc.get?, Codec.decode_encode]

end ObjectMeta

/-- The top-level fields that are not part of an object's content. -/
def envelope : List String := ["apiVersion", "kind", "metadata"]

/-- The content of an object: all its top-level fields but the envelope. -/
@[ext] structure Content where
  fields : Fields
  inside : ∀ k ∈ envelope, fields.get? k = none

namespace Content

instance : DecidableEq Content := fun a b =>
  decidable_of_iff (a.fields = b.fields) Content.ext_iff.symm

/-- The content among the top-level fields of an object. -/
def ofFields (f : Fields) : Content :=
  ⟨f.filterKeys fun k => !envelope.contains k, fun k hk => by simp [hk]⟩

instance : Inhabited Content := ⟨ofFields ∅⟩

theorem get?_ofFields (f : Fields) (k : String) :
    (ofFields f).fields.get? k = if k ∈ envelope then none else f.get? k := by
  by_cases hk : k ∈ envelope <;> simp [ofFields, hk]

theorem ext_get? {a b : Content} (h : ∀ k, k ∉ envelope → a.fields.get? k = b.fields.get? k) :
    a = b := by
  refine Content.ext (SortedMap.ext_get? fun k => ?_)
  by_cases hk : k ∈ envelope
  · rw [a.inside k hk, b.inside k hk]
  · exact h k hk

/-- The content without the given fields. -/
def without (c : Content) (keys : List String) : Content :=
  ⟨c.fields.filterKeys fun k => !keys.contains k, fun k hk => by
    simp [c.inside k hk]⟩

theorem get?_without (c : Content) (keys : List String) (k : String) :
    (c.without keys).fields.get? k = if k ∈ keys then none else c.fields.get? k := by
  by_cases hk : k ∈ keys <;> simp [without, hk]

theorem without_without (c : Content) (keys : List String) :
    (c.without keys).without keys = c.without keys :=
  ext_get? fun k _ => by simp only [get?_without]; split <;> rfl

/-- The content with the fields of `other` set over it. -/
def overlay (c other : Content) : Content :=
  ⟨c.fields.insertAll other.fields, fun k hk => by
    simp [c.inside k hk, other.inside k hk]⟩

theorem get?_overlay (c other : Content) (k : String) :
    (c.overlay other).fields.get? k = (other.fields.get? k).or (c.fields.get? k) := by
  simp [overlay]

/-- The value of the field, `null` if there is none. -/
def field (c : Content) (k : String) : Doc := (c.fields.get? k).getD .null

/-- The content with the field `status` set; setting it to `null` removes it. -/
def setStatus (c : Content) (v : Doc) : Content :=
  if v = .null then c.without ["status"]
  else ofFields (c.fields.insert "status" v)

theorem get?_setStatus (c : Content) (v : Doc) {k : String} (hk : k ≠ "status") :
    (c.setStatus v).fields.get? k = c.fields.get? k := by
  unfold setStatus
  split
  · simp [get?_without, hk]
  · by_cases henv : k ∈ envelope
    · rw [get?_ofFields, if_pos henv, c.inside k henv]
    · simp [get?_ofFields, henv, hk]

@[simp] theorem field_setStatus (c : Content) (v : Doc) :
    (c.setStatus v).field "status" = v := by
  unfold setStatus field
  split
  · next hnull => simp [get?_without, hnull]
  · simp [get?_ofFields, envelope]

end Content

/-- An object whose type is known only at run time. -/
@[ext] structure Unstructured where
  typeMeta : TypeMeta
  metadata : ObjectMeta
  content : Content
deriving DecidableEq

namespace Unstructured

/-- The JSON form of an object. -/
def toFields (o : Unstructured) : Fields :=
  ((o.content.fields.insert "apiVersion" (.str o.typeMeta.apiVersion)).insert "kind"
    (.str o.typeMeta.kind)).insert "metadata" (.obj o.metadata.toFields)

/-- The reading of an object, which must have a kind. -/
def ofFields (f : Fields) : Option Unstructured := do
  let apiVersion ← Codec.string.decode (f.get? "apiVersion")
  let kind ← Codec.string.decode (f.get? "kind")
  let metadata ← ObjectMeta.ofFields (f.child "metadata")
  if h : kind ≠ "" then
    return { typeMeta := ⟨apiVersion, kind, h⟩, metadata, content := .ofFields f }
  else none

theorem get?_toFields_content (o : Unstructured) {k : String} (hk : k ∉ envelope) :
    o.toFields.get? k = o.content.fields.get? k := by
  simp only [envelope, List.mem_cons, not_or, List.not_mem_nil, not_false_eq_true, and_true] at hk
  simp [toFields, hk]

theorem child_toFields_metadata (o : Unstructured) :
    o.toFields.child "metadata" = o.metadata.toFields :=
  Fields.child_of_get?_obj (by simp [toFields])

/-- An object is read back from its JSON form. -/
theorem ofFields_toFields (o : Unstructured) : ofFields o.toFields = some o := by
  have hcontent : Content.ofFields o.toFields = o.content :=
    Content.ext_get? fun k hk => by
      rw [Content.get?_ofFields, if_neg hk, get?_toFields_content o hk]
  have hversion : o.toFields.get? "apiVersion" = some (.str o.typeMeta.apiVersion) := by
    simp [toFields]
  have hkind : o.toFields.get? "kind" = some (.str o.typeMeta.kind) := by simp [toFields]
  simp [ofFields, hversion, hkind, child_toFields_metadata, ObjectMeta.ofFields_toFields,
    hcontent, Codec.string, o.typeMeta.kind_ne]

theorem toFields_injective {o o' : Unstructured} (h : o.toFields = o'.toFields) : o = o' := by
  have := congrArg ofFields h
  rwa [ofFields_toFields, ofFields_toFields, Option.some.injEq] at this

end Unstructured

end Kube
