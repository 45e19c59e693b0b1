import SyncAgent.Kube.Nested
import SyncAgent.Sync.Link

/-! What the store remembers of an object, on its JSON form.  The typed model takes an absent map of
labels and an empty one for the same; here they differ, as they do in the objects that
`stripMetadata`, `threeWayDiffMetadata`, `snapshotObject` and `createMergePatch` work on.  A
snapshot turns out to depend on the source object alone, and on no more of it than the agent
copies. -/

namespace Sync.Raw

open Kube Kube.Nested

/-! ### The functions on the JSON form -/

/-- The fields of the metadata that the setters in `stripMetadata` remove. -/
def clearedMetadata : List String :=
  ["creationTimestamp", "finalizers", "generation", "ownerReferences", "resourceVersion",
    "managedFields", "uid", "selfLink"]

/-- `setNestedMapOmitempty(obj, value, "metadata", key)` -/
def setNestedMapOmitempty (obj : Fields) (value : StringMap) (key : String) : Fields :=
  if value = ∅ then removeNestedField obj key else setNestedStringMap obj value key

/-- The object with a map of strings in its metadata filtered.  No error can occur, since the
metadata is an object if it holds a map. -/
def stripStringMap (filterUnsyncable : StringMap → StringMap) (key : String) (obj : Fields) :
    Fields :=
  match nestedStringMap obj key with
  | none => obj
  | some m => setNestedMapOmitempty obj (filterUnsyncable m) key

def stripAnnotations (obj : Fields) : Fields :=
  stripStringMap filterUnsyncableAnnotations "annotations" obj

def stripLabels (obj : Fields) : Fields := stripStringMap filterUnsyncableLabels "labels" obj

def stripMetadata (obj : Fields) : Fields :=
  stripLabels (stripAnnotations (clearedMetadata.foldl removeNestedField obj))

/-- The body of the loops in `threeWayDiffMetadata`; `none` is nil. -/
def addIfMissing (dest source : Option StringMap) (entry : String × String) : Option StringMap :=
  if (dest.getD ∅).get? entry.1 ≠ some entry.2 then
    some ((source.getD ∅).insert entry.1 entry.2)
  else source

/-- The loop of `threeWayDiffMetadata`, for the labels and for the annotations. -/
def addMissing (source dest : Option StringMap) (desired : StringMap) : Option StringMap :=
  desired.entries.foldl (addIfMissing dest) source

def threeWayDiffMetadata (sourceObj destObj : Fields)
    (desiredLabels desiredAnnotations : StringMap) : Fields :=
  let sourceObj := setStringMap sourceObj (addMissing (nestedStringMap sourceObj "labels")
    (nestedStringMap destObj "labels") desiredLabels) "labels"
  setStringMap sourceObj (addMissing (nestedStringMap sourceObj "annotations")
    (nestedStringMap destObj "annotations") desiredAnnotations) "annotations"

def removeSubresources (subresources : List String) (obj : Fields) : Fields :=
  obj.filterKeys fun k => !subresources.contains k

def snapshotObject (obj : Fields) (subresources : List String) : Fields :=
  removeSubresources subresources (stripMetadata obj)

/-- `GetAPIVersion` and `GetKind` -/
def nestedString (obj : Fields) (key : String) : String := ((obj.get? key).bind Doc.str?).getD ""

/-- `UnmarshalJSON`, which demands a kind and a version of the form `group/version`. -/
def unmarshalJSON (data : Fields) : Option Fields :=
  if nestedString data "kind" ≠ "" ∧ (nestedString data "apiVersion").toList.count '/' ≤ 1 then
    some data
  else none

/-- The last-known state with the type of the source. -/
def ignoreType (lastKnown source : Fields) : Fields :=
  (lastKnown.insert "apiVersion" (.str (nestedString source "apiVersion"))).insert "kind"
    (.str (nestedString source "kind"))

def createMergePatch (D : MergeDiff) (subresources : List String) (base revision : Fields) :
    Fields :=
  D.create (removeSubresources subresources base) (removeSubresources subresources revision)

/-! ### Stripped metadata -/

/-- What remains of a map of strings in the metadata. -/
def strippedMap (filterUnsyncable : StringMap → StringMap) (key : String) (m : Fields) :
    Option Doc :=
  match stringMap? m key with
  | none => m.get? key
  | some v => Codec.stringMap.encode (filterUnsyncable v)

section StringMaps

variable (filter : StringMap → StringMap) (key : String)

theorem stripStringMap_withMetadata (f m : Fields) :
    stripStringMap filter key (withMetadata f m) =
      withMetadata f (put m key (strippedMap filter key m)) := by
  unfold stripStringMap strippedMap
  rw [nestedStringMap_withMetadata]
  cases hm : stringMap? m key with
  | none => simp only [put_self]
  | some v =>
    by_cases hv : filter v = ∅
    · simp [setNestedMapOmitempty, hv, Codec.stringMap, put]
    · simp [setNestedMapOmitempty, hv, encode_stringMap hv, put]

variable {filter key}

theorem strippedMap_none {m : Fields} (h : stringMap? m key = none) :
    strippedMap filter key m = m.get? key := by
  rw [strippedMap, h]

theorem strippedMap_some {m : Fields} {v : StringMap} (h : stringMap? m key = some v) :
    strippedMap filter key m = Codec.stringMap.encode (filter v) := by
  rw [strippedMap, h]

theorem strippedMap_congr {m m' : Fields} (h : m'.get? key = m.get? key) :
    strippedMap filter key m' = strippedMap filter key m := by
  unfold strippedMap
  rw [stringMap?_congr h, h]

theorem strippedMap_eq {m : Fields} (h : StringMapAt m key) (hempty : filter ∅ = ∅) :
    strippedMap filter key m = Codec.stringMap.encode (filter (stringMapD m key)) := by
  cases hm : stringMap? m key with
  | some v => rw [strippedMap_some hm, stringMapD, hm, Option.getD_some]
  | none =>
    rw [strippedMap_none hm, h.get?_eq, stringMapD, hm]
    simp [hempty, Codec.stringMap]

theorem exists_of_strippedMap (hidem : ∀ v, filter (filter v) = filter v) (hempty : filter ∅ = ∅)
    {m : Fields} (h : StringMapAt m key) {d : Doc} (hd : strippedMap filter key m = some d) :
    ∃ v, d = stringMapDoc v ∧ filter v = v := by
  rw [strippedMap_eq h hempty] at hd
  by_cases hv : filter (stringMapD m key) = ∅
  · rw [hv] at hd
    cases hd
  · rw [encode_stringMap hv] at hd
    exact ⟨_, (Option.some.inj hd).symm, hidem _⟩

theorem strippedMap_idem (hidem : ∀ v, filter (filter v) = filter v) {m m' : Fields}
    (h : m'.get? key = strippedMap filter key m) :
    strippedMap filter key m' = strippedMap filter key m := by
  cases hm : stringMap? m key with
  | none =>
    rw [strippedMap_none hm] at h
    exact strippedMap_congr h
  | some v =>
    rw [strippedMap_some hm] at h ⊢
    by_cases hv : filter v = ∅
    · have hnone : m'.get? key = none := by simp [h, hv, Codec.stringMap]
      rw [strippedMap_none (stringMap?_eq_none hnone), h]
    · rw [encode_stringMap hv] at h
      rw [strippedMap_some (stringMap?_of_get? h), hidem]

end StringMaps

/-- The metadata of a stripped object. -/
def strippedMetadata (m : Fields) : Fields :=
  put (put (m.filterKeys fun k => !clearedMetadata.contains k) "annotations"
    (strippedMap filterUnsyncableAnnotations "annotations" m)) "labels"
    (strippedMap filterUnsyncableLabels "labels" m)

theorem stripMetadata_withMetadata (f m : Fields) :
    stripMetadata (withMetadata f m) = withMetadata f (strippedMetadata m) := by
  -- neither the clearing nor the annotations touch the map that is stripped next
  have hannotations : strippedMap filterUnsyncableAnnotations "annotations"
      (m.filterKeys fun k => !clearedMetadata.contains k) =
        strippedMap filterUnsyncableAnnotations "annotations" m :=
    strippedMap_congr (by simp [clearedMetadata])
  have hlabels : ∀ d, strippedMap filterUnsyncableLabels "labels"
      (put (m.filterKeys fun k => !clearedMetadata.contains k) "annotations" d) =
        strippedMap filterUnsyncableLabels "labels" m :=
    fun d => strippedMap_congr (by simp [clearedMetadata])
  unfold stripMetadata stripLabels stripAnnotations strippedMetadata
  rw [foldl_removeNestedField, stripStringMap_withMetadata, stripStringMap_withMetadata,
    hannotations, hlabels]

theorem stripMetadata_of_none {f : Fields} (h : metadata? f = none) : stripMetadata f = f := by
  have hremove : ∀ key, removeNestedField f key = f := fun key => by rw [removeNestedField, h]
  have hfold : clearedMetadata.foldl removeNestedField f = f := by
    simp only [clearedMetadata, List.foldl_cons, List.foldl_nil, hremove]
  have hmap : ∀ filter key, stripStringMap filter key f = f := fun filter key => by
    rw [stripStringMap, nestedStringMap, h, Option.bind_none]
  rw [stripMetadata, hfold, stripAnnotations, hmap, stripLabels, hmap]

theorem get?_strippedMetadata (m : Fields) (k : String) :
    (strippedMetadata m).get? k =
      if k = "labels" then strippedMap filterUnsyncableLabels "labels" m
      else if k = "annotations" then strippedMap filterUnsyncableAnnotations "annotations" m
      else if k ∈ clearedMetadata then none
      else m.get? k := by
  simp only [strippedMetadata, get?_put, SortedMap.get?_filterKeys]
  by_cases hk : k ∈ clearedMetadata <;> simp [hk]

theorem strippedMetadata_congr {m m' : Fields}
    (hlabels : strippedMap filterUnsyncableLabels "labels" m' =
      strippedMap filterUnsyncableLabels "labels" m)
    (hannotations : strippedMap filterUnsyncableAnnotations "annotations" m' =
      strippedMap filterUnsyncableAnnotations "annotations" m)
    (hrest : ∀ k, k ≠ "labels" → k ≠ "annotations" → k ∉ clearedMetadata →
      m'.get? k = m.get? k) : strippedMetadata m' = strippedMetadata m := by
  refine SortedMap.ext_get? fun k => ?_
  rw [get?_strippedMetadata, get?_strippedMetadata, hlabels, hannotations]
  split_ifs with h₁ h₂ h₃
  · rfl
  · rfl
  · rfl
  · exact hrest k h₁ h₂ h₃

theorem get?_strippedMetadata_labels (m : Fields) :
    (strippedMetadata m).get? "labels" = strippedMap filterUnsyncableLabels "labels" m := by
  rw [get?_strippedMetadata, if_pos rfl]

theorem get?_strippedMetadata_annotations (m : Fields) : (strippedMetadata m).get? "annotations" =
    strippedMap filterUnsyncableAnnotations "annotations" m := by
  rw [get?_strippedMetadata, if_neg (by decide), if_pos rfl]

theorem get?_strippedMetadata_rest (m : Fields) {k : String} (hlabels : k ≠ "labels")
    (hannotations : k ≠ "annotations") (hcleared : k ∉ clearedMetadata) :
    (strippedMetadata m).get? k = m.get? k := by
  rw [get?_strippedMetadata, if_neg hlabels, if_neg hannotations, if_neg hcleared]

theorem strippedMetadata_strippedMetadata (m : Fields) :
    strippedMetadata (strippedMetadata m) = strippedMetadata m :=
  strippedMetadata_congr
    (strippedMap_idem filterUnsyncableLabels_idem (get?_strippedMetadata_labels m))
    (strippedMap_idem filterUnsyncableAnnotations_idem (get?_strippedMetadata_annotations m))
    fun _ h₁ h₂ h₃ => get?_strippedMetadata_rest m h₁ h₂ h₃

/-! ### Snapshots -/

section Snapshots

variable (subresources : List String)

theorem get?_removeSubresources (f : Fields) (k : String) :
    (removeSubresources subresources f).get? k = if k ∈ subresources then none else f.get? k := by
  by_cases hk : k ∈ subresources <;> simp [removeSubresources, hk]

theorem removeSubresources_idem (f : Fields) :
    removeSubresources subresources (removeSubresources subresources f) =
      removeSubresources subresources f := by
  refine SortedMap.ext_get? fun k => ?_
  simp only [get?_removeSubresources]
  split <;> rfl

theorem metadata?_removeSubresources (f : Fields) :
    metadata? (removeSubresources subresources f) =
      if "metadata" ∈ subresources then none else metadata? f := by
  unfold metadata?
  rw [get?_removeSubresources]
  split <;> rfl

theorem removeSubresources_withMetadata (h : "metadata" ∉ subresources) (f m : Fields) :
    removeSubresources subresources (withMetadata f m) =
      withMetadata (removeSubresources subresources f) m := by
  refine SortedMap.ext_get? fun k => ?_
  by_cases hk : k = "metadata" <;> simp [get?_removeSubresources, withMetadata, hk, h]

theorem stripMetadata_snapshotObject (f : Fields) :
    stripMetadata (snapshotObject f subresources) = snapshotObject f subresources := by
  unfold snapshotObject
  cases hm : metadata? f with
  | none =>
    rw [stripMetadata_of_none hm]
    refine stripMetadata_of_none ?_
    rw [metadata?_removeSubresources, hm, ite_self]
  | some m =>
    rw [eq_withMetadata hm, stripMetadata_withMetadata]
    by_cases hsub : "metadata" ∈ subresources
    · refine stripMetadata_of_none ?_
      rw [metadata?_removeSubresources, if_pos hsub]
    · rw [removeSubresources_withMetadata _ hsub, stripMetadata_withMetadata,
        strippedMetadata_strippedMetadata]

theorem snapshotObject_idem (f : Fields) :
    snapshotObject (snapshotObject f subresources) subresources =
      snapshotObject f subresources := by
  rw [snapshotObject, stripMetadata_snapshotObject, snapshotObject, removeSubresources_idem]

end Snapshots

/-! ### Link metadata on the source -/

section Missing

variable {source dest : Option StringMap} {desired : StringMap}

theorem get?_addMissing {k : String} (h : desired.get? k = none) :
    ((addMissing source dest desired).getD ∅).get? k = (source.getD ∅).get? k := by
  have hfold : ∀ (l : List (String × String)) (source : Option StringMap), (∀ e ∈ l, e.1 ≠ k) →
      ((l.foldl (addIfMissing dest) source).getD ∅).get? k = (source.getD ∅).get? k := by
    intro l
    induction l with
    | nil => exact fun _ _ => rfl
    | cons e rest ih =>
      intro source hl
      obtain ⟨hne, hrest⟩ := List.forall_mem_cons.mp hl
      rw [List.foldl_cons, ih _ hrest, addIfMissing]
      split
      · rw [Option.getD_some, SortedMap.get?_insert, if_neg (Ne.symm hne)]
      · rfl
  refine hfold desired.entries source fun e he heq => ?_
  rw [← heq, SortedMap.mem_entries.mp he] at h
  cases h

theorem addMissing_of_contains (h : (dest.getD ∅).Contains desired) :
    addMissing source dest desired = source := by
  have hfold : ∀ (l : List (String × String)) (source : Option StringMap),
      (∀ e ∈ l, (dest.getD ∅).get? e.1 = some e.2) →
      l.foldl (addIfMissing dest) source = source := by
    intro l
    induction l with
    | nil => exact fun _ _ => rfl
    | cons e rest ih =>
      intro source hl
      obtain ⟨he, hrest⟩ := List.forall_mem_cons.mp hl
      rw [List.foldl_cons, addIfMissing, if_neg (not_not_intro he)]
      exact ih source hrest
  exact hfold desired.entries source fun e he => h e.1 e.2 (SortedMap.mem_entries.mp he)

theorem filterKeys_addMissing {p : String → Bool}
    (h : ∀ k v, desired.get? k = some v → p k = false) :
    ((addMissing source dest desired).getD ∅).filterKeys p = (source.getD ∅).filterKeys p := by
  refine SortedMap.ext_get? fun k => ?_
  rw [SortedMap.get?_filterKeys, SortedMap.get?_filterKeys]
  cases hk : desired.get? k with
  | none => rw [get?_addMissing hk]
  | some v => simp [h k v hk]

end Missing

theorem threeWayDiffMetadata_withMetadata (f m dest : Fields) (labels annotations : StringMap) :
    threeWayDiffMetadata (withMetadata f m) dest labels annotations =
      withMetadata f (put (put m "labels" ((addMissing (stringMap? m "labels")
        (nestedStringMap dest "labels") labels).map stringMapDoc)) "annotations"
        ((addMissing (stringMap? m "annotations") (nestedStringMap dest "annotations")
          annotations).map stringMapDoc)) := by
  have hannotations : ∀ d, stringMap? (put m "labels" d) "annotations" =
    stringMap? m "annotations" :=
    fun d => stringMap?_congr (by simp)
  simp only [threeWayDiffMetadata, nestedStringMap_withMetadata, setStringMap_withMetadata,
    hannotations]

theorem strippedMap_addMissing {filter : StringMap → StringMap} {p : String → Bool}
    (hfilter : ∀ v, filter v = v.filterKeys p) {key : String} {m stripped m' : Fields}
    (hm : StringMapAt m key) (hstripped : stripped.get? key = strippedMap filter key m)
    {dest : Option StringMap} {desired : StringMap}
    (hdesired : ∀ k v, desired.get? k = some v → p k = false)
    (hget : m'.get? key =
      (addMissing (stringMap? stripped key) dest desired).map stringMapDoc) :
    strippedMap filter key m' = strippedMap filter key m := by
  have hempty : filter ∅ = ∅ := hfilter ∅
  rw [strippedMap_eq hm hempty] at hstripped ⊢
  rw [strippedMap_eq (.of_get? hget) hempty, stringMapD, stringMap?_eq hget, hfilter,
    filterKeys_addMissing hdesired, ← stringMapD, stringMapD_of_encode hstripped, hfilter]
  refine congrArg _ (SortedMap.ext_get? fun k => ?_)
  by_cases hk : p k = true <;> simp [hk]

/-! ### Objects -/

/-- An object as a server returns it: it has a type and metadata, and its labels and annotations, if
there are any, are maps of strings. -/
structure Object where
  fields : Fields
  metadata : Fields
  apiVersion : String
  kind : String
  metadata_eq : metadata? fields = some metadata
  apiVersion_eq : fields.get? "apiVersion" = some (.str apiVersion)
  apiVersion_slash : apiVersion.toList.count '/' ≤ 1
  kind_eq : fields.get? "kind" = some (.str kind)
  kind_ne : kind ≠ ""
  labels : StringMapAt metadata "labels"
  annotations : StringMapAt metadata "annotations"

/-- No label or annotation is left that the agent does not copy. -/
structure Syncable (f : Fields) : Prop where
  labels : ∀ m, metadata? f = some m → ∀ d, m.get? "labels" = some d →
    ∃ v, d = stringMapDoc v ∧ filterUnsyncableLabels v = v
  annotations : ∀ m, metadata? f = some m → ∀ d, m.get? "annotations" = some d →
    ∃ v, d = stringMapDoc v ∧ filterUnsyncableAnnotations v = v

/-- The destination carries the labels and annotations of the key. -/
structure LinkIntact (hash : Hash) (key : ObjectKey) (dest : Fields) : Prop where
  labels : ((nestedStringMap dest "labels").getD ∅).Contains (key.labels hash)
  annotations : ((nestedStringMap dest "annotations").getD ∅).Contains key.annotations

/-- Metadata that differs at most in finalizers, owner references, managed fields, generation,
resource version and labels and annotations that are not copied. -/
structure SameMetadata (m m' : Fields) : Prop where
  rest : ∀ k, k ∉ ["finalizers", "ownerReferences", "managedFields", "generation",
    "resourceVersion", "labels", "annotations"] → m'.get? k = m.get? k
  labels : filterUnsyncableLabels (stringMapD m' "labels") =
    filterUnsyncableLabels (stringMapD m "labels")
  annotations : filterUnsyncableAnnotations (stringMapD m' "annotations") =
    filterUnsyncableAnnotations (stringMapD m "annotations")

/-- Objects that differ at most in their subresources and in such metadata. -/
structure SameState (subresources : List String) (o o' : Object) : Prop where
  content : ∀ k, k ∉ subresources → k ≠ "metadata" → o'.fields.get? k = o.fields.get? k
  metadata : "metadata" ∉ subresources → SameMetadata o.metadata o'.metadata

namespace Object

variable (o : Object)

theorem stripMetadata_eq :
    stripMetadata o.fields = withMetadata o.fields (strippedMetadata o.metadata) := by
  rw [← stripMetadata_withMetadata, ← eq_withMetadata o.metadata_eq]

theorem strippedMap_labels : strippedMap filterUnsyncableLabels "labels" o.metadata =
    Codec.stringMap.encode (filterUnsyncableLabels (stringMapD o.metadata "labels")) :=
  strippedMap_eq o.labels rfl

theorem strippedMap_annotations :
    strippedMap filterUnsyncableAnnotations "annotations" o.metadata =
      Codec.stringMap.encode (filterUnsyncableAnnotations (stringMapD o.metadata "annotations")) :=
  strippedMap_eq o.annotations rfl

theorem stripMetadata_threeWayDiffMetadata (hash : Hash) (key : ObjectKey) (dest : Fields) :
    stripMetadata (threeWayDiffMetadata (stripMetadata o.fields) dest (key.labels hash)
      key.annotations) = stripMetadata o.fields := by
  rw [stripMetadata_eq, threeWayDiffMetadata_withMetadata, stripMetadata_withMetadata]
  refine congrArg (withMetadata o.fields) (strippedMetadata_congr ?_ ?_ fun k h₁ h₂ h₃ => ?_)
  · exact strippedMap_addMissing (fun _ => rfl) o.labels (get?_strippedMetadata_labels _)
      (fun _ _ => syncableLabel_of_key) (by rw [get?_put, if_neg (by decide), get?_put, if_pos rfl])
  · exact strippedMap_addMissing (fun _ => rfl) o.annotations (get?_strippedMetadata_annotations _)
      (fun _ _ => syncableAnnotation_of_key) (by rw [get?_put, if_pos rfl])
  · rw [get?_put, if_neg h₂, get?_put, if_neg h₁, get?_strippedMetadata_rest _ h₁ h₂ h₃]

theorem threeWayDiffMetadata_of_linkIntact {hash : Hash} {key : ObjectKey} {dest : Fields}
    (h : LinkIntact hash key dest) :
    threeWayDiffMetadata (stripMetadata o.fields) dest (key.labels hash) key.annotations =
      stripMetadata o.fields := by
  have hlabels := (StringMapAt.of_encode
    ((get?_strippedMetadata_labels o.metadata).trans o.strippedMap_labels)).get?_eq
  have hannotations := (StringMapAt.of_encode
    ((get?_strippedMetadata_annotations o.metadata).trans o.strippedMap_annotations)).get?_eq
  rw [stripMetadata_eq, threeWayDiffMetadata_withMetadata, addMissing_of_contains h.labels,
    addMissing_of_contains h.annotations, ← hlabels, ← hannotations, put_self, put_self]

theorem strippedMetadata_of_sameMetadata {o o' : Object}
    (h : SameMetadata o.metadata o'.metadata) :
    strippedMetadata o'.metadata = strippedMetadata o.metadata := by
  refine strippedMetadata_congr ?_ ?_ fun k h₁ h₂ h₃ => h.rest k fun hk => ?_
  · rw [strippedMap_labels, strippedMap_labels, h.labels]
  · rw [strippedMap_annotations, strippedMap_annotations, h.annotations]
  · simp only [clearedMetadata, List.mem_cons, List.not_mem_nil, or_false, not_or] at h₃ hk
    tauto

theorem syncable_snapshotObject (subresources : List String) :
    Syncable (snapshotObject o.fields subresources) := by
  have hmeta : ∀ m, metadata? (snapshotObject o.fields subresources) = some m →
      m = strippedMetadata o.metadata := by
    intro m hm
    rw [snapshotObject, metadata?_removeSubresources, stripMetadata_eq,
      metadata?_withMetadata] at hm
    split at hm
    · cases hm
    · exact (Option.some.inj hm).symm
  constructor
  · intro m hm d hd
    rw [hmeta m hm, get?_strippedMetadata_labels] at hd
    exact exists_of_strippedMap filterUnsyncableLabels_idem rfl o.labels hd
  · intro m hm d hd
    rw [hmeta m hm, get?_strippedMetadata_annotations] at hd
    exact exists_of_strippedMap filterUnsyncableAnnotations_idem rfl o.annotations hd

theorem nestedString_of_get? {f : Fields} {key v : String} (h : f.get? key = some (.str v)) :
    nestedString f key = v := by
  rw [nestedString, h, Option.bind_some, Doc.str?_str, Option.getD_some]

theorem get?_stripMetadata {k : String} (hk : k ≠ "metadata") :
    (stripMetadata o.fields).get? k = o.fields.get? k := by
  rw [stripMetadata_eq, get?_withMetadata _ _ hk]

theorem get?_snapshotObject {subresources : List String} {k : String} (hk : k ≠ "metadata") :
    (snapshotObject o.fields subresources).get? k =
      if k ∈ subresources then none else o.fields.get? k := by
  rw [snapshotObject, get?_removeSubresources, get?_stripMetadata o hk]

theorem unmarshalJSON_snapshotObject {subresources : List String} (h : "kind" ∉ subresources) :
    unmarshalJSON (snapshotObject o.fields subresources) =
      some (snapshotObject o.fields subresources) := by
  have hkind : nestedString (snapshotObject o.fields subresources) "kind" = o.kind :=
    nestedString_of_get? (by rw [get?_snapshotObject o (by decide), if_neg h, o.kind_eq])
  have hversion : (nestedString (snapshotObject o.fields subresources)
      "apiVersion").toList.count '/' ≤ 1 := by
    by_cases hsub : "apiVersion" ∈ subresources
    · rw [nestedString, get?_snapshotObject o (by decide), if_pos hsub]
      decide
    · rw [nestedString_of_get? (by
        rw [get?_snapshotObject o (by decide), if_neg hsub, o.apiVersion_eq])]
      exact o.apiVersion_slash
  rw [unmarshalJSON, hkind, if_pos ⟨o.kind_ne, hversion⟩]

theorem eq_of_unmarshalJSON {data last : Fields} (h : unmarshalJSON data = some last) :
    last = data := by
  unfold unmarshalJSON at h
  split at h
  · exact (Option.some.inj h).symm
  · cases h

theorem removeSubresources_ignoreType {subresources : List String} {o o' : Object}
    (h : SameState subresources o o') :
    removeSubresources subresources
        (ignoreType (snapshotObject o.fields subresources) (stripMetadata o'.fields)) =
      removeSubresources subresources (stripMetadata o'.fields) := by
  have hversion : nestedString (stripMetadata o'.fields) "apiVersion" = o'.apiVersion :=
    nestedString_of_get? (by rw [get?_stripMetadata o' (by decide), o'.apiVersion_eq])
  have hkind : nestedString (stripMetadata o'.fields) "kind" = o'.kind :=
    nestedString_of_get? (by rw [get?_stripMetadata o' (by decide), o'.kind_eq])
  refine SortedMap.ext_get? fun k => ?_
  rw [get?_removeSubresources, get?_removeSubresources]
  by_cases hsub : k ∈ subresources
  · rw [if_pos hsub, if_pos hsub]
  rw [if_neg hsub, if_neg hsub, ignoreType, hversion, hkind, SortedMap.get?_insert,
    SortedMap.get?_insert]
  by_cases hk : k = "kind"
  · rw [if_pos hk, hk, get?_stripMetadata o' (by decide), o'.kind_eq]
  rw [if_neg hk]
  by_cases hv : k = "apiVersion"
  · rw [if_pos hv, hv, get?_stripMetadata o' (by decide), o'.apiVersion_eq]
  rw [if_neg hv]
  by_cases hm : k = "metadata"
  · subst hm
    rw [snapshotObject, get?_removeSubresources, if_neg hsub, stripMetadata_eq, stripMetadata_eq,
      strippedMetadata_of_sameMetadata (h.metadata hsub)]
    simp only [withMetadata, SortedMap.get?_insert, if_true]
  · rw [get?_snapshotObject o hm, if_neg hsub, get?_stripMetadata o' hm, h.content k hsub hm]

end Object

/-! ### The typed model

On the JSON form of a typed object the functions do what the typed model says. -/

theorem toFields_eq_withMetadata (o : Unstructured) :
    o.toFields = withMetadata o.toFields o.metadata.toFields :=
  eq_withMetadata (by simp [metadata?, Unstructured.toFields])

theorem toFields_of_metadata (o o' : Unstructured) (htype : o'.typeMeta = o.typeMeta)
    (hcontent : o'.content = o.content) :
    o'.toFields = withMetadata o.toFields o'.metadata.toFields := by
  refine SortedMap.ext_get? fun k => ?_
  by_cases hk : k = "metadata" <;>
    simp [withMetadata, Unstructured.toFields, htype, hcontent, hk]

theorem get?_toFields_labels (m : ObjectMeta) :
    m.toFields.get? "labels" = Codec.stringMap.encode m.labels := by
  simp [ObjectMeta.toFields, Assoc.get?]

theorem get?_toFields_annotations (m : ObjectMeta) :
    m.toFields.get? "annotations" = Codec.stringMap.encode m.annotations := by
  simp [ObjectMeta.toFields, Assoc.get?]

theorem get?_toFields_rest (m m' : ObjectMeta) (hname : m'.name = m.name) (hns : m'.ns = m.ns)
    (hdeletion : m'.deletionTimestamp = m.deletionTimestamp) {k : String}
    (hlabels : k ≠ "labels") (hannotations : k ≠ "annotations") (hcleared : k ∉ clearedMetadata) :
    m'.toFields.get? k = m.toFields.get? k := by
  simp only [clearedMetadata, List.mem_cons, List.not_mem_nil, or_false, not_or] at hcleared
  simp [ObjectMeta.toFields, Assoc.get?, hlabels, hannotations, hcleared, hname, hns, hdeletion]

theorem stripMetadata_toFields (o : Unstructured) :
    stripMetadata o.toFields = (Sync.stripMetadata o).toFields := by
  rw [toFields_eq_withMetadata o, stripMetadata_withMetadata,
    toFields_of_metadata o (Sync.stripMetadata o) rfl rfl]
  refine congrArg (withMetadata o.toFields) (SortedMap.ext_get? fun k => ?_)
  rw [get?_strippedMetadata]
  split_ifs with h₁ h₂ h₃
  · rw [h₁, strippedMap_eq (StringMapAt.of_encode (get?_toFields_labels _)) rfl,
      stringMapD_of_encode (get?_toFields_labels _), get?_toFields_labels]
    rfl
  · rw [h₂, strippedMap_eq (StringMapAt.of_encode (get?_toFields_annotations _)) rfl,
      stringMapD_of_encode (get?_toFields_annotations _), get?_toFields_annotations]
    rfl
  · simp only [clearedMetadata, List.mem_cons, List.not_mem_nil, or_false] at h₃
    rcases h₃ with h | h | h | h | h | h | h | h <;> subst h <;>
      simp [ObjectMeta.toFields, Assoc.get?, Sync.stripMetadata, Codec.natOption, Codec.strings,
        Codec.docs, Codec.nat, Codec.string]
  · exact (get?_toFields_rest o.metadata (Sync.stripMetadata o).metadata rfl rfl rfl h₁ h₂ h₃).symm

theorem map_addMissing {source dest : Option StringMap} {desired : StringMap}
    (h : source ≠ some ∅) :
    (addMissing source dest desired).map stringMapDoc =
      Codec.stringMap.encode (Sync.addMissing (source.getD ∅) (dest.getD ∅) desired) := by
  have hfold : ∀ (l : List (String × String)) (source : Option StringMap), source ≠ some ∅ →
      (l.foldl (addIfMissing dest) source).map stringMapDoc =
      Codec.stringMap.encode ((l.filter fun e => (dest.getD ∅).get? e.1 ≠ some e.2).foldl
        (fun acc e => acc.insert e.1 e.2) (source.getD ∅)) := by
    intro l
    induction l with
    | nil =>
      intro source hs
      cases source with
      | none => rfl
      | some v => exact (encode_stringMap fun hv => hs (congrArg some hv)).symm
    | cons e rest ih =>
      intro source hs
      rw [List.foldl_cons, addIfMissing]
      by_cases he : (dest.getD ∅).get? e.1 ≠ some e.2
      · have hne : (source.getD ∅).insert e.1 e.2 ≠ ∅ := fun hempty => by
          simpa using congrArg (·.get? e.1) hempty
        rw [if_pos he, ih _ fun hsome => hne (Option.some.inj hsome),
          List.filter_cons_of_pos (by simpa using he), List.foldl_cons, Option.getD_some]
      · rw [if_neg he, ih _ hs, List.filter_cons_of_neg (by simpa using he)]
  exact hfold desired.entries source h

theorem map_addMissing_of_encode {m : Fields} {key : String} {v : StringMap}
    (h : m.get? key = Codec.stringMap.encode v) (dest : Option StringMap) (desired : StringMap) :
    (addMissing (stringMap? m key) dest desired).map stringMapDoc =
      Codec.stringMap.encode (Sync.addMissing v (dest.getD ∅) desired) := by
  have hget := stringMap?_eq (get?_encode_cases h)
  have hne : stringMap? m key ≠ some ∅ := by
    rw [hget]
    split_ifs with hv
    · exact nofun
    · exact fun hsome => hv (Option.some.inj hsome)
  rw [map_addMissing hne, ← stringMapD, stringMapD_of_encode h]

theorem nestedStringMap_toFields_labels (o : Unstructured) :
    (nestedStringMap o.toFields "labels").getD ∅ = o.metadata.labels := by
  rw [toFields_eq_withMetadata, nestedStringMap_withMetadata]
  exact stringMapD_of_encode (get?_toFields_labels _)

theorem nestedStringMap_toFields_annotations (o : Unstructured) :
    (nestedStringMap o.toFields "annotations").getD ∅ = o.metadata.annotations := by
  rw [toFields_eq_withMetadata, nestedStringMap_withMetadata]
  exact stringMapD_of_encode (get?_toFields_annotations _)

theorem threeWayDiffMetadata_toFields (source dest : Unstructured)
    (labels annotations : StringMap) :
    threeWayDiffMetadata source.toFields dest.toFields labels annotations =
      (Sync.threeWayDiffMetadata source dest labels annotations).toFields := by
  rw [toFields_eq_withMetadata source, threeWayDiffMetadata_withMetadata,
    map_addMissing_of_encode (get?_toFields_labels _),
    map_addMissing_of_encode (get?_toFields_annotations _),
    nestedStringMap_toFields_labels, nestedStringMap_toFields_annotations,
    toFields_of_metadata source (Sync.threeWayDiffMetadata source dest labels annotations) rfl rfl]
  refine congrArg (withMetadata source.toFields) (SortedMap.ext_get? fun k => ?_)
  rw [get?_put, get?_put]
  split_ifs with h₁ h₂
  · rw [h₁, get?_toFields_annotations]
    rfl
  · rw [h₂, get?_toFields_labels]
    rfl
  · simp [ObjectMeta.toFields, Assoc.get?, h₁, h₂, Sync.threeWayDiffMetadata]

theorem removeSubresources_toFields {subresources : List String}
    (h : ∀ k ∈ subresources, k ∉ envelope) (o : Unstructured) :
    removeSubresources subresources o.toFields =
      { o with content := o.content.without subresources : Unstructured }.toFields := by
  refine SortedMap.ext_get? fun k => ?_
  rw [get?_removeSubresources]
  by_cases henv : k ∈ envelope
  · rw [if_neg fun hk => h k hk henv]
    simp only [envelope, List.mem_cons, List.not_mem_nil, or_false] at henv
    rcases henv with rfl | rfl | rfl <;> simp [Unstructured.toFields]
  · rw [Unstructured.get?_toFields_content _ henv, Unstructured.get?_toFields_content _ henv,
      Content.get?_without]

theorem snapshotObject_toFields {subresources : List String}
    (h : ∀ k ∈ subresources, k ∉ envelope) (o : Unstructured) :
    snapshotObject o.toFields subresources = (Sync.snapshotObject o subresources).toFields := by
  rw [snapshotObject, stripMetadata_toFields, removeSubresources_toFields h]
  rfl

theorem createMergePatch_toFields (L : Libraries) (s : ObjectSyncer)
    (h : ∀ k ∈ s.subresources, k ∉ envelope) (base revision : Unstructured) :
    createMergePatch L.diff s.subresources base.toFields revision.toFields =
      s.createMergePatch L base revision := by
  rw [createMergePatch, removeSubresources_toFields h, removeSubresources_toFields h]
  rfl

/-- The objects of the typed model. -/
def Object.ofUnstructured (o : Unstructured) (h : o.typeMeta.apiVersion.toList.count '/' ≤ 1) :
    Object where
  fields := o.toFields
  metadata := o.metadata.toFields
  apiVersion := o.typeMeta.apiVersion
  kind := o.typeMeta.kind
  metadata_eq := by simp [metadata?, Unstructured.toFields]
  apiVersion_eq := by simp [Unstructured.toFields]
  apiVersion_slash := h
  kind_eq := by simp [Unstructured.toFields]
  kind_ne := o.typeMeta.kind_ne
  labels := StringMapAt.of_encode (get?_toFields_labels _)
  annotations := StringMapAt.of_encode (get?_toFields_annotations _)

/-! ### The result -/

/-- The stored state depends on the source alone: link metadata that a pass adds to the stripped
source, the subresources and the metadata that is not copied leave no trace in it, and a source that
differs in nothing else gives the empty patch against it. -/
theorem snapshotObject_of_source (hash : Hash) (D : MergeDiff) (source : Object) (dest : Fields)
    (key : ObjectKey) (subresources : List String) :
    snapshotObject (threeWayDiffMetadata (stripMetadata source.fields) dest (key.labels hash)
        key.annotations) subresources = snapshotObject source.fields subresources ∧
    snapshotObject (snapshotObject source.fields subresources) subresources =
      snapshotObject source.fields subresources ∧
    Syncable (snapshotObject source.fields subresources) ∧
    ("kind" ∉ subresources → ∃ last,
      unmarshalJSON (snapshotObject source.fields subresources) = some last) ∧
    ∀ source' last, SameState subresources source source' →
      unmarshalJSON (snapshotObject source.fields subresources) = some last →
      (LinkIntact hash key dest → createMergePatch D subresources
        (ignoreType last (stripMetadata source'.fields))
        (threeWayDiffMetadata (stripMetadata source'.fields) dest (key.labels hash)
          key.annotations) = ∅) ∧
      createMergePatch D subresources (ignoreType last (stripMetadata source'.fields))
        (stripMetadata source'.fields) = ∅ := by
  refine ⟨?_, snapshotObject_idem subresources source.fields,
    source.syncable_snapshotObject subresources,
    fun h => ⟨_, source.unmarshalJSON_snapshotObject h⟩, fun source' last hsame hlast => ?_⟩
  · rw [snapshotObject, source.stripMetadata_threeWayDiffMetadata, snapshotObject]
  · have hpatch : createMergePatch D subresources
        (ignoreType last (stripMetadata source'.fields)) (stripMetadata source'.fields) = ∅ := by
      rw [createMergePatch, Object.eq_of_unmarshalJSON hlast,
        Object.removeSubresources_ignoreType hsame, D.create_self]
    exact ⟨fun hlink => by
      rw [source'.threeWayDiffMetadata_of_linkIntact hlink]; exact hpatch, hpatch⟩

/-- A source before and after its API server has taken note of the agent: finalizers, generation,
resource version and a label of its own are added. -/
def backup : Unstructured :=
  { typeMeta := ⟨"stable.example.com/v1", "Backup", by decide⟩
    metadata := { name := "daily", labels := SortedMap.insert ∅ "app" "cron" }
    content := default }

def backupLater : Unstructured :=
  { backup with metadata := { backup.metadata with
      finalizers := [deletionFinalizer]
      generation := 2
      resourceVersion := 7
      labels := (SortedMap.insert ∅ "app" "cron").insert "claimed.internal.apis.kcp.io/abc" "x" } }

def backupKey : ObjectKey := newObjectKey backup "root" ""

def backupCopy : Unstructured :=
  { backup with metadata := { backup.metadata with
      labels := backupKey.labels Hash.plain
      annotations := backupKey.annotations } }

theorem sameState_backup : SameState ["status"] (.ofUnstructured backup (by decide))
    (.ofUnstructured backupLater (by decide)) where
  content k _ hk := by
    refine (congrArg (·.get? k) (toFields_of_metadata backup backupLater rfl rfl)).trans ?_
    exact get?_withMetadata _ _ hk
  metadata _ :=
    { rest := fun k hk => by
        simp only [List.mem_cons, List.not_mem_nil, or_false, not_or] at hk
        simp [Object.ofUnstructured, ObjectMeta.toFields, Assoc.get?, backupLater, hk]
      labels := by
        simp only [Object.ofUnstructured, stringMapD_of_encode (get?_toFields_labels _)]
        decide
      annotations := by
        simp only [Object.ofUnstructured, stringMapD_of_encode (get?_toFields_annotations _)]
        rfl }

theorem linkIntact_backup : LinkIntact Hash.plain backupKey backupCopy.toFields where
  labels := by
    rw [nestedStringMap_toFields_labels]
    exact fun _ _ h => h
  annotations := by
    rw [nestedStringMap_toFields_annotations]
    exact fun _ _ h => h

theorem snapshotObject_backup :
    SameState ["status"] (.ofUnstructured backup (by decide))
      (.ofUnstructured backupLater (by decide)) ∧
    LinkIntact Hash.plain backupKey backupCopy.toFields ∧
    ∃ last, unmarshalJSON (snapshotObject backup.toFields ["status"]) = some last ∧
      createMergePatch .rfc7386 ["status"] (ignoreType last (stripMetadata backupLater.toFields))
        (threeWayDiffMetadata (stripMetadata backupLater.toFields) backupCopy.toFields
          (backupKey.labels Hash.plain) backupKey.annotations) = ∅ := by
  have hresult := snapshotObject_of_source Hash.plain .rfc7386
    (.ofUnstructured backup (by decide)) backupCopy.toFields backupKey ["status"]
  obtain ⟨last, hlast⟩ := hresult.2.2.2.1 (by decide)
  exact ⟨sameState_backup, linkIntact_backup, last, hlast,
    (hresult.2.2.2.2 _ last sameState_backup hlast).1 linkIntact_backup⟩

end Sync.Raw
