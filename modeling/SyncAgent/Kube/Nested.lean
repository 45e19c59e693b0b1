import SyncAgent.Kube.Object

/-! The JSON form of an object as the helpers of `unstructured` read and write it.  Other than the
typed metadata of `Unstructured`, it tells an absent map of strings from an empty one.  Once an
object has metadata, all writes here are writes to the metadata, which `withMetadata` puts back. -/

namespace Kube

namespace Nested

def metadata? (f : Fields) : Option Fields := (f.get? "metadata").bind Doc.fields?

/-- `RemoveNestedField(obj, "metadata", key)` -/
def removeNestedField (f : Fields) (key : String) : Fields :=
  match metadata? f with
  | some m => f.insert "metadata" (.obj (m.erase key))
  | none => f

/-- A map of strings as a JSON object, also an empty one. -/
def stringMapDoc (m : StringMap) : Doc := .obj (m.mapValues fun _ s => .str s)

/-- The map of strings at a key of the metadata, `none` if there is none or if it holds other
values. -/
def stringMap? (m : Fields) (key : String) : Option StringMap :=
  (m.get? key).bind fun d => Codec.stringMap.decode (some d)

/-- `GetLabels` and `GetAnnotations`; `none` is nil. -/
def nestedStringMap (f : Fields) (key : String) : Option StringMap :=
  (metadata? f).bind fun m => stringMap? m key

/-- `SetNestedStringMap(obj, value, "metadata", key)`, which fails if the metadata is no object. -/
def setNestedStringMap (f : Fields) (value : StringMap) (key : String) : Fields :=
  match f.get? "metadata" with
  | none => f.insert "metadata" (.obj (SortedMap.insert ∅ key (stringMapDoc value)))
  | some d =>
    match d.fields? with
    | some m => f.insert "metadata" (.obj (m.insert key (stringMapDoc value)))
    | none => f

/-- `SetLabels` and `SetAnnotations`: nil removes the field. -/
def setStringMap (f : Fields) (value : Option StringMap) (key : String) : Fields :=
  match value with
  | none => removeNestedField f key
  | some m => setNestedStringMap f m key

/-! ### Objects with metadata -/

/-- The object with other metadata. -/
def withMetadata (f m : Fields) : Fields := f.insert "metadata" (.obj m)

@[simp] theorem metadata?_withMetadata (f m : Fields) : metadata? (withMetadata f m) = some m := by
  simp [metadata?, withMetadata]

@[simp] theorem withMetadata_withMetadata (f m m' : Fields) :
    withMetadata (withMetadata f m) m' = withMetadata f m' := by
  refine SortedMap.ext_get? fun k => ?_
  by_cases h : k = "metadata" <;> simp [withMetadata, h]

theorem eq_withMetadata {f m : Fields} (h : metadata? f = some m) : f = withMetadata f m := by
  obtain ⟨d, hd, hm⟩ := Option.bind_eq_some_iff.mp h
  refine SortedMap.ext_get? fun k => ?_
  by_cases hk : k = "metadata"
  · simp [withMetadata, hk, hd, Doc.eq_obj_of_fields? hm]
  · simp [withMetadata, hk]

theorem get?_withMetadata (f m : Fields) {k : String} (h : k ≠ "metadata") :
    (withMetadata f m).get? k = f.get? k := by
  simp [withMetadata, h]

@[simp] theorem removeNestedField_withMetadata (f m : Fields) (key : String) :
    removeNestedField (withMetadata f m) key = withMetadata f (m.erase key) := by
  unfold removeNestedField
  rw [metadata?_withMetadata]
  exact withMetadata_withMetadata f m _

@[simp] theorem nestedStringMap_withMetadata (f m : Fields) (key : String) :
    nestedStringMap (withMetadata f m) key = stringMap? m key := by
  rw [nestedStringMap, metadata?_withMetadata, Option.bind_some]

@[simp] theorem setNestedStringMap_withMetadata (f m : Fields) (value : StringMap) (key : String) :
    setNestedStringMap (withMetadata f m) value key =
      withMetadata f (m.insert key (stringMapDoc value)) := by
  have hget : (withMetadata f m).get? "metadata" = some (.obj m) := by simp [withMetadata]
  simp only [setNestedStringMap, hget, Doc.fields?_obj]
  exact withMetadata_withMetadata f m _

/-- The fields with one of them set, or removed if there is no value. -/
def put (m : Fields) (key : String) (value : Option Doc) : Fields :=
  match value with
  | none => m.erase key
  | some d => m.insert key d

@[simp] theorem get?_put (m : Fields) (key : String) (value : Option Doc) (k : String) :
    (put m key value).get? k = if k = key then value else m.get? k := by
  cases value <;> simp [put]

theorem put_self (m : Fields) (key : String) : put m key (m.get? key) = m := by
  refine SortedMap.ext_get? fun k => ?_
  by_cases h : k = key <;> simp [h]

@[simp] theorem setStringMap_withMetadata (f m : Fields) (value : Option StringMap) (key : String) :
    setStringMap (withMetadata f m) value key =
      withMetadata f (put m key (value.map stringMapDoc)) := by
  cases value with
  | none => exact removeNestedField_withMetadata f m key
  | some v => exact setNestedStringMap_withMetadata f m v key

theorem foldl_removeNestedField (f m : Fields) (keys : List String) :
    keys.foldl removeNestedField (withMetadata f m) =
      withMetadata f (m.filterKeys fun k => !keys.contains k) := by
  induction keys generalizing m with
  | nil =>
    refine congrArg (withMetadata f) (SortedMap.ext_get? fun k => ?_)
    simp
  | cons key rest ih =>
    rw [List.foldl_cons, removeNestedField_withMetadata, ih]
    refine congrArg (withMetadata f) (SortedMap.ext_get? fun k => ?_)
    by_cases h : k = key <;> simp [h]

/-! ### Maps of strings -/

/-- The key holds a map of strings, which may be empty, or nothing. -/
def StringMapAt (m : Fields) (key : String) : Prop :=
  ∀ d, m.get? key = some d → ∃ v, d = stringMapDoc v

theorem decode_stringMapDoc (v : StringMap) :
    Codec.stringMap.decode (some (stringMapDoc v)) = some v :=
  Codec.decode_stringMap_obj fun k => SortedMap.get?_mapValues _ _ k

theorem stringMap?_of_get? {m : Fields} {key : String} {v : StringMap}
    (h : m.get? key = some (stringMapDoc v)) : stringMap? m key = some v := by
  rw [stringMap?, h, Option.bind_some, decode_stringMapDoc]

theorem stringMap?_eq_none {m : Fields} {key : String} (h : m.get? key = none) :
    stringMap? m key = none := by
  rw [stringMap?, h, Option.bind_none]

/-- The map of strings at a key, empty if there is none. -/
def stringMapD (m : Fields) (key : String) : StringMap := (stringMap? m key).getD ∅

theorem StringMapAt.of_get? {m : Fields} {key : String} {value : Option StringMap}
    (h : m.get? key = value.map stringMapDoc) : StringMapAt m key := by
  intro d hd
  rw [h] at hd
  obtain ⟨v, -, rfl⟩ := Option.map_eq_some_iff.mp hd
  exact ⟨v, rfl⟩

theorem stringMap?_eq {m : Fields} {key : String} {value : Option StringMap}
    (h : m.get? key = value.map stringMapDoc) : stringMap? m key = value := by
  cases value with
  | none => exact stringMap?_eq_none h
  | some v => exact stringMap?_of_get? h

theorem StringMapAt.get?_eq {m : Fields} {key : String} (h : StringMapAt m key) :
    m.get? key = (stringMap? m key).map stringMapDoc := by
  cases hd : m.get? key with
  | none => rw [stringMap?_eq_none hd, Option.map_none]
  | some d =>
    obtain ⟨v, rfl⟩ := h d hd
    rw [stringMap?_of_get? hd, Option.map_some]

theorem stringMap?_congr {m m' : Fields} {key : String} (h : m'.get? key = m.get? key) :
    stringMap? m' key = stringMap? m key := by
  rw [stringMap?, h, stringMap?]

theorem encode_stringMap {v : StringMap} (h : v ≠ ∅) :
    Codec.stringMap.encode v = some (stringMapDoc v) := if_neg h

theorem encode_stringMap_empty : Codec.stringMap.encode ∅ = none := rfl

theorem get?_encode_cases {m : Fields} {key : String} {v : StringMap}
    (h : m.get? key = Codec.stringMap.encode v) :
    m.get? key = (if v = ∅ then none else some v).map stringMapDoc := by
  rw [h]
  by_cases hv : v = ∅
  · simp [hv, encode_stringMap_empty]
  · simp [hv, encode_stringMap hv]

theorem StringMapAt.of_encode {m : Fields} {key : String} {v : StringMap}
    (h : m.get? key = Codec.stringMap.encode v) : StringMapAt m key :=
  .of_get? (get?_encode_cases h)

theorem stringMapD_of_encode {m : Fields} {key : String} {v : StringMap}
    (h : m.get? key = Codec.stringMap.encode v) : stringMapD m key = v := by
  rw [stringMapD, stringMap?_eq (get?_encode_cases h)]
  by_cases hv : v = ∅ <;> simp [hv]

end Nested

end Kube
