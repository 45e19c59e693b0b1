import SyncAgent.Sync.Pass

/-! The metadata that links a local copy to its remote object, through everything that `Sync` writes
to the copy. -/

namespace Sync

open Kube

/-! ### What is copied and what is not -/

theorem ObjectKey.get?_labels (hash : Hash) (key : ObjectKey) (k : String) :
    (key.labels hash).get? k =
      if k = remoteObjectNamespaceHashLabel ∧ key.ns ≠ "" then some (hash (.text key.ns))
      else if k = remoteObjectNameHashLabel then some (hash (.text key.name))
      else if k = remoteObjectClusterLabel then some key.clusterName
      else none := by
  unfold ObjectKey.labels
  dsimp only
  split
  · next h => simp [h]
  · next h => simp [h]

theorem ObjectKey.get?_annotations (key : ObjectKey) (k : String) :
    key.annotations.get? k =
      if k = remoteObjectWorkspacePathAnnotation ∧ key.workspacePath ≠ "" then
        some key.workspacePath
      else if k = remoteObjectNamespaceAnnotation ∧ key.ns ≠ "" then some key.ns
      else if k = remoteObjectNameAnnotation then some key.name
      else none := by
  unfold ObjectKey.annotations
  dsimp only
  split <;> split <;> simp [*]

theorem syncableLabel_of_key {hash : Hash} {key : ObjectKey} {k v : String}
    (h : (key.labels hash).get? k = some v) : syncableLabel k = false := by
  have hmem : k ∈ unsyncableLabels := by
    by_contra hne
    simp only [unsyncableLabels, List.mem_cons, List.not_mem_nil, or_false, not_or] at hne
    obtain ⟨h₁, h₂, h₃⟩ := hne
    simp [ObjectKey.get?_labels, h₁, h₂, h₃] at h
  simp [syncableLabel, hmem]

theorem syncableAnnotation_of_key {key : ObjectKey} {k v : String}
    (h : key.annotations.get? k = some v) : syncableAnnotation k = false := by
  have hmem : k ∈ unsyncableAnnotations := by
    by_contra hne
    simp only [unsyncableAnnotations, List.mem_cons, List.not_mem_nil, or_false, not_or] at hne
    obtain ⟨-, -, -, h₁, h₂, h₃⟩ := hne
    simp [ObjectKey.get?_annotations, h₁, h₂, h₃] at h
  simp [hmem, syncableAnnotation]

theorem key_labels_agentName (hash : Hash) (key : ObjectKey) :
    (key.labels hash).get? agentNameLabel = none := by
  cases h : (key.labels hash).get? agentNameLabel with
  | none => rfl
  | some v => exact absurd (syncableLabel_of_key h) (by decide)

@[simp] theorem get?_filterUnsyncableLabels (m : StringMap) (k : String) :
    (filterUnsyncableLabels m).get? k = if syncableLabel k then m.get? k else none :=
  SortedMap.get?_filterKeys _ _ _

@[simp] theorem get?_filterUnsyncableAnnotations (m : StringMap) (k : String) :
    (filterUnsyncableAnnotations m).get? k = if syncableAnnotation k then m.get? k else none :=
  SortedMap.get?_filterKeys _ _ _

@[simp] theorem filterUnsyncableLabels_idem (m : StringMap) :
    filterUnsyncableLabels (filterUnsyncableLabels m) = filterUnsyncableLabels m :=
  SortedMap.ext_get? fun k => by by_cases h : syncableLabel k = true <;> simp [h]

@[simp] theorem filterUnsyncableAnnotations_idem (m : StringMap) :
    filterUnsyncableAnnotations (filterUnsyncableAnnotations m) = filterUnsyncableAnnotations m :=
  SortedMap.ext_get? fun k => by by_cases h : syncableAnnotation k = true <;> simp [h]

theorem stripMetadata_stripMetadata (o : Unstructured) :
    stripMetadata (stripMetadata o) = stripMetadata o := by
  simp only [stripMetadata, filterUnsyncableLabels_idem, filterUnsyncableAnnotations_idem]

theorem snapshotObject_stripMetadata (o : Unstructured) (subresources : List String) :
    snapshotObject (stripMetadata o) subresources = snapshotObject o subresources := by
  simp only [snapshotObject, stripMetadata_stripMetadata]

/-! ### Link metadata -/

/-- The copy carries the labels and annotations of a key. -/
structure Keyed (hash : Hash) (key : ObjectKey) (o : Unstructured) : Prop where
  labels : o.metadata.labels.Contains (key.labels hash)
  annotations : o.metadata.annotations.Contains key.annotations

/-- The copy carries all metadata that links it to the remote object of a key. -/
structure Linked (hash : Hash) (key : ObjectKey) (agentName : String) (o : Unstructured) : Prop
    extends Keyed hash key o where
  agent : o.metadata.labels.get? agentNameLabel = some agentName

theorem contains_labels_iff {hash : Hash} {key : ObjectKey} {m : StringMap} :
    m.Contains (key.labels hash) ↔
      m.get? remoteObjectClusterLabel = some key.clusterName ∧
      m.get? remoteObjectNameHashLabel = some (hash (.text key.name)) ∧
      (key.ns ≠ "" → m.get? remoteObjectNamespaceHashLabel = some (hash (.text key.ns))) := by
  have hne : remoteObjectClusterLabel ≠ remoteObjectNamespaceHashLabel ∧
      remoteObjectClusterLabel ≠ remoteObjectNameHashLabel ∧
      remoteObjectNameHashLabel ≠ remoteObjectNamespaceHashLabel := by decide
  constructor
  · intro h
    refine ⟨h _ _ ?_, h _ _ ?_, fun hns => h _ _ ?_⟩
    · simp [ObjectKey.get?_labels, hne]
    · simp [ObjectKey.get?_labels, hne]
    · simp [ObjectKey.get?_labels, hns]
  · rintro ⟨hcluster, hname, hns⟩ k v hk
    rw [ObjectKey.get?_labels] at hk
    split_ifs at hk with h₁ h₂ h₃
    · rw [h₁.1, hns h₁.2, hk]
    · rw [h₂, hname, hk]
    · rw [h₃, hcluster, hk]

theorem Keyed.remoteName {hash : Hash} {key : ObjectKey} {o : Unstructured} (h : Keyed hash key o)
    (hcluster : key.clusterName ≠ "") (hname : key.name ≠ "") :
    remoteNameForLocalObject o = some ⟨key.clusterName,
      (o.metadata.annotations.get? remoteObjectNamespaceAnnotation).getD "", key.name⟩ := by
  have hcl := (contains_labels_iff.mp h.labels).1
  have hne : remoteObjectNameAnnotation ≠ remoteObjectWorkspacePathAnnotation ∧
      remoteObjectNameAnnotation ≠ remoteObjectNamespaceAnnotation := by decide
  have hna : o.metadata.annotations.get? remoteObjectNameAnnotation = some key.name :=
    h.annotations _ _ (by simp [ObjectKey.get?_annotations, hne])
  simp [remoteNameForLocalObject, hcl, hna, hcluster, hname]

theorem ObjectKey.get?_annotations_namespace (key : ObjectKey) :
    key.annotations.get? remoteObjectNamespaceAnnotation =
      if key.ns = "" then none else some key.ns := by
  have hne : remoteObjectNamespaceAnnotation ≠ remoteObjectWorkspacePathAnnotation ∧
      remoteObjectNamespaceAnnotation ≠ remoteObjectNameAnnotation := by decide
  by_cases hns : key.ns = "" <;> simp [ObjectKey.get?_annotations, hne, hns]

theorem Linked.recognized {hash : Hash} {key : ObjectKey} {agentName : String} {o : Unstructured}
    (h : Linked hash key agentName o) (hcluster : key.clusterName ≠ "") (hname : key.name ≠ "") :
    selectorFromSet (key.labels hash) o.metadata.labels = true ∧ ownedBy o agentName = true ∧
      ∃ ns, remoteNameForLocalObject o = some ⟨key.clusterName, ns, key.name⟩ ∧
        (key.ns ≠ "" → ns = key.ns) := by
  refine ⟨selectorFromSet_iff.mpr h.labels, by simp [ownedBy, h.agent],
    _, h.remoteName hcluster hname, fun hns => ?_⟩
  rw [h.annotations _ key.ns (by rw [ObjectKey.get?_annotations_namespace, if_neg hns])]
  rfl

/-! ### Which remote object a copy leads to -/

/-- The object with the labels and annotations of a key, over those that it had. -/
def linkTo (hash : Hash) (key : ObjectKey) (o : Unstructured) : Unstructured :=
  ensureAnnotations (ensureLabels o (key.labels hash)) key.annotations

theorem linkTo_keyed (hash : Hash) (key : ObjectKey) (o : Unstructured) :
    Keyed hash key (linkTo hash key o) :=
  ⟨SortedMap.contains_insertAll _ _, SortedMap.contains_insertAll _ _⟩

/-- The copy is found by the selector of another key only if that is the same remote object, and it
leads back to the remote object of its own key. -/
structure Identifies (hash : Hash) (other key : ObjectKey) (o : Unstructured) : Prop where
  selected : selectorFromSet (other.labels hash) o.metadata.labels = true ↔
    other.clusterName = key.clusterName ∧ other.ns = key.ns ∧ other.name = key.name
  leads : remoteNameForLocalObject o = some ⟨key.clusterName, key.ns, key.name⟩

/-- Nothing that is not written for the key can be taken for its namespace: a key of another
namespace with the same cluster and name is itself namespaced, and if the key is cluster-scoped,
then the object does not have the label of that namespace, and no annotation with a namespace. -/
structure ClearNamespace (hash : Hash) (other key : ObjectKey) (o : Unstructured) : Prop where
  label : other.clusterName = key.clusterName → other.name = key.name → other.ns ≠ key.ns →
    other.ns ≠ "" ∧ (key.ns = "" →
      o.metadata.labels.get? remoteObjectNamespaceHashLabel ≠ some (hash (.text other.ns)))
  annotated : key.ns = "" →
    (o.metadata.annotations.get? remoteObjectNamespaceAnnotation).getD "" = ""

section Identity

variable {hash : Hash} {other key : ObjectKey} {o : Unstructured}

theorem selects_linkTo_iff : selectorFromSet (other.labels hash)
    (linkTo hash key o).metadata.labels =
    true ↔ other.clusterName = key.clusterName ∧
      hash (.text other.name) = hash (.text key.name) ∧
      (other.ns ≠ "" → (if key.ns = "" then
        o.metadata.labels.get? remoteObjectNamespaceHashLabel
        else some (hash (.text key.ns))) = some (hash (.text other.ns))) := by
  obtain ⟨hcluster, hname, -⟩ := contains_labels_iff.mp (linkTo_keyed hash key o).labels
  have hns : (linkTo hash key o).metadata.labels.get? remoteObjectNamespaceHashLabel =
      if key.ns = "" then o.metadata.labels.get? remoteObjectNamespaceHashLabel
      else some (hash (.text key.ns)) := by
    have hne : remoteObjectNamespaceHashLabel ≠ remoteObjectNameHashLabel ∧
        remoteObjectNamespaceHashLabel ≠ remoteObjectClusterLabel := by decide
    by_cases h : key.ns = "" <;>
      simp [linkTo, ensureAnnotations, ensureLabels, ObjectKey.get?_labels, hne, h]
  rw [selectorFromSet_iff, contains_labels_iff, hcluster, hname, hns, Option.some.injEq,
    Option.some.injEq, eq_comm (a := key.clusterName), eq_comm (a := hash (.text key.name))]

theorem leads_linkTo_iff (hcluster : key.clusterName ≠ "") (hname : key.name ≠ "") :
    remoteNameForLocalObject (linkTo hash key o) = some ⟨key.clusterName, key.ns, key.name⟩ ↔
      (key.ns = "" →
        (o.metadata.annotations.get? remoteObjectNamespaceAnnotation).getD "" = "") := by
  rw [(linkTo_keyed hash key o).remoteName hcluster hname]
  by_cases h : key.ns = "" <;>
    simp [linkTo, ensureAnnotations, ensureLabels, ObjectKey.get?_annotations_namespace, h]

/-- A linked copy identifies its remote object if and only if nothing is ambiguous. -/
theorem identifies_linkTo_iff (hhash : ∀ a b, hash (.text a) = hash (.text b) → a = b)
    (hcluster : key.clusterName ≠ "") (hname : key.name ≠ "") (o : Unstructured) :
    Identifies hash other key (linkTo hash key o) ↔ ClearNamespace hash other key o := by
  constructor
  · intro h
    refine ⟨fun hc hn hdiff => ?_, (leads_linkTo_iff hcluster hname).mp h.leads⟩
    have hnot : ¬ selectorFromSet (other.labels hash) (linkTo hash key o).metadata.labels = true :=
      fun hsel => hdiff (h.selected.mp hsel).2.1
    rw [selects_linkTo_iff] at hnot
    constructor
    · intro hempty
      exact hnot ⟨hc, by rw [hn], fun hne => absurd hempty hne⟩
    · intro hkey hlabel
      exact hnot ⟨hc, by rw [hn], fun _ => by rw [if_pos hkey, hlabel]⟩
  · intro h
    refine ⟨?_, (leads_linkTo_iff hcluster hname).mpr h.annotated⟩
    rw [selects_linkTo_iff]
    constructor
    · rintro ⟨hc, hn, hns⟩
      have hn := hhash _ _ hn
      refine ⟨hc, ?_, hn⟩
      by_contra hdiff
      obtain ⟨hother, hlabel⟩ := h.label hc hn hdiff
      have hns := hns hother
      by_cases hkey : key.ns = ""
      · rw [if_pos hkey] at hns
        exact hlabel hkey hns
      · rw [if_neg hkey] at hns
        exact hdiff (hhash _ _ (Option.some.inj hns)).symm
    · rintro ⟨hc, hns, hn⟩
      exact ⟨hc, by rw [hn], fun hne => by rw [if_neg (hns ▸ hne), hns]⟩

/-- Objects of the same name in two namespaces. -/
theorem identifies_namespaced :
    Identifies .plain ⟨"c1", "", "team-a", "main"⟩ ⟨"c1", "", "team-b", "main"⟩
      (linkTo .plain ⟨"c1", "", "team-b", "main"⟩ ⟨.secret, {}, default⟩) :=
  (identifies_linkTo_iff (fun _ _ h => h) (by decide) (by decide) _).mpr
    ⟨fun _ _ _ => ⟨by decide, fun h => absurd h (by decide)⟩, fun h => absurd h (by decide)⟩

/-- The selector of a cluster-scoped key finds the copy of a namespaced one.  A copy that was linked
to a namespaced object before it is linked to a cluster-scoped one still leads to the first. -/
theorem linkTo_ambiguous :
    selectorFromSet (ObjectKey.labels .plain ⟨"c1", "", "", "main"⟩)
      (linkTo .plain ⟨"c1", "", "team", "main"⟩ ⟨.secret, {}, default⟩).metadata.labels = true ∧
    selectorFromSet (ObjectKey.labels .plain ⟨"c1", "", "team", "main"⟩)
      (linkTo .plain ⟨"c1", "", "", "main"⟩
        (linkTo .plain ⟨"c1", "", "team", "main"⟩ ⟨.secret, {}, default⟩)).metadata.labels = true ∧
    remoteNameForLocalObject (linkTo .plain ⟨"c1", "", "", "main"⟩
      (linkTo .plain ⟨"c1", "", "team", "main"⟩ ⟨.secret, {}, default⟩)) =
        some ⟨"c1", "team", "main"⟩ := by
  decide

end Identity

namespace ObjectSyncer

variable {L : Libraries} {σ : ObjectSyncer} {side : SyncSide} {source : Unstructured}

/-- The syncer of a primary object: it links the copy to its source and puts no other metadata on
it. -/
structure Links (σ : ObjectSyncer) : Prop where
  metadata : σ.metadataOnDestination = true
  labels : σ.destLabels = ∅
  annotations : σ.destAnnotations = ∅

theorem ensureDestMetadata_eq (hσ : σ.Links) (o : Unstructured) : σ.ensureDestMetadata o = o := by
  unfold ensureDestMetadata ensureLabels ensureAnnotations
  rw [hσ.labels, hσ.annotations]
  rfl

/-- The key that the copy of `source` is linked to. -/
def keyOf (side : SyncSide) (source : Unstructured) : ObjectKey :=
  newObjectKey source side.clusterName side.workspacePath

theorem labels_labelWithAgent {hash : Hash} {key : ObjectKey} {o : Unstructured}
    (h : o.metadata.labels.Contains (key.labels hash)) :
    (σ.labelWithAgent o).metadata.labels.Contains (key.labels hash) := by
  unfold labelWithAgent
  split
  · refine h.insertAll fun k v hk => ?_
    have hne : k ≠ agentNameLabel := by
      rintro rfl
      rw [key_labels_agentName] at hk
      cases hk
    simp [hne]
  · exact h

theorem annotations_labelWithAgent (o : Unstructured) :
    (σ.labelWithAgent o).metadata.annotations = o.metadata.annotations := by
  unfold labelWithAgent
  split <;> rfl

section Linking

variable (hσ : σ.Links)

include hσ

theorem labels_newDestination (destObj : Unstructured) :
    (σ.newDestination L side source destObj).metadata.labels.Contains
      ((keyOf side source).labels L.hash) := by
  rw [newDestination, ensureDestMetadata_eq hσ, linkMetadata, if_pos hσ.metadata]
  exact labels_labelWithAgent (SortedMap.contains_insertAll _ _)

theorem newDestination_keyed (destObj : Unstructured) :
    Keyed L.hash (keyOf side source) (σ.newDestination L side source destObj) := by
  refine ⟨labels_newDestination hσ destObj, ?_⟩
  rw [newDestination, ensureDestMetadata_eq hσ, linkMetadata, if_pos hσ.metadata,
    annotations_labelWithAgent]
  exact SortedMap.contains_insertAll _ _

theorem newDestination_linked (hagent : σ.agentName ≠ "") (destObj : Unstructured) :
    Linked L.hash (keyOf side source) σ.agentName
      (σ.newDestination L side source destObj) := by
  refine ⟨newDestination_keyed hσ destObj, ?_⟩
  rw [newDestination, ensureDestMetadata_eq hσ, linkMetadata, if_pos hσ.metadata, labelWithAgent,
    if_pos hagent]
  simp [ensureLabels]

theorem labels_adopted (existing : Unstructured) (key : ObjectKey) :
    (σ.adopted L existing key).metadata.labels.Contains (key.labels L.hash) := by
  rw [adopted, ensureDestMetadata_eq hσ]
  exact labels_labelWithAgent (SortedMap.contains_insertAll _ _)

theorem adopted_keyed (existing : Unstructured) (key : ObjectKey) :
    Keyed L.hash key (σ.adopted L existing key) := by
  refine ⟨labels_adopted hσ existing key, ?_⟩
  rw [adopted, ensureDestMetadata_eq hσ, annotations_labelWithAgent]
  exact SortedMap.contains_insertAll _ _

theorem adopted_linked (hagent : σ.agentName ≠ "") (existing : Unstructured) (key : ObjectKey) :
    Linked L.hash key σ.agentName (σ.adopted L existing key) := by
  refine ⟨adopted_keyed hσ existing key, ?_⟩
  rw [adopted, ensureDestMetadata_eq hσ, labelWithAgent, if_pos hagent]
  simp [ensureLabels]

end Linking

theorem labels_fullUpdate {key : ObjectKey} {dest : Unstructured}
    (h : dest.metadata.labels.Contains (key.labels L.hash)) :
    (σ.fullUpdate source dest).metadata.labels.Contains (key.labels L.hash) := by
  refine SortedMap.Contains.insertAll h fun k v hk => ?_
  simp [syncableLabel_of_key hk]

theorem fullUpdate_keyed {key : ObjectKey} {dest : Unstructured} (h : Keyed L.hash key dest) :
    Keyed L.hash key (σ.fullUpdate source dest) := by
  refine ⟨labels_fullUpdate h.labels, ?_⟩
  refine SortedMap.Contains.insertAll h.annotations fun k v hk => ?_
  simp [syncableAnnotation_of_key hk]

theorem fullUpdate_linked {key : ObjectKey} {agentName : String} {dest : Unstructured}
    (h : Linked L.hash key agentName dest)
    (hsource : source.metadata.labels.get? agentNameLabel = none ∨
      source.metadata.labels.get? agentNameLabel = some agentName) :
    Linked L.hash key agentName (σ.fullUpdate source dest) := by
  refine ⟨fullUpdate_keyed h.toKeyed, ?_⟩
  have hsync : syncableLabel agentNameLabel = true := by decide
  rcases hsource with hnone | hown
  · simp [fullUpdate, ensureLabels, ensureAnnotations, stripMetadata, hsync, hnone, h.agent]
  · simp [fullUpdate, ensureLabels, ensureAnnotations, stripMetadata, hsync, hown]

/-! ### Patches -/

/-- A map that a patch does not empty: the last-known map has nothing that is never copied, and it
is empty if nothing of the source is copied. -/
structure SafeMap (syncable : StringMap → StringMap) (last source : StringMap) : Prop where
  stripped : syncable last = last
  notEmptied : syncable source = ∅ → last = ∅

theorem addMissing_ne_empty {base current desired : StringMap} (h : base ≠ ∅) :
    addMissing base current desired ≠ ∅ := by
  intro hempty
  refine h (SortedMap.ext_get? fun k => ?_)
  have hk := congrArg (SortedMap.get? · k) hempty
  simp only [addMissing, SortedMap.get?_insertAll, SortedMap.get?_empty,
    Option.or_eq_none_iff] at hk
  exact hk.2

theorem patchMap_addMissing {syncable : StringMap → StringMap}
    {last source current desired c : StringMap}
    (hsafe : SafeMap syncable last source)
    (hc : ∀ k v, desired.get? k = some v → current.get? k = some v → c.get? k = some v)
    (hdesired : ∀ k v, desired.get? k = some v → ∀ m, (syncable m).get? k = none) :
    (patchMap last (addMissing (syncable source) current desired) c).Contains desired := by
  intro k v hk
  have hlast : last.get? k = none := by
    rw [← hsafe.stripped]
    exact hdesired k v hk last
  have hempty : addMissing (syncable source) current desired = ∅ → last = ∅ := fun h =>
    hsafe.notEmptied (by_contra fun hne => addMissing_ne_empty hne h)
  rw [get?_patchMap]
  by_cases hcurrent : current.get? k = some v
  · have hsame : (addMissing (syncable source) current desired).get? k = none := by
      simp [addMissing, hk, hcurrent, hdesired k v hk source, Option.filter]
    rw [hsame, hlast, if_pos rfl]
    split
    · exact hc k v hk hcurrent
    · next hne =>
      rw [if_neg fun h => hne ((hempty h).trans h.symm)]
      exact hc k v hk hcurrent
  · have hset : (addMissing (syncable source) current desired).get? k = some v := by
      simp [addMissing, hk, hcurrent, Option.filter]
    have hdiff : last ≠ addMissing (syncable source) current desired := fun h => by
      rw [← h, hlast] at hset
      cases hset
    have hne : addMissing (syncable source) current desired ≠ ∅ := fun h => by
      rw [h] at hset
      cases hset
    rw [if_neg hdiff, if_neg hne, hlast, hset, if_neg (by simp)]

/-- The object after the patch of `syncObjectSpec`. -/
def afterPatch (L : Libraries) (σ : ObjectSyncer) (side : SyncSide)
    (last source dest cur : Unstructured) :
    Unstructured :=
  Unstructured.patched L.diff (σ.removeSubresources { last with typeMeta := source.typeMeta })
    (σ.removeSubresources (σ.desiredState L side source dest)) cur

theorem addMissing_of_contains {base current desired : StringMap} (h : current.Contains desired) :
    addMissing base current desired = base := by
  refine SortedMap.ext_get? fun k => ?_
  cases hk : desired.get? k with
  | none => simp [addMissing, hk]
  | some v => simp [addMissing, hk, h k v hk, Option.filter]

theorem desiredState_of_keyed {L : Libraries} {σ : ObjectSyncer} {side : SyncSide}
    {source dest : Unstructured} (h : Keyed L.hash (keyOf side source) dest) :
    σ.desiredState L side source dest = stripMetadata source := by
  unfold desiredState
  split
  · show threeWayDiffMetadata (stripMetadata source) dest ((keyOf side source).labels L.hash)
      (keyOf side source).annotations = stripMetadata source
    simp only [threeWayDiffMetadata, addMissing_of_contains h.labels,
      addMissing_of_contains h.annotations]
  · rfl

theorem typeMeta_desiredState (L : Libraries) (σ : ObjectSyncer) (side : SyncSide)
    (source dest : Unstructured) :
    (σ.desiredState L side source dest).typeMeta = source.typeMeta := by
  unfold desiredState
  split <;> rfl

theorem desiredState_rest (L : Libraries) (σ : ObjectSyncer) (side : SyncSide)
    (source dest : Unstructured) :
    (σ.desiredState L side source dest).content = source.content ∧
      (σ.desiredState L side source dest).metadata.ns = source.metadata.ns ∧
      (σ.desiredState L side source dest).metadata.name = source.metadata.name := by
  unfold desiredState
  split <;> exact ⟨rfl, rfl, rfl⟩

theorem snapshotObject_desiredState (L : Libraries) (σ : ObjectSyncer) (side : SyncSide)
    (source dest : Unstructured) (subresources : List String) :
    snapshotObject (σ.desiredState L side source dest) subresources =
      snapshotObject source subresources := by
  unfold desiredState
  split
  · have hlabels :
      filterUnsyncableLabels (addMissing (filterUnsyncableLabels source.metadata.labels)
        dest.metadata.labels ((keyOf side source).labels L.hash)) =
        filterUnsyncableLabels source.metadata.labels := by
      refine SortedMap.ext_get? fun k => ?_
      cases hk : ((keyOf side source).labels L.hash).get? k with
      | none => by_cases h : syncableLabel k = true <;> simp [addMissing, hk, h]
      | some v => simp [syncableLabel_of_key hk]
    have hannotations : filterUnsyncableAnnotations (addMissing
        (filterUnsyncableAnnotations source.metadata.annotations) dest.metadata.annotations
        (keyOf side source).annotations) =
        filterUnsyncableAnnotations source.metadata.annotations := by
      refine SortedMap.ext_get? fun k => ?_
      cases hk : (keyOf side source).annotations.get? k with
      | none => by_cases h : syncableAnnotation k = true <;> simp [addMissing, hk, h]
      | some v => simp [syncableAnnotation_of_key hk]
    simp only [snapshotObject, threeWayDiffMetadata, stripMetadata]
    simp only [keyOf] at hlabels hannotations
    rw [hlabels, hannotations]
  · exact snapshotObject_stripMetadata source subresources

/-- What the patch of `syncObjectSpec` does. -/
theorem does_afterPatch {S : Server} {scope : Scope} {w w' : World} {last dest : Unstructured}
    {id : ObjectId} {r : Except ApiError Unstructured}
    (h : World.Does S
      ⟨scope, .patch id (σ.createMergePatch L { last with typeMeta := source.typeMeta }
      (σ.desiredState L side source dest))⟩ w r w') :
    (∃ e, r = .error e ∧ w' = w) ∨
    ∃ cur o, w.object? id = some cur ∧ r = .ok o ∧
      (afterPatch L σ side last source dest cur).idOn id.client = id ∧
      w.Rewrites id (S.settle id.client cur (afterPatch L σ side last source dest cur)) o w' := by
  have htypes : (σ.removeSubresources { last with typeMeta := source.typeMeta }).typeMeta =
      (σ.removeSubresources (σ.desiredState L side source dest)).typeMeta :=
    (typeMeta_desiredState L σ side source dest).symm
  rcases World.Does.patch_create htypes h with
    herr | ⟨cur, o, hcur, hr, hid, -, hrew⟩
  · exact .inl herr
  · exact .inr ⟨cur, o, hcur, hr, hid, hrew⟩

theorem labels_afterPatch (hσ : σ.Links) (dest : Unstructured) {last cur : Unstructured}
    (hsafe : SafeMap filterUnsyncableLabels last.metadata.labels source.metadata.labels)
    (hcur : cur.metadata.labels.Contains ((keyOf side source).labels L.hash)) :
    (afterPatch L σ side last source dest cur).metadata.labels.Contains
      ((keyOf side source).labels L.hash) := by
  show (patchMap _ (σ.desiredState L side source dest).metadata.labels _).Contains _
  rw [desiredState, if_pos hσ.metadata]
  refine patchMap_addMissing hsafe (fun k v hk _ => hcur k v hk) fun k v hk m => ?_
  simp [syncableLabel_of_key hk]

theorem afterPatch_keyed (hσ : σ.Links) (dest : Unstructured) {last cur : Unstructured}
    (hlabels : SafeMap filterUnsyncableLabels last.metadata.labels source.metadata.labels)
    (hannotations : SafeMap filterUnsyncableAnnotations last.metadata.annotations
      source.metadata.annotations)
    (hcur : Keyed L.hash (keyOf side source) cur) :
    Keyed L.hash (keyOf side source) (afterPatch L σ side last source dest cur) := by
  refine ⟨labels_afterPatch hσ dest hlabels hcur.labels, ?_⟩
  show (patchMap _ (σ.desiredState L side source dest).metadata.annotations _).Contains _
  rw [desiredState, if_pos hσ.metadata]
  refine patchMap_addMissing hannotations (fun k v hk _ => hcur.annotations k v hk)
    fun k v hk m => ?_
  simp [syncableAnnotation_of_key hk]

theorem afterPatch_self_keyed (hσ : σ.Links) {last dest : Unstructured}
    (hlabels : SafeMap filterUnsyncableLabels last.metadata.labels source.metadata.labels)
    (hannotations : SafeMap filterUnsyncableAnnotations last.metadata.annotations
      source.metadata.annotations) :
    Keyed L.hash (keyOf side source) (afterPatch L σ side last source dest dest) := by
  constructor
  · show (patchMap _ (σ.desiredState L side source dest).metadata.labels _).Contains _
    rw [desiredState, if_pos hσ.metadata]
    refine patchMap_addMissing hlabels (fun _ _ _ h => h) fun k v hk m => ?_
    simp [syncableLabel_of_key hk]
  · show (patchMap _ (σ.desiredState L side source dest).metadata.annotations _).Contains _
    rw [desiredState, if_pos hσ.metadata]
    refine patchMap_addMissing hannotations (fun _ _ _ h => h) fun k v hk m => ?_
    simp [syncableAnnotation_of_key hk]

theorem afterPatch_linked (hσ : σ.Links) (dest : Unstructured) {last cur : Unstructured}
    {agentName : String}
    (hlabels : SafeMap filterUnsyncableLabels last.metadata.labels source.metadata.labels)
    (hannotations : SafeMap filterUnsyncableAnnotations last.metadata.annotations
      source.metadata.annotations)
    (hagent : last.metadata.labels.get? agentNameLabel =
        source.metadata.labels.get? agentNameLabel ∨
      source.metadata.labels.get? agentNameLabel = some agentName)
    (hcur : Linked L.hash (keyOf side source) agentName cur) :
    Linked L.hash (keyOf side source) agentName
      (afterPatch L σ side last source dest cur) := by
  refine ⟨afterPatch_keyed hσ dest hlabels hannotations hcur.toKeyed, ?_⟩
  -- the label of the agent is one that is copied
  have hsync : syncableLabel agentNameLabel = true := by decide
  have hown : cur.metadata.labels.Contains (SortedMap.insert ∅ agentNameLabel agentName) := by
    intro k v hk
    by_cases h : k = agentNameLabel
    · subst h
      simp at hk
      rw [hcur.agent, hk]
    · simp [h] at hk
  have hdesired : (threeWayDiffMetadata (stripMetadata source) dest
      ((keyOf side source).labels L.hash) (keyOf side source).annotations).metadata.labels.get?
      agentNameLabel = source.metadata.labels.get? agentNameLabel := by
    simp [threeWayDiffMetadata, addMissing, key_labels_agentName, stripMetadata, hsync]
  have hafter : (patchMap last.metadata.labels (σ.desiredState L side source dest).metadata.labels
      cur.metadata.labels).Contains (SortedMap.insert ∅ agentNameLabel agentName) := by
    rw [desiredState, if_pos hσ.metadata]
    refine patchMap_contains hown (fun hempty => hlabels.notEmptied ?_) fun k v hk => ?_
    · by_contra hne
      exact addMissing_ne_empty hne hempty
    · by_cases h : k = agentNameLabel
      · subst h
        have hv : v = agentName := by simpa using hk.symm
        rcases hagent with hsame | hnew
        · exact .inl (hsame.trans hdesired.symm)
        · exact .inr (hdesired.trans (hv ▸ hnew))
      · simp [h] at hk
  exact hafter agentNameLabel agentName (by simp)

end ObjectSyncer

end Sync
