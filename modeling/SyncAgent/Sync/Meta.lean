import SyncAgent.Sync.Client

/-! The metadata that links a copy to its original (`types.go`, `meta.go`, `metadata.go` and
`deletion_policy.go` of `internal/sync`, and `internal/crypto`). -/

namespace Sync

open Kube

def deletionFinalizer := "syncagent.kcp.io/cleanup"

def remoteObjectClusterLabel := "syncagent.kcp.io/remote-object-cluster"
def remoteObjectNamespaceHashLabel := "syncagent.kcp.io/remote-object-namespace-hash"
def remoteObjectNameHashLabel := "syncagent.kcp.io/remote-object-name-hash"

def remoteObjectNamespaceAnnotation := "syncagent.kcp.io/remote-object-namespace"
def remoteObjectNameAnnotation := "syncagent.kcp.io/remote-object-name"
def remoteObjectWorkspacePathAnnotation := "syncagent.kcp.io/remote-object-workspace-path"

def agentNameLabel := "syncagent.kcp.io/agent-name"

def objectStateLabelName := "syncagent.kcp.io/object-state"
def objectStateLabelValue := "true"

def relatedObjectAnnotationPrefix := "related-resources.syncagent.kcp.io/"

def relatedOwnerLabel := "syncagent.kcp.io/related-owner"
def relatedIdentifierLabel := "syncagent.kcp.io/related-identifier"

def relatedPrimaryNamespaceAnnotation := "syncagent.kcp.io/related-primary-namespace"
def relatedPrimaryNameAnnotation := "syncagent.kcp.io/related-primary-name"

def deletionPropagationPolicyAnnotation := "syncagent.kcp.io/deletion-propagation-policy"

/-- `strings.HasPrefix` -/
def hasPrefix (s start : String) : Bool := start.toList.isPrefixOf s.toList

/-- The set of the strings in a list, as the sorted list that `sets.List` returns. -/
def setsList (l : List String) : List String :=
  (SortedMap.ofList (l.map fun s => (s, ()))).entries.map Prod.fst

theorem mem_setsList {s : String} {l : List String} : s ∈ setsList l ↔ s ∈ l := by
  have hfold : ∀ (l : List String) (m : SortedMap String Unit),
      ((l.map fun s => (s, ())).foldl (fun acc e => acc.insert e.1 e.2) m).get? s = some () ↔
        s ∈ l ∨ m.get? s = some () := by
    intro l
    induction l with
    | nil => simp
    | cons a rest ih =>
      intro m
      simp only [List.map_cons, List.foldl_cons, ih, SortedMap.get?_insert, List.mem_cons]
      by_cases h : s = a <;> simp [h]
  have hentries :
      s ∈ setsList l ↔ (SortedMap.ofList (l.map fun s => (s, ()))).get? s = some () := by
    simp only [setsList, List.mem_map, Prod.exists, exists_and_right, exists_eq_right,
      SortedMap.mem_entries]
    exact ⟨fun ⟨_, h⟩ => h, fun h => ⟨(), h⟩⟩
  rw [hentries]
  exact (hfold l ∅).trans (by simp)

/-! ### Hashes -/

/-- What `crypto.Hash` is applied to: a string, or a value that it encodes as JSON. -/
inductive HashInput where
  | text (s : String)
  | json (value : Fields)

/-- `crypto.Hash` -/
abbrev Hash := HashInput → String

/-- Two texts as one, from which both can be read back. -/
def joinTexts (a b : List Char) : List Char := List.replicate a.length 'a' ++ 'b' :: (a ++ b)

theorem joinTexts_inj {a b a' b' : List Char} (h : joinTexts a b = joinTexts a' b') :
    a = a' ∧ b = b' := by
  have hcount : ∀ (m n : Nat) (u v : List Char),
      List.replicate m 'a' ++ 'b' :: u = List.replicate n 'a' ++ 'b' :: v → m = n ∧ u = v := by
    intro m
    induction m with
    | zero =>
      intro n u v h
      cases n with
      | zero => exact ⟨rfl, (List.cons.inj h).2⟩
      | succ n => exact absurd (List.cons.inj h).1 (by decide)
    | succ m ih =>
      intro n u v h
      cases n with
      | zero => exact absurd (List.cons.inj h).1 (by decide)
      | succ n =>
        obtain ⟨hmn, huv⟩ := ih n u v (List.cons.inj h).2
        exact ⟨congrArg (· + 1) hmn, huv⟩
  obtain ⟨hlen, happ⟩ := hcount _ _ _ _ h
  exact List.append_inj happ hlen

/-- A hash without collisions: a string is its own hash, and the strings among the members of a JSON
object are joined. -/
def Hash.plain : Hash
  | .text s => s
  | .json f => String.ofList (f.entries.foldr (fun e acc =>
      joinTexts ((e.2.str?).getD "").toList acc) [])

variable (hash : Hash)

/-- `crypto.ShortHash` -/
def shortHash (x : HashInput) : String := String.ofList ((hash x).toList.take 20)

/-! ### Object keys -/

structure ObjectKey where
  clusterName : String
  workspacePath : String
  ns : String
  name : String
deriving DecidableEq

def newObjectKey (obj : Unstructured) (clusterName workspacePath : String) : ObjectKey :=
  { clusterName, workspacePath, ns := obj.metadata.ns, name := obj.metadata.name }

namespace ObjectKey

/-- The JSON form of a key, which `Key` hashes. -/
def toFields (k : ObjectKey) : Fields :=
  SortedMap.ofOptions [
    ("ClusterName", some (.str k.clusterName)),
    ("Name", some (.str k.name)),
    ("Namespace", some (.str k.ns)),
    ("WorkspacePath", some (.str k.workspacePath))]
    (show List.Pairwise (· < ·) ["ClusterName", "Name", "Namespace", "WorkspacePath"] by decide)

def key (k : ObjectKey) : String := hash (.json k.toFields)

def labels (k : ObjectKey) : StringMap :=
  let s := (SortedMap.insert ∅ remoteObjectClusterLabel k.clusterName).insert
    remoteObjectNameHashLabel (hash (.text k.name))
  if k.ns ≠ "" then s.insert remoteObjectNamespaceHashLabel (hash (.text k.ns)) else s

def annotations (k : ObjectKey) : StringMap :=
  let s := SortedMap.insert ∅ remoteObjectNameAnnotation k.name
  let s := if k.ns ≠ "" then s.insert remoteObjectNamespaceAnnotation k.ns else s
  if k.workspacePath ≠ "" then s.insert remoteObjectWorkspacePathAnnotation k.workspacePath else s

theorem key_plain_injective {k k' : ObjectKey} (h : k.key Hash.plain = k'.key Hash.plain) :
    k = k' := by
  have hlists := String.ofList_injective h
  obtain ⟨hcluster, hlists⟩ := joinTexts_inj hlists
  obtain ⟨hname, hlists⟩ := joinTexts_inj hlists
  obtain ⟨hns, hlists⟩ := joinTexts_inj hlists
  obtain ⟨hpath, -⟩ := joinTexts_inj hlists
  cases k
  cases k'
  simp_all [String.toList_inj]

end ObjectKey

/-! ### Labels and annotations -/

def ensureLabels (obj : Unstructured) (desiredLabels : StringMap) : Unstructured :=
  { obj with metadata.labels := obj.metadata.labels.insertAll desiredLabels }

def ensureAnnotations (obj : Unstructured) (desiredAnnotations : StringMap) : Unstructured :=
  { obj with metadata.annotations := obj.metadata.annotations.insertAll desiredAnnotations }

section Rest

variable (o : Unstructured) (m : StringMap)

@[simp] theorem idOn_ensureLabels (client : Client) :
    (ensureLabels o m).idOn client = o.idOn client := rfl

@[simp] theorem content_ensureLabels : (ensureLabels o m).content = o.content := rfl

@[simp] theorem deletionTimestamp_ensureLabels :
    (ensureLabels o m).metadata.deletionTimestamp = o.metadata.deletionTimestamp := rfl

@[simp] theorem idOn_ensureAnnotations (client : Client) :
    (ensureAnnotations o m).idOn client = o.idOn client := rfl

@[simp] theorem content_ensureAnnotations : (ensureAnnotations o m).content = o.content := rfl

@[simp] theorem deletionTimestamp_ensureAnnotations :
    (ensureAnnotations o m).metadata.deletionTimestamp = o.metadata.deletionTimestamp := rfl

end Rest

def unsyncableLabels : List String :=
  [remoteObjectClusterLabel, remoteObjectNamespaceHashLabel, remoteObjectNameHashLabel]

/-- Whether a label is copied from the remote to the local object. -/
def syncableLabel (k : String) : Bool :=
  !unsyncableLabels.contains k && !hasPrefix k "claimed.internal.apis.kcp.io/"

def filterUnsyncableLabels (original : StringMap) : StringMap := original.filterKeys syncableLabel

def unsyncableAnnotations : List String :=
  ["kcp.io/cluster", "kubectl.kubernetes.io/last-applied-configuration",
    deletionPropagationPolicyAnnotation, remoteObjectNamespaceAnnotation,
    remoteObjectNameAnnotation, remoteObjectWorkspacePathAnnotation]

/-- Whether an annotation is copied from the remote to the local object. -/
def syncableAnnotation (k : String) : Bool :=
  !unsyncableAnnotations.contains k && !hasPrefix k relatedObjectAnnotationPrefix

def filterUnsyncableAnnotations (original : StringMap) : StringMap :=
  original.filterKeys syncableAnnotation

/-- The object without the metadata that belongs to one cluster.  The deletion timestamp stays. -/
def stripMetadata (obj : Unstructured) : Unstructured :=
  { obj with metadata := { obj.metadata with
      creationTimestamp := none
      finalizers := []
      generation := 0
      ownerReferences := []
      resourceVersion := 0
      managedFields := []
      uid := 0
      selfLink := ""
      annotations := filterUnsyncableAnnotations obj.metadata.annotations
      labels := filterUnsyncableLabels obj.metadata.labels } }

@[simp] theorem idOn_stripMetadata (o : Unstructured) (client : Client) :
    (stripMetadata o).idOn client = o.idOn client := rfl

@[simp] theorem content_stripMetadata (o : Unstructured) : (stripMetadata o).content = o.content :=
  rfl

@[simp] theorem deletionTimestamp_stripMetadata (o : Unstructured) :
    (stripMetadata o).metadata.deletionTimestamp = o.metadata.deletionTimestamp := rfl

/-- The entries of `desired` that are missing or wrong in `current`, set over `base`. -/
def addMissing (base current desired : StringMap) : StringMap :=
  base.insertAll (desired.filter fun k v => current.get? k ≠ some v)

def threeWayDiffMetadata (sourceObj destObj : Unstructured)
    (desiredLabels desiredAnnotations : StringMap) : Unstructured :=
  { sourceObj with metadata := { sourceObj.metadata with
      labels := addMissing sourceObj.metadata.labels destObj.metadata.labels desiredLabels
      annotations :=
        addMissing sourceObj.metadata.annotations destObj.metadata.annotations desiredAnnotations }
          }

/-- The request of the controller for the remote original of a local object. -/
structure RemoteName where
  clusterName : String
  ns : String
  name : String
deriving DecidableEq

def remoteNameForLocalObject (localObj : Unstructured) : Option RemoteName :=
  let clusterName := (localObj.metadata.labels.get? remoteObjectClusterLabel).getD ""
  let ns := (localObj.metadata.annotations.get? remoteObjectNamespaceAnnotation).getD ""
  let name := (localObj.metadata.annotations.get? remoteObjectNameAnnotation).getD ""
  if clusterName = "" ∨ name = "" then none else some { clusterName, ns, name }

def ownedBy (obj : Unstructured) (agentName : String) : Bool :=
  (obj.metadata.labels.get? agentNameLabel).getD "" = agentName

/-! ### Related copies -/

def relatedOwnerHash (clusterName publishedResourceName ns name : String) : String :=
  hash (.text ("\x00".intercalate [clusterName, publishedResourceName, ns, name]))

def relatedCopyLabels (primary : Unstructured)
    (clusterName publishedResourceName identifier agentName : String) : StringMap :=
  let set := (SortedMap.insert ∅ relatedOwnerLabel (relatedOwnerHash hash clusterName
    publishedResourceName primary.metadata.ns primary.metadata.name)).insert
    relatedIdentifierLabel identifier
  if agentName ≠ "" then set.insert agentNameLabel agentName else set

def relatedCopyAnnotations (primary : Unstructured) : StringMap :=
  let set := SortedMap.insert ∅ relatedPrimaryNameAnnotation primary.metadata.name
  if primary.metadata.ns ≠ "" then
    set.insert relatedPrimaryNamespaceAnnotation primary.metadata.ns
  else set

def relatedCopySelector (primary : Unstructured)
    (clusterName publishedResourceName identifier agentName : String) : Selector :=
  selectorFromSet (relatedCopyLabels hash primary clusterName publishedResourceName identifier
    agentName)

/-! ### Deletion policies -/

def deletionPropagationPolicy (obj : Unstructured) : DeletionPropagation :=
  match obj.metadata.annotations.get? deletionPropagationPolicyAnnotation with
  | some "foreground" => .foreground
  | some "orphan" => .orphan
  | _ => .background

inductive RelatedResourceOrigin where
  | kcp
  | service
deriving DecidableEq

def relatedDeletionPropagationPolicy (origin : RelatedResourceOrigin) (obj : Unstructured) :
    DeletionPropagation :=
  match origin with
  | .service => .background
  | .kcp => deletionPropagationPolicy obj

/-- A policy that is not set means background deletion. -/
def normalizeDeletionPropagationPolicy (policy : Option DeletionPropagation) :
    DeletionPropagation := policy.getD .background

/-! ### Finalizers -/

variable (diff : MergeDiff) (scope : Scope)

/-- `client.Patch(ctx, obj, MergeFrom(original))`: the difference as a merge patch. -/
def patchFrom (client : Client) (original obj : Unstructured) : SyncM Unstructured :=
  patch scope (obj.idOn client) (diff.create original.toFields obj.toFields)

/-- The object with the finalizer of the agent. -/
def withFinalizer (obj : Unstructured) : Unstructured :=
  { obj with metadata.finalizers := setsList (deletionFinalizer :: obj.metadata.finalizers) }

/-- The object without the finalizer of the agent. -/
def withoutFinalizer (obj : Unstructured) : Unstructured :=
  { obj with
    metadata.finalizers := (setsList obj.metadata.finalizers).filter (· ≠ deletionFinalizer) }

/-- Puts the finalizer on the object; says whether it had to, and returns the object. -/
def ensureFinalizer (client : Client) (obj : Unstructured) : SyncM (Bool × Unstructured) :=
  if obj.metadata.finalizers.contains deletionFinalizer then return (false, obj)
  else do
    let obj' ← patchFrom diff scope client obj (withFinalizer obj)
    return (true, obj')

def removeFinalizer (client : Client) (obj : Unstructured) : SyncM (Bool × Unstructured) :=
  if !obj.metadata.finalizers.contains deletionFinalizer then return (false, obj)
  else do
    let obj' ← patchFrom diff scope client obj (withoutFinalizer obj)
    return (true, obj')

end Sync
