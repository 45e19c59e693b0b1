import SyncAgent.Sync.Resolve
import Mathlib.Data.List.Sort

/-! Related resources (`syncer_related.go`): the objects that belong to a primary object are copied
to the other side, remembered on the primary object, and pruned. -/

namespace Sync

open Kube

/-- The syncer of a resource (`ResourceSyncer`): one remote workspace and the service cluster.
`destType` is the type of the local objects, `destScope` their scope. -/
structure ResourceSyncer where
  libs : Libraries
  pubRes : PublishedResource
  destType : TypeMeta
  destScope : ResourceScope
  subresources : List String
  primaryMutator : Option Mutator := none
  relatedMutators : String → Option Mutator := fun _ => none
  agentName : String
  useServerSideApply : Bool := false
  stateNamespace : String
  /-- Whether there are uncached readers for the two sides. -/
  localAPIReader : Bool := true
  remoteAPIReader : Bool := true

/-- `relatedCopyKey` -/
def relatedCopyKey (name : NamespacedName) : String := name.ns ++ "/" ++ name.name

/-- `ctrlruntimeclient.ObjectKeyFromObject` -/
def objectKeyFromObject (o : Unstructured) : NamespacedName := ⟨o.metadata.ns, o.metadata.name⟩

namespace ResourceSyncer

variable (s : ResourceSyncer) (scope : Scope)

/-- Whether the deletion of the primary object is forwarded to the objects of a related resource. -/
def forceDelete (relRes : RelatedResourceSpec) (primaryDeleting : Bool) : Bool :=
  primaryDeleting && (relRes.effectiveCleanupPolicy = .onPrimaryDeletion ||
    relRes.effectiveCleanupPolicy = .matchOrigin || relRes.origin = .kcp)

/-- The syncer of one object of a related resource. -/
def relatedSyncer (stateStore : KubernetesBackend) (remote : ObjectSide)
    (relRes : RelatedResourceSpec) (primaryDeleting : Bool) (projectedGVK : TypeMeta)
    (resolved : ResolvedObject) : ObjectSyncer where
  stateStore := stateStore
  destCreator source := .ok { source with
    typeMeta := projectedGVK
    metadata := { source.metadata with
      name := resolved.destination.name
      ns := resolved.destination.ns } }
  subresources := if relRes.syncStatus then ["status"] else []
  syncStatusForward := relRes.syncStatus
  blockSourceDeletion := forceDelete relRes primaryDeleting || relRes.origin = .kcp
  mutator := s.relatedMutators relRes.identifier
  destLabels := relatedCopyLabels s.libs.hash remote.object remote.clusterName s.pubRes.name
    relRes.identifier s.agentName
  destAnnotations := relatedCopyAnnotations remote.object
  forceDelete := forceDelete relRes primaryDeleting
  deletionPropagationPolicy :=
    some (relatedDeletionPropagationPolicy relRes.origin resolved.original)
  useServerSideApply := s.useServerSideApply

/-- Syncs one resolved object.  A destination object that cannot be read counts as missing. -/
def syncResolved (stateStore : KubernetesBackend) (remote : ObjectSide) (origin dest : SyncSide)
    (relRes : RelatedResourceSpec) (primaryDeleting : Bool) (projectedGVK : TypeMeta)
    (resolved : ResolvedObject) : SyncM Bool := do
  let found ← request scope
    (.get ⟨dest.client, projectedGVK, resolved.destination.ns, resolved.destination.name⟩ false)
  let destObject := match found with
    | .ok o => some o
    | .error _ => none
  let (requeue, _) ← wrap "failed to sync related object"
    ((s.relatedSyncer stateStore remote relRes primaryDeleting projectedGVK resolved).sync s.libs
      scope { client := origin.client, clusterName := origin.clusterName }
      { client := dest.client, clusterName := dest.clusterName } resolved.original destObject)
  return requeue

/-- The annotations that `rememberRelatedObjects` wants on the primary object. -/
def relatedObjectAnnotations (start : String) (resolvedObjects : List ResolvedObject) : StringMap :=
  SortedMap.ofList (resolvedObjects.zipIdx.map fun (resolved, idx) =>
    (start ++ toString idx, s.libs.jsonText (SortedMap.ofOptions [
      ("apiVersion", some (.str resolved.original.typeMeta.apiVersion)),
      ("kind", some (.str resolved.original.typeMeta.kind)),
      ("name", some (.str resolved.destination.name)),
      ("namespace", if resolved.destination.ns = "" then none
        else some (.str resolved.destination.ns))] referenceKeys_sorted)))

/-- Remembers the related objects in annotations of the primary object, one for each. -/
def rememberRelatedObjects (remote : ObjectSide) (identifier : String)
    (resolvedObjects : List ResolvedObject) : SyncM Bool :=
  if resolvedObjects = [] then return false
  else
    let start := relatedObjectAnnotationPrefix ++ identifier ++ "."
    let desired := s.relatedObjectAnnotations start resolvedObjects
    let annotations := remote.object.metadata.annotations
    let changed := (annotations.entries.any fun e =>
        hasPrefix e.1 start && (desired.get? e.1).isNone) ||
      desired.entries.any fun e => (annotations.get? e.1).getD "" ≠ e.2
    if !changed then return false
    else do
      let annotations := (annotations.filterKeys fun k => !hasPrefix k start).insertAll desired
      let _ ← wrap "failed to update related data in remote object"
        (patchFrom s.libs.diff scope remote.client remote.object
          { remote.object with metadata.annotations := annotations })
      return true

/-- Deletes one of the listed copies, unless it is to be kept. -/
def pruneCopy (dest : SyncSide) (keep : Option (List String))
    (deletionPolicies : SortedMap String DeletionPropagation) (item : Unstructured) : SyncM Bool :=
  if keep.elim false (·.contains (relatedCopyKey (objectKeyFromObject item))) then return false
  else if item.metadata.deletionTimestamp.isSome then return true
  else do
    let policy := deletionPolicies.get? (relatedCopyKey (objectKeyFromObject item))
    match ← request scope (.delete (item.idOn dest.client)
      (normalizeDeletionPropagationPolicy policy)) with
    | .ok _ => return true
    | .error .notFound => return false
    | .error e => throw (.wrapped "failed to delete related copy" (.api e))

/-- Deletes the copies with the provenance labels, but those to keep, if any are to be kept. -/
def pruneRelatedCopies (dest : SyncSide) (projectedGVK : TypeMeta) (selector : Selector)
    (keep : Option (List String)) (deletionPolicies : SortedMap String DeletionPropagation) :
    SyncM Bool := do
  let items ← wrap "failed to list related copies"
    (list scope dest.client projectedGVK "" selector 0 false)
  let requeues ← Fallible.forEach (pruneCopy scope dest keep deletionPolicies) items
  return requeues.any id

/-- Whether there is an uncached reader for the origin side. -/
def liveReader : RelatedResourceOrigin → Bool
  | .service => s.localAPIReader
  | .kcp => s.remoteAPIReader

/-- Resolves the origin objects once more, without a cache: `none` if there is no reader for it,
otherwise whether there are none.  The workspace path is not passed on. -/
def confirmOriginEmpty (origin dest : ObjectSide) (relRes : RelatedResourceSpec) :
    SyncM (Option Bool) :=
  if !s.liveReader relRes.origin then return none
  else do
    let liveOrigin : ObjectSide := ⟨⟨origin.client, origin.clusterName, ""⟩, origin.object⟩
    let resolved ← resolveRelatedResourceObjects s.libs liveOrigin dest scope true relRes
    return some resolved.isEmpty

/-- The last part of `processRelatedResource`: the clean-up of copies, as configured. -/
def cleanUpRelatedCopies (remote origin dest : ObjectSide) (relRes : RelatedResourceSpec)
    (primaryDeleting : Bool) (projectedGVK : TypeMeta) (resolvedObjects : List ResolvedObject)
    (requeue : Bool) : SyncM Bool :=
  let policy := relRes.effectiveCleanupPolicy
  let selector := relatedCopySelector s.libs.hash remote.object remote.clusterName s.pubRes.name
    relRes.identifier s.agentName
  let deletionPolicies := SortedMap.ofList (resolvedObjects.map fun resolved =>
    (relatedCopyKey resolved.destination,
      relatedDeletionPropagationPolicy relRes.origin resolved.original))
  if primaryDeleting && (policy = .onPrimaryDeletion || policy = .matchOrigin) then do
    let pruned ← wrap "failed to tear down related copies"
      (pruneRelatedCopies scope dest.toSyncSide projectedGVK selector none deletionPolicies)
    return requeue || pruned
  else if !primaryDeleting && policy = .matchOrigin then do
    let synced := resolvedObjects.map fun resolved => relatedCopyKey resolved.destination
    let prune : SyncM Bool := do
      let pruned ← wrap "failed to prune related copies" (pruneRelatedCopies scope dest.toSyncSide
        projectedGVK selector (some synced) deletionPolicies)
      return requeue || pruned
    if resolvedObjects.isEmpty then
      match ← wrap "failed to confirm empty origin before pruning related copies"
        (s.confirmOriginEmpty scope origin dest relRes) with
      | none => return requeue
      | some false => return true
      | some true => prune
    else prune
  else return requeue

/-- The origin and the destination side of a related resource. -/
def relatedSides (remote local' : ObjectSide) (relRes : RelatedResourceSpec) :
    ObjectSide × ObjectSide :=
  match relRes.origin with
  | .service => (local', remote)
  | .kcp => (remote, local')

def processRelatedResource (stateStore : KubernetesBackend) (remote local' : ObjectSide)
    (relRes : RelatedResourceSpec) (primaryDeleting : Bool) : SyncM Bool := do
  let relScope := { scope with identifier := some relRes.identifier }
  let (origin, dest) := relatedSides remote local' relRes
  let found ← wrap "failed to get resolve origin objects"
    (resolveRelatedResourceObjects s.libs origin dest relScope false relRes)
  let resolvedObjects := found.insertionSort fun a b =>
    relatedCopyKey (objectKeyFromObject a.original) ≤
      relatedCopyKey (objectKeyFromObject b.original)
  let projectedGVK ← wrapE "failed to lookup"
    ((s.libs.kindFor dest.client relRes.projectedGVR).mapError .api)
  let requeues ← Fallible.forEach (s.syncResolved relScope stateStore remote origin.toSyncSide
    dest.toSyncSide relRes primaryDeleting projectedGVK) resolvedObjects
  -- the related objects of the service cluster are remembered on the primary object
  let remembered ← (match relRes.origin with
    | .service => s.rememberRelatedObjects scope remote relRes.identifier resolvedObjects
    | .kcp => pure false)
  if remembered then return true
  else
    s.cleanUpRelatedCopies relScope remote origin dest relRes primaryDeleting projectedGVK
      resolvedObjects (requeues.any id)

/-- The related resources in turn, up to the first that asks for a requeue. -/
def processRelatedList (stateStore : KubernetesBackend) (remote local' : ObjectSide)
    (primaryDeleting : Bool) : List RelatedResourceSpec → SyncM Bool
  | [] => return false
  | relRes :: rest => do
    let requeue ← wrap ("failed to process related resource " ++ relRes.identifier)
      (s.processRelatedResource scope stateStore remote local' relRes primaryDeleting)
    if requeue then return true
    else processRelatedList stateStore remote local' primaryDeleting rest

def processRelatedResources (stateStore : KubernetesBackend) (remote local' : ObjectSide)
    (primaryDeleting : Bool) : SyncM Bool :=
  s.processRelatedList scope stateStore remote local' primaryDeleting s.pubRes.related

end ResourceSyncer

end Sync
