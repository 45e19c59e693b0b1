import SyncAgent.Sync.Related

/-! The synchronization of a primary object (`syncer.go`). -/

namespace Sync

open Kube

namespace ResourceSyncer

variable (s : ResourceSyncer)

/-- The local equivalent of a remote object, found by its labels. -/
def findLocalObject (scope : Scope) (objectKey : ObjectKey) : SyncM (Option Unstructured) := do
  let items ← wrap "failed to find local equivalent" (list scope .localClient s.destType ""
    (selectorFromSet (objectKey.labels s.libs.hash)) 2 false)
  match items with
  | [] => return none
  | [item] => return some item
  | _ => throw (.new ("expected 1 object, but found " ++ toString items.length))

/-- The syncer of the primary object. -/
def primarySyncer (stateStore : KubernetesBackend) (clusterName workspacePath : String)
    (remoteObj : Unstructured) : ObjectSyncer where
  agentName := s.agentName
  subresources := s.subresources
  destCreator := newLocalObjectCreator s.libs.hash s.libs.engine s.pubRes s.destType s.destScope
    clusterName workspacePath
  syncStatusBack := true
  blockSourceDeletion := true
  deletionPropagationPolicy := some (Sync.deletionPropagationPolicy remoteObj)
  mutator := s.primaryMutator
  stateStore := stateStore
  metadataOnDestination := true
  useServerSideApply := s.useServerSideApply

/-- On whose behalf the calls for a primary object are made. -/
def primaryScope (clusterName : String) (remoteObj : Unstructured) : Scope :=
  { cluster := clusterName, ns := remoteObj.metadata.ns, name := remoteObj.metadata.name }

/-- The side of the workspace. -/
def remoteSide (clusterName workspacePath : String) : SyncSide :=
  ⟨.remoteClient clusterName, clusterName, workspacePath⟩

/-- The side of the service cluster. -/
def localSide : SyncSide := ⟨.localClient, "", ""⟩

/-- The store of the states of a primary object and of its related objects. -/
def stateStore (clusterName workspacePath : String) (remoteObj : Unstructured) :
    KubernetesBackend :=
  newKubernetesBackend s.libs.hash s.stateNamespace remoteObj clusterName workspacePath

/-- `Process` from the point on where the local object was looked for. -/
def processFound (clusterName workspacePath : String) (remoteObj : Unstructured)
    (localObj : Option Unstructured) : SyncM Bool := do
  let scope := primaryScope clusterName remoteObj
  let sourceSide := remoteSide clusterName workspacePath
  let stateStore := s.stateStore clusterName workspacePath remoteObj
  let syncer := s.primarySyncer stateStore clusterName workspacePath remoteObj
  -- when the primary is being deleted, the related resources are cleaned up first
  let cleaning ← (match localObj with
    | some l =>
      if remoteObj.metadata.deletionTimestamp.isSome then
        wrap "failed to clean up related resources during primary deletion"
          (s.processRelatedResources scope stateStore ⟨sourceSide, remoteObj⟩ ⟨localSide, l⟩ true)
      else pure false
    | none => pure false)
  if cleaning then return true
  else
    let (requeue, remoteObj) ← syncer.sync s.libs scope sourceSide localSide remoteObj localObj
    if requeue then return true
    else
      match localObj with
      | none => return false
      | some l =>
        s.processRelatedResources scope stateStore ⟨sourceSide, remoteObj⟩ ⟨localSide, l⟩ false

/-- `Process` on a remote object: says whether to requeue. -/
def process (clusterName workspacePath : String) (remoteObj : Unstructured) : SyncM Bool := do
  let localObj ← wrap "failed to find local equivalent" (s.findLocalObject
    (primaryScope clusterName remoteObj) (newObjectKey remoteObj clusterName workspacePath))
  s.processFound clusterName workspacePath remoteObj localObj

end ResourceSyncer

end Sync
