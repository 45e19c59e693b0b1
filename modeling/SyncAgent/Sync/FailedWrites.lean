import SyncAgent.Sync.Calls

/-! A write that fails ends the pass: `Sync` and the processing of the related resources make no
further call after it and return an error.  So whatever comes after them has seen no failed
write. -/

namespace Sync

open Kube

/-- The response says that a write has failed without an effect. -/
def FailedWrite (c : Call) (r : c.verb.Resp) : Prop := c.failure = some r

variable {L : Libraries} {scope : Scope}

theorem givesUp_of_reads {α : Type} {p : SyncM α}
    (hp : p.AllCalls fun c : Call => c.failure = none) :
    p.GivesUp FailedWrite :=
  .of_allCalls (.mono hp fun c hc r hfailed => by
    have hsome : c.failure = some r := hfailed
    rw [hc] at hsome
    cases hsome)

theorem wrapE_givesUp {α : Type} {text : String} {r : Except Error α} :
    (wrapE text r).GivesUp FailedWrite := trivial

section Calls

variable {client : Client} {obj : Unstructured} {id : ObjectId}

theorem update_givesUp : (update scope client obj).GivesUp FailedWrite :=
  .sendE fun r hr => by cases hr; exact ⟨_, rfl⟩

theorem patch_givesUp {fields : Fields} : (patch scope id fields).GivesUp FailedWrite :=
  .sendE fun r hr => by cases hr; exact ⟨_, rfl⟩

theorem apply_givesUp {fieldManager : String} :
    (apply scope client obj fieldManager).GivesUp FailedWrite :=
  .sendE fun r hr => by cases hr; exact ⟨_, rfl⟩

theorem delete_givesUp {policy : DeletionPropagation} :
    (delete scope id policy).GivesUp FailedWrite :=
  .sendE fun r hr => by cases hr; exact ⟨_, rfl⟩

theorem secret_givesUp {b : KubernetesBackend} : (b.secret scope).GivesUp FailedWrite := by
  refine .request (fun r hr => by cases hr) fun r => ?_
  split
  · exact .pure
  · exact .pure
  · exact .throw

theorem put_givesUp {hash : Hash} {b : KubernetesBackend} {clusterName : String}
    {subresources : List String} :
    (ObjectStateStore.put hash b scope obj clusterName subresources).GivesUp FailedWrite := by
  refine .bind secret_givesUp fun found => ?_
  dsimp only
  split
  · exact .sendE fun r hr => by cases hr; exact ⟨_, rfl⟩
  · exact .sendE fun r hr => by cases hr; exact ⟨_, rfl⟩

theorem ensureFinalizer_givesUp {diff : MergeDiff} :
    (ensureFinalizer diff scope client obj).GivesUp FailedWrite := by
  unfold ensureFinalizer
  split
  · exact .pure
  · exact .bind patch_givesUp fun _ => .pure

theorem removeFinalizer_givesUp {diff : MergeDiff} :
    (removeFinalizer diff scope client obj).GivesUp FailedWrite := by
  unfold removeFinalizer
  split
  · exact .pure
  · exact .bind patch_givesUp fun _ => .pure

end Calls

namespace ObjectSyncer

variable {s : ObjectSyncer} {sourceSide destSide : SyncSide} {source : Unstructured}
  {dest : Option Unstructured}

theorem ensureNamespace_givesUp {client : Client} {ns : String} :
    (ensureNamespace scope client ns).GivesUp FailedWrite := by
  unfold ensureNamespace
  split
  · exact .pure
  · refine .request (fun r hr => by cases hr) fun r => ?_
    split
    · exact .pure
    · refine .request (fun r hr => by cases hr; exact ⟨_, rfl⟩) fun r => ?_
      split
      · exact .pure
      · exact .pure
      · exact .throw
    · exact .throw

theorem ensureDestinationObject_givesUp :
    (s.ensureDestinationObject L scope sourceSide destSide source).GivesUp FailedWrite := by
  refine .bind wrapE_givesUp fun destObj => .bind (.mapError ensureNamespace_givesUp) fun _ => ?_
  refine .request (fun r hr => by cases hr; exact ⟨_, rfl⟩) fun r => ?_
  split
  · exact .mapError put_givesUp
  · refine .bind (.mapError ?_) fun _ => .mapError put_givesUp
    unfold adoptExistingDestinationObject
    split
    · exact .pure
    · exact .bind (.mapError (givesUp_of_reads (.sendE rfl))) fun _ =>
        .bind (.mapError update_givesUp) fun _ => .pure
  · exact .bind .throw fun _ => .mapError put_givesUp

theorem ensureDestMetadataPersisted_givesUp {d : Unstructured} :
    (s.ensureDestMetadataPersisted L scope destSide d).GivesUp FailedWrite := by
  unfold ensureDestMetadataPersisted
  split
  · exact .pure
  · dsimp only
    split
    · exact .pure
    · exact .bind (.mapError patch_givesUp) fun _ => .pure

theorem syncObjectSpec_givesUp {d : Unstructured} :
    (s.syncObjectSpec L scope sourceSide destSide source d).GivesUp FailedWrite := by
  refine .bind (.mapError (.bind (.bind secret_givesUp fun _ => .pure) fun _ => .pure)) fun last =>
    ?_
  split
  · dsimp only
    split
    · exact .pure
    · exact .bind (.mapError patch_givesUp) fun _ => .bind (.mapError put_givesUp) fun _ => .pure
  · exact .bind (.mapError update_givesUp) fun _ => .bind (.mapError put_givesUp) fun _ => .pure

theorem syncObjectStatus_givesUp {d : Unstructured} :
    (s.syncObjectStatus scope sourceSide source d).GivesUp FailedWrite := by
  unfold syncObjectStatus
  split
  · exact .pure
  · split
    · exact .pure
    · refine .request (fun r hr => by cases hr; exact ⟨_, rfl⟩) fun r => ?_
      split
      · exact .pure
      · exact .throw

theorem syncObjectStatusForward_givesUp {d : Unstructured} :
    (s.syncObjectStatusForward scope destSide source d).GivesUp FailedWrite := by
  unfold syncObjectStatusForward
  split
  · exact .pure
  · split
    · exact .pure
    · refine .request (fun r hr => by cases hr; exact ⟨_, rfl⟩) fun r => ?_
      split
      · exact .pure
      · exact .pure
      · exact .throw

theorem syncObjectContents_givesUp {d : Unstructured} :
    (s.syncObjectContents L scope sourceSide destSide source d).GivesUp FailedWrite := by
  refine .bind syncObjectSpec_givesUp fun r => .bind syncObjectStatusForward_givesUp fun _ => ?_
  split
  · exact .pure
  · exact .bind syncObjectStatus_givesUp fun _ => .pure

theorem applyServerSide_givesUp :
    (s.applyServerSide L scope sourceSide destSide source dest).GivesUp FailedWrite := by
  refine .bind wrapE_givesUp fun destObj => .bind (.mapError ensureNamespace_givesUp) fun _ => ?_
  dsimp only
  split
  · split
    · exact .pure
    · exact .bind (.mapError apply_givesUp) fun _ => .pure
  · exact .bind (.mapError apply_givesUp) fun _ => .pure

theorem syncMutated_givesUp :
    (s.syncMutated L scope sourceSide destSide source dest).GivesUp FailedWrite := by
  unfold syncMutated
  split
  · refine .bind (.mapError applyServerSide_givesUp) fun newDest => ?_
    split
    · exact .pure
    · split
      · exact .pure
      · exact .bind syncObjectStatus_givesUp fun _ => .pure
  · split
    · exact .bind (.mapError ensureDestinationObject_givesUp) fun _ => .pure
    · split
      · exact .pure
      · refine .bind (.mapError ensureDestMetadataPersisted_givesUp) fun r => ?_
        obtain ⟨restamped, d⟩ := r
        dsimp only
        split
        · exact .pure
        · exact .mapError syncObjectContents_givesUp

theorem handleDeletion_givesUp :
    (s.handleDeletion L scope sourceSide destSide source dest).GivesUp FailedWrite := by
  unfold handleDeletion
  split
  · exact .pure
  · split
    · split
      · exact .pure
      · exact .bind (.mapError delete_givesUp) fun _ => .pure
    · exact .bind (.mapError removeFinalizer_givesUp) fun _ => .pure

theorem sync_givesUp :
    (s.sync L scope sourceSide destSide source dest).GivesUp FailedWrite := by
  unfold sync
  split
  · exact .bind handleDeletion_givesUp fun _ => .pure
  · refine .bind ?_ fun r => ?_
    · split
      · exact .mapError ensureFinalizer_givesUp
      · exact .pure
    · obtain ⟨updated, source⟩ := r
      dsimp only
      split
      · exact .pure
      · exact .bind wrapE_givesUp fun m => .bind syncMutated_givesUp fun _ => .pure

end ObjectSyncer

namespace ResourceSyncer

variable {s : ResourceSyncer} {remote local' : ObjectSide} {stateStore : KubernetesBackend}
  {relRes : RelatedResourceSpec} {primaryDeleting : Bool}

theorem syncResolved_givesUp {origin dest : SyncSide} {projectedGVK : TypeMeta}
    {resolved : ResolvedObject} : (s.syncResolved scope stateStore remote origin dest relRes
      primaryDeleting projectedGVK resolved).GivesUp FailedWrite :=
  .request (fun r hr => by cases hr) fun _ =>
    .bind (.mapError ObjectSyncer.sync_givesUp) fun _ => .pure

theorem rememberRelatedObjects_givesUp {identifier : String}
    {resolvedObjects : List ResolvedObject} :
    (s.rememberRelatedObjects scope remote identifier resolvedObjects).GivesUp FailedWrite := by
  unfold rememberRelatedObjects
  split
  · exact .pure
  · dsimp only
    split
    · exact .pure
    · exact .bind (.mapError patch_givesUp) fun _ => .pure

theorem pruneRelatedCopies_givesUp {dest : SyncSide} {projectedGVK : TypeMeta} {selector : Selector}
    {keep : Option (List String)} {policies : SortedMap String DeletionPropagation} :
    (pruneRelatedCopies scope dest projectedGVK selector keep policies).GivesUp FailedWrite := by
  refine .bind (.mapError (givesUp_of_reads (.sendE rfl))) fun items =>
    .bind (.forEach fun item _ => ?_) fun _ => .pure
  unfold pruneCopy
  split
  · exact .pure
  · split
    · exact .pure
    · refine .request (fun r hr => by cases hr; exact ⟨_, rfl⟩) fun r => ?_
      split
      · exact .pure
      · exact .pure
      · exact .throw

theorem cleanUpRelatedCopies_givesUp {origin dest : ObjectSide} {projectedGVK : TypeMeta}
    {resolvedObjects : List ResolvedObject} {requeue : Bool} :
    (s.cleanUpRelatedCopies scope remote origin dest relRes primaryDeleting projectedGVK
      resolvedObjects requeue).GivesUp FailedWrite := by
  unfold cleanUpRelatedCopies
  dsimp only
  split
  · exact .bind (.mapError pruneRelatedCopies_givesUp) fun _ => .pure
  · split
    · split
      · refine .bind (.mapError ?_) fun checked => ?_
        · unfold confirmOriginEmpty
          split
          · exact .pure
          · exact .bind (givesUp_of_reads (.mono resolveRelatedResourceObjects_allCalls
              fun c hc => hc.2)) fun _ => .pure
        · split
          · exact .pure
          · exact .pure
          · exact .bind (.mapError pruneRelatedCopies_givesUp) fun _ => .pure
      · exact .bind (.mapError pruneRelatedCopies_givesUp) fun _ => .pure
    · exact .pure

theorem processRelatedResource_givesUp :
    (s.processRelatedResource scope stateStore remote local' relRes primaryDeleting).GivesUp
      FailedWrite := by
  refine .bind (.mapError (givesUp_of_reads (.mono resolveRelatedResourceObjects_allCalls
    fun c hc => hc.2))) fun found => .bind wrapE_givesUp fun projectedGVK =>
    .bind (.forEach fun resolved _ => syncResolved_givesUp) fun requeues =>
    .bind ?_ fun remembered => ?_
  · split
    · exact rememberRelatedObjects_givesUp
    · exact .pure
  · split
    · exact .pure
    · exact cleanUpRelatedCopies_givesUp

theorem processRelatedResources_givesUp :
    (s.processRelatedResources scope stateStore remote local' primaryDeleting).GivesUp
      FailedWrite := by
  unfold processRelatedResources
  induction s.pubRes.related with
  | nil => exact .pure
  | cons relRes rest ih =>
    refine .bind (.mapError processRelatedResource_givesUp) fun requeue => ?_
    split
    · exact .pure
    · exact ih

end ResourceSyncer

end Sync
