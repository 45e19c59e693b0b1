import SyncAgent.Sync.StateStore
import SyncAgent.Sync.Naming

/-! The syncer of a single object (`object_syncer.go`): it copies a source object to a destination
object, keeps the copy up to date, syncs the status and handles the deletion of the source.  Events
are left out.  Where the Go code changes an object through a pointer that its caller uses later, the
function here returns the changed object. -/

namespace Sync

open Kube

/-- The libraries that the syncer uses: the hash, the differences of JSON documents, templates, JSON
paths, regular expressions, label selectors, the REST mapper and JSON texts. -/
structure Libraries where
  hash : Hash
  diff : MergeDiff
  engine : GoTemplate.Engine
  /-- `gjson.Get`: nothing, the strings of an array, or the string of the one value. -/
  gjson : Fields → String → Option (List String)
  /-- `regexp.Compile` and `ReplaceAllString` of a pattern, in a value, by a replacement. -/
  regexReplace : String → String → String → Except String String
  labelSelectorAsSelector : LabelSelector → Except String Selector
  kindFor : Client → GroupVersionResource → Except ApiError TypeMeta
  jsonText : Fields → String

def textField (f : Fields) (k : String) : List Char :=
  (((f.get? k).bind fun d => d.str?).getD "").toList

/-- A text from which a reference to an object can be read. -/
def refText (f : Fields) : String :=
  String.ofList (joinTexts (textField f "apiVersion") (joinTexts (textField f "kind")
    (joinTexts (textField f "name") (textField f "namespace"))))

theorem refText_ne (f : Fields) : refText f ≠ "" := by
  intro h
  have hnil := String.ofList_inj.mp (h.trans (String.ofList_nil).symm)
  simp [joinTexts] at hnil

/-- Libraries that are enough for examples: plain hashes, RFC 7386, no JSON paths, selectors by
labels only, and Secrets as the only type. -/
def Libraries.sample : Libraries where
  hash := .plain
  diff := .rfc7386
  engine := templateEngine .twoValued (fun _ => "") fun _ _ => .error ""
  gjson _ _ := none
  regexReplace _ value _ := .ok value
  labelSelectorAsSelector selector := .ok (selectorFromSet selector.matchLabels)
  kindFor _ _ := .ok .secret
  jsonText := refText

/-- The mutation rules of a resource. -/
structure Mutator where
  mutateSpec : Unstructured → Unstructured → Except Error Unstructured
  mutateStatus : Unstructured → Unstructured → Except Error Unstructured

/-- The mutations of a resource change neither the name of the source object nor the metadata of the
destination object. -/
structure Mutator.KeepsIdentity (m : Mutator) : Prop where
  spec : ∀ source dest source', m.mutateSpec source dest = .ok source' →
    source'.metadata.ns = source.metadata.ns ∧ source'.metadata.name = source.metadata.name
  status : ∀ dest source dest', m.mutateStatus dest source = .ok dest' →
    dest'.metadata = dest.metadata ∧ dest'.typeMeta = dest.typeMeta

/-- One side of a synchronization; the object is passed separately. -/
structure SyncSide where
  client : Client
  clusterName : String := ""
  workspacePath : String := ""

structure ObjectSyncer where
  agentName : String := ""
  destCreator : Unstructured → Except Error Unstructured
  subresources : List String := []
  syncStatusBack : Bool := false
  syncStatusForward : Bool := false
  blockSourceDeletion : Bool := false
  metadataOnDestination : Bool := false
  destLabels : StringMap := ∅
  destAnnotations : StringMap := ∅
  mutator : Option Mutator := none
  stateStore : KubernetesBackend
  forceDelete : Bool := false
  deletionPropagationPolicy : Option DeletionPropagation := none
  useServerSideApply : Bool := false

namespace ObjectSyncer

variable (L : Libraries) (scope : Scope) (s : ObjectSyncer)

def removeSubresources (obj : Unstructured) : Unstructured :=
  { obj with content := obj.content.without s.subresources }

def createMergePatch (base revision : Unstructured) : Fields :=
  L.diff.create (s.removeSubresources base).toFields (s.removeSubresources revision).toFields

def labelWithAgent (obj : Unstructured) : Unstructured :=
  if s.agentName ≠ "" then ensureLabels obj (SortedMap.insert ∅ agentNameLabel s.agentName) else obj

/-- `fieldManager` -/
def fieldManager : String :=
  if s.agentName = "" then "api-syncagent" else "api-syncagent/" ++ s.agentName

def ensureDestMetadata (obj : Unstructured) : Unstructured :=
  ensureAnnotations (ensureLabels obj s.destLabels) s.destAnnotations

def applyMutations (source : Unstructured) (dest : Option Unstructured) :
    Except Error (Unstructured × Option Unstructured) :=
  match s.mutator with
  | none => .ok (source, dest)
  | some mutator => do
    let destObject ← match dest with
      | some d => .ok d
      | none => (s.destCreator source).mapError (.wrapped "failed to create destination object")
    let sourceObj ← (mutator.mutateSpec source destObject).mapError
      (.wrapped "failed to apply spec mutation rules")
    match dest with
    | none => .ok (sourceObj, none)
    | some d =>
      let d' ← (mutator.mutateStatus d sourceObj).mapError
        (.wrapped "failed to apply status mutation rules")
      .ok (sourceObj, some d')

variable {s} in
/-- The ways through `applyMutations`. -/
theorem applyMutations_ok {source source' : Unstructured} {dest dest' : Option Unstructured}
    (h : s.applyMutations source dest = .ok (source', dest')) :
    s.mutator = none ∧ source' = source ∧ dest' = dest ∨
    ∃ mutator destObject, s.mutator = some mutator ∧
      mutator.mutateSpec source destObject = .ok source' ∧
      (dest = none ∧ dest' = none ∨ ∃ d d', dest = some d ∧ dest' = some d' ∧
        mutator.mutateStatus d source' = .ok d') := by
  unfold applyMutations at h
  split at h
  · next hnone =>
    cases h
    exact .inl ⟨hnone, rfl, rfl⟩
  · next mutator hmutator =>
    cases dest with
    | none =>
      obtain ⟨destObject, -, h⟩ := exists_of_bind_eq_ok h
      obtain ⟨sourceObj, hspec, h⟩ := exists_of_bind_eq_ok h
      cases h
      exact .inr ⟨mutator, destObject, hmutator, ok_of_mapError hspec, .inl ⟨rfl, rfl⟩⟩
    | some d =>
      obtain ⟨destObject, -, h⟩ := exists_of_bind_eq_ok h
      obtain ⟨sourceObj, hspec, h⟩ := exists_of_bind_eq_ok h
      obtain ⟨d', hstatus, h⟩ := exists_of_bind_eq_ok h
      cases h
      exact .inr ⟨mutator, destObject, hmutator, ok_of_mapError hspec,
        .inr ⟨d, d', rfl, rfl, ok_of_mapError hstatus⟩⟩

theorem applyMutations_identity {σ : ObjectSyncer}
    (hσ : ∀ m, σ.mutator = some m → m.KeepsIdentity) {source source' : Unstructured}
    {dest dest' : Option Unstructured} (h : σ.applyMutations source dest = .ok (source', dest')) :
    source'.metadata.ns = source.metadata.ns ∧ source'.metadata.name = source.metadata.name ∧
      ∀ d', dest' = some d' → ∃ d, dest = some d ∧ d'.metadata = d.metadata ∧
        d'.typeMeta = d.typeMeta := by
  rcases applyMutations_ok h with ⟨-, rfl, rfl⟩ | ⟨m, _, hm, hspec, hdest⟩
  · exact ⟨rfl, rfl, fun d' hd => ⟨d', hd, rfl, rfl⟩⟩
  · obtain ⟨hns, hname⟩ := (hσ m hm).spec _ _ _ hspec
    refine ⟨hns, hname, ?_⟩
    rcases hdest with ⟨-, rfl⟩ | ⟨d, d₁, rfl, rfl, hstatus⟩
    · intro d' hd
      cases hd
    · intro d' hd
      cases hd
      exact ⟨d, rfl, (hσ m hm).status _ _ _ hstatus⟩

/-- Puts the destination labels and annotations on a destination object that lacks them. -/
def ensureDestMetadataPersisted (destSide : SyncSide) (dest : Unstructured) :
    SyncM (Bool × Unstructured) :=
  if s.destLabels = ∅ ∧ s.destAnnotations = ∅ then return (false, dest)
  else
    let stamped := s.ensureDestMetadata dest
    if stamped.metadata.labels = dest.metadata.labels ∧
        stamped.metadata.annotations = dest.metadata.annotations then return (false, dest)
    else do
      let dest' ← wrap "failed to restamp destination metadata"
        (patchFrom L.diff scope destSide.client dest stamped)
      return (true, dest')

/-- The source object as the patch compares it with its last-known state: stripped, with the link
metadata that the destination object lacks. -/
def desiredState (sourceSide : SyncSide) (source dest : Unstructured) : Unstructured :=
  if s.metadataOnDestination then
    let sourceKey := newObjectKey source sourceSide.clusterName sourceSide.workspacePath
    threeWayDiffMetadata (stripMetadata source) dest (sourceKey.labels L.hash) sourceKey.annotations
  else stripMetadata source

/-- The destination object of a full update: the top-level fields of the source but the envelope and
the subresources, and its labels and annotations, are set over it. -/
def fullUpdate (source dest : Unstructured) : Unstructured :=
  let dest := { dest with content := dest.content.overlay (source.content.without s.subresources) }
  ensureAnnotations
    (ensureLabels dest (filterUnsyncableLabels (stripMetadata source).metadata.labels))
    (filterUnsyncableAnnotations (stripMetadata source).metadata.annotations)

def syncObjectSpec (sourceSide destSide : SyncSide) (source dest : Unstructured) :
    SyncM (Bool × Unstructured) := do
  let lastKnownSourceState ← wrap "failed to determine last known state"
    (ObjectStateStore.get L.hash s.stateStore scope source sourceSide.clusterName)
  match lastKnownSourceState with
  | some last =>
    let revision := s.desiredState L sourceSide source dest
    -- the difference in the type is ignored
    let rawPatch := s.createMergePatch L { last with typeMeta := source.typeMeta } revision
    if rawPatch = ∅ then return (false, dest)
    else
      let dest' ← wrap "failed to patch destination object"
        (patch scope (dest.idOn destSide.client) rawPatch)
      wrap "failed to update sync state" (ObjectStateStore.put L.hash s.stateStore scope revision
        sourceSide.clusterName s.subresources)
      return (true, dest')
  | none =>
    let dest' ← wrap "failed to update destination object"
      (update scope destSide.client (s.fullUpdate source dest))
    wrap "failed to update sync state" (ObjectStateStore.put L.hash s.stateStore scope
      (stripMetadata source) sourceSide.clusterName s.subresources)
    return (true, dest')

/-- Syncs the status back to the source; returns the source object. -/
def syncObjectStatus (sourceSide : SyncSide) (source dest : Unstructured) : SyncM Unstructured :=
  if !s.syncStatusBack then return source
  else if source.content.field "status" = dest.content.field "status" then return source
  else do
    let source := { source with content := source.content.setStatus (dest.content.field "status") }
    match ← request scope (.updateStatus sourceSide.client source) with
    | .ok source' => return source'
    | .error e => throw (.wrapped "failed to update source object status" (.api e))

def syncObjectStatusForward (destSide : SyncSide) (source dest : Unstructured) : SyncM Unit :=
  if !s.syncStatusForward then return ()
  else if source.content.field "status" = dest.content.field "status" then return ()
  else do
    let dest := { dest with content := dest.content.setStatus (source.content.field "status") }
    match ← request scope (.updateStatus destSide.client dest) with
    | .ok _ => return ()
    -- there is no status subresource, and trying again will not help
    | .error .notFound => return ()
    | .error e => throw (.wrapped "failed to update destination object status" (.api e))

/-- Says whether to requeue, and returns the source object. -/
def syncObjectContents (sourceSide destSide : SyncSide) (source dest : Unstructured) :
    SyncM (Bool × Unstructured) := do
  let (requeue, dest) ← s.syncObjectSpec L scope sourceSide destSide source dest
  s.syncObjectStatusForward scope destSide source dest
  if requeue then return (true, source)
  else
    let source ← s.syncObjectStatus scope sourceSide source dest
    return (false, source)

def namespaceType : TypeMeta := ⟨"v1", "Namespace", by decide⟩

def ensureNamespace (client : Client) (ns : String) : SyncM Unit :=
  if ns = "" then return ()
  else do
    match ← request scope (.get ⟨client, namespaceType, "", ns⟩ false) with
    | .ok _ => return ()
    | .error .notFound =>
      match ← request scope (.create client ⟨namespaceType, { name := ns }, default⟩) with
      | .ok _ => return ()
      | .error .alreadyExists => return ()
      | .error e => throw (.wrapped "failed to create" (.api e))
    | .error e => throw (.wrapped "failed to check" (.api e))

/-- The object with the metadata that links it to its source. -/
def linkMetadata (sourceSide : SyncSide) (source obj : Unstructured) : Unstructured :=
  if s.metadataOnDestination then
    let sourceKey := newObjectKey source sourceSide.clusterName sourceSide.workspacePath
    s.labelWithAgent
      (ensureAnnotations (ensureLabels obj (sourceKey.labels L.hash)) sourceKey.annotations)
  else obj

/-- The destination object as it is created. -/
def newDestination (sourceSide : SyncSide) (source destObj : Unstructured) : Unstructured :=
  s.ensureDestMetadata (s.linkMetadata L sourceSide source (stripMetadata destObj))

/-- An existing destination object as it is adopted: all link metadata is put on it. -/
def adopted (existing : Unstructured) (sourceKey : ObjectKey) : Unstructured :=
  s.ensureDestMetadata (s.labelWithAgent
    (ensureAnnotations (ensureLabels existing (sourceKey.labels L.hash)) sourceKey.annotations))

/-- Puts the link metadata on a destination object that exists already. -/
def adoptExistingDestinationObject (destSide : SyncSide) (destObj : Unstructured)
    (sourceKey : ObjectKey) : SyncM Unit :=
  if destObj.metadata.deletionTimestamp.isSome then return ()
  else do
    let existing ← wrap "failed to get current destination object"
      (get scope (destObj.idOn destSide.client) false)
    let _ ← wrap "failed to upsert current destination object labels"
      (update scope destSide.client (s.adopted L existing sourceKey))
    return ()

def ensureDestinationObject (sourceSide destSide : SyncSide) (source : Unstructured) :
    SyncM Unit := do
  let destObj ← wrapE "failed to create destination object" (s.destCreator source)
  wrap "failed to ensure destination namespace"
    (ensureNamespace scope destSide.client destObj.metadata.ns)
  let destObj := s.newDestination L sourceSide source destObj
  match ← request scope (.create destSide.client destObj) with
  | .ok _ => pure ()
  | .error .alreadyExists =>
    wrap "failed to adopt destination object"
      (s.adoptExistingDestinationObject L scope destSide destObj
        (newObjectKey source sourceSide.clusterName sourceSide.workspacePath))
  | .error e => throw (.wrapped "failed to create destination object" (.api e))
  wrap "failed to update sync state" (ObjectStateStore.put L.hash s.stateStore scope source
    sourceSide.clusterName s.subresources)

/-- The apply payload for a source object. -/
def applyPayload (sourceSide : SyncSide) (source destObj : Unstructured) : Unstructured :=
  s.removeSubresources (s.newDestination L sourceSide source destObj)

/-- Returns the destination object as the server has it after the apply. -/
def applyServerSide (sourceSide destSide : SyncSide) (source : Unstructured)
    (dest : Option Unstructured) : SyncM (Option Unstructured) := do
  let destObj ← wrapE "failed to create destination object" (s.destCreator source)
  wrap "failed to ensure destination namespace"
    (ensureNamespace scope destSide.client destObj.metadata.ns)
  let desired := s.applyPayload L sourceSide source destObj
  match dest with
  | some d =>
    if d.metadata.deletionTimestamp.isSome then return dest
    else
      let d' ← wrap "failed to server-side apply destination object"
        (apply scope destSide.client desired s.fieldManager)
      return some d'
  | none =>
    let d' ← wrap "failed to server-side apply destination object"
      (apply scope destSide.client desired s.fieldManager)
    return some d'

def handleDeletion (sourceSide destSide : SyncSide) (source : Unstructured)
    (dest : Option Unstructured) : SyncM Bool :=
  if !s.blockSourceDeletion then return false
  else
    match dest with
    | some d =>
      if d.metadata.deletionTimestamp.isSome then return true
      else do
        wrap "failed to delete destination object" (delete scope (d.idOn destSide.client)
          (normalizeDeletionPropagationPolicy s.deletionPropagationPolicy))
        return true
    | none => do
      let (updated, _) ← wrap "failed to remove cleanup finalizer from source object"
        (removeFinalizer L.diff scope sourceSide.client source)
      return updated

/-- The part of `Sync` after the mutations; returns the source object that it worked on. -/
def syncMutated (sourceSide destSide : SyncSide) (source : Unstructured)
    (dest : Option Unstructured) : SyncM (Bool × Unstructured) :=
  if s.useServerSideApply then do
    let newDest ← wrap "failed to apply destination object"
      (s.applyServerSide L scope sourceSide destSide source dest)
    match newDest with
    | none => return (false, source)
    | some d =>
      if d.metadata.deletionTimestamp.isSome then return (false, source)
      else
        let source ← s.syncObjectStatus scope sourceSide source d
        return (false, source)
  else
    match dest with
    | none => do
      wrap "failed to create destination object"
        (s.ensureDestinationObject L scope sourceSide destSide source)
      return (true, source)
    | some d =>
      if d.metadata.deletionTimestamp.isSome then return (false, source)
      else do
        let (restamped, d) ← wrap "failed to ensure destination metadata"
          (s.ensureDestMetadataPersisted L scope destSide d)
        if restamped then return (true, source)
        else
          wrap "failed to synchronize object state"
            (s.syncObjectContents L scope sourceSide destSide source d)

/-- `Sync`: says whether to requeue, and returns the source object of the caller. -/
def sync (sourceSide destSide : SyncSide) (source : Unstructured) (dest : Option Unstructured) :
    SyncM (Bool × Unstructured) :=
  if source.metadata.deletionTimestamp.isSome || s.forceDelete then do
    let requeue ← s.handleDeletion L scope sourceSide destSide source dest
    return (requeue, source)
  else do
    let (updated, source) ← (if s.blockSourceDeletion then
        wrap "failed to add cleanup finalizer to source object"
          (ensureFinalizer L.diff scope sourceSide.client source)
      else pure (false, source))
    if updated then return (true, source)
    else
      let (mutated, dest) ← wrapE "failed to apply mutations" (s.applyMutations source dest)
      let (requeue, mutated) ← s.syncMutated L scope sourceSide destSide mutated dest
      -- a mutator works on a copy of the source object
      return (requeue, if s.mutator.isSome then source else mutated)

end ObjectSyncer

end Sync
