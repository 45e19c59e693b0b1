import SyncAgent.Sync.Runs

/-! The reconciler of a sync controller (`internal/controller/sync/controller.go`): it reads the
remote object, applies the filter of the PublishedResource and processes the object.  Between its
reads the other parties act, so each read is answered by the world of its own time. -/

namespace SyncController

open Kube Sync

structure ResourceFilter where
  ns : Option LabelSelector := none
  resource : Option LabelSelector := none
deriving DecidableEq

/-- The object of a workspace that says which path it has, as kcp defines it. -/
structure LogicalClusters where
  typeMeta : TypeMeta
  name : String
  pathAnnotationKey : String

/-- The reconciler of one PublishedResource.  `getCluster` says whether the client of a workspace is
there, `newResourceSyncer` what the constructor of the syncer returns. -/
structure Reconciler where
  libs : Libraries
  logicalClusters : LogicalClusters
  remoteType : TypeMeta
  filter : Option ResourceFilter := none
  enableWorkspacePaths : Bool := false
  getCluster : String → Except Error Unit
  newResourceSyncer : Except Error ResourceSyncer

structure Request where
  clusterName : String
  ns : String
  name : String
deriving DecidableEq

structure Result where
  /-- In seconds. -/
  requeueAfter : Option Nat := none
deriving DecidableEq

namespace Reconciler

variable (R : Reconciler)

/-- The labels of an object that is not there cannot be read. -/
def matchesFilter (obj : Option Unstructured) (selector : Option LabelSelector) :
    Except Error Bool :=
  match selector with
  | none => .ok true
  | some selector =>
    match R.libs.labelSelectorAsSelector selector with
    | .error e => .error (.new e)
    | .ok s =>
      match obj with
      | none => .error (.new "invalid memory address or nil pointer dereference")
      | some obj => .ok (s obj.metadata.labels)

def objectMatchesFilter (remoteObj : Unstructured) (namespaceObj : Option Unstructured) :
    Except Error Bool :=
  match R.filter with
  | none => .ok true
  | some filter =>
    match R.matchesFilter (some remoteObj) filter.resource with
    | .error e => .error e
    | .ok false => .ok false
    | .ok true => R.matchesFilter namespaceObj filter.ns

def scope (request : Request) : Scope :=
  { cluster := request.clusterName, ns := request.ns, name := request.name }

/-- Where the remote object of a request is. -/
def objectId (request : Request) : ObjectId :=
  ⟨.remoteClient request.clusterName, R.remoteType, request.ns, request.name⟩

/-- Where the Namespace of a remote object is, if the filter asks for it. -/
def namespaceId (request : Request) (remoteObj : Unstructured) : Option ObjectId :=
  if (R.filter.bind (·.ns)).isSome ∧ remoteObj.metadata.ns ≠ "" then
    some ⟨.remoteClient request.clusterName, ObjectSyncer.namespaceType, "", remoteObj.metadata.ns⟩
  else none

def logicalClusterId (request : Request) : ObjectId :=
  ⟨.remoteClient request.clusterName, R.logicalClusters.typeMeta, "", R.logicalClusters.name⟩

/-- `Reconcile` up to the call of `Process`: the syncer, the workspace path and the object that it
passes on, `none` if there is nothing to do. -/
def prepare (request : Request) : SyncM (Option (ResourceSyncer × String × Unstructured)) := do
  let scope := scope request
  wrapE "failed to get cluster" (R.getCluster request.clusterName)
  match ← Sync.request scope (.get (R.objectId request) false) with
  | .error .notFound => return none
  | .error e => throw (.wrapped "failed to retrieve remote object" (.api e))
  | .ok remoteObj =>
    let namespaceObj ← (match R.namespaceId request remoteObj with
      | some id => do
        let ns ← wrap "failed to retrieve remote object's namespace" (Sync.get scope id false)
        return some ns
      | none => return none)
    let included ← wrapE "failed to apply filtering rules"
      (R.objectMatchesFilter remoteObj namespaceObj)
    if !included then return none
    else
      let path ← (if R.enableWorkspacePaths then do
          let lc ← wrap "failed to retrieve remote logicalcluster"
            (Sync.get scope (R.logicalClusterId request) false)
          return (lc.metadata.annotations.get? R.logicalClusters.pathAnnotationKey).getD ""
        else return "")
      let syncer ← wrapE "failed to create syncer" R.newResourceSyncer
      return some (syncer, path, remoteObj)

def reconcile (request : Request) : SyncM Result := do
  match ← R.prepare request with
  | none => return {}
  | some (syncer, path, remoteObj) =>
    let requeue ← syncer.process request.clusterName path remoteObj
    return { requeueAfter := if requeue then some 5 else none }

/-! ### What is processed -/

section History

variable (S : Server) (history : Nat → World)

/-- The answers to reads when the world changes over time: the state is the number of reads. -/
def answer (c : api.Call) (time : Nat) : api.Resp c × Nat := ((exec S c (history time)).1, time + 1)

/-- `Reconcile` calls `Process` on the object `r`. -/
def Processes (request : Request) (r : Unstructured) : Prop :=
  ∃ syncer path time, Fallible.eval (answer S history) (R.prepare request) 0 =
    (.ok (some (syncer, path, r)), time)

/-- All that `Reconcile` needs is there: the client of the workspace, the Namespace of the object if
the filter asks for it, the path of the workspace if it is wanted, and the syncer. -/
structure Ready (request : Request) (r : Unstructured) : Prop where
  cluster : R.getCluster request.clusterName = .ok ()
  namespaceObj : ∀ id, R.namespaceId request r = some id → ((history 1).object? id).isSome = true
  path : R.enableWorkspacePaths = true →
    ∀ time, ((history time).object? (R.logicalClusterId request)).isSome = true
  syncer : ∃ s, R.newResourceSyncer = .ok s

/-- The Namespace that the filter is applied to. -/
def namespaceOf (request : Request) (r : Unstructured) : Option Unstructured :=
  (R.namespaceId request r).bind (history 1).object?

variable {R S history}

theorem get_eval {scope : Scope} {id : ObjectId} {o : Unstructured} {time : Nat}
    (h : (history time).object? id = some o) :
    Fallible.eval (answer S history) (Sync.get scope id false) time = (.ok o, time + 1) := by
  simp [Sync.get, Fallible.eval_sendE, answer, exec, h, Except.mapError]

theorem wrapE_eval {α : Type} {text : String} (r : Except Error α) (time : Nat) :
    Fallible.eval (answer S history) (wrapE text r) time = (r.mapError (.wrapped text), time) := rfl

theorem namespace_eval {request : Request} {r : Unstructured} (hready : R.Ready history request r) :
    ∃ time, Fallible.eval (answer S history) (match R.namespaceId request r with
      | some id => do
        let ns ← wrap "failed to retrieve remote object's namespace"
          (Sync.get (scope request) id false)
        return some ns
      | none => return none) 1 = (.ok (R.namespaceOf history request r), time) := by
  cases hid : R.namespaceId request r with
  | none => exact ⟨1, by simp [namespaceOf, hid, Fallible.eval_pure]⟩
  | some id =>
    obtain ⟨ns, hns⟩ := Option.isSome_iff_exists.mp (hready.namespaceObj id hid)
    refine ⟨2, ?_⟩
    simp only [Fallible.eval_bind, wrap, Fallible.eval_mapError, get_eval hns, Except.mapError,
      Fallible.eval_pure, namespaceOf, hid, Option.bind_some, hns]

theorem path_eval {request : Request} {r : Unstructured} (hready : R.Ready history request r)
    (time : Nat) :
    ∃ path time', Fallible.eval (answer S history) (if R.enableWorkspacePaths then do
        let lc ← wrap "failed to retrieve remote logicalcluster"
          (Sync.get (scope request) (R.logicalClusterId request) false)
        return (lc.metadata.annotations.get? R.logicalClusters.pathAnnotationKey).getD ""
      else return "") time = (.ok path, time') := by
  split
  · next hpaths =>
    obtain ⟨lc, hlc⟩ := Option.isSome_iff_exists.mp (hready.path hpaths time)
    simp only [Fallible.eval_bind, wrap, Fallible.eval_mapError, get_eval hlc, Except.mapError,
      Fallible.eval_pure]
    exact ⟨_, _, rfl⟩
  · exact ⟨"", time, rfl⟩

/-- `Process` is called on a remote object exactly if the filter includes it at that moment.
Whether the object is being deleted and carries the finalizer makes no difference. -/
theorem processes_iff {request : Request} {r : Unstructured}
    (hobj : (history 0).object? (R.objectId request) = some r)
    (hready : R.Ready history request r) :
    R.Processes S history request r ↔
      R.objectMatchesFilter r (R.namespaceOf history request r) = .ok true := by
  obtain ⟨s, hs⟩ := hready.syncer
  obtain ⟨time, hns⟩ := namespace_eval (S := S) hready
  obtain ⟨path, time', hpath⟩ := path_eval (S := S) hready time
  have hget : Fallible.eval (answer S history)
      (Sync.request (scope request) (.get (R.objectId request) false)) 0 = (.ok (.ok r), 1) := by
    unfold Sync.request
    rw [Fallible.eval_request]
    simp only [answer, exec, hobj]
    rfl
  have heval : Fallible.eval (answer S history) (R.prepare request) 0 =
      match R.objectMatchesFilter r (R.namespaceOf history request r) with
      | .error e => (.error (.wrapped "failed to apply filtering rules" e), time)
      | .ok false => (.ok none, time)
      | .ok true => (.ok (some (s, path, r)), time') := by
    unfold prepare
    rw [Fallible.eval_bind, wrapE_eval, hready.cluster]
    simp only [Except.mapError]
    rw [Fallible.eval_bind, hget]
    simp only
    rw [Fallible.eval_bind, hns]
    simp only
    rw [Fallible.eval_bind, wrapE_eval]
    cases R.objectMatchesFilter r (R.namespaceOf history request r) with
    | error e => rfl
    | ok included =>
      cases included with
      | false => rfl
      | true =>
        simp only [Except.mapError, Bool.not_true]
        rw [if_neg (by simp), Fallible.eval_bind, hpath]
        simp only
        rw [Fallible.eval_bind, wrapE_eval, hs]
        rfl
  unfold Processes
  rw [heval]
  constructor
  · rintro ⟨s', path', t, h⟩
    split at h
    · cases h
    · cases h
    · assumption
  · intro h
    rw [h]
    exact ⟨s, path, time', rfl⟩

end History

/-- The reconciler of CronTabs with the label `team=a`. -/
def sample : Reconciler where
  libs := .sample
  logicalClusters :=
    ⟨⟨"core.kcp.io/v1alpha1", "LogicalCluster", by decide⟩, "cluster", "kcp.io/path"⟩
  remoteType := crontabType
  filter := some { resource := some { matchLabels := SortedMap.insert ∅ "team" "a" } }
  getCluster _ := .ok ()
  newResourceSyncer := .ok (Primary.sample []).syncer

def sampleRequest : Request := ⟨"c1", "team-a", "daily"⟩

/-- The sample object is being deleted. -/
def deletedWorld (labels : StringMap) : World :=
  World.empty.put (.remoteClient "c1") { Primary.sampleObject labels default with
    metadata.deletionTimestamp := some 1 }

theorem ready_sample (history : Nat → World) (r : Unstructured) :
    sample.Ready history sampleRequest r :=
  ⟨rfl, fun id h => (by cases h), fun h => (by cases h), _, rfl⟩

/-- An object that the filter includes is processed when it is being deleted. -/
theorem processes_labelled : ∃ r, (deletedWorld (SortedMap.insert ∅ "team" "a")).object?
      (sample.objectId sampleRequest) = some r ∧ r.metadata.deletionTimestamp = some 1 ∧
    sample.Processes .setting (fun _ => deletedWorld (SortedMap.insert ∅ "team" "a")) sampleRequest
      r :=
  ⟨_, rfl, rfl, (processes_iff rfl (ready_sample _ _)).mpr (by decide +kernel)⟩

/-- The label that the filter asks for was removed after the object had been synced: the object is
being deleted and carries the finalizer, but it is not processed, and nothing is left to do. -/
theorem filter_blocks_cleanup :
    ∃ r, (deletedWorld ∅).object? (sample.objectId sampleRequest) = some r ∧
    r.metadata.deletionTimestamp.isSome = true ∧
    r.metadata.finalizers.contains deletionFinalizer = true ∧
    sample.Ready (fun _ => deletedWorld ∅) sampleRequest r ∧
    ¬ sample.Processes .setting (fun _ => deletedWorld ∅) sampleRequest r ∧
    (Fallible.eval (answer .setting fun _ => deletedWorld ∅)
      (sample.reconcile sampleRequest) 0).1.toOption = some {} := by
  refine ⟨_, rfl, rfl, by decide, ready_sample _ _, ?_, by decide +kernel⟩
  rintro ⟨syncer, path, time, h⟩
  have hnone : ((Fallible.eval (answer .setting fun _ => deletedWorld ∅)
      (sample.prepare sampleRequest) 0).1.toOption.map Option.isSome) = some false := by
    decide +kernel
  rw [h] at hnone
  cases hnone

end Reconciler

end SyncController
