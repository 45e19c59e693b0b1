import SyncAgent.ApiExport.Reconciler
import SyncAgent.Lib.Pool
import Mathlib.Data.List.Dedup

/-! The controllers that publish resources: one makes an APIResourceSchema for each
PublishedResource (`internal/controller/apiresourceschema`), the other one lists the schemas in the
APIExport (`internal/controller/apiexport/controller.go`).  They are programs over the API servers;
their calls come in any order, any call can fail, and the other parties act between them. -/

namespace ApiExport

open Kube Projection
open Sync (Error GroupVersionResource RelatedResourceSpec)

structure RelatedResource extends RelatedResourceSpec where
  identityHash : String := ""
deriving DecidableEq

/-- `projection.RelatedResourceKcpGVR` -/
def RelatedResource.kcpGVR (rr : RelatedResource) : GroupVersionResource :=
  if rr.origin = .kcp then rr.gvr else rr.projectedGVR

/-- The part of a PublishedResource that the two controllers read. -/
structure PublishedResource where
  name : String
  labels : StringMap := ∅
  rules : Rules
  filterNamespace : Option LabelSelector := none
  enableWorkspacePaths : Bool := false
  related : List RelatedResource := []
  deleting : Bool := false
  /-- The status. -/
  resourceSchemaName : String := ""
deriving DecidableEq

/-- The objects on the service cluster and in kcp that the controllers read and write. -/
structure Store where
  published : SortedMap String PublishedResource
  schemas : SortedMap String APIResourceSchema
  exports : SortedMap String APIExport

/-- A request.  `ensureExport` is `EnsureNamedObject` for an APIExport: it applies a reconciler to
the current object, or to an empty one if there is none. -/
inductive Request where
  | getPublishedResource (name : String)
  | listPublishedResources (selector : Selector)
  | retrieveCRD (gk : GroupKind)
  | getSchema (name : String)
  | createSchema (ars : APIResourceSchema)
  | updateSchema (ars : APIResourceSchema)
  | patchStatus (name schemaName : String)
  | getExport (name : String)
  | ensureExport (name : String) (reconciler : APIExport → APIExport)

abbrev Request.Value : Request → Type
  | .getPublishedResource _ => PublishedResource
  | .listPublishedResources _ => List PublishedResource
  | .retrieveCRD _ => Crd
  | .getSchema _ => APIResourceSchema
  | .getExport _ => APIExport
  | .createSchema _ | .updateSchema _ | .patchStatus .. | .ensureExport .. => Unit

abbrev api : Interface := ⟨Request, fun c => Except ApiError c.Value⟩

abbrev M (α : Type) := Fallible api Error α

/-- A request whose failure is passed on with a text. -/
def call (c : Request) (text : String) : M c.Value :=
  Fallible.sendE (I := api) c fun r => Except.mapError (fun e => .wrapped text (.api e)) r

/-- A request whose failure the caller looks at. -/
def attempt (c : Request) : M (Except ApiError c.Value) := Fallible.request (I := api) c

/-- A result that is already known, or an error with a text put before it. -/
def wrapE {α : Type} (text : String) (r : Except Error α) : M α :=
  ExceptT.mk (.pure (r.mapError (.wrapped text)))

/-- What both controllers are configured with: the checksum of a specification, the conversion of a
CRD into a schema, the filter of PublishedResources and the names. -/
structure Config where
  libs : Libraries
  hash : CrdSpec → String
  convert : Crd → Except Error SchemaSpec
  prFilter : Selector
  apiExportName : String
  agentName : String

namespace Config

variable (R : Config)

/-- `projection.ProjectPublishedResource` -/
def projectPublishedResource (pubRes : PublishedResource) : M Crd := do
  let crd ← call (.retrieveCRD pubRes.rules.sourceGK)
    "failed to discover resource defined in PublishedResource"
  wrapE "failed to apply projection rules" (projectCRD R.libs crd pubRes.rules)

/-! ### The controller of the APIResourceSchemas -/

/-- The schema with the name of the agent in its metadata. -/
def fixAgentName (ars : APIResourceSchema) : APIResourceSchema :=
  { ars with
    labels := ars.labels.insert Sync.agentNameLabel R.agentName
    annotations := ars.annotations.insert agentNameAnnotation R.agentName }

/-- Whether the metadata of a schema names the agent. -/
def validAgentName (ars : APIResourceSchema) : Bool :=
  (ars.annotations.get? agentNameAnnotation).getD "" = R.agentName &&
    (ars.labels.get? Sync.agentNameLabel).getD "" = R.agentName

/-- Makes sure that the schema exists. -/
def ensureSchema (projectedCRD : Crd) (arsName : String) : M Unit := do
  match ← attempt (.getSchema arsName) with
  | .error .notFound =>
    let ars ← wrapE "failed to construct APIResourceSchema"
      (createAPIResourceSchema R.convert projectedCRD arsName R.agentName)
    call (.createSchema ars) "failed to create APIResourceSchema"
  | .error e => throw (.wrapped "failed to check for APIResourceSchema" (.api e))
  | .ok ars =>
    if R.validAgentName ars then return ()
    else call (.updateSchema (R.fixAgentName ars)) "failed to update APIResourceSchema"

def reconcileSchema (pubResource : PublishedResource) : M Unit := do
  let projectedCRD ← Fallible.mapError (.wrapped "failed to apply projection rules")
    (R.projectPublishedResource pubResource)
  let arsName := getAPIResourceSchemaName R.hash projectedCRD
  R.ensureSchema projectedCRD arsName
  if pubResource.resourceSchemaName ≠ arsName then
    call (.patchStatus pubResource.name arsName) "failed to update PublishedResource status"

/-- `Reconcile` of the apiresourceschema controller. -/
def schemaReconcile (name : String) : M Unit := do
  match ← attempt (.getPublishedResource name) with
  | .error .notFound => return ()
  | .error e => throw (.api e)
  | .ok pubResource =>
    if pubResource.deleting then return () else R.reconcileSchema pubResource

/-! ### The controller of the APIExport -/

def getSchemaName (pubRes : PublishedResource) : M String := do
  if pubRes.resourceSchemaName ≠ "" then return pubRes.resourceSchemaName
  let projectedCRD ← Fallible.mapError (.wrapped "failed to apply projection rules")
    (R.projectPublishedResource pubRes)
  return getAPIResourceSchemaName R.hash projectedCRD

/-- The names of all schemas, also of those that are not there yet. -/
def schemaNames (pubResources : List PublishedResource) : M (List String) :=
  Fallible.forEach (fun pubResource => Fallible.mapError
    (.wrapped ("failed to determine schema name for PublishedResource " ++ pubResource.name))
    (R.getSchemaName pubResource)) pubResources

/-- The names of the schemas that the other controller has made. -/
def readySchemaNames (pubResources : List PublishedResource) : List String :=
  (pubResources.map (·.resourceSchemaName)).filter (· ≠ "")

/-- The groups and resources of a list of schemas. -/
def ownResources (schemas : List String) : Except Error (List GroupResource) :=
  schemas.mapM fun schema => (parseSchemaName R.libs schema).map groupResource

/-- The claims that one PublishedResource needs. -/
def claimsOf (ourOwnResources : List GroupResource) (pubResource : PublishedResource) :
    List ClaimKey :=
  (if pubResource.filterNamespace.isSome then [⟨"", "namespaces", ""⟩] else []) ++
  (if pubResource.enableWorkspacePaths then [⟨"core.kcp.io", "logicalclusters", ""⟩] else []) ++
  pubResource.related.flatMap fun rr =>
    ⟨"", "namespaces", ""⟩ ::
      if ourOwnResources.contains (groupResource rr.kcpGVR) then []
      else [⟨rr.kcpGVR.group, rr.kcpGVR.resource, rr.identityHash⟩]

def claimedResources (ourOwnResources : List GroupResource)
    (pubResources : List PublishedResource) : List ClaimKey :=
  pubResources.flatMap (claimsOf ourOwnResources) ++ [⟨"", "events", ""⟩]

/-- The order in which the elements of a set come: the distinct elements of a list in any order. -/
structure SetOrder where
  list : {α : Type} → [DecidableEq α] → List α → List α
  perm : ∀ {α : Type} [DecidableEq α] (l : List α), (list l).Perm l.dedup

theorem SetOrder.mem_list (order : SetOrder) {α : Type} [DecidableEq α] {x : α} {l : List α} :
    x ∈ order.list l ↔ x ∈ l := by
  rw [(order.perm l).mem_iff, List.mem_dedup]

/-- `reconcile` of the apiexport controller. -/
def reconcileExport (order : SetOrder) (apiExport : APIExport) : M Unit := do
  let pubResources ← call (.listPublishedResources R.prFilter) "failed to list PublishedResources"
  let allSchemaNames ← R.schemaNames pubResources
  let mergedSchemaNames := mergeResourceSchemas R.libs apiExport.latestResourceSchemas
    (order.list allSchemaNames)
  let ourOwnResources ← wrapE "failed to assemble own resources" (R.ownResources mergedSchemaNames)
  let reconciler := createAPIExportReconciler R.libs (order.list (readySchemaNames pubResources))
    (order.list (claimedResources ourOwnResources pubResources)) R.agentName
  Fallible.mapError (.wrapped "failed to reconcile APIExport")
    (call (.ensureExport R.apiExportName reconciler)
      ("failed to ensure APIExport /" ++ R.apiExportName))

/-- `Reconcile` of the apiexport controller. -/
def exportReconcile (order : SetOrder) : M Unit := do
  match ← attempt (.getExport R.apiExportName) with
  | .error .notFound => return ()
  | .error e => throw (.api e)
  | .ok apiExport => R.reconcileExport order apiExport

end Config

/-! ### What the API servers do -/

/-- What a request does when it goes through.  The discovery of a CRD is answered by the service
cluster. -/
def exec : (c : Request) → Store → Except ApiError c.Value × Store
  | .getPublishedResource name, s => ((s.published.get? name).elim (.error .notFound) .ok, s)
  | .listPublishedResources selector, s =>
    (.ok ((s.published.entries.map Prod.snd).filter fun pr => selector pr.labels), s)
  | .retrieveCRD _, s => (.error .notFound, s)
  | .getSchema name, s => ((s.schemas.get? name).elim (.error .notFound) .ok, s)
  | .createSchema ars, s =>
    match s.schemas.get? ars.name with
    | some _ => (.error .alreadyExists, s)
    | none => (.ok (), { s with schemas := s.schemas.insert ars.name ars })
  | .updateSchema ars, s =>
    match s.schemas.get? ars.name with
    | none => (.error .notFound, s)
    | some cur =>
      if ars.resourceVersion ≠ cur.resourceVersion then (.error .conflict, s)
      else
        let next := { ars with resourceVersion := cur.resourceVersion + 1 }
        (.ok (), { s with schemas := s.schemas.insert ars.name next })
  | .patchStatus name schemaName, s =>
    match s.published.get? name with
    | none => (.error .notFound, s)
    | some cur =>
      let next := { cur with resourceSchemaName := schemaName }
      (.ok (), { s with published := s.published.insert name next })
  | .getExport name, s => ((s.exports.get? name).elim (.error .notFound) .ok, s)
  | .ensureExport name reconciler, s =>
    let next := reconciler ((s.exports.get? name).getD {})
    (.ok (), { s with exports := s.exports.insert name next })

/-- A request goes through, or it fails, before or after it had its effect.  Any CRD can be
discovered. -/
def Does (c : Request) (s : Store) (r : Except ApiError c.Value) (s' : Store) : Prop :=
  exec c s = (r, s') ∨ (∃ e, r = .error e) ∧ (s' = s ∨ s' = (exec c s).2) ∨
    (∃ gk, c = .retrieveCRD gk) ∧ s' = s

/-- Requests that go through; `discover` says which CRD is found. -/
def execWith (discover : GroupKind → Except ApiError Crd) (c : api.Call) (s : Store) :
    api.Resp c × Store :=
  match c with
  | .retrieveCRD gk => (discover gk, s)
  | c => exec c s

theorem does_of_execWith {discover : GroupKind → Except ApiError Crd} {c : api.Call} {s s' : Store}
    {r : api.Resp c} (h : execWith discover c s = (r, s')) : Does c s r s' := by
  cases c with
  | retrieveCRD gk => exact .inr (.inr ⟨⟨gk, rfl⟩, (congrArg Prod.snd h).symm⟩)
  | _ => exact .inl h

theorem Does.state {c : Request} {s s' : Store} {r : Except ApiError c.Value} (h : Does c s r s') :
    s' = s ∨ s' = (exec c s).2 := by
  rcases h with h | ⟨-, h⟩ | ⟨-, h⟩
  · exact .inr (by rw [h])
  · exact h
  · exact .inl h

/-- The requests of a program that changes nothing. -/
def Request.Reads : Request → Prop
  | .getPublishedResource _ | .listPublishedResources _ | .retrieveCRD _ | .getSchema _
  | .getExport _ => True
  | .createSchema _ | .updateSchema _ | .patchStatus .. | .ensureExport .. => False

theorem Does.of_reads {c : Request} (hc : c.Reads) {s s' : Store} {r : Except ApiError c.Value}
    (h : Does c s r s') : s' = s := by
  rcases h.state with h | h
  · exact h
  · cases c with
    | getPublishedResource name => exact h
    | listPublishedResources selector => exact h
    | retrieveCRD gk => exact h
    | getSchema name => exact h
    | getExport name => exact h
    | _ => exact absurd hc id

end ApiExport
