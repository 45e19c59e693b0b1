import SyncAgent.ApiExport.Controllers
import SyncAgent.Projection.Versions

/-! The discovery of a CustomResourceDefinition (`internal/discovery/client.go`): the original CRD
is stripped down, and for a resource without a CRD one is made up from what the API server tells
about its versions.  All requests of `RetrieveCRD` are reads and none is made twice, so the
responses are an argument of it. -/

namespace Discovery

open Kube Projection
open Sync (Error)
open ApiExport.Config (SetOrder)

/-! ### What the API server tells -/

structure APIResource where
  name : String
  singularName : String := ""
  namespaced : Bool := false
  kind : String
  shortNames : List String := []
  categories : List String := []
deriving DecidableEq

structure APIResourceList where
  groupVersion : String
  apiResources : List APIResource
deriving DecidableEq

/-- A CRD as it is stored: `otherMeta` are the fields of its metadata that are not looked at, and
the conditions are pairs of a type and a status. -/
structure StoredCrd extends Crd where
  annotations : StringMap := ∅
  otherMeta : Fields := ∅
  conditions : List (String × String) := []
deriving DecidableEq

/-- The responses of the API server. -/
structure Responses where
  serverGroupsAndResources : Except Error (List APIResourceList)
  serverPreferredResources : Except Error (List APIResourceList)
  getCRD : String → Except ApiError StoredCrd
  openAPISchema : Except Error Doc

/-- What the discovery takes from libraries: sorting and the order of versions, the models of an
OpenAPI schema and their conversion into the schema of a CRD, and which groups are protected. -/
structure Libraries extends Projection.Libraries where
  modelsByGKV : Doc → Except Error (GroupVersionKind → Option Doc)
  convert : Doc → Except Error Doc
  isProtectedCommunityGroup : String → Bool

variable (L : Libraries)

/-- A list of resources with a version that cannot be parsed. -/
def invalidGroupVersion (groupVersion : String) : Error → Error :=
  .wrapped ("invalid API group version " ++ L.quote groupVersion ++ " reported by Kubernetes")

/-! ### Which versions there are -/

/-- What the scan of the resource lists has found so far. -/
structure Found where
  resource : Option APIResource := none
  availableVersions : List String := []
  subresourcesPerVersion : SortedMap String (List String) := ∅

/-- One resource of a list; a name with a slash is that of a subresource. -/
def scanResource (gk : GroupKind) (version : String) (found : Found) (res : APIResource) : Found :=
  if res.kind ≠ gk.kind then found
  else
    let subresource := afterSlash res.name
    let list := (found.subresourcesPerVersion.get? version).getD []
    let found := if subresource = "" then { found with resource := some res }
      else { found with
        subresourcesPerVersion :=
          found.subresourcesPerVersion.insert version (subresource :: list) }
    { found with availableVersions := version :: found.availableVersions }

def scanList (gk : GroupKind) (found : Found) (resList : APIResourceList) : Except Error Found :=
  match parseGroupVersion resList.groupVersion with
  | .error e => .error (invalidGroupVersion L resList.groupVersion e)
  | .ok gv =>
    if gv.group ≠ gk.group then .ok found
    else .ok (resList.apiResources.foldl (scanResource gk gv.version) found)

def scan (gk : GroupKind) (resourceLists : List APIResourceList) : Except Error Found :=
  resourceLists.foldlM (scanList L gk) {}

/-- The version of the first list of a group that has a resource, `none` if there is no such
list. -/
def preferredIn (group name : String) : List APIResourceList → Except Error (Option String)
  | [] => .ok none
  | resList :: rest =>
    match parseGroupVersion resList.groupVersion with
    | .error e => .error (invalidGroupVersion L resList.groupVersion e)
    | .ok gv =>
      if gv.group = group ∧ resList.apiResources.any (·.name = name) = true then
        .ok (some gv.version)
      else preferredIn group name rest

def getPreferredVersion (api : Responses) (group name : String) : Except Error String := do
  let result ← api.serverPreferredResources
  return (← preferredIn L group name result).getD ""

/-! ### A CRD that is there -/

def nonStructuralSchema := "NonStructuralSchema"

def kubeAPIApprovedAnnotation := "api-approved.kubernetes.io"

/-- `apihelpers.IsCRDConditionTrue` -/
def StoredCrd.isConditionTrue (crd : StoredCrd) (type : String) : Bool :=
  (crd.conditions.find? (·.1 = type)).any (·.2 = "True")

/-- Whether a version has a schema. -/
def hasSchema (v : CrdVersion) : Bool :=
  ((v.rest.get? "schema").bind Doc.fields?).elim false fun schema =>
    (schema.get? "openAPIV3Schema").any (· ≠ .null)

/-- The schema of a version, which stands below one key. -/
def validation (openAPIV3Schema : Doc) : Doc :=
  .obj (SortedMap.insert ∅ "openAPIV3Schema" openAPIV3Schema)

def emptySchema : Doc :=
  validation (.obj ((SortedMap.insert ∅ "type" (.str "object")).insert
    "x-kubernetes-preserve-unknown-fields" ⟨.bool true, trivial⟩))

/-- The conversion between versions that changes nothing but the version. -/
def noneConverter : Doc := .obj (SortedMap.insert ∅ "strategy" (.str "None"))

def filterAnnotations (ann : StringMap) : StringMap :=
  ann.filterKeys fun k => [ kubeAPIApprovedAnnotation].contains k

/-- The stored CRD, stripped down to what is needed. -/
def stripCRD (crd : StoredCrd) : StoredCrd :=
  let versions := if crd.isConditionTrue nonStructuralSchema then
      crd.spec.versions.map fun v =>
        if hasSchema v then v else { v with rest := v.rest.insert "schema" emptySchema }
    else crd.spec.versions
  { name := crd.name
    generation := crd.generation
    annotations := filterAnnotations crd.annotations
    spec := { crd.spec with versions := versions, conversion := some noneConverter } }

/-! ### A CRD from the OpenAPI schema -/

def scaleSubresource : Doc :=
  .obj ((SortedMap.insert ∅ "specReplicasPath" (.str ".spec.replicas")).insert
    "statusReplicasPath" (.str ".status.replicas"))

/-- The subresources of a version, as they were listed. -/
def subresourcesDoc (subresources : List String) : Doc :=
  let status : Fields := if subresources.contains "status" then
    SortedMap.insert ∅ "status" (.obj ∅) else ∅
  .obj (if subresources.contains "scale" then status.insert "scale" scaleSubresource else status)

/-- One version of the CRD that is made up. -/
def makeVersion (gk : GroupKind) (models : GroupVersionKind → Option Doc)
    (preferredVersion : String)
    (found : Found) (version : String) : Except Error CrdVersion :=
  match models ⟨gk.group, version, gk.kind⟩ with
  | none => .error (.new ("no models for " ++ gk.group ++ "/" ++ version ++ ", Kind=" ++ gk.kind))
  | some protoSchema =>
    match L.convert protoSchema with
    | .error e => .error e
    | .ok schemaProps => .ok {
        name := version
        served := true
        storage := version = preferredVersion
        rest := (SortedMap.insert ∅ "schema" (validation schemaProps)).insert "subresources"
          (subresourcesDoc ((found.subresourcesPerVersion.get? version).getD [])) }

/-- `SetDefaults_CustomResourceDefinition`, as far as the specification goes. -/
def setDefaults (spec : CrdSpec) : CrdSpec :=
  { spec with
    names := { spec.names with
      singular :=
        if spec.names.singular = "" then L.toLower spec.names.kind else spec.names.singular
      listKind := if spec.names.listKind = "" ∧ spec.names.kind ≠ "" then spec.names.kind ++ "List"
        else spec.names.listKind }
    conversion := some (spec.conversion.getD noneConverter) }

variable (order : SetOrder) (api : Responses) (gk : GroupKind)

/-- The versions in the order of Kubernetes. -/
def sortedVersions (found : Found) : List String :=
  L.slices.sort L.compareKubeAwareVersionStrings (order.list found.availableVersions)

/-- The CRD that is made up for a resource without one. -/
def makeCRD (crdName : String) (resource : APIResource) (found : Found) :
    Except Error StoredCrd := do
  let openapiSchema ← api.openAPISchema
  let preferredVersion ← getPreferredVersion L api gk.group resource.name
  if preferredVersion = "" then
    .error (.new
      "cannot determine storage version because no preferred version exists in the schema")
  else
    let models ← L.modelsByGKV openapiSchema
    let versions ← (sortedVersions L order found).mapM
      (makeVersion L gk models preferredVersion found)
    return {
      name := crdName
      generation := 0
      annotations := if L.isProtectedCommunityGroup gk.group then
          SortedMap.insert ∅ kubeAPIApprovedAnnotation
            "https://github.com/kcp-dev/kubernetes/pull/4"
        else ∅
      spec := setDefaults L {
        group := gk.group
        versions := versions
        scope := if resource.namespaced then .namespaceScoped else .clusterScoped
        names := {
          plural := resource.name
          singular := resource.singularName
          kind := resource.kind
          listKind := ""
          shortNames := resource.shortNames
          categories := resource.categories }
        conversion := none } }

/-- `GroupKind.String` -/
def groupKindText (gk : GroupKind) : String :=
  if gk.group = "" then gk.kind else gk.kind ++ "." ++ gk.group

/-- The name of the CRD of a resource. -/
def crdNameOf (group plural : String) : String :=
  if group = "" then plural ++ ".core" else plural ++ "." ++ group

def retrieveCRD : Except Error StoredCrd := do
  let resourceLists ← api.serverGroupsAndResources
  let found ← scan L gk resourceLists
  match found.resource with
  | none => .error (.new ("could not find " ++ groupKindText gk ++ " in APIs"))
  | some resource =>
    let crdName := crdNameOf gk.group resource.name
    match api.getCRD crdName with
    | .ok crd => return stripCRD crd
    | .error .notFound => makeCRD L order api gk crdName resource found
    | .error e => .error (.api e)

end Discovery
