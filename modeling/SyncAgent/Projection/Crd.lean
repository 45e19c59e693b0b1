import SyncAgent.Sync.PublishedResource
import Mathlib.Data.List.Sort

/-! The projection of a CustomResourceDefinition by the rules of a PublishedResource
(`internal/projection`), and the name of the APIResourceSchema that is made from the result
(`internal/kcp/apiresourceschema.go`). -/

namespace Projection

open Kube
open Sync (Error ResourceScope)

structure GroupKind where
  group : String
  kind : String
deriving DecidableEq

/-- A version of a CRD; `rest` are the fields that the projection does not look at. -/
structure CrdVersion where
  name : String
  served : Bool
  storage : Bool
  rest : Fields
deriving DecidableEq

structure CrdNames where
  plural : String
  singular : String
  kind : String
  listKind : String
  shortNames : List String
  categories : List String
deriving DecidableEq

structure CrdSpec where
  group : String
  names : CrdNames
  scope : ResourceScope
  versions : List CrdVersion
  conversion : Option Doc
deriving DecidableEq

structure Crd where
  name : String
  generation : Nat
  spec : CrdSpec
deriving DecidableEq

structure SourceResourceDescriptor where
  apiGroup : String
  version : String := ""
  versions : List String := []
  kind : String
deriving DecidableEq

/-- The projection rules; an empty field changes nothing. -/
structure ResourceProjection where
  group : String := ""
  version : String := ""
  versions : StringMap := ∅
  scope : Option ResourceScope := none
  kind : String := ""
  plural : String := ""
  shortNames : Option (List String) := none
  categories : Option (List String) := none
deriving DecidableEq

/-- The part of a PublishedResource that the projection reads. -/
structure Rules where
  resource : SourceResourceDescriptor
  projection : Option ResourceProjection := none
deriving DecidableEq

/-- `slices.SortFunc`: a permutation of the list in ascending order.  Elements that compare as equal
come in any order. -/
structure SortFunc where
  sort : {α : Type} → (α → α → Ordering) → List α → List α
  perm : ∀ {α : Type} (cmp : α → α → Ordering) (l : List α), (sort cmp l).Perm l
  sorted : ∀ {α : Type} (cmp : α → α → Ordering) [Std.TransCmp cmp] (l : List α),
    (sort cmp l).Pairwise fun a b => (cmp a b).isLE = true

def SortFunc.insertion : SortFunc where
  sort cmp l := l.insertionSort fun a b => (cmp a b).isLE = true
  perm _ l := List.perm_insertionSort _ l
  sorted {_} cmp _ l :=
    haveI : Std.Total fun a b => (cmp a b).isLE = true :=
      ⟨fun a b => by
        have hswap : cmp b a = (cmp a b).swap := Std.OrientedCmp.eq_swap
        cases hab : cmp a b <;> simp [hswap, hab]⟩
    haveI : IsTrans _ fun a b => (cmp a b).isLE = true := ⟨fun _ _ _ => Std.TransCmp.isLE_trans⟩
    List.pairwise_insertionSort _ l

/-- What the projection takes from libraries: sorting, the order of Kubernetes versions, quoting as
by `%q`, and `strings.ToLower`. -/
structure Libraries where
  slices : SortFunc
  compareKubeAwareVersionStrings : String → String → Ordering
  quote : String → String
  toLower : String → String

def Rules.sourceGK (pubRes : Rules) : GroupKind := ⟨pubRes.resource.apiGroup, pubRes.resource.kind⟩

/-- Whether a version of the CRD is among the selected ones. -/
def SourceResourceDescriptor.selects (src : SourceResourceDescriptor) (ver : CrdVersion) : Bool :=
  if src.version ≠ "" then ver.name = src.version
  else if src.versions ≠ [] then src.versions.contains ver.name
  else true

def stripUnwantedVersions (crd : Crd) (pubRes : Rules) : Except Error Crd :=
  let src := pubRes.resource
  if src.version ≠ "" ∧ src.versions ≠ [] then
    .error (.new
      "cannot configure both .version and .versions in as the source of a PublishedResource")
  else
    let versions := crd.spec.versions.filter src.selects
    if versions = [] then
      if src.version ≠ "" then .error (.new ("CRD does not contain version " ++ src.version))
      else if src.versions ≠ [] then
        .error (.new ("CRD does not contain any of versions [" ++ " ".intercalate src.versions ++
          "]"))
      else .error (.new "CRD contains no versions")
    else .ok { crd with spec.versions := versions }

/-- The index of the last served version. -/
def latestServed (versions : List CrdVersion) : Option Nat :=
  (versions.zipIdx.filter fun v => v.1.served).getLast?.map Prod.snd

def adjustStorageVersion (crd : Crd) : Except Error Crd :=
  match latestServed crd.spec.versions with
  | none => .error (.new "no CRD version selected that is marked as served")
  | some i =>
    if crd.spec.versions.any (·.storage) then .ok crd
    else .ok { crd with
      spec.versions := crd.spec.versions.modify i fun v => { v with storage := true } }

/-- The name of the first version that has the name of an earlier one. -/
def firstRepeated : List String → List CrdVersion → Option String
  | _, [] => none
  | known, v :: rest => if known.contains v.name then some v.name
    else firstRepeated (v.name :: known) rest

variable (L : Libraries)

def projectCRDVersions (crd : Crd) (pubRes : Rules) : Except Error Crd :=
  match pubRes.projection with
  | none => .ok crd
  | some projection =>
    if projection.version ≠ "" then
      match crd.spec.versions with
      | [v] => .ok { crd with spec.versions := [{ v with name := projection.version }] }
      | versions => .error (.new ("cannot project CRD version to a single version " ++
          L.quote projection.version ++ " because it contains " ++ toString versions.length ++
          " versions"))
    else if projection.versions.entries ≠ [] then
      let renamed := crd.spec.versions.map fun v =>
        match (projection.versions.get? v.name).getD "" with
        | "" => v
        | newVersion => { v with name := newVersion }
      match firstRepeated [] renamed with
      | some name => .error (.new ("CRD contains multiple entries for " ++ name ++
          " after applying mutation rules"))
      | none =>
        let compare := fun a b : CrdVersion => L.compareKubeAwareVersionStrings a.name b.name
        .ok { crd with spec.versions := L.slices.sort compare renamed }
    else .ok crd

def projectCRDNames (crd : Crd) (pubRes : Rules) : Crd :=
  match pubRes.projection with
  | none => crd
  | some projection =>
    let group := if projection.group ≠ "" then projection.group else crd.spec.group
    let names := if projection.kind ≠ "" then
        { crd.spec.names with
          kind := projection.kind
          listKind := projection.kind ++ "List"
          singular := L.toLower projection.kind
          plural := L.toLower projection.kind ++ "s" }
      else crd.spec.names
    let names :=
      if projection.plural ≠ "" then { names with plural := projection.plural } else names
    let names := { names with
      categories := projection.categories.getD names.categories
      shortNames := projection.shortNames.getD names.shortNames }
    { crd with
      name := names.plural ++ "." ++ group
      spec := { crd.spec with group, names, scope := projection.scope.getD crd.spec.scope } }

def projectCRD (crd : Crd) (pubRes : Rules) : Except Error Crd := do
  let result ← stripUnwantedVersions crd pubRes
  let result ← adjustStorageVersion result
  let result ← projectCRDVersions L result pubRes
  return projectCRDNames L result pubRes

/-! ### The types on both sides -/

structure GroupVersion where
  group : String
  version : String
deriving DecidableEq

/-- The text before the first slash. -/
def beforeSlash (s : String) : String := String.ofList (s.toList.takeWhile (· ≠ '/'))

/-- The text after the first slash, the empty text if there is none. -/
def afterSlash (s : String) : String := String.ofList ((s.toList.dropWhile (· ≠ '/')).drop 1)

/-- `schema.ParseGroupVersion` -/
def parseGroupVersion (gv : String) : Except Error GroupVersion :=
  if gv = "" ∨ gv = "/" then .ok ⟨"", ""⟩
  else
    match gv.toList.count '/' with
    | 0 => .ok ⟨"", gv⟩
    | 1 => .ok ⟨beforeSlash gv, afterSlash gv⟩
    | _ => .error (.new ("unexpected GroupVersion string: " ++ gv))

structure GroupVersionKind where
  group : String
  version : String
  kind : String
deriving DecidableEq

/-- `GroupVersion.String` -/
def GroupVersionKind.apiVersion (gvk : GroupVersionKind) : String :=
  if gvk.group = "" then gvk.version else gvk.group ++ "/" ++ gvk.version

/-- The name of the first version that is marked as the storage version. -/
def getStorageVersion (crd : Crd) : String :=
  ((crd.spec.versions.find? (·.storage)).map (·.name)).getD ""

def publishedResourceSourceGVK (crd : Crd) (pubRes : Rules) : Except Error GroupVersionKind :=
  let storageVersion := getStorageVersion crd
  if storageVersion = "" then .error (.new "CRD does not contain a storage version")
  else .ok ⟨pubRes.sourceGK.group, storageVersion, pubRes.sourceGK.kind⟩

def publishedResourceProjectedGVK (originalCRD : Crd) (pubRes : Rules) :
    Except Error GroupVersionKind := do
  let projectedCRD ← (projectCRD L originalCRD pubRes).mapError (.wrapped "failed to project CRD")
  let storageVersion := getStorageVersion projectedCRD
  if storageVersion = "" then
    .error (.new "projected CRD does not contain a storage version")
  else .ok ⟨projectedCRD.spec.group, storageVersion, projectedCRD.spec.names.kind⟩

/-- Whether a version of a CRD has a subresource. -/
def CrdVersion.hasSubresource (version : CrdVersion) (name : String) : Bool :=
  ((version.rest.get? "subresources").bind Doc.fields?).elim false fun sr =>
    (sr.get? name).any (· ≠ .null)

/-! ### The schema of a projected CRD -/

/-- `kcp.GetAPIResourceSchemaName`, with the checksum of the specification. -/
def getAPIResourceSchemaName (hash : CrdSpec → String) (crd : Crd) : String :=
  let checksum := hash { crd.spec with conversion := none }
  "v" ++ String.ofList (checksum.toList.take 8) ++ "." ++ crd.spec.names.plural ++ "." ++
    crd.spec.group

structure SchemaSpec where
  group : String
  names : CrdNames
  scope : ResourceScope
  versions : List CrdVersion
  conversion : Option String := none
deriving DecidableEq

structure APIResourceSchema where
  name : String
  annotations : StringMap := ∅
  labels : StringMap := ∅
  spec : SchemaSpec
  resourceVersion : Nat := 0
deriving DecidableEq

def sourceGenerationAnnotation := "syncagent.kcp.io/source-generation"

def agentNameAnnotation := "syncagent.kcp.io/agent-name"

/-- `kcp.CreateAPIResourceSchema`; `convert` is `CRDToAPIResourceSchema` of kcp. -/
def createAPIResourceSchema (convert : Crd → Except Error SchemaSpec) (crd : Crd)
    (name agentName : String) : Except Error APIResourceSchema :=
  match convert crd with
  | .error e => .error (.wrapped "failed to convert CRD" e)
  | .ok converted => .ok {
      name
      annotations :=
        (SortedMap.insert ∅ sourceGenerationAnnotation (toString crd.generation)).insert
        agentNameAnnotation agentName
      labels := SortedMap.insert ∅ Sync.agentNameLabel agentName
      spec := { converted with
        conversion := if 1 < converted.versions.length then some "None" else none } }

end Projection
