import SyncAgent.ApiExport.Guarantees
import SyncAgent.Discovery.Client

/-! What the discovery returns: for a resource without a CRD, a CRD with exactly the versions in
which the API server offers the kind. -/

namespace Discovery

open Kube Projection
open Sync (Error)
open ApiExport (sampleOrder)
open ApiExport.Config (SetOrder)

/-! ### The scan of the resource lists -/

/-- The resources of a group, each with its version. -/
def groupEntries (group : String) (resourceLists : List APIResourceList) :
    List (String × APIResource) :=
  resourceLists.flatMap fun resList =>
    match parseGroupVersion resList.groupVersion with
    | .error _ => []
    | .ok gv => if gv.group = group then resList.apiResources.map (gv.version, ·) else []

/-- The entries that describe a kind: resources and subresources. -/
def offers (gk : GroupKind) (resourceLists : List APIResourceList) : List (String × APIResource) :=
  (groupEntries gk.group resourceLists).filter fun e => e.2.kind = gk.kind

/-- Of these entries, the last one that is no subresource. -/
def mainResource (entries : List (String × APIResource)) : Option APIResource :=
  ((entries.map Prod.snd).filter fun res => afterSlash res.name = "").getLast?

/-- What was found is what the entries say. -/
structure Found.Describes (found : Found) (entries : List (String × APIResource)) : Prop where
  versions : ∀ version, version ∈ found.availableVersions ↔ ∃ res, (version, res) ∈ entries
  resource : found.resource = mainResource entries
  subresources : ∀ version name, name ∈ (found.subresourcesPerVersion.get? version).getD [] ↔
    name ≠ "" ∧ ∃ res, (version, res) ∈ entries ∧ afterSlash res.name = name

theorem exists_mem_snoc {entries : List (String × APIResource)} {version v : String}
    {res : APIResource} {P : APIResource → Prop} :
    (∃ r, (v, r) ∈ entries ++ [(version, res)] ∧ P r) ↔
      (∃ r, (v, r) ∈ entries ∧ P r) ∨ v = version ∧ P res := by
  constructor
  · rintro ⟨r, hr, hP⟩
    rcases List.mem_append.mp hr with hr | hr
    · exact .inl ⟨r, hr, hP⟩
    · cases List.mem_singleton.mp hr
      exact .inr ⟨rfl, hP⟩
  · rintro (⟨r, hr, hP⟩ | ⟨rfl, hP⟩)
    · exact ⟨r, List.mem_append_left _ hr, hP⟩
    · exact ⟨res, by simp, hP⟩

namespace Found.Describes

variable {gk : GroupKind} {found : Found} {entries : List (String × APIResource)}

theorem nil : Found.Describes {} [] where
  versions := by simp
  resource := rfl
  subresources := by simp

theorem snoc (h : found.Describes entries) (version : String) {res : APIResource}
    (hkind : res.kind = gk.kind) :
    (scanResource gk version found res).Describes (entries ++ [(version, res)]) := by
  have hversions : ∀ v, v ∈ version :: found.availableVersions ↔
      ∃ r, (v, r) ∈ entries ++ [(version, res)] := by
    intro v
    have hsnoc : (∃ r, (v, r) ∈ entries ++ [(version, res)] ∧ True) ↔
        (∃ r, (v, r) ∈ entries ∧ True) ∨ v = version ∧ True := exists_mem_snoc
    simp only [and_true] at hsnoc
    rw [hsnoc, List.mem_cons, h.versions, or_comm]
  unfold scanResource
  rw [if_neg (not_not.mpr hkind)]
  dsimp only
  by_cases hsub : afterSlash res.name = ""
  · rw [if_pos hsub]
    refine ⟨hversions, by simp [mainResource, hsub], fun v name => ?_⟩
    rw [h.subresources, exists_mem_snoc]
    refine and_congr_right fun hname => ⟨.inl, ?_⟩
    rintro (hr | ⟨-, rfl⟩)
    · exact hr
    · exact absurd hsub hname
  · rw [if_neg hsub]
    refine ⟨hversions, by simp [mainResource, hsub, h.resource], fun v name => ?_⟩
    rw [exists_mem_snoc, SortedMap.get?_insert]
    by_cases hv : v = version
    · subst hv
      rw [if_pos rfl, Option.getD_some, List.mem_cons, h.subresources]
      constructor
      · rintro (rfl | ⟨hname, hr⟩)
        · exact ⟨hsub, .inr ⟨rfl, rfl⟩⟩
        · exact ⟨hname, .inl hr⟩
      · rintro ⟨hname, hr | ⟨-, rfl⟩⟩
        · exact .inr ⟨hname, hr⟩
        · exact .inl rfl
    · rw [if_neg hv, h.subresources]
      refine and_congr_right fun _ => ⟨.inl, ?_⟩
      rintro (hr | ⟨heq, -⟩)
      · exact hr
      · exact absurd heq hv

theorem foldl (version : String) (resources : List APIResource) (h : found.Describes entries) :
    (resources.foldl (scanResource gk version) found).Describes
      (entries ++ (resources.map (version, ·)).filter fun e => e.2.kind = gk.kind) := by
  induction resources generalizing found entries with
  | nil => simpa using h
  | cons res rest ih =>
    by_cases hkind : res.kind = gk.kind
    · have hrest := ih (h.snoc version hkind)
      simpa [hkind] using hrest
    · have hskip : scanResource gk version found res = found := if_pos hkind
      rw [List.foldl_cons, hskip]
      simpa [hkind] using ih h

end Found.Describes

variable {L : Libraries} {order : SetOrder} {api : Responses} {gk : GroupKind}

theorem scan_describes {resourceLists : List APIResourceList} {found : Found}
    (h : scan L gk resourceLists = .ok found) : found.Describes (offers gk resourceLists) := by
  have hfrom : ∀ (lists : List APIResourceList) (start found : Found)
      (entries : List (String × APIResource)), start.Describes entries →
      lists.foldlM (scanList L gk) start = .ok found →
      found.Describes (entries ++ offers gk lists) := by
    intro lists
    induction lists with
    | nil =>
      intro start found entries hstart h
      cases h
      simpa [offers, groupEntries] using hstart
    | cons resList rest ih =>
      intro start found entries hstart h
      rw [List.foldlM_cons] at h
      obtain ⟨next, hnext, h⟩ := Sync.exists_of_bind_eq_ok h
      unfold scanList at hnext
      cases hgv : parseGroupVersion resList.groupVersion with
      | error e =>
        rw [hgv] at hnext
        cases hnext
      | ok gv =>
        rw [hgv] at hnext
        dsimp only at hnext
        have hoffers : offers gk (resList :: rest) =
            ((if gv.group = gk.group then resList.apiResources.map (gv.version, ·) else []).filter
              fun e => e.2.kind = gk.kind) ++ offers gk rest := by
          simp only [offers, groupEntries, List.flatMap_cons, hgv, List.filter_append]
        rw [hoffers, ← List.append_assoc]
        by_cases hgroup : gv.group = gk.group
        · rw [if_neg (not_not.mpr hgroup)] at hnext
          cases hnext
          rw [if_pos hgroup]
          exact ih _ _ _ (hstart.foldl gv.version resList.apiResources) h
        · rw [if_pos hgroup] at hnext
          cases hnext
          rw [if_neg hgroup, List.filter_nil, List.append_nil]
          exact ih _ _ _ hstart h
  simpa using hfrom resourceLists {} found [] .nil h

/-! ### A CRD from the OpenAPI schema -/

/-- A CRD that was made up: what it says about its versions is what the entries say. -/
structure MadeUp (L : Libraries) (gk : GroupKind) (entries : List (String × APIResource))
    (models : GroupVersionKind → Option Doc) (preferredVersion : String)
    (crd : StoredCrd) : Prop where
  names : (crd.spec.versions.map (·.name)).Nodup
  versions : ∀ version, version ∈ crd.spec.versions.map (·.name) ↔ ∃ res, (version, res) ∈ entries
  ascending : Ascending L.toLibraries crd.spec.versions
  served : ∀ v ∈ crd.spec.versions, v.served = true
  storage : ∀ v ∈ crd.spec.versions, v.storage = true ↔ v.name = preferredVersion
  subresources : ∀ v ∈ crd.spec.versions, ∀ name, name = "status" ∨ name = "scale" →
    (v.hasSubresource name = true ↔ ∃ res, (v.name, res) ∈ entries ∧ afterSlash res.name = name)
  schema : ∀ v ∈ crd.spec.versions, ∃ protoSchema schemaProps,
    models ⟨gk.group, v.name, gk.kind⟩ = some protoSchema ∧
    L.convert protoSchema = .ok schemaProps ∧
      v.rest.get? "schema" = some (validation schemaProps)

theorem mapM_ok {α β ε : Type} {f : α → Except ε β} {l : List α} {r : List β}
    (h : l.mapM f = .ok r) : List.Forall₂ (fun a b => f a = .ok b) l r := by
  induction l generalizing r with
  | nil =>
    rw [List.mapM_nil] at h
    cases h
    exact .nil
  | cons a rest ih =>
    rw [List.mapM_cons] at h
    obtain ⟨b, hb, h⟩ := Sync.exists_of_bind_eq_ok h
    obtain ⟨bs, hbs, h⟩ := Sync.exists_of_bind_eq_ok h
    cases h
    exact .cons hb (ih hbs)

section Versions

variable {models : GroupVersionKind → Option Doc}
    {preferredVersion version : String} {found : Found}
  {v : CrdVersion}

theorem makeVersion_ok (h : makeVersion L gk models preferredVersion found version = .ok v) :
    ∃ protoSchema schemaProps, models ⟨gk.group, version, gk.kind⟩ = some protoSchema ∧
      L.convert protoSchema = .ok schemaProps ∧ v = {
        name := version
        served := true
        storage := version = preferredVersion
        rest := (SortedMap.insert ∅ "schema" (validation schemaProps)).insert "subresources"
          (subresourcesDoc ((found.subresourcesPerVersion.get? version).getD [])) } := by
  unfold makeVersion at h
  split at h
  · cases h
  · next protoSchema hmodel =>
    split at h
    · cases h
    · next schemaProps hconvert =>
      cases h
      exact ⟨protoSchema, schemaProps, hmodel, hconvert, rfl⟩

theorem hasSubresource_makeVersion
    (h : makeVersion L gk models preferredVersion found version = .ok v) {name : String}
    (hname : name = "status" ∨ name = "scale") :
    v.hasSubresource name = true ↔
      name ∈ (found.subresourcesPerVersion.get? version).getD [] := by
  obtain ⟨protoSchema, schemaProps, -, -, rfl⟩ := makeVersion_ok h
  generalize (found.subresourcesPerVersion.get? version).getD [] = subs
  simp only [CrdVersion.hasSubresource, SortedMap.get?_insert, if_true, Option.bind_some,
    subresourcesDoc, Doc.fields?_obj, Option.elim_some]
  by_cases hstatus : "status" ∈ subs <;> by_cases hscale : "scale" ∈ subs <;>
    rcases hname with rfl | rfl <;> simp [hstatus, hscale, scaleSubresource]

theorem makeVersions_ok {names : List String} {versions : List CrdVersion}
    (h : names.mapM (makeVersion L gk models preferredVersion found) = .ok versions) :
    versions.map (·.name) = names ∧
      ∀ v ∈ versions, makeVersion L gk models preferredVersion found v.name = .ok v := by
  have hmade := mapM_ok h
  clear h
  induction hmade with
  | nil => exact ⟨rfl, fun v hv => by cases hv⟩
  | @cons name v names versions hv _ ih =>
    have hname : v.name = name := by
      obtain ⟨_, _, -, -, rfl⟩ := makeVersion_ok hv
      rfl
    refine ⟨by rw [List.map_cons, hname, ih.1], fun v' hmem => ?_⟩
    rcases List.mem_cons.mp hmem with rfl | hmem
    · rw [hname]
      exact hv
    · exact ih.2 v' hmem

end Versions

variable [Std.TransCmp L.compareKubeAwareVersionStrings]

theorem makeCRD_madeUp {crdName : String} {resource : APIResource} {found : Found} {crd : StoredCrd}
    {entries : List (String × APIResource)} (hfound : found.Describes entries)
    (h : makeCRD L order api gk crdName resource found = .ok crd) :
    ∃ openapiSchema models preferredVersion, api.openAPISchema = .ok openapiSchema ∧
      L.modelsByGKV openapiSchema = .ok models ∧
      getPreferredVersion L api gk.group resource.name = .ok preferredVersion ∧
      MadeUp L gk entries models preferredVersion crd := by
  unfold makeCRD at h
  obtain ⟨openapiSchema, hschema, h⟩ := Sync.exists_of_bind_eq_ok h
  obtain ⟨preferredVersion, hpreferred, h⟩ := Sync.exists_of_bind_eq_ok h
  split at h
  · cases h
  · obtain ⟨models, hmodels, h⟩ := Sync.exists_of_bind_eq_ok h
    obtain ⟨versions, hversions, h⟩ := Sync.exists_of_bind_eq_ok h
    cases h
    obtain ⟨hnames, hmade⟩ := makeVersions_ok hversions
    have hsorted : (sortedVersions L order found).Perm found.availableVersions.dedup :=
      (L.slices.perm _ _).trans (order.perm _)
    have hascending : (sortedVersions L order found).Pairwise fun a b =>
        (L.compareKubeAwareVersionStrings a b).isLE = true := L.slices.sorted _ _
    rw [← hnames, List.pairwise_map] at hascending
    refine ⟨openapiSchema, models, preferredVersion, hschema, hmodels, hpreferred, ?_,
      fun version => ?_, hascending, fun v hv => ?_, fun v hv => ?_, fun v hv name hname => ?_,
      fun v hv => ?_⟩
    · exact hnames ▸ hsorted.nodup_iff.mpr (List.nodup_dedup _)
    · exact hnames ▸ (hsorted.mem_iff.trans List.mem_dedup).trans (hfound.versions version)
    · obtain ⟨_, _, -, -, heq⟩ := makeVersion_ok (hmade v hv)
      rw [heq]
    · obtain ⟨_, _, -, -, heq⟩ := makeVersion_ok (hmade v hv)
      rw [heq]
      exact decide_eq_true_iff
    · rw [hasSubresource_makeVersion (hmade v hv) hname, hfound.subresources]
      refine and_iff_right ?_
      rcases hname with rfl | rfl <;> decide
    · obtain ⟨protoSchema, schemaProps, hmodel, hconvert, heq⟩ := makeVersion_ok (hmade v hv)
      refine ⟨protoSchema, schemaProps, hmodel, hconvert, ?_⟩
      rw [heq]
      simp

/-! The Deployments of an API server, which have no CRD. -/

def deployments : APIResource where
  name := "deployments"
  singularName := "deployment"
  namespaced := true
  kind := "Deployment"

def deploymentKind : GroupKind := ⟨"apps", "Deployment"⟩

def sampleResponses : Responses where
  serverGroupsAndResources := .ok [⟨"v1", [{ name := "pods", kind := "Pod" }]⟩,
    ⟨"apps/v1", [deployments, { deployments with name := "deployments/status" }]⟩,
    ⟨"apps/v1beta1", [deployments]⟩]
  serverPreferredResources := .ok [⟨"apps/v1", [deployments]⟩]
  getCRD name :=
    if name = "crontabs.example.com" then .ok { toCrd := sampleCrd } else .error .notFound
  openAPISchema := .ok .null

/-- How stable a version is: alpha, beta or neither, as its name says. -/
def stability (version : String) : Nat :=
  if version.toList.contains 'l' then 0 else if version.toList.contains 'b' then 1 else 2

/-- Versions in the order of their stability, then of their names. -/
def sampleLibraries : Libraries :=
  { Projection.Libraries.byName with
    compareKubeAwareVersionStrings := compareLex (compareOn stability) compare
    modelsByGKV := fun _ => .ok fun _ => some .null
    convert := .ok
    isProtectedCommunityGroup := fun _ => false }

instance : Std.TransCmp sampleLibraries.compareKubeAwareVersionStrings :=
  inferInstanceAs (Std.TransCmp (compareLex (compareOn stability) compare))

theorem exists_deploymentCrd : ∃ crd,
    retrieveCRD sampleLibraries sampleOrder sampleResponses deploymentKind = .ok crd ∧
    crd.spec.versions.map (fun v => (v.name, v.storage, v.hasSubresource "status")) =
      [("v1beta1", false, false), ("v1", true, true)] := by
  have htest : ((retrieveCRD sampleLibraries sampleOrder sampleResponses
      deploymentKind).toOption.any fun crd =>
        crd.spec.versions.map (fun v => (v.name, v.storage, v.hasSubresource "status")) =
          [("v1beta1", false, false), ("v1", true, true)]) = true := by decide +kernel
  cases hcrd : retrieveCRD sampleLibraries sampleOrder sampleResponses deploymentKind with
  | error e =>
    rw [hcrd] at htest
    cases htest
  | ok crd =>
    rw [hcrd] at htest
    exact ⟨crd, rfl, of_decide_eq_true htest⟩

/-- For a resource whose CRD is not there, the versions are exactly those in which the API server
offers the kind: in ascending order and all of them served, with the preferred one as the storage
version, with the subresources that are listed under the kind, and with the schemas of their
models. -/
theorem madeUp_exact {crd : StoredCrd} {resourceLists : List APIResourceList}
    {resource : APIResource}
    (h : retrieveCRD L order api gk = .ok crd)
    (hlists : api.serverGroupsAndResources = .ok resourceLists)
    (hresource : mainResource (offers gk resourceLists) = some resource)
    (hmissing : api.getCRD (crdNameOf gk.group resource.name) = .error .notFound) :
    ∃ openapiSchema models preferredVersion,
      api.openAPISchema = .ok openapiSchema ∧ L.modelsByGKV openapiSchema = .ok models ∧
      getPreferredVersion L api gk.group resource.name = .ok preferredVersion ∧
      MadeUp L gk (offers gk resourceLists) models preferredVersion crd := by
  unfold retrieveCRD at h
  obtain ⟨lists, hlists', h⟩ := Sync.exists_of_bind_eq_ok h
  cases hlists.symm.trans hlists'
  obtain ⟨found, hscan, h⟩ := Sync.exists_of_bind_eq_ok h
  have hfound := scan_describes hscan
  rw [hfound.resource, hresource] at h
  dsimp only at h
  rw [hmissing] at h
  exact makeCRD_madeUp hfound h

theorem madeUp_exact_deployments : ∃ crd resourceLists models preferredVersion,
    retrieveCRD sampleLibraries sampleOrder sampleResponses deploymentKind = .ok crd ∧
    crd.spec.versions.map (·.name) = ["v1beta1", "v1"] ∧
    sampleResponses.serverGroupsAndResources = .ok resourceLists ∧
    MadeUp sampleLibraries deploymentKind (offers deploymentKind resourceLists) models
      preferredVersion crd := by
  obtain ⟨crd, hcrd, hversions⟩ := exists_deploymentCrd
  have hnames : crd.spec.versions.map (·.name) = ["v1beta1", "v1"] := by
    simpa [Function.comp_def] using congrArg (List.map Prod.fst) hversions
  have hmissing : sampleResponses.getCRD (crdNameOf "apps" deployments.name) =
    .error .notFound := rfl
  obtain ⟨-, models, preferredVersion, -, -, -, hmade⟩ :=
    madeUp_exact hcrd rfl (by decide +kernel) hmissing
  exact ⟨crd, _, models, preferredVersion, hcrd, hnames, rfl, hmade⟩

end Discovery
