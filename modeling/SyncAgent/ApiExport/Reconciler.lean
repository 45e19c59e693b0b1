import SyncAgent.Projection.Crd
import Mathlib.Data.List.Perm.Subperm

/-! The reconciler of an APIExport (`internal/controller/apiexport/reconciler.go`): it merges the
schemas of the PublishedResources into the list of the APIExport and adds the permission claims that
the agent needs. -/

namespace ApiExport

open Kube Projection
open Sync (Error GroupVersionResource RelatedResourceSpec)

structure GroupResource where
  group : String
  resource : String
deriving DecidableEq

structure PermissionClaim where
  group : String
  resource : String
  all : Bool := false
  resourceSelector : List Doc := []
  identityHash : String := ""
deriving DecidableEq

/-- The part of a permission claim by which the agent compares them, `permissionClaim`. -/
structure ClaimKey where
  group : String
  resource : String
  identityHash : String := ""
deriving DecidableEq

structure APIExport where
  annotations : StringMap := ∅
  latestResourceSchemas : List String := []
  permissionClaims : List PermissionClaim := []
deriving DecidableEq

/-! ### Names of schemas -/

/-- The text before the first dot and the text after it. -/
def splitDot : List Char → Option (List Char × List Char)
  | [] => none
  | c :: rest => if c = '.' then some ([], rest)
    else (splitDot rest).map fun parts => (c :: parts.1, parts.2)

variable (L : Libraries)

/-- The name of an APIResourceSchema is `version.resource.group`. -/
def parseSchemaName (name : String) : Except Error GroupVersionResource :=
  let parts := do
    let (version, rest) ← splitDot name.toList
    let (resource, group) ← splitDot rest
    return (version, resource, group)
  match parts with
  | none => .error (.new ("invalid schema name " ++ L.quote name ++
      ", must consist of version.resource.group"))
  | some (version, resource, group) =>
    .ok ⟨String.ofList group, String.ofList version, String.ofList resource⟩

/-- `GroupResource.String` -/
def GroupResource.text (gr : GroupResource) : String :=
  if gr.group = "" then gr.resource else gr.resource ++ "." ++ gr.group

def groupResource (gvr : GroupVersionResource) : GroupResource := ⟨gvr.group, gvr.resource⟩

/-- A name that cannot be parsed has the empty group and resource. -/
def parseResourceGroup (schema : String) : String :=
  match parseSchemaName L schema with
  | .error _ => GroupResource.text ⟨"", ""⟩
  | .ok gvr => (groupResource gvr).text

/-- The group and resource of a schema with a well-formed name. -/
def groupResource? (schema : String) : Option GroupResource :=
  (parseSchemaName L schema).toOption.map groupResource

/-- `configured` are the elements of the set in the order of its iteration. -/
def mergeResourceSchemas (existing configured : List String) : List String :=
  let knownResources := configured.map (parseResourceGroup L)
  let result := configured ++
    existing.filter fun schema => !knownResources.contains (parseResourceGroup L schema)
  L.slices.sort (fun a b => compare (parseResourceGroup L a) (parseResourceGroup L b)) result

/-! ### The reconciler -/

/-- The order of claims: by group, then by resource. -/
def compareClaims (a b : String × String) : Ordering :=
  if a.1 ≠ b.1 then compare a.1 b.1 else compare a.2 b.2

/-- The permission claims that the agent recognizes as its own kind. -/
def existingClaims (claims : List PermissionClaim) : List ClaimKey :=
  (claims.filter fun claim => claim.all && claim.resourceSelector.isEmpty).map fun claim =>
    ⟨claim.group, claim.resource, claim.identityHash⟩

/-- The missing claims, which are sorted in a stable way. -/
def claimsToAdd (claimed : List ClaimKey) (claims : List PermissionClaim) : List ClaimKey :=
  (claimed.filter fun key => !(existingClaims claims).contains key).mergeSort fun a b =>
    compareClaims (a.group, a.resource) (b.group, b.resource) ≠ .gt

def ClaimKey.claim (key : ClaimKey) : PermissionClaim :=
  { group := key.group, resource := key.resource, all := true, identityHash := key.identityHash }

/-- `createAPIExportReconciler`: what becomes of the existing APIExport. -/
def createAPIExportReconciler (availableResourceSchemas : List String)
    (claimedResourceKinds : List ClaimKey) (agentName : String)
    (existing : APIExport) : APIExport where
  annotations := existing.annotations.insert agentNameAnnotation agentName
  latestResourceSchemas :=
    mergeResourceSchemas L existing.latestResourceSchemas availableResourceSchemas
  permissionClaims := L.slices.sort
    (fun a b => compareClaims (a.group, a.resource) (b.group, b.resource))
    (existing.permissionClaims ++
      (claimsToAdd claimedResourceKinds existing.permissionClaims).map ClaimKey.claim)

/-! ### What it keeps -/

theorem not_mem_of_splitDot {l a b : List Char} (h : splitDot l = some (a, b)) : '.' ∉ a := by
  induction l generalizing a with
  | nil => cases h
  | cons c rest ih =>
    rw [splitDot] at h
    split at h
    · cases h
      simp
    · next hc =>
      obtain ⟨⟨a', b'⟩, hrest, hparts⟩ := Option.map_eq_some_iff.mp h
      cases hparts
      simp only [List.mem_cons, not_or]
      exact ⟨fun heq => hc heq.symm, ih hrest⟩

variable {L}

theorem dotless_of_parse {name : String} {gvr : GroupVersionResource}
    (h : parseSchemaName L name = .ok gvr) : '.' ∉ gvr.resource.toList := by
  unfold parseSchemaName at h
  dsimp only at h
  split at h
  · cases h
  · next version resource group hparts =>
    obtain ⟨⟨v, rest⟩, -, hparts⟩ := Option.bind_eq_some_iff.mp hparts
    obtain ⟨⟨r, g⟩, hsplit, hparts⟩ := Option.bind_eq_some_iff.mp hparts
    cases hparts
    cases h
    simpa using not_mem_of_splitDot hsplit

theorem text_inj {a b : GroupResource} (ha : '.' ∉ a.resource.toList) (hb : '.' ∉ b.resource.toList)
    (h : a.text = b.text) : a = b := by
  have hsplit : ∀ (x y u v : List Char), '.' ∉ x → '.' ∉ y → x ++ '.' :: u = y ++ '.' :: v →
      x = y ∧ u = v := by
    intro x
    induction x with
    | nil =>
      intro y u v _ hy happ
      cases y with
      | nil => exact ⟨rfl, (List.cons.inj happ).2⟩
      | cons d y => exact absurd (List.cons.inj happ).1 fun heq => hy (by simp [← heq])
    | cons c x ih =>
      intro y u v hx hy happ
      cases y with
      | nil => exact absurd (List.cons.inj happ).1.symm fun heq => hx (by simp [← heq])
      | cons d y =>
        obtain ⟨hcd, hrest⟩ := List.cons.inj happ
        obtain ⟨hxy, huv⟩ :=
          ih y u v (fun hm => hx (by simp [hm])) (fun hm => hy (by simp [hm])) hrest
        exact ⟨by rw [hcd, hxy], huv⟩
  obtain ⟨ga, ra⟩ := a
  obtain ⟨gb, rb⟩ := b
  have hlist := congrArg String.toList h
  simp only [GroupResource.text] at hlist ha hb
  by_cases hga : ga = "" <;> by_cases hgb : gb = ""
  · simp only [hga, hgb, if_true, String.toList_inj] at hlist
    rw [hga, hgb, hlist]
  · rw [if_pos hga, if_neg hgb] at hlist
    exact absurd (hlist ▸ ha) (by simp)
  · rw [if_neg hga, if_pos hgb] at hlist
    exact absurd (hlist ▸ hb) (by simp)
  · rw [if_neg hga, if_neg hgb] at hlist
    obtain ⟨hr, hg⟩ := hsplit ra.toList rb.toList ga.toList gb.toList ha hb (by simpa using hlist)
    rw [String.toList_inj.mp hr, String.toList_inj.mp hg]

theorem parseResourceGroup_eq {name : String} {gr : GroupResource}
    (h : groupResource? L name = some gr) : parseResourceGroup L name = gr.text := by
  unfold groupResource? at h
  unfold parseResourceGroup
  cases hparse : parseSchemaName L name with
  | error e =>
    rw [hparse] at h
    cases h
  | ok gvr =>
    rw [hparse] at h
    cases h
    rfl

theorem dotless_of_groupResource {name : String} {gr : GroupResource}
    (h : groupResource? L name = some gr) : '.' ∉ gr.resource.toList := by
  unfold groupResource? at h
  cases hparse : parseSchemaName L name with
  | error e =>
    rw [hparse] at h
    cases h
  | ok gvr =>
    rw [hparse] at h
    cases h
    exact dotless_of_parse hparse

theorem parseResourceGroup_inj {x y : String} {a b : GroupResource}
    (hx : groupResource? L x = some a) (hy : groupResource? L y = some b)
    (h : parseResourceGroup L x = parseResourceGroup L y) : a = b := by
  rw [parseResourceGroup_eq hx, parseResourceGroup_eq hy] at h
  exact text_inj (dotless_of_groupResource hx) (dotless_of_groupResource hy) h

theorem mergeResourceSchemas_perm (existing configured : List String) :
    (mergeResourceSchemas L existing configured).Perm (configured ++ existing.filter fun schema =>
      !(configured.map (parseResourceGroup L)).contains (parseResourceGroup L schema)) :=
  L.slices.perm _ _

theorem mem_merge_of_configured {x : String} {existing configured : List String}
    (h : x ∈ configured) : x ∈ mergeResourceSchemas L existing configured :=
  (mergeResourceSchemas_perm existing configured).mem_iff.mpr (List.mem_append_left _ h)

theorem mem_or_of_mem_merge {x : String} {existing configured : List String}
    (h : x ∈ mergeResourceSchemas L existing configured) : x ∈ configured ∨ x ∈ existing := by
  rcases List.mem_append.mp
    ((mergeResourceSchemas_perm existing configured).mem_iff.mp h) with h | h
  · exact .inl h
  · exact .inr (List.mem_of_mem_filter h)

theorem exists_mem_merge {x : String} {existing : List String} (configured : List String)
    (h : x ∈ existing) :
    ∃ y ∈ mergeResourceSchemas L existing configured,
      parseResourceGroup L y = parseResourceGroup L x := by
  by_cases hknown : parseResourceGroup L x ∈ configured.map (parseResourceGroup L)
  · obtain ⟨y, hy, heq⟩ := List.mem_map.mp hknown
    exact ⟨y, mem_merge_of_configured hy, heq⟩
  · refine ⟨x, (mergeResourceSchemas_perm existing configured).mem_iff.mpr ?_, rfl⟩
    exact List.mem_append_right _ (List.mem_filter.mpr ⟨h, by simpa using hknown⟩)

theorem count_merge {x : String} {existing configured : List String}
    (h : ∀ y ∈ configured, parseResourceGroup L y ≠ parseResourceGroup L x) :
    (mergeResourceSchemas L existing configured).count x = existing.count x := by
  have hnot : x ∉ configured := fun hx => h x hx rfl
  rw [(mergeResourceSchemas_perm existing configured).count_eq, List.count_append,
    List.count_eq_zero_of_not_mem hnot, Nat.zero_add, List.count_filter]
  simp only [Bool.not_eq_true', List.contains_eq_mem, List.mem_map, not_exists, not_and,
    decide_eq_false_iff_not]
  exact h

end ApiExport
