import SyncAgent.ApiExport.Guarantees
import SyncAgent.Sync.Opened

/-! The permission claims of the APIExport cover what the sync controllers access in kcp, and
nothing else is claimed. -/

namespace ApiExport

open Kube Projection
open Sync (Error)

variable {R : Config} {discover : GroupKind → Except ApiError Crd} {order : Config.SetOrder}
  {s s' : Store}

/-- The PublishedResources of the agent. -/
def Config.listed (R : Config) (s : Store) : List PublishedResource :=
  (s.published.entries.map Prod.snd).filter fun pr => R.prFilter pr.labels

/-! ### The names of the schemas -/

/-- The projected CRD of a PublishedResource. -/
def Config.projectedCRD (R : Config) (discover : GroupKind → Except ApiError Crd)
    (pr : PublishedResource) : Except Error Crd := do
  let crd ← (discover pr.rules.sourceGK).mapError fun e =>
    .wrapped "failed to discover resource defined in PublishedResource" (.api e)
  (projectCRD R.libs crd pr.rules).mapError (.wrapped "failed to apply projection rules")

/-- The name of the schema of a PublishedResource, which may not be there yet. -/
def Config.schemaName (R : Config) (discover : GroupKind → Except ApiError Crd)
    (pr : PublishedResource) : Except Error String :=
  if pr.resourceSchemaName ≠ "" then .ok pr.resourceSchemaName
  else ((R.projectedCRD discover pr).mapError (.wrapped "failed to apply projection rules")).map
    (getAPIResourceSchemaName R.hash)

theorem eval_projectPublishedResource (pr : PublishedResource) :
    Fallible.eval (execWith discover) (R.projectPublishedResource pr) s =
      (R.projectedCRD discover pr, s) := by
  unfold Config.projectPublishedResource Config.projectedCRD
  rw [Fallible.eval_bind]
  simp only [call, Fallible.eval_sendE, execWith]
  cases discover pr.rules.sourceGK with
  | error e => rfl
  | ok crd => rfl

theorem eval_getSchemaName (pr : PublishedResource) :
    Fallible.eval (execWith discover) (R.getSchemaName pr) s = (R.schemaName discover pr, s) := by
  unfold Config.getSchemaName Config.schemaName
  split
  · rfl
  · rw [Fallible.eval_bind, Fallible.eval_mapError, eval_projectPublishedResource]
    cases R.projectedCRD discover pr with
    | error e => rfl
    | ok crd => rfl

theorem eval_schemaNames_iff {prs : List PublishedResource} {names : List String} :
    Fallible.eval (execWith discover) (R.schemaNames prs) s = (.ok names, s') ↔
      prs.map (R.schemaName discover) = names.map .ok ∧ s' = s := by
  unfold Config.schemaNames
  induction prs generalizing names s' with
  | nil =>
    rw [Fallible.forEach, Fallible.eval_pure]
    cases names with
    | nil => simp [eq_comm]
    | cons name rest => simp
  | cons pr rest ih =>
    rw [Fallible.forEach, Fallible.eval_bind, Fallible.eval_mapError, eval_getSchemaName,
      List.map_cons]
    cases R.schemaName discover pr with
    | error e => cases names <;> simp [Except.mapError]
    | ok name =>
      dsimp only [Except.mapError]
      constructor
      · intro h
        obtain ⟨others, s₁, hothers, hpure⟩ := Fallible.eval_bind_ok _ h
        obtain ⟨hmap, rfl⟩ := ih.mp hothers
        cases hpure
        exact ⟨by rw [hmap, List.map_cons], rfl⟩
      · rintro ⟨hmap, rfl⟩
        cases names with
        | nil => cases hmap
        | cons name' others =>
          obtain ⟨hname, hothers⟩ := List.cons.inj hmap
          cases hname
          rw [Fallible.eval_bind, ih.mpr ⟨hothers, rfl⟩]
          rfl

/-! ### The resources of the APIExport itself -/

theorem mem_own_iff {schemas : List String} {own : List GroupResource} {gr : GroupResource}
    (h : schemas.map (groupResource? R.libs) = own.map some) :
    gr ∈ own ↔ ∃ schema ∈ schemas, groupResource? R.libs schema = some gr := by
  rw [← List.mem_map_of_injective (Option.some_injective _), ← h, List.mem_map]

theorem exists_mem_merge_iff {existing configured : List String} {gr : GroupResource}
    (hmerged : ∀ x ∈ mergeResourceSchemas R.libs existing configured,
      ∃ gr, groupResource? R.libs x = some gr) :
    (∃ x ∈ mergeResourceSchemas R.libs existing configured, groupResource? R.libs x = some gr) ↔
      ∃ x, (x ∈ existing ∨ x ∈ configured) ∧ groupResource? R.libs x = some gr := by
  constructor
  · rintro ⟨x, hx, hgr⟩
    exact ⟨x, (mem_or_of_mem_merge hx).symm, hgr⟩
  · rintro ⟨x, hx | hx, hgr⟩
    · obtain ⟨y, hy, hsame⟩ := exists_mem_merge configured hx
      obtain ⟨gr', hgr'⟩ := hmerged y hy
      rw [parseResourceGroup_inj hgr hgr' hsame.symm]
      exact ⟨y, hy, hgr'⟩
    · exact ⟨x, mem_merge_of_configured hx, hgr⟩

/-! ### The claims -/

/-- The APIExport after a reconciliation. -/
def Config.reconciled (R : Config) (order : Config.SetOrder) (prs : List PublishedResource)
    (own : List GroupResource) (e : APIExport) : APIExport :=
  createAPIExportReconciler R.libs (order.list (Config.readySchemaNames prs))
    (order.list (Config.claimedResources own prs)) R.agentName e

theorem eval_exportReconcile_iff {e : APIExport} (he : s.exports.get? R.apiExportName = some e) :
    Fallible.eval (execWith discover) (R.exportReconcile order) s = (.ok (), s') ↔
      ∃ names own, (R.listed s).map (R.schemaName discover) = names.map .ok ∧
        (mergeResourceSchemas R.libs e.latestResourceSchemas (order.list names)).map
          (groupResource? R.libs) = own.map some ∧
        s' = { s with
          exports :=
            s.exports.insert R.apiExportName (R.reconciled order (R.listed s) own e) } := by
  have hget : Fallible.eval (execWith discover) (R.exportReconcile order) s =
      Fallible.eval (execWith discover) (R.reconcileExport order e) s := by
    have hfound : Fallible.eval (execWith discover) (attempt (.getExport R.apiExportName)) s =
        (.ok (.ok e), s) := by
      change (Except.ok ((s.exports.get? R.apiExportName).elim _ _), s) = _
      rw [he]
      rfl
    rw [Config.exportReconcile, Fallible.eval_bind, hfound]
  have hlist : ∀ f : List PublishedResource → M Unit, Fallible.eval (execWith discover)
      (call (.listPublishedResources R.prFilter) "failed to list PublishedResources" >>= f) s =
      Fallible.eval (execWith discover) (f (R.listed s)) s := fun f => rfl
  rw [hget, Config.reconcileExport, hlist]
  constructor
  · intro h
    obtain ⟨names, s₁, hnames, h⟩ := Fallible.eval_bind_ok _ h
    obtain ⟨hnames, rfl⟩ := eval_schemaNames_iff.mp hnames
    obtain ⟨own, s₂, hown, h⟩ := Fallible.eval_bind_ok _ h
    have hmap : (R.ownResources (mergeResourceSchemas R.libs e.latestResourceSchemas
        (order.list names))).mapError (Error.wrapped "failed to assemble own resources") =
          .ok own :=
      congrArg Prod.fst hown
    obtain rfl : s₁ = s₂ := congrArg Prod.snd hown
    refine ⟨names, own, hnames, ownResources_ok_iff.mp (Sync.ok_of_mapError hmap), ?_⟩
    have h := Fallible.eval_mapError_ok _ h
    obtain ⟨-, rfl⟩ := Prod.mk.inj h
    simp only [execWith, exec, he]
    rfl
  · rintro ⟨names, own, hnames, hown, rfl⟩
    rw [Fallible.eval_bind, eval_schemaNames_iff.mpr ⟨hnames, rfl⟩]
    dsimp only
    rw [Fallible.eval_bind, wrapE, ownResources_ok_iff.mpr hown]
    refine Prod.ext rfl ?_
    change (exec _ s).2 = _
    simp only [exec, he]
    rfl

theorem mem_reconciled {prs : List PublishedResource} {own : List GroupResource} {e : APIExport}
    {key : ClaimKey} (h : key ∈ Config.claimedResources own prs) :
    key.claim ∈ (R.reconciled order prs own e).permissionClaims := by
  refine (R.libs.slices.perm _ _).mem_iff.mpr ?_
  by_cases hexisting : key ∈ existingClaims e.permissionClaims
  · obtain ⟨claim, hclaim, rfl⟩ := List.mem_map.mp hexisting
    obtain ⟨hmem, hall⟩ := List.mem_filter.mp hclaim
    obtain ⟨hall, hselector⟩ := Bool.and_eq_true_iff.mp hall
    refine List.mem_append_left _ ?_
    obtain ⟨group, resource, all, selector, hash⟩ := claim
    cases hall
    cases List.isEmpty_iff.mp hselector
    exact hmem
  · refine List.mem_append_right _ (List.mem_map_of_mem ?_)
    refine (List.mergeSort_perm _ _).mem_iff.mpr (List.mem_filter.mpr ⟨order.mem_list.mpr h, ?_⟩)
    simpa using hexisting

theorem reconciled_perm (order : Config.SetOrder) (prs : List PublishedResource)
    (own : List GroupResource) (e : APIExport) :
    ∃ added : List ClaimKey, (R.reconciled order prs own e).permissionClaims.Perm
        (e.permissionClaims ++ added.map ClaimKey.claim) ∧
      ∀ key, key ∈ added ↔
        key ∈ Config.claimedResources own prs ∧ key ∉ existingClaims e.permissionClaims := by
  refine ⟨_, R.libs.slices.perm _ _, fun key => ?_⟩
  rw [claimsToAdd, (List.mergeSort_perm _ _).mem_iff, List.mem_filter, order.mem_list]
  simp

theorem mem_existingClaims {key : ClaimKey} {claims : List PermissionClaim}
    (h : key.claim ∈ claims) : key ∈ existingClaims claims :=
  List.mem_map.mpr ⟨key.claim, List.mem_filter.mpr ⟨h, rfl⟩, rfl⟩

/-! ### What the sync controllers need -/

def namespacesClaim : PermissionClaim := { group := "", resource := "namespaces", all := true }

def logicalClustersClaim : PermissionClaim :=
  { group := "core.kcp.io", resource := "logicalclusters", all := true }

def eventsClaim : PermissionClaim := { group := "", resource := "events", all := true }

/-- The group and resource of a related resource in kcp, as it is accessed there. -/
def RelatedResource.accessed (rr : RelatedResource) : GroupResource :=
  groupResource (Sync.ResourceSyncer.kcpResource rr.toRelatedResourceSpec)

def RelatedResource.claim (rr : RelatedResource) : PermissionClaim :=
  { group := rr.accessed.group, resource := rr.accessed.resource, all := true,
    identityHash := rr.identityHash }

theorem RelatedResource.kcpGVR_eq (rr : RelatedResource) :
    rr.kcpGVR = Sync.ResourceSyncer.kcpResource rr.toRelatedResourceSpec := by
  unfold kcpGVR Sync.ResourceSyncer.kcpResource
  cases rr.origin <;> rfl

/-- The sync controller of a PublishedResource. -/
structure PublishedResource.Runs (pr : PublishedResource)
    (C : SyncController.Reconciler) : Prop where
  filter : C.filter.bind (·.ns) = pr.filterNamespace
  paths : C.enableWorkspacePaths = pr.enableWorkspacePaths
  related : ∀ syncer, C.newResourceSyncer = .ok syncer →
    syncer.pubRes.related = pr.related.map (·.toRelatedResourceSpec)

/-- All that the agent accesses in kcp for a PublishedResource is its own resource, another one of
the APIExport, or claimed. -/
structure PublishedResource.Covered (pr : PublishedResource) (own : List GroupResource)
    (claims : List PermissionClaim) : Prop where
  related : ∀ rr ∈ pr.related, rr.accessed ∈ own ∨ rr.claim ∈ claims
  accesses : ∀ C request, pr.Runs C → (C.reconcile request).AllCalls
    (Sync.Opens fun client typeMeta => client = .remoteClient request.clusterName →
      typeMeta = C.remoteType ∨
      (typeMeta = Sync.ObjectSyncer.namespaceType ∧ namespacesClaim ∈ claims) ∨
      (typeMeta = C.logicalClusters.typeMeta ∧ logicalClustersClaim ∈ claims) ∨
      ∃ syncer, C.newResourceSyncer = .ok syncer ∧ ∃ rr ∈ pr.related,
        syncer.libs.kindFor client (Sync.ResourceSyncer.kcpResource rr.toRelatedResourceSpec) =
          .ok typeMeta ∧ (rr.accessed ∈ own ∨ rr.claim ∈ claims))

/-- A claim that is needed. -/
inductive Needed (prs : List PublishedResource) (own : List GroupResource) : PermissionClaim → Prop
  | namespaces {pr : PublishedResource} : pr ∈ prs →
      (pr.filterNamespace.isSome = true ∨ pr.related ≠ []) → Needed prs own namespacesClaim
  | logicalClusters {pr : PublishedResource} : pr ∈ prs → pr.enableWorkspacePaths = true →
      Needed prs own logicalClustersClaim
  | related {pr : PublishedResource} {rr : RelatedResource} : pr ∈ prs → rr ∈ pr.related →
      rr.accessed ∉ own → Needed prs own rr.claim
  | events : Needed prs own eventsClaim

theorem claimed_iff_needed {prs : List PublishedResource} {own : List GroupResource}
    {claim : PermissionClaim} :
    (∃ key ∈ Config.claimedResources own prs, key.claim = claim) ↔ Needed prs own claim := by
  simp only [Config.claimedResources, List.mem_append, List.mem_flatMap, List.mem_singleton,
    Config.claimsOf]
  constructor
  · rintro ⟨key, ⟨pr, hpr, (hkey | hkey) | ⟨rr, hrr, hkey⟩⟩ | rfl, rfl⟩
    · split at hkey
      · next hfilter =>
        rw [List.mem_singleton.mp hkey]
        exact .namespaces hpr (.inl hfilter)
      · cases hkey
    · split at hkey
      · next hpaths =>
        rw [List.mem_singleton.mp hkey]
        exact .logicalClusters hpr hpaths
      · cases hkey
    · rcases List.mem_cons.mp hkey with rfl | hkey
      · exact .namespaces hpr (.inr (List.ne_nil_of_mem hrr))
      · rw [rr.kcpGVR_eq] at hkey
        split at hkey
        · cases hkey
        · next hown =>
          rw [List.mem_singleton.mp hkey]
          exact .related hpr hrr (by simpa [RelatedResource.accessed] using hown)
    · exact .events
  · rintro (⟨hpr, hneed⟩ | ⟨hpr, hpaths⟩ | ⟨hpr, hrr, hown⟩ | _)
    · refine ⟨⟨"", "namespaces", ""⟩, .inl ⟨_, hpr, ?_⟩, rfl⟩
      rcases hneed with hfilter | hrelated
      · exact .inl (.inl (by simp [hfilter]))
      · obtain ⟨rr, hrr⟩ := List.exists_mem_of_ne_nil _ hrelated
        exact .inr ⟨rr, hrr, List.mem_cons_self⟩
    · exact ⟨⟨"core.kcp.io", "logicalclusters", ""⟩,
        .inl ⟨_, hpr, .inl (.inr (by simp [hpaths]))⟩, rfl⟩
    · next pr rr =>
      refine ⟨⟨rr.accessed.group, rr.accessed.resource, rr.identityHash⟩,
        .inl ⟨_, hpr, .inr ⟨_, hrr,
        List.mem_cons_of_mem _ ?_⟩⟩, rfl⟩
      rw [rr.kcpGVR_eq, if_neg (by simpa [RelatedResource.accessed] using hown)]
      exact List.mem_singleton_self _
    · exact ⟨_, .inr rfl, rfl⟩

theorem needed_mem_reconciled {prs : List PublishedResource} {own : List GroupResource}
    {e : APIExport} {claim : PermissionClaim} (h : Needed prs own claim) :
    claim ∈ (R.reconciled order prs own e).permissionClaims := by
  obtain ⟨key, hkey, rfl⟩ := claimed_iff_needed.mpr h
  exact mem_reconciled hkey

theorem covered_of_needed {prs : List PublishedResource} {own : List GroupResource}
    {claims : List PermissionClaim} (h : ∀ claim, Needed prs own claim → claim ∈ claims)
    {pr : PublishedResource} (hpr : pr ∈ prs) : pr.Covered own claims := by
  have hrelated : ∀ rr ∈ pr.related, rr.accessed ∈ own ∨ rr.claim ∈ claims := by
    intro rr hrr
    by_cases hown : rr.accessed ∈ own
    · exact .inl hown
    · exact .inr (h _ (.related hpr hrr hown))
  refine ⟨hrelated, fun C request hruns => ?_⟩
  refine (C.reconcile_opens request).mono fun c hc client typeMeta hopens hclient => ?_
  rcases hc client typeMeta hopens hclient with hown | ⟨hns, hneed⟩ | ⟨hlc, hpaths⟩ |
    ⟨syncer, hsyncer, relRes, hmem, hkind⟩
  · exact .inl hown
  · refine .inr (.inl ⟨hns, h _ (.namespaces hpr ?_)⟩)
    rcases hneed with hfilter | ⟨syncer, hsyncer, hne⟩
    · rw [hruns.filter] at hfilter
      exact .inl hfilter
    · rw [hruns.related syncer hsyncer] at hne
      exact .inr fun hnil => hne (by rw [hnil, List.map_nil])
  · rw [hruns.paths] at hpaths
    exact .inr (.inr (.inl ⟨hlc, h _ (.logicalClusters hpr hpaths)⟩))
  · rw [hruns.related syncer hsyncer] at hmem
    obtain ⟨rr, hrr, rfl⟩ := List.mem_map.mp hmem
    exact .inr (.inr (.inr ⟨syncer, hsyncer, rr, hrr, hkind, hrelated rr hrr⟩))

theorem ready_subset {prs : List PublishedResource} {names : List String}
    (hnames : prs.map (R.schemaName discover) = names.map .ok) {x : String}
    (hx : x ∈ Config.readySchemaNames prs) : x ∈ names := by
  obtain ⟨hmem, hne⟩ := List.mem_filter.mp hx
  obtain ⟨pr, hpr, rfl⟩ := List.mem_map.mp hmem
  have hname : R.schemaName discover pr = .ok pr.resourceSchemaName := if_pos (by simpa using hne)
  have hok := List.mem_map_of_mem (f := R.schemaName discover) hpr
  rw [hname, hnames] at hok
  obtain ⟨x, hx, heq⟩ := List.mem_map.mp hok
  cases heq
  exact hx

theorem exists_own {schemas : List String}
    (h : ∀ x ∈ schemas, ∃ gr, groupResource? R.libs x = some gr) :
    ∃ own : List GroupResource, schemas.map (groupResource? R.libs) = own.map some := by
  induction schemas with
  | nil => exact ⟨[], rfl⟩
  | cons x rest ih =>
    obtain ⟨gr, hgr⟩ := h x List.mem_cons_self
    obtain ⟨own, hown⟩ := ih fun y hy => h y (List.mem_cons_of_mem _ hy)
    exact ⟨gr :: own, by rw [List.map_cons, hgr, hown, List.map_cons]⟩

section Again

variable {e : APIExport} {names : List String} {own : List GroupResource}
  (hown : (mergeResourceSchemas R.libs e.latestResourceSchemas (order.list names)).map
    (groupResource? R.libs) = own.map some)

include hown

theorem mem_own_merged_iff {gr : GroupResource} : gr ∈ own ↔
    ∃ name, (name ∈ e.latestResourceSchemas ∨ name ∈ names) ∧
      groupResource? R.libs name = some gr := by
  rw [mem_own_iff hown, exists_mem_merge_iff fun x hx => parse_of_own hown hx]
  simp only [order.mem_list]

theorem own_again {prs : List PublishedResource} (hparses : e.Parses R.libs)
    (hnames : prs.map (R.schemaName discover) = names.map .ok) (order' : Config.SetOrder) :
    ∃ own' : List GroupResource, (mergeResourceSchemas R.libs
        (R.reconciled order prs own e).latestResourceSchemas (order'.list names)).map
        (groupResource? R.libs) = own'.map some ∧ ∀ gr ∈ own, gr ∈ own' := by
  have hconfigured : ∀ x ∈ names, ∃ gr, groupResource? R.libs x = some gr := fun x hx =>
    parse_of_own hown (mem_merge_of_configured (order.mem_list.mpr hx))
  have hlatest : ∀ x ∈ (R.reconciled order prs own e).latestResourceSchemas,
      ∃ gr, groupResource? R.libs x = some gr := by
    intro x hx
    rcases mem_or_of_mem_merge hx with hx | hx
    · exact hconfigured x (ready_subset hnames (order.mem_list.mp hx))
    · exact hparses x hx
  obtain ⟨own', hown'⟩ : ∃ own' : List GroupResource, (mergeResourceSchemas R.libs
      (R.reconciled order prs own e).latestResourceSchemas (order'.list names)).map
      (groupResource? R.libs) = own'.map some := by
    refine exists_own fun x hx => ?_
    rcases mem_or_of_mem_merge hx with hx | hx
    · exact hconfigured x (order'.mem_list.mp hx)
    · exact hlatest x hx
  refine ⟨own', hown', fun gr hgr => (mem_own_merged_iff hown').mpr ?_⟩
  obtain ⟨x, hx | hx, hxgr⟩ := (mem_own_merged_iff hown).mp hgr
  · obtain ⟨y, hy, hsame⟩ := exists_mem_merge (order.list (Config.readySchemaNames prs)) hx
    obtain ⟨gr', hgr'⟩ := hlatest y hy
    rw [parseResourceGroup_inj hxgr hgr' hsame.symm]
    exact ⟨y, .inl hy, hgr'⟩
  · exact ⟨x, .inr hx, hxgr⟩

end Again

theorem reconciled_again {prs : List PublishedResource} {own own' : List GroupResource}
    {e : APIExport} {order' : Config.SetOrder} (h : ∀ gr ∈ own, gr ∈ own') :
    (R.reconciled order' prs own' (R.reconciled order prs own e)).permissionClaims.Perm
      (R.reconciled order prs own e).permissionClaims := by
  obtain ⟨added, hperm, hkeys⟩ :=
    reconciled_perm (R := R) order' prs own' (R.reconciled order prs own e)
  have hneeded : ∀ claim, Needed prs own' claim → Needed prs own claim := by
    rintro claim (⟨hpr, hneed⟩ | ⟨hpr, hpaths⟩ | ⟨hpr, hrr, hforeign⟩ | _)
    · exact .namespaces hpr hneed
    · exact .logicalClusters hpr hpaths
    · exact .related hpr hrr fun hown => hforeign (h _ hown)
    · exact .events
  obtain rfl : added = [] := by
    refine List.eq_nil_iff_forall_not_mem.mpr fun key hkey => ?_
    obtain ⟨hclaimed, hmissing⟩ := (hkeys key).mp hkey
    refine hmissing (mem_existingClaims (needed_mem_reconciled (hneeded _ ?_)))
    exact claimed_iff_needed.mp ⟨key, hclaimed, rfl⟩
  rwa [List.map_nil, List.append_nil] at hperm

/-- After a reconciliation all that the agent accesses in kcp is in the APIExport or claimed.  Only
what is needed was added, and another reconciliation adds nothing. -/
theorem claims_exact {e : APIExport} (he : s.exports.get? R.apiExportName = some e)
    (hparses : e.Parses R.libs)
    (h : Fallible.eval (execWith discover) (R.exportReconcile order) s = (.ok (), s')) :
    ∃ (e' : APIExport) (names : List String) (own : List GroupResource),
      s'.exports.get? R.apiExportName = some e' ∧
      (R.listed s).map (R.schemaName discover) = names.map .ok ∧
      (∀ gr, gr ∈ own ↔ ∃ name, (name ∈ e.latestResourceSchemas ∨ name ∈ names) ∧
        groupResource? R.libs name = some gr) ∧
      (∀ pr ∈ R.listed s, pr.Covered own e'.permissionClaims) ∧
      eventsClaim ∈ e'.permissionClaims ∧
      (∃ added, e'.permissionClaims.Perm (e.permissionClaims ++ added) ∧
        ∀ claim ∈ added, Needed (R.listed s) own claim) ∧
      ∀ order', ∃ s'' e'', Fallible.eval (execWith discover) (R.exportReconcile order') s' =
          (.ok (), s'') ∧ s''.exports.get? R.apiExportName = some e'' ∧
        e''.permissionClaims.Perm e'.permissionClaims := by
  obtain ⟨names, own, hnames, hown, rfl⟩ := (eval_exportReconcile_iff he).mp h
  have hget : ∀ {exports : SortedMap String APIExport} {e' : APIExport},
      (exports.insert R.apiExportName e').get? R.apiExportName = some e' := by
    intro exports e'
    rw [SortedMap.get?_insert, if_pos rfl]
  obtain ⟨added, hadded, hkeys⟩ := reconciled_perm (R := R) order (R.listed s) own e
  refine ⟨_, names, own, hget, hnames, fun gr => mem_own_merged_iff hown, fun pr hpr => ?_,
    needed_mem_reconciled .events, ⟨_, hadded, fun claim hclaim => ?_⟩, fun order' => ?_⟩
  · exact covered_of_needed (fun claim hneeded => needed_mem_reconciled hneeded) hpr
  · obtain ⟨key, hkey, rfl⟩ := List.mem_map.mp hclaim
    exact claimed_iff_needed.mp ⟨key, ((hkeys key).mp hkey).1, rfl⟩
  · obtain ⟨own', hown', hsubset⟩ := own_again hown hparses hnames order'
    exact ⟨_, _, (eval_exportReconcile_iff hget).mpr ⟨names, own', hnames, hown', rfl⟩, hget,
      reconciled_again hsubset⟩

/-- The sample with a related Secret, which comes from another provider. -/
def secretResource : PublishedResource :=
  { sampleResource with
    enableWorkspacePaths := true
    related := [{ identifier := "creds", origin := .kcp, kind := "Secret", identityHash := "0f1e"
                  object := { object := { template := some ⟨"creds"⟩ } } }] }

def secretStore : Store :=
  { sampleStore with published := SortedMap.insert ∅ "publish-crontabs" secretResource }

theorem claims_exact_secretStore : ∃ s' e' own,
    Fallible.eval (execWith fun _ => .error .notFound) (sampleConfig.exportReconcile sampleOrder)
      secretStore = (.ok (), s') ∧ s'.exports.get? "example.com" = some e' ∧
    secretResource.Covered own e'.permissionClaims := by
  have hok : (Fallible.eval (execWith fun _ => .error .notFound)
      (sampleConfig.exportReconcile sampleOrder) secretStore).1 = .ok () := by decide +kernel
  have hparses : sampleExport.Parses sampleConfig.libs := by
    intro x hx
    rw [← Option.isSome_iff_exists]
    revert x
    decide +kernel
  have hlisted : secretResource ∈ sampleConfig.listed secretStore := by decide +kernel
  obtain ⟨e', names, own, he', -, -, hcovered, -⟩ :=
    claims_exact (s := secretStore) (e := sampleExport) rfl hparses (Prod.ext hok rfl)
  exact ⟨_, e', own, Prod.ext hok rfl, he', hcovered _ hlisted⟩

end ApiExport
