import SyncAgent.Sync.PlainStatus

/-! The version that is synced: the storage version of a CRD on the service cluster and that of the
projected CRD in kcp.  `storage_iff` says where the storage versions of a projected CRD come
from. -/

namespace Projection

open Sync (exists_of_bind_eq_ok ok_of_mapError)

/-- A version under its name after the projection. -/
def Rules.rename (pubRes : Rules) (v : CrdVersion) : CrdVersion :=
  { v with name := pubRes.versionName v.name }

/-- The selected versions that are served, in the order of the CRD. -/
def Rules.servedVersions (pubRes : Rules) (crd : Crd) : List CrdVersion :=
  (pubRes.selected crd).filter (·.served)

/-- The selected versions that end up as storage versions: those that are one, or else the last
served one. -/
def Rules.storageVersions (pubRes : Rules) (crd : Crd) : List CrdVersion :=
  if (pubRes.selected crd).any (·.storage) then (pubRes.selected crd).filter (·.storage)
  else (pubRes.servedVersions crd).getLast?.toList

/-- A version as the storage version. -/
def CrdVersion.store (v : CrdVersion) : CrdVersion := { v with storage := true }

theorem CrdVersion.store_of_storage {v : CrdVersion} (h : v.storage = true) : v.store = v := by
  cases v
  subst h
  rfl

theorem latestServed_getLast? {versions : List CrdVersion} {i : Nat}
    (h : latestServed versions = some i) :
    ∃ v, versions[i]? = some v ∧ (versions.filter (·.served)).getLast? = some v := by
  obtain ⟨⟨v, i'⟩, hlast, rfl⟩ := Option.map_eq_some_iff.mp h
  obtain ⟨hmem, -⟩ := List.mem_filter.mp (List.mem_of_getLast? hlast)
  refine ⟨v, List.mk_mem_zipIdx_iff_getElem?.mp hmem, ?_⟩
  have hfst : versions.filter (·.served) =
      (versions.zipIdx.filter fun v => v.1.served).map Prod.fst := by
    conv_lhs => rw [← List.zipIdx_map_fst 0 versions, List.filter_map]
    rfl
  rw [hfst, List.getLast?_map, hlast]
  rfl

theorem filter_storage_modify {versions : List CrdVersion} {i : Nat} {v : CrdVersion}
    (hv : versions[i]? = some v) (hnone : ∀ u ∈ versions, u.storage = false) :
    (versions.modify i CrdVersion.store).filter (·.storage) = [v.store] := by
  obtain ⟨hi, rfl⟩ := List.getElem?_eq_some_iff.mp hv
  have hempty : ∀ {l : List CrdVersion}, l ⊆ versions → l.filter (·.storage) = [] := by
    intro l hl
    refine List.filter_eq_nil_iff.mpr fun u hu => ?_
    rw [hnone u (hl hu)]
    exact Bool.false_ne_true
  rw [List.modify_eq_take_cons_drop hi, List.filter_append, hempty (List.take_subset i versions),
    List.filter_cons_of_pos rfl, hempty (List.drop_subset (i + 1) versions)]
  rfl

/-- The selected versions after the storage version has been adjusted. -/
structure Rules.Adjusts (pubRes : Rules) (crd : Crd) (adjusted : List CrdVersion) : Prop where
  storage : adjusted.filter (·.storage) = (pubRes.storageVersions crd).map CrdVersion.store
  names : adjusted.map (·.name) = (pubRes.selected crd).map (·.name)
  latest : ∃ last, (pubRes.servedVersions crd).getLast? = some last

theorem adjustStorageVersion_adjusts {crd stripped adjusted : Crd} {pubRes : Rules}
    (hstripped : stripped.spec.versions = pubRes.selected crd)
    (h : adjustStorageVersion stripped = .ok adjusted) :
    pubRes.Adjusts crd adjusted.spec.versions := by
  unfold adjustStorageVersion at h
  rw [hstripped] at h
  split at h
  · cases h
  · next i hlatest =>
    obtain ⟨v, hv, hlast⟩ := latestServed_getLast? hlatest
    split at h
    · next hany =>
      cases h
      rw [hstripped]
      refine ⟨?_, rfl, v, hlast⟩
      rw [Rules.storageVersions, if_pos hany]
      conv_lhs => rw [← List.map_id (List.filter _ _)]
      refine List.map_congr_left fun u hu => ?_
      exact (CrdVersion.store_of_storage (List.mem_filter.mp hu).2).symm
    · next hnone =>
      cases h
      have hall : ∀ u ∈ pubRes.selected crd, u.storage = false := by
        intro u hu
        exact Bool.eq_false_iff.mpr fun hs => hnone (List.any_eq_true.mpr ⟨u, hu, hs⟩)
      refine ⟨?_, ?_, v, hlast⟩
      · rw [Rules.storageVersions, if_neg hnone, Rules.servedVersions, hlast]
        exact filter_storage_modify hv hall
      · refine List.ext_getElem? fun j => ?_
        rw [List.getElem?_map, List.getElem?_map, List.getElem?_modify]
        cases (pubRes.selected crd)[j]? with
        | none => rfl
        | some u => by_cases hij : i = j <;> simp [hij]

theorem projectCRDVersions_perm {L : Libraries} {crd result : Crd} {pubRes : Rules}
    (h : projectCRDVersions L crd pubRes = .ok result) :
    result.spec.versions.Perm (crd.spec.versions.map pubRes.rename) ∧
    ∀ u ∈ crd.spec.versions, ∀ u' ∈ crd.spec.versions,
      pubRes.versionName u.name = pubRes.versionName u'.name → u.name = u'.name := by
  have hsame : (∀ name, pubRes.versionName name = name) →
      crd.spec.versions.Perm (crd.spec.versions.map pubRes.rename) ∧
      ∀ u ∈ crd.spec.versions, ∀ u' ∈ crd.spec.versions,
        pubRes.versionName u.name = pubRes.versionName u'.name → u.name = u'.name := by
    intro hname
    have hrename : pubRes.rename = id := funext fun v => by
      rw [Rules.rename, hname]
      rfl
    refine ⟨by rw [hrename, List.map_id], fun u _ u' _ heq => ?_⟩
    rwa [hname, hname] at heq
  unfold projectCRDVersions at h
  split at h
  · next hnone =>
    cases h
    exact hsame fun name => by simp [Rules.versionName, hnone]
  · next projection hsome =>
    split at h
    · next hversion =>
      split at h
      · next v hsingle =>
        cases h
        have hname : pubRes.versionName v.name = projection.version := by
          simp [Rules.versionName, hsome, hversion]
        rw [hsingle]
        refine ⟨?_, fun u hu u' hu' _ => ?_⟩
        · rw [List.map_singleton, Rules.rename, hname]
        · rw [List.mem_singleton.mp hu, List.mem_singleton.mp hu']
      · cases h
    · next hversion =>
      have hname : ∀ name, pubRes.versionName name =
          if (projection.versions.get? name).getD "" = "" then name
          else (projection.versions.get? name).getD "" := by
        intro name
        simp only [Rules.versionName, hsome, if_neg hversion]
      split at h
      · dsimp only at h
        generalize hmap : List.map _ crd.spec.versions = renamed at h
        have hrenamed : crd.spec.versions.map pubRes.rename = renamed := by
          rw [← hmap]
          refine List.map_congr_left fun v _ => ?_
          rw [Rules.rename, hname]
          split
          · next hkept => simp only [hkept]
          · next hnew =>
            split
            · next hempty => exact absurd hempty hnew
            · rfl
        subst hrenamed
        split at h
        · cases h
        · next hdistinct =>
          cases h
          refine ⟨L.slices.perm _ _, fun u hu u' hu' heq => ?_⟩
          have hnodup := (firstRepeated_none hdistinct).1
          rw [List.map_map] at hnodup
          exact congrArg CrdVersion.name (List.inj_on_of_nodup_map hnodup hu hu' heq)
      · next hempty =>
        cases h
        have hget : ∀ k, projection.versions.get? k = none := by
          intro k
          simp [SortedMap.get?, not_not.mp hempty, Assoc.get?]
        exact hsame fun name => by simp [hname, hget]

theorem projectCRD_adjusts {L : Libraries} {crd result : Crd} {pubRes : Rules}
    (h : projectCRD L crd pubRes = .ok result) :
    ∃ adjusted, pubRes.Adjusts crd adjusted ∧
      result.spec.versions.Perm (adjusted.map pubRes.rename) := by
  obtain ⟨stripped, adjusted, projected, hstrip, hadjust, hproject, rfl⟩ := projectCRD_ok h
  rw [versions_projectCRDNames]
  exact ⟨adjusted.spec.versions, adjustStorageVersion_adjusts
    (stripUnwantedVersions_ok hstrip) hadjust,
    (projectCRDVersions_perm hproject).1⟩

theorem projectCRD_injective {L : Libraries} {crd result : Crd} {pubRes : Rules}
    (h : projectCRD L crd pubRes = .ok result) :
    ∀ u ∈ pubRes.selected crd, ∀ u' ∈ pubRes.selected crd,
      pubRes.versionName u.name = pubRes.versionName u'.name → u.name = u'.name := by
  obtain ⟨stripped, adjusted, projected, hstrip, hadjust, hproject, rfl⟩ := projectCRD_ok h
  have hnames := (adjustStorageVersion_adjusts (stripUnwantedVersions_ok hstrip) hadjust).names
  have hmem : ∀ {v}, v ∈ pubRes.selected crd → ∃ w ∈ adjusted.spec.versions, w.name = v.name := by
    intro v hv
    have hname := List.mem_map_of_mem (f := CrdVersion.name) hv
    rw [← hnames] at hname
    exact List.mem_map.mp hname
  intro u hu u' hu' heq
  obtain ⟨w, hw, hwname⟩ := hmem hu
  obtain ⟨w', hw', hwname'⟩ := hmem hu'
  rw [← hwname, ← hwname'] at heq ⊢
  exact (projectCRDVersions_perm hproject).2 w hw w' hw' heq

theorem projectCRD_storage {L : Libraries} {crd result : Crd} {pubRes : Rules}
    (h : projectCRD L crd pubRes = .ok result) :
    (result.spec.versions.filter (·.storage)).Perm
      ((pubRes.storageVersions crd).map fun u => pubRes.rename u.store) := by
  obtain ⟨adjusted, hadjusts, hperm⟩ := projectCRD_adjusts h
  refine (hperm.filter _).trans (.of_eq ?_)
  rw [List.filter_map]
  change List.map _ (adjusted.filter (·.storage)) = _
  rw [hadjusts.storage, List.map_map]
  rfl

variable (L : Libraries) in
/-- No version has a greater name, in the order of Kubernetes versions. -/
def Greatest (versions : List CrdVersion) (v : CrdVersion) : Prop :=
  ∀ u ∈ versions, (L.compareKubeAwareVersionStrings u.name v.name).isLE = true

/-- Where the storage version is not selected, one of the served versions takes its place.  It is
the greatest of them if and only if the last one is. -/
theorem projectCRD_greatest_iff {L : Libraries} {crd result : Crd} {pubRes : Rules}
    (hnone : ∀ u ∈ pubRes.selected crd, u.storage = false)
    (h : projectCRD L crd pubRes = .ok result) :
    ∃ v, result.spec.versions.filter (·.storage) = [v] ∧
      ((∃ u ∈ pubRes.servedVersions crd, v.name = pubRes.versionName u.name ∧
          Greatest L (pubRes.servedVersions crd) u) ↔
        ∀ last, (pubRes.servedVersions crd).getLast? = some last →
          Greatest L (pubRes.servedVersions crd) last) := by
  obtain ⟨adjusted, hadjusts, -⟩ := projectCRD_adjusts h
  obtain ⟨last, hlast⟩ := hadjusts.latest
  have hperm := projectCRD_storage h
  have hany : ¬ (pubRes.selected crd).any (·.storage) = true := by
    intro hany
    obtain ⟨u, hu, hs⟩ := List.any_eq_true.mp hany
    rw [hnone u hu] at hs
    cases hs
  rw [Rules.storageVersions, if_neg hany, hlast] at hperm
  refine ⟨pubRes.rename last.store, List.perm_singleton.mp hperm, ?_, fun hgreatest => ?_⟩
  · rintro ⟨u, hu, hname, hgreatest⟩ last' hlast'
    rw [hlast] at hlast'
    cases hlast'
    have hselected : ∀ {v}, v ∈ pubRes.servedVersions crd → v ∈ pubRes.selected crd :=
      fun hv => (List.mem_filter.mp hv).1
    have hsame : last.name = u.name := projectCRD_injective h last
      (hselected (List.mem_of_getLast? hlast)) u (hselected hu) hname
    intro u' hu'
    rw [hsame]
    exact hgreatest u' hu'
  · exact ⟨last, List.mem_of_getLast? hlast, rfl, hgreatest last hlast⟩

/-- The first two versions are published. -/
def partRules : Rules where
  resource := { apiGroup := "example.com", kind := "CronTab", versions := ["v1", "v2"] }

/-- A CRD that lists its versions from the oldest to the newest one. -/
def ascendingCrd : Crd := { sampleCrd with
  spec.versions := [⟨"v1", true, false, ∅⟩, ⟨"v2", true, false, ∅⟩, ⟨"v3", true, true, ∅⟩] }

/-- The same CRD with the two older versions the other way round. -/
def shuffledCrd : Crd := { sampleCrd with
  spec.versions := [⟨"v2", true, false, ∅⟩, ⟨"v1", true, false, ∅⟩, ⟨"v3", true, true, ∅⟩] }

theorem projectCRD_greatest_ascending : ∃ result v,
    projectCRD .byName ascendingCrd partRules = .ok result ∧
    result.spec.versions.filter (·.storage) = [v] ∧
    ∃ u ∈ partRules.servedVersions ascendingCrd, v.name = partRules.versionName u.name ∧
      Greatest .byName (partRules.servedVersions ascendingCrd) u := by
  have hnone : ∀ u ∈ partRules.selected ascendingCrd, u.storage = false := by decide +kernel
  have hlast : (partRules.servedVersions ascendingCrd).getLast? = some ⟨"v2", true, false, ∅⟩ := by
    decide +kernel
  have hgreatest : ∀ u ∈ partRules.servedVersions ascendingCrd,
      (compare u.name "v2").isLE = true := by decide +kernel
  cases hresult : projectCRD .byName ascendingCrd partRules with
  | error e =>
    have htest : (projectCRD .byName ascendingCrd partRules).isOk = true := by decide +kernel
    rw [hresult] at htest
    cases htest
  | ok result =>
    obtain ⟨v, hv, hiff⟩ := projectCRD_greatest_iff hnone hresult
    refine ⟨result, v, rfl, hv, hiff.mpr fun last hlast' => ?_⟩
    rw [hlast] at hlast'
    cases hlast'
    exact hgreatest

/-- With the other listing v1 becomes the storage version, although v2 is served as well. -/
theorem projectCRD_storage_shuffled : ∃ result,
    projectCRD .byName shuffledCrd partRules = .ok result ∧
    result.spec.versions.filter (·.storage) = [⟨"v1", true, true, ∅⟩] ∧
    ¬ ∃ u ∈ partRules.servedVersions shuffledCrd, "v1" = partRules.versionName u.name ∧
      Greatest .byName (partRules.servedVersions shuffledCrd) u := by
  have htest : ((projectCRD .byName shuffledCrd partRules).toOption.any fun result =>
      result.spec.versions.filter (·.storage) = [⟨"v1", true, true, ∅⟩]) = true := by decide +kernel
  have hgreater : ∀ u ∈ partRules.servedVersions shuffledCrd, "v1" = partRules.versionName u.name →
      (compare "v2" u.name).isLE = false := by decide +kernel
  have hv2 : (⟨"v2", true, false, ∅⟩ : CrdVersion) ∈ partRules.servedVersions shuffledCrd := by
    decide +kernel
  cases hresult : projectCRD .byName shuffledCrd partRules with
  | error e =>
    rw [hresult] at htest
    cases htest
  | ok result =>
    rw [hresult] at htest
    refine ⟨result, rfl, of_decide_eq_true htest, ?_⟩
    rintro ⟨u, hu, hname, hgreatest⟩
    have hle : (compare "v2" u.name).isLE = true := hgreatest _ hv2
    rw [hgreater u hu hname] at hle
    cases hle

/-! ### The types that are synced -/

theorem getStorageVersion_mem {crd : Crd} (h : getStorageVersion crd ≠ "") :
    ∃ v ∈ crd.spec.versions.filter (·.storage), getStorageVersion crd = v.name := by
  unfold getStorageVersion at h ⊢
  cases hfind : crd.spec.versions.find? (·.storage) with
  | none =>
    rw [hfind] at h
    exact absurd rfl h
  | some v =>
    exact ⟨v, List.mem_filter.mpr ⟨List.mem_of_find?_eq_some hfind, List.find?_some hfind⟩, rfl⟩

theorem publishedResourceSourceGVK_ok {crd : Crd} {pubRes : Rules} {gvk : GroupVersionKind}
    (h : publishedResourceSourceGVK crd pubRes = .ok gvk) :
    ∃ v ∈ crd.spec.versions, v.storage = true ∧ gvk.version = v.name := by
  unfold publishedResourceSourceGVK at h
  dsimp only at h
  split at h
  · cases h
  · next hsome =>
    cases h
    obtain ⟨v, hv, hname⟩ := getStorageVersion_mem hsome
    obtain ⟨hmem, hstorage⟩ := List.mem_filter.mp hv
    exact ⟨v, hmem, hstorage, hname⟩

theorem publishedResourceProjectedGVK_ok {L : Libraries} {crd : Crd} {pubRes : Rules}
    {gvk : GroupVersionKind} (h : publishedResourceProjectedGVK L crd pubRes = .ok gvk) :
    ∃ projected, projectCRD L crd pubRes = .ok projected ∧
      ∃ u ∈ pubRes.storageVersions crd, pubRes.rename u.store ∈ projected.spec.versions ∧
        gvk.version = pubRes.versionName u.name := by
  obtain ⟨projected, hproject, hgvk⟩ := exists_of_bind_eq_ok h
  have hok := ok_of_mapError hproject
  refine ⟨projected, hok, ?_⟩
  dsimp only at hgvk
  split at hgvk
  · cases hgvk
  · next hsome =>
    cases hgvk
    obtain ⟨v, hv, hname⟩ := getStorageVersion_mem hsome
    have hmem := (projectCRD_storage hok).mem_iff.mp hv
    obtain ⟨u, hu, rfl⟩ := List.mem_map.mp hmem
    exact ⟨u, hu, (List.mem_filter.mp hv).1, hname⟩

/-- The storage versions of a projected CRD are selected ones.  They are served unless they have
been storage versions before. -/
theorem mem_storageVersions {crd : Crd} {pubRes : Rules} {u : CrdVersion}
    (h : u ∈ pubRes.storageVersions crd) :
    u ∈ pubRes.selected crd ∧ (u.storage = true ∨
      (∀ u' ∈ pubRes.selected crd, u'.storage = false) ∧ u.served = true) := by
  unfold Rules.storageVersions at h
  split at h
  · obtain ⟨hselected, hstorage⟩ := List.mem_filter.mp h
    exact ⟨hselected, .inl hstorage⟩
  · next hnone =>
    have hlast := List.mem_of_getLast? (Option.mem_toList.mp h)
    obtain ⟨hselected, hserved⟩ := List.mem_filter.mp hlast
    refine ⟨hselected, .inr ⟨fun u' hu' => ?_, hserved⟩⟩
    exact Bool.eq_false_iff.mpr fun hs => hnone (List.any_eq_true.mpr ⟨u', hu', hs⟩)

theorem ValidVersions.storage_unique {versions : List CrdVersion} (h : ValidVersions versions)
    {u v : CrdVersion} (hu : u ∈ versions) (hv : v ∈ versions) (hus : u.storage = true)
    (hvs : v.storage = true) : u = v := by
  have hone : (versions.filter (·.storage)).length = 1 := by
    rw [← List.countP_eq_length_filter]
    exact h.storage
  obtain ⟨w, hw⟩ := List.length_eq_one_iff.mp hone
  have hmem : ∀ {x}, x ∈ versions → x.storage = true → x = w := by
    intro x hx hxs
    have hfilter := List.mem_filter.mpr ⟨hx, hxs⟩
    rw [hw] at hfilter
    exact List.mem_singleton.mp hfilter
  rw [hmem hu hus, hmem hv hvs]

theorem selected_subset {crd : Crd} {pubRes : Rules} {u : CrdVersion}
    (hu : u ∈ pubRes.selected crd) : u ∈ crd.spec.versions :=
  (List.mem_filter.mp hu).1

theorem projectCRD_names_nodup {L : Libraries} {crd result : Crd} {pubRes : Rules}
    (hvalid : ValidVersions crd.spec.versions) (h : projectCRD L crd pubRes = .ok result) :
    (result.spec.versions.map (·.name)).Nodup := by
  obtain ⟨adjusted, hadjusts, hperm⟩ := projectCRD_adjusts h
  have hrenamed : (adjusted.map pubRes.rename).map (·.name) =
      ((pubRes.selected crd).map (·.name)).map pubRes.versionName := by
    rw [← hadjusts.names, List.map_map, List.map_map]
    rfl
  rw [(hperm.map _).nodup_iff, hrenamed]
  have hnames : ((pubRes.selected crd).map (·.name)).Nodup :=
    hvalid.names.sublist (List.filter_sublist.map _)
  refine hnames.map_on fun a ha b hb heq => ?_
  obtain ⟨u, hu, rfl⟩ := List.mem_map.mp ha
  obtain ⟨u', hu', rfl⟩ := List.mem_map.mp hb
  exact projectCRD_injective h u hu u' hu' heq

/-- A version that is served, under its name in a CRD. -/
def Crd.Serves (crd : Crd) (version : String) : Prop :=
  ∃ v ∈ crd.spec.versions, v.name = version ∧ v.served = true

/-- The version in kcp is served if the selected storage version is.  For a valid CRD it is served
only then. -/
theorem publishedResourceProjectedGVK_served {L : Libraries} {crd : Crd} {pubRes : Rules}
    {gvk : GroupVersionKind} (h : publishedResourceProjectedGVK L crd pubRes = .ok gvk) :
    ∃ projected, projectCRD L crd pubRes = .ok projected ∧
      ((∀ u ∈ pubRes.selected crd, u.storage = true → u.served = true) →
        projected.Serves gvk.version) ∧
      (ValidVersions crd.spec.versions → projected.Serves gvk.version →
        ∀ u ∈ pubRes.selected crd, u.storage = true → u.served = true) := by
  obtain ⟨projected, hproject, u, hu, hmem, hname⟩ := publishedResourceProjectedGVK_ok h
  obtain ⟨hselected, hcases⟩ := mem_storageVersions hu
  refine ⟨projected, hproject, fun hall => ?_, fun hvalid hserves u' hu' hstorage => ?_⟩
  · refine ⟨pubRes.rename u.store, hmem, hname.symm, ?_⟩
    rcases hcases with hstorage | ⟨-, hserved⟩
    · exact hall u hselected hstorage
    · exact hserved
  · obtain ⟨v, hv, hvname, hserved⟩ := hserves
    -- the served version is the storage version, since their names are the same
    have hsame : v = pubRes.rename u.store := List.inj_on_of_nodup_map
      (projectCRD_names_nodup hvalid hproject) hv hmem (hvname.trans hname)
    subst hsame
    rcases hcases with hus | ⟨hnone, -⟩
    · rw [hvalid.storage_unique (selected_subset hu') (selected_subset hselected) hstorage hus]
      exact hserved
    · rw [hnone u' hu'] at hstorage
      cases hstorage

theorem projectedGVK_partRules : publishedResourceProjectedGVK .byName ascendingCrd partRules =
    .ok ⟨"example.com", "v2", "CronTab"⟩ := by
  decide +kernel

theorem publishedResourceProjectedGVK_ascending : ∃ projected,
    projectCRD .byName ascendingCrd partRules = .ok projected ∧ projected.Serves "v2" := by
  have hserved : ∀ u ∈ partRules.selected ascendingCrd, u.storage = true → u.served = true := by
    decide +kernel
  obtain ⟨projected, hproject, hserves, -⟩ :=
    publishedResourceProjectedGVK_served projectedGVK_partRules
  exact ⟨projected, hproject, hserves hserved⟩

/-- A CRD whose storage version is not served any more. -/
def migratedCrd : Crd := { sampleCrd with
  spec.versions := [⟨"v1", false, true, ∅⟩, ⟨"v2", true, false, ∅⟩] }

/-- Next to it a served version is published, but the objects are synced in the other one. -/
theorem publishedResourceProjectedGVK_migrated :
    publishedResourceProjectedGVK .byName migratedCrd partRules =
      .ok ⟨"example.com", "v1", "CronTab"⟩ ∧
    ∃ projected, projectCRD .byName migratedCrd partRules = .ok projected ∧
      ¬ projected.Serves "v1" := by
  refine ⟨by decide +kernel, ?_⟩
  have htest : ((projectCRD .byName migratedCrd partRules).toOption.any fun result =>
      result.spec.versions.all fun v => v.name ≠ "v1" ∨ v.served = false) =
        true := by decide +kernel
  cases hresult : projectCRD .byName migratedCrd partRules with
  | error e =>
    rw [hresult] at htest
    cases htest
  | ok result =>
    rw [hresult] at htest
    refine ⟨result, rfl, ?_⟩
    rintro ⟨v, hv, hname, hserved⟩
    have hcase := of_decide_eq_true (List.all_eq_true.mp htest v hv)
    rcases hcase with hother | hunserved
    · exact hother hname
    · rw [hunserved] at hserved
      cases hserved

end Projection

namespace Sync

open Projection
open ResourceSyncer (plainRules plainPrimary newResourceSyncer_plainRules
  publishedResourceSourceGVK_plainRules)

/-- The entries of a CRD that the types on both sides come from. -/
structure SyncedVersions (rules : Rules) (crd : Crd) (localGVK remoteGVK : GroupVersionKind)
    (entry origin : CrdVersion) : Prop where
  mem : entry ∈ crd.spec.versions
  localVersion : ∀ v ∈ crd.spec.versions, v.name = localGVK.version ↔ v = entry
  selected : origin ∈ rules.selected crd
  remoteVersion : ∀ v ∈ rules.selected crd, rules.versionName v.name =
    remoteGVK.version ↔ v = origin

theorem subresourcesOf_entry {crd : Crd} {entry : CrdVersion}
    (hnames : (crd.spec.versions.map (·.name)).Nodup) (hmem : entry ∈ crd.spec.versions) :
    subresourcesOf crd entry.name = ["scale", "status"].filter entry.hasSubresource := by
  unfold subresourcesOf
  obtain ⟨before, after, hsplit⟩ := List.append_of_mem hmem
  rw [hsplit, List.map_append, List.map_cons, List.nodup_middle, List.nodup_cons] at hnames
  have hother : ∀ v ∈ before ++ after, v.name ≠ entry.name := by
    intro v hv heq
    refine hnames.1 ?_
    rw [← heq, ← List.map_append]
    exact List.mem_map_of_mem hv
  have hempty : ∀ l, l ⊆ before ++ after → (l.flatMap fun v : CrdVersion =>
      if v.name = entry.name then ["scale", "status"].filter v.hasSubresource else []) = [] := by
    intro l hl
    exact List.flatMap_eq_nil_iff.mpr fun v hv => if_neg (hother v (hl hv))
  rw [hsplit, List.flatMap_append, List.flatMap_cons, hempty before (List.subset_append_left _ _),
    hempty after (List.subset_append_right _ _), if_pos rfl, List.nil_append, List.append_nil]

/-- The local objects have the storage version of the CRD, and the subresources are those of this
version.  The remote objects come from the same entry if and only if it is selected, and else from a
selected one that is served. -/
theorem newResourceSyncer_versions {libs : Libraries} {projection : Projection.Libraries}
    {pubRes : PublishedResource} {rules : Rules} {hkind : rules.resource.kind ≠ ""} {crd : Crd}
    {mutatorCreator : Option RelatedResourceSpec → Except Error (Option Mutator)}
    {stateNamespace agentName : String} {opts : SyncerOptions} {s : ResourceSyncer}
    (hvalid : ValidVersions crd.spec.versions)
    (h : newResourceSyncer libs projection pubRes rules hkind crd mutatorCreator stateNamespace
      agentName opts = .ok s) :
    ∃ localGVK remoteGVK entry origin,
      publishedResourceSourceGVK crd rules = .ok localGVK ∧
      publishedResourceProjectedGVK projection crd rules = .ok remoteGVK ∧
      SyncedVersions rules crd localGVK remoteGVK entry origin ∧ entry.storage = true ∧
      (origin = entry ↔ rules.resource.selects entry = true) ∧
      (rules.resource.selects entry = false → origin.served = true) ∧
      s.destType.apiVersion = localGVK.apiVersion ∧
      s.subresources = ["scale", "status"].filter entry.hasSubresource := by
  obtain ⟨localGVK, hlocal, h'⟩ := exists_of_bind_eq_ok h
  obtain ⟨remoteGVK, hremote, h'⟩ := exists_of_bind_eq_ok h'
  obtain ⟨entry, hmem, hstorage, hentry⟩ := publishedResourceSourceGVK_ok hlocal
  obtain ⟨projected, hproject, origin, horigin, -, hname⟩ :=
    publishedResourceProjectedGVK_ok hremote
  obtain ⟨hselected, hcases⟩ := mem_storageVersions horigin
  have hsame : ∀ {u v}, u ∈ crd.spec.versions → v ∈ crd.spec.versions → u.name = v.name → u = v :=
    fun hu hv heq => List.inj_on_of_nodup_map hvalid.names hu hv heq
  have hselects : rules.resource.selects entry = true → origin = entry := by
    intro hsel
    have hentrySelected : entry ∈ rules.selected crd := List.mem_filter.mpr ⟨hmem, hsel⟩
    rcases hcases with hos | ⟨hnone, -⟩
    · exact hvalid.storage_unique (selected_subset hselected) hmem hos hstorage
    · rw [hnone entry hentrySelected] at hstorage
      cases hstorage
  refine ⟨localGVK, remoteGVK, entry, origin, hlocal, hremote, ⟨hmem, fun v hv => ?_, hselected,
    fun v hv => ?_⟩, hstorage, ⟨?_, hselects⟩, fun hunselected => ?_, ?_, ?_⟩
  · rw [hentry]
    exact ⟨hsame hv hmem, congrArg _⟩
  · rw [hname]
    refine ⟨fun heq => hsame (selected_subset hv) (selected_subset hselected) ?_, ?_⟩
    · exact projectCRD_injective hproject v hv origin hselected heq
    · rintro rfl
      rfl
  · rintro rfl
    exact (List.mem_filter.mp hselected).2
  · rcases hcases with hos | ⟨-, hserved⟩
    · have heq := hvalid.storage_unique (selected_subset hselected) hmem hos hstorage
      rw [← heq, (List.mem_filter.mp hselected).2] at hunselected
      cases hunselected
    · exact hserved
  · obtain ⟨primaryMutator, -, h'⟩ := exists_of_bind_eq_ok h'
    obtain ⟨relatedMutators, -, h'⟩ := exists_of_bind_eq_ok h'
    cases h'
    rfl
  · rw [subresources_newResourceSyncer hlocal h, hentry, subresourcesOf_entry hvalid.names hmem]

theorem valid_sampleCrd : ValidVersions sampleCrd.spec.versions := ⟨by decide, by decide⟩

theorem newResourceSyncer_versions_plainRules : ∃ remoteGVK entry,
    SyncedVersions plainRules sampleCrd ⟨"example.com", "v1", "CronTab"⟩ remoteGVK entry entry := by
  obtain ⟨localGVK, remoteGVK, entry, origin, hlocal, -, hversions, -, hsame, -⟩ :=
    newResourceSyncer_versions valid_sampleCrd newResourceSyncer_plainRules
  cases publishedResourceSourceGVK_plainRules.symm.trans hlocal
  have hall : ∀ v ∈ sampleCrd.spec.versions, plainRules.resource.selects v = true := by
    decide +kernel
  rw [hsame.mpr (hall entry hversions.mem)] at hversions
  exact ⟨remoteGVK, entry, hversions⟩

theorem kind_partRules : partRules.resource.kind ≠ "" := by decide

/-- The storage version v3 is not selected: the local objects have this version and the remote ones
another one, which is not renamed. -/
theorem newResourceSyncer_versions_differ :
    ∃ s, newResourceSyncer .sample .byName plainPrimary.syncer.pubRes partRules kind_partRules
        ascendingCrd (fun _ => .ok none) "system" "agent" {} = .ok s ∧
      ∃ localGVK remoteGVK, publishedResourceSourceGVK ascendingCrd partRules = .ok localGVK ∧
        publishedResourceProjectedGVK .byName ascendingCrd partRules = .ok remoteGVK ∧
        ¬ ∃ v ∈ ascendingCrd.spec.versions, v.name = localGVK.version ∧
          partRules.versionName v.name = remoteGVK.version := by
  refine ⟨_, rfl, ⟨"example.com", "v3", "CronTab"⟩, ⟨"example.com", "v2", "CronTab"⟩, ?_, ?_, ?_⟩
  · decide +kernel
  · exact projectedGVK_partRules
  · rintro ⟨v, -, hname, hversion⟩
    change v.name = "v2" at hversion
    rw [hname] at hversion
    exact absurd hversion (by decide)

end Sync
