import SyncAgent.Projection.Crd

/-! The versions of a projected CustomResourceDefinition: each comes from one of the selected
versions of the original, under the name that the projection rules give it, and together they make a
valid CRD again.  There is one lemma for each of the passes of `ProjectCRD`. -/

namespace Projection

open Kube
open Sync (Error)

/-- The versions of a CRD that the API server accepts: no name twice, and one storage version. -/
structure ValidVersions (versions : List CrdVersion) : Prop where
  names : (versions.map (·.name)).Nodup
  storage : versions.countP (·.storage) = 1

/-- The name of a version after the projection: the one name of the deprecated rule, or what the
rename map has for it.  An entry without a new name changes nothing. -/
def Rules.versionName (pubRes : Rules) (name : String) : String :=
  match pubRes.projection with
  | none => name
  | some projection =>
    if projection.version ≠ "" then projection.version
    else
      let newVersion := (projection.versions.get? name).getD ""
      if newVersion = "" then name else newVersion

/-- The versions of a CRD that a PublishedResource selects. -/
def Rules.selected (pubRes : Rules) (crd : Crd) : List CrdVersion :=
  crd.spec.versions.filter pubRes.resource.selects

/-- The new version has the content of the old one, and the name that `rename` gives it.  If `kept`,
then it is the storage version exactly if the old one is. -/
structure CrdVersion.Renamed (rename : String → String) (kept : Prop) (old new : CrdVersion) :
    Prop where
  name : new.name = rename old.name
  served : new.served = old.served
  rest : new.rest = old.rest
  storage : kept → new.storage = old.storage

theorem stripUnwantedVersions_ok {crd result : Crd} {pubRes : Rules}
    (h : stripUnwantedVersions crd pubRes = .ok result) :
    result.spec.versions = pubRes.selected crd := by
  unfold stripUnwantedVersions at h
  dsimp only at h
  split at h
  · cases h
  · split at h
    · split at h
      · cases h
      · split at h <;> cases h
    · cases h
      rfl

/-! ### The storage version -/

theorem latestServed_some {versions : List CrdVersion} {i : Nat}
    (h : latestServed versions = some i) : ∃ v, versions[i]? = some v ∧ v.served = true := by
  obtain ⟨⟨v, i'⟩, hlast, rfl⟩ := Option.map_eq_some_iff.mp h
  obtain ⟨hmem, hserved⟩ := List.mem_filter.mp (List.mem_of_getLast? hlast)
  exact ⟨v, List.mk_mem_zipIdx_iff_getElem?.mp hmem, hserved⟩

theorem countP_storage_modify {versions : List CrdVersion} {i : Nat}
    (hnone : versions.countP (·.storage) = 0) (hi : i < versions.length) :
    (versions.modify i fun v => { v with storage := true }).countP (·.storage) = 1 := by
  induction versions generalizing i with
  | nil => cases hi
  | cons v rest ih =>
    rw [List.countP_cons] at hnone
    cases i with
    | zero =>
      have hrest : rest.countP (·.storage) = 0 := by omega
      rw [List.modify_zero_cons, List.countP_cons_of_pos rfl, hrest]
    | succ i =>
      have hrest : (rest.modify i fun v => { v with storage := true }).countP (·.storage) = 1 :=
        ih (by omega) (by simpa using hi)
      simp only [List.modify_succ_cons, List.countP_cons]
      omega

theorem forall₂_modify {versions : List CrdVersion} {i : Nat} {f : CrdVersion → CrdVersion}
    {R : CrdVersion → CrdVersion → Prop} (hrefl : ∀ v, R v v) (hf : ∀ v, R v (f v)) :
    List.Forall₂ R versions (versions.modify i f) := by
  induction versions generalizing i with
  | nil => simp
  | cons v rest ih =>
    cases i with
    | zero => exact .cons (hf v) (List.forall₂_same.mpr fun v _ => hrefl v)
    | succ i => exact .cons (hrefl v) ih

theorem adjustStorageVersion_ok {crd result : Crd} (h : adjustStorageVersion crd = .ok result)
    (hstorage : crd.spec.versions.countP (·.storage) ≤ 1) :
    List.Forall₂ (CrdVersion.Renamed id (crd.spec.versions.any (·.storage) = true))
        crd.spec.versions result.spec.versions ∧
      result.spec.versions.countP (·.storage) = 1 ∧
      ∃ v ∈ result.spec.versions, v.served = true := by
  unfold adjustStorageVersion at h
  split at h
  · cases h
  · next i hlatest =>
    obtain ⟨v, hv, hserved⟩ := latestServed_some hlatest
    split at h
    · next hany =>
      cases h
      have hpos : 0 < crd.spec.versions.countP (·.storage) :=
        List.countP_pos_iff.mpr (List.any_eq_true.mp hany)
      exact ⟨List.forall₂_same.mpr fun v _ => ⟨rfl, rfl, rfl, fun _ => rfl⟩, by omega, v,
        List.mem_of_getElem? hv, hserved⟩
    · next hnone =>
      cases h
      have hzero : crd.spec.versions.countP (·.storage) = 0 :=
        List.countP_eq_zero.mpr fun v hv hs => hnone (List.any_eq_true.mpr ⟨v, hv, hs⟩)
      refine ⟨forall₂_modify (fun v => ⟨rfl, rfl, rfl, fun _ => rfl⟩)
        (fun v => ⟨rfl, rfl, rfl, fun hany => absurd hany hnone⟩),
        countP_storage_modify hzero (List.getElem?_eq_some_iff.mp hv).1, { v with storage := true },
        ?_, hserved⟩
      exact List.mem_of_getElem? (i := i) (by rw [List.getElem?_modify_eq, hv]; rfl)

/-! ### The names -/

theorem firstRepeated_none {known : List String} {versions : List CrdVersion}
    (h : firstRepeated known versions = none) :
    (versions.map (·.name)).Nodup ∧ ∀ v ∈ versions, v.name ∉ known := by
  induction versions generalizing known with
  | nil => exact ⟨List.nodup_nil, fun _ hv => by cases hv⟩
  | cons v rest ih =>
    rw [firstRepeated] at h
    split at h
    · cases h
    · next hnew =>
      obtain ⟨hnodup, hfresh⟩ := ih h
      refine ⟨List.nodup_cons.mpr ⟨fun hmem => ?_, hnodup⟩, List.forall_mem_cons.mpr
        ⟨by simpa using hnew, fun v' hv' hmem => hfresh v' hv' (List.mem_cons_of_mem _ hmem)⟩⟩
      obtain ⟨v', hv', hname⟩ := List.mem_map.mp hmem
      exact hfresh v' hv' (by simp [hname])

instance {L : Libraries} [Std.TransCmp L.compareKubeAwareVersionStrings] :
    Std.TransCmp fun a b : CrdVersion => L.compareKubeAwareVersionStrings a.name b.name where
  eq_swap := Std.OrientedCmp.eq_swap
  isLE_trans := Std.TransCmp.isLE_trans

/-- The versions in ascending Kubernetes version order. -/
def Ascending (L : Libraries) (versions : List CrdVersion) : Prop :=
  versions.Pairwise fun a b => (L.compareKubeAwareVersionStrings a.name b.name).isLE = true

theorem projectCRDVersions_ok {L : Libraries} [Std.TransCmp L.compareKubeAwareVersionStrings]
    {crd result : Crd} {pubRes : Rules} (h : projectCRDVersions L crd pubRes = .ok result)
    (hnames : (crd.spec.versions.map (·.name)).Nodup) :
    (∃ renamed, List.Forall₂ (CrdVersion.Renamed pubRes.versionName True)
      crd.spec.versions renamed ∧
      result.spec.versions.Perm renamed) ∧
    (result.spec.versions.map (·.name)).Nodup ∧
    ∀ projection, pubRes.projection = some projection → projection.versions.entries ≠ [] →
      Ascending L result.spec.versions := by
  have hsame : (∀ v : CrdVersion, pubRes.versionName v.name = v.name) →
      ∃ renamed, List.Forall₂ (CrdVersion.Renamed pubRes.versionName True)
      crd.spec.versions renamed ∧
        crd.spec.versions.Perm renamed := fun hname =>
    ⟨_, List.forall₂_same.mpr fun v _ => ⟨(hname v).symm, rfl, rfl, fun _ => rfl⟩, .refl _⟩
  unfold projectCRDVersions at h
  split at h
  · next hnone =>
    cases h
    refine ⟨hsame fun v => by simp [Rules.versionName, hnone], hnames, fun _ hsome => ?_⟩
    cases hnone.symm.trans hsome
  · next projection hsome =>
    split at h
    · next hversion =>
      -- the deprecated rule, for a single version
      split at h
      · next v hsingle =>
        cases h
        refine ⟨⟨_, ?_, .refl _⟩, List.nodup_singleton _, fun _ _ _ => List.pairwise_singleton _ _⟩
        rw [hsingle]
        exact .cons ⟨by simp [Rules.versionName, hsome, hversion], rfl, rfl, fun _ => rfl⟩ .nil
      · cases h
    · next hversion =>
      have hname : ∀ v : CrdVersion, pubRes.versionName v.name =
          if (projection.versions.get? v.name).getD "" = "" then v.name
          else (projection.versions.get? v.name).getD "" := by
        intro v
        simp only [Rules.versionName, hsome, if_neg hversion]
      split at h
      · dsimp only at h
        split at h
        · cases h
        · next hdistinct =>
          cases h
          have hperm := L.slices.perm (fun a b : CrdVersion =>
            L.compareKubeAwareVersionStrings a.name b.name)
          refine ⟨⟨_, List.forall₂_map_right_iff.mpr (List.forall₂_same.mpr fun v _ => ?_),
            hperm _⟩, ?_, fun _ _ _ => L.slices.sorted _ _⟩
          · split
            · next hkept => exact ⟨by rw [hname, if_pos hkept], rfl, rfl, fun _ => rfl⟩
            · next hnew => exact ⟨by rw [hname, if_neg hnew], rfl, rfl, fun _ => rfl⟩
          · exact ((hperm _).map _).nodup_iff.mpr (firstRepeated_none hdistinct).1
      · next hempty =>
        cases h
        have hget : ∀ k, projection.versions.get? k = none := by
          intro k
          simp [SortedMap.get?, not_not.mp hempty, Assoc.get?]
        refine ⟨hsame fun v => by simp [hname, hget], hnames, fun p hp hne => ?_⟩
        cases hsome.symm.trans hp
        exact absurd hne hempty

section Renamed

variable {rename : String → String} {versions renamed : List CrdVersion}

theorem forall₂_trans {kept : Prop} {original : List CrdVersion}
    (h : List.Forall₂ (CrdVersion.Renamed id kept) original versions)
    (h' : List.Forall₂ (CrdVersion.Renamed rename True) versions renamed) :
    List.Forall₂ (CrdVersion.Renamed rename kept) original renamed := by
  induction h generalizing renamed with
  | nil =>
    cases h'
    exact .nil
  | cons hv _ ih =>
    cases h' with
    | cons hv' hrest' =>
      refine .cons ⟨?_, hv'.served.trans hv.served, hv'.rest.trans hv.rest, fun hkept =>
        (hv'.storage trivial).trans (hv.storage hkept)⟩ (ih hrest')
      rw [hv'.name, hv.name, id]

theorem countP_storage_renamed
    (h : List.Forall₂ (CrdVersion.Renamed rename True) versions renamed) :
    renamed.countP (·.storage) = versions.countP (·.storage) := by
  induction h with
  | nil => rfl
  | cons hv _ ih => rw [List.countP_cons, List.countP_cons, ih, hv.storage trivial]

theorem exists_served_renamed {kept : Prop}
    (h : List.Forall₂ (CrdVersion.Renamed rename kept) versions renamed)
    (hserved : ∃ v ∈ versions, v.served = true) : ∃ v ∈ renamed, v.served = true := by
  induction h with
  | nil => exact hserved
  | @cons v v' _ _ hv _ ih =>
    obtain ⟨u, hu, hs⟩ := hserved
    rcases List.mem_cons.mp hu with rfl | hrest
    · exact ⟨v', by simp, hv.served.trans hs⟩
    · obtain ⟨u', hu', hs'⟩ := ih ⟨u, hrest, hs⟩
      exact ⟨u', by simp [hu'], hs'⟩

theorem map_name_renamed {kept : Prop}
    (h : List.Forall₂ (CrdVersion.Renamed id kept) versions renamed) :
    renamed.map (·.name) = versions.map (·.name) := by
  induction h with
  | nil => rfl
  | cons hv _ ih => rw [List.map_cons, List.map_cons, ih, hv.name, id]

end Renamed

theorem versions_projectCRDNames (L : Libraries) (crd : Crd) (pubRes : Rules) :
    (projectCRDNames L crd pubRes).spec.versions = crd.spec.versions := by
  unfold projectCRDNames
  split <;> rfl

theorem projectCRD_ok {L : Libraries} {crd result : Crd} {pubRes : Rules}
    (h : projectCRD L crd pubRes = .ok result) :
    ∃ stripped adjusted projected, stripUnwantedVersions crd pubRes = .ok stripped ∧
      adjustStorageVersion stripped = .ok adjusted ∧
      projectCRDVersions L adjusted pubRes = .ok projected ∧
      projectCRDNames L projected pubRes = result := by
  obtain ⟨stripped, hstrip, h⟩ := Sync.exists_of_bind_eq_ok h
  obtain ⟨adjusted, hadjust, h⟩ := Sync.exists_of_bind_eq_ok h
  obtain ⟨projected, hproject, h⟩ := Sync.exists_of_bind_eq_ok h
  exact ⟨stripped, adjusted, projected, hstrip, hadjust, hproject, Except.ok.inj h⟩

/-- What a projection makes of the versions of a CRD. -/
structure ProjectsVersions (L : Libraries) (pubRes : Rules) (crd result : Crd) : Prop where
  nonempty : result.spec.versions ≠ []
  valid : ValidVersions result.spec.versions
  served : ∃ v ∈ result.spec.versions, v.served = true
  /-- Each version comes from one of the selected versions.  The storage flags are as they were if
  the storage version is among these. -/
  renamed : ∃ renamed, result.spec.versions.Perm renamed ∧
    List.Forall₂ (CrdVersion.Renamed pubRes.versionName
      ((pubRes.selected crd).any (·.storage) = true)) (pubRes.selected crd) renamed
  ascending : ∀ projection, pubRes.projection = some projection →
    projection.versions.entries ≠ [] → Ascending L result.spec.versions

theorem projectCRD_projectsVersions {L : Libraries}
    [Std.TransCmp L.compareKubeAwareVersionStrings] {crd result : Crd} {pubRes : Rules}
    (hvalid : ValidVersions crd.spec.versions) (h : projectCRD L crd pubRes = .ok result) :
    ProjectsVersions L pubRes crd result := by
  obtain ⟨stripped, adjusted, projected, hstrip, hadjust, hproject, rfl⟩ := projectCRD_ok h
  have hselected := stripUnwantedVersions_ok hstrip
  have hsublist : (pubRes.selected crd).Sublist crd.spec.versions := List.filter_sublist
  have hstorage : stripped.spec.versions.countP (·.storage) ≤ 1 := by
    rw [hselected, ← hvalid.storage]
    exact hsublist.countP_le
  obtain ⟨hadjusted, hone, hserved⟩ := adjustStorageVersion_ok hadjust hstorage
  have hnames : (adjusted.spec.versions.map (·.name)).Nodup := by
    rw [map_name_renamed hadjusted, hselected]
    exact hvalid.names.sublist (hsublist.map _)
  obtain ⟨⟨renamed, hrenamed, hperm⟩, hnodup, hascending⟩ := projectCRDVersions_ok hproject hnames
  obtain ⟨v, hv, hvserved⟩ := exists_served_renamed hrenamed hserved
  rw [← hperm.mem_iff] at hv
  rw [hselected] at hadjusted
  rw [← versions_projectCRDNames L projected pubRes] at hperm hv hnodup hascending
  exact {
    nonempty := List.ne_nil_of_mem hv
    valid := ⟨hnodup, by rw [hperm.countP_eq, countP_storage_renamed hrenamed, hone]⟩
    served := ⟨v, hv, hvserved⟩
    renamed := ⟨renamed, hperm, forall₂_trans hadjusted hrenamed⟩
    ascending := hascending }

/-- A CRD with two served versions. -/
def sampleCrd : Crd where
  name := "crontabs.example.com"
  generation := 1
  spec := {
    group := "example.com"
    names := ⟨"crontabs", "crontab", "CronTab", "CronTabList", [], []⟩
    scope := .namespaceScoped
    versions := [⟨"v1", true, true, ∅⟩, ⟨"v2", true, false, ∅⟩]
    conversion := none }

/-- Each version gets the name of the next one. -/
def chainRules : Rules where
  resource := { apiGroup := "example.com", kind := "CronTab" }
  projection := some { versions := (SortedMap.insert ∅ "v1" "v2").insert "v2" "v3" }

/-- Versions in the order of their names. -/
def Libraries.byName : Libraries where
  slices := .insertion
  compareKubeAwareVersionStrings := compare
  quote s := s
  toLower s := s

theorem projectCRD_chainRules : ∃ result, projectCRD .byName sampleCrd chainRules = .ok result ∧
    result.spec.versions.map (·.name) = ["v2", "v3"] ∧
    ProjectsVersions .byName chainRules sampleCrd result := by
  have htest : ((projectCRD .byName sampleCrd chainRules).toOption.any fun result =>
      result.spec.versions.map (·.name) = ["v2", "v3"]) = true := by decide +kernel
  have : Std.TransCmp Libraries.byName.compareKubeAwareVersionStrings :=
    inferInstanceAs (Std.TransCmp fun a b : String => compare a b)
  cases hresult : projectCRD .byName sampleCrd chainRules with
  | error e =>
    rw [hresult] at htest
    cases htest
  | ok result =>
    rw [hresult] at htest
    exact ⟨result, rfl, of_decide_eq_true htest,
      projectCRD_projectsVersions ⟨by decide, by decide⟩ hresult⟩

end Projection
