import SyncAgent.Sync.ResolvedObjects
import SyncAgent.Sync.Runs

/-! The annotations in which a primary object remembers its related objects, numbered in the order
of the origin objects: what `rememberRelatedObjects` leaves on the primary object, and what it
leaves alone. -/

namespace Sync

open Kube

/-- `^[a-z0-9]([-a-z0-9]*[a-z0-9])?$`, as far as the characters are concerned. -/
def ValidIdentifier (identifier : String) : Prop :=
  (identifier.toList.all fun c => ('a' ≤ c && c ≤ 'z') || ('0' ≤ c && c ≤ '9') || c = '-') = true

/-- What the annotations of a related resource start with. -/
def rememberedStart (identifier : String) : String :=
  relatedObjectAnnotationPrefix ++ identifier ++ "."

theorem ValidIdentifier.no_dot {identifier : String} (h : ValidIdentifier identifier) :
    '.' ∉ identifier.toList := by
  intro hdot
  have hchar := List.all_eq_true.mp h '.' hdot
  revert hchar
  decide

theorem hasPrefix_append (start rest : String) : hasPrefix (start ++ rest) start = true := by
  simp [hasPrefix]

theorem identifier_eq_of_hasPrefix {a b k : String} (ha : ValidIdentifier a)
    (hb : ValidIdentifier b)
    (hka : hasPrefix k (rememberedStart a) = true) (hkb : hasPrefix k (rememberedStart b) = true) :
    a = b := by
  rw [hasPrefix, List.isPrefixOf_iff_prefix] at hka hkb
  obtain ⟨ta, hta⟩ := hka
  obtain ⟨tb, htb⟩ := hkb
  have heq := hta.trans htb.symm
  simp only [rememberedStart, String.toList_append, List.append_assoc, List.append_cancel_left_eq]
    at heq
  -- both identifiers are what comes before the first dot
  have htake : ∀ {l t : List Char}, '.' ∉ l → (l ++ (".".toList ++ t)).takeWhile (· ≠ '.') = l := by
    intro l t hl
    rw [List.takeWhile_append_of_pos]
    · simp
    · intro c hc
      simpa using fun hdot : c = '.' => hl (hdot ▸ hc)
  exact String.toList_inj.mp ((htake ha.no_dot).symm.trans (heq ▸ htake hb.no_dot))

namespace ResourceSyncer

variable {s : ResourceSyncer}

variable (s) in
/-- The value of the annotation for a related object. -/
def rememberedText (resolved : ResolvedObject) : String :=
  s.libs.jsonText (SortedMap.ofOptions [
    ("apiVersion", some (.str resolved.original.typeMeta.apiVersion)),
    ("kind", some (.str resolved.original.typeMeta.kind)),
    ("name", some (.str resolved.destination.name)),
    ("namespace", if resolved.destination.ns = "" then none
      else some (.str resolved.destination.ns))] referenceKeys_sorted)

theorem get?_relatedObjectAnnotations {start : String} {resolvedObjects : List ResolvedObject}
    {k v : String} : (s.relatedObjectAnnotations start resolvedObjects).get? k = some v ↔
      ∃ (i : Nat) (resolved : ResolvedObject), resolvedObjects[i]? = some resolved ∧
        k = start ++ toString i ∧ v = s.rememberedText resolved := by
  have hmem : ∀ {k v : String}, (k, v) ∈ resolvedObjects.zipIdx.map (fun entry =>
      (start ++ toString entry.2, s.rememberedText entry.1)) ↔
      ∃ (i : Nat) (resolved : ResolvedObject), resolvedObjects[i]? = some resolved ∧
        k = start ++ toString i ∧ v = s.rememberedText resolved := by
    intro k v
    rw [List.mem_map]
    constructor
    · rintro ⟨⟨resolved, i⟩, hi, heq⟩
      cases heq
      exact ⟨i, resolved, List.mem_zipIdx_iff_getElem?.mp hi, rfl, rfl⟩
    · rintro ⟨i, resolved, hi, rfl, rfl⟩
      exact ⟨(resolved, i), List.mem_zipIdx_iff_getElem?.mpr hi, rfl⟩
  constructor
  · intro h
    exact hmem.mp (SortedMap.mem_of_get?_ofList h)
  · rintro ⟨i, resolved, hi, rfl, rfl⟩
    obtain ⟨v, hv⟩ := SortedMap.exists_get?_ofList (hmem.mpr ⟨i, resolved, hi, rfl, rfl⟩)
    obtain ⟨j, other, hj, hkey, rfl⟩ := hmem.mp (SortedMap.mem_of_get?_ofList hv)
    have hdigits : Nat.toDigits 10 i = Nat.toDigits 10 j := by
      have hrepr : i.repr = j.repr := (String.append_right_inj start).mp hkey
      rw [← Nat.toList_repr, hrepr, Nat.toList_repr]
    obtain rfl : i = j := by
      rw [← Nat.ofDigitChars_ten_toDigits (n := i), hdigits, Nat.ofDigitChars_ten_toDigits]
    cases hi.symm.trans hj
    exact hv

section Remember

variable {S : Server} {scope : Scope} {remote : ObjectSide} {identifier : String} {w w' : World}

theorem hasPrefix_of_get?_annotations {start k v : String} {resolvedObjects : List ResolvedObject}
    (h : (s.relatedObjectAnnotations start resolvedObjects).get? k = some v) :
    hasPrefix k start = true := by
  obtain ⟨i, _, -, rfl, -⟩ := get?_relatedObjectAnnotations.mp h
  exact hasPrefix_append _ _

/-- The annotations of an identifier are those for the resolved objects, in their order. -/
def RemembersIn (s : ResourceSyncer) (identifier : String) (resolvedObjects : List ResolvedObject)
    (annotations : StringMap) : Prop :=
  ∀ k, hasPrefix k (rememberedStart identifier) = true → ∀ v, annotations.get? k = some v ↔
    ∃ (i : Nat) (resolved : ResolvedObject), resolvedObjects[i]? = some resolved ∧
      k = rememberedStart identifier ++ toString i ∧ v = s.rememberedText resolved

theorem remembersIn_iff {resolvedObjects : List ResolvedObject} {annotations : StringMap} :
    RemembersIn s identifier resolvedObjects annotations ↔
      ∀ k, hasPrefix k (rememberedStart identifier) = true → annotations.get? k =
        (s.relatedObjectAnnotations (rememberedStart identifier) resolvedObjects).get? k := by
  simp only [RemembersIn, ← get?_relatedObjectAnnotations]
  exact forall₂_congr fun k _ => ⟨fun h => Option.ext h, fun h v => by rw [h]⟩

/-- There is nothing to change exactly if the annotations are already there. -/
theorem unchanged_iff (hjson : ∀ f, s.libs.jsonText f ≠ "") {resolvedObjects : List ResolvedObject}
    {annotations : StringMap} :
    ((annotations.entries.any fun e => hasPrefix e.1 (rememberedStart identifier) &&
        ((s.relatedObjectAnnotations (rememberedStart identifier) resolvedObjects).get? e.1).isNone)
        ||
      (s.relatedObjectAnnotations (rememberedStart identifier) resolvedObjects).entries.any
        fun e => (annotations.get? e.1).getD "" ≠ e.2) = false ↔
    RemembersIn s identifier resolvedObjects annotations := by
  rw [remembersIn_iff]
  simp only [Bool.or_eq_false_iff, List.any_eq_false, Bool.and_eq_true, decide_eq_true_eq,
    Prod.forall, SortedMap.mem_entries, not_and, not_not, Option.isNone_iff_eq_none]
  constructor
  · rintro ⟨hno, hvalue⟩ k hk
    cases hdesired :
        (s.relatedObjectAnnotations (rememberedStart identifier) resolvedObjects).get? k with
    | none =>
      rw [Option.eq_none_iff_forall_ne_some]
      intro v hv
      exact hno k v hv hk hdesired
    | some v =>
      -- a missing annotation reads as the empty text, which is never wanted
      have hget := hvalue k v hdesired
      obtain ⟨_, resolved, -, -, rfl⟩ := get?_relatedObjectAnnotations.mp hdesired
      cases hann : annotations.get? k with
      | none =>
        rw [hann] at hget
        exact absurd hget.symm (hjson _)
      | some v' =>
        rw [hann] at hget
        exact congrArg some hget
  · intro hall
    refine ⟨fun k v hv hk hnone => ?_, fun k v hv => ?_⟩
    · cases hv.symm.trans ((hall k hk).trans hnone)
    · rw [hall k (hasPrefix_of_get?_annotations hv), hv]
      rfl

/-- The annotations that the primary object gets: those of the identifier are replaced. -/
theorem get?_replaced {resolvedObjects : List ResolvedObject}
    {annotations : StringMap} (k : String) :
    ((annotations.filterKeys fun k => !hasPrefix k (rememberedStart identifier)).insertAll
      (s.relatedObjectAnnotations (rememberedStart identifier) resolvedObjects)).get? k =
    if hasPrefix k (rememberedStart identifier) = true then
      (s.relatedObjectAnnotations (rememberedStart identifier) resolvedObjects).get? k
    else annotations.get? k := by
  rw [SortedMap.get?_insertAll, SortedMap.get?_filterKeys]
  by_cases hk : hasPrefix k (rememberedStart identifier) = true
  · simp [hk]
  · have hnone : (s.relatedObjectAnnotations (rememberedStart identifier) resolvedObjects).get? k =
        none := by
      rw [Option.eq_none_iff_forall_ne_some]
      exact fun v hv => hk (hasPrefix_of_get?_annotations hv)
    simp [hk, hnone]

/-- The primary object as it is stored, with the annotations of the identifier as they are in
memory. -/
structure Current (remote : ObjectSide) (identifier : String) (w : World) (cur : Unstructured) :
    Prop where
  stored : w.object? (remote.object.idOn remote.client) = some cur
  agrees : ∀ k, hasPrefix k (rememberedStart identifier) = true →
    cur.metadata.annotations.get? k = remote.object.metadata.annotations.get? k
  finalizers : cur.metadata.deletionTimestamp = none ∨ cur.metadata.finalizers ≠ []

theorem patch_annotations {cur : Unstructured} (hcur : Current remote identifier w cur)
    {D : MergeDiff} {annotations : StringMap}
    (hne : patchMap remote.object.metadata.annotations annotations cur.metadata.annotations ≠
      cur.metadata.annotations) :
    ∃ o w', Returns S (patchFrom D scope remote.client remote.object
        { remote.object with metadata.annotations := annotations }) w o w' ∧
      w'.object? (remote.object.idOn remote.client) = some o ∧
      o.metadata.annotations =
        patchMap remote.object.metadata.annotations annotations cur.metadata.annotations := by
  have hid := World.idOn_of_object? hcur.stored
  generalize hnew : patchMap remote.object.metadata.annotations annotations
    cur.metadata.annotations = new at hne ⊢
  have hstore : w.store remote.client cur (S.settle remote.client cur
      { cur with metadata.annotations := new }) = w.write remote.client
        (S.settle remote.client cur { cur with metadata.annotations := new }) := by
    rw [World.store, if_neg, if_neg]
    · rintro ⟨hdeleting, hnone⟩
      rcases hcur.finalizers with hlive | hsome
      · rw [Server.deletionTimestamp_settle, hlive] at hdeleting
        cases hdeleting
      · exact hsome hnone
    · intro heq
      exact hne (congrArg (fun o => o.metadata.annotations) heq)
  have hmerge := Unstructured.ofFields_merge_create D (a := remote.object)
    (b := { remote.object with metadata.annotations := annotations }) rfl cur
  rw [Unstructured.patched_annotations, hnew] at hmerge
  have hexec : exec S ⟨scope, .patch (remote.object.idOn remote.client)
      (D.create remote.object.toFields
        { remote.object with metadata.annotations := annotations }.toFields)⟩ w =
      (.ok (w.write remote.client
        (S.settle remote.client cur { cur with metadata.annotations := new })).1,
        (w.write remote.client
          (S.settle remote.client cur { cur with metadata.annotations := new })).2) := by
    simp only [exec, World.patchObject, hcur.stored, hmerge]
    refine (if_neg (not_not.mpr hid)).trans ((if_neg (by simp)).trans
      ((if_neg (by simp [Server.finalizersAllowed])).trans ?_))
    rw [← hstore]
    rfl
  refine ⟨_, _, .of_patch hexec, ?_, rfl⟩
  rw [← hid]
  simp [World.write, Unstructured.idOn, Server.settle]

/-- If the annotations are there already, nothing happens. -/
theorem remember_again (hjson : ∀ f, s.libs.jsonText f ≠ "") {resolvedObjects : List ResolvedObject}
    (h : RemembersIn s identifier resolvedObjects remote.object.metadata.annotations) :
    Returns S (s.rememberRelatedObjects scope remote identifier resolvedObjects) w false w := by
  unfold rememberRelatedObjects
  split
  · rfl
  · have hunchanged := (unchanged_iff hjson).mpr h
    rw [rememberedStart] at hunchanged
    dsimp only
    rw [hunchanged]
    rfl

theorem remember_changes (hjson : ∀ f, s.libs.jsonText f ≠ "")
    {resolvedObjects : List ResolvedObject}
    (hne : resolvedObjects ≠ []) {cur : Unstructured} (hcur : Current remote identifier w cur)
    (h : ¬ RemembersIn s identifier resolvedObjects remote.object.metadata.annotations) :
    ∃ primary w',
    Returns S (s.rememberRelatedObjects scope remote identifier resolvedObjects) w true
        w' ∧ w'.object? (remote.object.idOn remote.client) = some primary ∧
      ∀ k, primary.metadata.annotations.get? k =
        if hasPrefix k (rememberedStart identifier) = true then
          (s.relatedObjectAnnotations (rememberedStart identifier) resolvedObjects).get? k
        else cur.metadata.annotations.get? k := by
  generalize hnew : (remote.object.metadata.annotations.filterKeys
    fun k => !hasPrefix k (rememberedStart identifier)).insertAll
      (s.relatedObjectAnnotations (rememberedStart identifier) resolvedObjects) = new
  have hget : ∀ k, new.get? k = _ := fun k => hnew ▸ get?_replaced k
  obtain ⟨k₀, hk₀, hdiffers⟩ : ∃ k, hasPrefix k (rememberedStart identifier) = true ∧
      remote.object.metadata.annotations.get? k ≠
        (s.relatedObjectAnnotations (rememberedStart identifier) resolvedObjects).get? k := by
    simpa [remembersIn_iff] using h
  have hold : remote.object.metadata.annotations ≠ new := by
    intro heq
    apply hdiffers
    rw [heq, hget, if_pos hk₀]
  have hempty : new ≠ ∅ := by
    intro heq
    obtain ⟨first, rest, rfl⟩ := List.exists_cons_of_ne_nil hne
    have hfirst : (s.relatedObjectAnnotations (rememberedStart identifier) (first :: rest)).get?
        (rememberedStart identifier ++ toString 0) = some (s.rememberedText first) :=
      get?_relatedObjectAnnotations.mpr ⟨0, first, rfl, rfl, rfl⟩
    have hnone := hget (rememberedStart identifier ++ toString 0)
    rw [heq, if_pos (hasPrefix_append _ _), hfirst] at hnone
    cases hnone
  have hpatched : ∀ k, (patchMap remote.object.metadata.annotations new
      cur.metadata.annotations).get? k =
      if hasPrefix k (rememberedStart identifier) = true then
        (s.relatedObjectAnnotations (rememberedStart identifier) resolvedObjects).get? k
      else cur.metadata.annotations.get? k := by
    intro k
    rw [get?_patchMap, if_neg hold, if_neg hempty, hget]
    by_cases hk : hasPrefix k (rememberedStart identifier) = true
    · rw [if_pos hk, hcur.agrees k hk]
      split
      · next hsame => exact hsame
      · rfl
    · simp only [if_neg hk, if_true]
  have hcurrent : patchMap remote.object.metadata.annotations new cur.metadata.annotations ≠
      cur.metadata.annotations := by
    intro heq
    apply hdiffers
    rw [← hcur.agrees k₀ hk₀, ← heq, hpatched, if_pos hk₀]
  obtain ⟨primary, w', hpatch, hprimary, hann⟩ : ∃ o w', Returns S (patchFrom s.libs.diff scope
      remote.client remote.object { remote.object with metadata.annotations := new })
      w o w' ∧ _ ∧ _ :=
    patch_annotations hcur hcurrent
  refine ⟨primary, w', ?_, hprimary, fun k => hann ▸ hpatched k⟩
  have hchanged := mt (unchanged_iff hjson).mp h
  rw [Bool.not_eq_false, rememberedStart] at hchanged
  rw [rememberedStart] at hnew
  rw [rememberRelatedObjects, if_neg hne]
  dsimp only
  rw [hchanged, hnew, Returns]
  simp only [Bool.not_true, Bool.false_eq_true, if_false]
  rw [Fallible.eval_bind, wrap, Fallible.eval_mapError, hpatch]
  rfl

/-- The namespace and the name of an origin object, as one text. -/
def originKey (resolved : ResolvedObject) : String :=
  relatedCopyKey (objectKeyFromObject resolved.original)

theorem syncOrder_perm (found : List ResolvedObject) : (syncOrder found).Perm found :=
  List.perm_insertionSort _ _

theorem syncOrder_pairwise {found : List ResolvedObject} (h : (found.map originKey).Nodup) :
    (syncOrder found).Pairwise fun a b => originKey a < originKey b := by
  have hle : (syncOrder found).Pairwise fun a b => originKey a ≤ originKey b :=
    List.pairwise_insertionSort _ _
  have hne : (syncOrder found).Pairwise fun a b => originKey a ≠ originKey b :=
    List.pairwise_map.mp (((syncOrder_perm found).map originKey).nodup_iff.mpr h)
  exact hle.imp₂ (fun a b hab hne => lt_of_le_of_ne hab hne) hne

theorem syncOrder_eq_of_perm {found enumerated : List ResolvedObject}
    (h : (found.map originKey).Nodup) (hperm : enumerated.Perm found) :
    syncOrder enumerated = syncOrder found := by
  have hkeys : (enumerated.map originKey).Nodup := (hperm.map originKey).nodup_iff.mpr h
  refine List.Perm.eq_of_pairwise (fun a b _ _ hab hba => absurd hab (lt_asymm hba))
    (syncOrder_pairwise hkeys) (syncOrder_pairwise h) ?_
  exact ((syncOrder_perm enumerated).trans hperm).trans (syncOrder_perm found).symm

/-- What `rememberRelatedObjects` has made of the primary object. -/
structure Remembered (s : ResourceSyncer) (identifier : String)
    (resolvedObjects : List ResolvedObject) (cur primary : Unstructured)
    (requeue : Bool) : Prop where
  remembers : RemembersIn s identifier resolvedObjects primary.metadata.annotations
  others : ∀ k, hasPrefix k (rememberedStart identifier) = false →
    primary.metadata.annotations.get? k = cur.metadata.annotations.get? k
  otherIdentifiers : ∀ other, ValidIdentifier other → other ≠ identifier →
    ∀ k, hasPrefix k (rememberedStart other) = true →
      primary.metadata.annotations.get? k = cur.metadata.annotations.get? k
  requeue_iff : requeue = true ↔ primary.metadata.annotations ≠ cur.metadata.annotations

/-- The annotations of the primary object are exactly those for the related objects in sorted order,
whatever the order in which they were found; a second time, nothing changes. -/
theorem rememberRelatedObjects_exact (hjson : ∀ f, s.libs.jsonText f ≠ "")
    (hidentifier : ValidIdentifier identifier) {found : List ResolvedObject} (hne : found ≠ [])
    (hkeys : (found.map originKey).Nodup) {cur : Unstructured}
    (hcur : Current remote identifier w cur) :
    ∃ sorted requeue primary w', sorted.Perm found ∧
      sorted.Pairwise (fun a b => originKey a < originKey b) ∧
      (∀ enumerated, enumerated.Perm found → Returns S (s.rememberRelatedObjects scope remote
        identifier (syncOrder enumerated)) w requeue w') ∧
      w'.object? (remote.object.idOn remote.client) = some primary ∧
      Remembered s identifier sorted cur primary requeue ∧ (requeue = false → w' = w) ∧
      (∀ enumerated, enumerated.Perm found → Returns S (s.rememberRelatedObjects scope
        { remote with object := primary } identifier (syncOrder enumerated)) w' false w') ∧
      ∀ w, Returns S
        (s.rememberRelatedObjects scope remote identifier (syncOrder [])) w false w := by
  have horder : ∀ {enumerated : List ResolvedObject}, enumerated.Perm found →
      syncOrder enumerated = syncOrder found := syncOrder_eq_of_perm hkeys
  have hotherwise : ∀ {primary : Unstructured}, (∀ k,
      hasPrefix k (rememberedStart identifier) = false →
        primary.metadata.annotations.get? k = cur.metadata.annotations.get? k) →
      ∀ other, ValidIdentifier other → other ≠ identifier →
        ∀ k, hasPrefix k (rememberedStart other) = true →
          primary.metadata.annotations.get? k = cur.metadata.annotations.get? k := by
    intro primary hothers other hvalid hother k hk
    refine hothers k (Bool.eq_false_iff.mpr fun hboth => hother ?_)
    exact identifier_eq_of_hasPrefix hvalid hidentifier hk hboth
  by_cases h : RemembersIn s identifier (syncOrder found) remote.object.metadata.annotations
  · have hcurrent : RemembersIn s identifier (syncOrder found) cur.metadata.annotations :=
      fun k hk => by rw [hcur.agrees k hk]; exact h k hk
    refine ⟨syncOrder found, false, cur, w, syncOrder_perm found, syncOrder_pairwise hkeys, ?_,
      hcur.stored, ⟨hcurrent, fun _ _ => rfl, fun _ _ _ _ _ => rfl, by simp⟩, fun _ => rfl, ?_,
      fun _ => rfl⟩
    · intro enumerated hperm
      rw [horder hperm]
      exact remember_again hjson h
    · intro enumerated hperm
      rw [horder hperm]
      exact remember_again hjson hcurrent
  · have hsorted : syncOrder found ≠ [] := fun hnil =>
      hne (List.perm_nil.mp (hnil ▸ (syncOrder_perm found).symm))
    obtain ⟨primary, w', hreturns, hprimary, hget⟩ : ∃ primary w', Returns S
        (s.rememberRelatedObjects scope remote identifier (syncOrder found)) w true w' ∧ _ ∧ _ :=
      remember_changes hjson hsorted hcur h
    have hremembers : RemembersIn s identifier (syncOrder found) primary.metadata.annotations :=
      remembersIn_iff.mpr fun k hk => by rw [hget, if_pos hk]
    have hothers : ∀ k, hasPrefix k (rememberedStart identifier) = false →
        primary.metadata.annotations.get? k = cur.metadata.annotations.get? k :=
      fun k hk => by rw [hget, if_neg (by simp [hk])]
    have hdiffers : primary.metadata.annotations ≠ cur.metadata.annotations := by
      intro heq
      refine h fun k hk => ?_
      rw [← hcur.agrees k hk, ← heq]
      exact hremembers k hk
    refine ⟨syncOrder found, true, primary, w', syncOrder_perm found, syncOrder_pairwise hkeys, ?_,
      hprimary, ⟨hremembers, hothers, hotherwise hothers, by simp [hdiffers]⟩, by simp, ?_,
      fun _ => rfl⟩
    · intro enumerated hperm
      rw [horder hperm]
      exact hreturns
    · intro enumerated hperm
      rw [horder hperm]
      exact remember_again hjson hremembers

end Remember

/-- A Secret with its copy of the same name. -/
def related (name : String) : ResolvedObject :=
  ⟨⟨.secret, { name, ns := "tenant" }, default⟩, ⟨"team-a", name⟩⟩

/-- The sample object, with an annotation for a third related object. -/
def remembering : ObjectSide :=
  ⟨remoteSide "c1" "root", { crontab "team-a" with
    metadata.annotations := SortedMap.insert ∅ (rememberedStart "creds" ++ "2") "null" }⟩

theorem remembering_current : Current remembering "creds"
    (World.empty.put remembering.client remembering.object) remembering.object :=
  ⟨by rw [World.object?_put, if_pos rfl], fun _ _ => rfl, .inl rfl⟩

theorem rememberRelatedObjects_exact_secrets :
    ∃ sorted requeue primary w', sorted.Perm [related "tls", related "creds"] ∧
      sorted.Pairwise (fun a b => originKey a < originKey b) ∧
      (∀ enumerated, enumerated.Perm [related "tls", related "creds"] →
        Returns .setting ((Primary.sample []).syncer.rememberRelatedObjects
          ⟨"c1", "team-a", "daily", none⟩ remembering
          "creds" (syncOrder enumerated))
          (World.empty.put remembering.client remembering.object) requeue w') ∧
      w'.object? (remembering.object.idOn remembering.client) = some primary ∧
      Remembered (Primary.sample []).syncer "creds" sorted remembering.object primary requeue ∧
      (requeue = false → w' = World.empty.put remembering.client remembering.object) ∧
      (∀ enumerated, enumerated.Perm [related "tls", related "creds"] →
        Returns .setting
        ((Primary.sample []).syncer.rememberRelatedObjects ⟨"c1", "team-a", "daily", none⟩
          { remembering with object := primary } "creds" (syncOrder enumerated)) w' false w') ∧
      ∀ w, Returns .setting ((Primary.sample []).syncer.rememberRelatedObjects
        ⟨"c1", "team-a", "daily", none⟩ remembering
        "creds" (syncOrder [])) w false w := by
  have hidentifier : ValidIdentifier "creds" := by
    unfold ValidIdentifier
    decide
  exact rememberRelatedObjects_exact refText_ne hidentifier
    (List.cons_ne_nil _ _) (by decide +kernel)
    remembering_current

/-! ### Where the annotations lead -/

/-- What an annotation for a related object says. -/
structure ObjectRef where
  typeMeta : TypeMeta
  ns : String
  name : String

def ObjectRef.fields (ref : ObjectRef) : Fields :=
  SortedMap.ofOptions [
    ("apiVersion", some (.str ref.typeMeta.apiVersion)),
    ("kind", some (.str ref.typeMeta.kind)),
    ("name", some (.str ref.name)),
    ("namespace", if ref.ns = "" then none else some (.str ref.ns))] referenceKeys_sorted

def ObjectRef.idOn (ref : ObjectRef) (client : Client) : ObjectId :=
  ⟨client, ref.typeMeta, ref.ns, ref.name⟩

/-- The value of an annotation leads to the copy of a resolved object. -/
def LeadsToCopy (s : ResourceSyncer) (client : Client) (relRes : RelatedResourceSpec)
    (resolved : ResolvedObject) (w : World) (value : String) : Prop :=
  ∃ (ref : ObjectRef) (gvk : TypeMeta), value = s.libs.jsonText ref.fields ∧
    s.libs.kindFor client relRes.projectedGVR = .ok gvk ∧
    ref.idOn client = ⟨client, gvk, resolved.destination.ns, resolved.destination.name⟩ ∧
    (w.object? (ref.idOn client)).isSome = true

section Surviving

variable {S : Server} {L : Libraries} {scope : Scope} {σ : ObjectSyncer}
  {sourceSide destSide : SyncSide} {source dest : Unstructured} {w w' : World}

theorem ensuresNamespace_survive {client : Client} {ns : String}
    (h : ObjectSyncer.EnsuresNamespace scope client ns w w') : w.Survive w' := by
  rcases h with ⟨rfl, -⟩ | ⟨-, o, -, -, -, hadds⟩
  · exact .refl _
  · exact hadds.survive

theorem forwardOutcome_survive (h : σ.ForwardOutcome S scope destSide source dest w w')
    (hw : w.Held) : w.Survive w' := by
  cases h with
  | off => exact .refl _
  | same => exact .refl _
  | written _ _ hwritten => exact World.survive_updateStatus (.inl hwritten) hw
  | missing _ _ hmissing => exact World.survive_updateStatus (.inl hmissing) hw

theorem applied_survive {w₁ : World} {client : Client}
    {obj o : Unstructured} {fieldManager : String}
    {ns : String} (hns : ObjectSyncer.EnsuresNamespace scope client ns w w₁)
    (hobj : obj.metadata.ns = ns)
    (h : exec S ⟨scope, .apply client obj fieldManager⟩ w₁ = (.ok o, w')) (hw : w.Held) :
    w.Survive w' ∧ (w'.object? (obj.idOn client)).isSome = true := by
  rcases World.Does.apply (.inl h) with ⟨e, he, -⟩ | ⟨o, -, ho, hadds⟩ | ⟨cur, o, hcur, -, hrew⟩
  · cases he
  · refine ⟨(ensuresNamespace_survive hns).trans hadds.survive, ?_⟩
    rw [hadds.objects, if_pos (by rw [ho]; rfl)]
    rfl
  · have hheld := hw _ cur ((hns.object?_of_ns hobj).symm.trans hcur)
    exact ⟨(ensuresNamespace_survive hns).trans (hrew.survive hheld rfl rfl),
      hrew.isSome hheld rfl rfl⟩

theorem created_idOn {R : RelatedSync} {destObj : Unstructured}
    (h : R.objectSyncer.destCreator source = .ok destObj) :
    destObj.idOn R.destSide.client = R.copyId := by
  cases h
  rfl

theorem payload_idOn {R : RelatedSync} {destObj : Unstructured}
    (h : R.objectSyncer.destCreator source = .ok destObj) :
    (R.objectSyncer.applyPayload R.syncer.libs R.sourceSide source destObj).idOn R.destSide.client =
      R.copyId := by
  obtain ⟨hid, -⟩ :=
    ObjectSyncer.newDestination_rest R.syncer.libs R.objectSyncer R.sourceSide source
    destObj
  rw [← created_idOn h, ← hid, ObjectSyncer.applyPayload, ObjectSyncer.removeSubresources]
  rfl

theorem run_survive {R : RelatedSync} (h : Returns R.server R.run w false w') (hw : w.Held) :
    w.Survive w' ∧ (¬ R.objectSyncer.Deleting R.resolved.original →
      (w'.object? R.copyId).isSome = true) := by
  obtain ⟨source', hsync⟩ := RelatedSync.run_returns h
  generalize hdest : w.object? R.copyId = dest at hsync
  by_cases hdel : R.objectSyncer.Deleting R.resolved.original
  · cases ObjectSyncer.sync_deleting_returns hdel hsync with
    | ignored => exact ⟨.refl _, fun hlive => absurd hdel hlive⟩
    | free => exact ⟨.refl _, fun hlive => absurd hdel hlive⟩
  · have hexisted : ∀ {mutated d' : Unstructured}, R.objectSyncer.applyMutations R.resolved.original
        dest = .ok (mutated, some d') → (w.object? R.copyId).isSome = true := by
      intro mutated d' hmutations
      obtain ⟨d, rfl⟩ := ObjectSyncer.exists_of_applyMutations hmutations
      rw [hdest]
      rfl
    cases ObjectSyncer.sync_returns hdel hsync with
    | synced _ hmutations hmutated =>
      cases hmutated with
      | skipped => exact ⟨.refl _, fun _ => hexisted hmutations⟩
      | unchanged _ _ _ hspec hforward hstatus =>
        cases hspec with
        | clean =>
          obtain rfl := hstatus.eq_of_off rfl
          have hsurvive := forwardOutcome_survive hforward hw
          exact ⟨hsurvive, fun _ => hsurvive _ (hexisted hmutations)⟩
      | applied _ _ hcreator hns happly hend =>
        have hid := payload_idOn hcreator
        have hcreated : _ = R.copyId := created_idOn hcreator
        have hsurvive := applied_survive hns
          ((congrArg ObjectId.ns hid).trans (congrArg ObjectId.ns hcreated).symm) happly hw
        rw [hid] at hsurvive
        rcases hend with ⟨-, -, rfl⟩ | ⟨-, hstatus⟩
        · exact ⟨hsurvive.1, fun _ => hsurvive.2⟩
        · obtain rfl := hstatus.eq_of_off rfl
          exact ⟨hsurvive.1, fun _ => hsurvive.2⟩
      | notApplied _ _ _ hns =>
        have hsurvive := ensuresNamespace_survive hns
        exact ⟨hsurvive, fun _ => hsurvive _ (hexisted hmutations)⟩

end Surviving

section Leading

variable {S : Server} {scope : Scope} {stateStore : KubernetesBackend} {remote local' : ObjectSide}
  {relRes : RelatedResourceSpec} {primaryDeleting : Bool} {w w' : World}

theorem each_survive (hsides : remote.client ≠ local'.client) {projectedGVK : TypeMeta}
    {resolvedObjects : List ResolvedObject}
    (h : Returns.Each S (s.syncResolved { scope with identifier := some relRes.identifier }
      stateStore remote (relatedSides remote local' relRes).1.toSyncSide
      (relatedSides remote local' relRes).2.toSyncSide relRes primaryDeleting projectedGVK)
      resolvedObjects w (resolvedObjects.map fun _ => false) w') (hw : w.Held) :
    w'.Held ∧ w.Survive w' ∧ ∀ resolved ∈ resolvedObjects,
      resolved.original.metadata.deletionTimestamp = none →
      forceDelete relRes primaryDeleting = false →
      (w'.object? ⟨(relatedSides remote local' relRes).2.client, projectedGVK,
        resolved.destination.ns, resolved.destination.name⟩).isSome = true := by
  induction resolvedObjects generalizing w with
  | nil =>
    cases h
    exact ⟨hw, .refl _, fun _ h => by cases h⟩
  | cons resolved rest ih =>
    cases h with
    | @cons _ _ _ _ _ w₁ _ hfirst hrest =>
      have hheld₁ : w₁.Held := hfirst.held hw
      obtain ⟨hsurvive, hcopy⟩ := run_survive (R := relatedSync hsides S s scope stateStore relRes
        primaryDeleting projectedGVK resolved) hfirst hw
      obtain ⟨hheld, hothers, hall⟩ := ih hrest hheld₁
      refine ⟨hheld, hsurvive.trans hothers, List.forall_mem_cons.mpr
        ⟨fun hlive hforce => ?_, hall⟩⟩
      refine hothers _ (hcopy ?_)
      rintro (hdeleting | hforced)
      · have hsome : resolved.original.metadata.deletionTimestamp.isSome = true := hdeleting
        rw [hlive] at hsome
        cases hsome
      · cases hforce.symm.trans hforced

theorem processed_survive (hsides : remote.client ≠ local'.client) {found : List ResolvedObject}
    {projectedGVK : TypeMeta} {w₁ w₂ : World}
    (h : Processed S s scope stateStore remote local' relRes primaryDeleting found projectedGVK w w₁
      w₂ w') (hw : w.Held) :
    w.Survive w' ∧ ∀ resolved ∈ found, resolved.original.metadata.deletionTimestamp = none →
      forceDelete relRes primaryDeleting = false →
      (w'.object? ⟨(relatedSides remote local' relRes).2.client, projectedGVK,
        resolved.destination.ns, resolved.destination.name⟩).isSome = true := by
  obtain ⟨selectors, rfl⟩ :=
    h.resolved.of_reads (.mono resolveRelatedResourceObjects_allCalls fun c hc => hc.read)
  obtain ⟨-, selectors', rfl⟩ := cleanUpRelatedCopies_false h.cleaned
  obtain ⟨-, hsurvive, hcopies⟩ := each_survive hsides h.synced hw
  exact ⟨hsurvive, fun resolved hresolved =>
    hcopies resolved ((syncOrder_perm found).mem_iff.mpr hresolved)⟩

theorem related_survive (hsides : remote.client ≠ local'.client)
    {related : List RelatedResourceSpec}
    (h : Returns.Each S (fun relRes =>
      s.processRelatedResource scope stateStore remote local' relRes primaryDeleting) related w
      (related.map fun _ => false) w') (hw : w.Held) : w.Survive w' := by
  induction related generalizing w with
  | nil =>
    cases h
    exact .refl _
  | cons relRes rest ih =>
    cases h with
    | cons hfirst hrest =>
      obtain ⟨found, projectedGVK, w₁, w₂, hprocessed⟩ := processRelatedResource_false hfirst
      exact (processed_survive hsides hprocessed hw).1.trans (ih hrest (hfirst.held hw))

/-- If nothing was to be remembered, the annotations are already there. -/
theorem remembersIn_of_false (hjson : ∀ f, s.libs.jsonText f ≠ "") {identifier : String}
    {resolvedObjects : List ResolvedObject} (hne : resolvedObjects ≠ [])
    (h : Returns S (s.rememberRelatedObjects scope remote identifier resolvedObjects) w false w') :
    RemembersIn s identifier resolvedObjects remote.object.metadata.annotations := by
  rw [rememberRelatedObjects, if_neg hne] at h
  dsimp only at h
  split at h
  · next hunchanged =>
    rw [Bool.not_eq_true'] at hunchanged
    exact (unchanged_iff hjson).mp hunchanged
  · obtain ⟨_, _, -, hend⟩ := h.bind
    cases hend.pure.1

/-- `Process` has come to a related resource: there is one local object, it was synced, and the
related resources before this one were processed, all without a requeue. -/
structure Reaches (S : Server) (s : ResourceSyncer) (clusterName workspacePath : String)
    (r : Unstructured) (w : World) (relRes : RelatedResourceSpec)
    (l r₁ : Unstructured) (w₁ : World) :
    Prop where
  copies : s.copies clusterName workspacePath r w = [l]
  reached : ∃ w₀ before after, Returns S ((s.syncerOf clusterName workspacePath r).sync s.libs
      (primaryScope clusterName r) (remoteSide clusterName workspacePath) localSide r (some l)) w
      (false, r₁) w₀ ∧ s.pubRes.related = before ++ relRes :: after ∧
    Returns.Each S (fun relRes => s.processRelatedResource (primaryScope clusterName r)
      (s.stateStore clusterName workspacePath r) ⟨remoteSide clusterName workspacePath, r₁⟩
      ⟨localSide, l⟩ relRes false) before w₀ (before.map fun _ => false) w₁

variable {clusterName workspacePath : String} {r l r₁ : Unstructured} {w₁ w₂ : World}
  {found : List ResolvedObject}

/-- When `Process` asks for no requeue, this related resource was processed, and so were those after
it. -/
theorem Reaches.processed (hreach : Reaches S s clusterName workspacePath r w relRes l r₁ w₁)
    (hlive : r.metadata.deletionTimestamp = none)
    (h : Returns S (s.process clusterName workspacePath r) w false w') (hw : w.Held) :
    w₁.Held ∧ ∃ w₂, Returns S (s.processRelatedResource (primaryScope clusterName r)
      (s.stateStore clusterName workspacePath r) ⟨remoteSide clusterName workspacePath, r₁⟩
      ⟨localSide, l⟩ relRes false) w₁ false w₂ ∧ w₂.Survive w' := by
  obtain ⟨w₀, before, after, hsync, hrelated, hbefore⟩ := hreach.reached
  have hheld₁ : w₁.Held := hbefore.held (hsync.held hw)
  rcases process_false hlive h with ⟨hnone, -⟩ | ⟨l', r₁', w₀', hcopies, hsync', heach⟩
  · cases hreach.copies.symm.trans hnone
  · cases hreach.copies.symm.trans hcopies
    obtain ⟨heq, rfl⟩ := hsync.unique hsync'
    cases heq
    rw [hrelated] at heach
    obtain ⟨w₂, hfirst, hafter⟩ := heach.split hbefore
    exact ⟨hheld₁, w₂, hfirst, related_survive (by rintro ⟨⟩) hafter (hfirst.held hheld₁)⟩

/-- What the annotation for a resolved object says. -/
def refOf (resolved : ResolvedObject) : ObjectRef :=
  ⟨resolved.original.typeMeta, resolved.destination.ns, resolved.destination.name⟩

end Leading

namespace LeadSample

theorem refText_injective : Function.Injective fun ref : ObjectRef => refText ref.fields := by
  have hfields : ∀ ref : ObjectRef,
      textField ref.fields "apiVersion" = ref.typeMeta.apiVersion.toList ∧
      textField ref.fields "kind" = ref.typeMeta.kind.toList ∧
      textField ref.fields "name" = ref.name.toList ∧
      textField ref.fields "namespace" = ref.ns.toList := by
    intro ref
    simp only [textField, ObjectRef.fields, SortedMap.get?_ofOptions]
    refine ⟨rfl, rfl, rfl, ?_⟩
    by_cases hns : ref.ns = ""
    · simp [Assoc.get?, hns]
    · simp [Assoc.get?, hns]
  intro a b h
  obtain ⟨happi, hrest⟩ := joinTexts_inj (String.ofList_inj.mp h)
  obtain ⟨hkind, hrest⟩ := joinTexts_inj hrest
  obtain ⟨hname, hns⟩ := joinTexts_inj hrest
  obtain ⟨ha₁, ha₂, ha₃, ha₄⟩ := hfields a
  obtain ⟨hb₁, hb₂, hb₃, hb₄⟩ := hfields b
  obtain ⟨⟨apiVersion, kind, _⟩, ns, name⟩ := a
  obtain ⟨⟨apiVersion', kind', _⟩, ns', name'⟩ := b
  obtain rfl : apiVersion = apiVersion' := String.toList_inj.mp (ha₁.symm.trans (happi.trans hb₁))
  obtain rfl : kind = kind' := String.toList_inj.mp (ha₂.symm.trans (hkind.trans hb₂))
  obtain rfl : name = name' := String.toList_inj.mp (ha₃.symm.trans (hname.trans hb₃))
  obtain rfl : ns = ns' := String.toList_inj.mp (ha₄.symm.trans (hns.trans hb₄))
  rfl

/-- A Secret of the service cluster. -/
def serviceCreds : RelatedResourceSpec :=
  { identifier := "creds", origin := .service, kind := "Secret"
    object := { object := { template := some ⟨"creds"⟩ } } }

/-- The sample syncer with the Secret, which has the given type in kcp. -/
def leading (type : TypeMeta) : ResourceSyncer :=
  { (Primary.sample [serviceCreds]).syncer with
    libs := { Libraries.sample with
      kindFor := fun client _ => .ok (if client = .localClient then .secret else type) } }

/-- The Secret on the service cluster. -/
def credsSecret : Unstructured := ⟨.secret, { name := "creds", ns := "tenant" }, default⟩

def credsResolved : ResolvedObject := ⟨credsSecret, ⟨"team-a", "creds"⟩⟩

/-- The sample and its Secret after two calls of `Process`. -/
def leadWorld (type : TypeMeta) : World :=
  let pass (w : World) : World := (w.object? (Primary.sample []).id).elim w fun r =>
    (Fallible.eval (exec .setting) ((leading type).process "c1" "root" r) w).2
  pass (pass ((Primary.sampleWorld ∅ default).put .localClient credsSecret))

/-- What the third call does. -/
def leadTest (type : TypeMeta) : Bool :=
  ((leadWorld type).objects.entries.all fun e => e.2.metadata.deletionTimestamp.isNone) &&
  ((leadWorld type).object? (Primary.sample []).id).any fun r =>
    decide ((Fallible.eval (exec .setting) ((leading type).process "c1" "root" r)
      (leadWorld type)).1.toOption = some false) &&
    decide (r.metadata.annotations.get? (rememberedStart "creds" ++ toString 0) =
      some ((leading type).rememberedText credsResolved)) &&
    decide (((leading type).copies "c1" "root" r (leadWorld type)).length = 1) &&
    ((leading type).copies "c1" "root" r (leadWorld type)).all fun l =>
      let synced := Fallible.eval (exec .setting) (((leading type).syncerOf "c1" "root" r).sync
        (leading type).libs (primaryScope "c1" r) (remoteSide "c1" "root") localSide r (some l))
        (leadWorld type)
      decide (synced.1.toOption = some (false, r)) &&
      decide ((Fallible.eval (exec .setting) (resolveRelatedResourceObjects (leading type).libs
        ⟨localSide, l⟩ ⟨remoteSide "c1" "root", r⟩
        { primaryScope "c1" r with identifier := some "creds" } false serviceCreds)
        synced.2).1.toOption = some [credsResolved])

/-- The third call asks for no requeue, and has resolved the Secret. -/
structure Third (type : TypeMeta) (r l : Unstructured) (w' w₁ w₂ : World) : Prop where
  held : (leadWorld type).Held
  live : r.metadata.deletionTimestamp = none
  returns : Returns .setting ((leading type).process "c1" "root" r) (leadWorld type) false w'
  reaches : Reaches .setting (leading type) "c1" "root" r (leadWorld type) serviceCreds l r w₁
  resolved : Returns .setting (resolveRelatedResourceObjects (leading type).libs ⟨localSide, l⟩
    ⟨remoteSide "c1" "root", r⟩ { primaryScope "c1" r with identifier := some "creds" } false
    serviceCreds) w₁ [credsResolved] w₂
  annotated : r.metadata.annotations.get? (rememberedStart "creds" ++ toString 0) =
    some ((leading type).rememberedText credsResolved)

theorem exists_third {type : TypeMeta} (htest : leadTest type = true) :
    ∃ r l w' w₁ w₂, Third type r l w' w₁ w₂ := by
  rw [leadTest, Bool.and_eq_true, Option.any_eq_true] at htest
  obtain ⟨hlive, r, hr, htest⟩ := htest
  simp only [Bool.and_eq_true, decide_eq_true_eq] at htest
  obtain ⟨⟨⟨hprocess, hannotated⟩, hlength⟩, hcopies⟩ := htest
  have hnone : ∀ id o, (leadWorld type).object? id = some o →
      o.metadata.deletionTimestamp = none := by
    intro id o ho
    simpa using List.all_eq_true.mp hlive ⟨id, o⟩ (AList.mem_lookup_iff.mp ho)
  obtain ⟨l, hl⟩ := List.length_eq_one_iff.mp hlength
  rw [hl] at hcopies
  simp only [List.all_cons, List.all_nil, Bool.and_true, Bool.and_eq_true, decide_eq_true_eq]
    at hcopies
  obtain ⟨hsync, hresolve⟩ := hcopies
  refine ⟨r, l, _, _, _, fun id o ho hdeleting => ?_, hnone _ r hr,
    .of_eval (Returns.ok_of_toOption hprocess),
    ⟨hl, _, [], [], .of_eval (Returns.ok_of_toOption hsync), rfl, .nil⟩,
    .of_eval (Returns.ok_of_toOption hresolve), hannotated⟩
  rw [hnone id o ho] at hdeleting
  cases hdeleting

end LeadSample

end ResourceSyncer

end Sync
