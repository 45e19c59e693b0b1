import SyncAgent.Sync.RelatedCalls
import SyncAgent.Sync.StatusBack

/-! The copies of related objects and the metadata that links the copy of a primary object to its
original: no write of a sync of a related object puts such labels or annotations on an object, in
any run in which the read before the sync does not miss the copy. -/

namespace Sync

open Kube

/-- The annotations that link a copy to a primary object; the labels are the `unsyncableLabels`. -/
def linkAnnotations : List String :=
  [ remoteObjectNamespaceAnnotation, remoteObjectNameAnnotation,
    remoteObjectWorkspacePathAnnotation]

/-- Every entry of `m` under one of the keys is in `m'`. -/
def Within (keys : List String) (m m' : StringMap) : Prop :=
  ∀ k ∈ keys, ∀ v, m.get? k = some v → m'.get? k = some v

namespace Within

variable {keys : List String} {a b c : StringMap}

theorem refl (m : StringMap) : Within keys m m := fun _ _ _ h => h

theorem insertAll (h : ∀ k ∈ keys, b.get? k = none) : Within keys (a.insertAll b) a := by
  intro k hk v hv
  rw [SortedMap.get?_insertAll, h k hk] at hv
  simpa using hv

theorem of_patchMap (h : ∀ k ∈ keys, b.get? k = none ∨ a.get? k = b.get? k) :
    Within keys (patchMap a b c) c := by
  intro k hk v hv
  rw [get?_patchMap] at hv
  split at hv
  · exact hv
  · split at hv
    · cases hv
    · split at hv
      · exact hv
      · next hdiffer =>
        rcases h k hk with hnone | hsame
        · cases hnone.symm.trans hv
        · exact absurd hsame hdiffer

theorem eq_none (h : Within keys a ∅) : ∀ k ∈ keys, a.get? k = none :=
  fun k hk => Option.eq_none_iff_forall_ne_some.mpr fun v hv => by cases h k hk v hv

theorem of_applied {cur : Option Unstructured} {entries : Unstructured → StringMap}
    (h : ∀ k v, a.get? k = some v → b.get? k = some v ∨
      ∃ o, cur = some o ∧ (entries o).get? k = some v)
    (hb : ∀ k ∈ keys, b.get? k = none) : Within keys a (cur.elim ∅ entries) := by
  intro k hk v hv
  rcases h k v hv with hpayload | ⟨o, rfl, ho⟩
  · cases (hb k hk).symm.trans hpayload
  · exact ho

end Within

/-- The metadata `m` has no link entry that `m'` does not have. -/
structure LinksWithin (m m' : ObjectMeta) : Prop where
  labels : Within unsyncableLabels m.labels m'.labels
  annotations : Within linkAnnotations m.annotations m'.annotations

/-- The metadata has no link entry. -/
structure Unlinked (m : ObjectMeta) : Prop where
  labels : ∀ k ∈ unsyncableLabels, m.labels.get? k = none
  annotations : ∀ k ∈ linkAnnotations, m.annotations.get? k = none

theorem Unlinked.of_within {m m' : ObjectMeta} (h : LinksWithin m m') (h' : Unlinked m') :
    Unlinked m where
  labels k hk := Option.eq_none_iff_forall_ne_some.mpr fun v hv => by
    cases (h'.labels k hk).symm.trans (h.labels k hk v hv)
  annotations k hk := Option.eq_none_iff_forall_ne_some.mpr fun v hv => by
    cases (h'.annotations k hk).symm.trans (h.annotations k hk v hv)

/-- No object has got a link entry that it did not have before. -/
def KeepsUnlinked (w w' : World) : Prop :=
  ∀ id o', w'.object? id = some o' →
    (w.object? id).elim (Unlinked o'.metadata) fun o => LinksWithin o'.metadata o.metadata

namespace KeepsUnlinked

variable {S : Server} {w w' : World} {c : Call} {scope : Scope} {client : Client}

theorem of_objects (h : ∀ id, w'.object? id = w.object? id) : KeepsUnlinked w w' := by
  intro id o' ho'
  rw [h id] at ho'
  rw [ho']
  exact ⟨.refl _, .refl _⟩

theorem refl (w : World) : KeepsUnlinked w w := of_objects fun _ => rfl

theorem of_adds {o : Unstructured} (h : w.Adds client scope o w') (ho : Unlinked o.metadata) :
    KeepsUnlinked w w' := by
  intro id o' ho'
  rw [h.objects] at ho'
  split at ho'
  · next hid =>
    cases ho'
    rw [hid, h.fresh]
    exact ho
  · rw [ho']
    exact ⟨.refl _, .refl _⟩

theorem of_rewrites {id : ObjectId} {cur next o : Unstructured} (h : w.Rewrites id next o w')
    (hcur : w.object? id = some cur) (hnext : LinksWithin next.metadata cur.metadata) :
    KeepsUnlinked w w' := by
  intro id' o' ho'
  rcases h.object_cases ho' with ⟨rfl, rfl⟩ | ⟨-, hold⟩
  · rw [hcur]
    obtain ⟨rv, rfl⟩ := h.becomes.version
    exact ⟨hnext.labels, hnext.annotations⟩
  · rw [hold]
    exact ⟨.refl _, .refl _⟩

end KeepsUnlinked

variable {S : Server} {w w' : World} {scope : Scope} {client : Client} {obj : Unstructured}

/-- A call that puts no link entry on any object. -/
def Unlinking (S : Server) (c : Call) (w : World) : Prop :=
  ∀ r w', World.Does S c w r w' → KeepsUnlinked w w'

theorem unlinking_of_target {c : Call} (hc : c.verb.target = none) : Unlinking S c w := by
  intro r w' hd
  refine .of_objects fun id => hd.frames.objects id ?_
  rw [hc]
  rintro ⟨⟩

theorem unlinking_create (hobj : Unlinked obj.metadata) :
    Unlinking S ⟨scope, .create client obj⟩ w := by
  intro r w' hd
  rcases World.Does.create hd with ⟨e, -, rfl, -⟩ | ⟨o, -, rfl, hadds⟩
  · exact .refl w'
  · exact .of_adds hadds ⟨hobj.labels, hobj.annotations⟩

theorem unlinking_update (hobj : ∀ cur, w.object? (obj.idOn client) = some cur →
      obj.metadata.resourceVersion = cur.metadata.resourceVersion →
      LinksWithin obj.metadata cur.metadata) : Unlinking S ⟨scope, .update client obj⟩ w := by
  intro r w' hd
  rcases World.Does.update hd with ⟨e, -, rfl⟩ | ⟨cur, o, hcur, -, hversion, -, hrewrites⟩
  · exact .refl w'
  · have hlinks := hobj cur hcur hversion
    exact .of_rewrites hrewrites hcur ⟨hlinks.labels, hlinks.annotations⟩

theorem unlinking_updateStatus : Unlinking S ⟨scope, .updateStatus client obj⟩ w := by
  intro r w' hd
  rcases World.Does.updateStatus hd with ⟨e, -, rfl⟩ | ⟨cur, o, hcur, -, -, -, hrewrites⟩
  · exact .refl w'
  · exact .of_rewrites hrewrites hcur ⟨.refl _, .refl _⟩

theorem unlinking_patch {D : MergeDiff} {a b : Unstructured} (hab : a.typeMeta = b.typeMeta)
    {id : ObjectId}
    (hlabels : ∀ k ∈ unsyncableLabels, b.metadata.labels.get? k = none ∨
      a.metadata.labels.get? k = b.metadata.labels.get? k)
    (hannotations : ∀ k ∈ linkAnnotations, b.metadata.annotations.get? k = none ∨
      a.metadata.annotations.get? k = b.metadata.annotations.get? k) :
    Unlinking S ⟨scope, .patch id (D.create a.toFields b.toFields)⟩ w := by
  intro r w' hd
  rcases World.Does.patch_create hab hd with ⟨e, -, rfl⟩ | ⟨cur, o, hcur, -, -, -, hrewrites⟩
  · exact .refl w'
  · exact .of_rewrites hrewrites hcur ⟨.of_patchMap hlabels, .of_patchMap hannotations⟩

theorem unlinking_delete {id : ObjectId} {policy : DeletionPropagation} :
    Unlinking S ⟨scope, .delete id policy⟩ w := by
  intro r w' hd
  rcases World.Does.delete hd with ⟨e, -, rfl, -⟩ | ⟨cur, hcur, -, hkeeps, hdying⟩
  · exact .refl w'
  · intro id' o' ho'
    obtain ⟨o, finalizers, time, rv, hold, rfl⟩ := hdying.before hkeeps hcur ho'
    rw [hold]
    exact ⟨.refl _, .refl _⟩

/-- A server-side apply sets the labels and annotations of the payload and no others. -/
structure AppliesOnly (S : Server) : Prop where
  labels :
    ∀ fieldManager cur payload k v, (S.applied fieldManager cur payload).labels.get? k = some v →
    payload.metadata.labels.get? k = some v ∨ ∃ o, cur = some o ∧ o.metadata.labels.get? k = some v
  annotations : ∀ fieldManager cur payload k v,
    (S.applied fieldManager cur payload).annotations.get? k = some v →
    payload.metadata.annotations.get? k = some v ∨
      ∃ o, cur = some o ∧ o.metadata.annotations.get? k = some v

theorem appliesOnly_setting : AppliesOnly .setting := by
  have hentries :
      ∀ (cur : Option Unstructured) (entries : Unstructured → StringMap) (m : StringMap) k v,
      ((cur.elim ∅ entries).insertAll m).get? k = some v →
      m.get? k = some v ∨ ∃ o, cur = some o ∧ (entries o).get? k = some v := by
    intro cur entries m k v h
    rw [SortedMap.get?_insertAll, Option.or_eq_some_iff] at h
    rcases h with h | ⟨-, h⟩
    · exact .inl h
    · cases cur with
      | none => cases h
      | some o => exact .inr ⟨o, rfl, h⟩
  exact ⟨fun _ cur payload => hentries cur (·.metadata.labels) payload.metadata.labels,
    fun _ cur payload => hentries cur (·.metadata.annotations) payload.metadata.annotations⟩

theorem unlinking_apply (hS : AppliesOnly S) (hobj : Unlinked obj.metadata)
    {fieldManager : String} :
    Unlinking S ⟨scope, .apply client obj fieldManager⟩ w := by
  intro r w' hd
  have hlinks : ∀ cur, Within unsyncableLabels (S.applied fieldManager cur obj).labels
      (cur.elim ∅ (·.metadata.labels)) ∧ Within linkAnnotations
      (S.applied fieldManager cur obj).annotations (cur.elim ∅ (·.metadata.annotations)) :=
        fun cur =>
    ⟨.of_applied (hS.labels fieldManager cur obj) hobj.labels,
      .of_applied (hS.annotations fieldManager cur obj) hobj.annotations⟩
  rcases World.Does.apply hd with ⟨e, -, rfl⟩ | ⟨o, -, rfl, hadds⟩ | ⟨cur, o, hcur, -, hrewrites⟩
  · exact .refl w'
  · obtain ⟨hlabels, hannotations⟩ := hlinks none
    exact .of_adds hadds ⟨hlabels.eq_none, hannotations.eq_none⟩
  · obtain ⟨hlabels, hannotations⟩ := hlinks (some cur)
    exact .of_rewrites hrewrites hcur ⟨hlabels, hannotations⟩

/-! ### The sync of a related object -/

theorem syncableLabel_of_mem {k : String} (hk : k ∈ unsyncableLabels) :
    syncableLabel k = false := by
  simp [syncableLabel, hk]

theorem syncableAnnotation_of_mem {k : String} (hk : k ∈ linkAnnotations) :
    syncableAnnotation k = false := by
  have hmem : k ∈ unsyncableAnnotations := by
    simp only [linkAnnotations, List.mem_cons, List.not_mem_nil, or_false] at hk
    rcases hk with rfl | rfl | rfl
    · decide
    · decide
    · decide
  simp [hmem, syncableAnnotation]

theorem unlinked_stripMetadata (o : Unstructured) : Unlinked (stripMetadata o).metadata where
  labels k hk := by simp [stripMetadata, syncableLabel_of_mem hk]
  annotations k hk := by simp [stripMetadata, syncableAnnotation_of_mem hk]

namespace RelatedSync

variable {R : RelatedSync}

theorem destLabels_get? {k : String} (hk : k ∈ unsyncableLabels) :
    R.objectSyncer.destLabels.get? k = none := by
  have hne : ∀ k ∈ unsyncableLabels, k ≠ relatedOwnerLabel ∧ k ≠ relatedIdentifierLabel ∧
      k ≠ agentNameLabel := by decide
  obtain ⟨howner, hidentifier, hagent⟩ := hne k hk
  show (relatedCopyLabels _ _ _ _ _ _).get? k = none
  unfold relatedCopyLabels
  dsimp only
  split
  · simp [howner, hidentifier, hagent]
  · simp [howner, hidentifier]

theorem destAnnotations_get? {k : String} (hk : k ∈ linkAnnotations) :
    R.objectSyncer.destAnnotations.get? k = none := by
  have hne : ∀ k ∈ linkAnnotations, k ≠ relatedPrimaryNameAnnotation ∧
      k ≠ relatedPrimaryNamespaceAnnotation := by decide
  obtain ⟨hname, hns⟩ := hne k hk
  show (relatedCopyAnnotations _).get? k = none
  unfold relatedCopyAnnotations
  dsimp only
  split
  · simp [hname, hns]
  · simp [hname]

theorem linksWithin_stamped (o : Unstructured) :
    LinksWithin (R.objectSyncer.ensureDestMetadata o).metadata o.metadata where
  labels := .insertAll fun _ => destLabels_get?
  annotations := .insertAll fun _ => destAnnotations_get?

theorem unlinked_newDestination (source destObj : Unstructured) :
    Unlinked (R.objectSyncer.newDestination R.syncer.libs R.sourceSide source destObj).metadata :=
  .of_within (linksWithin_stamped _) (unlinked_stripMetadata destObj)

theorem linksWithin_fullUpdate (source d : Unstructured) :
    LinksWithin (R.objectSyncer.fullUpdate source d).metadata d.metadata where
  labels := .insertAll fun k hk => by simp [syncableLabel_of_mem hk]
  annotations := .insertAll fun k hk => by simp [syncableAnnotation_of_mem hk]

/-- The rules for the status of the copy leave its identity and its metadata alone. -/
def StatusRulesOnly (R : RelatedSync) : Prop :=
  ∀ d source d', R.objectSyncer.mutateStatus d source = .ok d' →
    d'.typeMeta = d.typeMeta ∧ d'.metadata = d.metadata

/-- What others do while a sync runs: they create none of the copies, and what they write to one has
a resource version of its own. -/
structure Others (copies : Set ObjectId) (w w' : World) : Prop where
  objects : ∀ id ∈ copies, ∀ o', w'.object? id = some o' → ∃ o, w.object? id = some o ∧
    (o'.metadata = o.metadata ∨ o.metadata.resourceVersion < o'.metadata.resourceVersion)
  secrets : ∀ name, w'.secret? name = w.secret? name

theorem Others.refl (copies : Set ObjectId) (w : World) : Others copies w w :=
  ⟨fun _ _ o' ho' => ⟨o', ho', .inl rfl⟩, fun _ => rfl⟩

theorem Others.trans {copies : Set ObjectId} {w₁ w₂ w₃ : World} (h : Others copies w₁ w₂)
    (h' : Others copies w₂ w₃) : Others copies w₁ w₃ where
  objects id hid o₃ ho₃ := by
    obtain ⟨o₂, ho₂, hlate⟩ := h'.objects id hid o₃ ho₃
    obtain ⟨o₁, ho₁, hearly⟩ := h.objects id hid o₂ ho₂
    refine ⟨o₁, ho₁, ?_⟩
    rcases hlate with hlate | hlate
    · rw [hlate]
      exact hearly
    · rcases hearly with hearly | hearly
      · rw [← hearly]
        exact .inr hlate
      · exact .inr (Nat.lt_trans hearly hlate)
  secrets name := (h'.secrets name).trans (h.secrets name)

/-- Between two syncs anything happens; a write can fail without an effect. -/
def amongOthers (S : Server) (copies : Set ObjectId) : Environment api World where
  rely := Others copies
  refl := Others.refl copies
  trans := Others.trans
  idle := fun _ _ => True
  does := World.Does S

/-- No call puts a link entry on an object. -/
def unlinking (S : Server) : Guarantee api World := .ofCall (Unlinking S)

/-- What the read before the sync has found of the copy: a version of it, maybe an old one, and
nothing only if it does not exist. -/
structure Reads (R : RelatedSync) (dest : Option Unstructured) (w : World) : Prop where
  missing : dest = none → w.object? R.copyId = none
  found : ∀ d, dest = some d → d.idOn R.destSide.client = R.copyId ∧
    ∀ o, w.object? R.copyId = some o → d.metadata.resourceVersion ≤ o.metadata.resourceVersion ∧
      (o.metadata.resourceVersion = d.metadata.resourceVersion → o.metadata = d.metadata)

/-- The read of a copy that is updated or created; a server-side apply does not depend on it. -/
def Informed (R : RelatedSync) (copies : Set ObjectId)
    (dest : Option Unstructured) (w : World) : Prop :=
  R.syncer.useServerSideApply = false → R.copyId ∈ copies ∧ R.Reads dest w

variable {dest : Option Unstructured} {copies : Set ObjectId}

theorem Informed.of_same (h : R.Informed copies dest w)
    (hsame : w'.object? R.copyId = w.object? R.copyId) : R.Informed copies dest w' := by
  intro hmerge
  obtain ⟨hcopy, hreads⟩ := h hmerge
  exact ⟨hcopy, hsame ▸ hreads.missing, hsame ▸ hreads.found⟩

theorem Informed.of_others (h : R.Informed copies dest w) (hothers : Others copies w w') :
    R.Informed copies dest w' := by
  intro hmerge
  obtain ⟨hcopy, hreads⟩ := h hmerge
  refine ⟨hcopy, fun hdest => ?_, fun d hdest => ?_⟩
  · refine Option.eq_none_iff_forall_ne_some.mpr fun o' ho' => ?_
    obtain ⟨o, ho, -⟩ := hothers.objects _ hcopy o' ho'
    cases (hreads.missing hdest).symm.trans ho
  · obtain ⟨hid, hversions⟩ := hreads.found d hdest
    refine ⟨hid, fun o' ho' => ?_⟩
    obtain ⟨o, ho, hwritten⟩ := hothers.objects _ hcopy o' ho'
    obtain ⟨hle, hsame⟩ := hversions o ho
    rcases hwritten with hmeta | hlt
    · rw [hmeta]
      exact ⟨hle, hsame⟩
    · have hnewer : d.metadata.resourceVersion < o'.metadata.resourceVersion :=
        Nat.lt_of_le_of_lt hle hlt
      exact ⟨Nat.le_of_lt hnewer, fun heq => absurd heq.symm (Nat.ne_of_lt hnewer)⟩

/-- What was read holds until the copy is written. -/
def outline (R : RelatedSync) (S : Server) (copies : Set ObjectId) (dest : Option Unstructured) :
    R.objectSyncer.Outline S (amongOthers S copies) (unlinking S) where
  holds p w := match p with
    | .found | .known _ => R.Informed copies dest w
    | .adopting _ => False
    | _ => True
  stable p w w' h hothers := by
    cases p with
    | found | known => exact Informed.of_others h hothers
    | adopting => exact h
    | _ => trivial
  always _ _ _ := trivial
  sound _ _ _ _ h := h
  secret _ _ hothers := hothers.secrets _

theorem leads_of_unlinking {c : Call} {p : ObjectSyncer.Point}
    {q : c.verb.Resp → ObjectSyncer.Point}
    (hc : ∀ w, (R.outline S copies dest).holds p w → Unlinking S c w)
    (hq : ∀ r w, (R.outline S copies dest).holds (q r) w) : (R.outline S copies dest).Leads c p q :=
  fun w hw => ⟨hc w hw, fun r w' _ => hq r w'⟩

theorem leads_read {c : Call} (hc : c.failure = none) (p : ObjectSyncer.Point) :
    (R.outline S copies dest).Leads c p fun _ => p := by
  intro w hw
  refine ⟨unlinking_of_target (Call.target_of_failure_eq_none hc).1, fun r w' hd => ?_⟩
  obtain ⟨-, selectors, rfl⟩ := World.Does.read hc hd
  cases p with
  | found | known => exact Informed.of_same hw rfl
  | adopting => exact hw
  | _ => trivial

theorem puts_stored {clusterName : String} {obj : Unstructured} (p : ObjectSyncer.Point) :
    (R.outline S copies dest).Puts R.syncer.libs R.scope clusterName obj p .stored :=
  fun _ _ hc _ _ => ⟨unlinking_of_target (Call.target_of_secretTarget hc), fun _ _ _ =>
    ⟨fun _ _ => trivial, fun _ => trivial⟩⟩

theorem namespaces (source : Unstructured) :
    (R.outline S copies dest).Namespaces R.scope R.destSide source := by
  intro destObj hcreator hns w hw
  refine ⟨unlinking_create ⟨fun _ _ => rfl, fun _ _ => rfl⟩, fun r w' hd => ?_⟩
  have hsame : w'.object? R.copyId = w.object? R.copyId := by
    refine (World.Does.frames hd).objects R.copyId fun htarget => ?_
    cases hcreator
    exact hns (congrArg ObjectId.ns (Option.some.inj htarget)).symm
  exact hw.of_same hsame

theorem idOn_newDestination {source destObj : Unstructured}
    (hcreator : R.objectSyncer.destCreator source = .ok destObj) :
    (R.objectSyncer.newDestination R.syncer.libs R.sourceSide source destObj).idOn
    R.destSide.client =
      R.copyId := by
  rw [(ObjectSyncer.newDestination_rest R.syncer.libs R.objectSyncer R.sourceSide source destObj).1]
  cases hcreator
  rfl

theorem createConditions (hmerge : R.syncer.useServerSideApply = false) (hdest : dest = none)
    (source : Unstructured) :
    (R.outline S copies dest).CreateConditions R.syncer.libs R.scope R.sourceSide
      R.destSide source where
  namespaces := namespaces source
  create destObj _ := by
    intro w hw
    refine ⟨unlinking_create (unlinked_newDestination source destObj), fun r w' hd => ?_⟩
    rcases World.Does.create hd with ⟨e, rfl, rfl, -⟩ | ⟨o, rfl, -⟩
    · cases e with
      | alreadyExists => exact hw
      | _ => trivial
    · trivial
  occupied destObj existing w hcreator hw hexisting := by
    rw [idOn_newDestination hcreator] at hexisting
    cases ((hw hmerge).2.missing hdest).symm.trans hexisting
  adopt existing := fun _ hw => hw.elim
  dying _ _ _ _ _ := trivial
  put := puts_stored _

theorem unlinking_restamp (d : Unstructured) {id : ObjectId} : Unlinking S ⟨R.scope, .patch id
    (R.syncer.libs.diff.create d.toFields (R.objectSyncer.ensureDestMetadata d).toFields)⟩ w := by
  have hlabels : ∀ k ∈ unsyncableLabels,
      (R.objectSyncer.ensureDestMetadata d).metadata.labels.get? k = d.metadata.labels.get? k := by
    intro k hk
    show (d.metadata.labels.insertAll _).get? k = _
    rw [SortedMap.get?_insertAll, destLabels_get? hk]
    rfl
  have hannotations : ∀ k ∈ linkAnnotations,
      (R.objectSyncer.ensureDestMetadata d).metadata.annotations.get? k =
        d.metadata.annotations.get? k := by
    intro k hk
    show (d.metadata.annotations.insertAll _).get? k = _
    rw [SortedMap.get?_insertAll, destAnnotations_get? hk]
    rfl
  exact unlinking_patch (a := d) (b := R.objectSyncer.ensureDestMetadata d) rfl
    (fun k hk => .inr (hlabels k hk).symm) fun k hk => .inr (hannotations k hk).symm

theorem unlinking_content (last source d : Unstructured) {id : ObjectId} : Unlinking S ⟨R.scope,
    .patch id
    (R.objectSyncer.createMergePatch R.syncer.libs { last with typeMeta := source.typeMeta }
      (R.objectSyncer.desiredState R.syncer.libs R.sourceSide source d))⟩ w := by
  have hunlinked := unlinked_stripMetadata source
  exact unlinking_patch
    (a := R.objectSyncer.removeSubresources { last with typeMeta := source.typeMeta })
    (b := R.objectSyncer.removeSubresources (stripMetadata source)) rfl
    (fun k hk => .inl (hunlinked.labels k hk)) fun k hk => .inl (hunlinked.annotations k hk)

theorem updateConditions (hmerge : R.syncer.useServerSideApply = false) {source d d' : Unstructured}
    (hdest : dest = some d) (htype : d'.typeMeta = d.typeMeta) (hmeta : d'.metadata = d.metadata) :
    (R.outline S copies dest).UpdateConditions R.syncer.libs R.scope R.sourceSide
    R.destSide source d' := by
  have hafter : ∀ {p : ObjectSyncer.Point}, (∀ w, (R.outline S copies dest).holds p w) →
      ∀ (r : Except ApiError Unstructured) w, (R.outline S copies dest).holds (p.after r) w := by
    intro p hp r w
    cases r with
    | ok o => exact hp w
    | error e => trivial
  have hforward : ∀ {p : ObjectSyncer.Point}, p = .stored ∨ p = .clean →
      ∀ (r : Except ApiError Unstructured) w,
      (R.outline S copies dest).holds (p.afterForward r) w := by
    intro p hp r w
    have hpoint : (R.outline S copies dest).holds p w := by
      rcases hp with rfl | rfl
      · trivial
      · trivial
    cases r with
    | ok o => exact hpoint
    | error e =>
      cases e with
      | notFound => exact hpoint
      | _ => trivial
  have hupdate : ∀ w, R.Informed copies dest w →
      Unlinking S ⟨R.scope, .update R.destSide.client (R.objectSyncer.fullUpdate source d')⟩ w := by
    intro w hw
    obtain ⟨hid, hversions⟩ := (hw hmerge).2.found d hdest
    have hid' : (R.objectSyncer.fullUpdate source d').idOn R.destSide.client = R.copyId := by
      show d'.idOn R.destSide.client = R.copyId
      unfold Unstructured.idOn
      rw [htype, hmeta]
      exact hid
    refine unlinking_update fun cur hcur hsame => ?_
    rw [hid'] at hcur
    have hsame' : cur.metadata.resourceVersion = d.metadata.resourceVersion := by
      rw [← hmeta]
      exact hsame.symm
    rw [(hversions cur hcur).2 hsame', ← hmeta]
    exact linksWithin_fullUpdate source d'
  exact {
    restamp :=
      fun _ => leads_of_unlinking (fun _ _ => unlinking_restamp d') (hafter fun _ => trivial)
    known := fun _ hw => hw
    clean := fun _ _ _ _ => trivial
    patch := fun last _ => leads_of_unlinking (fun _ _ => unlinking_content last source d')
      (hafter fun _ => trivial)
    putPatched := fun _ => puts_stored _
    update := leads_of_unlinking hupdate (hafter fun _ => trivial)
    putUpdated := puts_stored _
    forward := fun _ p hp dest' => leads_of_unlinking (fun _ _ => unlinking_updateStatus)
      (hforward hp) }

theorem applyConditions (hS : AppliesOnly S) (source : Unstructured) :
    (R.outline S copies dest).ApplyConditions R.syncer.libs R.scope
      R.sourceSide R.destSide source where
  namespaces := namespaces source
  apply destObj _ := by
    have hpayload : Unlinked
        (R.objectSyncer.applyPayload R.syncer.libs R.sourceSide source destObj).metadata :=
      unlinked_newDestination source destObj
    refine leads_of_unlinking (fun _ _ => unlinking_apply hS hpayload) fun r w => ?_
    cases r with
    | ok o => trivial
    | error e => trivial

theorem unlinking_finalizers (o : Unstructured) (finalizers : List String) {id : ObjectId} :
    Unlinking S ⟨R.scope, .patch id (R.syncer.libs.diff.create o.toFields
      { o with metadata.finalizers := finalizers }.toFields)⟩ w :=
  unlinking_patch (a := o) (b := { o with metadata.finalizers := finalizers }) rfl
    (fun _ _ => .inr rfl) fun _ _ => .inr rfl

theorem conditions (hS : AppliesOnly S) (hrules : R.StatusRulesOnly) :
    (R.outline S copies dest).Conditions R.syncer.libs R.scope R.sourceSide
      R.destSide R.resolved.original
      dest := by
  have hafter : ∀ {α : Type} {p : ObjectSyncer.Point}, (∀ w, (R.outline S copies dest).holds p w) →
      ∀ (r : Except ApiError α) w, (R.outline S copies dest).holds (p.after r) w := by
    intro α p hp r w
    cases r with
    | ok o => exact hp w
    | error e => trivial
  have hcreate : ∀ source', R.objectSyncer.applyMutations R.resolved.original dest =
      .ok (source', none) → dest = none := by
    intro source' hmutations
    cases hdest : dest with
    | none => rfl
    | some d =>
      rw [hdest] at hmutations
      obtain ⟨d', hd'⟩ := ObjectSyncer.applyMutations_some hmutations
      cases hd'
  exact {
    read := fun p c _ hc => leads_read hc p
    giveUp := fun _ _ => trivial
    ignore := fun _ _ _ _ => trivial
    wait := fun _ _ _ _ _ _ _ => trivial
    delete := fun _ _ d _ _ => leads_of_unlinking (fun _ _ => unlinking_delete)
      (hafter fun _ => trivial)
    release := fun _ _ _ _ => leads_of_unlinking (fun _ _ => unlinking_finalizers _ _)
      (hafter fun _ => trivial)
    released := fun _ _ _ _ _ _ => trivial
    finalize := fun _ _ _ => leads_of_unlinking (fun _ _ => unlinking_finalizers _ _)
      (hafter fun _ => trivial)
    create := fun _ hmerge source' hmutations =>
      createConditions hmerge (hcreate source' hmutations) source'
    update := fun _ hmerge source' d' hmutations _ => by
      obtain ⟨d, hdest⟩ := ObjectSyncer.exists_of_applyMutations hmutations
      rw [hdest] at hmutations
      obtain ⟨htype, hmeta⟩ := hrules d source' d'
        (ObjectSyncer.mutateStatus_of_applyMutations hmutations)
      exact updateConditions hmerge hdest htype hmeta
    apply := fun _ _ source' _ _ _ => applyConditions hS source'
    skip := fun _ source' _ _ _ => ⟨fun _ => namespaces source', fun _ _ => trivial⟩
    status := fun _ hback => by cases hback
    endStored := fun _ _ => trivial
    endSynced := fun _ _ _ _ => trivial }

/-- A sync of a related object that begins in `w`, after a read of the copy. -/
def starts (copies : Set ObjectId) (w : World) (p : Prog api (Except Error (Bool × Unstructured))) :
    Prop :=
  ∃ (R : RelatedSync) (dest : Option Unstructured), R.StatusRulesOnly ∧ R.Informed copies dest w ∧
    p = (R.objectSyncer.sync R.syncer.libs R.scope R.sourceSide R.destSide
      R.resolved.original dest).run

def originSecret : Unstructured :=
  ⟨.secret, { name := "root", ns := "team-a", finalizers := [deletionFinalizer] }, default⟩

/-- The sync of the Secret after a read that has found nothing. -/
def missedSync : RelatedSync :=
    RelatedPass.secretPass.turn .secret ⟨originSecret, ⟨"tenant", "root"⟩⟩

def missedProgram : Fallible api Error (Bool × Unstructured) :=
  missedSync.objectSyncer.sync missedSync.syncer.libs missedSync.scope missedSync.sourceSide
    missedSync.destSide originSecret none

def originWorld : World := World.empty.put (.remoteClient "c1") originSecret

/-- The copy exists, as an earlier sync has left it. -/
def copiedWorld : World :=
  originWorld.put .localClient ⟨.secret,
    { name := "root", ns := "tenant", resourceVersion := 3
      labels := missedSync.objectSyncer.destLabels
      annotations := missedSync.objectSyncer.destAnnotations }, default⟩

def createsSecret (c : api.Call) : Bool :=
  match c.verb with
  | .create _ obj => decide (obj.typeMeta = .secret)
  | _ => false

end RelatedSync

end Sync
