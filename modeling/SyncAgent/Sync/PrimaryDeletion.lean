import SyncAgent.Sync.RelatedDeletes
import SyncAgent.Sync.FailedWrites
import SyncAgent.Sync.MatchOrigin

/-! The order of a primary object's deletion: when `Process` deletes the local copy, the copies of
the related resources under forced deletion are gone and their origin objects carry no finalizer of
the agent.  The one exception is a Namespace that is such a copy: with server-side apply, another
related resource creates it again for its own copies. -/

namespace Sync

open Kube

/-! ### What a related resource that is not cleaned up does meanwhile -/

/-- How the objects of a world can change: no object appears but at `new` places, none disappears
but at `touched` places, and finalizers and labels stay, but for new objects, which have no
finalizers, and labels with a `mark`. -/
structure ChangesOnly (new touched : ObjectId → Prop) (mark : StringMap → Prop) (w w' : World) :
    Prop where
  absent : ∀ id, w.object? id = none → ¬ new id → w'.object? id = none
  kept : ∀ id, (w.object? id).isSome = true → ¬ touched id → (w'.object? id).isSome = true
  objects : ∀ id o, w'.object? id = some o →
    (∃ o₀, w.object? id = some o₀ ∧ o.metadata.finalizers = o₀.metadata.finalizers ∧
      (o.metadata.labels = o₀.metadata.labels ∨ mark o.metadata.labels)) ∨
    o.metadata.finalizers = [] ∧ mark o.metadata.labels

namespace ChangesOnly

variable {new new' touched touched' : ObjectId → Prop} {mark mark' : StringMap → Prop}
  {w w₁ w' : World}

theorem of_objects (h : ∀ id, w'.object? id = w.object? id) : ChangesOnly new touched mark w w' :=
  ⟨fun id hnone _ => (h id).trans hnone, fun id hsome _ => by rw [h]; exact hsome,
    fun id o ho => .inl ⟨o, (h id).symm.trans ho, rfl, .inl rfl⟩⟩

theorem refl (w : World) : ChangesOnly new touched mark w w := of_objects fun _ => rfl

theorem trans (h : ChangesOnly new touched mark w w₁) (h' : ChangesOnly new touched mark w₁ w') :
    ChangesOnly new touched mark w w' where
  absent id hnone hnew := h'.absent id (h.absent id hnone hnew) hnew
  kept id hsome htouched := h'.kept id (h.kept id hsome htouched) htouched
  objects id o ho := by
    obtain ⟨o₁, ho₁, hfin₁, hlabels₁⟩ | hnew := h'.objects id o ho
    · obtain ⟨o₀, ho₀, hfin₀, hlabels₀⟩ | ⟨hfin₀, hmark⟩ := h.objects id o₁ ho₁
      · refine .inl ⟨o₀, ho₀, hfin₁.trans hfin₀, ?_⟩
        obtain hsame | hmark := hlabels₁
        · rw [hsame]
          exact hlabels₀
        · exact .inr hmark
      · refine .inr ⟨hfin₁.trans hfin₀, ?_⟩
        obtain hsame | hmark' := hlabels₁
        · rw [hsame]
          exact hmark
        · exact hmark'
    · exact .inr hnew

theorem mono (h : ChangesOnly new touched mark w w') (hnew : ∀ id, new id → new' id)
    (htouched : ∀ id, touched id → touched' id) (hmark : ∀ labels, mark labels → mark' labels) :
    ChangesOnly new' touched' mark' w w' where
  absent id hnone hn := h.absent id hnone fun hn' => hn (hnew id hn')
  kept id hsome ht := h.kept id hsome fun ht' => ht (htouched id ht')
  objects id o ho := by
    obtain ⟨o₀, ho₀, hfin, hlabels⟩ | ⟨hfin, hm⟩ := h.objects id o ho
    · exact .inl ⟨o₀, ho₀, hfin, hlabels.imp_right (hmark _)⟩
    · exact .inr ⟨hfin, hmark _ hm⟩

theorem of_statusOnly (h : w.StatusOnly w') (htouched : ∀ id, touched id) :
    ChangesOnly new touched mark w w' where
  absent id hnone _ := by
    cases ho : w'.object? id with
    | none => rfl
    | some o =>
      obtain ⟨o₀, ho₀, -⟩ := h.old id o ho
      cases hnone.symm.trans ho₀
  kept id _ ht := absurd (htouched id) ht
  objects id o ho := by
    obtain ⟨o₀, ho₀, heq⟩ := h.old id o ho
    exact .inl ⟨o₀, ho₀, congrArg (·.metadata.finalizers) heq,
      .inl (congrArg (·.metadata.labels) heq)⟩

theorem of_adds {client : Client} {scope : Scope} {o : Unstructured} (h : w.Adds client scope o w')
    (hnew : new (o.idOn client)) (hfin : o.metadata.finalizers = [])
    (hmark : mark o.metadata.labels) : ChangesOnly new touched mark w w' where
  absent id hnone hn := by
    rw [h.objects, if_neg fun heq => hn (by rw [heq]; exact hnew)]
    exact hnone
  kept id hsome _ := by
    rw [h.objects]
    split
    · rfl
    · exact hsome
  objects id o' ho' := by
    rw [h.objects] at ho'
    split at ho'
    · cases ho'
      exact .inr ⟨hfin, hmark⟩
    · exact .inl ⟨o', ho', rfl, .inl rfl⟩

theorem of_rewrites {id : ObjectId} {cur next o : Unstructured} (h : w.Rewrites id next o w')
    (hcur : w.object? id = some cur) (htouched : touched id)
    (hfin : next.metadata.finalizers = cur.metadata.finalizers)
    (hmark : mark next.metadata.labels) :
    ChangesOnly new touched mark w w' where
  absent id' hnone _ := by
    rw [h.keeps.objects id' fun heq => by cases heq; cases hnone.symm.trans hcur]
    exact hnone
  kept id' hsome ht := by
    rw [h.keeps.objects id' fun heq => by cases heq; exact ht htouched]
    exact hsome
  objects id' o' ho' := by
    rcases h.object_cases ho' with ⟨rfl, rfl⟩ | ⟨-, hold⟩
    · obtain ⟨rv, rfl⟩ := h.becomes.version
      exact .inl ⟨cur, hcur, hfin, .inr hmark⟩
    · exact .inl ⟨o', hold, rfl, .inl rfl⟩

end ChangesOnly

namespace RelatedSync

variable (R : RelatedSync)

/-- The Namespace of the copy. -/
def namespaceId : ObjectId :=
  ⟨R.dest.client, ObjectSyncer.namespaceType, "", R.resolved.destination.ns⟩

/-- The places where a sync that asks for no requeue can put an object. -/
def New (id : ObjectId) : Prop :=
  R.syncer.useServerSideApply = true ∧ R.resolved.original.metadata.deletionTimestamp = none ∧
    (id = R.copyId ∨ R.resolved.destination.ns ≠ "" ∧ id = R.namespaceId)

/-- The places from which such a sync can remove an object. -/
def Touched (id : ObjectId) : Prop := R.syncer.useServerSideApply = false ∨ id = R.copyId

/-- The labels that such a sync can put on an object. -/
def Mark (labels : StringMap) : Prop := labels = ∅ ∨ labels.Contains R.objectSyncer.destLabels

variable {R} {w w' : World}

/-- A forced deletion asks for no requeue only if the copy is gone and the finalizer as well. -/
theorem run_forced (hforce : ResourceSyncer.forceDelete R.relRes R.primaryDeleting = true)
    (h : Returns R.server R.run w false w') :
    w' = w ∧ w.object? R.copyId = none ∧
      deletionFinalizer ∉ R.resolved.original.metadata.finalizers := by
  obtain ⟨source', hsync⟩ := run_returns h
  generalize hdest : w.object? R.copyId = dest at hsync ⊢
  have hblock : R.objectSyncer.blockSourceDeletion = true := by
    simp [objectSyncer, ResourceSyncer.relatedSyncer, hforce]
  cases ObjectSyncer.sync_deleting_returns (.inr hforce) hsync with
  | ignored hnot => cases hblock.symm.trans hnot
  | free _ hfree => exact ⟨rfl, rfl, by simpa using hfree⟩

theorem idOn_applyPayload {source destObj : Unstructured}
    (hdest : R.objectSyncer.destCreator source = .ok destObj) :
    (R.objectSyncer.applyPayload R.syncer.libs R.sourceSide source destObj).idOn R.dest.client =
        R.copyId ∧ destObj.metadata.ns = R.resolved.destination.ns := by
  cases hdest
  exact ⟨rfl, rfl⟩

theorem labels_applyPayload (source destObj : Unstructured) :
    (R.objectSyncer.applyPayload R.syncer.libs R.sourceSide source destObj).metadata.labels.Contains
      R.objectSyncer.destLabels :=
  SortedMap.contains_insertAll _ _

theorem changes_of_namespace
    (hlive : R.resolved.original.metadata.deletionTimestamp = none)
    (hssa : R.syncer.useServerSideApply = true) {scope : Scope}
    (h : ObjectSyncer.EnsuresNamespace scope R.dest.client R.resolved.destination.ns w w') :
    ChangesOnly R.New R.Touched R.Mark w w' := by
  rcases h with ⟨rfl, -⟩ | ⟨hns, o, ho, hlabels, hfin, hadds⟩
  · exact .refl _
  · exact .of_adds hadds ⟨hssa, hlive, .inr ⟨hns, ho⟩⟩ hfin (.inl hlabels)

theorem changes_of_apply {obj o : Unstructured} {fieldManager : String} {scope : Scope}
    (hlive : R.resolved.original.metadata.deletionTimestamp = none)
    (hssa : R.syncer.useServerSideApply = true) (hid : obj.idOn R.dest.client = R.copyId)
    (hlabels : obj.metadata.labels.Contains R.objectSyncer.destLabels)
    (h : exec R.server ⟨scope, .apply R.dest.client obj fieldManager⟩ w = (.ok o, w')) :
    ChangesOnly R.New R.Touched R.Mark w w' := by
  have happlied : ∀ cur, (R.server.applied fieldManager cur obj).labels.Contains
      R.objectSyncer.destLabels :=
    fun cur k v hv => R.server.labels_applied _ _ _ _ _ (hlabels k v hv)
  rcases World.Does.apply (.inl h) with ⟨e, he, -⟩ | ⟨o', ho, hplaced,
    hadds⟩ | ⟨cur, o', hcur, ho, hrew⟩
  · cases he
  · refine .of_adds hadds ⟨hssa, hlive, .inl ?_⟩ ?_ (.inr ?_)
    · rw [hplaced]
      exact hid
    · rw [hplaced]
      rfl
    · rw [hplaced]
      exact happlied none
  · exact .of_rewrites hrew hcur (.inr hid) rfl (.inr (happlied (some cur)))

theorem run_unforced (hforce : ResourceSyncer.forceDelete R.relRes R.primaryDeleting = false)
    (hservice : R.relRes.origin = .service) (h : Returns R.server R.run w false w') :
    ChangesOnly R.New R.Touched R.Mark w w' ∧
      (R.syncer.useServerSideApply = true → R.resolved.original.metadata.deletionTimestamp = none →
        R.resolved.destination.ns ≠ "" → (w'.object? R.namespaceId).isSome = true) := by
  have hblock : R.objectSyncer.blockSourceDeletion = false := by
    simp [objectSyncer, ResourceSyncer.relatedSyncer, hforce, hservice]
  cases hssa : R.syncer.useServerSideApply with
  | false =>
    have hsettled := run_settled (R := R) hssa h
    exact ⟨.of_statusOnly hsettled.statusOnly fun _ => .inl hssa, fun hnot => by cases hnot⟩
  | true =>
    obtain ⟨source', hsync⟩ := run_returns h
    by_cases hdel : R.objectSyncer.Deleting R.resolved.original
    · have hdying : R.resolved.original.metadata.deletionTimestamp.isSome = true :=
        hdel.resolve_right (by simp [objectSyncer, ResourceSyncer.relatedSyncer, hforce])
      have hsame : w' = w := by
        generalize w.object? R.copyId = dest at hsync
        cases ObjectSyncer.sync_deleting_returns hdel hsync with
        | ignored => rfl
        | free hnot => cases hblock.symm.trans hnot
      subst hsame
      refine ⟨.refl _, fun _ hlive => ?_⟩
      rw [hlive] at hdying
      cases hdying
    · generalize w.object? R.copyId = dest at hsync
      cases ObjectSyncer.sync_returns hdel hsync with
      | @synced source₁ _ dest' _ _ hlive hmutations hmutated =>
        have hnotDying : R.resolved.original.metadata.deletionTimestamp = none := hlive.notDeleting
        cases hmutated with
        | skipped hmerge => cases hmerge.symm.trans hssa
        | unchanged hmerge => cases hmerge.symm.trans hssa
        | @applied _ destObj o _ w₁ w₂ _ _ _ hcreator hns happly hrest =>
          obtain ⟨hid, hsameNs⟩ := idOn_applyPayload hcreator
          rw [hsameNs] at hns
          have hchanges : ChangesOnly R.New R.Touched R.Mark w₁ w₂ :=
            changes_of_apply hnotDying hssa hid (labels_applyPayload _ _) happly
          have hend : w' = w₂ := by
            rcases hrest with ⟨-, -, heq⟩ | ⟨-, hstatus⟩
            · exact heq
            · exact hstatus.eq_of_off rfl
          subst hend
          refine ⟨(changes_of_namespace hnotDying hssa hns).trans hchanges, fun _ _ hne => ?_⟩
          refine hchanges.kept _ (hns.isSome hne) ?_
          rintro (hmerge | heq)
          · cases hmerge.symm.trans hssa
          · exact hne (congrArg ObjectId.ns heq).symm
        | notApplied _ _ hcreator hns =>
          rw [(idOn_applyPayload hcreator).2] at hns
          exact ⟨changes_of_namespace hnotDying hssa hns, fun _ _ hne => hns.isSome hne⟩

end RelatedSync

/-! ### The related resources in turn -/

/-- What a related resource was resolved to: the type of its copies and the objects. -/
structure RelatedResolution where
  relRes : RelatedResourceSpec
  gvk : TypeMeta
  found : List ResolvedObject

/-- The related resource is under forced deletion when the primary object is being deleted. -/
def RelatedResolution.Forced (res : RelatedResolution) : Prop :=
  ResourceSyncer.forceDelete res.relRes true = true

theorem RelatedResolution.service_of_not_forced {res : RelatedResolution} (h : ¬ res.Forced) :
    res.relRes.origin = .service := by
  unfold RelatedResolution.Forced ResourceSyncer.forceDelete at h
  cases horigin : res.relRes.origin with
  | service => rfl
  | kcp => exact absurd (by simp [horigin]) h

theorem RelatedResolution.forced_of_policy {res : RelatedResolution}
    (h : res.relRes.effectiveCleanupPolicy = .onPrimaryDeletion ∨
      res.relRes.effectiveCleanupPolicy = .matchOrigin) : res.Forced := by
  unfold RelatedResolution.Forced ResourceSyncer.forceDelete
  rcases h with h | h <;> simp [h]

namespace Primary

variable (P : Primary)

/-- The API server with the origin objects of a related resource. -/
def originClient (relRes : RelatedResourceSpec) : Client :=
  match relRes.origin with
  | .kcp => .remoteClient P.clusterName
  | .service => .localClient

/-- Where the copy of a resolved object is. -/
def copyId (res : RelatedResolution) (resolved : ResolvedObject) : ObjectId :=
  ⟨P.copyClient res.relRes, res.gvk, resolved.destination.ns, resolved.destination.name⟩

/-- The Namespace of the copy. -/
def namespaceId (res : RelatedResolution) (resolved : ResolvedObject) : ObjectId :=
  ⟨P.copyClient res.relRes, ObjectSyncer.namespaceType, "", resolved.destination.ns⟩

def originId (res : RelatedResolution) (resolved : ResolvedObject) : ObjectId :=
  resolved.original.idOn (P.originClient res.relRes)

variable (r l : Unstructured)

/-- The processing of a related resource while `r` is being deleted; `l` is its local copy. -/
def cleaning (relRes : RelatedResourceSpec) : RelatedPass where
  syncer := P.syncer
  server := P.server
  scope := ResourceSyncer.primaryScope P.clusterName r
  stateStore := P.syncer.stateStore P.clusterName P.workspacePath r
  remote := ⟨ResourceSyncer.remoteSide P.clusterName P.workspacePath, r⟩
  local' := ⟨ResourceSyncer.localSide, l⟩
  sides := fun h => by cases h
  relRes := relRes
  primaryDeleting := true

/-- What the related resources are resolved to one after another, from `w` on, each in the state
that the one before has left. -/
def resolutions : List RelatedResourceSpec → World → List RelatedResolution
  | [], _ => []
  | relRes :: rest, w =>
    match P.syncer.libs.kindFor (P.copyClient relRes) relRes.projectedGVR with
    | .error _ => []
    | .ok gvk => ⟨relRes, gvk, (P.cleaning r l relRes).resolvedIn w⟩ ::
        resolutions rest (Fallible.eval (exec P.server) (P.cleaning r l relRes).program w).2

/-- The places where related resources that are not under forced deletion can put objects. -/
def New (resolutions : List RelatedResolution) (id : ObjectId) : Prop :=
  P.syncer.useServerSideApply = true ∧ ∃ res ∈ resolutions, ¬ res.Forced ∧ ∃ resolved ∈ res.found,
    resolved.original.metadata.deletionTimestamp = none ∧ (id = P.copyId res resolved ∨
      resolved.destination.ns ≠ "" ∧ id = P.namespaceId res resolved)

/-- The places from which they can remove objects. -/
def Touched (resolutions : List RelatedResolution) (id : ObjectId) : Prop :=
  P.syncer.useServerSideApply = false ∨ ∃ res ∈ resolutions, ¬ res.Forced ∧
    ∃ resolved ∈ res.found, id = P.copyId res resolved

/-- The labels that they can put on objects. -/
def Mark (resolutions : List RelatedResolution) (labels : StringMap) : Prop :=
  labels = ∅ ∨ ∃ res ∈ resolutions, ¬ res.Forced ∧ labels.Contains (relatedCopyLabels
    P.syncer.libs.hash r P.clusterName P.syncer.pubRes.name
    res.relRes.identifier P.syncer.agentName)

/-- All of these at once. -/
abbrev Changes (resolutions : List RelatedResolution) : World → World → Prop :=
  ChangesOnly (P.New resolutions) (P.Touched resolutions) (P.Mark r resolutions)

variable {P r l} {res : RelatedResolution} {w w₁ w₂ w' : World}

theorem Changes.mono {some' all : List RelatedResolution} (h : P.Changes r some' w w')
    (hsub : ∀ res ∈ some', res ∈ all) : P.Changes r all w w' := by
  refine ChangesOnly.mono h ?_ ?_ ?_
  · rintro id ⟨hssa, res, hres, hrest⟩
    exact ⟨hssa, res, hsub res hres, hrest⟩
  · rintro id (hmerge | ⟨res, hres, hrest⟩)
    · exact .inl hmerge
    · exact .inr ⟨res, hsub res hres, hrest⟩
  · rintro labels (hempty | ⟨res, hres, hrest⟩)
    · exact .inl hempty
    · exact .inr ⟨res, hsub res hres, hrest⟩

theorem cleaning_origin {relRes : RelatedResourceSpec} :
    (P.cleaning r l relRes).origin.client = P.originClient relRes := by
  unfold RelatedPass.origin ResourceSyncer.relatedSides originClient cleaning
  cases relRes.origin <;> rfl

/-- The sync of a resolved object. -/
def syncOf (P : Primary) (r l : Unstructured) (res : RelatedResolution)
    (resolved : ResolvedObject) :
    RelatedSync :=
  ResourceSyncer.relatedSync (P.cleaning r l res.relRes).sides P.server P.syncer
    (ResourceSyncer.primaryScope P.clusterName r)
    (P.syncer.stateStore P.clusterName P.workspacePath r) res.relRes true res.gvk resolved

theorem copyId_syncOf (res : RelatedResolution) (resolved : ResolvedObject) :
    (P.syncOf r l res resolved).copyId = P.copyId res resolved := by
  unfold RelatedSync.copyId copyId
  rw [← copyClient_eq r l]
  rfl

theorem namespaceId_syncOf (res : RelatedResolution) (resolved : ResolvedObject) :
    (P.syncOf r l res resolved).namespaceId = P.namespaceId res resolved := by
  unfold RelatedSync.namespaceId namespaceId
  rw [← copyClient_eq r l]
  rfl

section Processed

variable (h : ResourceSyncer.Processed P.server P.syncer
  (ResourceSyncer.primaryScope P.clusterName r)
  (P.syncer.stateStore P.clusterName P.workspacePath r)
  ⟨ResourceSyncer.remoteSide P.clusterName P.workspacePath, r⟩ ⟨ResourceSyncer.localSide, l⟩
  res.relRes true res.found res.gvk w w₁ w₂ w')

include h

variable (res) in
theorem resolved_of_processed : (P.cleaning r l res.relRes).resolvedIn w = res.found ∧
    P.syncer.libs.kindFor (P.copyClient res.relRes) res.relRes.projectedGVR = .ok res.gvk ∧
    ∀ resolved ∈ res.found, w.object? (P.originId res resolved) =
      some resolved.original := by
  refine ⟨?_, (copyClient_eq r l) ▸ h.kind, fun resolved hresolved => ?_⟩
  · unfold RelatedPass.resolvedIn
    have heval : Fallible.eval (exec (P.cleaning r l res.relRes).server)
        (P.cleaning r l res.relRes).resolution w = (.ok res.found, w₁) := h.resolved
    rw [heval]
    rfl
  · have hstored := resolveRelatedResourceObjects_stored h.resolved hresolved
    unfold originId
    rw [← cleaning_origin]
    exact hstored

theorem objects_of_processed :
    (∀ id, w₁.object? id = w.object? id) ∧ ∀ id, w'.object? id = w₂.object? id := by
  obtain ⟨selectors, rfl⟩ :=
    h.resolved.of_reads (.mono resolveRelatedResourceObjects_allCalls fun c hc => hc.read)
  obtain ⟨-, selectors', rfl⟩ := ResourceSyncer.cleanUpRelatedCopies_false h.cleaned
  exact ⟨fun _ => rfl, fun _ => rfl⟩

/-- A related resource under forced deletion that asks for no requeue has changed nothing, no
resolved object has a copy, and none has the finalizer. -/
theorem forced_of_processed (hforced : res.Forced) :
    (∀ id, w'.object? id = w.object? id) ∧ ∀ resolved ∈ res.found,
      w.object? (P.copyId res resolved) = none ∧
      deletionFinalizer ∉ resolved.original.metadata.finalizers := by
  have heach : ∀ (objects : List ResolvedObject) (wa wb : World), Returns.Each P.server
      (fun resolved => (P.syncOf r l res resolved).run) objects wa (objects.map fun _ => false) wb →
      wb = wa ∧ ∀ resolved ∈ objects,
        wa.object? (P.copyId res resolved) = none ∧
        deletionFinalizer ∉ resolved.original.metadata.finalizers := by
    intro objects
    induction objects with
    | nil =>
      intro wa wb heach
      cases heach
      exact ⟨rfl, fun _ h => by cases h⟩
    | cons resolved rest ih =>
      intro wa wb heach
      cases heach with
      | cons hfirst hrest =>
        obtain ⟨rfl, hcopy, hfinalizer⟩ :=
          RelatedSync.run_forced (R := P.syncOf r l res resolved) hforced hfirst
        rw [copyId_syncOf] at hcopy
        obtain ⟨rfl, hall⟩ := ih _ _ hrest
        exact ⟨rfl, List.forall_mem_cons.mpr ⟨⟨hcopy, hfinalizer⟩, hall⟩⟩
  obtain ⟨hbefore, hafter⟩ := objects_of_processed h
  obtain ⟨hsame, hall⟩ := heach _ _ _ h.synced
  refine ⟨fun id => ?_, fun resolved hresolved => ?_⟩
  · rw [hafter, hsame, hbefore]
  · rw [← hbefore]
    exact hall resolved ((List.perm_insertionSort _ res.found).mem_iff.mpr hresolved)

theorem unselected_of_processed (hpolicy : res.relRes.effectiveCleanupPolicy = .onPrimaryDeletion ∨
    res.relRes.effectiveCleanupPolicy = .matchOrigin) (o : Unstructured) :
    ¬ w'.Listed (P.copyClient res.relRes) res.gvk "" (P.relatedSelector r res.relRes) o := by
  intro ho
  have hcleaned := h.cleaned
  unfold ResourceSyncer.cleanUpRelatedCopies at hcleaned
  dsimp only at hcleaned
  rw [if_pos (by simpa using hpolicy)] at hcleaned
  obtain ⟨pruned, w₃, hprune, hend⟩ := hcleaned.bind
  obtain ⟨hfalse, rfl⟩ := hend.pure
  obtain rfl : pruned = false := by simpa using hfalse.symm
  obtain ⟨rfl, hkept⟩ := ResourceSyncer.pruneRelatedCopies_false hprune.wrap
  rw [← copyClient_eq r l] at ho
  obtain ⟨names, hnames, -⟩ := hkept o ho
  cases hnames

theorem unforced_of_processed (hforced : ¬ res.Forced) :
    P.Changes r [res] w w' ∧ ∀ resolved ∈ res.found,
      P.syncer.useServerSideApply = true → resolved.original.metadata.deletionTimestamp = none →
      resolved.destination.ns ≠ "" →
      ¬ P.Touched [res] (P.namespaceId res resolved) →
      (w'.object? (P.namespaceId res resolved)).isSome = true := by
  have hservice : res.relRes.origin = .service := RelatedResolution.service_of_not_forced hforced
  have hnot : ResourceSyncer.forceDelete res.relRes true = false := by
    simpa [RelatedResolution.Forced] using hforced
  have hchanges : ∀ resolved ∈ res.found, ∀ wa wb, ChangesOnly (P.syncOf r l res resolved).New
      (P.syncOf r l res resolved).Touched (P.syncOf r l res resolved).Mark wa wb →
      P.Changes r [res] wa wb := by
    intro resolved hresolved wa wb hone
    refine ChangesOnly.mono hone ?_ ?_ ?_
    · rintro id ⟨hssa, hlive, hid⟩
      refine ⟨hssa, _, List.mem_singleton_self _, hforced, resolved, hresolved, hlive, ?_⟩
      rw [copyId_syncOf, namespaceId_syncOf] at hid
      exact hid
    · rintro id (hmerge | hid)
      · exact .inl hmerge
      · rw [copyId_syncOf] at hid
        exact .inr ⟨_, List.mem_singleton_self _, hforced, resolved, hresolved, hid⟩
    · rintro labels (hempty | hlabels)
      · exact .inl hempty
      · exact .inr ⟨_, List.mem_singleton_self _, hforced, hlabels⟩
  have heach : ∀ (objects : List ResolvedObject), (∀ resolved ∈ objects, resolved ∈ res.found) →
      ∀ wa wb :
      World, Returns.Each P.server (fun resolved => (P.syncOf r l res resolved).run) objects
        wa (objects.map fun _ => false) wb →
      P.Changes r [res] wa wb ∧ ∀ resolved ∈ objects,
        P.syncer.useServerSideApply = true →
        resolved.original.metadata.deletionTimestamp = none → resolved.destination.ns ≠ "" →
        ¬ P.Touched [res] (P.namespaceId res resolved) →
        (wb.object? (P.namespaceId res resolved)).isSome = true := by
    intro objects
    induction objects with
    | nil =>
      intro _ wa wb heach
      cases heach
      exact ⟨.refl _, fun _ h => by cases h⟩
    | cons resolved rest ih =>
      intro hfound wa wb heach
      cases heach with
      | cons hfirst hrest =>
        obtain ⟨hone, hnamespace⟩ := RelatedSync.run_unforced (R := P.syncOf r l res resolved)
          hnot hservice hfirst
        replace hone := hchanges resolved (hfound resolved (by simp)) _ _ hone
        obtain ⟨hlater, hall⟩ := ih (fun y hy => hfound y (by simp [hy])) _ _ hrest
        refine ⟨hone.trans hlater, List.forall_mem_cons.mpr
          ⟨fun hssa hlive hns htouched => ?_, hall⟩⟩
        have hexists := hnamespace hssa hlive hns
        rw [namespaceId_syncOf] at hexists
        exact hlater.kept _ hexists htouched
  obtain ⟨hbefore, hafter⟩ := objects_of_processed h
  obtain ⟨hsynced, hall⟩ := heach _
    (fun resolved hmem => (List.perm_insertionSort _ res.found).mem_iff.mp hmem) _ _ h.synced
  refine ⟨(ChangesOnly.of_objects hbefore).trans (hsynced.trans (.of_objects hafter)),
    fun resolved hresolved hssa hlive hns htouched => ?_⟩
  rw [hafter]
  exact hall resolved ((List.perm_insertionSort _ res.found).mem_iff.mpr hresolved) hssa
    hlive hns htouched

end Processed

theorem get?_relatedCopyLabels (hash : Hash) (primary : Unstructured)
    (clusterName publishedResourceName identifier agentName : String) :
    (relatedCopyLabels hash primary clusterName publishedResourceName identifier agentName).get?
      relatedIdentifierLabel = some identifier := by
  unfold relatedCopyLabels
  dsimp only
  split
  · rw [SortedMap.get?_insert, if_neg (by decide), SortedMap.get?_insert, if_pos rfl]
  · rw [SortedMap.get?_insert, if_pos rfl]

theorem identifier_of_relatedSelector {relRes : RelatedResourceSpec} {labels : StringMap}
    (h : P.relatedSelector r relRes labels = true) :
    labels.get? relatedIdentifierLabel = some relRes.identifier :=
  selectorFromSet_iff.mp h _ _ (get?_relatedCopyLabels ..)

theorem resolutions_cons {relRes : RelatedResourceSpec} (rest : List RelatedResourceSpec)
    (h : Returns P.server (P.cleaning r l relRes).program w false w') :
    ∃ res wa wb, res.relRes = relRes ∧
      P.resolutions r l (relRes :: rest) w = res :: P.resolutions r l rest w' ∧
      ResourceSyncer.Processed P.server P.syncer (ResourceSyncer.primaryScope P.clusterName r)
        (P.syncer.stateStore P.clusterName P.workspacePath r)
        ⟨ResourceSyncer.remoteSide P.clusterName P.workspacePath, r⟩ ⟨ResourceSyncer.localSide, l⟩
        res.relRes true res.found res.gvk w wa wb w' := by
  obtain ⟨found, gvk, wa, wb, hprocessed⟩ := ResourceSyncer.processRelatedResource_false h
  obtain ⟨hfound, hkind, -⟩ := resolved_of_processed ⟨relRes, gvk, found⟩ hprocessed
  refine ⟨⟨relRes, gvk, found⟩, wa, wb, rfl, ?_, hprocessed⟩
  have hkind : P.syncer.libs.kindFor (P.copyClient relRes) relRes.projectedGVR = .ok gvk := hkind
  have heval : Fallible.eval (exec P.server) (P.cleaning r l relRes).program w = (.ok false, w') :=
    h
  simp only [resolutions, hkind, heval]
  rw [show (P.cleaning r l relRes).resolvedIn w = found from hfound]

section Each

variable {related : List RelatedResourceSpec}

theorem changes_of_each (h : Returns.Each P.server (fun relRes => (P.cleaning r l relRes).program)
    related w (related.map fun _ => false) w') :
    (P.resolutions r l related w).map RelatedResolution.relRes = related ∧
      P.Changes r (P.resolutions r l related w) w w' := by
  induction related generalizing w with
  | nil =>
    cases h
    exact ⟨rfl, .refl _⟩
  | cons relRes rest ih =>
    cases h with
    | @cons _ _ _ _ _ w₁ _ hfirst hrest =>
      obtain ⟨res, wa, wb, rfl, heq, hprocessed⟩ := resolutions_cons rest hfirst
      obtain ⟨hmap, hchanges⟩ := ih hrest
      rw [heq]
      refine ⟨congrArg (res.relRes :: ·) hmap, ChangesOnly.trans ?_ (hchanges.mono fun b hb => ?_)⟩
      · by_cases hforced : res.Forced
        · exact .of_objects (forced_of_processed hprocessed hforced).1
        · refine (unforced_of_processed hprocessed hforced).1.mono fun b hb => ?_
          exact List.mem_singleton.mp hb ▸ List.mem_cons_self
      · exact List.mem_cons_of_mem _ hb

/-- With server-side apply, the Namespaces of the copies exist, unless one of the related resources
has them as copies. -/
theorem namespaces_of_each
    (h : Returns.Each P.server (fun relRes => (P.cleaning r l relRes).program)
    related w (related.map fun _ => false) w') (hssa : P.syncer.useServerSideApply = true)
    {res : RelatedResolution} (hres : res ∈ P.resolutions r l related w) (hforced : ¬ res.Forced)
    {resolved : ResolvedObject} (hresolved : resolved ∈ res.found)
    (hlive : resolved.original.metadata.deletionTimestamp = none)
    (hns : resolved.destination.ns ≠ "")
    (htouched : ¬ P.Touched (P.resolutions r l related w) (P.namespaceId res resolved)) :
    (w'.object? (P.namespaceId res resolved)).isSome = true := by
  have htouched_mono : ∀ {some' all : List RelatedResolution} {id : ObjectId},
      (∀ res ∈ some', res ∈ all) → P.Touched some' id → P.Touched all id := by
    rintro some' all id hsub (hmerge | ⟨res, hmem, hrest⟩)
    · exact .inl hmerge
    · exact .inr ⟨res, hsub res hmem, hrest⟩
  induction related generalizing w with
  | nil => cases hres
  | cons relRes rest ih =>
    cases h with
    | @cons _ _ _ _ _ w₁ _ hfirst hrest =>
      obtain ⟨first, wa, wb, rfl, heq, hprocessed⟩ := resolutions_cons rest hfirst
      rw [heq] at hres htouched
      have hlater : ¬ P.Touched (P.resolutions r l rest w₁) (P.namespaceId res resolved) :=
        fun ht => htouched (htouched_mono (fun b hb => List.mem_cons_of_mem _ hb) ht)
      rcases List.mem_cons.mp hres with rfl | hmem
      · refine (changes_of_each hrest).2.kept _ ?_ hlater
        refine (unforced_of_processed hprocessed hforced).2 resolved hresolved hssa hlive hns ?_
        exact fun ht => htouched (htouched_mono
          (fun b hb => List.mem_singleton.mp hb ▸ List.mem_cons_self) ht)
      · exact ih hrest hmem hlater

end Each

/-! ### What the deletion of the local copy waits for -/

/-- No object has the labels of copies that the policy is to clean up, no object that was resolved
under forced deletion has a copy, and none of these carries the finalizer of the agent. -/
structure CleanedUp (P : Primary) (r : Unstructured)
    (resolutions : List RelatedResolution) (w : World) :
    Prop where
  selected : ∀ res ∈ resolutions, res.relRes.effectiveCleanupPolicy = .onPrimaryDeletion ∨
    res.relRes.effectiveCleanupPolicy = .matchOrigin →
    ∀ o, ¬ w.Listed (P.copyClient res.relRes) res.gvk "" (P.relatedSelector r res.relRes) o
  copies : ∀ res ∈ resolutions, res.Forced → ∀ resolved ∈ res.found,
    w.object? (P.copyId res resolved) = none
  finalizers : ∀ res ∈ resolutions, res.Forced → ∀ resolved ∈ res.found,
    ∀ o, w.object? (P.originId res resolved) = some o → deletionFinalizer ∉ o.metadata.finalizers

theorem not_mark_of_relatedSelector {a : RelatedResolution} {resolutions : List RelatedResolution}
    {labels : StringMap} (hselector : P.relatedSelector r a.relRes labels = true)
    (hids : ∀ b ∈ resolutions, ¬ b.Forced → a.relRes.identifier ≠ b.relRes.identifier) :
    ¬ P.Mark r resolutions labels := by
  have hidentifier := identifier_of_relatedSelector hselector
  rintro (rfl | ⟨b, hb, hforced, hlabels⟩)
  · rw [SortedMap.get?_empty] at hidentifier
    cases hidentifier
  · have hother := hlabels _ _ (get?_relatedCopyLabels ..)
    exact hids b hb hforced (Option.some.inj (hidentifier.symm.trans hother))

theorem CleanedUp.of_changes {a : RelatedResolution} {later : List RelatedResolution}
    (hbefore : P.CleanedUp r [a] w)
    (hchanges : P.Changes r later w w')
    (hids : a.Forced → ∀ b ∈ later, ¬ b.Forced → a.relRes.identifier ≠ b.relRes.identifier)
    (hapart : a.Forced → ∀ resolved ∈ a.found, ¬ P.New later (P.copyId a resolved)) :
    P.CleanedUp r [a] w' where
  selected res hres hpolicy o ho := by
    obtain rfl := List.mem_singleton.mp hres
    have hmark := not_mark_of_relatedSelector ho.selector
      (hids (RelatedResolution.forced_of_policy hpolicy))
    obtain ⟨o₀, ho₀, -, hlabels⟩ | ⟨-, hnew⟩ := hchanges.objects _ o ho.object
    · have hid : o₀.idOn (P.copyClient res.relRes) = _ := World.idOn_of_object? ho₀
      refine hbefore.selected res hres hpolicy o₀ ⟨by rw [hid]; exact ho₀,
        (congrArg ObjectId.typeMeta hid).trans ho.typeMeta, .inl rfl, ?_⟩
      rw [← hlabels.resolve_right hmark]
      exact ho.selector
    · exact hmark hnew
  copies res hres hforced resolved hresolved := by
    obtain rfl := List.mem_singleton.mp hres
    exact hchanges.absent _ (hbefore.copies res hres hforced resolved hresolved)
      (hapart hforced resolved hresolved)
  finalizers res hres hforced resolved hresolved o ho := by
    obtain ⟨o₀, ho₀, hfin, -⟩ | ⟨hfin, -⟩ := hchanges.objects _ o ho
    · rw [hfin]
      exact hbefore.finalizers res hres hforced resolved hresolved o₀ ho₀
    · rw [hfin]
      exact List.not_mem_nil

theorem CleanedUp.cons {a : RelatedResolution} {rest : List RelatedResolution}
    (ha : P.CleanedUp r [a] w)
    (hrest : P.CleanedUp r rest w) : P.CleanedUp r (a :: rest) w where
  selected := List.forall_mem_cons.mpr
    ⟨ha.selected a (List.mem_singleton_self a), hrest.selected⟩
  copies := List.forall_mem_cons.mpr ⟨ha.copies a (List.mem_singleton_self a), hrest.copies⟩
  finalizers := List.forall_mem_cons.mpr
    ⟨ha.finalizers a (List.mem_singleton_self a), hrest.finalizers⟩

theorem cleanedUp_of_processed (h : ResourceSyncer.Processed P.server P.syncer
    (ResourceSyncer.primaryScope P.clusterName r)
    (P.syncer.stateStore P.clusterName P.workspacePath r)
    ⟨ResourceSyncer.remoteSide P.clusterName P.workspacePath, r⟩ ⟨ResourceSyncer.localSide, l⟩
    res.relRes true res.found res.gvk w w₁ w₂ w') : P.CleanedUp r [res] w' where
  selected a ha hpolicy o := by
    obtain rfl := List.mem_singleton.mp ha
    exact unselected_of_processed h hpolicy o
  copies a ha hforced resolved hresolved := by
    obtain rfl := List.mem_singleton.mp ha
    obtain ⟨hsame, hall⟩ := forced_of_processed h hforced
    rw [hsame]
    exact (hall resolved hresolved).1
  finalizers a ha hforced resolved hresolved o ho := by
    obtain rfl := List.mem_singleton.mp ha
    obtain ⟨hsame, hall⟩ := forced_of_processed h hforced
    rw [hsame, (resolved_of_processed a h).2.2 resolved hresolved] at ho
    cases ho
    exact (hall resolved hresolved).2

theorem cleanedUp_of_each {related : List RelatedResourceSpec}
    (h : Returns.Each P.server (fun relRes => (P.cleaning r l relRes).program) related w
      (related.map fun _ => false) w')
    (hids : ∀ a ∈ P.resolutions r l related w, ∀ b ∈ P.resolutions r l related w, a.Forced →
      ¬ b.Forced → a.relRes.identifier ≠ b.relRes.identifier)
    (hapart : ∀ a ∈ P.resolutions r l related w, a.Forced → ∀ resolved ∈ a.found,
      ¬ P.New (P.resolutions r l related w) (P.copyId a resolved)) :
    P.CleanedUp r (P.resolutions r l related w) w' := by
  induction related generalizing w with
  | nil => exact ⟨fun _ h => (by cases h), fun _ h => (by cases h), fun _ h => (by cases h)⟩
  | cons relRes rest ih =>
    cases h with
    | @cons _ _ _ _ _ w₁ _ hfirst hrest =>
      obtain ⟨first, wa, wb, rfl, heq, hprocessed⟩ := resolutions_cons rest hfirst
      rw [heq] at hids hapart ⊢
      have hnew : ∀ id, P.New (P.resolutions r l rest w₁) id →
          P.New (first :: P.resolutions r l rest w₁) id :=
        fun id ⟨hssa, b, hb, hnew⟩ => ⟨hssa, b, List.mem_cons_of_mem _ hb, hnew⟩
      refine .cons ((cleanedUp_of_processed hprocessed).of_changes (changes_of_each hrest).2
        (fun hforced b hb => hids first List.mem_cons_self b (List.mem_cons_of_mem _ hb) hforced)
        fun hforced resolved hresolved hn => ?_) (ih hrest ?_ ?_)
      · exact hapart first List.mem_cons_self hforced resolved hresolved (hnew _ hn)
      · exact fun a ha b hb => hids a (List.mem_cons_of_mem _ ha) b (List.mem_cons_of_mem _ hb)
      · exact fun a ha hforced resolved hresolved hn =>
          hapart a (List.mem_cons_of_mem _ ha) hforced resolved hresolved (hnew _ hn)

/-- No two related resources have a copy in common. -/
def Separate (P : Primary) (resolutions : List RelatedResolution) : Prop :=
  ∀ a ∈ resolutions, ∀ b ∈ resolutions, a.relRes.identifier ≠ b.relRes.identifier →
    ∀ x ∈ a.found, ∀ y ∈ b.found, P.copyId a x ≠ P.copyId b y

/-- No copy under forced deletion is the Namespace of a copy that server-side apply writes. -/
def NamespacesApart (P : Primary) (resolutions : List RelatedResolution) : Prop :=
  P.syncer.useServerSideApply = true → ∀ a ∈ resolutions, a.Forced → ∀ b ∈ resolutions, ¬ b.Forced →
    ∀ x ∈ a.found, ∀ y ∈ b.found, y.original.metadata.deletionTimestamp = none →
      y.destination.ns ≠ "" → P.copyId a x ≠ P.namespaceId b y

theorem cleanedUp_iff {related : List RelatedResourceSpec}
    (h : Returns.Each P.server (fun relRes => (P.cleaning r l relRes).program) related w
      (related.map fun _ => false) w')
    (hnodup : (related.map RelatedResourceSpec.identifier).Nodup)
    (hseparate : P.Separate (P.resolutions r l related w)) :
    P.CleanedUp r (P.resolutions r l related w) w' ↔
      P.NamespacesApart (P.resolutions r l related w) := by
  obtain ⟨hmap, -⟩ := changes_of_each h
  have hmem : ∀ a ∈ P.resolutions r l related w, a.relRes ∈ related := by
    intro a ha
    rw [← hmap]
    exact List.mem_map_of_mem ha
  have hids : ∀ a ∈ P.resolutions r l related w, ∀ b ∈ P.resolutions r l related w, a.Forced →
      ¬ b.Forced → a.relRes.identifier ≠ b.relRes.identifier := by
    intro a ha b hb hforced hnot heq
    have hsame : a.relRes = b.relRes :=
      List.inj_on_of_nodup_map hnodup (hmem a ha) (hmem b hb) heq
    unfold RelatedResolution.Forced at hforced hnot
    exact hnot (hsame ▸ hforced)
  constructor
  · -- the Namespace of such a copy exists at the end
    intro hclean hssa a ha hforced b hb hnot x hx y hy hlive hns heq
    have htouched : ¬ P.Touched (P.resolutions r l related w) (P.namespaceId b y) := by
      rintro (hmerge | ⟨c, hc, hcforced, z, hz, hid⟩)
      · cases hmerge.symm.trans hssa
      · exact hseparate a ha c hc (hids a ha c hc hforced hcforced) x hx z hz (heq.trans hid)
    have hexists := namespaces_of_each h hssa hb hnot hy hlive hns htouched
    rw [← heq, hclean.copies a ha hforced x hx] at hexists
    cases hexists
  · intro happart
    refine cleanedUp_of_each h hids fun a ha hforced x hx hnew => ?_
    obtain ⟨hssa, b, hb, hnot, y, hy, hlive, hid | ⟨hns, hid⟩⟩ := hnew
    · exact hseparate a ha b hb (hids a ha b hb hforced hnot) x hx y hy hid
    · exact happart hssa a ha hforced b hb hnot x hx y hy hlive hns hid

/-! ### Runs of `Process` -/

/-- Nobody else writes during a call of `Process`; between two calls anything can happen.  A write
can fail without an effect. -/
def undisturbed (S : Server) : Environment api World := { calm S with idle := fun _ _ => True }

/-- The call deletes the local copy of the primary object: it deletes an object on behalf of the
primary object itself. -/
def DeletesCopy (P : Primary) (c : Call) (id : ObjectId) : Prop :=
  c.scope = P.scope ∧ ∃ policy, c.verb = .delete id policy

/-- The call of `Process` that began in `w` has found one local copy, at `id`, and has processed all
related resources since, none of which has asked for a requeue. -/
def Cleared (P : Primary) (r : Unstructured) (w : World) (id : ObjectId) (w' : World) : Prop :=
  ∃ l, P.syncer.copies P.clusterName P.workspacePath r w = [l] ∧ id = l.idOn .localClient ∧
    Returns.Each P.server (fun relRes => (P.cleaning r l relRes).program) P.syncer.pubRes.related w
      (P.syncer.pubRes.related.map fun _ => false) w'

/-- A call of `Process` deletes the local copy only then. -/
def deletesCleared (P : Primary) (r : Unstructured) (w : World) : Guarantee api World :=
  .ofCall fun c w' => ∀ id, P.DeletesCopy c id → P.Cleared r w id w'

section Process

variable {s : World}

theorem keeps_of_notDeletes {α : Type} {p : SyncM α}
    (hp : p.AllCalls fun c => ∀ id, ¬ P.DeletesCopy c id) :
    Fallible.Keeps (undisturbed P.server) (P.deletesCleared r w) p (fun _ _ => True) (fun _ => True)
      s :=
  .of_allCalls hp (fun _ _ => trivial) (fun _ _ _ _ => trivial)
    (fun _ hc _ _ id hdel => absurd hdel (hc id)) (fun _ _ _ _ _ _ _ => trivial) trivial

theorem processRelatedResources_notDeletes {o l : Unstructured} {deleting : Bool} :
    (P.syncer.processRelatedResources (ResourceSyncer.primaryScope P.clusterName r)
      (P.syncer.stateStore P.clusterName P.workspacePath r)
      ⟨ResourceSyncer.remoteSide P.clusterName P.workspacePath, o⟩ ⟨ResourceSyncer.localSide, l⟩
      deleting).AllCalls fun c => ∀ id, ¬ P.DeletesCopy c id := by
  refine .mono ResourceSyncer.processRelatedResources_allCalls ?_
  rintro c (⟨identifier, hscope⟩ | ⟨annotations, rfl⟩) id ⟨hown, policy, hverb⟩
  · rw [hown] at hscope
    cases congrArg Scope.identifier hscope
  · cases hverb

/-- `Sync` deletes the local copy only if there is one and the primary object is being deleted. -/
theorem sync_notDeletes {dest : Option Unstructured}
    (h : r.metadata.deletionTimestamp = none ∨ dest = none) :
    ((P.syncerOf r).sync P.syncer.libs (ResourceSyncer.primaryScope P.clusterName r)
      (ResourceSyncer.remoteSide P.clusterName P.workspacePath) ResourceSyncer.localSide r
      dest).AllCalls fun c => ∀ id, ¬ P.DeletesCopy c id := by
  refine .mono ObjectSyncer.sync_calls fun c hc id hdel => ?_
  cases hc with
  | dest _ hc =>
    obtain ⟨-, policy, hverb⟩ := hdel
    exact hc.noDelete _ _ hverb
  | delete policy hdeleting _ hd =>
    rcases h with hlive | hnone
    · have hdying : r.metadata.deletionTimestamp.isSome = true :=
        hdeleting.resolve_right fun hforce => by cases hforce
      rw [hlive] at hdying
      cases hdying
    · cases hnone.symm.trans hd
  | _ => cases hdel.2.choose_spec

/-- The clean-up of the related resources, from `w` on: if it asks for no requeue, no write has
failed and each of them was processed. -/
theorem cleanUp_keeps : Fallible.Keeps (undisturbed P.server) (P.deletesCleared r w)
    (P.syncer.processRelatedResources (ResourceSyncer.primaryScope P.clusterName r)
      (P.syncer.stateStore P.clusterName P.workspacePath r)
      ⟨ResourceSyncer.remoteSide P.clusterName P.workspacePath, r⟩
      ⟨ResourceSyncer.localSide, l⟩ true)
    (fun requeue s => requeue = false →
      Returns.Each P.server (fun relRes => (P.cleaning r l relRes).program)
      P.syncer.pubRes.related w
        (P.syncer.pubRes.related.map fun _ => false) s) (fun _ => True) w := by
  refine Prog.Keeps.mono (Prog.Keeps.and_eval_of_givesUp
    ResourceSyncer.processRelatedResources_givesUp (fun c s r s' hd => hd.imp_right And.left)
    (fun _ _ h => h) (keeps_of_notDeletes processRelatedResources_notDeletes)) ?_
  rintro (e | requeue) s ⟨-, heval⟩
  · trivial
  · rintro rfl
    exact ResourceSyncer.processRelatedList_false (heval false rfl)

/-- `Sync` with a primary object that is being deleted and the local copy `l`: the deletion of `l`
is its first call. -/
theorem sync_cleared (hdying : r.metadata.deletionTimestamp.isSome = true)
    (hcopies : P.syncer.copies P.clusterName P.workspacePath r w = [l])
    (heach : Returns.Each P.server (fun relRes => (P.cleaning r l relRes).program)
      P.syncer.pubRes.related w (P.syncer.pubRes.related.map fun _ => false) s) :
    Fallible.Keeps (undisturbed P.server) (P.deletesCleared r w)
      ((P.syncerOf r).sync P.syncer.libs (ResourceSyncer.primaryScope P.clusterName r)
        (ResourceSyncer.remoteSide P.clusterName P.workspacePath)
        ResourceSyncer.localSide r (some l))
      (fun _ _ => True) (fun _ => True) s := by
  unfold ObjectSyncer.sync
  rw [if_pos (by simp [hdying])]
  refine .seq (P := fun _ _ => True) ?_ fun _ _ _ => .pure trivial
  unfold ObjectSyncer.handleDeletion
  rw [if_neg (by simp [syncerOf, ResourceSyncer.syncerOf, ResourceSyncer.primarySyncer])]
  dsimp only
  split
  · exact .pure trivial
  · refine .seq (P := fun _ _ => True) (.mapError (.sendE ?_)) fun _ _ _ => .pure trivial
    rintro s₁ rfl
    refine ⟨fun id hdel => ?_, fun resp s₂ _ => ⟨trivial, ?_⟩⟩
    · obtain ⟨-, policy, hverb⟩ := hdel
      cases hverb
      exact ⟨l, hcopies, rfl, heach⟩
    · cases resp <;> trivial

/-- `Process` deletes the local copy only after all related resources were processed. -/
theorem process_keeps : Fallible.Keeps (undisturbed P.server) (P.deletesCleared r w)
    (P.syncer.process P.clusterName P.workspacePath r) (fun _ _ => True) (fun _ => True) w := by
  refine .seq (P := fun dest s => s = w ∧
    P.syncer.copies P.clusterName P.workspacePath r w = dest.toList) (.mapError ?_)
    fun dest s ⟨hs, hcopies⟩ => ?_
  · refine .seq (P := fun items s => s = w ∧
      items = P.syncer.copies P.clusterName P.workspacePath r w) (.mapError (.sendE ?_))
      fun items s ⟨hs, hitems⟩ => ?_
    · rintro s rfl
      refine ⟨fun id hdel => ?_, fun resp s' hd => ?_⟩
      · cases hdel.2.choose_spec
      · obtain ⟨rfl, rfl⟩ := World.Does.list hd
        exact ⟨trivial, rfl, rfl⟩
    · subst hitems
      split
      · next heq => exact .pure ⟨hs, heq⟩
      · next d heq => exact .pure ⟨hs, heq⟩
      · exact .throw trivial
  · subst hs
    refine .seq (P := fun cleaning s' => ∀ l, dest = some l →
      r.metadata.deletionTimestamp.isSome = true → cleaning = false →
      Returns.Each P.server (fun relRes => (P.cleaning r l relRes).program)
      P.syncer.pubRes.related s
        (P.syncer.pubRes.related.map fun _ => false) s') ?_ fun cleaning s' hcleaned => ?_
    · cases dest with
      | none => exact .pure fun l hl => by cases hl
      | some l =>
        dsimp only
        split
        · refine .mapError (.mono cleanUp_keeps (fun requeue s' heach l' hl' _ hfalse => ?_)
            fun _ _ => trivial)
          cases hl'
          exact heach hfalse
        · next hlive => exact .pure fun _ _ hdying => absurd hdying hlive
    · split
      · exact .pure trivial
      · next hnot =>
        refine .seq (P := fun _ _ => True) ?_ fun result s' _ => ?_
        · cases dest with
          | none => exact keeps_of_notDeletes (sync_notDeletes (.inr rfl))
          | some l =>
            by_cases hdying : r.metadata.deletionTimestamp.isSome = true
            · exact sync_cleared hdying hcopies (hcleaned l rfl hdying (by simpa using hnot))
            · exact keeps_of_notDeletes (sync_notDeletes (.inl (by simpa using hdying)))
        · obtain ⟨requeue, o⟩ := result
          dsimp only
          split
          · exact .pure trivial
          · split
            · exact .pure trivial
            · exact keeps_of_notDeletes processRelatedResources_notDeletes

end Process

/-- The call of `Process` that begins in `w`, where the remote object is `r`. -/
def startsIn (P : Primary) (r : Unstructured) (w s : World)
    (p : Prog api (Unstructured × Except Error Bool)) : Prop := s = w ∧ p = P.pass r

/-- When a call of `Process` deletes the local copy, all related resources were processed. -/
theorem cleared_of_run {s : World} {c : Call} {k : c.verb.Resp → Prog api _} {id : ObjectId}
    (h : Run (undisturbed P.server) (· = w) (P.startsIn r w) s (some (.call c k)))
    (hdel : P.DeletesCopy c id) : P.Cleared r w id s := by
  have hkeeps := Run.keeps (E := undisturbed P.server) (G := P.deletesCleared r w)
    (J := fun _ => True) (Q := fun _ _ => True) (fun _ _ => trivial) (fun _ _ _ _ => trivial)
    (fun _ _ _ _ => trivial) (fun _ _ _ _ => trivial) (fun _ _ => trivial)
    (fun _ _ _ _ _ => trivial)
    (fun _ _ _ => trivial) (fun s p _ hstart => ?_) h
  · exact (hkeeps.2 s rfl).1 id hdel
  · obtain ⟨rfl, rfl⟩ := hstart
    exact (P.pass_keeps process_keeps).mono fun _ _ _ => trivial

/-- The remote object of the samples, which is being deleted. -/
def dyingObject : Unstructured :=
  ⟨crontabType, { name := "daily", ns := "team-a", finalizers := [deletionFinalizer]
                  deletionTimestamp := some 1 }, default⟩

/-- Its local copy. -/
def dyingCopy : Unstructured :=
  ⟨crontabType,
    { name := "daily", ns := "tenant", labels := (sample []).key.labels .plain }, default⟩

/-- The two objects and the Secret of the workspace, whose copy is gone already. -/
def dyingWorld : World :=
  ((World.empty.put (.remoteClient "c1") dyingObject).put .localClient dyingCopy).put
    (.remoteClient "c1") ⟨.secret, { name := "creds", ns := "team-a" }, default⟩

/-- The Namespaces of the service cluster, with an empty name on the other side. -/
def anyNamespace : RelatedResourceObjectSelector :=
  { labelSelector := 0, rewrite := { regex := some { replacement := "" } } }

/-- ConfigMaps of the service cluster that are copied as Namespaces of the workspace. -/
def spaces : RelatedResourceSpec :=
  { identifier := "spaces", origin := .service, kind := "ConfigMap"
    cleanupPolicy := some .onPrimaryDeletion
    projection := some ⟨"", "", "namespaces"⟩
    object :=
      { object := { template := some ⟨"space"⟩ }, ns := some { selector := some anyNamespace } } }

/-- A Secret in such a Namespace, which is left alone when the primary object is deleted. -/
def token : RelatedResourceSpec :=
  { identifier := "token", origin := .service, kind := "Secret"
    object :=
      { object := { template := some ⟨"token"⟩ }, ns := some { template := some ⟨"space"⟩ } } }

def configMapType : TypeMeta := .configMap

/-- The sample with these two, in the mode of server-side apply. -/
def spacesPrimary : Primary :=
  let P := sample [spaces, token]
  { P with syncer := { P.syncer with
      useServerSideApply := true
      libs := { P.syncer.libs with
        kindFor := fun _ gvr => .ok (if gvr.resource = "namespaces" then ObjectSyncer.namespaceType
          else if gvr.resource = "configmaps" then configMapType else .secret) } } }

def spaceMap : Unstructured := ⟨configMapType, { name := "space", ns := "provider" }, default⟩

def tokenSecret : Unstructured := ⟨.secret, { name := "token", ns := "space" }, default⟩

/-- The primary object with the annotations for the two, which earlier calls have written. -/
def spacesObject : Unstructured :=
  let annotations (relRes : RelatedResourceSpec) (resolved : ResolvedObject) : StringMap :=
    spacesPrimary.syncer.relatedObjectAnnotations
      (relatedObjectAnnotationPrefix ++ relRes.identifier ++ ".") [resolved]
  { dyingObject with
    metadata.annotations := (annotations spaces ⟨spaceMap, ⟨"", "space"⟩⟩).insertAll
      (annotations token ⟨tokenSecret, ⟨"space", "token"⟩⟩) }

/-- The primary object is being deleted, and the Namespace of the workspace is gone already. -/
def spacesWorld : World :=
  ((((World.empty.put (.remoteClient "c1") spacesObject).put .localClient
    dyingCopy).put .localClient
    ⟨ObjectSyncer.namespaceType, { name := "provider" }, default⟩).put .localClient spaceMap).put
    .localClient tokenSecret

/-- The resolutions of a call that begins in that world. -/
def spacesResolutions : List RelatedResolution :=
  spacesPrimary.resolutions spacesObject dyingCopy [spaces, token] spacesWorld

/-- A copy under forced deletion exists. -/
def copyLeft (w : World) : Bool :=
  spacesResolutions.any fun res => ResourceSyncer.forceDelete res.relRes true &&
    res.found.any fun resolved => (w.object? (spacesPrimary.copyId res resolved)).isSome

end Primary

end Sync
