import SyncAgent.Sync.Outcome

/-! What the related resources of a primary object have done when their processing returns without
an error and asks for no requeue, with nobody else writing during the call.  In merge mode nothing
but the status of copies has changed then. -/

namespace Sync

open Kube

theorem resolveRelatedResourceObjects_stored {S : Server} {L : Libraries} {origin dest : ObjectSide}
    {scope : Scope} {live : Bool} {relRes : RelatedResourceSpec} {found : List ResolvedObject}
    {w w' : World}
    (h : Returns S (resolveRelatedResourceObjects L origin dest scope live relRes) w found w')
    {resolved : ResolvedObject} (hresolved : resolved ∈ found) :
    w.object? (resolved.original.idOn origin.client) = some resolved.original := by
  have hname : ∀ {originNs destNs : String} {name : String × String} {w₁ w₂ : World},
      Returns S (resolveName L origin scope live relRes originNs destNs name) w₁
      (some resolved) w₂ →
      w₁.object? (resolved.original.idOn origin.client) = some resolved.original := by
    intro originNs destNs name w₁ w₂ hname
    obtain ⟨gvk, w₃, hkind, hrest⟩ := hname.bind
    obtain ⟨-, rfl⟩ := hkind.wrapE
    obtain ⟨r, w₄, hget, hend⟩ := hrest.bind
    obtain ⟨hr, rfl⟩ := World.Does.get (.inl hget.request)
    cases hobj : w₄.object? ⟨origin.client, gvk, originNs, name.1⟩ with
    | none =>
      rw [hr, hobj] at hend
      cases hend.pure.1
    | some original =>
      rw [hr, hobj] at hend
      cases hend.pure.1
      have hid : original.idOn origin.client = _ := World.idOn_of_object? hobj
      rw [hid]
      exact hobj
  have hin : ∀ {namespaceMap : StringMap} {w₁ w₂ : World},
      Returns S
      (wrap "failed to resolve objects" (resolveRelatedResourceObjectsInNamespaces L origin
        dest scope live relRes namespaceMap)) w₁ found w₂ →
      w₁.object? (resolved.original.idOn origin.client) = some resolved.original := by
    intro namespaceMap w₁ w₂ hin
    obtain ⟨lists, w₃, heach, hend⟩ := hin.wrap.bind
    obtain ⟨rfl, rfl⟩ := hend.pure
    obtain ⟨entry, hentry, hsome⟩ := List.mem_filterMap.mp hresolved
    obtain rfl : entry = some resolved := hsome
    obtain ⟨names, hnames, hmem⟩ := List.mem_flatten.mp hentry
    have hreads : ∀ c : Call, ResolveCall L scope relRes origin.client c → c.failure = none :=
      fun c hc => hc.read
    obtain ⟨ns, -, selectors, w₄, hns⟩ := heach.forEach.exists_of_mem (fun ns => .bind
      (.mapError (.mono resolveRelatedResourceObjectsInNamespace_allCalls hreads))
      fun nameMap => .forEach fun name _ => .mono resolveName_allCalls hreads) hnames
    obtain ⟨nameMap, w₅, hmap, hfound⟩ := hns.bind
    obtain ⟨selectors', rfl⟩ := hmap.wrap.of_reads
      (.mono resolveRelatedResourceObjectsInNamespace_allCalls hreads)
    obtain ⟨name, -, selectors'', w₆, hgot⟩ := hfound.forEach.exists_of_mem
      (fun name => .mono resolveName_allCalls hreads) hmem
    have hstored := hname hgot
    exact hstored
  unfold resolveRelatedResourceObjects at h
  dsimp only at h
  split at h
  · obtain ⟨namespaceMap, w₁, hmap, hrest⟩ := h.bind
    obtain ⟨selectors, rfl⟩ := hmap.wrap.of_reads
      (.mono (resolveRelatedResourceOriginNamespaces_allCalls relRes) fun c hc => hc.read)
    split at hrest
    · obtain ⟨rfl, -⟩ := hrest.pure
      cases hresolved
    · have hstored := hin hrest
      exact hstored
  · split at h
    · exact h.throw.elim
    · split at h
      · exact h.throw.elim
      · exact hin h

/-- One sync of a related object: the primary objects on the two sides, the related resource and the
resolved object.  The two sides are different API servers. -/
structure RelatedSync where
  syncer : ResourceSyncer
  server : Server
  scope : Scope
  stateStore : KubernetesBackend
  remote : ObjectSide
  local' : ObjectSide
  sides : remote.client ≠ local'.client
  relRes : RelatedResourceSpec
  primaryDeleting : Bool
  projectedGVK : TypeMeta
  resolved : ResolvedObject

namespace RelatedSync

variable (R : RelatedSync)

def origin : SyncSide := (ResourceSyncer.relatedSides R.remote R.local' R.relRes).1.toSyncSide

def dest : SyncSide := (ResourceSyncer.relatedSides R.remote R.local' R.relRes).2.toSyncSide

/-- The two sides as `Sync` gets them. -/
def sourceSide : SyncSide := { client := R.origin.client, clusterName := R.origin.clusterName }

def destSide : SyncSide := { client := R.dest.client, clusterName := R.dest.clusterName }

def objectSyncer : ObjectSyncer :=
  R.syncer.relatedSyncer R.stateStore R.remote R.relRes R.primaryDeleting R.projectedGVK R.resolved

/-- Where the copy is. -/
def copyId : ObjectId :=
  ⟨R.dest.client, R.projectedGVK, R.resolved.destination.ns, R.resolved.destination.name⟩

/-- The sync, as `processRelatedResource` makes it. -/
def run : SyncM Bool :=
  R.syncer.syncResolved R.scope R.stateStore R.remote R.origin R.dest R.relRes R.primaryDeleting
    R.projectedGVK R.resolved

theorem client_ne : R.origin.client ≠ R.dest.client := by
  unfold origin dest ResourceSyncer.relatedSides
  cases R.relRes.origin with
  | service => exact R.sides.symm
  | kcp => exact R.sides

variable {R} {w w' : World} {requeue : Bool}

theorem run_returns (h : Returns R.server R.run w requeue w') :
    ∃ source', Returns R.server (R.objectSyncer.sync R.syncer.libs R.scope R.sourceSide R.destSide
      R.resolved.original (w.object? R.copyId)) w (requeue, source') w' := by
  obtain ⟨found, w₁, hget, hrest⟩ := h.bind
  obtain ⟨hfound, hsame⟩ := World.Does.get (.inl hget.request)
  subst w₁
  have hread : found = (w.object? R.copyId).elim (.error .notFound) .ok := hfound
  cases hobj : w.object? R.copyId with
  | none =>
    obtain rfl : found = .error .notFound := by rw [hread, hobj]; rfl
    obtain ⟨⟨requeue', source'⟩, w₂, hsync, hend⟩ := hrest.bind
    obtain ⟨rfl, rfl⟩ := hend.pure
    exact ⟨source', hsync.wrap⟩
  | some d =>
    obtain rfl : found = .ok d := by rw [hread, hobj]; rfl
    obtain ⟨⟨requeue', source'⟩, w₂, hsync, hend⟩ := hrest.bind
    obtain ⟨rfl, rfl⟩ := hend.pure
    exact ⟨source', hsync.wrap⟩

/-- A sync in merge mode that asks for no requeue: the deletion of the origin needs nothing more, or
the copy exists, and it is in deletion or it was left as it is but for the status. -/
inductive Settled (R : RelatedSync) (w : World) : World → Prop
  | deleting : R.objectSyncer.Deleting R.resolved.original → Settled R w w
  | dying {d mutated d' : Unstructured} : R.objectSyncer.Live R.resolved.original →
      w.object? R.copyId = some d →
      R.objectSyncer.applyMutations R.resolved.original (some d) = .ok (mutated, some d') →
      d'.metadata.deletionTimestamp.isSome = true → Settled R w w
  | clean {d mutated d' : Unstructured} {w' : World} : R.objectSyncer.Live R.resolved.original →
      w.object? R.copyId = some d →
      R.objectSyncer.applyMutations R.resolved.original (some d) = .ok (mutated, some d') →
      d'.metadata.deletionTimestamp = none → R.objectSyncer.Stamped d' →
      R.objectSyncer.Unchanged R.syncer.libs R.sourceSide mutated d' w →
      R.objectSyncer.ForwardOutcome R.server R.scope R.destSide mutated d' w w' → Settled R w w'

theorem run_settled (hmerge : R.objectSyncer.useServerSideApply = false)
    (h : Returns R.server R.run w false w') : R.Settled w w' := by
  obtain ⟨source', hsync⟩ := run_returns h
  generalize hdest : w.object? R.copyId = dest at hsync
  by_cases hdel : R.objectSyncer.Deleting R.resolved.original
  · cases ObjectSyncer.sync_deleting_returns hdel hsync with
    | ignored => exact .deleting hdel
    | free => exact .deleting hdel
  · cases ObjectSyncer.sync_returns hdel hsync with
    | synced hlive hmutations hmutated =>
      cases hmutated with
      | skipped _ hdying =>
        obtain ⟨d, rfl⟩ := ObjectSyncer.exists_of_applyMutations hmutations
        exact .dying hlive hdest hmutations hdying
      | unchanged _ hd'live hstamped hspec hforward hstatus =>
        obtain ⟨d, rfl⟩ := ObjectSyncer.exists_of_applyMutations hmutations
        cases hspec with
        | clean hlast hclean =>
          obtain rfl := hstatus.eq_of_off rfl
          exact .clean hlive hdest hmutations hd'live hstamped ⟨_, hlast, hclean⟩ hforward
      | applied hssa => cases hmerge.symm.trans hssa
      | notApplied hssa => cases hmerge.symm.trans hssa

theorem object?_of_apply (hssa : R.objectSyncer.useServerSideApply = true)
    (h : Returns R.server R.run w false w') {id : ObjectId} {x : Unstructured} (hid : id ≠ R.copyId)
    (hx : w.object? id = some x) : w'.object? id = some x := by
  obtain ⟨source', hsync⟩ := run_returns h
  by_cases hdel : R.objectSyncer.Deleting R.resolved.original
  · generalize w.object? R.copyId = dest at hsync
    cases ObjectSyncer.sync_deleting_returns hdel hsync with
    | ignored => exact hx
    | free => exact hx
  · generalize w.object? R.copyId = dest at hsync
    cases ObjectSyncer.sync_returns hdel hsync with
    | synced hlive hmutations hmutated =>
      cases hmutated with
      | @applied _ destObj o _ w₁ w₂ _ _ _ hcreator hns happly hrest =>
        have hplace : destObj.idOn R.destSide.client = R.copyId := by
          cases hcreator
          rfl
        have hw₂ : w₂.object? id = some x := by
          rw [(World.Does.frames (.inl happly)).objects id fun heq =>
            hid ((Option.some.inj heq).symm.trans
            (((ObjectSyncer.newDestination_rest _ _ _ _ _).1 _).trans hplace))]
          exact hns.object?_of_some hx
        rcases hrest with ⟨-, -, rfl⟩ | ⟨-, hstatus⟩
        · exact hw₂
        · obtain rfl := hstatus.eq_of_off rfl
          exact hw₂
      | notApplied _ _ _ hns => exact hns.object?_of_some hx
      | skipped hmerge => cases hssa.symm.trans hmerge
      | unchanged hmerge => cases hssa.symm.trans hmerge

theorem Settled.statusOnly (h : R.Settled w w') : w.StatusOnly w' := by
  cases h with
  | deleting => exact .refl w
  | dying => exact .refl w
  | clean _ _ _ _ _ _ hforward => exact hforward.statusOnly

end RelatedSync

namespace ResourceSyncer

variable {S : Server} {s : ResourceSyncer} {scope : Scope} {w w' : World}

/-- A copy is to be kept: its name is among those to keep, if there are any. -/
def Kept (keep : Option (List String)) (item : Unstructured) : Prop :=
  ∃ names, keep = some names ∧ relatedCopyKey (objectKeyFromObject item) ∈ names

theorem pruneCopy_false {dest : SyncSide} {keep : Option (List String)}
    {policies : SortedMap String DeletionPropagation} {item : Unstructured}
    (hitem : w.object? (item.idOn dest.client) = some item)
    (h : Returns S (pruneCopy scope dest keep policies item) w false w') :
    Kept keep item ∧ w' = w := by
  unfold pruneCopy at h
  split at h
  · next hkept =>
    refine ⟨?_, h.pure.2⟩
    cases keep with
    | none => cases hkept
    | some names => exact ⟨names, rfl, by simpa using hkept⟩
  · split at h
    · cases h.pure.1
    · obtain ⟨r, w₁, hdelete, hrest⟩ := h.bind
      rcases World.Does.delete (.inl hdelete.request) with ⟨e, rfl, rfl,
        hgone⟩ | ⟨cur, -, rfl, -, -⟩
      · cases e with
        | notFound => cases (hgone rfl).symm.trans hitem
        | _ => exact hrest.throw.elim
      · cases hrest.pure.1

theorem pruneRelatedCopies_false {dest : SyncSide} {projectedGVK : TypeMeta} {selector : Selector}
    {keep : Option (List String)} {policies : SortedMap String DeletionPropagation}
    (h : Returns S (pruneRelatedCopies scope dest projectedGVK selector keep policies) w false w') :
    w' = w ∧ ∀ item, w.Listed dest.client projectedGVK "" selector item → Kept keep item := by
  obtain ⟨items, w₁, hlist, hrest⟩ := h.bind
  obtain ⟨rfl, rfl⟩ := hlist.wrap.list
  obtain ⟨requeues, w₂, hprune, hend⟩ := hrest.bind
  obtain ⟨hany, rfl⟩ := hend.pure
  have hall : ∀ (items : List Unstructured) (requeues : List Bool) (w w' : World),
      (∀ item ∈ items, w.object? (item.idOn dest.client) = some item) →
      Returns.Each S (pruneCopy scope dest keep policies) items w requeues w' →
      requeues.any id = false → w' = w ∧ ∀ item ∈ items, Kept keep item := by
    intro items
    induction items with
    | nil =>
      intro requeues w w' _ heach _
      cases heach
      exact ⟨rfl, fun _ h => by cases h⟩
    | cons item rest ih =>
      intro requeues w w' hitems heach hnone
      cases heach with
      | @cons _ _ b bs _ w₁ _ hfirst hothers =>
        obtain ⟨rfl, hbs⟩ : b = false ∧ bs.any id = false := by simpa using hnone
        obtain ⟨hkept, rfl⟩ := pruneCopy_false (hitems item (by simp)) hfirst
        obtain ⟨rfl, hrest⟩ := ih bs _ _ (fun i hi => hitems i (by simp [hi])) hothers hbs
        exact ⟨rfl, List.forall_mem_cons.mpr ⟨hkept, hrest⟩⟩
  obtain ⟨rfl, hkept⟩ := hall _ requeues _ _ (fun item hi => (World.listed_of_mem hi).object)
    hprune.forEach hany.symm
  exact ⟨rfl, fun item hi => hkept item (World.mem_of_listed (.inl rfl) hi)⟩

theorem confirmOriginEmpty_returns {origin dest : ObjectSide} {relRes : RelatedResourceSpec}
    {checked : Option Bool}
    (h : Returns S (s.confirmOriginEmpty scope origin dest relRes) w checked w') :
    (∃ selectors, w' = { w with selectors := selectors }) ∧
      (checked = none → s.liveReader relRes.origin = false) := by
  unfold confirmOriginEmpty at h
  split at h
  · next hreader =>
    obtain ⟨-, rfl⟩ := h.pure
    exact ⟨⟨w'.selectors, rfl⟩, fun _ => by simpa using hreader⟩
  · obtain ⟨resolved, w₁, hresolve, hend⟩ := h.bind
    obtain ⟨rfl, rfl⟩ := hend.pure
    exact ⟨hresolve.of_reads (.mono resolveRelatedResourceObjects_allCalls fun c hc => hc.read),
      fun hnone => by cases hnone⟩

section CleanUp

variable {remote origin dest : ObjectSide} {relRes : RelatedResourceSpec}
  {primaryDeleting : Bool} {projectedGVK : TypeMeta} {resolvedObjects : List ResolvedObject}
  {requeue : Bool} (h : Returns S (s.cleanUpRelatedCopies scope remote origin dest relRes
    primaryDeleting projectedGVK resolvedObjects requeue) w false w')

include h

theorem cleanUpRelatedCopies_false :
    requeue = false ∧ ∃ selectors, w' = { w with selectors := selectors } := by
  have hprune : ∀ {text : String} {selector : Selector} {keep : Option (List String)}
      {policies : SortedMap String DeletionPropagation} {w₁ : World}, Returns S (do
        let pruned ← wrap text
          (pruneRelatedCopies scope dest.toSyncSide projectedGVK selector keep policies)
        return requeue || pruned) w₁ false w' → requeue = false ∧ w' = w₁ := by
    intro text selector keep policies w₁ hprune
    obtain ⟨pruned, w₂, hpruned, hend⟩ := hprune.bind
    obtain ⟨hboth, rfl⟩ := hend.pure
    obtain ⟨hrequeue, rfl⟩ : requeue = false ∧ pruned = false := by simpa using hboth.symm
    exact ⟨hrequeue, (pruneRelatedCopies_false hpruned.wrap).1⟩
  unfold cleanUpRelatedCopies at h
  dsimp only at h
  split at h
  · obtain ⟨hrequeue, rfl⟩ := hprune h
    exact ⟨hrequeue, w'.selectors, rfl⟩
  · split at h
    · split at h
      · obtain ⟨checked, w₁, hconfirm, hrest⟩ := h.bind
        obtain ⟨⟨selectors, rfl⟩, -⟩ := confirmOriginEmpty_returns hconfirm.wrap
        split at hrest
        · obtain ⟨hrequeue, rfl⟩ := hrest.pure
          exact ⟨hrequeue.symm, selectors, rfl⟩
        · cases hrest.pure.1
        · obtain ⟨hrequeue, rfl⟩ := hprune hrest
          exact ⟨hrequeue, selectors, rfl⟩
      · obtain ⟨hrequeue, rfl⟩ := hprune h
        exact ⟨hrequeue, w'.selectors, rfl⟩
    · obtain ⟨hrequeue, rfl⟩ := h.pure
      exact ⟨hrequeue.symm, w'.selectors, rfl⟩

theorem cleanUpRelatedCopies_matchOrigin (hlive : primaryDeleting = false)
    (hpolicy : relRes.effectiveCleanupPolicy = .matchOrigin)
    (hreader : s.liveReader relRes.origin = true) {item : Unstructured}
    (hitem : w.Listed dest.client projectedGVK "" (relatedCopySelector s.libs.hash remote.object
      remote.clusterName s.pubRes.name relRes.identifier s.agentName) item) :
    ∃ resolved ∈ resolvedObjects, relatedCopyKey (objectKeyFromObject item) =
      relatedCopyKey resolved.destination := by
  have hkept : ∀ {w₁ : World} {policies : SortedMap String DeletionPropagation},
      (∃ selectors, w₁ = { w with selectors := selectors }) → Returns S (do
        let pruned ← wrap "failed to prune related copies" (pruneRelatedCopies scope dest.toSyncSide
          projectedGVK (relatedCopySelector s.libs.hash remote.object remote.clusterName
            s.pubRes.name relRes.identifier s.agentName)
          (some (resolvedObjects.map fun resolved => relatedCopyKey resolved.destination)) policies)
        return requeue || pruned) w₁ false w' →
      ∃ resolved ∈ resolvedObjects, relatedCopyKey (objectKeyFromObject item) =
        relatedCopyKey resolved.destination := by
    rintro w₁ policies ⟨selectors, rfl⟩ hprune
    obtain ⟨pruned, w₂, hpruned, hend⟩ := hprune.bind
    obtain ⟨hboth, rfl⟩ := hend.pure
    obtain ⟨-, rfl⟩ : requeue = false ∧ pruned = false := by simpa using hboth.symm
    obtain ⟨names, hnames, hmem⟩ := (pruneRelatedCopies_false hpruned.wrap).2 item
      ⟨hitem.object, hitem.typeMeta, hitem.ns, hitem.selector⟩
    cases hnames
    obtain ⟨resolved, hresolved, heq⟩ := List.mem_map.mp hmem
    exact ⟨resolved, hresolved, heq.symm⟩
  unfold cleanUpRelatedCopies at h
  dsimp only at h
  rw [if_neg (by simp [hlive]), if_pos (by simp [hlive, hpolicy])] at h
  split at h
  · obtain ⟨checked, w₁, hconfirm, hrest⟩ := h.bind
    obtain ⟨hselectors, hnone⟩ := confirmOriginEmpty_returns hconfirm.wrap
    split at hrest
    · rw [hnone rfl] at hreader
      cases hreader
    · cases hrest.pure.1
    · exact hkept hselectors hrest
  · exact hkept ⟨w.selectors, rfl⟩ h

end CleanUp

theorem rememberRelatedObjects_false {remote : ObjectSide} {identifier : String}
    {resolvedObjects : List ResolvedObject}
    (h : Returns S (s.rememberRelatedObjects scope remote identifier resolvedObjects) w false w') :
    w' = w := by
  unfold rememberRelatedObjects at h
  split at h
  · exact h.pure.2
  · dsimp only at h
    split at h
    · exact h.pure.2
    · obtain ⟨_, _, -, hend⟩ := h.bind
      cases hend.pure.1

/-- The objects of a related resource in the order in which they are synced. -/
def syncOrder (found : List ResolvedObject) : List ResolvedObject :=
  found.insertionSort fun a b =>
    relatedCopyKey (objectKeyFromObject a.original) ≤ relatedCopyKey
      (objectKeyFromObject b.original)

section Processed

variable {stateStore : KubernetesBackend} {remote local' : ObjectSide} {primaryDeleting : Bool}

/-- What the processing of a related resource has done that asks for no requeue: the objects were
resolved, each was synced, and the copies were cleaned up. -/
structure Processed (S : Server) (s : ResourceSyncer) (scope : Scope)
    (stateStore : KubernetesBackend) (remote local' : ObjectSide) (relRes : RelatedResourceSpec)
    (primaryDeleting : Bool) (found : List ResolvedObject) (projectedGVK : TypeMeta)
    (w w₁ w₂ w' : World) : Prop where
  resolved : Returns S (resolveRelatedResourceObjects s.libs (relatedSides remote local' relRes).1
    (relatedSides remote local' relRes).2 { scope with identifier := some relRes.identifier } false
    relRes) w found w₁
  kind : s.libs.kindFor (relatedSides remote local' relRes).2.client relRes.projectedGVR =
    .ok projectedGVK
  synced : Returns.Each S (s.syncResolved { scope with identifier := some relRes.identifier }
    stateStore remote (relatedSides remote local' relRes).1.toSyncSide
    (relatedSides remote local' relRes).2.toSyncSide relRes primaryDeleting projectedGVK)
    (syncOrder found) w₁ ((syncOrder found).map fun _ => false) w₂
  cleaned : Returns S (s.cleanUpRelatedCopies { scope with identifier := some relRes.identifier }
    remote (relatedSides remote local' relRes).1 (relatedSides remote local' relRes).2 relRes
    primaryDeleting projectedGVK (syncOrder found) false) w₂ false w'

theorem processRelatedResource_remembered {relRes : RelatedResourceSpec}
    (h : Returns S (s.processRelatedResource scope stateStore remote local' relRes primaryDeleting)
      w false w') :
    ∃ found projectedGVK w₁ w₂, Processed S s scope stateStore remote local' relRes primaryDeleting
      found projectedGVK w w₁ w₂ w' ∧ (relRes.origin = .service → Returns S
        (s.rememberRelatedObjects scope remote relRes.identifier (syncOrder found))
        w₂ false w₂) := by
  obtain ⟨found, w₁, hresolve, hafter⟩ := h.bind
  obtain ⟨projectedGVK, w₀, hlookup, hsync⟩ := hafter.bind
  obtain ⟨hkind, rfl⟩ := hlookup.wrapE
  obtain ⟨requeues, w₂, hsynced, hsecond⟩ := hsync.bind
  obtain ⟨remembered, w₃, hremember, hrest⟩ := hsecond.bind
  cases remembered with
  | true => cases hrest.pure.1
  | false =>
    have hsame : w₃ = w₂ := by
      split at hremember
      · exact rememberRelatedObjects_false hremember
      · exact hremember.pure.2
    subst hsame
    have hclean : Returns S (s.cleanUpRelatedCopies _ remote _ _ relRes primaryDeleting projectedGVK
      (syncOrder found) (requeues.any id)) w₃ false w' := hrest
    obtain ⟨hnone, -⟩ := cleanUpRelatedCopies_false hclean
    refine ⟨found, projectedGVK, _, w₃, ⟨hresolve.wrap, ?_, hsynced.forEach.map_false hnone,
      hnone ▸ hclean⟩, fun hservice => ?_⟩
    · exact ok_of_mapError hkind
    · rw [hservice] at hremember
      exact hremember

theorem processRelatedResource_false {relRes : RelatedResourceSpec}
    (h : Returns S (s.processRelatedResource scope stateStore remote local' relRes primaryDeleting)
      w false w') :
    ∃ found projectedGVK w₁ w₂, Processed S s scope stateStore remote local' relRes primaryDeleting
      found projectedGVK w w₁ w₂ w' := by
  obtain ⟨found, projectedGVK, w₁, w₂, hprocessed, -⟩ := processRelatedResource_remembered h
  exact ⟨found, projectedGVK, w₁, w₂, hprocessed⟩

theorem processRelatedList_false {related : List RelatedResourceSpec}
    (h : Returns S (s.processRelatedList scope stateStore remote local' primaryDeleting related) w
      false w') :
    Returns.Each S (fun relRes =>
      s.processRelatedResource scope stateStore remote local' relRes primaryDeleting) related w
      (related.map fun _ => false) w' := by
  induction related generalizing w with
  | nil =>
    obtain ⟨-, rfl⟩ := h.pure
    exact .nil
  | cons relRes rest ih =>
    obtain ⟨requeue, w₁, hfirst, hrest⟩ := h.bind
    cases requeue with
    | true => cases hrest.pure.1
    | false => exact .cons hfirst.wrap (ih hrest)

variable (hsides : remote.client ≠ local'.client)

/-- The sync of one of the resolved objects. -/
def relatedSync (S : Server) (s : ResourceSyncer) (scope : Scope) (stateStore : KubernetesBackend)
    (relRes : RelatedResourceSpec) (primaryDeleting : Bool) (projectedGVK : TypeMeta)
    (resolved : ResolvedObject) : RelatedSync where
  syncer := s
  server := S
  scope := { scope with identifier := some relRes.identifier }
  stateStore := stateStore
  remote := remote
  local' := local'
  sides := hsides
  relRes := relRes
  primaryDeleting := primaryDeleting
  projectedGVK := projectedGVK
  resolved := resolved

include hsides in
theorem Processed.object?_of_apply {relRes : RelatedResourceSpec} {found : List ResolvedObject}
    {projectedGVK : TypeMeta} {w₁ w₂ : World} (hssa : s.useServerSideApply = true)
    (h : Processed S s scope stateStore remote local' relRes primaryDeleting
      found projectedGVK w w₁ w₂
      w') {id : ObjectId} {x : Unstructured}
    (hid : ∀ resolved ∈ found, id ≠ ⟨(relatedSides remote local' relRes).2.client, projectedGVK,
      resolved.destination.ns, resolved.destination.name⟩)
    (hx : w.object? id = some x) : w'.object? id = some x := by
  obtain ⟨selectors, rfl⟩ :=
    h.resolved.of_reads (.mono resolveRelatedResourceObjects_allCalls fun c hc => hc.read)
  obtain ⟨-, selectors', rfl⟩ := cleanUpRelatedCopies_false h.cleaned
  have hsynced : w₂.object? id = some x := by
    refine h.synced.keeps (J := fun w => w.object? id = some x)
      (fun resolved hmem wa wb hreturns hwa => ?_) hx
    exact RelatedSync.object?_of_apply (R := relatedSync hsides S s scope stateStore relRes
      primaryDeleting projectedGVK resolved) hssa hreturns
      (hid resolved ((List.mem_insertionSort _).mp hmem)) hwa
  exact hsynced

section Merge

variable {relRes : RelatedResourceSpec} {found : List ResolvedObject} {projectedGVK : TypeMeta}
  {w₁ w₂ : World} (hmerge : s.useServerSideApply = false)

include hmerge

theorem settled_of_each {resolvedObjects : List ResolvedObject}
    (h : Returns.Each S (s.syncResolved { scope with identifier := some relRes.identifier }
      stateStore remote (relatedSides remote local' relRes).1.toSyncSide
      (relatedSides remote local' relRes).2.toSyncSide relRes primaryDeleting projectedGVK)
      resolvedObjects w₁ (resolvedObjects.map fun _ => false) w₂) :
    w₁.StatusOnly w₂ ∧ ∀ resolved ∈ resolvedObjects, ∃ wa wb, w₁.StatusOnly wa ∧
      (relatedSync hsides S s scope stateStore relRes primaryDeleting projectedGVK
        resolved).Settled wa wb ∧ wb.StatusOnly w₂ := by
  induction resolvedObjects generalizing w₁ with
  | nil =>
    cases h
    exact ⟨.refl _, fun _ h => by cases h⟩
  | cons resolved rest ih =>
    cases h with
    | cons hfirst hrest =>
      have hsettled : (relatedSync hsides S s scope stateStore relRes primaryDeleting projectedGVK
        resolved).Settled _ _ := RelatedSync.run_settled hmerge hfirst
      obtain ⟨hstatus, hall⟩ := ih hrest
      refine ⟨hsettled.statusOnly.trans hstatus, List.forall_mem_cons.mpr
        ⟨⟨_, _, .refl _, hsettled, hstatus⟩, fun other hother => ?_⟩⟩
      obtain ⟨wa, wb, hbefore, hother, hafter⟩ := hall other hother
      exact ⟨wa, wb, hsettled.statusOnly.trans hbefore, hother, hafter⟩

include hsides

theorem Processed.statusOnly (h : Processed S s scope stateStore remote local' relRes
    primaryDeleting found projectedGVK w w₁ w₂ w') : w.StatusOnly w' := by
  obtain ⟨selectors, rfl⟩ :=
    h.resolved.of_reads (.mono resolveRelatedResourceObjects_allCalls fun c hc => hc.read)
  obtain ⟨-, selectors', rfl⟩ := cleanUpRelatedCopies_false h.cleaned
  have hresolved : w.StatusOnly { w with selectors := selectors } :=
    .of_objects (fun _ => rfl) fun _ => rfl
  have hcleaned : w₂.StatusOnly { w₂ with selectors := selectors' } :=
    .of_objects (fun _ => rfl) fun _ => rfl
  exact hresolved.trans ((settled_of_each hsides hmerge h.synced).1.trans hcleaned)

theorem processed_of_each {related : List RelatedResourceSpec}
    (h : Returns.Each S (fun relRes =>
      s.processRelatedResource scope stateStore remote local' relRes primaryDeleting) related w
      (related.map fun _ => false) w') :
    w.StatusOnly w' ∧ ∀ relRes ∈ related, ∃ found projectedGVK wa w₁ w₂ wb, w.StatusOnly wa ∧
      Processed S s scope stateStore remote local' relRes primaryDeleting found projectedGVK wa w₁
        w₂ wb ∧ Returns S (s.processRelatedResource scope stateStore remote local' relRes
          primaryDeleting) wa false wb ∧ wb.StatusOnly w' := by
  induction related generalizing w with
  | nil =>
    cases h
    exact ⟨.refl _, fun _ h => by cases h⟩
  | cons relRes rest ih =>
    cases h with
    | cons hfirst hrest =>
      obtain ⟨found, projectedGVK, w₁, w₂, hprocessed⟩ := processRelatedResource_false hfirst
      have hstatus := hprocessed.statusOnly hsides hmerge
      obtain ⟨hothers, hall⟩ := ih hrest
      refine ⟨hstatus.trans hothers, List.forall_mem_cons.mpr
        ⟨⟨found, projectedGVK, _, w₁, w₂, _, .refl _, hprocessed, hfirst, hothers⟩,
          fun other hother => ?_⟩⟩
      obtain ⟨found', gvk', wa, wb, wc, wd, hbefore, hdone⟩ := hall other hother
      exact ⟨found', gvk', wa, wb, wc, wd, hstatus.trans hbefore, hdone⟩

end Merge

end Processed

/-- What `Process` has done for a live primary object: it has looked for the local object and called
`Sync`, and after that it has processed the related resources, if there was a local object and
`Sync` has asked for no requeue. -/
theorem process_returns {clusterName workspacePath : String} {r : Unstructured} {requeue : Bool}
    (hlive : r.metadata.deletionTimestamp = none)
    (h : Returns S (s.process clusterName workspacePath r) w requeue w') :
    ∃ dest requeue₁ r₁ w₁, s.copies clusterName workspacePath r w = dest.toList ∧ Returns S
      ((s.syncerOf clusterName workspacePath r).sync s.libs (primaryScope clusterName r)
        (remoteSide clusterName workspacePath) localSide r dest) w (requeue₁, r₁) w₁ ∧
      ((requeue₁ = true ∨ dest = none) ∧ requeue = requeue₁ ∧ w' = w₁ ∨
        ∃ l, requeue₁ = false ∧ dest = some l ∧ Returns S (s.processRelatedResources
          (primaryScope clusterName r) (s.stateStore clusterName workspacePath r)
          ⟨remoteSide clusterName workspacePath, r₁⟩ ⟨localSide, l⟩ false) w₁ requeue w') := by
  obtain ⟨localObj, w₁, hfind, hafter⟩ := h.bind
  obtain ⟨cleaning, w₂, hclean, hsync⟩ := hafter.bind
  have hnotCleaning : cleaning = false ∧ w₂ = w₁ := by
    split at hclean
    · rw [if_neg (by simp [hlive])] at hclean
      exact hclean.pure
    · exact hclean.pure
  obtain ⟨rfl, rfl⟩ := hnotCleaning
  obtain ⟨⟨requeue₁, r₁⟩, w₃, hsynced, hrest⟩ := hsync.bind
  have hfound : w₂ = w ∧ s.copies clusterName workspacePath r w = localObj.toList := by
    obtain ⟨items, w₄, hlist, hmatch⟩ := hfind.wrap.bind
    obtain ⟨hitems, rfl⟩ := hlist.wrap.list
    have hcopies : s.copies clusterName workspacePath r w₄ = items := hitems.symm
    split at hmatch
    · obtain ⟨rfl, rfl⟩ := hmatch.pure
      exact ⟨rfl, hcopies⟩
    · obtain ⟨rfl, rfl⟩ := hmatch.pure
      exact ⟨rfl, hcopies⟩
    · exact hmatch.throw.elim
  obtain ⟨rfl, hcopies⟩ := hfound
  refine ⟨localObj, requeue₁, r₁, w₃, hcopies, hsynced, ?_⟩
  dsimp only at hrest
  cases requeue₁ with
  | true =>
    obtain ⟨rfl, rfl⟩ := hrest.pure
    exact .inl ⟨.inl rfl, rfl, rfl⟩
  | false =>
    rw [if_neg (by simp)] at hrest
    cases localObj with
    | none =>
      obtain ⟨rfl, rfl⟩ := hrest.pure
      exact .inl ⟨.inr rfl, rfl, rfl⟩
    | some l => exact .inr ⟨l, rfl, rfl, hrest⟩

/-- What `Process` has done for a live primary object when it asks for no requeue: there was no
local object, or one, and then the related resources were processed. -/
theorem process_false {clusterName workspacePath : String} {r : Unstructured}
    (hlive : r.metadata.deletionTimestamp = none)
    (h : Returns S (s.process clusterName workspacePath r) w false w') :
    (s.copies clusterName workspacePath r w = [] ∧ ∃ r₁, Returns S
      ((s.syncerOf clusterName workspacePath r).sync s.libs (primaryScope clusterName r)
        (remoteSide clusterName workspacePath) localSide r none) w (false, r₁) w') ∨
    ∃ l r₁ w₁, s.copies clusterName workspacePath r w = [l] ∧ Returns S
      ((s.syncerOf clusterName workspacePath r).sync s.libs (primaryScope clusterName r)
        (remoteSide clusterName workspacePath) localSide r (some l)) w (false, r₁) w₁ ∧
      Returns.Each S (fun relRes => s.processRelatedResource (primaryScope clusterName r)
        (s.stateStore clusterName workspacePath r) ⟨remoteSide clusterName workspacePath, r₁⟩
        ⟨localSide, l⟩ relRes false) s.pubRes.related w₁
        (s.pubRes.related.map fun _ => false) w' := by
  obtain ⟨dest, requeue₁, r₁, w₁, hcopies, hsynced, ⟨hwhen, rfl, rfl⟩ | ⟨l, rfl, rfl, hrest⟩⟩ :=
    process_returns hlive h
  · obtain rfl : dest = none := hwhen.resolve_left (by simp)
    exact .inl ⟨hcopies, r₁, hsynced⟩
  · exact .inr ⟨l, r₁, w₁, hcopies, hsynced, processRelatedList_false hrest⟩

end ResourceSyncer

end Sync
