import SyncAgent.Sync.RelatedCalls

/-! Related resources of cluster-scoped types.  The API servers clear the namespace of an object
that belongs to no namespace and ignore it in requests, while the agent goes by the namespace and
name that it asked for.  The prune of a pass compares the two. -/

namespace Kube

/-- The types whose objects belong to no namespace, on each API server. -/
abbrev ClusterScoped := Client → TypeMeta → Bool

/-- The object that a request for `id` is about. -/
def ObjectId.scoped (cs : ClusterScoped) (id : ObjectId) : ObjectId :=
  if cs id.client id.typeMeta then { id with ns := "" } else id

/-- The object as the API server takes it. -/
def Unstructured.scoped (cs : ClusterScoped) (client : Client) (o : Unstructured) : Unstructured :=
  if cs client o.typeMeta then { o with metadata.ns := "" } else o

/-- What a call does on API servers that know which types are cluster-scoped. -/
def execScoped (S : Server) (cs : ClusterScoped) (c : api.Call) (w : World) : api.Resp c × World :=
  match c with
  | ⟨scope, .get id live⟩ => exec S ⟨scope, .get (id.scoped cs) live⟩ w
  | ⟨scope, .list client typeMeta ns selector limit live⟩ =>
    exec S ⟨scope,
      .list client typeMeta (if cs client typeMeta then "" else ns) selector limit live⟩ w
  | ⟨scope, .create client obj⟩ => exec S ⟨scope, .create client (obj.scoped cs client)⟩ w
  | ⟨scope, .update client obj⟩ => exec S ⟨scope, .update client (obj.scoped cs client)⟩ w
  | ⟨scope, .updateStatus client obj⟩ => exec S
      ⟨scope, .updateStatus client (obj.scoped cs client)⟩ w
  | ⟨scope, .patch id patch⟩ => exec S ⟨scope, .patch (id.scoped cs) patch⟩ w
  | ⟨scope, .apply client obj fieldManager⟩ =>
    exec S ⟨scope, .apply client (obj.scoped cs client) fieldManager⟩ w
  | ⟨scope, .delete id policy⟩ => exec S ⟨scope, .delete (id.scoped cs) policy⟩ w
  | c => exec S c w

@[simp] theorem ObjectId.scoped_client (cs : ClusterScoped) (id : ObjectId) :
    (id.scoped cs).client = id.client := by
  unfold ObjectId.scoped
  split
  · rfl
  · rfl

theorem ObjectId.scoped_scoped (cs : ClusterScoped) (id : ObjectId) :
    (id.scoped cs).scoped cs = id.scoped cs := by
  unfold ObjectId.scoped
  by_cases h : cs id.client id.typeMeta = true
  · simp [h]
  · simp [h]

/-- Two names of an object of one type: equal, or equal but for the namespace. -/
theorem ObjectId.scoped_eq_iff {cs : ClusterScoped} {client : Client} {typeMeta : TypeMeta}
    {ns ns' name name' : String} :
    (ObjectId.mk client typeMeta ns name).scoped cs =
    (ObjectId.mk client typeMeta ns' name').scoped cs ↔
    name = name' ∧ (cs client typeMeta = true ∨ ns = ns') := by
  unfold ObjectId.scoped
  by_cases h : cs client typeMeta = true
  · simp [h]
  · simp [h, and_comm]

end Kube

namespace Sync

open Kube

variable {S : Server} {cs : ClusterScoped} {w : World}

theorem execScoped_delete : DeletesFreely (execScoped S cs) := fun _ id policy w =>
  deleteObject_answer w (id.scoped cs) policy

theorem execScoped_list (scope : Scope) (client : Client)
    (typeMeta : TypeMeta) (selector : Selector)
    (limit : Nat) (live : Bool) :
    execScoped S cs ⟨scope, .list client typeMeta "" selector limit live⟩ w =
      (.ok (w.listObjects client typeMeta "" selector limit), w) := by
  show ((.ok
    (w.listObjects client typeMeta (if cs client typeMeta then "" else "") selector limit) :
    Except ApiError (List Unstructured)), w) = _
  rw [ite_self]

namespace ResourceSyncer

variable {scope : Scope} {dest : SyncSide} {keep : List String}
  {policies : SortedMap String DeletionPropagation} {item : Unstructured}

/-- The calls of what is done unless `p` asks for a requeue, where `p` asks for one or does
nothing. -/
theorem mem_calls_unless {answer : (c : api.Call) → World → api.Resp c × World} {p q : SyncM Bool}
    (hp : p = pure false ∨ ∀ w b w', Fallible.eval answer p w = (.ok b, w') → b = true) {c : Call}
    (hc : c ∉ Fallible.calls answer p w) :
    c ∈ Fallible.calls answer (do
      let b ← p
      if b then return true
      else q) w ↔ p = pure false ∧ c ∈ Fallible.calls answer q w := by
  rw [Fallible.mem_calls_bind]
  constructor
  · rintro (h | ⟨b, w', heval, h⟩)
    · exact absurd h hc
    · rcases hp with rfl | hp
      · cases heval
        exact ⟨rfl, h⟩
      · obtain rfl := hp w b w' heval
        cases h
  · rintro ⟨rfl, h⟩
    exact .inr ⟨false, w, rfl, h⟩

variable {s : ResourceSyncer} {remote : ObjectSide} {identifier : String}
  {resolvedObjects : List ResolvedObject}

theorem remember_cases (answer : (c : api.Call) → World → api.Resp c × World) :
    s.rememberRelatedObjects scope remote identifier resolvedObjects = pure false ∨
    ∀ w b w',
    Fallible.eval answer (s.rememberRelatedObjects scope remote identifier resolvedObjects) w =
      (.ok b, w') → b = true := by
  unfold rememberRelatedObjects
  split
  · exact .inl rfl
  · dsimp only
    split
    · exact .inl rfl
    · refine .inr fun w b w' heval => ?_
      obtain ⟨_, _, -, hend⟩ := Fallible.eval_bind_ok _ heval
      cases hend
      rfl

theorem mem_calls_cleanUp {origin dest : ObjectSide} {relRes : RelatedResourceSpec}
    (hpolicy : relRes.effectiveCleanupPolicy = .matchOrigin) (hne : resolvedObjects ≠ [])
    {gvk : TypeMeta} {requeue : Bool} {c : Call} :
    c ∈ Fallible.calls (execScoped S cs)
    (s.cleanUpRelatedCopies scope remote origin dest relRes false
      gvk resolvedObjects requeue) w ↔
    c ∈ Fallible.calls (execScoped S cs) (pruneRelatedCopies scope dest.toSyncSide gvk
      (relatedCopySelector s.libs.hash remote.object remote.clusterName s.pubRes.name
        relRes.identifier s.agentName)
      (some (resolvedObjects.map fun resolved => relatedCopyKey resolved.destination))
      (SortedMap.ofList (resolvedObjects.map fun resolved => (relatedCopyKey resolved.destination,
        relatedDeletionPropagationPolicy relRes.origin resolved.original)))) w := by
  unfold cleanUpRelatedCopies
  rw [hpolicy]
  dsimp only
  rw [if_neg (by simp), if_pos (by simp), if_neg (by simpa using hne),
    Fallible.calls_bind_pure, wrap,
    Fallible.calls_mapError]

end ResourceSyncer

namespace RelatedSync

variable {R : RelatedSync}

theorem deletes_copy {c : Call} (hc : c ∈ Fallible.calls (execScoped S cs) R.run w) {id : ObjectId}
    {policy : DeletionPropagation} (hdelete : c.verb = .delete id policy) :
    R.objectSyncer.Deleting R.resolved.original ∧ id = R.copyId.scoped cs := by
  have hread : ∀ c' : Call, c'.failure = none → c' ≠ c := by
    rintro c' hc' rfl
    exact not_deletes_of_read hc' ⟨id, policy, hdelete⟩
  rw [calls_run] at hc
  rcases List.mem_cons.mp hc with rfl | hc
  · cases hdelete
  by_contra hnot
  have hwrites : ∀ c' : Call, c'.scope = R.scope → WriteCall R.destSide.client c' → c' ≠ c := by
    rintro c' - (h | h | ⟨_, _, _, h⟩)
    · exact hread c' h
    · rintro rfl
      rw [hdelete] at h
      cases h
    · rintro rfl
      exact h id policy hdelete
  have hfound : ∀ d, (execScoped S cs ⟨R.scope, .get R.copyId false⟩ w).1.toOption = some d →
      d.idOn R.destSide.client = R.copyId.scoped cs := by
    intro d hd
    have hobj : w.object? (R.copyId.scoped cs) = some d := by
      rw [show (execScoped S cs ⟨R.scope, .get R.copyId false⟩ w).1 =
        (w.object? (R.copyId.scoped cs)).elim (.error .notFound) .ok from rfl] at hd
      cases hobj : w.object? (R.copyId.scoped cs) with
      | none =>
        rw [hobj] at hd
        cases hd
      | some o =>
        rw [hobj] at hd
        exact hd
    have hid := World.idOn_of_object? hobj
    rw [ObjectId.scoped_client] at hid
    exact hid
  have hall : (R.objectSyncer.sync R.syncer.libs R.scope R.sourceSide R.destSide R.resolved.original
      (execScoped S cs ⟨R.scope, .get R.copyId false⟩ w).1.toOption).AllCalls (· ≠ c) := by
    refine .mono ObjectSyncer.sync_calls fun c' hc' => ?_
    cases hc' with
    | dest hscope hc' => exact hwrites c' hscope hc'.write
    | delete policy' hdel _ hd =>
      rintro rfl
      cases hdelete
      exact hnot ⟨hdel, hfound _ hd⟩
    | status obj hback => cases hback
    | _ =>
      rintro rfl
      cases hdelete
  exact Prog.AllCalls.of_mem_calls hall hc rfl

end RelatedSync

namespace RelatedPass

variable (P : RelatedPass) (cs : ClusterScoped)
    {answer : (c : api.Call) → World → api.Resp c × World}

/-- The pass comes to the clean-up of copies, in the state `w₂`. -/
structure CleansUp (answer : (c : api.Call) → World → api.Resp c × World) (w : World)
    (found : List ResolvedObject) (gvk : TypeMeta) (w₂ : World) : Prop where
  synced : ∃ requeues, P.Synced answer w found gvk requeues w₂
  remembered : P.relRes.origin = .service → P.syncer.rememberRelatedObjects P.scope P.remote
    P.relRes.identifier (ResourceSyncer.syncOrder found) = pure false

/-- A resolved object whose copy is to stay: none of the origin objects of the copy is in
deletion. -/
structure Stays (found : List ResolvedObject) (gvk : TypeMeta)
    (resolved : ResolvedObject) : Prop where
  mem : resolved ∈ found
  live : ∀ r ∈ found, (P.turn gvk r).copyId.scoped cs = (P.turn gvk resolved).copyId.scoped cs →
    r.original.metadata.deletionTimestamp = none

/-- A copy that the prune takes for a leftover: it is cluster-scoped and has the name of the copy of
a resolved object, but nothing was resolved under the namespace that is stored with it. -/
structure Overlooked (found : List ResolvedObject) (gvk : TypeMeta) (resolved : ResolvedObject)
    (w₂ : World) (o : Unstructured) : Prop where
  clusterScoped : cs P.dest.client gvk = true
  listed : w₂.Listed P.dest.client gvk "" P.selector o
  live : o.metadata.deletionTimestamp = none
  name : o.metadata.name = resolved.destination.name
  unmatched : ∀ r ∈ found, relatedCopyKey r.destination ≠ relatedCopyKey (objectKeyFromObject o)

variable {P cs}

theorem exists_resolved {t : RelatedSync × World} (ht : t ∈ P.turns answer w) :
    ∃ found w₁ gvk, Fallible.eval answer P.resolution w = (.ok found, w₁) ∧
      P.syncer.libs.kindFor P.dest.client P.relRes.projectedGVR = .ok gvk ∧
      ∃ resolved ∈ found, t.1 = P.turn gvk resolved := by
  unfold turns at ht
  split at ht
  · next found w₁ gvk hfound hkind =>
    obtain ⟨v, hv, rfl⟩ := List.mem_map.mp ht
    have hmem := Fallible.mem_of_mem_visits _ hv
    exact ⟨found, w₁, gvk, hfound, hkind, v.1,
      (List.perm_insertionSort _ found).mem_iff.mp hmem, rfl⟩
  · cases ht

/-- With a live primary object and the policy MatchOrigin, what is deleted after the syncs are
listed copies under names that were not resolved. -/
theorem mem_afterTurns_deletes_iff (hlive : P.primaryDeleting = false)
    (hpolicy : P.relRes.effectiveCleanupPolicy = .matchOrigin) {found : List ResolvedObject}
    (hfound : found ≠ []) {gvk : TypeMeta} {requeues : List Bool} {copy : ObjectId} :
    (∃ c ∈ Fallible.calls (execScoped S cs) (P.afterTurns found gvk requeues) w,
      ∃ policy, c.verb = .delete copy policy) ↔
    (P.relRes.origin = .service → P.syncer.rememberRelatedObjects P.scope P.remote
      P.relRes.identifier (ResourceSyncer.syncOrder found) = pure false) ∧
    ∃ o, w.Listed P.dest.client gvk "" P.selector o ∧ copy = o.idOn P.dest.client ∧
      (∀ r ∈ found, relatedCopyKey r.destination ≠ relatedCopyKey (objectKeyFromObject o)) ∧
      o.metadata.deletionTimestamp = none := by
  have hmem : ∀ r, r ∈ ResourceSyncer.syncOrder found ↔ r ∈ found := fun _ =>
    (List.perm_insertionSort _ found).mem_iff
  have hne : ResourceSyncer.syncOrder found ≠ [] := by
    obtain ⟨r, hr⟩ := List.exists_mem_of_ne_nil found hfound
    exact List.ne_nil_of_mem ((hmem r).mpr hr)
  have hunmatched : ∀ o : Unstructured, relatedCopyKey (objectKeyFromObject o) ∉
      (ResourceSyncer.syncOrder found).map (fun resolved => relatedCopyKey resolved.destination) ↔
      ∀ r ∈ found, relatedCopyKey r.destination ≠ relatedCopyKey (objectKeyFromObject o) := by
    intro o
    simp only [List.mem_map, hmem, not_exists, not_and, ne_eq]
  -- the clean-up is reached if nothing is to be remembered
  have hcleanUp : ∀ c : Call, (∃ policy, c.verb = .delete copy policy) →
      (c ∈ Fallible.calls (execScoped S cs) (P.afterTurns found gvk requeues) w ↔
        (P.relRes.origin = .service → P.syncer.rememberRelatedObjects P.scope P.remote
          P.relRes.identifier (ResourceSyncer.syncOrder found) = pure false) ∧
        c ∈ Fallible.calls (execScoped S cs) (P.syncer.cleanUpRelatedCopies P.relScope P.remote
          P.origin P.dest P.relRes P.primaryDeleting gvk (ResourceSyncer.syncOrder found)
          (requeues.any id)) w) := by
    rintro c ⟨policy, hdelete⟩
    unfold afterTurns
    rw [ResourceSyncer.mem_calls_unless]
    · refine and_congr_left fun _ => ?_
      split
      · next hservice => exact ⟨fun h _ => h, fun h => h hservice⟩
      · next hkcp => exact iff_of_true rfl fun h => absurd h hkcp
    · split
      · exact ResourceSyncer.remember_cases _
      · exact .inl rfl
    · split
      · intro hc
        refine Prog.AllCalls.of_mem_calls (P := (· ≠ c))
          (ResourceSyncer.rememberRelatedObjects_allCalls ?_) hc rfl
        rintro annotations rfl
        cases hdelete
      · rintro ⟨⟩
  constructor
  · rintro ⟨c, hc, policy, hdelete⟩
    obtain ⟨hremembered, hc⟩ := (hcleanUp c ⟨policy, hdelete⟩).mp hc
    rw [hlive, ResourceSyncer.mem_calls_cleanUp hpolicy hne,
      ResourceSyncer.mem_calls_prune execScoped_delete (execScoped_list ..)] at hc
    rcases hc with rfl | ⟨o, hlisted, rfl, hkeep, hdying⟩
    · cases hdelete
    · cases hdelete
      exact ⟨hremembered, o, hlisted, rfl, (hunmatched o).mp hkeep, hdying⟩
  · rintro ⟨hremembered, o, hlisted, rfl, hkeep, hdying⟩
    refine ⟨ResourceSyncer.pruneCall P.relScope P.dest.toSyncSide (SortedMap.ofList
      ((ResourceSyncer.syncOrder found).map fun resolved => (relatedCopyKey resolved.destination,
        relatedDeletionPropagationPolicy P.relRes.origin resolved.original))) o,
      (hcleanUp _ ⟨_, rfl⟩).mpr ⟨hremembered, ?_⟩, _, rfl⟩
    rw [hlive, ResourceSyncer.mem_calls_cleanUp hpolicy hne,
      ResourceSyncer.mem_calls_prune execScoped_delete (execScoped_list ..)]
    exact .inr ⟨o, hlisted, rfl, (hunmatched o).mpr hkeep, hdying⟩

/-- A pass over a live primary object with the policy MatchOrigin deletes the copy of no resolved
object but to forward the deletion of an origin object, unless the prune overlooks a cluster-scoped
copy. -/
theorem synced_copies_kept_iff (P : RelatedPass) (cs : ClusterScoped)
    (hlive : P.primaryDeleting = false) (hpolicy : P.relRes.effectiveCleanupPolicy = .matchOrigin)
    (w : World) :
    (∀ found w₁ gvk, Fallible.eval (execScoped P.server cs) P.resolution w = (.ok found, w₁) →
      P.syncer.libs.kindFor P.dest.client P.relRes.projectedGVR = .ok gvk →
      ∀ resolved, P.Stays cs found gvk resolved →
      ∀ c ∈ Fallible.calls (execScoped P.server cs) P.program w, ∀ id policy,
        c.verb = .delete id policy → id.scoped cs ≠ (P.turn gvk resolved).copyId.scoped cs) ↔
    ¬ ∃ found gvk w₂ resolved o, P.CleansUp (execScoped P.server cs) w found gvk w₂ ∧
      P.Stays cs found gvk resolved ∧ P.Overlooked cs found gvk resolved w₂ o := by
  constructor
  · rintro hkept ⟨found, gvk, w₂, resolved, o, ⟨⟨requeues, hsynced⟩, hremembered⟩, hstays, hover⟩
    obtain ⟨w₁, hfound, -⟩ := hsynced.synced
    obtain ⟨c, hc, policy, hdelete⟩ : ∃ c ∈ Fallible.calls (execScoped P.server cs)
        (P.afterTurns found gvk requeues) w₂, ∃ policy,
          c.verb = .delete (o.idOn P.dest.client) policy :=
      (mem_afterTurns_deletes_iff hlive hpolicy (List.ne_nil_of_mem hstays.mem)).mpr
        ⟨hremembered, o, hover.listed, rfl, hover.unmatched, hover.live⟩
    have hpass : c ∈ Fallible.calls (execScoped P.server cs) P.program w :=
      mem_calls_program.mpr (.inr (.inr ⟨found, gvk, requeues, w₂, hsynced, hc⟩))
    refine hkept found w₁ gvk hfound hsynced.kind resolved hstays c hpass _ policy hdelete ?_
    have hid : o.idOn P.dest.client = ⟨P.dest.client, gvk, o.metadata.ns, o.metadata.name⟩ := by
      rw [← hover.listed.typeMeta]
      rfl
    rw [hid]
    exact ObjectId.scoped_eq_iff.mpr ⟨hover.name, .inl hover.clusterScoped⟩
  · intro hcond found w₁ gvk hfound hkind resolved hstays c hc id policy hdelete hsame
    rcases mem_calls_program.mp hc with hc | ⟨t, ht, hc⟩ | ⟨found', gvk', requeues, w₂, hsynced, hc⟩
    · exact not_deletes_of_read
        (Prog.AllCalls.of_mem_calls resolveRelatedResourceObjects_allCalls hc).read
        ⟨id, policy, hdelete⟩
    · -- a sync deletes a copy if the origin object is in deletion
      obtain ⟨found', w₁', gvk', hfound', hkind', r, hr, hturn⟩ := exists_resolved ht
      cases hfound.symm.trans hfound'
      cases hkind.symm.trans hkind'
      obtain ⟨hdel, rfl⟩ := RelatedSync.deletes_copy hc hdelete
      rw [hturn] at hsame hdel
      have hdying := hstays.live r hr ((ObjectId.scoped_scoped cs _).symm.trans hsame)
      rcases hdel with h | h
      · rw [show (P.turn gvk r).resolved.original.metadata.deletionTimestamp =
          none from hdying] at h
        cases h
      · have hforce : ResourceSyncer.forceDelete P.relRes P.primaryDeleting = true := h
        rw [ResourceSyncer.forceDelete, hlive] at hforce
        cases hforce
    · obtain ⟨w₁', hfound', -⟩ := hsynced.synced
      cases hfound.symm.trans hfound'
      cases hkind.symm.trans hsynced.kind
      obtain ⟨hremembered, o, hlisted, rfl, hunmatched, hdying⟩ := (mem_afterTurns_deletes_iff hlive
        hpolicy (List.ne_nil_of_mem hstays.mem)).mp ⟨c, hc, policy, hdelete⟩
      have hid : o.idOn P.dest.client = ⟨P.dest.client, gvk, o.metadata.ns, o.metadata.name⟩ := by
        rw [← hlisted.typeMeta]
        rfl
      rw [hid] at hsame
      obtain ⟨hname, hcs | hns⟩ := ObjectId.scoped_eq_iff.mp hsame
      · exact hcond ⟨found, gvk, w₂, resolved, o, ⟨⟨requeues, hsynced⟩, hremembered⟩, hstays,
          ⟨hcs, hlisted, hdying, hname, hunmatched⟩⟩
      · -- a copy in the namespace of the destination is to be kept
        refine hunmatched resolved hstays.mem ?_
        unfold objectKeyFromObject
        rw [hns, hname]
        rfl

/-! ### A cluster-scoped copy -/

def clusterRole : TypeMeta := ⟨"rbac.authorization.k8s.io/v1", "ClusterRole", by decide⟩

/-- Cluster roles are cluster-scoped. -/
def rolesScoped : ClusterScoped := fun _ typeMeta => typeMeta = clusterRole

/-- The processing of a related cluster role of the workspace. -/
def rolePass : RelatedPass :=
  { secretPass with
    syncer := { ResourceSyncer.sampleSyncer with libs.kindFor := fun _ _ => .ok clusterRole }
    relRes := { ResourceSyncer.secretNamed "root" with kind := "ClusterRole" } }

/-- The cluster role in the workspace, with the finalizer. -/
def roleWorld : World :=
  World.empty.put (.remoteClient "c1") ⟨clusterRole,
    { name := "root", finalizers := [deletionFinalizer] }, default⟩

/-- Where the copies of the resolved objects of a pass go, if none of the objects is in deletion. -/
def destinationsIn (P : RelatedPass) (cs : ClusterScoped) (w : World) :
    Option (List NamespacedName) :=
  (Fallible.eval (execScoped P.server cs) P.resolution w).1.toOption.bind fun found =>
    if found.all fun r => r.original.metadata.deletionTimestamp.isNone then
      some (found.map ResolvedObject.destination)
    else none

theorem exists_stays {P : RelatedPass} {w : World} {name : NamespacedName} (gvk : TypeMeta)
    (h : destinationsIn P cs w = some [name]) : ∃ found w₁ resolved,
      Fallible.eval (execScoped P.server cs) P.resolution w = (.ok found, w₁) ∧
      P.Stays cs found gvk resolved ∧ resolved.destination = name := by
  unfold destinationsIn at h
  rcases heval : Fallible.eval (execScoped P.server cs) P.resolution w with ⟨e | found, w₁⟩
  · rw [heval] at h
    cases h
  · rw [heval] at h
    obtain ⟨found', hfound, h⟩ := Option.bind_eq_some_iff.mp h
    obtain rfl : found = found' := Option.some.inj hfound
    split at h
    · next hlive =>
      obtain ⟨resolved, rfl, rfl⟩ := List.map_eq_singleton_iff.mp (Option.some.inj h)
      refine ⟨_, w₁, resolved, rfl, ⟨List.mem_singleton_self _, fun r hr _ => ?_⟩, rfl⟩
      simpa using List.all_eq_true.mp hlive r hr
    · cases h

/-- In a namespace, the copy of the sample's Secret stays. -/
theorem synced_copies_kept_secret : ∃ resolved : ResolvedObject,
    resolved.destination = ⟨"tenant", "root"⟩ ∧
    ∀ c ∈ Fallible.calls (execScoped .setting fun _ _ => false) secretPass.program
      ResourceSyncer.secretsWorld, ∀ id policy, c.verb = .delete id policy →
        id ≠ (secretPass.turn .secret resolved).copyId := by
  have hdest : destinationsIn secretPass (fun _ _ => false) ResourceSyncer.secretsWorld =
      some [⟨"tenant", "root"⟩] := by decide +kernel
  obtain ⟨found, w₁, resolved, hfound, hstays, hname⟩ := exists_stays .secret hdest
  refine ⟨resolved, hname, fun c hc id policy hdelete => ?_⟩
  refine (secretPass.synced_copies_kept_iff (fun _ _ => false) rfl rfl
    ResourceSyncer.secretsWorld).mpr ?_ found w₁ .secret hfound rfl resolved
    hstays c hc id policy hdelete
  rintro ⟨_, _, _, _, _, -, -, hover⟩
  cases hover.clusterScoped

/-- The copy of a cluster role is deleted in the pass that creates it. -/
theorem cluster_scoped_copy_pruned : ∃ found w₁ resolved,
    Fallible.eval (execScoped .setting rolesScoped) rolePass.resolution roleWorld =
    (.ok found, w₁) ∧
    rolePass.Stays rolesScoped found clusterRole resolved ∧
    ∃ c ∈ Fallible.calls (execScoped .setting rolesScoped) rolePass.program roleWorld, ∃ id policy,
      c.verb = .delete id policy ∧
      id.scoped rolesScoped = (rolePass.turn clusterRole resolved).copyId.scoped rolesScoped := by
  have hdest : destinationsIn rolePass rolesScoped roleWorld = some [⟨"tenant", "root"⟩] := by
    decide +kernel
  obtain ⟨found, w₁, resolved, hfound, hstays, hname⟩ := exists_stays clusterRole hdest
  have htest : ((Fallible.calls (execScoped .setting rolesScoped) rolePass.program roleWorld).any
      fun c => match c.verb with
        | .delete id _ => id = ⟨.localClient, clusterRole, "", "root"⟩
        | _ => false) = true := by decide +kernel
  obtain ⟨c, hc, hdelete⟩ := List.any_eq_true.mp htest
  refine ⟨found, w₁, resolved, hfound, hstays, c, hc, ?_⟩
  split at hdelete
  · next id policy hverb =>
    refine ⟨id, policy, hverb, ?_⟩
    rw [of_decide_eq_true hdelete]
    have hcopy : (rolePass.turn clusterRole resolved).copyId =
        ⟨.localClient, clusterRole, resolved.destination.ns, resolved.destination.name⟩ := rfl
    rw [hcopy, hname]
    exact ObjectId.scoped_eq_iff.mpr ⟨rfl, .inl (by decide)⟩
  · cases hdelete

end RelatedPass

end Sync
