import SyncAgent.Sync.Convergence
import SyncAgent.Sync.Completion

/-! `Process` stabilises: without related resources and with nobody else writing, no more than four
calls in a row ask for a requeue, and after the first call that does not, all further calls only
read. -/

namespace Sync

open Kube

/-! ### Calls that only read -/

/-- The answer to a read; a write is not answered. -/
def execReads (S : Server) (c : api.Call) (w : World) : Option (api.Resp c × World) :=
  if Call.failure c = none then some (exec S c w) else none

/-- The program returns `a` from `w` and makes no call but reads, which leave `w` as it is. -/
def Reads (S : Server) {α : Type} (p : SyncM α) (w : World) (a : α) : Prop :=
  Prog.evalSome (execReads S) p.run w = some (.ok a, w)

namespace Reads

variable {S : Server} {α β : Type} {w : World} {scope : Scope}

theorem pure (a : α) : Reads S (Pure.pure a) w a := rfl

theorem bind {p : SyncM α} {f : α → SyncM β} {a : α} {b : β} (hp : Reads S p w a)
    (hf : Reads S (f a) w b) : Reads S (p >>= f) w b := by
  refine (Prog.evalSome_bind _ p.run _ w).trans ?_
  rw [show Prog.evalSome (execReads S) p.run w = some (.ok a, w) from hp]
  exact hf

theorem wrap {text : String} {p : SyncM α} {a : α} (hp : Reads S p w a) :
    Reads S (wrap text p) w a := by
  refine (Prog.evalSome_bind _ p.run _ w).trans ?_
  rw [show Prog.evalSome (execReads S) p.run w = some (.ok a, w) from hp]
  rfl

theorem list (client : Client) (typeMeta : TypeMeta) (ns : String) (selector : Selector)
    (limit : Nat) (live : Bool) : Reads S (list scope client typeMeta ns selector limit live) w
      (w.listObjects client typeMeta ns selector limit) := rfl

theorem state (hash : Hash) (b : KubernetesBackend) (o : Unstructured) (clusterName : String) :
    Reads S (ObjectStateStore.get hash b scope o clusterName) w
      (((b.entries w).get? (KubernetesBackend.sourceKey hash o clusterName)).join.bind
        Unstructured.ofFields) := by
  have hsecret : Reads S (b.secret scope) w (w.secret? b.secretName) := by
    have hget : Reads S (request scope (.getSecret b.secretName)) w
        ((w.secret? b.secretName).elim (.error .notFound) .ok) := rfl
    refine hget.bind ?_
    cases w.secret? b.secretName <;> exact pure _
  refine bind (a := (b.entries w).get? (KubernetesBackend.sourceKey hash o clusterName)) ?_ (pure _)
  exact bind hsecret (pure _)

theorem returns {p : SyncM α} {a : α} (h : Reads S p w a) : Returns S p w a w := by
  have heval : ∀ {β : Type} (p : Prog api β) (w : World) {b : β} {w' : World},
      p.evalSome (execReads S) w = some (b, w') → p.eval (exec S) w = (b, w') := by
    intro β p
    induction p with
    | pure b =>
      intro w b' w' h
      exact Option.some.inj h
    | call c k ih =>
      intro w b w' h
      rw [Prog.evalSome, Option.bind_eq_some_iff] at h
      obtain ⟨⟨r, w₁⟩, hexec, hrest⟩ := h
      unfold execReads at hexec
      split at hexec
      · rw [Prog.eval, Option.some.inj hexec]
        exact ih r w₁ hrest
      · cases hexec
  exact heval p.run w h

end Reads

namespace Primary

variable {P : Primary} {r l : Unstructured} {w w' : World}

/-- The settings: client-side merge patches, no mutations and no related resources. -/
structure Plain (P : Primary) : Prop where
  merge : P.syncer.useServerSideApply = false
  mutator : P.syncer.primaryMutator = none
  related : P.syncer.pubRes.related = []

/-- There is nothing to do: the local object is in deletion, or both objects are as they should
be. -/
def Idle (P : Primary) (r l : Unstructured) (w : World) : Prop :=
  l.metadata.deletionTimestamp.isSome = true ∨
    (P.syncerOf r).Unchanged P.syncer.libs
      (ResourceSyncer.remoteSide P.clusterName P.workspacePath) r l w ∧
    r.content.field "status" = l.content.field "status"

theorem process_reads (hP : P.Plain) (hlive : r.metadata.deletionTimestamp = none)
    (hfin : r.metadata.finalizers.contains deletionFinalizer = true)
    (hcopies : P.syncer.copies P.clusterName P.workspacePath r w = [l]) (hidle : P.Idle r l w) :
    Reads P.server (P.syncer.process P.clusterName P.workspacePath r) w false := by
  have hfind : Reads P.server (P.syncer.findLocalObject
      (ResourceSyncer.primaryScope P.clusterName r)
      (newObjectKey r P.clusterName P.workspacePath)) w (some l) := by
    refine .bind (Reads.list _ _ _ _ _ _).wrap ?_
    rw [show w.listObjects .localClient P.syncer.destType "" (selectorFromSet ((newObjectKey r
      P.clusterName P.workspacePath).labels P.syncer.libs.hash)) 2 = [l] from hcopies]
    exact .pure _
  have hmutated : Reads P.server ((P.syncerOf r).syncMutated P.syncer.libs
      (ResourceSyncer.primaryScope P.clusterName r)
      (ResourceSyncer.remoteSide P.clusterName P.workspacePath) ResourceSyncer.localSide r (some l))
      w (false, r) := by
    unfold ObjectSyncer.syncMutated
    rw [if_neg (by simp [show (P.syncerOf r).useServerSideApply = false from hP.merge])]
    dsimp only
    split
    · exact .pure _
    · next hlocal =>
      obtain ⟨⟨last, hlast, hclean⟩, hstatus⟩ := hidle.resolve_left hlocal
      have hspec : Reads P.server ((P.syncerOf r).syncObjectSpec P.syncer.libs
          (ResourceSyncer.primaryScope P.clusterName r)
          (ResourceSyncer.remoteSide P.clusterName P.workspacePath) ResourceSyncer.localSide r l) w
          (false, l) := by
        refine .bind (Reads.state _ _ _ _).wrap ?_
        unfold ObjectSyncer.lastKnown at hlast
        rw [hlast]
        dsimp only
        rw [if_pos hclean]
        exact .pure _
      have hback : Reads P.server ((P.syncerOf r).syncObjectStatus
          (ResourceSyncer.primaryScope P.clusterName r)
          (ResourceSyncer.remoteSide P.clusterName P.workspacePath) r l) w r := by
        unfold ObjectSyncer.syncObjectStatus
        rw [if_neg (by simp [show (P.syncerOf r).syncStatusBack = true from rfl]), if_pos hstatus]
        exact .pure _
      have hstamped : Reads P.server ((P.syncerOf r).ensureDestMetadataPersisted P.syncer.libs
          (ResourceSyncer.primaryScope P.clusterName r) ResourceSyncer.localSide l) w
          (false, l) := by
        unfold ObjectSyncer.ensureDestMetadataPersisted
        rw [if_pos ⟨rfl, rfl⟩]
        exact .pure _
      refine .bind hstamped.wrap (Reads.wrap (.bind hspec ?_))
      exact .bind (.pure ()) (.bind hback (.pure _))
  have hsync : Reads P.server ((P.syncerOf r).sync P.syncer.libs
      (ResourceSyncer.primaryScope P.clusterName r)
      (ResourceSyncer.remoteSide P.clusterName P.workspacePath) ResourceSyncer.localSide r (some l))
      w (false, r) := by
    have hmutator : (P.syncerOf r).mutator = none := hP.mutator
    unfold ObjectSyncer.sync
    rw [if_neg (by simp [hlive, show (P.syncerOf r).forceDelete = false from rfl])]
    refine .bind (a := (false, r)) ?_ ?_
    · rw [if_pos (show (P.syncerOf r).blockSourceDeletion = true from rfl)]
      refine Reads.wrap ?_
      unfold ensureFinalizer
      rw [if_pos hfin]
      exact .pure _
    · dsimp only
      rw [if_neg (by simp), ObjectSyncer.applyMutations, hmutator]
      refine .bind (a := (r, some l)) rfl (.bind hmutated ?_)
      exact .pure _
  refine .bind hfind.wrap (.bind (a := false) ?_ ?_)
  · dsimp only
    rw [if_neg (by simp [hlive])]
    exact .pure _
  · dsimp only
    rw [if_neg (by simp)]
    refine .bind hsync ?_
    dsimp only
    rw [if_neg (by simp)]
    unfold ResourceSyncer.processRelatedResources
    rw [hP.related]
    exact .pure _

theorem stored_status {S : Server} {scope : Scope} {client : Client}
    {o cur : Unstructured} {v : Doc}
    (h : exec S ⟨scope, .updateStatus client { cur with content := cur.content.setStatus v }⟩ w =
      (.ok o, w'))
    (hcur : w.object? (cur.idOn client) = some cur)
    (hlive : cur.metadata.deletionTimestamp = none) (hdiff : cur.content.field "status" ≠ v) :
    S.hasStatus client cur.typeMeta = true ∧ ∃ rv, w' = (w.put client { cur with
      metadata := { cur.metadata with resourceVersion := rv }
      content := cur.content.setStatus v }).tick := by
  rcases World.updateObjectStatus_cases S w client
    { cur with content := cur.content.setStatus v } with ⟨e, he⟩ | ⟨cur', next,
      hcur', hstatus, -, rfl, ho⟩
  · cases he.symm.trans h
  · obtain rfl := Option.some.inj (hcur.symm.trans hcur')
    rw [Content.field_setStatus] at ho
    cases ho.symm.trans h
    have hne : { cur with content := cur.content.setStatus v } ≠ cur := by
      intro heq
      apply hdiff
      rw [← Content.field_setStatus cur.content v]
      exact congrArg (fun o : Unstructured => o.content.field "status") heq.symm
    refine ⟨hstatus, w.clock + 1, ?_⟩
    rw [World.store, if_neg hne, if_neg (by simp [hlive])]
    rfl

theorem synced_of_plain (hP : P.Plain) (hr : w.object? P.id = some r)
    (hlive : r.metadata.deletionTimestamp = none) {requeue : Bool}
    (h : Returns P.server (P.syncer.process P.clusterName P.workspacePath r) w requeue w') :
    ∃ dest r₁, P.syncer.copies P.clusterName P.workspacePath r w = dest.toList ∧
      (P.syncerOf r).LiveOutcome P.server P.syncer.libs P.scope
        (ResourceSyncer.remoteSide P.clusterName P.workspacePath) ResourceSyncer.localSide r dest w
        requeue r₁ w' := by
  have hid := World.idOn_of_object? hr
  obtain ⟨dest, requeue₁, r₁, w₁, hcopies, hsynced, hrest⟩ := ResourceSyncer.process_returns hlive h
  rw [scope_eq hid] at hsynced
  refine ⟨dest, r₁, hcopies, ObjectSyncer.sync_returns (P.not_deleting hlive) ?_⟩
  rcases hrest with ⟨-, rfl, rfl⟩ | ⟨l, rfl, rfl, hrelated⟩
  · exact hsynced
  · unfold ResourceSyncer.processRelatedResources at hrelated
    rw [hP.related] at hrelated
    obtain ⟨rfl, rfl⟩ := hrelated.pure
    exact hsynced

theorem unchanged_setStatus (hstatus : "status" ∈ P.syncer.subresources) {v : Doc} {rv : Nat}
    {r' : Unstructured} (hr' : r' = { r with
      metadata := { r.metadata with resourceVersion := rv }, content := r.content.setStatus v })
    (hsecrets : ∀ id, w'.secret? id = w.secret? id)
    (h : (P.syncerOf r).Unchanged P.syncer.libs
      (ResourceSyncer.remoteSide P.clusterName P.workspacePath) r l w) :
    (P.syncerOf r').Unchanged P.syncer.libs
      (ResourceSyncer.remoteSide P.clusterName P.workspacePath) r' l w' := by
  obtain ⟨last, hlast, hclean⟩ := h
  refine ⟨last, ?_, ?_⟩
  · rw [← hlast]
    subst hr'
    unfold ObjectSyncer.lastKnown KubernetesBackend.entries
    rw [hsecrets]
    rfl
  · have hrevision : (P.syncerOf r').removeSubresources ((P.syncerOf r').desiredState P.syncer.libs
        (ResourceSyncer.remoteSide P.clusterName P.workspacePath) r' l) =
        (P.syncerOf r).removeSubresources ((P.syncerOf r).desiredState P.syncer.libs
          (ResourceSyncer.remoteSide P.clusterName P.workspacePath) r l) := by
      subst hr'
      refine Unstructured.ext rfl rfl ?_
      exact Content.without_setStatus r.content v hstatus
    rw [← hclean, ObjectSyncer.createMergePatch, hrevision]
    subst hr'
    rfl

theorem idle_of_false (hP : P.Plain)
    (hstatus : P.server.hasStatus (.remoteClient P.clusterName) P.typeMeta = true →
      "status" ∈ P.syncer.subresources) (hr : w.object? P.id = some r)
    (hlive : r.metadata.deletionTimestamp = none)
    (h : Returns P.server (P.syncer.process P.clusterName P.workspacePath r) w false w') :
    ∃ r' l, w'.object? P.id = some r' ∧ r'.metadata.deletionTimestamp = none ∧
      r'.metadata.finalizers.contains deletionFinalizer = true ∧
      P.syncer.copies P.clusterName P.workspacePath r' w' = [l] ∧ P.Idle r' l w' := by
  have hid := World.idOn_of_object? hr
  obtain ⟨dest, r₁, hcopies, houtcome⟩ := synced_of_plain hP hr hlive h
  cases houtcome with
  | synced hguarded hmutations hmutated =>
    have hfin := hguarded.guarded rfl
    obtain ⟨hsource, rfl⟩ := applyMutations_eq hP.mutator hmutations
    obtain rfl := hsource.symm
    cases hmutated with
    | skipped _ hdying => exact ⟨r, _, hr, hlive, hfin, hcopies, .inl hdying⟩
    | @unchanged l _ _ _ _ _ _ _ _ hspec hforward hback =>
      cases hspec with
      | clean hlast hclean =>
        obtain rfl := (hforward.eq_of_off rfl).symm
        cases hback with
        | off hoff => cases hoff
        | same heq => exact ⟨r, l, hr, hlive, hfin, hcopies, .inr ⟨⟨_, hlast, hclean⟩, heq⟩⟩
        | written _ hdiff hexec =>
          have hcur : w.object? (r.idOn (.remoteClient P.clusterName)) = some r := hid.symm ▸ hr
          obtain ⟨hhas, rv, rfl⟩ := stored_status hexec hcur hlive hdiff
          have hlocal : (Client.remoteClient P.clusterName) ≠ .localClient := fun h => by cases h
          refine ⟨{ r with
              metadata := { r.metadata with resourceVersion := rv }
              content := r.content.setStatus (l.content.field "status") }, l, ?_, hlive, hfin, ?_,
            .inr ⟨?_, Content.field_setStatus _ _⟩⟩
          · rw [World.object?_tick, World.object?_put]
            exact if_pos hid.symm
          · exact (World.listObjects_put hlocal 2).trans hcopies
          · refine unchanged_setStatus (hstatus ?_) rfl (fun _ => rfl) ⟨_, hlast, hclean⟩
            rw [← show r.typeMeta = P.typeMeta from congrArg ObjectId.typeMeta hid]
            exact hhas
    | applied hssa => cases hP.merge.symm.trans hssa
    | notApplied hssa => cases hP.merge.symm.trans hssa

/-! ### From one call to the next -/

/-- A local object that is found by its labels. -/
def Located (P : Primary) (w : World) (o : Unstructured) : Prop :=
  w.Listed .localClient P.syncer.destType "" (selectorFromSet (P.key.labels P.syncer.libs.hash)) o

theorem located_iff (hid : r.idOn (.remoteClient P.clusterName) = P.id) {dest : Option Unstructured}
    (hcopies : P.syncer.copies P.clusterName P.workspacePath r w = dest.toList) (o : Unstructured) :
    P.Located w o ↔ dest = some o := by
  have hselector : P.syncer.copySelector P.clusterName P.workspacePath r =
      selectorFromSet (P.key.labels P.syncer.libs.hash) := by
    rw [ResourceSyncer.copySelector, newObjectKey_eq hid]
  unfold Located
  rw [← hselector]
  constructor
  · intro hlisted
    have hlength : (P.syncer.copies P.clusterName P.workspacePath r w).length < 2 := by
      rw [hcopies]
      cases dest <;> simp
    have hmem : o ∈ dest.toList := hcopies ▸ World.mem_of_listed (.inr hlength) hlisted
    exact Option.mem_toList.mp hmem
  · rintro rfl
    have hmem : o ∈ P.syncer.copies P.clusterName P.workspacePath r w := by
      rw [hcopies]
      exact List.mem_singleton_self o
    exact World.listed_of_mem hmem

/-- One local object has all the link metadata, and no other one is found. -/
def Ready (P : Primary) (w : World) : Prop :=
  ∃ l, (∀ o, P.Located w o ↔ o = l) ∧ Keyed P.syncer.libs.hash P.key l

/-- No local object is found, and the name that is generated for it is free. -/
def Vacant (P : Primary) (r : Unstructured) (w : World) : Prop :=
  (∀ o, ¬ P.Located w o) ∧ ∀ d, (P.syncerOf r).destCreator r = .ok d →
    w.object? (d.idOn .localClient) = none

/-- The finalizer is there, and the last-known state is that of the remote object. -/
structure Recorded (P : Primary) (r : Unstructured) (w : World) : Prop where
  object : w.object? P.id = some r
  live : r.metadata.deletionTimestamp = none
  finalizer : r.metadata.finalizers.contains deletionFinalizer = true
  stored : P.stored w = some (snapshotObject r P.syncer.subresources)

theorem labelled_of_located {o : Unstructured} (h : P.Located w o) : P.Labelled o :=
  selectorFromSet_iff.mp h.selector

theorem not_located_of_labels {o : Unstructured} (hlabels : o.metadata.labels = ∅) :
    ¬ P.Located w o := by
  intro hfound
  have hlabelled := labelled_of_located hfound
  unfold Labelled at hlabelled
  rw [hlabels] at hlabelled
  have hcluster :
      ∃ v, (P.key.labels P.syncer.libs.hash).get? remoteObjectNameHashLabel = some v := by
    unfold ObjectKey.labels
    dsimp only
    split <;> simp [remoteObjectNameHashLabel, remoteObjectNamespaceHashLabel]
  obtain ⟨v, hv⟩ := hcluster
  cases hlabelled _ v hv

theorem located_of_namespace {scope : Scope} {ns : String}
    (h : ObjectSyncer.EnsuresNamespace scope .localClient ns w w') {o : Unstructured}
    (ho : P.Located w' o) : P.Located w o := by
  rcases h with ⟨rfl, -⟩ | ⟨-, o', -, hlabels, -, hadds⟩
  · exact ho
  · have hobj := ho.object
    rw [hadds.objects] at hobj
    split at hobj
    · cases hobj
      exact absurd ho (not_located_of_labels hlabels)
    · exact ⟨hobj, ho.typeMeta, ho.ns, ho.selector⟩

theorem ready_of_object {id : ObjectId} {o : Unstructured} (hclient : id.client = .localClient)
    (htype : id.typeMeta = P.syncer.destType) (ho : w'.object? id = some o)
    (hkeyed : Keyed P.syncer.libs.hash P.key o)
    (hothers : ∀ id' x, id' ≠ id → w'.object? id' = some x → w.object? id' = some x)
    (hfound : ∀ x, P.Located w x → x.idOn .localClient = id) : P.Ready w' := by
  have hid : o.idOn .localClient = id := hclient ▸ World.idOn_of_object? ho
  refine ⟨o, fun x => ⟨fun hx => ?_, ?_⟩, hkeyed⟩
  · by_cases hx' : x.idOn .localClient = id
    · exact Option.some.inj (hx.object.symm.trans (hx' ▸ ho))
    · exact absurd (hfound x ⟨hothers _ x hx' hx.object, hx.typeMeta, hx.ns, hx.selector⟩) hx'
  · rintro rfl
    exact ⟨hid ▸ ho, (congrArg ObjectId.typeMeta hid).trans htype, .inl rfl,
      selectorFromSet_iff.mpr hkeyed.labels⟩

theorem keyed_of_rewrites {id : ObjectId} {next o : Unstructured} {hash : Hash} {key : ObjectKey}
    (h : w.Rewrites id next o w') (hnext : Keyed hash key next) : Keyed hash key o := by
  obtain ⟨rv, hmeta⟩ := h.becomes.metadata
  constructor
  · rw [hmeta]
    exact hnext.labels
  · rw [hmeta]
    exact hnext.annotations

section Placed

variable (hid : r.idOn (.remoteClient P.clusterName) = P.id) (hnone : ∀ o, ¬ P.Located w o)
  {d o : Unstructured} {w₁ w₂ : World} (hcreator : (P.syncerOf r).destCreator r = .ok d)
  (hns : ObjectSyncer.EnsuresNamespace P.scope .localClient d.metadata.ns w w₁)

include hid hnone hcreator hns

theorem ready_of_created (hexec : exec P.server ⟨P.scope, .create .localClient
      ((P.syncerOf r).newDestination P.syncer.libs
        (ResourceSyncer.remoteSide P.clusterName P.workspacePath) r d)⟩ w₁ = (.ok o, w₂))
    (hstores : ∀ id, w'.object? id = w₂.object? id) : P.Ready w' := by
  have hkeyed : Keyed P.syncer.libs.hash P.key ((P.syncerOf r).newDestination P.syncer.libs
      (ResourceSyncer.remoteSide P.clusterName P.workspacePath) r d) :=
    keyOf_eq (name_eq hid).1 (name_eq hid).2 ▸
      ObjectSyncer.newDestination_keyed (syncerOf_links r) d
  rcases World.Does.create (.inl hexec) with ⟨e, he, -⟩ | ⟨o', ho', hplaced, hadds⟩
  · cases he
  · cases ho'
    have hobj : w'.object? (o.idOn .localClient) = some o := by
      rw [hstores, hadds.objects]
      exact if_pos rfl
    have htype : o.typeMeta = P.syncer.destType := by
      rw [hplaced, ← (destCreator_eq hcreator).1]
      exact congrArg ObjectId.typeMeta ((ObjectSyncer.newDestination_rest P.syncer.libs _ _ r d).1
        .localClient)
    refine ready_of_object (w := w₁) rfl htype hobj ?_ (fun id' x hne hx => ?_) fun x hx => ?_
    · rw [hplaced]
      exact ⟨hkeyed.labels, hkeyed.annotations⟩
    · rw [hstores, hadds.objects] at hx
      exact (if_neg hne).symm.trans hx
    · exact absurd (located_of_namespace hns hx) (hnone x)

theorem ready_of_adopted {existing : Unstructured}
    (hexisting : w₁.object? (d.idOn .localClient) = some existing)
    (hexec : exec P.server ⟨P.scope, .update .localClient ((P.syncerOf r).adopted P.syncer.libs
      existing (newObjectKey r P.clusterName P.workspacePath))⟩ w₁ = (.ok o, w₂))
    (hstores : ∀ id, w'.object? id = w₂.object? id) : P.Ready w' ∨ P.Vacant r w' := by
  rw [newObjectKey_eq hid] at hexec
  have hkeyed :
      Keyed P.syncer.libs.hash P.key ((P.syncerOf r).adopted P.syncer.libs existing P.key) :=
    ObjectSyncer.adopted_keyed (syncerOf_links r) existing P.key
  have hplace : ((P.syncerOf r).adopted P.syncer.libs existing P.key).idOn .localClient =
      d.idOn .localClient :=
    ((ObjectSyncer.adopted_rest P.syncer.libs (P.syncerOf r) existing P.key).1 _).trans
      (World.idOn_of_object? hexisting)
  rcases World.Does.update (.inl hexec) with ⟨e, he, -⟩ | ⟨cur, o', -, ho', -, -, hrew⟩
  · cases he
  · cases ho'
    rw [hplace] at hrew
    have hothers : ∀ id' x, id' ≠ d.idOn .localClient → w'.object? id' = some x →
        w₁.object? id' = some x := by
      intro id' x hne hx
      rw [hstores, hrew.keeps.objects id' fun h => hne (Option.some.inj h).symm] at hx
      exact hx
    rcases hrew.becomes.object with hobj | ⟨hgone, -⟩
    · rw [← hstores] at hobj
      exact .inl (ready_of_object (w := w₁) rfl (destCreator_eq hcreator).1 hobj
        (keyed_of_rewrites hrew ⟨hkeyed.labels, hkeyed.annotations⟩) hothers
        fun x hx => absurd (located_of_namespace hns hx) (hnone x))
    · rw [← hstores] at hgone
      refine .inr ⟨fun x hx => ?_, fun d' hd' => ?_⟩
      · refine hnone x
          (located_of_namespace hns ⟨hothers _ x (fun heq => ?_) hx.object, hx.typeMeta,
          hx.ns, hx.selector⟩)
        rw [← heq, hx.object] at hgone
        cases hgone
      · cases hcreator.symm.trans hd'
        exact hgone

end Placed

/-- When nothing was found, the local object has been created or adopted with all link metadata, or
an object in deletion was adopted, which is gone now. -/
theorem ready_of_placed (hid : r.idOn (.remoteClient P.clusterName) = P.id)
    (hlive : r.metadata.deletionTimestamp = none) (hnone : ∀ o, ¬ P.Located w o)
    (h : (P.syncerOf r).PlaceOutcome P.server P.syncer.libs P.scope
      (ResourceSyncer.remoteSide P.clusterName P.workspacePath) ResourceSyncer.localSide r w w') :
    P.Ready w' ∨ P.Vacant r w' ∧ ∃ d existing, (P.syncerOf r).destCreator r = .ok d ∧
      w.object? (d.idOn .localClient) = some existing := by
  cases h with
  | created hcreator hns hexec hstores =>
    exact .inl (ready_of_created hid hnone hcreator hns hexec hstores.objects)
  | @adopted d existing _ _ _ _ hcreator hns _ hexisting hexec hstores =>
    refine (ready_of_adopted hid hnone hcreator hns hexisting hexec hstores.objects).imp_right
      fun hv =>
      ⟨hv, d, existing, hcreator, ?_⟩
    rw [← hns.object?_of_ns (show (d.idOn .localClient).ns = _ from rfl)]
    exact hexisting
  | ignored hcreator _ hdying =>
    rw [(destCreator_eq hcreator).2.2, hlive] at hdying
    cases hdying

theorem ready_of_spec {o : Unstructured} (hrec : P.Recorded r w)
    (hfound : ∀ o, P.Located w o ↔ o = l) (hlive : l.metadata.deletionTimestamp = none)
    (h : (P.syncerOf r).SpecOutcome P.server P.syncer.libs P.scope
      (ResourceSyncer.remoteSide P.clusterName P.workspacePath)
      ResourceSyncer.localSide r l w true o
      w') : P.Ready w' := by
  have hid := World.idOn_of_object? hrec.object
  have hknown := lastKnown_eq hid (name_eq hid).1 (name_eq hid).2 w
  have hl : P.Located w l := (hfound l).mpr rfl
  cases h with
  | @patched last _ w₁ _ hlast _ hexec hstores =>
    obtain rfl : snapshotObject r P.syncer.subresources = last :=
      Option.some.inj (hrec.stored.symm.trans (hknown.symm.trans hlast))
    have hmeta : (snapshotObject r P.syncer.subresources).metadata =
      (stripMetadata r).metadata := rfl
    have hannotations : ObjectSyncer.SafeMap filterUnsyncableAnnotations
        (snapshotObject r P.syncer.subresources).metadata.annotations r.metadata.annotations :=
      ⟨filterUnsyncableAnnotations_idem _, fun hempty => hempty⟩
    have hkeyed : Keyed P.syncer.libs.hash P.key (ObjectSyncer.afterPatch P.syncer.libs
        (P.syncerOf r) (ResourceSyncer.remoteSide P.clusterName P.workspacePath)
        (snapshotObject r P.syncer.subresources) r l l) := by
      rw [← keyOf_eq (name_eq hid).1 (name_eq hid).2]
      exact ObjectSyncer.afterPatch_self_keyed (syncerOf_links r) (safeLabels hmeta) hannotations
    rcases ObjectSyncer.does_afterPatch (.inl hexec) with ⟨e, he, -⟩ | ⟨cur, o', hcur, ho', -, hrew⟩
    · cases he
    · cases ho'
      obtain rfl : l = cur := Option.some.inj (hl.object.symm.trans hcur)
      have hobj : w'.object? (l.idOn .localClient) = some o := by
        rw [hstores.objects]
        exact hrew.stored hlive
      refine ready_of_object (w := w) rfl hl.typeMeta hobj
        (keyed_of_rewrites hrew ⟨hkeyed.labels, hkeyed.annotations⟩) (fun id' x hne hx => ?_)
        fun x hx => ?_
      · rw [hstores.objects, hrew.keeps.objects id' fun h => hne (Option.some.inj h).symm] at hx
        exact hx
      · rw [(hfound x).mp hx]
  | updated hnone => cases (hrec.stored.symm.trans (hknown.symm.trans hnone))

theorem clean_of_keyed {side : SyncSide}
    (h : Keyed P.syncer.libs.hash (ObjectSyncer.keyOf side r) l) :
    (P.syncerOf r).createMergePatch P.syncer.libs
      { snapshotObject r P.syncer.subresources with typeMeta := r.typeMeta }
      ((P.syncerOf r).desiredState P.syncer.libs side r l) = ∅ := by
  rw [ObjectSyncer.desiredState_of_keyed h]
  refine P.syncer.libs.diff.create_eq_empty_iff.mpr (congrArg Unstructured.toFields ?_)
  exact Unstructured.ext rfl rfl (Content.without_without _ _)

section Requeued

variable (hP : P.Plain) (hr : w.object? P.id = some r)
  (hlive : r.metadata.deletionTimestamp = none)
  (h : Returns P.server (P.syncer.process P.clusterName P.workspacePath r) w true w')

include hP hr hlive h

/-- What a call has done that asks for a requeue, when the finalizer is there: the local object was
placed, or it was changed. -/
theorem step_of_true (hfin : r.metadata.finalizers.contains deletionFinalizer = true) :
    (∀ o, ¬ P.Located w o) ∧ (P.syncerOf r).PlaceOutcome P.server P.syncer.libs P.scope
      (ResourceSyncer.remoteSide P.clusterName P.workspacePath) ResourceSyncer.localSide r w w' ∨
    ∃ l o, (∀ o, P.Located w o ↔ o = l) ∧ l.metadata.deletionTimestamp = none ∧
      (P.syncerOf r).SpecOutcome P.server P.syncer.libs P.scope
        (ResourceSyncer.remoteSide P.clusterName P.workspacePath)
        ResourceSyncer.localSide r l w true
        o w' := by
  have hid := World.idOn_of_object? hr
  obtain ⟨dest, r₁, hcopies, houtcome⟩ := synced_of_plain hP hr hlive h
  have hfound := located_iff hid hcopies
  cases houtcome with
  | finalized _ hmissing => cases hfin.symm.trans hmissing
  | synced _ hmutations hmutated =>
    obtain ⟨hsource, rfl⟩ := applyMutations_eq hP.mutator hmutations
    obtain rfl := hsource.symm
    cases hmutated with
    | placed _ hplaced => exact .inl ⟨(fun o ho => by cases (hfound o).mp ho), hplaced⟩
    | @restamped d _ _ _ _ hunstamped =>
      refine absurd ?_ hunstamped
      unfold ObjectSyncer.Stamped
      rw [ObjectSyncer.ensureDestMetadata_eq (syncerOf_links r)]
      exact ⟨rfl, rfl⟩
    | @changed l o _ _ _ hl _ hspec hforward =>
      obtain rfl := (hforward.eq_of_off rfl).symm
      refine .inr ⟨l, o, fun x => ?_, hl, hspec⟩
      rw [hfound, Option.some.injEq, eq_comm]

theorem recorded_of_true (hfin : r.metadata.finalizers.contains deletionFinalizer = true) :
    P.Recorded r w' := by
  have hid := World.idOn_of_object? hr
  have hstore : (P.syncerOf r).stateStore = P.store := stateStore_eq hid
  have hstored : ∀ {obj : Unstructured} {w₂ : World}, w₂.object? P.id = some r →
      snapshotObject obj P.syncer.subresources = snapshotObject r P.syncer.subresources →
      (P.syncerOf r).stateStore.Stores (KubernetesBackend.sourceKey P.syncer.libs.hash obj
        P.clusterName) (snapshotObject obj P.syncer.subresources).toFields w₂ w' →
      P.Recorded r w' := by
    intro obj w₂ hr₂ hsnap hstores
    rw [hstore] at hstores
    exact ⟨(hstores.objects _).trans hr₂, hlive, hfin, stored_of_stores hid hsnap hstores⟩
  have hremote : ∀ {c : Call} {resp : c.verb.Resp} {w₁ w₂ : World},
    exec P.server c w₁ = (resp, w₂) →
      (∀ id, c.verb.target = some id → id.client = .localClient) → w₁.object? P.id = some r →
      w₂.object? P.id = some r := by
    intro c resp w₁ w₂ hexec htarget hr₁
    rw [(World.Does.frames (.inl hexec)).objects P.id fun heq => by cases htarget _ heq]
    exact hr₁
  rcases step_of_true hP hr hlive h hfin with ⟨-, hplaced⟩ | ⟨l, o, -, -, hspec⟩
  · cases hplaced with
    | created _ hns hexec hstores =>
      exact hstored (hremote hexec (by rintro id ⟨⟩; rfl) (hns.object?_of_some hr)) rfl hstores
    | adopted _ hns _ _ hexec hstores =>
      exact hstored (hremote hexec (by rintro id ⟨⟩; rfl) (hns.object?_of_some hr)) rfl hstores
    | ignored _ hns _ hstores => exact hstored (hns.object?_of_some hr) rfl hstores
  · cases hspec with
    | patched _ _ hexec hstores =>
      exact hstored (hremote hexec (by rintro id ⟨⟩; rfl) hr)
        (ObjectSyncer.snapshotObject_desiredState _ _ _ _ _ _) hstores
    | updated _ hexec hstores =>
      exact hstored (hremote hexec (by rintro id ⟨⟩; rfl) hr)
        (snapshotObject_stripMetadata _ _) hstores

theorem finalized_of_true : ∃ r', w'.object? P.id = some r' ∧
    r'.metadata.deletionTimestamp = none ∧
    r'.metadata.finalizers.contains deletionFinalizer = true := by
  cases hfin : r.metadata.finalizers.contains deletionFinalizer with
  | true =>
    have hrec := recorded_of_true hP hr hlive h hfin
    exact ⟨r, hrec.object, hlive, hfin⟩
  | false =>
    have hid := World.idOn_of_object? hr
    obtain ⟨dest, r₁, -, houtcome⟩ := synced_of_plain hP hr hlive h
    cases houtcome with
    | finalized _ _ hexec =>
      have htypes : r.typeMeta = (withFinalizer r).typeMeta := rfl
      rcases World.Does.patch_create htypes (.inl hexec) with ⟨e, he, -⟩ | ⟨cur,
        o, hcur, ho, -, -, hrew⟩
      · cases he
      · cases ho
        rw [show r.idOn (ResourceSyncer.remoteSide P.clusterName P.workspacePath).client = P.id
          from hid] at hcur hrew
        obtain rfl : cur = r := Option.some.inj (hcur.symm.trans hr)
        obtain ⟨rv, hmeta⟩ := hrew.becomes.metadata
        refine ⟨r₁, hrew.stored hlive, ?_, ?_⟩
        · rw [hmeta]
          exact hlive
        · rw [hmeta]
          exact patched_withFinalizer P.syncer.libs.diff hfin cur
    | synced hguarded => cases hfin.symm.trans (hguarded.guarded rfl)

theorem ready_or_vacant (hrec : P.Recorded r w) : P.Ready w' ∨ P.Vacant r w' := by
  have hid := World.idOn_of_object? hr
  rcases step_of_true hP hr hlive h hrec.finalizer with ⟨hnone, hplaced⟩ | ⟨l, o, hfound, hl, hspec⟩
  · exact (ready_of_placed hid hlive hnone hplaced).imp_right And.left
  · exact .inl (ready_of_spec hrec hfound hl hspec)

theorem ready_of_vacant (hrec : P.Recorded r w) (hvacant : P.Vacant r w) : P.Ready w' := by
  have hid := World.idOn_of_object? hr
  rcases step_of_true hP hr hlive h hrec.finalizer with ⟨hnone, hplaced⟩ | ⟨l, o, hfound, hl, hspec⟩
  · refine (ready_of_placed hid hlive hnone hplaced).resolve_right ?_
    rintro ⟨-, d, existing, hcreator, hexisting⟩
    cases hexisting.symm.trans (hvacant.2 d hcreator)
  · exact absurd ((hfound l).mpr rfl) (hvacant.1 l)

theorem not_ready (hrec : P.Recorded r w) : ¬ P.Ready w := by
  rintro ⟨l, hready, hkeyed⟩
  have hid := World.idOn_of_object? hr
  have hknown := lastKnown_eq hid (name_eq hid).1 (name_eq hid).2 w
  rcases step_of_true hP hr hlive h hrec.finalizer with ⟨hnone, -⟩ | ⟨l', o, hfound, -, hspec⟩
  · exact hnone l ((hready l).mpr rfl)
  · obtain rfl : l = l' := (hfound l).mp ((hready l).mpr rfl)
    rw [← keyOf_eq (name_eq hid).1 (name_eq hid).2] at hkeyed
    cases hspec with
    | patched hlast hdiff =>
      obtain rfl := Option.some.inj (hrec.stored.symm.trans (hknown.symm.trans hlast))
      exact hdiff (clean_of_keyed hkeyed)
    | updated hlast => cases hrec.stored.symm.trans (hknown.symm.trans hlast)

end Requeued

/-- One call of `Process` on the remote object as it is now. -/
def call (P : Primary) (w : World) : Except Error Bool × World :=
  match w.object? P.id with
  | some r => Fallible.eval (exec P.server) (P.syncer.process P.clusterName P.workspacePath r) w
  | none => (.ok false, w)

/-- The world after `n` calls. -/
def afterCalls (P : Primary) : Nat → World → World
  | 0, w => w
  | n + 1, w => P.afterCalls n (P.call w).2

/-- The result of the call after `n` calls. -/
def result (P : Primary) (n : Nat) (w : World) : Except Error Bool := (P.call (P.afterCalls n w)).1

theorem call_eq (hr : w.object? P.id = some r) : P.call w =
    Fallible.eval (exec P.server) (P.syncer.process P.clusterName P.workspacePath r) w := by
  rw [call, hr]

/-- The remote object is there and not in deletion. -/
def Lives (P : Primary) (w : World) : Prop :=
  ∃ r, w.object? P.id = some r ∧ r.metadata.deletionTimestamp = none

theorem Lives.quiet {c : Call} (h : P.Lives w)
    (hc : QuietCall (.remoteClient P.clusterName) .localClient c) :
    P.Lives (exec P.server c w).2 := by
  obtain ⟨r, hr, hlive⟩ := h
  have hdoes : World.Does P.server c w (exec P.server c w).1 (exec P.server c w).2 := .inl rfl
  have hsides : Client.remoteClient P.clusterName ≠ .localClient := fun h => by cases h
  rcases hc.target_ne_or_patch hsides (show P.id.client = _ from rfl) with htarget | ⟨patch, hverb⟩
  · exact ⟨r, (hdoes.frames.objects P.id htarget).trans hr, hlive⟩
  · obtain ⟨scope, verb⟩ := c
    cases hverb
    rcases hdoes.patch with ⟨e, -, hsame⟩ | ⟨cur, next, o, hcur, -, -, -, -, hrew⟩
    · rw [hsame]
      exact ⟨r, hr, hlive⟩
    · obtain rfl := Option.some.inj (hcur.symm.trans hr)
      obtain ⟨rv, hmeta⟩ := hrew.becomes.metadata
      exact ⟨o, hrew.stored hlive, by rw [hmeta]; exact hlive⟩

theorem returns_of_call {requeue : Bool} (hr : w.object? P.id = some r)
    (h : (P.call w).1 = .ok requeue) :
    Returns P.server (P.syncer.process P.clusterName P.workspacePath r) w requeue (P.call w).2 := by
  rw [call_eq hr] at h ⊢
  exact .of_eval h

theorem lives_of_error (hP : P.Plain) (hlives : P.Lives w) {e : Error}
    (hlive : r.metadata.deletionTimestamp = none)
    (h : Fallible.eval (exec P.server) (P.syncer.process P.clusterName P.workspacePath r) w =
      (.error e, w')) : P.Lives w' := by
  have hJ : ∀ c : Call, QuietCall (ResourceSyncer.remoteSide P.clusterName P.workspacePath).client
      ResourceSyncer.localSide.client c → ∀ w, P.Lives w → P.Lives (exec P.server c w).2 :=
    fun c hc w hw => hw.quiet hc
  have hkeeps : Fallible.Keeps (.alone (exec P.server)) (.ofState api fun _ => True)
      (P.syncer.process P.clusterName P.workspacePath r) (fun _ _ => True) P.Lives w := by
    have hfind : (P.syncer.findLocalObject (ResourceSyncer.primaryScope P.clusterName r)
        (newObjectKey r P.clusterName P.workspacePath)).AllCalls
        fun c => QuietCall (ResourceSyncer.remoteSide P.clusterName P.workspacePath).client
          ResourceSyncer.localSide.client c := by
      refine .bind (.mapError (.sendE (.read rfl))) fun items => ?_
      split
      · exact .pure
      · exact .pure
      · exact .throw
    refine .seq (.mapError (ObjectSyncer.quiet_keeps hJ hfind hlives)) fun localObj w hw => ?_
    refine .seq (P := fun _ => P.Lives) ?_ fun cleaning w hw => ?_
    · split
      · rw [if_neg (by simp [hlive])]
        exact .pure hw
      · exact .pure hw
    · split
      · exact .pure trivial
      · refine .seq (ObjectSyncer.sync_quiet_keeps hJ hw) fun result w _ => ?_
        dsimp only
        split
        · exact .pure trivial
        · split
          · exact .pure trivial
          · unfold ResourceSyncer.processRelatedResources
            rw [hP.related]
            exact .pure trivial
  have houtcome := Prog.Keeps.eval hkeeps
  unfold Fallible.eval at h
  rw [h] at houtcome
  exact houtcome

theorem afterCalls_succ (n : Nat) (w : World) :
    P.afterCalls (n + 1) w = (P.call (P.afterCalls n w)).2 := by
  induction n generalizing w with
  | zero => rfl
  | succ n ih => exact ih (P.call w).2

section Stable

variable (hP : P.Plain)
  (hstatus : P.server.hasStatus (.remoteClient P.clusterName) P.typeMeta = true →
    "status" ∈ P.syncer.subresources)

include hP hstatus

theorem lives_call (h : P.Lives w) : P.Lives (P.call w).2 := by
  obtain ⟨r, hr, hlive⟩ := h
  cases hresult : (P.call w).1 with
  | error e =>
    refine lives_of_error hP ⟨r, hr, hlive⟩ hlive (e := e) (r := r) ?_
    rw [call_eq hr] at hresult ⊢
    exact Prod.ext hresult rfl
  | ok requeue =>
    have hreturns := returns_of_call hr hresult
    cases requeue with
    | true =>
      obtain ⟨r', hr', hlive', -⟩ := finalized_of_true hP hr hlive hreturns
      exact ⟨r', hr', hlive'⟩
    | false =>
      obtain ⟨r', -, hr', hlive', -⟩ := idle_of_false hP hstatus hr hlive hreturns
      exact ⟨r', hr', hlive'⟩

theorem lives_afterCalls (h : P.Lives w) (n : Nat) : P.Lives (P.afterCalls n w) := by
  induction n with
  | zero => exact h
  | succ n ih =>
    rw [afterCalls_succ]
    exact lives_call hP hstatus ih

omit hstatus in
/-- Five calls in a row do not all ask for a requeue: the first puts the finalizer on the remote
object, the second stores its state, after the third the local object is ready or its place is free,
and after the fourth it is ready. -/
theorem exists_result_ne_true (h : P.Lives w) : ∃ n < 5, P.result n w ≠ .ok true := by
  by_contra hall
  have htrue : ∀ n, n < 5 → (P.call (P.afterCalls n w)).1 = .ok true := fun n hn =>
    by_contra fun hne => hall ⟨n, hn, hne⟩
  obtain ⟨r₀, hr₀, hlive₀⟩ := h
  obtain ⟨r, hr, hlive, hfin⟩ :=
    finalized_of_true hP hr₀ hlive₀ (returns_of_call hr₀ (htrue 0 (by omega)))
  have hrec₂ := recorded_of_true hP hr hlive (returns_of_call hr (htrue 1 (by omega))) hfin
  have hcall₂ := returns_of_call hrec₂.object (htrue 2 (by omega))
  have hrec₃ := recorded_of_true hP hrec₂.object hlive hcall₂ hfin
  have hcall₃ := returns_of_call hrec₃.object (htrue 3 (by omega))
  have hrec₄ := recorded_of_true hP hrec₃.object hlive hcall₃ hfin
  have hcall₄ := returns_of_call hrec₄.object (htrue 4 (by omega))
  rcases ready_or_vacant hP hrec₂.object hlive hcall₂ hrec₂ with hready | hvacant
  · exact not_ready hP hrec₃.object hlive hcall₃ hrec₃ hready
  · have hready := ready_of_vacant hP hrec₃.object hlive hcall₃ hrec₃ hvacant
    exact not_ready hP hrec₄.object hlive hcall₄ hrec₄ hready

theorem reads_of_false (h : P.Lives w) (hfalse : (P.call w).1 = .ok false) :
    ∃ r, (P.call w).2.object? P.id = some r ∧
      Reads P.server (P.syncer.process P.clusterName P.workspacePath r) (P.call w).2 false := by
  obtain ⟨r, hr, hlive⟩ := h
  obtain ⟨r', l, hr', hlive', hfin, hcopies, hidle⟩ :=
    idle_of_false hP hstatus hr hlive (returns_of_call hr hfalse)
  exact ⟨r', hr', process_reads hP hlive' hfin hcopies hidle⟩

end Stable

variable (P) in
/-- `Process` stabilises: one of the first five calls asks for no requeue or fails, and after a call
that asked for no requeue all further calls leave everything as it is and make no writes. -/
theorem process_stabilises (hP : P.Plain)
    (hstatus : P.server.hasStatus (.remoteClient P.clusterName) P.typeMeta = true →
      "status" ∈ P.syncer.subresources) {w : World} {r : Unstructured}
    (hr : w.object? P.id = some r) (hlive : r.metadata.deletionTimestamp = none) :
    (∃ n < 5, P.result n w = .ok false ∨ ∃ e, P.result n w = .error e) ∧
    ∀ n, P.result n w = .ok false → ∀ m, n < m → P.afterCalls m w = P.afterCalls (n + 1) w ∧
      ∃ r', (P.afterCalls m w).object? P.id = some r' ∧
        Reads P.server (P.syncer.process P.clusterName P.workspacePath r')
        (P.afterCalls m w) false := by
  have hlives : P.Lives w := ⟨r, hr, hlive⟩
  constructor
  · obtain ⟨n, hn, hne⟩ := exists_result_ne_true hP hlives
    refine ⟨n, hn, ?_⟩
    match hresult : P.result n w with
    | .error e => exact .inr ⟨e, rfl⟩
    | .ok true => exact absurd hresult hne
    | .ok false => exact .inl rfl
  · intro n hfalse m hm
    induction m, hm using Nat.le_induction with
    | base =>
      obtain ⟨r', hr', hreads⟩ :=
        reads_of_false hP hstatus (lives_afterCalls hP hstatus hlives n) hfalse
      rw [← afterCalls_succ] at hr' hreads
      exact ⟨rfl, r', hr', hreads⟩
    | succ m hm ih =>
      obtain ⟨hsame, r', hr', hreads⟩ := ih
      have hcall : (P.call (P.afterCalls m w)).2 = P.afterCalls m w := by
        rw [call_eq hr', show Fallible.eval _ _ _ = _ from hreads.returns]
      rw [afterCalls_succ, hcall]
      exact ⟨hsame, r', hr', hreads⟩

/-- The sample object without the finalizer, a local object at its name without any labels, and a
last-known state that is not readable. -/
def strayWorld : World :=
  ((World.empty.put
    (.remoteClient "c1") { crontab "team-a" with metadata.resourceVersion := 1 }).put
    .localClient { crontab "tenant" with metadata.resourceVersion := 1 }).putSecret
      (sample []).store.secretName { data := SortedMap.insert ∅ (sample []).storeKey none }

/-- The third call is the first that asks for no requeue, and the next one only reads. -/
theorem process_stabilises_stray : (sample []).result 1 strayWorld = .ok true ∧
    (sample []).result 2 strayWorld = .ok false ∧
    ∃ r, ((sample []).afterCalls 3 strayWorld).object? (sample []).id = some r ∧
      Reads .setting ((sample []).syncer.process "c1" "root" r)
        ((sample []).afterCalls 3 strayWorld) false := by
  have hsecond : ((sample []).result 1 strayWorld).toOption = some true := by decide +kernel
  have hthird : ((sample []).result 2 strayWorld).toOption = some false := by decide +kernel
  have hr : strayWorld.object? (sample []).id =
      some { crontab "team-a" with metadata.resourceVersion := 1 } := by
    rw [strayWorld, World.object?_putSecret, World.object?_put, World.object?_put, if_neg]
    · exact if_pos rfl
    · exact fun h => by cases congrArg ObjectId.client h
  obtain ⟨-, hstable⟩ :=
    (sample []).process_stabilises ⟨rfl, rfl, rfl⟩ (fun _ => List.mem_singleton_self _)
    hr rfl
  exact ⟨Returns.ok_of_toOption hsecond, Returns.ok_of_toOption hthird,
    (hstable 2 (Returns.ok_of_toOption hthird) 3 (by omega)).2⟩

/-- The sample as it is published in a second version: only this one has a status subresource, and
the local objects are of the first version. -/
def republishedVersion : Primary :=
  { sample [] with
    syncer := { (sample []).syncer with subresources := [] }
    server := { Server.setting with hasStatus := fun client _ => client ≠ .localClient }
    typeMeta := { crontabType with apiVersion := "example.com/v2" } }

/-- The remote object, its local object with a status, and the state that was stored when the local
object was created. -/
def versionsWorld : World :=
  let w := (republishedVersion.call (World.empty.put (.remoteClient "c1")
    { unreported with typeMeta := republishedVersion.typeMeta })).2
  ((w.object? sampleCopy).map fun o =>
    w.put .localClient { o with content := o.content.setStatus (.str "ready") }).getD w

/-- The first call passes the status on and asks for no requeue, and the second one takes the status
for a change of the remote object: it patches the local object and stores a new state. -/
theorem status_restarts : republishedVersion.Plain ∧
    republishedVersion.result 0 versionsWorld = .ok false ∧
    republishedVersion.result 1 versionsWorld = .ok true ∧
    ∃ r, (republishedVersion.afterCalls 1 versionsWorld).object? republishedVersion.id = some r ∧
      r.metadata.deletionTimestamp = none ∧
      (∃ c ∈ (republishedVersion.syncer.process "c1" "root" r).run.calls
        (exec republishedVersion.server) (republishedVersion.afterCalls 1 versionsWorld),
        Verb.target (Call.verb c) = some sampleCopy) ∧
      ∃ c ∈ (republishedVersion.syncer.process "c1" "root" r).run.calls
        (exec republishedVersion.server) (republishedVersion.afterCalls 1 versionsWorld),
        Verb.secretTarget (Call.verb c) = some republishedVersion.store.secretName := by
  have hfirst : (republishedVersion.result 0 versionsWorld).toOption =
    some false := by decide +kernel
  have hsecond : (republishedVersion.result 1 versionsWorld).toOption =
    some true := by decide +kernel
  have hwrites : ((republishedVersion.afterCalls 1 versionsWorld).object? republishedVersion.id).any
      (fun r => r.metadata.deletionTimestamp.isNone &&
        let calls := (republishedVersion.syncer.process "c1" "root" r).run.calls
          (exec republishedVersion.server) (republishedVersion.afterCalls 1 versionsWorld)
        calls.any (fun c => Verb.target (Call.verb c) = some sampleCopy) &&
          calls.any fun c =>
            Verb.secretTarget (Call.verb c) = some republishedVersion.store.secretName) = true := by
    decide +kernel
  obtain ⟨r, hr, hboth⟩ := (Option.any_eq_true _ _).mp hwrites
  simp only [Bool.and_eq_true, List.any_eq_true, Option.isNone_iff_eq_none,
    decide_eq_true_eq] at hboth
  exact ⟨⟨rfl, rfl, rfl⟩, Returns.ok_of_toOption hfirst,
    Returns.ok_of_toOption hsecond, r, hr, hboth⟩

end Primary

end Sync
