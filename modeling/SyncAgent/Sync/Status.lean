import SyncAgent.Sync.RelatedOutcome
import SyncAgent.Sync.Runs

/-! The status of the objects on the two sides after a call of `Sync`: forward, from the origin of a
related object to its copy, and back, from the local object to the remote one. -/

namespace Sync

open Kube

namespace ObjectSyncer

variable {S : Server} {L : Libraries} {scope : Scope} {σ : ObjectSyncer}
  {sourceSide destSide : SyncSide} {source dest o : Unstructured} {w w' : World}

/-- An object that is not in deletion and has a status subresource is stored with a status. -/
structure HasStatus (S : Server) (w : World) (id : ObjectId) (d : Unstructured) : Prop where
  object : w.object? id = some d
  live : d.metadata.deletionTimestamp = none
  status : S.hasStatus id.client d.typeMeta = true

theorem HasStatus.typeMeta {id : ObjectId} {d : Unstructured} (h : HasStatus S w id d) :
    d.typeMeta = id.typeMeta :=
  congrArg ObjectId.typeMeta (World.idOn_of_object? h.object)

theorem HasStatus.of_rewrites {id id' : ObjectId} {d cur next new : Unstructured}
    (h : HasStatus S w id d) (hrew : w.Rewrites id' (S.settle id'.client cur next) new w')
    (hcur : w.object? id' = some cur) :
    ∃ d', HasStatus S w' id d' ∧ d'.content.field "status" = d.content.field "status" ∧
      (id' = id → new = d') := by
  by_cases hid : id' = id
  · subst hid
    obtain rfl : cur = d := Option.some.inj (hcur.symm.trans h.object)
    have hobj : w'.object? id' = some new := hrew.stored h.live
    have htype : new.typeMeta = cur.typeMeta :=
      (congrArg ObjectId.typeMeta (World.idOn_of_object? hobj)).trans h.typeMeta.symm
    obtain ⟨rv, hmeta⟩ := hrew.becomes.metadata
    refine ⟨new, ⟨hobj, ?_, htype ▸ h.status⟩, ?_, fun _ => rfl⟩
    · rw [hmeta]
      exact h.live
    · rw [hrew.becomes.content, Server.content_settle, Server.mainContent, if_pos h.status,
        Content.field_setStatus]
  · have hobj := hrew.keeps.objects id fun heq => hid (Option.some.inj heq)
    exact ⟨d, ⟨hobj.trans h.object, h.live, h.status⟩, rfl, fun heq => absurd heq hid⟩

theorem HasStatus.of_objects {id : ObjectId} {d : Unstructured} (h : HasStatus S w id d)
    (hobj : w'.object? id = w.object? id) : HasStatus S w' id d :=
  ⟨hobj.trans h.object, h.live, h.status⟩

theorem HasStatus.of_namespace {id : ObjectId} {d : Unstructured} (h : HasStatus S w id d)
    {client : Client} {ns : String} (hns : EnsuresNamespace scope client ns w w') :
    HasStatus S w' id d :=
  ⟨hns.object?_of_some h.object, h.live, h.status⟩

theorem SpecOutcome.hasStatus {requeue : Bool}
    (h : σ.SpecOutcome S L scope sourceSide destSide source dest w requeue o w') {id : ObjectId}
    {d : Unstructured} (hd : HasStatus S w id d) :
    ∃ d', HasStatus S w' id d' ∧ d'.content.field "status" = d.content.field "status" ∧
      (dest.idOn destSide.client = id → requeue = true → o = d') := by
  cases h with
  | clean => exact ⟨d, hd, rfl, fun _ h => by cases h⟩
  | patched _ _ hpatch hstores =>
    rcases World.Does.patch (.inl hpatch) with ⟨e, he, -⟩ | ⟨cur, next, o', hcur, ho, -, -, -, hrew⟩
    · cases he
    · cases ho
      obtain ⟨d', hd', hstatus, hwritten⟩ := hd.of_rewrites hrew hcur
      exact ⟨d', hd'.of_objects (hstores.objects id), hstatus, fun hid _ => hwritten hid⟩
  | updated _ hupdate hstores =>
    rcases World.Does.update (.inl hupdate) with ⟨e, he, -⟩ | ⟨cur, o', hcur, ho, -, -, hrew⟩
    · cases he
    · cases ho
      obtain ⟨d', hd', hstatus, hwritten⟩ := hd.of_rewrites hrew hcur
      exact ⟨d', hd'.of_objects (hstores.objects id), hstatus, fun hid _ => hwritten hid⟩

theorem SpecOutcome.idOn {requeue : Bool}
    (h : σ.SpecOutcome S L scope sourceSide destSide source dest w requeue o w') :
    o.idOn destSide.client = dest.idOn destSide.client := by
  cases h with
  | clean => rfl
  | patched _ _ hpatch =>
    rcases World.Does.patch (.inl hpatch) with ⟨e, he, -⟩ | ⟨cur, next, o', -, ho, -, hid, -, hrew⟩
    · cases he
    · cases ho
      obtain ⟨rv, rfl⟩ := hrew.becomes.version
      exact hid
  | updated _ hupdate =>
    rcases World.Does.update (.inl hupdate) with ⟨e, he, -⟩ | ⟨cur, o', -, ho, -, -, hrew⟩
    · cases he
    · cases ho
      obtain ⟨rv, rfl⟩ := hrew.becomes.version
      rfl

theorem ForwardOutcome.status? (h : σ.ForwardOutcome S scope destSide source dest w w')
    (hforward : σ.syncStatusForward = true) {id : ObjectId} {d : Unstructured}
    (hd : HasStatus S w id d) :
    w'.status? id =
      if dest.idOn destSide.client = id ∧
          source.content.field "status" ≠ dest.content.field "status" then
        some (source.content.field "status")
      else some (d.content.field "status") := by
  have hstatus : w.status? id = some (d.content.field "status") := by
    rw [World.status?, hd.object, Option.map_some]
  cases h with
  | off hoff => cases hoff.symm.trans hforward
  | same hsame => rw [if_neg fun h => h.2 hsame, hstatus]
  | written _ hdiff hexec =>
    rcases World.Does.updateStatus (.inl hexec) with ⟨e, he, -⟩ | ⟨cur, o, hcur, -, -, -, hrew⟩
    · cases he
    · by_cases hid : dest.idOn destSide.client = id
      · rw [if_pos ⟨hid, hdiff⟩]
        have hlive : cur.metadata.deletionTimestamp = none := by
          cases (hid ▸ hcur : w.object? id = some cur).symm.trans hd.object
          exact hd.live
        rw [hrew.status?_setStatus fun _ => hlive]
        exact (if_pos hid.symm).trans (by simp)
      · rw [if_neg fun h => hid h.1, ← hstatus]
        exact congrArg _ (hrew.keeps.objects id fun heq => hid (Option.some.inj heq))
  | missing _ hdiff hexec =>
    by_cases hid : dest.idOn destSide.client = id
    · have hsub := World.updateObjectStatus_notFound hexec (hid ▸ hd.object)
      have hclient : destSide.client = id.client := congrArg ObjectId.client hid
      rw [hclient, hd.status] at hsub
      cases hsub
    · rw [if_neg fun h => hid h.1, ← hstatus]
      rcases World.Does.updateStatus (.inl hexec) with ⟨e, -, rfl⟩ | ⟨_, _, -, he, -⟩
      · rfl
      · cases he

/-- The sync of an existing destination object reaches its status: there is something to write, and
it is written to the object itself. -/
def ReachesStatus (L : Libraries) (σ : ObjectSyncer) (sourceSide destSide : SyncSide)
    (source dest : Unstructured) (id : ObjectId) (w : World) : Prop :=
  dest.metadata.deletionTimestamp = none ∧ dest.idOn destSide.client = id ∧
    ¬ (σ.Unchanged L sourceSide source dest w ∧
      source.content.field "status" = dest.content.field "status")

/-- The status of a destination object after `Sync` went through, in merge mode. -/
theorem MutatedOutcome.status?_merge {requeue : Bool} {source' : Unstructured}
    (h : σ.MutatedOutcome S L scope sourceSide destSide source w (some dest) requeue source' w')
    (hmerge : σ.useServerSideApply = false) (hback : σ.syncStatusBack = false)
    (hforward : σ.syncStatusForward = true) (hstamped : σ.Stamped dest) {id : ObjectId}
    {d : Unstructured} (hd : HasStatus S w id d) :
    (σ.ReachesStatus L sourceSide destSide source dest id w →
      w'.status? id = some (source.content.field "status")) ∧
    (¬ σ.ReachesStatus L sourceSide destSide source dest id w →
      w'.status? id = some (d.content.field "status")) := by
  cases h with
  | skipped _ hdying =>
    refine ⟨fun hreach => ?_, fun _ => ?_⟩
    · rw [hreach.1] at hdying
      cases hdying
    · rw [World.status?, hd.object, Option.map_some]
  | restamped _ _ hnot => exact absurd hstamped hnot
  | @changed _ o w₁ _ _ hlive _ hspec hfwd =>
    obtain ⟨d', hd', hstatus, hwritten⟩ := hspec.hasStatus hd
    have hdirty : ¬ σ.Unchanged L sourceSide source dest w := by
      rintro ⟨last, hlast, hclean⟩
      cases hspec with
      | patched hlast' hne =>
        cases hlast.symm.trans hlast'
        exact hne hclean
      | updated hnone => cases hlast.symm.trans hnone
    have hid : o.idOn destSide.client = dest.idOn destSide.client := hspec.idOn
    rw [hfwd.status? hforward hd', hid]
    refine ⟨fun hreach => ?_, fun hnot => ?_⟩
    · obtain rfl := hwritten hreach.2.1 rfl
      split
      · rfl
      · next hsame =>
        rw [not_and_or, not_not] at hsame
        rw [(hsame.resolve_left (absurd hreach.2.1)).symm]
    · have hid : dest.idOn destSide.client ≠ id := fun hid =>
        hnot ⟨hlive, hid, fun h => hdirty h.1⟩
      rw [if_neg fun h => hid h.1, hstatus]
  | unchanged _ hlive _ hspec hfwd hst =>
    cases hspec with
    | clean hlast hclean =>
      obtain rfl := hst.eq_of_off hback
      rw [hfwd.status? hforward hd]
      exact ⟨fun hreach => if_pos ⟨hreach.2.1, fun hsame => hreach.2.2 ⟨⟨_, hlast, hclean⟩, hsame⟩⟩,
        fun hnot => if_neg fun h => hnot ⟨hlive, h.1, fun hboth => h.2 hboth.2⟩⟩
  | applied hssa => cases hmerge.symm.trans hssa
  | notApplied hssa => cases hmerge.symm.trans hssa

theorem MutatedOutcome.status?_apply {dest : Option Unstructured} {requeue : Bool}
    {source' : Unstructured}
    (h : σ.MutatedOutcome S L scope sourceSide destSide source w dest requeue source' w')
    (hssa : σ.useServerSideApply = true) (hback : σ.syncStatusBack = false) {id : ObjectId}
    {d : Unstructured} (hd : HasStatus S w id d) :
    w'.status? id = some (d.content.field "status") := by
  have hkept : ∀ {d' : Unstructured} {w₁ : World}, HasStatus S w₁ id d' →
      d'.content.field "status" = d.content.field "status" →
      w₁.status? id = some (d.content.field "status") := by
    intro d' w₁ hd' hstatus
    rw [World.status?, hd'.object, Option.map_some, hstatus]
  cases h with
  | @applied _ _ _ _ w₁ w₂ _ _ _ _ hns happly hrest =>
    have hd₁ := hd.of_namespace hns
    obtain rfl : w' = w₂ := by
      rcases hrest with ⟨-, -, rfl⟩ | ⟨-, hst⟩
      · rfl
      · exact hst.eq_of_off hback
    rcases World.Does.apply (.inl happly) with
      ⟨e, he, -⟩ | ⟨o, -, -, hadds⟩ | ⟨cur, o, hcur, -, hrew⟩
    · cases he
    · exact hkept ⟨hadds.object?_of_some hd₁.object, hd₁.live, hd₁.status⟩ rfl
    · obtain ⟨d', hd', hstatus, -⟩ := hd₁.of_rewrites hrew hcur
      exact hkept hd' hstatus
  | notApplied _ _ _ hns => exact hkept (hd.of_namespace hns) rfl
  | placed hmerge => cases hssa.symm.trans hmerge
  | skipped hmerge => cases hssa.symm.trans hmerge
  | restamped hmerge => cases hssa.symm.trans hmerge
  | changed hmerge => cases hssa.symm.trans hmerge
  | unchanged hmerge => cases hssa.symm.trans hmerge

end ObjectSyncer

namespace RelatedSync

variable {R : RelatedSync} {w w' : World} {d : Unstructured}

/-- The copy is not restamped in this call. -/
def NotRestamped (R : RelatedSync) (d : Unstructured) : Prop :=
  R.objectSyncer.Live R.resolved.original → R.objectSyncer.useServerSideApply = false →
    ∀ source' d', R.objectSyncer.applyMutations R.resolved.original (some d) =
      .ok (source', some d') → R.objectSyncer.Stamped d'

/-- The status that the copy is left with is the status of the origin: the sync reaches the status
of the copy and the mutated origin has the status of the origin, or the copy has it already. -/
structure StatusForwarded (R : RelatedSync) (d : Unstructured) (w : World) : Prop where
  synced : R.objectSyncer.Live R.resolved.original → R.objectSyncer.useServerSideApply = false →
    ∀ source' d', R.objectSyncer.applyMutations R.resolved.original (some d) =
      .ok (source', some d') →
    (R.objectSyncer.ReachesStatus R.syncer.libs R.sourceSide R.destSide source' d' R.copyId w →
      source'.content.field "status" = R.resolved.original.content.field "status") ∧
    (¬ R.objectSyncer.ReachesStatus R.syncer.libs R.sourceSide R.destSide source' d' R.copyId w →
      d.content.field "status" = R.resolved.original.content.field "status")
  kept : ¬ R.objectSyncer.Live R.resolved.original ∨ R.objectSyncer.useServerSideApply = true →
    d.content.field "status" = R.resolved.original.content.field "status"
  deleted : R.objectSyncer.forceDelete = true → d.metadata.finalizers ++ World.policyFinalizers
    (normalizeDeletionPropagationPolicy R.objectSyncer.deletionPropagationPolicy) ≠ []

theorem status?_deleteObject {w w' : World} {id : ObjectId} {policy : DeletionPropagation}
    (hcopy : w.object? id = some d) (hlive : d.metadata.deletionTimestamp = none)
    (h : w.deleteObject id policy = (.ok (), w')) :
    w'.status? id = if d.metadata.finalizers ++ World.policyFinalizers policy = [] then none
      else some (d.content.field "status") := by
  simp only [World.deleteObject, hcopy, hlive, Option.isSome_none, Bool.false_eq_true,
    if_false] at h
  split at h
  · next hempty =>
    cases h
    rw [if_pos hempty, World.status?, World.object?_remove, if_pos rfl, Option.map_none]
  · next hkept =>
    cases h
    rw [if_neg hkept, World.status?, World.object?_write, if_pos, Option.map_some]
    · rfl
    · exact (World.idOn_of_object? hcopy).symm

section Status

variable {requeue : Bool} {source' : Unstructured}
  (hd : ObjectSyncer.HasStatus R.server w R.copyId d)
  (h : Returns R.server (R.objectSyncer.sync R.syncer.libs R.scope R.sourceSide R.destSide
    R.resolved.original (some d)) w (requeue, source') w')

include hd h

theorem copy_status_deleted (hforce : R.objectSyncer.forceDelete = true) :
    w'.status? R.copyId = some (R.resolved.original.content.field "status") ↔
      R.StatusForwarded d w := by
  have hlive : ¬ R.objectSyncer.Live R.resolved.original := fun h => by
    rw [h.notForced] at hforce
    cases hforce
  cases ObjectSyncer.sync_deleting_returns (.inr hforce) h with
  | ignored hblock =>
    have hon : R.objectSyncer.blockSourceDeletion = true := by
      simp only [objectSyncer, ResourceSyncer.relatedSyncer] at hforce ⊢
      rw [hforce, Bool.true_or]
    cases hon.symm.trans hblock
  | waiting _ hdying =>
    rw [hd.live] at hdying
    cases hdying
  | deleted _ _ hexec =>
    have hid : d.idOn R.destSide.client = R.copyId := World.idOn_of_object? hd.object
    rw [hid] at hexec
    rw [status?_deleteObject hd.object hd.live hexec]
    split
    · next hempty => exact ⟨fun h => (by cases h), fun hF => absurd hempty (hF.deleted hforce)⟩
    · next hne =>
      rw [Option.some.injEq]
      exact ⟨fun heq => ⟨fun h => absurd h hlive, fun _ => heq, fun _ => hne⟩,
        fun hF => hF.kept (.inl hlive)⟩

theorem copy_status_live (hsync : R.relRes.syncStatus = true)
    (hdel : ¬ R.objectSyncer.Deleting R.resolved.original) (hstamped : R.NotRestamped d) :
    (¬ R.objectSyncer.Live R.resolved.original ∨ R.objectSyncer.useServerSideApply = true) ∧
      w'.status? R.copyId = some (d.content.field "status") ∨
    R.objectSyncer.Live R.resolved.original ∧ R.objectSyncer.useServerSideApply = false ∧
      ∃ mutated d', R.objectSyncer.applyMutations R.resolved.original (some d) =
        .ok (mutated, some d') ∧
      (R.objectSyncer.ReachesStatus R.syncer.libs R.sourceSide R.destSide mutated d' R.copyId w →
        w'.status? R.copyId = some (mutated.content.field "status")) ∧
      (¬ R.objectSyncer.ReachesStatus R.syncer.libs R.sourceSide R.destSide mutated d' R.copyId w →
        w'.status? R.copyId = some (d.content.field "status")) := by
  have hback : R.objectSyncer.syncStatusBack = false := rfl
  cases ObjectSyncer.sync_returns hdel h with
  | finalized hblock hmissing hexec =>
    refine .inl ⟨.inl fun h => ?_, ?_⟩
    · rw [h.guarded hblock] at hmissing
      cases hmissing
    · rcases World.Does.patch (.inl hexec) with ⟨e, he, -⟩ | ⟨_, _, _, -, -, -, -, -, hrew⟩
      · cases he
      · have hframe : w'.object? R.copyId = w.object? R.copyId :=
          hrew.keeps.objects _ fun heq =>
            R.client_ne (congrArg ObjectId.client (Option.some.inj heq))
        rw [World.status?, hframe, hd.object, Option.map_some]
  | synced hlive hmutations hmutated =>
    obtain ⟨d', rfl⟩ := ObjectSyncer.applyMutations_some hmutations
    cases hmode : R.objectSyncer.useServerSideApply with
    | true => exact .inl ⟨.inr rfl, hmutated.status?_apply hmode hback hd⟩
    | false =>
      exact .inr ⟨hlive, rfl, _, d', hmutations, hmutated.status?_merge hmode hback hsync
        (hstamped hlive hmode _ d' hmutations) hd⟩

end Status

/-- After a sync of a related object whose copy exists, the copy has the status of the origin
exactly when the sync forwards it, or need not. -/
theorem copy_status_iff {requeue : Bool} (hsync : R.relRes.syncStatus = true)
    (horigin : R.resolved.original.metadata.deletionTimestamp = none)
    (hd : ObjectSyncer.HasStatus R.server w R.copyId d) (hstamped : R.NotRestamped d)
    (h : Returns R.server R.run w requeue w') :
    w'.status? R.copyId = some (R.resolved.original.content.field "status") ↔
      R.StatusForwarded d w := by
  obtain ⟨source', hreturns⟩ := run_returns h
  rw [hd.object] at hreturns
  by_cases hforce : R.objectSyncer.forceDelete = true
  · exact copy_status_deleted hd hreturns hforce
  · have hdel : ¬ R.objectSyncer.Deleting R.resolved.original := by
      rintro (hdying | hforced)
      · rw [horigin] at hdying
        cases hdying
      · exact hforce hforced
    rcases copy_status_live hd hreturns hsync hdel hstamped with
      ⟨hkept, hstatus⟩ | ⟨hlive, hmerge, mutated, d', hmutations, hreach, hnot⟩
    · rw [hstatus, Option.some.injEq]
      refine ⟨fun heq => ⟨fun hlive hmerge => ?_, fun _ => heq, fun h => absurd h hforce⟩,
        fun hF => hF.kept hkept⟩
      rcases hkept with hnot | hssa
      · exact absurd hlive hnot
      · cases hmerge.symm.trans hssa
    · have hnotKept : ¬ (¬ R.objectSyncer.Live R.resolved.original ∨
          R.objectSyncer.useServerSideApply = true) := by simp [hlive, hmerge]
      constructor
      · intro hstatus
        refine ⟨fun _ _ mutated' d'' hmut => ?_, fun h => absurd h hnotKept,
          fun h => absurd h hforce⟩
        cases hmutations.symm.trans hmut
        exact ⟨fun hr => Option.some.inj ((hreach hr).symm.trans hstatus),
          fun hn => Option.some.inj ((hnot hn).symm.trans hstatus)⟩
      · intro hF
        obtain ⟨hreached, hskipped⟩ := hF.synced hlive hmerge mutated d' hmutations
        by_cases hr : R.objectSyncer.ReachesStatus R.syncer.libs R.sourceSide R.destSide mutated d'
            R.copyId w
        · rw [hreach hr, hreached hr]
        · rw [hnot hr, hskipped hr]

/-- A CronTab of the service cluster is copied next to the primary object, with its status. -/
def sampleSync (ssa : Bool) : RelatedSync where
  syncer := { (Primary.sample []).syncer with useServerSideApply := ssa }
  server := .setting
  scope := { (Primary.sample []).scope with identifier := some "backup" }
  stateStore := (Primary.sample []).store
  remote := ⟨ResourceSyncer.remoteSide "c1" "root", Primary.sampleObject ∅ default⟩
  local' := ⟨ResourceSyncer.localSide, crontab "tenant"⟩
  sides := by decide
  relRes :=
    { identifier := "backup", origin := .service, kind := "CronTab"
      object := { object := { template := some ⟨"weekly"⟩ } }, syncStatus := true }
  primaryDeleting := false
  projectedGVK := crontabType
  resolved :=
    { original :=
        ⟨crontabType, { name := "weekly", ns := "tenant" },
          Content.setStatus default (.str "ready")⟩
      destination := ⟨"team-a", "weekly"⟩ }

/-- The copy of the sample, without a status. -/
def sampleCopy (ssa : Bool) : Unstructured :=
  (sampleSync ssa).objectSyncer.ensureDestMetadata
    ⟨crontabType, { name := "weekly", ns := "team-a", resourceVersion := 1 }, default⟩

def sampleWorld (ssa : Bool) : World := World.empty.put (.remoteClient "c1") (sampleCopy ssa)

/-- The world after the sync of the sample. -/
def syncedWorld (ssa : Bool) : World :=
  (Fallible.eval (exec .setting) (sampleSync ssa).run (sampleWorld ssa)).2

theorem hasStatus_sampleWorld (ssa : Bool) :
    ObjectSyncer.HasStatus .setting (sampleWorld ssa) (sampleSync ssa).copyId (sampleCopy ssa) where
  object := by rw [sampleWorld, World.object?_put]; exact if_pos rfl
  live := rfl
  status := rfl

theorem copy_status_weekly :
    (syncedWorld false).status? (sampleSync false).copyId =
      some ((sampleSync false).resolved.original.content.field "status") := by
  have hreturns : Returns .setting (sampleSync false).run (sampleWorld false) true
      (syncedWorld false) := .of_eval (by decide +kernel)
  have hmutations : ∀ mutated d', (sampleSync false).objectSyncer.applyMutations
      (sampleSync false).resolved.original (some (sampleCopy false)) = .ok (mutated, some d') →
      mutated = (sampleSync false).resolved.original ∧ d' = sampleCopy false := by
    intro mutated d' h
    have hpair := Prod.mk.inj (Except.ok.inj h)
    exact ⟨hpair.1.symm, (Option.some.inj hpair.2).symm⟩
  have hunknown : (sampleSync false).objectSyncer.lastKnown (sampleSync false).syncer.libs
      (sampleSync false).sourceSide (sampleSync false).resolved.original
      (sampleWorld false) = none := by
    decide +kernel
  have hcopy := hasStatus_sampleWorld false
  have hstamped : (sampleSync false).NotRestamped (sampleCopy false) := by
    intro _ _ mutated d' h
    obtain ⟨-, rfl⟩ := hmutations mutated d' h
    exact ⟨by decide +kernel, by decide +kernel⟩
  have hforwarded : (sampleSync false).StatusForwarded (sampleCopy false) (sampleWorld false) := by
    refine ⟨fun _ _ mutated d' h => ?_, ?_, ?_⟩
    · obtain ⟨rfl, rfl⟩ := hmutations mutated d' h
      refine ⟨fun _ => rfl,
        fun hnot => absurd ⟨hcopy.live, World.idOn_of_object? hcopy.object, ?_⟩ hnot⟩
      rintro ⟨⟨last, hlast, -⟩, -⟩
      cases hunknown.symm.trans hlast
    · rintro (hnot | hssa)
      · exact absurd ⟨rfl, rfl, fun h => by cases h⟩ hnot
      · cases hssa
    · intro h
      cases h
  exact (copy_status_iff (R := sampleSync false) rfl rfl hcopy hstamped hreturns).mpr hforwarded

/-- A server-side apply succeeds without an error and leaves the copy without the status of the
origin. -/
theorem apply_loses_status :
    Returns .setting (sampleSync true).run (sampleWorld true) false (syncedWorld true) ∧
    (sampleSync true).relRes.syncStatus = true ∧
    (sampleSync true).resolved.original.metadata.deletionTimestamp = none ∧
    ObjectSyncer.HasStatus .setting (sampleWorld true) (sampleSync true).copyId (sampleCopy true) ∧
    (sampleSync true).NotRestamped (sampleCopy true) ∧
    (syncedWorld true).status? (sampleSync true).copyId ≠
      some ((sampleSync true).resolved.original.content.field "status") := by
  refine ⟨.of_eval (by decide +kernel), rfl, rfl, hasStatus_sampleWorld true,
    fun _ hmerge => ?_, by decide +kernel⟩
  cases hmerge

end RelatedSync

end Sync
