import SyncAgent.Sync.Runs

/-! The finalizer protocol: a syncer that blocks the deletion of its source object puts a finalizer
on it before it creates anything, and removes the finalizer after everything is gone.  The first
part is about any such syncer, the second part about primary objects, which are found by labels, and
the third one about related objects of the workspace, which are found by name. -/

namespace Sync

open Kube

/-- The patch of `ensureFinalizer` leaves the finalizer on the object. -/
theorem patched_withFinalizer (D : MergeDiff) {r : Unstructured}
    (hr : r.metadata.finalizers.contains deletionFinalizer = false) (cur : Unstructured) :
    (Unstructured.patched D r (withFinalizer r) cur).metadata.finalizers.contains
      deletionFinalizer = true := by
  have hmem : deletionFinalizer ∈ setsList (deletionFinalizer :: r.metadata.finalizers) :=
    mem_setsList.mpr (by simp)
  rw [withFinalizer, Unstructured.patched_finalizers, patchValue, if_neg]
  · simpa using hmem
  · intro heq
    rw [← heq] at hmem
    simp [hmem] at hr

/-- A source object and where its syncer creates copies: calls of the scope create them, and `mark`
says by which labels they are found again. -/
structure Ward where
  source : ObjectId
  place : ObjectId → Prop
  scope : Scope
  mark : StringMap → Prop
  secret : SecretId

namespace Ward

variable (W : Ward)

abbrev Copy : World → ObjectId → Unstructured → Prop := Created W.place W.scope

/-- The source object exists and carries the finalizer. -/
def Protected (w : World) : Prop :=
  ∃ o, w.object? W.source = some o ∧ o.metadata.finalizers.contains deletionFinalizer = true

/-- A copy can be found again, and its source is protected. -/
structure Guarded (w : World) : Prop where
  copies : ∀ id o, W.Copy w id o → W.mark o.metadata.labels ∧ W.Protected w
  uids : w.UidsUsed

/-- What the other parties do: they may edit or delete the source object, but they do not remove the
finalizer, and they may edit or delete copies, but they do not change their labels. -/
structure Tolerates (w w' : World) : Prop where
  source : W.Protected w → W.Protected w'
  copies : ∀ id o, W.Copy w' id o → ∃ o₀, W.Copy w id o₀ ∧ o₀.metadata.labels = o.metadata.labels
  secret : w'.secret? W.secret = w.secret? W.secret
  uids : w.UidsUsed → w'.UidsUsed

/-- Any write can fail; calls are made only as admitted. -/
def environment (S : Server) (admits : Call → World → Prop) : Environment api World where
  rely := W.Tolerates
  refl _ := ⟨fun h => h, fun _ o ho => ⟨o, ho, rfl⟩, rfl, fun h => h⟩
  trans h₁ h₂ := by
    refine ⟨fun h => h₂.source (h₁.source h), fun id o ho => ?_, h₂.secret.trans h₁.secret,
      fun h => h₂.uids (h₁.uids h)⟩
    obtain ⟨o₂, ho₂, heq₂⟩ := h₂.copies id o ho
    obtain ⟨o₁, ho₁, heq₁⟩ := h₁.copies id o₂ ho₂
    exact ⟨o₁, ho₁, heq₁.trans heq₂⟩
  does c w r w' := World.Does S c w r w' ∧ admits c w

section Steps

variable {W} {w w' : World} {c : Call}

theorem Tolerates.guarded (h : W.Tolerates w w') (hw : W.Guarded w) : W.Guarded w' := by
  refine ⟨fun id o ho => ?_, h.uids hw.uids⟩
  obtain ⟨o₀, ho₀, hlabels⟩ := h.copies id o ho
  obtain ⟨hmark, hprotected⟩ := hw.copies id o₀ ho₀
  exact ⟨hlabels ▸ hmark, h.source hprotected⟩

theorem Protected.of_frames (h : W.Protected w) (hf : w.Frames c w')
    (hc : c.verb.target ≠ some W.source) : W.Protected w' := by
  obtain ⟨o, ho, hfin⟩ := h
  exact ⟨o, (hf.objects _ hc).trans ho, hfin⟩

theorem protected_of_rewrites {next o : Unstructured} (hrew : w.Rewrites W.source next o w')
    (hnext : next.metadata.finalizers.contains deletionFinalizer = true) : W.Protected w' := by
  obtain ⟨rv, hmeta⟩ := hrew.becomes.metadata
  rcases hrew.becomes.object with hobj | ⟨-, -, hnil⟩
  · exact ⟨o, hobj, by rw [hmeta]; exact hnext⟩
  · rw [hnil] at hnext
    cases hnext

theorem Guarded.of_spares (h : W.Guarded w) (hf : w.Frames c w')
    (hspares : Spares W.place W.scope c w) (hsource : W.Protected w → W.Protected w') :
    W.Guarded w' := by
  refine ⟨fun id o ho => ?_, hf.uidsUsed h.uids⟩
  obtain ⟨hmark, hprotected⟩ := h.copies id o (ho.of_frames hf h.uids hspares)
  exact ⟨hmark, hsource hprotected⟩

theorem Guarded.tolerates (h : W.Guarded w) (hf : w.Frames c w')
    (hspares : Spares W.place W.scope c w) (hsource : W.Protected w → W.Protected w')
    (hsecret : c.verb.secretTarget = none) : W.Tolerates w w' :=
  ⟨hsource, fun _ o ho => ⟨o, ho.of_frames hf h.uids hspares, rfl⟩,
    hf.secrets _ (by simp [hsecret]),
    fun hw => hf.uidsUsed hw⟩

theorem Guarded.of_adds (h : W.Guarded w) (hf : w.Frames c w')
    (hc : c.verb.target ≠ some W.source) {client : Client} {scope : Scope} {o : Unstructured}
    (hadds : w.Adds client scope o w') (hmark : W.mark o.metadata.labels)
    (hprotected : W.Protected w) : W.Guarded w' := by
  refine ⟨fun id o' ho => ?_, hf.uidsUsed h.uids⟩
  rcases ho.of_adds hadds h.uids with rfl | hold
  · exact ⟨hmark, hprotected.of_frames hf hc⟩
  · obtain ⟨hmark', hprotected'⟩ := h.copies id o' hold
    exact ⟨hmark', hprotected'.of_frames hf hc⟩

theorem Guarded.of_rewrites (h : W.Guarded w) (hf : w.Frames c w')
    (hc : c.verb.target ≠ some W.source) {id : ObjectId} {cur next o : Unstructured}
    (hrew : w.Rewrites id next o w') (hcur : w.object? id = some cur)
    (huid : next.metadata.uid = cur.metadata.uid)
    (hnext : W.Copy w id cur → W.mark cur.metadata.labels → W.mark next.metadata.labels) :
    W.Guarded w' := by
  refine ⟨fun id' o' ho => ?_, hf.uidsUsed h.uids⟩
  rcases ho.of_rewrites hrew hcur huid with hold | ⟨rfl, rfl, hold⟩
  · obtain ⟨hmark, hprotected⟩ := h.copies id' o' hold
    exact ⟨hmark, hprotected.of_frames hf hc⟩
  · obtain ⟨hmark, hprotected⟩ := h.copies id' cur hold
    obtain ⟨rv, hmeta⟩ := hrew.becomes.metadata
    refine ⟨?_, hprotected.of_frames hf hc⟩
    rw [hmeta]
    exact hnext hold hmark

theorem Guarded.of_dying (h : W.Guarded w) (hf : w.Frames c w')
    (hc : c.verb.target ≠ some W.source) {id : ObjectId} {cur : Unstructured}
    (hkeeps : w.Keeps (some id) w') (hdying : w'.Dying id cur) (hcur : w.object? id = some cur) :
    W.Guarded w' := by
  refine ⟨fun id' o' ho => ?_, hf.uidsUsed h.uids⟩
  obtain ⟨o, hold, hlabels, -⟩ := ho.of_dying hkeeps hdying hcur
  obtain ⟨hmark, hprotected⟩ := h.copies id' o hold
  exact ⟨hlabels ▸ hmark, hprotected.of_frames hf hc⟩

theorem tolerates_delete {S : Server} {scope : Scope} {policy : DeletionPropagation}
    {resp : Except ApiError Unit} (hsource : ¬ W.place W.source)
    (hd : World.Does S ⟨scope, .delete W.source policy⟩ w resp w') : W.Tolerates w w' := by
  rcases hd.delete with ⟨e, -, rfl, -⟩ | ⟨cur, hcur, -, hkeeps, hdying⟩
  · exact ⟨fun h => h, fun _ o ho => ⟨o, ho, rfl⟩, rfl, fun h => h⟩
  · refine ⟨?_, fun id o ho => ?_, hkeeps.secrets _, hd.frames.uidsUsed⟩
    · rintro ⟨o, ho, hfin⟩
      cases ho.symm.trans hcur
      rcases hdying with ⟨hnil, -⟩ | ⟨o', fin, ho', hsub, -, time, rv, rfl⟩
      · rw [hnil] at hfin
        cases hfin
      · exact ⟨_, ho', by simpa using hsub (by simpa using hfin)⟩
    · have hid : some W.source ≠ some id := fun heq => hsource (Option.some.inj heq ▸ ho.place)
      exact ⟨o, ⟨ho.place, hkeeps.objects id hid ▸ ho.object, hkeeps.created ▸ ho.created⟩, rfl⟩

end Steps

/-! ### The outline of a syncer that blocks the deletion -/

variable (L : Libraries) (σ : ObjectSyncer) (S : Server) (A : Call → World → Prop)
  (sourceSide destSide : SyncSide) (r : Unstructured) (K : World → Prop)
  (dest : Option Unstructured)

/-- The syncer of the version `r` of the source object.  Whatever it writes to a copy keeps the
mark; `K` is what this takes of the stored states. -/
structure Blocks : Prop where
  block : σ.blockSourceDeletion = true
  mutator : σ.mutator = none
  secret : σ.stateStore.secretName = W.secret
  source : r.idOn sourceSide.client = W.source
  sides : sourceSide.client ≠ destSide.client
  place : ∀ id, W.place id → id.client = destSide.client
  namespaces : ∀ destObj, σ.destCreator r = .ok destObj → destObj.metadata.ns ≠ "" →
    ¬ W.place ⟨destSide.client, ObjectSyncer.namespaceType, "", destObj.metadata.ns⟩
  new : ∀ destObj, W.mark (σ.newDestination L sourceSide r destObj).metadata.labels
  adopted : ∀ existing, W.mark (σ.adopted L existing
    (newObjectKey r sourceSide.clusterName sourceSide.workspacePath)).metadata.labels
  applied : ∀ cur destObj,
    W.mark (S.applied σ.fieldManager cur (σ.applyPayload L sourceSide r destObj)).labels
  full : ∀ d, W.mark d.metadata.labels → W.mark (σ.fullUpdate r d).metadata.labels
  restamp : ∀ d cur, (σ.ensureDestMetadata d).metadata.labels ≠ d.metadata.labels ∨
      (σ.ensureDestMetadata d).metadata.annotations ≠ d.metadata.annotations →
    W.mark (Unstructured.patched L.diff d (σ.ensureDestMetadata d) cur).metadata.labels
  stable : ∀ w w', K w → W.Tolerates w w' → K w'
  patch : σ.useServerSideApply = false → ∀ w, K w → ∀ last,
    σ.lastKnown L sourceSide r w = some last → ∀ d id cur, W.Copy w id cur →
    W.mark cur.metadata.labels →
    W.mark (ObjectSyncer.afterPatch L σ sourceSide last r d cur).metadata.labels

/-- The destination object, if there is one, was found: without it, there is no copy. -/
structure Found (w : World) : Prop where
  guarded : W.Guarded w
  protect : r.metadata.finalizers.contains deletionFinalizer = true → W.Protected w
  vacant : dest = none → ∀ id o, ¬ W.Copy w id o
  marked : ∀ d, dest = some d → W.mark d.metadata.labels
  safe : r.metadata.deletionTimestamp = none → K w

/-- The last-known state was read. -/
structure Known (last : Option Unstructured) (w : World) : Prop where
  guarded : W.Guarded w
  marked : ∀ d, dest = some d → W.mark d.metadata.labels
  safe : K w
  last : last = σ.lastKnown L sourceSide r w

/-- What holds at the points of `Sync`. -/
def assertion : ObjectSyncer.Point → World → Prop
  | .found => W.Found r K dest
  | .known last => W.Known L σ sourceSide r K dest last
  | _ => W.Guarded

variable {W L σ S A sourceSide destSide r dest K} {w w' : World}

theorem guarded_of_assertion {p : ObjectSyncer.Point}
    (h : W.assertion L σ sourceSide r K dest p w) : W.Guarded w := by
  cases p with
  | found => exact h.guarded
  | known last => exact h.guarded
  | _ => exact h

section Blocks

variable (hB : W.Blocks L σ S sourceSide destSide r K)

include hB

theorem Tolerates.assertion {p : ObjectSyncer.Point} (h : W.Tolerates w w')
    (hw : W.assertion L σ sourceSide r K dest p w) : W.assertion L σ sourceSide r K dest p w' := by
  cases p with
  | found =>
    refine ⟨h.guarded hw.guarded, fun hfin => h.source (hw.protect hfin), fun hdest id o ho => ?_,
      hw.marked, fun hlive => hB.stable w w' (hw.safe hlive) h⟩
    obtain ⟨o₀, ho₀, -⟩ := h.copies id o ho
    exact hw.vacant hdest id o₀ ho₀
  | known last =>
    refine ⟨h.guarded hw.guarded, hw.marked, hB.stable w w' hw.safe h, hw.last.trans ?_⟩
    simp only [ObjectSyncer.lastKnown, KubernetesBackend.entries, hB.secret, h.secret]
  | _ => exact h.guarded hw

/-- The outline of `Sync`. -/
def outline (dest : Option Unstructured) :
    σ.Outline S (W.environment S A) (.ofState api W.Guarded) where
  holds := W.assertion L σ sourceSide r K dest
  stable _ _ _ hw h := Tolerates.assertion hB h hw
  always _ _ h := guarded_of_assertion h
  sound _ _ _ _ h := h.1
  secret w w' h := by
    rw [hB.secret]
    exact h.secret

theorem leads_of_spares {c : Call} {p : ObjectSyncer.Point}
    (hspares : ∀ w, Spares W.place W.scope c w) (hc : c.verb.target ≠ some W.source)
    (hsecret : c.verb.secretTarget = none) :
    (outline (A := A) hB dest).Leads c p fun _ => p := by
  intro w hw
  refine ⟨trivial, fun resp w' hd => ?_⟩
  exact ((guarded_of_assertion hw).tolerates hd.1.frames (hspares w)
    (fun h => h.of_frames hd.1.frames hc) hsecret).assertion hB hw

theorem leads {c : Call} {p : ObjectSyncer.Point} {q : c.verb.Resp → ObjectSyncer.Point}
    (hq : ∀ resp w, W.Guarded w → W.assertion L σ sourceSide r K dest (q resp) w)
    (hcall : ∀ w resp w', W.assertion L σ sourceSide r K dest p w → World.Does S c w resp w' →
      W.Guarded w') : (outline (A := A) hB dest).Leads c p q :=
  fun w hw => ⟨trivial, fun resp w' hd => hq resp w' (hcall w resp w' hw hd.1)⟩

theorem puts {scope : Scope} {clusterName : String} {obj : Unstructured} {p q : ObjectSyncer.Point}
    (hq : ∀ w, W.Guarded w → W.assertion L σ sourceSide r K dest q w) :
    (outline (A := A) hB dest).Puts L scope clusterName obj p q := by
  intro c _ hsecret w hw
  refine ⟨trivial, fun resp w' hd => ?_⟩
  have htarget := Call.target_of_secretTarget hsecret
  have hguarded : W.Guarded w' := (guarded_of_assertion hw).of_spares hd.1.frames
    (spares_of_none htarget w) fun h => h.of_frames hd.1.frames (by rw [htarget]; simp)
  exact ⟨fun _ _ => hguarded, fun _ => hq w' hguarded⟩

theorem target_ne_source {id : ObjectId} (hid : id.client = destSide.client) :
    some id ≠ some W.source := by
  intro heq
  cases heq
  refine hB.sides ?_
  rw [← hid, ← hB.source]
  rfl

variable {scope : Scope}

theorem namespaces_lead :
    (outline (A := A) hB dest).Namespaces scope destSide r := by
  intro destObj hdest hns
  refine leads_of_spares hB (spares_of_target fun id hid => ?_) (target_ne_source hB rfl) rfl
  cases hid
  exact hB.namespaces destObj hdest hns

theorem createConditions (hfin : r.metadata.finalizers.contains deletionFinalizer = true) :
    (outline (A := A) hB dest).CreateConditions L scope sourceSide destSide r where
  namespaces := namespaces_lead hB
  create destObj _ := by
    intro w hw
    refine ⟨trivial, fun resp w' hd => ?_⟩
    rcases hd.1.create with ⟨e, rfl, rfl, -⟩ | ⟨o, rfl, ho, hadds⟩
    · cases e with
      | alreadyExists => exact hw
      | _ => exact hw.guarded
    · refine hw.guarded.of_adds hd.1.frames (target_ne_source hB rfl) hadds ?_ (hw.protect hfin)
      rw [ho]
      exact hB.new destObj
  occupied _ _ _ _ hw _ := hw.guarded
  adopt existing := by
    refine leads hB (fun resp w h => by cases resp <;> exact h) fun w resp w' hw hd => ?_
    rcases hd.update with ⟨e, -, rfl⟩ | ⟨cur, o, hcur, -, -, -, hrew⟩
    · exact hw
    · exact Guarded.of_rewrites hw hd.frames (target_ne_source hB rfl) hrew hcur rfl
        fun _ _ => hB.adopted existing
  dying _ _ _ _ hw := hw.guarded
  put := puts hB fun _ h => h

theorem updateConditions (hmerge : σ.useServerSideApply = false)
    (hlive : r.metadata.deletionTimestamp = none) {d : Unstructured} (hdest : dest = some d) :
    (outline (A := A) hB dest).UpdateConditions L scope sourceSide destSide r d where
  restamp hdiff := by
    refine leads hB (fun resp w h => by cases resp <;> exact h) fun w resp w' hw hd => ?_
    have htypes : d.typeMeta = (σ.ensureDestMetadata d).typeMeta := rfl
    rcases World.Does.patch_create htypes hd with ⟨e, -, rfl⟩ | ⟨cur, o, hcur, -, -, -, hrew⟩
    · exact hw.guarded
    · exact hw.guarded.of_rewrites hd.frames (target_ne_source hB rfl) hrew hcur rfl
        fun _ _ => hB.restamp d cur hdiff
  known w hw := ⟨hw.guarded, hw.marked, hw.safe hlive, rfl⟩
  clean _ _ _ hw := hw.guarded
  patch last _ := by
    refine leads hB (fun resp w h => by cases resp <;> exact h) fun w resp w' hw hd => ?_
    rcases ObjectSyncer.does_afterPatch hd with ⟨e, -, rfl⟩ | ⟨cur, o, hcur, -, -, hrew⟩
    · exact hw.guarded
    · exact hw.guarded.of_rewrites hd.frames (target_ne_source hB rfl) hrew hcur rfl
        fun hcopy hmark => hB.patch hmerge w hw.safe last hw.last.symm d _ cur hcopy hmark
  putPatched _ := puts hB fun _ h => h
  update := by
    refine leads hB (fun resp w h => by cases resp <;> exact h) fun w resp w' hw hd => ?_
    rcases hd.update with ⟨e, -, rfl⟩ | ⟨cur, o, hcur, -, -, -, hrew⟩
    · exact hw.guarded
    · exact hw.guarded.of_rewrites hd.frames (target_ne_source hB rfl) hrew hcur rfl
        fun _ _ => hB.full d (hw.marked d hdest)
  putUpdated := puts hB fun _ h => h
  forward _ p hp d' := by
    refine leads hB (fun resp w h => ?_) fun w resp w' hw hd => ?_
    · rcases hp with rfl | rfl <;> rcases resp with (_ | _ | _ | _ | _) | _ <;> exact h
    · rcases hd.updateStatus with ⟨e, -, rfl⟩ | ⟨cur, o, hcur, -, -, -, hrew⟩
      · exact guarded_of_assertion hw
      · exact (guarded_of_assertion hw).of_rewrites hd.frames
          (target_ne_source hB rfl) hrew hcur rfl
          fun _ hmark => hmark

theorem applyConditions (hfin : r.metadata.finalizers.contains deletionFinalizer = true) :
    (outline (A := A) hB dest).ApplyConditions L scope sourceSide destSide r where
  namespaces := namespaces_lead hB
  apply destObj _ := by
    refine leads hB (fun resp w h => by cases resp <;> exact h) fun w resp w' hw hd => ?_
    rcases hd.apply with ⟨e, -, rfl⟩ | ⟨o, -, ho, hadds⟩ | ⟨cur, o, hcur, -, hrew⟩
    · exact hw.guarded
    · refine hw.guarded.of_adds hd.frames (target_ne_source hB rfl) hadds ?_ (hw.protect hfin)
      rw [ho]
      exact hB.applied none destObj
    · exact hw.guarded.of_rewrites hd.frames (target_ne_source hB rfl) hrew hcur rfl
        fun _ _ => hB.applied (some cur) destObj

theorem spares_source {c : Call} {id : ObjectId} (hid : c.verb.target = some id)
    (hclient : id.client = sourceSide.client) (w : World) : Spares W.place W.scope c w := by
  refine spares_of_target (fun id' hid' hplace => hB.sides ?_) w
  rw [hid] at hid'
  cases hid'
  rw [← hclient]
  exact hB.place id hplace

theorem conditions :
    (outline (A := A) hB dest).Conditions L scope sourceSide destSide r dest where
  read p c _ hc := by
    obtain ⟨htarget, hsecret⟩ := Call.target_of_failure_eq_none hc
    exact leads_of_spares hB (spares_of_none htarget) (by rw [htarget]; simp) hsecret
  giveUp _ hw := hw.guarded
  ignore _ h := by
    rw [hB.block] at h
    cases h
  wait _ _ _ _ _ _ hw := hw.guarded
  delete _ _ d _ _ := by
    refine leads hB (fun resp w h => by cases resp <;> exact h) fun w resp w' hw hd => ?_
    rcases hd.delete with ⟨e, -, rfl, -⟩ | ⟨cur, hcur, -, hkeeps, hdying⟩
    · exact hw.guarded
    · exact hw.guarded.of_dying hd.frames (target_ne_source hB rfl) hkeeps hdying hcur
  release _ _ hdest _ := by
    refine leads hB (fun resp w h => by cases resp <;> exact h) fun w resp w' hw hd => ?_
    -- nothing is left, so nothing has to be protected
    refine ⟨fun id o ho => ?_, hd.frames.uidsUsed hw.guarded.uids⟩
    exact absurd (ho.of_frames hd.frames hw.guarded.uids (spares_source hB rfl rfl w))
      (hw.vacant hdest id o)
  released _ _ _ _ _ hw := hw.guarded
  finalize _ _ hfin := by
    refine leads hB (fun resp w h => by cases resp <;> exact h) fun w resp w' hw hd => ?_
    have htypes : r.typeMeta = (withFinalizer r).typeMeta := rfl
    have hid : (withFinalizer r).idOn sourceSide.client = W.source := hB.source
    rcases World.Does.patch_create htypes hd with ⟨e, -, rfl⟩ | ⟨cur, o, hcur, -, -, -, hrew⟩
    · exact hw.guarded
    · refine hw.guarded.of_spares hd.frames (spares_source hB rfl rfl w) fun _ => ?_
      rw [hid] at hrew
      refine protected_of_rewrites hrew ?_
      exact patched_withFinalizer L.diff hfin cur
  create hlive _ source' hmut := by
    rw [ObjectSyncer.applyMutations, hB.mutator] at hmut
    cases hmut
    exact createConditions hB (hlive.guarded hB.block)
  update hlive hmerge source' d hmut _ := by
    rw [ObjectSyncer.applyMutations, hB.mutator] at hmut
    cases hmut
    exact updateConditions hB hmerge hlive.notDeleting rfl
  apply hlive _ source' dest' hmut _ := by
    rw [ObjectSyncer.applyMutations, hB.mutator] at hmut
    cases hmut
    exact applyConditions hB (hlive.guarded hB.block)
  skip _ source' d hmut _ := by
    rw [ObjectSyncer.applyMutations, hB.mutator] at hmut
    cases hmut
    exact ⟨fun _ => namespaces_lead hB, fun _ hw => hw.guarded⟩
  status _ _ p hp source' dest' hmut status := by
    rw [ObjectSyncer.applyMutations, hB.mutator] at hmut
    cases hmut
    refine leads hB (fun resp w h => ?_) fun w resp w' hw hd => ?_
    · rcases hp with rfl | rfl <;> cases resp <;> exact h
    · rcases hd.updateStatus with ⟨e, -, rfl⟩ | ⟨cur, o, hcur, -, -, -, hrew⟩
      · exact guarded_of_assertion hw
      · refine (guarded_of_assertion hw).of_spares hd.frames (spares_source hB rfl rfl w) ?_
        rintro ⟨o₁, ho₁, hfin⟩
        have hid : (Unstructured.idOn { r with content := r.content.setStatus status }
          sourceSide.client) = W.source := hB.source
        rw [hid] at hrew hcur
        cases ho₁.symm.trans hcur
        exact protected_of_rewrites hrew hfin
  endStored _ hw := hw
  endSynced p hp _ hw := by rcases hp with rfl | rfl <;> exact hw

end Blocks

end Ward

/-! ### Primary objects -/

namespace Primary

variable (P : Primary)

/-- The copies of a primary object are found by the labels of its key. -/
def ward : Ward where
  source := P.id
  place := P.isLocal
  scope := P.scope
  mark labels := labels.Contains (P.key.labels P.syncer.libs.hash)
  secret := P.store.secretName

/-- A pass on `r` that merges starts with a stored state whose labels do not make the patch empty
the labels of the copy. -/
def LabelsSafe (r : Unstructured) (w : World) : Prop :=
  P.syncer.useServerSideApply = false → ∀ id d, P.Copy w id d → ∀ last, P.stored w = some last →
    ObjectSyncer.SafeMap filterUnsyncableLabels last.metadata.labels r.metadata.labels

/-- No related resource has the primary object or one of its copies as its source or destination. -/
def SparesPrimary (c : Call) (w : World) : Prop :=
  c.scope.identifier.isSome = true →
    c.verb.target ≠ some P.id ∧ ∀ id o, P.Copy w id o → c.verb.target ≠ some id

variable {P} {r : Unstructured} (hr : r.idOn (.remoteClient P.clusterName) = P.id)
  (htype : P.syncer.destType ≠ ObjectSyncer.namespaceType)
  (hmutator : P.syncer.primaryMutator = none)

include hr htype hmutator

theorem blocks : P.ward.Blocks P.syncer.libs (P.syncerOf r) P.server
    (ResourceSyncer.remoteSide P.clusterName P.workspacePath) ResourceSyncer.localSide r
    (P.LabelsSafe r) := by
  obtain ⟨hns, hname⟩ := name_eq hr
  have hkey := keyOf_eq (P := P) hns hname
  have hstore : (P.syncerOf r).stateStore = P.store := stateStore_eq hr
  have hnew : ∀ destObj, ((P.syncerOf r).newDestination P.syncer.libs
      (ResourceSyncer.remoteSide P.clusterName P.workspacePath) r destObj).metadata.labels.Contains
      (P.key.labels P.syncer.libs.hash) := by
    intro destObj
    rw [← hkey]
    exact ObjectSyncer.labels_newDestination (syncerOf_links r) destObj
  exact
  { block := rfl
    mutator := hmutator
    secret := by rw [hstore]; rfl
    source := hr
    sides := by rintro ⟨⟩
    place := fun id hid => hid.1
    namespaces := fun destObj _ _ hid => htype hid.2.symm
    new := hnew
    adopted := fun existing => by
      rw [show newObjectKey r _ _ = P.key from hkey]
      exact ObjectSyncer.labels_adopted (syncerOf_links r) existing P.key
    applied := fun cur destObj k v hk => P.server.labels_applied _ _ _ _ _ (hnew destObj k v hk)
    full := fun d hd => ObjectSyncer.labels_fullUpdate hd
    restamp := fun d cur hdiff => by
      rw [ObjectSyncer.ensureDestMetadata_eq (syncerOf_links r)] at hdiff
      exact absurd hdiff (by simp)
    stable := fun w w' hsafe h hmerge id d hd last hlast => by
      obtain ⟨d₀, hd₀, -⟩ := h.copies id d hd
      have hsecret : w'.secret? P.store.secretName = w.secret? P.store.secretName := h.secret
      rw [stored, KubernetesBackend.entries, hsecret] at hlast
      exact hsafe hmerge id d₀ hd₀ last hlast
    patch := fun hmerge w hsafe last hlast d id cur hcopy hmark => by
      rw [lastKnown_eq hr hns hname] at hlast
      show SortedMap.Contains _ (P.key.labels P.syncer.libs.hash)
      rw [← hkey]
      refine ObjectSyncer.labels_afterPatch (syncerOf_links r) d
        (hsafe hmerge id cur hcopy last hlast) ?_
      rw [hkey]
      exact hmark }

omit htype hmutator in
theorem relatedCall_spares {o : Unstructured} {c : Call} {w w' : World} {resp : c.verb.Resp}
    (hc : ResourceSyncer.RelatedCall P.syncer (ResourceSyncer.primaryScope P.clusterName r)
      ⟨ResourceSyncer.remoteSide P.clusterName P.workspacePath, o⟩ c)
    (hd : (P.ward.environment P.server P.SparesPrimary).does c w resp w') :
    Spares P.isLocal P.scope c w ∧ (P.ward.Protected w → P.ward.Protected w') := by
  rw [scope_eq hr] at hc
  rcases hc with ⟨identifier, hscope⟩ | ⟨annotations, rfl⟩
  · obtain ⟨hsource, hcopies⟩ := hd.2 (by rw [hscope]; rfl)
    refine ⟨fun id hid _ => ⟨fun heq => ?_, fun o ho => hcopies id o ho hid⟩,
      fun h => h.of_frames hd.1.frames hsource⟩
    rw [hscope] at heq
    cases congrArg Scope.identifier heq
  · refine ⟨spares_of_target (fun id hid hlocal => by cases hid; cases hlocal.1) w, fun h => ?_⟩
    by_cases hid : o.idOn (.remoteClient P.clusterName) = P.id
    · have htypes : o.typeMeta = ({ o with metadata.annotations := annotations }).typeMeta := rfl
      rcases World.Does.patch_create htypes hd.1 with ⟨e, -, rfl⟩ | ⟨cur, o', hcur, -, -, -, hrew⟩
      · exact h
      · obtain ⟨o₁, ho₁, hfin⟩ := h
        have hcur' : w.object? P.id = some cur := hid ▸ hcur
        cases ho₁.symm.trans hcur'
        refine Ward.protected_of_rewrites (W := P.ward) (hid ▸ hrew) ?_
        simpa [Unstructured.patched, ObjectMeta.patched, patchValue] using hfin
    · exact h.of_frames hd.1.frames fun heq => hid (Option.some.inj heq)

/-- The outline of a pass. -/
def guardPass : ResourceSyncer.PassOutline P.syncer P.clusterName P.workspacePath r P.server
    (P.ward.environment P.server P.SparesPrimary) (.ofState api P.ward.Guarded)
    (fun w => P.ward.Guarded w ∧ P.LabelsSafe r w ∧
      (r.metadata.finalizers.contains deletionFinalizer = true → P.ward.Protected w))
    (fun _ => P.ward.Guarded) P.ward.Guarded where
  outline := Ward.outline (blocks hr htype hmutator)
  conditions dest := Ward.conditions (blocks hr htype hmutator)
  stable w w' hw h := ⟨Ward.Tolerates.guarded h hw.1,
    (blocks hr htype hmutator).stable w w' hw.2.1 h, fun hfin => h.source (hw.2.2 hfin)⟩
  sound _ _ _ _ h := h.1
  always _ h := h.1
  before _ _ _ _ := trivial
  found w hw := by
    obtain ⟨hguarded, hsafe, hprotect⟩ := hw
    -- every copy is listed
    have hlisted :
        ∀ id o, P.Copy w id o → (P.syncer.copies P.clusterName P.workspacePath r w).length < 2 →
        o ∈ P.syncer.copies P.clusterName P.workspacePath r w := by
      intro id o ho hlength
      refine World.mem_of_listed (.inr hlength) ?_
      have hid := World.idOn_of_object? ho.object
      rw [ho.place.1] at hid
      refine ⟨by rw [hid]; exact ho.object, (congrArg ObjectId.typeMeta hid).trans ho.place.2,
        .inl rfl, ?_⟩
      rw [ResourceSyncer.copySelector, newObjectKey_eq hr, selectorFromSet_iff]
      exact (hguarded.copies id o ho).1
    split
    · next hcopies =>
      refine ⟨hguarded, hprotect, fun _ id o ho => ?_, fun d hd => (by cases hd), fun _ => hsafe⟩
      have hmem := hlisted id o ho (by rw [hcopies]; simp)
      rw [hcopies] at hmem
      cases hmem
    · next d hcopies =>
      refine ⟨hguarded, hprotect, fun hd => (by cases hd), fun d' hd => ?_, fun _ => hsafe⟩
      cases hd
      have hmem : d ∈ P.syncer.copies P.clusterName P.workspacePath r w := by rw [hcopies]; simp
      have hselector := (World.listed_of_mem hmem).selector
      rwa [ResourceSyncer.copySelector, newObjectKey_eq hr, selectorFromSet_iff] at hselector
    · exact hguarded
  related dest p hp o _ _ c hc := by
    intro w hw
    refine ⟨trivial, fun resp w' hd => ?_⟩
    have hguarded := Ward.guarded_of_assertion hw
    obtain ⟨hspares, hsource⟩ := relatedCall_spares hr hc hd
    have hguarded' := hguarded.of_spares hd.1.frames hspares hsource
    rcases hp with ⟨rfl, hdeleting⟩ | rfl
    · refine ⟨hguarded', fun hfin => hsource (hw.protect hfin), fun hdest id o ho => ?_, hw.marked,
        fun hlive => ?_⟩
      · exact hw.vacant hdest id o (ho.of_frames hd.1.frames hguarded.uids hspares)
      · rw [hlive] at hdeleting
        cases hdeleting
    · exact hguarded'
  failed dest p hp w hw := Ward.guarded_of_assertion hw
  cleaning _ _ _ hw := hw.guarded
  requeued _ _ hw := hw
  ended _ _ hw _ := hw

end Primary

/-! ### Related objects of the workspace -/

/-- An object of the workspace that is related to a primary object, and the name of its copy. -/
structure RelatedOrigin where
  syncer : ResourceSyncer
  server : Server
  scope : Scope
  stateStore : KubernetesBackend
  relRes : RelatedResourceSpec
  origin : SyncSide
  dest : SyncSide
  projectedGVK : TypeMeta
  typeMeta : TypeMeta
  name : NamespacedName
  destination : NamespacedName

namespace RelatedOrigin

variable (R : RelatedOrigin)

/-- Where the copy is. -/
def destId : ObjectId := ⟨R.dest.client, R.projectedGVK, R.destination.ns, R.destination.name⟩

/-- The copy of a related object is found by its name. -/
def ward : Ward where
  source := ⟨R.origin.client, R.typeMeta, R.name.ns, R.name.name⟩
  place id := id = R.destId
  scope := R.scope
  mark _ := True
  secret := R.stateStore.secretName

/-- The object is synced as it is, for some state of the primary object; the result is returned
together with the object. -/
def pass (remote : ObjectSide) (primaryDeleting : Bool) (o : Unstructured) :
    Prog api (Unstructured × Except Error Bool) :=
  (R.syncer.syncResolved R.scope R.stateStore remote R.origin R.dest R.relRes primaryDeleting
    R.projectedGVK ⟨o, R.destination⟩).run.bind fun result => .pure (o, result)

def starts (w : World) (p : Prog api (Unstructured × Except Error Bool)) : Prop :=
  ∃ o remote primaryDeleting, w.object? R.ward.source = some o ∧ p = R.pass remote primaryDeleting o

variable {R}

theorem blocks (horigin : R.relRes.origin = .kcp)
    (hmutator : R.syncer.relatedMutators R.relRes.identifier = none)
    (hsides : R.origin.client ≠ R.dest.client) {o : Unstructured}
    (ho : o.idOn R.origin.client = R.ward.source) (remote : ObjectSide) (primaryDeleting : Bool) :
    R.ward.Blocks R.syncer.libs
      (R.syncer.relatedSyncer R.stateStore remote R.relRes primaryDeleting R.projectedGVK
        ⟨o, R.destination⟩) R.server
        { client := R.origin.client, clusterName := R.origin.clusterName }
      { client := R.dest.client, clusterName := R.dest.clusterName } o fun _ => True where
  block := by simp [ResourceSyncer.relatedSyncer, horigin]
  mutator := hmutator
  secret := rfl
  source := ho
  sides := hsides
  place id hid := by
    cases hid
    rfl
  namespaces destObj hdest hns hid := by
    -- the Namespace has no namespace, the copy has one
    cases hdest
    exact hns (congrArg ObjectId.ns hid).symm
  new _ := trivial
  adopted _ := trivial
  applied _ _ := trivial
  full _ _ := trivial
  restamp _ _ _ := trivial
  stable _ _ _ _ := trivial
  patch _ _ _ _ _ _ _ _ _ _ := trivial

theorem pass_keeps {o : Unstructured} {remote : ObjectSide} {primaryDeleting : Bool}
    (hB : R.ward.Blocks R.syncer.libs
      (R.syncer.relatedSyncer R.stateStore remote R.relRes primaryDeleting R.projectedGVK
        ⟨o, R.destination⟩) R.server
        { client := R.origin.client, clusterName := R.origin.clusterName }
      { client := R.dest.client, clusterName := R.dest.clusterName } o fun _ => True) {w : World}
    (hw : R.ward.Guarded w) (ho : w.object? R.ward.source = some o) :
    (R.pass remote primaryDeleting o).Keeps (R.ward.environment R.server fun _ _ => True)
      (.ofState api R.ward.Guarded) (fun _ => R.ward.Guarded) w := by
  have hsync : Fallible.Keeps (R.ward.environment R.server fun _ _ => True)
      (.ofState api R.ward.Guarded)
      (R.syncer.syncResolved R.scope R.stateStore remote R.origin R.dest
        R.relRes primaryDeleting R.projectedGVK ⟨o, R.destination⟩) (fun _ => R.ward.Guarded)
      R.ward.Guarded w := by
    refine .seq (P := fun (found : Except ApiError Unstructured) =>
      R.ward.Found o (fun _ => True) found.toOption)
      (.request fun w₁ hr => ⟨trivial, fun resp w₂ hd => ?_⟩) fun found w hw => ?_
    · have hguarded := hr.guarded hw
      obtain ⟨rfl, rfl⟩ := hd.1.get
      refine ⟨hguarded, hguarded, fun hfin => hr.source ⟨o, ho, hfin⟩, fun hdest id o' ho' => ?_,
        fun _ _ => trivial, fun _ => trivial⟩
      -- without an object of that name there is no copy
      have hobj := ho'.object
      rw [ho'.place] at hobj
      simp only [destId] at hobj
      rw [hobj] at hdest
      cases hdest
    · refine .seq (P := fun _ => R.ward.Guarded) (.mapError ?_) fun result w hw => .pure hw
      cases found with
      | ok d =>
        exact .mono ((Ward.conditions hB).sync_keeps hw) (fun _ _ h => h.1) fun _ h => h
      | error e =>
        exact .mono ((Ward.conditions hB).sync_keeps hw) (fun _ _ h => h.1) fun _ h => h
  refine Prog.Keeps.bind (Prog.Keeps.mono hsync ?_)
  rintro (_ | _) w hw
  · exact hw
  · exact hw

end RelatedOrigin

/-! ### Runs -/

/-- The objects whose deletion is blocked: a primary object, or a related object of the
workspace. -/
inductive Blocker where
  | primary (P : Primary)
  | related (R : RelatedOrigin)

namespace Blocker

def ward : Blocker → Ward
  | primary P => P.ward
  | related R => R.ward

/-- The syncer has no mutator, it writes no copies into the cluster of the source, and the copies of
a primary object are no Namespaces. -/
def WellFormed : Blocker → Prop
  | primary P => P.syncer.destType ≠ ObjectSyncer.namespaceType ∧ P.syncer.primaryMutator = none
  | related R => R.relRes.origin = .kcp ∧ R.syncer.relatedMutators R.relRes.identifier = none ∧
      R.origin.client ≠ R.dest.client

/-- The calls go as they should, whatever the related resources of a primary object do. -/
def environment (b : Blocker) (admits : Primary → Call → World → Prop) : Environment api World :=
  match b with
  | primary P => P.ward.environment P.server (admits P)
  | related R => R.ward.environment R.server fun _ _ => True

/-- Passes on a primary object start only if they meet a condition. -/
def starts (b : Blocker) (cond : Primary → Unstructured → World → Prop) (w : World)
    (p : Prog api (Unstructured × Except Error Bool)) : Prop :=
  match b with
  | primary P => P.starts (cond P) w p
  | related R => R.starts w p

/-- At the start there is no copy. -/
structure NoCopy (b : Blocker) (w : World) : Prop where
  none : ∀ id o, ¬ b.ward.Copy w id o
  uids : w.UidsUsed

theorem guarded {b : Blocker} (hb : b.WellFormed) {w : World}
    {p : Option (Prog api (Unstructured × Except Error Bool))}
    (h : Run (b.environment Primary.SparesPrimary) b.NoCopy (b.starts Primary.LabelsSafe) w p) :
    b.ward.Guarded w := by
  have hrely : ∀ w w', b.ward.Guarded w → (b.environment Primary.SparesPrimary).rely w w' →
      b.ward.Guarded w' := by
    cases b <;> exact fun w w' hw hr => Ward.Tolerates.guarded hr hw
  have hidle : ∀ w w', b.ward.Guarded w → (b.environment Primary.SparesPrimary).idle w w' →
      b.ward.Guarded w' := by
    cases b <;> exact fun w w' hw hr => False.elim hr
  refine (Run.keeps (G := .ofState api b.ward.Guarded) (J := b.ward.Guarded)
    (Q := fun _ => b.ward.Guarded) (fun w hw => ⟨fun id o ho => absurd ho (hw.none id o), hw.uids⟩)
    hrely hidle hrely (fun _ hw => hw) (fun _ => hrely) (fun _ _ hw => hw) (fun w p hw hstart => ?_)
    h).1
  cases b with
  | primary P =>
    obtain ⟨r, hobj, hsafe, rfl⟩ := hstart
    have hr : r.idOn (.remoteClient P.clusterName) = P.id := World.idOn_of_object? hobj
    refine (P.pass_keeps ((Primary.guardPass hr hb.1 hb.2).process_keeps
      ⟨hw, hsafe, fun hfin => ⟨r, hobj, hfin⟩⟩)).mono ?_
    rintro ⟨_, _ | _⟩ w hw
    · exact hw.1
    · exact hw.1
  | related R =>
    obtain ⟨o, remote, primaryDeleting, hobj, rfl⟩ := hstart
    exact RelatedOrigin.pass_keeps (RelatedOrigin.blocks hb.1 hb.2.1 hb.2.2
      (World.idOn_of_object? hobj) remote primaryDeleting) hw hobj

/-- Whenever there is a copy, its source exists and carries the finalizer: always for a related
object, and for a primary object as long as its passes start with safe labels and no related
resource writes it or its copies. -/
theorem no_orphan {b : Blocker} (hb : b.WellFormed) {w : World}
    {p : Option (Prog api (Unstructured × Except Error Bool))}
    (h : Run (b.environment Primary.SparesPrimary) b.NoCopy (b.starts Primary.LabelsSafe) w p)
    {id : ObjectId} {o : Unstructured} (ho : b.ward.Copy w id o) : b.ward.Protected w :=
  ((guarded hb h).copies id o ho).2

open Primary in
theorem relabel_tolerates (labels : StringMap) (w : World) :
    (sample []).ward.Tolerates w (relabel labels w) :=
  ⟨fun _ => ⟨_, object?_relabel.trans (if_pos rfl), rfl⟩,
    fun _ o ho => ⟨o, copy_relabel ho, rfl⟩, rfl,
    uidsUsed_relabel⟩

open Primary in
/-- The world after the copy of the sample object has been created. -/
def createdWorld : World := (sample []).afterPass execOwn (sampleWorld ∅ default)

open Primary in
/-- The world after the object has got a label and the copy has been updated. -/
def updatedWorld : World :=
  (sample []).afterPass execOwn (relabel (SortedMap.insert ∅ "team" "a") createdWorld)

open Primary in
/-- The copy of the sample object after its creation and an update, and its source. -/
theorem no_orphan_sample : ∃ o, (primary (sample [])).ward.Copy updatedWorld sampleCopy o ∧
    o.metadata.labels.get? "team" = some "a" ∧
    (primary (sample [])).ward.Protected updatedWorld := by
  obtain ⟨o, ho, hlabel⟩ : ∃ o, (sample []).Copy updatedWorld sampleCopy o ∧
      decide (o.metadata.labels.get? "team" = some "a") = true :=
    exists_copy ⟨rfl, rfl⟩ (by decide +kernel)
  have hexec : ∀ c w r w', execOwn c w = some (r, w') →
      ((sample []).ward.environment .setting (sample []).SparesPrimary).does c w r w' := by
    intro c w r w' h
    obtain ⟨hdoes, hown⟩ := execOwn_eq_some h
    exact ⟨hdoes, fun hrel => by rw [hown] at hrel; cases hrel⟩
  have hcreated : Run ((primary (sample [])).environment SparesPrimary) (primary (sample [])).NoCopy
      ((primary (sample [])).starts LabelsSafe) createdWorld none :=
    run_afterPass hexec (sample [])
      (.init ⟨fun _ _ ho => absurd ho.created List.not_mem_nil, uidsUsed_sampleWorld _ _⟩)
      fun r _ _ _ _ hd => absurd hd.created List.not_mem_nil
  have hupdated : Run ((primary (sample [])).environment SparesPrimary) (primary (sample [])).NoCopy
      ((primary (sample [])).starts LabelsSafe) updatedWorld none := by
    refine run_afterPass hexec (sample []) (hcreated.others (relabel_tolerates _ _)) fun r hr => ?_
    rw [object?_relabel, if_pos rfl] at hr
    cases hr
    intro _ id d _ last hlast
    have hstored : ((sample []).stored createdWorld).map (·.metadata.labels) = some ∅ := by
      decide +kernel
    rw [stored_relabel] at hlast
    rw [hlast] at hstored
    have hlabels : last.metadata.labels = ∅ := Option.some.inj hstored
    rw [hlabels]
    exact ⟨rfl, fun _ => rfl⟩
  have hwf : (primary (sample [])).WellFormed := ⟨show crontabType ≠ _ by decide, rfl⟩
  exact ⟨o, ho, of_decide_eq_true hlabel, no_orphan hwf hupdated ho⟩

/-- A Secret of the workspace that has the name of the sample object. -/
def dailySecret : RelatedResourceSpec :=
  { identifier := "creds", origin := .kcp, kind := "Secret"
    object := { object := { template := some ⟨"daily"⟩ } } }

/-- A workspace with the sample object, which has no labels, and the Secret, which has one. -/
def secretWorld : World :=
  (Primary.sampleWorld ∅ default).put (.remoteClient "c1")
    ⟨.secret,
      { name := "daily", ns := "team-a", labels := SortedMap.insert ∅ "team" "a"
        finalizers := [deletionFinalizer] }, default⟩

/-- All calls go through. -/
def execAll (c : api.Call) (w : World) : Option (api.Resp c × World) := some (exec .setting c w)

/-- The sample object is deleted. -/
def deleted (w : World) : World := (w.deleteObject (Primary.sample []).id .background).2

theorem deleted_tolerates (w : World) :
    (Primary.sample [dailySecret]).ward.Tolerates w (deleted w) := by
  have hd : World.Does .setting ⟨(Primary.sample []).scope,
      .delete (Primary.sample [dailySecret]).id .background⟩ w
      (w.deleteObject (Primary.sample []).id .background).1 (deleted w) := .inl rfl
  exact Ward.tolerates_delete (W := (Primary.sample [dailySecret]).ward)
    (fun hplace => by cases hplace.1) hd

/-- The world after a pass. -/
def secretPass : World → World := (Primary.sample [dailySecret]).afterPass execAll

theorem secretWorld_noCopy : (primary (Primary.sample [dailySecret])).NoCopy secretWorld := by
  refine ⟨fun _ _ ho => absurd ho.created List.not_mem_nil, fun id o ho => ?_, fun e he => ?_⟩
  · rw [secretWorld, World.object?_put] at ho
    split at ho
    · cases ho
      exact Nat.le_refl 0
    · exact (Primary.uidsUsed_sampleWorld ∅ default).objects id o ho
  · cases he

open Primary in
/-- The state of a related Secret with the same name replaces that of the primary object, the next
pass removes all labels from the copy, and after the deletion of the primary object its finalizer is
removed, while the copy is left. -/
theorem orphan_left : ∃ w o,
    Run ((primary (sample [dailySecret])).environment fun _ _ _ => True)
      (primary (sample [dailySecret])).NoCopy
      ((primary (sample [dailySecret])).starts fun _ _ _ => True) w none ∧
    (primary (sample [dailySecret])).ward.Copy w sampleCopy o ∧
    ¬ (primary (sample [dailySecret])).ward.Protected w := by
  obtain ⟨r, w, hresult, htest⟩ : ∃ r w, (sample [dailySecret]).passResult execAll
      (deleted (secretPass (secretPass (secretPass secretWorld)))) = some ((r, .ok true), w) ∧ _ :=
    (sample [dailySecret]).exists_result true (fun _ w => (w.object? sampleCopy).any fun o =>
      decide ((o.metadata.uid, (sample [dailySecret]).scope) ∈ w.created) &&
        (w.object? (sample [dailySecret]).id).isNone) (by decide +kernel)
  obtain ⟨o, ho, hgone⟩ := exists_copy (P := sample [dailySecret]) ⟨rfl, rfl⟩ htest
  have hexec : ∀ c w r w', execAll c w = some (r, w') →
      ((sample [dailySecret]).ward.environment .setting fun _ _ => True).does c w r w' :=
    fun _ _ _ _ h => ⟨.inl (Option.some.inj h), trivial⟩
  have hpass : ∀ w, Run ((sample [dailySecret]).ward.environment .setting fun _ _ => True)
      (primary (sample [dailySecret])).NoCopy
      ((sample [dailySecret]).starts fun _ _ => True) w none →
      Run ((sample [dailySecret]).ward.environment .setting fun _ _ => True)
        (primary (sample [dailySecret])).NoCopy ((sample [dailySecret]).starts fun _ _ => True)
        (secretPass w) none :=
    fun w h => run_afterPass hexec _ h fun _ _ => trivial
  have hdeleted := (hpass _ (hpass _ (hpass _ (.init secretWorld_noCopy)))).others
    (deleted_tolerates _)
  refine ⟨w, o, (run_passResult hexec _ hdeleted (fun _ _ => trivial) hresult).finish, ho, ?_⟩
  rintro ⟨o', ho', -⟩
  rw [Option.isNone_iff_eq_none] at hgone
  cases ho'.symm.trans hgone

end Blocker

end Sync
