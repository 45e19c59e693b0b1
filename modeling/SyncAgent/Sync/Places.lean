import SyncAgent.Sync.KeptLinks
import SyncAgent.Sync.Stability

/-! Whether the local object keeps its name: `Sync` writes on the service cluster at the local
object that was found, or at the name that is generated for it. -/

namespace Sync

open Kube

namespace Primary

variable (P : Primary)

/-- The same primary object after a change of the PublishedResource. -/
def republished (pubRes : PublishedResource) : Primary :=
  { P with syncer := { P.syncer with pubRes := pubRes } }

/-- The local objects are of a type that the agent has no other objects of: Namespaces are created
for them, and their states are stored in Secrets with their labels, which the model keeps apart. -/
structure OwnType : Prop where
  namespaces : P.syncer.destType ≠ ObjectSyncer.namespaceType
  secrets : P.syncer.useServerSideApply = false → P.syncer.destType ≠ .secret

/-- No more than one local object has the labels. -/
def Sole (w : World) : Prop := ∀ o o', P.Located w o → P.Located w o' → o = o'

/-- No local object has got the labels. -/
def LabelsNone (w w' : World) : Prop :=
  ∀ o, P.Located w' o → ∃ o', P.Located w o' ∧ o'.idOn .localClient = o.idOn .localClient

/-- The runs in which nobody else gives objects the labels and no related resource has objects of
the local type on the service cluster. -/
def nameEnvironment : Environment api World where
  rely := P.LabelsNone
  refl _ := fun o h => ⟨o, h, rfl⟩
  trans h₁ h₂ := by
    intro o ho
    obtain ⟨o₂, ho₂, hid₂⟩ := h₂ o ho
    obtain ⟨o₁, ho₁, hid₁⟩ := h₁ o₂ ho₂
    exact ⟨o₁, ho₁, hid₁.trans hid₂⟩
  does c w r w' := World.Does P.server c w r w' ∧
    (c.scope.identifier.isSome = true → ∀ id, c.verb.target = some id → ¬ P.isLocal id)

/-- The name that is generated for `r`, as the mutations leave it, is that of its local object. -/
def Regenerates (r l : Unstructured) : Prop :=
  ∀ source dest d, (P.syncerOf r).applyMutations r (some l) = .ok (source, dest) →
    (P.syncerOf r).destCreator source = .ok d → d.idOn .localClient = l.idOn .localClient

/-- A pass on `r` merges, or it generates the name that the local object has. -/
def KeepsName (r : Unstructured) (w : World) : Prop :=
  P.syncer.useServerSideApply = true → ∀ o, P.Located w o →
    ∀ l, l.idOn .localClient = o.idOn .localClient → P.Regenerates r l

/-- A pass after a change of the PublishedResource, if it meets a condition. -/
def republishedStarts (cond : Primary → Unstructured → World → Prop) (w : World)
    (p : Prog api (Unstructured × Except Error Bool)) : Prop :=
  ∃ pubRes, (P.republished pubRes).starts (cond (P.republished pubRes)) w p

/-- The call writes no local object but this one. -/
def WritesOnly (l : Unstructured) (c : Call) : Prop :=
  ∀ id, c.verb.target = some id → P.isLocal id → id = l.idOn .localClient

/-- As long as a pass on what was found lasts, the objects with the labels are where it writes. -/
def LocatedWithin (r : Unstructured) (dest : Option Unstructured) (w : World) : Prop :=
  ∀ o, P.Located w o → (P.syncerOf r).WritesAt .localClient r dest (o.idOn .localClient)

section Names

variable {P} {r l : Unstructured} {w w' : World} {dest : Option Unstructured}
  {V : (c : api.Call) → api.Resp c → Prop}

theorem writesAt_some (h : P.syncer.useServerSideApply = true → P.Regenerates r l) {id : ObjectId}
    (hid : (P.syncerOf r).WritesAt .localClient r (some l) id) : id = l.idOn .localClient := by
  cases hid with
  | found hl =>
    cases hl
    rfl
  | generated hgenerate hmut hcreate =>
    rcases hgenerate with hnone | hssa
    · cases hnone
    · exact h hssa _ _ _ hmut hcreate

theorem writesAt_unique
    (h : ∀ l, dest = some l → P.syncer.useServerSideApply = true → P.Regenerates r l)
    {id id' : ObjectId} (hid : (P.syncerOf r).WritesAt .localClient r dest id)
    (hid' : (P.syncerOf r).WritesAt .localClient r dest id') : id = id' := by
  cases dest with
  | some l => rw [writesAt_some (h l rfl) hid, writesAt_some (h l rfl) hid']
  | none =>
    cases hid with
    | found hl => cases hl
    | generated _ hmut hcreate =>
      cases hid' with
      | found hl => cases hl
      | generated _ hmut' hcreate' =>
        cases hmut.symm.trans hmut'
        cases hcreate.symm.trans hcreate'
        rfl

/-- Of the local objects, `Sync` writes the one at such a place. -/
theorem writesAt_of_syncCall (htype : P.OwnType)
    (hmutator : ∀ m, P.syncer.primaryMutator = some m → m.KeepsIdentity)
    (hV : ∀ (c : api.Call) r, V c r → c.verb.Answers r) {L : Libraries} {scope : Scope} {c : Call}
    (h : (P.syncerOf r).SyncCall V L scope (.remoteClient P.clusterName) .localClient r dest c)
    {id : ObjectId} (hid : c.verb.target = some id) (hlocal : P.isLocal id) :
    (P.syncerOf r).WritesAt .localClient r dest id := by
  have hclient : id.client ≠ .remoteClient P.clusterName := by
    rw [hlocal.1]
    rintro ⟨⟩
  refine (h.target ⟨hV, hmutator⟩ hid hclient).resolve_right ?_
  rintro ⟨ns, hns⟩
  rw [hns] at hid
  cases hid
  exact htype.namespaces hlocal.2.symm

theorem located_of_frames {c : Call} (hf : w.Frames c w') {o : Unstructured} (ho : P.Located w' o)
    (htarget : c.verb.target ≠ some (o.idOn .localClient)) : P.Located w o :=
  ⟨(hf.objects _ htarget).symm.trans ho.object, ho.typeMeta, ho.ns, ho.selector⟩

theorem sole_of_place (h : ∀ o o', P.Located w o → P.Located w o' →
    o.idOn .localClient = o'.idOn .localClient) : P.Sole w := by
  intro o o' ho ho'
  have hobj := ho.object
  rw [h o o' ho ho', ho'.object] at hobj
  exact (Option.some.inj hobj).symm

theorem LabelsNone.sole (h : P.LabelsNone w w') (hw : P.Sole w) : P.Sole w' := by
  refine sole_of_place fun o o' ho ho' => ?_
  obtain ⟨o₁, ho₁, hid₁⟩ := h o ho
  obtain ⟨o₂, ho₂, hid₂⟩ := h o' ho'
  rw [← hid₁, ← hid₂, hw o₁ o₂ ho₁ ho₂]

theorem LabelsNone.locatedWithin (h : P.LabelsNone w w') (hw : P.LocatedWithin r dest w) :
    P.LocatedWithin r dest w' := by
  intro o ho
  obtain ⟨o', ho', hid⟩ := h o ho
  exact hid ▸ hw o' ho'

theorem LabelsNone.keepsName (h : P.LabelsNone w w') (hw : P.KeepsName r w) : P.KeepsName r w' := by
  intro hssa o ho l hl
  obtain ⟨o', ho', hid⟩ := h o ho
  exact hw hssa o' ho' l (hl.trans hid.symm)

theorem LocatedWithin.of_call (htype : P.OwnType)
    (hmutator : ∀ m, P.syncer.primaryMutator = some m → m.KeepsIdentity)
    (hw : P.LocatedWithin r dest w) {c : Call} {resp : c.verb.Resp}
    (hc : P.syncer.FoundCall (fun c r => c.verb.Answers r) P.clusterName P.workspacePath r dest c)
    (hd : P.nameEnvironment.does c w resp w') : P.LocatedWithin r dest w' := by
  intro o ho
  by_cases htarget : c.verb.target = some (o.idOn .localClient)
  · have hlocal : P.isLocal (o.idOn .localClient) := ⟨rfl, ho.typeMeta⟩
    cases hc with
    | sync hc => exact writesAt_of_syncCall htype hmutator (fun _ _ h => h) hc htarget hlocal
    | related _ hc =>
      rcases hc.related with ⟨identifier, hscope⟩ | ⟨annotations, rfl⟩
      · exact absurd hlocal (hd.2 (by rw [hscope]; rfl) _ htarget)
      · cases congrArg ObjectId.client (Option.some.inj htarget)
  · exact hw o (located_of_frames hd.1.frames ho htarget)

theorem sole_pass (htype : P.OwnType)
    (hmutator : ∀ m, P.syncer.primaryMutator = some m → m.KeepsIdentity)
    (hr : r.idOn (.remoteClient P.clusterName) = P.id) (hw : P.Sole w) (hname : P.KeepsName r w) :
    Fallible.Keeps P.nameEnvironment (.ofState api P.Sole)
      (P.syncer.process P.clusterName P.workspacePath r) (fun _ => P.Sole) P.Sole w := by
  -- what was found fixes the place where the pass writes
  let Found (dest : Option Unstructured) (w : World) : Prop := P.LocatedWithin r dest w ∧
    ∀ l, dest = some l → P.syncer.useServerSideApply = true → P.Regenerates r l
  have hsole : ∀ dest w, Found dest w → P.Sole w := fun dest w h =>
    sole_of_place fun o o' ho ho' => writesAt_unique h.2 (h.1 o ho) (h.1 o' ho')
  refine .seq (.mapError
    (ResourceSyncer.findLocalObject_keeps (E := P.nameEnvironment) (S := P.server) (K := Found)
    (J := fun w => P.Sole w ∧ P.KeepsName r w)
    (fun _ _ hw h => ⟨LabelsNone.sole h hw.1, LabelsNone.keepsName h hw.2⟩) (fun _ _ _ _ h => h.1)
    (fun _ hw => hw.1) (fun _ _ _ _ => trivial) (fun w hw => ?_) ⟨hw, hname⟩))
    fun dest w hfound => ?_
  · have hfound : ∀ dest : Option Unstructured,
        P.syncer.copies P.clusterName P.workspacePath r w = dest.toList → Found dest w := by
      intro dest hcopies
      refine ⟨fun o ho => .found ((located_iff hr hcopies o).mp ho), fun l hl hssa => ?_⟩
      exact hw.2 hssa l ((located_iff hr hcopies l).mpr hl) l rfl
    split
    · next hcopies => exact hfound none hcopies
    · next d hcopies => exact hfound (some d) hcopies
    · exact hw.1
  · refine .mono (.of_obeys (V := fun (c : api.Call) r => c.verb.Answers r) (J := Found dest)
      ResourceSyncer.processFound_obeys (hsole dest)
      (fun _ _ hw h => ⟨LabelsNone.locatedWithin h hw.1, hw.2⟩) (fun _ _ _ _ => trivial)
      (fun c hc w resp w' hw hd => ?_) hfound) (fun _ w h => hsole dest w h.1) (hsole dest)
    exact ⟨hd.1.answers, hw.1.of_call htype hmutator hc hd, hw.2⟩

end Names

/-- The runs in which the other parties do what they like. -/
def openEnvironment : Environment api World where
  rely _ _ := True
  refl _ := trivial
  trans _ _ := trivial
  does := World.Does P.server

variable {P} in
theorem exists_located {w : World} {id : ObjectId} (test : Unstructured → Bool) (hid : P.isLocal id)
    (h : (w.object? id).any (fun o =>
      selectorFromSet (P.key.labels P.syncer.libs.hash) o.metadata.labels && test o) = true) :
    ∃ o, P.Located w o ∧ o.idOn .localClient = id ∧ test o = true := by
  rw [Option.any_eq_true] at h
  obtain ⟨o, ho, hboth⟩ := h
  rw [Bool.and_eq_true] at hboth
  have hplace : o.idOn .localClient = id := hid.1 ▸ World.idOn_of_object? ho
  exact ⟨o,
    ⟨hplace ▸ ho, (congrArg ObjectId.typeMeta hplace).trans hid.2, .inl rfl, hboth.1⟩, hplace,
    hboth.2⟩

/-- The sample, which is synced by server-side apply. -/
def applying : Primary :=
  { sample [] with syncer := { (sample []).syncer with useServerSideApply := true } }

/-- The PublishedResource with another name for the local object. -/
def weekly : PublishedResource :=
  { (sample []).syncer.pubRes with naming := some { name := "weekly", ns := "tenant" } }

/-- The world after the local object has been applied. -/
def appliedWorld : World := applying.afterPass execOwn (sampleWorld ∅ default)

theorem not_located_sampleWorld (o : Unstructured) :
    ¬ applying.Located (sampleWorld ∅ default) o := by
  intro ho
  obtain ⟨hid, -⟩ := object?_sampleWorld ho.object
  cases congrArg ObjectId.client hid

theorem execOwn_name (c : api.Call) (w : World) (r : api.Resp c) (w' : World)
    (h : execOwn c w = some (r, w')) : applying.nameEnvironment.does c w r w' := by
  obtain ⟨hdoes, hown⟩ := execOwn_eq_some h
  exact ⟨hdoes, fun hrel => by rw [hown] at hrel; cases hrel⟩

theorem relabel_labelsNone (labels : StringMap) (w : World) :
    applying.LabelsNone w (relabel labels w) := by
  intro o ho
  have hobj := ho.object
  rw [object?_relabel, if_neg fun hid => by cases congrArg ObjectId.client hid] at hobj
  exact ⟨o, ⟨hobj, ho.typeMeta, ho.ns, ho.selector⟩, rfl⟩

/-- The world after the remote object has got a label and the local object has been applied
again. -/
def reappliedWorld : World :=
  applying.afterPass execOwn (relabel (SortedMap.insert ∅ "team" "b") appliedWorld)

/-- The world after a pass with the other name. -/
def weeklyWorld : World := (applying.republished weekly).afterPass execOwn appliedWorld

end Primary

end Sync
