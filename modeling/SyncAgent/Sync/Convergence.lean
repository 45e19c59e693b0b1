import SyncAgent.Sync.Runs

/-! What the local object has when a pass says that nothing is left to do.  In merge mode, a pass
compares the remote object with its last-known state and not with the local object, so everything
depends on what the local object has of the last-known state. -/

namespace Sync

open Kube

namespace Primary

variable (P : Primary)

/-- The content that is synced: all fields but the subresources. -/
def content (o : Unstructured) : Fields := (o.content.without P.syncer.subresources).fields

/-- The object has the content of `r`: it does not change if this is applied to it as a merge
patch. -/
def HasContent (o r : Unstructured) : Prop := o.content.fields.Covers (P.content r)

/-- The object has the labels by which the local object is found. -/
def Labelled (o : Unstructured) : Prop :=
  o.metadata.labels.Contains (P.key.labels P.syncer.libs.hash)

/-- The place of a name that is generated for some version of the remote object. -/
def Generated (id : ObjectId) : Prop :=
  ∃ r d, r.idOn (.remoteClient P.clusterName) = P.id ∧ (P.syncerOf r).destCreator r = .ok d ∧
    d.idOn .localClient = id

/-- The local objects: those under a generated name and those with the labels. -/
structure Local (w : World) (id : ObjectId) (o : Unstructured) : Prop where
  place : P.isLocal id
  object : w.object? id = some o
  known : P.Generated id ∨ P.Labelled o

/-- Nobody else writes the local objects or the stored states. -/
structure LeavesLocal (w w' : World) : Prop where
  locals : ∀ id o, P.Local w' id o ↔ P.Local w id o
  secret : w'.secret? P.store.secretName = w.secret? P.store.secretName

/-- Any write can fail; calls are made and answered only as admitted. -/
def localEnvironment (admits : (c : Call) → World → c.verb.Resp → Prop) :
    Environment api World where
  rely := P.LeavesLocal
  refl _ := ⟨fun _ _ => Iff.rfl, rfl⟩
  trans h₁ h₂ :=
    ⟨fun id o => (h₂.locals id o).trans (h₁.locals id o), h₂.secret.trans h₁.secret⟩
  does c w r w' := World.Does P.server c w r w' ∧ admits c w r

/-- No related resource has objects of the local type on the service cluster, and none stores a
state under the key of the primary object. -/
def SparesLocal (c : Call) (w : World) : Prop :=
  c.scope.identifier.isSome = true → (∀ id, c.verb.target = some id → ¬ P.isLocal id) ∧
    ∀ secret, c.verb = .createSecret P.store.secretName secret ∨
      c.verb = .updateSecret P.store.secretName secret →
      secret.data.get? P.storeKey = (P.store.entries w).get? P.storeKey

/-- A new state of the primary object is stored without a failure if there is an old one. -/
def ReplacesState (c : Call) (w : World) (r : c.verb.Resp) : Prop :=
  c.scope = P.scope → c.verb.secretTarget = some P.store.secretName → P.stored w ≠ none →
    c.isError r = false

/-- The calls of the runs in which no update is lost. -/
def KeepsUpdates (c : Call) (w : World) (r : c.verb.Resp) : Prop :=
  P.SparesLocal c w ∧ P.ReplacesState c w r

/-- The same local objects and the same last-known state. -/
structure SameLocal (w w' : World) : Prop where
  locals : ∀ id o, P.Local w' id o ↔ P.Local w id o
  stored : P.stored w' = P.stored w

section Steps

variable {P} {w w' : World} {c : Call}

theorem LeavesLocal.same (h : P.LeavesLocal w w') : P.SameLocal w w' :=
  ⟨h.locals, by simp only [Primary.stored, KubernetesBackend.entries, h.secret]⟩

theorem locals_of_frames (hf : w.Frames c w')
    (htarget : ∀ id, c.verb.target = some id → ¬ P.isLocal id) (id : ObjectId) (o : Unstructured) :
    P.Local w' id o ↔ P.Local w id o := by
  constructor
  · intro h
    have hsame := hf.objects id fun heq => htarget id heq h.place
    exact ⟨h.place, hsame ▸ h.object, h.known⟩
  · intro h
    have hsame := hf.objects id fun heq => htarget id heq h.place
    exact ⟨h.place, hsame.trans h.object, h.known⟩

theorem sameLocal_of_frames (hf : w.Frames c w')
    (htarget : ∀ id, c.verb.target = some id → ¬ P.isLocal id)
    (hsecret : c.verb.secretTarget = none) : P.SameLocal w w' :=
  LeavesLocal.same ⟨locals_of_frames hf htarget, hf.secrets _ (by simp [hsecret])⟩

theorem sameLocal_of_related {r : c.verb.Resp} (hd : World.Does P.server c w r w')
    (hrelated : c.scope.identifier.isSome = true) (hspares : P.SparesLocal c w) :
    P.SameLocal w w' := by
  obtain ⟨htarget, hdata⟩ := hspares hrelated
  refine ⟨locals_of_frames hd.frames htarget, ?_⟩
  have hother : c.verb.secretTarget ≠ some P.store.secretName → P.stored w' = P.stored w := by
    intro hne
    simp only [Primary.stored, KubernetesBackend.entries, hd.frames.secrets _ hne]
  have hstore : ∀ secret : StateSecret,
      secret.data.get? P.storeKey = (P.store.entries w).get? P.storeKey →
      P.stored (w.putSecret P.store.secretName secret).tick = P.stored w := by
    intro secret hget
    simp only [Primary.stored]
    rw [← hget]
    simp [KubernetesBackend.entries]
  obtain ⟨scope, verb⟩ := c
  cases verb with
  | createSecret id secret =>
    by_cases hid : id = P.store.secretName
    · subst hid
      rcases hd.createSecret with ⟨e, -, rfl⟩ | ⟨-, -, rfl⟩
      · rfl
      · exact hstore _ (hdata secret (.inl rfl))
    · exact hother fun heq => hid (Option.some.inj heq)
  | updateSecret id secret =>
    by_cases hid : id = P.store.secretName
    · subst hid
      rcases hd.updateSecret with ⟨e, -, rfl⟩ | ⟨-, rfl⟩
      · rfl
      · exact hstore _ (hdata secret (.inr rfl))
    · exact hother fun heq => hid (Option.some.inj heq)
  | _ => exact hother (by rintro ⟨⟩)

theorem Local.of_adds {client : Client} {scope : Scope} {new : Unstructured}
    (hadds : w.Adds client scope new w') {id : ObjectId} {o : Unstructured} (ho : P.Local w' id o) :
    o = new ∨ P.Local w id o := by
  have hobj := ho.object
  rw [hadds.objects] at hobj
  split at hobj
  · cases hobj
    exact .inl rfl
  · exact .inr ⟨ho.place, hobj, ho.known⟩

theorem Local.of_rewrites {id' : ObjectId} {next new : Unstructured}
    (hrew : w.Rewrites id' next new w') {id : ObjectId} {o : Unstructured} (ho : P.Local w' id o) :
    id = id' ∧ o = new ∨ id ≠ id' ∧ P.Local w id o := by
  rcases hrew.object_cases ho.object with hnew | ⟨hid, hobj⟩
  · exact .inl hnew
  · exact .inr ⟨hid, ho.place, hobj, ho.known⟩

theorem Local.of_dying {id' : ObjectId} {cur : Unstructured} (hkeeps : w.Keeps (some id') w')
    (hdying : w'.Dying id' cur) (hcur : w.object? id' = some cur) {id : ObjectId} {o : Unstructured}
    (ho : P.Local w' id o) :
    ∃ o₀, P.Local w id o₀ ∧ o₀.metadata.labels = o.metadata.labels ∧ o₀.content = o.content := by
  obtain ⟨o₀, fin, time, rv, hobj, rfl⟩ := hdying.before hkeeps hcur ho.object
  exact ⟨o₀, ⟨ho.place, hobj, ho.known⟩, rfl, rfl⟩

end Steps

/-! ### The assertions of a pass -/

variable (X : Prop) (M : ObjectMeta) (r : Unstructured) (dest : Option Unstructured)

/-- What holds between passes: the object with the labels has the content of the last-known state.
If `X` holds, all local objects have the labels, and the last-known state is a snapshot of an object
with the metadata `M`. -/
structure Synced (w : World) : Prop where
  covered : ∀ last, P.stored w = some last → (P.content last).NullFree ∧
    ∀ id o, P.Local w id o → P.Labelled o → P.HasContent o last
  labelled : X → ∀ id o, P.Local w id o → P.Labelled o
  exact : X → ∀ last, P.stored w = some last → last.typeMeta = P.typeMeta ∧ last.metadata = M ∧
    last.content.without P.syncer.subresources = last.content

/-- A version that can be synced. -/
structure Syncable : Prop where
  nullFree : (P.content r).NullFree
  metadata : X → (stripMetadata r).metadata = M

/-- An object under a generated name that is not labelled yet has the content already. -/
def Prepared (w : World) : Prop := ∀ id o, P.Local w id o → ¬ P.Labelled o → P.HasContent o r

/-- The local objects are up to date. -/
structure Current (w : World) : Prop where
  content : ∀ id o, P.Local w id o → P.HasContent o r
  labelled : X → ∀ id o, P.Local w id o → P.Labelled o

/-- The local objects are up to date, and the version has been stored. -/
structure Done (w : World) : Prop where
  synced : P.Synced X M w
  current : P.Current X r w
  stored : X → P.stored w = some (snapshotObject r P.syncer.subresources)

/-- The labelled object, if there is one, was found. -/
structure FoundLocal (w : World) : Prop where
  synced : P.Synced X M w
  only : ∀ id o, P.Local w id o → P.Labelled o → dest = some o
  here : ∀ d, dest = some d → P.Local w (d.idOn .localClient) d ∧ P.Labelled d
  prepared : r.metadata.deletionTimestamp = none → P.Prepared r w

/-- What a pass without a requeue says of the local objects that are not being deleted. -/
structure Result (w : World) : Prop where
  exist : ∃ id o, P.Local w id o
  current : ∀ id o, P.Local w id o → o.metadata.deletionTimestamp = none →
    P.HasContent o r ∧ (X → P.stored w = some (snapshotObject r P.syncer.subresources))

def localAssertion : ObjectSyncer.Point → World → Prop
  | .found, w => P.FoundLocal X M r dest w
  | .adopting existing, w => P.FoundLocal X M r dest w ∧
      P.Local w (existing.idOn .localClient) existing ∧ P.HasContent existing r ∧ dest = none
  | .known last, w => P.FoundLocal X M r dest w ∧ last = P.stored w
  | .placed, w | .updated, w | .patched _, w => P.Current X r w
  | .stored, w => P.Done X M r w
  | .clean, w => P.Done X M r w ∧ ∃ id o, P.Local w id o
  | .ended false, w => P.Synced X M w ∧ (r.metadata.deletionTimestamp = none → P.Result X r w)
  | .ended true, w | .failed, w => P.Synced X M w
  -- nothing is applied in merge mode
  | .applied, _ => False

section Stable

variable {P X M r dest} {w w' : World} (h : P.SameLocal w w')

include h

theorem SameLocal.synced (hw : P.Synced X M w) : P.Synced X M w' := by
  refine ⟨fun last hlast => ?_, fun hX id o ho => hw.labelled hX id o ((h.locals id o).mp ho),
    fun hX last hlast => hw.exact hX last (h.stored ▸ hlast)⟩
  obtain ⟨hnull, hcovered⟩ := hw.covered last (h.stored ▸ hlast)
  exact ⟨hnull, fun id o ho => hcovered id o ((h.locals id o).mp ho)⟩

theorem SameLocal.current (hw : P.Current X r w) : P.Current X r w' :=
  ⟨fun id o ho => hw.content id o ((h.locals id o).mp ho),
    fun hX id o ho => hw.labelled hX id o ((h.locals id o).mp ho)⟩

theorem SameLocal.prepared (hw : P.Prepared r w) : P.Prepared r w' :=
  fun id o ho => hw id o ((h.locals id o).mp ho)

theorem SameLocal.found (hw : P.FoundLocal X M r dest w) : P.FoundLocal X M r dest w' :=
  ⟨h.synced hw.synced, fun id o ho => hw.only id o ((h.locals id o).mp ho),
    fun d hd => ⟨(h.locals _ _).mpr (hw.here d hd).1, (hw.here d hd).2⟩,
    fun hlive => h.prepared (hw.prepared hlive)⟩

theorem SameLocal.done (hw : P.Done X M r w) : P.Done X M r w' :=
  ⟨h.synced hw.synced, h.current hw.current, fun hX => h.stored.trans (hw.stored hX)⟩

theorem SameLocal.exist (hw : ∃ id o, P.Local w id o) : ∃ id o, P.Local w' id o := by
  obtain ⟨id, o, ho⟩ := hw
  exact ⟨id, o, (h.locals id o).mpr ho⟩

theorem SameLocal.result (hw : P.Result X r w) : P.Result X r w' := by
  refine ⟨h.exist hw.exist, fun id o ho hlive => ?_⟩
  obtain ⟨hcontent, hstored⟩ := hw.current id o ((h.locals id o).mp ho) hlive
  exact ⟨hcontent, fun hX => h.stored.trans (hstored hX)⟩

theorem SameLocal.assertion {p : ObjectSyncer.Point} (hw : P.localAssertion X M r dest p w) :
    P.localAssertion X M r dest p w' := by
  cases p with
  | found => exact h.found hw
  | adopting existing => exact ⟨h.found hw.1, (h.locals _ _).mpr hw.2.1, hw.2.2⟩
  | known last => exact ⟨h.found hw.1, hw.2.trans h.stored.symm⟩
  | placed => exact h.current hw
  | updated => exact h.current hw
  | patched last => exact h.current hw
  | stored => exact h.done hw
  | clean => exact ⟨h.done hw.1, h.exist hw.2⟩
  | ended requeue =>
    cases requeue with
    | false => exact ⟨h.synced hw.1, fun hlive => h.result (hw.2 hlive)⟩
    | true => exact h.synced hw
  | applied => exact hw
  | failed => exact h.synced hw

end Stable

/-! ### Content -/

section Content

variable {P r}

theorem get?_content (o : Unstructured) (k : String) : (P.content o).get? k =
    if k ∈ P.syncer.subresources then none else o.content.fields.get? k :=
  Content.get?_without _ _ _

theorem content_congr {o o' : Unstructured} (h : o.content = o'.content) :
    P.content o = P.content o' := by
  rw [content, h, content]

theorem content_snapshotObject (o : Unstructured) :
    P.content (snapshotObject o P.syncer.subresources) = P.content o := by
  show ((o.content.without _).without _).fields = _
  rw [Content.without_without]
  rfl

theorem destCreator_eq {d : Unstructured} (h : (P.syncerOf r).destCreator r = .ok d) :
    d.typeMeta = P.syncer.destType ∧ d.content = r.content ∧
      d.metadata.deletionTimestamp = r.metadata.deletionTimestamp := by
  simp only [syncerOf, ResourceSyncer.syncerOf, ResourceSyncer.primarySyncer,
    newLocalObjectCreator] at h
  split at h
  · cases h
  · split at h <;> cases h <;> exact ⟨rfl, rfl, rfl⟩

section Status

variable (hstatus : P.server.hasStatus .localClient P.syncer.destType = true →
  "status" ∈ P.syncer.subresources)

include hstatus

theorem ne_status {k : String} {v : Doc} (hv : (P.content r).get? k = some v)
    (h : P.server.hasStatus .localClient P.syncer.destType = true) : k ≠ "status" := by
  rintro rfl
  rw [get?_content, if_pos (hstatus h)] at hv
  cases hv

theorem hasContent_settle (hnull : (P.content r).NullFree) {cur next : Unstructured}
    (hcur : cur.typeMeta = P.syncer.destType) (h : P.HasContent next r) :
    P.HasContent (P.server.settle .localClient cur next) r :=
  h.congr hnull fun _ _ hv =>
    Server.get?_mainContent fun hs => ne_status hstatus hv (hcur ▸ hs)

theorem hasContent_initial (hnull : (P.content r).NullFree) {o : Unstructured}
    (ho : o.content = P.server.initialContent .localClient P.syncer.destType r.content) :
    P.HasContent o r := by
  refine Fields.covers_of_get? hnull fun k v hv => ?_
  rw [ho, Server.get?_initialContent fun hs => ne_status hstatus hv hs, ← hv, get?_content]
  rw [get?_content] at hv
  split at hv
  · cases hv
  · next hk => rw [if_neg hk]

end Status

theorem hasContent_fullUpdate (hnull : (P.content r).NullFree) (d : Unstructured) :
    P.HasContent ((P.syncerOf r).fullUpdate r d) r := by
  refine Fields.covers_of_get? hnull fun k v hv => ?_
  show (d.content.overlay (r.content.without P.syncer.subresources)).fields.get? k = some v
  rw [Content.get?_overlay]
  have hget : (r.content.without P.syncer.subresources).fields.get? k = some v := hv
  rw [hget]
  rfl

/-- The patch from the last-known state to `r` gives the content of `r` to an object that has the
content of the last-known state. -/
theorem hasContent_afterPatch {side : SyncSide} {last dest cur : Unstructured}
    (hnull : (P.content r).NullFree) (hlast : (P.content last).NullFree)
    (hcur : P.HasContent cur last) :
    P.HasContent (ObjectSyncer.afterPatch P.syncer.libs (P.syncerOf r) side last r dest cur) r := by
  have hdesired := (ObjectSyncer.desiredState_rest P.syncer.libs (P.syncerOf r) side r dest).1
  have hpatched : (ObjectSyncer.afterPatch P.syncer.libs (P.syncerOf r) side last r dest
      cur).content.fields =
      cur.content.fields.merge (P.syncer.libs.diff.create (P.content last) (P.content r)) := by
    show cur.content.fields.merge (P.syncer.libs.diff.create (P.content last) (P.content
      ((P.syncerOf r).desiredState P.syncer.libs side r dest))) = _
    rw [content_congr hdesired]
  rw [HasContent, hpatched]
  exact hcur.merge hlast hnull (P.syncer.libs.diff.merge_create hnull)

end Content

/-! ### Every call keeps the assertions -/

section Outline

variable {P X M r dest} (hr : r.idOn (.remoteClient P.clusterName) = P.id)

variable (X M dest) in
/-- The outline of `Sync`. -/
def localOutline : (P.syncerOf r).Outline P.server (P.localEnvironment P.KeepsUpdates)
    (.ofState api fun _ => True) where
  holds := P.localAssertion X M r dest
  stable _ _ _ hw h := (LeavesLocal.same h).assertion hw
  always _ _ _ := trivial
  sound _ _ _ _ h := h.1
  secret w w' h := by
    have hstore : (P.syncerOf r).stateStore = P.store := stateStore_eq hr
    rw [hstore]
    exact h.secret

theorem localOutline_leads {c : Call} {p : ObjectSyncer.Point}
    {q : c.verb.Resp → ObjectSyncer.Point}
    (htarget : ∀ id, c.verb.target = some id → ¬ P.isLocal id)
    (hsecret : c.verb.secretTarget = none)
    (hq : ∀ resp w, P.localAssertion X M r dest p w → P.localAssertion X M r dest (q resp) w) :
    (localOutline X M dest hr).Leads c p q :=
  fun _ hw => ⟨trivial, fun resp w' hd =>
    hq resp w' ((sameLocal_of_frames hd.1.frames htarget hsecret).assertion hw)⟩

theorem not_isLocal_of_remote {c : Call} {id : ObjectId} (h : c.verb.target = some id)
    (hid : id.client ≠ .localClient) (id' : ObjectId) (hid' : c.verb.target = some id') :
    ¬ P.isLocal id' := by
  rw [h] at hid'
  cases hid'
  exact fun hlocal => hid hlocal.1

theorem not_isLocal_namespace (htype : P.syncer.destType ≠ ObjectSyncer.namespaceType)
    {scope : Scope} {client : Client} {ns : String} (id : ObjectId)
    (hid : (⟨scope, .create client ⟨ObjectSyncer.namespaceType, { name := ns }, default⟩⟩ :
      Call).verb.target = some id) : ¬ P.isLocal id := by
  cases hid
  exact fun hlocal => htype hlocal.2.symm

theorem Current.synced {w : World} (hw : P.Current X r w) (hnone : P.stored w = none) :
    P.Synced X M w := by
  refine ⟨fun last hlast => ?_, hw.labelled, fun _ last hlast => ?_⟩
  · rw [hnone] at hlast
    cases hlast
  · rw [hnone] at hlast
    cases hlast

theorem stored_of_stores {w w' : World} {obj : Unstructured}
    (hr : r.idOn (.remoteClient P.clusterName) = P.id)
    (hsnap : snapshotObject obj P.syncer.subresources = snapshotObject r P.syncer.subresources)
    (hstores : P.store.Stores (KubernetesBackend.sourceKey P.syncer.libs.hash obj P.clusterName)
      (snapshotObject obj P.syncer.subresources).toFields w w') :
    P.stored w' = some (snapshotObject r P.syncer.subresources) := by
  have hkey : KubernetesBackend.sourceKey P.syncer.libs.hash obj P.clusterName = P.storeKey := by
    have hns : obj.metadata.ns = r.metadata.ns := congrArg (·.metadata.ns) hsnap
    have hname : obj.metadata.name = r.metadata.name := congrArg (·.metadata.name) hsnap
    simp [KubernetesBackend.sourceKey, newObjectKey, storeKey, hns, hname, name_eq hr]
  simp [stored, hstores.entries, hkey, hsnap, Unstructured.ofFields_toFields]

theorem Current.done {w w' : World} {obj : Unstructured} (hw : P.Current X r w)
    (hr : r.idOn (.remoteClient P.clusterName) = P.id) (hsync : P.Syncable X M r)
    (hsnap : snapshotObject obj P.syncer.subresources = snapshotObject r P.syncer.subresources)
    (hstores : P.store.Stores (KubernetesBackend.sourceKey P.syncer.libs.hash obj P.clusterName)
      (snapshotObject obj P.syncer.subresources).toFields w w') : P.Done X M r w' := by
  have hstored := stored_of_stores hr hsnap hstores
  have hlocal : ∀ id o, P.Local w' id o → P.Local w id o :=
    fun id o ho => ⟨ho.place, (hstores.objects id).symm.trans ho.object, ho.known⟩
  have hcurrent : P.Current X r w' :=
    ⟨fun id o ho => hw.content id o (hlocal id o ho),
      fun hX id o ho => hw.labelled hX id o (hlocal id o ho)⟩
  refine ⟨⟨fun last hlast => ?_, hcurrent.labelled, fun hX last hlast => ?_⟩, hcurrent,
    fun _ => hstored⟩
  · obtain rfl := Option.some.inj (hstored.symm.trans hlast)
    simp only [HasContent, content_snapshotObject]
    exact ⟨hsync.nullFree, fun id o ho _ => hcurrent.content id o ho⟩
  · obtain rfl := Option.some.inj (hstored.symm.trans hlast)
    refine ⟨?_, hsync.metadata hX, Content.without_without _ _⟩
    exact congrArg ObjectId.typeMeta hr

theorem localOutline_puts {obj : Unstructured} {p : ObjectSyncer.Point}
    (hp : ∀ w, P.localAssertion X M r dest p w → P.Current X r w) (hsync : P.Syncable X M r)
    (hsnap : snapshotObject obj P.syncer.subresources = snapshotObject r P.syncer.subresources) :
    (localOutline X M dest hr).Puts P.syncer.libs P.scope P.clusterName obj p .stored := by
  have hstore : (P.syncerOf r).stateStore = P.store := stateStore_eq hr
  intro c hscope hsecret w hw
  rw [hstore] at hsecret ⊢
  refine ⟨trivial, fun resp w' hd => ⟨fun herr hw' => ?_, fun hstores => ?_⟩⟩
  · subst hw'
    refine (hp _ hw).synced (M := M) (Classical.byContradiction fun hsome => ?_)
    rw [hd.2.2 hscope hsecret hsome] at herr
    cases herr
  · exact (hp w hw).done hr hsync hsnap hstores

section Conditions

variable (hstatus : P.server.hasStatus .localClient P.syncer.destType = true →
  "status" ∈ P.syncer.subresources) (htype : P.syncer.destType ≠ ObjectSyncer.namespaceType)
  (hlive : r.metadata.deletionTimestamp = none) (hsync : P.Syncable X M r)

theorem FoundLocal.other {w : World} (hw : P.FoundLocal X M r dest w)
    (hlive : r.metadata.deletionTimestamp = none) {id : ObjectId} {o : Unstructured}
    (ho : P.Local w id o) (hne : dest ≠ some o) : P.HasContent o r :=
  hw.prepared hlive id o ho fun hlabelled => hne (hw.only id o ho hlabelled)

theorem FoundLocal.current_of_rewrites {w w' : World} {d next new : Unstructured}
    (hw : P.FoundLocal X M r (some d) w) (hlive : r.metadata.deletionTimestamp = none)
    (hrew : w.Rewrites (d.idOn .localClient) next new w') (hcontent : P.HasContent next r)
    (hlabelled : X → P.Labelled next) : P.Current X r w' := by
  have hother : ∀ id o, id ≠ d.idOn .localClient → P.Local w id o → P.HasContent o r := by
    intro id o hid ho
    refine hw.other hlive ho fun heq => hid ?_
    cases heq
    exact (World.idOn_of_object? ho.object).symm.trans (by rw [ho.place.1])
  refine ⟨fun id o ho => ?_, fun hX id o ho => ?_⟩
  · rcases ho.of_rewrites hrew with ⟨-, rfl⟩ | ⟨hid, hold⟩
    · rw [HasContent, hrew.becomes.content]
      exact hcontent
    · exact hother id o hid hold
  · rcases ho.of_rewrites hrew with ⟨-, rfl⟩ | ⟨hid, hold⟩
    · obtain ⟨rv, hmeta⟩ := hrew.becomes.metadata
      rw [Labelled, hmeta]
      exact hlabelled hX
    · exact hw.synced.labelled hX id o hold

include hstatus htype hlive hsync in
theorem localOutline_createConditions : (localOutline X M none hr).CreateConditions P.syncer.libs
    P.scope (ResourceSyncer.remoteSide P.clusterName P.workspacePath) ResourceSyncer.localSide
    r where
  namespaces _ _ _ := localOutline_leads hr (not_isLocal_namespace htype) rfl fun _ _ hw => hw
  create destObj hdest := by
    intro w hw
    refine ⟨trivial, fun resp w' hd => ?_⟩
    obtain ⟨htypeMeta, hcontent, -⟩ := destCreator_eq hdest
    obtain ⟨hid, hnew, -⟩ := ObjectSyncer.newDestination_rest P.syncer.libs (P.syncerOf r)
      (ResourceSyncer.remoteSide P.clusterName P.workspacePath) r destObj
    rcases hd.1.create with ⟨e, rfl, rfl, -⟩ | ⟨o, rfl, ho, hadds⟩
    · cases e with
      | alreadyExists => exact hw
      | _ => exact hw.synced
    · refine ⟨fun id o' ho' => ?_, fun hX id o' ho' => ?_⟩
      · rcases ho'.of_adds hadds with rfl | hold
        · refine hasContent_initial hstatus hsync.nullFree ?_
          have htm : (ObjectSyncer.newDestination P.syncer.libs (P.syncerOf r)
              (ResourceSyncer.remoteSide P.clusterName P.workspacePath) r destObj).typeMeta =
              P.syncer.destType :=
            (congrArg ObjectId.typeMeta (hid .localClient)).trans htypeMeta
          rw [ho, ← hcontent, ← hnew, ← htm]
          rfl
        · exact hw.other hlive hold (by simp)
      · rcases ho'.of_adds hadds with rfl | hold
        · have hlabels : (ObjectSyncer.newDestination P.syncer.libs (P.syncerOf r)
              (ResourceSyncer.remoteSide P.clusterName P.workspacePath) r
              destObj).metadata.labels.Contains _ :=
            ObjectSyncer.labels_newDestination (syncerOf_links r) destObj
          rw [keyOf_eq (name_eq hr).1 (name_eq hr).2] at hlabels
          rw [Labelled, ho]
          exact hlabels
        · exact hw.synced.labelled hX id o' hold
  occupied destObj existing w hdest hw hobj := by
    obtain ⟨hid, -, -⟩ := ObjectSyncer.newDestination_rest P.syncer.libs (P.syncerOf r)
      (ResourceSyncer.remoteSide P.clusterName P.workspacePath) r destObj
    have hplace := World.idOn_of_object? hobj
    rw [hid] at hobj hplace
    have hlocal : P.Local w (existing.idOn .localClient) existing :=
      ⟨⟨rfl, (congrArg ObjectId.typeMeta hplace).trans (destCreator_eq hdest).1⟩,
        hplace ▸ hobj, .inl ⟨r, destObj, hr, hdest, hplace.symm⟩⟩
    exact ⟨hw, hlocal, hw.other hlive hlocal (by simp), rfl⟩
  adopt existing := by
    intro w hw
    refine ⟨trivial, fun resp w' hd => ?_⟩
    obtain ⟨hfound, hlocal, hcontent, -⟩ := hw
    obtain ⟨hid, hadopted⟩ := ObjectSyncer.adopted_rest P.syncer.libs (P.syncerOf r) existing
      (newObjectKey r P.clusterName P.workspacePath)
    rcases hd.1.update with ⟨e, rfl, rfl⟩ | ⟨cur, o, hcur, rfl, -, -, hrew⟩
    · exact hfound.synced
    · have hplace : cur.typeMeta = P.syncer.destType := by
        have hcur : w.object? (existing.idOn .localClient) = some cur := hid .localClient ▸ hcur
        obtain rfl := Option.some.inj (hlocal.object.symm.trans hcur)
        exact hlocal.place.2
      refine ⟨fun id o' ho => ?_, fun hX id o' ho => ?_⟩
      · rcases ho.of_rewrites hrew with ⟨-, rfl⟩ | ⟨-, hold⟩
        · rw [HasContent, hrew.becomes.content]
          refine hasContent_settle hstatus hsync.nullFree hplace ?_
          rw [HasContent]
          exact hadopted ▸ hcontent
        · exact hfound.other hlive hold (by simp)
      · rcases ho.of_rewrites hrew with ⟨-, rfl⟩ | ⟨-, hold⟩
        · obtain ⟨rv, hmeta⟩ := hrew.becomes.metadata
          rw [Labelled, hmeta]
          have hlabels := ObjectSyncer.labels_adopted (L := P.syncer.libs)
            (syncerOf_links (P := P) r) existing P.key
          rw [← newObjectKey_eq hr] at hlabels ⊢
          exact hlabels
        · exact hfound.synced.labelled hX id o' hold
  dying destObj w hdest hdying _ := by
    obtain ⟨-, -, hdel⟩ := ObjectSyncer.newDestination_rest P.syncer.libs (P.syncerOf r)
      (ResourceSyncer.remoteSide P.clusterName P.workspacePath) r destObj
    rw [hdel, (destCreator_eq hdest).2.2, hlive] at hdying
    cases hdying
  put := localOutline_puts hr (fun _ hw => hw) hsync rfl

/-- The labels stay as they are if the last-known state has the metadata of `r`. -/
theorem safeLabels {last : Unstructured} (h : last.metadata = (stripMetadata r).metadata) :
    ObjectSyncer.SafeMap filterUnsyncableLabels last.metadata.labels r.metadata.labels := by
  have hlabels : last.metadata.labels = filterUnsyncableLabels r.metadata.labels := by rw [h]; rfl
  exact ⟨by rw [hlabels, filterUnsyncableLabels_idem], fun hempty => hlabels.trans hempty⟩

include hr hlive hsync in
theorem FoundLocal.done_of_clean {w : World} {d last : Unstructured} {side : SyncSide}
    (hw : P.FoundLocal X M r (some d) w) (hlast : P.stored w = some last)
    (hempty : (P.syncerOf r).createMergePatch P.syncer.libs { last with typeMeta := r.typeMeta }
      ((P.syncerOf r).desiredState P.syncer.libs side r d) = ∅) : P.Done X M r w := by
  have hsame := Unstructured.toFields_injective (P.syncer.libs.diff.create_eq_empty_iff.mp hempty)
  have hcontent : last.content.without P.syncer.subresources =
      r.content.without P.syncer.subresources := by
    rw [← (ObjectSyncer.desiredState_rest P.syncer.libs (P.syncerOf r) side r d).1]
    exact congrArg (·.content) hsame
  have hfields : P.content last = P.content r := congrArg Content.fields hcontent
  refine ⟨hw.synced, ⟨fun id o ho => ?_, hw.synced.labelled⟩, fun hX => ?_⟩
  · by_cases hlabelled : P.Labelled o
    · have hcovers := (hw.synced.covered last hlast).2 id o ho hlabelled
      rwa [HasContent, hfields] at hcovers
    · exact hw.prepared hlive id o ho hlabelled
  · obtain ⟨htypeMeta, hmeta, hwithout⟩ := hw.synced.exact hX last hlast
    rw [hlast, Option.some.injEq]
    refine Unstructured.ext (htypeMeta.trans (congrArg ObjectId.typeMeta hr).symm)
      (hmeta.trans (hsync.metadata hX).symm) (hwithout.symm.trans hcontent)

include hstatus hlive hsync in
theorem localOutline_updateConditions {d : Unstructured} :
    (localOutline X M (some d) hr).UpdateConditions P.syncer.libs P.scope
      (ResourceSyncer.remoteSide P.clusterName P.workspacePath) ResourceSyncer.localSide r d where
  restamp hdiff := by
    rw [ObjectSyncer.ensureDestMetadata_eq (syncerOf_links r)] at hdiff
    exact absurd hdiff (by simp)
  known w hw := ⟨hw, lastKnown_eq hr (name_eq hr).1 (name_eq hr).2 w⟩
  clean last w hempty hw := by
    obtain ⟨hfound, hlast⟩ := hw
    exact ⟨hfound.done_of_clean hr hlive hsync hlast.symm hempty, _, d, (hfound.here d rfl).1⟩
  patch last _ := by
    intro w hw
    refine ⟨trivial, fun resp w' hd => ?_⟩
    obtain ⟨hfound, hlast⟩ := hw
    obtain ⟨hlocal, hlabelled⟩ := hfound.here d rfl
    obtain ⟨hnull, hcovered⟩ := hfound.synced.covered last hlast.symm
    rcases ObjectSyncer.does_afterPatch hd.1 with ⟨e, rfl, rfl⟩ | ⟨cur, o, hcur, rfl, -, hrew⟩
    · exact hfound.synced
    · obtain rfl := Option.some.inj (hlocal.object.symm.trans hcur)
      refine hfound.current_of_rewrites hlive hrew ?_ fun hX => ?_
      · exact hasContent_settle hstatus hsync.nullFree hlocal.place.2
          (hasContent_afterPatch hsync.nullFree hnull (hcovered _ d hlocal hlabelled))
      · have hmeta := ((hfound.synced.exact hX last hlast.symm).2.1).trans (hsync.metadata hX).symm
        have hkeyed : d.metadata.labels.Contains ((ObjectSyncer.keyOf
            (ResourceSyncer.remoteSide P.clusterName P.workspacePath) r).labels
              P.syncer.libs.hash) := by
          rw [keyOf_eq (name_eq hr).1 (name_eq hr).2]
          exact hlabelled
        have hlabels := ObjectSyncer.labels_afterPatch (syncerOf_links (P := P) r) d
          (safeLabels hmeta) hkeyed
        rw [keyOf_eq (name_eq hr).1 (name_eq hr).2] at hlabels
        exact hlabels
  putPatched _ := localOutline_puts hr (fun _ hw => hw) hsync
    (ObjectSyncer.snapshotObject_desiredState _ _ _ _ _ _)
  update := by
    intro w hw
    refine ⟨trivial, fun resp w' hd => ?_⟩
    obtain ⟨hfound, -⟩ := hw
    obtain ⟨hlocal, hlabelled⟩ := hfound.here d rfl
    rcases hd.1.update with ⟨e, rfl, rfl⟩ | ⟨cur, o, hcur, rfl, -, -, hrew⟩
    · exact hfound.synced
    · have hcur : w.object? (d.idOn .localClient) = some cur := hcur
      obtain rfl := Option.some.inj (hlocal.object.symm.trans hcur)
      refine hfound.current_of_rewrites hlive hrew ?_ fun _ => ?_
      · exact hasContent_settle hstatus hsync.nullFree hlocal.place.2
          (hasContent_fullUpdate hsync.nullFree d)
      · exact ObjectSyncer.labels_fullUpdate (σ := P.syncerOf r) hlabelled
  putUpdated := localOutline_puts hr (fun _ hw => hw) hsync (snapshotObject_stripMetadata _ _)
  forward h := by cases h

end Conditions

theorem Synced.of_dying {w w' : World} {id : ObjectId} {cur : Unstructured} (hw : P.Synced X M w)
    (hkeeps : w.Keeps (some id) w') (hdying : w'.Dying id cur) (hcur : w.object? id = some cur) :
    P.Synced X M w' := by
  have hstored : P.stored w' = P.stored w := by
    simp only [stored, KubernetesBackend.entries, hkeeps.secrets]
  refine ⟨fun last hlast => ?_, fun hX id' o ho => ?_, fun hX last hlast =>
    hw.exact hX last (hstored ▸ hlast)⟩
  · obtain ⟨hnull, hcovered⟩ := hw.covered last (hstored ▸ hlast)
    refine ⟨hnull, fun id' o ho hlabelled => ?_⟩
    obtain ⟨o₀, ho₀, hlabels, hcontent⟩ := ho.of_dying hkeeps hdying hcur
    rw [HasContent, ← hcontent]
    refine hcovered id' o₀ ho₀ ?_
    rwa [Labelled, hlabels]
  · obtain ⟨o₀, ho₀, hlabels, -⟩ := ho.of_dying hkeeps hdying hcur
    rw [Labelled, ← hlabels]
    exact hw.labelled hX id' o₀ ho₀

theorem applyMutations_eq (hmutator : P.syncer.primaryMutator = none) {source : Unstructured}
    {dest dest' : Option Unstructured}
    (h : (P.syncerOf r).applyMutations r dest = .ok (source, dest')) :
    source = r ∧ dest' = dest := by
  have hnone : (P.syncerOf r).mutator = none := hmutator
  rw [ObjectSyncer.applyMutations, hnone] at h
  cases h
  exact ⟨rfl, rfl⟩

variable (P) in
/-- The settings in which the local objects converge: client-side merge patches without mutations.
The agent itself creates Namespaces, and it knows whether the local type has a status
subresource. -/
structure Merges : Prop where
  merge : P.syncer.useServerSideApply = false
  mutator : P.syncer.primaryMutator = none
  notNamespaces : P.syncer.destType ≠ ObjectSyncer.namespaceType
  status : P.server.hasStatus .localClient P.syncer.destType = true →
    "status" ∈ P.syncer.subresources

variable (hP : P.Merges) (hsync : r.metadata.deletionTimestamp = none → P.Syncable X M r)

include hP hsync in
theorem localOutline_conditions (dest : Option Unstructured) :
    (localOutline X M dest hr).Conditions P.syncer.libs P.scope
      (ResourceSyncer.remoteSide P.clusterName P.workspacePath) ResourceSyncer.localSide r
      dest := by
  -- the calls to the workspace do not touch the service cluster
  have hremote : ∀ c : Call, ∀ id, c.verb.target = some id → id.client ≠ .localClient →
      c.verb.secretTarget = none → ∀ (p : ObjectSyncer.Point)
      (q : c.verb.Resp → ObjectSyncer.Point),
      (∀ resp w, P.localAssertion X M r dest p w → P.localAssertion X M r dest (q resp) w) →
      (localOutline X M dest hr).Leads c p q :=
    fun c id hid hclient hsecret p q hq =>
      localOutline_leads hr (not_isLocal_of_remote hid hclient) hsecret hq
  have hdeleting : (P.syncerOf r).Deleting r → r.metadata.deletionTimestamp ≠ none := by
    rintro (hdel | hforce) hnone
    · rw [hnone] at hdel
      cases hdel
    · cases hforce
  exact
  { read := fun p c _ hc => localOutline_leads hr
      (fun id hid => by rw [(Call.target_of_failure_eq_none hc).1] at hid; cases hid)
      (Call.target_of_failure_eq_none hc).2 fun _ _ hw => hw
    giveUp := fun _ hw => hw.synced
    ignore := fun _ h => by cases h
    wait := fun _ _ _ _ _ _ hw => hw.synced
    delete := fun _ _ d _ _ => by
      intro w hw
      refine ⟨trivial, fun resp w' hd => ?_⟩
      rcases hd.1.delete with ⟨e, rfl, rfl, -⟩ | ⟨cur, hcur, rfl, hkeeps, hdying⟩
      · exact hw.synced
      · exact hw.synced.of_dying hkeeps hdying hcur
    release := fun _ _ _ _ => hremote _ _ (by rfl) (by rintro ⟨⟩) rfl _ _
      fun resp w hw => by cases resp <;> exact hw.synced
    released := fun hdel _ _ _ _ hw => ⟨hw.synced, fun hlive => absurd hlive (hdeleting hdel)⟩
    finalize := fun _ _ _ => hremote _ _ (by rfl) (by rintro ⟨⟩) rfl _ _
      fun resp w hw => by cases resp <;> exact hw.synced
    create := fun hlive _ source h => by
      obtain ⟨rfl, rfl⟩ := applyMutations_eq hP.mutator h
      exact localOutline_createConditions hr hP.status hP.notNamespaces hlive.notDeleting
        (hsync hlive.notDeleting)
    update := fun hlive _ source d h _ => by
      obtain ⟨rfl, rfl⟩ := applyMutations_eq hP.mutator h
      exact localOutline_updateConditions hr hP.status hlive.notDeleting (hsync hlive.notDeleting)
    apply := fun _ hssa => by
      have hmerge : P.syncer.useServerSideApply = true := hssa
      rw [hP.merge] at hmerge
      cases hmerge
    skip := fun hlive source d h hd => by
      obtain ⟨rfl, rfl⟩ := applyMutations_eq hP.mutator h
      refine ⟨fun _ _ _ _ => localOutline_leads hr (not_isLocal_namespace hP.notNamespaces) rfl
        fun _ _ hw => hw, fun w hw => ⟨hw.synced, fun _ => ⟨⟨_, d, (hw.here d rfl).1⟩, ?_⟩⟩⟩
      intro id o ho hnone
      -- the object that was found is being deleted, so this is another one
      have hother : ¬ P.Labelled o := fun hlabelled => by
        cases hw.only id o ho hlabelled
        rw [hnone] at hd
        cases hd
      exact ⟨hw.prepared hlive.notDeleting id o ho hother,
        fun hX => absurd (hw.synced.labelled hX id o ho) hother⟩
    status := fun _ _ p hp source' _ _ status => hremote _ _ (by rfl) (by rintro ⟨⟩) rfl _ _
      fun resp w hw => by
        rcases hp with rfl | rfl
        · cases resp with
          | ok o => exact hw
          | error e => exact hw.1.synced
        · exact hw.elim
    endStored := fun _ hw => hw.synced
    endSynced := fun p hp w hw => by
      rcases hp with rfl | rfl
      · exact ⟨hw.1.synced, fun _ => ⟨hw.2, fun id o ho _ =>
          ⟨hw.1.current.content id o ho, hw.1.stored⟩⟩⟩
      · exact hw.elim }

/-- What holds after a pass. -/
def Passed (X : Prop) (M : ObjectMeta) (r : Unstructured) (requeue : Bool) (w : World) : Prop :=
  P.Synced X M w ∧ (requeue = false → r.metadata.deletionTimestamp = none → P.Result X r w)

include hr in
theorem copySelector_iff {labels : StringMap} :
    P.syncer.copySelector P.clusterName P.workspacePath r labels = true ↔
      labels.Contains (P.key.labels P.syncer.libs.hash) := by
  rw [ResourceSyncer.copySelector, newObjectKey_eq hr, selectorFromSet_iff]

include hr in
theorem foundLocal_of_copies {w : World} (hw : P.Synced X M w)
    (hprepared : r.metadata.deletionTimestamp = none → P.Prepared r w) {dest : Option Unstructured}
    (hcopies : P.syncer.copies P.clusterName P.workspacePath r w = dest.toList) :
    P.FoundLocal X M r dest w := by
  have hlength : (P.syncer.copies P.clusterName P.workspacePath r w).length < 2 := by
    rw [hcopies]
    cases dest <;> simp
  refine ⟨hw, fun id o ho hlabelled => ?_, fun d hd => ?_, hprepared⟩
  · have hid := World.idOn_of_object? ho.object
    have hobj := ho.object
    rw [ho.place.1] at hid
    have hmem : o ∈ P.syncer.copies P.clusterName P.workspacePath r w :=
      World.mem_of_listed (.inr hlength) ⟨by rw [hid]; exact hobj,
        (congrArg ObjectId.typeMeta hid).trans ho.place.2, .inl rfl,
        (copySelector_iff hr).mpr hlabelled⟩
    rw [hcopies] at hmem
    cases dest with
    | none => cases hmem
    | some d =>
      rw [List.mem_singleton.mp hmem]
  · subst hd
    have hlisted :=
      World.listed_of_mem (show d ∈ P.syncer.copies P.clusterName P.workspacePath r w by
      rw [hcopies]; simp)
    have hlabelled : P.Labelled d := (copySelector_iff hr).mp hlisted.selector
    exact ⟨⟨⟨rfl, hlisted.typeMeta⟩, hlisted.object, .inr hlabelled⟩, hlabelled⟩

/-- The outline of a pass. -/
def localPass : ResourceSyncer.PassOutline P.syncer P.clusterName P.workspacePath r P.server
    (P.localEnvironment P.KeepsUpdates) (.ofState api fun _ => True)
    (fun w => P.Synced X M w ∧ (r.metadata.deletionTimestamp = none → P.Prepared r w))
    (P.Passed X M r) (P.Synced X M) where
  outline dest := localOutline X M dest hr
  conditions dest := by
    rw [scope_eq hr]
    exact localOutline_conditions hr hP hsync dest
  stable _ _ hw h := ⟨(LeavesLocal.same h).synced hw.1,
    fun hlive => (LeavesLocal.same h).prepared (hw.2 hlive)⟩
  sound _ _ _ _ h := h.1
  always _ _ := trivial
  before _ _ _ _ := trivial
  found w hw := by
    split
    · next hcopies => exact foundLocal_of_copies hr hw.1 hw.2 hcopies
    · next d hcopies => exact foundLocal_of_copies hr hw.1 hw.2 hcopies
    · exact hw.1
  related dest p hp o _ _ c hc := by
    intro w hw
    refine ⟨trivial, fun resp w' hd => ?_⟩
    rw [scope_eq hr] at hc
    have hsame : P.SameLocal w w' := by
      rcases hc with ⟨identifier, hscope⟩ | ⟨annotations, rfl⟩
      · exact sameLocal_of_related hd.1 (by rw [hscope]; rfl) hd.2.1
      · exact sameLocal_of_frames hd.1.frames (not_isLocal_of_remote rfl (by rintro ⟨⟩)) rfl
    exact hsame.assertion hw
  failed dest p hp w hw := by
    rcases hp with rfl | rfl | rfl
    · exact hw
    · exact hw.synced
    · exact hw.1
  cleaning _ _ _ hw := ⟨hw.synced, fun h => by cases h⟩
  requeued _ _ hw := ⟨hw, fun h => by cases h⟩
  ended _ _ hw _ := ⟨hw.1, fun _ => hw.2⟩

end Outline

end Primary

end Sync
