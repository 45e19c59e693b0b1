import SyncAgent.Sync.Runs

/-! Whether a local copy stays linked to its remote object, whatever the users do to the remote
object. -/

namespace Sync

open Kube

namespace Primary

variable (P : Primary)

/-- The other parties leave the local copies and the stored states alone. -/
structure LeavesCopies (w w' : World) : Prop where
  copies : ∀ id o, P.Copy w' id o → P.Copy w id o
  secret : w'.secret? P.store.secretName = w.secret? P.store.secretName
  uids : w.UidsUsed → w'.UidsUsed

/-- The runs in which nobody else edits the local copies; calls are made only as admitted. -/
def linkEnvironment (admits : Call → World → Prop) : Environment api World where
  rely := P.LeavesCopies
  refl _ := ⟨fun _ _ h => h, rfl, fun h => h⟩
  trans h₁ h₂ := ⟨fun id o h => h₁.copies id o (h₂.copies id o h), h₂.secret.trans h₁.secret,
    fun h => h₂.uids (h₁.uids h)⟩
  does c w r w' := World.Does P.server c w r w' ∧ admits c w

/-- No related resource has a local copy of the primary object as its destination. -/
def SparesCopies (c : Call) (w : World) : Prop :=
  c.scope.identifier.isSome = true → ∀ id o, P.Copy w id o → c.verb.target ≠ some id

/-- At the start nothing was created for the primary object. -/
structure NoCopy (w : World) : Prop where
  none : ∀ id o, ¬ P.Copy w id o
  uids : w.UidsUsed

/-- The difference between the last-known state and the source, as the mutations leave it, does not
touch the link: it empties no map, and it names no other agent. -/
def SafeSource (last : Option Unstructured) (source : Unstructured) : Prop :=
  match last with
  | none => source.metadata.labels.get? agentNameLabel = none ∨
      source.metadata.labels.get? agentNameLabel = some P.syncer.agentName
  | some last =>
    ObjectSyncer.SafeMap filterUnsyncableLabels last.metadata.labels source.metadata.labels ∧
    ObjectSyncer.SafeMap filterUnsyncableAnnotations last.metadata.annotations
      source.metadata.annotations ∧
    (last.metadata.labels.get? agentNameLabel = source.metadata.labels.get? agentNameLabel ∨
      source.metadata.labels.get? agentNameLabel = some P.syncer.agentName)

/-- A pass on `r` that merges starts with a stored state that does not endanger the link. -/
def LinkSafe (r : Unstructured) (w : World) : Prop :=
  P.syncer.useServerSideApply = false → ∀ id d, P.Copy w id d → ∀ source d',
    (P.syncerOf r).applyMutations r (some d) = .ok (source, some d') →
    P.SafeSource (P.stored w) source

/-- All copies are linked. -/
structure LinksKept (w : World) : Prop where
  linked : ∀ id o, P.Copy w id o → P.Linked o
  uids : w.UidsUsed

section Steps

variable {P} {w w' : World}

theorem LeavesCopies.stored (h : P.LeavesCopies w w') : P.stored w' = P.stored w := by
  simp only [Primary.stored, KubernetesBackend.entries, h.secret]

theorem LeavesCopies.linksKept (h : P.LeavesCopies w w') (hw : P.LinksKept w) : P.LinksKept w' :=
  ⟨fun id o ho => hw.linked id o (h.copies id o ho), h.uids hw.uids⟩

theorem LeavesCopies.linkSafe {r : Unstructured} (h : P.LeavesCopies w w') (hw : P.LinkSafe r w) :
    P.LinkSafe r w' := by
  intro hmerge id d hd source d' hmut
  rw [h.stored]
  exact hw hmerge id d (h.copies id d hd) source d' hmut

theorem LinksKept.of_frames {c : Call} (h : P.LinksKept w) (hf : w.Frames c w')
    (hspares : Spares P.isLocal P.scope c w) : P.LinksKept w' :=
  ⟨fun id o ho => h.linked id o (ho.of_frames hf h.uids hspares), hf.uidsUsed h.uids⟩

theorem LinksKept.leavesCopies {c : Call} (h : P.LinksKept w) (hf : w.Frames c w')
    (hspares : Spares P.isLocal P.scope c w) (hsecret : c.verb.secretTarget = none) :
    P.LeavesCopies w w' :=
  ⟨fun _ _ ho => ho.of_frames hf h.uids hspares, hf.secrets _ (by simp [hsecret]),
    fun hw => hf.uidsUsed hw⟩

theorem Linked.congr {o o' : Unstructured} (h : P.Linked o)
    (hlabels : o'.metadata.labels = o.metadata.labels)
    (hannotations : o'.metadata.annotations = o.metadata.annotations) : P.Linked o' :=
  ⟨⟨by rw [hlabels]; exact h.labels, by rw [hannotations]; exact h.annotations⟩,
    by rw [hlabels]; exact h.agent⟩

theorem LinksKept.of_rewrites (h : P.LinksKept w) {c : Call} (hf : w.Frames c w') {id : ObjectId}
    {cur next o : Unstructured} (hrew : w.Rewrites id next o w') (hcur : w.object? id = some cur)
    (huid : next.metadata.uid = cur.metadata.uid) (hnext : P.Copy w id cur → P.Linked next) :
    P.LinksKept w' := by
  refine ⟨fun id' o' ho => ?_, hf.uidsUsed h.uids⟩
  rcases ho.of_rewrites hrew hcur huid with hold | ⟨rfl, rfl, hold⟩
  · exact h.linked id' o' hold
  · obtain ⟨rv, hmeta⟩ := hrew.becomes.metadata
    exact (hnext hold).congr (by rw [hmeta]) (by rw [hmeta])

theorem LinksKept.of_adds (h : P.LinksKept w) {c : Call} (hf : w.Frames c w') {client : Client}
    {scope : Scope} {o : Unstructured} (hadds : w.Adds client scope o w') (ho : P.Linked o) :
    P.LinksKept w' := by
  refine ⟨fun id' o' hcopy => ?_, hf.uidsUsed h.uids⟩
  rcases hcopy.of_adds hadds h.uids with rfl | hold
  · exact ho
  · exact h.linked id' o' hold

theorem LinksKept.of_dying (h : P.LinksKept w) {c : Call} (hf : w.Frames c w') {id : ObjectId}
    {cur : Unstructured} (hkeeps : w.Keeps (some id) w') (hdying : w'.Dying id cur)
    (hcur : w.object? id = some cur) : P.LinksKept w' := by
  refine ⟨fun id' o' ho => ?_, hf.uidsUsed h.uids⟩
  obtain ⟨o, hold, hlabels, hannotations⟩ := ho.of_dying hkeeps hdying hcur
  exact (h.linked id' o hold).congr hlabels.symm hannotations.symm

end Steps

/-! ### The assertions of a pass -/

section Outline

/-- The stored state is safe, and the copy, if it is one, is still what was found. -/
structure Found (r : Unstructured) (dest : Option Unstructured) (w : World) : Prop where
  safe : P.LinkSafe r w
  same : ∀ d, dest = some d → ∀ o, P.Copy w (d.idOn .localClient) o → o = d

def linkAssertion (r : Unstructured) (dest : Option Unstructured) :
    ObjectSyncer.Point → World → Prop
  | .found, w => P.LinksKept w ∧ (r.metadata.deletionTimestamp = none → P.Found r dest w)
  | .known last, w => P.LinksKept w ∧ P.Found r dest w ∧ last = P.stored w
  | _, w => P.LinksKept w

variable {P} {r : Unstructured} {dest : Option Unstructured} {w w' : World}

theorem LeavesCopies.found (h : P.LeavesCopies w w') (hw : P.Found r dest w) :
    P.Found r dest w' :=
  ⟨h.linkSafe hw.safe, fun d hd o ho => hw.same d hd o (h.copies _ _ ho)⟩

theorem LeavesCopies.assertion {p : ObjectSyncer.Point} (h : P.LeavesCopies w w')
    (hw : P.linkAssertion r dest p w) : P.linkAssertion r dest p w' := by
  cases p with
  | found => exact ⟨h.linksKept hw.1, fun hlive => h.found (hw.2 hlive)⟩
  | known last => exact ⟨h.linksKept hw.1, h.found hw.2.1, hw.2.2.trans h.stored.symm⟩
  | _ => exact h.linksKept hw

theorem linksKept_of_assertion {p : ObjectSyncer.Point} (h : P.linkAssertion r dest p w) :
    P.LinksKept w := by
  cases p with
  | found => exact h.1
  | known last => exact h.1
  | _ => exact h

variable (hr : r.idOn (.remoteClient P.clusterName) = P.id)

/-- The outline of `Sync`. -/
def linkOutline (dest : Option Unstructured) :
    (P.syncerOf r).Outline P.server (P.linkEnvironment P.SparesCopies)
      (.ofState api P.LinksKept) where
  holds := P.linkAssertion r dest
  stable _ _ _ hw h := LeavesCopies.assertion h hw
  always _ _ h := linksKept_of_assertion h
  sound _ _ _ _ h := h.1
  secret w w' h := by
    have hstore : (P.syncerOf r).stateStore = P.store := stateStore_eq hr
    rw [hstore]
    exact h.secret

theorem linkOutline_leads_of_spares {c : Call} {p : ObjectSyncer.Point}
    (hspares : ∀ w, Spares P.isLocal P.scope c w) (hsecret : c.verb.secretTarget = none) :
    (linkOutline hr dest).Leads c p fun _ => p := by
  intro w hw
  refine ⟨trivial, fun resp w' hd => ?_⟩
  exact ((linksKept_of_assertion hw).leavesCopies hd.1.frames (hspares w) hsecret).assertion hw

theorem linkOutline_leads {c : Call} {p : ObjectSyncer.Point} {q : c.verb.Resp → ObjectSyncer.Point}
    (hq : ∀ resp w, P.LinksKept w → P.linkAssertion r dest (q resp) w)
    (hcall : ∀ w resp w', P.linkAssertion r dest p w → World.Does P.server c w resp w' →
      P.LinksKept w') : (linkOutline hr dest).Leads c p q :=
  fun w hw => ⟨trivial, fun resp w' hd => hq resp w' (hcall w resp w' hw hd.1)⟩

theorem spares_of_remote {c : Call} {id : ObjectId} (h : c.verb.target = some id)
    (hid : id.client ≠ .localClient) (w : World) : Spares P.isLocal P.scope c w :=
  spares_of_target (fun id' hid' hlocal => by rw [h] at hid'; cases hid'; exact hid hlocal.1) w

theorem spares_namespace (htype : P.syncer.destType ≠ ObjectSyncer.namespaceType) {scope : Scope}
    {client : Client} {ns : String} (w : World) : Spares P.isLocal P.scope
      ⟨scope, .create client ⟨ObjectSyncer.namespaceType, { name := ns }, default⟩⟩ w :=
  spares_of_target (fun id hid hlocal => by cases hid; exact htype hlocal.2.symm) w

/-! ### Every call keeps the links -/

theorem linkOutline_puts {L : Libraries} {scope : Scope} {clusterName : String} {obj : Unstructured}
    {p q : ObjectSyncer.Point} (hq : ∀ w, P.LinksKept w → P.linkAssertion r dest q w) :
    (linkOutline hr dest).Puts L scope clusterName obj p q := by
  intro c _ hsecret w hw
  refine ⟨trivial, fun resp w' hd => ?_⟩
  have hkept : P.LinksKept w' := (linksKept_of_assertion hw).of_frames hd.1.frames
    (spares_of_none (Call.target_of_secretTarget hsecret) w)
  exact ⟨fun _ _ => hkept, fun _ => hq w' hkept⟩

variable {source : Unstructured}

theorem linkOutline_createConditions (hagent : P.syncer.agentName ≠ "")
    (htype : P.syncer.destType ≠ ObjectSyncer.namespaceType) (hns : source.metadata.ns = P.ns)
    (hname : source.metadata.name = P.name) :
    (linkOutline hr dest).CreateConditions P.syncer.libs P.scope
      (ResourceSyncer.remoteSide P.clusterName P.workspacePath)
      ResourceSyncer.localSide source where
  namespaces _ _ _ := linkOutline_leads_of_spares hr (spares_namespace htype) rfl
  create destObj _ := by
    intro w hw
    refine ⟨trivial, fun resp w' hd => ?_⟩
    rcases hd.1.create with ⟨e, rfl, rfl, -⟩ | ⟨o, rfl, ho, hadds⟩
    · cases e with
      | alreadyExists => exact hw
      | _ => exact hw.1
    · have hlinked : Sync.Linked P.syncer.libs.hash (ObjectSyncer.keyOf
          (ResourceSyncer.remoteSide P.clusterName P.workspacePath) source) P.syncer.agentName _ :=
        ObjectSyncer.newDestination_linked (syncerOf_links (P := P) r) hagent destObj
      rw [keyOf_eq hns hname] at hlinked
      refine hw.1.of_adds hd.1.frames hadds ?_
      exact Linked.congr (P := P) hlinked (by rw [ho]; rfl) (by rw [ho]; rfl)
  occupied _ _ _ _ hw _ := hw.1
  adopt existing := by
    refine linkOutline_leads hr (fun resp w h => by cases resp <;> exact h)
      fun w resp w' hw hd => ?_
    rcases hd.update with ⟨e, -, rfl⟩ | ⟨cur, o, hcur, -, -, -, hrew⟩
    · exact hw
    · refine LinksKept.of_rewrites hw hd.frames hrew hcur rfl fun _ => ?_
      have hlinked := ObjectSyncer.adopted_linked (L := P.syncer.libs)
        (syncerOf_links (P := P) r) hagent existing P.key
      rw [show newObjectKey source _ _ = P.key from keyOf_eq hns hname]
      exact Linked.congr (P := P) hlinked rfl rfl
  dying _ _ _ _ hw := hw.1
  put := linkOutline_puts hr fun _ h => h

theorem linkOutline_updateConditions (hns : source.metadata.ns = P.ns)
    (hname : source.metadata.name = P.name) (hmerge : P.syncer.useServerSideApply = false)
    (hlive : r.metadata.deletionTimestamp = none) {d d' : Unstructured}
    (hmut : (P.syncerOf r).applyMutations r (some d) = .ok (source, some d'))
    (hmeta : d'.metadata = d.metadata) (htypeMeta : d'.typeMeta = d.typeMeta) :
    (linkOutline hr (some d)).UpdateConditions P.syncer.libs P.scope
      (ResourceSyncer.remoteSide P.clusterName P.workspacePath) ResourceSyncer.localSide source
      d' := by
  have hid : d'.idOn .localClient = d.idOn .localClient := by
    simp [Unstructured.idOn, hmeta, htypeMeta]
  -- a copy that is written is the one that was found, and it is linked
  have hfound : ∀ w cur, P.LinksKept w → P.Found r (some d) w →
      P.Copy w (d'.idOn .localClient) cur → P.Linked d' ∧ P.Linked cur ∧
        P.SafeSource (P.stored w) source := by
    intro w cur hkept hfound hcopy
    rw [hid] at hcopy
    obtain rfl := hfound.same d rfl cur hcopy
    have hlinked := hkept.linked _ _ hcopy
    exact ⟨hlinked.congr (by rw [hmeta]) (by rw [hmeta]), hlinked,
      hfound.safe hmerge _ _ hcopy source d' hmut⟩
  exact
  { restamp := fun hdiff => by
      rw [ObjectSyncer.ensureDestMetadata_eq (syncerOf_links r)] at hdiff
      exact absurd hdiff (by simp)
    known := fun w hw => ⟨hw.1, hw.2 hlive, lastKnown_eq hr hns hname w⟩
    clean := fun _ _ _ hw => hw.1
    patch := fun last _ => by
      refine linkOutline_leads hr (fun resp w h => by cases resp <;> exact h)
        fun w resp w' hw hd => ?_
      obtain ⟨hkept, hf, hlast⟩ := hw
      rcases ObjectSyncer.does_afterPatch hd with ⟨e, -, rfl⟩ | ⟨cur, o, hcur, -, -, hrew⟩
      · exact hkept
      · refine hkept.of_rewrites hd.frames hrew hcur rfl fun hcopy => ?_
        obtain ⟨-, hlinked, hsafe⟩ := hfound w cur hkept hf hcopy
        rw [← hlast] at hsafe
        have hkey : P.Linked cur := hlinked
        rw [Primary.Linked, ← keyOf_eq hns hname] at hkey
        have hafter := ObjectSyncer.afterPatch_linked (syncerOf_links (P := P) r) d' hsafe.1
          hsafe.2.1 hsafe.2.2 hkey
        rw [keyOf_eq hns hname] at hafter
        exact Linked.congr (P := P) hafter rfl rfl
    putPatched := fun _ => linkOutline_puts hr fun _ h => h
    update := by
      refine linkOutline_leads hr (fun resp w h => by cases resp <;> exact h)
        fun w resp w' hw hd => ?_
      obtain ⟨hkept, hf, hlast⟩ := hw
      rcases hd.update with ⟨e, -, rfl⟩ | ⟨cur, o, hcur, -, -, -, hrew⟩
      · exact hkept
      · refine hkept.of_rewrites hd.frames hrew hcur rfl fun hcopy => ?_
        obtain ⟨hlinked, -, hsafe⟩ := hfound w cur hkept hf hcopy
        rw [← hlast] at hsafe
        exact Linked.congr (P := P) (ObjectSyncer.fullUpdate_linked (σ := P.syncerOf r) hlinked
          hsafe) rfl rfl
    putUpdated := linkOutline_puts hr fun _ h => h
    forward := fun h => by cases h }

theorem linkOutline_applyConditions (hagent : P.syncer.agentName ≠ "")
    (htype : P.syncer.destType ≠ ObjectSyncer.namespaceType) (hns : source.metadata.ns = P.ns)
    (hname : source.metadata.name = P.name) :
    (linkOutline hr dest).ApplyConditions P.syncer.libs P.scope
      (ResourceSyncer.remoteSide P.clusterName P.workspacePath)
      ResourceSyncer.localSide source where
  namespaces _ _ _ := linkOutline_leads_of_spares hr (spares_namespace htype) rfl
  apply destObj _ := by
    refine linkOutline_leads hr (fun resp w h => by cases resp <;> exact h)
      fun w resp w' hw hd => ?_
    have hlinked : Sync.Linked P.syncer.libs.hash (ObjectSyncer.keyOf
        (ResourceSyncer.remoteSide P.clusterName P.workspacePath) source) P.syncer.agentName _ :=
      ObjectSyncer.newDestination_linked (syncerOf_links (P := P) r) hagent destObj
    rw [keyOf_eq hns hname] at hlinked
    -- the server sets the labels and annotations of the payload
    have happlied : ∀ cur o, o.metadata.labels = (P.server.applied (P.syncerOf r).fieldManager cur
          ((P.syncerOf r).applyPayload P.syncer.libs
            (ResourceSyncer.remoteSide P.clusterName P.workspacePath) source destObj)).labels →
        o.metadata.annotations = (P.server.applied (P.syncerOf r).fieldManager cur
          ((P.syncerOf r).applyPayload P.syncer.libs
            (ResourceSyncer.remoteSide P.clusterName P.workspacePath) source destObj)).annotations →
        P.Linked o := by
      intro cur o hlabels hannotations
      refine ⟨⟨fun k v hk => ?_, fun k v hk => ?_⟩, ?_⟩
      · rw [hlabels]
        exact P.server.labels_applied _ _ _ _ _ (hlinked.labels k v hk)
      · rw [hannotations]
        exact P.server.annotations_applied _ _ _ _ _ (hlinked.annotations k v hk)
      · rw [hlabels]
        exact P.server.labels_applied _ _ _ _ _ hlinked.agent
    rcases hd.apply with ⟨e, -, rfl⟩ | ⟨o, -, ho, hadds⟩ | ⟨cur, o, hcur, -, hrew⟩
    · exact hw.1
    · exact hw.1.of_adds hd.frames hadds (happlied none o (by rw [ho]; rfl) (by rw [ho]; rfl))
    · exact hw.1.of_rewrites hd.frames hrew hcur rfl fun _ => happlied (some cur) _ rfl rfl

theorem linkOutline_conditions (hagent : P.syncer.agentName ≠ "")
    (htype : P.syncer.destType ≠ ObjectSyncer.namespaceType)
    (hmutator : ∀ m, P.syncer.primaryMutator = some m → m.KeepsIdentity)
    (dest : Option Unstructured) :
    (linkOutline hr dest).Conditions P.syncer.libs P.scope
      (ResourceSyncer.remoteSide P.clusterName P.workspacePath) ResourceSyncer.localSide r
      dest := by
  have hname := name_eq hr
  have hmutated : ∀ source' dest', (P.syncerOf r).applyMutations r dest = .ok (source', dest') →
      source'.metadata.ns = P.ns ∧ source'.metadata.name = P.name := by
    intro source' dest' h
    obtain ⟨h₁, h₂, -⟩ := ObjectSyncer.applyMutations_identity (σ := P.syncerOf r) hmutator h
    exact ⟨h₁.trans hname.1, h₂.trans hname.2⟩
  -- the calls to the workspace do not touch the service cluster
  have hremote : ∀ c : Call, ∀ id, c.verb.target = some id → id.client ≠ .localClient →
      c.verb.secretTarget = none → ∀ (p : ObjectSyncer.Point)
      (q : c.verb.Resp → ObjectSyncer.Point),
      (∀ resp w, P.LinksKept w → P.linkAssertion r dest (q resp) w) →
      (linkOutline hr dest).Leads c p q := by
    intro c id hid hclient hsecret p q hq
    exact linkOutline_leads hr hq fun w resp w' hw hd =>
      (linksKept_of_assertion hw).of_frames hd.frames (spares_of_remote hid hclient w)
  exact
  { read := fun p c _ hc => linkOutline_leads_of_spares hr
      (spares_of_none (Call.target_of_failure_eq_none hc).1) (Call.target_of_failure_eq_none hc).2
    giveUp := fun _ hw => hw.1
    ignore := fun _ h => by cases h
    wait := fun _ _ _ _ _ _ hw => hw.1
    delete := fun _ _ d _ _ => by
      refine linkOutline_leads hr (fun resp w h => by cases resp <;> exact h)
        fun w resp w' hw hd => ?_
      rcases hd.delete with ⟨e, -, rfl, -⟩ | ⟨cur, hcur, -, hkeeps, hdying⟩
      · exact hw.1
      · exact hw.1.of_dying hd.frames hkeeps hdying hcur
    release := fun _ _ _ _ => hremote _ _ (by rfl) (by rintro ⟨⟩) rfl _ _
      fun resp w h => by cases resp <;> exact h
    released := fun _ _ _ _ _ hw => hw.1
    finalize := fun _ _ _ => hremote _ _ (by rfl) (by rintro ⟨⟩) rfl _ _
      fun resp w h => by cases resp <;> exact h
    create := fun _ _ source' h => linkOutline_createConditions hr hagent htype
      (hmutated source' none h).1 (hmutated source' none h).2
    update := fun hlive hmerge source' d' h _ => by
      obtain ⟨-, -, hd⟩ := ObjectSyncer.applyMutations_identity (σ := P.syncerOf r) hmutator h
      obtain ⟨d, rfl, hmeta, htypeMeta⟩ := hd d' rfl
      exact linkOutline_updateConditions hr (hmutated source' _ h).1 (hmutated source' _ h).2 hmerge
        hlive.notDeleting h hmeta htypeMeta
    apply := fun _ _ source' dest' h _ => linkOutline_applyConditions hr hagent htype
      (hmutated source' dest' h).1 (hmutated source' dest' h).2
    skip := fun _ _ _ _ _ => ⟨fun _ _ _ _ =>
      linkOutline_leads_of_spares hr (spares_namespace htype) rfl, fun _ hw => hw.1⟩
    status := fun _ _ p hp source' _ _ status => hremote _ _ (by rfl) (by rintro ⟨⟩) rfl _ _
      fun resp w h => by rcases hp with rfl | rfl <;> cases resp <;> exact h
    endStored := fun _ hw => hw
    endSynced := fun p hp _ hw => by rcases hp with rfl | rfl <;> exact hw }

/-- The outline of a pass. -/
def linkPass (hagent : P.syncer.agentName ≠ "")
    (htype : P.syncer.destType ≠ ObjectSyncer.namespaceType)
    (hmutator : ∀ m, P.syncer.primaryMutator = some m → m.KeepsIdentity) :
    ResourceSyncer.PassOutline P.syncer P.clusterName P.workspacePath r P.server
      (P.linkEnvironment P.SparesCopies) (.ofState api P.LinksKept)
      (fun w => P.LinksKept w ∧ P.LinkSafe r w) (fun _ => P.LinksKept) P.LinksKept where
  outline := linkOutline hr
  conditions dest := by
    rw [scope_eq hr]
    exact linkOutline_conditions hr hagent htype hmutator dest
  stable _ _ hw h := ⟨LeavesCopies.linksKept h hw.1, LeavesCopies.linkSafe h hw.2⟩
  sound _ _ _ _ h := h.1
  always _ h := h.1
  before _ _ _ _ := trivial
  found w hw := by
    split
    · exact ⟨hw.1, fun _ => ⟨hw.2, fun d hd => by cases hd⟩⟩
    · next d hcopies =>
      refine ⟨hw.1, fun _ => ⟨hw.2, fun d' hd o ho => ?_⟩⟩
      cases hd
      have hmem : d ∈ P.syncer.copies P.clusterName P.workspacePath r w := by rw [hcopies]; simp
      exact Option.some.inj (ho.object.symm.trans (World.listed_of_mem hmem).object)
    · exact hw.1
  related dest p hp o _ _ c hc := by
    intro w hw
    refine ⟨trivial, fun resp w' hd => ?_⟩
    have hspares : Spares P.isLocal P.scope c w := by
      rw [scope_eq hr] at hc
      rcases hc with ⟨identifier, hscope⟩ | ⟨annotations, rfl⟩
      · intro id hid _
        refine ⟨fun heq => ?_, fun o ho => hd.2 (by rw [hscope]; rfl) id o ho hid⟩
        rw [hscope] at heq
        cases congrArg Scope.identifier heq
      · exact spares_of_remote rfl (by rintro ⟨⟩) w
    have hkept := (linksKept_of_assertion hw).of_frames hd.1.frames hspares
    rcases hp with ⟨rfl, hdeleting⟩ | rfl
    · exact ⟨hkept, fun hlive => by rw [hlive] at hdeleting; cases hdeleting⟩
    · exact hkept
  failed dest p hp w hw := linksKept_of_assertion hw
  cleaning _ _ _ hw := hw.1
  requeued _ _ hw := hw
  ended _ _ hw _ := hw

end Outline

/-- The sample object has one label. -/
def labelledWorld : World := sampleWorld (SortedMap.insert ∅ "team" "a") default

theorem labelledWorld_noCopy : (sample []).NoCopy labelledWorld :=
  ⟨fun _ _ ho => absurd ho.created List.not_mem_nil, uidsUsed_sampleWorld _ _⟩

/-- The world after the copy has been created. -/
def copiedWorld : World := (sample []).afterPass execOwn labelledWorld

theorem relabel_leavesCopies (labels : StringMap) (w : World) :
    (sample []).LeavesCopies w (relabel labels w) :=
  ⟨fun _ _ => copy_relabel, rfl, uidsUsed_relabel⟩

/-- The world after the label was changed and the copy has been updated. -/
def recopiedWorld : World :=
  (sample []).afterPass execOwn (relabel (SortedMap.insert ∅ "team" "b") copiedWorld)

theorem linkSafe_relabelled {r : Unstructured} (hr : (relabel (SortedMap.insert ∅ "team" "b")
      copiedWorld).object? (sample []).id = some r) :
    (sample []).LinkSafe r (relabel (SortedMap.insert ∅ "team" "b") copiedWorld) := by
  rw [object?_relabel, if_pos rfl] at hr
  cases hr
  intro _ id d _ source d' hmut
  cases hmut
  have hstored : ((sample []).stored copiedWorld).map (·.metadata) =
      some { name := "daily", ns := "team-a", labels := SortedMap.insert ∅ "team" "a" } := by
    decide +kernel
  obtain ⟨last, hlast, hmeta⟩ := Option.map_eq_some_iff.mp hstored
  rw [(relabel_leavesCopies _ _).stored, hlast, SafeSource, hmeta]
  exact ⟨⟨by decide, by decide⟩, ⟨by decide, by decide⟩, by decide⟩

end Primary

end Sync
