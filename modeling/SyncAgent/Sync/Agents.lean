import SyncAgent.Sync.Places
import SyncAgent.Sync.CopySelectors

/-! Agents that share a service cluster.  Each puts its name on the local objects and on the local
copies of related objects, but it writes wherever it finds an object of its own or generates a
name.  So it leaves the objects of the other agents alone as long as the places where it finds and
generates names are its own. -/

namespace Sync

open Kube

namespace Primary

variable (P : Primary)

/-- The object carries the name of another agent. -/
def Foreign (o : Unstructured) : Prop :=
  ∃ agent, o.metadata.labels.get? agentNameLabel = some agent ∧ agent ≠ P.syncer.agentName

/-- The call updates, patches, applies to or deletes the object at `id`. -/
def Modifies (c : Call) (id : ObjectId) : Prop :=
  c.verb.target = some id ∧ ∀ client o, c.verb ≠ .create client o

/-- What the agent goes by when it looks for objects that it has to do with: the labels of the local
object, its own name, and its finalizer. -/
inductive Marked (id : ObjectId) (o : Unstructured) : Prop
  | linked : P.isLocal id →
    selectorFromSet (P.key.labels P.syncer.libs.hash) o.metadata.labels = true → Marked id o
  | named : o.metadata.labels.get? agentNameLabel = some P.syncer.agentName → Marked id o
  | finalizer : o.metadata.finalizers.contains deletionFinalizer = true → Marked id o

variable (own : ObjectId → Prop)

/-- An object of the service cluster is on the wrong side: one of another agent at one of the places
`own`, or one with a mark of this agent elsewhere. -/
def Misplaced (id : ObjectId) (o : Unstructured) : Prop :=
  id.client = .localClient ∧ (own id ∧ P.Foreign o ∨ ¬ own id ∧ P.Marked id o)

def InPlace (w : World) : Prop := ∀ id o, w.object? id = some o → ¬ P.Misplaced own id o

/-- The places `own` belong to this agent: no object is on the wrong side, the names that are
generated for `r` are there, and none of them is that of a state Secret. -/
structure Within (r : Unstructured) (w : World) : Prop where
  inPlace : P.InPlace own w
  generated : ∀ dest id, (∀ l, dest = some l → own (l.idOn .localClient)) →
    (P.syncerOf r).WritesAt .localClient r dest id → own id
  states : ∀ id, StatePlace id → ¬ own id

/-- Nothing has come to the wrong side. -/
def LeavesPlaces (w w' : World) : Prop :=
  ∀ id o', w'.object? id = some o' → P.Misplaced own id o' →
    ∃ o, w.object? id = some o ∧ P.Misplaced own id o

/-- The type of the local copies of a related resource that originates in kcp. -/
def CopyType (scope : Scope) (t : TypeMeta) : Prop :=
  ∃ relRes ∈ P.syncer.pubRes.related, relRes.origin = .kcp ∧
    scope.identifier = some relRes.identifier ∧
    P.syncer.libs.kindFor .localClient relRes.projectedGVR = .ok t

/-- What is assumed of a call of the agent itself: it gives no object at one of the places the name
of another agent, as it could take it over from a source object, and it looks for the local copies
of related objects at the places. -/
structure StaysWithin (c : Call) (w w' : World) : Prop where
  labels : ∀ id o', own id → w'.object? id = some o' → P.Foreign o' →
    ∃ o, w.object? id = some o ∧ P.Foreign o
  copies : ∀ id live, c.verb = .get id live → id.client = .localClient →
    P.CopyType c.scope id.typeMeta → own id

/-- The runs in which the other agents leave the places alone during a pass; between the passes
anything can happen. -/
def agentEnvironment : Environment api World where
  rely := P.LeavesPlaces own
  refl _ := fun _ o ho h => ⟨o, ho, h⟩
  trans h₁ h₂ := by
    intro id o ho hmis
    obtain ⟨o₂, ho₂, hmis₂⟩ := h₂ id o ho hmis
    exact h₁ id o₂ ho₂ hmis₂
  idle _ _ := True
  does c w r w' := World.Does P.server c w r w' ∧ P.StaysWithin own c w w'

/-- The responses that the agent can get while nothing is on the wrong side. -/
def Received (c : api.Call) (r : api.Resp c) : Prop :=
  ∃ w w', P.InPlace own w ∧ (P.agentEnvironment own).does c w r w'

/-- The call modifies no object of another agent on the service cluster. -/
def SparesForeign (c : Call) (w : World) : Prop :=
  ∀ id o, id.client = .localClient → Modifies c id → w.object? id = some o → ¬ P.Foreign o

/-- The call writes at one of the places, or it creates a Namespace. -/
def AtPlaces (c : Call) : Prop :=
  ∀ id, c.verb.target = some id → id.client = .localClient →
    own id ∨
      ∃ ns, c.verb = .create .localClient ⟨ObjectSyncer.namespaceType, { name := ns }, default⟩

variable {P own} {w w' : World} {r : Unstructured} {c : Call}

theorem LeavesPlaces.inPlace (h : P.LeavesPlaces own w w') (hw : P.InPlace own w) :
    P.InPlace own w' := by
  intro id o ho hmis
  obtain ⟨o', ho', hmis'⟩ := h id o ho hmis
  exact hw id o' ho' hmis'

theorem not_marked_of_bare {id : ObjectId} {o : Unstructured} (hlabels : o.metadata.labels = ∅)
    (hfinalizers : o.metadata.finalizers = []) : ¬ P.Marked id o := by
  intro h
  cases h with
  | linked _ hselector =>
    rw [hlabels, selectorFromSet_iff] at hselector
    cases (contains_labels_iff.mp hselector).1
  | named hname =>
    rw [hlabels] at hname
    cases hname
  | finalizer hfinalizer =>
    rw [hfinalizers] at hfinalizer
    cases hfinalizer

theorem InPlace.of_call (hw : P.InPlace own w) (hc : AtPlaces own c) {resp : c.verb.Resp}
    (hd : (P.agentEnvironment own).does c w resp w') : P.InPlace own w' := by
  obtain ⟨hdoes, hstays⟩ := hd
  rintro id o ho ⟨hclient, ⟨hown, hforeign⟩ | ⟨hother, hmarked⟩⟩
  · obtain ⟨o', ho', hforeign'⟩ := hstays.labels id o hown ho hforeign
    exact hw id o' ho' ⟨hclient, .inl ⟨hown, hforeign'⟩⟩
  by_cases htarget : c.verb.target = some id
  · obtain ⟨ns, hcreate⟩ := (hc id htarget hclient).resolve_left hother
    obtain ⟨scope, verb⟩ := c
    subst hcreate
    rcases hdoes.create with ⟨e, -, rfl, -⟩ | ⟨new, -, rfl, hadds⟩
    · exact hw id o ho ⟨hclient, .inr ⟨hother, hmarked⟩⟩
    · cases htarget
      rw [hadds.objects, if_pos (by rfl)] at ho
      cases ho
      exact not_marked_of_bare rfl rfl hmarked
  · rw [hdoes.frames.objects id htarget] at ho
    exact hw id o ho ⟨hclient, .inr ⟨hother, hmarked⟩⟩

theorem InPlace.sparesForeign (hw : P.InPlace own w) (hc : AtPlaces own c) :
    P.SparesForeign c w := by
  intro id o hclient hmodifies ho hforeign
  rcases hc id hmodifies.1 hclient with hown | ⟨ns, hcreate⟩
  · exact hw id o ho ⟨hclient, .inl ⟨hown, hforeign⟩⟩
  · exact hmodifies.2 _ _ hcreate

/-! ### Where a pass writes -/

theorem AtPlaces.read (h : c.failure = none) : AtPlaces own c := by
  intro id hid
  rw [(Call.target_of_failure_eq_none h).1] at hid
  cases hid

theorem AtPlaces.remote {client : Client} (h : ∀ id, c.verb.target = some id → id.client = client)
    (hclient : client ≠ .localClient) : AtPlaces own c :=
  fun id hid hlocal => absurd ((h id hid).symm.trans hlocal) hclient

section Received

variable {scope : Scope}

theorem answers_of_received {c : api.Call} {resp : api.Resp c} (h : P.Received own c resp) :
    c.verb.Answers resp := by
  obtain ⟨w, w', -, hd⟩ := h
  exact hd.1.answers

theorem own_of_get {id : ObjectId} {live : Bool} {o : Unstructured}
    (h : P.Received own ⟨scope, .get id live⟩ (.ok o)) (hclient : id.client = .localClient)
    (hmarked : P.Marked id o) : own (o.idOn .localClient) := by
  have hid : o.idOn id.client = id := answers_of_received h o rfl
  obtain ⟨w, w', hw, hd⟩ := h
  have hobj : w.object? id = some o := by
    have hresp := hd.1.get.1
    cases hobj : w.object? id with
    | none => rw [hobj] at hresp; cases hresp
    | some o' => rw [hobj] at hresp; cases hresp; rfl
  rw [← hclient, hid]
  by_contra hother
  exact hw id o hobj ⟨hclient, .inr ⟨hother, hmarked⟩⟩

theorem own_of_list {t : TypeMeta} {selector : Selector} {limit : Nat} {items : List Unstructured}
    (h : P.Received own ⟨scope, .list .localClient t "" selector limit false⟩ (.ok items))
    {o : Unstructured} (ho : o ∈ items)
    (hmarked : o.typeMeta = t → selector o.metadata.labels = true →
      P.Marked (o.idOn .localClient) o) : own (o.idOn .localClient) := by
  obtain ⟨w, w', hw, hd⟩ := h
  cases hd.1.list.1
  have hlisted := World.listed_of_mem ho
  by_contra hother
  exact hw _ o hlisted.object ⟨rfl, .inr ⟨hother, hmarked hlisted.typeMeta hlisted.selector⟩⟩

end Received

section Pass

variable {stateStore : KubernetesBackend} {relRes : RelatedResourceSpec} {scope : Scope}
  {remote : ObjectSide}

theorem atPlaces_of_syncCall {s : ObjectSyncer} {L : Libraries} {source : Unstructured}
    {dest : Option Unstructured} (hmutator : ∀ m, s.mutator = some m → m.KeepsIdentity)
    (hplaces : ∀ id, s.WritesAt .localClient source dest id → own id)
    (h : s.SyncCall (P.Received own) L scope (.remoteClient P.clusterName) .localClient source
      dest c) : AtPlaces own c := by
  intro id hid hlocal
  refine (h.target ⟨fun _ _ => answers_of_received, hmutator⟩ hid ?_).imp_left (hplaces id)
  rw [hlocal]
  rintro ⟨⟩

/-- The copies of a related resource that originates in kcp are written where they are looked for,
and the copies that are pruned carry the name of the agent. -/
theorem atPlaces_of_kcp (hagent : P.syncer.agentName ≠ "")
    (hmutator : ∀ m, P.syncer.relatedMutators relRes.identifier = some m → m.KeepsIdentity)
    (hmem : relRes ∈ P.syncer.pubRes.related) (horigin : relRes.origin = .kcp)
    (hremote : remote.client = .remoteClient P.clusterName)
    (h : P.syncer.ResourceCall (P.Received own) scope stateStore remote relRes
      (.remoteClient P.clusterName) .localClient c) : AtPlaces own c := by
  cases h with
  | resolve hc => exact .read hc.read
  | copies _ hread _ _ _ => exact .read hread
  | @sync primaryDeleting t id resolved found _ hkind _ _ hfound hc =>
    have hplace : own ⟨.localClient, t, resolved.destination.ns, resolved.destination.name⟩ := by
      obtain ⟨w, w', -, hd⟩ := hfound
      exact hd.2.copies _ _ rfl rfl ⟨relRes, hmem, horigin, rfl, hkind⟩
    refine atPlaces_of_syncCall hmutator (fun id hwrites => ?_) hc
    rw [ResourceSyncer.eq_of_writesAt (answers_of_received hfound) hwrites]
    exact hplace
  | delete policy hitems _ hitem =>
    intro id hid _
    cases hid
    refine .inl (own_of_list hitems hitem fun _ hselector => .named ?_)
    exact ((contains_relatedCopyLabels_iff hagent).mp (selectorFromSet_iff.mp hselector)).2.2
  | remember resolvedObjects _ _ =>
    exact .remote (fun id hid => by cases hid; exact hremote) (by rintro ⟨⟩)

/-- For a related resource that originates on the service cluster, nothing is written there but the
removal of the finalizer. -/
theorem atPlaces_of_service (horigin : relRes.origin = .service)
    (hremote : remote.client = .remoteClient P.clusterName)
    (h : P.syncer.ResourceCall (P.Received own) scope stateStore remote relRes .localClient
      (.remoteClient P.clusterName) c) : AtPlaces own c := by
  have hclient : Client.remoteClient P.clusterName ≠ .localClient := by rintro ⟨⟩
  cases h with
  | resolve hc => exact .read hc.read
  | copies _ hread _ _ _ => exact .read hread
  | @sync primaryDeleting t id resolved found _ _ hid hread _ hc =>
    cases hc with
    | dest _ hc =>
      refine .remote (fun id hid => ?_) hclient
      rcases hc.write with hread | hsecret | ⟨id', hid', hdest, -⟩
      · rw [(Call.target_of_failure_eq_none hread).1] at hid
        cases hid
      · obtain ⟨sid, hsid⟩ := Option.isSome_iff_exists.mp hsecret
        rw [Call.target_of_secretTarget hsid] at hid
        cases hid
      · cases hid'.symm.trans hid
        exact hdest
    | delete policy _ _ _ => exact .remote (fun id hid => by cases hid; rfl) hclient
    | release _ _ _ hfinalizer =>
      intro id' hid' _
      cases hid'
      have hown : own (resolved.original.idOn .localClient) :=
        own_of_get hread hid (.finalizer hfinalizer)
      exact .inl hown
    | finalize hlive hblock _ =>
      refine absurd (.inr ?_) hlive
      simpa [ResourceSyncer.relatedSyncer, horigin] using hblock
    | status obj hback => cases hback
  | delete policy _ _ _ => exact .remote (fun id hid => by cases hid; rfl) hclient
  | remember resolvedObjects _ _ =>
    exact .remote (fun id hid => by cases hid; exact hremote) hclient

theorem atPlaces_pass (hagent : P.syncer.agentName ≠ "")
    (hmutator : ∀ m, P.syncer.primaryMutator = some m → m.KeepsIdentity)
    (hrelated : ∀ identifier m, P.syncer.relatedMutators identifier = some m → m.KeepsIdentity)
    (hr : r.idOn (.remoteClient P.clusterName) = P.id)
    (hgenerated : ∀ dest id, (∀ l, dest = some l → own (l.idOn .localClient)) →
      (P.syncerOf r).WritesAt .localClient r dest id → own id) :
    (P.syncer.process P.clusterName P.workspacePath r).Obeys (P.Received own) (AtPlaces own)
      fun _ => True := by
  refine ResourceSyncer.process_obeys (fun _ => .read rfl) fun dest hdest c hc => ?_
  cases hc with
  | sync hc =>
    refine atPlaces_of_syncCall hmutator (fun id hid => hgenerated dest id (fun l hl => ?_) hid) hc
    refine own_of_list hdest (by rw [hl]; exact List.mem_singleton_self l) fun htype hselector => ?_
    rw [newObjectKey_eq hr] at hselector
    exact .linked ⟨rfl, htype⟩ hselector
  | @related relRes o l _ hmem hc =>
    cases horigin : relRes.origin with
    | service =>
      simp only [ResourceSyncer.relatedSides, horigin] at hc
      exact atPlaces_of_service horigin rfl hc
    | kcp =>
      simp only [ResourceSyncer.relatedSides, horigin] at hc
      exact atPlaces_of_kcp hagent (hrelated _) hmem horigin rfl hc

end Pass

/-- `Modifies` as a test. -/
def modifies (c : Call) (id : ObjectId) : Bool :=
  match c.verb with
  | .create _ _ => false
  | verb => verb.target = some id

theorem Modifies.of_test {id : ObjectId} (h : modifies c id = true) : Modifies c id := by
  unfold modifies at h
  split at h
  · cases h
  · next hcreate => exact ⟨of_decide_eq_true h, hcreate⟩

instance {o : Unstructured} : Decidable (P.Foreign o) :=
  decidable_of_iff ((o.metadata.labels.get? agentNameLabel).any (· ≠ P.syncer.agentName) = true) (by
    simp [Foreign, Option.any_eq_true])

instance {id : ObjectId} {o : Unstructured} : Decidable (P.Marked id o) :=
  decidable_of_iff ((id.client = .localClient ∧ id.typeMeta = P.syncer.destType) ∧
      selectorFromSet (P.key.labels P.syncer.libs.hash) o.metadata.labels = true ∨
    o.metadata.labels.get? agentNameLabel = some P.syncer.agentName ∨
    o.metadata.finalizers.contains deletionFinalizer = true)
    ⟨fun h => h.elim (fun h => .linked h.1 h.2) fun h => h.elim .named .finalizer, fun h => by
      cases h with
      | linked hlocal hselector => exact .inl ⟨hlocal, hselector⟩
      | named hname => exact .inr (.inl hname)
      | finalizer hfinalizer => exact .inr (.inr hfinalizer)⟩

instance [DecidablePred own] {id : ObjectId} {o : Unstructured} :
    Decidable (P.Misplaced own id o) :=
  inferInstanceAs (Decidable (_ ∧ _))

instance [DecidablePred own] : Decidable (P.InPlace own w) :=
  decidable_of_iff (∀ e ∈ w.objects.entries, ¬ P.Misplaced own e.1 e.2)
    ⟨fun h id o ho => h ⟨id, o⟩ (AList.mem_lookup_iff.mp ho),
      fun h e he => h e.1 e.2 (AList.mem_lookup_iff.mpr he)⟩

instance {scope : Scope} {t : TypeMeta} : Decidable (P.CopyType scope t) :=
  inferInstanceAs (Decidable (∃ relRes ∈ P.syncer.pubRes.related, _ ∧ _ ∧ _))

variable (P own) [DecidablePred own]

/-- Copies of related objects are looked for at the places. -/
def getsWithin (c : Call) : Bool :=
  match c.verb with
  | .get id _ => decide (id.client = .localClient → P.CopyType c.scope id.typeMeta → own id)
  | _ => true

/-- Calls go through as long as they give nothing at the places the name of another agent. -/
def execWithin (c : api.Call) (w : World) : Option (api.Resp c × World) :=
  if P.getsWithin own c = true ∧
      ∀ e ∈ (exec P.server c w).2.objects.entries, own e.1 → ¬ P.Foreign e.2 then
    some (exec P.server c w)
  else none

variable {P own} in
theorem execWithin_agent (c : api.Call) (w : World) (resp : api.Resp c) (w' : World)
    (h : P.execWithin own c w = some (resp, w')) : (P.agentEnvironment own).does c w resp w' := by
  unfold execWithin at h
  split at h
  · next hwithin =>
    have hexec := Option.some.inj h
    obtain ⟨hgets, hlabels⟩ := hwithin
    rw [hexec] at hlabels
    refine ⟨.inl hexec, fun id o hown ho hforeign => ?_, fun id live hget hclient hcopy => ?_⟩
    · exact absurd hforeign (hlabels ⟨id, o⟩ (AList.mem_lookup_iff.mp ho) hown)
    · rw [getsWithin, hget, decide_eq_true_eq] at hgets
      exact hgets hclient hcopy
  · cases h

/-- Where the copy of the Secret is. -/
def secretCopy : ObjectId := ⟨.localClient, .secret, "tenant", "daily"⟩

/-- The places of the local object and of the copy of the Secret. -/
def dailyPlaces (id : ObjectId) : Prop := id = sampleCopy ∨ id = secretCopy

instance : DecidablePred dailyPlaces := fun _ => inferInstanceAs (Decidable (_ ∨ _))

/-- An object of another agent. -/
def nightlyObject (t : TypeMeta) : Unstructured :=
  ⟨t,
    { name := "nightly", ns := "tenant"
      labels := SortedMap.insert ∅ agentNameLabel "neighbour" }, default⟩

/-- The sample object and the Secret, and two objects of another agent under another name. -/
def nightlyWorld : World :=
  (Blocker.secretWorld.put .localClient (nightlyObject crontabType)).put .localClient
    (nightlyObject .secret)

/-- The worlds after passes. -/
def nightlyPass : World → World := applied.afterPass (applied.execWithin dailyPlaces)

theorem within_daily (hw : applied.InPlace dailyPlaces w) :
    applied.Within dailyPlaces (sampleObject ∅ default) w where
  inPlace := hw
  generated dest id hdest hid := by
    cases hid with
    | found hd => exact hdest _ hd
    | generated _ hmut hcreate =>
      cases hmut
      have hplace : ((applied.syncerOf (sampleObject ∅ default)).destCreator
          (sampleObject ∅ default)).toOption.map (·.idOn .localClient) = some sampleCopy := by
        decide +kernel
      rw [hcreate] at hplace
      exact .inl (Option.some.inj hplace)
  states id hstate hdaily := by
    rcases hdaily with rfl | rfl
    · exact absurd hstate (by decide)
    · exact absurd hstate (by decide)

/-- The sample as another agent syncs it, from another installation. -/
def neighbour : Primary :=
  { sample [] with syncer := { (sample []).syncer with agentName := "neighbour" } }

/-- The sample object, and what the other agent has created for an object of the same cluster,
namespace and name. -/
def sharedWorld : World :=
  (((neighbour.afterPass execOwn (sampleWorld ∅ default)).object? sampleCopy).map
    ((sampleWorld ∅ default).put .localClient)).getD (sampleWorld ∅ default)

end Primary

end Sync
