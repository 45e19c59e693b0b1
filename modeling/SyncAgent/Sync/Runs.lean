import SyncAgent.Sync.Link

/-! Runs of `Process` on one primary object: the passes are executed one after another, and between
any two calls the other parties act. -/

namespace Sync

open Kube

/-- An object at one of some places that a call of the scope created. -/
structure Created (place : ObjectId → Prop) (scope : Scope) (w : World) (id : ObjectId)
    (o : Unstructured) : Prop where
  place : place id
  object : w.object? id = some o
  created : (o.metadata.uid, scope) ∈ w.created

/-- The call writes none of these objects, and it creates none. -/
def Spares (place : ObjectId → Prop) (scope : Scope) (c : Call) (w : World) : Prop :=
  ∀ id, c.verb.target = some id → place id → c.scope ≠ scope ∧ ∀ o, ¬ Created place scope w id o

section Created

variable {place : ObjectId → Prop} {scope : Scope} {c : Call} {w w' : World}

theorem Created.of_frames (hf : w.Frames c w') (hw : w.UidsUsed) (hspares : Spares place scope c w)
    {id : ObjectId} {o : Unstructured} (ho : Created place scope w' id o) :
    Created place scope w id o := by
  rcases hf.created with ⟨hcreated, huids⟩ | ⟨client, new, htarget, hadds⟩
  · have hmem : (o.metadata.uid, scope) ∈ w.created := hcreated ▸ ho.created
    by_cases hid : c.verb.target = some id
    · obtain ⟨o₀, ho₀, huid⟩ := huids id o ho.object
      exact absurd ⟨ho.place, ho₀, huid ▸ hmem⟩ ((hspares id hid ho.place).2 o₀)
    · exact ⟨ho.place, hf.objects id hid ▸ ho.object, hmem⟩
  · have hobj := ho.object
    have hmem := ho.created
    rw [hadds.objects] at hobj
    rw [hadds.created, List.mem_cons, Prod.mk.injEq] at hmem
    split at hobj
    · next hid =>
      cases hobj
      rcases hmem with ⟨-, hscope⟩ | hmem
      · exact absurd hscope.symm (hspares id (hid ▸ htarget) ho.place).1
      · exact absurd hmem (hadds.notUsed hw)
    · rcases hmem with ⟨huid, -⟩ | hmem
      · have hle := hw.objects id o hobj
        rw [huid, hadds.uid] at hle
        exact absurd hle (Nat.not_succ_le_self _)
      · exact ⟨ho.place, hobj, hmem⟩

theorem Created.of_adds {client : Client} {scope' : Scope} {new : Unstructured}
    (hadds : w.Adds client scope' new w') (hw : w.UidsUsed) {id : ObjectId} {o : Unstructured}
    (ho : Created place scope w' id o) : o = new ∨ Created place scope w id o := by
  have hobj := ho.object
  have hmem := ho.created
  rw [hadds.objects] at hobj
  rw [hadds.created, List.mem_cons, Prod.mk.injEq] at hmem
  split at hobj
  · cases hobj
    exact .inl rfl
  · rcases hmem with ⟨huid, -⟩ | hold
    · have hle := hw.objects id o hobj
      rw [huid, hadds.uid] at hle
      exact absurd hle (Nat.not_succ_le_self _)
    · exact .inr ⟨ho.place, hobj, hold⟩

theorem Created.of_rewrites {id' : ObjectId} {cur next new : Unstructured}
    (hrew : w.Rewrites id' next new w') (hcur : w.object? id' = some cur)
    (huid : next.metadata.uid = cur.metadata.uid) {id : ObjectId} {o : Unstructured}
    (ho : Created place scope w' id o) :
    Created place scope w id o ∨ id = id' ∧ o = new ∧ Created place scope w id' cur := by
  have hcreated := ho.created
  rw [hrew.keeps.created] at hcreated
  rcases hrew.object_cases ho.object with ⟨rfl, rfl⟩ | ⟨-, hobj⟩
  · obtain ⟨rv, hmeta⟩ := hrew.becomes.metadata
    have hsame : o.metadata.uid = cur.metadata.uid := by rw [hmeta]; exact huid
    exact .inr ⟨rfl, rfl, ho.place, hcur, hsame ▸ hcreated⟩
  · exact .inl ⟨ho.place, hobj, hcreated⟩

theorem Created.of_dying {id' : ObjectId} {cur : Unstructured} (hkeeps : w.Keeps (some id') w')
    (hdying : w'.Dying id' cur) (hcur : w.object? id' = some cur) {id : ObjectId} {o : Unstructured}
    (ho : Created place scope w' id o) :
    ∃ o₀, Created place scope w id o₀ ∧ o₀.metadata.labels = o.metadata.labels ∧
      o₀.metadata.annotations = o.metadata.annotations := by
  have hcreated := ho.created
  rw [hkeeps.created] at hcreated
  obtain ⟨o₀, fin, time, rv, hobj, rfl⟩ := hdying.before hkeeps hcur ho.object
  exact ⟨o₀, ⟨ho.place, hobj, hcreated⟩, rfl, rfl⟩

theorem spares_of_target (h : ∀ id, c.verb.target = some id → ¬ place id) (w : World) :
    Spares place scope c w :=
  fun id hid hplace => absurd hplace (h id hid)

theorem spares_of_none (h : c.verb.target = none) (w : World) : Spares place scope c w :=
  spares_of_target (fun id hid => by rw [h] at hid; cases hid) w

end Created

/-- A primary object, given by its place in a workspace, and the syncer that processes it. -/
structure Primary where
  syncer : ResourceSyncer
  server : Server
  clusterName : String
  workspacePath : String
  typeMeta : TypeMeta
  ns : String
  name : String

namespace Primary

variable (P : Primary)

/-- Where the remote object is. -/
def id : ObjectId := ⟨.remoteClient P.clusterName, P.typeMeta, P.ns, P.name⟩

def scope : Scope := { cluster := P.clusterName, ns := P.ns, name := P.name }

def key : ObjectKey := ⟨P.clusterName, P.workspacePath, P.ns, P.name⟩

/-- The store of the states of the primary object. -/
def store : KubernetesBackend :=
  P.syncer.stateStore P.clusterName P.workspacePath
    ⟨P.typeMeta, { name := P.name, ns := P.ns }, default⟩

/-- The key of the primary object in its store. -/
def storeKey : String := (⟨P.clusterName, "", P.ns, P.name⟩ : ObjectKey).key P.syncer.libs.hash

/-- The last-known state of the primary object. -/
def stored (w : World) : Option Unstructured :=
  ((P.store.entries w).get? P.storeKey).join.bind Unstructured.ofFields

/-- The places of the local objects. -/
def isLocal (id : ObjectId) : Prop := id.client = .localClient ∧ id.typeMeta = P.syncer.destType

/-- A local object that was created for the primary object. -/
abbrev Copy : World → ObjectId → Unstructured → Prop := Created P.isLocal P.scope

/-- The syncer of the object that the remote object is at the start of a pass. -/
def syncerOf (r : Unstructured) : ObjectSyncer :=
  P.syncer.syncerOf P.clusterName P.workspacePath r

/-- The copy is linked to the primary object. -/
def Linked (o : Unstructured) : Prop :=
  Sync.Linked P.syncer.libs.hash P.key P.syncer.agentName o

/-- A pass on the remote object `r`; the result is returned together with `r`. -/
def pass (r : Unstructured) : Prog api (Unstructured × Except Error Bool) :=
  (P.syncer.process P.clusterName P.workspacePath r).run.bind fun result => .pure (r, result)

/-- A pass starts with the remote object as it is, if it meets a condition. -/
def starts (cond : Unstructured → World → Prop) (w : World)
    (p : Prog api (Unstructured × Except Error Bool)) : Prop :=
  ∃ r, w.object? P.id = some r ∧ cond r w ∧ p = P.pass r

section Version

variable {P} {r : Unstructured} (hr : r.idOn (.remoteClient P.clusterName) = P.id)

include hr

theorem scope_eq : ResourceSyncer.primaryScope P.clusterName r = P.scope := by
  simp only [Unstructured.idOn, id, ObjectId.mk.injEq] at hr
  simp [ResourceSyncer.primaryScope, scope, hr.2.2.1, hr.2.2.2]

theorem newObjectKey_eq : newObjectKey r P.clusterName P.workspacePath = P.key := by
  simp only [Unstructured.idOn, id, ObjectId.mk.injEq] at hr
  simp [newObjectKey, key, hr.2.2.1, hr.2.2.2]

theorem stateStore_eq : P.syncer.stateStore P.clusterName P.workspacePath r = P.store := by
  simp only [Unstructured.idOn, id, ObjectId.mk.injEq] at hr
  simp [store, ResourceSyncer.stateStore, newKubernetesBackend, hashObject, newObjectKey, hr.2.1,
    hr.2.2.1, hr.2.2.2]

theorem lastKnown_eq {source : Unstructured} (hns : source.metadata.ns = P.ns)
    (hname : source.metadata.name = P.name) (w : World) :
    (P.syncerOf r).lastKnown P.syncer.libs
      (ResourceSyncer.remoteSide P.clusterName P.workspacePath) source w = P.stored w := by
  have hstore : (P.syncerOf r).stateStore = P.store := stateStore_eq hr
  simp [ObjectSyncer.lastKnown, hstore, stored, KubernetesBackend.sourceKey, newObjectKey, storeKey,
    ResourceSyncer.remoteSide, hns, hname]

theorem name_eq : r.metadata.ns = P.ns ∧ r.metadata.name = P.name := by
  simp only [Unstructured.idOn, id, ObjectId.mk.injEq] at hr
  exact hr.2.2

end Version

variable {P} in
theorem syncerOf_links (r : Unstructured) : (P.syncerOf r).Links := ⟨rfl, rfl, rfl⟩

variable {P} in
theorem keyOf_eq {source : Unstructured} (hns : source.metadata.ns = P.ns)
    (hname : source.metadata.name = P.name) :
    ObjectSyncer.keyOf (ResourceSyncer.remoteSide P.clusterName P.workspacePath)
    source = P.key := by
  simp [ObjectSyncer.keyOf, newObjectKey, key, ResourceSyncer.remoteSide, hns, hname]

/-- The rule for a pass. -/
theorem pass_keeps {E : Environment api World} {G : Guarantee api World} {r : Unstructured}
    {Q : Bool → World → Prop} {R : World → Prop} {w : World}
    (h : Fallible.Keeps E G (P.syncer.process P.clusterName P.workspacePath r) Q R w) :
    (P.pass r).Keeps E G (fun result w => Fallible.Outcome Q R result.2 w ∧ result.1 = r) w := by
  refine Prog.Keeps.bind (Prog.Keeps.mono h fun result w hw => ?_)
  exact ⟨hw, rfl⟩

/-! ### Evaluated passes -/

section Evaluated

variable (exec : (c : api.Call) → World → Option (api.Resp c × World))

/-- The result of a pass that nobody interferes with. -/
def passResult (w : World) : Option ((Unstructured × Except Error Bool) × World) :=
  (w.object? P.id).bind fun r => (P.pass r).evalSome exec w

/-- The world after such a pass. -/
def afterPass (w : World) : World := ((P.passResult exec w).map Prod.snd).getD w

variable {exec} {E : Environment api World} {init : World → Prop}
  {cond : Unstructured → World → Prop} {w w' : World} {result : Unstructured × Except Error Bool}
  (hexec : ∀ c w r w', exec c w = some (r, w') → E.does c w r w')

section Start

variable {start : World → Prog api (Unstructured × Except Error Bool) → Prop} (P : Primary)
  (h : Run E init start w none) (hstart : ∀ r, w.object? P.id = some r → start w (P.pass r))

include hexec h hstart

theorem run_pass (hresult : P.passResult exec w = some (result, w')) :
    Run E init start w' (some (.pure result)) := by
  rw [passResult, Option.bind_eq_some_iff] at hresult
  obtain ⟨r, hr, heval⟩ := hresult
  exact (h.start (hstart r hr)).evalSome hexec heval

theorem run_after : Run E init start (P.afterPass exec w) none := by
  unfold afterPass
  cases hresult : P.passResult exec w with
  | none => exact h
  | some result => exact (run_pass hexec P h hstart hresult).finish

end Start

include hexec

theorem run_passResult (P : Primary) (h : Run E init (P.starts cond) w none)
    (hcond : ∀ r, w.object? P.id = some r → cond r w)
    (hresult : P.passResult exec w = some (result, w')) :
    Run E init (P.starts cond) w' (some (.pure result)) :=
  run_pass hexec P h (fun r hr => ⟨r, hr, hcond r hr, rfl⟩) hresult

theorem run_afterPass (P : Primary) (h : Run E init (P.starts cond) w none)
    (hcond : ∀ r, w.object? P.id = some r → cond r w) :
    Run E init (P.starts cond) (P.afterPass exec w) none :=
  run_after hexec P h fun r hr => ⟨r, hr, hcond r hr, rfl⟩

end Evaluated

theorem exists_result {exec : (c : api.Call) → World → Option (api.Resp c × World)} {w : World}
    (requeue : Bool) (test : Unstructured → World → Bool)
    (h : (P.passResult exec w).any (fun result =>
      decide (result.1.2.toOption = some requeue) && test result.1.1 result.2) = true) :
    ∃ r w', P.passResult exec w = some ((r, .ok requeue), w') ∧ test r w' = true := by
  rw [Option.any_eq_true] at h
  obtain ⟨⟨⟨r, result⟩, w'⟩, hresult, hboth⟩ := h
  rw [Bool.and_eq_true, decide_eq_true_eq] at hboth
  cases result with
  | error e => cases hboth.1
  | ok b =>
    cases hboth.1
    exact ⟨r, w', hresult, hboth.2⟩

variable {P} in
theorem exists_copy {w : World} {id : ObjectId} {test : Unstructured → Bool}
    (hid : P.isLocal id) (h : (w.object? id).any (fun o =>
      decide ((o.metadata.uid, P.scope) ∈ w.created) && test o) = true) :
    ∃ o, P.Copy w id o ∧ test o = true := by
  rw [Option.any_eq_true] at h
  obtain ⟨o, ho, hboth⟩ := h
  rw [Bool.and_eq_true, decide_eq_true_eq] at hboth
  exact ⟨o, ⟨hid, ho, hboth.1⟩, hboth.2⟩

/-- The CronTab `team-a/daily` of the workspace `c1`, which is synced under its own name. -/
def sample (related : List RelatedResourceSpec) : Primary where
  syncer :=
    { libs := .sample
      pubRes :=
        { name := "crontabs"
          naming := some { name := "daily", ns := "tenant" }
          related := related }
      destType := crontabType
      destScope := .namespaceScoped
      subresources := ["status"]
      agentName := "agent"
      stateNamespace := "system" }
  server := .setting
  clusterName := "c1"
  workspacePath := "root"
  typeMeta := crontabType
  ns := "team-a"
  name := "daily"

/-- The sample object; it is protected by the finalizer already. -/
def sampleObject (labels : StringMap) (content : Content) : Unstructured :=
  ⟨crontabType,
    { name := "daily", ns := "team-a", labels := labels, finalizers := [deletionFinalizer] },
    content⟩

/-- A workspace with the sample object, before anything was synced. -/
def sampleWorld (labels : StringMap) (content : Content) : World :=
  World.empty.put (.remoteClient "c1") (sampleObject labels content)

theorem object?_sampleWorld {labels : StringMap} {content : Content} {id : ObjectId}
    {o : Unstructured} (h : (sampleWorld labels content).object? id = some o) :
    id = (sample []).id ∧ o = sampleObject labels content := by
  rw [sampleWorld, World.object?_put] at h
  split at h
  · next hid =>
    cases h
    exact ⟨hid, rfl⟩
  · cases h

/-- A user gives the sample object other labels. -/
def relabel (labels : StringMap) (w : World) : World :=
  w.put (.remoteClient "c1") (sampleObject labels default)

theorem object?_relabel {labels : StringMap} {w : World} {id : ObjectId} :
    (relabel labels w).object? id =
      if id = (sample []).id then some (sampleObject labels default) else w.object? id :=
  World.object?_put _ _ _ _

theorem stored_relabel (labels : StringMap) (w : World) :
    (sample []).stored (relabel labels w) = (sample []).stored w := rfl

theorem copy_relabel {labels : StringMap} {w : World} {id : ObjectId} {o : Unstructured}
    (ho : (sample []).Copy (relabel labels w) id o) : (sample []).Copy w id o := by
  refine ⟨ho.place, ?_, ho.created⟩
  have hobj := ho.object
  rw [object?_relabel, if_neg] at hobj
  · exact hobj
  · rintro rfl
    cases ho.place.1

theorem uidsUsed_relabel {labels : StringMap} {w : World} (hw : w.UidsUsed) :
    (relabel labels w).UidsUsed := by
  refine ⟨fun id o ho => ?_, hw.created⟩
  rw [object?_relabel] at ho
  split at ho
  · cases ho
    exact Nat.zero_le _
  · exact hw.objects id o ho

theorem uidsUsed_sampleWorld (labels : StringMap) (content : Content) :
    (sampleWorld labels content).UidsUsed := by
  refine ⟨fun id o h => ?_, fun e he => by cases he⟩
  obtain ⟨-, rfl⟩ := object?_sampleWorld h
  exact Nat.le_refl 0

/-- Calls that are not made for a related resource go through. -/
def execOwn (c : api.Call) (w : World) : Option (api.Resp c × World) :=
  if c.scope.identifier = none then some (exec .setting c w) else none

theorem execOwn_eq_some {c : api.Call} {w w' : World} {r : api.Resp c}
    (h : execOwn c w = some (r, w')) :
    World.Does .setting c w r w' ∧ c.scope.identifier = none := by
  unfold execOwn at h
  split at h
  · next hown => exact ⟨.inl (Option.some.inj h), hown⟩
  · cases h

/-- Where the sample object is synced to. -/
def sampleCopy : ObjectId := ⟨.localClient, crontabType, "tenant", "daily"⟩

end Primary

end Sync
