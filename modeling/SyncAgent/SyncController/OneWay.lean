import SyncAgent.Lib.Pool
import SyncAgent.Sync.Remembered
import SyncAgent.Sync.Opened

/-! The objects of a workspace belong to its users.  Apart from Events, which the model leaves out,
from the copies of related objects that originate on the service cluster, and from Namespaces for
these, the agent creates nothing in a workspace and deletes nothing there, and of the objects that
it finds it changes the finalizers, the status and its own annotations only. -/

namespace Sync

open Kube

/-! ### What the agent may write -/

/-- The new version differs from the old one in its finalizers, its status and the agent's
annotations only. -/
structure OwnerKept (o o' : Unstructured) : Prop where
  version : ∃ finalizers annotations resourceVersion generation content,
    o' = { o with
      metadata := { o.metadata with
        finalizers := finalizers
        annotations := annotations
        resourceVersion := resourceVersion
        generation := generation }
      content := content }
  annotations : ∀ k, hasPrefix k relatedObjectAnnotationPrefix = false →
    o'.metadata.annotations.get? k = o.metadata.annotations.get? k
  content : ∀ k, k ≠ "status" → o'.content.fields.get? k = o.content.fields.get? k

namespace OwnerKept

theorem refl (o : Unstructured) : OwnerKept o o :=
  ⟨⟨_, _, _, _, _, rfl⟩, fun _ _ => rfl, fun _ _ => rfl⟩

theorem trans {o o' o'' : Unstructured} (h : OwnerKept o o') (h' : OwnerKept o' o'') :
    OwnerKept o o'' := by
  refine ⟨?_, fun k hk => (h'.annotations k hk).trans (h.annotations k hk),
    fun k hk => (h'.content k hk).trans (h.content k hk)⟩
  obtain ⟨f, a, rv, g, c, rfl⟩ := h.version
  obtain ⟨f', a', rv', g', c', rfl⟩ := h'.version
  exact ⟨f', a', rv', g', c', rfl⟩

theorem deletionTimestamp {o o' : Unstructured} (h : OwnerKept o o') :
    o'.metadata.deletionTimestamp = o.metadata.deletionTimestamp := by
  obtain ⟨f, a, rv, g, c, rfl⟩ := h.version
  rfl

end OwnerKept

/-- The objects at these places have only changed in what the agent may write, and those that are
gone were in deletion. -/
structure DataKept (K : ObjectId → Prop) (w w' : World) : Prop where
  kept : ∀ id, K id → ∀ o', w'.object? id = some o' → ∃ o, w.object? id = some o ∧ OwnerKept o o'
  gone : ∀ id, K id → w'.object? id = none → ∀ o, w.object? id = some o →
    o.metadata.deletionTimestamp.isSome = true

namespace DataKept

variable {K : ObjectId → Prop} {w w' w'' : World}

theorem refl (w : World) : DataKept K w w :=
  ⟨fun _ _ o ho => ⟨o, ho, .refl o⟩, fun _ _ hnone o ho => by rw [hnone] at ho; cases ho⟩

theorem of_objects (h : ∀ id, K id → w'.object? id = w.object? id) : DataKept K w w' := by
  refine ⟨fun id hid o ho => ⟨o, h id hid ▸ ho, .refl o⟩, fun id hid hnone o ho => ?_⟩
  rw [h id hid, ho] at hnone
  cases hnone

theorem of_rewrites {id : ObjectId} {cur next o : Unstructured} (hcur : w.object? id = some cur)
    (hrew : w.Rewrites id next o w') (hkept : OwnerKept cur next) : DataKept K w w' := by
  have hstored : OwnerKept cur o := by
    obtain ⟨rv, rfl⟩ := hrew.becomes.version
    exact hkept.trans ⟨⟨_, _, _, _, _, rfl⟩, fun _ _ => rfl, fun _ _ => rfl⟩
  refine ⟨fun id' _ o' ho' => ?_, fun id' _ hgone o' ho' => ?_⟩
  · rcases hrew.object_cases ho' with ⟨rfl, rfl⟩ | ⟨-, hbefore⟩
    · exact ⟨cur, hcur, hstored⟩
    · exact ⟨o', hbefore, .refl o'⟩
  · by_cases hid : id' = id
    · subst hid
      cases hcur.symm.trans ho'
      rcases hrew.becomes.object with hobj | ⟨-, hdying, -⟩
      · cases hobj.symm.trans hgone
      · rw [← hkept.deletionTimestamp]
        exact hdying
    · rw [hrew.keeps.objects id' fun heq => hid (Option.some.inj heq).symm, ho'] at hgone
      cases hgone

end DataKept

/-- A patch that was made from two versions of an object, of which the second one has other
finalizers or other annotations of the agent. -/
inductive OwnPatch : Fields → Prop where
  | finalizers (D : MergeDiff) (o : Unstructured) (finalizers : List String) :
    OwnPatch (D.create o.toFields { o with metadata.finalizers := finalizers }.toFields)
  | annotations (D : MergeDiff) (o : Unstructured) (annotations : StringMap)
    (hne : annotations ≠ ∅) (hothers : ∀ k, hasPrefix k relatedObjectAnnotationPrefix = false →
      o.metadata.annotations.get? k = annotations.get? k) :
    OwnPatch (D.create o.toFields { o with metadata.annotations := annotations }.toFields)

/-- The call writes to objects of a workspace in these ways only. -/
def OneWay (c : Call) : Prop :=
  ∀ id, c.verb.target = some id → id.client ≠ .localClient →
    (∃ patch, c.verb = .patch id patch ∧ OwnPatch patch) ∨
      ∃ obj, c.verb = .updateStatus id.client obj

namespace OneWay

variable {c : Call} {scope : Scope}

theorem read (h : c.failure = none) : OneWay c := by
  intro id htarget _
  rw [(Call.target_of_failure_eq_none h).1] at htarget
  cases htarget

theorem local' {id : ObjectId} (h : c.verb.target = some id) (hid : id.client = .localClient) :
    OneWay c := by
  intro id' htarget hclient
  cases h.symm.trans htarget
  exact absurd hid hclient

theorem status {client : Client} {obj : Unstructured} :
    OneWay ⟨scope, .updateStatus client obj⟩ := by
  intro id htarget _
  cases htarget
  exact .inr ⟨obj, rfl⟩

theorem patch {id : ObjectId} {patch : Fields} (h : OwnPatch patch) :
    OneWay ⟨scope, .patch id patch⟩ := by
  intro id' htarget _
  cases htarget
  exact .inl ⟨patch, rfl, h⟩

theorem of_writeCall (h : WriteCall .localClient c) : OneWay c := by
  rcases h with hread | hsecret | ⟨id, htarget, hid, -⟩
  · exact read hread
  · obtain ⟨sid, hsid⟩ := Option.isSome_iff_exists.mp hsecret
    intro id htarget _
    rw [Call.target_of_secretTarget hsid] at htarget
    cases htarget
  · exact local' htarget hid

end OneWay

theorem OwnPatch.dataKept {patch : Fields} (h : OwnPatch patch) {S : Server} {scope : Scope}
    {id : ObjectId} {w w' : World} {r : Except ApiError Unstructured} {K : ObjectId → Prop}
    (hd : World.Does S ⟨scope, .patch id patch⟩ w r w') : DataKept K w w' := by
  cases h with
  | finalizers D o finalizers =>
    rcases World.Does.patch_create (by rfl) hd with ⟨e, -, rfl⟩ | ⟨cur, o', hcur, -, -, -, hrew⟩
    · exact .refl _
    · rw [Unstructured.patched_finalizers] at hrew
      refine .of_rewrites hcur hrew ⟨⟨_, _, _, _, _, rfl⟩, fun _ _ => rfl, fun k hk => ?_⟩
      exact Server.get?_mainContent fun _ => hk
  | annotations D o annotations hne hothers =>
    rcases World.Does.patch_create (by rfl) hd with ⟨e, -, rfl⟩ | ⟨cur, o', hcur, -, -, -, hrew⟩
    · exact .refl _
    · rw [Unstructured.patched_annotations] at hrew
      refine .of_rewrites hcur hrew ⟨⟨_, _, _, _, _, rfl⟩, fun k hk => ?_, fun k hk => ?_⟩
      · rw [Server.annotations_settle, get?_patchMap, if_neg hne, if_pos (hothers k hk), ite_self]
      · exact Server.get?_mainContent fun _ => hk

theorem OneWay.dataKept {c : Call} (h : OneWay c) {S : Server} {w w' : World} {r : c.verb.Resp}
    {K : ObjectId → Prop} (hK : ∀ id, K id → id.client ≠ .localClient)
    (hd : World.Does S c w r w') : DataKept K w w' := by
  cases htarget : c.verb.target with
  | none =>
    exact .of_objects fun id _ => hd.frames.objects id fun h => by rw [htarget] at h; cases h
  | some id =>
    by_cases hid : id.client = .localClient
    · refine .of_objects fun id' hid' => hd.frames.objects id' fun h => hK id' hid' ?_
      cases htarget.symm.trans h
      exact hid
    · obtain ⟨scope, verb⟩ := c
      rcases h id htarget hid with ⟨patch, rfl, hpatch⟩ | ⟨obj, rfl⟩
      · exact hpatch.dataKept hd
      · rcases hd.updateStatus with ⟨e, -, rfl⟩ | ⟨cur, o, hcur, -, -, -, hrew⟩
        · exact .refl _
        · refine .of_rewrites hcur hrew ⟨⟨_, _, _, _, _, rfl⟩, fun _ _ => rfl, fun k hk => ?_⟩
          exact Content.get?_setStatus _ _ hk

/-! ### The requests of a pass -/

/-- The call is made for a related resource with one of these identifiers, and in a workspace it
writes objects of these types, or creates a Namespace. -/
structure ForCopies (I : String → Prop) (T : TypeMeta → Prop) (c : Call) : Prop where
  identifier : ∃ identifier, c.scope.identifier = some identifier ∧ I identifier
  target : ∀ id, c.verb.target = some id → id.client ≠ .localClient → T id.typeMeta ∨
    ∃ client ns, c.verb = .create client ⟨ObjectSyncer.namespaceType, { name := ns }, default⟩

/-- What such a call does: it writes one object, which is of one of these types or a new Namespace
if it is in a workspace. -/
structure WritesOne (T : TypeMeta → Prop) (c : Call) (w w' : World) : Prop where
  others : ∀ id, c.verb.target ≠ some id → w'.object? id = w.object? id
  target : ∀ id, id.client ≠ .localClient → w'.object? id ≠ w.object? id →
    T id.typeMeta ∨ id.typeMeta = ObjectSyncer.namespaceType ∧ w.object? id = none

variable {I : String → Prop} {T : TypeMeta → Prop} {scope : Scope} {c : Call}
  {V : (c : api.Call) → api.Resp c → Prop}

theorem ForCopies.writesOne (h : ForCopies I T c) {S : Server} {w w' : World} {r : c.verb.Resp}
    (hd : World.Does S c w r w') : WritesOne T c w w' := by
  refine ⟨hd.frames.objects, fun id hid hchanged => ?_⟩
  have htarget : c.verb.target = some id := not_imp_comm.mp (hd.frames.objects id) hchanged
  refine (h.target id htarget hid).imp_right fun hcreate => ?_
  obtain ⟨scope, verb⟩ := c
  obtain ⟨client, ns, rfl⟩ := hcreate
  cases htarget
  refine ⟨rfl, ?_⟩
  rcases hd.create with ⟨e, -, rfl, -⟩ | ⟨o, -, rfl, hadds⟩
  · exact absurd rfl hchanged
  · exact hadds.fresh

theorem ObjectSyncer.SyncCall.oneWay {L : Libraries} {s : ObjectSyncer} {sourceClient : Client}
    {source : Unstructured} {dest : Option Unstructured}
    (h : s.SyncCall V L scope sourceClient .localClient source dest c) : OneWay c := by
  cases h with
  | dest _ hc => exact .of_writeCall hc.write
  | delete policy _ _ _ => exact .local' rfl rfl
  | release _ _ _ _ => exact .patch (.finalizers _ source _)
  | finalize _ _ _ => exact .patch (.finalizers _ source _)
  | status obj _ => exact .status

theorem hasPrefix_trans {k identifier : String}
    (h : hasPrefix k (rememberedStart identifier) = true) :
    hasPrefix k relatedObjectAnnotationPrefix = true := by
  rw [hasPrefix, List.isPrefixOf_iff_prefix] at h ⊢
  refine .trans ?_ h
  rw [rememberedStart, String.append_assoc, String.toList_append]
  exact List.prefix_append _ _

namespace ResourceSyncer

variable {s : ResourceSyncer} {remote : ObjectSide} {relRes : RelatedResourceSpec}
  {stateStore : KubernetesBackend}

/-- The annotations that the primary object gets: there is one for the first related object, and all
but those of the agent are as they were. -/
theorem rememberedOn_ne_empty {identifier : String} {resolvedObjects : List ResolvedObject}
    (h : resolvedObjects ≠ []) : s.rememberedOn remote identifier resolvedObjects ≠ ∅ := by
  obtain ⟨resolved, rest, rfl⟩ := List.exists_cons_of_ne_nil h
  have hfirst : (s.relatedObjectAnnotations (rememberedStart identifier)
      (resolved :: rest)).get? (rememberedStart identifier ++ toString 0) =
      some (s.rememberedText resolved) :=
    get?_relatedObjectAnnotations.mpr ⟨0, resolved, rfl, rfl, rfl⟩
  have hget : (s.rememberedOn remote identifier (resolved :: rest)).get?
      (rememberedStart identifier ++ toString 0) = some (s.rememberedText resolved) := by
    refine (get?_replaced _).trans ?_
    rw [if_pos (hasPrefix_append _ _), hfirst]
  intro hempty
  rw [hempty] at hget
  cases hget

theorem oneWay_remember {resolvedObjects : List ResolvedObject} (hsome : resolvedObjects ≠ []) :
    OneWay ⟨scope, .patch (remote.object.idOn remote.client)
      (s.libs.diff.create remote.object.toFields { remote.object with
        metadata.annotations :=
          s.rememberedOn remote relRes.identifier resolvedObjects }.toFields)⟩ := by
  refine .patch (.annotations _ _ _ (rememberedOn_ne_empty hsome) fun k hk => ?_)
  refine ((get?_replaced k).trans (if_neg fun hstart => ?_)).symm
  rw [hasPrefix_trans hstart] at hk
  cases hk

theorem ResourceCall.oneWay {sourceClient : Client}
    (h : s.ResourceCall V scope stateStore remote relRes sourceClient .localClient c) :
    OneWay c := by
  cases h with
  | resolve hc => exact .read hc.read
  | copies _ hread _ _ _ => exact .read hread
  | sync _ _ _ _ hc => exact hc.oneWay
  | delete policy _ _ _ => exact .local' rfl rfl
  | remember resolvedObjects _ hsome => exact oneWay_remember hsome

theorem ResourceCall.forCopies {destClient : Client}
    (hV : ∀ (c : api.Call) r, V c r → c.verb.Answers r)
    (h : s.ResourceCall V scope stateStore remote relRes .localClient destClient c)
    (hI : I relRes.identifier)
    (hT : ∀ t, s.libs.kindFor destClient relRes.projectedGVR = .ok t → T t)
    (hmutator : ∀ m, s.relatedMutators relRes.identifier = some m → m.KeepsIdentity) :
    OneWay c ∨ ForCopies I T c := by
  cases h with
  | resolve hc => exact .inl (.read hc.read)
  | copies _ hread _ _ _ => exact .inl (.read hread)
  | @sync primaryDeleting t id resolved found _ hkind _ _ hfound hc =>
    refine .inr ⟨⟨relRes.identifier, by rw [hc.scope_eq], hI⟩, fun id hid hclient => ?_⟩
    refine (hc.target ⟨hV, hmutator⟩ hid hclient).imp (fun hwrites => ?_)
      fun ⟨ns, hns⟩ => ⟨_, ns, hns⟩
    rw [eq_of_writesAt (hV _ _ hfound) hwrites]
    exact hT t hkind
  | delete policy hitems hkind hitem =>
    refine .inr ⟨⟨_, rfl, hI⟩, fun id hid _ => .inl ?_⟩
    cases hid
    show T (Unstructured.typeMeta _)
    rw [hV _ _ hitems _ rfl _ hitem]
    exact hT _ hkind
  | remember resolvedObjects _ hsome => exact .inl (oneWay_remember hsome)

theorem process_oneWay {clusterName workspacePath : String} {r : Unstructured}
    (hV : ∀ (c : api.Call) r, V c r → c.verb.Answers r)
    (h : ∀ relRes ∈ s.pubRes.related, relRes.origin = .service → I relRes.identifier ∧
      (∀ client t, s.libs.kindFor client relRes.projectedGVR = .ok t → T t) ∧
      ∀ m, s.relatedMutators relRes.identifier = some m → m.KeepsIdentity) :
    (s.process clusterName workspacePath r).Obeys V (fun c => OneWay c ∨ ForCopies I T c)
      fun _ => True := by
  refine process_obeys (fun _ => .inl (.read rfl)) fun dest _ c hc => ?_
  cases hc with
  | sync hc => exact .inl hc.oneWay
  | @related relRes o l _ hmem hc =>
    cases horigin : relRes.origin with
    | service =>
      obtain ⟨hI, hT, hmutator⟩ := h relRes hmem horigin
      simp only [relatedSides, horigin] at hc
      exact hc.forCopies hV hI (hT _) hmutator
    | kcp =>
      simp only [relatedSides, horigin] at hc
      exact .inl hc.oneWay

end ResourceSyncer

end Sync

namespace SyncController

open Kube Sync

variable {I : String → Prop} {T : TypeMeta → Prop}

namespace Reconciler

variable {R : Reconciler} {request : Request}

/-- The related resources that originate on the service cluster have these identifiers, their copies
are of these types, and their mutations leave the metadata alone. -/
def CopiesInto (I : String → Prop) (T : TypeMeta → Prop) (R : Reconciler) : Prop :=
  ∀ s, R.newResourceSyncer = .ok s → ∀ relRes ∈ s.pubRes.related, relRes.origin = .service →
    I relRes.identifier ∧ (∀ client t, s.libs.kindFor client relRes.projectedGVR = .ok t → T t) ∧
    ∀ m, s.relatedMutators relRes.identifier = some m → m.KeepsIdentity

end Reconciler

/-- The API servers, any answers of which can get lost or be replaced on the way, and other parties
that do anything. -/
def anyone (S : Server) : Environment api World where
  rely _ _ := True
  refl _ := trivial
  trans _ _ := trivial
  does c w r w' := c.verb.Answers r ∧ ∃ answer, World.Does S c w answer w'

/-- Reconciliations of any controllers. -/
def Reconciles (I : String → Prop) (T : TypeMeta → Prop) (_ : World)
    (p : Prog api (Except Error Result)) : Prop :=
  ∃ (R : Reconciler) (request : Request), R.CopiesInto I T ∧ p = (R.reconcile request).run

/-- At any time, whatever others have done: the next request of the agent keeps the data of all
objects in workspaces, or it is made for a related resource that originates on the service cluster
and writes one object, which is a copy or a new Namespace if it is in a workspace. -/
theorem request_keeps_data {S : Server} {w w₁ w₂ : World}
    {ps qs : List (Prog api (Except Error Result))} {c : Call}
    {k : c.verb.Resp → Prog api (Except Error Result)}
    (h : Pool.Reaches (anyone S) (Reconciles I T) (w, []) (w₁, ps ++ .call c k :: qs))
    {r : c.verb.Resp} (hd : World.Does S c w₁ r w₂) :
    DataKept (fun id => id.client ≠ .localClient) w₁ w₂ ∨
      (∃ identifier, c.scope.identifier = some identifier ∧ I identifier) ∧
      WritesOne T c w₁ w₂ := by
  let G : Guarantee api World := .ofCall fun c _ => OneWay c ∨ ForCopies I T c
  have hkept : Pool.Kept (anyone S) G (w₁, ps ++ .call c k :: qs) := by
    refine (Pool.Reaches.keeps ?_ ?_ ?_ ?_ ?_ h (.nil trivial)).1
    · exact fun _ _ _ _ => trivial
    · exact fun _ _ _ _ _ _ _ => trivial
    · exact fun _ _ _ _ hd => hd
    · exact fun _ _ _ _ => trivial
    · rintro w p - ⟨R, request, hR, rfl⟩
      have hobeys : (R.reconcile request).Obeys (fun (c : api.Call) r => c.verb.Answers r)
          (fun c => OneWay c ∨ ForCopies I T c) fun _ => True :=
        Reconciler.reconcile_obeys (.inl (.read rfl)) (fun _ _ => .inl (.read rfl))
          (fun _ => .inl (.read rfl)) fun s _ _ hs =>
          ResourceSyncer.process_oneWay (fun _ _ h => h) (hR s hs)
      have hkeeps :=
        Prog.Keeps.of_obeys (E := anyone S) (G := G) (J := fun _ => True) (s := w) hobeys
        (fun _ _ => trivial) (fun _ _ _ _ => trivial) (fun c hc w _ => hc)
        (fun _ _ _ _ _ _ hd => ⟨hd.1, trivial⟩) trivial
      exact hkeeps.mono fun _ _ _ => trivial
  have hcall : (Prog.call c k).Keeps (anyone S) G (fun _ _ => True) w₁ := hkept.2 _ (by simp)
  rcases (hcall w₁ trivial).1 with honeWay | hcopies
  · exact .inl (honeWay.dataKept (fun _ hid => hid) hd)
  · exact .inr ⟨hcopies.identifier, hcopies.writesOne hd⟩

/-- The sample object is being deleted and has no local copy, so the finalizer is removed. -/
theorem request_keeps_data_sample :
    ∃ (w : World) (c : Call) (k : c.verb.Resp → Prog api (Except Error Result)),
      Pool.Reaches (anyone .setting) (Reconciles (fun _ => False) fun _ => False)
        (Reconciler.deletedWorld (SortedMap.insert ∅ "team" "a"), []) (w, [] ++ .call c k :: []) ∧
      c.verb.target = some (Reconciler.sample.objectId Reconciler.sampleRequest) ∧
      (exec .setting c w).2.object? (Reconciler.sample.objectId Reconciler.sampleRequest) ≠
        w.object? (Reconciler.sample.objectId Reconciler.sampleRequest) ∧
      DataKept (fun id => id.client ≠ .localClient) w (exec .setting c w).2 := by
  let id := Reconciler.sample.objectId Reconciler.sampleRequest
  have hstart : Reconciles (fun _ => False) (fun _ => False)
      (Reconciler.deletedWorld (SortedMap.insert ∅ "team" "a"))
      (Reconciler.sample.reconcile Reconciler.sampleRequest).run := by
    refine ⟨_, _, ?_, rfl⟩
    rintro s ⟨⟩ relRes hmem
    cases hmem
  obtain ⟨w, c, k, hcall, htest⟩ := Pool.Reaches.exists_call (E := anyone .setting)
    (fun c w r w' h => ⟨World.Does.answers (.inl (Option.some.inj h)), r, .inl (Option.some.inj h)⟩)
    hstart 2 (fun c w => decide
      (c.verb.target = some id ∧ (exec .setting c w).2.object? id ≠ w.object? id))
      (by decide +kernel)
  have hreaches : Pool.Reaches (anyone .setting) (Reconciles (fun _ => False) fun _ => False)
      (Reconciler.deletedWorld (SortedMap.insert ∅ "team" "a"), [])
      (w, [] ++ .call c k :: []) := hcall
  obtain ⟨htarget, hwritten⟩ := of_decide_eq_true htest
  refine ⟨w, c, k, hreaches, htarget, hwritten, ?_⟩
  rcases request_keeps_data hreaches (.inl rfl) with hkept | ⟨⟨_, -, hno⟩, -⟩
  · exact hkept
  · exact hno.elim

end SyncController
