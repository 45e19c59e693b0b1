import SyncAgent.SyncController.Reconciler

/-! The types of the objects that a reconciliation reads or creates on each side.  The other
requests are for objects that were read before. -/

namespace Sync

open Kube

/-- Only these types are opened on these clients. -/
def Opens (A : Client → TypeMeta → Prop) (c : Call) : Prop :=
  ∀ client typeMeta, c.verb.opens = some (client, typeMeta) → A client typeMeta

variable {A : Client → TypeMeta → Prop} {c : Call} {sourceClient destClient : Client}
  {V : (c : api.Call) → api.Resp c → Prop}

theorem Opens.of_some {client : Client} {typeMeta : TypeMeta}
    (hc : c.verb.opens = some (client, typeMeta)) (h : A client typeMeta) : Opens A c := by
  intro client' typeMeta' hopens
  rw [hc] at hopens
  cases hopens
  exact h

theorem Opens.of_none (hc : c.verb.opens = none) : Opens A c := by
  intro client typeMeta hopens
  rw [hc] at hopens
  cases hopens

theorem ObjectSyncer.SyncCall.opens {L : Libraries} {scope : Scope} {s : ObjectSyncer}
    {source : Unstructured} {dest : Option Unstructured}
    (h : s.SyncCall V L scope sourceClient destClient source dest c)
    (hA : ∀ t, s.DestType t → A destClient t) : Opens A c := by
  cases h with
  | dest _ hc =>
    intro client t hopens
    have hclient := Verb.client_of_opens hopens
    rcases hc.server with hsecret | hdest
    · rcases c.verb.client_or_secret with hnone | hnone
      · cases hclient.symm.trans hnone
      · cases hsecret.symm.trans hnone
    · cases hclient.symm.trans hdest
      exact hA t (hc.opens _ t hopens)
  | _ => exact .of_none rfl

namespace ResourceSyncer

variable {s : ResourceSyncer}

/-- The types that a related resource opens: that of its objects on the origin side, the projected
one on the destination side, and namespaces on both. -/
theorem ResourceCall.opens {scope : Scope} {stateStore : KubernetesBackend} {remote : ObjectSide}
    {relRes : RelatedResourceSpec}
    (h : s.ResourceCall V scope stateStore remote relRes sourceClient destClient c)
    (horigin : ∀ t, s.libs.kindFor sourceClient relRes.gvr = .ok t → A sourceClient t)
    (hdest : ∀ t, s.libs.kindFor destClient relRes.projectedGVR = .ok t → A destClient t)
    (hnsOrigin : A sourceClient ObjectSyncer.namespaceType)
    (hnsDest : A destClient ObjectSyncer.namespaceType) : Opens A c := by
  cases h with
  | resolve hc =>
    intro client t hopens
    cases hc.client _ (Verb.client_of_opens hopens)
    rcases hc.opens _ t hopens with rfl | hkind
    · exact hnsOrigin
    · exact horigin t hkind
  | copies _ _ _ hopens hkind => exact .of_some hopens (hdest _ hkind)
  | sync hkind _ _ _ hc =>
    refine hc.opens fun t ht => ?_
    rcases ht with rfl | ⟨source, destObj, hcreator, rfl⟩
    · exact hnsDest
    · cases hcreator
      exact hdest _ hkind
  | delete policy _ _ _ => exact .of_none rfl
  | remember resolvedObjects _ _ => exact .of_none rfl

/-- The type of the objects of a related resource in kcp. -/
def kcpResource (relRes : RelatedResourceSpec) : GroupVersionResource :=
  if relRes.origin = .service then relRes.projectedGVR else relRes.gvr

/-- A pass opens objects of related resources in kcp, and namespaces for them; anything can be
opened on the service cluster. -/
theorem process_opens {clusterName workspacePath : String} {remoteObj : Unstructured}
    (hlocal : ∀ t, A .localClient t)
    (hkind : ∀ relRes ∈ s.pubRes.related, ∀ gvk,
      s.libs.kindFor (.remoteClient clusterName) (kcpResource relRes) = .ok gvk →
        A (.remoteClient clusterName) gvk)
    (hns : s.pubRes.related ≠ [] → A (.remoteClient clusterName) ObjectSyncer.namespaceType) :
    (s.process clusterName workspacePath remoteObj).Obeys V (Opens A) fun _ => True := by
  refine process_obeys (fun _ => .of_some rfl (hlocal _)) fun dest _ c hc => ?_
  cases hc with
  | sync hc => exact hc.opens fun t _ => hlocal t
  | @related relRes o l _ hmem hc =>
    have hns := hns (List.ne_nil_of_mem hmem)
    have hkind := hkind relRes hmem
    cases horigin : relRes.origin with
    | service =>
      rw [kcpResource, if_pos horigin] at hkind
      simp only [relatedSides, horigin] at hc
      exact hc.opens (fun t _ => hlocal t) hkind (hlocal _) hns
    | kcp =>
      rw [kcpResource, if_neg (by simp [horigin])] at hkind
      simp only [relatedSides, horigin] at hc
      exact hc.opens hkind (fun t _ => hlocal t) hns (hlocal _)

end ResourceSyncer

end Sync

namespace SyncController.Reconciler

open Kube Sync

variable {R : Reconciler} {request : Request} {V : (c : api.Call) → api.Resp c → Prop}
  {P : Call → Prop}

/-- The calls of a reconciliation: up to the call of `Process` it reads the primary object, its
Namespace and the logical cluster, as configured; the syncer is the one that the constructor
returns. -/
theorem reconcile_obeys (hremote : P ⟨scope request, .get (R.objectId request) false⟩)
    (hns : (R.filter.bind (·.ns)).isSome = true → ∀ name, P ⟨scope request,
      .get ⟨.remoteClient request.clusterName, ObjectSyncer.namespaceType, "", name⟩ false⟩)
    (hpath : R.enableWorkspacePaths = true →
      P ⟨scope request, .get (R.logicalClusterId request) false⟩)
    (hprocess : ∀ syncer path remoteObj, R.newResourceSyncer = .ok syncer →
      (syncer.process request.clusterName path remoteObj).Obeys V P fun _ => True) :
    (R.reconcile request).Obeys V P fun _ => True := by
  refine .bind (Q := fun result => ∀ syncer path remoteObj,
    result = some (syncer, path, remoteObj) →
    R.newResourceSyncer = .ok syncer) ?_ fun result hresult => ?_
  · have hnone : ∀ syncer path remoteObj,
        (none : Option (ResourceSyncer × String × Unstructured)) = some (syncer, path, remoteObj) →
          R.newResourceSyncer = .ok syncer := fun _ _ _ h => nomatch h
    refine wrapE_obeys fun _ _ => .bind (request_obeys hremote) fun r _ => ?_
    split
    · exact .pure hnone
    · exact .throw
    · refine .bind (Q := fun _ => True) ?_ fun namespaceObj _ => wrapE_obeys fun included _ => ?_
      · split
        · next id hid =>
          unfold namespaceId at hid
          split at hid
          · next hfilter =>
            cases hid
            exact .bind (.mapError (get_obeys (hns hfilter.1 _))) fun _ _ => .pure trivial
          · cases hid
        · exact .pure trivial
      · split
        · exact .pure hnone
        · refine .bind (Q := fun _ => True) ?_ fun path _ => wrapE_obeys fun syncer hsyncer => ?_
          · split
            · next hpaths =>
                exact .bind (.mapError (get_obeys (hpath hpaths))) fun _ _ => .pure trivial
            · exact .pure trivial
          · refine .pure fun syncer' path' remoteObj' hresult => ?_
            cases hresult
            exact hsyncer
  · split
    · exact .pure trivial
    · next syncer path remoteObj =>
      exact .bind (hprocess syncer path remoteObj (hresult syncer path remoteObj rfl)) fun _ _ =>
        .pure trivial

/-- The types that a reconciliation opens in kcp: that of the primary objects; namespaces, if the
filter asks for them or there are related resources; logical clusters, if the paths of workspaces
are wanted; and those of the related resources. -/
theorem reconcile_opens (R : Reconciler) (request : Request) :
    (R.reconcile request).AllCalls (Opens fun client typeMeta =>
      client = .remoteClient request.clusterName →
        typeMeta = R.remoteType ∨
        (typeMeta = ObjectSyncer.namespaceType ∧ ((R.filter.bind (·.ns)).isSome = true ∨
          ∃ syncer, R.newResourceSyncer = .ok syncer ∧ syncer.pubRes.related ≠ [])) ∨
        (typeMeta = R.logicalClusters.typeMeta ∧ R.enableWorkspacePaths = true) ∨
        ∃ syncer, R.newResourceSyncer = .ok syncer ∧ ∃ relRes ∈ syncer.pubRes.related,
          syncer.libs.kindFor client (ResourceSyncer.kcpResource relRes) = .ok typeMeta) := by
  refine (reconcile_obeys (.of_some rfl fun _ => .inl rfl)
    (fun hfilter _ => .of_some rfl fun _ => .inr (.inl ⟨rfl, .inl hfilter⟩))
    (fun hpaths => .of_some rfl fun _ => .inr (.inr (.inl ⟨rfl, hpaths⟩)))
    fun syncer path remoteObj hsyncer => ResourceSyncer.process_opens ?_ ?_ ?_).allCalls
  · exact fun _ hlocal => nomatch hlocal
  · exact fun relRes hmem gvk hgvk _ => .inr (.inr (.inr ⟨syncer, hsyncer, relRes, hmem, hgvk⟩))
  · exact fun hrelated _ => .inr (.inl ⟨rfl, .inr ⟨syncer, hsyncer, hrelated⟩⟩)

end SyncController.Reconciler
