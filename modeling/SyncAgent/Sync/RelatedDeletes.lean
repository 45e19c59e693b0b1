import SyncAgent.Sync.RelatedOutcome
import SyncAgent.Sync.StaleCache

/-! What the processing of a related resource may delete, and what it does to the objects on the
origin side, with nobody else writing meanwhile.  Each deletion is one that the clean-up policy asks
for, and an origin object changes in nothing but the finalizer of the agent. -/

namespace Sync

open Kube

/-! ### Objects that keep everything but the agent's finalizer -/

/-- `o'` is a later version of `o` that differs in the agent's finalizer only.  Finalizers are a
set, and a field of the content that is null counts as missing. -/
structure FinalizerOnly (o o' : Unstructured) : Prop where
  version : ∃ finalizers resourceVersion generation content, o' = { o with
    metadata := { o.metadata with
      finalizers := finalizers, resourceVersion := resourceVersion, generation := generation }
    content := content }
  content : ∀ k, o'.content.field k = o.content.field k
  finalizers : ∀ f, f ≠ deletionFinalizer → (f ∈ o'.metadata.finalizers ↔ f ∈ o.metadata.finalizers)

theorem FinalizerOnly.refl (o : Unstructured) : FinalizerOnly o o :=
  ⟨⟨_, _, _, _, rfl⟩, fun _ => rfl, fun _ _ => Iff.rfl⟩

/-- An object that was there is still the same but for the agent's finalizer, or it was in deletion
and is gone because the agent's finalizer was the last one. -/
def FinalizerKept (o : Unstructured) (now : Option Unstructured) : Prop :=
  (∃ o', now = some o' ∧ FinalizerOnly o o') ∨
  now = none ∧ o.metadata.deletionTimestamp.isSome = true ∧
    ∀ f ∈ o.metadata.finalizers, f = deletionFinalizer

/-- The objects of one API server are those of `w` but for the agent's finalizer. -/
def OriginsKept (client : Client) (w w' : World) : Prop :=
  ∀ id : ObjectId, id.client = client →
    (w.object? id).elim (w'.object? id = none) fun o => FinalizerKept o (w'.object? id)

theorem field_mainContent {S : Server} {client : Client} {cur next : Unstructured}
    (h : next.content = cur.content) (k : String) :
    (S.mainContent client cur next).field k = cur.content.field k := by
  unfold Server.mainContent
  split
  · by_cases hk : k = "status"
    · subst hk
      simp
    · unfold Content.field
      rw [Content.get?_setStatus _ _ hk, h]
  · rw [h]

namespace OriginsKept

variable {S : Server} {client : Client} {w s s' : World}

theorem refl (client : Client) (w : World) : OriginsKept client w w := by
  intro id _
  cases h : w.object? id with
  | none => rfl
  | some o => exact .inl ⟨o, rfl, .refl o⟩

/-- A call that does not write to the API server. -/
theorem of_frames {c : Call} (h : OriginsKept client w s) (hf : s.Frames c s')
    (hc : ∀ id, c.verb.target = some id → id.client ≠ client) : OriginsKept client w s' := by
  intro id hid
  rw [hf.objects id fun htarget => hc id htarget hid]
  exact h id hid

theorem of_patch {scope : Scope} {D : MergeDiff} {original : Unstructured}
    {finalizers : List String}
    {r : Except ApiError Unstructured} (h : OriginsKept client w s)
    (horiginal : w.object? (original.idOn client) = some original)
    (hfinalizers : ∀ f, f ≠ deletionFinalizer → (f ∈ finalizers ↔ f ∈ original.metadata.finalizers))
    (hd : World.Does S ⟨scope, .patch (original.idOn client) (D.create original.toFields
      { original with metadata.finalizers := finalizers }.toFields)⟩ s r s') :
    OriginsKept client w s' := by
  rcases World.Does.patch_create (by rfl) hd with ⟨e, -, rfl⟩ | ⟨cur, o, hcur, -, -, -, hrewrites⟩
  · exact h
  rw [Unstructured.patched_finalizers] at hrewrites
  intro id hid
  by_cases hsame : original.idOn client = id
  · subst hsame
    have hbefore := h (original.idOn client) rfl
    rw [horiginal, hcur] at hbefore
    rw [horiginal]
    obtain ⟨o', ho', hkept⟩ | ⟨hnone, -⟩ := hbefore
    · cases ho'
      obtain ⟨fins, rv, generation, content, rfl⟩ := hkept.version
      -- the list is the one of the patch, or it is left as it was
      have hothers : ∀ f, f ≠ deletionFinalizer →
          (f ∈ patchValue original.metadata.finalizers finalizers fins ↔
            f ∈ original.metadata.finalizers) := by
        intro f hf
        unfold patchValue
        split
        · exact hkept.finalizers f hf
        · exact hfinalizers f hf
      obtain ⟨rv', rfl⟩ := hrewrites.becomes.version
      rcases hrewrites.becomes.object with hobj | ⟨hobj, hdying, hempty⟩
      · refine .inl ⟨_, hobj, ⟨_, _, _, _, rfl⟩, fun k => ?_, hothers⟩
        exact (field_mainContent rfl k).trans (hkept.content k)
      · refine .inr ⟨hobj, hdying, fun f hf => ?_⟩
        by_contra hne
        have hmem := (hothers f hne).mpr hf
        rw [show patchValue original.metadata.finalizers finalizers fins = [] from hempty] at hmem
        cases hmem
    · cases hnone
  · rw [hrewrites.keeps.objects id fun heq => hsame (Option.some.inj heq)]
    exact h id hid

end OriginsKept

/-! ### The processing of a related resource -/

/-- Nobody else acts; a write can fail without an effect. -/
def calm (S : Server) : Environment api World where
  rely := Eq
  refl := fun _ => rfl
  trans := Eq.trans
  does := World.Does S

/-- One processing of a related resource, for a primary object on two different API servers. -/
structure RelatedPass where
  syncer : ResourceSyncer
  server : Server
  scope : Scope
  stateStore : KubernetesBackend
  remote : ObjectSide
  local' : ObjectSide
  sides : remote.client ≠ local'.client
  relRes : RelatedResourceSpec
  primaryDeleting : Bool

namespace RelatedPass

variable (P : RelatedPass)

def origin : ObjectSide := (ResourceSyncer.relatedSides P.remote P.local' P.relRes).1

def dest : ObjectSide := (ResourceSyncer.relatedSides P.remote P.local' P.relRes).2

def program : SyncM Bool :=
  P.syncer.processRelatedResource P.scope P.stateStore P.remote P.local' P.relRes P.primaryDeleting

def relScope : Scope := { P.scope with identifier := some P.relRes.identifier }

/-- The resolution that the processing begins with. -/
def resolution : SyncM (List ResolvedObject) :=
  resolveRelatedResourceObjects P.syncer.libs P.origin P.dest P.relScope false P.relRes

/-- The objects that are synced when the processing begins in `w`, none if they cannot be
resolved. -/
def resolvedIn (w : World) : List ResolvedObject :=
  (Fallible.eval (exec P.server) P.resolution w).1.toOption.getD []

def selector : Selector :=
  relatedCopySelector P.syncer.libs.hash P.remote.object P.remote.clusterName P.syncer.pubRes.name
    P.relRes.identifier P.syncer.agentName

/-- Why an object may be deleted in `w'` by a processing that began in `w`. -/
inductive Authorised (w w' : World) (id : ObjectId) : Prop
  /-- The deletion of the primary object is forwarded. -/
  | forwarded : P.primaryDeleting = true → P.relRes.origin = .kcp ∨
      P.relRes.effectiveCleanupPolicy = .onPrimaryDeletion ∨
      P.relRes.effectiveCleanupPolicy = .matchOrigin → Authorised w w' id
  /-- The user deletes the object in the workspace that it is a copy of. -/
  | origin {resolved : ResolvedObject} : P.relRes.origin = .kcp → resolved ∈ P.resolvedIn w →
      resolved.destination = ⟨id.ns, id.name⟩ →
      resolved.original.metadata.deletionTimestamp.isSome = true → Authorised w w' id
  /-- It is a copy of this primary object and related resource, but of no object that is synced. -/
  | unmatched : P.primaryDeleting = false → P.relRes.effectiveCleanupPolicy = .matchOrigin →
      (∀ o, w'.object? id = some o → P.selector o.metadata.labels = true) →
      (∀ resolved ∈ P.resolvedIn w, resolved.destination ≠ ⟨id.ns, id.name⟩) → Authorised w w' id

/-- A call that may be made in `w'`: if it deletes an object, that object is on the destination
side, of the type of the copies, and there is a reason. -/
def Permits (w : World) (c : Call) (w' : World) : Prop :=
  ∀ id policy, c.verb = .delete id policy → id.client = P.dest.client ∧
    P.syncer.libs.kindFor P.dest.client P.relRes.projectedGVR = .ok id.typeMeta ∧
    P.Authorised w w' id

/-- What the processing that began in `w` owes. -/
def duty (w : World) : Guarantee api World := ⟨OriginsKept P.origin.client w, P.Permits w⟩

theorem client_ne : P.dest.client ≠ P.origin.client := by
  unfold origin dest ResourceSyncer.relatedSides
  cases P.relRes.origin with
  | service => exact P.sides
  | kcp => exact P.sides.symm

variable {P} {w : World}

/-- A call that can be made at any time. -/
structure Harmless (P : RelatedPass) (w : World) (c : Call) : Prop where
  permits : ∀ s, P.Permits w c s
  keeps : ∀ s r s', OriginsKept P.origin.client w s → World.Does P.server c s r s' →
    OriginsKept P.origin.client w s'

theorem harmless_of_target {c : Call} (hdelete : ∀ id policy, c.verb ≠ .delete id policy)
    (hc : ∀ id, c.verb.target = some id → id.client = P.dest.client) : P.Harmless w c :=
  ⟨fun _ id policy h => absurd h (hdelete id policy), fun _ _ _ hs hd =>
    hs.of_frames hd.frames fun id hid => hc id hid ▸ P.client_ne⟩

theorem harmless_of_read {c : Call} (hc : c.failure = none) : P.Harmless w c := by
  refine harmless_of_target (fun id policy h => ?_) fun id hid => ?_
  · have htarget := (Call.target_of_failure_eq_none hc).1
    rw [h] at htarget
    cases htarget
  · rw [(Call.target_of_failure_eq_none hc).1] at hid
    cases hid

theorem harmless_of_write {c : Call} (hc : WriteCall P.dest.client c) : P.Harmless w c := by
  rcases hc with hread | hsecret | ⟨id, htarget, hid, hdelete⟩
  · exact harmless_of_read hread
  · obtain ⟨sid, hsid⟩ := Option.isSome_iff_exists.mp hsecret
    have hnone := Call.target_of_secretTarget hsid
    refine harmless_of_target (fun id policy h => ?_) fun id hid => ?_
    · rw [h] at hnone
      cases hnone
    · rw [hnone] at hid
      cases hid
  · refine harmless_of_target hdelete fun id' hid' => ?_
    cases htarget.symm.trans hid'
    exact hid

theorem harmless_of_delete {scope : Scope} {id : ObjectId} {policy : DeletionPropagation}
    (hid : id.client = P.dest.client)
    (hpermits : ∀ s, P.Permits w ⟨scope, .delete id policy⟩ s) :
    P.Harmless w ⟨scope, .delete id policy⟩ := by
  refine ⟨hpermits, fun s r s' hs hd => hs.of_frames hd.frames fun id' hid' => ?_⟩
  cases hid'
  exact hid ▸ P.client_ne

theorem keeps_of_harmless {α : Type} {p : SyncM α} (hp : p.AllCalls (P.Harmless w)) {s : World}
    (hs : OriginsKept P.origin.client w s) :
    Fallible.Keeps (calm P.server) (P.duty w) p (fun _ => OriginsKept P.origin.client w)
      (OriginsKept P.origin.client w) s :=
  .of_allCalls hp (fun _ h => h) (fun _ _ h (heq : _ = _) => heq ▸ h)
    (fun _ hc s _ => hc.permits s) (fun _ hc _ _ _ h hd => hc.keeps _ _ _ h hd) hs

theorem authorised_of_force (h : ResourceSyncer.forceDelete P.relRes P.primaryDeleting = true)
    (s : World) (id : ObjectId) : P.Authorised w s id := by
  simp only [ResourceSyncer.forceDelete, Bool.and_eq_true, Bool.or_eq_true, decide_eq_true_eq] at h
  obtain ⟨hdeleting, (hpolicy | hpolicy) | hkcp⟩ := h
  · exact .forwarded hdeleting (.inr (.inl hpolicy))
  · exact .forwarded hdeleting (.inr (.inr hpolicy))
  · exact .forwarded hdeleting (.inl hkcp)

theorem syncResolved_keeps {gvk : TypeMeta} {resolved : ResolvedObject} {s : World}
    (hkind : P.syncer.libs.kindFor P.dest.client P.relRes.projectedGVR = .ok gvk)
    (hresolved : resolved ∈ P.resolvedIn w)
    (hstored : w.object? (resolved.original.idOn P.origin.client) = some resolved.original)
    (hs : OriginsKept P.origin.client w s) :
    Fallible.Keeps (calm P.server) (P.duty w)
    (P.syncer.syncResolved P.relScope P.stateStore P.remote
      P.origin.toSyncSide P.dest.toSyncSide P.relRes P.primaryDeleting gvk resolved)
      (fun _ => OriginsKept P.origin.client w) (OriginsKept P.origin.client w) s := by
  let copy : ObjectId :=
    ⟨P.dest.client, gvk, resolved.destination.ns, resolved.destination.name⟩
  -- what is read under the name of the copy has this name
  refine .seq (P := fun found s => OriginsKept P.origin.client w s ∧
    ∀ d, found = .ok d → d.idOn P.dest.client = copy) (.request ?_) fun found s ⟨hs, hfound⟩ => ?_
  · rintro s₁ rfl
    refine ⟨fun id policy h => (by cases h), fun r s₂ hd => ?_⟩
    obtain ⟨hr, rfl⟩ := World.Does.get hd
    refine ⟨hs, hs, fun d hok => ?_⟩
    have hread : (s₂.object? copy).elim (Except.error ApiError.notFound) Except.ok = .ok d :=
      hr.symm.trans hok
    cases hobj : s₂.object? copy with
    | none =>
      rw [hobj] at hread
      cases hread
    | some o =>
      rw [hobj] at hread
      cases hread
      exact World.idOn_of_object? hobj
  · refine keeps_of_harmless (.bind (.mapError ?_) fun _ => .pure) hs
    have hpatch : ∀ finalizers : List String,
        (∀ f, f ≠ deletionFinalizer →
          (f ∈ finalizers ↔ f ∈ resolved.original.metadata.finalizers)) →
        P.Harmless w ⟨P.relScope, .patch (resolved.original.idOn P.origin.client)
          (P.syncer.libs.diff.create resolved.original.toFields
            { resolved.original with metadata.finalizers := finalizers }.toFields)⟩ :=
      fun finalizers hfin => ⟨fun _ id policy h => (by cases h), fun s₁ r s₂ hs₁ hd =>
        hs₁.of_patch hstored hfin hd⟩
    refine .mono ObjectSyncer.sync_calls fun c hc => ?_
    cases hc with
    | dest _ hc => exact harmless_of_write hc.write
    | @delete d policy hdel hblock hd =>
      have hid : d.idOn P.dest.client = copy := by
        cases found with
        | error e => cases hd
        | ok d' =>
          cases hd
          exact hfound d rfl
      refine harmless_of_delete rfl fun s₁ id policy hverb => ?_
      cases hverb
      refine ⟨rfl, (congrArg ObjectId.typeMeta hid) ▸ hkind, ?_⟩
      by_cases hforce : ResourceSyncer.forceDelete P.relRes P.primaryDeleting = true
      · exact authorised_of_force hforce s₁ _
      · have hkcp : P.relRes.origin = .kcp := by
          simpa [ResourceSyncer.relatedSyncer, hforce] using hblock
        refine .origin hkcp hresolved ?_ (hdel.resolve_right hforce)
        exact (congrArg (fun id : ObjectId => (⟨id.ns, id.name⟩ : NamespacedName)) hid).symm
    | release _ _ _ _ => exact hpatch _ fun f hf => by simp [mem_setsList, hf]
    | finalize _ _ _ => exact hpatch _ fun f hf => by simp [mem_setsList, hf]
    | status obj hback => cases hback

/-- The copies that are pruned still match the selector, also if they are in deletion already. -/
theorem pruneRelatedCopies_keeps {gvk : TypeMeta} {keep : Option (List String)}
    {policies : SortedMap String DeletionPropagation} {s : World}
    (hkind : P.syncer.libs.kindFor P.dest.client P.relRes.projectedGVR = .ok gvk)
    (hauthorised : ∀ item : Unstructured, ¬ ResourceSyncer.Kept keep item → ∀ s,
      (∀ o, s.object? (item.idOn P.dest.client) = some o → P.selector o.metadata.labels = true) →
      P.Authorised w s (item.idOn P.dest.client))
    (hs : OriginsKept P.origin.client w s) :
    Fallible.Keeps (calm P.server) (P.duty w) (ResourceSyncer.pruneRelatedCopies P.relScope
      P.dest.toSyncSide gvk P.selector keep policies)
      (fun _ => OriginsKept P.origin.client w) (OriginsKept P.origin.client w) s := by
  let Matching (items : List Unstructured) (s : World) : Prop :=
    OriginsKept P.origin.client w s ∧ ∀ item ∈ items, item.typeMeta = gvk ∧
      ∀ o, s.object? (item.idOn P.dest.client) = some o → P.selector o.metadata.labels = true
  refine .seq (P := Matching) (.mapError (.sendE ?_)) fun items s hmatching => ?_
  · rintro s₁ rfl
    refine ⟨fun id policy h => (by cases h), fun r s₂ hd => ?_⟩
    obtain ⟨rfl, rfl⟩ := World.Does.list hd
    refine ⟨hs, hs, fun item hitem => ?_⟩
    have hlisted := World.listed_of_mem hitem
    refine ⟨hlisted.typeMeta, fun o ho => ?_⟩
    cases hlisted.object.symm.trans ho
    exact hlisted.selector
  · refine .bind (.mono (.forEach (J := Matching items) (fun item hitem s hs => ?_) hmatching)
      (fun _ _ h => .pure h.1) fun _ h => h.1)
    unfold ResourceSyncer.pruneCopy
    split
    · exact .pure hs
    · next hnotKept =>
      split
      · exact .pure hs
      · refine .seq (P := fun _ => Matching items) (.request ?_) fun r s hs => ?_
        · rintro s₁ rfl
          have hkept : ¬ ResourceSyncer.Kept keep item := by
            rintro ⟨names, rfl, hmem⟩
            exact hnotKept (by simpa using hmem)
          have hpermits : ∀ s₁, Matching items s₁ → ∀ policy,
              P.Permits w ⟨P.relScope, .delete (item.idOn P.dest.client) policy⟩ s₁ := by
            intro s₁ hs₁ policy id policy' hverb
            cases hverb
            obtain ⟨rfl, hselector⟩ := hs₁.2 item hitem
            exact ⟨rfl, hkind, hauthorised item hkept s₁ hselector⟩
          refine ⟨hpermits s hs _, fun r s₂ hd => ?_⟩
          have horigins : OriginsKept P.origin.client w s₂ := by
            refine hs.1.of_frames hd.frames fun id hid => ?_
            cases hid
            exact P.client_ne
          refine ⟨horigins, horigins, fun other hother => ⟨(hs.2 other hother).1, fun o ho => ?_⟩⟩
          -- a deletion keeps the labels
          rcases World.Does.delete hd with ⟨e, -, rfl, -⟩ | ⟨cur, hcur, -, hkeeps, hdying⟩
          · exact (hs.2 other hother).2 o ho
          · obtain ⟨o₀, fins, time, rv, hold, rfl⟩ := hdying.before hkeeps hcur ho
            exact (hs.2 other hother).2 o₀ hold
        · split
          · exact .pure hs
          · exact .pure hs
          · exact .throw hs

theorem cleanUpRelatedCopies_keeps {gvk : TypeMeta} {resolvedObjects : List ResolvedObject}
    {requeue : Bool} {s : World}
    (hkind : P.syncer.libs.kindFor P.dest.client P.relRes.projectedGVR = .ok gvk)
    (hresolved : ∀ resolved ∈ P.resolvedIn w, resolved ∈ resolvedObjects)
    (hs : OriginsKept P.origin.client w s) :
    Fallible.Keeps (calm P.server) (P.duty w) (P.syncer.cleanUpRelatedCopies P.relScope P.remote
      P.origin P.dest P.relRes P.primaryDeleting gvk resolvedObjects requeue)
      (fun _ => OriginsKept P.origin.client w) (OriginsKept P.origin.client w) s := by
  unfold ResourceSyncer.cleanUpRelatedCopies
  dsimp only
  split
  · next hforwarded =>
    simp only [Bool.and_eq_true, Bool.or_eq_true, decide_eq_true_eq] at hforwarded
    refine .seq (.mapError (pruneRelatedCopies_keeps hkind (fun item _ s _ => ?_) hs))
      fun _ s hs => .pure hs
    exact .forwarded hforwarded.1 (.inr hforwarded.2)
  · split
    · next hmatch =>
      simp only [Bool.and_eq_true, Bool.not_eq_true', decide_eq_true_eq] at hmatch
      have hprune : ∀ s, OriginsKept P.origin.client w s →
          ∀ policies : SortedMap String DeletionPropagation,
          Fallible.Keeps (calm P.server) (P.duty w) (do
            let pruned ← wrap "failed to prune related copies" (ResourceSyncer.pruneRelatedCopies
              P.relScope P.dest.toSyncSide gvk P.selector (some (resolvedObjects.map fun resolved =>
                relatedCopyKey resolved.destination)) policies)
            return requeue || pruned) (fun _ => OriginsKept P.origin.client w)
            (OriginsKept P.origin.client w) s := by
        intro s hs policies
        refine .seq
          (.mapError (pruneRelatedCopies_keeps hkind (fun item hkept s hselector => ?_) hs))
          fun _ s hs => .pure hs
        refine .unmatched hmatch.1 hmatch.2 hselector fun resolved hmem heq => hkept ?_
        refine ⟨_, rfl, List.mem_map.mpr ⟨resolved, hresolved resolved hmem, ?_⟩⟩
        exact congrArg relatedCopyKey heq
      split
      · refine .seq (P := fun _ => OriginsKept P.origin.client w)
          (.mapError (keeps_of_harmless ?_ hs))
          fun checked s hs => ?_
        · unfold ResourceSyncer.confirmOriginEmpty
          split
          · exact .pure
          · exact .bind (Fallible.AllCalls.mono resolveRelatedResourceObjects_allCalls
              fun c hc => harmless_of_read hc.2) fun _ => .pure
        · split
          · exact .pure hs
          · exact .pure hs
          · exact hprune s hs _
      · exact hprune s hs _
    · exact .pure hs

theorem rememberRelatedObjects_harmless {resolvedObjects : List ResolvedObject}
    (hservice : P.relRes.origin = .service) :
    (P.syncer.rememberRelatedObjects P.scope P.remote P.relRes.identifier resolvedObjects).AllCalls
      (P.Harmless w) := by
  have hdest : P.dest = P.remote := by
    unfold dest ResourceSyncer.relatedSides
    rw [hservice]
  unfold ResourceSyncer.rememberRelatedObjects
  split
  · exact .pure
  · dsimp only
    split
    · exact .pure
    · refine .bind (.mapError (.sendE (harmless_of_target (fun id policy h => by cases h) ?_)))
        fun _ => .pure
      intro id hid
      cases hid
      rw [hdest]
      rfl

/-- The resolution is what it is in `w`, and it changes no object. -/
theorem resolution_keeps : Fallible.Keeps (calm P.server) (P.duty w) P.resolution
    (fun found s => OriginsKept P.origin.client w s ∧ found = P.resolvedIn w ∧ ∀ resolved ∈ found,
      w.object? (resolved.original.idOn P.origin.client) = some resolved.original)
    (OriginsKept P.origin.client w) w := by
  have hreads : ∀ c s (r : c.verb.Resp) s', c.failure = none → World.Does P.server c s r s' →
      exec P.server c s = (r, s') := by
    rintro c s r s' hc (h | ⟨hr, -⟩)
    · exact h
    · rw [hc] at hr
      cases hr
  have hkeeps := keeps_of_harmless (P := P) (w := w) (.mono resolveRelatedResourceObjects_allCalls
    fun c hc => harmless_of_read hc.2 : P.resolution.AllCalls _) (.refl _ w)
  refine Prog.Keeps.mono (Prog.Keeps.and_eval_of_allCalls resolveRelatedResourceObjects_allCalls
    (fun c hc s r s' hd => hreads c s r s' hc.2 hd) (fun _ _ h => h) hkeeps) ?_
  rintro (e | found) s ⟨hs, heval⟩
  · exact hs
  · have hreturns : Returns P.server P.resolution w found s := heval
    refine ⟨hs, ?_, fun resolved hmem => resolveRelatedResourceObjects_stored hreturns hmem⟩
    unfold resolvedIn
    rw [show Fallible.eval (exec P.server) P.resolution w = (.ok found, s) from heval]
    rfl

theorem program_keeps : Fallible.Keeps (calm P.server) (P.duty w) P.program
    (fun _ => OriginsKept P.origin.client w) (OriginsKept P.origin.client w) w := by
  refine .seq (.mapError resolution_keeps) fun found s ⟨hs, hfound, hstored⟩ => ?_
  have hmem : ∀ resolved, resolved ∈ ResourceSyncer.syncOrder found ↔ resolved ∈ found :=
    fun _ => (List.perm_insertionSort _ found).mem_iff
  refine .seq (P := fun gvk s => OriginsKept P.origin.client w s ∧
    P.syncer.libs.kindFor P.dest.client P.relRes.projectedGVR = .ok gvk)
    (wrapE_keeps (fun gvk hgvk => ⟨hs, ok_of_mapError hgvk⟩) fun _ _ => hs)
    fun gvk s ⟨hs, hkind⟩ => ?_
  refine .seq (P := fun _ => OriginsKept P.origin.client w)
    (.forEach (fun resolved hresolved s hs =>
    syncResolved_keeps hkind ?_ ?_ hs) hs) fun requeues s hs => ?_
  · exact hfound ▸ (hmem resolved).mp hresolved
  · exact hstored resolved ((hmem resolved).mp hresolved)
  refine .seq (P := fun _ => OriginsKept P.origin.client w) ?_ fun remembered s hs => ?_
  · split
    · next hservice => exact keeps_of_harmless (rememberRelatedObjects_harmless hservice) hs
    · exact .pure hs
  · split
    · exact .pure hs
    · exact cleanUpRelatedCopies_keeps hkind
        (fun resolved hresolved => (hmem resolved).mpr (hfound ▸ hresolved)) hs

/-- The processing that begins in `w`. -/
def starts (P : RelatedPass) (w s : World) (p : Prog api (Except Error Bool)) : Prop :=
  s = w ∧ p = P.program.run

/-- A processing of the sample's Secret, after the origin has got another name. -/
def renamed : RelatedPass where
  syncer := ResourceSyncer.sampleSyncer
  server := .setting
  scope := ResourceSyncer.sampleScope
  stateStore := ⟨⟨"system", "state"⟩, ∅⟩
  remote := ResourceSyncer.sampleRemote
  local' := ResourceSyncer.sampleLocal
  sides := by decide
  relRes := ResourceSyncer.secretNamed "other"
  primaryDeleting := false

end RelatedPass

end Sync
