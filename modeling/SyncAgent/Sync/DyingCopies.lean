import SyncAgent.Sync.Outcome
import SyncAgent.Sync.Runs

/-! What a sync does to a destination object that is in deletion.  `Fallible.SomeCall` is computed
function by function: whether a call of the sync touches the object or stores a new last-known
state. -/

namespace Sync

open Kube

/-- The call writes to an object, but not to create it, or it stores a last-known state. -/
def Disturbs (id : ObjectId) (c : Call) : Prop :=
  c.verb.target = some id ∧ (∀ client obj, c.verb ≠ .create client obj) ∨
    c.verb.secretTarget.isSome = true

theorem not_disturbs_of_read {id : ObjectId} {c : Call} (hc : c.failure = none) :
    ¬ Disturbs id c := by
  obtain ⟨htarget, hsecret⟩ := Call.target_of_failure_eq_none hc
  rintro (⟨h, -⟩ | h)
  · cases htarget.symm.trans h
  · rw [hsecret] at h
    cases h

namespace ObjectSyncer

variable {S : Server} {L : Libraries} {scope : Scope} {σ : ObjectSyncer}
  {sourceSide destSide : SyncSide} {source mutated : Unstructured}
  {dest dest' : Option Unstructured}
  {w : World} {id : ObjectId}

variable (σ destSide) in
/-- The name that a sync writes to: that of the object that was found, and in a server-side apply or
if none was found the one of the new destination object. -/
def writeTarget (mutated : Unstructured) (dest' : Option Unstructured) : Option ObjectId :=
  if σ.useServerSideApply ∨ dest' = none then
    (σ.destCreator mutated).toOption.map fun o => o.idOn destSide.client
  else dest'.map fun d => d.idOn destSide.client

variable (σ L sourceSide) in
/-- There is nothing to write to the destination object. -/
structure UpToDate (mutated d : Unstructured) (w : World) : Prop where
  stamped : σ.Stamped d
  unchanged : σ.Unchanged L sourceSide mutated d w
  status : σ.syncStatusForward = true → mutated.content.field "status" = d.content.field "status"

variable (σ L sourceSide) in
/-- The sync writes without regard to the object that is stored under the name: the source object is
synced, the object that was found is not in deletion if there is one, and there is something to
write. -/
structure Overwrites (source mutated : Unstructured) (dest' : Option Unstructured) (id : ObjectId)
    (w : World) : Prop where
  live : σ.Live source
  found : ∀ d, dest' = some d → d.metadata.deletionTimestamp = none
  writes : σ.useServerSideApply = false → dest'.elim (id.name ≠ "") fun d =>
    ¬ σ.UpToDate L sourceSide mutated d w

theorem client_writeTarget (h : σ.writeTarget destSide mutated dest' = some id) :
    id.client = destSide.client := by
  unfold writeTarget at h
  split at h
  · obtain ⟨_, -, rfl⟩ := Option.map_eq_some_iff.mp h
    rfl
  · obtain ⟨_, -, rfl⟩ := Option.map_eq_some_iff.mp h
    rfl

/-! ### The parts of a sync -/

theorem not_disturbs_create {client : Client} {obj : Unstructured} :
    ¬ Disturbs id ⟨scope, .create client obj⟩ := by
  rintro (⟨-, h⟩ | h)
  · exact h _ _ rfl
  · cases h

theorem not_someCall_ensureNamespace {client : Client} {ns : String} :
    ¬ Fallible.SomeCall (exec S) (Disturbs id) (ensureNamespace scope client ns) w := by
  refine Fallible.AllCalls.not_someCall ?_
  unfold ensureNamespace
  split
  · exact .pure
  · refine .bind (.request (not_disturbs_of_read rfl)) fun r => ?_
    split
    · exact .pure
    · refine .bind (.request not_disturbs_create) fun r => ?_
      split
      · exact .pure
      · exact .pure
      · exact .throw
    · exact .throw

theorem exists_eval_ensureNamespace (S : Server) (scope : Scope) (client : Client) (ns : String)
    (w : World) : ∃ w', Fallible.eval (exec S) (ensureNamespace scope client ns) w =
    (.ok (), w') := by
  unfold ensureNamespace
  split
  · exact ⟨w, rfl⟩
  · next hns =>
    cases hobj : w.object? ⟨client, namespaceType, "", ns⟩ with
    | some o =>
      have hget : exec S ⟨scope, .get ⟨client, namespaceType, "", ns⟩ false⟩ w = (.ok o, w) := by
        simp only [exec, hobj]
        rfl
      rw [Fallible.eval_bind, eval_request hget]
      exact ⟨w, rfl⟩
    | none =>
      have hget : exec S ⟨scope, .get ⟨client, namespaceType, "", ns⟩ false⟩ w =
          (.error .notFound, w) := by
        simp only [exec, hobj]
        rfl
      obtain ⟨o, w', hcreate⟩ : ∃ o w', w.createObject S client scope
          ⟨namespaceType, { name := ns }, default⟩ = (.ok o, w') := by
        unfold World.createObject
        rw [if_neg (by simpa using hns), if_neg (by simpa [Unstructured.idOn] using hobj)]
        exact ⟨_, _, rfl⟩
      rw [Fallible.eval_bind, eval_request hget]
      refine ⟨w', ?_⟩
      dsimp only
      rw [Fallible.eval_bind, eval_request hcreate]
      rfl

theorem someCall_put {obj : Unstructured} {clusterName : String} {subresources : List String}
    {b : KubernetesBackend} {hash : Hash} :
    Fallible.SomeCall (exec S) (Disturbs id)
      (ObjectStateStore.put hash b scope obj clusterName subresources) w := by
  unfold ObjectStateStore.put KubernetesBackend.put
  rw [Fallible.someCall_bind_of_eval (secret_eval S b scope w)]
  refine .inr ?_
  cases w.secret? b.secretName with
  | none => exact Fallible.someCall_sendE.mpr (.inr rfl)
  | some secret => exact Fallible.someCall_sendE.mpr (.inr rfl)

theorem persisted_of_stamped {d : Unstructured} (h : σ.Stamped d) :
    σ.ensureDestMetadataPersisted L scope destSide d = pure (false, d) := by
  unfold ensureDestMetadataPersisted
  split
  · rfl
  · exact if_pos h

theorem someCall_persisted {d : Unstructured} : Fallible.SomeCall (exec S) (Disturbs (d.idOn
      destSide.client)) (σ.ensureDestMetadataPersisted L scope destSide d) w ↔ ¬ σ.Stamped d := by
  by_cases hstamped : σ.Stamped d
  · rw [persisted_of_stamped hstamped, Fallible.someCall_pure]
    exact iff_of_false not_false (not_not_intro hstamped)
  · refine iff_of_true ?_ hstamped
    unfold ensureDestMetadataPersisted
    split
    · next hnone =>
      have hsame : σ.ensureDestMetadata d = d := by
        rw [ensureDestMetadata, hnone.1, hnone.2]
        rfl
      exact absurd ⟨by rw [hsame], by rw [hsame]⟩ hstamped
    · dsimp only
      split
      · next hsame => exact absurd hsame hstamped
      · rw [Fallible.someCall_bind]
        exact .inl (someCall_wrap.mpr (Fallible.someCall_sendE.mpr
          (.inl ⟨rfl, fun _ _ h => by cases h⟩)))

theorem eval_lastKnown : Fallible.eval (exec S) (wrap "failed to determine last known state"
      (ObjectStateStore.get L.hash σ.stateStore scope mutated sourceSide.clusterName)) w =
    (.ok (σ.lastKnown L sourceSide mutated w), w) :=
  eval_wrap (get_eval S σ.stateStore scope w mutated sourceSide.clusterName)

theorem not_someCall_lastKnown : ¬ Fallible.SomeCall (exec S) (Disturbs id)
    (wrap "failed to determine last known state"
      (ObjectStateStore.get L.hash σ.stateStore scope mutated sourceSide.clusterName)) w := by
  unfold wrap ObjectStateStore.get KubernetesBackend.get
  refine Fallible.AllCalls.not_someCall (.mapError (.bind (.bind ?_ fun _ => .pure) fun _ => .pure))
  unfold KubernetesBackend.secret
  refine .bind (.request (not_disturbs_of_read rfl)) fun r => ?_
  split
  · exact .pure
  · exact .pure
  · exact .throw

theorem someCall_spec {d : Unstructured} : Fallible.SomeCall (exec S) (Disturbs (d.idOn
      destSide.client)) (σ.syncObjectSpec L scope sourceSide destSide mutated d) w ↔
    ¬ σ.Unchanged L sourceSide mutated d w := by
  unfold syncObjectSpec Unchanged
  rw [Fallible.someCall_bind_of_eval eval_lastKnown, or_iff_right not_someCall_lastKnown]
  cases σ.lastKnown L sourceSide mutated w with
  | none =>
    refine iff_of_true ?_ fun ⟨_, h, _⟩ => by cases h
    rw [Fallible.someCall_bind]
    exact .inl (someCall_wrap.mpr (Fallible.someCall_sendE.mpr
      (.inl ⟨rfl, fun _ _ h => by cases h⟩)))
  | some last =>
    dsimp only
    split
    · next hclean =>
      rw [Fallible.someCall_pure]
      exact iff_of_false not_false (not_not_intro ⟨last, rfl, hclean⟩)
    · next hdiffer =>
      refine iff_of_true ?_ fun ⟨_, hlast, hclean⟩ => ?_
      · rw [Fallible.someCall_bind]
        exact .inl (someCall_wrap.mpr (Fallible.someCall_sendE.mpr
          (.inl ⟨rfl, fun _ _ h => by cases h⟩)))
      · cases hlast
        exact hdiffer hclean

theorem eval_spec_of_unchanged {d : Unstructured} (h : σ.Unchanged L sourceSide mutated d w) :
    Fallible.eval (exec S) (σ.syncObjectSpec L scope sourceSide destSide mutated d) w =
      (.ok (false, d), w) := by
  obtain ⟨last, hlast, hclean⟩ := h
  unfold syncObjectSpec
  rw [Fallible.eval_bind, eval_lastKnown, hlast]
  dsimp only
  rw [if_pos hclean]
  rfl

theorem someCall_forward {d : Unstructured} : Fallible.SomeCall (exec S) (Disturbs (d.idOn
      destSide.client)) (σ.syncObjectStatusForward scope destSide mutated d) w ↔
    ¬ (σ.syncStatusForward = true → mutated.content.field "status" = d.content.field "status") := by
  unfold syncObjectStatusForward
  cases hforward : σ.syncStatusForward with
  | false => simp
  | true =>
    rw [if_neg (by simp)]
    split
    · next hsame => simp [hsame]
    · next hdiffer =>
      refine iff_of_true ?_ fun h => hdiffer (h rfl)
      rw [Fallible.someCall_bind]
      exact .inl (Fallible.someCall_request.mpr (.inl ⟨rfl, fun _ _ h => by cases h⟩))

theorem not_someCall_status {d : Unstructured} (hid : id.client ≠ sourceSide.client) :
    ¬ Fallible.SomeCall (exec S) (Disturbs id)
      (σ.syncObjectStatus scope sourceSide mutated d) w := by
  refine Fallible.AllCalls.not_someCall ?_
  unfold syncObjectStatus
  split
  · exact .pure
  · split
    · exact .pure
    · refine .bind (.request ?_) fun r => ?_
      · rintro (⟨h, -⟩ | h)
        · cases h
          exact hid rfl
        · cases h
      · split
        · exact .pure
        · exact .throw

/-! ### The sync -/

theorem someCall_contents {d : Unstructured} (hclients : destSide.client ≠ sourceSide.client) :
    Fallible.SomeCall (exec S) (Disturbs (d.idOn destSide.client))
      (σ.syncObjectContents L scope sourceSide destSide mutated d) w ↔
    ¬ (σ.Unchanged L sourceSide mutated d w ∧
      (σ.syncStatusForward = true → mutated.content.field "status" =
        d.content.field "status")) := by
  unfold syncObjectContents
  by_cases hunchanged : σ.Unchanged L sourceSide mutated d w
  · rw [Fallible.someCall_bind_of_eval (eval_spec_of_unchanged hunchanged), someCall_spec,
      or_iff_right (not_not_intro hunchanged), and_iff_right hunchanged]
    rw [Fallible.someCall_bind, someCall_forward, or_iff_left]
    rintro ⟨-, w', -, h⟩
    rw [if_neg (by simp), Fallible.someCall_bind, or_iff_right (not_someCall_status hclients)] at h
    obtain ⟨_, _, -, h⟩ := h
    exact Fallible.someCall_pure.mp h
  · refine iff_of_true ?_ fun h => hunchanged h.1
    rw [Fallible.someCall_bind]
    exact .inl (someCall_spec.mpr hunchanged)

theorem resourceVersion_newDestination (destObj : Unstructured) :
    (σ.newDestination L sourceSide mutated destObj).metadata.resourceVersion = 0 := by
  unfold newDestination ensureDestMetadata linkMetadata labelWithAgent
  split
  · split <;> rfl
  · rfl

theorem someCall_ensureDestinationObject {destObj o : Unstructured}
    (hcreator : σ.destCreator mutated = .ok destObj)
    (ho : w.object? (destObj.idOn destSide.client) = some o) :
    Fallible.SomeCall (exec S) (Disturbs (destObj.idOn destSide.client))
      (σ.ensureDestinationObject L scope sourceSide destSide mutated) w ↔
    destObj.metadata.name ≠ "" := by
  obtain ⟨w', hns⟩ := exists_eval_ensureNamespace S scope destSide.client destObj.metadata.ns w
  have ho' : w'.object? (destObj.idOn destSide.client) = some o :=
    (ensureNamespace_returns hns).object?_of_some ho
  have hid := (newDestination_rest L σ sourceSide mutated destObj).1 destSide.client
  have hname : (σ.newDestination L sourceSide mutated destObj).metadata.name =
    destObj.metadata.name :=
    congrArg ObjectId.name hid
  unfold ensureDestinationObject
  rw [hcreator, Fallible.someCall_bind_of_eval
    (show Fallible.eval (exec S) (wrapE _ (.ok destObj)) w =
    (.ok destObj, w) from rfl), someCall_wrapE, false_or,
    Fallible.someCall_bind_of_eval (eval_wrap hns), someCall_wrap,
    or_iff_right not_someCall_ensureNamespace]
  dsimp only
  by_cases hempty : destObj.metadata.name = ""
  · -- an object without a name is refused
    have hcreate : exec S ⟨scope, .create destSide.client
        (σ.newDestination L sourceSide mutated destObj)⟩ w' = (.error .invalid, w') := by
      show w'.createObject S destSide.client scope _ = _
      exact if_pos (.inl (hname.trans hempty))
    rw [Fallible.someCall_bind_of_eval (eval_request hcreate)]
    refine iff_of_false ?_ (not_not_intro hempty)
    rintro (h | h)
    · exact not_disturbs_create (Fallible.someCall_request.mp h)
    · rw [Fallible.someCall_bind] at h
      rcases h with h | ⟨_, _, h, -⟩
      · exact Fallible.someCall_throw.mp h
      · cases h
  · have hcreate : exec S ⟨scope, .create destSide.client
        (σ.newDestination L sourceSide mutated destObj)⟩ w' = (.error .alreadyExists, w') := by
      show w'.createObject S destSide.client scope _ = _
      unfold World.createObject
      rw [if_neg, if_pos (by rw [hid, ho']; rfl)]
      rintro (h | h)
      · exact hempty (hname.symm.trans h)
      · exact h (resourceVersion_newDestination destObj)
    rw [Fallible.someCall_bind_of_eval (eval_request hcreate)]
    refine iff_of_true (.inr ?_) hempty
    dsimp only
    unfold adoptExistingDestinationObject
    split
    · -- nothing is adopted, but the state is stored
      rw [Fallible.someCall_bind_of_eval (eval_wrap rfl)]
      exact .inr (someCall_wrap.mpr someCall_put)
    · have hget : Fallible.eval (exec S) (get scope ((σ.newDestination L sourceSide mutated
          destObj).idOn destSide.client) false) w' = (.ok o, w') := by
        unfold get
        rw [Fallible.eval_sendE, hid]
        simp only [exec, ho']
        rfl
      rw [Fallible.someCall_bind, someCall_wrap, Fallible.someCall_bind_of_eval (eval_wrap hget),
        Fallible.someCall_bind]
      refine .inl (.inr (.inl (someCall_wrap.mpr (Fallible.someCall_sendE.mpr (.inl ⟨?_, ?_⟩)))))
      · have hadopted := (adopted_rest L σ o
          (newObjectKey mutated sourceSide.clusterName sourceSide.workspacePath)).1 destSide.client
        exact congrArg some (hadopted.trans (World.idOn_of_object? ho'))
      · intro _ _ h
        cases h

/-- Without regard to what is stored, the payload is applied unless the object that was found is in
deletion. -/
theorem someCall_apply {destObj : Unstructured} (hcreator : σ.destCreator mutated = .ok destObj) :
    Fallible.SomeCall (exec S) (Disturbs (destObj.idOn destSide.client))
      (σ.applyServerSide L scope sourceSide destSide mutated dest') w ↔
    ∀ d, dest' = some d → d.metadata.deletionTimestamp = none := by
  obtain ⟨w', hns⟩ := exists_eval_ensureNamespace S scope destSide.client destObj.metadata.ns w
  have hid := (newDestination_rest L σ sourceSide mutated destObj).1 destSide.client
  have hpayload : Disturbs (destObj.idOn destSide.client) ⟨scope, .apply destSide.client
      (σ.applyPayload L sourceSide mutated destObj) σ.fieldManager⟩ :=
    .inl ⟨congrArg some hid, fun _ _ h => by cases h⟩
  unfold applyServerSide
  rw [hcreator, Fallible.someCall_bind_of_eval
    (show Fallible.eval (exec S) (wrapE _ (.ok destObj)) w =
    (.ok destObj, w) from rfl), someCall_wrapE, false_or,
    Fallible.someCall_bind_of_eval (eval_wrap hns), someCall_wrap,
    or_iff_right not_someCall_ensureNamespace]
  dsimp only
  cases dest' with
  | none =>
    refine iff_of_true ?_ fun _ h => by cases h
    rw [Fallible.someCall_bind]
    exact .inl (someCall_wrap.mpr (Fallible.someCall_sendE.mpr hpayload))
  | some d =>
    dsimp only
    cases hdying : d.metadata.deletionTimestamp with
    | some time =>
      rw [if_pos (by simp), Fallible.someCall_pure]
      refine iff_of_false not_false fun h => ?_
      cases hdying.symm.trans (h d rfl)
    | none =>
      rw [if_neg (by simp), Fallible.someCall_bind]
      refine iff_of_true (.inl (someCall_wrap.mpr (Fallible.someCall_sendE.mpr hpayload))) ?_
      rintro _ ⟨⟩
      exact hdying

theorem someCall_syncMutated {o : Unstructured} (hclients : destSide.client ≠ sourceSide.client)
    (htarget : σ.writeTarget destSide mutated dest' = some id) (ho : w.object? id = some o) :
    Fallible.SomeCall (exec S) (Disturbs id)
      (σ.syncMutated L scope sourceSide destSide mutated dest') w ↔
    (∀ d, dest' = some d → d.metadata.deletionTimestamp = none) ∧
      (σ.useServerSideApply = false → dest'.elim (id.name ≠ "") fun d =>
        ¬ σ.UpToDate L sourceSide mutated d w) := by
  have hcreated : σ.useServerSideApply = true ∨ dest' = none → ∃ destObj,
      σ.destCreator mutated = .ok destObj ∧ id = destObj.idOn destSide.client := by
    intro h
    rw [writeTarget, if_pos h] at htarget
    obtain ⟨destObj, hcreator, rfl⟩ := Option.map_eq_some_iff.mp htarget
    refine ⟨destObj, ?_, rfl⟩
    cases hresult : σ.destCreator mutated with
    | error e =>
      rw [hresult] at hcreator
      cases hcreator
    | ok destObj' =>
      rw [hresult] at hcreator
      cases hcreator
      rfl
  unfold syncMutated
  cases hssa : σ.useServerSideApply with
  | true =>
    obtain ⟨destObj, hcreator, rfl⟩ := hcreated (.inl hssa)
    rw [if_pos rfl, Fallible.someCall_bind, someCall_wrap, someCall_apply hcreator, or_iff_left]
    · exact ⟨fun h => ⟨h, fun h => by cases h⟩, fun h => h.1⟩
    · -- the status is written on the other side
      rintro ⟨newDest, w', -, h⟩
      split at h
      · exact Fallible.someCall_pure.mp h
      · split at h
        · exact Fallible.someCall_pure.mp h
        · rw [Fallible.someCall_bind, or_iff_right (not_someCall_status hclients)] at h
          obtain ⟨_, _, -, h⟩ := h
          exact Fallible.someCall_pure.mp h
  | false =>
    rw [if_neg (by simp)]
    cases dest' with
    | none =>
      obtain ⟨destObj, hcreator, rfl⟩ := hcreated (.inr rfl)
      dsimp only
      rw [Fallible.someCall_bind, someCall_wrap, someCall_ensureDestinationObject hcreator ho,
        or_iff_left]
      · exact ⟨fun h => ⟨fun _ hnone => (by cases hnone), fun _ => h⟩, fun h => h.2 rfl⟩
      · rintro ⟨_, _, -, h⟩
        exact Fallible.someCall_pure.mp h
    | some d =>
      obtain rfl : d.idOn destSide.client = id := by
        rw [writeTarget, if_neg (by simp [hssa])] at htarget
        exact Option.some.inj htarget
      dsimp only
      cases hdying : d.metadata.deletionTimestamp with
      | some time =>
        rw [if_pos (by simp), Fallible.someCall_pure]
        refine iff_of_false not_false fun h => ?_
        cases hdying.symm.trans (h.1 d rfl)
      | none =>
        have hlive : ∀ d', some d = some d' → d'.metadata.deletionTimestamp = none := by
          rintro _ ⟨⟩
          exact hdying
        rw [if_neg (by simp), and_iff_right hlive, forall_prop_of_true rfl, Option.elim_some]
        by_cases hstamped : σ.Stamped d
        · rw [persisted_of_stamped hstamped, Fallible.someCall_bind_of_eval (eval_wrap rfl),
            someCall_wrap, Fallible.someCall_pure, false_or]
          dsimp only
          rw [if_neg (by simp), someCall_wrap, someCall_contents hclients]
          exact not_congr ⟨fun h => ⟨hstamped, h.1, h.2⟩, fun h => ⟨h.unchanged, h.status⟩⟩
        · refine iff_of_true ?_ fun h => hstamped h.stamped
          rw [Fallible.someCall_bind, someCall_wrap]
          exact .inl (someCall_persisted.mpr hstamped)

/-- A source object that is synced: nothing comes before the mutations. -/
theorem sync_of_live (hlive : σ.Live source) :
    σ.sync L scope sourceSide destSide source dest = (do
      let (mutated, dest') ← wrapE "failed to apply mutations" (σ.applyMutations source dest)
      let (requeue, synced) ← σ.syncMutated L scope sourceSide destSide mutated dest'
      return (requeue, if σ.mutator.isSome then source else synced)) := by
  have hfinalizer : (if σ.blockSourceDeletion = true then
      wrap "failed to add cleanup finalizer to source object"
        (ensureFinalizer L.diff scope sourceSide.client source)
      else pure (false, source) : SyncM (Bool × Unstructured)) = pure (false, source) := by
    split
    · next hblock =>
      rw [ensureFinalizer, if_pos (hlive.guarded hblock)]
      rfl
    · rfl
  unfold sync
  rw [if_neg (by simp [hlive.notDeleting, hlive.notForced]), hfinalizer]
  rfl

/-- A source object that is not to be deleted: the finalizer is put on it, or it is synced. -/
theorem someCall_sync {P : Call → Prop} (hdel : ¬ σ.Deleting source)
    (hP : ∀ id patch, id.client = sourceSide.client → ¬ P ⟨scope, .patch id patch⟩) :
    Fallible.SomeCall (exec S) P (σ.sync L scope sourceSide destSide source dest) w ↔
    σ.Live source ∧ ∃ mutated dest', σ.applyMutations source dest = .ok (mutated, dest') ∧
      Fallible.SomeCall (exec S) P (σ.syncMutated L scope sourceSide destSide mutated dest') w := by
  obtain ⟨hlive, hforce⟩ : source.metadata.deletionTimestamp = none ∧ σ.forceDelete = false := by
    simpa [Deleting] using hdel
  by_cases hguarded : σ.Live source
  · rw [and_iff_right hguarded, sync_of_live hguarded, Fallible.someCall_bind,
      someCall_wrapE, false_or]
    constructor
    · rintro ⟨⟨mutated, dest'⟩, w', heval, h⟩
      obtain ⟨hmutations, rfl⟩ := Returns.wrapE heval
      refine ⟨mutated, dest', hmutations, ?_⟩
      rcases Fallible.someCall_bind.mp h with h | ⟨_, _, -, h⟩
      · exact h
      · exact (Fallible.someCall_pure.mp h).elim
    · rintro ⟨mutated, dest', hmutations, h⟩
      rw [hmutations]
      exact ⟨_, w, rfl, Fallible.someCall_bind.mpr (.inl h)⟩
  · -- nothing but the patch of the source object
    refine iff_of_false ?_ fun h => hguarded h.1
    obtain ⟨hblock, hcontains⟩ : σ.blockSourceDeletion = true ∧
        ¬ source.metadata.finalizers.contains deletionFinalizer = true := by
      by_contra h
      exact hguarded ⟨hlive, hforce, fun hblock => by_contra fun hc => h ⟨hblock, hc⟩⟩
    unfold sync
    rw [if_neg (by simp [hlive, hforce]), if_pos hblock, ensureFinalizer, if_neg hcontains,
      Fallible.someCall_bind, someCall_wrap, Fallible.someCall_bind]
    rintro ((h | ⟨_, _, -, h⟩) | ⟨⟨updated, source'⟩, w', heval, h⟩)
    · exact hP _ _ rfl (Fallible.someCall_sendE.mp h)
    · exact Fallible.someCall_pure.mp h
    · obtain ⟨_, _, -, hend⟩ := (Returns.wrap heval).bind
      cases hend
      exact Fallible.someCall_pure.mp h

/-- Where an object in deletion is stored under the name that a sync writes to, the sync leaves it
alone and stores no state, unless it writes without regard to that object. -/
theorem dying_left_alone_iff (hclients : sourceSide.client ≠ destSide.client)
    (hdel : ¬ σ.Deleting source) (hmutations : σ.applyMutations source dest = .ok (mutated, dest'))
    (htarget : σ.writeTarget destSide mutated dest' = some id)
    (hdying : ∃ o, w.object? id = some o ∧ o.metadata.deletionTimestamp.isSome = true) :
    (∀ c ∈ Fallible.calls (exec S) (σ.sync L scope sourceSide destSide source dest) w,
      ¬ Disturbs id c) ↔ ¬ σ.Overwrites L sourceSide source mutated dest' id w := by
  obtain ⟨o, ho, -⟩ := hdying
  have hid : id.client ≠ sourceSide.client := client_writeTarget htarget ▸ hclients.symm
  have hpatch : ∀ id' patch, id'.client = sourceSide.client →
      ¬ Disturbs id ⟨scope, .patch id' patch⟩ := by
    rintro id' patch hid' (⟨h, -⟩ | h)
    · cases h
      exact hid hid'
    · cases h
  have hcalls : (∀ c ∈ Fallible.calls (exec S) (σ.sync L scope sourceSide destSide source dest) w,
      ¬ Disturbs id c) ↔ ¬ Fallible.SomeCall (exec S) (Disturbs id)
        (σ.sync L scope sourceSide destSide source dest) w := by
    simp [Fallible.SomeCall]
  rw [hcalls, someCall_sync hdel hpatch]
  refine not_congr ⟨?_, fun h => ⟨h.live, mutated, dest', hmutations, ?_⟩⟩
  · rintro ⟨hlive, _, _, hmutations', h⟩
    cases hmutations.symm.trans hmutations'
    obtain ⟨hfound, hwrites⟩ := (someCall_syncMutated hclients.symm htarget ho).mp h
    exact ⟨hlive, hfound, hwrites⟩
  · exact (someCall_syncMutated hclients.symm htarget ho).mpr ⟨h.found, h.writes⟩

/-! ### A copy in deletion -/

/-- The sample's local object, in deletion and without labels. -/
def dyingCopy : Unstructured :=
  ⟨crontabType,
    { name := "daily"
      ns := "tenant"
      deletionTimestamp := some 5
      finalizers := ["example.com/hold"]
      resourceVersion := 3 }, default⟩

/-- The sample with its local object in deletion. -/
def dyingCopyWorld : World := (Primary.sampleWorld ∅ default).put .localClient dyingCopy

/-- The syncer of the sample, in both modes. -/
def sampleSyncer (ssa : Bool) : ObjectSyncer :=
  { (Primary.sample []).syncerOf (Primary.sampleObject ∅ default) with useServerSideApply := ssa }

/-- The sync of the sample with what was found of its local object. -/
def syncSample (ssa : Bool) (dest : Option Unstructured) : SyncM (Bool × Unstructured) :=
  (sampleSyncer ssa).sync .sample (Primary.sample []).scope (ResourceSyncer.remoteSide "c1" "root")
    ResourceSyncer.localSide (Primary.sampleObject ∅ default) dest

/-- Where the sample's local object is. -/
def localId : ObjectId := ⟨.localClient, crontabType, "tenant", "daily"⟩

theorem object?_dyingCopyWorld : dyingCopyWorld.object? localId = some dyingCopy := by
  unfold dyingCopyWorld
  rw [World.object?_put]
  exact if_pos rfl

theorem dying_left_alone_found :
    (∀ c ∈ Fallible.calls (exec .setting) (syncSample false (some dyingCopy)) dyingCopyWorld,
      ¬ Disturbs localId c) ∧
    ∀ c ∈ Fallible.calls (exec .setting) (syncSample true (some dyingCopy)) dyingCopyWorld,
      ¬ Disturbs localId c := by
  have hdel : ∀ ssa, ¬ (sampleSyncer ssa).Deleting (Primary.sampleObject ∅ default) := by
    rintro ssa (h | h)
    · cases h
    · cases h
  have hdying : ∃ o, dyingCopyWorld.object? localId = some o ∧
      o.metadata.deletionTimestamp.isSome = true := ⟨_, object?_dyingCopyWorld, rfl⟩
  have hfound : ∀ ssa mutated, ¬ (sampleSyncer ssa).Overwrites .sample
      (ResourceSyncer.remoteSide "c1" "root")
      (Primary.sampleObject ∅ default) mutated (some dyingCopy)
      localId dyingCopyWorld := fun _ _ h => by cases h.found dyingCopy rfl
  constructor
  · exact (dying_left_alone_iff (by decide) (hdel false) rfl rfl hdying).mpr (hfound false _)
  · exact (dying_left_alone_iff (by decide) (hdel true) rfl (by decide +kernel) hdying).mpr
      (hfound true _)

/-- The local object is in deletion, but it was not found through its labels: it is updated and a
state is stored, and a server-side apply writes to it as well. -/
theorem dying_copy_written :
    (∃ c ∈ Fallible.calls (exec .setting) (syncSample false none) dyingCopyWorld,
      Disturbs localId c) ∧
    ∃ c ∈ Fallible.calls (exec .setting) (syncSample true none) dyingCopyWorld,
      Disturbs localId c := by
  have hexists : ∀ ssa, ((Fallible.calls (exec .setting) (syncSample ssa none) dyingCopyWorld).any
      fun c => c.verb.target = some localId && match c.verb with
        | .create _ _ => false
        | _ => true) = true → ∃ c ∈ Fallible.calls (exec .setting)
            (syncSample ssa none) dyingCopyWorld,
      Disturbs localId c := by
    intro ssa htest
    obtain ⟨c, hc, htest⟩ := List.any_eq_true.mp htest
    simp only [Bool.and_eq_true, decide_eq_true_eq] at htest
    refine ⟨c, hc, .inl ⟨htest.1, fun client obj hverb => ?_⟩⟩
    rw [hverb] at htest
    cases htest.2
  exact ⟨hexists false (by decide +kernel), hexists true (by decide +kernel)⟩

end ObjectSyncer

end Sync
