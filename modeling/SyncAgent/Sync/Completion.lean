import SyncAgent.Sync.Finalizers
import SyncAgent.Sync.StatusBack

/-! What it means that `Process` returns without asking for a requeue: all related resources were
processed, with the two primary objects as the servers have them. -/

namespace Sync

open Kube

/-- An object that is rewritten without a change stays as it is, and otherwise it does not. -/
theorem store_eq_iff {w : World} {client : Client} {cur next : Unstructured}
    (hcur : w.object? (cur.idOn client) = some cur) (hid : next.idOn client = cur.idOn client)
    (hversion : next.metadata.resourceVersion = cur.metadata.resourceVersion) :
    (w.store client cur next).2.object? (cur.idOn client) = some cur ↔ next = cur := by
  unfold World.store
  split
  · next heq => exact ⟨fun _ => heq, fun _ => hcur⟩
  · next hne =>
    refine ⟨fun hstored => ?_, fun heq => absurd heq hne⟩
    split at hstored
    · simp at hstored
    · rw [World.object?_write, hid, if_pos rfl, Option.some.injEq] at hstored
      -- the new version is the old one only if the version number is
      have hrv : w.clock + 1 = cur.metadata.resourceVersion :=
        congrArg (·.metadata.resourceVersion) hstored
      rw [← hstored]
      show next = { next with metadata := { next.metadata with resourceVersion := w.clock + 1 } }
      rw [hrv, ← hversion]

theorem applied_eq_iff {S : Server} {scope : Scope} {client : Client} {obj o : Unstructured}
    {fieldManager : String} {w w' : World}
    (h : exec S ⟨scope, .apply client obj fieldManager⟩ w = (.ok o, w')) :
    w'.object? (obj.idOn client) = w.object? (obj.idOn client) ↔
      ∃ cur, w.object? (obj.idOn client) = some cur ∧
        S.settle client cur (World.appliedOver S cur obj fieldManager) = cur := by
  rcases World.applyObject_cases S w client scope obj fieldManager with
    he | ⟨hnone, o', w₁, ho, hplaced, rfl⟩ | ⟨cur, next, hcur, rfl, ho⟩
  · cases he.symm.trans h
  · cases ho.symm.trans h
    have hid : o.idOn client = obj.idOn client := by rw [hplaced]; rfl
    rw [hnone, World.object?_record, World.object?_tick, World.object?_put, hid, if_pos rfl]
    exact ⟨(fun h => by cases h), (fun ⟨_, h, _⟩ => by cases h)⟩
  · cases ho.symm.trans h
    have hid : cur.idOn client = obj.idOn client := World.idOn_of_object? hcur
    rw [hcur]
    rw [← hid] at hcur ⊢
    rw [store_eq_iff hcur (show (S.settle client cur
      (World.appliedOver S cur obj fieldManager)).idOn client = cur.idOn client from rfl) rfl]
    exact ⟨fun heq => ⟨cur, rfl, heq⟩, fun ⟨cur', hcur', heq⟩ => by cases hcur'; exact heq⟩

namespace Primary

variable (P : Primary)

/-- The two primary objects are those on the servers, but for their status. -/
structure AsStored (r₁ l : Unstructured) (w : World) : Prop where
  remote : ∃ o, w.object? P.id = some o ∧ o.withoutStatus = r₁.withoutStatus
  local' : ∃ o, w.object? (l.idOn .localClient) = some o ∧ o.withoutStatus = l.withoutStatus

/-- The processing of one related resource, with the two primary objects. -/
def processRelated (r₁ l : Unstructured) (relRes : RelatedResourceSpec) : SyncM Bool :=
  P.syncer.processRelatedResource P.scope P.store
    ⟨ResourceSyncer.remoteSide P.clusterName P.workspacePath, r₁⟩ ⟨ResourceSyncer.localSide, l⟩
    relRes false

/-- A call of `Process` was complete: it has found the local object `l`, `Sync` has asked for no
requeue and left the local object alone, and every related resource was processed, with `l` and the
remote object `r₁` as the servers have them. -/
structure Completed (r : Unstructured) (w w' : World) (l r₁ : Unstructured) (w₁ : World) :
    Prop where
  found : P.syncer.copies P.clusterName P.workspacePath r w = [l]
  synced : Returns P.server (P.sync r (some l)) w (false, r₁) w₁
  untouched : ∀ mutated dest' id, (P.syncerOf r).applyMutations r (some l) = .ok (mutated, dest') →
    P.destinationId r mutated (some l) = some id → w₁.object? id = w.object? id
  current : P.AsStored r₁ l w₁
  related : Returns.Each P.server (P.processRelated r₁ l) P.syncer.pubRes.related w₁
    (P.syncer.pubRes.related.map fun _ => false) w'

/-- Each related resource was processed with the two primary objects as the servers had them when
its processing began, after those before it. -/
def StayAsStored (r₁ l : Unstructured) (w₁ : World) : Prop :=
  ∀ before relRes after, P.syncer.pubRes.related = before ++ relRes :: after → ∃ wa wb,
    Returns.Each P.server (P.processRelated r₁ l) before w₁ (before.map fun _ => false) wa ∧
    Returns P.server (P.processRelated r₁ l relRes) wa false wb ∧ P.AsStored r₁ l wa

/-- Whatever the servers hold, an object of the related resource can have its copy at this place. -/
def CopyPlace (r₁ l : Unstructured) (relRes : RelatedResourceSpec) (id : ObjectId) : Prop :=
  let sides := ResourceSyncer.relatedSides
    ⟨ResourceSyncer.remoteSide P.clusterName P.workspacePath, r₁⟩
    ⟨ResourceSyncer.localSide, l⟩ relRes
  ∃ found t w w₁, Returns P.server (resolveRelatedResourceObjects P.syncer.libs sides.1 sides.2
      { P.scope with identifier := some relRes.identifier } false relRes) w found w₁ ∧
    P.syncer.libs.kindFor sides.2.client relRes.projectedGVR = .ok t ∧
    ∃ resolved ∈ found, id = ⟨sides.2.client, t, resolved.destination.ns, resolved.destination.name⟩

/-- No related resource has copies where the two primary objects are. -/
def CopiesElsewhere (r₁ l : Unstructured) : Prop :=
  ∀ relRes ∈ P.syncer.pubRes.related,
    ¬ P.CopyPlace r₁ l relRes P.id ∧ ¬ P.CopyPlace r₁ l relRes (l.idOn .localClient)

/-- A server-side apply of the remote object changes nothing: there is a local object, and the
object at the generated name is already as the apply would leave it. -/
def ApplyIdle (r : Unstructured) (w : World) : Prop :=
  ∃ l mutated d', P.syncer.copies P.clusterName P.workspacePath r w = [l] ∧
    (P.syncerOf r).applyMutations r (some l) = .ok (mutated, some d') ∧
    (d'.metadata.deletionTimestamp.isSome = true ∨
      ∃ destObj cur, (P.syncerOf r).destCreator mutated = .ok destObj ∧
        w.object? (destObj.idOn .localClient) = some cur ∧
        P.server.settle .localClient cur (World.appliedOver P.server cur
          ((P.syncerOf r).applyPayload P.syncer.libs
            (ResourceSyncer.remoteSide P.clusterName P.workspacePath) mutated destObj)
          (P.syncerOf r).fieldManager) = cur)

section Sync

variable {P} {r l mutated source' : Unstructured} {dest' : Option Unstructured} {w w₁ : World}

/-- After the status sync, the remote object that `Sync` returns is the stored one, but for its
status. -/
theorem remote_current {x : Unstructured} (hr : w.object? P.id = some r)
    (hlive : r.metadata.deletionTimestamp = none)
    (hmutated : (P.syncerOf r).mutator = none → mutated = r)
    (h : (P.syncerOf r).StatusOutcome P.server P.scope
      (ResourceSyncer.remoteSide P.clusterName P.workspacePath) mutated x w source' w₁) :
    ∃ o, w₁.object? P.id = some o ∧
      o.withoutStatus = (if (P.syncerOf r).mutator.isSome then r else source').withoutStatus := by
  cases hmutator : (P.syncerOf r).mutator with
  | some mutator => exact h.statusOnly.kept P.id r hr hlive
  | none =>
    obtain rfl := hmutated hmutator
    cases h with
    | off => exact ⟨mutated, hr, rfl⟩
    | same => exact ⟨mutated, hr, rfl⟩
    | written _ _ hexec =>
      rcases World.Does.updateStatus (.inl hexec) with ⟨e, he, -⟩ | ⟨cur, o, hcur, ho, -, -, hrew⟩
      · cases he
      · cases ho
        have hid : mutated.idOn (.remoteClient P.clusterName) = P.id := World.idOn_of_object? hr
        obtain rfl : cur = mutated := by
          rw [← hid] at hr
          exact Option.some.inj (hcur.symm.trans hr)
        exact ⟨_, hid ▸ hrew.stored hlive, rfl⟩

variable (hr : w.object? P.id = some r) (hlive : r.metadata.deletionTimestamp = none)
  (hmutations : (P.syncerOf r).applyMutations r (some l) = .ok (mutated, dest'))
  (h : (P.syncerOf r).MutatedOutcome P.server P.syncer.libs P.scope
    (ResourceSyncer.remoteSide P.clusterName P.workspacePath) ResourceSyncer.localSide mutated w
    dest' false source' w₁)

omit hr hlive h in
theorem mutated_eq (hmutations : (P.syncerOf r).applyMutations r (some l) = .ok (mutated, dest'))
    (hmutator : (P.syncerOf r).mutator = none) : mutated = r := by
  rcases ObjectSyncer.applyMutations_ok hmutations with ⟨-, rfl, -⟩ | ⟨_, _, hsome, -⟩
  · rfl
  · cases hmutator.symm.trans hsome

include hr hlive hmutations h

/-- In merge mode a `Sync` that asks for no requeue leaves the local objects alone. -/
theorem merge_current (hmerge : P.syncer.useServerSideApply = false) :
    w.StatusOnly w₁ ∧ (∀ id : ObjectId, id.client = .localClient → w₁.object? id = w.object? id) ∧
    ∃ o, w₁.object? P.id = some o ∧
      o.withoutStatus = (if (P.syncerOf r).mutator.isSome then r else source').withoutStatus := by
  cases h with
  | skipped =>
    refine ⟨.refl _, fun _ _ => rfl, r, hr, ?_⟩
    split
    · rfl
    · next hnone => rw [mutated_eq hmutations (by simpa using hnone)]
  | unchanged _ _ _ hspec hforward hstatus =>
    cases hspec with
    | clean =>
      obtain rfl := hforward.eq_of_off rfl
      refine ⟨hstatus.statusOnly, fun id hid => hstatus.object? ?_,
        remote_current hr hlive (mutated_eq hmutations) hstatus⟩
      rw [hid]
      exact fun h => by cases h
  | applied hssa => cases hmerge.symm.trans hssa
  | notApplied hssa => cases hmerge.symm.trans hssa

/-- A server-side apply leaves all local objects alone but the one at the generated name, and that
one exactly when it changes nothing. -/
theorem apply_current (hssa : P.syncer.useServerSideApply = true) :
    ∃ destObj, (P.syncerOf r).destCreator mutated = .ok destObj ∧
    (∀ id o, id.client = .localClient → id ≠ destObj.idOn .localClient → w.object? id = some o →
      w₁.object? id = some o) ∧
    (w₁.object? (destObj.idOn .localClient) = w.object? (destObj.idOn .localClient) ↔
      (∃ d', dest' = some d' ∧ d'.metadata.deletionTimestamp.isSome = true) ∨
      ∃ cur, w.object? (destObj.idOn .localClient) = some cur ∧
        P.server.settle .localClient cur (World.appliedOver P.server cur
          ((P.syncerOf r).applyPayload P.syncer.libs
            (ResourceSyncer.remoteSide P.clusterName P.workspacePath) mutated destObj)
          (P.syncerOf r).fieldManager) = cur) ∧
    ∃ o, w₁.object? P.id = some o ∧
      o.withoutStatus = (if (P.syncerOf r).mutator.isSome then r else source').withoutStatus := by
  cases h with
  | @notApplied d' destObj _ _ hdying hcreator hns =>
    refine ⟨destObj, hcreator, fun id o _ _ ho => hns.object?_of_some ho, ?_, r,
      hns.object?_of_some hr, ?_⟩
    · exact ⟨fun _ => .inl ⟨d', rfl, hdying⟩, fun _ => hns.object?_of_ns rfl⟩
    · split
      · rfl
      · next hnone => rw [mutated_eq hmutations (by simpa using hnone)]
  | @applied _ destObj o _ w₂ w₃ _ _ hdest hcreator hns happly hrest =>
    have hpayload : ((P.syncerOf r).applyPayload P.syncer.libs
        (ResourceSyncer.remoteSide P.clusterName P.workspacePath) mutated
        destObj).idOn .localClient =
        destObj.idOn .localClient :=
      (ObjectSyncer.newDestination_rest P.syncer.libs (P.syncerOf r)
        (ResourceSyncer.remoteSide P.clusterName P.workspacePath) mutated destObj).1 .localClient
    have hframe : ∀ id, id ≠ destObj.idOn .localClient → w₃.object? id = w₂.object? id := by
      intro id hid
      refine (World.Does.frames (.inl happly)).objects id fun heq => hid ?_
      exact (Option.some.inj heq).symm.trans hpayload
    have hremote : w₃.object? P.id = some r := by
      rw [hframe P.id fun heq => by cases congrArg ObjectId.client heq]
      exact hns.object?_of_some hr
    have hlocal : ∀ id : ObjectId, id.client = .localClient → w₁.object? id = w₃.object? id := by
      intro id hid
      rcases hrest with ⟨-, -, rfl⟩ | ⟨-, hstatus⟩
      · rfl
      · refine hstatus.object? ?_
        rw [hid]
        exact fun h => by cases h
    have hidle := applied_eq_iff happly
    rw [show (ResourceSyncer.localSide.client) = .localClient from rfl, hpayload,
      hns.object?_of_ns (show (destObj.idOn .localClient).ns = _ from rfl)] at hidle
    refine ⟨destObj, hcreator, fun id o' hid hne ho' => ?_, ?_, ?_⟩
    · rw [hlocal id hid, hframe id hne]
      exact hns.object?_of_some ho'
    · rw [hlocal _ rfl, hidle]
      refine ⟨.inr, ?_⟩
      rintro (⟨d', hd', hdying⟩ | hsame)
      · rw [hdest d' hd'] at hdying
        cases hdying
      · exact hsame
    · rcases hrest with ⟨-, rfl, rfl⟩ | ⟨-, hstatus⟩
      · refine ⟨r, hremote, ?_⟩
        split
        · rfl
        · next hnone => rw [mutated_eq hmutations (by simpa using hnone)]
      · exact remote_current hremote hlive (mutated_eq hmutations) hstatus
  | skipped hmerge => cases hssa.symm.trans hmerge
  | unchanged hmerge => cases hssa.symm.trans hmerge

end Sync

/-- What is stored stays so while only statuses change. -/
theorem AsStored.of_statusOnly {P : Primary} {r₁ l : Unstructured} {w w' : World}
    (h : P.AsStored r₁ l w) (hremote : r₁.metadata.deletionTimestamp = none)
    (hlocal : l.metadata.deletionTimestamp = none) (hstatus : w.StatusOnly w') :
    P.AsStored r₁ l w' := by
  have hstored : ∀ {id : ObjectId} {x : Unstructured}, x.metadata.deletionTimestamp = none →
      (∃ o, w.object? id = some o ∧ o.withoutStatus = x.withoutStatus) →
      ∃ o, w'.object? id = some o ∧ o.withoutStatus = x.withoutStatus := by
    rintro id x hx ⟨o, ho, heq⟩
    have hlive : o.metadata.deletionTimestamp = none :=
      (congrArg (·.metadata.deletionTimestamp) heq).trans hx
    obtain ⟨o', ho', heq'⟩ := hstatus.kept id o ho hlive
    exact ⟨o', ho', heq'.trans heq⟩
  exact ⟨hstored hremote h.remote, hstored hlocal h.local'⟩

section Process

variable {P} {r : Unstructured} {w w' : World}

theorem object?_of_copies {l : Unstructured}
    (h : P.syncer.copies P.clusterName P.workspacePath r w = [l]) :
    w.object? (l.idOn .localClient) = some l :=
  (World.listed_of_mem (h ▸ List.mem_singleton_self l :
    l ∈ P.syncer.copies P.clusterName P.workspacePath r w)).object

theorem no_completion_of_merge {r₁ : Unstructured} {w₁ : World} (hr : w.object? P.id = some r)
    (hlive : r.metadata.deletionTimestamp = none) (hmerge : P.syncer.useServerSideApply = false) :
    ¬ Returns P.server (P.sync r none) w (false, r₁) w₁ := by
  intro hsynced
  cases ObjectSyncer.sync_returns (P.not_deleting hlive) hsynced with
  | synced _ hmutations hmutated =>
    obtain ⟨d, -, hd, -⟩ := status?_merge hr hlive hmutations hmerge hmutated
    cases hd

/-- What a `Sync` that asks for no requeue has done in merge mode. -/
theorem synced_of_merge {l r₁ : Unstructured} {w₁ : World} (hr : w.object? P.id = some r)
    (hlive : r.metadata.deletionTimestamp = none) (hmerge : P.syncer.useServerSideApply = false)
    (hsynced : Returns P.server (P.sync r (some l)) w (false, r₁) w₁) :
    w.StatusOnly w₁ ∧ (∀ id : ObjectId, id.client = .localClient → w₁.object? id = w.object? id) ∧
    ∃ o, w₁.object? P.id = some o ∧ o.withoutStatus = r₁.withoutStatus := by
  cases ObjectSyncer.sync_returns (P.not_deleting hlive) hsynced with
  | synced _ hmutations hmutated => exact merge_current hr hlive hmutations hmutated hmerge

/-- The remote object that `Sync` returns is the primary object. -/
theorem remote_of_merge {l r₁ : Unstructured} {w₁ : World} (hr : w.object? P.id = some r)
    (hlive : r.metadata.deletionTimestamp = none) (hmerge : P.syncer.useServerSideApply = false)
    (hsynced : Returns P.server (P.sync r (some l)) w (false, r₁) w₁) :
    r₁.withoutStatus = r.withoutStatus := by
  obtain ⟨hstatus, -, o, ho, heq⟩ := synced_of_merge hr hlive hmerge hsynced
  obtain ⟨o', ho', heq'⟩ := hstatus.kept P.id r hr hlive
  cases ho.symm.trans ho'
  exact heq.symm.trans heq'

theorem sides_ne : (ResourceSyncer.remoteSide P.clusterName P.workspacePath).client ≠
    ResourceSyncer.localSide.client := fun h => by cases h

/-- What a `Process` that asks for no requeue has done in merge mode. -/
theorem complete_of_merge {l r₁ : Unstructured} {w₁ : World} (hr : w.object? P.id = some r)
    (hlive : r.metadata.deletionTimestamp = none) (hl : l.metadata.deletionTimestamp = none)
    (hmerge : P.syncer.useServerSideApply = false)
    (hcopies : P.syncer.copies P.clusterName P.workspacePath r w = [l])
    (hsynced : Returns P.server (P.sync r (some l)) w (false, r₁) w₁)
    (heach : Returns.Each P.server (P.processRelated r₁ l) P.syncer.pubRes.related w₁
      (P.syncer.pubRes.related.map fun _ => false) w') :
    P.Completed r w w' l r₁ w₁ ∧ P.StayAsStored r₁ l w₁ := by
  obtain ⟨hstatus, hlocal, hremote⟩ := synced_of_merge hr hlive hmerge hsynced
  have hfound : w₁.object? (l.idOn .localClient) = some l :=
    (hlocal _ rfl).trans (object?_of_copies hcopies)
  have hstored : P.AsStored r₁ l w₁ := ⟨hremote, l, hfound, rfl⟩
  refine ⟨⟨hcopies, hsynced, fun mutated dest' id _ hid => ?_, hstored, heach⟩,
    fun before relRes after hrelated => ?_⟩
  · rw [destinationId, hmerge] at hid
    obtain rfl := Option.some.inj hid
    exact hlocal _ rfl
  · have hremoteLive : r₁.metadata.deletionTimestamp = none :=
      (congrArg (·.metadata.deletionTimestamp)
        (remote_of_merge hr hlive hmerge hsynced)).trans hlive
    refine Returns.Each.exists_at (fun relRes' _ wa wb hreturns hwa => ?_)
      (hrelated ▸ heach) hstored
    obtain ⟨_, _, _, _, hprocessed⟩ := ResourceSyncer.processRelatedResource_false hreturns
    exact hwa.of_statusOnly hremoteLive hl (hprocessed.statusOnly sides_ne hmerge)

theorem stay_of_apply {l r₁ : Unstructured} {w₁ : World} (hssa : P.syncer.useServerSideApply = true)
    (hcompleted : P.Completed r w w' l r₁ w₁) (helsewhere : P.CopiesElsewhere r₁ l) :
    P.StayAsStored r₁ l w₁ := by
  intro before relRes after hrelated
  refine Returns.Each.exists_at (fun relRes' hmem wa wb hreturns hwa => ?_)
    (hrelated ▸ hcompleted.related) hcompleted.current
  obtain ⟨found, t, wc, wd, hprocessed⟩ := ResourceSyncer.processRelatedResource_false hreturns
  have hkept : ∀ {id : ObjectId} {x : Unstructured}, ¬ P.CopyPlace r₁ l relRes' id →
      wa.object? id = some x → wb.object? id = some x := fun hplace hx =>
    hprocessed.object?_of_apply sides_ne hssa (fun resolved hresolved hid =>
      hplace ⟨found, t, wa, wc, hprocessed.resolved, hprocessed.kind, resolved, hresolved, hid⟩) hx
  obtain ⟨hremote, hlocal⟩ := helsewhere relRes' (by
    rw [hrelated]
    exact List.mem_append_left _ hmem)
  obtain ⟨⟨o, ho, heq⟩, o', ho', heq'⟩ := hwa
  exact ⟨⟨o, hkept hremote ho, heq⟩, o', hkept hlocal ho', heq'⟩

/-- With a server-side apply, a `Process` that asks for no requeue was complete exactly when the
apply changed nothing. -/
theorem complete_of_apply {l r₁ : Unstructured} {w₁ : World} (hr : w.object? P.id = some r)
    (hlive : r.metadata.deletionTimestamp = none) (hssa : P.syncer.useServerSideApply = true)
    (hcopies : P.syncer.copies P.clusterName P.workspacePath r w = [l])
    (hsynced : Returns P.server (P.sync r (some l)) w (false, r₁) w₁)
    (heach : Returns.Each P.server (P.processRelated r₁ l) P.syncer.pubRes.related w₁
      (P.syncer.pubRes.related.map fun _ => false) w') :
    P.ApplyIdle r w ↔ ∃ l r₁ w₁, P.Completed r w w' l r₁ w₁ := by
  cases ObjectSyncer.sync_returns (P.not_deleting hlive) hsynced with
  | synced _ hmutations hmutated =>
    obtain ⟨destObj, hcreator, hothers, hidle, hremote⟩ :=
      apply_current hr hlive hmutations hmutated hssa
    constructor
    · rintro ⟨l', mutated, d', hcopies', hmutations', hwhen⟩
      obtain rfl : l = l' := List.singleton_inj.mp (hcopies.symm.trans hcopies')
      obtain ⟨rfl, rfl⟩ := Prod.mk.inj (Except.ok.inj (hmutations.symm.trans hmutations'))
      have hsame := hidle.mpr (hwhen.imp (fun h => ⟨d', rfl, h⟩)
        fun ⟨destObj', cur, hcreator', hcur⟩ => by
          obtain rfl := Except.ok.inj (hcreator'.symm.trans hcreator)
          exact ⟨cur, hcur⟩)
      refine ⟨l, _, w₁, hcopies, hsynced, fun mutated dest' id hmut hid =>
        ?_, ⟨hremote, l, ?_, rfl⟩,
        heach⟩
      · obtain ⟨rfl, rfl⟩ := Prod.mk.inj (Except.ok.inj (hmutations.symm.trans hmut))
        rw [destinationId, if_pos hssa, hcreator] at hid
        obtain rfl := Option.some.inj hid
        exact hsame
      · by_cases hid : l.idOn .localClient = destObj.idOn .localClient
        · rw [hid, hsame, ← hid]
          exact object?_of_copies hcopies
        · exact hothers _ l rfl hid (object?_of_copies hcopies)
    · rintro ⟨l', r₁, w₂, hcompleted⟩
      obtain rfl : l = l' := List.singleton_inj.mp (hcopies.symm.trans hcompleted.found)
      cases hsynced.symm.trans hcompleted.synced
      obtain ⟨d', rfl⟩ := ObjectSyncer.applyMutations_some hmutations
      have hsame := hcompleted.untouched _ _ (destObj.idOn .localClient) hmutations
        (by rw [destinationId, if_pos hssa, hcreator]; rfl)
      refine ⟨l, _, d', hcopies, hmutations, (hidle.mp hsame).imp ?_ ?_⟩
      · rintro ⟨_, ⟨⟩, hdying⟩
        exact hdying
      · rintro ⟨cur, hcur⟩
        exact ⟨destObj, cur, hcreator, hcur⟩

end Process

/-- A call of `Process` for a live primary object that asks for no requeue was complete exactly in
merge mode and when the server-side apply changed nothing.  In merge mode, and if no copies are
where the two primary objects are, these then stay as they are stored until the last related
resource is processed. -/
theorem complete_iff {r : Unstructured} {w w' : World} (hr : w.object? P.id = some r)
    (hlive : r.metadata.deletionTimestamp = none)
    (hcopy : ∀ l, P.syncer.copies P.clusterName P.workspacePath r w = [l] →
      l.metadata.deletionTimestamp = none)
    (h : Returns P.server (P.syncer.process P.clusterName P.workspacePath r) w false w') :
    ((∃ l r₁ w₁, P.Completed r w w' l r₁ w₁) ↔
      P.syncer.useServerSideApply = false ∨ P.ApplyIdle r w) ∧
    ∀ l r₁ w₁, P.Completed r w w' l r₁ w₁ →
      P.syncer.useServerSideApply = false ∨ P.CopiesElsewhere r₁ l → P.StayAsStored r₁ l w₁ := by
  have hid := World.idOn_of_object? hr
  have hdone := ResourceSyncer.process_false hlive h
  rw [scope_eq hid, stateStore_eq hid] at hdone
  refine ⟨?_, fun l r₁ w₁ hc hstay => ?_⟩
  rotate_left
  · cases hmode : P.syncer.useServerSideApply with
    | false =>
      exact (complete_of_merge hr hlive (hcopy l hc.found) hmode hc.found hc.synced hc.related).2
    | true =>
      exact stay_of_apply hmode hc (hstay.resolve_left fun hmerge => by cases hmode ▸ hmerge)
  rcases hdone with ⟨hnone, r₁, hsynced⟩ | ⟨l, r₁, w₁, hcopies, hsynced, heach⟩
  · have hmerge : P.syncer.useServerSideApply ≠ false := fun hmerge =>
      no_completion_of_merge hr hlive hmerge hsynced
    constructor
    · rintro ⟨l, r₁, w₁, hcompleted⟩
      cases hnone.symm.trans hcompleted.found
    · rintro (hm | ⟨l, -, -, hcopies, -⟩)
      · exact absurd hm hmerge
      · cases hnone.symm.trans hcopies
  · cases hmode : P.syncer.useServerSideApply with
    | false =>
      have hl := hcopy l hcopies
      exact ⟨fun _ => .inl rfl, fun _ => ⟨l, r₁, w₁,
        (complete_of_merge hr hlive hl hmode hcopies hsynced heach).1⟩⟩
    | true =>
      rw [← complete_of_apply hr hlive hmode hcopies hsynced heach]
      simp

open Blocker in
/-- The sample with a Secret, which is synced by server-side apply. -/
def applied : Primary :=
  { sample [dailySecret] with
    syncer := { (sample [dailySecret]).syncer with useServerSideApply := true } }

/-- The local object under its generated name. -/
def appliedCopy : Unstructured :=
  { sampleObject ∅ default with metadata.name := "daily", metadata.ns := "tenant" }

/-- The world after the local object has been applied. -/
def appliedOnce : World :=
  (exec .setting ⟨applied.scope, .apply .localClient
    ((applied.syncerOf (sampleObject ∅ default)).applyPayload .sample
      (ResourceSyncer.remoteSide "c1" "root") (sampleObject ∅ default) appliedCopy)
    (applied.syncerOf (sampleObject ∅ default)).fieldManager⟩ Blocker.secretWorld).2

/-- The local object. -/
def appliedObject : Unstructured := (appliedOnce.object? sampleCopy).getD appliedCopy

theorem object?_appliedOnce : appliedOnce.object? sampleCopy = some appliedObject := by
  have hsome : (appliedOnce.object? sampleCopy).isSome = true := by decide +kernel
  unfold appliedObject
  cases hobj : appliedOnce.object? sampleCopy with
  | none => rw [hobj] at hsome; cases hsome
  | some o => rfl

theorem copies_appliedOnce :
    applied.syncer.copies "c1" "root" (sampleObject ∅ default) appliedOnce = [appliedObject] := by
  have hplaces : (applied.syncer.copies "c1" "root" (sampleObject ∅ default) appliedOnce).map
      (·.idOn .localClient) = [sampleCopy] := by decide +kernel
  obtain ⟨l, hl, hid⟩ := List.map_eq_singleton_iff.mp hplaces
  have hobj := object?_of_copies (P := applied) hl
  rw [hid, object?_appliedOnce] at hobj
  rw [Option.some.inj hobj]
  exact hl

theorem applyIdle_appliedOnce : applied.ApplyIdle (sampleObject ∅ default) appliedOnce :=
  ⟨appliedObject, sampleObject ∅ default, appliedObject, copies_appliedOnce, rfl, .inr
    ⟨appliedCopy, appliedObject, by decide +kernel, object?_appliedOnce, by decide +kernel⟩⟩

theorem copiesElsewhere_applied (r₁ : Unstructured) : applied.CopiesElsewhere r₁ appliedObject := by
  intro relRes hrel
  obtain rfl := List.mem_singleton.mp hrel
  constructor
  · rintro ⟨_, _, _, _, -, -, _, -, hid⟩
    cases congrArg ObjectId.client hid
  · rintro ⟨_, _, _, _, -, hkind, _, -, hid⟩
    cases hkind
    have hcopy : appliedObject.idOn .localClient = sampleCopy :=
      World.idOn_of_object? object?_appliedOnce
    have hsecret : crontabType = .secret := congrArg ObjectId.typeMeta (hcopy.symm.trans hid)
    exact absurd hsecret (by decide)

/-- In merge mode the call that passes the status on is complete, and with a server-side apply the
second call is, which copies the Secret. -/
theorem complete_running :
    (∃ w' l r₁ w₁, (hidden false).Completed unreported (runningWorld false) w' l r₁ w₁ ∧
      (hidden false).StayAsStored r₁ l w₁) ∧
    ∃ w' l r₁ w₁, applied.Completed (sampleObject ∅ default) appliedOnce w' l r₁ w₁ ∧
      applied.StayAsStored r₁ l w₁ ∧
      (w'.object? ⟨.localClient, .secret, "tenant", "daily"⟩).isSome = true := by
  constructor
  · have hlive : ((hidden false).syncer.copies "c1" "root" unreported (runningWorld false)).all
        (fun l => l.metadata.deletionTimestamp.isNone) = true := by decide +kernel
    have hreturns : Returns .setting ((hidden false).syncer.process "c1" "root" unreported)
        (runningWorld false) false _ := Returns.of_eval (by decide +kernel)
    have hcomplete := (hidden false).complete_iff (object?_runningWorld false).1 rfl
      (fun l hl => by simpa [hl] using (congrArg (List.all · _) hl).symm.trans hlive) hreturns
    obtain ⟨l, r₁, w₁, hdone⟩ := hcomplete.1.mpr (.inl rfl)
    exact ⟨_, l, r₁, w₁, hdone, hcomplete.2 l r₁ w₁ hdone (.inl rfl)⟩
  · have hreturns : Returns .setting (applied.syncer.process "c1" "root" (sampleObject ∅ default))
        appliedOnce false _ := Returns.of_eval (by decide +kernel)
    have hcomplete := applied.complete_iff (r := sampleObject ∅ default) (by decide +kernel) rfl
      (fun l hl => by
        obtain rfl := List.singleton_inj.mp (copies_appliedOnce.symm.trans hl)
        decide +kernel) hreturns
    obtain ⟨l, r₁, w₁, hdone⟩ := hcomplete.1.mpr (.inr applyIdle_appliedOnce)
    obtain rfl := List.singleton_inj.mp (copies_appliedOnce.symm.trans hdone.found)
    exact ⟨_, _, r₁, w₁, hdone, hcomplete.2 _ r₁ w₁ hdone (.inr (copiesElsewhere_applied r₁)),
      by decide +kernel⟩

open Blocker in
/-- The first call with a server-side apply creates the local object and asks for no requeue,
although the Secret was not copied. -/
theorem apply_reports_completion :
    secretWorld.object? applied.id = some (sampleObject ∅ default) ∧
    applied.syncer.copies "c1" "root" (sampleObject ∅ default) secretWorld = [] ∧
    ∃ w', Returns applied.server
        (applied.syncer.process "c1" "root" (sampleObject ∅ default)) secretWorld false w' ∧
      (w'.object? sampleCopy).isSome = true ∧
      ¬ ∃ l r₁ w₁, applied.Completed (sampleObject ∅ default) secretWorld w' l r₁ w₁ := by
  have hnone : applied.syncer.copies "c1" "root" (sampleObject ∅ default) secretWorld = [] := by
    decide +kernel
  refine ⟨by decide +kernel, hnone, _, Returns.of_eval (by decide +kernel), by decide +kernel, ?_⟩
  rintro ⟨l, r₁, w₁, hcompleted⟩
  cases hnone.symm.trans hcompleted.found

end Primary

end Sync
