import SyncAgent.Sync.Status

/-! The status of the remote object after a call of `Sync` for the primary object: it is synced back
from the local object, after the mutation rules for the status were applied. -/

namespace Sync

open Kube

namespace ObjectSyncer

variable {S : Server} {L : Libraries} {scope : Scope} {σ : ObjectSyncer}
  {sourceSide destSide : SyncSide} {source dest : Unstructured} {w w' : World}

section Quiet

variable {J : World → Prop}
  (hJ : ∀ c : Call, QuietCall sourceSide.client destSide.client c → ∀ w, J w → J (exec S c w).2)

include hJ

/-- A part of `Sync` without the update of the source's status. -/
theorem quiet_keeps {α : Type} {p : SyncM α}
    (hp : p.AllCalls fun c => QuietCall sourceSide.client destSide.client c) (hw : J w) :
    Fallible.Keeps (.alone (exec S)) (.ofState api fun _ => True) p (fun _ => J) J w :=
  .of_allCalls hp (fun _ _ => trivial) (fun w w₁ hw (h : w = w₁) => h ▸ hw)
    (fun _ _ _ _ => trivial) (fun c hc w r w' hw (h : exec S c w = (r, w')) => by
      have hkept := hJ c hc w hw
      rwa [h] at hkept) hw

omit hJ in
/-- If the update of the source's status fails, it has changed nothing. -/
theorem syncObjectStatus_keeps (hw : J w) :
    Fallible.Keeps (.alone (exec S)) (.ofState api fun _ => True)
      (σ.syncObjectStatus scope sourceSide source dest) (fun _ _ => True) J w := by
  unfold syncObjectStatus
  split
  · exact .pure trivial
  · split
    · exact .pure trivial
    · refine .seq (P := fun r w => r.isOk = false → J w)
        (.request fun w₁ hr => ?_) fun r w₁ hw₁ => ?_
      · obtain rfl : w = w₁ := hr
        refine ⟨trivial, fun r w₂ hd => ⟨trivial, fun herror => ?_⟩⟩
        rcases World.Does.updateStatus (.inl hd) with ⟨e, -, rfl⟩ | ⟨_, o, -, rfl, -⟩
        · exact hw
        · cases herror
      · split
        · exact .pure trivial
        · exact .throw (hw₁ rfl)

theorem syncMutated_keeps {dest : Option Unstructured} (hw : J w) :
    Fallible.Keeps (.alone (exec S)) (.ofState api fun _ => True)
      (σ.syncMutated L scope sourceSide destSide source dest)
      (fun r w => r.1 = true → J w) J w := by
  have hquiet : ∀ c : Call, WriteCall destSide.client c →
    QuietCall sourceSide.client destSide.client c := fun _ h => h.quiet _
  have hstatus : ∀ (d : Unstructured) (w : World), J w → Fallible.Keeps (.alone (exec S))
      (.ofState api fun _ => True) (do
        let source ← σ.syncObjectStatus scope sourceSide source d
        return (false, source)) (fun r w => r.1 = true → J w) J w := fun d w hw =>
    .seq (syncObjectStatus_keeps hw) fun _ _ _ => .pure fun h => by cases h
  unfold syncMutated
  split
  · refine .seq (.mapError (quiet_keeps hJ (.mono applyServerSide_writes hquiet) hw))
      fun newDest w hw => ?_
    split
    · exact .pure fun h => by cases h
    · split
      · exact .pure fun h => by cases h
      · exact hstatus _ w hw
  · split
    · exact .seq (.mapError (quiet_keeps hJ (.mono ensureDestinationObject_writes hquiet) hw))
        fun _ w hw => .pure fun _ => hw
    · split
      · exact .pure fun h => by cases h
      · refine .seq
          (.mapError (quiet_keeps hJ (.mono ensureDestMetadataPersisted_writes hquiet) hw))
          fun r w hw => ?_
        obtain ⟨restamped, d⟩ := r
        dsimp only
        split
        · exact .pure fun _ => hw
        · refine .mapError
            (.seq (quiet_keeps hJ (.mono syncObjectSpec_writes hquiet) hw) fun r w hw => ?_)
          refine .seq (quiet_keeps hJ (.mono syncObjectStatusForward_writes hquiet) hw)
            fun _ w hw => ?_
          split
          · exact .pure fun _ => hw
          · exact hstatus _ w hw

/-- What every call but the update of the source's status keeps holds after `Sync`, unless it has
returned that it is finished. -/
theorem sync_quiet_keeps {dest : Option Unstructured} (hw : J w) :
    Fallible.Keeps (.alone (exec S)) (.ofState api fun _ => True)
      (σ.sync L scope sourceSide destSide source dest) (fun r w => r.1 = true → J w) J w := by
  unfold sync
  split
  · exact .seq (quiet_keeps hJ (handleDeletion_allCalls (fun _ _ _ _ => .dest rfl rfl)
      fun _ _ _ => .source rfl rfl) hw) fun _ w hw => .pure fun _ => hw
  · refine .seq (P := fun _ => J) ?_ fun r w hw => ?_
    · split
      · exact .mapError
          (quiet_keeps hJ (ensureFinalizer_obeys fun _ => .source rfl rfl).allCalls hw)
      · exact .pure hw
    · obtain ⟨updated, source⟩ := r
      dsimp only
      split
      · exact .pure fun _ => hw
      · refine .seq (P := fun _ => J) (wrapE_keeps (fun _ _ => hw) fun _ _ => hw) fun r w hw => ?_
        exact .seq (syncMutated_keeps hJ hw) fun _ w hw => .pure hw

theorem sync_quiet {dest : Option Unstructured} (hw : J w)
    {result : Except Error (Bool × Unstructured)}
    (h : Fallible.eval (exec S) (σ.sync L scope sourceSide destSide source dest) w = (result, w')) :
    J w' ∨ ∃ source', result = .ok (false, source') := by
  have hkeeps : Fallible.Keeps (.alone (exec S)) (.ofState api fun _ => True)
      (σ.sync L scope sourceSide destSide source dest) (fun r w => r.1 = true → J w) J w :=
    sync_quiet_keeps hJ hw
  have houtcome := Prog.Keeps.eval hkeeps
  unfold Fallible.eval at h
  rw [h] at houtcome
  match result with
  | .error e => exact .inl houtcome
  | .ok (true, source') => exact .inl (houtcome rfl)
  | .ok (false, source') => exact .inr ⟨source', rfl⟩

end Quiet

/-- A call that does not update the source's status leaves it as it is, if the object is there. -/
theorem status?_quiet {sourceClient destClient : Client} (hclient : sourceClient ≠ destClient)
    {id : ObjectId} (hid : id.client = sourceClient)
    (hstatus : S.hasStatus id.client id.typeMeta = true) {v : Doc} {c : Call}
    (hc : QuietCall sourceClient destClient c) (hw : ∀ u, w.status? id = some u → u = v) :
    ∀ u, (exec S c w).2.status? id = some u → u = v := by
  have hdoes : World.Does S c w (exec S c w).1 (exec S c w).2 := .inl rfl
  have hother : c.verb.target ≠ some id → ∀ u, (exec S c w).2.status? id = some u → u = v := by
    intro htarget u hu
    unfold World.status? at hw hu
    rw [hdoes.frames.objects id htarget] at hu
    exact hw u hu
  rcases hc.target_ne_or_patch hclient hid with htarget | ⟨patch, hverb⟩
  · exact hother htarget
  · obtain ⟨scope, verb⟩ := c
    cases hverb
    rcases hdoes.patch with ⟨e, -, hsame⟩ | ⟨cur, next, o, hcur, -, -, -, -, hrew⟩
    · rw [hsame]
      exact hw
    · intro u hu
      have htype : cur.typeMeta = id.typeMeta :=
        congrArg ObjectId.typeMeta (World.idOn_of_object? hcur)
      unfold World.status? at hw hu
      rcases hrew.becomes.object with hobj | ⟨hgone, -⟩
      · rw [hobj, Option.map_some, hrew.becomes.content, Server.content_settle,
          Server.mainContent, htype, if_pos hstatus, Content.field_setStatus] at hu
        rw [hcur, Option.map_some] at hw
        exact hw u hu
      · rw [hgone] at hu
        cases hu

/-- The destination object after the mutation rules for its status. -/
def mutateStatus (σ : ObjectSyncer) (dest source : Unstructured) : Except Error Unstructured :=
  match σ.mutator with
  | none => .ok dest
  | some mutator => mutator.mutateStatus dest source

theorem mutateStatus_of_applyMutations {d d' mutated : Unstructured}
    (h : σ.applyMutations source (some d) = .ok (mutated, some d')) :
    σ.mutateStatus d mutated = .ok d' := by
  unfold mutateStatus
  rcases applyMutations_ok h with ⟨hnone, -, hd⟩ | ⟨mutator, _, hmutator, -, ⟨hdest, -⟩ | hstatus⟩
  · cases hd
    rw [hnone]
  · cases hdest
  · obtain ⟨_, _, hd, hd', hstatus⟩ := hstatus
    cases hd
    cases hd'
    rw [hmutator]
    exact hstatus

/-- The source's status after the status sync. -/
theorem StatusOutcome.status? {source' : Unstructured}
    (h : σ.StatusOutcome S scope sourceSide source dest w source' w')
    (hback : σ.syncStatusBack = true) {id : ObjectId} {r : Unstructured}
    (hr : w.object? id = some r) (hlive : r.metadata.deletionTimestamp = none) :
    w'.status? id =
      if source.content.field "status" ≠ dest.content.field "status" ∧
          source.idOn sourceSide.client = id then some (dest.content.field "status")
      else some (r.content.field "status") := by
  have hsame : w.status? id = some (r.content.field "status") := by
    rw [World.status?, hr, Option.map_some]
  cases h with
  | off hoff => cases hback.symm.trans hoff
  | same heq => rw [if_neg fun h => h.1 heq, hsame]
  | written _ hdiff hexec =>
    rcases World.Does.updateStatus (.inl hexec) with ⟨e, he, -⟩ | ⟨cur, o, hcur, -, -, -, hrew⟩
    · cases he
    · by_cases hid : source.idOn sourceSide.client = id
      · have hcurLive : cur.metadata.deletionTimestamp = none := by
          cases (hid ▸ hcur : w.object? id = some cur).symm.trans hr
          exact hlive
        rw [if_pos ⟨hdiff, hid⟩, hrew.status?_setStatus fun _ => hcurLive]
        exact (if_pos hid.symm).trans (by simp)
      · rw [if_neg fun h => hid h.2, ← hsame]
        exact congrArg _ (hrew.keeps.objects id fun heq => hid (Option.some.inj heq))

theorem StatusOutcome.object? {source' : Unstructured}
    (h : σ.StatusOutcome S scope sourceSide source dest w source' w') {id : ObjectId}
    (hid : id.client ≠ sourceSide.client) : w'.object? id = w.object? id := by
  cases h with
  | off => rfl
  | same => rfl
  | written _ _ hexec =>
    rcases World.Does.updateStatus (.inl hexec) with ⟨e, he, -⟩ | ⟨cur, o, -, -, -, -, hrew⟩
    · cases he
    · refine hrew.keeps.objects id fun heq => hid ?_
      rw [← Option.some.inj heq]
      rfl

end ObjectSyncer

theorem applied_eq {S : Server} {scope : Scope} {client : Client} {obj o n : Unstructured}
    {fieldManager : String} {w w' : World}
    (h : exec S ⟨scope, .apply client obj fieldManager⟩ w = (.ok o, w'))
    (hn : w'.object? (obj.idOn client) = some n) : n = o := by
  rcases World.Does.apply (.inl h) with ⟨e, he, -⟩ | ⟨o', ho, rfl, hadds⟩ | ⟨cur, o', -, ho, hrew⟩
  · cases he
  · cases ho
    rw [hadds.objects, if_pos] at hn
    · exact (Option.some.inj hn).symm
    · rfl
  · cases ho
    exact hrew.eq_of_object hn

namespace Primary

variable (P : Primary)

/-- `Sync` of the primary object, with the local object that was found. -/
def sync (r : Unstructured) (dest : Option Unstructured) : SyncM (Bool × Unstructured) :=
  (P.syncerOf r).sync P.syncer.libs P.scope
    (ResourceSyncer.remoteSide P.clusterName P.workspacePath) ResourceSyncer.localSide r dest

theorem not_deleting {r : Unstructured} (hlive : r.metadata.deletionTimestamp = none) :
    ¬ (P.syncerOf r).Deleting r := by
  rintro (hdying | hforce)
  · rw [hlive] at hdying
    cases hdying
  · cases hforce

/-- Where the local object is: the one that was found, and in a server-side apply the one with the
generated name. -/
def destinationId (r mutated : Unstructured) (dest : Option Unstructured) : Option ObjectId :=
  if P.syncer.useServerSideApply then
    ((P.syncerOf r).destCreator mutated).toOption.map fun o => o.idOn .localClient
  else dest.map fun d => d.idOn .localClient

/-- `Sync` has returned that it is finished; `n` is the local object as the server has it, and
`mutated` and `dest'` are the objects after the mutations. -/
structure Finished (r : Unstructured) (dest : Option Unstructured)
    (result : Except Error (Bool × Unstructured)) (w' : World) (mutated : Unstructured)
    (dest' : Option Unstructured) (n : Unstructured) : Prop where
  result : ∃ source', result = .ok (false, source')
  mutations : (P.syncerOf r).applyMutations r dest = .ok (mutated, dest')
  stored : ∃ id, P.destinationId r mutated dest = some id ∧ w'.object? id = some n

/-- The status of `x` is written to the remote object: the mutated remote object has another status
and is still the same object, and the local object is not in deletion. -/
def WritesStatus (mutated : Unstructured) (dest' : Option Unstructured) (x : Unstructured) : Prop :=
  mutated.content.field "status" ≠ x.content.field "status" ∧
    mutated.idOn (.remoteClient P.clusterName) = P.id ∧ x.metadata.deletionTimestamp = none ∧
    ∀ d', dest' = some d' → d'.metadata.deletionTimestamp = none

/-- The status that the remote object is left with is the mutated status: what is written is the
mutated status, and if nothing is written the remote object has it already.  A server-side apply
writes the status of the local object as it is. -/
def StatusMutated (r mutated : Unstructured) (dest' : Option Unstructured) (n : Unstructured) :
    Prop :=
  ∃ m, (P.syncerOf r).mutateStatus n mutated = .ok m ∧
    let x := if P.syncer.useServerSideApply then n else m
    (P.WritesStatus mutated dest' x → x.content.field "status" = m.content.field "status") ∧
    (¬ P.WritesStatus mutated dest' x → r.content.field "status" = m.content.field "status")

section Status

variable {P} {r mutated : Unstructured} {dest dest' : Option Unstructured} {w w' : World}
  (hr : w.object? P.id = some r) (hlive : r.metadata.deletionTimestamp = none)
  (hmutations : (P.syncerOf r).applyMutations r dest = .ok (mutated, dest'))

include hr hlive hmutations

/-- In merge mode the mutated status is written, unless the mutated remote object has it. -/
theorem status?_merge (hmerge : P.syncer.useServerSideApply = false) {source' : Unstructured}
    (h : (P.syncerOf r).MutatedOutcome P.server P.syncer.libs P.scope
      (ResourceSyncer.remoteSide P.clusterName P.workspacePath) ResourceSyncer.localSide mutated w
      dest' false source' w') :
    ∃ d d', dest = some d ∧ dest' = some d' ∧
      w'.object? (d.idOn .localClient) = w.object? (d.idOn .localClient) ∧
      (P.WritesStatus mutated dest' d' → w'.status? P.id = some (d'.content.field "status")) ∧
      (¬ P.WritesStatus mutated dest' d' → w'.status? P.id = some (r.content.field "status")) := by
  have hsame : w.status? P.id = some (r.content.field "status") := by
    rw [World.status?, hr, Option.map_some]
  cases h with
  | skipped _ hdying =>
    obtain ⟨d, rfl⟩ := ObjectSyncer.exists_of_applyMutations hmutations
    refine ⟨d, _, rfl, rfl, rfl, fun hwrites => ?_, fun _ => hsame⟩
    rw [hwrites.2.2.1] at hdying
    cases hdying
  | unchanged _ hd'live _ hspec hforward hstatus =>
    obtain ⟨d, rfl⟩ := ObjectSyncer.exists_of_applyMutations hmutations
    cases hspec with
    | clean =>
      obtain rfl := hforward.eq_of_off rfl
      have hobj := hstatus.object? (show (d.idOn .localClient).client ≠ _ by rintro ⟨⟩)
      refine ⟨d, _, rfl, rfl, hobj, fun hwrites => ?_, fun hnot => ?_⟩
      · rw [hstatus.status? rfl hr hlive]
        exact if_pos ⟨hwrites.1, hwrites.2.1⟩
      · rw [hstatus.status? rfl hr hlive]
        refine if_neg fun h => hnot ⟨h.1, h.2, hd'live, fun d'' hd'' => ?_⟩
        cases hd''
        exact hd'live
  | applied hssa => cases hmerge.symm.trans hssa
  | notApplied hssa => cases hmerge.symm.trans hssa

omit hmutations in
theorem status?_apply (hssa : P.syncer.useServerSideApply = true) {source' n : Unstructured}
    (h : (P.syncerOf r).MutatedOutcome P.server P.syncer.libs P.scope
      (ResourceSyncer.remoteSide P.clusterName P.workspacePath) ResourceSyncer.localSide mutated w
      dest' false source' w') {id : ObjectId} (hid : P.destinationId r mutated dest = some id)
    (hn : w'.object? id = some n) :
    (P.WritesStatus mutated dest' n → w'.status? P.id = some (n.content.field "status")) ∧
    (¬ P.WritesStatus mutated dest' n → w'.status? P.id = some (r.content.field "status")) := by
  cases h with
  | notApplied _ hdying _ hns =>
    refine ⟨fun hwrites => ?_, fun _ => ?_⟩
    · rw [hwrites.2.2.2 _ rfl] at hdying
      cases hdying
    · rw [World.status?, hns.object?_of_some hr, Option.map_some]
  | @applied _ destObj o _ w₁ w₂ _ _ hdest hcreator hns happly hrest =>
    have hpayload : ((P.syncerOf r).applyPayload P.syncer.libs
        (ResourceSyncer.remoteSide P.clusterName P.workspacePath) mutated
        destObj).idOn .localClient =
        id := by
      rw [destinationId, if_pos hssa, hcreator] at hid
      rw [← Option.some.inj hid]
      exact (ObjectSyncer.newDestination_rest _ _ _ _ _).1 _
    have hr₂ : w₂.object? P.id = some r := by
      rw [← hns.object?_of_some hr]
      refine (World.Does.frames (.inl happly)).objects P.id fun h => ?_
      cases congrArg ObjectId.client (Option.some.inj h)
    rcases hrest with ⟨hdying, rfl, rfl⟩ | ⟨holive, hstatus⟩
    · obtain rfl : n = o := applied_eq happly (hpayload ▸ hn)
      refine ⟨fun hwrites => ?_, fun _ => ?_⟩
      · rw [hwrites.2.2.1] at hdying
        cases hdying
      · rw [World.status?, hr₂, Option.map_some]
    · have hid' : id.client ≠ .remoteClient P.clusterName := by
        rw [← hpayload]
        rintro ⟨⟩
      rw [hstatus.object? hid'] at hn
      obtain rfl : n = o := applied_eq happly (hpayload ▸ hn)
      rw [hstatus.status? rfl hr₂ hlive]
      exact ⟨fun hwrites => if_pos ⟨hwrites.1, hwrites.2.1⟩,
        fun hnot => if_neg fun h => hnot ⟨h.1, h.2, holive, hdest⟩⟩
  | skipped hmerge => cases hssa.symm.trans hmerge
  | unchanged hmerge => cases hssa.symm.trans hmerge

end Status

/-- A call of `Sync` changes the remote object's status only when it returns that it is finished,
and then the remote object has the mutated status of the local object exactly when that is the
status which is written, or which it has already. -/
theorem status_back_iff {r : Unstructured} {dest : Option Unstructured} {w w' : World}
    (hr : w.object? P.id = some r)
    (hfound : ∀ d, dest = some d → w.object? (d.idOn .localClient) = some d)
    (hstatus : P.server.hasStatus (.remoteClient P.clusterName) P.typeMeta = true)
    {result : Except Error (Bool × Unstructured)}
    (h : Fallible.eval (exec P.server) (P.sync r dest) w = (result, w')) :
    ((∀ v, w'.status? P.id = some v → v = r.content.field "status") ∨
      ∃ source', result = .ok (false, source')) ∧
    ∀ mutated dest' n, r.metadata.deletionTimestamp = none →
      P.Finished r dest result w' mutated dest' n →
      ((∃ m, (P.syncerOf r).mutateStatus n mutated = .ok m ∧
          w'.status? P.id = some (m.content.field "status")) ↔
        P.StatusMutated r mutated dest' n) := by
  constructor
  · have hsame : ∀ v, w.status? P.id = some v → v = r.content.field "status" := by
      intro v hv
      rw [World.status?, hr] at hv
      exact (Option.some.inj hv).symm
    have hsides : (ResourceSyncer.remoteSide P.clusterName P.workspacePath).client ≠
        ResourceSyncer.localSide.client := fun h => by cases h
    exact ObjectSyncer.sync_quiet (J := fun w => ∀ v, w.status? P.id = some v → _)
      (fun c hc w hw => ObjectSyncer.status?_quiet hsides rfl hstatus hc hw) hsame h
  · rintro mutated dest' n hlive ⟨⟨source', rfl⟩, hmutations, id, hid, hn⟩
    cases ObjectSyncer.sync_returns (P.not_deleting hlive) h with
    | synced _ hmutations' hmutated =>
      obtain ⟨rfl, rfl⟩ := Prod.mk.inj (Except.ok.inj (hmutations.symm.trans hmutations'))
      unfold StatusMutated
      cases hmode : P.syncer.useServerSideApply with
      | true =>
        obtain ⟨hwritten, hkept⟩ := status?_apply hr hlive hmode hmutated hid hn
        simp only [if_true]
        refine exists_congr fun m => and_congr_right fun _ => ?_
        by_cases hwrites : P.WritesStatus mutated dest' n
        · rw [hwritten hwrites, Option.some.injEq]
          simp [hwrites]
        · rw [hkept hwrites, Option.some.injEq]
          simp [hwrites]
      | false =>
        obtain ⟨d, d', rfl, rfl, hobj, hwritten, hkept⟩ :=
          status?_merge hr hlive hmutations hmode hmutated
        have hnd : n = d := by
          rw [destinationId, hmode] at hid
          obtain rfl := Option.some.inj hid
          rw [hobj, hfound d rfl] at hn
          exact (Option.some.inj hn).symm
        subst hnd
        have hm := ObjectSyncer.mutateStatus_of_applyMutations hmutations
        simp only [Bool.false_eq_true, if_false]
        refine exists_congr fun m => and_congr_right fun hm' => ?_
        obtain rfl : m = d' := Except.ok.inj (hm'.symm.trans hm)
        by_cases hwrites : P.WritesStatus mutated (some m) m
        · rw [hwritten hwrites]
          simp [hwrites]
        · rw [hkept hwrites, Option.some.injEq]
          simp [hwrites]

/-- Rules that replace the status of the local object. -/
def hideStatus : Mutator where
  mutateSpec source _ := .ok source
  mutateStatus dest _ := .ok { dest with content := dest.content.setStatus (.str "hidden") }

/-- The sample with these rules. -/
def hidden (ssa : Bool) : Primary :=
  { sample [] with
    syncer := { (sample []).syncer with
      primaryMutator := some hideStatus, useServerSideApply := ssa } }

/-- The remote object has no status yet. -/
def unreported : Unstructured := { sampleObject ∅ default with metadata.resourceVersion := 1 }

/-- The local object, with a status that the tenant is not to see. -/
def running (ssa : Bool) : Unstructured :=
  ((hidden ssa).syncerOf unreported).newDestination .sample
    (ResourceSyncer.remoteSide "c1" "root") unreported
    ⟨crontabType, { name := "daily", ns := "tenant" }, Content.setStatus default (.str "node-7")⟩

/-- Both objects exist, and the state of the remote object was stored. -/
def runningWorld (ssa : Bool) : World :=
  ((World.empty.put (.remoteClient "c1") unreported).put .localClient (running ssa)).putSecret
    (hidden ssa).store.secretName
    { data := SortedMap.insert ∅ (hidden ssa).storeKey
        (some (snapshotObject unreported ["status"]).toFields) }

/-- The world after the sync. -/
def reportedWorld (ssa : Bool) : World :=
  (Fallible.eval (exec .setting) ((hidden ssa).sync unreported (some (running ssa)))
    (runningWorld ssa)).2

theorem object?_runningWorld (ssa : Bool) :
    (runningWorld ssa).object? (hidden ssa).id = some unreported ∧
      (runningWorld ssa).object? ((running ssa).idOn .localClient) = some (running ssa) := by
  have hne : (hidden ssa).id ≠ (running ssa).idOn .localClient := fun h => by
    cases congrArg ObjectId.client h
  rw [runningWorld, World.object?_putSecret, World.object?_putSecret, World.object?_put,
    World.object?_put, World.object?_put, if_neg hne]
  exact ⟨if_pos rfl, if_pos rfl⟩

/-- Whether the sync of the sample is finished, with a local object that is not in deletion, and
leaves a world that passes a test. -/
def finishes (ssa : Bool) (test : World → Bool) : Bool :=
  match Fallible.eval (exec .setting) ((hidden ssa).sync unreported (some (running ssa)))
    (runningWorld ssa) with
  | (.ok (false, _), w') =>
    (w'.object? ((running ssa).idOn .localClient)).any
      (fun n => n.metadata.deletionTimestamp.isNone) && test w'
  | _ => false

theorem finished_running (ssa : Bool) (test : World → Bool) (h : finishes ssa test = true)
    (hid : (hidden ssa).destinationId unreported unreported (some (running ssa)) =
      some ((running ssa).idOn .localClient)) :
    (∃ n, n.metadata.deletionTimestamp = none ∧
      (hidden ssa).Finished unreported (some (running ssa)) (Fallible.eval (exec .setting)
        ((hidden ssa).sync unreported (some (running ssa))) (runningWorld ssa)).1
        (reportedWorld ssa)
        unreported (some { running ssa with
          content := (running ssa).content.setStatus (.str "hidden") }) n) ∧
    test (reportedWorld ssa) = true := by
  unfold finishes at h
  unfold reportedWorld
  split at h
  · next source' w' heval =>
    rw [Bool.and_eq_true, Option.any_eq_true] at h
    obtain ⟨⟨n, hn, hlive⟩, htest⟩ := h
    rw [heval]
    exact ⟨⟨n, by simpa using hlive, ⟨source', rfl⟩, rfl, _, hid, hn⟩, htest⟩
  · cases h

/-- In merge mode the tenant sees the mutated status. -/
theorem status_back_hidden : ∃ n m, n.metadata.deletionTimestamp = none ∧
    hideStatus.mutateStatus n unreported = .ok m ∧
    (reportedWorld false).status? (hidden false).id = some (m.content.field "status") := by
  obtain ⟨⟨n, hlive, hfinished⟩, -⟩ :=
    finished_running false (fun _ => true) (by decide +kernel) rfl
  obtain ⟨hremote, hlocal⟩ := object?_runningWorld false
  have hfound : ∀ d, some (running false) = some d →
      (runningWorld false).object? (d.idOn .localClient) = some d := by
    rintro d ⟨⟩
    exact hlocal
  have hwrites : ∀ m : Unstructured, m.content.field "status" = .str "hidden" →
      m.metadata.deletionTimestamp = none →
      (hidden false).WritesStatus unreported (some { running false with
        content := (running false).content.setStatus (.str "hidden") }) m := by
    intro m hm hmlive
    refine ⟨?_, rfl, hmlive, fun d' hd' => ?_⟩
    · rw [hm]
      decide
    · cases hd'
      rfl
  have hmutated : (hidden false).StatusMutated unreported unreported (some { running false with
      content := (running false).content.setStatus (.str "hidden") }) n :=
    ⟨{ n with content := n.content.setStatus (.str "hidden") }, rfl, fun _ => rfl,
      fun hnot => (hnot (hwrites { n with content := n.content.setStatus (.str "hidden") }
        (Content.field_setStatus _ _) hlive)).elim⟩
  obtain ⟨m, hm, hstatus⟩ := (((hidden false).status_back_iff hremote hfound rfl rfl).2 _ _ n rfl
    hfinished).mpr hmutated
  exact ⟨n, m, hlive, hm, hstatus⟩

/-- With a server-side apply the tenant sees the status as the service cluster has it, and not the
mutated one. -/
theorem apply_leaks_status :
    (runningWorld true).object? (hidden true).id = some unreported ∧
    (runningWorld true).object? ((running true).idOn .localClient) = some (running true) ∧
    ∃ mutated dest' n, n.metadata.deletionTimestamp = none ∧
      (hidden true).Finished unreported (some (running true)) (Fallible.eval (exec .setting)
        ((hidden true).sync unreported (some (running true))) (runningWorld true)).1
        (reportedWorld true) mutated dest' n ∧
      ¬ ∃ m, ((hidden true).syncerOf unreported).mutateStatus n mutated = .ok m ∧
        (reportedWorld true).status? (hidden true).id = some (m.content.field "status") := by
  obtain ⟨hremote, hlocal⟩ := object?_runningWorld true
  obtain ⟨⟨n, hlive, hfinished⟩, hseen⟩ := finished_running true
    (fun w => w.status? (hidden true).id = some (.str "node-7")) (by decide +kernel)
    (by decide +kernel)
  refine ⟨hremote, hlocal, _, _, n, hlive, hfinished, ?_⟩
  rintro ⟨m, hm, hstatus⟩
  have hm' : hideStatus.mutateStatus n unreported = .ok m := hm
  obtain rfl := Except.ok.inj hm'
  rw [decide_eq_true_eq.mp hseen, Content.field_setStatus] at hstatus
  exact absurd hstatus (by decide)

end Primary

end Sync
