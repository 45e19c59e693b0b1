import SyncAgent.Lib.Traces
import SyncAgent.Sync.Runs

/-! What `Process` has done when it returns.  If it returns without an error, no write of it has
failed, apart from the failures that the agent tolerates.  If it moreover asks for no requeue and
does not use server-side apply, it has written nothing but statuses.  Both hold of every trace:
whatever the API servers answer and whoever else acts between the calls. -/

namespace Sync

open Kube

/-- A failure that is as good as a success: an object that exists already is not created, a copy
that is gone is not deleted, and the status of a copy without the subresource is not set. -/
def Tolerated : Prog.Exchange api → Prop
  | ⟨⟨_, .create ..⟩, .error .alreadyExists⟩ => True
  | ⟨⟨scope, .delete ..⟩, .error .notFound⟩ => scope.identifier.isSome = true
  | ⟨⟨scope, .updateStatus ..⟩, .error .notFound⟩ => scope.identifier.isSome = true
  | _ => False

/-- The call is no write, or it went through, or its failure is tolerated. -/
def Settled (e : Prog.Exchange api) : Prop :=
  Call.failure e.1 = none ∨ Call.isError e.1 e.2 = false ∨ Tolerated e

/-- The call is no write, or it is about a status, or it was to delete an object that is gone. -/
def Idle : Prog.Exchange api → Prop
  | ⟨⟨_, .updateStatus ..⟩, _⟩ => True
  | ⟨⟨_, .delete ..⟩, r⟩ => r = .error .notFound
  | ⟨c, _⟩ => Call.failure c = none

theorem Idle.statusOnly {S : Server} {e : Prog.Exchange api} (he : Idle e) {w w' : World}
    (hd : World.Does S e.1 w e.2 w') : w.StatusOnly w' := by
  obtain ⟨⟨scope, verb⟩, r⟩ := e
  have hread : Call.failure ⟨scope, verb⟩ = none → w.StatusOnly w' := by
    intro hnone
    obtain ⟨-, selectors, rfl⟩ := hd.read hnone
    exact .of_objects (fun _ => rfl) fun _ => rfl
  cases verb with
  | updateStatus client obj => exact .of_updateStatus hd
  | delete id policy =>
    obtain rfl : r = .error .notFound := he
    rcases hd with hexec | ⟨hfailed, -⟩
    · simp only [exec, World.deleteObject] at hexec
      split at hexec
      · cases hexec
        exact .refl w
      · split at hexec
        · cases hexec
        · split at hexec
          · cases hexec
          · cases hexec
    · cases hfailed
  | get id live => exact hread he
  | list client typeMeta ns selector limit live => exact hread he
  | getSecret id => exact hread he
  | loadSelector pointer => exact hread he
  | storeSelector pointer selector => exact hread he
  | _ => cases he

/-- `Fallible.Marks` for the two properties of calls. -/
abbrev Marks {α : Type} (p : SyncM α) (done : α → Prop) : Prop := Fallible.Marks Settled Idle p done

/-! ### Single calls -/

section Calls

variable {α : Type} {L : Libraries} {scope : Scope} {done : α → Prop}

theorem marks_of_reads {p : SyncM α} (hp : p.AllCalls fun c : Call => c.failure = none) :
    Marks p done := by
  refine .of_allCalls hp (fun e he => .inl he) fun e he => ?_
  obtain ⟨⟨scope, verb⟩, r⟩ := e
  cases verb with
  | updateStatus client obj => trivial
  | delete id policy => cases he
  | _ => exact he

theorem wrapE_marks {text : String} {r : Except Error α} : Marks (wrapE text r) done :=
  marks_of_reads trivial

theorem write_marks {c : Call} {g : c.verb.Resp → Except Error α}
    (hg : ∀ r x, g r = .ok x → Call.isError c r = false) :
    Marks (Fallible.sendE (I := api) c g) fun _ => False :=
  .sendE (fun r x hr => .inr (.inl (hg r x hr))) fun _ _ _ hx => hx.elim

theorem patch_marks {id : ObjectId} {fields : Fields} :
    Marks (patch scope id fields) fun _ => False := by
  refine write_marks fun r x hr => ?_
  rw [ok_of_mapError hr]
  rfl

theorem update_marks {client : Client} {obj : Unstructured} :
    Marks (update scope client obj) fun _ => False := by
  refine write_marks fun r x hr => ?_
  rw [ok_of_mapError hr]
  rfl

theorem apply_marks {client : Client} {obj : Unstructured} {fieldManager : String} :
    Marks (apply scope client obj fieldManager) fun _ => False := by
  refine write_marks fun r x hr => ?_
  rw [ok_of_mapError hr]
  rfl

theorem delete_marks {id : ObjectId} {policy : DeletionPropagation} :
    Marks (delete scope id policy) fun _ => False := by
  refine write_marks fun r x hr => ?_
  rw [ok_of_mapError hr]
  rfl

theorem secret_marks {b : KubernetesBackend} {done : Option StateSecret → Prop} :
    Marks (b.secret scope) done := by
  refine marks_of_reads (.bind (.request rfl) fun r => ?_)
  split
  · exact .pure
  · exact .pure
  · exact .throw

theorem put_marks {hash : Hash} {b : KubernetesBackend} {obj : Unstructured} {clusterName : String}
    {subresources : List String} :
    Marks (ObjectStateStore.put hash b scope obj clusterName subresources) fun _ => False := by
  refine .seq secret_marks fun found => ?_
  dsimp only
  split
  · refine write_marks fun r x hr => ?_
    rw [ok_of_mapError hr]
    rfl
  · refine write_marks fun r x hr => ?_
    rw [ok_of_mapError hr]
    rfl

theorem get_marks {hash : Hash} {b : KubernetesBackend}
    {source : Unstructured} {clusterName : String}
    {done : Option Unstructured → Prop} :
    Marks (ObjectStateStore.get hash b scope source clusterName) done :=
  .seq (.seq secret_marks fun _ => .pure) fun _ => .pure

end Calls

/-! ### One object -/

section Meta

variable {scope : Scope} {client : Client} {obj : Unstructured} {diff : MergeDiff}

theorem ensureFinalizer_marks :
    Marks (ensureFinalizer diff scope client obj) fun result => result.1 = false := by
  unfold ensureFinalizer
  split
  · exact .pure
  · exact .map patch_marks nofun

theorem removeFinalizer_marks :
    Marks (removeFinalizer diff scope client obj) fun result => result.1 = false := by
  unfold removeFinalizer
  split
  · exact .pure
  · exact .map patch_marks nofun

end Meta

namespace ObjectSyncer

variable {L : Libraries} {scope : Scope} {s : ObjectSyncer} {sourceSide destSide : SyncSide}
  {source : Unstructured} {dest : Option Unstructured}

theorem ensureNamespace_marks {client : Client} {ns : String} :
    Marks (ensureNamespace scope client ns) fun _ => False := by
  unfold ensureNamespace
  split
  · exact .pure
  · refine .request (fun found => ?_) (fun _ _ _ _ => .inl rfl) fun _ _ _ _ hdone => hdone.elim
    split
    · exact .pure
    · refine .request (fun created => ?_) (fun created t u h => ?_) fun _ _ _ _ hdone => hdone.elim
      · split
        · exact .pure
        · exact .pure
        · exact .throw
      · split at h
        · exact .inr (.inl rfl)
        · exact .inr (.inr trivial)
        · exact h.throw.elim
    · exact .throw

theorem adoptExistingDestinationObject_marks {destObj : Unstructured} {sourceKey : ObjectKey} :
    Marks (s.adoptExistingDestinationObject L scope destSide destObj sourceKey) fun _ => False := by
  unfold adoptExistingDestinationObject
  split
  · exact .pure
  · refine .seq (.mapError (marks_of_reads (.sendE rfl))) fun existing => ?_
    exact .never (.mapError update_marks) fun _ => .pure

theorem ensureDestinationObject_marks :
    Marks (s.ensureDestinationObject L scope sourceSide destSide source) fun _ => False := by
  refine .seq wrapE_marks fun destObj => .never (.mapError ensureNamespace_marks) fun _ => ?_
  refine .request (fun created => ?_) (fun created t u h => ?_) fun _ _ _ _ hdone => hdone.elim
  · split
    · exact .mapError put_marks
    · exact .never (.mapError adoptExistingDestinationObject_marks) fun _ => .mapError put_marks
    · exact .never .throw fun _ => .mapError put_marks
  · split at h
    · exact .inr (.inl rfl)
    · exact .inr (.inr trivial)
    · obtain ⟨_, _, _, -, hthrow, -⟩ := h.bind
      exact hthrow.throw.elim

theorem ensureDestMetadataPersisted_marks {d : Unstructured} :
    Marks (s.ensureDestMetadataPersisted L scope destSide d) fun result => result.1 = false := by
  unfold ensureDestMetadataPersisted
  split
  · exact .pure
  · dsimp only
    split
    · exact .pure
    · exact .map (.mapError patch_marks) nofun

theorem syncObjectSpec_marks {d : Unstructured} :
    Marks (s.syncObjectSpec L scope sourceSide destSide source d) fun result =>
      result.1 = false := by
  -- both ways of writing end with a new state and a requeue
  have hwritten : ∀ (p : SyncM Unstructured) (q : SyncM Unit), Marks p (fun _ => False) →
      Marks q (fun _ => False) → Marks (do
        let d' ← p
        q
        return (true, d')) fun result : Bool × Unstructured => result.1 = false := by
    intro p q hp hq
    refine .bind hp (fun d' => .map hq nofun) fun d' t result h hdone => ?_
    obtain ⟨_, _, _, -, -, hrest⟩ := h.bind
    obtain ⟨-, rfl⟩ := hrest.pure
    cases hdone
  refine .seq (.mapError get_marks) fun last => ?_
  split
  · dsimp only
    split
    · exact .pure
    · exact hwritten _ _ (.mapError patch_marks) (.mapError put_marks)
  · exact hwritten _ _ (.mapError update_marks) (.mapError put_marks)

theorem syncObjectStatus_marks {d : Unstructured} :
    Marks (s.syncObjectStatus scope sourceSide source d) fun _ => True := by
  unfold syncObjectStatus
  split
  · exact .pure
  · split
    · exact .pure
    · refine .request (fun r => ?_) (fun r t o h => ?_) fun _ _ _ _ _ => trivial
      · split
        · exact .pure
        · exact .throw
      · split at h
        · exact .inr (.inl rfl)
        · exact h.throw.elim

theorem applyServerSide_marks :
    Marks (s.applyServerSide L scope sourceSide destSide source dest) fun _ => False := by
  refine .seq wrapE_marks fun destObj => .never (.mapError ensureNamespace_marks) fun _ => ?_
  dsimp only
  split
  · split
    · exact .pure
    · exact .never (.mapError apply_marks) fun _ => .pure
  · exact .never (.mapError apply_marks) fun _ => .pure

theorem handleDeletion_marks :
    Marks (s.handleDeletion L scope sourceSide destSide source dest) (· = false) := by
  unfold handleDeletion
  split
  · exact .pure
  · split
    · split
      · exact .pure
      · exact .map (.mapError delete_marks) nofun
    · exact .map (.mapError removeFinalizer_marks) fun _ hdone => hdone

section Forward

variable (hforward : s.syncStatusForward = true → scope.identifier.isSome = true)

include hforward

theorem syncObjectStatusForward_marks {d : Unstructured} :
    Marks (s.syncObjectStatusForward scope destSide source d) fun _ => True := by
  unfold syncObjectStatusForward
  split
  · exact .pure
  · next hback =>
    have hscope := hforward (by simpa using hback)
    split
    · exact .pure
    · refine .request (fun r => ?_) (fun r t o h => ?_) fun _ _ _ _ _ => trivial
      · split
        · exact .pure
        · exact .pure
        · exact .throw
      · split at h
        · exact .inr (.inl rfl)
        · exact .inr (.inr hscope)
        · exact h.throw.elim

theorem syncObjectContents_marks {d : Unstructured} :
    Marks (s.syncObjectContents L scope sourceSide destSide source d)
      fun result => result.1 = false := by
  refine .bind syncObjectSpec_marks (fun spec => ?_) fun spec t result h hdone => ?_
  · refine .seq (syncObjectStatusForward_marks hforward) fun _ => ?_
    split
    · exact .pure
    · exact .seq syncObjectStatus_marks fun _ => .pure
  · obtain ⟨_, _, _, -, -, h⟩ := h.bind
    exact h.not_early (by rintro rfl; cases hdone)

theorem syncMutated_marks :
    Marks (s.syncMutated L scope sourceSide destSide source dest)
      fun result => s.useServerSideApply = false ∧ result.1 = false := by
  unfold syncMutated
  split
  · next hmode =>
    refine .bind (.mapError applyServerSide_marks) (fun newDest => ?_)
      fun _ _ _ _ hdone => by cases hmode.symm.trans hdone.1
    split
    · exact .pure
    · split
      · exact .pure
      · exact .seq syncObjectStatus_marks fun _ => .pure
  · split
    · exact .map (.mapError ensureDestinationObject_marks) nofun
    · split
      · exact .pure
      · refine .bind (.mapError ensureDestMetadataPersisted_marks) (fun result => ?_)
          fun first t result h hdone => ?_
        · obtain ⟨restamped, d⟩ := result
          dsimp only
          split
          · exact .pure
          · exact (Fallible.Marks.mapError (syncObjectContents_marks hforward)).mono
              fun _ _ _ hdone => hdone.2
        · obtain ⟨restamped, d⟩ := first
          exact h.not_early (by rintro rfl; cases hdone.2)

theorem sync_marks :
    Marks (s.sync L scope sourceSide destSide source dest)
      fun result => s.useServerSideApply = false ∧ result.1 = false := by
  unfold sync
  split
  · exact .map handleDeletion_marks fun _ hdone => hdone.2
  · have hfinalizer : Marks (if s.blockSourceDeletion = true then
        wrap "failed to add cleanup finalizer to source object"
          (ensureFinalizer L.diff scope sourceSide.client source)
        else pure (false, source)) fun result => result.1 = false := by
      split
      · exact .mapError ensureFinalizer_marks
      · exact .pure
    refine .bind hfinalizer (fun first => ?_) fun first t result h hdone => ?_
    · obtain ⟨updated, source⟩ := first
      dsimp only
      split
      · exact .pure
      · exact .seq wrapE_marks fun mutated => .map (syncMutated_marks hforward) fun _ hdone => hdone
    · obtain ⟨updated, source⟩ := first
      exact h.not_early (by rintro rfl; cases hdone.2)

end Forward

end ObjectSyncer

/-! ### Related resources -/

namespace ResourceSyncer

variable {s : ResourceSyncer} {scope : Scope} {remote local' : ObjectSide}
  {stateStore : KubernetesBackend} {relRes : RelatedResourceSpec} {primaryDeleting : Bool}

theorem syncResolved_marks {origin dest : SyncSide} {projectedGVK : TypeMeta}
    {resolved : ResolvedObject} (hscope : scope.identifier.isSome = true) :
    Marks (s.syncResolved scope stateStore remote origin dest relRes primaryDeleting projectedGVK
      resolved) fun requeue => s.useServerSideApply = false ∧ requeue = false := by
  refine .seq (marks_of_reads (.request rfl)) fun found => ?_
  exact .map (.mapError (ObjectSyncer.sync_marks fun _ => hscope)) fun _ hdone => hdone

theorem rememberRelatedObjects_marks {identifier : String} {resolvedObjects : List ResolvedObject} :
    Marks (s.rememberRelatedObjects scope remote identifier resolvedObjects) (· = false) := by
  unfold rememberRelatedObjects
  split
  · exact .pure
  · dsimp only
    split
    · exact .pure
    · exact .map (.mapError patch_marks) nofun

theorem pruneCopy_marks {dest : SyncSide} {keep : Option (List String)}
    {deletionPolicies : SortedMap String DeletionPropagation} {item : Unstructured}
    (hscope : scope.identifier.isSome = true) :
    Marks (pruneCopy scope dest keep deletionPolicies item) (· = false) := by
  unfold pruneCopy
  split
  · exact .pure
  · split
    · exact .pure
    · refine .request (fun r => ?_) (fun r t requeue h => ?_) fun r t requeue h hdone => ?_
      · split
        · exact .pure
        · exact .pure
        · exact .throw
      · split at h
        · exact .inr (.inl rfl)
        · exact .inr (.inr hscope)
        · exact h.throw.elim
      · split at h
        · obtain ⟨-, rfl⟩ := h.pure
          cases hdone
        · exact rfl
        · exact h.throw.elim

theorem pruneRelatedCopies_marks {dest : SyncSide} {projectedGVK : TypeMeta} {selector : Selector}
    {keep : Option (List String)} {deletionPolicies : SortedMap String DeletionPropagation}
    (hscope : scope.identifier.isSome = true) :
    Marks (pruneRelatedCopies scope dest projectedGVK selector keep deletionPolicies)
      (· = false) := by
  refine .seq (.mapError (marks_of_reads (.sendE rfl))) fun items => ?_
  exact .map (.forEach fun item _ => pruneCopy_marks hscope) fun requeues hdone => by
    simpa using hdone

theorem cleanUpRelatedCopies_marks {origin dest : ObjectSide} {projectedGVK : TypeMeta}
    {resolvedObjects : List ResolvedObject} {requeue : Bool}
    (hscope : scope.identifier.isSome = true) :
    Marks (s.cleanUpRelatedCopies scope remote origin dest relRes primaryDeleting projectedGVK
      resolvedObjects requeue) (· = false) := by
  have hprune : ∀ (text : String) (selector : Selector) (keep : Option (List String))
      (policies : SortedMap String DeletionPropagation), Marks (do
        let pruned ← wrap text
          (pruneRelatedCopies scope dest.toSyncSide projectedGVK selector keep policies)
        return requeue || pruned : SyncM Bool) (· = false) := by
    exact fun text selector keep policies => .map (.mapError (pruneRelatedCopies_marks hscope))
      fun pruned hdone => (Bool.or_eq_false_iff.mp hdone).2
  have hconfirm : Marks (s.confirmOriginEmpty scope origin dest relRes) fun _ => True := by
    unfold confirmOriginEmpty
    split
    · exact .pure
    · refine .seq (marks_of_reads (.mono resolveRelatedResourceObjects_allCalls ?_)) fun _ => .pure
      exact fun c hc => hc.2
  unfold cleanUpRelatedCopies
  dsimp only
  split
  · exact hprune _ _ _ _
  · split
    · split
      · refine .seq (.mapError hconfirm) fun checked => ?_
        split
        · exact .pure
        · exact .pure
        · exact hprune _ _ _ _
      · exact hprune _ _ _ _
    · exact .pure

theorem requeue_of_cleanUpRelatedCopies {origin dest : ObjectSide} {projectedGVK : TypeMeta}
    {resolvedObjects : List ResolvedObject} {requeue : Bool} {t : List (Prog.Exchange api)}
    (h : Fallible.Trace (s.cleanUpRelatedCopies scope remote origin dest relRes primaryDeleting
      projectedGVK resolvedObjects requeue) t false) : requeue = false := by
  have hprune : ∀ {p : SyncM Bool} {t : List (Prog.Exchange api)},
      Fallible.Trace (do return requeue || (← p) : SyncM Bool) t false → requeue = false := by
    intro p t h
    obtain ⟨pruned, _, _, -, -, hrest⟩ := h.bind
    obtain ⟨-, hor⟩ := hrest.pure
    exact (Bool.or_eq_false_iff.mp hor.symm).1
  unfold cleanUpRelatedCopies at h
  dsimp only at h
  split at h
  · exact hprune h
  · split at h
    · split at h
      · obtain ⟨checked, _, _, -, -, h⟩ := h.bind
        split at h
        · exact h.pure.2.symm
        · cases h.pure.2
        · exact hprune h
      · exact hprune h
    · exact h.pure.2.symm

theorem processRelatedResource_marks :
    Marks (s.processRelatedResource scope stateStore remote local' relRes primaryDeleting)
      fun requeue => s.useServerSideApply = false ∧ requeue = false := by
  refine .seq (.mapError (marks_of_reads (.mono resolveRelatedResourceObjects_allCalls
    fun c hc => hc.2))) fun found => .seq wrapE_marks fun projectedGVK => ?_
  refine .bind (.forEach fun resolved _ => syncResolved_marks rfl) (fun requeues => ?_) ?_
  · -- what is remembered, and the clean-up
    refine .bind (?_ : Marks _ (· = false)) (fun remembered => ?_)
      fun remembered t requeue h hdone => ?_
    · split
      · exact rememberRelatedObjects_marks
      · exact .pure
    · split
      · exact .pure
      · exact (cleanUpRelatedCopies_marks rfl).mono fun _ _ _ hdone => hdone.2
    · exact h.not_early (by rintro rfl; cases hdone.2)
  · intro requeues t requeue h hdone requeue' hmem
    refine ⟨hdone.1, ?_⟩
    obtain ⟨remembered, _, _, -, -, h⟩ := h.bind
    split at h
    · obtain ⟨-, rfl⟩ := h.pure
      cases hdone.2
    · obtain rfl := hdone.2
      have hany := requeue_of_cleanUpRelatedCopies h
      exact by simpa using List.any_eq_false.mp hany requeue' hmem

theorem processRelatedResources_marks :
    Marks (s.processRelatedResources scope stateStore remote local' primaryDeleting)
      fun requeue => s.useServerSideApply = false ∧ requeue = false := by
  unfold processRelatedResources
  induction s.pubRes.related with
  | nil => exact .pure
  | cons relRes rest ih =>
    refine .bind (.mapError processRelatedResource_marks) (fun requeue => ?_)
      fun requeue t result h hdone => ?_
    · split
      · exact .pure
      · exact ih
    · exact ⟨hdone.1, h.not_early (by rintro rfl; cases hdone.2)⟩

/-! ### The primary object -/

theorem findLocalObject_marks {objectKey : ObjectKey} :
    Marks (s.findLocalObject scope objectKey) fun _ => True := by
  refine marks_of_reads (.bind (.mapError (.sendE rfl)) fun items => ?_)
  split
  · exact .pure
  · exact .pure
  · exact .throw

theorem process_marks {clusterName workspacePath : String} {r : Unstructured} :
    Marks (s.process clusterName workspacePath r)
      fun requeue => s.useServerSideApply = false ∧ requeue = false := by
  refine .seq (.mapError findLocalObject_marks) fun localObj => ?_
  refine .bind (?_ : Marks _ fun cleaning => s.useServerSideApply = false ∧ cleaning = false)
    (fun cleaning => ?_) fun cleaning t requeue h hdone => ?_
  · split
    · split
      · exact .mapError processRelatedResources_marks
      · exact .pure
    · exact .pure
  · split
    · exact .pure
    · refine .bind (ObjectSyncer.sync_marks fun hforward => by cases hforward) (fun synced => ?_)
        fun synced t requeue h hdone => ?_
      · obtain ⟨requeue, r⟩ := synced
        dsimp only
        split
        · exact .pure
        · split
          · exact .pure
          · exact processRelatedResources_marks
      · obtain ⟨requeue', r⟩ := synced
        exact ⟨hdone.1, h.not_early (by rintro rfl; cases hdone.2)⟩
  · exact ⟨hdone.1, h.not_early (by rintro rfl; cases hdone.2)⟩

/-- The sample object as it is stored. -/
def storedSample : Unstructured :=
    { Primary.sampleObject ∅ default with metadata.resourceVersion := 1 }

/-- `Process` of the sample. -/
def sampleProcess : SyncM Bool := (Primary.sample []).syncer.process "c1" "root" storedSample

/-- The sample after a first pass, which creates the copy, when the copy has got a status. -/
def reportedSample : World :=
  let w := (Fallible.eval (exec .setting) sampleProcess
    (World.empty.put (.remoteClient "c1") storedSample)).2
  match w.object? Primary.sampleCopy with
  | some copy => w.put .localClient { copy with content := copy.content.setStatus (.str "node-7") }
  | none => w

theorem exists_finished : ∃ t, Fallible.Trace sampleProcess t false ∧
    t.any (fun e => (Call.failure e.1).isSome) = true := by
  obtain ⟨t, htrace, hcalls⟩ := Prog.trace_eval (exec .setting) sampleProcess.run reportedSample
  have heval :
      (Fallible.eval (exec .setting) sampleProcess reportedSample).1.toOption = some false ∧
      (Fallible.calls (exec .setting) sampleProcess reportedSample).any
        (fun c => (Call.failure c).isSome) = true := by decide +kernel
  refine ⟨t, ?_, ?_⟩
  · have hok : (sampleProcess.run.eval (exec .setting) reportedSample).1 = .ok false := by
      have hopt := heval.1
      unfold Fallible.eval at hopt
      cases hresult : (sampleProcess.run.eval (exec .setting) reportedSample).1 with
      | error e =>
        rw [hresult] at hopt
        cases hopt
      | ok requeue =>
        rw [hresult] at hopt
        cases hopt
        rfl
    rw [hok] at htrace
    exact htrace
  · have hany := heval.2
    unfold Fallible.calls at hany
    rw [← hcalls, List.any_map] at hany
    exact hany

/-- No failed write is passed over: a `Process` that returns without an error has seen its writes go
through, or fail in a way that the agent tolerates. -/
theorem process_settled {clusterName workspacePath : String} {r : Unstructured}
    {t : List (Prog.Exchange api)} {requeue : Bool}
    (h : Fallible.Trace (s.process clusterName workspacePath r) t requeue) : ∀ e ∈ t, Settled e :=
  (process_marks t requeue h).1

theorem process_settled_sample : ∃ t, Fallible.Trace sampleProcess t false ∧
    ∀ e ∈ t, Settled e := by
  obtain ⟨t, htrace, -⟩ := exists_finished
  exact ⟨t, htrace, process_settled htrace⟩

/-- A `Process` without server-side apply that is finished has changed nothing but statuses with any
of its calls. -/
theorem process_finished {clusterName workspacePath : String} {r : Unstructured}
    {t : List (Prog.Exchange api)} (hmode : s.useServerSideApply = false)
    (h : Fallible.Trace (s.process clusterName workspacePath r) t false) {S : Server} :
    ∀ e ∈ t, ∀ w w', World.Does S e.1 w e.2 w' → w.StatusOnly w' :=
  fun e he _ _ hd => ((process_marks t false h).2 ⟨hmode, rfl⟩ e he).statusOnly hd

theorem process_finished_sample : ∃ t, Fallible.Trace sampleProcess t false ∧
    (t.any fun e => (Call.failure e.1).isSome) = true ∧
    ∀ e ∈ t, ∀ w w', World.Does .setting e.1 w e.2 w' → w.StatusOnly w' := by
  obtain ⟨t, htrace, hstatus⟩ := exists_finished
  exact ⟨t, htrace, hstatus, process_finished rfl htrace⟩

end ResourceSyncer

end Sync
