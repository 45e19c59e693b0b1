import SyncAgent.Projection.Versions
import SyncAgent.Sync.DyingCopies
import SyncAgent.Sync.Pass

/-! The construction of a syncer (`NewResourceSyncer`), and what it does with a status that is no
subresource: the syncer knows that from the CustomResourceDefinition, but the sync back of the
status does not look at it. -/

namespace Sync

open Kube

/-- The options of a syncer. -/
structure SyncerOptions where
  useServerSideApply : Bool := false
  localAPIReader : Bool := true
  remoteAPIReader : Bool := true

/-- The subresources that a CRD has in a version. -/
def subresourcesOf (crd : Projection.Crd) (version : String) : List String :=
  crd.spec.versions.flatMap fun v =>
    if v.name = version then ["scale", "status"].filter v.hasSubresource else []

/-- The mutators of the related resources, by identifier. -/
def createRelatedMutators (quote : String → String)
    (mutatorCreator : RelatedResourceSpec → Except Error (Option Mutator))
    (related : List RelatedResourceSpec) : Except Error (String → Option Mutator) :=
  related.foldlM (fun relatedMutators rr => do
    let mutator ← (mutatorCreator rr).mapError
      (.wrapped ("failed to create related object " ++ quote rr.identifier ++ " mutator"))
    return fun identifier =>
      if identifier = rr.identifier then mutator else relatedMutators identifier) fun _ => none

/-- `NewResourceSyncer`; `rules` are the part of the PublishedResource that the projection reads,
and `mutatorCreator` makes the mutator of the primary object (`none`) or of a related resource. -/
def newResourceSyncer (libs : Libraries) (projection : Projection.Libraries)
    (pubRes : PublishedResource) (rules : Projection.Rules) (hkind : rules.resource.kind ≠ "")
    (localCRD : Projection.Crd)
    (mutatorCreator : Option RelatedResourceSpec → Except Error (Option Mutator))
    (stateNamespace agentName : String) (opts : SyncerOptions) : Except Error ResourceSyncer := do
  let localGVK ← Projection.publishedResourceSourceGVK localCRD rules
  -- the type in the workspace is only logged
  let _ ← Projection.publishedResourceProjectedGVK projection localCRD rules
  let primaryMutator ← (mutatorCreator none).mapError
    (.wrapped "failed to create primary object mutator")
  let relatedMutators ← createRelatedMutators projection.quote (fun rr => mutatorCreator (some rr))
    pubRes.related
  return {
    libs := libs
    pubRes := pubRes
    destType := ⟨localGVK.apiVersion, rules.resource.kind, hkind⟩
    destScope := localCRD.spec.scope
    subresources := subresourcesOf localCRD localGVK.version
    primaryMutator := primaryMutator
    relatedMutators := relatedMutators
    agentName := agentName
    useServerSideApply := opts.useServerSideApply
    stateNamespace := stateNamespace
    localAPIReader := opts.localAPIReader
    remoteAPIReader := opts.remoteAPIReader }

theorem status_mem_subresourcesOf {crd : Projection.Crd} {version : String} :
    "status" ∈ subresourcesOf crd version ↔
      ∃ v ∈ crd.spec.versions, v.name = version ∧ v.hasSubresource "status" = true := by
  unfold subresourcesOf
  rw [List.mem_flatMap]
  refine exists_congr fun v => and_congr_right fun _ => ?_
  split
  · next hname => simp [hname]
  · next hname => simp [hname]

theorem subresources_newResourceSyncer {libs : Libraries} {projection : Projection.Libraries}
    {pubRes : PublishedResource} {rules : Projection.Rules} {hkind : rules.resource.kind ≠ ""}
    {crd : Projection.Crd}
    {mutatorCreator : Option RelatedResourceSpec → Except Error (Option Mutator)}
    {stateNamespace agentName : String} {opts : SyncerOptions} {s : ResourceSyncer}
    {gvk : Projection.GroupVersionKind}
    (hgvk : Projection.publishedResourceSourceGVK crd rules = .ok gvk)
    (h : newResourceSyncer libs projection pubRes rules hkind crd mutatorCreator stateNamespace
      agentName opts = .ok s) : s.subresources = subresourcesOf crd gvk.version := by
  obtain ⟨localGVK, hlocal, h⟩ := exists_of_bind_eq_ok h
  obtain ⟨_, -, h⟩ := exists_of_bind_eq_ok h
  obtain ⟨primaryMutator, -, h⟩ := exists_of_bind_eq_ok h
  obtain ⟨relatedMutators, -, h⟩ := exists_of_bind_eq_ok h
  cases hgvk.symm.trans hlocal
  cases h
  rfl

/-! ### The sync back of the status -/

/-- The status of an object of the source side is updated on behalf of the primary object. -/
def BackSyncs (scope : Scope) (client : Client) (c : Call) : Prop :=
  c.scope = scope ∧ ∃ obj, c.verb = .updateStatus client obj

theorem QuietCall.not_backSyncs {scope : Scope} {sourceClient destClient : Client} {c : Call}
    (hclients : sourceClient ≠ destClient) (h : QuietCall sourceClient destClient c) :
    ¬ BackSyncs scope sourceClient c := by
  obtain ⟨scope', verb⟩ := c
  rintro ⟨-, obj, hverb⟩
  cases hverb
  rcases h with h | h | ⟨id, htarget, hid⟩ | ⟨_, _, -, h⟩
  · cases h
  · cases h
  · cases htarget
    exact hclients hid
  · cases h

/-- The error of an update of the status that has failed, as `Process` returns it. -/
def StatusFailure (e : Error) : Prop :=
  ∃ err, e = .wrapped "failed to update source object status" err ∨
    e = .wrapped "failed to synchronize object state"
      (.wrapped "failed to update source object status" err)

section FailsAfter

variable {α : Type} {P : Call → Prop} {Q : Error → Prop} {text : String}

theorem wrap_failsAfter {p : SyncM α} (h : ∀ e, ¬ Q (.wrapped text e)) :
    (wrap text p).FailsAfter P Q := .mapError (.of_forall h p)

theorem wrapE_failsAfter {result : Except Error α} (h : ∀ e, ¬ Q (.wrapped text e)) :
    (wrapE text result).FailsAfter P Q := by
  intro e he
  cases result with
  | error err =>
    cases he
    exact h err
  | ok a => cases he

end FailsAfter

namespace ObjectSyncer

variable {S : Server} {L : Libraries} {scope : Scope} {σ : ObjectSyncer}
  {sourceSide destSide : SyncSide} {source mutated d : Unstructured}
  {dest dest' : Option Unstructured} {w : World}

variable (S L scope σ sourceSide destSide) in
/-- The destination object whose status is compared with that of the mutated source object: the one
that was found, if there is nothing else to do for it, and in a server-side apply the one that the
server returns.  It is not in deletion. -/
inductive Compares (mutated : Unstructured) (dest' : Option Unstructured) (w : World) :
    Unstructured → Prop
  | found {d : Unstructured} : σ.useServerSideApply = false → dest' = some d →
      d.metadata.deletionTimestamp = none → σ.Stamped d → σ.Unchanged L sourceSide mutated d w →
      Compares mutated dest' w d
  | applied {destObj d : Unstructured} {w₁ : World} : σ.useServerSideApply = true →
      (∀ d', dest' = some d' → d'.metadata.deletionTimestamp = none) →
      σ.destCreator mutated = .ok destObj →
      Fallible.eval (exec S) (ensureNamespace scope destSide.client destObj.metadata.ns) w =
        (.ok (), w₁) →
      (exec S ⟨scope, .apply destSide.client (σ.applyPayload L sourceSide mutated destObj)
        σ.fieldManager⟩ w₁).1 = .ok d →
      d.metadata.deletionTimestamp = none → Compares mutated dest' w d

theorem not_someCall_of_write {α : Type} {p : SyncM α}
    (hclients : sourceSide.client ≠ destSide.client)
    (hp : p.AllCalls fun c => WriteCall destSide.client c) :
    ¬ Fallible.SomeCall (exec S) (BackSyncs scope sourceSide.client) p w :=
  Fallible.AllCalls.not_someCall (.mono hp fun _ hc => (hc.quiet _).not_backSyncs hclients)

theorem someCall_status : Fallible.SomeCall (exec S) (BackSyncs scope sourceSide.client)
      (σ.syncObjectStatus scope sourceSide mutated d) w ↔
    σ.syncStatusBack = true ∧ mutated.content.field "status" ≠ d.content.field "status" := by
  unfold syncObjectStatus
  cases hback : σ.syncStatusBack with
  | false => simp
  | true =>
    rw [if_neg (by simp), and_iff_right rfl]
    split
    · next hsame => simp [hsame]
    · next hdiffer =>
      refine iff_of_true ?_ hdiffer
      rw [Fallible.someCall_bind]
      exact .inl (Fallible.someCall_request.mpr ⟨rfl, _, rfl⟩)

theorem eval_applyServerSide (hlive : d.metadata.deletionTimestamp = none) :
    (∃ w', Fallible.eval (exec S) (σ.applyServerSide L scope sourceSide destSide mutated dest') w =
      (.ok (some d), w')) ↔
    ∃ destObj w₁, (∀ d', dest' = some d' → d'.metadata.deletionTimestamp = none) ∧
      σ.destCreator mutated = .ok destObj ∧
      Fallible.eval (exec S) (ensureNamespace scope destSide.client destObj.metadata.ns) w =
        (.ok (), w₁) ∧
      (exec S ⟨scope, .apply destSide.client (σ.applyPayload L sourceSide mutated destObj)
        σ.fieldManager⟩ w₁).1 = .ok d := by
  constructor
  · rintro ⟨w', h⟩
    obtain ⟨destObj, w₁, hcreator, hafter⟩ := Returns.bind h
    obtain ⟨hdest, rfl⟩ := hcreator.wrapE
    obtain ⟨_, w₂, hensure, hrest⟩ := hafter.bind
    have happlied : ∀ {w}, Returns S (do
        let d' ← wrap "failed to server-side apply destination object"
          (apply scope destSide.client (σ.applyPayload L sourceSide mutated destObj) σ.fieldManager)
        return some d') w₂ (some d) w → (exec S ⟨scope, .apply destSide.client
          (σ.applyPayload L sourceSide mutated destObj) σ.fieldManager⟩ w₂).1 = .ok d := by
      intro w h
      obtain ⟨o, w₃, happly, hend⟩ := h.bind
      obtain ⟨heq, rfl⟩ := hend.pure
      cases heq
      rw [happly.wrap.apply]
    cases dest' with
    | none => exact ⟨destObj, w₂, fun _ h => (by cases h), hdest, hensure.wrap, happlied hrest⟩
    | some d' =>
      dsimp only at hrest
      split at hrest
      · next hdying =>
        obtain ⟨heq, -⟩ := hrest.pure
        cases heq
        rw [hlive] at hdying
        cases hdying
      · next hnot =>
        refine ⟨destObj, w₂, ?_, hdest, hensure.wrap, happlied hrest⟩
        rintro _ ⟨⟩
        simpa using hnot
  · rintro ⟨destObj, w₁, hfound, hcreator, hns, happly⟩
    obtain ⟨w₂, heval⟩ : ∃ w₂, Fallible.eval (exec S) (apply scope destSide.client
        (σ.applyPayload L sourceSide mutated destObj) σ.fieldManager) w₁ = (.ok d, w₂) := by
      rw [apply, Fallible.eval_sendE, happly]
      exact ⟨_, rfl⟩
    have hreturns : ∀ p : SyncM (Option Unstructured), p = (do
        let d' ← wrap "failed to server-side apply destination object"
          (apply scope destSide.client (σ.applyPayload L sourceSide mutated destObj) σ.fieldManager)
        return some d') → ∃ w', Fallible.eval (exec S) p w₁ = (.ok (some d), w') := by
      rintro _ rfl
      rw [Fallible.eval_bind, eval_wrap heval]
      exact ⟨w₂, rfl⟩
    unfold applyServerSide
    rw [hcreator, Fallible.eval_bind, show Fallible.eval (exec S) (wrapE _ (.ok destObj)) w =
      (.ok destObj, w) from rfl]
    dsimp only
    rw [Fallible.eval_bind, eval_wrap hns]
    cases dest' with
    | none => exact hreturns _ rfl
    | some d' => exact hreturns _ (if_neg (by simp [hfound d' rfl]))

theorem someCall_contents_back (hclients : sourceSide.client ≠ destSide.client)
    (hforward : σ.syncStatusForward = false) :
    Fallible.SomeCall (exec S) (BackSyncs scope sourceSide.client)
      (σ.syncObjectContents L scope sourceSide destSide mutated d) w ↔
    σ.Unchanged L sourceSide mutated d w ∧ σ.syncStatusBack = true ∧
      mutated.content.field "status" ≠ d.content.field "status" := by
  have hspec : ¬ Fallible.SomeCall (exec S) (BackSyncs scope sourceSide.client)
      (σ.syncObjectSpec L scope sourceSide destSide mutated d) w :=
    not_someCall_of_write hclients syncObjectSpec_writes
  have hforwarded : ∀ o, σ.syncObjectStatusForward scope destSide mutated o = pure () :=
    fun o => if_pos (by simp [hforward])
  unfold syncObjectContents
  simp only [hforwarded]
  by_cases hunchanged : σ.Unchanged L sourceSide mutated d w
  · rw [Fallible.someCall_bind_of_eval (eval_spec_of_unchanged hunchanged), or_iff_right hspec,
      and_iff_right hunchanged]
    show Fallible.SomeCall (exec S) _
      (σ.syncObjectStatus scope sourceSide mutated d >>= fun source =>
      (pure (false, source) : SyncM _)) w ↔ _
    rw [Fallible.someCall_bind, or_iff_left (by simp), someCall_status]
  · refine iff_of_false ?_ fun h => hunchanged h.1
    rw [Fallible.someCall_bind, or_iff_right hspec]
    rintro ⟨⟨requeue, o⟩, w', heval, h⟩
    cases syncObjectSpec_returns heval with
    | clean hlast hclean => exact hunchanged ⟨_, hlast, hclean⟩
    | patched => exact Fallible.someCall_pure.mp h
    | updated => exact Fallible.someCall_pure.mp h

theorem someCall_syncMutated_back (hclients : sourceSide.client ≠ destSide.client)
    (hforward : σ.syncStatusForward = false) :
    Fallible.SomeCall (exec S) (BackSyncs scope sourceSide.client)
      (σ.syncMutated L scope sourceSide destSide mutated dest') w ↔
    σ.syncStatusBack = true ∧ ∃ d, σ.Compares S L scope sourceSide destSide mutated dest' w d ∧
      mutated.content.field "status" ≠ d.content.field "status" := by
  unfold syncMutated
  cases hssa : σ.useServerSideApply with
  | true =>
    rw [if_pos rfl, Fallible.someCall_bind, someCall_wrap,
      or_iff_right (not_someCall_of_write hclients applyServerSide_writes)]
    constructor
    · rintro ⟨newDest, w', heval, h⟩
      cases newDest with
      | none => exact (Fallible.someCall_pure.mp h).elim
      | some d =>
        dsimp only at h
        split at h
        · exact (Fallible.someCall_pure.mp h).elim
        · next hlive =>
          replace hlive : d.metadata.deletionTimestamp = none := by simpa using hlive
          rw [Fallible.someCall_bind, or_iff_left (by simp), someCall_status] at h
          obtain ⟨destObj, w₁, hfound, hcreator, hns, happly⟩ :=
            (eval_applyServerSide hlive).mp ⟨w', Returns.wrap heval⟩
          exact ⟨h.1, d, .applied hssa hfound hcreator hns happly hlive, h.2⟩
    · rintro ⟨hback, d, hcompares, hdiffer⟩
      cases hcompares with
      | found hmerge => cases hssa.symm.trans hmerge
      | applied _ hfound hcreator hns happly hlive =>
        obtain ⟨w', heval⟩ := (eval_applyServerSide hlive).mpr ⟨_, _, hfound, hcreator, hns, happly⟩
        refine ⟨some d, w', eval_wrap heval, ?_⟩
        dsimp only
        rw [if_neg (by simp [hlive]), Fallible.someCall_bind]
        exact .inl (someCall_status.mpr ⟨hback, hdiffer⟩)
  | false =>
    rw [if_neg (by simp)]
    cases dest' with
    | none =>
      dsimp only
      rw [Fallible.someCall_bind, someCall_wrap,
        or_iff_right (not_someCall_of_write hclients ensureDestinationObject_writes)]
      refine iff_of_false ?_ ?_
      · rintro ⟨_, _, -, h⟩
        exact Fallible.someCall_pure.mp h
      · rintro ⟨-, d, hcompares, -⟩
        cases hcompares with
        | found _ hdest => cases hdest
        | applied hssa' => cases hssa.symm.trans hssa'
    | some d =>
      have hcompares : ∀ d', σ.Compares S L scope sourceSide destSide mutated (some d) w d' ↔
          d' = d ∧ d.metadata.deletionTimestamp = none ∧ σ.Stamped d ∧
            σ.Unchanged L sourceSide mutated d w := by
        intro d'
        constructor
        · intro h
          cases h with
          | found _ hdest hlive hstamped hunchanged =>
            cases hdest
            exact ⟨rfl, hlive, hstamped, hunchanged⟩
          | applied hssa' => cases hssa.symm.trans hssa'
        · rintro ⟨rfl, hlive, hstamped, hunchanged⟩
          exact .found hssa rfl hlive hstamped hunchanged
      simp only [hcompares]
      cases hdying : d.metadata.deletionTimestamp with
      | some time =>
        rw [if_pos (by simp), Fallible.someCall_pure]
        refine iff_of_false not_false ?_
        rintro ⟨-, _, ⟨-, h, -⟩, -⟩
        cases h
      | none =>
        rw [if_neg (by simp)]
        by_cases hstamped : σ.Stamped d
        · rw [persisted_of_stamped hstamped, Fallible.someCall_bind_of_eval (eval_wrap rfl),
            someCall_wrap, Fallible.someCall_pure, false_or]
          dsimp only
          rw [if_neg (by simp), someCall_wrap, someCall_contents_back hclients hforward]
          constructor
          · rintro ⟨hunchanged, hback, hdiffer⟩
            exact ⟨hback, d, ⟨rfl, rfl, hstamped, hunchanged⟩, hdiffer⟩
          · rintro ⟨hback, _, ⟨rfl, -, -, hunchanged⟩, hdiffer⟩
            exact ⟨hunchanged, hback, hdiffer⟩
        · refine iff_of_false ?_ fun ⟨_, _, ⟨_, _, h, _⟩, _⟩ => hstamped h
          rw [Fallible.someCall_bind, someCall_wrap,
            or_iff_right (not_someCall_of_write hclients ensureDestMetadataPersisted_writes)]
          rintro ⟨⟨restamped, o⟩, w', heval, h⟩
          rcases ensureDestMetadataPersisted_returns (Returns.wrap heval) with
            ⟨-, -, -, h'⟩ | ⟨rfl, -⟩
          · exact hstamped h'
          · exact Fallible.someCall_pure.mp h

/-! ### The error -/

theorem syncObjectStatus_failsAfter {Q : Error → Prop} : (σ.syncObjectStatus scope sourceSide source
    d).FailsAfter (BackSyncs scope sourceSide.client) Q := by
  unfold syncObjectStatus
  split
  · exact .pure
  · split
    · exact .pure
    · exact .of_call ⟨rfl, _, rfl⟩

theorem syncObjectContents_failsAfter : (σ.syncObjectContents L scope sourceSide destSide source
      d).FailsAfter (BackSyncs scope sourceSide.client) fun e =>
    StatusFailure (.wrapped "failed to synchronize object state" e) := by
  unfold syncObjectContents syncObjectSpec syncObjectStatusForward
  refine .bind (.bind (wrap_failsAfter (by simp [StatusFailure])) fun last => ?_) fun r =>
    .bind ?_ fun _ => ?_
  · split
    · dsimp only
      split
      · exact .pure
      · exact .bind (wrap_failsAfter (by simp [StatusFailure])) fun _ =>
          .bind (wrap_failsAfter (by simp [StatusFailure])) fun _ => .pure
    · exact .bind (wrap_failsAfter (by simp [StatusFailure])) fun _ =>
        .bind (wrap_failsAfter (by simp [StatusFailure])) fun _ => .pure
  · split
    · exact .pure
    · split
      · exact .pure
      · refine .request fun response => ?_
        split
        · exact .pure
        · exact .pure
        · exact .throw (by simp [StatusFailure])
  · split
    · exact .pure
    · exact .bind syncObjectStatus_failsAfter fun _ => .pure

/-- `Sync` fails because of the status only after it has updated it. -/
theorem sync_failsAfter : (σ.sync L scope sourceSide destSide source dest).FailsAfter
    (BackSyncs scope sourceSide.client) StatusFailure := by
  have hmutated : ∀ mutated dest', (σ.syncMutated L scope sourceSide destSide mutated
      dest').FailsAfter (BackSyncs scope sourceSide.client) StatusFailure := by
    intro mutated dest'
    unfold syncMutated
    split
    · refine .bind (wrap_failsAfter (by simp [StatusFailure])) fun newDest => ?_
      split
      · exact .pure
      · split
        · exact .pure
        · exact .bind syncObjectStatus_failsAfter fun _ => .pure
    · split
      · exact .bind (wrap_failsAfter (by simp [StatusFailure])) fun _ => .pure
      · split
        · exact .pure
        · refine .bind (wrap_failsAfter (by simp [StatusFailure])) fun r => ?_
          obtain ⟨restamped, d⟩ := r
          dsimp only
          split
          · exact .pure
          · exact .mapError syncObjectContents_failsAfter
  unfold sync
  split
  · refine .bind ?_ fun _ => .pure
    unfold handleDeletion
    split
    · exact .pure
    · split
      · split
        · exact .pure
        · exact .bind (wrap_failsAfter (by simp [StatusFailure])) fun _ => .pure
      · exact .bind (wrap_failsAfter (by simp [StatusFailure])) fun _ => .pure
  · refine .bind ?_ fun r => ?_
    · split
      · exact wrap_failsAfter (by simp [StatusFailure])
      · exact .pure
    · obtain ⟨updated, source⟩ := r
      dsimp only
      split
      · exact .pure
      · exact .bind (wrapE_failsAfter (by simp [StatusFailure])) fun m =>
          .bind (hmutated _ _) fun _ => .pure

end ObjectSyncer

/-! ### The pass -/

namespace ResourceSyncer

variable {S : Server} {s : ResourceSyncer} {clusterName workspacePath : String} {r : Unstructured}
  {w : World}

variable (S s clusterName workspacePath r w) in
/-- A pass comes to compare the status of the two objects, and they differ. -/
def StatusDiffers : Prop :=
  ∃ dest mutated dest' d, s.copies clusterName workspacePath r w = dest.toList ∧
    (s.syncerOf clusterName workspacePath r).Live r ∧
    (s.syncerOf clusterName workspacePath r).applyMutations r dest = .ok (mutated, dest') ∧
    (s.syncerOf clusterName workspacePath r).Compares S s.libs (primaryScope clusterName r)
      (remoteSide clusterName workspacePath) localSide mutated dest' w d ∧
    mutated.content.field "status" ≠ d.content.field "status"

theorem eval_findLocalObject {dest : Option Unstructured} {w' : World} :
    Fallible.eval (exec S) (s.findLocalObject (primaryScope clusterName r)
      (newObjectKey r clusterName workspacePath)) w = (.ok dest, w') ↔
    s.copies clusterName workspacePath r w = dest.toList ∧ w' = w := by
  have hlist : Fallible.eval (exec S) (wrap "failed to find local equivalent" (list
      (primaryScope clusterName r) .localClient s.destType "" (selectorFromSet
        ((newObjectKey r clusterName workspacePath).labels s.libs.hash)) 2 false)) w =
      (.ok (s.copies clusterName workspacePath r w), w) := rfl
  unfold findLocalObject
  rw [Fallible.eval_bind, hlist]
  dsimp only
  rcases s.copies clusterName workspacePath r w with _ | ⟨item, _ | ⟨item', rest⟩⟩
  · cases dest with
    | none => simp [Fallible.eval_pure, eq_comm]
    | some l => simp [Fallible.eval_pure]
  · cases dest with
    | none => simp [Fallible.eval_pure]
    | some l => simp [Fallible.eval_pure, eq_comm]
  · cases dest with
    | none => simp [Fallible.eval_throw]
    | some l => simp [Fallible.eval_throw]

theorem not_someCall_related {stateStore : KubernetesBackend} {remote local' : ObjectSide}
    {primaryDeleting : Bool} {client : Client} :
    ¬ Fallible.SomeCall (exec S) (BackSyncs (primaryScope clusterName r) client)
      (s.processRelatedResources (primaryScope clusterName r) stateStore remote local'
        primaryDeleting) w := by
  refine Fallible.AllCalls.not_someCall (.mono processRelatedResources_allCalls ?_)
  rintro c (⟨id, hscope⟩ | ⟨annotations, rfl⟩) ⟨hscope', obj, hverb⟩
  · cases congrArg Scope.identifier (hscope.symm.trans hscope')
  · cases hverb

/-- `Sync` of the primary object. -/
theorem someCall_sync_back {dest : Option Unstructured} : Fallible.SomeCall (exec S)
      (BackSyncs (primaryScope clusterName r) (.remoteClient clusterName))
      ((s.syncerOf clusterName workspacePath r).sync s.libs (primaryScope clusterName r)
        (remoteSide clusterName workspacePath) localSide r dest) w ↔
    (s.syncerOf clusterName workspacePath r).Live r ∧ ∃ mutated dest' d,
      (s.syncerOf clusterName workspacePath r).applyMutations r dest = .ok (mutated, dest') ∧
      (s.syncerOf clusterName workspacePath r).Compares S s.libs (primaryScope clusterName r)
        (remoteSide clusterName workspacePath) localSide mutated dest' w d ∧
      mutated.content.field "status" ≠ d.content.field "status" := by
  have hclients : (remoteSide clusterName workspacePath).client ≠ localSide.client := by
    rintro ⟨⟩
  by_cases hdel : (s.syncerOf clusterName workspacePath r).Deleting r
  · refine iff_of_false (Fallible.AllCalls.not_someCall ?_) fun h => ?_
    · unfold ObjectSyncer.sync
      rw [if_pos (by simpa [ObjectSyncer.Deleting] using hdel)]
      refine .bind (ObjectSyncer.handleDeletion_allCalls ?_ ?_) fun _ => .pure
      · rintro _ _ _ - ⟨-, obj, h⟩
        cases h
      · rintro - - - ⟨-, obj, h⟩
        cases h
    · rcases hdel with hdel | hdel
      · rw [h.1.notDeleting] at hdel
        cases hdel
      · cases hdel
  · rw [ObjectSyncer.someCall_sync hdel]
    · refine and_congr_right fun _ => exists_congr fun mutated => exists_congr fun dest' => ?_
      have hback : Fallible.SomeCall (exec S)
          (BackSyncs (primaryScope clusterName r) (.remoteClient clusterName))
          ((s.syncerOf clusterName workspacePath r).syncMutated s.libs (primaryScope clusterName r)
            (remoteSide clusterName workspacePath) localSide mutated dest') w ↔ _ :=
        (ObjectSyncer.someCall_syncMutated_back hclients rfl).trans (and_iff_right rfl)
      rw [hback]
      exact exists_and_left.symm
    · rintro _ _ - ⟨-, obj, h⟩
      cases h

theorem someCall_process : Fallible.SomeCall (exec S)
      (BackSyncs (primaryScope clusterName r) (.remoteClient clusterName))
      (s.process clusterName workspacePath r) w ↔
      s.StatusDiffers S clusterName workspacePath r w := by
  have hfind : ¬ Fallible.SomeCall (exec S)
      (BackSyncs (primaryScope clusterName r) (.remoteClient clusterName))
      (s.findLocalObject (primaryScope clusterName r)
        (newObjectKey r clusterName workspacePath)) w := by
    refine Fallible.AllCalls.not_someCall (.bind (.mapError (.sendE ?_)) fun items => ?_)
    · rintro ⟨-, obj, h⟩
      cases h
    · split
      · exact .pure
      · exact .pure
      · exact .throw
  unfold process processFound
  rw [Fallible.someCall_bind, someCall_wrap, or_iff_right hfind]
  constructor
  · rintro ⟨dest, w', hfind, h⟩
    obtain ⟨hcopies, rfl⟩ := eval_findLocalObject.mp (Returns.wrap hfind)
    rcases Fallible.someCall_bind.mp h with h | ⟨cleaning, w₁, hclean, h⟩
    · split at h
      · split at h
        · exact (not_someCall_related (someCall_wrap.mp h)).elim
        · exact (Fallible.someCall_pure.mp h).elim
      · exact (Fallible.someCall_pure.mp h).elim
    · cases cleaning with
      | true => exact (Fallible.someCall_pure.mp h).elim
      | false =>
        rw [if_neg (by simp)] at h
        rcases Fallible.someCall_bind.mp h with h | ⟨⟨requeue, r₁⟩, w₂, -, h⟩
        · obtain ⟨hlive, mutated, dest', d, hmutations, hcompares, hdiffer⟩ :=
            someCall_sync_back.mp h
          -- nothing is cleaned up for an object that is not in deletion
          obtain rfl : w₁ = w' := by
            split at hclean
            · rw [if_neg (by simp [hlive.notDeleting])] at hclean
              exact (Returns.pure hclean).2
            · exact (Returns.pure hclean).2
          exact ⟨dest, mutated, dest', d, hcopies, hlive, hmutations, hcompares, hdiffer⟩
        · dsimp only at h
          split at h
          · exact (Fallible.someCall_pure.mp h).elim
          · split at h
            · exact (Fallible.someCall_pure.mp h).elim
            · exact (not_someCall_related h).elim
  · rintro ⟨dest, mutated, dest', d, hcopies, hlive, hmutations, hcompares, hdiffer⟩
    refine ⟨dest, w, eval_wrap (eval_findLocalObject.mpr ⟨hcopies, rfl⟩), ?_⟩
    refine Fallible.someCall_bind.mpr (.inr ⟨false, w, ?_, ?_⟩)
    · split
      · rw [if_neg (by simp [hlive.notDeleting])]
        rfl
      · rfl
    · rw [if_neg (by simp)]
      exact Fallible.someCall_bind.mpr (.inl (someCall_sync_back.mpr
        ⟨hlive, mutated, dest', d, hmutations, hcompares, hdiffer⟩))

theorem processRelatedResources_failsAfter {scope : Scope} {stateStore : KubernetesBackend}
    {remote local' : ObjectSide} {primaryDeleting : Bool} {P : Call → Prop} :
    (s.processRelatedResources scope stateStore remote local' primaryDeleting).FailsAfter P
      StatusFailure := by
  have htext : ∀ identifier err,
      ¬ StatusFailure (.wrapped ("failed to process related resource " ++ identifier) err) := by
    have hbegins : ∀ identifier text, "failed to process related resource " ++ identifier = text →
        "failed to process related resource ".toList <+: text.toList := by
      rintro identifier _ rfl
      rw [String.toList_append]
      exact List.prefix_append _ _
    rintro identifier err ⟨err', h | h⟩
    · exact absurd (hbegins identifier _ (Error.wrapped.inj h).1) (by decide)
    · exact absurd (hbegins identifier _ (Error.wrapped.inj h).1) (by decide)
  unfold processRelatedResources
  induction s.pubRes.related with
  | nil => exact .pure
  | cons relRes rest ih =>
    refine .bind (wrap_failsAfter (htext relRes.identifier)) fun requeue => ?_
    split
    · exact .pure
    · exact ih

/-- `Process` fails because of the status only after it has updated it. -/
theorem process_failsAfter : (s.process clusterName workspacePath r).FailsAfter
    (BackSyncs (primaryScope clusterName r) (.remoteClient clusterName)) StatusFailure := by
  have hsync : ∀ dest, ((s.syncerOf clusterName workspacePath r).sync s.libs
      (primaryScope clusterName r) (remoteSide clusterName workspacePath)
      localSide r dest).FailsAfter
      (BackSyncs (primaryScope clusterName r) (remoteSide clusterName workspacePath).client)
      StatusFailure := fun _ => ObjectSyncer.sync_failsAfter
  unfold process processFound
  refine .bind (wrap_failsAfter (by simp [StatusFailure])) fun localObj =>
    .bind ?_ fun cleaning => ?_
  · split
    · split
      · exact wrap_failsAfter (by simp [StatusFailure])
      · exact .pure
    · exact .pure
  · split
    · exact .pure
    · refine .bind (hsync localObj) fun result => ?_
      obtain ⟨requeue, remoteObj⟩ := result
      dsimp only
      split
      · exact .pure
      · split
        · exact .pure
        · exact processRelatedResources_failsAfter

/-- If the version of the CRD that is synced has no status subresource, then the syncer knows that.
A pass leaves the status of the remote object alone, and does not fail because of it, exactly if it
does not come to compare two different values. -/
theorem plain_status_iff {libs : Libraries} {projection : Projection.Libraries}
    {pubRes : PublishedResource} {rules : Projection.Rules} {hkind : rules.resource.kind ≠ ""}
    {crd : Projection.Crd}
    {mutatorCreator : Option RelatedResourceSpec → Except Error (Option Mutator)}
    {stateNamespace agentName : String} {opts : SyncerOptions} {gvk : Projection.GroupVersionKind}
    (hgvk : Projection.publishedResourceSourceGVK crd rules = .ok gvk)
    (hplain : ∀ v ∈ crd.spec.versions, v.name = gvk.version → v.hasSubresource "status" = false)
    (hnew : newResourceSyncer libs projection pubRes rules hkind crd mutatorCreator stateNamespace
      agentName opts = .ok s) (S : Server) (clusterName workspacePath : String) (r : Unstructured)
    (w : World) :
    "status" ∉ s.subresources ∧
    ((∀ c ∈ Fallible.calls (exec S) (s.process clusterName workspacePath r) w,
        ¬ BackSyncs (primaryScope clusterName r) (.remoteClient clusterName) c) ∧
      (∀ e, (Fallible.eval (exec S) (s.process clusterName workspacePath r) w).1 = .error e →
        ¬ StatusFailure e) ↔
      ¬ s.StatusDiffers S clusterName workspacePath r w) := by
  refine ⟨fun hmem => ?_, fun ⟨hcalls, _⟩ hdiffers => ?_, fun hsame => ?_⟩
  · rw [subresources_newResourceSyncer hgvk hnew, status_mem_subresourcesOf] at hmem
    obtain ⟨v, hv, hname, hstatus⟩ := hmem
    rw [hplain v hv hname] at hstatus
    cases hstatus
  · obtain ⟨c, hc, hback⟩ := someCall_process.mpr hdiffers
    exact hcalls c hc hback
  · have hnone := mt someCall_process.mp hsame
    exact ⟨fun c hc hback => hnone ⟨c, hc, hback⟩,
      fun e he hfailure => hnone (process_failsAfter.someCall he hfailure)⟩

/-! ### A status that the local controller sets -/

/-- The sample's CRD, which has no subresources, is published as it is. -/
def plainRules : Projection.Rules := { resource := Projection.chainRules.resource }

theorem kind_plainRules : plainRules.resource.kind ≠ "" := by decide

/-- The sample, with the syncer that is made for it and an API server without the subresource. -/
def plainPrimary : Primary :=
  { Primary.sample [] with
    syncer := { (Primary.sample []).syncer with subresources := [] }
    server := { Server.setting with hasStatus := fun _ _ => false } }

theorem newResourceSyncer_plainRules : newResourceSyncer .sample .byName plainPrimary.syncer.pubRes
    plainRules kind_plainRules Projection.sampleCrd (fun _ => .ok none) "system" "agent" {} =
      .ok plainPrimary.syncer := by
  rfl

/-- The local object with a content. -/
def plainLocal (source : Unstructured) (content : Content) : Unstructured :=
  (plainPrimary.syncerOf source).newDestination .sample (remoteSide "c1" "root") source
    ⟨crontabType, { name := "daily", ns := "tenant" }, content⟩

/-- Both objects exist, and the state of the remote object was stored. -/
def plainWorld (source : Unstructured) (content : Content) : World :=
  ((World.empty.put (.remoteClient "c1") source).put .localClient
    (plainLocal source content)).putSecret plainPrimary.store.secretName
      { data := SortedMap.insert ∅ plainPrimary.storeKey
          (some (snapshotObject source []).toFields) }

def reported : Content := Content.setStatus default (.str "ready")

theorem plain_sampleCrd {version : String} : ∀ v ∈ Projection.sampleCrd.spec.versions,
    v.name = version → v.hasSubresource "status" = false := by
  intro v hv _
  simp only [Projection.sampleCrd, List.mem_cons, List.not_mem_nil, or_false] at hv
  rcases hv with rfl | rfl
  · rfl
  · rfl

theorem publishedResourceSourceGVK_plainRules :
    Projection.publishedResourceSourceGVK Projection.sampleCrd plainRules =
      .ok ⟨"example.com", "v1", "CronTab"⟩ := by
  rfl

/-- A status that was synced as content is the same on both sides, and it is left alone. -/
theorem plain_status_synced :
    "status" ∉ plainPrimary.syncer.subresources ∧
    ∀ c ∈ Fallible.calls (exec plainPrimary.server) (plainPrimary.syncer.process "c1" "root"
        (Primary.sampleObject ∅ reported))
        (plainWorld (Primary.sampleObject ∅ reported) reported),
      ¬ BackSyncs (primaryScope "c1" (Primary.sampleObject ∅ reported)) (.remoteClient "c1") c := by
  have hsame : ¬ plainPrimary.syncer.StatusDiffers plainPrimary.server "c1" "root"
      (Primary.sampleObject ∅ reported)
      (plainWorld (Primary.sampleObject ∅ reported) reported) := by
    rintro ⟨dest, mutated, dest', d, hcopies, -, hmutations, hcompares, hdiffer⟩
    have hfound : plainPrimary.syncer.copies "c1" "root" (Primary.sampleObject ∅ reported)
        (plainWorld (Primary.sampleObject ∅ reported) reported) =
        [plainLocal (Primary.sampleObject ∅ reported) reported] := by decide +kernel
    cases hmutations
    cases hcompares with
    | found _ hdest =>
      rw [hfound, hdest] at hcopies
      cases hcopies
      exact hdiffer (by decide +kernel)
    | applied hssa => cases hssa
  have hiff := plain_status_iff publishedResourceSourceGVK_plainRules plain_sampleCrd
    newResourceSyncer_plainRules plainPrimary.server "c1" "root" (Primary.sampleObject ∅ reported)
    (plainWorld (Primary.sampleObject ∅ reported) reported)
  exact ⟨hiff.1, (hiff.2.mpr hsame).1⟩

/-- The local controller has set a status: its update fails, and the pass with it. -/
theorem plain_status_fails :
    (∃ c ∈ Fallible.calls (exec plainPrimary.server) (plainPrimary.syncer.process "c1" "root"
        (Primary.sampleObject ∅ default)) (plainWorld (Primary.sampleObject ∅ default) reported),
      BackSyncs (primaryScope "c1" (Primary.sampleObject ∅ default)) (.remoteClient "c1") c) ∧
    (Fallible.eval (exec plainPrimary.server) (plainPrimary.syncer.process "c1" "root"
      (Primary.sampleObject ∅ default)) (plainWorld (Primary.sampleObject ∅ default) reported)).1 =
      .error (.wrapped "failed to synchronize object state"
        (.wrapped "failed to update source object status" (.api .notFound))) := by
  refine ⟨?_, ?_⟩
  · have htest :
      ((Fallible.calls (exec plainPrimary.server) (plainPrimary.syncer.process "c1" "root"
        (Primary.sampleObject ∅ default))
        (plainWorld (Primary.sampleObject ∅ default) reported)).any
        fun c => c.scope = primaryScope "c1" (Primary.sampleObject ∅ default) && match c.verb with
          | .updateStatus client _ => client = .remoteClient "c1"
          | _ => false) = true := by decide +kernel
    obtain ⟨c, hc, htest⟩ := List.any_eq_true.mp htest
    rw [Bool.and_eq_true] at htest
    refine ⟨c, hc, of_decide_eq_true htest.1, ?_⟩
    have hverb := htest.2
    split at hverb
    · next client obj heq =>
      cases of_decide_eq_true hverb
      exact ⟨obj, heq⟩
    · cases hverb
  · decide +kernel

end ResourceSyncer

end Sync
