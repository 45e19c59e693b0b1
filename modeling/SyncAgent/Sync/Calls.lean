import SyncAgent.Sync.Syncer
import SyncAgent.Sync.Outline

/-! Which calls are made, and on whose behalf: every call of `Sync` in the scope that it was given,
and the calls of the related resources in their own scopes, except for the annotations on the
primary object. -/

namespace Sync

open Kube

theorem eval_reads {answer : (c : api.Call) → World → api.Resp c × World}
    (hanswer : ∀ c : Call, c.failure = none → ∀ w, ∃ selectors,
      (answer c w).2 = { w with selectors := selectors })
    {α : Type} {p : SyncM α} (hp : p.AllCalls fun c : Call => c.failure = none) (w : World) :
    ∃ selectors, (Fallible.eval answer p w).2 = { w with selectors := selectors } := by
  have hkeeps : Fallible.Keeps (.alone answer) (.ofState api fun _ => True) p
      (fun _ w₁ => ∃ selectors, w₁ = { w with selectors := selectors })
      (fun w₁ => ∃ selectors, w₁ = { w with selectors := selectors }) w := by
    refine .of_allCalls hp (fun _ _ => trivial) (fun w₁ w₂ hw (heq : w₁ = w₂) => heq ▸ hw)
      (fun _ _ _ _ => trivial) (fun c hc w₁ r w₂ hw hd => ?_) ⟨w.selectors, rfl⟩
    obtain ⟨selectors, rfl⟩ := hw
    obtain ⟨selectors', hsel⟩ := hanswer c hc { w with selectors := selectors }
    exact ⟨selectors', (congrArg Prod.snd hd).symm.trans hsel⟩
  have houtcome := Prog.Keeps.eval hkeeps
  unfold Fallible.eval
  cases hr : (Prog.eval answer p.run w).1 with
  | ok a => rw [hr] at houtcome; exact houtcome
  | error e => rw [hr] at houtcome; exact houtcome

variable {L : Libraries} {scope : Scope} {P : Call → Prop}

/-- The calls of `Sync` but the update of the source's status: they read, write a state Secret,
write on the destination side, or patch an object on the source side. -/
def QuietCall (sourceClient destClient : Client) (c : Call) : Prop :=
  c.failure = none ∨ c.verb.secretTarget.isSome = true ∨
  (∃ id, c.verb.target = some id ∧ id.client = destClient) ∨
  ∃ id patch, id.client = sourceClient ∧ c.verb = .patch id patch

/-- The calls of `Sync` while the source object is not deleted, but for those on the source side:
they read, write a state Secret, or write on the destination side without deleting anything. -/
def WriteCall (destClient : Client) (c : Call) : Prop :=
  c.failure = none ∨ c.verb.secretTarget.isSome = true ∨
  ∃ id, c.verb.target = some id ∧ id.client = destClient ∧ ∀ id policy, c.verb ≠ .delete id policy

namespace WriteCall

variable {destClient : Client} {c : Call}

theorem read (h : c.failure = none) : WriteCall destClient c := .inl h

theorem secret (h : c.verb.secretTarget.isSome = true) : WriteCall destClient c := .inr (.inl h)

theorem dest {id : ObjectId} (h : c.verb.target = some id) (hid : id.client = destClient)
    (hdelete : ∀ id policy, c.verb ≠ .delete id policy) : WriteCall destClient c :=
  .inr (.inr ⟨id, h, hid, hdelete⟩)

theorem quiet (h : WriteCall destClient c) (sourceClient : Client) :
    QuietCall sourceClient destClient c := by
  rcases h with hread | hsecret | ⟨id, htarget, hid, -⟩
  · exact .inl hread
  · exact .inr (.inl hsecret)
  · exact .inr (.inr (.inl ⟨id, htarget, hid⟩))

end WriteCall

namespace QuietCall

variable {sourceClient destClient : Client} {c : Call}

theorem read (h : c.failure = none) : QuietCall sourceClient destClient c := .inl h

theorem dest {id : ObjectId} (h : c.verb.target = some id) (hid : id.client = destClient) :
    QuietCall sourceClient destClient c := .inr (.inr (.inl ⟨id, h, hid⟩))

theorem source {id : ObjectId} {patch : Fields} (h : c.verb = .patch id patch)
    (hid : id.client = sourceClient) : QuietCall sourceClient destClient c :=
  .inr (.inr (.inr ⟨id, patch, hid, h⟩))

theorem target_ne_or_patch (hc : QuietCall sourceClient destClient c)
    (hclient : sourceClient ≠ destClient) {id : ObjectId} (hid : id.client = sourceClient) :
    c.verb.target ≠ some id ∨ ∃ patch, c.verb = .patch id patch := by
  rcases hc with hread | hsecret | ⟨id', htarget, hid'⟩ | ⟨id', patch, -, hverb⟩
  · refine .inl ?_
    rw [(Call.target_of_failure_eq_none hread).1]
    exact fun h => by cases h
  · obtain ⟨sid, hsid⟩ := Option.isSome_iff_exists.mp hsecret
    refine .inl ?_
    rw [Call.target_of_secretTarget hsid]
    exact fun h => by cases h
  · refine .inl fun h => hclient ?_
    rw [htarget, Option.some.injEq] at h
    rw [← hid, ← hid', h]
  · by_cases hsame : id' = id
    · subst hsame
      exact .inr ⟨patch, hverb⟩
    · refine .inl fun h => hsame ?_
      rw [hverb] at h
      exact Option.some.inj h

end QuietCall

section Store

variable {hash : Hash} {b : KubernetesBackend}
  (hP : ∀ c : Call, c.scope = scope → c.verb.secret = some b.secretName → P c)

include hP

theorem KubernetesBackend.secret_allCalls : (b.secret scope).AllCalls P := by
  refine .bind (.request (hP _ rfl rfl)) fun r => ?_
  split
  · exact .pure
  · exact .pure
  · exact .throw

theorem ObjectStateStore.get_allCalls {source : Unstructured} {clusterName : String} :
    (ObjectStateStore.get hash b scope source clusterName).AllCalls P :=
  .bind (.bind (b.secret_allCalls hP) fun _ => .pure) fun _ => .pure

theorem ObjectStateStore.put_allCalls {obj : Unstructured} {clusterName : String}
    {subresources : List String} :
    (ObjectStateStore.put hash b scope obj clusterName subresources).AllCalls P := by
  refine .bind (b.secret_allCalls hP) fun found => ?_
  dsimp only
  split
  · exact .sendE (hP _ rfl rfl)
  · exact .sendE (hP _ rfl rfl)

end Store

/-- Of the responses in `V`, those for destination objects at places `K` are at such places
again. -/
structure Tracks (V : (c : api.Call) → api.Resp c → Prop) (scope : Scope) (destClient : Client)
    (K : ObjectId → Prop) : Prop where
  get {obj o : Unstructured} {live : Bool} : K (obj.idOn destClient) →
    V ⟨scope, .get (obj.idOn destClient) live⟩ (.ok o) → K (o.idOn destClient)
  patch {obj o : Unstructured} {patch : Fields} : K (obj.idOn destClient) →
    V ⟨scope, .patch (obj.idOn destClient) patch⟩ (.ok o) → K (o.idOn destClient)
  update {obj o : Unstructured} : K (obj.idOn destClient) →
    V ⟨scope, .update destClient obj⟩ (.ok o) → K (o.idOn destClient)

section Tracks

variable {V : (c : api.Call) → api.Resp c → Prop} {destClient : Client} {K : ObjectId → Prop}

theorem Tracks.all : Tracks V scope destClient fun _ => True :=
  ⟨fun _ _ => trivial, fun _ _ => trivial, fun _ _ => trivial⟩

theorem Tracks.of_answers (hV : ∀ (c : api.Call) r, V c r → c.verb.Answers r) :
    Tracks V scope destClient K where
  get hK hr := (hV _ _ hr _ rfl : Unstructured.idOn _ _ = _) ▸ hK
  patch hK hr := (hV _ _ hr _ rfl : Unstructured.idOn _ _ = _) ▸ hK
  update hK hr := (hV _ _ hr _ rfl : Unstructured.idOn _ _ = _) ▸ hK

end Tracks

namespace ObjectSyncer

variable {s : ObjectSyncer} {sourceSide destSide : SyncSide} {source : Unstructured}
  {dest : Option Unstructured}

/-- The types of the objects that are read or created on the destination side. -/
def DestType (s : ObjectSyncer) (t : TypeMeta) : Prop :=
  t = namespaceType ∨ ∃ source destObj, s.destCreator source = .ok destObj ∧ destObj.typeMeta = t

/-- A call of `Sync` while the source object is not deleted, but for those on the source side: for
the state Secret, or on the destination side without a deletion.  It writes at one of the places
`K`, or it creates a Namespace. -/
structure DestCall (s : ObjectSyncer) (destClient : Client)
    (K : ObjectId → Prop) (c : Call) : Prop where
  server : c.verb.secret = some s.stateStore.secretName ∨ c.verb.client = some destClient
  opens : ∀ client t, c.verb.opens = some (client, t) → s.DestType t
  noDelete : ∀ id policy, c.verb ≠ .delete id policy
  target : ∀ id, c.verb.target = some id → K id ∨
    ∃ ns, c.verb = .create destClient ⟨namespaceType, { name := ns }, default⟩

namespace DestCall

variable {destClient : Client} {K : ObjectId → Prop} {c : Call}

theorem secret (h : c.verb.secret = some s.stateStore.secretName) : s.DestCall destClient K c := by
  obtain ⟨scope, verb⟩ := c
  exact ⟨.inl h, fun _ _ hopens => (by cases verb <;> cases h <;> cases hopens),
    fun _ _ hdelete => (by cases hdelete; cases h),
    fun _ htarget => (by cases verb <;> cases h <;> cases htarget)⟩

theorem opened {client : Client} {t : TypeMeta} (h : c.verb.client = some destClient)
    (hopens : c.verb.opens = some (client, t)) (ht : s.DestType t)
    (htarget : ∀ id, c.verb.target = some id → K id ∨
      ∃ ns, c.verb = .create destClient ⟨namespaceType, { name := ns }, default⟩) :
    s.DestCall destClient K c := by
  refine ⟨.inr h, fun client' t' hopens' => ?_, fun _ _ hdelete => ?_, htarget⟩
  · cases hopens.symm.trans hopens'
    exact ht
  · rw [hdelete] at hopens
    cases hopens

theorem further {id : ObjectId} (htarget : c.verb.target = some id)
    (hclient : id.client = destClient)
    (hK : K id) (hopens : c.verb.opens = none) (hdelete : ∀ id policy, c.verb ≠ .delete id policy) :
    s.DestCall destClient K c := by
  refine ⟨.inr ?_, fun _ _ hsome => (by cases hopens.symm.trans hsome), hdelete, fun id' hid' => ?_⟩
  · rw [Verb.client_of_target htarget, hclient]
  · cases htarget.symm.trans hid'
    exact .inl hK

theorem write (h : s.DestCall destClient K c) : WriteCall destClient c := by
  obtain ⟨scope, verb⟩ := c
  rcases h.server with hsecret | hclient
  · cases verb with
    | getSecret id => exact .read rfl
    | createSecret id secret => exact .secret rfl
    | updateSecret id secret => exact .secret rfl
    | _ => cases hsecret
  · cases verb with
    | get id live => exact .read rfl
    | list client typeMeta ns selector limit live => exact .read rfl
    | create client obj => cases hclient; exact .dest rfl rfl h.noDelete
    | update client obj => cases hclient; exact .dest rfl rfl h.noDelete
    | updateStatus client obj => cases hclient; exact .dest rfl rfl h.noDelete
    | patch id patch => cases hclient; exact .dest rfl rfl h.noDelete
    | apply client obj fieldManager => cases hclient; exact .dest rfl rfl h.noDelete
    | delete id policy => exact absurd rfl (h.noDelete id policy)
    | _ => cases hclient

end DestCall

/-- The link is in the labels and annotations; the rest of the new object is as the creator left
it. -/
theorem newDestination_rest (L : Libraries) (σ : ObjectSyncer) (side : SyncSide)
    (source destObj : Unstructured) :
    (∀ client, (σ.newDestination L side source destObj).idOn client = destObj.idOn client) ∧
      (σ.newDestination L side source destObj).content = destObj.content ∧
      (σ.newDestination L side source destObj).metadata.deletionTimestamp =
        destObj.metadata.deletionTimestamp := by
  unfold newDestination ensureDestMetadata linkMetadata labelWithAgent
  split
  · split <;> simp
  · simp

theorem adopted_rest (L : Libraries) (σ : ObjectSyncer)
    (existing : Unstructured) (key : ObjectKey) :
    (∀ client, (σ.adopted L existing key).idOn client = existing.idOn client) ∧
      (σ.adopted L existing key).content = existing.content := by
  unfold adopted ensureDestMetadata labelWithAgent
  split <;> simp

section Write

variable {V : (c : api.Call) → api.Resp c → Prop} {K : ObjectId → Prop}
  (hP : ∀ c : Call, c.scope = scope → s.DestCall destSide.client K c → P c)

include hP

theorem ensureNamespace_allCalls {ns : String} :
    (ensureNamespace scope destSide.client ns).AllCalls P := by
  unfold ensureNamespace
  split
  · exact .pure
  · refine .bind (.request (hP _ rfl (.opened rfl rfl (.inl rfl) fun _ h => nomatch h))) fun r => ?_
    split
    · exact .pure
    · refine .bind (.request (hP _ rfl (.opened rfl rfl (.inl rfl) fun _ _ => .inr ⟨_, rfl⟩)))
        fun r => ?_
      split
      · exact .pure
      · exact .pure
      · exact .throw
    · exact .throw

theorem ensureDestinationObject_obeys (hK : Tracks V scope destSide.client K)
    (hnew : ∀ destObj, s.destCreator source = .ok destObj → K (destObj.idOn destSide.client)) :
    (s.ensureDestinationObject L scope sourceSide destSide source).Obeys V P fun _ => True := by
  have hput :
      (wrap "failed to update sync state" (ObjectStateStore.put L.hash s.stateStore scope source
      sourceSide.clusterName s.subresources)).Obeys V P fun _ => True :=
    .mapError (ObjectStateStore.put_allCalls fun c hscope hc => hP c hscope (.secret hc)).obeys
  refine wrapE_obeys fun destObj hdest => ?_
  have hid := (newDestination_rest L s sourceSide source destObj).1 destSide.client
  have htype : s.DestType (s.newDestination L sourceSide source destObj).typeMeta :=
    .inr ⟨source, destObj, hdest, (congrArg ObjectId.typeMeta hid).symm⟩
  have hplace : K ((s.newDestination L sourceSide source destObj).idOn destSide.client) :=
    hid ▸ hnew destObj hdest
  refine .bind (.mapError (ensureNamespace_allCalls hP).obeys) fun _ _ => ?_
  refine .bind (request_obeys (hP _ rfl (.opened rfl rfl htype fun _ h => ?_))) fun r _ => ?_
  · cases h
    exact .inl hplace
  split
  · exact hput
  · refine .bind (Q := fun _ => True) (.mapError ?_) fun _ _ => hput
    unfold adoptExistingDestinationObject
    split
    · exact .pure trivial
    · refine .bind (.mapError (get_obeys (hP _ rfl (.opened rfl rfl htype fun _ h => nomatch h))))
        fun existing hexisting =>
        .bind (.mapError (update_obeys (hP _ rfl (.further rfl rfl ?_ rfl ?_))))
          fun _ _ => .pure trivial
      · rw [(adopted_rest _ _ _ _).1]
        exact hK.get hplace hexisting
      · exact fun _ _ h => nomatch h
  · exact .bind (Q := fun _ => True) .throw fun _ _ => hput

theorem ensureDestMetadataPersisted_obeys (hK : Tracks V scope destSide.client K) {d : Unstructured}
    (hd : K (d.idOn destSide.client)) :
    (s.ensureDestMetadataPersisted L scope destSide d).Obeys V P
      fun r => K (r.2.idOn destSide.client) := by
  unfold ensureDestMetadataPersisted
  split
  · exact .pure hd
  · dsimp only
    split
    · exact .pure hd
    · exact .bind (.mapError (patch_obeys (hP _ rfl
        (.further rfl rfl hd rfl fun _ _ h => nomatch h)))) fun d' hd' =>
        .pure (hK.patch hd hd')

theorem syncObjectSpec_obeys (hK : Tracks V scope destSide.client K) {d : Unstructured}
    (hd : K (d.idOn destSide.client)) :
    (s.syncObjectSpec L scope sourceSide destSide source d).Obeys V P
      fun r => K (r.2.idOn destSide.client) := by
  have hput :
      ∀ obj, (wrap "failed to update sync state" (ObjectStateStore.put L.hash s.stateStore scope
      obj sourceSide.clusterName s.subresources)).Obeys V P fun _ => True := fun obj =>
    .mapError (ObjectStateStore.put_allCalls fun c hscope hc => hP c hscope (.secret hc)).obeys
  refine .bind (.mapError
    (ObjectStateStore.get_allCalls fun c hscope hc => hP c hscope (.secret hc)).obeys)
    fun last _ => ?_
  split
  · dsimp only
    split
    · exact .pure hd
    · exact .bind (.mapError (patch_obeys (hP _ rfl
        (.further rfl rfl hd rfl fun _ _ h => nomatch h)))) fun d' hd' =>
        .bind (hput _) fun _ _ => .pure (hK.patch hd hd')
  · exact .bind (.mapError (update_obeys (hP _ rfl
      (.further rfl rfl hd rfl fun _ _ h => nomatch h)))) fun d' hd' =>
      .bind (hput _) fun _ _ =>
        .pure (hK.update (show K ((s.fullUpdate source d).idOn _) from hd) hd')

theorem syncObjectStatusForward_allCalls {d : Unstructured} (hd : K (d.idOn destSide.client)) :
    (s.syncObjectStatusForward scope destSide source d).AllCalls P := by
  unfold syncObjectStatusForward
  split
  · exact .pure
  · split
    · exact .pure
    · refine .bind (.request (hP _ rfl (.further rfl rfl hd rfl fun _ _ h => nomatch h))) fun r =>
        ?_
      split
      · exact .pure
      · exact .pure
      · exact .throw

theorem applyServerSide_allCalls
    (hnew : ∀ destObj, s.destCreator source = .ok destObj → K (destObj.idOn destSide.client)) :
    (s.applyServerSide L scope sourceSide destSide source dest).AllCalls P := by
  refine wrapE_allCalls fun destObj hdest => ?_
  have hid := (newDestination_rest L s sourceSide source destObj).1 destSide.client
  have happly : (wrap "failed to server-side apply destination object" (apply scope destSide.client
      (s.applyPayload L sourceSide source destObj) s.fieldManager)).AllCalls P := by
    refine .mapError (.sendE (hP _ rfl (.opened rfl rfl
      (.inr ⟨source, destObj, hdest, (congrArg ObjectId.typeMeta hid).symm⟩) fun _ h => ?_)))
    cases h
    exact .inl (hid ▸ hnew destObj hdest)
  refine .bind (.mapError (ensureNamespace_allCalls hP)) fun _ => ?_
  dsimp only
  split
  · split
    · exact .pure
    · exact .bind happly fun _ => .pure
  · exact .bind happly fun _ => .pure

end Write

theorem ensureDestinationObject_writes :
    (s.ensureDestinationObject L scope sourceSide destSide source).AllCalls
      (WriteCall destSide.client) :=
  (ensureDestinationObject_obeys (fun _ _ h => h.write) .all fun _ _ => trivial).allCalls

theorem ensureDestMetadataPersisted_writes {d : Unstructured} :
    (s.ensureDestMetadataPersisted L scope destSide d).AllCalls (WriteCall destSide.client) :=
  (ensureDestMetadataPersisted_obeys (fun _ _ h => h.write) .all trivial).allCalls

theorem syncObjectSpec_writes {d : Unstructured} :
    (s.syncObjectSpec L scope sourceSide destSide source d).AllCalls (WriteCall destSide.client) :=
  (syncObjectSpec_obeys (fun _ _ h => h.write) .all trivial).allCalls

theorem syncObjectStatusForward_writes {d : Unstructured} :
    (s.syncObjectStatusForward scope destSide source d).AllCalls (WriteCall destSide.client) :=
  syncObjectStatusForward_allCalls (K := fun _ => True) (fun _ _ h => h.write) trivial

theorem applyServerSide_writes :
    (s.applyServerSide L scope sourceSide destSide source dest).AllCalls
      (WriteCall destSide.client) :=
  applyServerSide_allCalls (K := fun _ => True) (fun _ _ h => h.write) fun _ _ => trivial

section Deletion

theorem handleDeletion_allCalls
    (hdelete : s.blockSourceDeletion = true → ∀ d policy, dest = some d →
      P ⟨scope, .delete (d.idOn destSide.client) policy⟩)
    (hrelease : s.blockSourceDeletion = true → dest = none →
      source.metadata.finalizers.contains deletionFinalizer = true →
      P ⟨scope, .patch ((withoutFinalizer source).idOn sourceSide.client)
        (L.diff.create source.toFields (withoutFinalizer source).toFields)⟩) :
    (s.handleDeletion L scope sourceSide destSide source dest).AllCalls P := by
  unfold handleDeletion
  split
  · exact .pure
  · next hblock =>
    have hblock : s.blockSourceDeletion = true := by simpa using hblock
    split
    · split
      · exact .pure
      · exact .bind (.mapError (.sendE (hdelete hblock _ _ rfl))) fun _ => .pure
    · refine .bind (.mapError ?_) fun _ => .pure
      unfold removeFinalizer
      split
      · exact .pure
      · next hcontains =>
        exact .bind (.sendE (hrelease hblock rfl (by simpa using hcontains))) fun _ => .pure

theorem ensureFinalizer_obeys {V : (c : api.Call) → api.Resp c → Prop}
    (hP : source.metadata.finalizers.contains deletionFinalizer = false →
      P ⟨scope, .patch ((withFinalizer source).idOn sourceSide.client)
        (L.diff.create source.toFields (withFinalizer source).toFields)⟩) :
    (ensureFinalizer L.diff scope sourceSide.client source).Obeys V P
      fun r => r.1 = false → r.2 = source := by
  unfold ensureFinalizer
  split
  · exact .pure fun _ => rfl
  · next hcontains =>
    exact .bind (patch_obeys (hP (by simpa using hcontains))) fun _ _ => .pure fun h => nomatch h

end Deletion

section Status

variable (hstatus : s.syncStatusBack = true → ∀ obj, P ⟨scope, .updateStatus sourceSide.client obj⟩)

include hstatus

theorem syncObjectStatus_allCalls {d : Unstructured} :
    (s.syncObjectStatus scope sourceSide source d).AllCalls P := by
  unfold syncObjectStatus
  split
  · exact .pure
  · next hback =>
    split
    · exact .pure
    · refine .bind (.request (hstatus (by simpa using hback) _)) fun r => ?_
      split
      · exact .pure
      · exact .throw

variable {V : (c : api.Call) → api.Resp c → Prop} {K : ObjectId → Prop}
  (hP : ∀ c : Call, c.scope = scope → s.DestCall destSide.client K c → P c)
  (hK : Tracks V scope destSide.client K)

include hP hK

theorem syncMutated_obeys (hdest : ∀ d, dest = some d → K (d.idOn destSide.client))
    (hnew : dest = none ∨ s.useServerSideApply = true → ∀ destObj,
      s.destCreator source = .ok destObj → K (destObj.idOn destSide.client)) :
    (s.syncMutated L scope sourceSide destSide source dest).Obeys V P fun _ => True := by
  unfold syncMutated
  split
  · next hssa =>
    refine .bind (.mapError (applyServerSide_allCalls hP (hnew (.inr hssa))).obeys)
      fun newDest _ => ?_
    split
    · exact .pure trivial
    · split
      · exact .pure trivial
      · exact .bind (syncObjectStatus_allCalls hstatus).obeys fun _ _ => .pure trivial
  · split
    · exact .bind (.mapError (ensureDestinationObject_obeys hP hK (hnew (.inl rfl)))) fun _ _ =>
        .pure trivial
    · next d =>
      split
      · exact .pure trivial
      · refine .bind (.mapError (ensureDestMetadataPersisted_obeys hP hK (hdest d rfl))) fun r hr =>
          ?_
        obtain ⟨restamped, d⟩ := r
        dsimp only
        split
        · exact .pure trivial
        · refine .mapError (.bind (syncObjectSpec_obeys hP hK hr) fun r hr =>
            .bind (syncObjectStatusForward_allCalls hP hr).obeys fun _ _ => ?_)
          split
          · exact .pure trivial
          · exact .bind (syncObjectStatus_allCalls hstatus).obeys fun _ _ => .pure trivial

end Status

/-- Where `Sync` writes on the destination side: where an object was found, or at the place that is
generated for it, if there is none yet or if it is applied. -/
inductive WritesAt (s : ObjectSyncer) (destClient : Client) (source : Unstructured)
    (dest : Option Unstructured) : ObjectId → Prop
  | found {d : Unstructured} : dest = some d → WritesAt s destClient source dest (d.idOn destClient)
  | generated {source' destObj : Unstructured} {dest' : Option Unstructured} :
      dest = none ∨ s.useServerSideApply = true →
      s.applyMutations source dest = .ok (source', dest') → s.destCreator source' = .ok destObj →
      WritesAt s destClient source dest (destObj.idOn destClient)

/-- The places are known, as the responses in `V` are for the objects that were asked for and the
mutations leave the metadata alone. -/
structure Exact (V : (c : api.Call) → api.Resp c → Prop) (s : ObjectSyncer) : Prop where
  answers : ∀ (c : api.Call) r, V c r → c.verb.Answers r
  mutator : ∀ m, s.mutator = some m → m.KeepsIdentity

/-- The calls of `Sync`: on the destination side, the finalizer on the source, and its status. -/
inductive SyncCall (V : (c : api.Call) → api.Resp c → Prop) (L : Libraries) (scope : Scope)
    (s : ObjectSyncer) (sourceClient destClient : Client) (source : Unstructured)
    (dest : Option Unstructured) : Call → Prop
  | dest {c : Call} : c.scope = scope →
    s.DestCall destClient (fun id => s.Exact V → s.WritesAt destClient source dest id) c →
    SyncCall V L scope s _ destClient source dest c
  | delete {d : Unstructured} (policy : DeletionPropagation) : s.Deleting source →
    s.blockSourceDeletion = true → dest = some d →
    SyncCall V L scope s _ destClient source dest ⟨scope, .delete (d.idOn destClient) policy⟩
  | release : s.Deleting source → s.blockSourceDeletion = true → dest = none →
    source.metadata.finalizers.contains deletionFinalizer = true →
    SyncCall V L scope s sourceClient _ source dest
      ⟨scope, .patch ((withoutFinalizer source).idOn sourceClient)
        (L.diff.create source.toFields (withoutFinalizer source).toFields)⟩
  | finalize : ¬ s.Deleting source → s.blockSourceDeletion = true →
    source.metadata.finalizers.contains deletionFinalizer = false →
    SyncCall V L scope s sourceClient _ source dest
      ⟨scope, .patch ((withFinalizer source).idOn sourceClient)
        (L.diff.create source.toFields (withFinalizer source).toFields)⟩
  | status (obj : Unstructured) : s.syncStatusBack = true →
    SyncCall V L scope s sourceClient _ source dest ⟨scope, .updateStatus sourceClient obj⟩

section Calls

variable {V : (c : api.Call) → api.Resp c → Prop}

theorem SyncCall.scope_eq {sourceClient destClient : Client} {c : Call}
    (h : SyncCall V L scope s sourceClient destClient source dest c) : c.scope = scope := by
  cases h with
  | dest hscope _ => exact hscope
  | _ => rfl

theorem SyncCall.target {sourceClient destClient : Client} {c : Call}
    (h : SyncCall V L scope s sourceClient destClient source dest c) (hV : s.Exact V)
    {id : ObjectId} (hid : c.verb.target = some id) (hclient : id.client ≠ sourceClient) :
    s.WritesAt destClient source dest id ∨
      ∃ ns, c.verb = .create destClient ⟨namespaceType, { name := ns }, default⟩ := by
  cases h with
  | dest _ hc => exact (hc.target id hid).imp_left fun hplace => hplace hV
  | delete policy _ _ hd =>
    cases hid
    exact .inl (.found hd)
  | _ =>
    cases hid
    exact absurd rfl hclient

theorem sync_obeys : (s.sync L scope sourceSide destSide source dest).Obeys V
    (SyncCall V L scope s sourceSide.client destSide.client source dest) fun _ => True := by
  unfold sync
  split
  · next hdel =>
    have hdel : s.Deleting source := by simpa [Deleting] using hdel
    exact .bind (handleDeletion_allCalls (fun hblock d policy hd => .delete policy hdel hblock hd)
      fun hblock hnone hfinalizer => .release hdel hblock hnone hfinalizer).obeys
      fun _ _ => .pure trivial
  · next hdel =>
    have hdel : ¬ s.Deleting source := by simpa [Deleting] using hdel
    refine .bind (Q := fun r => r.1 = false → r.2 = source) ?_ fun r hr => ?_
    · split
      · next hblock => exact .mapError (ensureFinalizer_obeys (.finalize hdel hblock))
      · exact .pure fun _ => rfl
    · obtain ⟨updated, source'⟩ := r
      dsimp only
      split
      · exact .pure trivial
      · next hupdated =>
        obtain rfl : source' = source := hr (by simpa using hupdated)
        refine wrapE_obeys fun m hm => ?_
        refine .bind (syncMutated_obeys (fun hback obj => .status obj hback)
          (fun _ hscope hc => .dest hscope hc) ?_ ?_ ?_) fun _ _ => .pure trivial
        · exact ⟨fun hK hr h => (Tracks.of_answers h.answers).get (hK h) hr,
            fun hK hr h => (Tracks.of_answers h.answers).patch (hK h) hr,
            fun hK hr h => (Tracks.of_answers h.answers).update (hK h) hr⟩
        · intro d' hd' h
          obtain ⟨d, rfl, hmeta, htype⟩ := (applyMutations_identity h.mutator hm).2.2 d' hd'
          rw [show d'.idOn destSide.client = d.idOn destSide.client by
            simp [Unstructured.idOn, hmeta, htype]]
          exact .found rfl
        · refine fun hgenerate destObj hcreate _ =>
            .generated (hgenerate.imp_left fun hnone => ?_) hm hcreate
          rcases applyMutations_ok hm with ⟨-, -, heq⟩ | ⟨_, _, -, -, ⟨heq, -⟩ | ⟨_, _, -, heq, -⟩⟩
          · exact heq.symm.trans hnone
          · exact heq
          · cases heq.symm.trans hnone

theorem sync_calls : (s.sync L scope sourceSide destSide source dest).AllCalls (SyncCall
    (fun _ _ => True) L scope s sourceSide.client destSide.client source dest) :=
  sync_obeys.allCalls

end Calls

end ObjectSyncer

namespace ResourceSyncer

variable {s : ResourceSyncer} {remote local' : ObjectSide} {V : (c : api.Call) → api.Resp c → Prop}

/-- The annotations of the primary object with those of a related resource replaced. -/
def rememberedOn (s : ResourceSyncer) (remote : ObjectSide) (identifier : String)
    (resolvedObjects : List ResolvedObject) : StringMap :=
  let start := relatedObjectAnnotationPrefix ++ identifier ++ "."
  (remote.object.metadata.annotations.filterKeys fun k => !hasPrefix k start).insertAll
    (s.relatedObjectAnnotations start resolvedObjects)

/-- A call that the related resources of a primary object make: in the scope of one of them, or a
patch of annotations on the primary object. -/
def RelatedCall (s : ResourceSyncer) (scope : Scope) (remote : ObjectSide) (c : Call) : Prop :=
  (∃ id, c.scope = { scope with identifier := some id }) ∨
  ∃ annotations, c = ⟨scope, .patch (remote.object.idOn remote.client)
    (s.libs.diff.create remote.object.toFields
      { remote.object with metadata.annotations := annotations }.toFields)⟩

theorem pruneRelatedCopies_obeys {dest : SyncSide} {projectedGVK : TypeMeta} {selector : Selector}
    {keep : Option (List String)} {deletionPolicies : SortedMap String DeletionPropagation}
    (hlist : P ⟨scope, .list dest.client projectedGVK "" selector 0 false⟩)
    (hdelete : ∀ items, V ⟨scope, .list dest.client projectedGVK "" selector 0 false⟩ (.ok items) →
      ∀ item ∈ items, ∀ policy, P ⟨scope, .delete (item.idOn dest.client) policy⟩) :
    (pruneRelatedCopies scope dest projectedGVK selector keep deletionPolicies).Obeys V P
      fun _ => True := by
  refine .bind (.mapError (list_obeys hlist)) fun items hitems =>
    .bind (Q := fun _ => True)
      (.mono (.forEach (Q := fun _ => True) fun item hitem => ?_) (fun _ h => h)
      fun _ _ => trivial) fun _ _ => .pure trivial
  unfold pruneCopy
  split
  · exact .pure trivial
  · split
    · exact .pure trivial
    · refine .bind (request_obeys (hdelete items hitems item hitem _)) fun r _ => ?_
      split
      · exact .pure trivial
      · exact .pure trivial
      · exact .throw

theorem cleanUpRelatedCopies_obeys {origin dest : ObjectSide} {relRes : RelatedResourceSpec}
    {primaryDeleting : Bool} {projectedGVK : TypeMeta} {resolvedObjects : List ResolvedObject}
    {requeue : Bool} {selector : Selector}
    (hselector : selector = relatedCopySelector s.libs.hash remote.object remote.clusterName
      s.pubRes.name relRes.identifier s.agentName)
    (hresolve : (resolveRelatedResourceObjects s.libs
      ⟨⟨origin.client, origin.clusterName, ""⟩, origin.object⟩ dest scope true relRes).AllCalls P)
    (hlist : P ⟨scope, .list dest.client projectedGVK "" selector 0 false⟩)
    (hdelete : ∀ items, V ⟨scope, .list dest.client projectedGVK "" selector 0 false⟩ (.ok items) →
      ∀ item ∈ items, ∀ policy, P ⟨scope, .delete (item.idOn dest.client) policy⟩) :
    (s.cleanUpRelatedCopies scope remote origin dest relRes primaryDeleting projectedGVK
      resolvedObjects requeue).Obeys V P fun _ => True := by
  subst hselector
  have hprune : ∀ (text : String) (keep : Option (List String))
      (policies : SortedMap String DeletionPropagation), (do
        let pruned ← wrap text (pruneRelatedCopies scope dest.toSyncSide projectedGVK
          (relatedCopySelector s.libs.hash remote.object remote.clusterName s.pubRes.name
            relRes.identifier s.agentName) keep policies)
        return requeue || pruned : SyncM Bool).Obeys V P fun _ => True :=
    fun _ _ _ => .bind (.mapError (pruneRelatedCopies_obeys hlist hdelete)) fun _ _ => .pure trivial
  unfold cleanUpRelatedCopies
  dsimp only
  split
  · exact hprune _ _ _
  · split
    · split
      · refine .bind (Q := fun _ => True) (.mapError ?_) fun checked _ => ?_
        · unfold confirmOriginEmpty
          split
          · exact .pure trivial
          · exact .bind hresolve.obeys fun _ _ => .pure trivial
        · split
          · exact .pure trivial
          · exact .pure trivial
          · exact hprune _ _ _
      · exact hprune _ _ _
    · exact .pure trivial

theorem rememberRelatedObjects_allCalls {identifier : String}
    {resolvedObjects : List ResolvedObject} (hP : resolvedObjects ≠ [] →
      P ⟨scope, .patch (remote.object.idOn remote.client) (s.libs.diff.create remote.object.toFields
        { remote.object with
          metadata.annotations := s.rememberedOn remote identifier resolvedObjects }.toFields)⟩) :
    (s.rememberRelatedObjects scope remote identifier resolvedObjects).AllCalls P := by
  unfold rememberRelatedObjects
  split
  · exact .pure
  · next hsome =>
    dsimp only
    split
    · exact .pure
    · exact .bind (.mapError (.sendE (hP hsome))) fun _ => .pure

/-- The calls for one related resource: those of the resolution, reads of copies, the syncs of the
objects that were read, deletions of copies that were listed, and the annotations of the primary
object. -/
inductive ResourceCall (V : (c : api.Call) → api.Resp c → Prop) (s : ResourceSyncer) (scope : Scope)
    (stateStore : KubernetesBackend) (remote : ObjectSide) (relRes : RelatedResourceSpec)
    (originClient destClient : Client) : Call → Prop
  | resolve {c : Call} :
      ResolveCall s.libs { scope with identifier := some relRes.identifier } relRes
      originClient c → ResourceCall V s scope _ _ relRes originClient _ c
  | copies {c : Call} {t : TypeMeta} : c.scope =
      { scope with identifier := some relRes.identifier } →
      c.failure = none → c.verb.client = some destClient → c.verb.opens = some (destClient, t) →
      s.libs.kindFor destClient relRes.projectedGVR = .ok t →
      ResourceCall V s scope _ _ relRes _ destClient c
  | sync {primaryDeleting : Bool} {t : TypeMeta} {id : ObjectId} {resolved : ResolvedObject}
      {found : Except ApiError Unstructured} {c : Call} :
      s.libs.kindFor destClient relRes.projectedGVR = .ok t → id.client = originClient →
      V ⟨{ scope with identifier := some relRes.identifier }, .get id false⟩
      (.ok resolved.original) →
      V ⟨{ scope with identifier := some relRes.identifier },
        .get ⟨destClient, t, resolved.destination.ns, resolved.destination.name⟩ false⟩ found →
      (s.relatedSyncer stateStore remote relRes primaryDeleting t resolved).SyncCall V s.libs
        { scope with identifier := some relRes.identifier } originClient
        destClient resolved.original
        found.toOption c →
      ResourceCall V s scope stateStore remote relRes originClient destClient c
  | delete {t : TypeMeta} {items : List Unstructured} {item : Unstructured}
      (policy : DeletionPropagation) :
      V ⟨{ scope with identifier := some relRes.identifier }, .list destClient t ""
        (relatedCopySelector s.libs.hash remote.object remote.clusterName s.pubRes.name
          relRes.identifier s.agentName) 0 false⟩ (.ok items) →
      s.libs.kindFor destClient relRes.projectedGVR = .ok t → item ∈ items →
      ResourceCall V s scope _ remote relRes _ destClient
        ⟨{ scope with identifier := some relRes.identifier }, .delete (item.idOn destClient) policy⟩
  | remember (resolvedObjects : List ResolvedObject) : relRes.origin = .service →
      resolvedObjects ≠ [] → ResourceCall V s scope _ remote relRes _ _
        ⟨scope, .patch (remote.object.idOn remote.client) (s.libs.diff.create remote.object.toFields
          { remote.object with
            metadata.annotations :=
              s.rememberedOn remote relRes.identifier resolvedObjects }.toFields)⟩

/-- A related object is written where its copy is looked for. -/
theorem eq_of_writesAt {stateStore : KubernetesBackend} {relRes : RelatedResourceSpec}
    {primaryDeleting : Bool} {t : TypeMeta} {resolved : ResolvedObject} {destClient : Client}
    {found : Except ApiError Unstructured} {id : ObjectId}
    (hfound : ∀ o, found = .ok o → o.idOn destClient =
      ⟨destClient, t, resolved.destination.ns, resolved.destination.name⟩)
    (h : (s.relatedSyncer stateStore remote relRes primaryDeleting t resolved).WritesAt destClient
      resolved.original found.toOption id) :
    id = ⟨destClient, t, resolved.destination.ns, resolved.destination.name⟩ := by
  cases h with
  | found hd =>
    cases found with
    | error e => cases hd
    | ok o =>
      cases hd
      exact hfound _ rfl
  | generated _ _ hcreate =>
    cases hcreate
    rfl

theorem ResourceCall.related {stateStore : KubernetesBackend} {relRes : RelatedResourceSpec}
    {originClient destClient : Client} {c : Call}
    (h : s.ResourceCall V scope stateStore remote relRes originClient destClient c) :
    RelatedCall s scope remote c := by
  cases h with
  | resolve hc => exact .inl ⟨_, hc.scope⟩
  | copies hscope _ _ _ _ => exact .inl ⟨_, hscope⟩
  | sync _ _ _ _ hc => exact .inl ⟨_, hc.scope_eq⟩
  | delete policy _ _ _ => exact .inl ⟨_, rfl⟩
  | remember resolvedObjects _ _ => exact .inr ⟨_, rfl⟩

theorem processRelatedResource_obeys {stateStore : KubernetesBackend}
    {relRes : RelatedResourceSpec} {primaryDeleting : Bool} :
    (s.processRelatedResource scope stateStore remote local' relRes primaryDeleting).Obeys V
      (s.ResourceCall V scope stateStore remote relRes (relatedSides remote local' relRes).1.client
        (relatedSides remote local' relRes).2.client) fun _ => True := by
  refine .bind
    (.mapError (.mono (resolveRelatedResourceObjects_obeys (R := fun o => ∃ id : ObjectId,
    id.client = (relatedSides remote local' relRes).1.client ∧
    V ⟨{ scope with identifier := some relRes.identifier }, .get id false⟩ (.ok o))
    fun id o hid ho => ⟨id, hid, ho⟩) (fun _ => .resolve) fun _ h => h))
    fun found hfound => wrapE_obeys fun gvk hgvk => ?_
  have hkind := ok_of_mapError hgvk
  refine .bind (Q := fun _ => True) (.mono (.forEach (Q := fun _ => True) fun resolved hmem => ?_)
    (fun _ h => h) fun _ _ => trivial) fun requeues _ => .bind (Q := fun _ => True) ?_
      fun remembered _ => ?_
  · obtain ⟨id, hid, hread⟩ := hfound resolved ((List.mem_insertionSort _).mp hmem)
    refine .bind (request_obeys (.copies rfl rfl rfl rfl hkind)) fun found hcopy =>
      .bind (Q := fun _ => True) (.mapError ?_) fun _ _ => .pure trivial
    cases found with
    | error e =>
      exact .mono ObjectSyncer.sync_obeys (fun _ hc => .sync hkind hid hread hcopy hc) fun _ h => h
    | ok o =>
      exact .mono ObjectSyncer.sync_obeys (fun _ hc => .sync hkind hid hread hcopy hc) fun _ h => h
  · split
    · next horigin =>
      exact (rememberRelatedObjects_allCalls fun hsome => .remember _ horigin hsome).obeys
    · exact .pure trivial
  · split
    · exact .pure trivial
    · exact cleanUpRelatedCopies_obeys rfl (Fallible.AllCalls.mono
        resolveRelatedResourceObjects_allCalls fun _ => .resolve)
        (.copies rfl rfl rfl rfl hkind) fun items hitems item hitem policy =>
          .delete policy hitems hkind hitem

theorem processRelatedResources_obeys {stateStore : KubernetesBackend} {primaryDeleting : Bool}
    (hP : ∀ relRes ∈ s.pubRes.related, ∀ c, s.ResourceCall V scope stateStore remote relRes
      (relatedSides remote local' relRes).1.client
      (relatedSides remote local' relRes).2.client c → P c) :
    (s.processRelatedResources scope stateStore remote local' primaryDeleting).Obeys V P
      fun _ => True := by
  unfold processRelatedResources
  generalize s.pubRes.related = related at hP
  induction related with
  | nil => exact .pure trivial
  | cons relRes rest ih =>
    refine .bind (.mapError (.mono processRelatedResource_obeys (hP relRes List.mem_cons_self)
      fun _ h => h)) fun requeue _ => ?_
    split
    · exact .pure trivial
    · exact ih fun relRes' hmem => hP relRes' (List.mem_cons_of_mem _ hmem)

theorem processRelatedResources_allCalls {stateStore : KubernetesBackend} {primaryDeleting : Bool} :
    (s.processRelatedResources scope stateStore remote local' primaryDeleting).AllCalls
      (RelatedCall s scope remote) :=
  (processRelatedResources_obeys fun _ _ _ hc => hc.related).allCalls

/-- The calls of `Process` on what was found: those of `Sync`, and those of the related
resources. -/
inductive FoundCall (V : (c : api.Call) → api.Resp c → Prop) (s : ResourceSyncer)
    (clusterName workspacePath : String) (r : Unstructured)
    (dest : Option Unstructured) : Call → Prop
  | sync {c : Call} : (s.primarySyncer (s.stateStore clusterName workspacePath r) clusterName
        workspacePath r).SyncCall V s.libs (primaryScope clusterName r) (.remoteClient clusterName)
        .localClient r dest c → FoundCall V s clusterName workspacePath r dest c
  | related {relRes : RelatedResourceSpec} {o l : Unstructured} {c : Call} :
      relRes ∈ s.pubRes.related →
      s.ResourceCall V (primaryScope clusterName r) (s.stateStore clusterName workspacePath r)
        ⟨remoteSide clusterName workspacePath, o⟩ relRes
        (relatedSides ⟨remoteSide clusterName workspacePath, o⟩ ⟨localSide, l⟩ relRes).1.client
        (relatedSides ⟨remoteSide clusterName workspacePath, o⟩ ⟨localSide, l⟩ relRes).2.client c →
      FoundCall V s clusterName workspacePath r dest c

theorem processFound_obeys {clusterName workspacePath : String} {r : Unstructured}
    {dest : Option Unstructured} :
    (s.processFound clusterName workspacePath r dest).Obeys V
      (s.FoundCall V clusterName workspacePath r dest) fun _ => True := by
  have hrelated : ∀ {o l : Unstructured} {deleting : Bool},
      (s.processRelatedResources (primaryScope clusterName r)
        (s.stateStore clusterName workspacePath r)
        ⟨remoteSide clusterName workspacePath, o⟩ ⟨localSide, l⟩ deleting).Obeys V
        (s.FoundCall V clusterName workspacePath r dest) fun _ => True :=
    processRelatedResources_obeys fun relRes hmem c hc => .related hmem hc
  refine .bind (Q := fun _ => True) ?_ fun cleaning _ => ?_
  · split
    · split
      · exact .mapError hrelated
      · exact .pure trivial
    · exact .pure trivial
  · split
    · exact .pure trivial
    · refine .bind (.mono ObjectSyncer.sync_obeys (fun _ => .sync) fun _ h => h) fun result _ => ?_
      obtain ⟨requeue, o⟩ := result
      dsimp only
      split
      · exact .pure trivial
      · split
        · exact .pure trivial
        · exact hrelated

/-- What holds of the search for the local object, and of the calls on whatever was found, holds of
all calls of `Process`. -/
theorem process_obeys {clusterName workspacePath : String} {r : Unstructured}
    (hfind : ∀ selector,
      P ⟨primaryScope clusterName r, .list .localClient s.destType "" selector 2 false⟩)
    (hfound : ∀ dest,
      V ⟨primaryScope clusterName r, .list .localClient s.destType "" (selectorFromSet
        ((newObjectKey r clusterName workspacePath).labels s.libs.hash)) 2 false⟩
        (.ok dest.toList) →
      ∀ c, s.FoundCall V clusterName workspacePath r dest c → P c) :
    (s.process clusterName workspacePath r).Obeys V P fun _ => True := by
  refine .bind (.mapError (.bind (.mapError (list_obeys (hfind _))) fun items hitems => ?_))
    fun dest hdest => .mono processFound_obeys (hfound dest hdest) fun _ h => h
  split
  · exact .pure hitems
  · exact .pure hitems
  · exact .throw

end ResourceSyncer

end Sync
