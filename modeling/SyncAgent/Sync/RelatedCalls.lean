import SyncAgent.Sync.RelatedDeletes

/-! One pass over a related resource, call by call, against API servers that answer the calls in
ways of their own: reads can fail, and objects of cluster-scoped kinds have no namespace. -/

namespace Sync

open Kube

/-- Every read of an object is answered with what is stored, or it fails with an error that does not
say `NotFound`.  The other calls are answered in any way. -/
def ReadsOrFails (answer : (c : api.Call) → World → api.Resp c × World) : Prop :=
  ∀ scope id live w, answer ⟨scope, .get id live⟩ w =
    ((w.object? id).elim (.error .notFound) .ok, w) ∨
    ∃ e, e ≠ ApiError.notFound ∧ answer ⟨scope, .get id live⟩ w = (.error e, w)

namespace RelatedSync

variable (R : RelatedSync) {answer : (c : api.Call) → World → api.Resp c × World}
  {dest : Option Unstructured} {w : World}

/-- The call that removes the finalizer from the origin object. -/
def release : Call :=
  ⟨R.scope, .patch (R.resolved.original.idOn R.origin.client) (R.syncer.libs.diff.create
    R.resolved.original.toFields (withoutFinalizer R.resolved.original).toFields)⟩

/-- The calls of the sync with the copy that was found, if any. -/
def syncCalls (answer : (c : api.Call) → World → api.Resp c × World) (dest : Option Unstructured)
    (w : World) : List Call :=
  Fallible.calls answer (R.objectSyncer.sync R.syncer.libs R.scope R.sourceSide R.destSide
    R.resolved.original dest) w

/-- The deletion of the copy is asked for, and the origin object waits for it. -/
structure TornDown : Prop where
  deleting : R.resolved.original.metadata.deletionTimestamp.isSome = true ∨
    ResourceSyncer.forceDelete R.relRes R.primaryDeleting = true
  forwarded : ResourceSyncer.forceDelete R.relRes R.primaryDeleting = true ∨ R.relRes.origin = .kcp
  finalizer : R.resolved.original.metadata.finalizers.contains deletionFinalizer = true

/-- The read of the copy fails, and not because there is none. -/
def ReadFails (answer : (c : api.Call) → World → api.Resp c × World) (w : World) : Prop :=
  ∃ e, e ≠ ApiError.notFound ∧ (answer ⟨R.scope, .get R.copyId false⟩ w).1 = .error e

/-- The sync removes the finalizer. -/
def Releases (answer : (c : api.Call) → World → api.Resp c × World) (w : World) : Prop :=
  R.resolved.original.metadata.finalizers.contains deletionFinalizer = true ∧
    R.release ∈ Fallible.calls answer R.run w

variable {R}

theorem release_mem_iff (hfinalizer : R.resolved.original.metadata.finalizers.contains
      deletionFinalizer = true) :
    R.release ∈ R.syncCalls answer dest w ↔ R.TornDown ∧ dest = none := by
  constructor
  · intro hmem
    by_contra hkept
    have hwrites : ∀ c : Call, c.scope = R.scope →
      WriteCall R.destSide.client c → c ≠ R.release := by
      rintro c - (hread | hsecret | ⟨id, htarget, hid, -⟩) rfl
      · cases hread
      · cases hsecret
      · cases htarget
        exact R.client_ne hid
    have hall : (R.objectSyncer.sync R.syncer.libs R.scope R.sourceSide R.destSide
        R.resolved.original dest).AllCalls (· ≠ R.release) := by
      refine .mono ObjectSyncer.sync_calls fun c hc => ?_
      cases hc with
      | dest hscope hc => exact hwrites c hscope hc.write
      | delete policy _ _ _ => exact fun heq => by cases heq
      | release hdel hblock hdest _ =>
        exact absurd ⟨⟨hdel, by simpa [objectSyncer, ResourceSyncer.relatedSyncer] using hblock,
          hfinalizer⟩, hdest⟩ hkept
      | finalize _ _ hnone => cases hnone.symm.trans hfinalizer
      | status obj hback => cases hback
    exact Prog.AllCalls.of_mem_calls hall hmem rfl
  · rintro ⟨htorn, rfl⟩
    have hdel : (R.resolved.original.metadata.deletionTimestamp.isSome ||
        R.objectSyncer.forceDelete) = true := by
      rcases htorn.deleting with h | h
      · rw [h, Bool.true_or]
      · exact (congrArg _ h).trans (Bool.or_true _)
    have hblock : (!R.objectSyncer.blockSourceDeletion) = false := by
      rcases htorn.forwarded with h | h
      · simp [objectSyncer, ResourceSyncer.relatedSyncer, h]
      · simp [objectSyncer, ResourceSyncer.relatedSyncer, h]
    have hcontains :
        (!R.resolved.original.metadata.finalizers.contains deletionFinalizer) = false := by
      rw [hfinalizer]; rfl
    unfold syncCalls ObjectSyncer.sync ObjectSyncer.handleDeletion removeFinalizer
    rw [if_pos hdel, if_neg (by simp [hblock]), if_neg (Bool.eq_false_iff.mp hcontains)]
    exact List.mem_cons_self

theorem calls_run : Fallible.calls answer R.run w =
    ⟨R.scope, .get R.copyId false⟩ :: R.syncCalls answer
      (answer ⟨R.scope, .get R.copyId false⟩ w).1.toOption
      (answer ⟨R.scope, .get R.copyId false⟩ w).2 := by
  have hrest : ∀ (dest : Option Unstructured) (w' : World), Fallible.calls answer
      (wrap "failed to sync related object" (R.objectSyncer.sync R.syncer.libs R.scope
        R.sourceSide R.destSide R.resolved.original dest) >>= fun result => pure result.1) w' =
      R.syncCalls answer dest w' := fun dest w' =>
    (Fallible.calls_bind_pure _ _ _ _).trans (Fallible.calls_mapError _ _ _ _)
  unfold run ResourceSyncer.syncResolved
  refine (Fallible.calls_bind _ _ _ _).trans (congrArg (_ :: ·) ?_)
  rcases hread : answer ⟨R.scope, .get R.copyId false⟩ w with ⟨found, w'⟩
  have heval : Fallible.eval answer (request R.scope (.get ⟨R.dest.client, R.projectedGVK,
      R.resolved.destination.ns, R.resolved.destination.name⟩ false)) w = (.ok found, w') :=
    eval_request hread
  rw [heval]
  cases found with
  | error e => exact hrest none w'
  | ok o => exact hrest (some o) w'

/-- With reads that answer what is stored or fail, the finalizer is removed for want of a copy and
for nothing else, unless the read fails while the copy is torn down. -/
theorem releases_safe_iff (hreads : ReadsOrFails answer) :
    ((R.ReadFails answer w → ¬ R.Releases answer w) ∧
      (R.Releases answer w → w.object? R.copyId = none)) ↔
    ¬ (R.TornDown ∧ R.ReadFails answer w) := by
  have hreleases : ∀ {found : Except ApiError Unstructured} {w' : World},
      answer ⟨R.scope, .get R.copyId false⟩ w = (found, w') →
      (R.Releases answer w ↔ R.TornDown ∧ found.toOption = none) := by
    intro found w' hfound
    unfold Releases
    rw [calls_run, List.mem_cons, hfound]
    constructor
    · rintro ⟨hfinalizer, hread | hmem⟩
      · cases hread
      · exact (release_mem_iff hfinalizer).mp hmem
    · rintro ⟨htorn, hnone⟩
      exact ⟨htorn.finalizer, .inr ((release_mem_iff htorn.finalizer).mpr ⟨htorn, hnone⟩)⟩
  rcases hreads R.scope R.copyId false w with hstored | ⟨e, he, hfail⟩
  · -- the read tells what is stored
    have hok : ¬ R.ReadFails answer w := by
      rintro ⟨e, he, hfail⟩
      rw [hstored] at hfail
      cases hobj : w.object? R.copyId with
      | none =>
        rw [hobj] at hfail
        cases hfail
        exact he rfl
      | some o =>
        rw [hobj] at hfail
        cases hfail
    refine iff_of_true ⟨fun hfail => absurd hfail hok, fun hrel => ?_⟩ fun h => hok h.2
    obtain ⟨-, hnone⟩ := (hreleases hstored).mp hrel
    cases hobj : w.object? R.copyId with
    | none => rfl
    | some o =>
      rw [hobj] at hnone
      cases hnone
  · -- the failure counts as a missing copy
    have hfails : R.ReadFails answer w := ⟨e, he, congrArg Prod.fst hfail⟩
    constructor
    · rintro ⟨hkept, -⟩ ⟨htorn, -⟩
      exact hkept hfails ((hreleases hfail).mpr ⟨htorn, rfl⟩)
    · intro hsafe
      have hkept : ¬ R.Releases answer w := fun hrel =>
        hsafe ⟨((hreleases hfail).mp hrel).1, hfails⟩
      exact ⟨fun _ => hkept, fun hrel => absurd hrel hkept⟩

end RelatedSync

namespace RelatedPass

variable (P : RelatedPass) (answer : (c : api.Call) → World → api.Resp c × World)

/-- The sync of a resolved object. -/
def turn (gvk : TypeMeta) (resolved : ResolvedObject) : RelatedSync where
  syncer := P.syncer
  server := P.server
  scope := P.relScope
  stateStore := P.stateStore
  remote := P.remote
  local' := P.local'
  sides := P.sides
  relRes := P.relRes
  primaryDeleting := P.primaryDeleting
  projectedGVK := gvk
  resolved := resolved

/-- The syncs of a pass, each with the state in which it starts. -/
def turns (w : World) : List (RelatedSync × World) :=
  match Fallible.eval answer P.resolution w,
    P.syncer.libs.kindFor P.dest.client P.relRes.projectedGVR with
  | (.ok found, w₁), .ok gvk =>
    (Fallible.visits answer (fun resolved => (P.turn gvk resolved).run)
      (ResourceSyncer.syncOrder found) w₁).map fun v => (P.turn gvk v.1, v.2)
  | _, _ => []

/-- What comes after the syncs. -/
def afterTurns (found : List ResolvedObject) (gvk : TypeMeta) (requeues : List Bool) :
    SyncM Bool := do
  let remembered ← (if P.relRes.origin = .service then P.syncer.rememberRelatedObjects
    P.scope P.remote
      P.relRes.identifier (ResourceSyncer.syncOrder found)
    else pure false)
  if remembered then return true
  else
    P.syncer.cleanUpRelatedCopies P.relScope P.remote P.origin P.dest P.relRes P.primaryDeleting gvk
      (ResourceSyncer.syncOrder found) (requeues.any id)

/-- The pass gets through the syncs, in the state `w₂`. -/
structure Synced (w : World) (found : List ResolvedObject) (gvk : TypeMeta) (requeues : List Bool)
    (w₂ : World) : Prop where
  kind : P.syncer.libs.kindFor P.dest.client P.relRes.projectedGVR = .ok gvk
  synced : ∃ w₁, Fallible.eval answer P.resolution w = (.ok found, w₁) ∧
    Fallible.eval answer (Fallible.forEach (fun resolved => (P.turn gvk resolved).run)
      (ResourceSyncer.syncOrder found)) w₁ = (.ok requeues, w₂)

variable {P answer} {w : World}

/-- The calls of a pass: those of the resolution, those of the syncs, and those after the syncs. -/
theorem mem_calls_program {c : Call} : c ∈ Fallible.calls answer P.program w ↔
    c ∈ Fallible.calls answer P.resolution w ∨
    (∃ t ∈ P.turns answer w, c ∈ Fallible.calls answer t.1.run t.2) ∨
    ∃ found gvk requeues w₂, P.Synced answer w found gvk requeues w₂ ∧
      c ∈ Fallible.calls answer (P.afterTurns found gvk requeues) w₂ := by
  have hbody : P.program =
      wrap "failed to get resolve origin objects" P.resolution >>=
      fun found => wrapE "failed to lookup" ((P.syncer.libs.kindFor P.dest.client
        P.relRes.projectedGVR).mapError .api) >>=
      fun gvk => Fallible.forEach (fun resolved => (P.turn gvk resolved).run)
        (ResourceSyncer.syncOrder found) >>=
      fun requeues => P.afterTurns found gvk requeues := by
    obtain ⟨s, S, scope, stateStore, remote, local', sides, relRes, primaryDeleting⟩ := P
    unfold program ResourceSyncer.processRelatedResource afterTurns
    dsimp only
    cases relRes.origin with
    | service => rfl
    | kcp => rfl
  rw [hbody, Fallible.mem_calls_bind, wrap, Fallible.calls_mapError, Fallible.eval_mapError]
  refine or_congr_right ?_
  unfold turns
  rcases hfound : Fallible.eval answer P.resolution w with ⟨e | found, w₁⟩
  · -- nothing was resolved
    constructor
    · rintro ⟨_, _, heq, -⟩
      cases heq
    · rintro (⟨_, ht, -⟩ | ⟨_, _, _, _, ⟨-, _, heq, -⟩, -⟩)
      · cases ht
      · cases hfound.symm.trans heq
  · cases hkind : P.syncer.libs.kindFor P.dest.client P.relRes.projectedGVR with
    | error e =>
      constructor
      · rintro ⟨_, _, heq, hc⟩
        cases heq
        rcases Fallible.mem_calls_bind answer |>.mp hc with hc | ⟨_, _, heq, -⟩
        · cases hc
        · cases heq
      · rintro (⟨_, ht, -⟩ | ⟨_, _, _, _, ⟨heq, -⟩, -⟩)
        · cases ht
        · cases hkind.symm.trans heq
    | ok gvk =>
      have hpure : ∀ (k : TypeMeta → SyncM Bool) (w₂ : World), Fallible.calls answer
          (wrapE "failed to lookup"
            ((Except.ok gvk : Except ApiError TypeMeta).mapError .api) >>= k)
          w₂ = Fallible.calls answer (k gvk) w₂ := fun _ _ => rfl
      dsimp only
      constructor
      · rintro ⟨_, _, heq, hc⟩
        cases heq
        rw [hpure] at hc
        rcases Fallible.mem_calls_bind answer |>.mp hc with hc | ⟨requeues, w₂, hsynced, hc⟩
        · rw [Fallible.calls_forEach] at hc
          obtain ⟨v, hv, hc⟩ := List.mem_flatMap.mp hc
          exact .inl ⟨_, List.mem_map_of_mem hv, hc⟩
        · exact .inr ⟨found, gvk, requeues, w₂, ⟨hkind, w₁, hfound, hsynced⟩, hc⟩
      · rintro (⟨t, ht, hc⟩ | ⟨_, _, requeues, w₂, ⟨hgvk, _, heq, hsynced⟩, hc⟩)
        · obtain ⟨v, hv, rfl⟩ := List.mem_map.mp ht
          refine ⟨found, w₁, rfl, ?_⟩
          rw [hpure]
          refine Fallible.mem_calls_bind answer |>.mpr (.inl ?_)
          rw [Fallible.calls_forEach]
          exact List.mem_flatMap.mpr ⟨v, hv, hc⟩
        · cases hfound.symm.trans heq
          cases hkind.symm.trans hgvk
          refine ⟨found, w₁, rfl, ?_⟩
          rw [hpure]
          exact Fallible.mem_calls_bind answer |>.mpr (.inr ⟨requeues, w₂, hsynced, hc⟩)

theorem origin_write_turns {c : Call} (hc : c ∈ Fallible.calls answer P.program w) {id : ObjectId}
    (htarget : c.verb.target = some id) (hid : id.client = P.origin.client) :
    ∃ t ∈ P.turns answer w, c ∈ Fallible.calls answer t.1.run t.2 := by
  have hread : ∀ c' : Call, c'.failure = none → c' ≠ c := by
    rintro c' hc' rfl
    rw [(Call.target_of_failure_eq_none hc').1] at htarget
    cases htarget
  rcases mem_calls_program.mp hc with hc | hturn | ⟨found, gvk, requeues, w₂, -, hc⟩
  · have hall : P.resolution.AllCalls (· ≠ c) :=
      .mono resolveRelatedResourceObjects_allCalls fun c' hc' => hread c' hc'.2
    exact absurd rfl (Prog.AllCalls.of_mem_calls hall hc)
  · exact hturn
  · have hdest : ∀ c' : Call, c'.verb.target.elim True (·.client = P.dest.client) → c' ≠ c := by
      rintro c' hc' rfl
      rw [htarget] at hc'
      exact P.client_ne (hc'.symm.trans hid)
    have hall : (P.afterTurns found gvk requeues).AllCalls (· ≠ c) := by
      unfold afterTurns
      refine .bind ?_ fun remembered => ?_
      · split
        · next hservice =>
          have hremote : P.dest = P.remote := by
            unfold dest ResourceSyncer.relatedSides
            rw [hservice]
          refine ResourceSyncer.rememberRelatedObjects_allCalls fun annotations => hdest _ ?_
          rw [hremote]
          rfl
        · exact .pure
      · split
        · exact .pure
        · exact (ResourceSyncer.cleanUpRelatedCopies_obeys rfl (Fallible.AllCalls.mono
            resolveRelatedResourceObjects_allCalls fun c' hc' => hread c' hc'.2)
              (hread _ rfl) fun _ _ _ _ _ => hdest _ rfl).allCalls
    exact absurd rfl (Prog.AllCalls.of_mem_calls hall hc)

/-- Only the syncs write to the origin side.  Each of them removes the finalizer of its origin
object only if there is no copy, and not after a failed read, unless the read of the copy fails
while the deletion of the origin object waits for the copy. -/
theorem finalizers_released_iff (P : RelatedPass) (hreads : ReadsOrFails answer) (w : World) :
    (∀ c ∈ Fallible.calls answer P.program w, ∀ id, c.verb.target = some id →
      id.client = P.origin.client →
      ∃ t ∈ P.turns answer w, c ∈ Fallible.calls answer t.1.run t.2) ∧
    ∀ t ∈ P.turns answer w,
      ((t.1.ReadFails answer t.2 → ¬ t.1.Releases answer t.2) ∧
        (t.1.Releases answer t.2 → t.2.object? t.1.copyId = none)) ↔
      ¬ (t.1.TornDown ∧ t.1.ReadFails answer t.2) :=
  ⟨fun _ hc _ htarget hid => origin_write_turns hc htarget hid,
    fun _ _ => RelatedSync.releases_safe_iff hreads⟩

/-! ### A read that fails -/

/-- The sample's Secret in the workspace is in deletion and carries the finalizer; its copy
exists. -/
def dyingWorld : World :=
  ResourceSyncer.secretsWorld.put (.remoteClient "c1") ⟨.secret,
    { name := "root", ns := "team-a", deletionTimestamp := some 5
      finalizers := [deletionFinalizer] },
    default⟩

/-- The processing of the sample's Secret. -/
def secretPass : RelatedPass := { renamed with relRes := ResourceSyncer.secretNamed "root" }

/-- Every read on one API server fails. -/
def failingOn (client : Client) (c : api.Call) (w : World) : api.Resp c × World :=
  match c with
  | ⟨scope, .get id live⟩ =>
    if id.client = client then (.error .other, w) else exec .setting ⟨scope, .get id live⟩ w
  | c => exec .setting c w

theorem readsOrFails_exec : ReadsOrFails (exec .setting) := fun _ _ _ _ => .inl rfl

/-- The origin object of a sync is in deletion and comes from the workspace, and there is a copy. -/
def dying (t : RelatedSync × World) : Bool :=
  t.1.resolved.original.metadata.deletionTimestamp.isSome && decide (t.1.relRes.origin = .kcp) &&
    t.1.resolved.original.metadata.finalizers.contains deletionFinalizer &&
    decide (t.1.copyId.client = .localClient) && (t.2.object? t.1.copyId).isSome

theorem tornDown_of_dying {t : RelatedSync × World} (h : dying t = true) :
    t.1.TornDown ∧ t.1.copyId.client = .localClient ∧ (t.2.object? t.1.copyId).isSome = true := by
  simp only [dying, Bool.and_eq_true, decide_eq_true_eq] at h
  obtain ⟨⟨⟨⟨hdeleting, hkcp⟩, hfinalizer⟩, hclient⟩, hcopy⟩ := h
  exact ⟨⟨.inl hdeleting, .inr hkcp, hfinalizer⟩, hclient, hcopy⟩

theorem finalizers_released_secret : ∃ t ∈ secretPass.turns (exec .setting) dyingWorld,
    t.1.TornDown ∧ ¬ t.1.Releases (exec .setting) t.2 := by
  have htest : (secretPass.turns (exec .setting) dyingWorld).any dying = true := by decide +kernel
  obtain ⟨t, ht, hdying⟩ := List.any_eq_true.mp htest
  obtain ⟨htorn, -, hcopy⟩ := tornDown_of_dying hdying
  obtain ⟨o, ho⟩ := Option.isSome_iff_exists.mp hcopy
  have hread : (exec .setting ⟨t.1.scope, .get t.1.copyId false⟩ t.2).1 = .ok o := by
    show (t.2.object? t.1.copyId).elim _ _ = _
    rw [ho]
    rfl
  have hsafe := ((secretPass.finalizers_released_iff readsOrFails_exec dyingWorld).2 t ht).mpr (by
    rintro ⟨-, e, -, hfail⟩
    cases hread.symm.trans hfail)
  refine ⟨t, ht, htorn, fun hrel => ?_⟩
  cases ho.symm.trans (hsafe.2 hrel)

/-- The copy cannot be read, so the origin object is released, and it is gone before its copy. -/
theorem failed_read_releases : (∃ t ∈ secretPass.turns (failingOn .localClient) dyingWorld,
      t.1.ReadFails (failingOn .localClient) t.2 ∧ t.1.Releases (failingOn .localClient) t.2 ∧
      (t.2.object? t.1.copyId).isSome = true) ∧
    ((Fallible.eval (failingOn .localClient) secretPass.program dyingWorld).2.object?
      ⟨.remoteClient "c1", .secret, "team-a", "root"⟩).isNone = true := by
  have htest : (secretPass.turns (failingOn .localClient) dyingWorld).any dying = true := by
    decide +kernel
  obtain ⟨t, ht, hdying⟩ := List.any_eq_true.mp htest
  obtain ⟨htorn, hclient, hcopy⟩ := tornDown_of_dying hdying
  have hread :
      failingOn .localClient ⟨t.1.scope, .get t.1.copyId false⟩ t.2 = (.error .other, t.2) :=
    if_pos hclient
  refine ⟨⟨t, ht, ⟨.other, by simp, congrArg Prod.fst hread⟩, ⟨htorn.finalizer, ?_⟩, hcopy⟩,
    by decide +kernel⟩
  rw [RelatedSync.calls_run, hread]
  exact .tail _ ((RelatedSync.release_mem_iff htorn.finalizer).mpr ⟨htorn, rfl⟩)

end RelatedPass

end Sync
