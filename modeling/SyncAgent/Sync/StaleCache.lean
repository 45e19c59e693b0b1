import SyncAgent.Sync.Runs

/-! Whether a stale cache can make the agent delete all copies of a related resource.  The objects
of the origin side are read from a cache; before all copies are deleted because there are no such
objects, they are resolved once more without the cache. -/

namespace Sync

open Kube

/-- `exec`, where the objects of one side are read from a cache unless they are read live. -/
def execCached (S : Server) (origin : Client) (cache : World) (c : Call) (w : World) :
    c.verb.Resp × World :=
  match c with
  | ⟨scope, .get id false⟩ =>
    if id.client = origin then ((exec S ⟨scope, .get id false⟩ cache).1, w)
    else exec S ⟨scope, .get id false⟩ w
  | ⟨scope, .list client typeMeta ns selector limit false⟩ =>
    if client = origin then
      ((exec S ⟨scope, .list client typeMeta ns selector limit false⟩ cache).1, w)
    else exec S ⟨scope, .list client typeMeta ns selector limit false⟩ w
  | c => exec S c w

variable {S : Server} {origin : Client} {cache w : World}

theorem execCached_read (c : Call) (hc : c.failure = none) (w : World) :
    ∃ selectors, (execCached S origin cache c w).2 = { w with selectors := selectors } := by
  unfold execCached
  split
  · split
    · exact ⟨w.selectors, rfl⟩
    · exact exec_of_failure_eq_none hc w
  · split
    · exact ⟨w.selectors, rfl⟩
    · exact exec_of_failure_eq_none hc w
  · exact exec_of_failure_eq_none hc w

/-- The side as `confirmOriginEmpty` passes it on. -/
def ObjectSide.withoutPath (side : ObjectSide) : ObjectSide :=
  ⟨⟨side.client, side.clusterName, ""⟩, side.object⟩

/-- The call deletes an object. -/
def Deletes (c : Call) : Prop := ∃ id policy, c.verb = .delete id policy

theorem not_deletes_of_read {c : Call} (hc : c.failure = none) : ¬ Deletes c := by
  obtain ⟨scope, verb⟩ := c
  rintro ⟨id, policy, rfl⟩
  cases hc

/-- No deletion is refused. -/
def DeletesFreely (answer : (c : api.Call) → World → api.Resp c × World) : Prop :=
  ∀ scope id policy w, (answer ⟨scope, .delete id policy⟩ w).1 = .ok () ∨
    (answer ⟨scope, .delete id policy⟩ w).1 = .error .notFound

theorem deleteObject_answer (w : World) (id : ObjectId) (policy : DeletionPropagation) :
    (w.deleteObject id policy).1 = .ok () ∨ (w.deleteObject id policy).1 = .error .notFound := by
  rcases w.deleteObject_cases id policy with h | ⟨_, -, ⟨-, h⟩ | ⟨-, -, h⟩ | ⟨-, _, -, h⟩⟩
  · exact .inr (by rw [h])
  all_goals exact .inl (by rw [h])

theorem execCached_delete : DeletesFreely (execCached S origin cache) := fun _ id policy w =>
  deleteObject_answer w id policy

namespace ResourceSyncer

variable {s : ResourceSyncer} {scope : Scope} {stateStore : KubernetesBackend}
  {remote local' : ObjectSide} {relRes : RelatedResourceSpec}

section Prune

variable {answer : (c : api.Call) → World → api.Resp c × World}
    {dest : SyncSide} {keep : List String}
  {policies : SortedMap String DeletionPropagation} {item : Unstructured}

/-- The call that deletes a listed copy. -/
def pruneCall (scope : Scope) (dest : SyncSide) (policies : SortedMap String DeletionPropagation)
    (item : Unstructured) : Call :=
  ⟨scope, .delete (item.idOn dest.client) (normalizeDeletionPropagationPolicy
    (policies.get? (relatedCopyKey (objectKeyFromObject item))))⟩

/-- A listed copy is deleted unless its name is to be kept or it is in deletion already. -/
theorem mem_calls_pruneCopy (hfree : DeletesFreely answer) {c : Call} :
    c ∈ Fallible.calls answer (pruneCopy scope dest (some keep) policies item) w ↔
    c = pruneCall scope dest policies item ∧ relatedCopyKey (objectKeyFromObject item) ∉ keep ∧
      item.metadata.deletionTimestamp = none := by
  unfold pruneCopy
  by_cases hkeep : relatedCopyKey (objectKeyFromObject item) ∈ keep
  · rw [if_pos (by simpa using hkeep), Fallible.calls_pure]
    simp [hkeep]
  · rw [if_neg (by simpa using hkeep)]
    cases hdying : item.metadata.deletionTimestamp with
    | some time =>
      rw [if_pos (by simp), Fallible.calls_pure]
      simp
    | none =>
      rw [if_neg (by simp), Fallible.mem_calls_bind]
      have hrest : ∀ {r w'}, Fallible.eval answer (request scope (.delete (item.idOn
          dest.client) (normalizeDeletionPropagationPolicy
            (policies.get? (relatedCopyKey (objectKeyFromObject item)))))) w = (.ok r, w') →
          r = .ok () ∨ r = .error .notFound := by
        intro r w' heval
        cases heval
        exact hfree scope _ _ w
      constructor
      · rintro (hc | ⟨r, w', heval, hc⟩)
        · exact ⟨List.mem_singleton.mp hc, hkeep, rfl⟩
        · rcases hrest heval with rfl | rfl
          · cases hc
          · cases hc
      · rintro ⟨rfl, -, -⟩
        exact .inl List.mem_cons_self

theorem exists_eval_pruneCopy (hfree : DeletesFreely answer) (w : World) : ∃ b w',
    Fallible.eval answer (pruneCopy scope dest (some keep) policies item) w = (.ok b, w') := by
  unfold pruneCopy
  split
  · exact ⟨_, _, rfl⟩
  · split
    · exact ⟨_, _, rfl⟩
    · dsimp only
      generalize normalizeDeletionPropagationPolicy _ = policy
      have hr := hfree scope (item.idOn dest.client) policy w
      rcases hdelete : answer ⟨scope, .delete (item.idOn dest.client) policy⟩ w with ⟨r, w'⟩
      rw [hdelete] at hr
      rw [Fallible.eval_bind, eval_request hdelete]
      rcases hr with hr | hr
      · obtain rfl : r = .ok () := hr
        exact ⟨_, _, rfl⟩
      · obtain rfl : r = .error .notFound := hr
        exact ⟨_, _, rfl⟩

/-- The calls of a prune: the list, and a deletion for each listed copy that is not to be kept. -/
theorem mem_calls_prune (hfree : DeletesFreely answer) {gvk : TypeMeta} {selector : Selector}
    (hlist : answer ⟨scope, .list dest.client gvk "" selector 0 false⟩ w =
      (.ok (w.listObjects dest.client gvk "" selector 0), w)) {c : Call} :
    c ∈ Fallible.calls answer (pruneRelatedCopies scope dest gvk selector (some keep) policies) w ↔
    c = ⟨scope, .list dest.client gvk "" selector 0 false⟩ ∨
    ∃ item, w.Listed dest.client gvk "" selector item ∧ c = pruneCall scope dest policies item ∧
      relatedCopyKey (objectKeyFromObject item) ∉ keep ∧
      item.metadata.deletionTimestamp = none := by
  have hread : Fallible.eval answer (wrap "failed to list related copies"
      (list scope dest.client gvk "" selector 0 false)) w =
        (.ok (w.listObjects dest.client gvk "" selector 0), w) := by
    rw [wrap, Fallible.eval_mapError, list, Fallible.eval_sendE, hlist]
    rfl
  rw [pruneRelatedCopies, Fallible.mem_calls_bind, wrap, Fallible.calls_mapError]
  refine or_congr List.mem_singleton ?_
  constructor
  · rintro ⟨items, w', heval, hc⟩
    cases hread.symm.trans heval
    rw [Fallible.calls_bind_pure, Fallible.calls_forEach] at hc
    obtain ⟨v, hv, hc⟩ := List.mem_flatMap.mp hc
    exact ⟨v.1, World.listed_of_mem (Fallible.mem_of_mem_visits _ hv),
      (mem_calls_pruneCopy hfree).mp hc⟩
  · rintro ⟨item, hlisted, hc⟩
    refine ⟨_, _, hread, ?_⟩
    obtain ⟨w', hv⟩ := Fallible.exists_visit answer w (fun _ _ => exists_eval_pruneCopy hfree)
      (World.mem_of_listed (.inl rfl) hlisted)
    rw [Fallible.calls_bind_pure, Fallible.calls_forEach]
    exact List.mem_flatMap.mpr ⟨_, hv, (mem_calls_pruneCopy hfree).mpr hc⟩

end Prune

variable (S cache s scope remote local' relRes) in
/-- All copies would be deleted: there is a live reader, it finds no origin objects when they are
resolved without the workspace path, and some copy is not in deletion yet.  `w` is the state before
the pass, `w₁` the state after the resolution from the cache, which has evaluated the label
selectors. -/
structure FullPrune (w w₁ : World) : Prop where
  reader : s.liveReader relRes.origin = true
  confirmed : (Fallible.eval (execCached S (relatedSides remote local' relRes).1.client cache)
    (resolveRelatedResourceObjects s.libs
      (relatedSides remote local' relRes).1.withoutPath (relatedSides remote local' relRes).2
      { scope with identifier := some relRes.identifier } true relRes) w₁).1 = .ok []
  copies : ∃ gvk, s.libs.kindFor (relatedSides remote local' relRes).2.client relRes.projectedGVR =
      .ok gvk ∧ ∃ o ∈ w.listObjects (relatedSides remote local' relRes).2.client gvk ""
        (relatedCopySelector s.libs.hash remote.object remote.clusterName s.pubRes.name
          relRes.identifier s.agentName) 0, o.metadata.deletionTimestamp = none

theorem resolve_not_deletes {relatedOrigin relatedDest : ObjectSide} {live : Bool} {c : Call}
    (hc : c ∈ Fallible.calls (execCached S origin cache)
      (resolveRelatedResourceObjects s.libs relatedOrigin relatedDest scope live relRes) w) :
    ¬ Deletes c :=
  not_deletes_of_read (Prog.AllCalls.of_mem_calls resolveRelatedResourceObjects_allCalls hc).read

theorem prune_deletes_iff {dest : SyncSide} (hdest : dest.client ≠ origin) {gvk : TypeMeta}
    {selector : Selector} {policies : SortedMap String DeletionPropagation} {text : String}
    {requeue : Bool} :
    (∃ c ∈ Fallible.calls (execCached S origin cache) (do
        let pruned ← wrap text (pruneRelatedCopies scope dest gvk selector (some []) policies)
        return requeue || pruned) w, Deletes c) ↔
    ∃ o ∈ w.listObjects dest.client gvk "" selector 0, o.metadata.deletionTimestamp = none := by
  have hlist : execCached S origin cache ⟨scope, .list dest.client gvk "" selector 0 false⟩ w =
      (.ok (w.listObjects dest.client gvk "" selector 0), w) := if_neg hdest
  rw [Fallible.calls_bind_pure, wrap, Fallible.calls_mapError]
  simp only [mem_calls_prune execCached_delete hlist]
  constructor
  · rintro ⟨c, rfl | ⟨item, hlisted, rfl, -, hdying⟩, hdel⟩
    · exact absurd hdel (not_deletes_of_read rfl)
    · exact ⟨item, World.mem_of_listed (.inl rfl) hlisted, hdying⟩
  · rintro ⟨item, hmem, hdying⟩
    exact ⟨_, .inr ⟨item, World.listed_of_mem hmem, rfl, List.not_mem_nil, hdying⟩, _, _, rfl⟩

theorem cleanUp_deletes_iff {remote originSide dest : ObjectSide} {gvk : TypeMeta}
    (hpolicy : relRes.effectiveCleanupPolicy = .matchOrigin) (hdest : dest.client ≠ origin) :
    (∃ c ∈ Fallible.calls (execCached S origin cache)
      (s.cleanUpRelatedCopies scope remote originSide dest relRes false gvk [] false) w,
      Deletes c) ↔
    s.liveReader relRes.origin = true ∧
      (Fallible.eval (execCached S origin cache) (resolveRelatedResourceObjects s.libs
        originSide.withoutPath dest scope true relRes) w).1 = .ok [] ∧
      ∃ o ∈ w.listObjects dest.client gvk "" (relatedCopySelector s.libs.hash remote.object
        remote.clusterName s.pubRes.name relRes.identifier s.agentName) 0,
        o.metadata.deletionTimestamp = none := by
  -- the three answers of `confirmOriginEmpty`, each with the rest of the pass
  obtain ⟨rest, hbody, hnone, hfalse, htrue⟩ : ∃ rest : Option Bool → SyncM Bool,
      s.cleanUpRelatedCopies scope remote originSide dest relRes false gvk [] false =
        wrap "failed to confirm empty origin before pruning related copies"
          (s.confirmOriginEmpty scope originSide dest relRes) >>= rest ∧
      rest none = pure false ∧ rest (some false) = pure true ∧
      rest (some true) = (do
        let pruned ← wrap "failed to prune related copies" (pruneRelatedCopies scope dest.toSyncSide
          gvk (relatedCopySelector s.libs.hash remote.object remote.clusterName s.pubRes.name
            relRes.identifier s.agentName) (some []) (SortedMap.ofList []))
        return false || pruned) := by
    unfold cleanUpRelatedCopies
    rw [hpolicy]
    exact ⟨_, rfl, rfl, rfl, rfl⟩
  rw [hbody, Fallible.calls_bind, wrap, Fallible.eval_mapError, Fallible.calls_mapError]
  cases hreader : s.liveReader relRes.origin with
  | false =>
    have hconfirm : s.confirmOriginEmpty scope originSide dest relRes = pure none := by
      rw [confirmOriginEmpty, hreader]
      rfl
    simp [hconfirm, hnone, Fallible.eval_pure, Fallible.calls_pure, Except.mapError]
  | true =>
    have hconfirm : s.confirmOriginEmpty scope originSide dest relRes = (do
        let resolved ← resolveRelatedResourceObjects s.libs originSide.withoutPath dest scope true
          relRes
        return some resolved.isEmpty) := by
      rw [confirmOriginEmpty, hreader]
      rfl
    obtain ⟨selectors, hsel⟩ : ∃ selectors, (Fallible.eval (execCached S origin cache)
        (resolveRelatedResourceObjects s.libs originSide.withoutPath dest scope true relRes) w).2 =
          { w with selectors := selectors } :=
      eval_reads execCached_read
        (.mono resolveRelatedResourceObjects_allCalls fun c hc => hc.read) w
    have hcalls : ∀ l : List Call, (∃ c ∈ Fallible.calls (execCached S origin cache)
        (resolveRelatedResourceObjects s.libs originSide.withoutPath dest scope true relRes) w ++ l,
          Deletes c) ↔ ∃ c ∈ l, Deletes c := by
      intro l
      constructor
      · rintro ⟨c, hc, hdel⟩
        rcases List.mem_append.mp hc with hc | hc
        · exact absurd hdel (resolve_not_deletes hc)
        · exact ⟨c, hc, hdel⟩
      · rintro ⟨c, hc, hdel⟩
        exact ⟨c, List.mem_append_right _ hc, hdel⟩
    rw [hconfirm, Fallible.calls_bind_pure, Fallible.eval_bind, hcalls]
    rcases he : Fallible.eval (execCached S origin cache)
      (resolveRelatedResourceObjects s.libs originSide.withoutPath dest scope true relRes) w with
      ⟨e | found, w₂⟩
    · rw [he]
      simp [Except.mapError]
    · rw [he] at hsel ⊢
      obtain rfl : w₂ = { w with selectors := selectors } := hsel
      cases found with
      | nil =>
        simp only [Fallible.eval_pure, Except.mapError, List.isEmpty_nil, true_and, htrue]
        exact prune_deletes_iff hdest
      | cons o found =>
        simp [Fallible.eval_pure, Except.mapError, Fallible.calls_pure, hfalse]

/-- When the cache has none of the origin objects of a related resource with the policy MatchOrigin,
the pass over a live primary object deletes nothing, but for the full prune. -/
theorem stale_cache_deletes_nothing_iff (hclients : remote.client ≠ local'.client)
    (hpolicy : relRes.effectiveCleanupPolicy = .matchOrigin) {w₁ : World}
    (hcached : Fallible.eval (execCached S (relatedSides remote local' relRes).1.client cache)
      (resolveRelatedResourceObjects s.libs (relatedSides remote local' relRes).1
        (relatedSides remote local' relRes).2 { scope with identifier := some relRes.identifier }
        false relRes) w = (.ok [], w₁)) :
    (∀ c ∈ Fallible.calls (execCached S (relatedSides remote local' relRes).1.client cache)
      (s.processRelatedResource scope stateStore remote local' relRes false) w, ¬ Deletes c) ↔
    ¬ FullPrune S cache s scope remote local' relRes w w₁ := by
  have hne : (relatedSides remote local' relRes).2.client ≠
      (relatedSides remote local' relRes).1.client := by
    unfold relatedSides
    cases relRes.origin with
    | service => exact hclients
    | kcp => exact hclients.symm
  obtain ⟨selectors, rfl⟩ : ∃ selectors, w₁ = { w with selectors := selectors } := by
    have hafter : w₁ = _ := (congrArg Prod.snd hcached).symm
    rw [hafter]
    exact eval_reads execCached_read
      (.mono resolveRelatedResourceObjects_allCalls fun c hc => hc.read) w
  have hresolve :
      ∀ c ∈ Fallible.calls (execCached S (relatedSides remote local' relRes).1.client cache)
      (wrap "failed to get resolve origin objects" (resolveRelatedResourceObjects s.libs
        (relatedSides remote local' relRes).1 (relatedSides remote local' relRes).2
        { scope with identifier := some relRes.identifier } false relRes)) w, ¬ Deletes c := by
    intro c hc
    rw [wrap, Fallible.calls_mapError] at hc
    exact resolve_not_deletes hc
  have hwrapped : Fallible.eval (execCached S (relatedSides remote local' relRes).1.client cache)
      (wrap "failed to get resolve origin objects" (resolveRelatedResourceObjects s.libs
        (relatedSides remote local' relRes).1 (relatedSides remote local' relRes).2
        { scope with identifier := some relRes.identifier } false relRes)) w =
      (.ok [], { w with selectors := selectors }) := by
    rw [wrap, Fallible.eval_mapError, hcached]
    rfl
  have hcalls :
      (∀ c ∈ Fallible.calls (execCached S (relatedSides remote local' relRes).1.client cache)
      (s.processRelatedResource scope stateStore remote local' relRes false) w, ¬ Deletes c) ↔
      ∀ gvk, s.libs.kindFor (relatedSides remote local' relRes).2.client relRes.projectedGVR =
        .ok gvk → ¬ ∃ c ∈ Fallible.calls
          (execCached S (relatedSides remote local' relRes).1.client cache)
          (s.cleanUpRelatedCopies { scope with identifier := some relRes.identifier } remote
            (relatedSides remote local' relRes).1 (relatedSides remote local' relRes).2 relRes false
            gvk [] false) { w with selectors := selectors }, Deletes c := by
    rw [processRelatedResource, Fallible.calls_bind, hwrapped]
    simp only [List.insertionSort_nil, Fallible.forEach, List.forall_mem_append]
    rw [and_iff_right hresolve]
    cases hkind :
        s.libs.kindFor (relatedSides remote local' relRes).2.client relRes.projectedGVR with
    | error e =>
      refine iff_of_true (fun c hc => ?_) fun gvk h => by cases h
      cases hc
    | ok gvk =>
      -- nothing was resolved, so nothing is synced or remembered
      have hrest : ∀ (p : SyncM Bool) (w' : World), p = pure false →
          Fallible.calls (execCached S (relatedSides remote local' relRes).1.client cache) (do
            let projectedGVK ← wrapE "failed to lookup" (Except.mapError Error.api (Except.ok gvk))
            let requeues ← (pure [] : SyncM (List Bool))
            let remembered ← p
            if remembered = true then pure true
            else
              s.cleanUpRelatedCopies { scope with identifier := some relRes.identifier } remote
                (relatedSides remote local' relRes).1 (relatedSides remote local' relRes).2 relRes
                false projectedGVK [] (requeues.any id)) w' =
          Fallible.calls (execCached S (relatedSides remote local' relRes).1.client cache)
            (s.cleanUpRelatedCopies { scope with identifier := some relRes.identifier } remote
              (relatedSides remote local' relRes).1
              (relatedSides remote local' relRes).2 relRes false
              gvk [] false) w' := by
        rintro _ w' rfl
        rfl
      rw [hrest]
      · constructor
        · rintro h gvk' hgvk ⟨c, hc, hdel⟩
          cases hgvk
          exact h c hc hdel
        · intro h c hc hdel
          exact h gvk rfl ⟨c, hc, hdel⟩
      · split
        · rw [rememberRelatedObjects, if_pos rfl]
        · rfl
  rw [hcalls]
  constructor
  · rintro h ⟨hreader, hconfirmed, gvk, hkind, hcopies⟩
    exact h gvk hkind ((cleanUp_deletes_iff hpolicy hne).mpr ⟨hreader, hconfirmed, hcopies⟩)
  · intro h gvk hkind hdel
    obtain ⟨hreader, hconfirmed, hcopies⟩ := (cleanUp_deletes_iff hpolicy hne).mp hdel
    exact h ⟨hreader, hconfirmed, gvk, hkind, hcopies⟩

/-! ### A stale cache -/

/-- A Secret of the workspace, by a template for its name. -/
def secretNamed (template : String) : RelatedResourceSpec :=
  { identifier := "creds", origin := .kcp, kind := "Secret", cleanupPolicy := some .matchOrigin
    object := { object := { template := some ⟨template⟩ } } }

def sampleSyncer : ResourceSyncer := (Primary.sample []).syncer

/-- The two primary objects. -/
def sampleRemote : ObjectSide := ⟨remoteSide "c1" "root", crontab "team-a"⟩

def sampleLocal : ObjectSide := ⟨localSide, crontab "tenant"⟩

/-- The Secret of the workspace and its copy. -/
def secretsWorld : World :=
  (World.empty.put (.remoteClient "c1") ⟨.secret,
    { name := "root", ns := "team-a" }, default⟩).put .localClient ⟨.secret,
    { name := "root", ns := "tenant", labels := relatedCopyLabels .plain (crontab "team-a") "c1"
        "crontabs" "creds" "agent" }, default⟩

def sampleScope : Scope := { cluster := "c1", ns := "team-a", name := "daily" }

/-- The resolution of the Secret, with an empty cache. -/
def resolveSecret (origin : ObjectSide) (live : Bool) (template : String) (w : World) :
    Except Error (List ResolvedObject) × World :=
  Fallible.eval (execCached .setting (.remoteClient "c1") .empty)
    (resolveRelatedResourceObjects sampleSyncer.libs origin sampleLocal
      { sampleScope with identifier := some "creds" } live (secretNamed template)) w

/-- The calls of a pass with an empty cache. -/
def secretCalls (template : String) : List Call :=
  Fallible.calls (execCached .setting (.remoteClient "c1") .empty)
    (sampleSyncer.processRelatedResource sampleScope
      ⟨⟨"system", "state"⟩, ∅⟩ sampleRemote sampleLocal
      (secretNamed template) false) secretsWorld

/-- The number of objects that were found. -/
def count (r : Except Error (List ResolvedObject)) : Option Nat := r.toOption.map List.length

theorem eq_nil_of_count {r : Except Error (List ResolvedObject)} (h : count r = some 0) :
    r = .ok [] := by
  cases r with
  | error e => cases h
  | ok found =>
    obtain rfl : found = [] := List.length_eq_zero_iff.mp (Option.some.inj h)
    rfl

theorem stale_cache_root :
    (resolveSecret sampleRemote false "root" secretsWorld).1 = .ok [] ∧
    ¬ ∃ c ∈ secretCalls "root", Deletes c := by
  have hcached : (resolveSecret sampleRemote false "root" secretsWorld).1 = .ok [] :=
    eq_nil_of_count (by decide +kernel)
  have hlive : count (resolveSecret sampleRemote.withoutPath true "root"
      (resolveSecret sampleRemote false "root" secretsWorld).2).1 = some 1 := by decide +kernel
  have hclients : sampleRemote.client ≠ sampleLocal.client := by decide
  have hwhole : Fallible.eval (execCached .setting
      (relatedSides sampleRemote sampleLocal (secretNamed "root")).1.client .empty)
      (resolveRelatedResourceObjects sampleSyncer.libs
        (relatedSides sampleRemote sampleLocal (secretNamed "root")).1
        (relatedSides sampleRemote sampleLocal (secretNamed "root")).2
        { sampleScope with identifier := some (secretNamed "root").identifier } false
        (secretNamed "root")) secretsWorld =
      (.ok [], (resolveSecret sampleRemote false "root" secretsWorld).2) := Prod.ext hcached rfl
  refine ⟨hcached, fun ⟨c, hc, hdel⟩ => ?_⟩
  refine (stale_cache_deletes_nothing_iff hclients rfl hwhole).mpr (fun h => ?_) c hc hdel
  have hnone : count (resolveSecret sampleRemote.withoutPath true "root"
      (resolveSecret sampleRemote false "root" secretsWorld).2).1 = some 0 :=
    congrArg count h.confirmed
  rw [hlive] at hnone
  cases hnone

/-- The Secret is named after the path of the workspace.  The live reader sees it, but it is looked
for without the path, and its copy is deleted. -/
theorem stale_cache_deletes :
    (resolveSecret sampleRemote false "\x7b\x7b .ClusterPath \x7d\x7d" secretsWorld).1 = .ok [] ∧
    count (resolveSecret sampleRemote true "\x7b\x7b .ClusterPath \x7d\x7d" secretsWorld).1 =
      some 1 ∧
    ∃ c ∈ secretCalls "\x7b\x7b .ClusterPath \x7d\x7d", Deletes c := by
  have htest : ((secretCalls "\x7b\x7b .ClusterPath \x7d\x7d").any fun c => match c.verb with
      | .delete _ _ => true
      | _ => false) = true := by decide +kernel
  refine ⟨eq_nil_of_count (by decide +kernel), by decide +kernel, ?_⟩
  obtain ⟨c, hc, hdel⟩ := List.any_eq_true.mp htest
  refine ⟨c, hc, ?_⟩
  split at hdel
  · next id policy hverb => exact ⟨id, policy, hverb⟩
  · cases hdel

end ResourceSyncer

end Sync
