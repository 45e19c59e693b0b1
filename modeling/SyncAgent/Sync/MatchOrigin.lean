import SyncAgent.Sync.Completion

/-! The clean-up policy `MatchOrigin`: when `Process` returns without asking for a requeue, the
copies with the provenance labels of a related resource are those of the objects that were
resolved. -/

namespace Sync

open Kube

theorem relatedCopyKey_inj {a b : NamespacedName} (hns : '/' ∉ a.ns.toList)
    (hname : '/' ∉ a.name.toList) (h : relatedCopyKey a = relatedCopyKey b) : a = b := by
  have hlist : a.ns.toList ++ '/' :: a.name.toList = b.ns.toList ++ '/' :: b.name.toList := by
    simpa [relatedCopyKey] using congrArg String.toList h
  obtain ⟨hns', -, hname'⟩ := (List.append_cons_inj_of_notMem hns hname).mp hlist
  cases a
  cases b
  cases String.toList_inj.mp hns'
  cases String.toList_inj.mp hname'
  rfl

/-- The rules for the status leave the metadata alone, as `Mutator` requires of them. -/
def Mutator.KeepsMetadata (m : Mutator) : Prop :=
  ∀ dest source dest', m.mutateStatus dest source = .ok dest' → dest'.metadata = dest.metadata

theorem ObjectSyncer.metadata_of_applyMutations {σ : ObjectSyncer}
    {source d mutated d' : Unstructured}
    (h : σ.applyMutations source (some d) = .ok (mutated, some d'))
    (hσ : ∀ m, σ.mutator = some m → m.KeepsMetadata) : d'.metadata = d.metadata := by
  have hstatus := mutateStatus_of_applyMutations h
  unfold mutateStatus at hstatus
  cases hmutator : σ.mutator with
  | none =>
    rw [hmutator] at hstatus
    cases hstatus
    rfl
  | some m =>
    rw [hmutator] at hstatus
    exact hσ m hmutator d mutated d' hstatus

theorem ObjectSyncer.Stamped.labels {σ : ObjectSyncer} {o : Unstructured} (h : σ.Stamped o) :
    o.metadata.labels.Contains σ.destLabels := by
  have hlabels : o.metadata.labels.insertAll σ.destLabels = o.metadata.labels := h.1
  rw [← hlabels]
  exact SortedMap.contains_insertAll _ _

/-- The names in a world are such that an API server accepts: none has a slash. -/
def PlainNames (w : World) : Prop :=
  ∀ id o, w.object? id = some o → '/' ∉ o.metadata.ns.toList ∧ '/' ∉ o.metadata.name.toList

namespace Primary

variable (P : Primary)

/-- The API server with the copies of a related resource. -/
def copyClient (relRes : RelatedResourceSpec) : Client :=
  match relRes.origin with
  | .kcp => .localClient
  | .service => .remoteClient P.clusterName

/-- The selector for the copies of a related resource. -/
def relatedSelector (r : Unstructured) (relRes : RelatedResourceSpec) : Selector :=
  relatedCopySelector P.syncer.libs.hash r P.clusterName P.syncer.pubRes.name relRes.identifier
    P.syncer.agentName

/-- The copies of a related resource are those of the objects that were found: every copy belongs to
one of them, and each that is not in deletion has a copy, unless there was one in deletion in
`w₀`. -/
structure MatchesOrigin (r : Unstructured) (relRes : RelatedResourceSpec) (gvk : TypeMeta)
    (found : List ResolvedObject) (w₀ w : World) : Prop where
  copies : ∀ o, w.Listed (P.copyClient relRes) gvk "" (P.relatedSelector r relRes) o →
    ∃ resolved ∈ found, objectKeyFromObject o = resolved.destination
  origins : ∀ resolved ∈ found, resolved.original.metadata.deletionTimestamp = none →
    ∀ id : ObjectId, id =
      ⟨P.copyClient relRes, gvk, resolved.destination.ns, resolved.destination.name⟩ →
    (∀ o, w₀.object? id = some o → o.metadata.deletionTimestamp = none) →
    ∃ o, w.object? id = some o ∧ P.relatedSelector r relRes o.metadata.labels = true

section Processed

variable {P} {r r₁ l : Unstructured} {relRes : RelatedResourceSpec} {gvk : TypeMeta}
  {found : List ResolvedObject} {w wa w₁ w₂ wb w' : World}

theorem copyClient_eq (r₁ l : Unstructured) : (ResourceSyncer.relatedSides
    ⟨ResourceSyncer.remoteSide P.clusterName P.workspacePath, r₁⟩ ⟨ResourceSyncer.localSide, l⟩
    relRes).2.client = P.copyClient relRes := by
  unfold ResourceSyncer.relatedSides copyClient
  cases relRes.origin <;> rfl

theorem relatedSelector_eq (hns : r₁.metadata.ns = r.metadata.ns)
    (hname : r₁.metadata.name = r.metadata.name) :
    P.relatedSelector r₁ relRes = P.relatedSelector r relRes := by
  unfold relatedSelector relatedCopySelector relatedCopyLabels
  rw [hns, hname]

variable (hns : r₁.metadata.ns = r.metadata.ns) (hname : r₁.metadata.name = r.metadata.name)
  (hmerge : P.syncer.useServerSideApply = false)
  (h : ResourceSyncer.Processed P.server P.syncer P.scope P.store
    ⟨ResourceSyncer.remoteSide P.clusterName P.workspacePath, r₁⟩ ⟨ResourceSyncer.localSide, l⟩
    relRes false found gvk wa w₁ w₂ wb)
  (hafter : wb.StatusOnly w')

include hns hname h hafter

theorem copies_of_processed (hpolicy : relRes.effectiveCleanupPolicy = .matchOrigin)
    (hreader : P.syncer.liveReader relRes.origin = true) (hnames : PlainNames w')
    {o : Unstructured}
    (ho : w'.Listed (P.copyClient relRes) gvk "" (P.relatedSelector r relRes) o) :
    ∃ resolved ∈ found, objectKeyFromObject o = resolved.destination := by
  obtain ⟨-, selectors, rfl⟩ := ResourceSyncer.cleanUpRelatedCopies_false h.cleaned
  obtain ⟨o₁, ho₁, heq⟩ := hafter.old _ o ho.object
  have hid : o₁.idOn (P.copyClient relRes) = o.idOn (P.copyClient relRes) :=
    World.idOn_of_object? ho₁
  have hmeta : ∀ {α : Type} (f : ObjectMeta → α), (∀ m, f { m with resourceVersion := 0 } = f m) →
      f o₁.metadata = f o.metadata := by
    intro α f hf
    rw [← hf o₁.metadata, ← hf o.metadata]
    exact congrArg (fun x : Unstructured => f x.metadata) heq.symm
  have hlisted : w₂.Listed (P.copyClient relRes) gvk "" (P.relatedSelector r₁ relRes) o₁ := by
    refine ⟨hid ▸ ho₁, (congrArg ObjectId.typeMeta hid).trans ho.typeMeta, .inl rfl, ?_⟩
    rw [relatedSelector_eq hns hname, hmeta (·.labels) fun _ => rfl]
    exact ho.selector
  rw [← copyClient_eq r₁ l] at hlisted
  obtain ⟨resolved, hresolved, hkey⟩ :=
    ResourceSyncer.cleanUpRelatedCopies_matchOrigin h.cleaned rfl
    hpolicy hreader hlisted
  have hsame : objectKeyFromObject o₁ = objectKeyFromObject o := by
    unfold objectKeyFromObject
    rw [hmeta (·.ns) fun _ => rfl, hmeta (·.name) fun _ => rfl]
  obtain ⟨hplainNs, hplainName⟩ := hnames _ o ho.object
  refine ⟨resolved, (List.perm_insertionSort _ found).mem_iff.mp hresolved, ?_⟩
  exact relatedCopyKey_inj hplainNs hplainName (hsame ▸ hkey)

include hmerge

theorem origins_of_processed (hbefore : w.StatusOnly wa)
    (hmutator : ∀ m, P.syncer.relatedMutators relRes.identifier = some m → m.KeepsMetadata)
    {resolved : ResolvedObject} (hresolved : resolved ∈ found)
    (hlive : resolved.original.metadata.deletionTimestamp = none)
    (hcopy : ∀ o, w.object? ⟨P.copyClient relRes, gvk, resolved.destination.ns,
      resolved.destination.name⟩ = some o → o.metadata.deletionTimestamp = none) :
    ∃ o, w'.object? ⟨P.copyClient relRes, gvk, resolved.destination.ns,
      resolved.destination.name⟩ = some o ∧
      P.relatedSelector r relRes o.metadata.labels = true := by
  have hsides : (ResourceSyncer.remoteSide P.clusterName P.workspacePath).client ≠
      ResourceSyncer.localSide.client := fun h => by cases h
  obtain ⟨selectors, rfl⟩ :=
    h.resolved.of_reads (.mono resolveRelatedResourceObjects_allCalls fun c hc => hc.read)
  obtain ⟨-, selectors', rfl⟩ := ResourceSyncer.cleanUpRelatedCopies_false h.cleaned
  obtain ⟨wc, wd, hearlier, hsettled, hlater⟩ := (ResourceSyncer.settled_of_each hsides hmerge
    h.synced).2 resolved ((List.perm_insertionSort _ found).mem_iff.mpr hresolved)
  have hresolve : wa.StatusOnly { wa with selectors := selectors } :=
    .of_objects (fun _ => rfl) fun _ => rfl
  have hclean : w₂.StatusOnly { w₂ with selectors := selectors' } :=
    .of_objects (fun _ => rfl) fun _ => rfl
  have hstart : w.StatusOnly wc := hbefore.trans (hresolve.trans hearlier)
  have hend : wd.StatusOnly w' := hlater.trans (hclean.trans hafter)
  rw [← copyClient_eq r₁ l] at hcopy ⊢
  cases hsettled with
  | deleting hdel =>
    rcases hdel with hdying | hforce
    · have hdying' : resolved.original.metadata.deletionTimestamp.isSome = true := hdying
      rw [hlive] at hdying'
      cases hdying'
    · cases hforce
  | @dying d _ _ _ hd hmutations hdying =>
    obtain ⟨o, ho, heq⟩ := hstart.old _ d hd
    have hsame : d.metadata.deletionTimestamp = o.metadata.deletionTimestamp :=
      congrArg (·.metadata.deletionTimestamp) heq
    rw [ObjectSyncer.metadata_of_applyMutations hmutations hmutator, hsame, hcopy o ho] at hdying
    cases hdying
  | @clean d _ d' _ _ hd hmutations hd'live hstamped _ hforward =>
    have hmeta := ObjectSyncer.metadata_of_applyMutations hmutations hmutator
    rw [hmeta] at hd'live
    obtain ⟨o, ho, heq⟩ := (hforward.statusOnly.trans hend).kept _ d hd hd'live
    refine ⟨o, ho, ?_⟩
    have hlabels : o.metadata.labels = d'.metadata.labels := by
      rw [hmeta]
      exact congrArg (·.metadata.labels) heq
    rw [hlabels, ← relatedSelector_eq hns hname]
    exact selectorFromSet_iff.mpr hstamped.labels

end Processed

/-- When `Process` returns without asking for a requeue for a live primary object in merge mode, the
copies of each related resource with the policy `MatchOrigin` are those of the objects that the call
has resolved. -/
theorem matches_origin {r : Unstructured} {w w' : World} (hr : w.object? P.id = some r)
    (hlive : r.metadata.deletionTimestamp = none)
    (hmerge : P.syncer.useServerSideApply = false) (hnames : PlainNames w)
    (h : Returns P.server (P.syncer.process P.clusterName P.workspacePath r) w false w')
    {relRes : RelatedResourceSpec} (hrel : relRes ∈ P.syncer.pubRes.related)
    (hpolicy : relRes.effectiveCleanupPolicy = .matchOrigin)
    (hreader : P.syncer.liveReader relRes.origin = true)
    (hmutator : ∀ m, P.syncer.relatedMutators relRes.identifier = some m → m.KeepsMetadata) :
    ∃ l r₁ found gvk wa w₁ w₂ wb, P.syncer.copies P.clusterName P.workspacePath r w = [l] ∧
      w.StatusOnly wa ∧ ResourceSyncer.Processed P.server P.syncer P.scope P.store
        ⟨ResourceSyncer.remoteSide P.clusterName P.workspacePath, r₁⟩ ⟨ResourceSyncer.localSide, l⟩
        relRes false found gvk wa w₁ w₂ wb ∧
      wb.StatusOnly w' ∧ P.MatchesOrigin r relRes gvk found w w' := by
  have hid := World.idOn_of_object? hr
  have hdone := ResourceSyncer.process_false hlive h
  rw [scope_eq hid, stateStore_eq hid] at hdone
  rcases hdone with ⟨-, r₁, hsynced⟩ | ⟨l, r₁, w₁, hcopies, hsynced, heach⟩
  · exact absurd hsynced (no_completion_of_merge hr hlive hmerge)
  · have hsides : (ResourceSyncer.remoteSide P.clusterName P.workspacePath).client ≠
        ResourceSyncer.localSide.client := fun h => by cases h
    have hsame := remote_of_merge hr hlive hmerge hsynced
    have hns : r₁.metadata.ns = r.metadata.ns := congrArg (·.metadata.ns) hsame
    have hname : r₁.metadata.name = r.metadata.name := congrArg (·.metadata.name) hsame
    obtain ⟨hfirst, -, -⟩ := synced_of_merge hr hlive hmerge hsynced
    obtain ⟨hrest, hall⟩ := ResourceSyncer.processed_of_each hsides hmerge heach
    obtain ⟨found, gvk, wa, w₂, w₃, wb, hbefore, hprocessed, -, hafter⟩ := hall relRes hrel
    have hnames' : PlainNames w' := by
      intro id o ho
      obtain ⟨o₀, ho₀, heq⟩ := (hfirst.trans hrest).old id o ho
      obtain ⟨hplainNs, hplainName⟩ := hnames id o₀ ho₀
      rw [show o.metadata.ns = o₀.metadata.ns from congrArg (·.metadata.ns) heq,
        show o.metadata.name = o₀.metadata.name from congrArg (·.metadata.name) heq]
      exact ⟨hplainNs, hplainName⟩
    refine ⟨l, r₁, found, gvk, wa, w₂, w₃, wb, hcopies, hfirst.trans hbefore, hprocessed, hafter,
      fun o ho => copies_of_processed hns hname hprocessed hafter hpolicy hreader hnames' ho, ?_⟩
    rintro resolved hresolved horigin id rfl hcopy
    exact origins_of_processed hns hname hmerge hprocessed hafter (hfirst.trans hbefore) hmutator
      hresolved horigin hcopy

/-- A Secret of the workspace. -/
def creds : RelatedResourceSpec :=
  { identifier := "creds", origin := .kcp, kind := "Secret", cleanupPolicy := some .matchOrigin
    object := { object := { template := some ⟨"creds"⟩ } } }

/-- The sample after two calls of `Process`, which have created the two copies. -/
def credsWorld : World :=
  let pass : World → World := (sample [creds]).afterPass Blocker.execAll
  pass (pass ((sampleWorld ∅ default).put (.remoteClient "c1")
    ⟨.secret,
      { name := "creds", ns := "team-a", finalizers := [deletionFinalizer] }, default⟩))

theorem matches_origin_creds : ∃ r w' gvk found,
    credsWorld.object? (sample [creds]).id = some r ∧
    Returns .setting ((sample [creds]).syncer.process "c1" "root" r) credsWorld false w' ∧
    (sample [creds]).MatchesOrigin r creds gvk found credsWorld w' := by
  have htest : (credsWorld.object? (sample [creds]).id).any (fun r =>
      decide (r.metadata.deletionTimestamp = none) && decide ((Fallible.eval (exec .setting)
        ((sample [creds]).syncer.process "c1" "root" r) credsWorld).1.toOption = some false) &&
      credsWorld.objects.entries.all fun e => decide ('/' ∉ e.2.metadata.ns.toList) &&
        decide ('/' ∉ e.2.metadata.name.toList)) = true := by decide +kernel
  rw [Option.any_eq_true] at htest
  obtain ⟨r, hr, hall⟩ := htest
  simp only [Bool.and_eq_true, decide_eq_true_eq, List.all_eq_true] at hall
  obtain ⟨⟨hlive, hresult⟩, hplain⟩ := hall
  have hnames : PlainNames credsWorld := fun id o ho => hplain ⟨id, o⟩ (AList.mem_lookup_iff.mp ho)
  have hreturns : Returns .setting ((sample [creds]).syncer.process "c1" "root" r) credsWorld false
      _ := .of_eval (Returns.ok_of_toOption hresult)
  obtain ⟨-, -, found, gvk, -, -, -, -, -, -, -, -, hmatches⟩ := (sample [creds]).matches_origin hr
    hlive rfl hnames hreturns (List.mem_singleton_self creds) rfl rfl (fun m hm => by cases hm)
  exact ⟨r, _, gvk, found, hr, hreturns, hmatches⟩

end Primary

end Sync
