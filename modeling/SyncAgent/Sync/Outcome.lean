import SyncAgent.Sync.Link

/-! What `Sync` has done when it returns without an error and nobody else wrote anything during the
call.  For each function there is a relation with one constructor for each way through it, and a
theorem that says that these are all. -/

namespace Sync

open Kube

/-- With nobody else writing, the program returns `a` from `w` and leaves `w'`. -/
def Returns (S : Server) {α : Type} (p : SyncM α) (w : World) (a : α) (w' : World) : Prop :=
  Fallible.eval (exec S) p w = (.ok a, w')

namespace Returns

variable {S : Server} {α β : Type} {w w' : World} {scope : Scope}

theorem ok_of_toOption {result : Except Error α} {a : α} (h : result.toOption = some a) :
    result = .ok a := by
  cases result with
  | error e => cases h
  | ok b =>
    cases h
    rfl

theorem of_eval {p : SyncM α} {a : α} (h : (Fallible.eval (exec S) p w).1 = .ok a) :
    Returns S p w a (Fallible.eval (exec S) p w).2 := Prod.ext h rfl

theorem unique {p : SyncM α} {a b : α} {w₁ : World} (h : Returns S p w a w')
    (h' : Returns S p w b w₁) : a = b ∧ w' = w₁ := by
  obtain ⟨ha, hw⟩ := Prod.mk.inj (Eq.trans (Eq.symm h) h')
  exact ⟨Except.ok.inj ha, hw⟩

theorem bind {p : SyncM α} {f : α → SyncM β} {b : β} (h : Returns S (p >>= f) w b w') :
    ∃ a w₁, Returns S p w a w₁ ∧ Returns S (f a) w₁ b w' :=
  Fallible.eval_bind_ok _ h

theorem pure {a b : α} (h : Returns S (Pure.pure a) w b w') : b = a ∧ w' = w := by
  cases h
  exact ⟨rfl, rfl⟩

theorem throw {e : Error} {a : α} (h : Returns S (throw e) w a w') : False := by
  cases h

theorem wrap {text : String} {p : SyncM α} {a : α} (h : Returns S (wrap text p) w a w') :
    Returns S p w a w' :=
  Fallible.eval_mapError_ok _ h

theorem wrapE {text : String} {r : Except Error α} {a : α} (h : Returns S (wrapE text r) w a w') :
    r = .ok a ∧ w' = w := by
  cases r with
  | error e => cases h
  | ok b =>
    cases h
    exact ⟨rfl, rfl⟩

theorem ofExcept {r : Except Error α} {a : α} (h : Returns S (ExceptT.mk (.pure r)) w a w') :
    r = .ok a ∧ w' = w := by
  cases h
  exact ⟨rfl, rfl⟩

theorem request {verb : Verb} {r : verb.Resp} (h : Returns S (request scope verb) w r w') :
    exec S ⟨scope, verb⟩ w = (r, w') := by
  cases h
  rfl

theorem sendE {c : Call} {h : c.verb.Resp → Except Error α} {a : α}
    (hsend : Returns S (Fallible.sendE (I := api) c h) w a w') :
    ∃ r, exec S c w = (r, w') ∧ h r = .ok a := by
  have heval : (h (exec S c w).1, (exec S c w).2) = (Except.ok a, w') := hsend
  rw [Prod.mk.injEq] at heval
  exact ⟨(exec S c w).1, by rw [← heval.2], heval.1⟩

theorem patch {id : ObjectId} {fields : Fields} {o : Unstructured}
    (h : Returns S (patch scope id fields) w o w') :
    exec S ⟨scope, .patch id fields⟩ w = (.ok o, w') := by
  obtain ⟨r, hexec, hr⟩ := sendE h
  rw [hexec, ok_of_mapError hr]

theorem of_patch {id : ObjectId} {fields : Fields} {o : Unstructured}
    (h : exec S ⟨scope, .patch id fields⟩ w = (.ok o, w')) :
    Returns S (Sync.patch scope id fields) w o w' := by
  rw [Returns, Sync.patch, Fallible.eval_sendE, h]
  rfl

theorem update {client : Client} {obj o : Unstructured}
    (h : Returns S (update scope client obj) w o w') :
    exec S ⟨scope, .update client obj⟩ w = (.ok o, w') := by
  obtain ⟨r, hexec, hr⟩ := sendE h
  rw [hexec, ok_of_mapError hr]

theorem apply {client : Client} {obj o : Unstructured} {fieldManager : String}
    (h : Returns S (apply scope client obj fieldManager) w o w') :
    exec S ⟨scope, .apply client obj fieldManager⟩ w = (.ok o, w') := by
  obtain ⟨r, hexec, hr⟩ := sendE h
  rw [hexec, ok_of_mapError hr]

theorem get {id : ObjectId} {live : Bool} {o : Unstructured}
    (h : Returns S (get scope id live) w o w') : w.object? id = some o ∧ w' = w := by
  obtain ⟨r, hexec, hr⟩ := sendE h
  obtain ⟨rfl, rfl⟩ := Prod.mk.inj hexec
  have hfound := ok_of_mapError hr
  cases hobj : w.object? id with
  | none =>
    rw [hobj] at hfound
    cases hfound
  | some o' =>
    rw [hobj] at hfound
    cases hfound
    exact ⟨rfl, rfl⟩

theorem list {client : Client} {typeMeta : TypeMeta} {ns : String} {selector : Selector}
    {limit : Nat} {live : Bool} {items : List Unstructured}
    (h : Returns S (list scope client typeMeta ns selector limit live) w items w') :
    items = w.listObjects client typeMeta ns selector limit ∧ w' = w := by
  cases h
  exact ⟨rfl, rfl⟩

/-- The programs of a list, one after another. -/
inductive Each (S : Server) (f : α → SyncM β) : List α → World → List β → World → Prop
  | nil {w : World} : Each S f [] w [] w
  | cons {a : α} {rest : List α} {b : β} {bs : List β} {w w₁ w' : World} :
      Returns S (f a) w b w₁ → Each S f rest w₁ bs w' → Each S f (a :: rest) w (b :: bs) w'

theorem Each.keeps {f : α → SyncM β} {g : α → β} {J : World → Prop} {l : List α}
    (hJ : ∀ a ∈ l, ∀ w w', Returns S (f a) w (g a) w' → J w → J w')
    (h : Each S f l w (l.map g) w') (hw : J w) : J w' := by
  induction l generalizing w with
  | nil =>
    cases h
    exact hw
  | cons b rest ih =>
    cases h with
    | cons hfirst hrest =>
      exact ih (fun a ha => hJ a (List.mem_cons_of_mem b ha)) hrest
        (hJ b List.mem_cons_self _ _ hfirst hw)

theorem Each.exists_at {f : α → SyncM β} {g : α → β} {J : World → Prop}
    {before after : List α} {a : α}
    (hJ : ∀ a' ∈ before, ∀ w w', Returns S (f a') w (g a') w' → J w → J w')
    (h : Each S f (before ++ a :: after) w ((before ++ a :: after).map g) w') (hw : J w) :
    ∃ w₁ w₂, Each S f before w (before.map g) w₁ ∧ Returns S (f a) w₁ (g a) w₂ ∧ J w₁ := by
  induction before generalizing w with
  | nil =>
    cases h with
    | cons hfirst _ => exact ⟨_, _, .nil, hfirst, hw⟩
  | cons b rest ih =>
    cases h with
    | cons hfirst hrest =>
      obtain ⟨w₁, w₂, hbefore, hat, hw₁⟩ :=
        ih (fun a' ha' => hJ a' (List.mem_cons_of_mem b ha')) hrest
        (hJ b List.mem_cons_self _ _ hfirst hw)
      exact ⟨w₁, w₂, .cons hfirst hbefore, hat, hw₁⟩

theorem Each.split {f : α → SyncM β} {before after : List α} {a : α} {g : α → β} {w₁ : World}
    (h : Each S f (before ++ a :: after) w ((before ++ a :: after).map g) w')
    (hbefore : Each S f before w (before.map g) w₁) :
    ∃ w₂, Returns S (f a) w₁ (g a) w₂ ∧ Each S f after w₂ (after.map g) w' := by
  induction before generalizing w with
  | nil =>
    cases hbefore
    cases h with
    | cons hfirst hrest => exact ⟨_, hfirst, hrest⟩
  | cons b rest ih =>
    cases h with
    | cons hfirst hrest =>
      cases hbefore with
      | cons hfirst' hrest' =>
        obtain rfl := (hfirst.unique hfirst').2
        exact ih hrest hrest'

theorem forEach {f : α → SyncM β} {l : List α} {bs : List β}
    (h : Returns S (Fallible.forEach f l) w bs w') : Each S f l w bs w' := by
  induction l generalizing w bs with
  | nil =>
    obtain ⟨rfl, rfl⟩ := h.pure
    exact .nil
  | cons a rest ih =>
    obtain ⟨b, w₁, hfirst, hrest⟩ := h.bind
    obtain ⟨bs', w₂, htail, hend⟩ := hrest.bind
    obtain ⟨rfl, rfl⟩ := hend.pure
    exact .cons hfirst (ih htail)

theorem Each.map_false {f : α → SyncM Bool} {l : List α} {bs : List Bool}
    (h : Each S f l w bs w') (hbs : bs.any id = false) :
    Each S f l w (l.map fun _ => false) w' := by
  induction h with
  | nil => exact .nil
  | @cons a rest b bs w w₁ w' hfirst _ ih =>
    obtain ⟨rfl, hrest⟩ : b = false ∧ bs.any id = false := by simpa using hbs
    exact .cons hfirst (ih hrest)

theorem held {p : SyncM α} {a : α} (h : Returns S p w a w') (hw : w.Held) : w'.Held := by
  have hheld : (Prog.eval (exec S) p.run w).2.Held :=
    Prog.eval_invariant (fun c _ hs => hs.exec c) _ hw
  rwa [show Prog.eval (exec S) p.run w = (.ok a, w') from h] at hheld

theorem Each.held {f : α → SyncM β} {l : List α} {bs : List β} (h : Each S f l w bs w')
    (hw : w.Held) : w'.Held := by
  induction h with
  | nil => exact hw
  | cons hfirst _ ih => exact ih (hfirst.held hw)

/-- A program that writes to no API server. -/
theorem of_reads {p : SyncM α} {a : α} (hp : p.AllCalls fun c : Call => c.failure = none)
    (h : Returns S p w a w') : ∃ selectors, w' = { w with selectors := selectors } := by
  obtain ⟨selectors, hsel⟩ := eval_reads (fun c hc w => exec_of_failure_eq_none (S := S) hc w) hp w
  rw [h] at hsel
  exact ⟨selectors, hsel⟩

/-- Programs that write to no API server all see the same objects. -/
theorem Each.forall₂ {f : α → SyncM β} {l : List α} {bs : List β}
    (hf : ∀ a, (f a).AllCalls fun c : Call => c.failure = none) (h : Each S f l w bs w') :
    List.Forall₂ (fun a b => ∃ selectors w₁, Returns S (f a) { w with selectors := selectors } b w₁)
      l bs := by
  have hall : ∀ {l bs w₀ w'}, Each S f l w₀ bs w' →
    (∃ selectors, w₀ = { w with selectors := selectors }) →
      List.Forall₂ (fun a b => ∃ selectors w₁,
        Returns S (f a) { w with selectors := selectors } b w₁) l bs := by
    intro l bs w₀ w' h
    induction h with
    | nil => exact fun _ => .nil
    | cons hfirst _ ih =>
      rintro ⟨selectors, rfl⟩
      obtain ⟨selectors', rfl⟩ := hfirst.of_reads (hf _)
      exact .cons ⟨selectors, _, hfirst⟩ (ih ⟨selectors', rfl⟩)
  exact hall h ⟨w.selectors, rfl⟩

theorem Each.exists_of_mem {f : α → SyncM β} {l : List α} {bs : List β}
    (hf : ∀ a, (f a).AllCalls fun c : Call => c.failure = none) (h : Each S f l w bs w') {b : β}
    (hb : b ∈ bs) : ∃ a ∈ l, ∃ selectors w₁,
      Returns S (f a) { w with selectors := selectors } b w₁ := by
  induction h with
  | nil => cases hb
  | @cons a rest b' bs w w₁ w' hfirst _ ih =>
    rcases List.mem_cons.mp hb with rfl | hrest
    · exact ⟨a, by simp, w.selectors, w₁, hfirst⟩
    · obtain ⟨selectors, rfl⟩ := hfirst.of_reads (hf a)
      obtain ⟨a', ha', hreturns⟩ := ih hrest
      exact ⟨a', by simp [ha'], hreturns⟩

end Returns

namespace KubernetesBackend

variable {S : Server} {hash : Hash} {b : KubernetesBackend} {scope : Scope} {w w' : World}

theorem put_returns {obj : Unstructured} {clusterName : String} {data : Fields} {u : Unit}
    (h : Returns S (b.put hash scope obj clusterName (some data)) w u w') :
    b.Stores (sourceKey hash obj clusterName) data w w' := by
  obtain ⟨found, w₁, hfound, hput⟩ := h.bind
  obtain ⟨hread, rfl⟩ := Prod.mk.inj ((secret_eval S b scope w).symm.trans hfound)
  cases hs : w.secret? b.secretName with
  | none =>
    obtain rfl : none = found := hs ▸ Except.ok.inj hread
    simp only [createSecret] at hput
    obtain ⟨r, hexec, hr⟩ := hput.sendE
    rcases World.Does.createSecret (.inl hexec) with ⟨e, rfl, -⟩ | ⟨-, -, rfl⟩
    · cases hr
    · exact stores_putSecret (by simp [entries, hs])
  | some secret =>
    obtain rfl : some secret = found := hs ▸ Except.ok.inj hread
    simp only [updateSecret] at hput
    obtain ⟨r, hexec, hr⟩ := hput.sendE
    rcases World.Does.updateSecret (.inl hexec) with ⟨e, rfl, -⟩ | ⟨-, rfl⟩
    · cases hr
    · exact stores_putSecret (by simp [entries, hs])

end KubernetesBackend

namespace ObjectSyncer

variable (S : Server) (L : Libraries) (scope : Scope) (σ : ObjectSyncer)
  (sourceSide destSide : SyncSide)

/-- The Namespace is there, or none is needed.  At most it has been created, without any labels or
finalizers. -/
def EnsuresNamespace (client : Client) (ns : String) (w w' : World) : Prop :=
  w' = w ∧ (ns ≠ "" → (w.object? ⟨client, namespaceType, "", ns⟩).isSome = true) ∨
  ns ≠ "" ∧ ∃ o : Unstructured, o.idOn client = ⟨client, namespaceType, "", ns⟩ ∧
    o.metadata.labels = ∅ ∧ o.metadata.finalizers = [] ∧ w.Adds client scope o w'

/-- All labels and annotations that the destination object has to carry are on it. -/
def Stamped (dest : Unstructured) : Prop :=
  (σ.ensureDestMetadata dest).metadata.labels = dest.metadata.labels ∧
    (σ.ensureDestMetadata dest).metadata.annotations = dest.metadata.annotations

/-- The source object does not differ from its last-known state. -/
def Unchanged (source dest : Unstructured) (w : World) : Prop :=
  ∃ last, σ.lastKnown L sourceSide source w = some last ∧
    σ.createMergePatch L { last with typeMeta := source.typeMeta }
      (σ.desiredState L sourceSide source dest) = ∅

/-- The ways through `syncObjectSpec`. -/
inductive SpecOutcome (source dest : Unstructured) (w : World) :
    Bool → Unstructured → World → Prop
  | clean {last : Unstructured} : σ.lastKnown L sourceSide source w = some last →
      σ.createMergePatch L { last with typeMeta := source.typeMeta }
        (σ.desiredState L sourceSide source dest) = ∅ →
      SpecOutcome source dest w false dest w
  | patched {last o : Unstructured} {w₁ w' : World} :
      σ.lastKnown L sourceSide source w = some last →
      σ.createMergePatch L { last with typeMeta := source.typeMeta }
        (σ.desiredState L sourceSide source dest) ≠ ∅ →
      exec S ⟨scope, .patch (dest.idOn destSide.client)
        (σ.createMergePatch L { last with typeMeta := source.typeMeta }
          (σ.desiredState L sourceSide source dest))⟩ w = (.ok o, w₁) →
      σ.stateStore.Stores (KubernetesBackend.sourceKey L.hash
        (σ.desiredState L sourceSide source dest) sourceSide.clusterName)
        (snapshotObject (σ.desiredState L sourceSide source dest) σ.subresources).toFields w₁ w' →
      SpecOutcome source dest w true o w'
  | updated {o : Unstructured} {w₁ w' : World} : σ.lastKnown L sourceSide source w = none →
      exec S ⟨scope, .update destSide.client (σ.fullUpdate source dest)⟩ w = (.ok o, w₁) →
      σ.stateStore.Stores (KubernetesBackend.sourceKey L.hash (stripMetadata source)
        sourceSide.clusterName)
        (snapshotObject (stripMetadata source) σ.subresources).toFields w₁ w' →
      SpecOutcome source dest w true o w'

/-- The ways through `syncObjectStatus`. -/
inductive StatusOutcome (source dest : Unstructured) (w : World) : Unstructured → World → Prop
  | off : σ.syncStatusBack = false → StatusOutcome source dest w source w
  | same : source.content.field "status" = dest.content.field "status" →
      StatusOutcome source dest w source w
  | written {o : Unstructured} {w' : World} : σ.syncStatusBack = true →
      source.content.field "status" ≠ dest.content.field "status" →
      exec S ⟨scope, .updateStatus sourceSide.client { source with
        content := source.content.setStatus (dest.content.field "status") }⟩ w = (.ok o, w') →
      StatusOutcome source dest w o w'

/-- The ways through `syncObjectStatusForward`. -/
inductive ForwardOutcome (source dest : Unstructured) (w : World) : World → Prop
  | off : σ.syncStatusForward = false → ForwardOutcome source dest w w
  | same : source.content.field "status" = dest.content.field "status" →
      ForwardOutcome source dest w w
  | written {o : Unstructured} {w' : World} : σ.syncStatusForward = true →
      source.content.field "status" ≠ dest.content.field "status" →
      exec S ⟨scope, .updateStatus destSide.client { dest with
        content := dest.content.setStatus (source.content.field "status") }⟩ w = (.ok o, w') →
      ForwardOutcome source dest w w'
  | missing {w' : World} : σ.syncStatusForward = true →
      source.content.field "status" ≠ dest.content.field "status" →
      exec S ⟨scope, .updateStatus destSide.client { dest with
        content := dest.content.setStatus (source.content.field "status") }⟩ w =
        (.error .notFound, w') →
      ForwardOutcome source dest w w'

/-- The ways through `ensureDestinationObject`. -/
inductive PlaceOutcome (source : Unstructured) (w : World) : World → Prop
  | created {destObj o : Unstructured} {w₁ w₂ w' : World} : σ.destCreator source = .ok destObj →
      EnsuresNamespace scope destSide.client destObj.metadata.ns w w₁ →
      exec S ⟨scope, .create destSide.client (σ.newDestination L sourceSide source destObj)⟩ w₁ =
        (.ok o, w₂) →
      σ.stateStore.Stores (KubernetesBackend.sourceKey L.hash source sourceSide.clusterName)
        (snapshotObject source σ.subresources).toFields w₂ w' →
      PlaceOutcome source w w'
  | adopted {destObj existing o : Unstructured} {w₁ w₂ w' : World} :
      σ.destCreator source = .ok destObj →
      EnsuresNamespace scope destSide.client destObj.metadata.ns w w₁ →
      destObj.metadata.deletionTimestamp = none →
      w₁.object? (destObj.idOn destSide.client) = some existing →
      exec S ⟨scope, .update destSide.client (σ.adopted L existing
        (newObjectKey source sourceSide.clusterName sourceSide.workspacePath))⟩ w₁ = (.ok o, w₂) →
      σ.stateStore.Stores (KubernetesBackend.sourceKey L.hash source sourceSide.clusterName)
        (snapshotObject source σ.subresources).toFields w₂ w' →
      PlaceOutcome source w w'
  | ignored {destObj : Unstructured} {w₁ w' : World} : σ.destCreator source = .ok destObj →
      EnsuresNamespace scope destSide.client destObj.metadata.ns w w₁ →
      destObj.metadata.deletionTimestamp.isSome = true →
      σ.stateStore.Stores (KubernetesBackend.sourceKey L.hash source sourceSide.clusterName)
        (snapshotObject source σ.subresources).toFields w₁ w' →
      PlaceOutcome source w w'

/-- The ways through the part of `Sync` after the mutations. -/
inductive MutatedOutcome (source : Unstructured) (w : World) :
    Option Unstructured → Bool → Unstructured → World → Prop
  | placed {w' : World} : σ.useServerSideApply = false →
      σ.PlaceOutcome S L scope sourceSide destSide source w w' →
      MutatedOutcome source w none true source w'
  | skipped {d : Unstructured} : σ.useServerSideApply = false →
      d.metadata.deletionTimestamp.isSome = true → MutatedOutcome source w (some d) false source w
  | restamped {d o : Unstructured} {w' : World} : σ.useServerSideApply = false →
      d.metadata.deletionTimestamp = none → ¬ σ.Stamped d →
      exec S ⟨scope, .patch (d.idOn destSide.client)
        (L.diff.create d.toFields (σ.ensureDestMetadata d).toFields)⟩ w = (.ok o, w') →
      MutatedOutcome source w (some d) true source w'
  | changed {d o : Unstructured} {w₁ w' : World} : σ.useServerSideApply = false →
      d.metadata.deletionTimestamp = none → σ.Stamped d →
      σ.SpecOutcome S L scope sourceSide destSide source d w true o w₁ →
      σ.ForwardOutcome S scope destSide source o w₁ w' →
      MutatedOutcome source w (some d) true source w'
  | unchanged {d o source' : Unstructured} {w₁ w₂ w' : World} : σ.useServerSideApply = false →
      d.metadata.deletionTimestamp = none → σ.Stamped d →
      σ.SpecOutcome S L scope sourceSide destSide source d w false o w₁ →
      σ.ForwardOutcome S scope destSide source o w₁ w₂ →
      σ.StatusOutcome S scope sourceSide source o w₂ source' w' →
      MutatedOutcome source w (some d) false source' w'
  | applied {dest : Option Unstructured} {destObj o source' : Unstructured} {w₁ w₂ w' : World} :
      σ.useServerSideApply = true →
      (∀ d, dest = some d → d.metadata.deletionTimestamp = none) →
      σ.destCreator source = .ok destObj →
      EnsuresNamespace scope destSide.client destObj.metadata.ns w w₁ →
      exec S ⟨scope, .apply destSide.client (σ.applyPayload L sourceSide source destObj)
        σ.fieldManager⟩ w₁ = (.ok o, w₂) →
      (o.metadata.deletionTimestamp.isSome = true ∧ source' = source ∧ w' = w₂ ∨
        o.metadata.deletionTimestamp = none ∧
          σ.StatusOutcome S scope sourceSide source o w₂ source' w') →
      MutatedOutcome source w dest false source' w'
  | notApplied {d destObj : Unstructured} {w' : World} : σ.useServerSideApply = true →
      d.metadata.deletionTimestamp.isSome = true → σ.destCreator source = .ok destObj →
      EnsuresNamespace scope destSide.client destObj.metadata.ns w w' →
      MutatedOutcome source w (some d) false source w'

/-- The ways through `handleDeletion`. -/
inductive DeletionOutcome (source : Unstructured) (w : World) :
    Option Unstructured → Bool → World → Prop
  | ignored {dest : Option Unstructured} : σ.blockSourceDeletion = false →
      DeletionOutcome source w dest false w
  | waiting {d : Unstructured} : σ.blockSourceDeletion = true →
      d.metadata.deletionTimestamp.isSome = true → DeletionOutcome source w (some d) true w
  | deleted {d : Unstructured} {w' : World} : σ.blockSourceDeletion = true →
      d.metadata.deletionTimestamp = none →
      exec S ⟨scope, .delete (d.idOn destSide.client)
        (normalizeDeletionPropagationPolicy σ.deletionPropagationPolicy)⟩ w = (.ok (), w') →
      DeletionOutcome source w (some d) true w'
  | released {o : Unstructured} {w' : World} : σ.blockSourceDeletion = true →
      source.metadata.finalizers.contains deletionFinalizer = true →
      exec S ⟨scope, .patch (source.idOn sourceSide.client)
        (L.diff.create source.toFields (withoutFinalizer source).toFields)⟩ w = (.ok o, w') →
      DeletionOutcome source w none true w'
  | free : σ.blockSourceDeletion = true →
      source.metadata.finalizers.contains deletionFinalizer = false →
      DeletionOutcome source w none false w

/-- The ways through `Sync` for a source object that is not being deleted. -/
inductive LiveOutcome (source : Unstructured) (dest : Option Unstructured) (w : World) :
    Bool → Unstructured → World → Prop
  | finalized {o : Unstructured} {w' : World} : σ.blockSourceDeletion = true →
      source.metadata.finalizers.contains deletionFinalizer = false →
      exec S ⟨scope, .patch (source.idOn sourceSide.client)
        (L.diff.create source.toFields (withFinalizer source).toFields)⟩ w = (.ok o, w') →
      LiveOutcome source dest w true o w'
  | synced {source' mutated : Unstructured} {dest' : Option Unstructured} {requeue : Bool}
      {w' : World} : σ.Live source → σ.applyMutations source dest = .ok (source', dest') →
      σ.MutatedOutcome S L scope sourceSide destSide source' w dest' requeue mutated w' →
      LiveOutcome source dest w requeue (if σ.mutator.isSome then source else mutated) w'

section Returns

variable {S L scope σ sourceSide destSide} {source dest : Unstructured} {w w' : World}

theorem ensureNamespace_returns {client : Client} {ns : String} {u : Unit}
    (h : Returns S (ensureNamespace scope client ns) w u w') :
    EnsuresNamespace scope client ns w w' := by
  unfold ensureNamespace at h
  split at h
  · next hns => exact .inl ⟨h.pure.2, fun hne => absurd hns hne⟩
  · next hns =>
    obtain ⟨found, w₁, hget, hrest⟩ := h.bind
    obtain ⟨hfound, rfl⟩ := World.Does.get (.inl hget.request)
    split at hrest
    · obtain ⟨-, rfl⟩ := hrest.pure
      refine .inl ⟨rfl, fun _ => ?_⟩
      cases hobj : w'.object? ⟨client, namespaceType, "", ns⟩ with
      | none =>
        rw [hobj] at hfound
        cases hfound
      | some o => rfl
    · obtain ⟨r, w₂, hcreate, hend⟩ := hrest.bind
      rcases World.Does.create (.inl hcreate.request) with ⟨e, rfl, rfl,
        hexists⟩ | ⟨o, rfl, ho, hadds⟩
      · split at hend
        · next heq => cases heq
        · next heq =>
          cases heq
          exact .inl ⟨hend.pure.2, fun _ => hend.pure.2 ▸ hexists rfl⟩
        · exact hend.throw.elim
      · obtain ⟨-, rfl⟩ := hend.pure
        exact .inr ⟨hns, o, by rw [ho]; rfl, by rw [ho]; rfl, by rw [ho]; rfl, hadds⟩
    · exact hrest.throw.elim

theorem EnsuresNamespace.object?_of_some {client : Client} {ns : String} {id : ObjectId}
    {o : Unstructured} (h : EnsuresNamespace scope client ns w w') (ho : w.object? id = some o) :
    w'.object? id = some o := by
  rcases h with ⟨rfl, -⟩ | ⟨-, o, -, -, -, hadds⟩
  · exact ho
  · exact hadds.object?_of_some ho

theorem EnsuresNamespace.object?_of_ns {client : Client} {ns : String} {id : ObjectId}
    (h : EnsuresNamespace scope client ns w w') (hid : id.ns = ns) :
    w'.object? id = w.object? id := by
  rcases h with ⟨rfl, -⟩ | ⟨hns, o, ho, -, -, hadds⟩
  · rfl
  · rw [hadds.objects, ho, if_neg]
    rintro rfl
    exact hns hid.symm

theorem EnsuresNamespace.isSome {client : Client} {ns : String}
    (h : EnsuresNamespace scope client ns w w') (hns : ns ≠ "") :
    (w'.object? ⟨client, namespaceType, "", ns⟩).isSome = true := by
  rcases h with ⟨rfl, hexists⟩ | ⟨-, o, ho, -, -, hadds⟩
  · exact hexists hns
  · rw [hadds.objects, ho, if_pos rfl]
    rfl

theorem syncObjectSpec_returns {requeue : Bool} {o : Unstructured}
    (h : Returns S (σ.syncObjectSpec L scope sourceSide destSide source dest) w (requeue, o) w') :
    σ.SpecOutcome S L scope sourceSide destSide source dest w requeue o w' := by
  obtain ⟨last, w₁, hget, hrest⟩ := h.bind
  obtain ⟨hlast, rfl⟩ := Prod.mk.inj ((get_eval S σ.stateStore scope w source
    sourceSide.clusterName).symm.trans hget.wrap)
  have hknown : σ.lastKnown L sourceSide source w = last := Except.ok.inj hlast
  cases last with
  | some last =>
    dsimp only at hrest
    split at hrest
    · next hclean =>
      obtain ⟨heq, rfl⟩ := hrest.pure
      cases heq
      exact .clean hknown hclean
    · next hdirty =>
      obtain ⟨o', w₂, hpatch, hstore⟩ := hrest.bind
      obtain ⟨_, w₃, hput, hend⟩ := hstore.bind
      obtain ⟨heq, rfl⟩ := hend.pure
      cases heq
      exact .patched hknown hdirty hpatch.wrap.patch (KubernetesBackend.put_returns hput.wrap)
  | none =>
    obtain ⟨o', w₂, hupdate, hstore⟩ := hrest.bind
    obtain ⟨_, w₃, hput, hend⟩ := hstore.bind
    obtain ⟨heq, rfl⟩ := hend.pure
    cases heq
    exact .updated hknown hupdate.wrap.update (KubernetesBackend.put_returns hput.wrap)

theorem syncObjectStatus_returns {source' : Unstructured}
    (h : Returns S (σ.syncObjectStatus scope sourceSide source dest) w source' w') :
    σ.StatusOutcome S scope sourceSide source dest w source' w' := by
  unfold syncObjectStatus at h
  split at h
  · next hoff =>
    obtain ⟨rfl, rfl⟩ := h.pure
    exact .off (by simpa using hoff)
  · next hon =>
    split at h
    · next hsame =>
      obtain ⟨rfl, rfl⟩ := h.pure
      exact .same hsame
    · next hdiff =>
      obtain ⟨r, w₁, hcall, hend⟩ := h.bind
      split at hend
      · obtain ⟨rfl, rfl⟩ := hend.pure
        exact .written (by simpa using hon) hdiff hcall.request
      · exact hend.throw.elim

theorem syncObjectStatusForward_returns {u : Unit}
    (h : Returns S (σ.syncObjectStatusForward scope destSide source dest) w u w') :
    σ.ForwardOutcome S scope destSide source dest w w' := by
  unfold syncObjectStatusForward at h
  split at h
  · next hoff =>
    obtain ⟨-, rfl⟩ := h.pure
    exact .off (by simpa using hoff)
  · next hon =>
    split at h
    · next hsame =>
      obtain ⟨-, rfl⟩ := h.pure
      exact .same hsame
    · next hdiff =>
      obtain ⟨r, w₁, hcall, hend⟩ := h.bind
      split at hend
      · obtain ⟨-, rfl⟩ := hend.pure
        exact .written (by simpa using hon) hdiff hcall.request
      · obtain ⟨-, rfl⟩ := hend.pure
        exact .missing (by simpa using hon) hdiff hcall.request
      · exact hend.throw.elim

theorem ensureDestinationObject_returns {u : Unit}
    (h : Returns S (σ.ensureDestinationObject L scope sourceSide destSide source) w u w') :
    σ.PlaceOutcome S L scope sourceSide destSide source w w' := by
  obtain ⟨destObj, w₁, hcreator, hafter⟩ := h.bind
  obtain ⟨hdest, rfl⟩ := hcreator.wrapE
  obtain ⟨_, w₂, hensure, hafter⟩ := hafter.bind
  have hns := ensureNamespace_returns hensure.wrap
  obtain ⟨r, w₃, hcreate, hrest⟩ := hafter.bind
  obtain ⟨hid, -, hdying⟩ := newDestination_rest L σ sourceSide source destObj
  split at hrest
  · exact .created hdest hns hcreate.request (KubernetesBackend.put_returns hrest.wrap)
  · obtain ⟨_, w₄, hadopt, hput⟩ := hrest.bind
    have hput := KubernetesBackend.put_returns hput.wrap
    rcases World.Does.create (.inl hcreate.request) with ⟨e, -, rfl, -⟩ | ⟨o, hok, -⟩
    · replace hadopt := hadopt.wrap
      unfold adoptExistingDestinationObject at hadopt
      split at hadopt
      · next hsome =>
        obtain ⟨-, rfl⟩ := hadopt.pure
        exact .ignored hdest hns (hdying ▸ hsome) hput
      · next hnone =>
        obtain ⟨existing, w₅, hget, hwrite⟩ := hadopt.bind
        obtain ⟨hexisting, rfl⟩ := hget.wrap.get
        obtain ⟨o, w₆, hupdate, hend⟩ := hwrite.bind
        obtain ⟨-, rfl⟩ := hend.pure
        rw [hid] at hexisting
        exact .adopted hdest hns (by simpa [hdying] using hnone) hexisting hupdate.wrap.update hput
    · cases hok
  · obtain ⟨_, _, hthrow, -⟩ := hrest.bind
    exact hthrow.throw.elim

theorem ensureDestMetadataPersisted_returns {restamped : Bool} {o : Unstructured}
    (h : Returns S (σ.ensureDestMetadataPersisted L scope destSide dest) w (restamped, o) w') :
    restamped = false ∧ o = dest ∧ w' = w ∧ σ.Stamped dest ∨
    restamped = true ∧ ¬ σ.Stamped dest ∧ exec S ⟨scope, .patch (dest.idOn destSide.client)
      (L.diff.create dest.toFields (σ.ensureDestMetadata dest).toFields)⟩ w = (.ok o, w') := by
  unfold ensureDestMetadataPersisted at h
  split at h
  · next hnone =>
    obtain ⟨heq, rfl⟩ := h.pure
    cases heq
    have hsame : σ.ensureDestMetadata dest = dest := by
      rw [ensureDestMetadata, hnone.1, hnone.2]
      rfl
    exact .inl ⟨rfl, rfl, rfl, by rw [hsame], by rw [hsame]⟩
  · dsimp only at h
    split at h
    · next hsame =>
      obtain ⟨heq, rfl⟩ := h.pure
      cases heq
      exact .inl ⟨rfl, rfl, rfl, hsame⟩
    · next hdiff =>
      obtain ⟨o', w₁, hpatch, hend⟩ := h.bind
      obtain ⟨heq, rfl⟩ := hend.pure
      cases heq
      exact .inr ⟨rfl, hdiff, hpatch.wrap.patch⟩

theorem syncObjectContents_returns {requeue : Bool} {source' : Unstructured}
    (h : Returns S (σ.syncObjectContents L scope sourceSide destSide source dest) w
      (requeue, source') w') :
    ∃ o w₁ w₂, σ.SpecOutcome S L scope sourceSide destSide source dest w requeue o w₁ ∧
      σ.ForwardOutcome S scope destSide source o w₁ w₂ ∧
      (requeue = true ∧ source' = source ∧ w' = w₂ ∨
        requeue = false ∧ σ.StatusOutcome S scope sourceSide source o w₂ source' w') := by
  obtain ⟨⟨dirty, o⟩, w₁, hspec, hafter⟩ := h.bind
  obtain ⟨_, w₂, hforward, hrest⟩ := hafter.bind
  cases dirty with
  | true =>
    obtain ⟨heq, rfl⟩ := hrest.pure
    cases heq
    exact ⟨o, w₁, w', syncObjectSpec_returns hspec, syncObjectStatusForward_returns hforward,
      .inl ⟨rfl, rfl, rfl⟩⟩
  | false =>
    obtain ⟨source₁, w₃, hstatus, hend⟩ := hrest.bind
    obtain ⟨heq, rfl⟩ := hend.pure
    cases heq
    exact ⟨o, w₁, w₂, syncObjectSpec_returns hspec, syncObjectStatusForward_returns hforward,
      .inr ⟨rfl, syncObjectStatus_returns hstatus⟩⟩

/-- What `applyServerSide` leaves: the object as the server has it after the apply, or an object in
deletion that is left alone. -/
theorem applyServerSide_returns {dest : Option Unstructured} {result : Option Unstructured}
    (h : Returns S (σ.applyServerSide L scope sourceSide destSide source dest) w result w') :
    ∃ destObj w₁, σ.destCreator source = .ok destObj ∧
      EnsuresNamespace scope destSide.client destObj.metadata.ns w w₁ ∧
      ((∃ d, dest = some d ∧ d.metadata.deletionTimestamp.isSome = true ∧ result = some d ∧
          w' = w₁) ∨
        (∀ d, dest = some d → d.metadata.deletionTimestamp = none) ∧
          ∃ o, result = some o ∧ exec S ⟨scope, .apply destSide.client
            (σ.applyPayload L sourceSide source destObj) σ.fieldManager⟩ w₁ = (.ok o, w')) := by
  obtain ⟨destObj, w₁, hcreator, hafter⟩ := h.bind
  obtain ⟨hdest, rfl⟩ := hcreator.wrapE
  obtain ⟨_, w₂, hensure, hrest⟩ := hafter.bind
  refine ⟨destObj, w₂, hdest, ensureNamespace_returns hensure.wrap, ?_⟩
  cases dest with
  | some d =>
    dsimp only at hrest
    split at hrest
    · next hdying =>
      obtain ⟨rfl, rfl⟩ := hrest.pure
      exact .inl ⟨d, rfl, hdying, rfl, rfl⟩
    · next hlive =>
      obtain ⟨o, w₃, happly, hend⟩ := hrest.bind
      obtain ⟨rfl, rfl⟩ := hend.pure
      refine .inr ⟨fun d' hd' => ?_, o, rfl, happly.wrap.apply⟩
      cases hd'
      simpa using hlive
  | none =>
    obtain ⟨o, w₃, happly, hend⟩ := hrest.bind
    obtain ⟨rfl, rfl⟩ := hend.pure
    exact .inr ⟨fun _ hd => (by cases hd), o, rfl, happly.wrap.apply⟩

theorem syncMutated_returns {dest : Option Unstructured} {requeue : Bool} {source' : Unstructured}
    (h : Returns S (σ.syncMutated L scope sourceSide destSide source dest) w
      (requeue, source') w') :
    σ.MutatedOutcome S L scope sourceSide destSide source w dest requeue source' w' := by
  unfold syncMutated at h
  split at h
  · next hssa =>
    obtain ⟨newDest, w₁, happly, hrest⟩ := h.bind
    obtain ⟨destObj, w₀, hdest, hns, ⟨d, rfl, hdying, rfl, rfl⟩ | ⟨hlive, o, rfl, hexec⟩⟩ :=
      applyServerSide_returns happly.wrap
    · dsimp only at hrest
      rw [if_pos hdying] at hrest
      obtain ⟨heq, rfl⟩ := hrest.pure
      cases heq
      exact .notApplied hssa hdying hdest hns
    · dsimp only at hrest
      split at hrest
      · next hdying =>
        obtain ⟨heq, rfl⟩ := hrest.pure
        cases heq
        exact .applied hssa hlive hdest hns hexec (.inl ⟨hdying, rfl, rfl⟩)
      · next hnot =>
        obtain ⟨source₁, w₂, hstatus, hend⟩ := hrest.bind
        obtain ⟨heq, rfl⟩ := hend.pure
        cases heq
        exact .applied hssa hlive hdest hns hexec
          (.inr ⟨by simpa using hnot, syncObjectStatus_returns hstatus⟩)
  · next hmerge =>
    replace hmerge : σ.useServerSideApply = false := by simpa using hmerge
    cases dest with
    | none =>
      obtain ⟨_, w₁, hplace, hend⟩ := h.bind
      obtain ⟨heq, rfl⟩ := hend.pure
      cases heq
      exact .placed hmerge (ensureDestinationObject_returns hplace.wrap)
    | some d =>
      dsimp only at h
      split at h
      · next hdying =>
        obtain ⟨heq, rfl⟩ := h.pure
        cases heq
        exact .skipped hmerge hdying
      · next hnot =>
        have hlive : d.metadata.deletionTimestamp = none := by simpa using hnot
        obtain ⟨⟨restamped, o⟩, w₁, hstamp, hrest⟩ := h.bind
        rcases ensureDestMetadataPersisted_returns hstamp.wrap with
          ⟨rfl, rfl, rfl, hstamped⟩ | ⟨rfl, hunstamped, hexec⟩
        · rw [if_neg (by simp)] at hrest
          obtain ⟨o, w₂, w₃, hspec, hforward, ⟨rfl, rfl, rfl⟩ | ⟨rfl, hstatus⟩⟩ :=
            syncObjectContents_returns hrest.wrap
          · exact .changed hmerge hlive hstamped hspec hforward
          · exact .unchanged hmerge hlive hstamped hspec hforward hstatus
        · rw [if_pos rfl] at hrest
          obtain ⟨heq, rfl⟩ := hrest.pure
          cases heq
          exact .restamped hmerge hlive hunstamped hexec

/-- What `Sync` has done for a source object that is not being deleted. -/
theorem sync_returns {dest : Option Unstructured} {requeue : Bool} {source' : Unstructured}
    (hdel : ¬ σ.Deleting source)
    (h : Returns S (σ.sync L scope sourceSide destSide source dest) w (requeue, source') w') :
    σ.LiveOutcome S L scope sourceSide destSide source dest w requeue source' w' := by
  obtain ⟨hlive, hforce⟩ : source.metadata.deletionTimestamp = none ∧ σ.forceDelete = false := by
    simpa [Deleting] using hdel
  unfold sync at h
  rw [if_neg (by simp [hlive, hforce])] at h
  obtain ⟨⟨updated, source₁⟩, w₁, hfinalizer, hrest⟩ := h.bind
  have hfin : updated = false ∧ source₁ = source ∧ w₁ = w ∧ σ.Live source ∨
      updated = true ∧ σ.LiveOutcome S L scope sourceSide destSide source
      dest w true source₁ w₁ := by
    split at hfinalizer
    · next hblock =>
      replace hfinalizer := hfinalizer.wrap
      unfold ensureFinalizer at hfinalizer
      split at hfinalizer
      · next hthere =>
        obtain ⟨heq, rfl⟩ := hfinalizer.pure
        cases heq
        exact .inl ⟨rfl, rfl, rfl, hlive, hforce, fun _ => hthere⟩
      · next hmissing =>
        obtain ⟨o, w₂, hpatch, hend⟩ := hfinalizer.bind
        obtain ⟨heq, rfl⟩ := hend.pure
        cases heq
        exact .inr ⟨rfl, .finalized hblock (by simpa using hmissing) hpatch.patch⟩
    · next hblock =>
      obtain ⟨heq, rfl⟩ := hfinalizer.pure
      cases heq
      exact .inl ⟨rfl, rfl, rfl, hlive, hforce, fun hb => absurd hb hblock⟩
  obtain ⟨rfl, rfl, rfl, hguarded⟩ | ⟨rfl, houtcome⟩ := hfin
  · dsimp only at hrest
    rw [if_neg (by simp)] at hrest
    obtain ⟨⟨mutated, dest'⟩, w₂, hknown, hsync⟩ := hrest.bind
    obtain ⟨hmutations, rfl⟩ := hknown.wrapE
    obtain ⟨⟨requeue', source₂⟩, w₃, hmutated, hend⟩ := hsync.bind
    obtain ⟨heq, rfl⟩ := hend.pure
    cases heq
    exact .synced hguarded hmutations (syncMutated_returns hmutated)
  · dsimp only at hrest
    rw [if_pos rfl] at hrest
    obtain ⟨heq, rfl⟩ := hrest.pure
    cases heq
    exact houtcome

/-- What `Sync` has done for a source object whose deletion is to be handled. -/
theorem sync_deleting_returns {dest : Option Unstructured} {requeue : Bool}
    {source' : Unstructured} (hdel : σ.Deleting source)
    (h : Returns S (σ.sync L scope sourceSide destSide source dest) w (requeue, source') w') :
    σ.DeletionOutcome S L scope sourceSide destSide source w dest requeue w' := by
  unfold sync at h
  rw [if_pos (by simpa [Deleting] using hdel)] at h
  obtain ⟨requeue', w₁, hhandle, hend⟩ := h.bind
  obtain ⟨heq, rfl⟩ := hend.pure
  cases heq
  unfold handleDeletion at hhandle
  cases hblock : σ.blockSourceDeletion with
  | false =>
    rw [if_pos (by simp [hblock])] at hhandle
    obtain ⟨rfl, rfl⟩ := hhandle.pure
    exact .ignored hblock
  | true =>
    rw [if_neg (by simp [hblock])] at hhandle
    cases dest with
    | some d =>
      dsimp only at hhandle
      split at hhandle
      · next hdying =>
        obtain ⟨rfl, rfl⟩ := hhandle.pure
        exact .waiting hblock hdying
      · next hlive =>
        obtain ⟨_, w₂, hdelete, hend⟩ := hhandle.bind
        obtain ⟨rfl, rfl⟩ := hend.pure
        obtain ⟨r, hexec, hr⟩ := hdelete.wrap.sendE
        rw [ok_of_mapError hr] at hexec
        exact .deleted hblock (by simpa using hlive) hexec
    | none =>
      obtain ⟨⟨updated, o⟩, w₂, hremove, hend⟩ := hhandle.bind
      obtain ⟨rfl, rfl⟩ := hend.pure
      replace hremove := hremove.wrap
      unfold removeFinalizer at hremove
      split at hremove
      · next hmissing =>
        obtain ⟨heq, rfl⟩ := hremove.pure
        cases heq
        exact .free hblock (by simpa using hmissing)
      · next hthere =>
        obtain ⟨o', w₃, hpatch, hend⟩ := hremove.bind
        obtain ⟨heq, rfl⟩ := hend.pure
        cases heq
        exact .released hblock (by simpa using hthere) hpatch.patch

theorem applyMutations_some {d source' : Unstructured} {dest' : Option Unstructured}
    (h : σ.applyMutations source (some d) = .ok (source', dest')) : ∃ d', dest' = some d' := by
  rcases applyMutations_ok h with ⟨-, -, rfl⟩ | ⟨_, _, -, -, ⟨hnone, -⟩ | ⟨_, d', -, rfl, -⟩⟩
  · exact ⟨d, rfl⟩
  · cases hnone
  · exact ⟨d', rfl⟩

theorem exists_of_applyMutations {dest : Option Unstructured} {d' mutated : Unstructured}
    (h : σ.applyMutations source dest = .ok (mutated, some d')) : ∃ d, dest = some d := by
  rcases applyMutations_ok h with ⟨-, -, rfl⟩ | ⟨_, _, -, -, ⟨-, hnone⟩ | ⟨d, _, rfl, -⟩⟩
  · exact ⟨d', rfl⟩
  · cases hnone
  · exact ⟨d, rfl⟩

theorem StatusOutcome.eq_of_off {source' : Unstructured}
    (h : σ.StatusOutcome S scope sourceSide source dest w source' w')
    (hoff : σ.syncStatusBack = false) : w' = w := by
  cases h with
  | off => rfl
  | same => rfl
  | written hon => cases hoff.symm.trans hon

theorem ForwardOutcome.eq_of_off (h : σ.ForwardOutcome S scope destSide source dest w w')
    (hoff : σ.syncStatusForward = false) : w' = w := by
  cases h with
  | off => rfl
  | same => rfl
  | written hon => cases hoff.symm.trans hon
  | missing hon => cases hoff.symm.trans hon

theorem ForwardOutcome.statusOnly (h : σ.ForwardOutcome S scope destSide source dest w w') :
    w.StatusOnly w' := by
  cases h with
  | off => exact .refl w
  | same => exact .refl w
  | written _ _ hexec => exact .of_updateStatus (.inl hexec)
  | missing _ _ hexec => exact .of_updateStatus (.inl hexec)

theorem StatusOutcome.statusOnly {source' : Unstructured}
    (h : σ.StatusOutcome S scope sourceSide source dest w source' w') : w.StatusOnly w' := by
  cases h with
  | off => exact .refl w
  | same => exact .refl w
  | written _ _ hexec => exact .of_updateStatus (.inl hexec)

end Returns

end ObjectSyncer

end Sync
