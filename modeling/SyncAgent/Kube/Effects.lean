import SyncAgent.Kube.Api
import SyncAgent.Kube.Patch

/-! What a call can do to the world: it leaves all objects but its target alone, and it fails
without an effect or turns its target into a new version. -/

namespace Kube

/-- The object that a request writes. -/
def Verb.target : Verb → Option ObjectId
  | .create client obj | .update client obj | .updateStatus client obj | .apply client obj _ =>
    some (obj.idOn client)
  | .patch id _ | .delete id _ => some id
  | _ => none

/-- The state Secret that a request writes. -/
def Verb.secretTarget : Verb → Option SecretId
  | .createSecret id _ | .updateSecret id _ => some id
  | _ => none

/-- The API server that a request for objects goes to. -/
def Verb.client : Verb → Option Client
  | .get id _ | .patch id _ | .delete id _ => some id.client
  | .list client .. | .create client _ | .update client _ | .updateStatus client _
  | .apply client _ _ => some client
  | _ => none

/-- The state Secret that a request reads or writes. -/
def Verb.secret : Verb → Option SecretId
  | .getSecret id | .createSecret id _ | .updateSecret id _ => some id
  | _ => none

/-- The client and the type of an object that a request reads or creates. -/
def Verb.opens : Verb → Option (Client × TypeMeta)
  | .get id _ => some (id.client, id.typeMeta)
  | .list client typeMeta .. => some (client, typeMeta)
  | .create client obj => some (client, obj.typeMeta)
  | .apply client obj _ => some (client, obj.typeMeta)
  | _ => none

/-- A request reads or writes the object. -/
def Verb.Reaches : Verb → ObjectId → Prop
  | .get id' _, id => id = id'
  | .list client typeMeta ns .., id => id.client = client ∧
      id.typeMeta = typeMeta ∧ (ns = "" ∨ id.ns = ns)
  | verb, id => verb.target = some id

theorem Verb.client_or_secret (verb : Verb) : verb.client = none ∨ verb.secret = none := by
  cases verb <;> first | exact .inl rfl | exact .inr rfl

theorem Verb.client_of_target {verb : Verb} {id : ObjectId} (h : verb.target = some id) :
    verb.client = some id.client := by
  cases verb <;> cases h <;> rfl

theorem Verb.client_of_opens {verb : Verb} {client : Client} {t : TypeMeta}
    (h : verb.opens = some (client, t)) : verb.client = some client := by
  cases verb <;> cases h <;> rfl

theorem Verb.target_or_opens {verb : Verb} {id : ObjectId} (h : verb.Reaches id) :
    verb.target = some id ∨ verb.opens = some (id.client, id.typeMeta) := by
  cases verb with
  | get id' live => cases h; exact .inr rfl
  | list client typeMeta ns selector limit live =>
    obtain ⟨rfl, rfl, -⟩ := h
    exact .inr rfl
  | _ => exact .inl h

theorem Verb.client_of_reaches {verb : Verb} {id : ObjectId} (h : verb.Reaches id) :
    verb.client = some id.client :=
  (Verb.target_or_opens h).elim Verb.client_of_target Verb.client_of_opens

theorem Verb.secret_of_secretTarget {verb : Verb} {id : SecretId}
    (h : verb.secretTarget = some id) :
    verb.secret = some id := by
  cases verb <;> cases h <;> rfl

namespace Server

variable (S : Server) (client : Client) (cur next : Unstructured)

@[simp] theorem idOn_settle (client' : Client) :
    (S.settle client cur next).idOn client' = next.idOn client' := rfl

@[simp] theorem labels_settle : (S.settle client cur next).metadata.labels = next.metadata.labels :=
  rfl

@[simp] theorem annotations_settle :
    (S.settle client cur next).metadata.annotations = next.metadata.annotations := rfl

@[simp] theorem finalizers_settle :
    (S.settle client cur next).metadata.finalizers = next.metadata.finalizers := rfl

@[simp] theorem uid_settle : (S.settle client cur next).metadata.uid = cur.metadata.uid := rfl

@[simp] theorem deletionTimestamp_settle :
    (S.settle client cur next).metadata.deletionTimestamp = cur.metadata.deletionTimestamp := rfl

@[simp] theorem content_settle :
    (S.settle client cur next).content = S.mainContent client cur next := rfl

variable {S client cur next}

theorem get?_mainContent {k : String} (hk : S.hasStatus client cur.typeMeta = true → k ≠ "status") :
    (S.mainContent client cur next).fields.get? k = next.content.fields.get? k := by
  unfold mainContent
  split
  · next hstatus => exact Content.get?_setStatus _ _ (hk hstatus)
  · rfl

theorem get?_initialContent {typeMeta : TypeMeta} {content : Content} {k : String}
    (hk : S.hasStatus client typeMeta = true → k ≠ "status") :
    (S.initialContent client typeMeta content).fields.get? k = content.fields.get? k := by
  unfold initialContent
  split
  · next hstatus => simp [Content.get?_without, hk hstatus]
  · rfl

end Server

namespace World

variable {S : Server} {w w' : World} {client : Client} {cur next o : Unstructured} {scope : Scope}

/-- The object at `id` has become `next`: it is stored as `o`, a version of `next`, or it is gone
because it was in deletion and has lost its last finalizer. -/
structure Becomes (w' : World) (id : ObjectId) (next o : Unstructured) : Prop where
  version : ∃ rv, o = { next with metadata.resourceVersion := rv }
  object : w'.object? id = some o ∨ w'.object? id = none ∧
    next.metadata.deletionTimestamp.isSome = true ∧ next.metadata.finalizers = []

theorem Becomes.metadata {id : ObjectId} (h : Becomes w' id next o) :
    ∃ rv, o.metadata = { next.metadata with resourceVersion := rv } := by
  obtain ⟨rv, rfl⟩ := h.version
  exact ⟨rv, rfl⟩

theorem Becomes.content {id : ObjectId} (h : Becomes w' id next o) : o.content = next.content := by
  obtain ⟨rv, rfl⟩ := h.version
  rfl

theorem object?_write (w : World) (client : Client) (o : Unstructured) (id : ObjectId) :
    (w.write client o).2.object? id =
      if id = o.idOn client then some (w.write client o).1 else w.object? id :=
  object?_put _ _ _ _

theorem store_becomes (hcur : w.object? (cur.idOn client) = some cur)
    (hnext : next.idOn client = cur.idOn client) :
    Becomes (w.store client cur next).2 (cur.idOn client) next (w.store client cur next).1 := by
  unfold store
  split
  · next heq =>
    subst heq
    exact ⟨⟨next.metadata.resourceVersion, rfl⟩, .inl hcur⟩
  · split
    · next hgone => exact ⟨⟨_, rfl⟩, .inr ⟨by simp, hgone.1, hgone.2⟩⟩
    · exact ⟨⟨_, rfl⟩, .inl (by rw [object?_write, hnext, if_pos rfl])⟩

theorem store_object?_of_ne {id : ObjectId} (hnext : next.idOn client = cur.idOn client)
    (hid : id ≠ cur.idOn client) : (w.store client cur next).2.object? id = w.object? id := by
  unfold store
  split
  · rfl
  · split
    · simp [hid]
    · rw [object?_write, if_neg (hnext ▸ hid)]

theorem store_frame (w : World) (client : Client) (cur next : Unstructured) :
    (∀ id, (w.store client cur next).2.secret? id = w.secret? id) ∧
      (w.store client cur next).2.created = w.created ∧
      (w.store client cur next).2.selectors = w.selectors ∧
      w.clock ≤ (w.store client cur next).2.clock := by
  unfold store
  split
  · exact ⟨fun _ => rfl, rfl, rfl, Nat.le_refl _⟩
  · split
    · exact ⟨fun _ => rfl, rfl, rfl, Nat.le_refl _⟩
    · exact ⟨fun _ => rfl, rfl, rfl, Nat.le_succ _⟩

/-- The object as `place` stores it. -/
def placed (w : World) (o : Unstructured) : Unstructured :=
  { o with metadata := { o.metadata with
      uid := w.clock + 1
      creationTimestamp := some (w.clock + 1)
      deletionTimestamp := none
      generation := 1
      resourceVersion := w.clock + 1 } }

/-! ### What each request does -/

variable (S w client scope)

theorem createObject_cases (obj : Unstructured) :
    (∃ e, w.createObject S client scope obj = (.error e, w) ∧
      (e = .alreadyExists → (w.object? (obj.idOn client)).isSome = true)) ∨
    (w.object? (obj.idOn client) = none ∧ ∃ o w',
      w.createObject S client scope obj = (.ok o, w') ∧
      o = w.placed { obj with content := S.initialContent client obj.typeMeta obj.content } ∧
      w' = ((w.put client o).tick).record (w.clock + 1) scope) := by
  unfold createObject
  split
  · exact .inl ⟨_, rfl, fun h => by cases h⟩
  · split
    · next hsome => exact .inl ⟨_, rfl, fun _ => hsome⟩
    · next hnone =>
      refine .inr ⟨by simpa using hnone, _, _, rfl, rfl, rfl⟩

theorem updateObject_cases (obj : Unstructured) :
    (∃ e, w.updateObject S client obj = (.error e, w)) ∨
    ∃ cur, w.object? (obj.idOn client) = some cur ∧
      obj.metadata.resourceVersion = cur.metadata.resourceVersion ∧
      obj.metadata.uid = cur.metadata.uid ∧ Server.finalizersAllowed cur obj = true ∧
      w.updateObject S client obj = (.ok (w.store client cur (S.settle client cur obj)).1,
        (w.store client cur (S.settle client cur obj)).2) := by
  unfold updateObject
  split
  · exact .inl ⟨_, rfl⟩
  · next cur hcur =>
    split
    · exact .inl ⟨_, rfl⟩
    · split
      · exact .inl ⟨_, rfl⟩
      · next hsame =>
        split
        · exact .inl ⟨_, rfl⟩
        · next hallowed =>
          rw [not_or, not_not, not_not] at hsame
          exact .inr ⟨cur, hcur, hsame.1, hsame.2, by simpa using hallowed, rfl⟩

theorem updateObjectStatus_cases (obj : Unstructured) :
    (∃ e, w.updateObjectStatus S client obj = (.error e, w)) ∨
    ∃ cur next, w.object? (obj.idOn client) = some cur ∧ S.hasStatus client cur.typeMeta = true ∧
      obj.metadata.uid = cur.metadata.uid ∧
      next = { cur with content := cur.content.setStatus (obj.content.field "status") } ∧
      w.updateObjectStatus S client obj =
        (.ok (w.store client cur next).1, (w.store client cur next).2) := by
  unfold updateObjectStatus
  split
  · exact .inl ⟨_, rfl⟩
  · next cur hcur =>
    split
    · exact .inl ⟨_, rfl⟩
    · next hstatus =>
      split
      · exact .inl ⟨_, rfl⟩
      · split
        · exact .inl ⟨_, rfl⟩
        · next hsame =>
          rw [not_or, not_not, not_not] at hsame
          exact .inr ⟨cur, _, hcur, by simpa using hstatus, hsame.2, rfl, rfl⟩

theorem patchObject_cases (id : ObjectId) (patch : Fields) :
    (∃ e, w.patchObject S id patch = (.error e, w)) ∨
    ∃ cur next, w.object? id = some cur ∧
      Unstructured.ofFields (cur.toFields.merge patch) = some next ∧ next.idOn id.client = id ∧
      next.metadata.uid = cur.metadata.uid ∧ Server.finalizersAllowed cur next = true ∧
      w.patchObject S id patch = (.ok (w.store id.client cur (S.settle id.client cur next)).1,
        (w.store id.client cur (S.settle id.client cur next)).2) := by
  unfold patchObject
  split
  · exact .inl ⟨_, rfl⟩
  · next cur hcur =>
    split
    · exact .inl ⟨_, rfl⟩
    · next next hnext =>
      split
      · exact .inl ⟨_, rfl⟩
      · next hid =>
        split
        · exact .inl ⟨_, rfl⟩
        · next hsame =>
          split
          · exact .inl ⟨_, rfl⟩
          · next hallowed =>
            rw [not_or, not_not, not_not] at hsame
            exact .inr ⟨cur, next, hcur, hnext, not_not.mp hid, hsame.2, by simpa using hallowed,
              rfl⟩

/-- An applied object before it is placed for the first time. -/
def appliedNew (S : Server) (client : Client) (obj : Unstructured) (fieldManager : String) :
    Unstructured where
  typeMeta := obj.typeMeta
  metadata :=
    { name := obj.metadata.name
      ns := obj.metadata.ns
      labels := (S.applied fieldManager none obj).labels
      annotations := (S.applied fieldManager none obj).annotations }
  content := S.initialContent client obj.typeMeta (S.applied fieldManager none obj).content

/-- An object with an applied one merged into it. -/
def appliedOver (S : Server) (cur obj : Unstructured) (fieldManager : String) : Unstructured :=
  { cur with
    metadata := { cur.metadata with
      labels := (S.applied fieldManager (some cur) obj).labels
      annotations := (S.applied fieldManager (some cur) obj).annotations }
    content := (S.applied fieldManager (some cur) obj).content }

theorem applyObject_cases (obj : Unstructured) (fieldManager : String) :
    w.applyObject S client scope obj fieldManager = (.error .invalid, w) ∨
    (w.object? (obj.idOn client) = none ∧ ∃ o w',
      w.applyObject S client scope obj fieldManager = (.ok o, w') ∧
      o = w.placed (appliedNew S client obj fieldManager) ∧
      w' = ((w.put client o).tick).record (w.clock + 1) scope) ∨
    ∃ cur next, w.object? (obj.idOn client) = some cur ∧
      next = S.settle client cur (appliedOver S cur obj fieldManager) ∧
      w.applyObject S client scope obj fieldManager =
        (.ok (w.store client cur next).1, (w.store client cur next).2) := by
  unfold applyObject
  split
  · exact .inl rfl
  · dsimp only
    split
    · next hnone =>
      refine .inr (.inl ⟨hnone, _, _, rfl, ?_, rfl⟩)
      rw [hnone]
      rfl
    · next cur hcur =>
      refine .inr (.inr ⟨cur, _, hcur, ?_, rfl⟩)
      rw [hcur]
      rfl

theorem deleteObject_cases (id : ObjectId) (policy : DeletionPropagation) :
    w.deleteObject id policy = (.error .notFound, w) ∨
    ∃ cur, w.object? id = some cur ∧
      (cur.metadata.deletionTimestamp.isSome = true ∧ w.deleteObject id policy = (.ok (), w) ∨
      cur.metadata.deletionTimestamp = none ∧ cur.metadata.finalizers = [] ∧
        w.deleteObject id policy = (.ok (), w.remove id) ∨
      cur.metadata.deletionTimestamp = none ∧ ∃ finalizers,
        cur.metadata.finalizers ⊆ finalizers ∧
        w.deleteObject id policy = (.ok (), (w.write id.client { cur with
          metadata := { cur.metadata with
            finalizers := finalizers
            deletionTimestamp := some (w.clock + 1) } }).2)) := by
  unfold deleteObject
  split
  · exact .inl rfl
  · next cur hcur =>
    refine .inr ⟨cur, hcur, ?_⟩
    split
    · next hdeleting => exact .inl ⟨hdeleting, rfl⟩
    · next hdeleting =>
      have hnone : cur.metadata.deletionTimestamp = none := by simpa using hdeleting
      dsimp only
      split
      · next hempty =>
        exact .inr (.inl ⟨hnone, (List.append_eq_nil_iff.mp hempty).1, rfl⟩)
      · exact .inr (.inr ⟨hnone, _, List.subset_append_left _ _, rfl⟩)

end World

/-! ### What is left alone -/

section Frame

variable {S : Server} {w w' : World}

/-- The objects but one, the Secrets, the selectors and the record of created objects. -/
structure World.Keeps (w : World) (target : Option ObjectId) (w' : World) : Prop where
  objects : ∀ id, target ≠ some id → w'.object? id = w.object? id
  secrets : ∀ id, w'.secret? id = w.secret? id
  selectors : w'.selectors = w.selectors
  created : w'.created = w.created
  clock : w.clock ≤ w'.clock

theorem World.Keeps.refl (w : World) (target : Option ObjectId) : w.Keeps target w :=
  ⟨fun _ _ => rfl, fun _ => rfl, rfl, rfl, Nat.le_refl _⟩

theorem World.store_keeps (w : World) {client : Client} {cur next : Unstructured} {id : ObjectId}
    (hcur : cur.idOn client = id) (hnext : next.idOn client = id) :
    w.Keeps (some id) (w.store client cur next).2 := by
  subst hcur
  obtain ⟨hsecrets, hcreated, hselectors, hclock⟩ := w.store_frame client cur next
  exact ⟨fun id hid => World.store_object?_of_ne hnext fun h => hid (h ▸ rfl), hsecrets, hselectors,
    hcreated, hclock⟩

/-- A new object has come into being. -/
structure World.Adds (w : World) (client : Client) (scope : Scope) (o : Unstructured) (w' : World) :
    Prop where
  fresh : w.object? (o.idOn client) = none
  objects : ∀ id, w'.object? id = if id = o.idOn client then some o else w.object? id
  secrets : ∀ id, w'.secret? id = w.secret? id
  selectors : w'.selectors = w.selectors
  created : w'.created = (o.metadata.uid, scope) :: w.created
  uid : o.metadata.uid = w.clock + 1
  clock : w'.clock = w.clock + 1

theorem World.adds_placed (w : World) (client : Client) (scope : Scope) (obj : Unstructured)
    (hfresh : w.object? (obj.idOn client) = none) :
    w.Adds client scope (w.placed obj)
      (((w.put client (w.placed obj)).tick).record (w.clock + 1) scope) where
  fresh := hfresh
  objects id := by simp
  secrets id := by simp
  selectors := rfl
  created := rfl
  uid := rfl
  clock := rfl

/-- An object has been rewritten, and nothing else has changed. -/
structure World.Rewrites (w : World) (id : ObjectId) (next o : Unstructured) (w' : World) :
    Prop where
  keeps : w.Keeps (some id) w'
  becomes : w'.Becomes id next o

theorem World.Rewrites.eq_of_object {id : ObjectId} {next o o' : Unstructured}
    (h : w.Rewrites id next o w') (ho : w'.object? id = some o') : o' = o := by
  rcases h.becomes.object with hobj | ⟨hgone, -⟩
  · exact Option.some.inj (ho.symm.trans hobj)
  · rw [hgone] at ho
    cases ho

theorem World.Rewrites.object_cases {id id' : ObjectId} {next o o' : Unstructured}
    (h : w.Rewrites id next o w') (ho : w'.object? id' = some o') :
    id' = id ∧ o' = o ∨ id' ≠ id ∧ w.object? id' = some o' := by
  by_cases hid : id' = id
  · subst hid
    exact .inl ⟨rfl, h.eq_of_object ho⟩
  · rw [h.keeps.objects id' fun heq => hid (Option.some.inj heq).symm] at ho
    exact .inr ⟨hid, ho⟩

theorem World.rewrites_store {client : Client} {cur next : Unstructured} {id : ObjectId}
    (hcur : w.object? id = some cur) (hclient : id.client = client)
    (hnext : next.idOn client = id) :
    w.Rewrites id next (w.store client cur next).1 (w.store client cur next).2 := by
  subst hclient
  have hid := World.idOn_of_object? hcur
  refine ⟨w.store_keeps hid hnext, ?_⟩
  have hbecomes : (w.store id.client cur next).2.Becomes (cur.idOn id.client) next
      (w.store id.client cur next).1 :=
    World.store_becomes (by rw [hid]; exact hcur) (hnext.trans hid.symm)
  rwa [hid] at hbecomes

variable {scope : Scope} {client : Client} {obj : Unstructured}

theorem World.Does.create {r : Except ApiError Unstructured}
    (h : World.Does S ⟨scope, .create client obj⟩ w r w') :
    (∃ e, r = .error e ∧ w' = w ∧
      (e = .alreadyExists → (w.object? (obj.idOn client)).isSome = true)) ∨
    ∃ o, r = .ok o ∧ o = w.placed { obj with
        content := S.initialContent client obj.typeMeta obj.content } ∧
      w.Adds client scope o w' := by
  rcases h with h | ⟨hr, rfl⟩
  · simp only [exec] at h
    rcases World.createObject_cases S w client scope
      obj with ⟨e, he, hex⟩ | ⟨hnone, o, w₁, ho, hplaced, rfl⟩
    · rw [he] at h
      cases h
      exact .inl ⟨e, rfl, rfl, hex⟩
    · rw [ho] at h
      cases h
      subst hplaced
      exact .inr ⟨_, rfl, rfl, w.adds_placed client scope _ hnone⟩
  · cases hr
    exact .inl ⟨.other, rfl, rfl, fun h => by cases h⟩

theorem World.Does.update {r : Except ApiError Unstructured}
    (h : World.Does S ⟨scope, .update client obj⟩ w r w') :
    (∃ e, r = .error e ∧ w' = w) ∨
    ∃ cur o, w.object? (obj.idOn client) = some cur ∧ r = .ok o ∧
      obj.metadata.resourceVersion = cur.metadata.resourceVersion ∧
      obj.metadata.uid = cur.metadata.uid ∧
      w.Rewrites (obj.idOn client) (S.settle client cur obj) o w' := by
  rcases h with h | ⟨hr, rfl⟩
  · simp only [exec] at h
    rcases World.updateObject_cases S w client obj with ⟨e, he⟩ | ⟨cur, hcur, hrv, huid, -, ho⟩
    · rw [he] at h
      cases h
      exact .inl ⟨e, rfl, rfl⟩
    · rw [ho] at h
      cases h
      exact .inr ⟨cur, _, hcur, rfl, hrv, huid, World.rewrites_store hcur rfl rfl⟩
  · cases hr
    exact .inl ⟨.other, rfl, rfl⟩

theorem World.Does.updateStatus {r : Except ApiError Unstructured}
    (h : World.Does S ⟨scope, .updateStatus client obj⟩ w r w') :
    (∃ e, r = .error e ∧ w' = w) ∨
    ∃ cur o, w.object? (obj.idOn client) = some cur ∧ r = .ok o ∧
      S.hasStatus client cur.typeMeta = true ∧ obj.metadata.uid = cur.metadata.uid ∧
      w.Rewrites (obj.idOn client)
        { cur with content := cur.content.setStatus (obj.content.field "status") } o w' := by
  rcases h with h | ⟨hr, rfl⟩
  · simp only [exec] at h
    rcases World.updateObjectStatus_cases S w client obj with
      ⟨e, he⟩ | ⟨cur, next, hcur, hstatus, huid, rfl, ho⟩
    · rw [he] at h
      cases h
      exact .inl ⟨e, rfl, rfl⟩
    · rw [ho] at h
      cases h
      exact .inr ⟨cur, _, hcur, rfl, hstatus, huid,
        World.rewrites_store hcur rfl (World.idOn_of_object? hcur)⟩
  · cases hr
    exact .inl ⟨.other, rfl, rfl⟩

theorem World.Does.patch {id : ObjectId} {patch : Fields} {r : Except ApiError Unstructured}
    (h : World.Does S ⟨scope, .patch id patch⟩ w r w') :
    (∃ e, r = .error e ∧ w' = w) ∨
    ∃ cur next o, w.object? id = some cur ∧ r = .ok o ∧
      Unstructured.ofFields (cur.toFields.merge patch) = some next ∧ next.idOn id.client = id ∧
      Server.finalizersAllowed cur next = true ∧
      w.Rewrites id (S.settle id.client cur next) o w' := by
  rcases h with h | ⟨hr, rfl⟩
  · simp only [exec] at h
    rcases World.patchObject_cases S w id patch with
      ⟨e, he⟩ | ⟨cur, next, hcur, hnext, hid, -, hallowed, ho⟩
    · rw [he] at h
      cases h
      exact .inl ⟨e, rfl, rfl⟩
    · rw [ho] at h
      cases h
      exact .inr ⟨cur, next, _, hcur, rfl, hnext, hid, hallowed, World.rewrites_store hcur rfl hid⟩
  · cases hr
    exact .inl ⟨.other, rfl, rfl⟩

theorem World.Does.patch_create {D : MergeDiff} {a b : Unstructured} (hab : a.typeMeta = b.typeMeta)
    {id : ObjectId} {r : Except ApiError Unstructured}
    (h : World.Does S ⟨scope, .patch id (D.create a.toFields b.toFields)⟩ w r w') :
    (∃ e, r = .error e ∧ w' = w) ∨
    ∃ cur o, w.object? id = some cur ∧ r = .ok o ∧
      (Unstructured.patched D a b cur).idOn id.client = id ∧
      Server.finalizersAllowed cur (Unstructured.patched D a b cur) = true ∧
      w.Rewrites id (S.settle id.client cur (Unstructured.patched D a b cur)) o w' := by
  rcases h.patch with he | ⟨cur, next, o, hcur, hr, hnext, hid, hallowed, hrewrites⟩
  · exact .inl he
  · rw [Unstructured.ofFields_merge_create D hab, Option.some.injEq] at hnext
    subst hnext
    exact .inr ⟨cur, o, hcur, hr, hid, hallowed, hrewrites⟩

theorem World.Does.apply {fieldManager : String} {r : Except ApiError Unstructured}
    (h : World.Does S ⟨scope, .apply client obj fieldManager⟩ w r w') :
    (∃ e, r = .error e ∧ w' = w) ∨
    (∃ o, r = .ok o ∧ o = w.placed (World.appliedNew S client obj fieldManager) ∧
      w.Adds client scope o w') ∨
    ∃ cur o, w.object? (obj.idOn client) = some cur ∧ r = .ok o ∧
      w.Rewrites (obj.idOn client)
        (S.settle client cur (World.appliedOver S cur obj fieldManager)) o w' := by
  rcases h with h | ⟨hr, rfl⟩
  · simp only [exec] at h
    rcases World.applyObject_cases S w client scope obj fieldManager with
      he | ⟨hnone, o, w₁, ho, hplaced, rfl⟩ | ⟨cur, next, hcur, rfl, ho⟩
    · rw [he] at h
      cases h
      exact .inl ⟨_, rfl, rfl⟩
    · rw [ho] at h
      cases h
      subst hplaced
      exact .inr (.inl ⟨_, rfl, rfl, w.adds_placed client scope _ hnone⟩)
    · rw [ho] at h
      cases h
      exact .inr (.inr ⟨cur, _, hcur, rfl,
        World.rewrites_store hcur rfl (World.idOn_of_object? hcur)⟩)
  · cases hr
    exact .inl ⟨.other, rfl, rfl⟩

/-- The object at `id` is gone, or still there as it was but in deletion. -/
def World.Dying (w : World) (id : ObjectId) (cur : Unstructured) : Prop :=
  (cur.metadata.finalizers = [] ∧ w.object? id = none) ∨
  ∃ o finalizers, w.object? id = some o ∧ cur.metadata.finalizers ⊆ finalizers ∧
    o.metadata.deletionTimestamp.isSome = true ∧ ∃ time rv,
      o = { cur with metadata := { cur.metadata with
        finalizers := finalizers, deletionTimestamp := time, resourceVersion := rv } }

theorem World.Dying.before {id id' : ObjectId} {cur o : Unstructured} (h : w'.Dying id cur)
    (hkeeps : w.Keeps (some id) w') (hcur : w.object? id = some cur)
    (ho : w'.object? id' = some o) :
    ∃ o₀ finalizers time rv, w.object? id' = some o₀ ∧
      o = { o₀ with metadata := { o₀.metadata with
        finalizers := finalizers, deletionTimestamp := time, resourceVersion := rv } } := by
  by_cases hid : id = id'
  · subst hid
    rcases h with ⟨-, hgone⟩ | ⟨o', finalizers, ho', -, -, time, rv, rfl⟩
    · rw [ho] at hgone
      cases hgone
    · cases ho.symm.trans ho'
      exact ⟨cur, finalizers, time, rv, hcur, rfl⟩
  · rw [hkeeps.objects id' fun heq => hid (Option.some.inj heq)] at ho
    exact ⟨o, _, _, _, ho, rfl⟩

theorem World.Does.delete {id : ObjectId} {policy : DeletionPropagation} {r : Except ApiError Unit}
    (h : World.Does S ⟨scope, .delete id policy⟩ w r w') :
    (∃ e, r = .error e ∧ w' = w ∧ (e = .notFound → w.object? id = none)) ∨
    ∃ cur, w.object? id = some cur ∧ r = .ok () ∧ w.Keeps (some id) w' ∧ w'.Dying id cur := by
  rcases h with h | ⟨hr, rfl⟩
  · simp only [exec] at h
    have hfound : w.deleteObject id policy = (.error .notFound, w) → w.object? id = none := by
      intro he
      unfold World.deleteObject at he
      split at he
      · assumption
      · split at he
        · cases he
        · dsimp only at he
          split at he <;> cases he
    rcases World.deleteObject_cases w id policy with
      he | ⟨cur, hcur, ⟨hdel, ho⟩ | ⟨hnone, hfin, ho⟩ | ⟨hnone, fin, hsub, ho⟩⟩
    · have hgone := hfound he
      rw [he] at h
      cases h
      exact .inl ⟨_, rfl, rfl, fun _ => hgone⟩
    · rw [ho] at h
      cases h
      exact .inr
        ⟨cur, hcur, rfl, .refl _ _, .inr ⟨cur, _, hcur, List.Subset.refl _, hdel, _, _, rfl⟩⟩
    · rw [ho] at h
      cases h
      refine .inr ⟨cur, hcur, rfl, ⟨fun id' hid => ?_, fun _ => rfl, rfl, rfl, Nat.le_refl _⟩,
        .inl ⟨hfin, by simp⟩⟩
      rw [World.object?_remove]
      exact if_neg fun heq => hid (congrArg some heq.symm)
    · rw [ho] at h
      cases h
      have hid := World.idOn_of_object? hcur
      refine .inr ⟨cur, hcur, rfl, ⟨fun id' hid' => ?_, fun _ => rfl, rfl, rfl, Nat.le_succ _⟩,
        .inr ⟨_, fin, ?_, hsub, ?_, some (w.clock + 1), w.clock + 1, rfl⟩⟩
      · rw [World.object?_write]
        exact if_neg fun h => hid' (by rw [h]; exact congrArg some hid.symm)
      · rw [World.object?_write]
        exact if_pos hid.symm
      · rfl
  · cases hr
    exact .inl ⟨.other, rfl, rfl, fun h => by cases h⟩

theorem World.Does.createSecret {id : SecretId} {secret : StateSecret} {r : Except ApiError Unit}
    (h : World.Does S ⟨scope, .createSecret id secret⟩ w r w') :
    (∃ e, r = .error e ∧ w' = w) ∨
    w.secret? id = none ∧ r = .ok () ∧
      w' = (w.putSecret id { secret with resourceVersion := w.clock + 1 }).tick := by
  rcases h with h | ⟨hr, rfl⟩
  · simp only [exec, World.createStateSecret] at h
    split at h
    · cases h
      exact .inl ⟨_, rfl, rfl⟩
    · next hnone =>
      cases h
      exact .inr ⟨by simpa using hnone, rfl, rfl⟩
  · cases hr
    exact .inl ⟨.other, rfl, rfl⟩

theorem World.Does.updateSecret {id : SecretId} {secret : StateSecret} {r : Except ApiError Unit}
    (h : World.Does S ⟨scope, .updateSecret id secret⟩ w r w') :
    (∃ e, r = .error e ∧ w' = w) ∨
    r = .ok () ∧ w' = (w.putSecret id { secret with resourceVersion := w.clock + 1 }).tick := by
  rcases h with h | ⟨hr, rfl⟩
  · simp only [exec, World.updateStateSecret] at h
    split at h
    · cases h
      exact .inl ⟨_, rfl, rfl⟩
    · split at h
      · cases h
        exact .inl ⟨_, rfl, rfl⟩
      · cases h
        exact .inr ⟨rfl, rfl⟩
  · cases hr
    exact .inl ⟨.other, rfl, rfl⟩

theorem World.Does.read {c : Call} {r : c.verb.Resp} (hc : c.failure = none)
    (h : World.Does S c w r w') :
    r = (exec S c w).1 ∧ ∃ selectors, w' = { w with selectors := selectors } := by
  rcases h with h | ⟨hr, -⟩
  · obtain ⟨selectors, hsel⟩ := exec_of_failure_eq_none (S := S) hc w
    rw [h] at hsel ⊢
    exact ⟨rfl, selectors, hsel⟩
  · rw [hc] at hr
    cases hr

theorem World.Does.list {typeMeta : TypeMeta} {ns : String} {selector : Selector} {limit : Nat}
    {live : Bool} {r : Except ApiError (List Unstructured)}
    (h : World.Does S ⟨scope, .list client typeMeta ns selector limit live⟩ w r w') :
    r = .ok (w.listObjects client typeMeta ns selector limit) ∧ w' = w := by
  rcases h with h | ⟨hr, -⟩
  · cases h
    exact ⟨rfl, rfl⟩
  · cases hr

theorem World.Does.get {id : ObjectId} {live : Bool} {r : Except ApiError Unstructured}
    (h : World.Does S ⟨scope, .get id live⟩ w r w') :
    r = (w.object? id).elim (.error .notFound) .ok ∧ w' = w := by
  rcases h with h | ⟨hr, -⟩
  · cases h
    exact ⟨rfl, rfl⟩
  · cases hr

/-- What a call leaves alone: the objects and the Secrets that it does not write, and the UIDs and
the record of created objects unless it adds an object. -/
structure World.Frames (w : World) (c : Call) (w' : World) : Prop where
  objects : ∀ id, c.verb.target ≠ some id → w'.object? id = w.object? id
  secrets : ∀ id, c.verb.secretTarget ≠ some id → w'.secret? id = w.secret? id
  created : w'.created = w.created ∧ (∀ id o, w'.object? id = some o →
      ∃ o₀, w.object? id = some o₀ ∧ o₀.metadata.uid = o.metadata.uid) ∨
    ∃ client o, c.verb.target = some (o.idOn client) ∧ w.Adds client c.scope o w'
  clock : w.clock ≤ w'.clock

theorem World.Frames.refl (w : World) (c : Call) : w.Frames c w :=
  ⟨fun _ _ => rfl, fun _ _ => rfl, .inl ⟨rfl, fun _ o h => ⟨o, h, rfl⟩⟩, Nat.le_refl _⟩

theorem World.Keeps.frames {c : Call} {id : ObjectId} (h : w.Keeps (some id) w')
    (hid : c.verb.target = some id) (huid : ∀ o, w'.object? id = some o →
      ∃ o₀, w.object? id = some o₀ ∧ o₀.metadata.uid = o.metadata.uid) : w.Frames c w' := by
  refine ⟨fun id' hid' => h.objects id' (hid ▸ hid'), fun id' _ => h.secrets id',
    .inl ⟨h.created, fun id' o ho => ?_⟩, h.clock⟩
  by_cases heq : id = id'
  · subst heq
    exact huid o ho
  · exact ⟨o, (h.objects id' fun h => heq (Option.some.inj h)) ▸ ho, rfl⟩

theorem World.Rewrites.frames {c : Call} {id : ObjectId} {cur next o : Unstructured}
    (h : w.Rewrites id next o w') (hcur : w.object? id = some cur)
    (huid : next.metadata.uid = cur.metadata.uid) (hid : c.verb.target = some id) :
    w.Frames c w' := by
  refine h.keeps.frames hid fun o' ho => ⟨cur, hcur, ?_⟩
  obtain ⟨rv, hmeta⟩ := h.becomes.metadata
  obtain rfl := h.eq_of_object ho
  rw [hmeta]
  exact huid.symm

theorem World.Adds.frames {c : Call} {client : Client} {o : Unstructured}
    (h : w.Adds client c.scope o w') (hid : c.verb.target = some (o.idOn client)) :
    w.Frames c w' := by
  refine ⟨fun id hne => ?_, fun id _ => h.secrets id, .inr ⟨client, o, hid, h⟩,
    h.clock ▸ Nat.le_succ _⟩
  rw [h.objects]
  exact if_neg fun heq => hne (hid.trans (congrArg some heq.symm))

theorem World.putSecret_frames (w : World) {c : Call} {id : SecretId} (secret : StateSecret)
    (hid : c.verb.secretTarget = some id) : w.Frames c (w.putSecret id secret).tick := by
  refine ⟨fun _ _ => rfl, fun id' hne => ?_, .inl ⟨rfl, fun _ o h => ⟨o, h, rfl⟩⟩, Nat.le_succ _⟩
  rw [secret?_tick, secret?_putSecret]
  exact if_neg fun heq => hne (hid.trans (congrArg some heq.symm))

theorem World.Does.frames {c : Call} {r : c.verb.Resp} (h : World.Does S c w r w') :
    w.Frames c w' := by
  obtain ⟨scope, verb⟩ := c
  cases verb with
  | create client obj =>
    rcases h.create with ⟨e, -, rfl, -⟩ | ⟨o, -, rfl, hadds⟩
    · exact .refl _ _
    · exact hadds.frames (by rfl)
  | update client obj =>
    rcases h.update with ⟨e, -, rfl⟩ | ⟨cur, o, hcur, -, -, -, hr⟩
    · exact .refl _ _
    · exact hr.frames hcur rfl rfl
  | updateStatus client obj =>
    rcases h.updateStatus with ⟨e, -, rfl⟩ | ⟨cur, o, hcur, -, -, -, hr⟩
    · exact .refl _ _
    · exact hr.frames hcur rfl rfl
  | patch id patch =>
    rcases h.patch with ⟨e, -, rfl⟩ | ⟨cur, next, o, hcur, -, -, -, -, hr⟩
    · exact .refl _ _
    · exact hr.frames hcur rfl rfl
  | apply client obj fieldManager =>
    rcases h.apply with ⟨e, -, rfl⟩ | ⟨o, -, rfl, hadds⟩ | ⟨cur, o, hcur, -, hr⟩
    · exact .refl _ _
    · exact hadds.frames (by rfl)
    · exact hr.frames hcur rfl rfl
  | delete id policy =>
    rcases h.delete with ⟨e, -, rfl, -⟩ | ⟨cur, hcur, -, hkeeps, hdying⟩
    · exact .refl _ _
    · refine hkeeps.frames rfl fun o ho => ?_
      obtain ⟨o₀, fin, time, rv, hold, rfl⟩ := hdying.before hkeeps hcur ho
      exact ⟨o₀, hold, rfl⟩
  | createSecret id secret =>
    rcases h.createSecret with ⟨e, -, rfl⟩ | ⟨-, -, rfl⟩
    · exact .refl _ _
    · exact w.putSecret_frames _ rfl
  | updateSecret id secret =>
    rcases h.updateSecret with ⟨e, -, rfl⟩ | ⟨-, rfl⟩
    · exact .refl _ _
    · exact w.putSecret_frames _ rfl
  | _ =>
    obtain ⟨-, selectors, rfl⟩ := h.read rfl
    exact ⟨fun _ _ => rfl, fun _ _ => rfl, .inl ⟨rfl, fun _ o h => ⟨o, h, rfl⟩⟩, Nat.le_refl _⟩

theorem Call.target_of_failure_eq_none {c : Call} (hc : c.failure = none) :
    c.verb.target = none ∧ c.verb.secretTarget = none := by
  obtain ⟨scope, verb⟩ := c
  cases verb <;> first | exact ⟨rfl, rfl⟩ | cases hc

theorem Call.target_of_secretTarget {c : Call} {id : SecretId}
    (hc : c.verb.secretTarget = some id) :
    c.verb.target = none := by
  obtain ⟨scope, verb⟩ := c
  cases verb <;> first | rfl | cases hc

/-- The UIDs up to the clock are the ones that have been given out. -/
structure World.UidsUsed (w : World) : Prop where
  objects : ∀ id o, w.object? id = some o → o.metadata.uid ≤ w.clock
  created : ∀ e ∈ w.created, e.1 ≤ w.clock

theorem World.Adds.notUsed {o : Unstructured} (h : w.Adds client scope o w') (hw : w.UidsUsed)
    {scope' : Scope} : (o.metadata.uid, scope') ∉ w.created := by
  intro hmem
  have hle := hw.created _ hmem
  rw [h.uid] at hle
  exact Nat.not_succ_le_self _ hle

theorem World.Frames.uidsUsed {c : Call} (h : w.Frames c w') (hw : w.UidsUsed) : w'.UidsUsed := by
  rcases h.created with ⟨hcreated, huids⟩ | ⟨client, o, -, hadds⟩
  · refine ⟨fun id o ho => ?_, fun e he => (hw.created e (hcreated ▸ he)).trans h.clock⟩
    obtain ⟨o₀, ho₀, huid⟩ := huids id o ho
    exact huid ▸ (hw.objects id o₀ ho₀).trans h.clock
  · have hnew : o.metadata.uid ≤ w'.clock := by rw [hadds.uid, hadds.clock]
    refine ⟨fun id o' ho => ?_, fun e he => ?_⟩
    · rw [hadds.objects] at ho
      split at ho
      · cases ho
        exact hnew
      · exact (hw.objects id o' ho).trans h.clock
    · rw [hadds.created, List.mem_cons] at he
      rcases he with rfl | he
      · exact hnew
      · exact (hw.created e he).trans h.clock

end Frame

/-! ### Statuses -/

namespace World

variable {S : Server} {w w' : World} {id id' : ObjectId} {cur next o : Unstructured}
  {client : Client} {scope : Scope}

/-- The status of a stored object. -/
def status? (w : World) (id : ObjectId) : Option Doc :=
  (w.object? id).map fun o => o.content.field "status"

theorem Rewrites.stored (h : w.Rewrites id next o w')
    (hlive : next.metadata.deletionTimestamp = none) : w'.object? id = some o := by
  rcases h.becomes.object with hobj | ⟨-, hdying, -⟩
  · exact hobj
  · rw [hlive] at hdying
    cases hdying

theorem Rewrites.status?_setStatus {v : Doc}
    (h : w.Rewrites id { cur with content := cur.content.setStatus v } o w')
    (hlive : id' = id → cur.metadata.deletionTimestamp = none) :
    w'.status? id' = if id' = id then some v else w.status? id' := by
  unfold status?
  by_cases hid : id' = id
  · rw [if_pos hid, hid, h.stored (hlive hid), Option.map_some, h.becomes.content,
      Content.field_setStatus]
  · rw [if_neg hid, h.keeps.objects id' fun heq => hid (Option.some.inj heq).symm]

/-- A status update of an object that exists finds no status subresource only if there is none. -/
theorem updateObjectStatus_notFound {obj : Unstructured}
    (h : w.updateObjectStatus S client obj = (.error .notFound, w'))
    (hcur : w.object? (obj.idOn client) = some cur) : S.hasStatus client cur.typeMeta = false := by
  cases hstatus : S.hasStatus client cur.typeMeta with
  | false => rfl
  | true =>
    simp only [updateObjectStatus, hcur, hstatus, Bool.not_true, Bool.false_eq_true, if_false] at h
    split at h
    · cases h
    · split at h <;> cases h

theorem Adds.object?_of_some (h : w.Adds client scope o w') (hcur : w.object? id = some cur) :
    w'.object? id = some cur := by
  rw [h.objects, if_neg, hcur]
  rintro rfl
  rw [h.fresh] at hcur
  cases hcur

end World

/-- The object without its status, and without the version that counts the writes to it. -/
def Unstructured.withoutStatus (o : Unstructured) : Unstructured :=
  { o with metadata.resourceVersion := 0, content := o.content.without ["status"] }

theorem Content.without_setStatus (c : Content) (v : Doc) {keys : List String}
    (hstatus : "status" ∈ keys) : (c.setStatus v).without keys = c.without keys := by
  refine Content.ext_get? fun k _ => ?_
  simp only [Content.get?_without]
  split
  · rfl
  · next hk => exact Content.get?_setStatus c v fun heq => hk (heq ▸ hstatus)

namespace World

/-- At most statuses have changed: every object that is not in deletion is still there, no object is
new, and the Secrets are the same. -/
structure StatusOnly (w w' : World) : Prop where
  kept : ∀ id o, w.object? id = some o → o.metadata.deletionTimestamp = none →
    ∃ o', w'.object? id = some o' ∧ o'.withoutStatus = o.withoutStatus
  old : ∀ id o', w'.object? id = some o' →
    ∃ o, w.object? id = some o ∧ o'.withoutStatus = o.withoutStatus
  secrets : ∀ id, w'.secret? id = w.secret? id

namespace StatusOnly

variable {S : Server} {w w₁ w' : World} {scope : Scope} {client : Client} {obj : Unstructured}

theorem of_objects (hobjects : ∀ id, w'.object? id = w.object? id)
    (hsecrets : ∀ id, w'.secret? id = w.secret? id) : w.StatusOnly w' :=
  ⟨fun id o ho _ => ⟨o, (hobjects id).trans ho, rfl⟩,
    fun id o ho => ⟨o, (hobjects id).symm.trans ho, rfl⟩, hsecrets⟩

theorem refl (w : World) : w.StatusOnly w := of_objects (fun _ => rfl) fun _ => rfl

theorem trans (h : w.StatusOnly w₁) (h' : w₁.StatusOnly w') : w.StatusOnly w' where
  kept id o ho hlive := by
    obtain ⟨o₁, ho₁, heq₁⟩ := h.kept id o ho hlive
    have hlive₁ : o₁.metadata.deletionTimestamp = none := by
      have := congrArg (·.metadata.deletionTimestamp) heq₁
      exact this.trans hlive
    obtain ⟨o', ho', heq'⟩ := h'.kept id o₁ ho₁ hlive₁
    exact ⟨o', ho', heq'.trans heq₁⟩
  old id o' ho' := by
    obtain ⟨o₁, ho₁, heq'⟩ := h'.old id o' ho'
    obtain ⟨o, ho, heq₁⟩ := h.old id o₁ ho₁
    exact ⟨o, ho, heq'.trans heq₁⟩
  secrets id := (h'.secrets id).trans (h.secrets id)

theorem of_updateStatus {r : Except ApiError Unstructured}
    (h : World.Does S ⟨scope, .updateStatus client obj⟩ w r w') : w.StatusOnly w' := by
  rcases h.updateStatus with ⟨e, -, rfl⟩ | ⟨cur, o, hcur, -, -, -, hrew⟩
  · exact refl _
  · have hsame : o.withoutStatus = cur.withoutStatus := by
      obtain ⟨rv, rfl⟩ := hrew.becomes.version
      simp only [Unstructured.withoutStatus, Content.without_setStatus _ _
        (List.mem_singleton_self _)]
    refine ⟨fun id x hx hlive => ?_, fun id x hx => ?_, hrew.keeps.secrets⟩
    · by_cases hid : obj.idOn client = id
      · subst hid
        cases hcur.symm.trans hx
        exact ⟨o, hrew.stored hlive, hsame⟩
      · have hother := hrew.keeps.objects id fun heq => hid (Option.some.inj heq)
        exact ⟨x, hother.trans hx, rfl⟩
    · rcases hrew.object_cases hx with ⟨rfl, rfl⟩ | ⟨-, hold⟩
      · exact ⟨cur, hcur, hsame⟩
      · exact ⟨x, hold, rfl⟩

end StatusOnly

end World

/-! ### Lists -/

namespace World

variable (w : World) (client : Client) (typeMeta : TypeMeta) (ns : String) (selector : Selector)

/-- An object that a list can return. -/
structure Listed (o : Unstructured) : Prop where
  object : w.object? (o.idOn client) = some o
  typeMeta : o.typeMeta = typeMeta
  ns : ns = "" ∨ o.metadata.ns = ns
  selector : selector o.metadata.labels = true

theorem mem_listed (o : Unstructured) :
    o ∈ (w.objects.entries.filter fun e => e.1.client = client ∧ e.1.typeMeta = typeMeta ∧
      (ns = "" ∨ e.1.ns = ns) ∧ selector e.2.metadata.labels = true).map Sigma.snd ↔
    w.Listed client typeMeta ns selector o := by
  simp only [List.mem_map, List.mem_filter, decide_eq_true_eq]
  constructor
  · rintro ⟨⟨id, o⟩, ⟨hmem, rfl, rfl, hns, hsel⟩, rfl⟩
    have hobj : w.object? id = some o := AList.mem_lookup_iff.mpr hmem
    have hid := idOn_of_object? hobj
    exact ⟨by rw [hid]; exact hobj, congrArg ObjectId.typeMeta hid,
      hns.imp_right (congrArg ObjectId.ns hid).trans, hsel⟩
  · rintro ⟨hobj, rfl, hns, hsel⟩
    exact ⟨⟨o.idOn client, o⟩, ⟨AList.mem_lookup_iff.mp hobj, rfl, rfl, hns, hsel⟩, rfl⟩

variable {w client typeMeta ns selector}

theorem listed_of_mem {limit : Nat} {o : Unstructured}
    (h : o ∈ w.listObjects client typeMeta ns selector limit) :
    w.Listed client typeMeta ns selector o := by
  unfold listObjects at h
  dsimp only at h
  split at h
  · exact (w.mem_listed client typeMeta ns selector o).mp h
  · exact (w.mem_listed client typeMeta ns selector o).mp (List.mem_of_mem_take h)

theorem mem_of_listed {limit : Nat} {o : Unstructured}
    (hlimit : limit = 0 ∨ (w.listObjects client typeMeta ns selector limit).length < limit)
    (h : w.Listed client typeMeta ns selector o) :
    o ∈ w.listObjects client typeMeta ns selector limit := by
  rw [← mem_listed] at h
  unfold listObjects at hlimit ⊢
  dsimp only at hlimit ⊢
  split
  · exact h
  · next hne =>
    rw [if_neg hne, List.length_take] at hlimit
    rwa [List.take_of_length_le (by omega)]

theorem listObjects_put {client' : Client} {o : Unstructured} (hclient : client' ≠ client)
    (limit : Nat) : (w.put client' o).listObjects client typeMeta ns selector limit =
      w.listObjects client typeMeta ns selector limit := by
  have hkerase : ∀ (p : (Σ _ : ObjectId, Unstructured) → Bool) (id : ObjectId),
      (∀ o, p ⟨id, o⟩ = false) → ∀ entries, (List.kerase id entries).filter p =
      entries.filter p := by
    intro p id hp entries
    induction entries with
    | nil => rfl
    | cons e rest ih =>
      by_cases hid : id = e.1
      · rw [List.kerase_cons_eq hid, List.filter_cons_of_neg]
        subst hid
        simp [hp e.2]
      · rw [List.kerase_cons_ne hid, List.filter_cons, List.filter_cons, ih]
  unfold listObjects
  dsimp only
  rw [show (w.put client' o).objects.entries = ⟨o.idOn client', o⟩ ::
    List.kerase (o.idOn client') w.objects.entries from rfl, List.filter_cons_of_neg, hkerase]
  · intro o'
    simp [Unstructured.idOn, hclient]
  · simp [Unstructured.idOn, hclient]

end World

/-! ### Responses -/

/-- The object in a response is the one that the request was for, a listed object of the type that
was listed. -/
def Verb.Answers : (verb : Verb) → verb.Resp → Prop
  | .get id _, r | .patch id _, r => ∀ o, r = .ok o → o.idOn id.client = id
  | .update client obj, r => ∀ o, r = .ok o → o.idOn client = obj.idOn client
  | .list _ typeMeta .., r => ∀ items, r = .ok items → ∀ o ∈ items, o.typeMeta = typeMeta
  | _, _ => True

theorem World.Rewrites.idOn {w w' : World} {id : ObjectId} {next o : Unstructured}
    (h : w.Rewrites id next o w') (client : Client) : o.idOn client = next.idOn client := by
  obtain ⟨rv, rfl⟩ := h.becomes.version
  rfl

theorem World.Does.answers {S : Server} {w w' : World} {c : Call} {r : c.verb.Resp}
    (h : World.Does S c w r w') : c.verb.Answers r := by
  obtain ⟨scope, verb⟩ := c
  cases verb with
  | get id live =>
    intro o hr
    obtain ⟨rfl, -⟩ := h.get
    cases hobj : w.object? id with
    | none => rw [hobj] at hr; cases hr
    | some o' =>
      rw [hobj] at hr
      cases hr
      exact World.idOn_of_object? hobj
  | list client typeMeta ns selector limit live =>
    intro items hr o ho
    obtain ⟨rfl, -⟩ := h.list
    cases hr
    exact (World.listed_of_mem ho).typeMeta
  | patch id patch =>
    intro o hr
    rcases h.patch with ⟨e, rfl, -⟩ | ⟨cur, next, o', -, rfl, -, hid, -, hrewrites⟩
    · cases hr
    · cases hr
      exact (hrewrites.idOn _).trans hid
  | update client obj =>
    intro o hr
    rcases h.update with ⟨e, rfl, -⟩ | ⟨cur, o', -, rfl, -, -, hrewrites⟩
    · cases hr
    · cases hr
      exact hrewrites.idOn _
  | _ => trivial

/-! ### Objects in deletion -/

namespace World

variable {S : Server} {w w' : World} {client : Client} {scope : Scope} {cur next o : Unstructured}
  {id : ObjectId}

/-- Every object in deletion has a finalizer left. -/
def Held (w : World) : Prop :=
  ∀ id o, w.object? id = some o → o.metadata.deletionTimestamp.isSome = true →
    o.metadata.finalizers ≠ []

theorem Held.put (hw : w.Held) (ho : o.metadata.deletionTimestamp.isSome = true →
    o.metadata.finalizers ≠ []) : (w.put client o).Held := by
  intro id x hx
  rw [object?_put] at hx
  split at hx
  · cases hx
    exact ho
  · exact hw id x hx

theorem Held.store (hw : w.Held) (client : Client) (cur next : Unstructured) :
    (w.store client cur next).2.Held := by
  unfold World.store
  split
  · exact hw
  · split
    · intro id x hx
      rw [object?_remove] at hx
      split at hx
      · cases hx
      · exact hw id x hx
    · next hkept => exact Held.put hw fun hdeleting hnone => hkept ⟨hdeleting, hnone⟩

theorem Held.exec (hw : w.Held) (c : Call) : (exec S c w).2.Held := by
  obtain ⟨scope, verb⟩ := c
  cases verb with
  | create client obj =>
    rcases createObject_cases S w client scope obj with ⟨e, he, -⟩ | ⟨-, o, w', ho, rfl, rfl⟩
    · simp only [Kube.exec, he]
      exact hw
    · simp only [Kube.exec, ho]
      exact Held.put hw fun hdeleting => by cases hdeleting
  | update client obj =>
    rcases updateObject_cases S w client obj with ⟨e, he⟩ | ⟨cur, -, -, -, -, ho⟩
    · simp only [Kube.exec, he]
      exact hw
    · simp only [Kube.exec, ho]
      exact hw.store _ _ _
  | updateStatus client obj =>
    rcases updateObjectStatus_cases S w client obj with ⟨e, he⟩ | ⟨cur, next, -, -, -, -, ho⟩
    · simp only [Kube.exec, he]
      exact hw
    · simp only [Kube.exec, ho]
      exact hw.store _ _ _
  | patch id patch =>
    rcases patchObject_cases S w id patch with ⟨e, he⟩ | ⟨cur, next, -, -, -, -, -, ho⟩
    · simp only [Kube.exec, he]
      exact hw
    · simp only [Kube.exec, ho]
      exact hw.store _ _ _
  | apply client obj fieldManager =>
    rcases applyObject_cases S w client scope obj fieldManager with
      he | ⟨-, o, w', ho, rfl, rfl⟩ | ⟨cur, next, -, -, ho⟩
    · simp only [Kube.exec, he]
      exact hw
    · simp only [Kube.exec, ho]
      exact Held.put hw fun hdeleting => by cases hdeleting
    · simp only [Kube.exec, ho]
      exact hw.store _ _ _
  | delete id policy =>
    simp only [Kube.exec, deleteObject]
    split
    · exact hw
    · split
      · exact hw
      · split
        · intro id' x hx
          rw [object?_remove] at hx
          split at hx
          · cases hx
          · exact hw id' x hx
        · next hfinalizers => exact Held.put hw fun _ => hfinalizers
  | createSecret id secret =>
    simp only [Kube.exec, createStateSecret]
    split
    · exact hw
    · exact hw
  | updateSecret id secret =>
    simp only [Kube.exec, updateStateSecret]
    split
    · exact hw
    · split
      · exact hw
      · exact hw
  | _ => exact hw

/-- All objects are still there. -/
def Survive (w w' : World) : Prop := ∀ id, (w.object? id).isSome = true →
    (w'.object? id).isSome = true

theorem Survive.refl (w : World) : w.Survive w := fun _ h => h

theorem Survive.trans {w₁ : World} (h : w.Survive w₁) (h' : w₁.Survive w') : w.Survive w' :=
  fun id hid => h' id (h id hid)

section Rewritten

variable (h : w.Rewrites id next o w')
  (hcur : cur.metadata.deletionTimestamp.isSome = true → cur.metadata.finalizers ≠ [])
  (hdeletion : next.metadata.deletionTimestamp = cur.metadata.deletionTimestamp)
  (hfinalizers : next.metadata.finalizers = cur.metadata.finalizers)

include h hcur hdeletion hfinalizers

theorem Rewrites.isSome : (w'.object? id).isSome = true := by
  rcases h.becomes.object with hobj | ⟨-, hdying, hnone⟩
  · rw [hobj]
    rfl
  · exact absurd (hfinalizers.symm.trans hnone) (hcur (hdeletion ▸ hdying))

theorem Rewrites.survive : w.Survive w' := by
  intro id' hid'
  by_cases hsame : id = id'
  · subst hsame
    exact h.isSome hcur hdeletion hfinalizers
  · rwa [h.keeps.objects id' fun heq => hsame (Option.some.inj heq)]

end Rewritten

theorem Adds.survive (h : w.Adds client scope o w') : w.Survive w' := by
  intro id hid
  rw [h.objects]
  split
  · rfl
  · exact hid

theorem survive_updateStatus {obj : Unstructured} {r : Except ApiError Unstructured}
    (h : World.Does S ⟨scope, .updateStatus client obj⟩ w r w') (hw : w.Held) : w.Survive w' := by
  rcases h.updateStatus with ⟨e, -, rfl⟩ | ⟨cur, o, hcur, -, -, -, hrew⟩
  · exact .refl _
  · exact hrew.survive (hw _ cur hcur) rfl rfl

end World

end Kube
