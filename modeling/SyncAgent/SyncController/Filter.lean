import SyncAgent.SyncController.Reconciler

/-! The filter of a PublishedResource in the reconciler of a sync controller.  The Namespace of an
object is read if the filter has a selector for it and the object is in a namespace, but it is
looked at whenever the filter has that selector. -/

namespace SyncController

open Kube Sync

namespace Reconciler

variable (R : Reconciler)

/-- The filter step of `Reconcile`: whether the object is processed. -/
def filterStep (request : Request) (remoteObj : Unstructured) : SyncM Bool := do
  let namespaceObj ← (match R.namespaceId request remoteObj with
    | some id => do
      let ns ← wrap "failed to retrieve remote object's namespace"
        (Sync.get (scope request) id false)
      return some ns
    | none => return none)
  wrapE "failed to apply filtering rules" (R.objectMatchesFilter remoteObj namespaceObj)

/-! ### What the filter decides -/

/-- The labels match the selector, if there is one. -/
def Selects (selector : Option LabelSelector) (labels : StringMap) : Prop :=
  ∀ sel, selector = some sel → ∃ s, R.libs.labelSelectorAsSelector sel = .ok s ∧ s labels = true

/-- The selectors of the filter are valid. -/
def ValidFilter : Prop :=
  ∀ filter, R.filter = some filter → ∀ sel, filter.resource = some sel ∨ filter.ns = some sel →
    ∃ s, R.libs.labelSelectorAsSelector sel = .ok s

def resourceSelector : Option LabelSelector := R.filter.bind (·.resource)

def namespaceSelector : Option LabelSelector := R.filter.bind (·.ns)

/-- The labels of an object that is not there were read. -/
def nilDereference : Error := .new "invalid memory address or nil pointer dereference"

variable {R}

theorem ValidFilter.resource (h : R.ValidFilter) {sel : LabelSelector}
    (hsel : R.resourceSelector = some sel) : ∃ s, R.libs.labelSelectorAsSelector sel = .ok s := by
  obtain ⟨filter, hfilter, hresource⟩ := Option.bind_eq_some_iff.mp hsel
  exact h filter hfilter sel (.inl hresource)

theorem ValidFilter.namespaceObj (h : R.ValidFilter) {sel : LabelSelector}
    (hsel : R.namespaceSelector = some sel) : ∃ s, R.libs.labelSelectorAsSelector sel = .ok s := by
  obtain ⟨filter, hfilter, hns⟩ := Option.bind_eq_some_iff.mp hsel
  exact h filter hfilter sel (.inr hns)

theorem matchesFilter_some {selector : Option LabelSelector}
    (hvalid : ∀ sel, selector = some sel → ∃ s, R.libs.labelSelectorAsSelector sel = .ok s)
    (obj : Unstructured) : ∃ b, R.matchesFilter (some obj) selector = .ok b ∧
      (b = true ↔ R.Selects selector obj.metadata.labels) := by
  unfold matchesFilter Selects
  cases selector with
  | none => exact ⟨true, rfl, by simp⟩
  | some sel =>
    obtain ⟨s, hs⟩ := hvalid sel rfl
    exact ⟨s obj.metadata.labels, by simp only [hs], by simp [hs]⟩

theorem matchesFilter_none {selector : Option LabelSelector}
    (hvalid : ∀ sel, selector = some sel → ∃ s, R.libs.labelSelectorAsSelector sel = .ok s) :
    R.matchesFilter none selector =
      if selector.isSome then .error nilDereference else .ok true := by
  unfold matchesFilter
  cases selector with
  | none => rfl
  | some sel =>
    obtain ⟨s, hs⟩ := hvalid sel rfl
    simp only [hs]
    rfl

/-- The filter looks at the object first, and at the Namespace only if the object matches. -/
theorem objectMatchesFilter_cases (hvalid : R.ValidFilter) (r : Unstructured)
    (namespaceObj : Option Unstructured) :
    (¬ R.Selects R.resourceSelector r.metadata.labels ∧
      R.objectMatchesFilter r namespaceObj = .ok false) ∨
    (R.Selects R.resourceSelector r.metadata.labels ∧
      R.objectMatchesFilter r namespaceObj = R.matchesFilter namespaceObj R.namespaceSelector) := by
  cases hfilter : R.filter with
  | none =>
    refine .inr ⟨?_, ?_⟩
    · simp [Selects, resourceSelector, hfilter]
    · simp [objectMatchesFilter, matchesFilter, namespaceSelector, hfilter]
  | some filter =>
    have hresource : R.resourceSelector = filter.resource := by simp [resourceSelector, hfilter]
    have hns : R.namespaceSelector = filter.ns := by simp [namespaceSelector, hfilter]
    obtain ⟨b, hb, hiff⟩ :=
      matchesFilter_some (fun sel hsel => hvalid.resource (hresource.trans hsel)) r
    rw [hresource, hns, ← hiff]
    cases b with
    | false => exact .inl ⟨by simp, by simp [objectMatchesFilter, hfilter, hb]⟩
    | true => exact .inr ⟨rfl, by simp [objectMatchesFilter, hfilter, hb]⟩

theorem namespaceId_eq_some (request : Request) {r : Unstructured}
    (hns : R.namespaceSelector.isSome = true) (hne : r.metadata.ns ≠ "") :
    R.namespaceId request r = some ⟨.remoteClient request.clusterName,
      ObjectSyncer.namespaceType, "",
      r.metadata.ns⟩ := if_pos ⟨hns, hne⟩

theorem namespaceId_eq_none (request : Request) {r : Unstructured}
    (h : R.namespaceSelector = none ∨ r.metadata.ns = "") : R.namespaceId request r = none := by
  refine if_neg ?_
  rintro ⟨hns, hne⟩
  rcases h with hnone | hempty
  · rw [show R.filter.bind (·.ns) = none from hnone] at hns
    cases hns
  · exact hne hempty

section Eval

variable {σ : Type} {answer : (c : api.Call) → σ → api.Resp c × σ} {s : σ} {request : Request}
  {r : Unstructured}

/-- The result of the filter step when calls are answered by `answer`. -/
def filterResult (R : Reconciler) (answer : (c : api.Call) → σ → api.Resp c × σ) (s : σ)
    (request : Request) (r : Unstructured) : Except Error Bool :=
  (Fallible.eval answer (R.filterStep request r) s).1

/-- What the server answers when the object at `id` is read. -/
def got (answer : (c : api.Call) → σ → api.Resp c × σ) (s : σ) (request : Request) (id : ObjectId) :
    Except ApiError Unstructured :=
  (answer (⟨scope request, .get id false⟩ : Call) s).1

theorem filterResult_of_none (h : R.namespaceId request r = none) :
    R.filterResult answer s request r =
      (R.objectMatchesFilter r none).mapError (.wrapped "failed to apply filtering rules") := by
  unfold filterResult filterStep
  rw [Fallible.eval_bind, h]
  rfl

variable (answer s) in
theorem filterResult_of_some {id : ObjectId} (h : R.namespaceId request r = some id) :
    R.filterResult answer s request r = (match got answer s request id with
      | .error e => .error (.wrapped "failed to retrieve remote object's namespace" (.api e))
      | .ok o => (R.objectMatchesFilter r (some o)).mapError
          (.wrapped "failed to apply filtering rules")) := by
  unfold filterResult filterStep got
  rw [Fallible.eval_bind, h]
  simp only [Fallible.eval_bind, wrap, Fallible.eval_mapError, Sync.get, Fallible.eval_sendE]
  cases (answer (⟨scope request, .get id false⟩ : Call) s).1 with
  | error e => rfl
  | ok o => rfl

variable (answer s) in
theorem filterResult_without (hvalid : R.ValidFilter) (h : R.namespaceId request r = none) :
    (¬ R.Selects R.resourceSelector r.metadata.labels ∧
      R.filterResult answer s request r = .ok false) ∨
    (R.Selects R.resourceSelector r.metadata.labels ∧
      R.filterResult answer s request r =
        if R.namespaceSelector.isSome then
          .error (.wrapped "failed to apply filtering rules" nilDereference)
        else .ok true) := by
  rw [filterResult_of_none h]
  rcases objectMatchesFilter_cases hvalid r none with ⟨hnot, heq⟩ | ⟨hsel, heq⟩
  · exact .inl ⟨hnot, by rw [heq]; rfl⟩
  · refine .inr ⟨hsel, ?_⟩
    rw [heq, matchesFilter_none fun sel => hvalid.namespaceObj]
    split <;> rfl

theorem filterResult_with (hvalid : R.ValidFilter) {id : ObjectId} {o : Unstructured}
    (h : R.namespaceId request r = some id) (hget : got answer s request id = .ok o) :
    ∃ b, R.filterResult answer s request r = .ok b ∧
      (b = true ↔ R.Selects R.resourceSelector r.metadata.labels ∧
        R.Selects R.namespaceSelector o.metadata.labels) := by
  rw [filterResult_of_some answer s h, hget]
  dsimp only
  rcases objectMatchesFilter_cases hvalid r (some o) with ⟨hnot, heq⟩ | ⟨hsel, heq⟩
  · exact ⟨false, by rw [heq]; rfl, by simp [hnot]⟩
  · obtain ⟨b, hb, hiff⟩ := matchesFilter_some (fun sel => hvalid.namespaceObj) o
    exact ⟨b, by rw [heq, hb]; rfl, by rw [hiff, and_iff_right hsel]⟩

/-- The filter step comes to a decision unless the Namespace cannot be read, and it includes a
namespaced object exactly if its labels and those of its Namespace match. -/
structure FilterTotal (R : Reconciler) (answer : (c : api.Call) → σ → api.Resp c × σ) (s : σ)
    (request : Request) (r : Unstructured) : Prop where
  decides : (∃ included, R.filterResult answer s request r = .ok included) ∨
    ∃ id e, R.namespaceId request r = some id ∧ got answer s request id = .error e ∧
      R.filterResult answer s request r =
        .error (.wrapped "failed to retrieve remote object's namespace" (.api e))
  includes : r.metadata.ns ≠ "" → (R.filterResult answer s request r = .ok true ↔
    R.Selects R.resourceSelector r.metadata.labels ∧
    ∀ sel, R.namespaceSelector = some sel → ∃ o, got answer s request ⟨.remoteClient
      request.clusterName, ObjectSyncer.namespaceType, "", r.metadata.ns⟩ = .ok o ∧
        R.Selects (some sel) o.metadata.labels)

/-- The filter step is total except on cluster-scoped objects that match the resource selector, or
all of them if there is none, when the filter has a namespace selector. -/
theorem filterTotal_iff (hvalid : R.ValidFilter) :
    R.FilterTotal answer s request r ↔
      (r.metadata.ns = "" → R.namespaceSelector.isSome = true →
        ¬ R.Selects R.resourceSelector r.metadata.labels) := by
  cases hsel : R.namespaceSelector with
  | none =>
    -- the Namespace is neither read nor looked at
    have hid : R.namespaceId request r = none := namespaceId_eq_none request (.inl hsel)
    refine iff_of_true ?_ (by simp)
    rcases filterResult_without answer s hvalid hid with ⟨hnot, heq⟩ | ⟨hres, heq⟩
    · exact ⟨.inl ⟨false, heq⟩, fun _ => by simp [heq, hnot]⟩
    · rw [hsel] at heq
      exact ⟨.inl ⟨true, heq⟩, fun _ => by simp [heq, hres, hsel]⟩
  | some sel =>
    have hsome : R.namespaceSelector.isSome = true := by rw [hsel]; rfl
    by_cases hempty : r.metadata.ns = ""
    · -- the Namespace is looked at if the object's labels match
      have hid : R.namespaceId request r = none := namespaceId_eq_none request (.inr hempty)
      rcases filterResult_without answer s hvalid hid with ⟨hnot, heq⟩ | ⟨hres, heq⟩
      · exact iff_of_true ⟨.inl ⟨false, heq⟩, fun hne => absurd hempty hne⟩ fun _ _ => hnot
      · refine iff_of_false ?_ fun h => h hempty rfl hres
        rw [hsome] at heq
        rintro ⟨⟨included, hok⟩ | ⟨id, e, hread, -⟩, -⟩
        · rw [heq] at hok
          cases hok
        · rw [hid] at hread
          cases hread
    · -- the Namespace is read first
      have hid := namespaceId_eq_some request hsome hempty
      refine iff_of_true ?_ fun h => absurd h hempty
      cases hget : got answer s request ⟨.remoteClient request.clusterName,
          ObjectSyncer.namespaceType, "", r.metadata.ns⟩ with
      | error e =>
        have heq := filterResult_of_some answer s hid
        rw [hget] at heq
        exact ⟨.inr ⟨_, e, hid, hget, heq⟩, fun _ => by simp [heq, hsel, hget]⟩
      | ok o =>
        obtain ⟨b, heq, hiff⟩ := filterResult_with hvalid hid hget
        refine ⟨.inl ⟨b, heq⟩, fun _ => ?_⟩
        rw [heq, Except.ok.injEq, hiff, hsel]
        simp [hget]

end Eval

/-- The reconciler of CronTabs in namespaces with the label `team=a`. -/
def namespaced : Reconciler :=
  { sample with filter := some { ns := some { matchLabels := SortedMap.insert ∅ "team" "a" } } }

theorem validFilter_namespaced : namespaced.ValidFilter := fun _ _ sel _ =>
  ⟨selectorFromSet sel.matchLabels, rfl⟩

/-- On a namespaced object, the filter step is total. -/
theorem filterTotal_crontab : namespaced.ValidFilter ∧
    namespaced.FilterTotal (exec .setting) World.empty
    ⟨"c1", "team-a", "daily"⟩ (crontab "team-a") :=
  ⟨validFilter_namespaced, (filterTotal_iff validFilter_namespaced).mpr fun h =>
    absurd h (by decide)⟩

/-- The selector for namespaces is applied to the missing Namespace of a cluster-scoped object. -/
theorem filter_dereferences_nil : namespaced.ValidFilter ∧
    namespaced.filterResult (exec .setting) World.empty ⟨"c1", "", "daily"⟩ (crontab "") =
      .error (.wrapped "failed to apply filtering rules" nilDereference) ∧
    ¬ namespaced.FilterTotal (exec .setting) World.empty ⟨"c1", "", "daily"⟩ (crontab "") := by
  have hresult : namespaced.filterResult (exec .setting) World.empty
    ⟨"c1", "", "daily"⟩ (crontab "") =
      .error (.wrapped "failed to apply filtering rules" nilDereference) := rfl
  refine ⟨validFilter_namespaced, hresult, ?_⟩
  rintro ⟨⟨included, hok⟩ | ⟨id, e, hread, -⟩, -⟩
  · rw [hresult] at hok
    cases hok
  · cases hread

end Reconciler

end SyncController
