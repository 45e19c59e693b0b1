import SyncAgent.SyncController.Watches

/-! Which of the watch rules of the related resources have an effect.  There is one watch for each
kind and side, and its handler follows the first rule.  The other rules for the kind lose nothing
only if the first one covers them. -/

namespace SyncController

open Kube Sync

/-! ### What the handlers enqueue -/

/-- The rule that the builders of the handlers pick. -/
inductive Rule where
  | byOwner
  | bySelector (labelSelector : LabelSelector)
deriving DecidableEq

def RelatedResourceWatch.rule (watch : RelatedResourceWatch) : Option Rule :=
  if watch.byOwner then some .byOwner else watch.bySelector.map .bySelector

theorem eval_enqueueRequestsFromMapFunc {S : Server} {w : World}
    {f : Unstructured → Prog api (List Request)}
    (hreads : ∀ obj, ((f obj).eval (exec S) w).2 = w) (objs : List Unstructured) :
    (enqueueRequestsFromMapFunc f objs).eval (exec S) w =
      (objs.flatMap fun obj => ((f obj).eval (exec S) w).1, w) := by
  induction objs with
  | nil => rfl
  | cons obj rest ih =>
    rw [enqueueRequestsFromMapFunc, Prog.eval_bind, hreads, Prog.eval_bind, ih]
    rfl

theorem mem_listObjects {w : World} {client : Client} {t : TypeMeta} {selector : Selector}
    {o : Unstructured} :
    o ∈ w.listObjects client t "" selector 0 ↔ w.Listed client t "" selector o :=
  ⟨World.listed_of_mem, World.mem_of_listed (.inl rfl)⟩

/-- Where the primaries of a side are. -/
def primaryClient : RelatedResourceOrigin → String → Client
  | .kcp, clusterName => .remoteClient clusterName
  | .service, _ => .localClient

/-- The request for a primary that a selector admits. -/
def primaryRequest : RelatedResourceOrigin → String → Unstructured → Option Request
  | .kcp, clusterName, o => some (requestForObject clusterName o)
  | .service, _, o => remoteRequest o

namespace WatchSetup

variable (C : WatchSetup)

/-- Whether the selector of a rule admits labels.  One that cannot be converted admits none. -/
def selects (labelSelector : LabelSelector) (labels : StringMap) : Bool :=
  match C.libs.labelSelectorAsSelector labelSelector with
  | .error _ => false
  | .ok selector => selector labels

/-- The type of the primaries on a side. -/
def dummy : RelatedResourceOrigin → TypeMeta
  | .kcp => C.remoteDummy
  | .service => C.localDummy

/-- The requests that follow from an event by a rule. -/
def Triggers (w : World) (clusterName : String) (ev : Event) (request : Request)
    (origin : RelatedResourceOrigin) : Rule → Prop
  | .byOwner =>
    match origin with
    | .kcp => request ∈ byOwnerEnqueue clusterName (groupVersionKind C.remoteDummy) ev.object
    | .service => ∃ obj ∈ ev.mapped, ∃ ref, findOwner
        (groupVersionKind C.localDummy) obj = some ref ∧
        ∃ o, w.object? ⟨.localClient, C.localDummy, obj.metadata.ns, ref.name⟩ = some o ∧
          remoteRequest o = some request
  | .bySelector labelSelector =>
    ∃ o, w.Listed (primaryClient origin clusterName) (C.dummy origin) ""
      (C.selects labelSelector) o ∧
      primaryRequest origin clusterName o = some request

def kindOf (relRes : WatchedResource) : Option TypeMeta :=
  (C.kindFor relRes.origin relRes.gvr).toOption

/-- The watch rules for a kind on a side, in order. -/
def rules (related : List WatchedResource) (origin : RelatedResourceOrigin) (gvk : TypeMeta) :
    List RelatedResourceWatch :=
  related.filterMap fun relRes =>
    if relRes.origin = origin ∧ C.kindOf relRes = some gvk then relRes.watch else none

variable {C} {S : Server} {w : World} {clusterName : String} {request : Request}

theorem selects_of_ok {labelSelector : LabelSelector} {selector : Selector}
    (h : C.libs.labelSelectorAsSelector labelSelector = .ok selector) :
    C.selects labelSelector = selector := by
  funext labels
  rw [selects, h]

theorem selects_of_error {labelSelector : LabelSelector} {e : String}
    (h : C.libs.labelSelectorAsSelector labelSelector = .error e) (labels : StringMap) :
    C.selects labelSelector labels = false := by
  rw [selects, h]

theorem mem_bySelectorEnqueue {labelSelector : LabelSelector} {obj : Unstructured} :
    request ∈ ((C.bySelectorEnqueue labelSelector clusterName obj).eval (exec S) w).1 ↔
      ∃ o, w.Listed (.remoteClient clusterName) C.remoteDummy "" (C.selects labelSelector) o ∧
        requestForObject clusterName o = request := by
  unfold bySelectorEnqueue
  split
  · next e h =>
    constructor
    · intro h
      cases h
    · rintro ⟨o, ho, -⟩
      have hsel := ho.selector
      rw [selects_of_error h] at hsel
      cases hsel
  · next selector h =>
    rw [Prog.eval_bind, selects_of_ok h]
    simp only [Prog.send, Prog.eval, exec, Except.toOption, Option.getD_some, List.mem_map,
      mem_listObjects]

theorem eval_mapByOwner (obj : Unstructured) : ((C.mapByOwner obj).eval (exec S) w).2 = w := by
  unfold mapByOwner
  split <;> rfl

theorem mem_mapByOwner {obj : Unstructured} :
    request ∈ ((C.mapByOwner obj).eval (exec S) w).1 ↔
      ∃ ref, findOwner (groupVersionKind C.localDummy) obj = some ref ∧
        ∃ o, w.object? ⟨.localClient, C.localDummy, obj.metadata.ns, ref.name⟩ = some o ∧
          remoteRequest o = some request := by
  unfold mapByOwner
  split
  · next h => simp [h, Prog.eval]
  · next ref h =>
    rw [Prog.eval_bind]
    simp only [Prog.send, Prog.eval, exec, h, Option.some.injEq, exists_eq_left']
    cases w.object? ⟨.localClient, C.localDummy, obj.metadata.ns, ref.name⟩ with
    | none => simp [Except.toOption]
    | some o => simp [Except.toOption]

theorem mem_mapBySelector {selector : Selector} {obj : Unstructured} :
    request ∈ ((C.mapBySelector selector obj).eval (exec S) w).1 ↔
      ∃ o, w.Listed .localClient C.localDummy "" selector o ∧ remoteRequest o = some request := by
  unfold mapBySelector
  rw [Prog.eval_bind]
  simp only [Prog.send, Prog.eval, exec, Except.toOption, Option.getD_some, List.mem_filterMap,
    mem_listObjects]

theorem buildRelatedHandler_cases (C : WatchSetup) (origin : RelatedResourceOrigin)
    (watch : RelatedResourceWatch) (gvk : TypeMeta) :
    (∃ handler rule, C.buildRelatedHandler origin watch gvk = .ok handler ∧
      watch.rule = some rule ∧ ∀ (S : Server) w clusterName ev request,
        request ∈ ((handler clusterName ev).eval (exec S) w).1 ↔
          C.Triggers w clusterName ev request origin rule) ∨
    (∃ e, C.buildRelatedHandler origin watch gvk = .error e) ∧
      ∀ rule, watch.rule = some rule → ∃ labelSelector, rule = .bySelector labelSelector ∧
        ∀ labels, C.selects labelSelector labels = false := by
  obtain ⟨byOwner, bySelector⟩ := watch
  cases byOwner with
  | true =>
    refine .inl ?_
    cases origin with
    | kcp => exact ⟨_, .byOwner, rfl, rfl, fun _ _ _ _ _ => Iff.rfl⟩
    | service =>
      refine ⟨_, .byOwner, rfl, rfl, fun S w _ ev request => ?_⟩
      rw [eval_enqueueRequestsFromMapFunc eval_mapByOwner]
      simp only [List.mem_flatMap, mem_mapByOwner, Triggers]
  | false =>
    cases bySelector with
    | none =>
      refine .inr ⟨?_, fun rule h => by cases h⟩
      cases origin <;> exact ⟨_, rfl⟩
    | some labelSelector =>
      cases origin with
      | kcp =>
        refine .inl ⟨_, .bySelector labelSelector, rfl, rfl, fun _ _ _ _ _ => ?_⟩
        simp only [mem_bySelectorEnqueue, Triggers, primaryClient, dummy, primaryRequest,
          Option.some.injEq]
      | service =>
        simp only [buildRelatedHandler, buildServiceRelatedHandler, Bool.false_eq_true, if_false]
        cases hconvert : C.libs.labelSelectorAsSelector labelSelector with
        | error e =>
          refine .inr ⟨⟨_, rfl⟩, fun rule h => ?_⟩
          cases h
          exact ⟨labelSelector, rfl, selects_of_error hconvert⟩
        | ok selector =>
          refine .inl ⟨_, .bySelector labelSelector, rfl, rfl, fun S w _ ev request => ?_⟩
          rw [eval_enqueueRequestsFromMapFunc fun _ => rfl]
          simp only [List.mem_flatMap, mem_mapBySelector, Triggers, primaryClient, dummy,
            primaryRequest, selects_of_ok hconvert]
          constructor
          · rintro ⟨_, _, h⟩
            exact h
          · exact fun h => ⟨_, ev.object_mem_mapped, h⟩

theorem handler_triggers {origin : RelatedResourceOrigin} {watch : RelatedResourceWatch}
    {gvk : TypeMeta} {handler : Handler}
    (h : C.buildRelatedHandler origin watch gvk = .ok handler) :
    ∃ rule, watch.rule = some rule ∧ ∀ (S : Server) w clusterName ev request,
      request ∈ ((handler clusterName ev).eval (exec S) w).1 ↔
        C.Triggers w clusterName ev request origin rule := by
  obtain ⟨_, rule, hok, hrule, htriggers⟩ | ⟨⟨e, herror⟩, -⟩ :=
    buildRelatedHandler_cases C origin watch gvk
  · rw [h] at hok
    cases hok
    exact ⟨rule, hrule, htriggers⟩
  · rw [h] at herror
    cases herror

/-! ### Which watches are set up -/

theorem relatedKind_ok {relRes : WatchedResource} {gvk : TypeMeta}
    (h : C.relatedKind relRes = .ok gvk) : C.kindOf relRes = some gvk := by
  unfold relatedKind at h
  unfold kindOf
  cases hk : C.kindFor relRes.origin relRes.gvr with
  | error e =>
    rw [hk] at h
    cases h
  | ok gvk' =>
    rw [hk] at h
    cases h
    rfl

/-- One round of the loop: there is no watch rule, the kind is already watched, or a watch is set
up. -/
theorem setup_cons {watched : List (RelatedResourceOrigin × TypeMeta)} {relRes : WatchedResource}
    {rest : List WatchedResource} {watches : List Watch}
    (h : C.setupRelatedResourceWatches watched (relRes :: rest) = .ok watches) :
    (relRes.watch = none ∧ C.setupRelatedResourceWatches watched rest = .ok watches) ∨
    ∃ watch gvk, relRes.watch = some watch ∧ C.kindOf relRes = some gvk ∧
      ((relRes.origin, gvk) ∈ watched ∧ C.setupRelatedResourceWatches watched rest = .ok watches ∨
      (relRes.origin, gvk) ∉ watched ∧ ∃ handler others,
        C.buildRelatedHandler relRes.origin watch gvk = .ok handler ∧
        C.setupRelatedResourceWatches ((relRes.origin, gvk) :: watched) rest = .ok others ∧
        watches = ⟨relRes.origin, gvk, handler⟩ :: others) := by
  rw [setupRelatedResourceWatches] at h
  split at h
  · next hnone => exact .inl ⟨hnone, h⟩
  · next watch hsome =>
    obtain ⟨gvk, hgvk, h⟩ := exists_of_bind_eq_ok h
    refine .inr ⟨watch, gvk, hsome, relatedKind_ok hgvk, ?_⟩
    split at h
    · next hmem => exact .inl ⟨hmem, h⟩
    · next hmem =>
      obtain ⟨handler, hbuild, h⟩ := exists_of_bind_eq_ok h
      obtain ⟨_, -, h⟩ := exists_of_bind_eq_ok h
      obtain ⟨others, hrest, h⟩ := exists_of_bind_eq_ok h
      cases h
      exact .inr ⟨hmem, handler, others, hbuild, hrest, rfl⟩

end WatchSetup

/-- The watch sees the objects of a kind on a side. -/
def Watch.isOn (origin : RelatedResourceOrigin) (gvk : TypeMeta) (watch : Watch) : Bool :=
  watch.origin = origin ∧ watch.gvk = gvk

namespace WatchSetup

variable {C : WatchSetup} {origin : RelatedResourceOrigin} {gvk : TypeMeta}

theorem setup_watched {related : List WatchedResource}
    {watched : List (RelatedResourceOrigin × TypeMeta)} {watches : List Watch}
    (h : C.setupRelatedResourceWatches watched related = .ok watches)
    (hmem : (origin, gvk) ∈ watched) : watches.filter (Watch.isOn origin gvk) = [] := by
  induction related generalizing watched watches with
  | nil =>
    cases h
    rfl
  | cons relRes rest ih =>
    obtain ⟨-, h⟩ | ⟨watch, gvk', -, -, ⟨-, h⟩ | ⟨hnew, handler, others, -, hrest, rfl⟩⟩ :=
      setup_cons h
    · exact ih h hmem
    · exact ih h hmem
    · have hother : ¬ (relRes.origin = origin ∧ gvk' = gvk) := by
        rintro ⟨rfl, rfl⟩
        exact hnew hmem
      simp only [List.filter_cons, Watch.isOn, hother, decide_false, Bool.false_eq_true, if_false]
      exact ih hrest (.tail _ hmem)

/-- A kind with watch rules gets one watch, and its handler is built from the first rule. -/
theorem setup_first {related : List WatchedResource}
    {watched : List (RelatedResourceOrigin × TypeMeta)} {watches : List Watch}
    (h : C.setupRelatedResourceWatches watched related = .ok watches)
    (hmem : (origin, gvk) ∉ watched) {first : RelatedResourceWatch}
    {later : List RelatedResourceWatch}
    (hrules : C.rules related origin gvk = first :: later) :
    ∃ handler, C.buildRelatedHandler origin first gvk = .ok handler ∧
      watches.filter (Watch.isOn origin gvk) = [⟨origin, gvk, handler⟩] := by
  induction related generalizing watched watches with
  | nil => cases hrules
  | cons relRes rest ih =>
    unfold rules at hrules
    rw [List.filterMap_cons] at hrules
    obtain ⟨hnone, h⟩ | ⟨watch, gvk', hwatch, hkind, hcase⟩ := setup_cons h
    · rw [hnone, ite_self] at hrules
      exact ih h hmem hrules
    · rw [hwatch, hkind] at hrules
      by_cases hsame : relRes.origin = origin ∧ gvk' = gvk
      · obtain ⟨rfl, rfl⟩ := hsame
        obtain ⟨hin, -⟩ | ⟨-, handler, others, hbuild, hrest, rfl⟩ := hcase
        · exact absurd hin hmem
        · simp only [and_self, if_true, List.cons.injEq] at hrules
          obtain ⟨rfl, -⟩ := hrules
          refine ⟨handler, hbuild, ?_⟩
          have hothers := setup_watched hrest (.head watched)
          rw [List.filter_cons, if_pos (by simp [Watch.isOn]), hothers]
      · simp only [Option.some.injEq, hsame, if_false] at hrules
        obtain ⟨-, h⟩ | ⟨-, handler, others, -, hrest, rfl⟩ := hcase
        · exact ih h hmem hrules
        · have hmem' : (origin, gvk) ∉ (relRes.origin, gvk') :: watched := by
            simp only [List.mem_cons, Prod.mk.injEq, not_or]
            exact ⟨fun ⟨h₁, h₂⟩ => hsame ⟨h₁.symm, h₂.symm⟩, hmem⟩
          simp only [List.filter_cons, Watch.isOn, hsame, decide_false,
            Bool.false_eq_true, if_false]
          exact ih hrest hmem' hrules

end WatchSetup

/-! ### When the first rule covers the others -/

/-- The event is about objects of the kind. -/
def Event.Concerns (ev : Event) (gvk : TypeMeta) : Prop := ∀ obj ∈ ev.mapped, obj.typeMeta = gvk

/-- What the watches enqueue for an event about an object of a kind on a side. -/
def enqueued (S : Server) (watches : List Watch) (origin : RelatedResourceOrigin) (gvk : TypeMeta)
    (w : World) (clusterName : String) (ev : Event) : List Request :=
  (watches.filter (Watch.isOn origin gvk)).flatMap fun watch =>
    ((watch.handler clusterName ev).eval (exec S) w).1

/-- Labels of a primary that a selector can lead to: on the service cluster, it has to be known
which kcp cluster it is from. -/
def Tracked (origin : RelatedResourceOrigin) (labels : StringMap) : Prop :=
  origin = .service → (labels.get? remoteObjectClusterLabel).getD "" ≠ ""

theorem Tracked.of_request {origin : RelatedResourceOrigin}
    {clusterName : String} {o : Unstructured}
    {request : Request} (h : primaryRequest origin clusterName o = some request) :
    Tracked origin o.metadata.labels := by
  rintro rfl hempty
  simp [primaryRequest, remoteRequest, remoteNameForLocalObject, hempty] at h

/-- A primary with given labels that is known by its annotation. -/
def trackedPrimary (t : TypeMeta) (labels : StringMap) : Unstructured :=
  ⟨t, { name := "p", labels, annotations := SortedMap.insert ∅ remoteObjectNameAnnotation "p" },
    default⟩

theorem request_trackedPrimary {origin : RelatedResourceOrigin} {labels : StringMap}
    (h : Tracked origin labels) (clusterName : String) (t : TypeMeta) :
    ∃ request, primaryRequest origin clusterName (trackedPrimary t labels) = some request := by
  cases origin with
  | kcp => exact ⟨_, rfl⟩
  | service =>
    have hcluster := h rfl
    refine ⟨⟨(labels.get? remoteObjectClusterLabel).getD "", "", "p"⟩, ?_⟩
    have hns : remoteObjectNamespaceAnnotation ≠ remoteObjectNameAnnotation := by decide
    simp [primaryRequest, remoteRequest, remoteNameForLocalObject, trackedPrimary, hcluster, hns]

theorem listed_put_empty {client : Client} {o o' : Unstructured}
    {t : TypeMeta} {selector : Selector} :
    (World.empty.put client o).Listed client t "" selector o' ↔
      o' = o ∧ o.typeMeta = t ∧ selector o.metadata.labels = true := by
  constructor
  · rintro ⟨hobj, rfl, -, hsel⟩
    rw [World.object?_put] at hobj
    split at hobj
    · cases hobj
      exact ⟨rfl, rfl, hsel⟩
    · cases hobj
  · rintro ⟨rfl, rfl, hsel⟩
    exact ⟨by rw [World.object?_put, if_pos rfl], rfl, .inl rfl, hsel⟩

namespace WatchSetup

variable (C : WatchSetup)

/-- One rule enqueues whatever another one does. -/
def Covers (origin : RelatedResourceOrigin) : Rule → Rule → Prop
  | .byOwner, .byOwner => True
  | .byOwner, .bySelector other =>
    ∀ labels, Tracked origin labels → C.selects other labels = false
  | .bySelector labelSelector, .byOwner =>
    origin = .service ∧ ∀ labels, Tracked origin labels → C.selects labelSelector labels = true
  | .bySelector labelSelector, .bySelector other =>
    ∀ labels, Tracked origin labels → C.selects other labels = true →
      C.selects labelSelector labels = true

variable {C} {origin : RelatedResourceOrigin} {gvk : TypeMeta}

theorem Covers.triggers {first other : Rule} (h : C.Covers origin first other) {w : World}
    {clusterName : String} {ev : Event} {request : Request}
    (hother : C.Triggers w clusterName ev request origin other) :
    C.Triggers w clusterName ev request origin first := by
  cases first with
  | byOwner =>
    cases other with
    | byOwner => exact hother
    | bySelector other =>
      obtain ⟨o, ho, hrequest⟩ := hother
      have hnot := h o.metadata.labels (.of_request hrequest)
      rw [ho.selector] at hnot
      cases hnot
  | bySelector labelSelector =>
    cases other with
    | byOwner =>
      obtain ⟨rfl, hall⟩ := h
      obtain ⟨obj, -, ref, -, o, ho, hrequest⟩ := hother
      have hid := World.idOn_of_object? ho
      have hprimary : primaryRequest .service clusterName o = some request := hrequest
      rw [← hid] at ho
      exact ⟨o,
        ⟨ho, congrArg ObjectId.typeMeta hid, .inl rfl, hall _ (.of_request hprimary)⟩, hrequest⟩
    | bySelector other =>
      obtain ⟨o, ho, hrequest⟩ := hother
      exact ⟨o, ⟨ho.object, ho.typeMeta, ho.ns, h _ (.of_request hrequest) ho.selector⟩, hrequest⟩

theorem not_triggers_unowned {w : World} {clusterName : String} {request : Request} :
    ¬ C.Triggers w clusterName (.generic (referring gvk "" [])) request origin .byOwner := by
  have hnone : ∀ t, findOwner t (referring gvk "" []) = none := fun t => by
    simp [findOwner_eq_none]
  cases origin with
  | kcp => simp [Triggers, Event.object, mem_byOwnerEnqueue, hnone]
  | service => simp [Triggers, Event.mapped, hnone]

theorem triggers_tracked {labels : StringMap} {labelSelector : LabelSelector} {ev : Event}
    {clusterName : String} {request : Request}
    (hrequest : primaryRequest origin clusterName (trackedPrimary (C.dummy origin) labels) =
      some request) :
    C.Triggers (World.empty.put (primaryClient origin clusterName)
        (trackedPrimary (C.dummy origin) labels)) clusterName ev request origin
      (.bySelector labelSelector) ↔ C.selects labelSelector labels = true := by
  simp only [Triggers, listed_put_empty]
  constructor
  · rintro ⟨_, ⟨rfl, -, h⟩, -⟩
    exact h
  · intro h
    exact ⟨_, ⟨rfl, rfl, h⟩, hrequest⟩

theorem triggers_referred (labels : StringMap) {clusterName : String} {request : Request}
    (hrequest : primaryRequest .service clusterName (trackedPrimary C.localDummy labels) =
      some request) :
    ∃ ev : Event, ev.Concerns gvk ∧
      C.Triggers (World.empty.put .localClient (trackedPrimary C.localDummy labels)) clusterName ev
        request .service .byOwner := by
  obtain ⟨ref, hof, hname⟩ := exists_isOf C.localDummy "p"
  refine ⟨.generic (referring gvk "" [ref]), by simp [Event.Concerns, Event.mapped, referring], ?_⟩
  refine ⟨referring gvk "" [ref], .head _, ref, by simp [findOwner, hof], _, ?_, hrequest⟩
  rw [World.object?_put, hname]
  exact if_pos rfl

theorem covers_iff (gvk : TypeMeta) {first other : Rule} : C.Covers origin first other ↔
    ∀ w clusterName (ev : Event), ev.Concerns gvk → ∀ request,
      C.Triggers w clusterName ev request origin other →
        C.Triggers w clusterName ev request origin first := by
  refine ⟨fun h _ _ _ _ _ => h.triggers, fun h => ?_⟩
  have hconcerns : (Event.generic (referring gvk "" [])).Concerns gvk := by
    simp [Event.Concerns, Event.mapped, referring]
  cases other with
  | bySelector other =>
    -- a world with one primary that the other rule selects
    have htriggers : ∀ labels, Tracked origin labels → C.selects other labels = true →
        ∃ request,
        primaryRequest origin "" (trackedPrimary (C.dummy origin) labels) = some request ∧
          C.Triggers (World.empty.put (primaryClient origin "")
            (trackedPrimary (C.dummy origin) labels)) "" (.generic (referring gvk "" [])) request
            origin first := by
      intro labels htracked hselects
      obtain ⟨request, hrequest⟩ := request_trackedPrimary htracked "" (C.dummy origin)
      exact ⟨request, hrequest, h _ _ _ hconcerns _ ((triggers_tracked hrequest).mpr hselects)⟩
    cases first with
    | byOwner =>
      refine fun labels htracked => Bool.eq_false_iff.mpr fun hselects => ?_
      obtain ⟨request, -, hfirst⟩ := htriggers labels htracked hselects
      exact not_triggers_unowned hfirst
    | bySelector labelSelector =>
      intro labels htracked hselects
      obtain ⟨request, hrequest, hfirst⟩ := htriggers labels htracked hselects
      exact (triggers_tracked hrequest).mp hfirst
  | byOwner =>
    cases first with
    | byOwner => trivial
    | bySelector labelSelector =>
      cases origin with
      | kcp =>
        -- the key of an owner is enqueued whether it exists or not
        obtain ⟨ref, hof, -⟩ := exists_isOf C.remoteDummy ""
        have hother :
            C.Triggers .empty "" (.generic (referring gvk "" [ref])) ⟨"", "", ref.name⟩ .kcp
            .byOwner := mem_byOwnerEnqueue.mpr ⟨ref, by simp [findOwner, Event.object, hof], rfl⟩
        obtain ⟨o, ho, -⟩ := h _ _ _ (by simp [Event.Concerns, Event.mapped, referring]) _ hother
        cases ho.object
      | service =>
        refine ⟨rfl, fun labels htracked => ?_⟩
        obtain ⟨request, hrequest⟩ := request_trackedPrimary htracked "" C.localDummy
        obtain ⟨ev, hev, hother⟩ := triggers_referred labels hrequest
        exact (triggers_tracked hrequest).mp (h _ _ ev hev _ hother)

theorem mem_rules {related : List WatchedResource} {watch : RelatedResourceWatch} :
    watch ∈ C.rules related origin gvk ↔ ∃ relRes ∈ related,
      relRes.origin = origin ∧ C.kindOf relRes = some gvk ∧ relRes.watch = some watch := by
  simp only [rules, List.mem_filterMap, Option.ite_none_right_eq_some, and_assoc]

variable (C)

/-- The watches enqueue whatever the handler of a related resource would enqueue for its kind. -/
def Honours (S : Server) (related : List WatchedResource) (watches : List Watch) : Prop :=
  ∀ relRes ∈ related, ∀ watch, relRes.watch = some watch → ∀ gvk, C.kindOf relRes = some gvk →
    ∀ handler, C.buildRelatedHandler relRes.origin watch gvk = .ok handler →
      ∀ w clusterName (ev : Event), ev.Concerns gvk →
        ∀ request ∈ ((handler clusterName ev).eval (exec S) w).1,
          request ∈ enqueued S watches relRes.origin gvk w clusterName ev

/-- The first rule for a kind covers the later ones. -/
def FirstCovers (related : List WatchedResource) : Prop :=
  ∀ origin gvk first later, C.rules related origin gvk = first :: later →
    ∀ watch ∈ later, ∀ rule other, first.rule = some rule → watch.rule = some other →
      C.Covers origin rule other

variable {C}

/-- The rules are all honoured if and only if the first one for each kind covers the later ones. -/
theorem honours_iff_firstCovers (S : Server) {related : List WatchedResource} {watches : List Watch}
    (h : C.setupRelatedResourceWatches [] related = .ok watches) :
    C.Honours S related watches ↔ C.FirstCovers related := by
  constructor
  · intro hall origin gvk first later hrules watch hmem rule other hrule hother
    obtain ⟨handler, hbuild, hfilter⟩ := setup_first h List.not_mem_nil hrules
    obtain ⟨_, hrule', htriggers⟩ := handler_triggers hbuild
    rw [hrule] at hrule'
    cases hrule'
    obtain ⟨handler', _, hbuild', hother', htriggers'⟩ | ⟨-, hnever⟩ :=
      buildRelatedHandler_cases C origin watch gvk
    · rw [hother] at hother'
      cases hother'
      obtain ⟨relRes, hrel, rfl, hkind, hwatch⟩ :=
        mem_rules.mp (hrules ▸ List.mem_cons_of_mem _ hmem)
      refine (covers_iff gvk).mpr fun w clusterName ev hev request hrequest => ?_
      have henqueued :=
        hall relRes hrel watch hwatch gvk hkind handler' hbuild' w clusterName ev hev
        request ((htriggers' S ..).mpr hrequest)
      rw [enqueued, hfilter, List.flatMap_singleton] at henqueued
      exact (htriggers S ..).mp henqueued
    · obtain ⟨labelSelector, rfl, hnever⟩ := hnever other hother
      cases rule with
      | byOwner => exact fun labels _ => hnever labels
      | bySelector => exact fun labels _ hsel => absurd (hnever labels) (by simp [hsel])
  · intro hcovers relRes hrel watch hwatch gvk hkind handler hbuild w
      clusterName ev _ request hrequest
    have hmem := mem_rules.mpr ⟨relRes, hrel, rfl, hkind, hwatch⟩
    cases hrules : C.rules related relRes.origin gvk with
    | nil =>
      rw [hrules] at hmem
      cases hmem
    | cons first later =>
      obtain ⟨handler₁, hbuild₁, hfilter⟩ := setup_first h List.not_mem_nil hrules
      rw [enqueued, hfilter, List.flatMap_singleton]
      rw [hrules, List.mem_cons] at hmem
      obtain rfl | hlater := hmem
      · rw [hbuild] at hbuild₁
        cases hbuild₁
        exact hrequest
      · obtain ⟨rule, hrule, htriggers⟩ := handler_triggers hbuild₁
        obtain ⟨other, hother, htriggers'⟩ := handler_triggers hbuild
        have hcover := hcovers _ _ _ _ hrules watch hlater rule other hrule hother
        exact (htriggers S ..).mpr (hcover.triggers ((htriggers' S ..).mp hrequest))

/-- Backends with Secrets as the only related kind. -/
def sample : WatchSetup where
  libs := .sample
  localDummy := backendType
  remoteDummy := backendType
  kindFor _ _ := .ok .secret
  accepts _ _ := .ok ()

def watchedSecret (identifier : String) (watch : RelatedResourceWatch) : WatchedResource :=
  { identifier, origin := .kcp, kind := "Secret"
    object := { object := { template := some ⟨identifier⟩ } }
    watch := some watch }

def tier (value : String) : LabelSelector := { matchLabels := SortedMap.insert ∅ "tier" value }

/-- Two Secrets that are found by their owners. -/
theorem honours_byOwner : ∃ watches,
    sample.setupRelatedResourceWatches []
      [watchedSecret "creds" { byOwner := true }, watchedSecret "ca" { byOwner := true }] =
        .ok watches ∧
    sample.Honours .setting
      [watchedSecret "creds" { byOwner := true },
        watchedSecret "ca" { byOwner := true }] watches := by
  refine ⟨_, rfl, (honours_iff_firstCovers .setting rfl).mpr ?_⟩
  intro origin gvk first later hrules watch hmem rule other hrule hother
  have hall : ∀ watch ∈ first :: later, watch = { byOwner := true } := by
    intro watch hwatch
    rw [← hrules] at hwatch
    obtain ⟨relRes, hrel, -, -, hsome⟩ := mem_rules.mp hwatch
    simp only [List.mem_cons, List.not_mem_nil, or_false] at hrel
    obtain rfl | rfl := hrel <;> exact (Option.some.inj hsome).symm
  rw [hall first (.head _)] at hrule
  rw [hall watch (.tail _ hmem)] at hother
  cases hrule
  cases hother
  trivial

/-- Two Secrets with a selector each: the second selector is never used. -/
theorem second_selector_lost : ∃ watches handler,
    sample.setupRelatedResourceWatches []
      [watchedSecret "creds" { bySelector := some (tier "gold") },
        watchedSecret "ca" { bySelector := some (tier "silver") }] = .ok watches ∧
    sample.buildRelatedHandler .kcp { bySelector := some (tier "silver") } .secret = .ok handler ∧
    ∃ w ev, ev.Concerns .secret ∧
      ((handler "c1" ev).eval (exec .setting) w).1 = [⟨"c1", "", "p"⟩] ∧
      enqueued .setting watches .kcp .secret w "c1" ev = [] := by
  refine ⟨_, _, rfl, rfl, World.empty.put (.remoteClient "c1")
    (trackedPrimary backendType (SortedMap.insert ∅ "tier" "silver")),
    .generic (referring .secret "" []), ?_, ?_, ?_⟩
  · simp [Event.Concerns, Event.mapped, referring]
  · decide
  · decide

end WatchSetup

end SyncController
