import SyncAgent.Lib.SortedMap
import Mathlib.Data.List.Basic
import Mathlib.Tactic.Common

/-! The sync manager (`internal/controller/syncmanager`), which starts one sync controller for each
PublishedResource and stops it when it is no longer needed.  A controller's context is its position
in the list of all controllers that were started.  `State` carries how the registry `syncCancels`
and the contexts fit together; the results are about runs of `reconcile` between arbitrary changes
of the PublishedResources. -/

namespace SyncManager

/-- The fields of a PublishedResource that the sync manager reads.  A resource version is a decimal
number. -/
structure PublishedResource where
  name : String
  uid : String
  resourceVersion : String
  version_dashless : '-' ∉ resourceVersion.toList
  deleting : Bool := false
  resourceSchemaName : String := ""
  synchronization : Option Bool := none
deriving DecidableEq

def getPublishedResourceKey (pr : PublishedResource) : String := pr.uid ++ "-" ++ pr.resourceVersion

def isSyncEnabled (pr : PublishedResource) : Bool := pr.synchronization.getD true

/-- Two versions are told apart by their keys: the part after the last dash is the version. -/
theorem getPublishedResourceKey_inj {p q : PublishedResource}
    (h : getPublishedResourceKey p = getPublishedResourceKey q) :
    p.uid = q.uid ∧ p.resourceVersion = q.resourceVersion := by
  have hsplit : ∀ (a a' b b' : List Char), '-' ∉ b → '-' ∉ b' → a ++ '-' :: b = a' ++ '-' :: b' →
      a = a' ∧ b = b' := by
    intro a a' b b' hb hb' happ
    rcases List.append_eq_append_iff.mp happ with ⟨c, hc, hc'⟩ | ⟨c, hc, hc'⟩
    all_goals
      cases c with
      | nil => simp_all
      | cons x c =>
        simp only [List.cons_append, List.cons.injEq] at hc'
        simp_all
  have hlists : p.uid.toList ++ '-' :: p.resourceVersion.toList =
      q.uid.toList ++ '-' :: q.resourceVersion.toList := by
    have := congrArg String.toList h
    simpa [getPublishedResourceKey] using this
  obtain ⟨huid, hversion⟩ := hsplit _ _ _ _ p.version_dashless q.version_dashless hlists
  exact ⟨String.toList_inj.mp huid, String.toList_inj.mp hversion⟩

/-- A sync controller that was started, and whether its context has been cancelled. -/
structure SyncController where
  pubRes : PublishedResource
  cancelled : Bool := false
deriving DecidableEq

/-- The PublishedResources on the API server, the controllers that were started, and the registry of
the functions that cancel them. -/
structure State where
  published : SortedMap String PublishedResource
  controllers : List SyncController
  syncCancels : SortedMap String Nat
  registered : ∀ key i, syncCancels.get? key = some i →
    ∃ c, controllers[i]? = some c ∧ getPublishedResourceKey c.pubRes = key
  live_registered : ∀ i c, controllers[i]? = some c → c.cancelled = false →
    syncCancels.get? (getPublishedResourceKey c.pubRes) = some i

namespace State

def init : State := ⟨∅, [], ∅, by simp, by simp⟩

/-- The controllers of a UID whose context has not been cancelled. -/
def live (s : State) (uid : String) : List SyncController :=
  s.controllers.filter fun c => c.pubRes.uid = uid ∧ c.cancelled = false

/-- A new controller is started and registered under a free key. -/
def start (s : State) (pr : PublishedResource) (cancelled : Bool)
    (hfree : s.syncCancels.get? (getPublishedResourceKey pr) = none) : State where
  published := s.published
  controllers := s.controllers ++ [⟨pr, cancelled⟩]
  syncCancels := s.syncCancels.insert (getPublishedResourceKey pr) s.controllers.length
  registered := by
    intro key i h
    rw [SortedMap.get?_insert] at h
    split at h
    · next hkey =>
      cases h
      exact ⟨⟨pr, cancelled⟩, by simp, hkey.symm⟩
    · obtain ⟨c, hc, hkey⟩ := s.registered key i h
      exact ⟨c, by rw [List.getElem?_append_left (List.getElem?_eq_some_iff.mp hc).1, hc], hkey⟩
  live_registered := by
    intro i c hc hlive
    rw [SortedMap.get?_insert]
    by_cases hi : i < s.controllers.length
    · rw [List.getElem?_append_left hi] at hc
      have hreg := s.live_registered i c hc hlive
      have hne : getPublishedResourceKey c.pubRes ≠ getPublishedResourceKey pr := by
        intro heq
        rw [heq, hfree] at hreg
        cases hreg
      rw [if_neg hne, hreg]
    · have hlast : i = s.controllers.length := by
        have := (List.getElem?_eq_some_iff.mp hc).1
        simp only [List.length_append, List.length_singleton] at this
        omega
      subst hlast
      simp only [List.getElem?_concat_length, Option.some.injEq] at hc
      subst hc
      rw [if_pos rfl]

/-- The context that is registered under a key is cancelled and its entry removed. -/
def stop (s : State) (key : String) (i : Nat) (hi : s.syncCancels.get? key = some i) : State where
  published := s.published
  controllers := s.controllers.modify i fun c => { c with cancelled := true }
  syncCancels := s.syncCancels.erase key
  registered := by
    intro key' j h
    rw [SortedMap.get?_erase] at h
    split at h
    · cases h
    · obtain ⟨c, hc, hkey⟩ := s.registered key' j h
      rw [List.getElem?_modify, hc]
      exact ⟨_, rfl, by split <;> exact hkey⟩
  live_registered := by
    intro j c hc hlive
    rw [List.getElem?_modify] at hc
    obtain ⟨c', hc', hmod⟩ := Option.map_eq_some_iff.mp hc
    by_cases hij : i = j
    · rw [if_pos hij] at hmod
      subst hmod
      cases hlive
    · rw [if_neg hij] at hmod
      subst hmod
      have hreg := s.live_registered j c' hc' hlive
      have hne : getPublishedResourceKey c'.pubRes ≠ key := by
        rintro rfl
        exact hij (Option.some.inj (hi.symm.trans hreg))
      rw [SortedMap.get?_erase, if_neg hne, hreg]

end State

/-- What the calls of a Reconcile answer: whether the PublishedResource can be read, whether it is
bound everywhere, and whether the creation and the start of a controller succeed.  `bound` is `none`
when the probe fails. -/
structure Answers where
  readable : Bool := true
  bound : Option Bool := some true
  created : Bool := true
  started : Bool := true

/-- What a Reconcile returns. -/
inductive Result where
  | done
  | requeueAfter
  | failed (text : String)
deriving DecidableEq

def ensureSyncController (s : State) (pr : PublishedResource) (a : Answers) : State × Result :=
  match h : s.syncCancels.get? (getPublishedResourceKey pr) with
  | some _ => (s, .done)
  | none =>
    match a.bound with
    | none => (s, .failed "failed to probe for existence of resource in virtual workspace")
    | some false => (s, .requeueAfter)
    | some true =>
      if !a.created then (s, .failed "failed to create sync controller")
      -- the goroutine of the controller runs, and the registry has its entry, before the start of
      -- the controller can fail
      else if !a.started then (s.start pr true h, .failed "failed to start sync controller")
      else (s.start pr false h, .done)

def cleanupController (s : State) (pr : PublishedResource) : State × Result :=
  match h : s.syncCancels.get? (getPublishedResourceKey pr) with
  | some i => (s.stop (getPublishedResourceKey pr) i h, .done)
  | none => (s, .done)

/-- A PublishedResource that is in deletion, not yet processed or has its synchronization disabled
needs no controller. -/
def wanted (pr : PublishedResource) : Bool :=
  !(pr.deleting || pr.resourceSchemaName = "" || !isSyncEnabled pr)

def reconcile (s : State) (name : String) (a : Answers) : State × Result :=
  if !a.readable then (s, .failed "") else
  match s.published.get? name with
  | none => (s, .done)
  | some pr => if !wanted pr then cleanupController s pr else ensureSyncController s pr a

/-- A change of the PublishedResources, or a Reconcile of one of them. -/
inductive Event where
  | apply (pr : PublishedResource)
  | remove (name : String)
  | reconcile (name : String) (answers : Answers)

def step (s : State) : Event → State
  | .apply pr => { s with published := s.published.insert pr.name pr }
  | .remove name => { s with published := s.published.erase name }
  | .reconcile name a => (reconcile s name a).1

def run (events : List Event) : State := events.foldl step .init

/-! ### One controller, of the latest version -/

/-- The controller of this version has been created, now or by an earlier Reconcile. -/
def creationSucceeded (s : State) (pr : PublishedResource) (a : Answers) : Prop :=
  (s.syncCancels.get? (getPublishedResourceKey pr)).isSome ∨
    (a.bound = some true ∧ a.created = true)

instance (s : State) (pr : PublishedResource) (a : Answers) :
    Decidable (creationSucceeded s pr a) :=
  inferInstanceAs (Decidable (_ ∨ _ ∧ _))

/-- After a Reconcile in `s` that could read the PublishedResource, its live controllers are as they
should be: exactly one of the version just reconciled if it is wanted, and none otherwise or if the
PublishedResource is gone. -/
def Correct (s : State) (name : String) (a : Answers) : Prop :=
  a.readable = true →
  (s.published.get? name = none →
    ∀ c ∈ (reconcile s name a).1.controllers, c.pubRes.name = name → c.cancelled = true) ∧
  ∀ pr ∈ s.published.get? name,
    if wanted pr ∧ creationSucceeded s pr a then
      ((reconcile s name a).1.live pr.uid).map (·.pubRes.resourceVersion) = [pr.resourceVersion]
    else (reconcile s name a).1.live pr.uid = []

instance (s : State) (name : String) (a : Answers) : Decidable (Correct s name a) :=
  inferInstanceAs (Decidable (_ → _ ∧ ∀ pr ∈ s.published.get? name, _))

/-- Before a Reconcile no controller of the PublishedResource is live that belongs to another
version or to a PublishedResource that is gone, and neither did the start of this version's
controller fail before nor does it fail now. -/
def Settled (s : State) (name : String) (a : Answers) : Prop :=
  a.readable = true →
  (s.published.get? name = none → ∀ c ∈ s.controllers, c.pubRes.name = name → c.cancelled = true) ∧
  ∀ pr ∈ s.published.get? name,
    (∀ c ∈ s.live pr.uid, c.pubRes.resourceVersion = pr.resourceVersion) ∧
    (wanted pr = true → creationSucceeded s pr a →
      if (s.syncCancels.get? (getPublishedResourceKey pr)).isSome then
        ∃ c ∈ s.live pr.uid, c.pubRes.resourceVersion = pr.resourceVersion
      else a.started = true)

namespace State

theorem mem_live {s : State} {uid : String} {c : SyncController} :
    c ∈ s.live uid ↔ c ∈ s.controllers ∧ c.pubRes.uid = uid ∧ c.cancelled = false := by
  simp [live]

theorem live_of_version (s : State) (pr : PublishedResource) {c : SyncController}
    (hc : c ∈ s.live pr.uid) (hversion : c.pubRes.resourceVersion = pr.resourceVersion) :
    ∃ i, s.controllers[i]? = some c ∧
      s.syncCancels.get? (getPublishedResourceKey pr) = some i := by
  obtain ⟨hmem, huid, hlive⟩ := mem_live.mp hc
  obtain ⟨i, hi⟩ := List.getElem?_of_mem hmem
  have hkey : getPublishedResourceKey c.pubRes = getPublishedResourceKey pr := by
    simp [getPublishedResourceKey, huid, hversion]
  exact ⟨i, hi, hkey ▸ s.live_registered i c hi hlive⟩

theorem live_start (s : State) (pr : PublishedResource) (cancelled : Bool) (h) (uid : String) :
    (s.start pr cancelled h).live uid =
      s.live uid ++ if pr.uid = uid ∧ cancelled = false then [⟨pr, cancelled⟩] else [] := by
  by_cases hp : pr.uid = uid ∧ cancelled = false <;> simp [live, start, List.filter_append, hp]

theorem mem_live_stop {s : State} {pr : PublishedResource} {i : Nat}
    {hi : s.syncCancels.get? (getPublishedResourceKey pr) = some i} {c : SyncController} :
    c ∈ (s.stop (getPublishedResourceKey pr) i hi).live pr.uid ↔
      c ∈ s.live pr.uid ∧ c.pubRes.resourceVersion ≠ pr.resourceVersion := by
  constructor
  · intro h
    obtain ⟨hmem, huid, hlive⟩ := mem_live.mp h
    obtain ⟨j, hj⟩ := List.getElem?_of_mem hmem
    simp only [stop, List.getElem?_modify] at hj
    obtain ⟨c', hc', hmod⟩ := Option.map_eq_some_iff.mp hj
    by_cases hij : i = j
    · rw [if_pos hij] at hmod
      subst hmod
      cases hlive
    · rw [if_neg hij] at hmod
      subst hmod
      have hbefore : c' ∈ s.live pr.uid :=
        mem_live.mpr ⟨List.mem_of_getElem? hc', huid, hlive⟩
      refine ⟨hbefore, fun hversion => hij ?_⟩
      have hreg := s.live_registered j c' hc' hlive
      rw [show getPublishedResourceKey c'.pubRes = getPublishedResourceKey pr by
        simp [getPublishedResourceKey, huid, hversion], hi] at hreg
      exact Option.some.inj hreg
  · rintro ⟨hc, hversion⟩
    obtain ⟨hmem, huid, hlive⟩ := mem_live.mp hc
    obtain ⟨j, hj⟩ := List.getElem?_of_mem hmem
    have hij : i ≠ j := by
      rintro rfl
      obtain ⟨c', hc', hkey⟩ := s.registered _ _ hi
      have hsame : c' = c := Option.some.inj (hc'.symm.trans hj)
      subst hsame
      exact hversion (getPublishedResourceKey_inj hkey).2
    refine mem_live.mpr ⟨List.mem_of_getElem? (i := j) ?_, huid, hlive⟩
    simp [stop, hij, hj]

theorem live_eq_nil_or_singleton (s : State) (pr : PublishedResource)
    (h : ∀ c ∈ s.live pr.uid, c.pubRes.resourceVersion = pr.resourceVersion) :
    s.live pr.uid = [] ∨ ∃ c, s.live pr.uid = [c] := by
  have hunique : ∀ (l : List SyncController) (P : SyncController → Bool),
      (∀ (i j : Nat) c d, l[i]? = some c → l[j]? = some d → P c = true → P d = true → i = j) →
      l.filter P = [] ∨ ∃ c, l.filter P = [c] := by
    intro l P
    induction l with
    | nil => simp
    | cons x rest ih =>
      intro hl
      have htail : ∀ (i j : Nat) c d, rest[i]? = some c → rest[j]? = some d →
        P c = true → P d = true →
          i = j := fun i j c d hc hd hPc hPd => by
        have := hl (i + 1) (j + 1) c d (by simpa using hc) (by simpa using hd) hPc hPd
        omega
      by_cases hx : P x = true
      · have hnone : rest.filter P = [] := by
          refine List.filter_eq_nil_iff.mpr fun d hd hPd => ?_
          obtain ⟨j, hj⟩ := List.getElem?_of_mem hd
          have := hl 0 (j + 1) x d (by simp) (by simpa using hj) hx hPd
          omega
        exact .inr ⟨x, by simp [hx, hnone]⟩
      · simpa [List.filter_cons, hx] using ih htail
  refine hunique s.controllers _ fun i j c d hc hd hPc hPd => ?_
  have hindex : ∀ (k : Nat) e, s.controllers[k]? = some e →
      decide (e.pubRes.uid = pr.uid ∧ e.cancelled = false) = true →
      s.syncCancels.get? (getPublishedResourceKey pr) = some k := by
    intro k e he hPe
    obtain ⟨huid, hlive⟩ := of_decide_eq_true hPe
    have hversion := h e (mem_live.mpr ⟨List.mem_of_getElem? he, huid, hlive⟩)
    rw [← s.live_registered k e he hlive]
    simp [getPublishedResourceKey, huid, hversion]
  exact Option.some.inj ((hindex i c hc hPc).symm.trans (hindex j d hd hPd))

theorem live_eq_nil_iff (s : State) (pr : PublishedResource)
    (hfree : s.syncCancels.get? (getPublishedResourceKey pr) = none) :
    s.live pr.uid = [] ↔
      ∀ c ∈ s.live pr.uid, c.pubRes.resourceVersion = pr.resourceVersion := by
  constructor
  · intro h c hc
    simp [h] at hc
  · intro h
    refine List.eq_nil_iff_forall_not_mem.mpr fun c hc => ?_
    obtain ⟨i, -, hreg⟩ := s.live_of_version pr hc (h c hc)
    rw [hfree] at hreg
    cases hreg

theorem live_eq_singleton_iff (s : State) (pr : PublishedResource) :
    (s.live pr.uid).map (·.pubRes.resourceVersion) = [pr.resourceVersion] ↔
      (∀ c ∈ s.live pr.uid, c.pubRes.resourceVersion = pr.resourceVersion) ∧
      ∃ c ∈ s.live pr.uid, c.pubRes.resourceVersion = pr.resourceVersion := by
  constructor
  · intro h
    obtain ⟨c, hc, hversion⟩ := List.map_eq_singleton_iff.mp h
    simp [hc, hversion]
  · rintro ⟨hall, c, hc, hversion⟩
    rcases s.live_eq_nil_or_singleton pr hall with hnil | ⟨c', hc'⟩
    · simp [hnil] at hc
    · rw [hc', List.mem_singleton] at hc
      rw [hc', List.map_singleton, ← hc, hversion]

end State

/-- The live controllers after a clean-up: none, if all belonged to the version cleaned up. -/
theorem cleanupController_live (s : State) (pr : PublishedResource) :
    (cleanupController s pr).1.live pr.uid = [] ↔
      ∀ c ∈ s.live pr.uid, c.pubRes.resourceVersion = pr.resourceVersion := by
  unfold cleanupController
  split
  · simp only [List.eq_nil_iff_forall_not_mem, State.mem_live_stop, not_and, not_not]
  · next hfree => exact s.live_eq_nil_iff pr hfree

theorem ensureSyncController_of_registered {s : State} {pr : PublishedResource} {i : Nat}
    (h : s.syncCancels.get? (getPublishedResourceKey pr) = some i) (a : Answers) :
    ensureSyncController s pr a = (s, .done) := by
  unfold ensureSyncController
  split
  · rfl
  · next hfree => rw [h] at hfree; cases hfree

theorem ensureSyncController_of_free {s : State} {pr : PublishedResource}
    (hfree : s.syncCancels.get? (getPublishedResourceKey pr) = none) (a : Answers) :
    (ensureSyncController s pr a).1.live pr.uid =
      s.live pr.uid ++
        if a.bound = some true ∧ a.created = true ∧
          a.started = true then [⟨pr, false⟩] else [] := by
  unfold ensureSyncController
  split
  · next i hi => rw [hi] at hfree; cases hfree
  · obtain ⟨readable, bound, created, started⟩ := a
    rcases bound with _ | _ | _ <;> cases created <;> cases started <;> simp [State.live_start]

theorem ensureSyncController_live (s : State) (pr : PublishedResource) (a : Answers) :
    (if creationSucceeded s pr a then
      ((ensureSyncController s pr a).1.live pr.uid).map (·.pubRes.resourceVersion) =
        [pr.resourceVersion]
    else (ensureSyncController s pr a).1.live pr.uid = []) ↔
      (∀ c ∈ s.live pr.uid, c.pubRes.resourceVersion = pr.resourceVersion) ∧
      (creationSucceeded s pr a →
        if (s.syncCancels.get? (getPublishedResourceKey pr)).isSome then
          ∃ c ∈ s.live pr.uid, c.pubRes.resourceVersion = pr.resourceVersion
        else a.started = true) := by
  cases hreg : s.syncCancels.get? (getPublishedResourceKey pr) with
  | some i =>
    have hcreated : creationSucceeded s pr a := .inl (by rw [hreg]; rfl)
    simp only [ensureSyncController_of_registered hreg, Option.isSome_some, if_true, hcreated,
      forall_const, State.live_eq_singleton_iff]
  | none =>
    have hcreated : creationSucceeded s pr a ↔ a.bound = some true ∧ a.created = true := by
      simp [creationSucceeded, hreg]
    have hnil := s.live_eq_nil_iff pr hreg
    simp only [ensureSyncController_of_free hreg, hcreated, Option.isSome_none, Bool.false_eq_true,
      if_false]
    by_cases ha : a.bound = some true ∧ a.created = true
    · cases hstarted : a.started with
      | true => simp [ha, hnil]
      | false =>
        -- the controller that was started is cancelled at once
        have hnone : ¬ (s.live pr.uid).map (·.pubRes.resourceVersion) = [pr.resourceVersion] := by
          intro h
          obtain ⟨hall, c, hc, -⟩ := (s.live_eq_singleton_iff pr).mp h
          simp [hnil.mpr hall] at hc
        simp [ha, hnone]
    · simp [ha, hnil, ← and_assoc]

theorem correct_iff_settled (s : State) (name : String) (a : Answers) :
    Correct s name a ↔ Settled s name a := by
  unfold Correct Settled
  refine imp_congr_right fun hread => and_congr ?_ (forall₂_congr fun pr hpr => ?_)
  · refine imp_congr_right fun hgone => ?_
    simp [reconcile, hread, hgone]
  · have hpr' : s.published.get? name = some pr := hpr
    by_cases hw : wanted pr = true
    · have hrec : reconcile s name a = ensureSyncController s pr a := by
        simp [reconcile, hread, hpr', hw]
      simp only [hrec, hw, true_and, forall_const]
      exact ensureSyncController_live s pr a
    · have hrec : reconcile s name a = cleanupController s pr := by
        simp [reconcile, hread, hpr', hw]
      simp only [hrec, hw, Bool.false_eq_true, false_and, if_false, false_implies, and_true]
      exact cleanupController_live s pr

/-- In every run, a Reconcile leaves exactly the live controllers that it should exactly when no
controller of another version, or of a PublishedResource that is gone, was live before it and the
start of this version's controller has not failed. -/
theorem reconcile_correct_iff (events : List Event) (name : String) (a : Answers) :
    Correct (run events) name a ↔ Settled (run events) name a :=
  correct_iff_settled (run events) name a

/-- A PublishedResource at its first and at its second version. -/
def firstVersion : PublishedResource :=
  { name := "crontabs", uid := "u1", resourceVersion := "1", version_dashless := by decide
    resourceSchemaName := "v1.crontabs" }

def secondVersion : PublishedResource :=
  { firstVersion with resourceVersion := "2", version_dashless := by decide }

/-- After an update, the controller of the old version stays live beside the new one. -/
theorem reconcile_keeps_old_controller :
    ¬ Correct (run [.apply firstVersion, .reconcile "crontabs" {}, .apply secondVersion])
      "crontabs" {} := by
  decide +kernel

end SyncManager
