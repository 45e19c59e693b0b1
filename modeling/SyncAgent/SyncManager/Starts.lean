import SyncAgent.SyncManager.Controller

/-! The start of a sync controller.  `StartController` runs it in a goroutine and passes on the
clusters that are engaged (`internal/kcp/multicluster.go`); either can fail.  The results are about
runs in which controllers also end on their own. -/

namespace SyncManager

/-- What the calls of a Reconcile answer.  `clusters` are the engaged clusters, in the order in
which the tracker goes through them, and `engages` says what `Engage` of the controller answers. -/
structure Attempt where
  readable : Bool := true
  bound : Option Bool := some true
  created : Bool := true
  clusters : List String := []
  engages : String → Bool := fun _ => true

/-- `PreSeedController`: the engaged clusters are passed on in turn, up to the first failure. -/
def preSeedController (engages : String → Bool) : List String → Bool
  | [] => true
  | name :: rest => if engages name then preSeedController engages rest else false

theorem preSeedController_iff {engages : String → Bool} {clusters : List String} :
    preSeedController engages clusters = true ↔ ∀ name ∈ clusters, engages name = true := by
  induction clusters with
  | nil => simp [preSeedController]
  | cons name rest ih =>
    rw [preSeedController, List.forall_mem_cons]
    split
    · next h => simp [h, ih]
    · next h => simp [h]

/-- Whether `StartController` returns without an error. -/
def Attempt.startController (a : Attempt) : Bool := preSeedController a.engages a.clusters

def Attempt.answers (a : Attempt) : Answers :=
  ⟨a.readable, a.bound, a.created, a.startController⟩

/-- Every call of the pre-seeding succeeds. -/
def Attempt.Seeds (a : Attempt) : Prop := ∀ name ∈ a.clusters, a.engages name = true

theorem Attempt.Seeds.started {a : Attempt} (h : a.Seeds) : a.answers.started = true :=
  preSeedController_iff.mpr h

/-- The manager and the controllers whose `Start` has returned. -/
structure Runtime where
  state : State := .init
  exited : List Nat := []

/-- A change of the PublishedResources, a Reconcile of one of them, or the end of a controller. -/
inductive Action where
  | apply (pr : PublishedResource)
  | remove (name : String)
  | reconcile (name : String) (a : Attempt)
  | exit (i : Nat)

namespace Runtime

def step (r : Runtime) : Action → Runtime
  | .apply pr => { r with state := SyncManager.step r.state (.apply pr) }
  | .remove name => { r with state := SyncManager.step r.state (.remove name) }
  | .reconcile name a => { r with state := SyncManager.step r.state (.reconcile name a.answers) }
  | .exit i => if i < r.state.controllers.length then { r with exited := i :: r.exited } else r

/-- A controller of this version of the PublishedResource runs. -/
def Running (r : Runtime) (pr : PublishedResource) : Prop :=
  ∃ i c, r.state.controllers[i]? = some c ∧
    getPublishedResourceKey c.pubRes = getPublishedResourceKey pr ∧ c.cancelled = false ∧
    i ∉ r.exited

end Runtime

/-- No start fails: every pre-seeding succeeds, and a controller ends only after its context was
cancelled. -/
def Action.Succeeds (r : Runtime) : Action → Prop
  | .apply _ => True
  | .remove _ => True
  | .reconcile _ a => a.Seeds
  | .exit i => ∀ c, r.state.controllers[i]? = some c → c.cancelled = true

/-- The states of runs in which no start fails. -/
inductive Reaches : Runtime → Prop
  | init : Reaches {}
  | step {r : Runtime} {action : Action} : Reaches r → action.Succeeds r → Reaches (r.step action)

/-- A failure leaves the registry as it was, each entry of it belongs to a controller that is not
cancelled, and a Reconcile whose calls succeed starts a controller if and only if none is
running. -/
structure Retries (r : Runtime) : Prop where
  failed : ∀ pr (a : Attempt) text, a.Seeds →
    (ensureSyncController r.state pr a.answers).2 = .failed text →
    ∀ key, ((ensureSyncController r.state pr a.answers).1.syncCancels.get? key).isSome =
      (r.state.syncCancels.get? key).isSome
  live : ∀ key i, r.state.syncCancels.get? key = some i → ∃ c, r.state.controllers[i]? = some c ∧
    getPublishedResourceKey c.pubRes = key ∧ c.cancelled = false
  restarts : ∀ name pr (a : Attempt), r.state.published.get? name = some pr → wanted pr = true →
    a.readable = true → a.bound = some true → a.created = true → a.Seeds →
    ((SyncManager.reconcile r.state name a.answers).1.controllers =
      r.state.controllers ++ [⟨pr, false⟩] ↔ ¬ r.Running pr)

/-! ### The registry -/

/-- Registered controllers are live, and those that have ended are cancelled. -/
structure Inv (r : Runtime) : Prop where
  live : ∀ key i, r.state.syncCancels.get? key = some i →
    ∃ c, r.state.controllers[i]? = some c ∧ c.cancelled = false
  exited : ∀ i ∈ r.exited, ∃ c, r.state.controllers[i]? = some c ∧ c.cancelled = true

/-- What `ensureSyncController` does if the pre-seeding succeeds. -/
theorem ensureSyncController_cases (s : State) (pr : PublishedResource) {a : Answers}
    (hstarted : a.started = true) :
    (ensureSyncController s pr a).1 = s ∨
    ∃ hfree : s.syncCancels.get? (getPublishedResourceKey pr) = none,
      ensureSyncController s pr a = (s.start pr false hfree, .done) := by
  unfold ensureSyncController
  split
  · exact .inl rfl
  · next hfree =>
    split
    · exact .inl rfl
    · exact .inl rfl
    · split
      · exact .inl rfl
      · rw [hstarted]
        exact .inr ⟨hfree, rfl⟩

namespace Inv

variable {r : Runtime} (h : Inv r)

include h

theorem start {pr : PublishedResource}
    (hfree : r.state.syncCancels.get? (getPublishedResourceKey pr) = none) :
    Inv { r with state := r.state.start pr false hfree } where
  live key i hget := by
    change (r.state.syncCancels.insert _ _).get? key = some i at hget
    rw [SortedMap.get?_insert] at hget
    change ∃ c, (r.state.controllers ++ [⟨pr, false⟩])[i]? = some c ∧ _
    split at hget
    · cases hget
      exact ⟨⟨pr, false⟩, List.getElem?_concat_length, rfl⟩
    · obtain ⟨c, hc, hlive⟩ := h.live key i hget
      exact ⟨c, by rw [List.getElem?_append_left (List.getElem?_eq_some_iff.mp hc).1, hc], hlive⟩
  exited i hi := by
    obtain ⟨c, hc, hcancelled⟩ := h.exited i hi
    refine ⟨c, ?_, hcancelled⟩
    change (r.state.controllers ++ [⟨pr, false⟩])[i]? = some c
    rw [List.getElem?_append_left (List.getElem?_eq_some_iff.mp hc).1, hc]

theorem stop {key : String} {i : Nat} (hi : r.state.syncCancels.get? key = some i) :
    Inv { r with state := r.state.stop key i hi } where
  live key' j hget := by
    change (r.state.syncCancels.erase key).get? key' = some j at hget
    rw [SortedMap.get?_erase] at hget
    split at hget
    · cases hget
    · next hne =>
      obtain ⟨c, hc, hlive⟩ := h.live key' j hget
      have hij : i ≠ j := by
        rintro rfl
        obtain ⟨c₁, hc₁, hkey₁⟩ := r.state.registered key i hi
        obtain ⟨c₂, hc₂, hkey₂⟩ := r.state.registered key' i hget
        rw [hc₁] at hc₂
        cases hc₂
        exact hne (hkey₂.symm.trans hkey₁)
      refine ⟨c, ?_, hlive⟩
      change (r.state.controllers.modify i _)[j]? = some c
      rw [List.getElem?_modify, hc]
      exact congrArg some (if_neg hij)
  exited j hj := by
    obtain ⟨c, hc, hcancelled⟩ := h.exited j hj
    change ∃ c, (r.state.controllers.modify i _)[j]? = some c ∧ _
    rw [List.getElem?_modify, hc]
    refine ⟨_, rfl, ?_⟩
    split
    · rfl
    · exact hcancelled

theorem reconcile {name : String} {a : Answers} (hstarted : a.started = true) :
    Inv { r with state := (SyncManager.reconcile r.state name a).1 } := by
  unfold SyncManager.reconcile
  split
  · exact h
  · split
    · exact h
    · next pr _ =>
      split
      · unfold cleanupController
        split
        · next i hi => exact h.stop hi
        · exact h
      · rcases ensureSyncController_cases r.state pr hstarted with hsame | ⟨hfree, hstart⟩
        · rw [hsame]
          exact h
        · rw [hstart]
          exact h.start hfree

theorem step {action : Action} (hsucceeds : action.Succeeds r) : Inv (r.step action) := by
  cases action with
  | apply pr => exact ⟨h.live, h.exited⟩
  | remove name => exact ⟨h.live, h.exited⟩
  | reconcile name a => exact h.reconcile (Attempt.Seeds.started hsucceeds)
  | exit i =>
    rw [Runtime.step]
    split
    · next hi =>
      refine ⟨h.live, fun j hj => ?_⟩
      rcases List.mem_cons.mp hj with rfl | hj
      · exact ⟨_, List.getElem?_eq_getElem hi, hsucceeds _ (List.getElem?_eq_getElem hi)⟩
      · exact h.exited j hj
    · exact h

end Inv

theorem Reaches.inv {r : Runtime} (h : Reaches r) : Inv r := by
  induction h with
  | init => exact ⟨fun key i hget => by simp [State.init] at hget, fun i hi => by cases hi⟩
  | step _ hsucceeds ih => exact ih.step hsucceeds

/-! ### Starts -/

theorem Inv.running_iff {r : Runtime} (h : Inv r) (pr : PublishedResource) :
    r.Running pr ↔ ∃ i, r.state.syncCancels.get? (getPublishedResourceKey pr) = some i := by
  constructor
  · rintro ⟨i, c, hc, hkey, hlive, -⟩
    exact ⟨i, hkey ▸ r.state.live_registered i c hc hlive⟩
  · rintro ⟨i, hi⟩
    obtain ⟨c, hc, hkey⟩ := r.state.registered _ i hi
    obtain ⟨c', hc', hlive⟩ := h.live _ i hi
    rw [hc] at hc'
    cases hc'
    refine ⟨i, c, hc, hkey, hlive, fun hexited => ?_⟩
    obtain ⟨c', hc', hcancelled⟩ := h.exited i hexited
    rw [hc] at hc'
    cases hc'
    rw [hlive] at hcancelled
    cases hcancelled

/-- In every run in which no start fails, failures are retried. -/
theorem retries_of_reaches {r : Runtime} (h : Reaches r) : Retries r where
  failed pr a text hseeds hfailed key := by
    rcases ensureSyncController_cases r.state pr hseeds.started with hsame | ⟨_, hstart⟩
    · rw [hsame]
    · rw [hstart] at hfailed
      cases hfailed
  live key i hget := by
    obtain ⟨c, hc, hkey⟩ := r.state.registered key i hget
    obtain ⟨c', hc', hlive⟩ := h.inv.live key i hget
    rw [hc] at hc'
    cases hc'
    exact ⟨c, hc, hkey, hlive⟩
  restarts name pr a hget hwanted hread hbound hcreated hseeds := by
    have hrec : SyncManager.reconcile r.state name a.answers =
        ensureSyncController r.state pr a.answers := by
      simp [SyncManager.reconcile, Attempt.answers, hread, hget, hwanted]
    rw [hrec, h.inv.running_iff]
    cases hreg : r.state.syncCancels.get? (getPublishedResourceKey pr) with
    | some i =>
      rw [ensureSyncController_of_registered hreg]
      simp
    | none =>
      refine iff_of_true ?_ (by simp)
      unfold ensureSyncController
      split
      · next hi =>
        rw [hreg] at hi
        cases hi
      · have hstarted := hseeds.started
        simp only [Attempt.answers] at hstarted
        simp [Attempt.answers, hbound, hcreated, hstarted, State.start]

theorem retries_started : ∃ r, Reaches r ∧ r.Running firstVersion ∧ Retries r := by
  have hreaches : Reaches ((({} : Runtime).step (.apply firstVersion)).step
      (.reconcile "crontabs" { clusters := ["root:org"] })) := by
    refine .step (.step .init trivial) ?_
    intro name _
    rfl
  have hrunning : ((({} : Runtime).step (.apply firstVersion)).step
      (.reconcile "crontabs" { clusters := ["root:org"] })).Running firstVersion :=
    ⟨0, ⟨firstVersion, false⟩, by decide +kernel, rfl, rfl, by decide⟩
  exact ⟨_, hreaches, hrunning, retries_of_reaches hreaches⟩

/-- The controller cannot engage a cluster: the Reconcile fails and its entry stays, although the
context was cancelled.  The next Reconcile does not start another one. -/
theorem failed_start_registered :
    ∃ s s', s = run [.apply firstVersion] ∧
      ensureSyncController s firstVersion
        ({ clusters := ["root:org"], engages := fun _ => false } : Attempt).answers =
        (s', .failed "failed to start sync controller") ∧
      s.syncCancels.get? "u1-1" = none ∧ s'.syncCancels.get? "u1-1" = some 0 ∧
      s'.controllers = [⟨firstVersion, true⟩] ∧
      (reconcile s' "crontabs" {}).1.controllers = s'.controllers :=
  ⟨_, _, rfl, by rfl, by decide +kernel, by decide +kernel, by decide +kernel, by decide +kernel⟩

end SyncManager
