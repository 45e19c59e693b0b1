import SyncAgent.Lib.SortedMap
import Mathlib.Data.List.Nodup
import Mathlib.Logic.Relation

/-! The dynamic multicluster manager (`internal/kcp/multicluster.go`): a tracker remembers the
engaged clusters, so that a controller that starts later can be engaged with them.  Every section
under a lock is one step, and so is the membership check at the start of `Engage`, which holds no
lock.  The other steps are the end of a context, the cleanup goroutine of an engagement, and the
start and the end of a controller. -/

namespace Kcp

structure EngagedCluster where
  ctx : Nat
  cl : Nat
deriving DecidableEq

abbrev Engagement := String × EngagedCluster

/-- A controller that was started, with the `Engage` calls that it has received. -/
structure Runnable where
  engaged : List Engagement
deriving DecidableEq

/-- The state of the manager.  `inserting` are the calls of `Engage` between the membership check
and the insertion into the tracker, `forwarding` those before the call is forwarded to the
controllers, and `cleanups` the goroutines that wait for the end of a context.  `latest` records the
last call of `Engage` for each name. -/
structure State where
  clusters : SortedMap String EngagedCluster := ∅
  runnables : SortedMap String Runnable := ∅
  inserting : List Engagement := []
  forwarding : List Engagement := []
  cleanups : List (String × Nat) := []
  ended : List Nat := []
  latest : SortedMap String EngagedCluster := ∅

namespace State

/-- A call of `Engage` begins: a known name is not inserted again. -/
def engage (s : State) (name : String) (e : EngagedCluster) : State :=
  let s := { s with latest := s.latest.insert name e }
  match s.clusters.get? name with
  | some _ => { s with forwarding := (name, e) :: s.forwarding }
  | none => { s with inserting := (name, e) :: s.inserting }

/-- The cluster is inserted, and a goroutine waits for the end of its context. -/
def insertCluster (s : State) (c : Engagement) : State :=
  { s with
    clusters := s.clusters.insert c.1 c.2
    inserting := s.inserting.erase c
    forwarding := c :: s.forwarding
    cleanups := (c.1, c.2.ctx) :: s.cleanups }

/-- All running controllers get the call. -/
def forward (s : State) (c : Engagement) : State :=
  { s with
    runnables := s.runnables.mapValues fun _ r => ⟨c :: r.engaged⟩
    forwarding := s.forwarding.erase c }

/-- The goroutine of an engagement removes the cluster by its name. -/
def cleanup (s : State) (g : String × Nat) : State :=
  { s with clusters := s.clusters.erase g.1, cleanups := s.cleanups.erase g }

/-- `StartController`: the new controller is engaged with all known clusters. -/
def startController (s : State) (mapKey : String) : State :=
  { s with runnables := s.runnables.insert mapKey ⟨s.clusters.entries⟩ }

def stopController (s : State) (mapKey : String) : State :=
  { s with runnables := s.runnables.erase mapKey }

end State

/-- A step of the manager.  `admits` restricts the states in which `Engage` is called with a
name. -/
inductive Step (admits : State → String → Prop) : State → State → Prop where
  | engage {s} name e : admits s name → Step admits s (s.engage name e)
  | insertCluster {s} c : c ∈ s.inserting → Step admits s (s.insertCluster c)
  | forward {s} c : c ∈ s.forwarding → Step admits s (s.forward c)
  | endContext {s : State} ctx : Step admits s { s with ended := ctx :: s.ended }
  | cleanup {s} g : g ∈ s.cleanups → g.2 ∈ s.ended → Step admits s (s.cleanup g)
  | startController {s} mapKey : s.runnables.get? mapKey = none →
      Step admits s (s.startController mapKey)
  | stopController {s} mapKey : Step admits s (s.stopController mapKey)

abbrev Reaches (admits : State → String → Prop) := Relation.ReflTransGen (Step admits)

/-- No call of `Engage` is under way, and every cleanup whose context has ended has run. -/
structure Quiet (s : State) : Prop where
  inserting : s.inserting = []
  forwarding : s.forwarding = []
  cleanups : ∀ g ∈ s.cleanups, g.2 ∉ s.ended

/-- The tracker holds exactly the clusters whose latest context is live, and every running
controller has been engaged with each of them. -/
structure Tracked (s : State) : Prop where
  clusters : ∀ name e, s.clusters.get? name = some e ↔
    s.latest.get? name = some e ∧ e.ctx ∉ s.ended
  engaged : ∀ mapKey r, s.runnables.get? mapKey = some r →
    ∀ name e, s.clusters.get? name = some e → (name, e) ∈ r.engaged

/-- The name is not in the tracker, and no call of `Engage` is about to insert it. -/
def Free (s : State) (name : String) : Prop :=
  s.clusters.get? name = none ∧ ∀ e, (name, e) ∉ s.inserting

/-- What holds while calls and goroutines are under way. -/
structure Inv (s : State) : Prop where
  cleanup_iff : ∀ name ctx, (name, ctx) ∈ s.cleanups ↔
    ∃ e, s.clusters.get? name = some e ∧ e.ctx = ctx
  cleanups_nodup : s.cleanups.Nodup
  latest : ∀ name e, s.clusters.get? name = some e → s.latest.get? name = some e
  inserting : ∀ c ∈ s.inserting, s.clusters.get? c.1 = none ∧ s.latest.get? c.1 = some c.2
  inserting_nodup : s.inserting.Nodup
  live : ∀ name e, s.latest.get? name = some e → e.ctx ∉ s.ended →
    s.clusters.get? name = some e ∨ (name, e) ∈ s.inserting
  engaged : ∀ mapKey r, s.runnables.get? mapKey = some r →
    ∀ name e, s.clusters.get? name = some e → (name, e) ∈ r.engaged ∨ (name, e) ∈ s.forwarding

theorem Inv.init : Inv {} := by
  constructor <;> simp

section Steps

variable {s : State} (h : Inv s)

include h

theorem Inv.engage {name : String} {e : EngagedCluster} (hfree : Free s name) :
    Inv (s.engage name e) := by
  obtain ⟨hnone, hinserting⟩ := hfree
  have hne : ∀ n e', s.clusters.get? n = some e' → n ≠ name := by
    rintro n e' hn rfl
    rw [hnone] at hn
    cases hn
  have hengage : s.engage name e =
      { s with latest := s.latest.insert name e, inserting := (name, e) :: s.inserting } := by
    simp only [State.engage, hnone]
  rw [hengage]
  refine ⟨h.cleanup_iff, h.cleanups_nodup, fun n e' hn => ?_, fun c hc => ?_, ?_,
    fun n e' hn hlive => ?_, h.engaged⟩
  · rw [SortedMap.get?_insert, if_neg (hne n e' hn)]
    exact h.latest n e' hn
  · rcases List.mem_cons.mp hc with rfl | hc
    · exact ⟨hnone, by simp⟩
    · have hname : c.1 ≠ name := fun heq => hinserting c.2 (heq ▸ hc)
      rw [SortedMap.get?_insert, if_neg hname]
      exact h.inserting c hc
  · exact List.nodup_cons.mpr ⟨hinserting e, h.inserting_nodup⟩
  · rw [SortedMap.get?_insert] at hn
    split at hn
    · next heq =>
      cases hn
      exact .inr (by simp [heq])
    · exact (h.live n e' hn hlive).imp_right (List.mem_cons_of_mem _)

theorem Inv.insertCluster {c : Engagement} (hc : c ∈ s.inserting) : Inv (s.insertCluster c) := by
  obtain ⟨hnone, hlatest⟩ := h.inserting c hc
  have hget : ∀ n e, (s.clusters.insert c.1 c.2).get? n = some e →
      n = c.1 ∧ e = c.2 ∨ s.clusters.get? n = some e := by
    intro n e hn
    rw [SortedMap.get?_insert] at hn
    split at hn
    · next heq => exact .inl ⟨heq, (Option.some.inj hn).symm⟩
    · exact .inr hn
  refine ⟨fun n ctx => ?_, ?_, fun n e hn => ?_, fun c' hc' => ?_, ?_, fun n e hn hlive => ?_,
    fun key r hr n e hn => ?_⟩
  · simp only [State.insertCluster, List.mem_cons, Prod.mk.injEq, h.cleanup_iff,
      SortedMap.get?_insert]
    by_cases hname : n = c.1
    · subst hname
      simp [hnone, eq_comm]
    · simp [hname]
  · refine List.nodup_cons.mpr ⟨fun hmem => ?_, h.cleanups_nodup⟩
    obtain ⟨e, he, -⟩ := (h.cleanup_iff _ _).mp hmem
    rw [hnone] at he
    cases he
  · rcases hget n e hn with ⟨rfl, rfl⟩ | hn
    · exact hlatest
    · exact h.latest n e hn
  · obtain ⟨hne, hmem⟩ := (List.Nodup.mem_erase_iff h.inserting_nodup).mp hc'
    obtain ⟨hnone', hlatest'⟩ := h.inserting c' hmem
    refine ⟨?_, hlatest'⟩
    have hname : c'.1 ≠ c.1 := by
      intro heq
      rw [heq, hlatest] at hlatest'
      exact hne (Prod.ext heq (Option.some.inj hlatest').symm)
    rw [State.insertCluster, SortedMap.get?_insert, if_neg hname, hnone']
  · exact h.inserting_nodup.erase _
  · simp only [State.insertCluster, SortedMap.get?_insert]
    by_cases hname : n = c.1
    · subst hname
      rw [if_pos rfl]
      exact .inl (hlatest.symm.trans hn)
    · rw [if_neg hname]
      refine (h.live n e hn hlive).imp_right fun hmem => ?_
      exact (List.Nodup.mem_erase_iff h.inserting_nodup).mpr
        ⟨fun heq => hname (by rw [← heq]), hmem⟩
  · rcases hget n e hn with ⟨rfl, rfl⟩ | hn
    · exact .inr List.mem_cons_self
    · exact (h.engaged key r hr n e hn).imp_right (List.mem_cons_of_mem _)

theorem Inv.forward {c : Engagement} : Inv (s.forward c) := by
  refine ⟨h.cleanup_iff, h.cleanups_nodup, h.latest, h.inserting, h.inserting_nodup, h.live,
    fun key r hr n e hn => ?_⟩
  simp only [State.forward, SortedMap.get?_mapValues, Option.map_eq_some_iff] at hr
  obtain ⟨r₀, hr₀, rfl⟩ := hr
  by_cases hc : (n, e) = c
  · exact .inl (by simp [hc])
  · rcases h.engaged key r₀ hr₀ n e hn with hmem | hmem
    · exact .inl (List.mem_cons_of_mem _ hmem)
    · exact .inr ((List.mem_erase_of_ne hc).mpr hmem)

theorem Inv.endContext (ctx : Nat) : Inv { s with ended := ctx :: s.ended } := by
  refine ⟨h.cleanup_iff, h.cleanups_nodup, h.latest, h.inserting, h.inserting_nodup,
    fun n e hn hlive => h.live n e hn fun hmem => hlive ?_, h.engaged⟩
  exact List.mem_cons_of_mem _ hmem

theorem Inv.cleanup {g : String × Nat} (hg : g ∈ s.cleanups) (hended : g.2 ∈ s.ended) :
    Inv (s.cleanup g) := by
  obtain ⟨e₀, he₀, hctx⟩ := (h.cleanup_iff g.1 g.2).mp hg
  have hget : ∀ n e, (s.clusters.erase g.1).get? n = some e →
      n ≠ g.1 ∧ s.clusters.get? n = some e := by
    intro n e hn
    rw [SortedMap.get?_erase] at hn
    split at hn
    · cases hn
    · next hne => exact ⟨hne, hn⟩
  refine ⟨fun n ctx => ?_, h.cleanups_nodup.erase _, fun n e hn => h.latest n e (hget n e hn).2,
    fun c hc => ?_, h.inserting_nodup, fun n e hn hlive => ?_,
    fun key r hr n e hn => h.engaged key r hr n e (hget n e hn).2⟩
  · simp only [State.cleanup, h.cleanups_nodup.mem_erase_iff, h.cleanup_iff, SortedMap.get?_erase]
    by_cases hname : n = g.1
    · subst hname
      simp only [he₀, Option.some.injEq, if_true, ne_eq, exists_eq_left', reduceCtorEq, false_and,
        exists_false, iff_false, not_and, hctx]
      exact fun hne heq => hne (by rw [← heq])
    · have hne : (n, ctx) ≠ g := fun heq => hname (by rw [← heq])
      simp [hname, hne]
  · obtain ⟨hnone, hlatest⟩ := h.inserting c hc
    refine ⟨?_, hlatest⟩
    rw [State.cleanup, SortedMap.get?_erase, hnone, ite_self]
  · -- The latest context of the name has ended, if it is the one that is removed.
    refine (h.live n e hn hlive).imp_left fun hcluster => ?_
    have hname : n ≠ g.1 := by
      rintro rfl
      obtain rfl : e₀ = e := Option.some.inj (he₀.symm.trans hcluster)
      exact hlive (hctx ▸ hended)
    rw [State.cleanup, SortedMap.get?_erase, if_neg hname, hcluster]

theorem Inv.startController (mapKey : String) : Inv (s.startController mapKey) := by
  refine ⟨h.cleanup_iff, h.cleanups_nodup, h.latest, h.inserting, h.inserting_nodup, h.live,
    fun key r hr n e hn => ?_⟩
  simp only [State.startController, SortedMap.get?_insert] at hr
  split at hr
  · cases hr
    exact .inl (SortedMap.mem_entries.mpr hn)
  · exact h.engaged key r hr n e hn

theorem Inv.stopController (mapKey : String) : Inv (s.stopController mapKey) := by
  refine ⟨h.cleanup_iff, h.cleanups_nodup, h.latest, h.inserting, h.inserting_nodup, h.live,
    fun key r hr n e hn => ?_⟩
  simp only [State.stopController, SortedMap.get?_erase] at hr
  split at hr
  · cases hr
  · exact h.engaged key r hr n e hn

theorem Inv.step {s' : State} (hstep : Step Free s s') : Inv s' := by
  cases hstep with
  | engage name e hfree => exact h.engage hfree
  | insertCluster c hc => exact h.insertCluster hc
  | forward c _ => exact h.forward
  | endContext ctx => exact h.endContext ctx
  | cleanup g hg hended => exact h.cleanup hg hended
  | startController mapKey _ => exact h.startController mapKey
  | stopController mapKey => exact h.stopController mapKey

theorem Inv.tracked (hquiet : Quiet s) : Tracked s := by
  refine ⟨fun name e => ⟨fun hcluster => ⟨h.latest name e hcluster, ?_⟩,
    fun ⟨hlatest, hlive⟩ => ?_⟩,
    fun mapKey r hr name e hcluster => ?_⟩
  · exact hquiet.cleanups (name, e.ctx) ((h.cleanup_iff name e.ctx).mpr ⟨e, hcluster, rfl⟩)
  · rcases h.live name e hlatest hlive with hcluster | hmem
    · exact hcluster
    · simp [hquiet.inserting] at hmem
  · rcases h.engaged mapKey r hr name e hcluster with hmem | hmem
    · exact hmem
    · simp [hquiet.forwarding] at hmem

end Steps

theorem inv_of_reaches {s : State} (h : Reaches Free {} s) : Inv s := by
  induction h with
  | refl => exact .init
  | tail _ hstep ih => exact ih.step hstep

/-- In every run in which `Engage` is called only with names that are free, a quiet tracker holds
exactly the live clusters, and every controller knows them. -/
theorem tracked_of_free {s : State} (h : Reaches Free {} s) (hquiet : Quiet s) : Tracked s :=
  (inv_of_reaches h).tracked hquiet

/-! ### A workspace that comes back -/

/-- A controller is running, and a workspace has been engaged. -/
def engagedState : State :=
  let e : Engagement := ("workspace", ⟨1, 0⟩)
  ((State.startController {} "controller").engage e.1 e.2 |>.insertCluster e).forward e

theorem reaches_engagedState {admits : State → String → Prop}
    (hadmits : admits (State.startController {} "controller") "workspace") :
    Reaches admits {} engagedState := by
  refine .head (.startController "controller" (by decide)) ?_
  refine .head (.engage "workspace" ⟨1, 0⟩ hadmits) ?_
  refine .head (.insertCluster ("workspace", ⟨1, 0⟩) (by decide)) ?_
  exact .single (.forward ("workspace", ⟨1, 0⟩) (by decide))

theorem tracked_engagedState : Quiet engagedState ∧ Tracked engagedState := by
  have hquiet : Quiet engagedState := ⟨by decide, by decide, by decide⟩
  exact ⟨hquiet, tracked_of_free (reaches_engagedState ⟨by decide, fun e he => by cases he⟩) hquiet⟩

/-- The context of the workspace ends, the workspace is engaged again with a new one, and only then
the goroutine of the old context runs. -/
def returnedState : State :=
  let s := { engagedState with ended := [1] }.engage "workspace" ⟨2, 0⟩
  (s.cleanup ("workspace", 1)).forward ("workspace", ⟨2, 0⟩)

/-- A workspace that comes back before its old entry is removed is lost. -/
theorem workspace_lost : ∃ s,
    Reaches (fun s name => ∀ e, s.latest.get? name = some e → e.ctx ∈ s.ended) {} s ∧
      Quiet s ∧ ¬ Tracked s := by
  refine ⟨returnedState, ?_, ⟨by decide, by decide, by decide⟩, fun htracked => ?_⟩
  · refine (reaches_engagedState (fun e h => by cases h)).trans ?_
    refine .head (.endContext 1) ?_
    refine .head (.engage "workspace" ⟨2, 0⟩ fun e h => ?_) ?_
    · have hlatest : engagedState.latest.get? "workspace" = some ⟨1, 0⟩ := by decide
      obtain rfl : ⟨1, 0⟩ = e := Option.some.inj (hlatest.symm.trans h)
      decide
    · refine .head (.cleanup ("workspace", 1) (by decide) (by decide)) ?_
      exact .single (.forward ("workspace", ⟨2, 0⟩) (by decide))
  · have hlive : returnedState.latest.get? "workspace" = some ⟨2, 0⟩ ∧ 2 ∉ returnedState.ended := by
      decide
    have hcluster := (htracked.clusters "workspace" ⟨2, 0⟩).mpr hlive
    exact absurd hcluster (by decide)

end Kcp
