import SyncAgent.Sync.Convergence

/-! Runs in which the local object converges to the remote one, and runs in which it does not: an
update is lost if a state could not be stored, and an adopted object keeps its old content. -/

namespace Sync

open Kube

namespace Primary

variable {P : Primary} {X : Prop} {M : ObjectMeta}

theorem run_passed (hP : P.Merges) {init : World → Prop} {cond : Unstructured → World → Prop}
    (hinit : ∀ w, init w → P.Synced X M w)
    (hcond : ∀ r w, P.Synced X M w → cond r w → r.metadata.deletionTimestamp = none →
      P.Syncable X M r ∧ P.Prepared r w) {w : World} {r : Unstructured} {requeue : Bool}
    (h : Run (P.localEnvironment P.KeepsUpdates) init (P.starts cond) w
      (some (.pure (r, .ok requeue)))) : P.Passed X M r requeue w := by
  refine (Run.keeps (G := .ofState api fun _ => True) (J := P.Synced X M)
    (Q := fun result => Fallible.Outcome (P.Passed X M result.1) (P.Synced X M) result.2)
    hinit (fun w w' hw hr => (LeavesLocal.same hr).synced hw) (fun _ _ _ hr => False.elim hr)
    (fun _ _ _ _ => trivial) (fun _ _ => trivial) ?_ ?_ ?_ h).2
  · rintro ⟨r, _ | requeue⟩ w w' hw hr
    · exact (LeavesLocal.same hr).synced hw
    · exact ⟨(LeavesLocal.same hr).synced hw.1,
        fun hdone hlive => (LeavesLocal.same hr).result (hw.2 hdone hlive)⟩
  · rintro ⟨r, _ | requeue⟩ w hw
    · exact hw
    · exact hw.1
  · rintro w _ hw ⟨r, hobj, hstart, rfl⟩
    have hr : r.idOn (.remoteClient P.clusterName) = P.id := World.idOn_of_object? hobj
    have hpass := (localPass hr hP fun hlive => (hcond r w hw hstart hlive).1).process_keeps
      ⟨hw, fun hlive => (hcond r w hw hstart hlive).2⟩
    refine (P.pass_keeps hpass).mono ?_
    rintro ⟨_, result⟩ w ⟨hw, rfl⟩
    exact hw

/-! ### Lost updates -/

/-- Nothing was synced yet. -/
structure Unsynced (P : Primary) (w : World) : Prop where
  free : ∀ id, P.Generated id → w.object? id = none
  notStored : P.stored w = none

/-- The user edits the content of the remote object, but not its metadata. -/
def Edited (P : Primary) (M : ObjectMeta) (r : Unstructured) (_ : World) : Prop :=
  r.metadata.deletionTimestamp = none →
    (P.content r).NullFree ∧ (stripMetadata r).metadata = M

theorem merges_sample : (sample []).Merges := ⟨rfl, rfl, by decide, fun _ => by decide⟩

/-- The content of the sample object with one schedule. -/
def schedule (time : String) : Content := .ofFields (SortedMap.insert ∅ "spec" (.str time))

/-- The user edits the schedule of the sample object. -/
def reschedule (time : String) (w : World) : World :=
  w.put (.remoteClient "c1") (sampleObject ∅ (schedule time))

theorem reschedule_leavesLocal (time : String) (w : World) :
    (sample []).LeavesLocal w (reschedule time w) := by
  have hsame : ∀ id, (sample []).isLocal id → (reschedule time w).object? id = w.object? id := by
    intro id hid
    rw [reschedule, World.object?_put, if_neg fun heq => by rw [heq] at hid; cases hid.1]
  refine ⟨fun id o => ⟨fun ho => ?_, fun ho => ?_⟩, rfl⟩
  · exact ⟨ho.place, hsame id ho.place ▸ ho.object, ho.known⟩
  · exact ⟨ho.place, (hsame id ho.place).trans ho.object, ho.known⟩

theorem generated_sampleCopy : (sample []).Generated sampleCopy :=
  ⟨sampleObject ∅ default, ⟨crontabType, { (sampleObject ∅ default).metadata with
    ns := "tenant", name := "daily" }, default⟩, rfl, by decide +kernel, rfl⟩

theorem unsynced_sampleWorld (labels : StringMap) (content : Content) :
    (sample []).Unsynced (sampleWorld labels content) := by
  refine ⟨fun id hid => ?_, by rfl⟩
  cases hobj : (sampleWorld labels content).object? id with
  | none => rfl
  | some o =>
    obtain ⟨r, d, -, -, hplace⟩ := hid
    rw [(object?_sampleWorld hobj).1] at hplace
    cases congrArg ObjectId.client hplace

/-- Neither side is being deleted, and the two objects pass a test. -/
def testObjects (test : Unstructured → Unstructured → Bool) (r : Unstructured) (w : World) : Bool :=
  r.metadata.deletionTimestamp.isNone && (w.object? sampleCopy).any fun o =>
    o.metadata.deletionTimestamp.isNone && test r o

theorem exists_finished (exec : (c : api.Call) → World → Option (api.Resp c × World)) (w₀ : World)
    (test : Unstructured → Unstructured → Bool)
    (h : ((sample []).passResult exec w₀).any (fun result =>
      decide (result.1.2.toOption = some false) && testObjects test result.1.1 result.2) = true) :
    ∃ r w o, (sample []).passResult exec w₀ = some ((r, .ok false), w) ∧
      r.metadata.deletionTimestamp = none ∧ (sample []).Local w sampleCopy o ∧
      o.metadata.deletionTimestamp = none ∧ test r o = true := by
  obtain ⟨r, w, hresult, htest⟩ := (sample []).exists_result false (testObjects test) h
  rw [testObjects, Bool.and_eq_true, Option.isNone_iff_eq_none, Option.any_eq_true] at htest
  obtain ⟨hlive, o, ho, hboth⟩ := htest
  rw [Bool.and_eq_true, Option.isNone_iff_eq_none] at hboth
  exact ⟨r, w, o, hresult, hlive, ⟨⟨rfl, rfl⟩, ho, .inl generated_sampleCopy⟩, hboth⟩

/-- The metadata of the sample object, as it is synced. -/
def sampleMeta : ObjectMeta := (stripMetadata (sampleObject ∅ default)).metadata

theorem edited_schedule {time : String} {w : World} {r : Unstructured}
    (h : (reschedule time w).object? (sample []).id = some r) (w' : World) :
    (sample []).Edited sampleMeta r w' := by
  rw [reschedule, World.object?_put, if_pos (by rfl)] at h
  cases h
  exact fun _ => ⟨by rfl, rfl⟩

/-- `execOwn` where every state is stored. -/
def execStoring (c : api.Call) (w : World) : Option (api.Resp c × World) :=
  (execOwn c w).filter fun result => c.verb.secretTarget = none || !c.isError result.1

theorem execStoring_eq_some {c : api.Call} {w w' : World} {r : api.Resp c}
    (h : execStoring c w = some (r, w')) :
    ((sample []).localEnvironment (sample []).KeepsUpdates).does c w r w' := by
  obtain ⟨hown, hstoring⟩ := Option.filter_eq_some_iff.mp h
  obtain ⟨hdoes, hscope⟩ := execOwn_eq_some hown
  refine ⟨hdoes, fun hrel => ?_, fun _ hsecret _ => ?_⟩
  · rw [hscope] at hrel
    cases hrel
  · simpa [hsecret] using hstoring

/-- The world after the copy of the sample object has been created. -/
def scheduledWorld (time : String) : World :=
  reschedule time ((sample []).afterPass execStoring (reschedule time (sampleWorld ∅ default)))

/-- `execOwn` where no state is stored over an older one. -/
def execUnstored : (c : api.Call) → World → Option (api.Resp c × World)
  | ⟨_, .updateSecret ..⟩, w => some (.error .other, w)
  | c, w => execOwn c w

theorem execUnstored_eq_some {c : api.Call} {w w' : World} {r : api.Resp c}
    (h : execUnstored c w = some (r, w')) : World.Does .setting c w r w' := by
  unfold execUnstored at h
  split at h
  · cases h
    exact .inr ⟨rfl, rfl⟩
  · exact (execOwn_eq_some h).1

/-- The schedule was edited, and the pass that patched the copy could not store the new state; then
the edit was taken back. -/
def revertedWorld : World :=
  reschedule "daily" ((sample []).afterPass execUnstored
    (reschedule "hourly" (scheduledWorld "daily")))

/-- The remote object can be synced, and what is adopted for it has its content already. -/
def Adoptable (P : Primary) (r : Unstructured) (w : World) : Prop :=
  r.metadata.deletionTimestamp = none → (P.content r).NullFree ∧ P.Prepared r w

/-- Whatever local objects there are at the beginning: as long as every pass that finds an object
under the generated name without the labels of the link finds the content of the remote object on
it, a pass that asks for no requeue leaves a local object with the content of the version that it
has read. -/
theorem local_converges (hP : P.Merges) {w : World} {r : Unstructured}
    (h : Run (P.localEnvironment P.KeepsUpdates) (fun w => P.stored w = none)
      (P.starts P.Adoptable) w (some (.pure (r, .ok false))))
    (hlive : r.metadata.deletionTimestamp = none) :
    (∃ id o, P.Local w id o) ∧
      ∀ id o, P.Local w id o → o.metadata.deletionTimestamp = none → P.HasContent o r := by
  have hpassed : P.Passed False r.metadata r false w := by
    refine run_passed hP (fun w hw => ?_) (fun r w _ hadoptable hlive => ?_) h
    · refine ⟨fun last hlast => ?_, False.elim, False.elim⟩
      rw [hw] at hlast
      cases hlast
    · obtain ⟨hnull, hprepared⟩ := hadoptable hlive
      exact ⟨⟨hnull, False.elim⟩, hprepared⟩
  have hresult := hpassed.2 rfl hlive
  exact ⟨hresult.exist, fun id o ho hnone => (hresult.current id o ho hnone).1⟩

/-- A sample object, and an object that someone else has put where it is synced to. -/
def occupiedWorld (labels annotations : StringMap) : World :=
  (exec .setting ⟨{ cluster := "", ns := "", name := "" }, .create .localClient ⟨crontabType,
    { name := "daily", ns := "tenant", labels := labels, annotations := annotations },
    schedule "hourly"⟩⟩ (sampleWorld ∅ (schedule "daily"))).2

/-- All local objects of a world have the labels of the sample object. -/
def allLabelled (w : World) : Bool :=
  w.objects.entries.all fun e => e.1.client ≠ .localClient ||
    selectorFromSet ((sample []).key.labels .plain) e.2.metadata.labels

theorem prepared_of_allLabelled {w : World} (h : allLabelled w = true) (r : Unstructured) :
    (sample []).Prepared r w := by
  intro id o ho hother
  have hmem : ⟨id, o⟩ ∈ w.objects.entries := AList.mem_lookup_iff.mp ho.object
  have hlabels := List.all_eq_true.mp h _ hmem
  rw [ho.place.1] at hlabels
  have hselected : selectorFromSet ((sample []).key.labels .plain) o.metadata.labels = true := by
    simpa using hlabels
  exact absurd (selectorFromSet_iff.mp hselected) hother

/-- The user sets the schedule once more, after the first pass. -/
def adoptedWorld (labels annotations : StringMap) : World :=
  reschedule "daily" ((sample []).afterPass execStoring
    (reschedule "daily" (occupiedWorld labels annotations)))

theorem run_adoptedWorld {admits : (c : Call) → World → c.verb.Resp → Prop}
    {cond : Unstructured → World → Prop} (labels annotations : StringMap)
    (hadmits : ∀ c w r w', execStoring c w = some (r, w') → admits c w r)
    (hcond : ∀ r, (reschedule "daily" (occupiedWorld labels annotations)).object?
      (sample []).id = some r →
      cond r (reschedule "daily" (occupiedWorld labels annotations))) :
    Run ((sample []).localEnvironment admits) (fun w => (sample []).stored w = none)
      ((sample []).starts cond) (adoptedWorld labels annotations) none := by
  have hexec : ∀ c w r w', execStoring c w = some (r, w') →
      ((sample []).localEnvironment admits).does c w r w' :=
    fun c w r w' h => ⟨(execStoring_eq_some h).1, hadmits c w r w' h⟩
  have hinit : Run ((sample []).localEnvironment admits) (fun w => (sample []).stored w = none)
      ((sample []).starts cond) (occupiedWorld labels annotations) none := .init (by rfl)
  exact (run_afterPass hexec (sample []) (hinit.others (reschedule_leavesLocal _ _)) hcond).others
    (reschedule_leavesLocal _ _)

/-- An object with the labels of the link and another schedule gets the schedule of the remote
object. -/
theorem local_converges_labelled : ∃ r w o,
    Run ((sample []).localEnvironment (sample []).KeepsUpdates)
    (fun w => (sample []).stored w = none)
      ((sample []).starts (sample []).Adoptable) w (some (.pure (r, .ok false))) ∧
    (sample []).Local w sampleCopy o ∧ (sample []).HasContent o r := by
  obtain ⟨r, w, o, hresult, hlive, ho, halive, -⟩ := exists_finished execStoring
    (adoptedWorld ((sample []).key.labels .plain) (sample []).key.annotations) (fun _ _ => true)
    (by decide +kernel)
  have hadoptable : ∀ w, allLabelled (reschedule "daily" w) = true → ∀ r,
      (reschedule "daily" w).object? (sample []).id = some r →
      (sample []).Adoptable r (reschedule "daily" w) := fun w hw r hr hlive =>
    ⟨(edited_schedule hr w hlive).1, prepared_of_allLabelled hw r⟩
  have hrun : Run ((sample []).localEnvironment (sample []).KeepsUpdates)
      (fun w => (sample []).stored w = none) ((sample []).starts (sample []).Adoptable) w
      (some (.pure (r, .ok false))) := by
    refine run_passResult (fun _ _ _ _ => execStoring_eq_some) (sample [])
      (run_adoptedWorld _ _ (fun _ _ _ _ h => (execStoring_eq_some h).2) ?_) ?_ hresult
    · exact hadoptable _ (by decide +kernel)
    · exact hadoptable _ (by decide +kernel)
  exact ⟨r, w, o, hrun, ho, (local_converges merges_sample hrun hlive).2 _ o ho halive⟩

/-- An object without the labels is adopted with its own schedule, and the schedule of the remote
object is stored as its last-known state; so the second pass finds no difference. -/
theorem adopted_differs : ∃ r w o,
    Run ((sample []).localEnvironment fun _ _ _ => True) (fun w => (sample []).stored w = none)
      ((sample []).starts fun r _ => r.metadata.deletionTimestamp = none →
        ((sample []).content r).NullFree) w (some (.pure (r, .ok false))) ∧
    r.metadata.deletionTimestamp = none ∧ (sample []).Local w sampleCopy o ∧
    o.metadata.deletionTimestamp = none ∧ ¬ (sample []).HasContent o r := by
  obtain ⟨r, w, o, hresult, hlive, ho, halive, hlost⟩ := exists_finished execStoring
    (adoptedWorld ∅ ∅)
    (fun r o => !decide (o.content.fields.Covers ((sample []).content r))) (by decide +kernel)
  rw [Bool.not_eq_true', decide_eq_false_iff_not] at hlost
  refine ⟨r, w, o, ?_, hlive, ho, halive, hlost⟩
  have hdoes : ∀ c w r w', execStoring c w = some (r, w') →
      ((sample []).localEnvironment fun _ _ _ => True).does c w r w' :=
    fun _ _ _ _ h => ⟨(execStoring_eq_some h).1, trivial⟩
  refine run_passResult hdoes (sample [])
    (run_adoptedWorld ∅ ∅ (fun _ _ _ _ _ => trivial) ?_) ?_ hresult
  · exact fun r hr hlive => (edited_schedule hr (sampleWorld ∅ default) hlive).1
  · exact fun r hr hlive => (edited_schedule hr (sampleWorld ∅ default) hlive).1

end Primary

end Sync
