import SyncAgent.Sync.Outcome

/-! The finalizers of an object that the agent shares with other clients.  The agent reads the
object, the other clients add and remove finalizers of their own, and then the agent calls
`ensureFinalizer` or `removeFinalizer` with the version that it has read.  The merge patch of these
calls holds the whole list, so the calls are exact if and only if there is nothing to patch or the
finalizers of the others have not changed since the agent read them. -/

namespace Sync

open Kube

/-- The finalizers of an object on the server, none if it is gone. -/
def finalizersAt (w : World) (id : ObjectId) : List String :=
  (w.object? id).elim [] (·.metadata.finalizers)

/-- What a client does to one of its finalizers. -/
inductive FinalizerEdit where
  | add (finalizer : String)
  | remove (finalizer : String)

namespace FinalizerEdit

def finalizer : FinalizerEdit → String
  | .add f => f
  | .remove f => f

/-- The list after the edit. -/
def applied : FinalizerEdit → List String → List String
  | .add f, l => if f ∈ l then l else l ++ [f]
  | .remove f, l => l.filter (· ≠ f)

/-- The edit of a client that has read the current version. -/
def carryOut (e : FinalizerEdit) (id : ObjectId) (w : World) : World :=
  match w.object? id with
  | none => w
  | some cur =>
    let next := { cur with metadata.finalizers := e.applied cur.metadata.finalizers }
    if Server.finalizersAllowed cur next then (w.store id.client cur next).2 else w

theorem mem_applied {e : FinalizerEdit} {f : String} (hf : e.finalizer ≠ f) (l : List String) :
    f ∈ e.applied l ↔ f ∈ l := by
  cases e with
  | add g =>
    have hne : f ≠ g := fun h => hf h.symm
    simp only [applied]
    split
    · rfl
    · simp [hne]
  | remove g =>
    have hne : f ≠ g := fun h => hf h.symm
    simp [applied, hne]

end FinalizerEdit

/-- An object that was stored has the finalizers that it was given, also if it is gone. -/
theorem finalizersAt_of_becomes {w' : World} {id : ObjectId} {next o : Unstructured}
    (h : w'.Becomes id next o) : finalizersAt w' id = next.metadata.finalizers := by
  obtain ⟨rv, rfl⟩ := h.version
  rcases h.object with hobj | ⟨hobj, -, hnone⟩
  · simp [finalizersAt, hobj]
  · simp [finalizersAt, hobj, hnone]

theorem mem_finalizersAt_carryOut {e : FinalizerEdit} {f : String} (hf : e.finalizer ≠ f)
    (id : ObjectId) (w : World) : f ∈ finalizersAt (e.carryOut id w) id ↔
    f ∈ finalizersAt w id := by
  unfold FinalizerEdit.carryOut
  split
  · rfl
  · next cur hcur =>
    dsimp only
    split
    · have hid := World.idOn_of_object? hcur
      have hnext : Unstructured.idOn { cur with
          metadata.finalizers := e.applied cur.metadata.finalizers } id.client = id := hid
      rw [finalizersAt_of_becomes (World.rewrites_store hcur rfl hnext).becomes,
        FinalizerEdit.mem_applied hf]
      simp [finalizersAt, hcur]
    · rfl

/-! ### The calls of the agent -/

/-- A call of the agent for its own finalizer. -/
inductive FinalizerCall where
  | ensure
  | remove

namespace FinalizerCall

variable (c : FinalizerCall)

/-- Whether the finalizer of the agent is there after the call. -/
def own : FinalizerCall → Bool
  | .ensure => true
  | .remove => false

def program (diff : MergeDiff) (scope : Scope) (client : Client) (o : Unstructured) :
    SyncM (Bool × Unstructured) :=
  match c with
  | .ensure => ensureFinalizer diff scope client o
  | .remove => removeFinalizer diff scope client o

/-- The list that the call writes. -/
def target (l : List String) : List String :=
  match c with
  | .ensure => setsList (deletionFinalizer :: l)
  | .remove => (setsList l).filter (· ≠ deletionFinalizer)

/-- The object is already as the call wants it. -/
def Done (o : Unstructured) : Prop :=
  o.metadata.finalizers.contains deletionFinalizer = c.own

/-- The list after the call: the finalizers of the others as they are, and with them the one of the
agent if the call ensures it. -/
def Exact (before after : List String) : Prop :=
  ∀ f, f ∈ after ↔ if f = deletionFinalizer then c.own = true else f ∈ before

theorem mem_target (f : String) (l : List String) :
    f ∈ c.target l ↔ if f = deletionFinalizer then c.own = true else f ∈ l := by
  cases c with
  | ensure =>
    simp only [target, mem_setsList, List.mem_cons, own]
    split <;> simp_all
  | remove =>
    simp only [target, List.mem_filter, mem_setsList, own]
    split <;> simp_all

theorem exact_target_iff (l before : List String) :
    c.Exact before (c.target l) ↔ ∀ f, f ≠ deletionFinalizer → (f ∈ l ↔ f ∈ before) := by
  simp only [Exact, mem_target]
  refine forall_congr' fun f => ?_
  by_cases hf : f = deletionFinalizer <;> simp [hf]

variable {c} {S : Server} {diff : MergeDiff} {scope : Scope} {client : Client} {o o' : Unstructured}
  {b : Bool} {w w' : World} {id : ObjectId}

theorem target_ne (h : ¬ c.Done o) : o.metadata.finalizers ≠ c.target o.metadata.finalizers := by
  intro heq
  have hmem := c.mem_target deletionFinalizer o.metadata.finalizers
  rw [← heq, if_pos rfl] at hmem
  refine h ?_
  unfold Done
  cases hown : c.own
  · simpa [hown] using hmem
  · simpa [hown] using hmem

/-- A call with nothing to do makes no request; any other one patches the list. -/
theorem program_eq (c : FinalizerCall) (o : Unstructured) :
    c.Done o ∧ c.program diff scope client o = pure (false, o) ∨
    ¬ c.Done o ∧ c.program diff scope client o = (do
      let o' ← patchFrom diff scope client o
        { o with metadata.finalizers := c.target o.metadata.finalizers }
      return (true, o')) := by
  cases c with
  | ensure =>
    simp only [Done, own, program, ensureFinalizer, target, withFinalizer]
    split
    · next h => exact .inl ⟨h, rfl⟩
    · next h => exact .inr ⟨h, rfl⟩
  | remove =>
    simp only [Done, own, program, removeFinalizer, target, withoutFinalizer]
    split
    · next h => exact .inl ⟨by simpa using h, rfl⟩
    · next h => exact .inr ⟨by simpa using h, rfl⟩

theorem program_returns (hid : o.idOn id.client = id)
    (h : Returns S (c.program diff scope id.client o) w (b, o') w') :
    c.Done o ∧ o' = o ∧ w' = w ∨
    ¬ c.Done o ∧ o'.idOn id.client = id ∧
      o'.metadata.finalizers = c.target o.metadata.finalizers ∧
      finalizersAt w' id = c.target o.metadata.finalizers := by
  obtain ⟨hdone, heq⟩ | ⟨hdone, heq⟩ := program_eq c o
  · rw [heq] at h
    obtain ⟨hres, rfl⟩ := h.pure
    exact .inl ⟨hdone, congrArg Prod.snd hres, rfl⟩
  · rw [heq] at h
    obtain ⟨o₁, w₁, hpatch, hret⟩ := h.bind
    obtain ⟨hres, rfl⟩ := hret.pure
    obtain rfl : o' = o₁ := congrArg Prod.snd hres
    have hpatch : exec S ⟨scope, .patch (o.idOn id.client) _⟩ w = (.ok o', w') := hpatch.patch
    rw [hid] at hpatch
    have hdoes := World.Does.patch_create (by rfl) (.inl hpatch)
    obtain ⟨e, he, -⟩ | ⟨cur, o₂, hcur, hok, -, -, hrewrites⟩ := hdoes
    · cases he
    · obtain rfl : o' = o₂ := Except.ok.inj hok
      rw [Unstructured.patched_finalizers, patchValue, if_neg (target_ne hdone)] at hrewrites
      obtain ⟨rv, hversion⟩ := hrewrites.becomes.version
      have hcurId := World.idOn_of_object? hcur
      refine .inr ⟨hdone, ?_, ?_, ?_⟩
      · rw [hversion]
        exact hcurId
      · rw [hversion]
        rfl
      · rw [finalizersAt_of_becomes hrewrites.becomes]
        rfl

end FinalizerCall

/-! ### Runs of the agent and the other clients -/

section Held

variable (S : Server) (diff : MergeDiff) (scope : Scope) (id : ObjectId)

/-- The states of the server together with the version of the object that the agent holds: it reads
the object, the others edit their finalizers, and the agent makes its calls with what it holds. -/
inductive Held : World → Unstructured → Prop where
  | read {w o} : w.object? id = some o → Held w o
  | edit {w o} (e : FinalizerEdit) : Held w o → e.finalizer ≠ deletionFinalizer →
      Held (e.carryOut id w) o
  | call {w o b o' w'} (c : FinalizerCall) : Held w o →
      Returns S (c.program diff scope id.client o) w (b, o') w' → Held w' o'

variable {S diff scope id} {w w' : World} {o o' : Unstructured} {b : Bool} {c : FinalizerCall}

theorem Held.own_iff (h : Held S diff scope id w o) :
    o.idOn id.client = id ∧
      (deletionFinalizer ∈ o.metadata.finalizers ↔ deletionFinalizer ∈ finalizersAt w id) := by
  induction h with
  | read hobj => exact ⟨World.idOn_of_object? hobj, by simp [finalizersAt, hobj]⟩
  | edit e _ he ih => exact ⟨ih.1, ih.2.trans (mem_finalizersAt_carryOut he id _).symm⟩
  | call c _ hret ih =>
    obtain ⟨-, rfl, rfl⟩ | ⟨-, hid, htarget, hserver⟩ := FinalizerCall.program_returns ih.1 hret
    · exact ih
    · exact ⟨hid, by rw [htarget, hserver]⟩

/-- A call leaves exactly the finalizers of the others, and with them the agent's own one or not, if
and only if it has nothing to patch or the others' finalizers are those that the agent has read. -/
theorem finalizers_exact_iff (hheld : Held S diff scope id w o)
    (hret : Returns S (c.program diff scope id.client o) w (b, o') w') :
    c.Exact (finalizersAt w id) (finalizersAt w' id) ↔
      c.Done o ∨ ∀ f, f ≠ deletionFinalizer →
        (f ∈ o.metadata.finalizers ↔ f ∈ finalizersAt w id) := by
  obtain ⟨hid, hown⟩ := hheld.own_iff
  obtain ⟨hdone, -, rfl⟩ | ⟨hdone, -, -, hserver⟩ := FinalizerCall.program_returns hid hret
  · refine iff_of_true (fun f => ?_) (.inl hdone)
    split
    · next hf =>
      subst hf
      rw [← hown, ← hdone]
      simp
    · rfl
  · rw [hserver, FinalizerCall.exact_target_iff, or_iff_right hdone]

end Held

/-! ### A lost finalizer -/

/-- Where the object is that both clients edit. -/
def crontabId : ObjectId := (crontab "team-a").idOn (.remoteClient "c1")

def crontabScope : Scope := { cluster := "c1", ns := "team-a", name := "daily" }

/-- The server when the agent reads the object. -/
def readWorld : World := World.empty.put (.remoteClient "c1") (crontab "team-a")

/-- Another client has put a finalizer on the object since. -/
def editedWorld : World := (FinalizerEdit.add "backup").carryOut crontabId readWorld

/-- A call of the agent with the version that it has read. -/
abbrev crontabCall (c : FinalizerCall) : SyncM (Bool × Unstructured) :=
  c.program .rfc7386 crontabScope crontabId.client (crontab "team-a")

def afterCall (c : FinalizerCall) (w : World) : World :=
  (Fallible.eval (exec .setting) (crontabCall c) w).2

theorem crontabCall_returns {c : FinalizerCall} {w : World}
    (h : (Fallible.eval (exec .setting) (crontabCall c) w).1.toOption.isSome) :
    ∃ b o', Returns .setting (crontabCall c) w (b, o') (afterCall c w) := by
  obtain ⟨⟨b, o'⟩, hr⟩ := Option.isSome_iff_exists.mp h
  exact ⟨b, o', Returns.of_eval (Returns.ok_of_toOption hr)⟩

theorem held_crontab : Held .setting .rfc7386 crontabScope crontabId readWorld (crontab "team-a") :=
  .read (by simp [readWorld, crontabId])

theorem finalizers_exact_crontab : ∃ b o',
    Returns .setting (crontabCall .ensure) readWorld (b, o') (afterCall .ensure readWorld) ∧
    FinalizerCall.ensure.Exact (finalizersAt readWorld crontabId)
      (finalizersAt (afterCall .ensure readWorld) crontabId) := by
  obtain ⟨b, o', hret⟩ := crontabCall_returns (c := .ensure) (w := readWorld) (by decide +kernel)
  refine ⟨b, o', hret, (finalizers_exact_iff held_crontab hret).mpr (.inr fun f _ => ?_)⟩
  simp [finalizersAt, readWorld, crontabId]

/-- A finalizer that another client has put on the object after the agent read it is lost when the
agent puts its own one there. -/
theorem finalizer_dropped : ∃ w o b o' w',
    Held .setting .rfc7386 crontabScope crontabId w o ∧
    Returns .setting (FinalizerCall.ensure.program .rfc7386 crontabScope crontabId.client o) w
      (b, o') w' ∧
    "backup" ∈ finalizersAt w crontabId ∧ "backup" ∉ finalizersAt w' crontabId ∧
    ¬ FinalizerCall.ensure.Exact (finalizersAt w crontabId) (finalizersAt w' crontabId) := by
  obtain ⟨b, o', hret⟩ := crontabCall_returns (c := .ensure) (w := editedWorld) (by decide +kernel)
  have hbefore : "backup" ∈ finalizersAt editedWorld crontabId := by decide +kernel
  have hafter : "backup" ∉ finalizersAt (afterCall .ensure editedWorld) crontabId := by
    decide +kernel
  refine ⟨editedWorld, _, b, o', _, .edit _ held_crontab (by decide), hret, hbefore, hafter, ?_⟩
  intro hexact
  exact hafter ((hexact "backup").mpr (by rw [if_neg (by decide)]; exact hbefore))

end Sync
