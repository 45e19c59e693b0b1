import SyncAgent.Kube.Api

/-! The client of the agent: programs that make API calls and fail with an error that carries the
texts of the code that passed it on. -/

namespace Sync

open Kube

/-- An error: a failed API call, a new error with a text, or an error with a text put before it. -/
inductive Error where
  | api (reason : ApiError)
  | new (text : String)
  | wrapped (text : String) (err : Error)
deriving DecidableEq

/-- A part of the agent that makes API calls and can fail. -/
abbrev SyncM (α : Type) := Fallible api Error α

/-- `fmt.Errorf("text: %w", err)` around an error of the program. -/
def wrap {α : Type} (text : String) (p : SyncM α) : SyncM α := Fallible.mapError (.wrapped text) p

/-- A result that is already known, or an error with a text put before it. -/
def wrapE {α : Type} (text : String) (r : Except Error α) : SyncM α :=
  ExceptT.mk (.pure (r.mapError (.wrapped text)))

section Except

variable {ε ε' α β : Type}

theorem exists_of_bind_eq_ok {x : Except ε α} {f : α → Except ε β} {b : β} (h : (x >>= f) = .ok b) :
    ∃ a, x = .ok a ∧ f a = .ok b := by
  cases x with
  | error e => cases h
  | ok a => exact ⟨a, rfl, h⟩

theorem ok_of_mapError {x : Except ε α} {f : ε → ε'} {a : α} (h : x.mapError f = .ok a) :
    x = .ok a := by
  cases x with
  | error e => cases h
  | ok b => exact congrArg Except.ok (Except.ok.inj h)

theorem exists_of_map_eq_ok {x : Except ε α} {f : α → β} {b : β} (h : x.map f = .ok b) :
    ∃ a, x = .ok a ∧ f a = b := by
  cases x with
  | error e => cases h
  | ok a => exact ⟨a, rfl, Except.ok.inj h⟩

end Except

section Wrap

variable {exec : (c : api.Call) → World → api.Resp c × World} {P : Call → Prop} {α : Type}
  {text : String} {w w' : World}

@[simp] theorem someCall_wrap {p : SyncM α} :
    Fallible.SomeCall exec P (wrap text p) w ↔ Fallible.SomeCall exec P p w :=
  Fallible.someCall_mapError

@[simp] theorem someCall_wrapE {r : Except Error α} :
    Fallible.SomeCall exec P (wrapE text r) w ↔ False := by
  refine iff_of_false ?_ not_false
  rintro ⟨c, hc, -⟩
  cases hc

theorem eval_wrap {p : SyncM α} {a : α} (h : Fallible.eval exec p w = (.ok a, w')) :
    Fallible.eval exec (wrap text p) w = (.ok a, w') := by
  rw [wrap, Fallible.eval_mapError, h]
  rfl

end Wrap

section Calls

variable (scope : Scope)

def get (id : ObjectId) (live : Bool) : SyncM Unstructured :=
  Fallible.sendE (I := api) ⟨scope, .get id live⟩ fun r => Except.mapError .api r

def list (client : Client) (typeMeta : TypeMeta) (ns : String) (selector : Selector)
    (limit : Nat) (live : Bool) : SyncM (List Unstructured) :=
  Fallible.sendE (I := api) ⟨scope, .list client typeMeta ns selector limit live⟩ fun r =>
    Except.mapError .api r

def update (client : Client) (obj : Unstructured) : SyncM Unstructured :=
  Fallible.sendE (I := api) ⟨scope, .update client obj⟩ fun r => Except.mapError .api r

def patch (id : ObjectId) (patch : Fields) : SyncM Unstructured :=
  Fallible.sendE (I := api) ⟨scope, .patch id patch⟩ fun r => Except.mapError .api r

def apply (client : Client) (obj : Unstructured) (fieldManager : String) : SyncM Unstructured :=
  Fallible.sendE (I := api) ⟨scope, .apply client obj fieldManager⟩ fun r => Except.mapError .api r

def delete (id : ObjectId) (policy : DeletionPropagation) : SyncM Unit :=
  Fallible.sendE (I := api) ⟨scope, .delete id policy⟩ fun r => Except.mapError .api r

def createSecret (id : SecretId) (secret : StateSecret) : SyncM Unit :=
  Fallible.sendE (I := api) ⟨scope, .createSecret id secret⟩ fun r => Except.mapError .api r

def updateSecret (id : SecretId) (secret : StateSecret) : SyncM Unit :=
  Fallible.sendE (I := api) ⟨scope, .updateSecret id secret⟩ fun r => Except.mapError .api r

/-- A call whose failure the caller looks at. -/
def request (verb : Verb) : SyncM verb.Resp := Fallible.request (I := api) ⟨scope, verb⟩

variable {scope}

section Obeys

variable {V : (c : api.Call) → api.Resp c → Prop} {P : Call → Prop}

theorem request_obeys {verb : Verb} (hc : P ⟨scope, verb⟩) :
    (request scope verb).Obeys V P (V ⟨scope, verb⟩) :=
  Fallible.Obeys.request hc

theorem get_obeys {id : ObjectId} {live : Bool} (hc : P ⟨scope, .get id live⟩) :
    (get scope id live).Obeys V P fun o => V ⟨scope, .get id live⟩ (.ok o) :=
  .sendE hc fun _ hr _ h => ok_of_mapError h ▸ hr

theorem list_obeys {client : Client} {typeMeta : TypeMeta} {ns : String} {selector : Selector}
    {limit : Nat} {live : Bool} (hc : P ⟨scope, .list client typeMeta ns selector limit live⟩) :
    (list scope client typeMeta ns selector limit live).Obeys V P
      fun items => V ⟨scope, .list client typeMeta ns selector limit live⟩ (.ok items) :=
  .sendE hc fun _ hr _ h => ok_of_mapError h ▸ hr

theorem update_obeys {client : Client} {obj : Unstructured} (hc : P ⟨scope, .update client obj⟩) :
    (update scope client obj).Obeys V P fun o => V ⟨scope, .update client obj⟩ (.ok o) :=
  .sendE hc fun _ hr _ h => ok_of_mapError h ▸ hr

theorem patch_obeys {id : ObjectId} {fields : Fields} (hc : P ⟨scope, .patch id fields⟩) :
    (patch scope id fields).Obeys V P fun o => V ⟨scope, .patch id fields⟩ (.ok o) :=
  .sendE hc fun _ hr _ h => ok_of_mapError h ▸ hr

end Obeys

theorem eval_request {exec : (c : api.Call) → World → api.Resp c × World} {verb : Verb}
    {r : verb.Resp} {w w' : World} (h : exec ⟨scope, verb⟩ w = (r, w')) :
    Fallible.eval exec (request scope verb) w = (.ok r, w') := by
  unfold request
  rw [Fallible.eval_request, h]

end Calls

end Sync
