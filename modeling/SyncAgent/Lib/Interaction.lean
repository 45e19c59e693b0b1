import Mathlib.Init

/-! Programs that make calls to a shared system, and runs in which such programs are executed one
after another while other parties change the system between any two calls.  `Prog` is the syntax: a
tree of calls with a continuation for every response.  `Environment` gives the meaning of a call and
what the other parties may do.  `Prog.Keeps` is the proof rule: it follows the program call by call,
and `Run.keeps` lifts it to every state of every run.  `Run.evalSome` says that the evaluation of a
program is a part of a run. -/

/-- The calls that a program can make, each with the type of its response. -/
structure Interface where
  Call : Type
  Resp : Call → Type

/-- A program that returns a value or makes a call and goes on with the response. -/
inductive Prog (I : Interface) (α : Type) where
  | pure (a : α)
  | call (c : I.Call) (k : I.Resp c → Prog I α)

namespace Prog

variable {I : Interface} {α β ε : Type}

def bind : Prog I α → (α → Prog I β) → Prog I β
  | .pure a, f => f a
  | .call c k, f => .call c fun r => (k r).bind f

instance : Monad (Prog I) where
  pure := .pure
  bind := bind

theorem bind_pure (p : Prog I α) : p.bind .pure = p := by
  induction p with
  | pure a => rfl
  | call c k ih => exact congrArg (call c) (funext ih)

theorem bind_assoc {γ : Type} (p : Prog I α) (f : α → Prog I β) (g : β → Prog I γ) :
    (p.bind f).bind g = p.bind fun a => (f a).bind g := by
  induction p with
  | pure a => rfl
  | call c k ih => exact congrArg (call c) (funext ih)

instance : LawfulMonad (Prog I) := LawfulMonad.mk' _ bind_pure (fun _ _ => rfl) bind_assoc

/-- The program that makes one call and returns the response. -/
def send (c : I.Call) : Prog I (I.Resp c) := .call c .pure

/-- The result and the final state when nobody else interferes and every call is answered by
`exec`. -/
def eval {σ : Type} (exec : (c : I.Call) → σ → I.Resp c × σ) : Prog I α → σ → α × σ
  | .pure a, s => (a, s)
  | .call c k, s => (k (exec c s).1).eval exec (exec c s).2

theorem eval_bind {σ : Type} (exec : (c : I.Call) → σ → I.Resp c × σ) (p : Prog I α)
    (f : α → Prog I β) (s : σ) :
    (p.bind f).eval exec s = (f (p.eval exec s).1).eval exec (p.eval exec s).2 := by
  induction p generalizing s with
  | pure a => rfl
  | call c k ih => exact ih _ _

theorem eval_invariant {σ : Type} {exec : (c : I.Call) → σ → I.Resp c × σ} {J : σ → Prop}
    (hexec : ∀ c s, J s → J (exec c s).2) (p : Prog I α) {s : σ} (hs : J s) :
    J (p.eval exec s).2 := by
  induction p generalizing s with
  | pure a => exact hs
  | call c k ih => exact ih _ (hexec c s hs)

/-- The calls that are made when the program is evaluated. -/
def calls {σ : Type} (exec : (c : I.Call) → σ → I.Resp c × σ) : Prog I α → σ → List I.Call
  | .pure _, _ => []
  | .call c k, s => c :: (k (exec c s).1).calls exec (exec c s).2

theorem calls_bind {σ : Type} (exec : (c : I.Call) → σ → I.Resp c × σ) (p : Prog I α)
    (f : α → Prog I β) (s : σ) :
    (p.bind f).calls exec s = p.calls exec s ++
    (f (p.eval exec s).1).calls exec (p.eval exec s).2 := by
  induction p generalizing s with
  | pure a => rfl
  | call c k ih => exact congrArg (c :: ·) (ih _ _)

/-- `eval` up to the first call that `exec` does not answer. -/
def evalSome {σ : Type} (exec : (c : I.Call) → σ → Option (I.Resp c × σ)) :
    Prog I α → σ → Option (α × σ)
  | .pure a, s => some (a, s)
  | .call c k, s => (exec c s).bind fun r => (k r.1).evalSome exec r.2

theorem evalSome_bind {σ : Type} (exec : (c : I.Call) → σ → Option (I.Resp c × σ)) (p : Prog I α)
    (f : α → Prog I β) (s : σ) : (p.bind f).evalSome exec s =
      (p.evalSome exec s).bind fun r => (f r.1).evalSome exec r.2 := by
  induction p generalizing s with
  | pure a => rfl
  | call c k ih =>
    simp only [bind, evalSome, Option.bind_assoc]
    exact congrArg _ (funext fun r => ih r.1 r.2)

/-- What is left of the program after its first `n` calls. -/
def steps {σ : Type} (exec : (c : I.Call) → σ → Option (I.Resp c × σ)) :
    Nat → Prog I α → σ → Option (Prog I α × σ)
  | 0, p, s => some (p, s)
  | _ + 1, .pure _, _ => none
  | n + 1, .call c k, s => (exec c s).bind fun r => steps exec n (k r.1) r.2

/-- Whatever valid responses its calls get, each of them satisfies `P` and the result satisfies
`Q`. -/
def Obeys (V : (c : I.Call) → I.Resp c → Prop) (P : I.Call → Prop) (Q : α → Prop) : Prog I α → Prop
  | .pure a => Q a
  | .call c k => P c ∧ ∀ r, V c r → (k r).Obeys V P Q

/-- Every call that the program can make satisfies `P`. -/
abbrev AllCalls (P : I.Call → Prop) (p : Prog I α) : Prop :=
  p.Obeys (fun _ _ => True) P fun _ => True

section Obeys

variable {V V' : (c : I.Call) → I.Resp c → Prop} {P P' : I.Call → Prop}

theorem Obeys.bind {Q : α → Prop} {Q' : β → Prop} {p : Prog I α} {f : α → Prog I β}
    (hp : p.Obeys V P Q) (hf : ∀ a, Q a → (f a).Obeys V P Q') : (p.bind f).Obeys V P Q' := by
  induction p with
  | pure a => exact hf a hp
  | call c k ih => exact ⟨hp.1, fun r hr => ih r (hp.2 r hr)⟩

theorem Obeys.mono {Q Q' : α → Prop} {p : Prog I α} (hp : p.Obeys V P Q)
    (hV : ∀ c r, V' c r → V c r) (hP : ∀ c, P c → P' c) (hQ : ∀ a, Q a → Q' a) :
    p.Obeys V' P' Q' := by
  induction p with
  | pure a => exact hQ a hp
  | call c k ih => exact ⟨hP c hp.1, fun r hr => ih r (hp.2 r (hV c r hr))⟩

theorem AllCalls.bind {p : Prog I α} {f : α → Prog I β} (hp : p.AllCalls P)
    (hf : ∀ a, (f a).AllCalls P) : (p.bind f).AllCalls P :=
  Obeys.bind hp fun a _ => hf a

end Obeys

theorem AllCalls.of_mem_calls {σ : Type} {exec : (c : I.Call) → σ → I.Resp c × σ}
    {P : I.Call → Prop} {p : Prog I α} (hp : p.AllCalls P) {s : σ} {c : I.Call}
    (hc : c ∈ p.calls exec s) : P c := by
  induction p generalizing s with
  | pure a => cases hc
  | call c' k ih =>
    rcases List.mem_cons.mp hc with rfl | hrest
    · exact hp.1
    · exact ih _ (hp.2 _ trivial) hrest

/-- Two states that every call of an execution answers alike, and keeps alike, give the same result,
and the states that are left are alike again. -/
theorem eval_congr {σ : Type} {exec : (c : I.Call) → σ → I.Resp c × σ} {P : I.Call → Prop}
    {R : σ → σ → Prop} {p : Prog I α} {s t : σ} (hp : ∀ c ∈ p.calls exec s, P c)
    (hR : ∀ c, P c → ∀ s t, R s t → (exec c s).1 = (exec c t).1 ∧ R (exec c s).2 (exec c t).2)
    (h : R s t) :
    (p.eval exec s).1 = (p.eval exec t).1 ∧ R (p.eval exec s).2 (p.eval exec t).2 := by
  induction p generalizing s t with
  | pure a => exact ⟨rfl, h⟩
  | call c k ih =>
    obtain ⟨hcall, hrest⟩ := List.forall_mem_cons.mp hp
    obtain ⟨hresp, hstates⟩ := hR c hcall s t h
    simp only [eval, ← hresp]
    exact ih _ hrest hstates

end Prog

/-- The system that programs run in: what the other parties may do at any time, also between two
calls of a program, what they may do only while no program is being executed, and the possible
responses to a call with the state that it leaves. -/
structure Environment (I : Interface) (σ : Type) where
  rely : σ → σ → Prop
  refl : ∀ s, rely s s
  trans : ∀ {s₁ s₂ s₃}, rely s₁ s₂ → rely s₂ s₃ → rely s₁ s₃
  idle : σ → σ → Prop := fun _ _ => False
  does : (c : I.Call) → σ → I.Resp c → σ → Prop

/-- The system in which nobody else acts and every call is answered by `exec`. -/
def Environment.alone {I : Interface} {σ : Type} (exec : (c : I.Call) → σ → I.Resp c × σ) :
    Environment I σ where
  rely := Eq
  refl := fun _ => rfl
  trans := Eq.trans
  does c s r s' := exec c s = (r, s')

/-- What a program owes to the system: `always` holds after every call, `before` when it makes a
call. -/
structure Guarantee (I : Interface) (σ : Type) where
  always : σ → Prop
  before : I.Call → σ → Prop

/-- The guarantee that is only about states. -/
def Guarantee.ofState (I : Interface) {σ : Type} (Inv : σ → Prop) : Guarantee I σ :=
  ⟨Inv, fun _ _ => True⟩

/-- The guarantee that is only about calls. -/
def Guarantee.ofCall {I : Interface} {σ : Type} (P : I.Call → σ → Prop) : Guarantee I σ :=
  ⟨fun _ => True, P⟩

namespace Prog

variable {I : Interface} {σ α β ε : Type} (E : Environment I σ) (G : Guarantee I σ)

/-- From `s`, whatever the other parties do and whatever the calls respond: the guarantee is met at
every call, and `Q` holds of the result and the state after the last call. -/
def Keeps : Prog I α → (α → σ → Prop) → σ → Prop
  | .pure a, Q, s => Q a s
  | .call c k, Q, s => ∀ s₁, E.rely s s₁ →
      G.before c s₁ ∧ ∀ r s₂, E.does c s₁ r s₂ → G.always s₂ ∧ (k r).Keeps Q s₂

variable {E G}

theorem Keeps.mono {p : Prog I α} {Q Q' : α → σ → Prop} {s : σ} (h : p.Keeps E G Q s)
    (hQ : ∀ a s, Q a s → Q' a s) : p.Keeps E G Q' s := by
  induction p generalizing s with
  | pure a => exact hQ a s h
  | call c k ih =>
    intro s₁ hr
    refine ⟨(h s₁ hr).1, fun r s₂ hd => ?_⟩
    obtain ⟨hG, hk⟩ := (h s₁ hr).2 r s₂ hd
    exact ⟨hG, ih r hk⟩

theorem Keeps.bind {p : Prog I α} {f : α → Prog I β} {Q : β → σ → Prop} {s : σ}
    (h : p.Keeps E G (fun a s => (f a).Keeps E G Q s) s) : (p.bind f).Keeps E G Q s := by
  induction p generalizing s with
  | pure a => exact h
  | call c k ih =>
    intro s₁ hr
    refine ⟨(h s₁ hr).1, fun r s₂ hd => ?_⟩
    obtain ⟨hG, hk⟩ := (h s₁ hr).2 r s₂ hd
    exact ⟨hG, ih r hk⟩

theorem Keeps.of_obeys {p : Prog I α} {V : (c : I.Call) → I.Resp c → Prop} {P : I.Call → Prop}
    {Q : α → Prop} {J : σ → Prop} {s : σ} (hp : p.Obeys V P Q) (hJ : ∀ s, J s → G.always s)
    (hrely : ∀ s s₁, J s → E.rely s s₁ → J s₁) (hbefore : ∀ c, P c → ∀ s, J s → G.before c s)
    (hcall : ∀ c, P c → ∀ s r s₂, J s → E.does c s r s₂ → V c r ∧ J s₂) (hs : J s) :
    p.Keeps E G (fun a s => J s ∧ Q a) s := by
  induction p generalizing s with
  | pure a => exact ⟨hs, hp⟩
  | call c k ih =>
    intro s₁ hr
    have h₁ := hrely s s₁ hs hr
    refine ⟨hbefore c hp.1 s₁ h₁, fun r s₂ hd => ?_⟩
    obtain ⟨hvalid, h₂⟩ := hcall c hp.1 s₁ r s₂ h₁ hd
    exact ⟨hJ s₂ h₂, ih r (hp.2 r hvalid) h₂⟩

/-- A program all of whose calls keep `J` keeps it as a whole. -/
theorem Keeps.of_allCalls {p : Prog I α} {P : I.Call → Prop} {J : σ → Prop} {s : σ}
    (hp : p.AllCalls P) (hJ : ∀ s, J s → G.always s) (hrely : ∀ s s₁, J s → E.rely s s₁ → J s₁)
    (hbefore : ∀ c, P c → ∀ s, J s → G.before c s)
    (hcall : ∀ c, P c → ∀ s r s₂, J s → E.does c s r s₂ → J s₂) (hs : J s) :
    p.Keeps E G (fun _ s => J s) s :=
  (Keeps.of_obeys hp hJ hrely hbefore
    (fun c hc s r s₂ hs hd => ⟨trivial, hcall c hc s r s₂ hs hd⟩) hs).mono fun _ _ h => h.1

theorem Keeps.eval {exec : (c : I.Call) → σ → I.Resp c × σ} {p : Prog I α}
    {Q : α → σ → Prop} {s : σ}
    (h : p.Keeps (.alone exec) G Q s) : Q (p.eval exec s).1 (p.eval exec s).2 := by
  induction p generalizing s with
  | pure a => exact h
  | call c k ih => exact ih _ ((h s rfl).2 _ _ rfl).2

/-- Where nobody else acts and the calls of a program are answered by `exec` if they are, it ends as
it is evaluated. -/
theorem Keeps.and_eval_of_allCalls {exec : (c : I.Call) → σ → I.Resp c × σ} {p : Prog I α}
    {P : I.Call → Prop} {Q : α → σ → Prop} {s : σ} (hp : p.AllCalls P)
    (hdoes : ∀ c, P c → ∀ s r s', E.does c s r s' → exec c s = (r, s'))
    (hrely : ∀ s s', E.rely s s' → s = s') (h : p.Keeps E G Q s) :
    p.Keeps E G (fun a s' => Q a s' ∧ p.eval exec s = (a, s')) s := by
  induction p generalizing s with
  | pure a => exact ⟨h, rfl⟩
  | call c k ih =>
    intro s₁ hr
    obtain rfl := hrely s s₁ hr
    refine ⟨(h s hr).1, fun r s₂ hd => ?_⟩
    obtain ⟨hG, hk⟩ := (h s hr).2 r s₂ hd
    refine ⟨hG, ?_⟩
    rw [Prog.eval, hdoes c hp.1 s r s₂ hd]
    exact ih r (hp.2 r trivial) hk

/-- After a response that is `bad`, the program makes no further call and returns an error. -/
def GivesUp (bad : (c : I.Call) → I.Resp c → Prop) : Prog I (Except ε α) → Prop
  | .pure _ => True
  | .call c k => ∀ r, (bad c r → ∃ e, k r = .pure (.error e)) ∧ (k r).GivesUp bad

theorem GivesUp.bind {ε' : Type} {bad : (c : I.Call) → I.Resp c → Prop} {p : Prog I (Except ε α)}
    {f : Except ε α → Prog I (Except ε' β)} (hp : p.GivesUp bad)
    (herror : ∀ e, ∃ e', f (.error e) = .pure (.error e')) (hf : ∀ a, (f a).GivesUp bad) :
    (p.bind f).GivesUp bad := by
  induction p with
  | pure a => exact hf a
  | call c k ih =>
    refine fun r => ⟨fun hbad => ?_, ih r (hp r).2⟩
    obtain ⟨e, he⟩ := (hp r).1 hbad
    show ∃ e', (k r).bind f = .pure (.error e')
    rw [he]
    exact herror e

/-- Each error with the property `Q` comes after a call with the property `P`. -/
def FailsAfter (P : I.Call → Prop) (Q : ε → Prop) : Prog I (Except ε α) → Prop
  | .pure r => ∀ e, r = .error e → ¬ Q e
  | .call c k => P c ∨ ∀ r, (k r).FailsAfter P Q

theorem FailsAfter.bind {ε' : Type} {P : I.Call → Prop} {Q : ε → Prop} {Q' : ε' → Prop}
    {p : Prog I (Except ε α)} {f : Except ε α → Prog I (Except ε' β)} (hp : p.FailsAfter P Q)
    (herror : ∀ e, ¬ Q e → (f (.error e)).FailsAfter P Q')
    (hok : ∀ a, (f (.ok a)).FailsAfter P Q') : (p.bind f).FailsAfter P Q' := by
  induction p with
  | pure r =>
    cases r with
    | error e => exact herror e (hp e rfl)
    | ok a => exact hok a
  | call c k ih => exact hp.imp_right fun hk r => ih r (hk r)

theorem FailsAfter.exists_call {σ : Type} {exec : (c : I.Call) → σ → I.Resp c × σ}
    {P : I.Call → Prop} {Q : ε → Prop} {p : Prog I (Except ε α)}
    (hp : p.FailsAfter P Q) {s : σ} {e : ε}
    (he : (p.eval exec s).1 = .error e) (hQ : Q e) : ∃ c ∈ p.calls exec s, P c := by
  induction p generalizing s with
  | pure r => exact absurd hQ (hp e he)
  | call c k ih =>
    rcases hp with hc | hk
    · exact ⟨c, List.mem_cons_self, hc⟩
    · obtain ⟨c', hc', hP⟩ := ih _ (hk _) he
      exact ⟨c', List.mem_cons_of_mem c hc', hP⟩

/-- Where nobody else acts and each call is answered by `exec` or with a response after which the
program gives up, it ends as it is evaluated if it returns a result. -/
theorem Keeps.and_eval_of_givesUp {exec : (c : I.Call) → σ → I.Resp c × σ}
    {bad : (c : I.Call) → I.Resp c → Prop} {p : Prog I (Except ε α)} {Q : Except ε α → σ → Prop}
    {s : σ} (hp : p.GivesUp bad)
    (hdoes : ∀ c s r s', E.does c s r s' → exec c s = (r, s') ∨ bad c r)
    (hrely : ∀ s s', E.rely s s' → s = s') (h : p.Keeps E G Q s) :
    p.Keeps E G (fun a s' => Q a s' ∧ ∀ b, a = .ok b → p.eval exec s = (a, s')) s := by
  induction p generalizing s with
  | pure a => exact ⟨h, fun _ _ => rfl⟩
  | call c k ih =>
    intro s₁ hr
    obtain rfl := hrely s s₁ hr
    refine ⟨(h s hr).1, fun r s₂ hd => ?_⟩
    obtain ⟨hG, hk⟩ := (h s hr).2 r s₂ hd
    refine ⟨hG, ?_⟩
    rcases hdoes c s r s₂ hd with hexec | hbad
    · rw [Prog.eval, hexec]
      exact ih r (hp r).2 hk
    · obtain ⟨e, he⟩ := (hp r).1 hbad
      rw [he] at hk ⊢
      exact ⟨hk, fun b hb => by cases hb⟩

theorem Keeps.stable {p : Prog I α} {Q : α → σ → Prop} {s s₁ : σ} (h : p.Keeps E G Q s)
    (hQ : ∀ a s s₁, Q a s → E.rely s s₁ → Q a s₁) (hr : E.rely s s₁) : p.Keeps E G Q s₁ := by
  cases p with
  | pure a => exact hQ a s s₁ h hr
  | call c k => exact fun s₂ hr₂ => h s₂ (E.trans hr hr₂)

end Prog

/-! ### Programs that can fail -/

/-- A program that returns a value or fails with an error. -/
abbrev Fallible (I : Interface) (ε α : Type) := ExceptT ε (Prog I) α

namespace Fallible

variable {I : Interface} {σ α β ε ε' : Type}

/-- The program with its errors changed by `f`. -/
def mapError (f : ε → ε') (p : Fallible I ε α) : Fallible I ε' α :=
  ExceptT.mk (Prog.bind p.run fun r => .pure (r.mapError f))

/-- The program that makes one call and fails with what `f` makes of an error response. -/
def sendE {X : Type} (c : I.Call) (h : I.Resp c → Except ε X) : Fallible I ε X :=
  ExceptT.mk (.call c fun r => .pure (h r))

/-- The program that makes one call and returns the response, whatever it is. -/
def request (c : I.Call) : Fallible I ε (I.Resp c) := ExceptT.mk (.call c fun r => .pure (.ok r))

/-- The program of each element in turn, up to the first failure. -/
def forEach (f : α → Fallible I ε β) : List α → Fallible I ε (List β)
  | [] => Pure.pure []
  | a :: rest => do
    let b ← f a
    let bs ← forEach f rest
    Pure.pure (b :: bs)

section Eval

variable (exec : (c : I.Call) → σ → I.Resp c × σ)

/-- `Prog.eval` of a program that can fail. -/
def eval (p : Fallible I ε α) (s : σ) : Except ε α × σ := Prog.eval exec p.run s

theorem eval_pure (a : α) (s : σ) : eval exec (Pure.pure a : Fallible I ε α) s = (.ok a, s) := rfl

theorem eval_throw (e : ε) (s : σ) : eval exec (throw e : Fallible I ε α) s = (.error e, s) := rfl

theorem eval_bind (p : Fallible I ε α) (f : α → Fallible I ε β) (s : σ) :
    eval exec (p >>= f) s =
      match eval exec p s with
      | (.ok a, s') => eval exec (f a) s'
      | (.error e, s') => (.error e, s') := by
  refine (Prog.eval_bind exec p.run _ s).trans ?_
  unfold eval
  rcases Prog.eval exec p.run s with ⟨e | a, s'⟩ <;> rfl

theorem eval_request (c : I.Call) (s : σ) :
    eval exec (request c : Fallible I ε _) s = (.ok (exec c s).1, (exec c s).2) := rfl

theorem eval_sendE {X : Type} (c : I.Call) (h : I.Resp c → Except ε X) (s : σ) :
    eval exec (sendE c h) s = (h (exec c s).1, (exec c s).2) := rfl

theorem eval_mapError (f : ε → ε') (p : Fallible I ε α) (s : σ) :
    eval exec (p.mapError f) s = ((eval exec p s).1.mapError f, (eval exec p s).2) := by
  refine (Prog.eval_bind exec p.run _ s).trans ?_
  rfl

/-- `Prog.calls` of a program that can fail. -/
def calls (p : Fallible I ε α) (s : σ) : List I.Call := Prog.calls exec p.run s

theorem calls_pure (a : α) (s : σ) : calls exec (Pure.pure a : Fallible I ε α) s = [] := rfl

theorem calls_throw (e : ε) (s : σ) : calls exec (throw e : Fallible I ε α) s = [] := rfl

theorem calls_bind (p : Fallible I ε α) (f : α → Fallible I ε β) (s : σ) :
    calls exec (p >>= f) s = calls exec p s ++
      match eval exec p s with
      | (.ok a, s') => calls exec (f a) s'
      | (.error _, _) => [] := by
  refine (Prog.calls_bind exec p.run _ s).trans ?_
  unfold eval calls
  rcases Prog.eval exec p.run s with ⟨e | a, s'⟩ <;> rfl

theorem calls_bind_pure (p : Fallible I ε α) (f : α → β) (s : σ) :
    calls exec (p >>= fun a => Pure.pure (f a)) s = calls exec p s := by
  rw [calls_bind]
  rcases eval exec p s with ⟨e | a, s'⟩
  · exact List.append_nil _
  · exact List.append_nil _

theorem calls_mapError (f : ε → ε') (p : Fallible I ε α) (s : σ) :
    calls exec (p.mapError f) s = calls exec p s := by
  refine (Prog.calls_bind exec p.run _ s).trans ?_
  exact List.append_nil _

theorem mem_calls_bind {p : Fallible I ε α} {f : α → Fallible I ε β} {s : σ} {c : I.Call} :
    c ∈ calls exec (p >>= f) s ↔ c ∈ calls exec p s ∨
      ∃ a s', eval exec p s = (.ok a, s') ∧ c ∈ calls exec (f a) s' := by
  rw [calls_bind, List.mem_append]
  rcases eval exec p s with ⟨e | a, s'⟩
  · simp
  · refine or_congr_right ⟨fun hc => ⟨a, s', rfl, hc⟩, ?_⟩
    rintro ⟨a', s'', heq, hc⟩
    cases heq
    exact hc

/-- A call with the property `P` is made when the program is evaluated. -/
def SomeCall (P : I.Call → Prop) (p : Fallible I ε α) (s : σ) : Prop := ∃ c ∈ calls exec p s, P c

section SomeCall

variable {exec} {P : I.Call → Prop} {s : σ}

@[simp] theorem someCall_pure {a : α} :
    SomeCall exec P (Pure.pure a : Fallible I ε α) s ↔ False := by
  simp [SomeCall, calls_pure]

@[simp] theorem someCall_throw {e : ε} :
    SomeCall exec P (throw e : Fallible I ε α) s ↔ False := by
  simp [SomeCall, calls_throw]

@[simp] theorem someCall_mapError {f : ε → ε'} {p : Fallible I ε α} :
    SomeCall exec P (p.mapError f) s ↔ SomeCall exec P p s := by
  unfold SomeCall
  rw [calls_mapError]

@[simp] theorem someCall_sendE {X : Type} {c : I.Call} {h : I.Resp c → Except ε X} :
    SomeCall exec P (sendE c h) s ↔ P c := by
  have hcalls : calls exec (sendE c h) s = [c] := rfl
  simp [SomeCall, hcalls]

@[simp] theorem someCall_request {c : I.Call} :
    SomeCall exec P (request c : Fallible I ε _) s ↔ P c := by
  have hcalls : calls exec (request c : Fallible I ε _) s = [c] := rfl
  simp [SomeCall, hcalls]

theorem someCall_bind {p : Fallible I ε α} {f : α → Fallible I ε β} :
    SomeCall exec P (p >>= f) s ↔ SomeCall exec P p s ∨
      ∃ a s', eval exec p s = (.ok a, s') ∧ SomeCall exec P (f a) s' := by
  constructor
  · rintro ⟨c, hc, hP⟩
    rcases (mem_calls_bind exec).mp hc with hc | ⟨a, s', heval, hc⟩
    · exact .inl ⟨c, hc, hP⟩
    · exact .inr ⟨a, s', heval, c, hc, hP⟩
  · rintro (⟨c, hc, hP⟩ | ⟨a, s', heval, c, hc, hP⟩)
    · exact ⟨c, (mem_calls_bind exec).mpr (.inl hc), hP⟩
    · exact ⟨c, (mem_calls_bind exec).mpr (.inr ⟨a, s', heval, hc⟩), hP⟩

theorem someCall_bind_of_eval {p : Fallible I ε α} {f : α → Fallible I ε β} {a : α} {s' : σ}
    (heval : eval exec p s = (.ok a, s')) :
    SomeCall exec P (p >>= f) s ↔ SomeCall exec P p s ∨ SomeCall exec P (f a) s' := by
  rw [someCall_bind]
  refine or_congr_right ⟨?_, fun h => ⟨a, s', heval, h⟩⟩
  rintro ⟨a', s'', heval', h⟩
  cases heval.symm.trans heval'
  exact h

end SomeCall

/-- The elements that a loop comes to, each with the state in which its turn starts. -/
def visits (f : α → Fallible I ε β) : List α → σ → List (α × σ)
  | [], _ => []
  | a :: rest, s => (a, s) ::
    match eval exec (f a) s with
    | (.ok _, s') => visits f rest s'
    | (.error _, _) => []

theorem calls_forEach (f : α → Fallible I ε β) (l : List α) (s : σ) :
    calls exec (forEach f l) s = (visits exec f l s).flatMap fun v => calls exec (f v.1) v.2 := by
  induction l generalizing s with
  | nil => rfl
  | cons a rest ih =>
    rw [forEach, calls_bind, visits, List.flatMap_cons]
    congr 1
    rcases eval exec (f a) s with ⟨e | b, s'⟩
    · rfl
    · exact (calls_bind_pure _ _ _ _).trans (ih s')

theorem mem_of_mem_visits {f : α → Fallible I ε β} {l : List α} {s : σ} {v : α × σ}
    (hv : v ∈ visits exec f l s) : v.1 ∈ l := by
  induction l generalizing s with
  | nil => cases hv
  | cons a rest ih =>
    rcases List.mem_cons.mp hv with rfl | hrest
    · exact List.mem_cons_self
    · refine List.mem_cons_of_mem _ ?_
      rcases heval : eval exec (f a) s with ⟨e | b, s'⟩
      · rw [heval] at hrest
        cases hrest
      · rw [heval] at hrest
        exact ih hrest

theorem exists_visit {f : α → Fallible I ε β} {l : List α} (s : σ)
    (hok : ∀ a ∈ l, ∀ s, ∃ b s', eval exec (f a) s = (.ok b, s')) {a : α} (ha : a ∈ l) :
    ∃ s', (a, s') ∈ visits exec f l s := by
  induction l generalizing s with
  | nil => cases ha
  | cons a' rest ih =>
    rcases List.mem_cons.mp ha with rfl | hrest
    · exact ⟨s, List.mem_cons_self⟩
    · obtain ⟨b, s₁, heval⟩ := hok a' List.mem_cons_self s
      obtain ⟨s', hs'⟩ := ih s₁ (fun a ha => hok a (List.mem_cons_of_mem _ ha)) hrest
      refine ⟨s', List.mem_cons_of_mem _ ?_⟩
      rw [heval]
      exact hs'

theorem eval_bind_ok {p : Fallible I ε α} {f : α → Fallible I ε β} {s s' : σ} {b : β}
    (h : eval exec (p >>= f) s = (.ok b, s')) :
    ∃ a s₁, eval exec p s = (.ok a, s₁) ∧ eval exec (f a) s₁ = (.ok b, s') := by
  rw [eval_bind] at h
  rcases he : eval exec p s with ⟨e | a, s₁⟩
  · rw [he] at h
    cases h
  · rw [he] at h
    exact ⟨a, s₁, rfl, h⟩

theorem eval_mapError_ok {f : ε → ε'} {p : Fallible I ε α} {s s' : σ} {a : α}
    (h : eval exec (p.mapError f) s = (.ok a, s')) : eval exec p s = (.ok a, s') := by
  rw [eval_mapError] at h
  rcases he : eval exec p s with ⟨e | b, s₁⟩
  · rw [he] at h
    cases h
  · rw [he] at h
    cases h
    rfl

theorem eval_forEach {f : α → Fallible I ε β} {g : α → β} {l : List α} {s : σ}
    (hf : ∀ a ∈ l, eval exec (f a) s = (.ok (g a), s)) :
    eval exec (forEach f l) s = (.ok (l.map g), s) := by
  induction l with
  | nil => rfl
  | cons a rest ih =>
    rw [forEach, eval_bind, hf a (by simp)]
    dsimp only
    rw [eval_bind, ih fun a' ha' => hf a' (by simp [ha'])]
    rfl

/-- Evaluated in `s`, the program leaves the state as it was. -/
def Leaves (p : Fallible I ε α) (s : σ) : Prop := (eval exec p s).2 = s

variable {exec}

theorem Leaves.pure {a : α} {s : σ} : Leaves exec (Pure.pure a : Fallible I ε α) s := rfl

theorem Leaves.throw {e : ε} {s : σ} : Leaves exec (throw e : Fallible I ε α) s := rfl

theorem Leaves.bind {p : Fallible I ε α} {f : α → Fallible I ε β} {s : σ} (hp : Leaves exec p s)
    (hf : ∀ a, (eval exec p s).1 = .ok a → Leaves exec (f a) s) : Leaves exec (p >>= f) s := by
  unfold Leaves at hp ⊢
  rw [eval_bind]
  rcases he : eval exec p s with ⟨e | a, s'⟩
  · rw [he] at hp
    exact hp
  · rw [he] at hp hf
    obtain rfl : s' = s := hp
    exact hf a rfl

theorem Leaves.mapError {f : ε → ε'} {p : Fallible I ε α} {s : σ} (hp : Leaves exec p s) :
    Leaves exec (p.mapError f) s := by
  unfold Leaves
  rw [eval_mapError]
  exact hp

theorem Leaves.forEach {f : α → Fallible I ε β} {l : List α} {s : σ}
    (hf : ∀ a ∈ l, Leaves exec (f a) s) : Leaves exec (Fallible.forEach f l) s := by
  induction l with
  | nil => exact Leaves.pure
  | cons a rest ih =>
    refine Leaves.bind (hf a (by simp)) fun b _ => Leaves.bind (ih fun a' ha' => ?_) fun bs _ => ?_
    · exact hf a' (by simp [ha'])
    · exact Leaves.pure

end Eval

variable {E : Environment I σ} {G : Guarantee I σ}

/-- `Q` holds of a result, `R` after a failure. -/
def Outcome (Q : α → σ → Prop) (R : σ → Prop) : Except ε α → σ → Prop
  | .ok a, s => Q a s
  | .error _, s => R s

/-- `Prog.Keeps` with one postcondition for a result and one for a failure. -/
def Keeps (E : Environment I σ) (G : Guarantee I σ) (p : Fallible I ε α) (Q : α → σ → Prop)
    (R : σ → Prop) (s : σ) : Prop :=
  Prog.Keeps E G p.run (Outcome Q R) s

theorem Keeps.pure {a : α} {Q : α → σ → Prop} {R : σ → Prop} {s : σ} (h : Q a s) :
    Keeps E G (Pure.pure a : Fallible I ε α) Q R s := h

theorem Keeps.throw {e : ε} {Q : α → σ → Prop} {R : σ → Prop} {s : σ} (h : R s) :
    Keeps E G (throw e : Fallible I ε α) Q R s := h

theorem Keeps.bind {p : Fallible I ε α} {f : α → Fallible I ε β} {Q : β → σ → Prop} {R : σ → Prop}
    {s : σ} (h : Keeps E G p (fun a s => Keeps E G (f a) Q R s) R s) :
    Keeps E G (p >>= f) Q R s := by
  refine Prog.Keeps.bind (Prog.Keeps.mono h ?_)
  rintro (e | a) s h
  · exact h
  · exact h

theorem Keeps.mapError {p : Fallible I ε α} {f : ε → ε'} {Q : α → σ → Prop} {R : σ → Prop} {s : σ}
    (h : Keeps E G p Q R s) : Keeps E G (p.mapError f) Q R s := by
  refine Prog.Keeps.bind (Prog.Keeps.mono h ?_)
  rintro (e | a) s h
  · exact h
  · exact h

theorem Keeps.mono {p : Fallible I ε α} {Q Q' : α → σ → Prop} {R R' : σ → Prop} {s : σ}
    (h : Keeps E G p Q R s) (hQ : ∀ a s, Q a s → Q' a s) (hR : ∀ s, R s → R' s) :
    Keeps E G p Q' R' s := by
  refine Prog.Keeps.mono h ?_
  rintro (e | a) s h
  · exact hR s h
  · exact hQ a s h

theorem Keeps.seq {p : Fallible I ε α} {f : α → Fallible I ε β} {P : α → σ → Prop}
    {Q : β → σ → Prop} {R : σ → Prop} {s : σ} (hp : Keeps E G p P R s)
    (hf : ∀ a s, P a s → Keeps E G (f a) Q R s) : Keeps E G (p >>= f) Q R s :=
  .bind (hp.mono hf fun _ h => h)

theorem Keeps.forEach {f : α → Fallible I ε β} {l : List α} {J : σ → Prop} {s : σ}
    (hf : ∀ a ∈ l, ∀ s, J s → Keeps E G (f a) (fun _ => J) J s) (hs : J s) :
    Keeps E G (Fallible.forEach f l) (fun _ => J) J s := by
  induction l generalizing s with
  | nil => exact .pure hs
  | cons a rest ih =>
    refine .seq (hf a (by simp) s hs) fun b s₁ h₁ => ?_
    exact .seq (ih (fun a' ha' => hf a' (by simp [ha'])) h₁) fun bs s₂ h₂ => .pure h₂

/-- The rule for one call: the response decides between the result and the failure. -/
theorem Keeps.sendE {X : Type} {c : I.Call} {h : I.Resp c → Except ε X} {Q : X → σ → Prop}
    {R : σ → Prop} {s : σ}
    (hc : ∀ s₁, E.rely s s₁ →
      G.before c s₁ ∧ ∀ r s₂, E.does c s₁ r s₂ → G.always s₂ ∧ Outcome Q R (h r) s₂) :
    Keeps E G (Fallible.sendE c h) Q R s :=
  fun s₁ hr => hc s₁ hr

theorem Keeps.request {c : I.Call} {Q : I.Resp c → σ → Prop} {R : σ → Prop} {s : σ}
    (hc : ∀ s₁, E.rely s s₁ →
      G.before c s₁ ∧ ∀ r s₂, E.does c s₁ r s₂ → G.always s₂ ∧ Q r s₂) :
    Keeps E G (Fallible.request c : Fallible I ε _) Q R s :=
  fun s₁ hr => hc s₁ hr

/-- `Prog.Obeys` of a program that can fail: `Q` is about the results. -/
def Obeys (V : (c : I.Call) → I.Resp c → Prop) (P : I.Call → Prop) (Q : α → Prop)
    (p : Fallible I ε α) : Prop :=
  Prog.Obeys V P (fun result => ∀ a, result = .ok a → Q a) p.run

theorem Keeps.of_obeys {p : Fallible I ε α} {V : (c : I.Call) → I.Resp c → Prop}
    {P : I.Call → Prop} {Q : α → Prop} {J : σ → Prop} {s : σ} (hp : p.Obeys V P Q)
    (hJ : ∀ s, J s → G.always s) (hrely : ∀ s s₁, J s → E.rely s s₁ → J s₁)
    (hbefore : ∀ c, P c → ∀ s, J s → G.before c s)
    (hcall : ∀ c, P c → ∀ s r s₂, J s → E.does c s r s₂ → V c r ∧ J s₂) (hs : J s) :
    Keeps E G p (fun a s => J s ∧ Q a) J s := by
  refine Prog.Keeps.mono (Prog.Keeps.of_obeys hp hJ hrely hbefore hcall hs) ?_
  rintro (e | a) s ⟨hs, ha⟩
  · exact hs
  · exact ⟨hs, ha a rfl⟩

/-- A program all of whose calls keep `J` keeps it as a whole. -/
theorem Keeps.of_allCalls {p : Fallible I ε α} {P : I.Call → Prop} {J : σ → Prop} {s : σ}
    (hp : Prog.AllCalls P p.run) (hJ : ∀ s, J s → G.always s)
    (hrely : ∀ s s₁, J s → E.rely s s₁ → J s₁) (hbefore : ∀ c, P c → ∀ s, J s → G.before c s)
    (hcall : ∀ c, P c → ∀ s r s₂, J s → E.does c s r s₂ → J s₂) (hs : J s) :
    Keeps E G p (fun _ => J) J s := by
  refine Prog.Keeps.mono (Prog.Keeps.of_allCalls hp hJ hrely hbefore hcall hs) ?_
  rintro (e | a) s h
  · exact h
  · exact h

/-- What one call does: made in a state with `P`, it meets the guarantee, and `Q` holds of the
response and the state after it. -/
def Triple (E : Environment I σ) (G : Guarantee I σ) (c : I.Call) (P : σ → Prop)
    (Q : I.Resp c → σ → Prop) : Prop :=
  ∀ s, P s → G.before c s ∧ ∀ r s', E.does c s r s' → G.always s' ∧ Q r s'

/-- A condition that the other parties do not break. -/
def Stable (E : Environment I σ) (P : σ → Prop) : Prop := ∀ s s', P s → E.rely s s' → P s'

theorem Keeps.request_of_triple {c : I.Call} {P : σ → Prop} {Q : I.Resp c → σ → Prop}
    {R : σ → Prop} {s : σ} (ht : Triple E G c P Q) (hstable : Stable E P) (hs : P s) :
    Keeps E G (Fallible.request c : Fallible I ε _) Q R s :=
  Keeps.request fun s₁ hr => ht s₁ (hstable s s₁ hs hr)

theorem Keeps.sendE_of_triple {X : Type} {c : I.Call} {h : I.Resp c → Except ε X} {P : σ → Prop}
    {Q : X → σ → Prop} {R : σ → Prop} {s : σ}
    (ht : Triple E G c P fun r s => Outcome Q R (h r) s) (hstable : Stable E P) (hs : P s) :
    Keeps E G (Fallible.sendE c h) Q R s :=
  Keeps.sendE fun s₁ hr => ht s₁ (hstable s s₁ hs hr)

def AllCalls (P : I.Call → Prop) (p : Fallible I ε α) : Prop := Prog.AllCalls P p.run

theorem AllCalls.pure {P : I.Call → Prop} {a : α} : AllCalls P (Pure.pure a : Fallible I ε α) :=
  trivial

theorem AllCalls.throw {P : I.Call → Prop} {e : ε} : AllCalls P (throw e : Fallible I ε α) :=
  trivial

theorem AllCalls.bind {P : I.Call → Prop} {p : Fallible I ε α} {f : α → Fallible I ε β}
    (hp : AllCalls P p) (hf : ∀ a, AllCalls P (f a)) : AllCalls P (p >>= f) := by
  refine Prog.AllCalls.bind hp ?_
  rintro (e | a)
  · trivial
  · exact hf a

theorem AllCalls.mono {P P' : I.Call → Prop} {p : Fallible I ε α} (hp : AllCalls P p)
    (h : ∀ c, P c → P' c) : AllCalls P' p :=
  Prog.Obeys.mono hp (fun _ _ h => h) h fun _ h => h

theorem AllCalls.mapError {P : I.Call → Prop} {p : Fallible I ε α} {f : ε → ε'}
    (hp : AllCalls P p) : AllCalls P (p.mapError f) :=
  Prog.AllCalls.bind hp fun _ => trivial

theorem AllCalls.sendE {P : I.Call → Prop} {X : Type} {c : I.Call} {h : I.Resp c → Except ε X}
    (hc : P c) : AllCalls P (Fallible.sendE c h) := ⟨hc, fun _ _ => trivial⟩

theorem AllCalls.forEach {P : I.Call → Prop} {f : α → Fallible I ε β} {l : List α}
    (hf : ∀ a ∈ l, AllCalls P (f a)) : AllCalls P (Fallible.forEach f l) := by
  induction l with
  | nil => exact AllCalls.pure
  | cons a rest ih =>
    refine AllCalls.bind (hf a (by simp)) fun b => AllCalls.bind (ih fun a' ha' => ?_) fun bs => ?_
    · exact hf a' (by simp [ha'])
    · exact AllCalls.pure

theorem AllCalls.request {P : I.Call → Prop} {c : I.Call} (hc : P c) :
    AllCalls P (Fallible.request c : Fallible I ε _) := ⟨hc, fun _ _ => trivial⟩

theorem AllCalls.not_someCall {exec : (c : I.Call) → σ → I.Resp c × σ} {P : I.Call → Prop}
    {p : Fallible I ε α} {s : σ} (hp : AllCalls (fun c => ¬ P c) p) : ¬ SomeCall exec P p s := by
  rintro ⟨c, hc, hP⟩
  exact Prog.AllCalls.of_mem_calls hp hc hP

section Obeys

variable {V : (c : I.Call) → I.Resp c → Prop} {P : I.Call → Prop}

theorem Obeys.pure {Q : α → Prop} {a : α} (h : Q a) :
    Obeys V P Q (Pure.pure a : Fallible I ε α) := by
  intro a' ha
  cases ha
  exact h

theorem Obeys.throw {Q : α → Prop} {e : ε} : Obeys V P Q (throw e : Fallible I ε α) := by
  intro a' ha
  cases ha

theorem Obeys.bind {Q : α → Prop} {Q' : β → Prop} {p : Fallible I ε α} {f : α → Fallible I ε β}
    (hp : Obeys V P Q p) (hf : ∀ a, Q a → Obeys V P Q' (f a)) : Obeys V P Q' (p >>= f) := by
  refine Prog.Obeys.bind hp ?_
  rintro (e | a) ha
  · exact Obeys.throw
  · exact hf a (ha a rfl)

theorem Obeys.mapError {Q : α → Prop} {p : Fallible I ε α} {f : ε → ε'} (hp : Obeys V P Q p) :
    Obeys V P Q (p.mapError f) := by
  refine Prog.Obeys.bind hp ?_
  rintro (e | a) ha
  · exact Obeys.throw
  · exact Obeys.pure (ha a rfl)

theorem Obeys.mono {P' : I.Call → Prop} {Q Q' : α → Prop} {p : Fallible I ε α} (hp : Obeys V P Q p)
    (hP : ∀ c, P c → P' c) (hQ : ∀ a, Q a → Q' a) : Obeys V P' Q' p :=
  Prog.Obeys.mono hp (fun _ _ h => h) hP fun _ h a ha => hQ a (h a ha)

theorem Obeys.sendE {X : Type} {c : I.Call} {h : I.Resp c → Except ε X} {Q : X → Prop} (hc : P c)
    (hQ : ∀ r, V c r → ∀ x, h r = .ok x → Q x) : Obeys V P Q (Fallible.sendE c h) :=
  ⟨hc, fun r hr => hQ r hr⟩

theorem Obeys.request {c : I.Call} (hc : P c) :
    Obeys V P (V c) (Fallible.request c : Fallible I ε _) := by
  refine ⟨hc, fun r hr a ha => ?_⟩
  cases ha
  exact hr

theorem Obeys.forEach {Q : β → Prop} {f : α → Fallible I ε β} {l : List α}
    (hf : ∀ a ∈ l, Obeys V P Q (f a)) : Obeys V P (fun bs => ∀ b ∈ bs, Q b)
    (Fallible.forEach f l) := by
  induction l with
  | nil => exact .pure fun b hb => by cases hb
  | cons a rest ih =>
    refine .bind (hf a (by simp)) fun b hb => .bind (ih fun a' ha' => hf a' (by simp [ha']))
      fun bs hbs => .pure ?_
    exact List.forall_mem_cons.mpr ⟨hb, hbs⟩

/-- A program that keeps to `P` whatever its calls respond. -/
theorem AllCalls.obeys {p : Fallible I ε α} (hp : AllCalls P p) : Obeys V P (fun _ => True) p :=
  Prog.Obeys.mono hp (fun _ _ _ => trivial) (fun _ h => h) fun _ _ _ _ => trivial

theorem Obeys.allCalls {Q : α → Prop} {p : Fallible I ε α} (hp : Obeys (fun _ _ => True) P Q p) :
    AllCalls P p :=
  Prog.Obeys.mono hp (fun _ _ h => h) (fun _ h => h) fun _ _ => trivial

end Obeys

section GivesUp

variable {bad : (c : I.Call) → I.Resp c → Prop}

/-- `Prog.GivesUp` of a program that can fail. -/
def GivesUp (bad : (c : I.Call) → I.Resp c → Prop) (p : Fallible I ε α) : Prop :=
  Prog.GivesUp bad p.run

theorem GivesUp.pure {a : α} : GivesUp bad (Pure.pure a : Fallible I ε α) := trivial

theorem GivesUp.throw {e : ε} : GivesUp bad (throw e : Fallible I ε α) := trivial

theorem GivesUp.bind {p : Fallible I ε α} {f : α → Fallible I ε β} (hp : GivesUp bad p)
    (hf : ∀ a, GivesUp bad (f a)) : GivesUp bad (p >>= f) := by
  refine Prog.GivesUp.bind hp (fun e => ⟨e, rfl⟩) ?_
  rintro (e | a)
  · trivial
  · exact hf a

theorem GivesUp.mapError {p : Fallible I ε α} {f : ε → ε'} (hp : GivesUp bad p) :
    GivesUp bad (p.mapError f) :=
  Prog.GivesUp.bind hp (fun e => ⟨f e, rfl⟩) fun _ => trivial

theorem GivesUp.sendE {X : Type} {c : I.Call} {h : I.Resp c → Except ε X}
    (hc : ∀ r, bad c r → ∃ e, h r = .error e) : GivesUp bad (Fallible.sendE c h) := by
  refine fun r => ⟨fun hbad => ?_, trivial⟩
  obtain ⟨e, he⟩ := hc r hbad
  exact ⟨e, congrArg Prog.pure he⟩

theorem GivesUp.request {c : I.Call} {f : I.Resp c → Fallible I ε β}
    (hc : ∀ r, bad c r → ∃ e, f r = MonadExcept.throw e) (hf : ∀ r, GivesUp bad (f r)) :
    GivesUp bad (Fallible.request c >>= f) := by
  refine fun r => ⟨fun hbad => ?_, hf r⟩
  obtain ⟨e, he⟩ := hc r hbad
  exact ⟨e, he⟩

theorem GivesUp.of_allCalls {p : Fallible I ε α} (hp : AllCalls (fun c => ∀ r, ¬ bad c r) p) :
    GivesUp bad p := by
  have hprog : ∀ p : Prog I (Except ε α), p.AllCalls (fun c => ∀ r, ¬ bad c r) → p.GivesUp bad := by
    intro p
    induction p with
    | pure a => exact fun _ => trivial
    | call c k ih => exact fun hp r => ⟨fun hbad => absurd hbad (hp.1 r), ih r (hp.2 r trivial)⟩
  exact hprog p.run hp

theorem GivesUp.forEach {f : α → Fallible I ε β} {l : List α} (hf : ∀ a ∈ l, GivesUp bad (f a)) :
    GivesUp bad (Fallible.forEach f l) := by
  induction l with
  | nil => exact .pure
  | cons a rest ih =>
    refine .bind (hf a (by simp)) fun b => .bind (ih fun a' ha' => ?_) fun bs => .pure
    exact hf a' (by simp [ha'])

end GivesUp

section FailsAfter

variable {P : I.Call → Prop} {Q : ε → Prop}

/-- `Prog.FailsAfter` of a program that can fail. -/
def FailsAfter (P : I.Call → Prop) (Q : ε → Prop) (p : Fallible I ε α) : Prop :=
  Prog.FailsAfter P Q p.run

theorem FailsAfter.pure {a : α} : FailsAfter P Q (Pure.pure a : Fallible I ε α) :=
  fun _ h => by cases h

theorem FailsAfter.throw {e : ε} (he : ¬ Q e) : FailsAfter P Q (throw e : Fallible I ε α) :=
  fun _ h => by
    cases h
    exact he

theorem FailsAfter.bind {p : Fallible I ε α} {f : α → Fallible I ε β} (hp : FailsAfter P Q p)
    (hf : ∀ a, FailsAfter P Q (f a)) : FailsAfter P Q (p >>= f) :=
  Prog.FailsAfter.bind hp (fun _ he => FailsAfter.throw he) hf

theorem FailsAfter.mapError {f : ε → ε'} {Q : ε' → Prop} {p : Fallible I ε α}
    (hp : FailsAfter P (fun e => Q (f e)) p) : FailsAfter P Q (p.mapError f) := by
  refine Prog.FailsAfter.bind hp (fun e he e' h => ?_) fun a e' h => ?_
  · cases h
    exact he
  · cases h

theorem FailsAfter.of_forall (hQ : ∀ e, ¬ Q e) (p : Fallible I ε α) : FailsAfter P Q p := by
  have hprog : ∀ p : Prog I (Except ε α), p.FailsAfter P Q := by
    intro p
    induction p with
    | pure r => exact fun e _ => hQ e
    | call c k ih => exact .inr ih
  exact hprog p.run

theorem FailsAfter.request {c : I.Call} {f : I.Resp c → Fallible I ε β}
    (hf : ∀ r, FailsAfter P Q (f r)) : FailsAfter P Q (Fallible.request c >>= f) := .inr hf

theorem FailsAfter.of_call {c : I.Call} {f : I.Resp c → Fallible I ε β} (hc : P c) :
    FailsAfter P Q (Fallible.request c >>= f) := .inl hc

theorem FailsAfter.someCall {exec : (c : I.Call) → σ → I.Resp c × σ} {p : Fallible I ε α}
    (hp : FailsAfter P Q p) {s : σ} {e : ε} (he : (eval exec p s).1 = .error e) (hQ : Q e) :
    SomeCall exec P p s :=
  Prog.FailsAfter.exists_call hp he hQ

end FailsAfter

end Fallible

/-! ### Runs -/

/-- The states of a run together with what is left of the program that is being executed, if one
is.  A program starts when none is being executed. -/
inductive Run {I : Interface} {σ α : Type} (E : Environment I σ) (init : σ → Prop)
    (start : σ → Prog I α → Prop) : σ → Option (Prog I α) → Prop where
  | init {s} : init s → Run E init start s none
  | others {s s' p} : Run E init start s p → E.rely s s' → Run E init start s' p
  | idle {s s'} : Run E init start s none → E.idle s s' → Run E init start s' none
  | start {s p} : Run E init start s none → start s p → Run E init start s (some p)
  | call {s c k r s'} : Run E init start s (some (.call c k)) → E.does c s r s' →
      Run E init start s' (some (k r))
  | finish {s a} : Run E init start s (some (.pure a)) → Run E init start s none

namespace Run

variable {I : Interface} {σ α : Type} {E : Environment I σ} {init : σ → Prop}
  {start : σ → Prog I α → Prop}

/-- The rule for runs: `J` holds whenever no program is being executed, the guarantee is met always,
and the postcondition `Q` holds of every result.  Each started program has to keep them. -/
theorem keeps {G : Guarantee I σ} {J : σ → Prop} {Q : α → σ → Prop} (hinit : ∀ s, init s → J s)
    (hJ : ∀ s s', J s → E.rely s s' → J s') (hidle : ∀ s s', J s → E.idle s s' → J s')
    (hG : ∀ s s', G.always s → E.rely s s' → G.always s')
    (hJG : ∀ s, J s → G.always s) (hQ : ∀ a s s', Q a s → E.rely s s' → Q a s')
    (hQJ : ∀ a s, Q a s → J s)
    (hstart : ∀ s p, J s → start s p → p.Keeps E G Q s) {s : σ} {p : Option (Prog I α)}
    (h : Run E init start s p) :
    G.always s ∧ match p with | none => J s | some p => p.Keeps E G Q s := by
  induction h with
  | init hs => exact ⟨hJG _ (hinit _ hs), hinit _ hs⟩
  | @others s s' p _ hr ih =>
    refine ⟨hG _ _ ih.1 hr, ?_⟩
    cases p with
    | none => exact hJ _ _ ih.2 hr
    | some p => exact ih.2.stable hQ hr
  | idle _ hr ih => exact ⟨hJG _ (hidle _ _ ih.2 hr), hidle _ _ ih.2 hr⟩
  | start _ hp ih => exact ⟨ih.1, hstart _ _ ih.2 hp⟩
  | call _ hd ih => exact (ih.2 _ (E.refl _)).2 _ _ hd
  | finish _ ih => exact ⟨ih.1, hQJ _ _ ih.2⟩

theorem mono {init' : σ → Prop} {start' : σ → Prog I α → Prop} {s : σ} {p : Option (Prog I α)}
    (h : Run E init start s p) (hinit : ∀ s, init s → init' s)
    (hstart : ∀ s p, start s p → start' s p) : Run E init' start' s p := by
  induction h with
  | init hs => exact .init (hinit _ hs)
  | others _ hr ih => exact ih.others hr
  | idle _ hr ih => exact ih.idle hr
  | start _ hp ih => exact ih.start (hstart _ _ hp)
  | call _ hd ih => exact ih.call hd
  | finish _ ih => exact ih.finish

/-- A program that is being executed was started in some state, and since then it has only been
executed and the other parties have done what they may do at any time. -/
theorem exists_start {s : σ} {p : Prog I α} (h : Run E init start s (some p)) :
    ∃ s₀ p₀, Run E init start s₀ none ∧ start s₀ p₀ ∧
      Run E (· = s₀) (fun s p => s = s₀ ∧ p = p₀) s (some p) := by
  generalize hp : some p = q at h
  induction h generalizing p with
  | init => cases hp
  | others _ hr ih =>
    obtain ⟨s₀, p₀, h₀, hstart, hrun⟩ := ih hp
    exact ⟨s₀, p₀, h₀, hstart, hrun.others hr⟩
  | idle => cases hp
  | @start s p' hrun hstart =>
    cases hp
    exact ⟨s, p', hrun, hstart, .start (.init rfl) ⟨rfl, rfl⟩⟩
  | call _ hd ih =>
    cases hp
    obtain ⟨s₀, p₀, h₀, hstart, hrun⟩ := ih rfl
    exact ⟨s₀, p₀, h₀, hstart, hrun.call hd⟩
  | finish => cases hp

end Run

section Evaluated

variable {I : Interface} {σ α : Type} {E : Environment I σ} {init : σ → Prop}
  {start : σ → Prog I α → Prop} {exec : (c : I.Call) → σ → Option (I.Resp c × σ)}
  (hexec : ∀ c s r s', exec c s = some (r, s') → E.does c s r s') {p : Prog I α} {s : σ}

include hexec

theorem Run.evalSome {s' : σ} {a : α} (h : Run E init start s (some p))
    (heval : p.evalSome exec s = some (a, s')) : Run E init start s' (some (.pure a)) := by
  induction p generalizing s with
  | pure b =>
    cases heval
    exact h
  | call c k ih =>
    rw [Prog.evalSome, Option.bind_eq_some_iff] at heval
    obtain ⟨⟨r, s₁⟩, hcall, hrest⟩ := heval
    exact ih r (h.call (hexec c s r s₁ hcall)) hrest

theorem Run.steps {n : Nat} {p' : Prog I α} {s' : σ} (h : Run E init start s (some p))
    (heval : p.steps exec n s = some (p', s')) : Run E init start s' (some p') := by
  induction n generalizing p s with
  | zero =>
    cases heval
    exact h
  | succ n ih =>
    cases p with
    | pure a => cases heval
    | call c k =>
      rw [Prog.steps, Option.bind_eq_some_iff] at heval
      obtain ⟨⟨r, s₁⟩, hcall, hrest⟩ := heval
      exact ih (h.call (hexec c s r s₁ hcall)) hrest

theorem Run.exists_call (h : Run E init start s (some p)) (n : Nat) (test : I.Call → σ → Bool)
    (heval : (p.steps exec n s).any (fun q => match q.1 with
      | .call c _ => test c q.2
      | .pure _ => false) = true) :
    ∃ s' c k, Run E init start s' (some (.call c k)) ∧ test c s' = true := by
  rw [Option.any_eq_true] at heval
  obtain ⟨⟨p', s'⟩, hsteps, htest⟩ := heval
  cases p' with
  | pure a => cases htest
  | call c k => exact ⟨s', c, k, h.steps hexec hsteps, htest⟩

end Evaluated
