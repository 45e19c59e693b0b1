import SyncAgent.Lib.Interaction

/-! The traces of a program: the calls that it can make, each with the response that it gets, and
the result that it then has.  The responses are arbitrary, so a fact about all traces holds whatever
the system answers and whoever else acts between two calls.  `Marks` is the proof rule for programs
whose result tells what they have done. -/

namespace Prog

variable {I : Interface} {α β : Type}

/-- A call together with its response. -/
abbrev Exchange (I : Interface) := Sigma I.Resp

/-- The program can have these exchanges and then end with this result. -/
inductive Trace : Prog I α → List (Exchange I) → α → Prop where
  | pure {a : α} : Trace (.pure a) [] a
  | call {c : I.Call} {k : I.Resp c → Prog I α} {r : I.Resp c} {t : List (Exchange I)} {a : α} :
      Trace (k r) t a → Trace (.call c k) (⟨c, r⟩ :: t) a

theorem Trace.of_pure {a b : α} {t : List (Exchange I)} (h : Trace (.pure a) t b) :
    t = [] ∧ b = a := by
  cases h
  exact ⟨rfl, rfl⟩

theorem Trace.bind {p : Prog I α} {f : α → Prog I β} {t : List (Exchange I)} {b : β}
    (h : Trace (p.bind f) t b) : ∃ a t₁ t₂, t = t₁ ++ t₂ ∧ Trace p t₁ a ∧ Trace (f a) t₂ b := by
  induction p generalizing t with
  | pure a => exact ⟨a, [], t, rfl, .pure, h⟩
  | call c k ih =>
    cases h with
    | call hrest =>
      obtain ⟨a, t₁, t₂, rfl, hp, hf⟩ := ih _ hrest
      exact ⟨a, _, t₂, rfl, .call hp, hf⟩

theorem AllCalls.of_trace {P : I.Call → Prop} {p : Prog I α} {t : List (Exchange I)} {a : α}
    (hp : p.AllCalls P) (h : Trace p t a) : ∀ e ∈ t, P e.1 := by
  induction h with
  | pure => exact fun e he => by cases he
  | call _ ih =>
    intro e he
    rcases List.mem_cons.mp he with rfl | he
    · exact hp.1
    · exact ih (hp.2 _ trivial) e he

theorem trace_eval {σ : Type} (exec : (c : I.Call) → σ → I.Resp c × σ) (p : Prog I α) (s : σ) :
    ∃ t, Trace p t (p.eval exec s).1 ∧ t.map Sigma.fst = p.calls exec s := by
  induction p generalizing s with
  | pure a => exact ⟨[], .pure, rfl⟩
  | call c k ih =>
    obtain ⟨t, htrace, hcalls⟩ := ih (exec c s).1 (exec c s).2
    exact ⟨⟨c, (exec c s).1⟩ :: t, .call htrace, congrArg (c :: ·) hcalls⟩

end Prog

namespace Fallible

variable {I : Interface} {α β ε ε' : Type}

/-- The exchanges of a program that ends without an error. -/
def Trace (p : Fallible I ε α) (t : List (Prog.Exchange I)) (a : α) : Prop :=
  Prog.Trace p.run t (.ok a)

namespace Trace

variable {t : List (Prog.Exchange I)}

theorem pure {a b : α} (h : Trace (Pure.pure a : Fallible I ε α) t b) : t = [] ∧ b = a := by
  obtain ⟨rfl, hb⟩ := Prog.Trace.of_pure h
  exact ⟨rfl, Except.ok.inj hb⟩

theorem throw {e : ε} {b : α} (h : Trace (throw e : Fallible I ε α) t b) : False := by
  obtain ⟨-, hb⟩ := Prog.Trace.of_pure h
  cases hb

theorem bind {p : Fallible I ε α} {f : α → Fallible I ε β} {b : β} (h : Trace (p >>= f) t b) :
    ∃ a t₁ t₂, t = t₁ ++ t₂ ∧ Trace p t₁ a ∧ Trace (f a) t₂ b := by
  obtain ⟨result, t₁, t₂, ht, hp, hf⟩ := Prog.Trace.bind (p := p.run) h
  cases result with
  | error e => exact (Trace.throw (e := e) hf).elim
  | ok a => exact ⟨a, t₁, t₂, ht, hp, hf⟩

theorem mapError {f : ε → ε'} {p : Fallible I ε α} {a : α} (h : Trace (p.mapError f) t a) :
    Trace p t a := by
  obtain ⟨result, t₁, t₂, rfl, hp, hf⟩ := Prog.Trace.bind (p := p.run) h
  cases result with
  | error e => exact (Trace.throw (e := f e) hf).elim
  | ok b =>
    obtain ⟨rfl, rfl⟩ := Trace.pure (a := b) (ε := ε') hf
    rw [List.append_nil]
    exact hp

theorem sendE {X : Type} {c : I.Call} {g : I.Resp c → Except ε X} {x : X}
    (h : Trace (Fallible.sendE c g) t x) : ∃ r, t = [⟨c, r⟩] ∧ g r = .ok x := by
  have h' : Prog.Trace (.call c fun r => .pure (g r)) t (.ok x) := h
  cases h' with
  | @call _ _ r t _ hrest =>
    obtain ⟨rfl, hx⟩ := hrest.of_pure
    exact ⟨r, rfl, hx.symm⟩

theorem request {c : I.Call} {r : I.Resp c} (h : Trace (Fallible.request c : Fallible I ε _) t r) :
    t = [⟨c, r⟩] := by
  obtain ⟨r', rfl, hr⟩ := sendE (g := .ok) h
  rw [Except.ok.inj hr]

theorem not_early {early : Bool} {a b : α} {p : Fallible I ε α}
    (h : Trace (if early = true then Pure.pure a else p) t b) (hne : b ≠ a) : early = false := by
  cases early with
  | false => rfl
  | true => exact absurd (Trace.pure (a := a) h).2 hne

end Trace

/-- Every exchange on the way to a result satisfies `P`, and those on the way to a result that is
`done` also satisfy `Q`. -/
def Marks (P Q : Prog.Exchange I → Prop) (p : Fallible I ε α) (done : α → Prop) : Prop :=
  ∀ t a, Trace p t a → (∀ e ∈ t, P e) ∧ (done a → ∀ e ∈ t, Q e)

namespace Marks

variable {P Q : Prog.Exchange I → Prop} {done : α → Prop} {done' : β → Prop}

theorem pure {a : α} : Marks P Q (Pure.pure a : Fallible I ε α) done := by
  intro t b h
  obtain ⟨rfl, -⟩ := h.pure
  exact ⟨fun e he => (List.not_mem_nil he).elim, fun _ e he => (List.not_mem_nil he).elim⟩

theorem throw {e : ε} : Marks P Q (throw e : Fallible I ε α) done := fun _ _ h => h.throw.elim

/-- A sequence is done only if its first part is. -/
theorem bind {p : Fallible I ε α} {f : α → Fallible I ε β} (hp : Marks P Q p done)
    (hf : ∀ a, Marks P Q (f a) done')
    (hdone : ∀ a t b, Trace (f a) t b → done' b → done a) : Marks P Q (p >>= f) done' := by
  intro t b h
  obtain ⟨a, t₁, t₂, rfl, hfirst, hrest⟩ := h.bind
  obtain ⟨hP₁, hQ₁⟩ := hp t₁ a hfirst
  obtain ⟨hP₂, hQ₂⟩ := hf a t₂ b hrest
  refine ⟨fun e he => ?_, fun hb e he => ?_⟩
  · rcases List.mem_append.mp he with he | he
    · exact hP₁ e he
    · exact hP₂ e he
  · rcases List.mem_append.mp he with he | he
    · exact hQ₁ (hdone a t₂ b hrest hb) e he
    · exact hQ₂ hb e he

theorem seq {p : Fallible I ε α} {f : α → Fallible I ε β} (hp : Marks P Q p fun _ => True)
    (hf : ∀ a, Marks P Q (f a) done') : Marks P Q (p >>= f) done' :=
  .bind hp hf fun _ _ _ _ _ => trivial

theorem map {p : Fallible I ε α} {g : α → β} (hp : Marks P Q p done)
    (hdone : ∀ a, done' (g a) → done a) : Marks P Q (p >>= fun a => Pure.pure (g a)) done' := by
  refine .bind hp (fun _ => .pure) fun a t b h hb => ?_
  obtain ⟨-, rfl⟩ := h.pure
  exact hdone a hb

theorem never {p : Fallible I ε α} {f : α → Fallible I ε β} (hp : Marks P Q p fun _ => False)
    (hf : ∀ a, Marks P Q (f a) fun _ => False) : Marks P Q (p >>= f) fun _ => False :=
  .bind hp hf fun _ _ _ _ hdone => hdone

theorem mapError {f : ε → ε'} {p : Fallible I ε α} (hp : Marks P Q p done) :
    Marks P Q (p.mapError f) done := fun t a h => hp t a h.mapError

theorem mono {p : Fallible I ε α} {done₁ : α → Prop} (hp : Marks P Q p done)
    (h : ∀ t a, Trace p t a → done₁ a → done a) : Marks P Q p done₁ :=
  fun t a ht => ⟨(hp t a ht).1, fun ha => (hp t a ht).2 (h t a ht ha)⟩

/-- A program all of whose calls are harmless, whatever the responses are. -/
theorem of_allCalls {R : I.Call → Prop} {p : Fallible I ε α} (hp : AllCalls R p)
    (hP : ∀ e : Prog.Exchange I, R e.1 → P e) (hQ : ∀ e : Prog.Exchange I, R e.1 → Q e) :
    Marks P Q p done := fun _ _ h =>
  ⟨fun e he => hP e (Prog.AllCalls.of_trace hp h e he),
    fun _ e he => hQ e (Prog.AllCalls.of_trace hp h e he)⟩

theorem sendE {X : Type} {c : I.Call} {g : I.Resp c → Except ε X} {done : X → Prop}
    (hP : ∀ r x, g r = .ok x → P ⟨c, r⟩) (hQ : ∀ r x, g r = .ok x → done x → Q ⟨c, r⟩) :
    Marks P Q (Fallible.sendE c g) done := by
  intro t x h
  obtain ⟨r, rfl, hr⟩ := h.sendE
  exact ⟨fun e he => List.mem_singleton.mp he ▸ hP r x hr,
    fun hx e he => List.mem_singleton.mp he ▸ hQ r x hr hx⟩

theorem request {c : I.Call} {f : I.Resp c → Fallible I ε β} (hf : ∀ r, Marks P Q (f r) done')
    (hP : ∀ r t b, Trace (f r) t b → P ⟨c, r⟩)
    (hQ : ∀ r t b, Trace (f r) t b → done' b → Q ⟨c, r⟩) :
    Marks P Q (Fallible.request c >>= f) done' := by
  intro t b h
  obtain ⟨r, t₁, t₂, rfl, hfirst, hrest⟩ := h.bind
  obtain rfl := hfirst.request
  obtain ⟨hP₂, hQ₂⟩ := hf r t₂ b hrest
  refine ⟨fun e he => ?_, fun hb e he => ?_⟩
  · rcases List.mem_cons.mp he with rfl | he
    · exact hP r t₂ b hrest
    · exact hP₂ e he
  · rcases List.mem_cons.mp he with rfl | he
    · exact hQ r t₂ b hrest hb
    · exact hQ₂ hb e he

theorem forEach {f : α → Fallible I ε β} {l : List α} (hf : ∀ a ∈ l, Marks P Q (f a) done') :
    Marks P Q (Fallible.forEach f l) fun bs => ∀ b ∈ bs, done' b := by
  induction l with
  | nil => exact .pure
  | cons a rest ih =>
    refine .bind (hf a (by simp)) (fun b => .bind (ih fun a' ha' => hf a' (by simp [ha']))
      (fun bs => .pure) fun bs t bs' h hbs => ?_) fun b t bs' h hbs => ?_
    · obtain ⟨-, rfl⟩ := h.pure
      exact fun b' hb' => hbs b' (List.mem_cons_of_mem _ hb')
    · obtain ⟨bs, t₁, t₂, -, -, hrest⟩ := h.bind
      obtain ⟨-, rfl⟩ := hrest.pure
      exact hbs b List.mem_cons_self

end Marks

end Fallible
