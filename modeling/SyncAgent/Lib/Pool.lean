import SyncAgent.Lib.Interaction
import Mathlib.Logic.Relation

/-! Several programs that are executed at the same time: each call of a program is one step, and the
calls of different programs and the actions of the other parties come in any order.  The rule
`Reaches.keeps` reduces such runs to `Prog.Keeps` for each program on its own: to one program the
calls of the others are interference. -/

namespace Pool

variable {I : Interface} {σ α : Type}

/-- One step of the system and the programs that are being executed. -/
inductive Step (E : Environment I σ) (start : σ → Prog I α → Prop) :
    σ × List (Prog I α) → σ × List (Prog I α) → Prop where
  | others {s s' ps} : E.rely s s' → Step E start (s, ps) (s', ps)
  | start {s p ps} : start s p → Step E start (s, ps) (s, p :: ps)
  | call {s s' c k r ps qs} : E.does c s r s' →
      Step E start (s, ps ++ .call c k :: qs) (s', ps ++ k r :: qs)
  | finish {s a ps qs} : Step E start (s, ps ++ .pure a :: qs) (s, ps ++ qs)

/-- One configuration is reached from another one. -/
abbrev Reaches (E : Environment I σ) (start : σ → Prog I α → Prop) :=
  Relation.ReflTransGen (Step E start)

/-- The guarantee is met, and every program will meet it. -/
def Kept (F : Environment I σ) (G : Guarantee I σ) (c : σ × List (Prog I α)) : Prop :=
  G.always c.1 ∧ ∀ p ∈ c.2, p.Keeps F G (fun _ _ => True) c.1

theorem Kept.nil {F : Environment I σ} {G : Guarantee I σ} {s : σ} (h : G.always s) :
    Kept F G ((s, []) : σ × List (Prog I α)) := ⟨h, fun p hp => by cases hp⟩

section Rule

variable {E F : Environment I σ} {G : Guarantee I σ} {start : σ → Prog I α → Prop}
  (hothers : ∀ s s', G.always s → E.rely s s' → F.rely s s')
  (hcalls : ∀ c s r s', G.always s → G.before c s → E.does c s r s' → F.rely s s')
  (hdoes : ∀ c s r s', E.does c s r s' → F.does c s r s')
  (halways : ∀ s s', G.always s → F.rely s s' → G.always s')
  (hstart : ∀ s p, G.always s → start s p → p.Keeps F G (fun _ _ => True) s)

include hothers hcalls hdoes halways hstart

theorem Step.keeps {c c' : σ × List (Prog I α)} (h : Step E start c c') (hc : Kept F G c) :
    Kept F G c' ∧ F.rely c.1 c'.1 := by
  cases h with
  | @others s s' ps hr =>
    have hrely := hothers s s' hc.1 hr
    refine ⟨⟨halways s s' hc.1 hrely, fun p hp => ?_⟩, hrely⟩
    exact (hc.2 p hp).stable (fun _ _ _ _ _ => trivial) hrely
  | @start s p ps hp =>
    refine ⟨⟨hc.1, fun q hq => ?_⟩, F.refl s⟩
    rcases List.mem_cons.mp hq with rfl | hq
    · exact hstart s q hc.1 hp
    · exact hc.2 q hq
  | @call s s' c k r ps qs hd =>
    have hcall : (Prog.call c k).Keeps F G (fun _ _ => True) s := hc.2 _ (by simp)
    obtain ⟨hbefore, hafter⟩ := hcall s (F.refl s)
    obtain ⟨hG, hk⟩ := hafter r s' (hdoes c s r s' hd)
    have hrely := hcalls c s r s' hc.1 hbefore hd
    refine ⟨⟨hG, fun p hp => ?_⟩, hrely⟩
    have hother : ∀ p, p ∈ ps ∨ p ∈ qs → p.Keeps F G (fun _ _ => True) s' := fun p hp =>
      (hc.2 p (by rcases hp with hp | hp <;> simp [hp])).stable (fun _ _ _ _ _ => trivial) hrely
    rcases List.mem_append.mp hp with hp | hp
    · exact hother p (.inl hp)
    · rcases List.mem_cons.mp hp with rfl | hp
      · exact hk
      · exact hother p (.inr hp)
  | @finish s a ps qs =>
    refine ⟨⟨hc.1, fun p hp => hc.2 p ?_⟩, F.refl s⟩
    rcases List.mem_append.mp hp with hp | hp <;> simp [hp]

/-- The rule for runs: what every single step keeps, and what it may do, also holds of a run. -/
theorem Reaches.keeps {c c' : σ × List (Prog I α)} (h : Reaches E start c c') (hc : Kept F G c) :
    Kept F G c' ∧ F.rely c.1 c'.1 := by
  induction h with
  | refl => exact ⟨hc, F.refl _⟩
  | tail _ hstep ih =>
    obtain ⟨hkept, hrely⟩ := Step.keeps hothers hcalls hdoes halways hstart hstep ih.1
    exact ⟨hkept, F.trans ih.2 hrely⟩

end Rule

theorem Reaches.steps {E : Environment I σ} {start : σ → Prog I α → Prop}
    {exec : (c : I.Call) → σ → Option (I.Resp c × σ)}
    (hexec : ∀ c s r s', exec c s = some (r, s') → E.does c s r s') {n : Nat} {p p' : Prog I α}
    {s s' : σ} {c : σ × List (Prog I α)} (h : Reaches E start c (s, [p]))
    (hsteps : p.steps exec n s = some (p', s')) : Reaches E start c (s', [p']) := by
  induction n generalizing p s with
  | zero =>
    cases hsteps
    exact h
  | succ n ih =>
    cases p with
    | pure a => cases hsteps
    | call c k =>
      obtain ⟨⟨r, s₁⟩, hcall, hrest⟩ := Option.bind_eq_some_iff.mp hsteps
      have hstep : Step E start (s, [] ++ .call c k :: []) (s₁, [] ++ k r :: []) :=
        .call (hexec c s r s₁ hcall)
      exact ih (h.tail hstep) hrest

theorem Reaches.exists_call {E : Environment I σ} {start : σ → Prog I α → Prop}
    {exec : (c : I.Call) → σ → Option (I.Resp c × σ)}
    (hexec : ∀ c s r s', exec c s = some (r, s') → E.does c s r s') {p : Prog I α} {s : σ}
    (hstart : start s p) (n : Nat) (test : I.Call → σ → Bool)
    (heval : (p.steps exec n s).any (fun q => match q.1 with
      | .call c _ => test c q.2
      | .pure _ => false) = true) :
    ∃ s' c k, Reaches E start (s, []) (s', [.call c k]) ∧ test c s' = true := by
  rw [Option.any_eq_true] at heval
  obtain ⟨⟨p', s'⟩, hsteps, htest⟩ := heval
  cases p' with
  | pure a => cases htest
  | call c k => exact ⟨s', c, k, .steps hexec (.single (.start hstart)) hsteps, htest⟩

theorem Reaches.evalSome {E : Environment I σ} {start : σ → Prog I α → Prop}
    {exec : (c : I.Call) → σ → Option (I.Resp c × σ)}
    (hexec : ∀ c s r s', exec c s = some (r, s') → E.does c s r s')
    {p : Prog I α} {s s' : σ} {a : α}
    (hstart : start s p) (heval : p.evalSome exec s = some (a, s')) :
    Reaches E start (s, []) (s', []) := by
  have hcalls : ∀ (p : Prog I α) (s : σ), p.evalSome exec s = some (a, s') →
      Reaches E start (s, [p]) (s', []) := by
    intro p
    induction p with
    | pure b =>
      intro s heval
      cases heval
      have hstep : Step E start (s', [] ++ .pure a :: []) (s', [] ++ []) := .finish
      exact .single hstep
    | call c k ih =>
      intro s heval
      rw [Prog.evalSome, Option.bind_eq_some_iff] at heval
      obtain ⟨⟨r, s₁⟩, hcall, hrest⟩ := heval
      have hstep : Step E start (s, [] ++ .call c k :: []) (s₁, [] ++ k r :: []) :=
        .call (hexec c s r s₁ hcall)
      exact .head hstep (ih r s₁ hrest)
  exact .head (.start hstart) (hcalls p s heval)

end Pool
