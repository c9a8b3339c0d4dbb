import Mathlib.Data.List.Basic

/-!
# Finite runs of a partial labelled step

A system is a function that says, for a state and a label, which state follows,
or that the label is not enabled there. Runs are lists of labels. Nothing here
bounds the length of a run or the number of states.
-/
namespace LabelledRuns

variable {σ ε : Type}

/-- Execute the labels in order; `none` means that some label was not enabled. -/
def run (step : σ → ε → Option σ) : List ε → σ → Option σ
  | [], s => some s
  | e :: es, s => (step s e).bind (run step es)

@[simp] theorem run_nil (step : σ → ε → Option σ) (s : σ) : run step [] s = some s := rfl

@[simp] theorem run_cons (step : σ → ε → Option σ) (e : ε) (es : List ε) (s : σ) :
    run step (e :: es) s = (step s e).bind (run step es) := rfl

theorem run_append (step : σ → ε → Option σ) (es fs : List ε) (s : σ) :
    run step (es ++ fs) s = (run step es s).bind (run step fs) := by
  induction es generalizing s with
  | nil => rfl
  | cons e es ih =>
    simp only [List.cons_append, run_cons]
    cases step s e with
    | none => rfl
    | some t => exact ih t

/-- Concatenate two finite runs. -/
theorem run_join {step : σ → ε → Option σ} {es fs : List ε} {s t u : σ}
    (h₁ : run step es s = some t) (h₂ : run step fs t = some u) :
    run step (es ++ fs) s = some u := by
  rw [run_append, h₁]
  exact h₂

def Reachable (step : σ → ε → Option σ) (init s : σ) : Prop :=
  ∃ es, run step es init = some s

theorem Reachable.refl (step : σ → ε → Option σ) (s : σ) : Reachable step s s := ⟨[], rfl⟩

theorem Reachable.trans {step : σ → ε → Option σ} {s t u : σ}
    (h : Reachable step s t) (h' : Reachable step t u) : Reachable step s u := by
  obtain ⟨es, hes⟩ := h
  obtain ⟨fs, hfs⟩ := h'
  exact ⟨es ++ fs, run_join hes hfs⟩

theorem Reachable.step {step : σ → ε → Option σ} {s t : σ} {e : ε} (h : step s e = some t) :
    Reachable step s t := ⟨[e], by simp [h]⟩

/-- Where something can be seen of its end, a run goes through and ends there. -/
theorem run_of_view {β : Type} {view : σ → β} {step : σ → ε → Option σ} {es : List ε} {s : σ}
    {b : β} (h : (run step es s).map view = some b) :
    run step es s = some ((run step es s).getD s) ∧ view ((run step es s).getD s) = b := by
  obtain ⟨t, ht, hview⟩ := Option.map_eq_some_iff.mp h
  rw [ht]
  exact ⟨rfl, hview⟩

/-- What one step keeps, every run keeps. -/
theorem run_invariant {step : σ → ε → Option σ} (I : σ → Prop)
    (hstep : ∀ s e t, I s → step s e = some t → I t)
    {es : List ε} {s t : σ} (hs : I s) (h : run step es s = some t) : I t := by
  induction es generalizing s with
  | nil =>
    cases h
    exact hs
  | cons e es ih =>
    obtain ⟨u, hu, hrest⟩ := Option.bind_eq_some_iff.mp h
    exact ih (hstep s e u hs hu) hrest

theorem Reachable.invariant {step : σ → ε → Option σ} (I : σ → Prop)
    (hstep : ∀ s e t, I s → step s e = some t → I t)
    {init s : σ} (h0 : I init) (h : Reachable step init s) : I s := by
  obtain ⟨es, hes⟩ := h
  exact run_invariant I hstep h0 hes

/-- What one more step keeps of a run and its end, every run has. -/
theorem run_history {step : σ → ε → Option σ} (P : List ε → σ → Prop)
    (hstep : ∀ es s e t, P es s → step s e = some t → P (es ++ [e]) t)
    {es : List ε} {s t : σ} (hs : P [] s) (h : run step es s = some t) : P es t := by
  have hafter : ∀ (es before : List ε) (u : σ), P before u → run step es u = some t →
      P (before ++ es) t := by
    intro es
    induction es with
    | nil =>
      intro before u hu hrun
      cases hrun
      simpa using hu
    | cons e es ih =>
      intro before u hu hrun
      obtain ⟨v, hv, hrest⟩ := Option.bind_eq_some_iff.mp hrun
      have hnext := ih (before ++ [e]) v (hstep before u e v hu hv) hrest
      rwa [List.append_assoc, List.singleton_append] at hnext
  exact hafter es [] s hs h

/-- A reflexive and transitive relation that every step satisfies holds between
any two states of a run. -/
theorem run_relates {step : σ → ε → Option σ} (I : σ → Prop) (R : σ → σ → Prop)
    (hrefl : ∀ s, R s s) (htrans : ∀ s t u, R s t → R t u → R s u)
    (hstep : ∀ s e t, I s → step s e = some t → I t ∧ R s t)
    {es : List ε} {s t : σ} (hs : I s) (h : run step es s = some t) : R s t := by
  induction es generalizing s with
  | nil =>
    cases h
    exact hrefl _
  | cons e es ih =>
    obtain ⟨u, hu, hrest⟩ := Option.bind_eq_some_iff.mp h
    obtain ⟨hI, hR⟩ := hstep s e u hs hu
    exact htrans s u t hR (ih hI hrest)

/-- `P` holds in every state that the run visits, the first one included. -/
def Always (step : σ → ε → Option σ) (P : σ → Prop) : List ε → σ → Prop
  | [], s => P s
  | e :: es, s => P s ∧ ∀ t, step s e = some t → Always step P es t

/-- Every step that the run takes is taken under the guard `G`. -/
def Guarded (step : σ → ε → Option σ) (G : σ → ε → Prop) : List ε → σ → Prop
  | [], _ => True
  | e :: es, s => ∀ t, step s e = some t → G s e ∧ Guarded step G es t

/-- The guard of a run is checked along its one path. -/
instance decidableGuarded {step : σ → ε → Option σ} {G : σ → ε → Prop}
    [∀ s e, Decidable (G s e)] : ∀ es s, Decidable (Guarded step G es s)
  | [], _ => isTrue trivial
  | e :: es, s =>
    match h : step s e with
    | none => isTrue fun t ht => by rw [h] at ht; cases ht
    | some t =>
      have : Decidable (Guarded step G es t) := decidableGuarded es t
      decidable_of_iff (G s e ∧ Guarded step G es t)
        ⟨fun hg t' ht' => Option.some.inj (h.symm.trans ht') ▸ hg, fun hg => hg t h⟩

theorem guarded_of_forall {step : σ → ε → Option σ} {G : σ → ε → Prop} {es : List ε}
    (h : ∀ e ∈ es, ∀ s, G s e) (s : σ) : Guarded step G es s := by
  induction es generalizing s with
  | nil => trivial
  | cons e es ih =>
    intro t _
    exact ⟨h e List.mem_cons_self s, ih (fun e' he' => h e' (List.mem_cons_of_mem e he')) t⟩

/-- What one guarded step keeps, every guarded run keeps. -/
theorem run_invariant_guarded {step : σ → ε → Option σ} {G : σ → ε → Prop} (I : σ → Prop)
    (hstep : ∀ s e t, I s → G s e → step s e = some t → I t)
    {es : List ε} {s t : σ} (hs : I s) (hguard : Guarded step G es s)
    (h : run step es s = some t) : I t := by
  induction es generalizing s with
  | nil =>
    cases h
    exact hs
  | cons e es ih =>
    obtain ⟨u, hu, hrest⟩ := Option.bind_eq_some_iff.mp h
    obtain ⟨hG, hguard⟩ := hguard u hu
    exact ih (hstep s e u hs hG hu) hguard hrest

theorem Always.head {step : σ → ε → Option σ} {P : σ → Prop} {es : List ε} {s : σ}
    (h : Always step P es s) : P s := by
  cases es with
  | nil => exact h
  | cons e es => exact h.1

/-- Every state visited is the end of a prefix, and conversely. -/
theorem always_iff_prefixes {step : σ → ε → Option σ} {P : σ → Prop} {es : List ε} {s : σ} :
    Always step P es s ↔ ∀ pre t, pre <+: es → run step pre s = some t → P t := by
  induction es generalizing s with
  | nil =>
    constructor
    · intro h pre t hpre hrun
      rw [List.prefix_nil] at hpre
      subst hpre
      cases hrun
      exact h
    · intro h
      exact h [] s List.prefix_rfl rfl
  | cons e es ih =>
    constructor
    · rintro ⟨hP, hrest⟩ pre t hpre hrun
      cases pre with
      | nil =>
        cases hrun
        exact hP
      | cons f pre =>
        rw [List.cons_prefix_cons] at hpre
        obtain ⟨rfl, hpre⟩ := hpre
        obtain ⟨u, hu, hrun⟩ := Option.bind_eq_some_iff.mp hrun
        exact ih.mp (hrest u hu) pre t hpre hrun
    · intro h
      refine ⟨h [] s (List.nil_prefix) rfl, ?_⟩
      intro t ht
      apply ih.mpr
      intro pre u hpre hrun
      refine h (e :: pre) u (List.cons_prefix_cons.mpr ⟨rfl, hpre⟩) ?_
      simp only [run_cons, ht, Option.bind_some]
      exact hrun

/-- If, from a state with `P`, a step leads to a state with `P` exactly when it is
taken under `G`, then a run visits only states with `P` exactly when all its steps
are taken under `G`. -/
theorem always_iff_guarded {step : σ → ε → Option σ} {P : σ → Prop} {G : σ → ε → Prop}
    (I : σ → Prop) (hinv : ∀ s e t, I s → P s → step s e = some t → I t)
    (hstep : ∀ s e t, I s → P s → step s e = some t → (P t ↔ G s e))
    {es : List ε} {s : σ} (hI : I s) (hP : P s) :
    Always step P es s ↔ Guarded step G es s := by
  induction es generalizing s with
  | nil => exact iff_of_true hP trivial
  | cons e es ih =>
    constructor
    · rintro ⟨-, hrest⟩ t ht
      have hPt := (hrest t ht).head
      exact ⟨(hstep s e t hI hP ht).mp hPt, (ih (hinv s e t hI hP ht) hPt).mp (hrest t ht)⟩
    · intro h
      refine ⟨hP, ?_⟩
      intro t ht
      obtain ⟨hG, hrest⟩ := h t ht
      exact (ih (hinv s e t hI hP ht) ((hstep s e t hI hP ht).mpr hG)).mpr hrest

end LabelledRuns
