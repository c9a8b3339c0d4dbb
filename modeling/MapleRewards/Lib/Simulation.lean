import MapleRewards.Lib.LabelledRuns

/-!
# Forward simulations

An abstract system follows a concrete one. Every concrete step has a label in the
abstract system, and is that step there, or has none and leaves the abstract state as
it is.
-/
namespace LabelledRuns

variable {σ ε τ δ : Type}

/-- The abstract labels of the steps of a run. -/
def trace (step : σ → ε → Option σ) (label : σ → ε → Option δ) : List ε → σ → List δ
  | [], _ => []
  | e :: es, s =>
    match step s e with
    | none => []
    | some t => (label s e).toList ++ trace step label es t

theorem trace_cons {step : σ → ε → Option σ} {s t : σ} {e : ε} (label : σ → ε → Option δ)
    (h : step s e = some t) (es : List ε) :
    trace step label (e :: es) s = (label s e).toList ++ trace step label es t := by
  rw [trace, h]

structure Simulation (step : σ → ε → Option σ) (step' : τ → δ → Option τ)
    (label : σ → ε → Option δ) (abs : σ → τ) (I : σ → Prop) : Prop where
  inv : ∀ s e t, I s → step s e = some t → I t
  silent : ∀ s e t, I s → step s e = some t → label s e = none → abs t = abs s
  visible : ∀ s e t d, I s → step s e = some t → label s e = some d →
    step' (abs s) d = some (abs t)

section Rules

variable {step : σ → ε → Option σ} {step' : τ → δ → Option τ} {label : σ → ε → Option δ}
  {abs : σ → τ} {I : σ → Prop}

/-- A run of the concrete system is a run of the abstract one. -/
theorem Simulation.run (hsim : Simulation step step' label abs I) {es : List ε} {s t : σ}
    (hs : I s) (h : run step es s = some t) :
    LabelledRuns.run step' (trace step label es s) (abs s) = some (abs t) := by
  induction es generalizing s with
  | nil =>
    cases h
    rfl
  | cons e es ih =>
    obtain ⟨u, hu, hrest⟩ := Option.bind_eq_some_iff.mp h
    have htail := ih (hsim.inv s e u hs hu) hrest
    rw [trace_cons label hu]
    cases hlabel : label s e with
    | none =>
      rw [← hsim.silent s e u hs hu hlabel]
      exact htail
    | some d =>
      have hfirst := hsim.visible s e u d hs hu hlabel
      simp only [Option.toList_some, List.singleton_append, run_cons, hfirst, Option.bind_some]
      exact htail

theorem Simulation.reachable (hsim : Simulation step step' label abs I) {init s : σ}
    (hinit : I init) (h : Reachable step init s) : Reachable step' (abs init) (abs s) := by
  obtain ⟨es, hes⟩ := h
  exact ⟨_, hsim.run hinit hes⟩

end Rules

end LabelledRuns
