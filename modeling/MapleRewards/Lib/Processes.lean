import MapleRewards.Lib.LabelledRuns
import Mathlib.Logic.Function.Basic

/-!
# Processes that share a store

Any number of processes, each with a local control state, act on one shared store in
any order; between their actions the environment may change the store. An outline
gives every control state an assertion, in the manner of Owicki and Gries: the acting
process reaches its next assertion and no action falsifies the assertion of another.
-/
namespace Processes

open LabelledRuns

variable {κ ℓ σ ι ε : Type} [DecidableEq κ]

structure State (κ ℓ σ : Type) where
  shared : σ
  locals : κ → ℓ

inductive Move (κ ι ε : Type) where
  | act : κ → ι → Move κ ι ε
  | env : ε → Move κ ι ε

def step (act : κ → ι → ℓ → σ → Option (ℓ × σ)) (env : ε → σ → σ) (s : State κ ℓ σ) :
    Move κ ι ε → Option (State κ ℓ σ)
  | .act c i => (act c i (s.locals c) s.shared).map fun p =>
      ⟨p.2, Function.update s.locals c p.1⟩
  | .env e => some ⟨env e s.shared, s.locals⟩

/-- One action of a process or one change by the environment. -/
theorem step_cases {act : κ → ι → ℓ → σ → Option (ℓ × σ)} {env : ε → σ → σ}
    {s t : State κ ℓ σ} {m : Move κ ι ε} (h : step act env s m = some t) :
    (∃ c i l shared, m = .act c i ∧ act c i (s.locals c) s.shared = some (l, shared) ∧
      t = ⟨shared, Function.update s.locals c l⟩) ∨
    ∃ e, m = .env e ∧ t = ⟨env e s.shared, s.locals⟩ := by
  cases m with
  | act c i =>
    left
    obtain ⟨p, hp, ht⟩ := Option.map_eq_some_iff.mp h
    exact ⟨c, i, p.1, p.2, rfl, hp, ht.symm⟩
  | env e =>
    right
    exact ⟨e, rfl, (Option.some.inj h).symm⟩

/-- The store satisfies `I` and every process the assertion of its control state. -/
structure Annotated (I : σ → Prop) (A : κ → ℓ → σ → Prop) (s : State κ ℓ σ) : Prop where
  shared : I s.shared
  locals : ∀ c, A c (s.locals c) s.shared

/-- Steps are taken from stores with `P`, which need not be invariant. -/
structure Outline (act : κ → ι → ℓ → σ → Option (ℓ × σ)) (env : ε → σ → σ) (P I : σ → Prop)
    (A : κ → ℓ → σ → Prop) : Prop where
  own : ∀ c i l s l' s', P s → I s → A c l s → act c i l s = some (l', s') → I s' ∧ A c l' s'
  others : ∀ c i l s l' s' d m, P s → I s → A c l s → act c i l s = some (l', s') → d ≠ c →
    A d m s → A d m s'
  env : ∀ e s, P s → I s → I (env e s) ∧ ∀ d m, A d m s → A d m (env e s)

theorem Outline.step {act : κ → ι → ℓ → σ → Option (ℓ × σ)} {env : ε → σ → σ} {P I : σ → Prop}
    {A : κ → ℓ → σ → Prop} (ho : Outline act env P I A) {s t : State κ ℓ σ} {m : Move κ ι ε}
    (hP : P s.shared) (h : Annotated I A s) (hs : step act env s m = some t) :
    Annotated I A t := by
  rcases step_cases hs with ⟨c, i, l, shared, -, hact, rfl⟩ | ⟨e, -, rfl⟩
  · obtain ⟨hI, hA⟩ := ho.own c i _ _ _ _ hP h.shared (h.locals c) hact
    refine ⟨hI, ?_⟩
    intro d
    by_cases hd : d = c
    · subst hd
      simpa using hA
    · simp only [Function.update_of_ne hd]
      exact ho.others c i _ _ _ _ d _ hP h.shared (h.locals c) hact hd (h.locals d)
  · obtain ⟨hI, hA⟩ := ho.env e s.shared hP h.shared
    exact ⟨hI, fun d => hA d _ (h.locals d)⟩

/-- One process acts while all others stand still. -/
def alone (act : κ → ι → ℓ → σ → Option (ℓ × σ)) (c : κ) : List ι → ℓ → σ → Option (ℓ × σ)
  | [], l, s => some (l, s)
  | i :: is, l, s => (act c i l s).bind fun p => alone act c is p.1 p.2

theorem run_of_alone {act : κ → ι → ℓ → σ → Option (ℓ × σ)} {env : ε → σ → σ} {c : κ}
    {is : List ι} {s : State κ ℓ σ} {l : ℓ} {shared : σ}
    (h : alone act c is (s.locals c) s.shared = some (l, shared)) :
    run (step act env) (is.map (Move.act c)) s = some ⟨shared, Function.update s.locals c l⟩ := by
  induction is generalizing s with
  | nil =>
    cases h
    simp
  | cons i is ih =>
    obtain ⟨p, hp, hrest⟩ := Option.bind_eq_some_iff.mp h
    have hstep : step act env s (.act c i) = some ⟨p.2, Function.update s.locals c p.1⟩ := by
      simp [step, hp]
    rw [List.map_cons, run_cons, hstep, Option.bind_some]
    have hlocal : alone act c is (Function.update s.locals c p.1 c) p.2 = some (l, shared) := by
      simpa using hrest
    have hnext := @ih ⟨p.2, Function.update s.locals c p.1⟩ hlocal
    rw [hnext, Function.update_idem]

end Processes
