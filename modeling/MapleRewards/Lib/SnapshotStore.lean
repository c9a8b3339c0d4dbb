import MapleRewards.Lib.LabelledRuns
import Mathlib.Logic.Function.Basic

/-!
# Transactions that read a snapshot and commit later

Any number of clients run operations against one store. An operation begins by
taking the committed store as its snapshot and commits later, when the store may
have moved on: `perform a snap db` is the store after `a`, which read `snap`,
commits on `db`, or `none` if it cannot commit. Aborting has no effect. Nothing is
assumed about conflicts between transactions, so a store that aborts some of them
has fewer runs than this one.
-/
namespace SnapshotStore

open LabelledRuns

variable {κ α σ : Type} [DecidableEq κ]

structure State (κ α σ : Type) where
  db : σ
  active : κ → Option (α × σ)
  /-- The operations committed so far with the snapshot each one read, oldest first. -/
  log : List (α × σ)

inductive Event (κ α : Type) where
  | start : κ → α → Event κ α
  | commit : κ → Event κ α
  | abort : κ → Event κ α

def initial (db : σ) : State κ α σ := ⟨db, fun _ => none, []⟩

def step (perform : α → σ → σ → Option σ) (s : State κ α σ) : Event κ α → Option (State κ α σ)
  | .start c a =>
    match s.active c with
    | none => some { s with active := Function.update s.active c (some (a, s.db)) }
    | some _ => none
  | .commit c =>
    match s.active c with
    | none => none
    | some (a, snap) => (perform a snap s.db).map fun db' =>
        ⟨db', Function.update s.active c none, s.log ++ [(a, snap)]⟩
  | .abort c => some { s with active := Function.update s.active c none }

/-- What one event can do: take a snapshot, commit, or drop a transaction. -/
theorem step_cases {perform : α → σ → σ → Option σ} {s t : State κ α σ} {e : Event κ α}
    (h : step perform s e = some t) :
    (∃ c a, e = .start c a ∧
      t = { s with active := Function.update s.active c (some (a, s.db)) }) ∨
    (∃ c a snap db', e = .commit c ∧ s.active c = some (a, snap) ∧
      perform a snap s.db = some db' ∧
      t = ⟨db', Function.update s.active c none, s.log ++ [(a, snap)]⟩) ∨
    (∃ c, e = .abort c ∧ t = { s with active := Function.update s.active c none }) := by
  cases e with
  | start c a =>
    left
    cases hc : s.active c with
    | some p => simp [step, hc] at h
    | none => exact ⟨c, a, rfl, by simpa [step, hc] using h.symm⟩
  | commit c =>
    right
    left
    cases hc : s.active c with
    | none => simp [step, hc] at h
    | some p =>
      obtain ⟨db', hp, ht⟩ : ∃ db', perform p.1 p.2 s.db = some db' ∧
          (⟨db', Function.update s.active c none, s.log ++ [p]⟩ : State κ α σ) = t := by
        simpa [step, hc] using h
      exact ⟨c, p.1, p.2, db', rfl, hc, hp, ht.symm⟩
  | abort c =>
    right
    right
    exact ⟨c, rfl, by simpa [step] using h.symm⟩

theorem step_start {perform : α → σ → σ → Option σ} {s t : State κ α σ} {c : κ} {a : α}
    (h : step perform s (.start c a) = some t) : t.db = s.db ∧ t.log = s.log := by
  rcases step_cases h with ⟨_, _, -, rfl⟩ | ⟨_, _, _, _, he, -⟩ | ⟨_, he, -⟩
  · exact ⟨rfl, rfl⟩
  · cases he
  · cases he

theorem step_commit {perform : α → σ → σ → Option σ} {s t : State κ α σ} {c : κ} {a : α}
    {snap : σ} (hopen : s.active c = some (a, snap)) (h : step perform s (.commit c) = some t) :
    perform a snap s.db = some t.db := by
  rcases step_cases h with ⟨_, _, he, -⟩ | ⟨_, _, _, _, he, hc, hp, rfl⟩ | ⟨_, he, -⟩
  · cases he
  · cases he
    rw [hopen] at hc
    cases hc
    exact hp
  · cases he

theorem update_active {active : κ → Option (α × σ)} {c d : κ} {v : Option (α × σ)} {p : α × σ}
    (h : Function.update active c v d = some p) : (d = c ∧ v = some p) ∨ active d = some p := by
  by_cases hdc : d = c
  · subst hdc
    rw [Function.update_self] at h
    exact Or.inl ⟨rfl, h⟩
  · rw [Function.update_of_ne hdc] at h
    exact Or.inr h

/-- `I` is kept by commits and `R` says how the store may have moved on since a
snapshot was taken. -/
structure Preserves (perform : α → σ → σ → Option σ) (I : σ → Prop) (R : σ → σ → Prop) : Prop where
  refl : ∀ db, R db db
  trans : ∀ a b c, R a b → R b c → R a c
  commit : ∀ a snap db db', I snap → I db → R snap db → perform a snap db = some db' →
    I db' ∧ R db db'

/-- Every open transaction and every logged one read a good store that the current
store has evolved from. -/
structure Coherent (I : σ → Prop) (R : σ → σ → Prop) (s : State κ α σ) : Prop where
  db : I s.db
  active : ∀ c a snap, s.active c = some (a, snap) → I snap ∧ R snap s.db
  log : ∀ a snap, (a, snap) ∈ s.log → I snap ∧ R snap s.db

omit [DecidableEq κ] in
theorem coherent_initial {I : σ → Prop} {R : σ → σ → Prop} {db : σ} (h : I db) :
    Coherent I R (initial db : State κ α σ) := by
  refine ⟨h, ?_, ?_⟩
  · intro c a snap hc
    simp [initial] at hc
  · intro a snap hl
    simp [initial] at hl

section Rules

variable {perform : α → σ → σ → Option σ} {I : σ → Prop} {R : σ → σ → Prop}

theorem Coherent.step (hp : Preserves perform I R) {s t : State κ α σ} {e : Event κ α}
    (h : Coherent I R s) (hs : step perform s e = some t) : Coherent I R t ∧ R s.db t.db := by
  rcases step_cases hs with ⟨c, a, -, rfl⟩ | ⟨c, a, snap, db', -, hc, hperf, rfl⟩ | ⟨c, -, rfl⟩
  · refine ⟨⟨h.db, ?_, h.log⟩, hp.refl _⟩
    intro d b snap hd
    rcases update_active hd with ⟨-, hv⟩ | hd
    · cases hv
      exact ⟨h.db, hp.refl _⟩
    · exact h.active d b snap hd
  · obtain ⟨hsnap, hR⟩ := h.active c a snap hc
    obtain ⟨hI', hR'⟩ := hp.commit a snap s.db db' hsnap h.db hR hperf
    refine ⟨⟨hI', ?_, ?_⟩, hR'⟩
    · intro d b snap' hd
      rcases update_active hd with ⟨-, hv⟩ | hd
      · cases hv
      · obtain ⟨hs', hr'⟩ := h.active d b snap' hd
        exact ⟨hs', hp.trans _ _ _ hr' hR'⟩
    · intro b snap' hl
      rcases List.mem_append.mp hl with hl | hl
      · obtain ⟨hs', hr'⟩ := h.log b snap' hl
        exact ⟨hs', hp.trans _ _ _ hr' hR'⟩
      · cases List.mem_singleton.mp hl
        exact ⟨hsnap, hp.trans _ _ _ hR hR'⟩
  · refine ⟨⟨h.db, ?_, h.log⟩, hp.refl _⟩
    intro d b snap hd
    rcases update_active hd with ⟨-, hv⟩ | hd
    · cases hv
    · exact h.active d b snap hd

theorem Coherent.run (hp : Preserves perform I R) {es : List (Event κ α)} {s t : State κ α σ}
    (h : Coherent I R s) (hrun : run (SnapshotStore.step perform) es s = some t) : Coherent I R t :=
  run_invariant (Coherent I R) (fun _ _ _ hI hs => (hI.step hp hs).1) h hrun

/-- The invariant rule: one commit at a time, from any earlier good snapshot. -/
theorem reachable_coherent (hp : Preserves perform I R) {db : σ} (h0 : I db) {s : State κ α σ}
    (h : Reachable (step perform) (initial db) s) : Coherent I R s :=
  h.invariant (Coherent I R) (fun _ _ _ hI hs => (hI.step hp hs).1) (coherent_initial h0)

/-- The stores at any two moments of a run are related. -/
theorem run_evolves (hp : Preserves perform I R) {es : List (Event κ α)} {s t : State κ α σ}
    (hs : Coherent I R s) (h : run (step perform) es s = some t) : R s.db t.db :=
  run_relates (Coherent I R) (fun s t => R s.db t.db) (fun s => hp.refl s.db)
    (fun _ _ _ => hp.trans _ _ _) (fun _ _ _ hI hstep => hI.step hp hstep) hs h

/-- A property of the log and the store that every commit keeps. -/
theorem reachable_log (hp : Preserves perform I R) (P : List (α × σ) → σ → Prop) {db : σ}
    (h0 : I db) (hnil : P [] db)
    (hcommit : ∀ log a snap db db', I snap → I db → R snap db → P log db →
      perform a snap db = some db' → P (log ++ [(a, snap)]) db')
    {s : State κ α σ} (h : Reachable (step perform) (initial db) s) : P s.log s.db := by
  have hboth : Coherent I R s ∧ P s.log s.db := by
    refine h.invariant (fun s => Coherent I R s ∧ P s.log s.db) ?_ ⟨coherent_initial h0, hnil⟩
    rintro s e t ⟨hI, hP⟩ hs
    refine ⟨(hI.step hp hs).1, ?_⟩
    rcases step_cases hs with ⟨c, a, -, rfl⟩ | ⟨c, a, snap, db', -, hc, hperf, rfl⟩ | ⟨c, -, rfl⟩
    · exact hP
    · obtain ⟨hsnap, hR⟩ := hI.active c a snap hc
      exact hcommit s.log a snap s.db db' hsnap hI.db hR hP hperf
    · exact hP
  exact hboth.2

/-- What the commits of a run have in common, read off the operations that it logs. -/
theorem run_relates_log (hp : Preserves perform I R) (P : α → Prop) (Q : σ → σ → Prop)
    (hrefl : ∀ db, Q db db) (htrans : ∀ a b c, Q a b → Q b c → Q a c)
    (hcommit : ∀ a snap db db', I snap → I db → R snap db → P a → perform a snap db = some db' →
      Q db db')
    {es : List (Event κ α)} {s t : State κ α σ} (hs : Coherent I R s)
    (h : run (step perform) es s = some t) :
    ∃ l, t.log = s.log ++ l ∧ ((∀ p ∈ l, P p.1) → Q s.db t.db) := by
  induction es generalizing s with
  | nil =>
    cases h
    exact ⟨[], by simp, fun _ => hrefl _⟩
  | cons e es ih =>
    obtain ⟨u, hu, hrest⟩ := Option.bind_eq_some_iff.mp h
    obtain ⟨l, hlog, hQ⟩ := ih (hs.step hp hu).1 hrest
    rcases step_cases hu with ⟨c, a, -, rfl⟩ | ⟨c, a, snap, db', -, hc, hperf, rfl⟩ | ⟨c, -, rfl⟩
    · exact ⟨l, hlog, hQ⟩
    · refine ⟨(a, snap) :: l, by simp [hlog], ?_⟩
      intro hall
      obtain ⟨hsnap, hR⟩ := hs.active c a snap hc
      have hfirst := hcommit a snap s.db db' hsnap hs.db hR (hall _ List.mem_cons_self) hperf
      exact htrans _ _ _ hfirst (hQ fun p hp => hall p (List.mem_cons_of_mem _ hp))
    · exact ⟨l, hlog, hQ⟩

/-- A property of the store that every commit taken under the guard keeps. -/
theorem run_store_guarded {G : State κ α σ → Event κ α → Prop} (P : σ → Prop)
    (hcommit : ∀ s c a snap db', G s (.commit c) → s.active c = some (a, snap) → P s.db →
      perform a snap s.db = some db' → P db')
    {es : List (Event κ α)} {s t : State κ α σ} (hs : P s.db)
    (hguard : Guarded (SnapshotStore.step perform) G es s)
    (h : run (SnapshotStore.step perform) es s = some t) : P t.db := by
  refine run_invariant_guarded (fun s => P s.db) ?_ hs hguard h
  intro s e t hP hG hstep
  rcases step_cases hstep with ⟨c, a, -, rfl⟩ | ⟨c, a, snap, db', rfl, hc, hperf, rfl⟩ |
    ⟨c, -, rfl⟩
  · exact hP
  · exact hcommit s c a snap db' hG hc hP hperf
  · exact hP

end Rules

/-- One operation at a time: an operation that cannot commit leaves the store as it was. -/
def serialStep (perform : α → σ → σ → Option σ) (db : σ) (a : α) : Option σ :=
  some ((perform a db db).getD db)

/-- Serial steps are the commits whose snapshot is the current store. -/
theorem serialStep_cases {perform : α → σ → σ → Option σ} {db db' : σ} {a : α}
    (h : serialStep perform db a = some db') :
    perform a db db = some db' ∨ (perform a db db = none ∧ db' = db) := by
  cases hp : perform a db db with
  | none =>
    right
    exact ⟨rfl, by simpa [serialStep, hp] using h.symm⟩
  | some d =>
    left
    simpa [serialStep, hp] using h

theorem serialStep_preserves {perform : α → σ → σ → Option σ} {I : σ → Prop} {R : σ → σ → Prop}
    (hp : Preserves perform I R) {db db' : σ} {a : α} (hI : I db)
    (h : serialStep perform db a = some db') : I db' ∧ R db db' := by
  rcases serialStep_cases h with h | ⟨-, rfl⟩
  · exact hp.commit a db db db' hI hI (hp.refl db) h
  · exact ⟨hI, hp.refl _⟩

/-- A serial run is a run of the interleaved system in which one client begins each
operation and commits or aborts it at once. -/
theorem serial_reachable (perform : α → σ → σ → Option σ) (c : κ) {ops : List α} {db db' : σ}
    (h : run (serialStep perform) ops db = some db') :
    ∃ s : State κ α σ, Reachable (step perform) (initial db) s ∧ s.db = db' := by
  have key : ∀ (ops : List α) (s : State κ α σ), s.active = (fun _ => none) →
      run (serialStep perform) ops s.db = some db' →
      ∃ t : State κ α σ, Reachable (step perform) s t ∧ t.db = db' := by
    intro ops
    induction ops with
    | nil =>
      intro s _ hrun
      exact ⟨s, Reachable.refl _ s, by simpa using hrun⟩
    | cons a ops ih =>
      intro s hact hrun
      obtain ⟨d, hd, hrest⟩ := Option.bind_eq_some_iff.mp hrun
      -- the client takes the current store as its snapshot
      let s₁ : State κ α σ := { s with active := Function.update s.active c (some (a, s.db)) }
      have hstart : step perform s (.start c a) = some s₁ := by simp [step, hact, s₁]
      have hidle : Function.update s₁.active c none = fun _ => none := by
        simp [s₁, hact, Function.update_idem]
      rcases serialStep_cases hd with hp | ⟨-, rfl⟩
      · have hcommit : step perform s₁ (.commit c) =
            some ⟨d, fun _ => none, s.log ++ [(a, s.db)]⟩ := by
          have hac : s₁.active c = some (a, s.db) := by simp [s₁]
          simp only [step, hac]
          rw [hidle, show s₁.db = s.db from rfl, hp]
          rfl
        obtain ⟨t, ht, htd⟩ := ih ⟨d, fun _ => none, s.log ++ [(a, s.db)]⟩ rfl hrest
        exact ⟨t, (Reachable.step hstart).trans ((Reachable.step hcommit).trans ht), htd⟩
      · have habort : step perform s₁ (.abort c) = some s := by
          simp only [step, hidle]
          rw [← hact]
        obtain ⟨t, ht, htd⟩ := ih s hact hrest
        exact ⟨t, (Reachable.step hstart).trans ((Reachable.step habort).trans ht), htd⟩
  exact key ops (initial db) rfl h

end SnapshotStore
