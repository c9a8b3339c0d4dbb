import MapleRewards.Lib.SnapshotStore

/-!
# Commit order as a serial order

Where everything that commits would have done the same on the store that it commits on,
the store is what the committed operations make of it one after another.
-/
namespace SnapshotStore

open LabelledRuns

variable {κ α σ : Type} [DecidableEq κ] {perform : α → σ → σ → Option σ}

/-- An operation that reads the store that it commits on. -/
def commitNow (perform : α → σ → σ → Option σ) (db : σ) (a : α) : Option σ :=
  perform a db db

/-- `J` is what makes a commit independent of how old its snapshot is. -/
structure CommitsNow (perform : α → σ → σ → Option σ) (J : State κ α σ → Prop)
    (G : Event κ α → Prop) : Prop where
  step : ∀ s e t, J s → G e → step perform s e = some t → J t
  commit : ∀ s c a snap db', J s → s.active c = some (a, snap) → perform a snap s.db = some db' →
    perform a s.db s.db = some db'

/-- The operations of a run in the order of their commits, with no snapshot but the
store itself. -/
theorem CommitsNow.serial {J : State κ α σ → Prop} {G : Event κ α → Prop}
    (hJ : CommitsNow perform J G) {es : List (Event κ α)} {s t : State κ α σ} (hs : J s)
    (hes : ∀ e ∈ es, G e) (h : run (SnapshotStore.step perform) es s = some t) :
    J t ∧ ∃ l, t.log = s.log ++ l ∧ run (commitNow perform) (l.map Prod.fst) s.db = some t.db := by
  induction es generalizing s with
  | nil =>
    cases h
    exact ⟨hs, [], by simp, rfl⟩
  | cons e es ih =>
    obtain ⟨u, hu, hrest⟩ := Option.bind_eq_some_iff.mp h
    have hJu : J u := hJ.step s e u hs (hes e List.mem_cons_self) hu
    obtain ⟨hJt, l, hlog, hserial⟩ :=
      ih hJu (fun e' he' => hes e' (List.mem_cons_of_mem _ he')) hrest
    rcases step_cases hu with ⟨c, a, -, rfl⟩ | ⟨c, a, snap, db', -, hc, hperf, rfl⟩ | ⟨c, -, rfl⟩
    · exact ⟨hJt, l, hlog, hserial⟩
    · have hnow : commitNow perform s.db a = some db' := hJ.commit s c a snap db' hs hc hperf
      refine ⟨hJt, (a, snap) :: l, by simp [hlog], ?_⟩
      rw [List.map_cons, run_cons, hnow]
      exact hserial
    · exact ⟨hJt, l, hlog, hserial⟩

end SnapshotStore
