import MapleRewards.Lib.Simulation
import MapleRewards.Lib.SnapshotStore

/-!
# A part of a transaction system

Some operations concern a part of the store, the others leave that part alone. If the
operations that concern it read and write nothing outside, then the part goes through a
run of its own, made of their events only.
-/
namespace SnapshotStore

open LabelledRuns

variable {κ α σ τ : Type}

/-- The part of a state: the operations in it and what they read of the part. -/
def State.project (concerns : α → σ → Bool) (part : σ → τ) (s : State κ α σ) : State κ α τ where
  db := part s.db
  active c := (s.active c).bind fun p => if concerns p.1 p.2 then some (p.1, part p.2) else none
  log := (s.log.filter fun p => concerns p.1 p.2).map fun p => (p.1, part p.2)

/-- An event of an operation that concerns the part. -/
def concerned (concerns : α → σ → Bool) (s : State κ α σ) : Event κ α → Option (Event κ α)
  | .start c a => if concerns a s.db then some (.start c a) else none
  | .commit c => (s.active c).bind fun p => if concerns p.1 p.2 then some (.commit c) else none
  | .abort c => (s.active c).bind fun p => if concerns p.1 p.2 then some (.abort c) else none

structure Separates (perform : α → σ → σ → Option σ) (perform' : α → τ → τ → Option τ)
    (I : σ → Prop) (R : σ → σ → Prop) (concerns : α → σ → Bool) (part : σ → τ) : Prop where
  own : ∀ a snap db db', I snap → I db → R snap db → concerns a snap = true →
    perform a snap db = some db' → perform' a (part snap) (part db) = some (part db')
  other : ∀ a snap db db', I snap → I db → R snap db → concerns a snap = false →
    perform a snap db = some db' → part db' = part db

section Active

variable {concerns : α → σ → Bool} {part : σ → τ}

theorem project_active_none {s : State κ α σ} {c : κ} (h : s.active c = none) :
    (s.project concerns part).active c = none := by
  simp [State.project, h]

theorem project_active_some {s : State κ α σ} {c : κ} {a : α} {snap : σ}
    (h : s.active c = some (a, snap)) : (s.project concerns part).active c =
      if concerns a snap then some (a, part snap) else none := by
  simp [State.project, h]

variable [DecidableEq κ]

/-- Changing what one client does changes what it does in the part. -/
theorem project_update (s : State κ α σ) (c : κ) (v : Option (α × σ)) :
    (fun d => (Function.update s.active c v d).bind fun p =>
        if concerns p.1 p.2 then some (p.1, part p.2) else none) =
      Function.update (s.project concerns part).active c
        (v.bind fun p => if concerns p.1 p.2 then some (p.1, part p.2) else none) := by
  funext d
  by_cases hd : d = c
  · subst hd
    simp
  · simp [Function.update_of_ne hd, State.project]

theorem project_idle (s : State κ α σ) {c : κ}
    (h : (s.project concerns part).active c = none) :
    Function.update (s.project concerns part).active c none =
      (s.project concerns part).active := by
  rw [← h]
  exact Function.update_eq_self c _

end Active

variable [DecidableEq κ] {perform : α → σ → σ → Option σ} {perform' : α → τ → τ → Option τ}
  {I : σ → Prop} {R : σ → σ → Prop} {concerns : α → σ → Bool} {part : σ → τ}

theorem step_start_idle {s t : State κ α σ} {c : κ} {a : α}
    (h : step perform s (.start c a) = some t) : s.active c = none := by
  cases hc : s.active c with
  | none => rfl
  | some p => simp [step, hc] at h

/-- The part follows the whole. -/
theorem Separates.simulation (hs : Separates perform perform' I R concerns part)
    (hp : Preserves perform I R) :
    Simulation (ε := Event κ α) (step perform) (step perform') (concerned concerns)
      (State.project concerns part) (Coherent I R) where
  inv := fun _ _ _ hI hstep => (hI.step hp hstep).1
  silent := by
    intro s e t hI hstep hlabel
    rcases step_cases hstep with ⟨c, a, rfl, rfl⟩ | ⟨c, a, snap, db', rfl, hc, hperf, rfl⟩ |
      ⟨c, rfl, rfl⟩
    · have hnot : concerns a s.db = false := by
        simpa [concerned] using hlabel
      have hidle : (s.project concerns part).active c = none :=
        project_active_none (step_start_idle hstep)
      rw [State.project, project_update]
      simp only [hnot, Option.bind_some, Bool.false_eq_true, if_false, project_idle s hidle]
      rfl
    · have hnot : concerns a snap = false := by
        simpa [concerned, hc] using hlabel
      obtain ⟨hsnap, hR⟩ := hI.active c a snap hc
      have hidle : (s.project concerns part).active c = none := by
        rw [project_active_some hc, if_neg (by simp [hnot])]
      rw [State.project, project_update, hs.other a snap s.db db' hsnap hI.db hR hnot hperf]
      simp only [Option.bind_none, project_idle s hidle, List.filter_append, List.map_append]
      simp [State.project, hnot]
    · have hidle : (s.project concerns part).active c = none := by
        cases hc : s.active c with
        | none => exact project_active_none hc
        | some p =>
          have hnot : concerns p.1 p.2 = false := by
            simpa [concerned, hc] using hlabel
          rw [project_active_some (show s.active c = some (p.1, p.2) from hc),
            if_neg (by simp [hnot])]
      rw [State.project, project_update]
      simp only [Option.bind_none, project_idle s hidle]
      rfl
  visible := by
    intro s e t d hI hstep hlabel
    rcases step_cases hstep with ⟨c, a, rfl, rfl⟩ | ⟨c, a, snap, db', rfl, hc, hperf, rfl⟩ |
      ⟨c, rfl, rfl⟩
    · have hidle : (s.project concerns part).active c = none :=
        project_active_none (step_start_idle hstep)
      by_cases hown : concerns a s.db = true
      · have hd : Event.start c a = d := by
          simpa [concerned, hown] using hlabel
        subst hd
        rw [step, hidle]
        simp only [State.project, project_update, Option.bind_some, hown, if_true]
      · simp [concerned, hown] at hlabel
    · obtain ⟨hsnap, hR⟩ := hI.active c a snap hc
      by_cases hown : concerns a snap = true
      · have hd : Event.commit c = d := by
          simpa [concerned, hc, hown] using hlabel
        subst hd
        have hactive : (s.project concerns part).active c = some (a, part snap) := by
          rw [project_active_some hc, if_pos hown]
        have hperf' := hs.own a snap s.db db' hsnap hI.db hR hown hperf
        rw [step, hactive]
        simp only [State.project, project_update, hperf', Option.map_some, Option.bind_none,
          List.filter_append, List.map_append]
        simp [hown]
      · simp [concerned, hc, hown] at hlabel
    · cases hc : s.active c with
      | none => simp [concerned, hc] at hlabel
      | some p =>
        by_cases hown : concerns p.1 p.2 = true
        · have hd : Event.abort c = d := by
            simpa [concerned, hc, hown] using hlabel
          subst hd
          simp only [step, State.project, project_update, Option.bind_none]
        · simp [concerned, hc, hown] at hlabel

end SnapshotStore
