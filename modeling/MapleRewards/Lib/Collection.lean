import Mathlib.Data.List.Basic
import Mathlib.Data.List.Nodup
import Mathlib.Data.List.Forall2

/-!
# Collections of keyed documents

A collection is a list of documents in the order they were stored. `updateFirst`
changes the first document that a query matches and leaves the others in place.
-/
namespace Collection

variable {α κ : Type}

def updateFirst (query : α → Bool) (f : α → α) : List α → List α
  | [] => []
  | x :: xs => if query x then f x :: xs else x :: updateFirst query f xs

/-- An update that keeps `view` of a document keeps it of the collection. -/
theorem map_updateFirst (query : α → Bool) (f : α → α) (view : α → κ)
    (hf : ∀ x, view (f x) = view x) (xs : List α) :
    (updateFirst query f xs).map view = xs.map view := by
  induction xs with
  | nil => rfl
  | cons x xs ih =>
    by_cases h : query x = true
    · simp [updateFirst, h, hf]
    · simp [updateFirst, h, ih]

theorem mem_updateFirst {query : α → Bool} {f : α → α} {xs : List α} {y : α}
    (h : y ∈ updateFirst query f xs) : y ∈ xs ∨ ∃ x ∈ xs, query x = true ∧ y = f x := by
  induction xs with
  | nil => cases h
  | cons x xs ih =>
    simp only [updateFirst] at h
    split at h
    · next hx =>
      cases List.mem_cons.mp h with
      | inl hy => exact Or.inr ⟨x, List.mem_cons_self, hx, hy⟩
      | inr hy => exact Or.inl (List.mem_cons_of_mem x hy)
    · cases List.mem_cons.mp h with
      | inl hy => exact Or.inl (by simp [hy])
      | inr hy =>
        cases ih hy with
        | inl hy => exact Or.inl (List.mem_cons_of_mem x hy)
        | inr hy =>
          obtain ⟨z, hz, hq, he⟩ := hy
          exact Or.inr ⟨z, List.mem_cons_of_mem x hz, hq, he⟩

/-- A document stays, or it is the one that was changed. -/
theorem mem_or_mem_updateFirst (query : α → Bool) (f : α → α) {xs : List α} {x : α} (h : x ∈ xs) :
    x ∈ updateFirst query f xs ∨ (query x = true ∧ f x ∈ updateFirst query f xs) := by
  induction xs with
  | nil => cases h
  | cons y ys ih =>
    by_cases hy : query y = true
    · simp only [updateFirst, hy, if_true]
      cases List.mem_cons.mp h with
      | inl he =>
        subst he
        exact Or.inr ⟨hy, List.mem_cons_self⟩
      | inr hmem => exact Or.inl (List.mem_cons_of_mem _ hmem)
    · simp only [updateFirst, hy]
      cases List.mem_cons.mp h with
      | inl he =>
        subst he
        exact Or.inl List.mem_cons_self
      | inr hmem =>
        cases ih hmem with
        | inl hx => exact Or.inl (List.mem_cons_of_mem y hx)
        | inr hx => exact Or.inr ⟨hx.1, List.mem_cons_of_mem y hx.2⟩

/-- A lookup by the query of an update finds the updated document. -/
theorem find?_updateFirst {query : α → Bool} {f : α → α}
    (hf : ∀ x, query x = true → query (f x) = true) (xs : List α) :
    (updateFirst query f xs).find? query = (xs.find? query).map f := by
  induction xs with
  | nil => rfl
  | cons x xs ih =>
    by_cases h : query x = true
    · simp [updateFirst, h, hf x h]
    · simp [updateFirst, h, ih]

/-- A lookup that fits neither the old nor the new document does not see the update. -/
theorem find?_updateFirst_of_not {query p : α → Bool} {f : α → α}
    (hf : ∀ x, query x = true → p x = false ∧ p (f x) = false) (xs : List α) :
    (updateFirst query f xs).find? p = xs.find? p := by
  induction xs with
  | nil => rfl
  | cons x xs ih =>
    by_cases h : query x = true
    · simp [updateFirst, h, hf x h]
    · simp [updateFirst, h, List.find?_cons, ih]

/-- An update relates every document to what has become of it. -/
theorem forall₂_updateFirst {R : α → α → Prop} (hrefl : ∀ x, R x x) (query : α → Bool) {f : α → α}
    (hf : ∀ x, R x (f x)) (xs : List α) : List.Forall₂ R xs (updateFirst query f xs) := by
  induction xs with
  | nil => exact List.Forall₂.nil
  | cons x xs ih =>
    by_cases h : query x = true
    · simp only [updateFirst, h, if_true]
      exact List.Forall₂.cons (hf x) (List.forall₂_same.mpr fun y _ => hrefl y)
    · simp only [updateFirst, h]
      exact List.Forall₂.cons (hrefl x) ih

/-- If every match comes from a match there are not more of them than before. -/
theorem length_filter_le_of_forall₂ {R : α → α → Prop} {p q : α → Bool}
    (h : ∀ x y, R x y → q y = true → p x = true) {xs ys : List α} (hxy : List.Forall₂ R xs ys) :
    (ys.filter q).length ≤ (xs.filter p).length := by
  induction hxy with
  | nil => exact Nat.le_refl _
  | @cons x y xs ys hr _ ih =>
    by_cases hq : q y = true
    · have hp := h x y hr hq
      simp only [List.filter_cons_of_pos hq, List.filter_cons_of_pos hp, List.length_cons]
      omega
    · rw [List.filter_cons_of_neg hq]
      have hle := (List.sublist_cons_self x xs).filter p
      exact Nat.le_trans ih hle.length_le

theorem mem_of_forall₂ {β : Type} {R : α → β → Prop} {xs : List α} {ys : List β}
    (hxy : List.Forall₂ R xs ys) {y : β} (hy : y ∈ ys) : ∃ x ∈ xs, R x y := by
  induction hxy with
  | nil => cases hy
  | @cons x y' xs ys hr _ ih =>
    cases List.mem_cons.mp hy with
    | inl heq => exact ⟨x, List.mem_cons_self, heq ▸ hr⟩
    | inr hmem =>
      obtain ⟨z, hz, hrz⟩ := ih hmem
      exact ⟨z, List.mem_cons_of_mem x hz, hrz⟩

/-- Every document is still in its place, changed as `R` allows, and new ones stand at
the end. -/
inductive Grows (R : α → α → Prop) : List α → List α → Prop where
  | nil (ys : List α) : Grows R [] ys
  | cons {x y : α} {xs ys : List α} (hxy : R x y) (h : Grows R xs ys) : Grows R (x :: xs) (y :: ys)

section Growth

variable {R : α → α → Prop}

theorem Grows.refl (hrefl : ∀ x, R x x) (xs : List α) : Grows R xs xs := by
  induction xs with
  | nil => exact .nil []
  | cons x xs ih => exact .cons (hrefl x) ih

theorem Grows.trans {S T : α → α → Prop} (htrans : ∀ x y z, R x y → S y z → T x z)
    {xs ys zs : List α} (h : Grows R xs ys) (h' : Grows S ys zs) : Grows T xs zs := by
  induction h generalizing zs with
  | nil ys => exact .nil zs
  | cons hxy _ ih =>
    cases h' with
    | cons hyz htail => exact .cons (htrans _ _ _ hxy hyz) (ih htail)

theorem Grows.imp {S : α → α → Prop} (hRS : ∀ x y, R x y → S x y) {xs ys : List α}
    (h : Grows R xs ys) : Grows S xs ys := by
  induction h with
  | nil ys => exact .nil ys
  | cons hxy _ ih => exact .cons (hRS _ _ hxy) ih

theorem Grows.append (hrefl : ∀ x, R x x) (xs zs : List α) : Grows R xs (xs ++ zs) := by
  induction xs with
  | nil => exact .nil zs
  | cons x xs ih => exact .cons (hrefl x) ih

theorem Grows.updateFirst (hrefl : ∀ x, R x x) (query : α → Bool) {f : α → α} {xs : List α}
    (hf : ∀ x ∈ xs, query x = true → R x (f x)) : Grows R xs (updateFirst query f xs) := by
  induction xs with
  | nil => exact .nil []
  | cons x xs ih =>
    by_cases hx : query x = true
    · simp only [Collection.updateFirst, hx, if_true]
      exact .cons (hf x List.mem_cons_self hx) (Grows.refl hrefl xs)
    · simp only [Collection.updateFirst, hx]
      exact .cons (hrefl x) (ih fun y hy => hf y (List.mem_cons_of_mem x hy))

theorem Grows.mem {xs ys : List α} (h : Grows R xs ys) {x : α} (hx : x ∈ xs) :
    ∃ y ∈ ys, R x y := by
  induction h with
  | nil ys => cases hx
  | @cons x' y xs ys hxy _ ih =>
    cases List.mem_cons.mp hx with
    | inl heq => exact ⟨y, List.mem_cons_self, heq ▸ hxy⟩
    | inr htail =>
      obtain ⟨z, hz, hxz⟩ := ih htail
      exact ⟨z, List.mem_cons_of_mem y hz, hxz⟩

end Growth

section Keys

variable (key : α → κ)

theorem nodup_append_singleton {xs : List α} {x : α} (hnd : (xs.map key).Nodup)
    (hx : ∀ y ∈ xs, key y ≠ key x) : ((xs ++ [x]).map key).Nodup := by
  rw [List.map_append, List.nodup_append]
  refine ⟨hnd, by simp, ?_⟩
  intro k hk k' hk'
  obtain ⟨y, hy, rfl⟩ := List.mem_map.mp hk
  simp only [List.map_cons, List.map_nil, List.mem_singleton] at hk'
  rw [hk']
  exact hx y hy

/-- With distinct keys a query that fits one key only changes the document of that key. -/
theorem mem_updateFirst_of_mem {xs : List α} (hnd : (xs.map key).Nodup) {query : α → Bool}
    {f : α → α} {x : α} (hx : x ∈ xs) (hq : query x = true)
    (hkey : ∀ y, query y = true → key y = key x) : f x ∈ updateFirst query f xs := by
  induction xs with
  | nil => cases hx
  | cons y ys ih =>
    by_cases hy : query y = true
    · have hxy : x = y := List.inj_on_of_nodup_map hnd hx List.mem_cons_self (hkey y hy).symm
      simp [updateFirst, hy, hxy]
    · rw [List.map_cons, List.nodup_cons] at hnd
      cases List.mem_cons.mp hx with
      | inl he =>
        subst he
        exact absurd hq hy
      | inr hmem =>
        simp only [updateFirst, hy]
        exact List.mem_cons_of_mem _ (ih hnd.2 hmem)

variable [DecidableEq κ]

theorem find?_key_eq_some {xs : List α} {k : κ} {x : α}
    (h : xs.find? (fun y => key y == k) = some x) : x ∈ xs ∧ key x = k :=
  ⟨List.mem_of_find?_eq_some h, by simpa using List.find?_some h⟩

theorem find?_key_of_mem {xs : List α} (hnd : (xs.map key).Nodup) {x : α} (hx : x ∈ xs) :
    xs.find? (fun y => key y == key x) = some x := by
  cases h : xs.find? (fun y => key y == key x) with
  | none =>
    have hne := List.find?_eq_none.mp h x hx
    simp at hne
  | some y =>
    obtain ⟨hy, hk⟩ := find?_key_eq_some key h
    rw [List.inj_on_of_nodup_map hnd hy hx hk]

/-- With distinct keys the first match is the only one. -/
theorem updateFirst_eq_map {xs : List α} (hnd : (xs.map key).Nodup) {k : κ} {f : α → α} :
    updateFirst (fun x => key x == k) f xs = xs.map fun x => if key x == k then f x else x := by
  induction xs with
  | nil => rfl
  | cons x xs ih =>
    rw [List.map_cons, List.nodup_cons] at hnd
    by_cases hx : key x = k
    · have hrest : (xs.map fun y => if key y == k then f y else y) = xs := by
        conv_rhs => rw [← List.map_id xs]
        apply List.map_congr_left
        intro y hy
        have hne : key y ≠ k := by
          intro he
          exact hnd.1 (hx ▸ he ▸ List.mem_map_of_mem hy)
        simp [hne]
      rw [List.map_cons, hrest]
      simp [updateFirst, hx]
    · rw [List.map_cons, ← ih hnd.2]
      simp [updateFirst, hx]

/-- With distinct keys an update by key changes that document and no other. -/
theorem mem_updateFirst_key {xs : List α} (hnd : (xs.map key).Nodup) {k : κ} {f : α → α} {y : α} :
    y ∈ updateFirst (fun x => key x == k) f xs ↔
      (y ∈ xs ∧ key y ≠ k) ∨ ∃ x ∈ xs, key x = k ∧ y = f x := by
  rw [updateFirst_eq_map key hnd, List.mem_map]
  constructor
  · rintro ⟨x, hx, rfl⟩
    by_cases hk : key x = k
    · exact Or.inr ⟨x, hx, hk, by simp [hk]⟩
    · exact Or.inl (by simp [hk, hx])
  · intro h
    cases h with
    | inl hold => exact ⟨y, hold.1, by simp [hold.2]⟩
    | inr hnew =>
      obtain ⟨x, hx, hk, rfl⟩ := hnew
      exact ⟨x, hx, by simp [hk]⟩

end Keys

section Selection

variable {select query : α → Bool} {f : α → α} {xs : List α}

/-- An update of a selected document is an update of the selection. -/
theorem filter_updateFirst
    (h : ∀ x ∈ xs, query x = true → select x = true ∧ select (f x) = true) :
    (updateFirst query f xs).filter select = updateFirst query f (xs.filter select) := by
  induction xs with
  | nil => rfl
  | cons x xs ih =>
    have ihxs := ih fun y hy => h y (List.mem_cons_of_mem x hy)
    by_cases hx : query x = true
    · obtain ⟨hold, hnew⟩ := h x List.mem_cons_self hx
      simp [updateFirst, hx, hold, hnew]
    · by_cases hs : select x = true
      · simp [updateFirst, hx, hs, ihxs]
      · simp [updateFirst, hx, hs, ihxs]

theorem filter_updateFirst_of_not
    (h : ∀ x ∈ xs, query x = true → select x = false ∧ select (f x) = false) :
    (updateFirst query f xs).filter select = xs.filter select := by
  induction xs with
  | nil => rfl
  | cons x xs ih =>
    have ihxs := ih fun y hy => h y (List.mem_cons_of_mem x hy)
    by_cases hx : query x = true
    · obtain ⟨hold, hnew⟩ := h x List.mem_cons_self hx
      simp [updateFirst, hx, hold, hnew]
    · simp [updateFirst, hx, List.filter_cons, ihxs]

/-- A lookup that can only find a selected document. -/
theorem find?_filter_of_select (h : ∀ x ∈ xs, query x = true → select x = true) :
    (xs.filter select).find? query = xs.find? query := by
  induction xs with
  | nil => rfl
  | cons x xs ih =>
    have ihxs := ih fun y hy => h y (List.mem_cons_of_mem x hy)
    by_cases hx : query x = true
    · simp [h x List.mem_cons_self hx, hx]
    · by_cases hs : select x = true
      · simp [hx, hs, ihxs]
      · simp [hx, hs, ihxs]

end Selection

/-- A map that moves no selected document, and none into the selection, does not show
in the selection. -/
theorem filter_map_of_fixed {select : α → Bool} {f : α → α} {xs : List α}
    (hselect : ∀ x ∈ xs, select (f x) = select x)
    (hfixed : ∀ x ∈ xs, select x = true → f x = x) :
    (xs.map f).filter select = xs.filter select := by
  induction xs with
  | nil => rfl
  | cons x xs ih =>
    have ihxs := ih (fun y hy => hselect y (List.mem_cons_of_mem x hy))
      (fun y hy => hfixed y (List.mem_cons_of_mem x hy))
    have hx := hselect x List.mem_cons_self
    rw [List.map_cons, List.filter_cons, List.filter_cons, hx, ihxs]
    by_cases h : select x = true
    · rw [if_pos h, if_pos h, hfixed x List.mem_cons_self h]
    · rw [if_neg h, if_neg h]

end Collection
