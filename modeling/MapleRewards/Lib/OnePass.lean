import Mathlib.Data.List.Basic
import Mathlib.Data.List.Forall2
import Mathlib.Data.List.Induction
import Mathlib.Data.List.Nodup

/-!
# Choosing items in one pass

A pass walks a list once and keeps a growing list of held keys. Whether an item
is chosen may depend on the keys held when its turn comes, and a chosen item adds
its own key. The lemmas say which items a pass chooses, for any acceptance test.
-/
namespace OnePass

variable {ι κ : Type} (key : ι → κ) (accepts : ι → List κ → Bool)

/-- The items chosen, in list order, when `held` is held at the start. -/
def choose : List ι → List κ → List ι
  | [], _ => []
  | x :: xs, held =>
    if accepts x held then x :: choose xs (held ++ [key x]) else choose xs held

@[simp] theorem choose_nil (held : List κ) : choose key accepts [] held = [] := rfl

/-- The keys held after a pass. -/
def heldAfter (xs : List ι) (held : List κ) : List κ :=
  held ++ (choose key accepts xs held).map key

theorem choose_append (xs ys : List ι) (held : List κ) :
    choose key accepts (xs ++ ys) held =
      choose key accepts xs held ++ choose key accepts ys (heldAfter key accepts xs held) := by
  induction xs generalizing held with
  | nil => simp [heldAfter]
  | cons x xs ih =>
    by_cases h : accepts x held = true
    · simp [choose, h, ih, heldAfter]
    · simp [choose, h, ih, heldAfter]

theorem choose_sublist (xs : List ι) (held : List κ) : (choose key accepts xs held).Sublist xs := by
  induction xs generalizing held with
  | nil => exact List.Sublist.refl _
  | cons x xs ih =>
    simp only [choose]
    split
    · exact (ih _).cons_cons x
    · exact (ih _).cons x

theorem held_subset_heldAfter (xs : List ι) (held : List κ) :
    ∀ k ∈ held, k ∈ heldAfter key accepts xs held :=
  fun _ hk => List.mem_append_left _ hk

/-- A chosen item was accepted against the keys held when its turn came. -/
theorem accepts_of_mem_choose {xs : List ι} {held : List κ} {x : ι}
    (h : x ∈ choose key accepts xs held) :
    ∃ before after, xs = before ++ x :: after ∧
      accepts x (heldAfter key accepts before held) = true := by
  induction xs generalizing held with
  | nil => cases h
  | cons y ys ih =>
    simp only [choose] at h
    split at h
    · next hy =>
      rcases List.mem_cons.mp h with rfl | h
      · exact ⟨[], ys, rfl, by simpa [heldAfter] using hy⟩
      · obtain ⟨before, after, he, hacc⟩ := ih h
        refine ⟨y :: before, after, by rw [he]; rfl, ?_⟩
        simpa [heldAfter, choose, hy] using hacc
    · next hy =>
      obtain ⟨before, after, he, hacc⟩ := ih h
      refine ⟨y :: before, after, by rw [he]; rfl, ?_⟩
      simpa [heldAfter, choose, hy] using hacc

/-- An item that is accepted when its turn comes is chosen. -/
theorem mem_choose_of_accepts {before after : List ι} {held : List κ} {x : ι}
    (h : accepts x (heldAfter key accepts before held) = true) :
    x ∈ choose key accepts (before ++ x :: after) held := by
  rw [choose_append]
  apply List.mem_append_right _
  simp [choose, h]

/-- Its key is then held for the rest of the pass. -/
theorem key_mem_heldAfter {before : List ι} (middle : List ι) {held : List κ} {x : ι}
    (h : accepts x (heldAfter key accepts before held) = true) :
    key x ∈ heldAfter key accepts (before ++ x :: middle) held :=
  List.mem_append_right _ (List.mem_map_of_mem (mem_choose_of_accepts key accepts h))

/-- What is held when an item's turn comes is held at the end. -/
theorem heldAfter_mono (before after : List ι) (held : List κ) :
    ∀ k ∈ heldAfter key accepts before held, k ∈ heldAfter key accepts (before ++ after) held := by
  intro k hk
  rcases List.mem_append.mp hk with hk | hk
  · exact List.mem_append_left _ hk
  · apply List.mem_append_right _
    rw [choose_append, List.map_append]
    exact List.mem_append_left _ hk

/-- With distinct keys an item is chosen exactly when it is accepted on its turn. -/
theorem mem_choose_iff {before after : List ι} {held : List κ} {x : ι}
    (hnd : ((before ++ x :: after).map key).Nodup) :
    x ∈ choose key accepts (before ++ x :: after) held ↔
      accepts x (heldAfter key accepts before held) = true := by
  constructor
  · intro h
    have hitems : (before ++ x :: after).Nodup := hnd.of_map key
    rw [choose_append] at h
    rcases List.mem_append.mp h with h | h
    · have hbefore := (choose_sublist key accepts before held).subset h
      exact absurd rfl ((List.nodup_append.mp hitems).2.2 x hbefore x List.mem_cons_self)
    · simp only [choose] at h
      split at h
      · next hx => exact hx
      · have hafter := (choose_sublist key accepts after _).subset h
        have hnew := (List.nodup_append.mp hitems).2.1
        exact absurd hafter (List.nodup_cons.mp hnew).1
  · exact mem_choose_of_accepts key accepts

/-- Its key is then chosen in no other way. -/
theorem key_mem_choose_iff {before after : List ι} {held : List κ} {x : ι}
    (hnd : ((before ++ x :: after).map key).Nodup) :
    key x ∈ (choose key accepts (before ++ x :: after) held).map key ↔
      accepts x (heldAfter key accepts before held) = true := by
  rw [← mem_choose_iff key accepts hnd]
  constructor
  · intro h
    obtain ⟨y, hy, hk⟩ := List.mem_map.mp h
    have hmem := (choose_sublist key accepts _ held).subset hy
    have hyx : y = x := List.inj_on_of_nodup_map hnd hmem (by simp) hk
    exact hyx ▸ hy
  · exact List.mem_map_of_mem

/-- An acceptance test that only asks which keys are held makes the pass depend on nothing
else. -/
theorem choose_congr_held (haccepts : ∀ x held held', (∀ k, k ∈ held ↔ k ∈ held') →
      accepts x held = accepts x held')
    (xs : List ι) {held held' : List κ} (hsame : ∀ k, k ∈ held ↔ k ∈ held') :
    choose key accepts xs held = choose key accepts xs held' := by
  induction xs generalizing held held' with
  | nil => rfl
  | cons x xs ih =>
    have hmore : ∀ k, k ∈ held ++ [key x] ↔ k ∈ held' ++ [key x] := by
      intro k
      rw [List.mem_append, List.mem_append, hsame]
    simp only [choose, haccepts x held held' hsame]
    rw [ih hmore, ih hsame]

/-- A key that a pass holds at the end, but not on the turn of an item that it refuses, is
that of a later item. -/
theorem key_mem_later {before after : List ι} {held : List κ} {x : ι} {k : κ}
    (hrefused : accepts x (heldAfter key accepts before held) = false)
    (hnot : k ∉ heldAfter key accepts before held)
    (hk : k ∈ heldAfter key accepts (before ++ x :: after) held) : ∃ y ∈ after, key y = k := by
  have hchosen : k ∈ (choose key accepts (before ++ x :: after) held).map key := by
    rcases List.mem_append.mp hk with hold | hchosen
    · exact absurd (held_subset_heldAfter key accepts before held k hold) hnot
    · exact hchosen
  rw [choose_append, List.map_append] at hchosen
  rcases List.mem_append.mp hchosen with hbefore | hafter
  · exact absurd (List.mem_append_right _ hbefore) hnot
  · simp only [choose, hrefused, Bool.false_eq_true, if_false] at hafter
    obtain ⟨y, hy, hkey⟩ := List.mem_map.mp hafter
    exact ⟨y, (choose_sublist key accepts after _).subset hy, hkey⟩

/-- Two passes over lists that correspond item by item choose corresponding items. -/
theorem choose_forall₂ {ι' : Type} {key' : ι' → κ} {accepts' : ι' → List κ → Bool}
    {R : ι → ι' → Prop} (hkey : ∀ x y, R x y → key x = key' y)
    (hacc : ∀ x y held, R x y → accepts x held = accepts' y held)
    {xs : List ι} {ys : List ι'} (h : List.Forall₂ R xs ys) (held : List κ) :
    List.Forall₂ R (choose key accepts xs held) (choose key' accepts' ys held) := by
  induction h generalizing held with
  | nil => exact List.Forall₂.nil
  | @cons x y xs ys hxy _ ih =>
    simp only [choose, hacc x y held hxy, hkey x y hxy]
    split
    · exact List.Forall₂.cons hxy (ih _)
    · exact ih _

section Fresh

variable (hfresh : ∀ x held, accepts x held = true → key x ∉ held)
include hfresh

/-- A pass that never accepts a held key chooses only new keys. -/
theorem key_not_mem_held {xs : List ι} {held : List κ} {x : ι}
    (h : x ∈ choose key accepts xs held) : key x ∉ held := by
  obtain ⟨before, after, -, hacc⟩ := accepts_of_mem_choose key accepts h
  intro hk
  exact hfresh x _ hacc (held_subset_heldAfter key accepts before held _ hk)

/-- Such a pass chooses no key twice, even from a list that repeats keys. -/
theorem choose_keys_nodup (xs : List ι) (held : List κ) :
    ((choose key accepts xs held).map key).Nodup := by
  induction xs generalizing held with
  | nil => exact List.nodup_nil
  | cons x xs ih =>
    simp only [choose]
    split
    · rw [List.map_cons, List.nodup_cons]
      refine ⟨?_, ih _⟩
      intro hk
      obtain ⟨y, hy, he⟩ := List.mem_map.mp hk
      have hnew := key_not_mem_held key accepts hfresh hy
      exact hnew (by simp [he])
    · exact ih _

end Fresh

theorem mem_heldAfter_concat {before : List ι} {held : List κ} {x : ι} {k : κ} :
    k ∈ heldAfter key accepts (before ++ [x]) held ↔ k ∈ heldAfter key accepts before held ∨
      (accepts x (heldAfter key accepts before held) = true ∧ k = key x) := by
  have hconcat : heldAfter key accepts (before ++ [x]) held =
      heldAfter key accepts before held ++
        if accepts x (heldAfter key accepts before held) then [key x] else [] := by
    rw [heldAfter, choose_append, List.map_append, ← List.append_assoc]
    simp only [choose]
    split
    · rfl
    · rfl
  rw [hconcat, List.mem_append]
  split
  · next h => simp [h]
  · next h => simp [h]

/-! ## Two passes instead of one

The first pass is made with one test, the second one with a test that accepts more and
holds at its start what the first pass held at its end. -/

section TwoPasses

variable {accepts} {accepts' : ι → List κ → Bool} {xs : List ι} {held : List κ}

/-- On every turn the test that accepts more holds what the other test holds. -/
theorem heldAfter_le (hmore : ∀ before x after, xs = before ++ x :: after →
      (∀ k ∈ heldAfter key accepts before held, k ∈ heldAfter key accepts' before held) →
      accepts x (heldAfter key accepts before held) = true →
      key x ∈ heldAfter key accepts' before held ∨
        accepts' x (heldAfter key accepts' before held) = true)
    {before after : List ι} (hxs : xs = before ++ after) :
    ∀ k ∈ heldAfter key accepts before held, k ∈ heldAfter key accepts' before held := by
  induction before using List.reverseRecOn generalizing after with
  | nil =>
    intro k hk
    simpa [heldAfter] using hk
  | append_singleton before x ih =>
    rw [List.append_assoc, List.singleton_append] at hxs
    have hbefore := ih hxs
    intro k hk
    rw [mem_heldAfter_concat] at hk ⊢
    cases hk with
    | inl hold => exact Or.inl (hbefore k hold)
    | inr hnew =>
      obtain ⟨haccepts, rfl⟩ := hnew
      cases hmore before x after hxs hbefore haccepts with
      | inl hin => exact Or.inl hin
      | inr hagain => exact Or.inr ⟨hagain, rfl⟩

/-- On every turn the second pass holds what the pass on its own holds and what the first
pass held. -/
theorem second_pass_held (hfresh : ∀ x held, accepts' x held = true → key x ∉ held)
    {start : List κ} (hheld : ∀ k ∈ held, k ∈ start)
    (hlocal : ∀ before x after, xs = before ++ x :: after → key x ∉ start → ∀ larger,
      (∀ k, k ∈ larger ↔ k ∈ heldAfter key accepts' before held ∨ k ∈ start) →
      accepts' x larger = accepts' x (heldAfter key accepts' before held))
    {before after : List ι} (hxs : xs = before ++ after) (k : κ) :
    k ∈ heldAfter key accepts' before start ↔
      k ∈ heldAfter key accepts' before held ∨ k ∈ start := by
  induction before using List.reverseRecOn generalizing after k with
  | nil =>
    simp only [heldAfter, choose_nil, List.map_nil, List.append_nil]
    constructor
    · exact Or.inr
    · rintro (hk | hk)
      · exact hheld k hk
      · exact hk
  | append_singleton before x ih =>
    rw [List.append_assoc, List.singleton_append] at hxs
    rw [mem_heldAfter_concat, mem_heldAfter_concat, ih hxs]
    by_cases hx : key x ∈ start
    · -- the item is not chosen again, and its key is held anyhow
      have hnot : ¬accepts' x (heldAfter key accepts' before start) = true := by
        intro haccepts
        exact hfresh x _ haccepts (held_subset_heldAfter key accepts' before start _ hx)
      constructor
      · rintro ((hk | hk) | ⟨haccepts, -⟩)
        · exact Or.inl (Or.inl hk)
        · exact Or.inr hk
        · exact absurd haccepts hnot
      · rintro ((hk | ⟨-, rfl⟩) | hk)
        · exact Or.inl (Or.inl hk)
        · exact Or.inl (Or.inr hx)
        · exact Or.inl (Or.inr hk)
    · rw [hlocal before x after hxs hx _ fun k => ih hxs k]
      tauto

end TwoPasses

/-- A sublist is recovered from its keys, when the keys of the list are distinct. -/
theorem filter_keys_of_sublist [DecidableEq κ] {xs ys : List ι} (h : ys.Sublist xs)
    (hnd : (xs.map key).Nodup) : xs.filter (fun x => key x ∈ ys.map key) = ys := by
  induction h with
  | slnil => rfl
  | @cons ys xs x h ih =>
    rw [List.map_cons, List.nodup_cons] at hnd
    have hx : key x ∉ ys.map key := fun hk => hnd.1 ((h.map key).subset hk)
    rw [List.filter_cons_of_neg (by simpa using hx)]
    exact ih hnd.2
  | @cons_cons ys xs x h ih =>
    rw [List.map_cons, List.nodup_cons] at hnd
    rw [List.filter_cons_of_pos (by simp)]
    congr 1
    rw [← ih hnd.2]
    apply List.filter_congr
    intro y hy
    have hne : key y ≠ key x := fun he => hnd.1 (he ▸ List.mem_map_of_mem hy)
    rw [ih hnd.2]
    simp [hne]

end OnePass
