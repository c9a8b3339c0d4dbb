import Mathlib.Data.List.Basic

/-!
# Paged reads of a list

A client asks for page 1, learns the total, and goes on up to the last page that the
total and the page size make. A page is a window that a query cuts out of the sorted
result with a skip and a limit. Index `i` stands for page `i + 1`.
-/
namespace Paging

variable {α β ε : Type}

/-- A limit of 0 is no limit. -/
def limit (size : Nat) (xs : List α) : List α := if size = 0 then xs else xs.take size

def window (skip size : Nat) (xs : List α) : List α := limit size (xs.drop skip)

def pageCount (total size : Nat) : Nat := (total + size - 1) / size

/-- The data of the first `n` pages, one after another. -/
def pages (data : Nat → List α) (n : Nat) : List α := (List.range n).flatMap data

/-- Every page reports the number of the elements of `xs`, and the pages that this
number makes are together `xs`. -/
def ReadsAll (read : Nat → Except ε (List α × Nat)) (size : Nat) (xs : List α) : Prop :=
  ∃ data : Nat → List α, (∀ i, read i = .ok (data i, xs.length)) ∧
    pages data (pageCount xs.length size) = xs

theorem pages_succ (data : Nat → List α) (n : Nat) :
    pages data (n + 1) = pages data n ++ data n := by
  simp [pages, List.range_succ]

@[simp] theorem window_nil (skip size : Nat) : window skip size ([] : List α) = [] := by
  simp [window, limit]

theorem pageCount_zero {size : Nat} (hsize : 1 ≤ size) : pageCount 0 size = 0 :=
  Nat.div_eq_of_lt (by omega)

/-- Windows of one size that follow each other make one larger window. -/
theorem pages_window {size : Nat} (hsize : 1 ≤ size) (first : Nat) (xs : List α) (n : Nat) :
    pages (fun i => window ((first + i) * size) size xs) n =
      (xs.drop (first * size)).take (n * size) := by
  induction n with
  | zero => simp [pages]
  | succ n ih =>
    have hskip : (first + n) * size = first * size + n * size := Nat.add_mul first n size
    have hlimit : window ((first + n) * size) size xs =
        ((xs.drop (first * size)).drop (n * size)).take size := by
      rw [window, limit, if_neg (by omega), List.drop_drop, hskip]
    have hlonger : (n + 1) * size = n * size + size := Nat.succ_mul n size
    rw [pages_succ, ih, hlimit, hlonger, List.take_add]

/-- Nothing is sorted and shown exactly when there is nothing. -/
theorem map_mergeSort_eq_nil {order : α → α → Bool} {f : α → β} {xs : List α} :
    (xs.mergeSort order).map f = [] ↔ xs = [] := by
  rw [← List.length_eq_zero_iff, List.length_map, List.length_mergeSort, List.length_eq_zero_iff]

theorem readsAll_nil {read : Nat → Except ε (List α × Nat)} {size : Nat} (hsize : 1 ≤ size)
    (data : Nat → List α) (h : ∀ i, read i = .ok (data i, 0)) : ReadsAll read size [] := by
  refine ⟨data, h, ?_⟩
  simp [pageCount_zero hsize, pages]

theorem ReadsAll.total {read : Nat → Except ε (List α × Nat)} {size : Nat} {xs : List α}
    (h : ReadsAll read size xs) {i : Nat} {data : List α} {total : Nat}
    (hread : read i = .ok (data, total)) : total = xs.length := by
  obtain ⟨read_data, hpages, -⟩ := h
  have heq := hpages i
  rw [hread] at heq
  injection heq with heq
  exact (Prod.mk.inj heq).2

end Paging
