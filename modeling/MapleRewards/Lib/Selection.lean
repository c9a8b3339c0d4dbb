import Mathlib.Data.List.Perm.Subperm
import Mathlib.Data.List.Flatten
import MapleRewards.Lib.Collection

/-!
# Selections by key

What the elements of a list with certain keys hold. Selections without a common key hold
together no more than the list, and a list that grows does not shrink its selections.
-/
namespace Selection

open Collection List

variable {α β κ : Type} [DecidableEq κ] (key : α → κ) (f : α → List β)

def select (xs : List α) (keys : List κ) : List β :=
  (xs.filter fun x => key x ∈ keys).flatMap f

end Selection
