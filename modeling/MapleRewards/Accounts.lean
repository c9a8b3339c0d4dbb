import MapleRewards.Granting

/-!
# The two outputs of a run

A run pays out one list and records the other: the ids are read off the set that the
rules have changed, the items off what they have returned.
-/
namespace MapleRewards

open OnePass

/-- The new ids are those of rules of the list, in its order, and the rewards are the items
of exactly these rules. -/
structure Accounts (rules : List RewardRule) (past : List String) (result : EngineResult) :
    Prop where
  nodup : result.newAchievedRuleIds.Nodup
  fresh : ∀ id ∈ result.newAchievedRuleIds, id ∉ past
  ids : result.newAchievedRuleIds.Sublist (rules.map RewardRule.id)
  rewards : result.rewards = (rules.filter fun rule =>
    rule.id ∈ result.newAchievedRuleIds).flatMap RewardRule.rewardItems

/-- A rule looks at the set only by asking which ids are in it. -/
theorem RewardRule.grants_congr (allRules : List RewardRule) (activity : Activity)
    (rule : RewardRule) {ruleIds ruleIds' : List String}
    (hsame : ∀ id, id ∈ ruleIds ↔ id ∈ ruleIds') :
    rule.grants allRules activity ruleIds = rule.grants allRules activity ruleIds' := by
  have hcontains : ∀ id, ruleIds.contains id = ruleIds'.contains id := by
    intro id
    rw [Bool.eq_iff_iff, List.contains_iff_mem, List.contains_iff_mem, hsame]
  cases rule with
  | perCondition r => simp only [RewardRule.grants, hcontains]
  | stage r => simp only [RewardRule.grants, stageRewarded, hcontains]
  | final r =>
    have helements : hasElement ruleIds = hasElement ruleIds' := by
      funext rid
      cases rid with
      | str id => exact hcontains id
      | other text => rfl
    simp only [RewardRule.grants, hcontains, helements]

theorem grantedOn_accounts (allRules : RewardRule → List RewardRule) {rules : List RewardRule}
    (hids : (rules.map RewardRule.id).Nodup) (activity : Activity) (past : List String) :
    Accounts rules past (RewardEngine.runOn allRules rules activity past) := by
  rw [RewardEngine.runOn_eq]
  have hsublist : (RewardEngine.grantedOn allRules rules activity past).Sublist rules :=
    choose_sublist _ _ rules (setOf past)
  constructor
  · exact choose_keys_nodup _ _ (fun rule ruleIds => rule.grants_fresh ruleIds) rules (setOf past)
  · intro id hid hpast
    obtain ⟨rule, hrule, rfl⟩ := List.mem_map.mp hid
    have hnew := key_not_mem_held _ _ (fun rule ruleIds => rule.grants_fresh ruleIds) hrule
    exact hnew (mem_setOf.mpr hpast)
  · exact hsublist.map RewardRule.id
  · rw [filter_keys_of_sublist RewardRule.id hsublist hids]

/-- The result depends on the past ids as a set. -/
theorem runOn_congr (allRules : RewardRule → List RewardRule) (rules : List RewardRule)
    (activity : Activity) {past past' : List String} (hsame : ∀ id, id ∈ past' ↔ id ∈ past) :
    RewardEngine.runOn allRules rules activity past' =
      RewardEngine.runOn allRules rules activity past := by
  have hset : ∀ id, id ∈ setOf past' ↔ id ∈ setOf past := by
    intro id
    rw [mem_setOf, mem_setOf, hsame]
  have hgranted : RewardEngine.grantedOn allRules rules activity past' =
      RewardEngine.grantedOn allRules rules activity past :=
    choose_congr_held _ _ (fun rule _ _ hheld => rule.grants_congr (allRules rule) activity hheld)
      rules hset
  rw [RewardEngine.runOn_eq, RewardEngine.runOn_eq, hgranted]

/-- The outputs of a run account for each other, and two lists of the same past ids give the
same outputs. The same is true whatever arrays the stage rules refer to. -/
theorem outputs_account (rules : List RewardRule) (hids : (rules.map RewardRule.id).Nodup)
    (activity : Activity) (past : List String) :
    (Accounts rules past (RewardEngine.run rules activity past) ∧
      ∀ past', (∀ id, id ∈ past' ↔ id ∈ past) →
        RewardEngine.run rules activity past' = RewardEngine.run rules activity past) ∧
      ∀ allRules : RewardRule → List RewardRule,
        Accounts rules past (RewardEngine.runOn allRules rules activity past) ∧
          ∀ past', (∀ id, id ∈ past' ↔ id ∈ past) →
            RewardEngine.runOn allRules rules activity past' =
              RewardEngine.runOn allRules rules activity past := by
  have hany : ∀ allRules : RewardRule → List RewardRule,
      Accounts rules past (RewardEngine.runOn allRules rules activity past) ∧
        ∀ past', (∀ id, id ∈ past' ↔ id ∈ past) →
          RewardEngine.runOn allRules rules activity past' =
            RewardEngine.runOn allRules rules activity past := by
    intro allRules
    exact ⟨grantedOn_accounts allRules hids activity past,
      fun _ hsame => runOn_congr allRules rules activity hsame⟩
  -- the finished array is one of the arrays
  exact ⟨hany fun _ => rules, hany⟩

/-- A rule of each class, the last one unlocked by the other two. -/
def threeRules : List RewardRule :=
  [.perCondition ⟨"streak", [⟨some "COUPON", some 1⟩], ⟨"loginStreak", 3⟩⟩,
    .stage ⟨"invites", [⟨some "CASH", some 500⟩], ⟨"inviteCount", 2⟩⟩,
    .final ⟨"bonus", [⟨some "CASH", some 1000⟩], ⟨[.str "streak", .str "invites"]⟩⟩]

theorem outputs_account_sample :
    Accounts threeRules ["streak"] (RewardEngine.run threeRules ⟨5, 4, 0⟩ ["streak"]) ∧
      RewardEngine.run threeRules ⟨5, 4, 0⟩ ["streak", "streak"] =
        RewardEngine.run threeRules ⟨5, 4, 0⟩ ["streak"] := by
  have hids : (threeRules.map RewardRule.id).Nodup := by decide
  obtain ⟨⟨haccounts, hsame⟩, -⟩ := outputs_account threeRules hids ⟨5, 4, 0⟩ ["streak"]
  exact ⟨haccounts, hsame ["streak", "streak"] (by simp)⟩

end MapleRewards
