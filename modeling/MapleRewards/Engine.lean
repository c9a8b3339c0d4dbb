import MapleRewards.Rules
import MapleRewards.Lib.OnePass
import MapleRewards.Lib.Rounding

/-!
# The reward engine

Rules are applied left to right over one set of rule ids that they mutate. The set
is a list in insertion order, as a JavaScript `Set` iterates. Every stage rule holds
a reference to the whole rule array, which `createRulesFromDocs` has filled by the
time the engine runs; here the array is an argument of `apply`.
-/
namespace MapleRewards

/-! ## JavaScript values -/

def setAdd (ids : List String) (id : String) : List String :=
  if ids.contains id then ids else ids ++ [id]

def setOf (ids : List String) : List String := ids.foldl setAdd []

/-- `x < y`, where `none` is `undefined` or `NaN` and every comparison is false. -/
def jsLess : Option Rat → Rat → Bool
  | none, _ => false
  | some x, y => decide (x < y)

/-- `x / y` on doubles, where the quotient neither over- nor underflows. -/
def jsDiv (x y : Rat) : Rat := Rounding.roundTo 53 (x / y)

structure Activity where
  loginStreak : Rat
  inviteCount : Rat
  purchaseTotal : Rat
  deriving DecidableEq

/-- `activity[metric]`; a property inherited from `Object.prototype` compares like `NaN`. -/
def Activity.get (activity : Activity) (metric : String) : Option Rat :=
  if metric = "loginStreak" then some activity.loginStreak
  else if metric = "inviteCount" then some activity.inviteCount
  else if metric = "purchaseTotal" then some activity.purchaseTotal
  else none

/-! ## The three rule classes -/

structure PerConditionRule where
  id : String
  rewardItems : List RewardItem
  config : PerConditionRuleConfig

structure StageRule where
  id : String
  rewardItems : List RewardItem
  config : StageRuleConfig

structure FinalRule where
  id : String
  rewardItems : List RewardItem
  config : FinalRuleConfig

inductive RewardRule where
  | perCondition : PerConditionRule → RewardRule
  | stage : StageRule → RewardRule
  | final : FinalRule → RewardRule

namespace RewardRule

def id : RewardRule → String
  | .perCondition r => r.id
  | .stage r => r.id
  | .final r => r.id

def rewardItems : RewardRule → List RewardItem
  | .perCondition r => r.rewardItems
  | .stage r => r.rewardItems
  | .final r => r.rewardItems

/-- `r instanceof StageRule` with the cast. -/
def asStage : RewardRule → Option StageRule
  | .stage r => some r
  | _ => none

end RewardRule

def PerConditionRule.apply (rule : PerConditionRule) (activity : Activity)
    (ruleIds : List String) : List RewardItem × List String :=
  if ruleIds.contains rule.id || jsLess (activity.get rule.config.metric) rule.config.perThreshold
  then ([], ruleIds)
  else (rule.rewardItems, setAdd ruleIds rule.id)

def StageRule.apply (rule : StageRule) (allRules : List RewardRule) (activity : Activity)
    (ruleIds : List String) : List RewardItem × List String :=
  let stageThreshold := rule.config.stageThreshold
  if ruleIds.contains rule.id || jsLess (activity.get rule.config.metric) stageThreshold
  then ([], ruleIds)
  else
    let currentValue := activity.get rule.config.metric
    let achievedStages : Option Rat :=
      currentValue.map fun v => ((jsDiv v stageThreshold).floor : Rat)
    if jsLess achievedStages stageThreshold then ([], ruleIds)
    else
      let stageRules := allRules.filterMap RewardRule.asStage
      let alreadyRewardedStages :=
        (stageRules.filter fun r => ruleIds.contains r.id).map fun r => r.config.stageThreshold
      if !alreadyRewardedStages.contains stageThreshold then
        (rule.rewardItems, setAdd ruleIds rule.id)
      else ([], ruleIds)

/-- `state.has(rid)`; the set holds strings only. -/
def hasElement (ruleIds : List String) : JsonElement → Bool
  | .str rid => ruleIds.contains rid
  | .other _ => false

def FinalRule.apply (rule : FinalRule) (state : List String) : List RewardItem × List String :=
  if state.contains rule.id then ([], state)
  else if !rule.config.prerequisiteRuleIds.all (hasElement state) then ([], state)
  else (rule.rewardItems, setAdd state rule.id)

def RewardRule.apply (allRules : List RewardRule) (activity : Activity) (rule : RewardRule)
    (ruleIds : List String) : List RewardItem × List String :=
  match rule with
  | .perCondition r => r.apply activity ruleIds
  | .stage r => r.apply allRules activity ruleIds
  | .final r => r.apply ruleIds

/-! ## The engine and the rule factory -/

structure EngineResult where
  newAchievedRuleIds : List String
  rewards : List RewardItem
  deriving DecidableEq

/-- One turn of the loop over the rules. -/
def RewardEngine.visit (rules : List RewardRule) (activity : Activity)
    (acc : List String × List RewardItem) (rule : RewardRule) : List String × List RewardItem :=
  let (items, ruleIds) := rule.apply rules activity acc.1
  (ruleIds, if items.length ≠ 0 then acc.2 ++ items else acc.2)

/-- The engine on stage rules that refer to any arrays at all. -/
def RewardEngine.runOn (allRules : RewardRule → List RewardRule) (rules : List RewardRule)
    (activity : Activity) (pastRuleIds : List String) : EngineResult :=
  let (ruleIds, rewards) := rules.foldl
    (fun acc rule => RewardEngine.visit (allRules rule) activity acc rule) (setOf pastRuleIds, [])
  ⟨ruleIds.filter fun id => !pastRuleIds.contains id, rewards⟩

/-- `createRulesFromDocs` lets every stage rule refer to the finished array. -/
def RewardEngine.run (rules : List RewardRule) (activity : Activity) (pastRuleIds : List String) :
    EngineResult :=
  RewardEngine.runOn (fun _ => rules) rules activity pastRuleIds

def ruleFromDoc (doc : RewardRuleDocument) : Except Thrown RewardRule :=
  match doc.config with
  | .perCondition config => .ok (.perCondition ⟨doc._id.toString, doc.rewardItems, config⟩)
  | .stage config => .ok (.stage ⟨doc._id.toString, doc.rewardItems, config⟩)
  | .final config => .ok (.final ⟨doc._id.toString, doc.rewardItems, config⟩)
  | .unsupported _ => throwEvent .UNSUPPORTED_RULE_TYPE

/-- The second loop of the source only replaces a rule by one with the same fields
that refers to the finished array, so it leaves no trace here. -/
def createRulesFromDocs : List RewardRuleDocument → Except Thrown (List RewardRule)
  | [] => .ok []
  | doc :: docs => do
    let rule ← ruleFromDoc doc
    let rules ← createRulesFromDocs docs
    .ok (rule :: rules)

/-! ## What a rule grants -/

@[simp] theorem mem_setAdd {ids : List String} {id x : String} :
    x ∈ setAdd ids id ↔ x ∈ ids ∨ x = id := by
  unfold setAdd
  split
  · next h =>
    have hid : id ∈ ids := by simpa using h
    constructor
    · exact Or.inl
    · rintro (hx | rfl)
      · exact hx
      · exact hid
  · simp

theorem setAdd_of_not_mem {ids : List String} {id : String} (h : id ∉ ids) :
    setAdd ids id = ids ++ [id] := by
  simp [setAdd, h]

@[simp] theorem mem_setOf {ids : List String} {x : String} : x ∈ setOf ids ↔ x ∈ ids := by
  have key : ∀ (ids acc : List String), x ∈ ids.foldl setAdd acc ↔ x ∈ acc ∨ x ∈ ids := by
    intro ids
    induction ids with
    | nil => simp
    | cons id ids ih =>
      intro acc
      rw [List.foldl_cons, ih, mem_setAdd, List.mem_cons]
      tauto
  simpa [setOf] using key ids []

/-- Some stage rule of the array with this threshold is already in the set. -/
def stageRewarded (allRules : List RewardRule) (ruleIds : List String) (threshold : Rat) : Bool :=
  (allRules.filterMap RewardRule.asStage).any fun r =>
    ruleIds.contains r.id && r.config.stageThreshold == threshold

/-- The activity reaches the stage, as both comparisons of the source see it. -/
def StageRule.reached (rule : StageRule) (activity : Activity) : Bool :=
  !jsLess (activity.get rule.config.metric) rule.config.stageThreshold &&
    !jsLess ((activity.get rule.config.metric).map
      fun v => ((jsDiv v rule.config.stageThreshold).floor : Rat)) rule.config.stageThreshold

/-- When a rule, on its turn, returns its items and adds its id. -/
def RewardRule.grants (allRules : List RewardRule) (activity : Activity) (rule : RewardRule)
    (ruleIds : List String) : Bool :=
  !ruleIds.contains rule.id &&
    match rule with
    | .perCondition r => !jsLess (activity.get r.config.metric) r.config.perThreshold
    | .stage r => r.reached activity && !stageRewarded allRules ruleIds r.config.stageThreshold
    | .final r => r.config.prerequisiteRuleIds.all (hasElement ruleIds)

theorem alreadyRewarded_contains (allRules : List RewardRule) (ruleIds : List String)
    (threshold : Rat) :
    (((allRules.filterMap RewardRule.asStage).filter fun r => ruleIds.contains r.id).map
      fun r => r.config.stageThreshold).contains threshold =
      stageRewarded allRules ruleIds threshold := by
  rw [Bool.eq_iff_iff]
  simp only [stageRewarded, List.contains_iff_mem, List.mem_map, List.mem_filter, List.any_eq_true,
    Bool.and_eq_true, beq_iff_eq, and_assoc]

/-- Each class adds its id exactly when it returns its items. -/
theorem RewardRule.apply_eq (allRules : List RewardRule) (activity : Activity) (rule : RewardRule)
    (ruleIds : List String) :
    rule.apply allRules activity ruleIds =
      if rule.grants allRules activity ruleIds then (rule.rewardItems, ruleIds ++ [rule.id])
      else ([], ruleIds) := by
  by_cases hmem : rule.id ∈ ruleIds
  · -- an id already in the set is never granted again
    cases rule <;>
      simp_all [RewardRule.apply, RewardRule.grants, RewardRule.id, PerConditionRule.apply,
        StageRule.apply, FinalRule.apply]
  · have hadd := setAdd_of_not_mem hmem
    cases rule with
    | perCondition r =>
      simp only [RewardRule.id] at hmem hadd
      by_cases hlt : jsLess (activity.get r.config.metric) r.config.perThreshold = true <;>
        simp [RewardRule.apply, RewardRule.grants, RewardRule.id, RewardRule.rewardItems,
          PerConditionRule.apply, hmem, hadd, hlt]
    | stage r =>
      simp only [RewardRule.id] at hmem hadd
      simp only [RewardRule.apply, RewardRule.grants, RewardRule.id, RewardRule.rewardItems,
        StageRule.apply, StageRule.reached, alreadyRewarded_contains, hadd]
      by_cases hlt : jsLess (activity.get r.config.metric) r.config.stageThreshold = true
      · simp [hmem, hlt]
      · by_cases hfl : jsLess ((activity.get r.config.metric).map
            fun v => ((jsDiv v r.config.stageThreshold).floor : Rat)) r.config.stageThreshold = true
        · simp [hmem, hlt, hfl]
        · by_cases hst : stageRewarded allRules ruleIds r.config.stageThreshold = true <;>
            simp [hmem, hlt, hfl, hst]
    | final r =>
      simp only [RewardRule.id] at hmem hadd
      by_cases hall : r.config.prerequisiteRuleIds.all (hasElement ruleIds) = true <;>
        simp [RewardRule.apply, RewardRule.grants, RewardRule.id, RewardRule.rewardItems,
          FinalRule.apply, hmem, hadd, hall]

end MapleRewards
