import MapleRewards.ObjectId
import MapleRewards.Errors
import Mathlib.Data.Rat.Floor

/-!
# Reward items, rule documents and their configs

A JavaScript number is a rational here, so counters and thresholds may be negative
or fractional until something checks them. What a client submits is JSON: nothing checks
the properties of a reward item, and a config is what `validateRuleConfig` makes of it.
-/
namespace MapleRewards

/-- An element of a JSON array: a string, or any other value kept as its text. -/
inductive JsonElement where
  | str : String → JsonElement
  | other : String → JsonElement
  deriving DecidableEq

inductive JsonValue where
  | num : Rat → JsonValue
  | str : String → JsonValue
  | arr : List JsonElement → JsonValue
  | other : String → JsonValue
  deriving DecidableEq

/-! ## Reward items -/

/-- A reward item in a request or a response: any JSON object. -/
structure RewardItemDto where
  type : Option JsonValue
  amount : Option JsonValue
  further : List (String × JsonValue)
  deriving DecidableEq

/-- A stored reward item. An update does not ask for the required fields. -/
structure RewardItem where
  type : Option String
  amount : Option Rat
  deriving DecidableEq

/-- The validators of `RewardItemSchema`: `required`, `enum: RewardType` and `min: 0`. -/
def RewardItem.valid (item : RewardItem) : Bool :=
  (item.type == some "COUPON" || item.type == some "CASH") &&
    item.amount.any fun amount => decide (0 ≤ amount)

/-- `RewardMapper.toRewardItemDto` -/
def RewardItem.toDto (item : RewardItem) : RewardItemDto :=
  ⟨item.type.map .str, item.amount.map .num, []⟩

theorem RewardItem.toDto_injective {a b : RewardItem} (h : a.toDto = b.toDto) : a = b := by
  cases a with
  | mk type amount =>
    cases b with
    | mk type' amount' =>
      cases type <;> cases type' <;> cases amount <;> cases amount' <;> simp_all [toDto]

/-- A submitted item with what the schema's casting makes of it, `none` where that fails.
A string and a number are cast to themselves, and properties that the schema does not
declare are left out. -/
structure SubmittedItem where
  json : RewardItemDto
  cast : Option RewardItem
  cast_plain : ∀ (item : RewardItem) (further : List (String × JsonValue)),
    json = { item.toDto with further := further } → cast = some item

/-- An item submitted as a string and a number, or without them. -/
def RewardItem.submitted (item : RewardItem) : SubmittedItem where
  json := item.toDto
  cast := some item
  cast_plain := by
    intro item' further h
    have hsame : item.toDto = item'.toDto := by
      simp only [RewardItem.toDto, RewardItemDto.mk.injEq, and_true] at h ⊢
      exact ⟨h.1, h.2.1⟩
    rw [RewardItem.toDto_injective hsame]

/-! ## Configs -/

inductive RewardRuleType where
  | PER_CONDITION
  | STAGE
  | FINAL
  | other : String → RewardRuleType
  deriving DecidableEq

/-- A submitted config: an object with its own keys, `null` or nothing, or anything else. -/
inductive ConfigInput where
  | object : List (String × JsonValue) → ConfigInput
  | absent : ConfigInput
  | notObject : String → ConfigInput

structure PerConditionRuleConfig where
  metric : String
  perThreshold : Rat
  deriving DecidableEq

structure StageRuleConfig where
  metric : String
  stageThreshold : Rat
  deriving DecidableEq

/-- `@IsArray()` does not look at the elements, so some may not be strings. -/
structure FinalRuleConfig where
  prerequisiteRuleIds : List JsonElement
  deriving DecidableEq

inductive RuleConfig where
  | perCondition : PerConditionRuleConfig → RuleConfig
  | stage : StageRuleConfig → RuleConfig
  | final : FinalRuleConfig → RuleConfig
  | unsupported : String → RuleConfig
  deriving DecidableEq

/-- The own keys that `plainToInstance` passes over: a new instance has a function under
each of them, or they are named in its source. -/
def inheritedKeys : List String :=
  ["__proto__", "constructor", "__defineGetter__", "__defineSetter__", "hasOwnProperty",
    "__lookupGetter__", "__lookupSetter__", "isPrototypeOf", "propertyIsEnumerable", "toString",
    "valueOf", "toLocaleString"]

def plainToInstance (fields : List (String × JsonValue)) : List (String × JsonValue) :=
  fields.filter fun field => !inheritedKeys.contains field.1

/-- The part of a submitted config that no check sees. -/
def ConfigInput.further : ConfigInput → List (String × JsonValue)
  | .object fields => fields.filter fun field => inheritedKeys.contains field.1
  | .absent => []
  | .notObject _ => []

/-- `forbidNonWhitelisted`: every own key is a declared property. -/
def whitelisted (declared : List String) (fields : List (String × JsonValue)) : Bool :=
  fields.all fun field => declared.contains field.1

/-- `@IsString() metric` beside an `@IsInt() @Min(1)` threshold. -/
def thresholdConfig (thresholdKey : String) (fields : List (String × JsonValue)) :
    Option (String × Rat) :=
  if whitelisted ["metric", thresholdKey] fields then
    match fields.lookup "metric", fields.lookup thresholdKey with
    | some (.str metric), some (.num threshold) =>
      if threshold.den = 1 ∧ 1 ≤ threshold then some (metric, threshold) else none
    | _, _ => none
  else none

def PerConditionRuleConfigDto (fields : List (String × JsonValue)) :
    Option PerConditionRuleConfig :=
  (thresholdConfig "perThreshold" fields).map fun p => ⟨p.1, p.2⟩

def StageRuleConfigDto (fields : List (String × JsonValue)) : Option StageRuleConfig :=
  (thresholdConfig "stageThreshold" fields).map fun p => ⟨p.1, p.2⟩

def FinalRuleConfigDto (fields : List (String × JsonValue)) : Option FinalRuleConfig :=
  if whitelisted ["prerequisiteRuleIds"] fields then
    match fields.lookup "prerequisiteRuleIds" with
    | some (.arr ids) => some ⟨ids⟩
    | _ => none
  else none

/-- What `validateSync` makes of a config for one DTO class; it reads the constructor of
what it is given, which `null` and `undefined` do not have. -/
def validateSync {α : Type} (dto : List (String × JsonValue) → Option α) :
    ConfigInput → Except Thrown α
  | .object fields =>
    match dto (plainToInstance fields) with
    | some config => .ok config
    | none => throwEvent .INVALID_RULE_CONFIG
  | .absent => .error .typeError
  | .notObject _ => throwEvent .INVALID_RULE_CONFIG

/-- `validateRuleConfig`, returning the config it has accepted. -/
def validateRuleConfig (ruleType : RewardRuleType) (config : ConfigInput) :
    Except Thrown RuleConfig :=
  match ruleType with
  | .PER_CONDITION => (validateSync PerConditionRuleConfigDto config).map .perCondition
  | .STAGE => (validateSync StageRuleConfigDto config).map .stage
  | .FINAL => (validateSync FinalRuleConfigDto config).map .final
  | .other _ => throwEvent .UNSUPPORTED_RULE_TYPE

theorem thresholdConfig_spec {thresholdKey : String} {fields : List (String × JsonValue)}
    {metric : String} {threshold : Rat}
    (h : thresholdConfig thresholdKey fields = some (metric, threshold)) :
    fields.lookup "metric" = some (.str metric) ∧
      fields.lookup thresholdKey = some (.num threshold) ∧
      threshold.den = 1 ∧ 1 ≤ threshold := by
  unfold thresholdConfig at h
  split at h
  · split at h
    · next m t hm ht =>
      split at h
      · next hint =>
        cases h
        exact ⟨hm, ht, hint⟩
      · cases h
    · cases h
  · cases h

/-- The config is stored as it was submitted, so with the keys that no check has seen. -/
structure RewardRuleDocument where
  _id : ObjectId
  config : RuleConfig
  furtherConfig : List (String × JsonValue)
  rewardItems : List RewardItem
  deriving DecidableEq

/-- What the engine tells rules apart by; it never changes in a stored rule. -/
def RewardRuleDocument.key (rule : RewardRuleDocument) : ObjectId × RuleConfig :=
  (rule._id, rule.config)

end MapleRewards
