import MapleRewards.Services
import MapleRewards.Granting

/-!
# The turn of a rule

What a rule grants is settled by its config, the activity and the ids in the set when
the engine comes to it. Configs that the validator has accepted have a string as their
metric and an integer from 1 on as their threshold.
-/
namespace MapleRewards

open OnePass Collection

/-- The rules of an event as `addReward` leaves them: generated ids and checked configs. -/
structure AcceptedRules (docs : List RewardRuleDocument) : Prop where
  ids : (docs.map RewardRuleDocument._id).Nodup
  configs : ∀ doc ∈ docs, ∃ ruleType config, validateRuleConfig ruleType config = .ok doc.config

/-- The metric of a rule and what it must reach; FINAL rules have none. -/
def RuleConfig.target : RuleConfig → Option (String × Rat)
  | .perCondition config => some (config.metric, config.perThreshold)
  | .stage config => some (config.metric, config.stageThreshold)
  | .final _ => none
  | .unsupported _ => none

/-! ## Checked configs -/

theorem validateSync_eq_ok {α : Type} {dto : List (String × JsonValue) → Option α}
    {config : ConfigInput} {a : α} (h : validateSync dto config = .ok a) :
    ∃ fields, config = .object fields ∧ dto (plainToInstance fields) = some a := by
  unfold validateSync at h
  split at h
  · next fields =>
    split at h
    · next hdto =>
      cases h
      exact ⟨fields, rfl, hdto⟩
    · cases h
  · cases h
  · cases h

/-- An accepted config is of one of the three kinds. -/
theorem validateRuleConfig_cases {ruleType : RewardRuleType} {input : ConfigInput}
    {config : RuleConfig} (h : validateRuleConfig ruleType input = .ok config) :
    (∃ fields c, input = .object fields ∧
      PerConditionRuleConfigDto (plainToInstance fields) = some c ∧ config = .perCondition c) ∨
    (∃ fields c, input = .object fields ∧
      StageRuleConfigDto (plainToInstance fields) = some c ∧ config = .stage c) ∨
    (∃ fields c, input = .object fields ∧
      FinalRuleConfigDto (plainToInstance fields) = some c ∧ config = .final c) := by
  have hmap : ∀ {α : Type} (dto : List (String × JsonValue) → Option α) (f : α → RuleConfig),
      (validateSync dto input).map f = .ok config →
      ∃ fields c, input = .object fields ∧ dto (plainToInstance fields) = some c ∧
        config = f c := by
    intro α dto f hf
    cases hs : validateSync dto input with
    | error err =>
      rw [hs] at hf
      cases hf
    | ok c =>
      rw [hs] at hf
      cases hf
      obtain ⟨fields, hinput, hdto⟩ := validateSync_eq_ok hs
      exact ⟨fields, c, hinput, hdto, rfl⟩
  cases ruleType with
  | PER_CONDITION => exact Or.inl (hmap _ _ h)
  | STAGE => exact Or.inr (Or.inl (hmap _ _ h))
  | FINAL => exact Or.inr (Or.inr (hmap _ _ h))
  | other name => cases h

/-- The threshold of an accepted config is an integer from 1 on. -/
theorem validated_threshold {ruleType : RewardRuleType} {input : ConfigInput} {config : RuleConfig}
    (h : validateRuleConfig ruleType input = .ok config) {metric : String} {threshold : Rat}
    (ht : config.target = some (metric, threshold)) : threshold.den = 1 ∧ 1 ≤ threshold := by
  rcases validateRuleConfig_cases h with ⟨fields, c, -, hdto, rfl⟩ | ⟨fields, c, -, hdto, rfl⟩ |
    ⟨fields, c, -, -, rfl⟩
  · obtain ⟨p, hp, rfl⟩ := Option.map_eq_some_iff.mp hdto
    cases ht
    exact (thresholdConfig_spec hp).2.2
  · obtain ⟨p, hp, rfl⟩ := Option.map_eq_some_iff.mp hdto
    cases ht
    exact (thresholdConfig_spec hp).2.2
  · cases ht

theorem AcceptedRules.threshold {docs : List RewardRuleDocument} (h : AcceptedRules docs)
    {doc : RewardRuleDocument} (hdoc : doc ∈ docs) {metric : String} {threshold : Rat}
    (ht : doc.config.target = some (metric, threshold)) : threshold.den = 1 ∧ 1 ≤ threshold := by
  obtain ⟨ruleType, input, hvalid⟩ := h.configs doc hdoc
  exact validated_threshold hvalid ht

/-- The rule factory throws only on a rule of a type that it does not know. -/
theorem built_of_supported {docs : List RewardRuleDocument}
    (h : ∀ doc ∈ docs, ∀ ruleType, doc.config ≠ .unsupported ruleType) :
    ∃ rules, createRulesFromDocs docs = .ok rules := by
  induction docs with
  | nil => exact ⟨[], rfl⟩
  | cons doc docs ih =>
    obtain ⟨rest, hrest⟩ := ih fun d hd => h d (List.mem_cons_of_mem doc hd)
    have hrule : ∃ rule, ruleFromDoc doc = .ok rule := by
      unfold ruleFromDoc
      cases hc : doc.config with
      | perCondition config => exact ⟨_, rfl⟩
      | stage config => exact ⟨_, rfl⟩
      | final config => exact ⟨_, rfl⟩
      | unsupported ruleType => exact absurd hc (h doc List.mem_cons_self ruleType)
    obtain ⟨rule, hrule⟩ := hrule
    refine ⟨rule :: rest, ?_⟩
    rw [createRulesFromDocs, hrule, hrest]
    rfl

theorem Built.supported {doc : RewardRuleDocument} {rule : RewardRule} (h : Built doc rule)
    (ruleType : String) : doc.config ≠ .unsupported ruleType := by
  intro hc
  unfold Built ruleFromDoc at h
  rw [hc] at h
  cases h

theorem AcceptedRules.supported {docs : List RewardRuleDocument} (h : AcceptedRules docs) :
    ∀ doc ∈ docs, ∀ ruleType, doc.config ≠ .unsupported ruleType := by
  intro doc hdoc ruleType hc
  obtain ⟨validated, input, hvalid⟩ := h.configs doc hdoc
  rcases validateRuleConfig_cases hvalid with ⟨_, _, -, -, heq⟩ | ⟨_, _, -, -, heq⟩ |
    ⟨_, _, -, -, heq⟩
  · cases hc.symm.trans heq
  · cases hc.symm.trans heq
  · cases hc.symm.trans heq

theorem AcceptedRules.built {docs : List RewardRuleDocument} (h : AcceptedRules docs) :
    ∃ rules, createRulesFromDocs docs = .ok rules :=
  built_of_supported h.supported

/-! ## The counters -/

/-- The counters that an activity has. -/
def Activity.metrics : List String := ["loginStreak", "inviteCount", "purchaseTotal"]

theorem Activity.get_eq_none_iff {activity : Activity} {metric : String} :
    activity.get metric = none ↔ metric ∉ Activity.metrics := by
  unfold Activity.get Activity.metrics
  split
  · next h => simp [h]
  · split
    · next h => simp [h]
    · split
      · next h => simp [h]
      · simp [*]

/-- On a counter that the activity does not have no stage is out of reach. -/
theorem reached_of_get_eq_none {rule : StageRule} {activity : Activity}
    (h : activity.get rule.config.metric = none) : rule.reached activity = true := by
  simp [StageRule.reached, h, jsLess]

theorem reached_iff_floor {rule : StageRule} {activity : Activity} {value : Rat}
    (hvalue : activity.get rule.config.metric = some value) :
    rule.reached activity = true ↔ rule.config.stageThreshold ≤ value ∧
      rule.config.stageThreshold ≤ ((jsDiv value rule.config.stageThreshold).floor : Rat) := by
  simp [StageRule.reached, hvalue, jsLess]

/-- A counter reaches a stage when it is at least the threshold, and so is its quotient by
the threshold. -/
theorem reached_iff {rule : StageRule} {activity : Activity} {value : Rat}
    (hvalue : activity.get rule.config.metric = some value)
    (hint : rule.config.stageThreshold.den = 1) :
    rule.reached activity = true ↔ rule.config.stageThreshold ≤ value ∧
      rule.config.stageThreshold ≤ jsDiv value rule.config.stageThreshold := by
  rw [reached_iff_floor hvalue]
  generalize rule.config.stageThreshold = t at hint
  have hnum : (t.num : Rat) = t := (Rat.den_eq_one_iff t).mp hint
  have hfloor : t ≤ ((jsDiv value t).floor : Rat) ↔ t ≤ jsDiv value t := by
    calc t ≤ ((jsDiv value t).floor : Rat)
        ↔ (t.num : Rat) ≤ ((jsDiv value t).floor : Rat) := by rw [hnum]
      _ ↔ t.num ≤ (jsDiv value t).floor := by rw [Int.cast_le]
      _ ↔ (t.num : Rat) ≤ jsDiv value t := Rat.le_floor_iff
      _ ↔ t ≤ jsDiv value t := by rw [hnum]
  rw [hfloor]

/-! ## The quotient -/

theorem jsDiv_mono_left {x y threshold : Rat} (hx : 0 ≤ x) (ht : 0 ≤ threshold) (h : x ≤ y) :
    jsDiv x threshold ≤ jsDiv y threshold :=
  Rounding.roundTo_mono (by norm_num) (div_nonneg hx ht) (div_le_div_of_nonneg_right h ht)

theorem jsDiv_anti_right {x threshold threshold' : Rat} (hx : 0 ≤ x) (ht : 0 < threshold)
    (h : threshold ≤ threshold') : jsDiv x threshold' ≤ jsDiv x threshold :=
  Rounding.roundTo_mono (by norm_num) (div_nonneg hx (ht.le.trans h))
    (div_le_div_of_nonneg_left hx ht h)

/-- Up to 2 ^ 26 rounding does not tell: a whole counter waits for the square of a whole
threshold. -/
theorem le_jsDiv_iff_sq_le {value threshold : Rat} (hvalue : value.den = 1)
    (hint : threshold.den = 1) (hone : 1 ≤ threshold) (hsmall : threshold ≤ 2 ^ 26) :
    threshold ≤ jsDiv value threshold ↔ threshold * threshold ≤ value := by
  have hpos : 0 < threshold := lt_of_lt_of_le one_pos hone
  have hvalueNum : (value.num : Rat) = value := (Rat.den_eq_one_iff value).mp hvalue
  have hnum : (threshold.num : Rat) = threshold := (Rat.den_eq_one_iff threshold).mp hint
  constructor
  · intro h
    by_contra hless
    have hbelow : value ≤ threshold * threshold - 1 := by
      rw [← hvalueNum, ← hnum] at hless ⊢
      norm_cast at hless ⊢
      omega
    rcases le_or_gt value 0 with hneg | hpositive
    · have hquotient : value / threshold ≤ 0 := div_nonpos_of_nonpos_of_nonneg hneg hpos.le
      have hrounded : jsDiv value threshold ≤ 0 :=
        Rounding.roundTo_le_of_le 0 (by simp) hquotient
      linarith
    · have hquotient : value / threshold ≤ threshold - 1 / threshold := by
        calc value / threshold ≤ (threshold * threshold - 1) / threshold := by gcongr
          _ = threshold - 1 / threshold := by field_simp
      -- the error is less than what is missing to the threshold
      have herror : value / threshold / 2 ^ 53 < 1 / threshold := by
        rw [div_div, div_lt_div_iff₀ (by positivity) hpos]
        nlinarith
      have hrounded : jsDiv value threshold ≤ value / threshold + value / threshold / 2 ^ 53 :=
        Rounding.roundTo_le_add (div_pos hpositive hpos)
      linarith
  · intro h
    have hnat : ((threshold.num.toNat : Nat) : Rat) = threshold := by
      rw [← hnum] at hpos
      have hnonneg : 0 ≤ threshold.num := by exact_mod_cast hpos.le
      conv_rhs => rw [← hnum, ← Int.toNat_of_nonneg hnonneg]
      rfl
    have hdigits : threshold.num.toNat < 2 ^ 53 := by
      have hcast : ((threshold.num.toNat : Nat) : Rat) < ((2 ^ 53 : Nat) : Rat) := by
        rw [hnat]
        push_cast
        linarith
      exact_mod_cast hcast
    have hquotient : threshold ≤ value / threshold := (le_div_iff₀ hpos).mpr h
    calc threshold = Rounding.roundTo 53 threshold := by
          rw [← hnat, Rounding.roundTo_natCast hdigits]
      _ ≤ jsDiv value threshold := Rounding.roundTo_mono (by norm_num) hpos.le hquotient

/-! ## The turn of a rule -/

section Turns

variable {docs : List RewardRuleDocument} {rules : List RewardRule} (activity : Activity)
  (past : List String)

/-- The ids in the set when the rule after `before` has its turn. -/
def turn (rules : List RewardRule) (before : List RewardRuleDocument) : List String :=
  heldAfter (fun doc : RewardRuleDocument => doc._id.toString) (docGrants rules activity) before
    (setOf past)

theorem keys_nodup (hids : (docs.map RewardRuleDocument._id).Nodup) :
    (docs.map fun doc => doc._id.toString).Nodup := by
  rw [show (fun doc : RewardRuleDocument => doc._id.toString) =
    ObjectId.toString ∘ RewardRuleDocument._id from rfl, ← List.map_map]
  exact hids.map ObjectId.toString_injective

/-- A rule is newly granted exactly when it grants on its turn. -/
theorem newAchieved_iff (hids : (docs.map RewardRuleDocument._id).Nodup)
    (hbuilt : List.Forall₂ Built docs rules) {before after : List RewardRuleDocument}
    {doc : RewardRuleDocument} (hdocs : docs = before ++ doc :: after) :
    doc._id.toString ∈ (RewardEngine.run rules activity past).newAchievedRuleIds ↔
      docGrants rules activity doc (turn activity past rules before) = true := by
  have hnd := keys_nodup hids
  rw [hdocs] at hnd
  rw [run_eq_grantedDocs hbuilt, hdocs]
  exact key_mem_choose_iff (fun doc : RewardRuleDocument => doc._id.toString)
    (docGrants rules activity) hnd

/-- On the turn of a rule the set holds past ids and ids of earlier rules. -/
theorem mem_turn_origin {before : List RewardRuleDocument} {id : String}
    (h : id ∈ turn activity past rules before) :
    id ∈ past ∨ ∃ doc ∈ before, doc._id.toString = id := by
  rcases List.mem_append.mp h with hpast | hnew
  · exact Or.inl (mem_setOf.mp hpast)
  · obtain ⟨doc, hdoc, hid⟩ := List.mem_map.mp hnew
    exact Or.inr ⟨doc, (choose_sublist _ _ before (setOf past)).subset hdoc, hid⟩

theorem mem_turn_of_past (before : List RewardRuleDocument) {id : String} (h : id ∈ past) :
    id ∈ turn activity past rules before :=
  held_subset_heldAfter _ _ before (setOf past) id (by simpa using h)

/-- On its turn the id of a rule is in the set only if it was paid before the run. -/
theorem mem_turn_self (hids : (docs.map RewardRuleDocument._id).Nodup)
    {before after : List RewardRuleDocument} {doc : RewardRuleDocument}
    (hdocs : docs = before ++ doc :: after) :
    doc._id.toString ∈ turn activity past rules before ↔ doc._id.toString ∈ past := by
  have hnd := keys_nodup hids
  rw [hdocs, List.map_append, List.nodup_append] at hnd
  constructor
  · intro hmem
    rcases mem_turn_origin activity past hmem with hpast | ⟨d, hd, hkey⟩
    · exact hpast
    · exact absurd hkey (hnd.2.2 _ (List.mem_map_of_mem hd) _ (by simp))
  · exact mem_turn_of_past activity past before

/-- A held stage threshold is held through a stage rule of the event. -/
theorem stageRewarded_iff (hbuilt : List.Forall₂ Built docs rules) {held : List String}
    {threshold : Rat} : stageRewarded rules held threshold = true ↔
      ∃ doc ∈ docs, ∃ config, doc.config = .stage config ∧ config.stageThreshold = threshold ∧
        doc._id.toString ∈ held := by
  constructor
  · intro hst
    simp only [stageRewarded, List.any_eq_true, Bool.and_eq_true, List.contains_iff_mem,
      List.mem_filterMap, beq_iff_eq] at hst
    obtain ⟨r, ⟨rule, hrule, hr⟩, hid, ht⟩ := hst
    obtain ⟨doc, hdoc, hb⟩ := Collection.mem_of_forall₂ hbuilt hrule
    obtain ⟨config, hc⟩ := Built.stage_config hb hr
    have hst := Built.stage hb hc
    subst hst
    cases hr
    exact ⟨doc, hdoc, config, hc, ht, hid⟩
  · rintro ⟨doc, hdoc, config, hc, rfl, hid⟩
    exact stageRewarded_of_mem hbuilt hdoc hc hid

theorem docGrants_perCondition {doc : RewardRuleDocument} {config : PerConditionRuleConfig}
    {held : List String} (hc : doc.config = .perCondition config) :
    docGrants rules activity doc held = true ↔ doc._id.toString ∉ held ∧
      jsLess (activity.get config.metric) config.perThreshold = false := by
  simp [docGrants, ruleFromDoc, hc, RewardRule.grants, RewardRule.id]

theorem docGrants_stage_iff (hbuilt : List.Forall₂ Built docs rules) {doc : RewardRuleDocument}
    {config : StageRuleConfig} {held : List String} (hc : doc.config = .stage config) :
    docGrants rules activity doc held = true ↔ doc._id.toString ∉ held ∧
      (⟨"", [], config⟩ : StageRule).reached activity = true ∧
      ∀ d ∈ docs, ∀ c, d.config = .stage c → c.stageThreshold = config.stageThreshold →
        d._id.toString ∉ held := by
  rw [docGrants_stage rules activity hc]
  simp only [Bool.and_eq_true, Bool.not_eq_true', List.contains_eq_mem, decide_eq_false_iff_not]
  rw [← Bool.not_eq_true (stageRewarded _ _ _), stageRewarded_iff hbuilt]
  simp only [not_exists, not_and]

theorem docGrants_final {doc : RewardRuleDocument} {config : FinalRuleConfig} {held : List String}
    (hc : doc.config = .final config) :
    docGrants rules activity doc held = true ↔ doc._id.toString ∉ held ∧
      config.prerequisiteRuleIds.all (hasElement held) = true := by
  simp [docGrants, ruleFromDoc, hc, RewardRule.grants, RewardRule.id]

/-- A FINAL rule that is new and still refused misses a prerequisite. -/
theorem exists_missing_prerequisite {doc : RewardRuleDocument} {config : FinalRuleConfig}
    {held : List String} (hc : doc.config = .final config) (hnew : doc._id.toString ∉ held)
    (hrefused : docGrants rules activity doc held = false) :
    ∃ rid ∈ config.prerequisiteRuleIds, hasElement held rid = false := by
  by_contra hnone
  have hgranted : docGrants rules activity doc held = true := by
    rw [docGrants_final activity hc]
    refine ⟨hnew, ?_⟩
    rw [List.all_eq_true]
    intro rid hrid
    by_contra hfalse
    exact hnone ⟨rid, hrid, Bool.eq_false_iff.mpr hfalse⟩
  rw [hgranted] at hrefused
  cases hrefused

theorem docGrants_unsupported {doc : RewardRuleDocument} {ruleType : String} {held : List String}
    (hc : doc.config = .unsupported ruleType) : docGrants rules activity doc held = false := by
  simp [docGrants, ruleFromDoc, hc, throwEvent]

end Turns

theorem hasElement_iff {held : List String} {rid : JsonElement} :
    hasElement held rid = true ↔ ∃ id, rid = .str id ∧ id ∈ held := by
  cases rid with
  | str id => simp [hasElement]
  | other text => simp [hasElement]

/-! ## Events with the same rules -/

section SameRules

variable {docs docs' : List RewardRuleDocument} {rules rules' : List RewardRule}
  (activity : Activity) (hbuilt : List.Forall₂ Built docs rules)
  (hbuilt' : List.Forall₂ Built docs' rules')
  (hkeys : docs.map RewardRuleDocument.key = docs'.map RewardRuleDocument.key)
include hbuilt hbuilt' hkeys

/-- Whether a rule grants depends on the ids and configs of the rules, not on their items. -/
theorem docGrants_congr {d d' : RewardRuleDocument} (hd : d.key = d'.key) (held : List String) :
    docGrants rules activity d held = docGrants rules' activity d' held := by
  obtain ⟨hid, hconfig⟩ : d._id = d'._id ∧ d.config = d'.config := by
    simpa [RewardRuleDocument.key] using hd
  rw [Bool.eq_iff_iff]
  cases hc : d.config with
  | perCondition config =>
    rw [docGrants_perCondition activity hc, docGrants_perCondition activity (hconfig ▸ hc), hid]
  | final config =>
    rw [docGrants_final activity hc, docGrants_final activity (hconfig ▸ hc), hid]
  | unsupported ruleType =>
    rw [docGrants_unsupported activity hc, docGrants_unsupported activity (hconfig ▸ hc)]
  | stage config =>
    rw [docGrants_stage_iff activity hbuilt hc,
      docGrants_stage_iff activity hbuilt' (hconfig ▸ hc), hid]
    -- the blocking stage rules are told apart by their keys only
    have hblock : ∀ docs : List RewardRuleDocument, (∀ r ∈ docs, ∀ c, r.config = .stage c →
        c.stageThreshold = config.stageThreshold → r._id.toString ∉ held) ↔
        ∀ k ∈ docs.map RewardRuleDocument.key, ∀ c, k.2 = .stage c →
          c.stageThreshold = config.stageThreshold → k.1.toString ∉ held := by
      intro docs
      simp [RewardRuleDocument.key]
    rw [hblock docs, hblock docs', hkeys]

/-- Rules with the same keys are granted with the same keys. -/
theorem grantedDocs_keys_congr (past : List String) :
    (grantedDocs rules activity docs past).map RewardRuleDocument.key =
      (grantedDocs rules' activity docs' past).map RewardRuleDocument.key := by
  have hdocs : List.Forall₂ (fun d d' : RewardRuleDocument => d.key = d'.key) docs docs' := by
    rw [← List.forall₂_eq_eq_eq, List.forall₂_map_left_iff, List.forall₂_map_right_iff] at hkeys
    exact hkeys
  have hgranted : List.Forall₂ (fun d d' : RewardRuleDocument => d.key = d'.key)
      (grantedDocs rules activity docs past) (grantedDocs rules' activity docs' past) :=
    choose_forall₂ _ _ (R := fun d d' : RewardRuleDocument => d.key = d'.key)
      (fun _ _ hd => congrArg (fun k => k.1.toString) hd)
      (fun _ _ held hd => docGrants_congr activity hbuilt hbuilt' hkeys hd held) hdocs (setOf past)
  rw [← List.forall₂_eq_eq_eq, List.forall₂_map_left_iff, List.forall₂_map_right_iff]
  exact hgranted

end SameRules

/-- No FINAL rule stands before a rule that it names as a prerequisite. -/
def FinalsLast (keys : List (ObjectId × RuleConfig)) : Prop :=
  ∀ before k after, keys = before ++ k :: after → ∀ config, k.2 = .final config →
    ∀ k' ∈ after, JsonElement.str k'.1.toString ∉ config.prerequisiteRuleIds

end MapleRewards
