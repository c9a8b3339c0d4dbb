import MapleRewards.Payout
import MapleRewards.Turns

/-!
# The configs of stored rules

`addReward` adds a rule only when the validator has accepted its config, and no other
operation brings rules into the store. A call on a stored event goes through when it names
one of its rules, or makes one while all of them are valid.
-/
namespace MapleRewards

open Collection LabelledRuns SnapshotStore

/-! ## Configs -/

def RuleConfig.ruleType : RuleConfig → RewardRuleType
  | .perCondition _ => .PER_CONDITION
  | .stage _ => .STAGE
  | .final _ => .FINAL
  | .unsupported ruleType => .other ruleType

/-- The config object that the listing mapper builds. -/
def RuleConfig.fields : RuleConfig → List (String × JsonValue)
  | .perCondition config =>
    [("metric", .str config.metric), ("perThreshold", .num config.perThreshold)]
  | .stage config =>
    [("metric", .str config.metric), ("stageThreshold", .num config.stageThreshold)]
  | .final config => [("prerequisiteRuleIds", .arr config.prerequisiteRuleIds)]
  | .unsupported _ => []

theorem lookup_of_whitelisted {declared : List String} {fields : List (String × JsonValue)}
    (h : whitelisted declared fields = true) {key : String} (hkey : key ∉ declared) :
    fields.lookup key = none := by
  rw [List.lookup_eq_none_iff]
  intro field hfield
  have hdeclared := List.all_eq_true.mp h field hfield
  simp only [List.contains_iff_mem] at hdeclared
  rw [bne_iff_ne]
  intro heq
  exact hkey (heq ▸ hdeclared)

theorem lookup_cons_of_ne {key key' : String} (h : key ≠ key') (value : JsonValue)
    (fields : List (String × JsonValue)) :
    ((key', value) :: fields).lookup key = fields.lookup key := by
  rw [List.lookup_cons, beq_false_of_ne h]

/-- A threshold config has the two declared keys and no others. -/
theorem thresholdConfig_lookup {thresholdKey metric : String} {threshold : Rat}
    {fields : List (String × JsonValue)} (hne : thresholdKey ≠ "metric")
    (h : thresholdConfig thresholdKey fields = some (metric, threshold)) (key : String) :
    fields.lookup key =
      [("metric", JsonValue.str metric), (thresholdKey, .num threshold)].lookup key := by
  obtain ⟨hmetric, hthreshold, -⟩ := thresholdConfig_spec h
  have hwhite : whitelisted ["metric", thresholdKey] fields = true := by
    by_contra hnot
    simp [thresholdConfig, hnot] at h
  by_cases h₁ : key = "metric"
  · rw [h₁, hmetric]
    rfl
  · by_cases h₂ : key = thresholdKey
    · rw [h₂, hthreshold, lookup_cons_of_ne hne, List.lookup_cons_self]
    · rw [lookup_of_whitelisted hwhite (by simp [h₁, h₂]), lookup_cons_of_ne h₁,
        lookup_cons_of_ne h₂, List.lookup_nil]

/-- Looking up a key in the fields whose keys are kept. -/
theorem lookup_filter_keys (keep : String → Bool) (fields : List (String × JsonValue))
    (key : String) : (fields.filter fun field => keep field.1).lookup key =
      if keep key then fields.lookup key else none := by
  induction fields with
  | nil => simp
  | cons field fields ih =>
    obtain ⟨key', value⟩ := field
    by_cases hsame : key = key'
    · subst hsame
      cases hkeep : keep key with
      | true => simp [hkeep]
      | false => rw [List.filter_cons_of_neg (by simp [hkeep]), ih, hkeep]; rfl
    · cases hkeep : keep key' with
      | true =>
        rw [List.filter_cons_of_pos (by simpa using hkeep), lookup_cons_of_ne hsame,
          lookup_cons_of_ne hsame, ih]
      | false =>
        rw [List.filter_cons_of_neg (by simp [hkeep]), lookup_cons_of_ne hsame, ih]

/-- The declared keys of an accepted config, as the mapper writes them. -/
theorem validateRuleConfig_declared {ruleType : RewardRuleType} {input : ConfigInput}
    {config : RuleConfig} (h : validateRuleConfig ruleType input = .ok config) :
    ∃ fields, input = .object fields ∧
      ∀ key, (plainToInstance fields).lookup key = config.fields.lookup key := by
  rcases validateRuleConfig_cases h with ⟨fields, c, hinput, hdto, rfl⟩ |
    ⟨fields, c, hinput, hdto, rfl⟩ | ⟨fields, c, hinput, hdto, rfl⟩
  · obtain ⟨p, hp, rfl⟩ := Option.map_eq_some_iff.mp hdto
    exact ⟨fields, hinput, thresholdConfig_lookup (by decide) hp⟩
  · obtain ⟨p, hp, rfl⟩ := Option.map_eq_some_iff.mp hdto
    exact ⟨fields, hinput, thresholdConfig_lookup (by decide) hp⟩
  · refine ⟨fields, hinput, ?_⟩
    intro key
    unfold FinalRuleConfigDto at hdto
    split at hdto
    · next hwhite =>
      split at hdto
      · next ids hids =>
        cases hdto
        by_cases hkey : key = "prerequisiteRuleIds"
        · rw [hkey, hids]
          rfl
        · rw [lookup_of_whitelisted hwhite (by simp [hkey]), RuleConfig.fields,
            lookup_cons_of_ne hkey, List.lookup_nil]
      · cases hdto
    · cases hdto

/-- An accepted config was submitted with the rule type, the declared keys that the mapper
writes and the further ones that no check has seen. -/
theorem validateRuleConfig_fields {ruleType : RewardRuleType} {input : ConfigInput}
    {config : RuleConfig} (h : validateRuleConfig ruleType input = .ok config) :
    config.ruleType = ruleType ∧ ∃ fields, input = .object fields ∧
      ∀ key, fields.lookup key = (config.fields ++ input.further).lookup key := by
  have htype : config.ruleType = ruleType := by
    unfold validateRuleConfig at h
    cases ruleType with
    | other name => cases h
    | PER_CONDITION =>
      cases hv : validateSync PerConditionRuleConfigDto input <;> rw [hv] at h <;> cases h
      rfl
    | STAGE =>
      cases hv : validateSync StageRuleConfigDto input <;> rw [hv] at h <;> cases h
      rfl
    | FINAL =>
      cases hv : validateSync FinalRuleConfigDto input <;> rw [hv] at h <;> cases h
      rfl
  obtain ⟨fields, rfl, hdeclared⟩ := validateRuleConfig_declared h
  refine ⟨htype, fields, rfl, ?_⟩
  intro key
  rw [List.lookup_append, ← hdeclared, plainToInstance, ConfigInput.further,
    lookup_filter_keys (fun key => !inheritedKeys.contains key),
    lookup_filter_keys (fun key => inheritedKeys.contains key)]
  cases inheritedKeys.contains key <;> simp

/-! ## Accepted configs -/

/-- The config of every stored rule was accepted by the validator. -/
def Db.ConfigsAccepted (db : Db) : Prop :=
  ∀ event ∈ db.events, ∀ rule ∈ event.rewardRules,
    ∃ ruleType config, validateRuleConfig ruleType config = .ok rule.config

/-- Where the rules of an event come from when `command` has been committed. -/
inductive RulesFrom (command : Command) (db : Db) (event' : EventDocument) : Prop where
  | nothing (hrules : event'.rewardRules = [])
  | same (event : EventDocument) (hevent : event ∈ db.events)
      (hkeys : event'.rewardRules.map RewardRuleDocument.key =
        event.rewardRules.map RewardRuleDocument.key)
  | added (event : EventDocument) (hevent : event ∈ db.events) (dto : RewardAddRequestDto)
      (newRuleId : ObjectId) (ruleType : RewardRuleType) (input : ConfigInput)
      (config : RuleConfig) (hcommand : command = .addReward dto newRuleId)
      (hconfig : validateRuleConfig ruleType input = .ok config)
      (hkeys : event'.rewardRules.map RewardRuleDocument.key =
        event.rewardRules.map RewardRuleDocument.key ++ [(newRuleId, config)])

theorem Added.rulesFrom {dto : RewardAddRequestDto} {newRuleId : ObjectId}
    {response : RewardRuleDto} {snap db db' : Db} (h : Added snap dto newRuleId response db db')
    {event' : EventDocument} (hevent' : event' ∈ db'.events) :
    RulesFrom (.addReward dto newRuleId) db event' := by
  cases h with
  | item event rule item hevent hrule hid hname hcast hresponse =>
    cases mem_updateFirst hevent' with
    | inl hold => exact .same event' hold rfl
    | inr hnew =>
      obtain ⟨e₀, he₀, -, rfl⟩ := hnew
      exact .same e₀ he₀ (pushItem_keys rule._id item e₀)
  | rule event newRule config item hevent hid hname hnew hcast hconfig hvalid hitem hresponse =>
    cases mem_updateFirst hevent' with
    | inl hold => exact .same event' hold rfl
    | inr hnew =>
      obtain ⟨e₀, he₀, -, rfl⟩ := hnew
      exact .added e₀ he₀ dto newRuleId newRule.ruleType newRule.config config rfl hconfig
        (by simp [RewardRuleDocument.key])

/-- Only `addReward` brings in rules, one at a time, at the end, with an accepted config. -/
theorem perform_rulesFrom {command : Command} {snap db db' : Db}
    (h : perform command snap db = some db') {event' : EventDocument}
    (hevent' : event' ∈ db'.events) : RulesFrom command db event' := by
  cases command with
  | addReward dto newRuleId =>
    by_cases hused : db.hasRule newRuleId = true
    · simp [perform, hused] at h
    · simp only [perform, hused] at h
      obtain ⟨response, h⟩ := committed_eq_some h
      exact (RewardService.addReward_added h).rulesFrom hevent'
  | createEvent dto newId validatedAt createdAt =>
    obtain ⟨response, h⟩ := committed_eq_some h
    obtain ⟨event, -, hrules, -, -, -, -, rfl⟩ := EventService.create_writes h
    cases List.mem_append.mp hevent' with
    | inl hold => exact .same event' hold rfl
    | inr hnew =>
      cases List.mem_singleton.mp hnew
      exact .nothing hrules
  | updateStatus dto =>
    obtain ⟨response, h⟩ := committed_eq_some h
    rcases EventService.updateStatus_writes h with rfl | ⟨_id, status, -, rfl⟩
    · exact .same event' hevent' rfl
    · cases mem_updateFirst hevent' with
      | inl hold => exact .same event' hold rfl
      | inr hnew =>
        obtain ⟨e₀, he₀, -, rfl⟩ := hnew
        exact .same e₀ he₀ rfl
  | createUserActivity dto newId now =>
    obtain ⟨response, h⟩ := committed_eq_some h
    obtain ⟨activities, rfl⟩ := UserActivityService.create_writes h
    exact .same event' hevent' rfl
  | createRewardRequest eventId dto newId checkedAt requestedAt =>
    obtain ⟨response, h⟩ := committed_eq_some h
    obtain ⟨event, granted, r, -, -, -, -, -, rfl⟩ :=
      RewardRequestService.createRewardRequest_writes h
    exact .same event' hevent' rfl
  | approveRewardRequest dto now savedAt =>
    obtain ⟨response, h⟩ := committed_eq_some h
    rw [RewardRequestService.approveRewardRequest_eq_error] at h
    cases h

theorem configsAccepted_of_rulesFrom {command : Command} {db db' : Db}
    (h : ∀ event' ∈ db'.events, RulesFrom command db event') (hdb : db.ConfigsAccepted) :
    db'.ConfigsAccepted := by
  have hkey : ∀ event ∈ db.events, ∀ key ∈ event.rewardRules.map RewardRuleDocument.key,
      ∃ ruleType config, validateRuleConfig ruleType config = .ok key.2 := by
    intro event hevent key hmem
    obtain ⟨rule, hrule, rfl⟩ := List.mem_map.mp hmem
    exact hdb event hevent rule hrule
  intro event' hevent' rule hrule
  have hmem : rule.key ∈ event'.rewardRules.map RewardRuleDocument.key := List.mem_map_of_mem hrule
  cases h event' hevent' with
  | nothing hrules =>
    rw [hrules] at hrule
    cases hrule
  | same event hevent hkeys =>
    rw [hkeys] at hmem
    exact hkey event hevent rule.key hmem
  | added event hevent dto newRuleId ruleType input config hcommand hconfig hkeys =>
    rw [hkeys] at hmem
    rcases List.mem_append.mp hmem with hold | hnew
    · exact hkey event hevent rule.key hold
    · have hsame : rule.config = config := congrArg Prod.snd (List.mem_singleton.mp hnew)
      exact ⟨ruleType, input, hsame ▸ hconfig⟩

theorem Added.configsAccepted {dto : RewardAddRequestDto} {newRuleId : ObjectId}
    {response : RewardRuleDto} {snap db db' : Db} (h : Added snap dto newRuleId response db db')
    (hdb : db.ConfigsAccepted) : db'.ConfigsAccepted :=
  configsAccepted_of_rulesFrom (fun _ hevent' => h.rulesFrom hevent') hdb

theorem perform_configsAccepted {command : Command} {snap db db' : Db}
    (h : perform command snap db = some db') (hdb : db.ConfigsAccepted) : db'.ConfigsAccepted :=
  configsAccepted_of_rulesFrom (fun _ hevent' => perform_rulesFrom h hevent') hdb

theorem ReachableService.configsAccepted {κ : Type} [DecidableEq κ] {s : ServiceState κ}
    (h : ReachableService s) : s.db.ConfigsAccepted :=
  reachable_log perform_preserves (fun _ db => db.ConfigsAccepted) WellFormed.empty
    (by simp [Db.ConfigsAccepted, Db.empty])
    (fun _ _ _ _ _ _ _ _ hdb hperform => perform_configsAccepted hperform hdb) h

/-- The rules of a stored event have distinct ids and configs that their checks accept. -/
theorem ReachableService.acceptedRules {κ : Type} [DecidableEq κ] {s : ServiceState κ}
    (h : ReachableService s) {event : EventDocument} (hevent : event ∈ s.db.events) :
    AcceptedRules event.rewardRules :=
  ⟨(h.coherent.db.events.rules event hevent).ids, h.configsAccepted event hevent⟩

/-! ## Calls that go through -/

theorem EventRepository.findById_of_mem {db : Db} (hwf : WellFormed db) {event : EventDocument}
    (hevent : event ∈ db.events) {eventId : String}
    (hid : ObjectId.ofString eventId = some event._id) :
    EventRepository.findById db eventId = .ok (some event) := by
  rw [EventRepository.findById, parseId_eq_ok.mpr hid]
  exact congrArg Except.ok (find?_key_of_mem EventDocument._id hwf.events.ids hevent)

theorem toString_ne_empty (id : ObjectId) : id.toString ≠ "" := by
  intro h
  have hlen := id.length_hex
  have hnil : id.hex = [] := by
    have hlist := congrArg String.toList h
    simpa [ObjectId.toString] using hlist
  rw [hnil] at hlen
  cases hlen

/-- The call names a rule of the event, for an item that can be cast. -/
structure NamesRule (event : EventDocument) (dto : RewardAddRequestDto) (rule : RewardRuleDocument)
    (item : RewardItem) : Prop where
  mem : rule ∈ event.rewardRules
  name : dto.ruleId = rule._id.toString
  cast : dto.rewardItem.cast = some item

/-- The call makes a rule, and all rules of the event are valid with it. -/
structure MakesRule (event : EventDocument) (dto : RewardAddRequestDto) (newRule : NewRuleDto)
    (config : RuleConfig) (item : RewardItem) : Prop where
  name : dto.ruleId = ""
  newRule_eq : dto.newRule = some newRule
  config_eq : validateRuleConfig newRule.ruleType newRule.config = .ok config
  cast : dto.rewardItem.cast = some item
  rules_valid : ∀ rule ∈ event.rewardRules, rule.valid = true
  item_valid : item.valid = true

theorem NamesRule.unique {event : EventDocument} (hrules : RulesWellFormed event)
    {dto : RewardAddRequestDto} {rule rule' : RewardRuleDocument} {item item' : RewardItem}
    (h : NamesRule event dto rule item) (h' : NamesRule event dto rule' item') :
    rule = rule' ∧ item = item' := by
  have hid : rule._id = rule'._id := ObjectId.toString_injective (h.name.symm.trans h'.name)
  exact ⟨List.inj_on_of_nodup_map hrules.ids h.mem h'.mem hid,
    Option.some.inj (h.cast.symm.trans h'.cast)⟩

theorem MakesRule.unique {event : EventDocument} {dto : RewardAddRequestDto}
    {newRule newRule' : NewRuleDto} {config config' : RuleConfig} {item item' : RewardItem}
    (h : MakesRule event dto newRule config item)
    (h' : MakesRule event dto newRule' config' item') : newRule = newRule' ∧ item = item' :=
  ⟨Option.some.inj (h.newRule_eq.symm.trans h'.newRule_eq),
    Option.some.inj (h.cast.symm.trans h'.cast)⟩

/-- A call on a stored event, by what it names. -/
theorem addReward_eq {snap : Db} (hwf : WellFormed snap) {event : EventDocument}
    (hevent : event ∈ snap.events) {dto : RewardAddRequestDto}
    (hon : ObjectId.ofString dto.eventId = some event._id) (db : Db) (newRuleId : ObjectId) :
    RewardService.addReward snap db dto newRuleId = transact
      (if dto.ruleId ≠ "" then addRewardToExistingRule db dto.eventId dto.ruleId dto.rewardItem
      else match dto.newRule with
        | some newRule => addRewardToNewRule db event dto.rewardItem newRule newRuleId
        | none => throwEvent .REWARD_ADDITION_FAILED) := by
  rw [RewardService.addReward, EventRepository.findById_of_mem hwf hevent hon]
  rfl

theorem find?_query {db : Db} (hids : (db.events.map EventDocument._id).Nodup)
    {event : EventDocument} (hevent : event ∈ db.events) {rule : RewardRuleDocument}
    (hrule : rule ∈ event.rewardRules) :
    db.events.find? (fun e => e._id == event._id && e.rewardRules.any fun r => r._id == rule._id) =
      some event := by
  have hquery : (event._id == event._id &&
      event.rewardRules.any fun r => r._id == rule._id) = true := by
    rw [beq_self_eq_true, Bool.true_and, List.any_eq_true]
    exact ⟨rule, hrule, by simp⟩
  cases hfind : db.events.find? (fun e =>
      e._id == event._id && e.rewardRules.any fun r => r._id == rule._id) with
  | none => exact absurd hquery (List.find?_eq_none.mp hfind event hevent)
  | some e =>
    have he := List.find?_some hfind
    rw [Bool.and_eq_true, beq_iff_eq] at he
    rw [List.inj_on_of_nodup_map hids (List.mem_of_find?_eq_some hfind) hevent he.1]

/-- The canonical spelling is found again after the update. -/
theorem find?_canonical {event : EventDocument} (hids : (event.rewardRules.map
    RewardRuleDocument._id).Nodup) {rule : RewardRuleDocument} (hrule : rule ∈ event.rewardRules)
    (rewardItem : RewardItem) :
    (event.pushItem rule._id rewardItem).rewardRules.find?
      (fun r => r._id.toString == rule._id.toString) = some (rule.pushItem rewardItem) := by
  rw [canonical_query, EventDocument.pushItem,
    find?_updateFirst (by simp [RewardRuleDocument.pushItem]),
    find?_key_of_mem RewardRuleDocument._id hids hrule]
  rfl

/-- A call that names a rule of the event goes through. -/
theorem NamesRule.addReward_ok {db : Db} (hwf : WellFormed db) {event : EventDocument}
    (hevent : event ∈ db.events) {dto : RewardAddRequestDto} {rule : RewardRuleDocument}
    {item : RewardItem} (h : NamesRule event dto rule item)
    (hon : ObjectId.ofString dto.eventId = some event._id) (newRuleId : ObjectId) :
    ∃ response db', RewardService.addReward db db dto newRuleId = .ok (response, db') := by
  have hid : ObjectId.ofString dto.ruleId = some rule._id := by
    rw [h.name]
    exact ObjectId.ofString_toString rule._id
  have hupdate := findByIdAndUpdate_eq db hon hid h.cast
  rw [find?_query hwf.events.ids hevent h.mem] at hupdate
  -- the rule is looked up again by the spelling that the call has used
  have hagain : ((event.pushItem rule._id item).rewardRules.find?
      fun r => r._id.toString == dto.ruleId) = some (rule.pushItem item) := by
    rw [h.name]
    exact find?_canonical (hwf.events.rules event hevent).ids h.mem item
  have hexisting : addRewardToExistingRule db dto.eventId dto.ruleId dto.rewardItem =
      .ok ({ (rule.pushItem item).entry with furtherConfig := rule.furtherConfig },
        db.pushItem event._id rule._id item) := by
    rw [addRewardToExistingRule, hupdate]
    simp only [Bind.bind, Except.bind, Option.map_some, hagain]
    rfl
  have hne : dto.ruleId ≠ "" := by
    rw [h.name]
    exact toString_ne_empty _
  rw [addReward_eq hwf hevent hon, if_pos hne, hexisting]
  exact ⟨_, _, rfl⟩

/-- A call that makes a rule goes through. -/
theorem MakesRule.addReward_ok {db : Db} (hwf : WellFormed db) {event : EventDocument}
    (hevent : event ∈ db.events) {dto : RewardAddRequestDto} {newRule : NewRuleDto}
    {config : RuleConfig} {item : RewardItem} (h : MakesRule event dto newRule config item)
    (hon : ObjectId.ofString dto.eventId = some event._id) (newRuleId : ObjectId) :
    ∃ response db', RewardService.addReward db db dto newRuleId = .ok (response, db') := by
  let rule : RewardRuleDocument := ⟨newRuleId, config, newRule.config.further, [item]⟩
  have hvalid : ∀ r ∈ event.rewardRules ++ [rule], r.valid = true := by
    intro r hr
    cases List.mem_append.mp hr with
    | inl hold => exact h.rules_valid r hold
    | inr hnew =>
      cases List.mem_singleton.mp hnew
      simp [rule, RewardRuleDocument.valid, h.item_valid]
  have hsave := upsert_eq_ok.mpr ⟨hvalid, ⟨event, hevent, rfl⟩, rfl⟩
  have hnew : addRewardToNewRule db event dto.rewardItem newRule newRuleId =
      .ok (⟨newRuleId.toString, config, newRule.config.further, [dto.rewardItem.json]⟩,
        db.pushRule event._id rule) := by
    rw [addRewardToNewRule, h.config_eq]
    simp only [Bind.bind, Except.bind, h.cast]
    rw [hsave]
  rw [addReward_eq hwf hevent hon, if_neg (not_not.mpr h.name), h.newRule_eq]
  simp only [hnew]
  exact ⟨_, _, rfl⟩

end MapleRewards
