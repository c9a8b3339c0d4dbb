import MapleRewards.Engine
import MapleRewards.Lib.Collection

/-!
# What one run of the engine grants

`RewardEngine.run` is one pass that chooses rules, so its two outputs list the ids
and the items of the same chosen rules, in rule order. The chosen rules are then
described over the rule documents that the run was given.
-/
namespace MapleRewards

open OnePass

/-- The rules that a run newly grants. -/
def RewardEngine.granted (rules : List RewardRule) (activity : Activity)
    (pastRuleIds : List String) : List RewardRule :=
  choose RewardRule.id (RewardRule.grants rules activity) rules (setOf pastRuleIds)

def RewardEngine.grantedOn (allRules : RewardRule → List RewardRule) (rules : List RewardRule)
    (activity : Activity) (pastRuleIds : List String) : List RewardRule :=
  choose RewardRule.id (fun rule => rule.grants (allRules rule) activity) rules
    (setOf pastRuleIds)

theorem RewardRule.grants_fresh {allRules : List RewardRule} {activity : Activity}
    (rule : RewardRule) (ruleIds : List String)
    (h : rule.grants allRules activity ruleIds = true) : rule.id ∉ ruleIds := by
  simp only [RewardRule.grants, Bool.and_eq_true, Bool.not_eq_true', List.contains_eq_mem,
    decide_eq_false_iff_not] at h
  exact h.1

theorem RewardEngine.visit_eq (rules : List RewardRule) (activity : Activity)
    (acc : List String × List RewardItem) (rule : RewardRule) :
    RewardEngine.visit rules activity acc rule =
      if rule.grants rules activity acc.1 then (acc.1 ++ [rule.id], acc.2 ++ rule.rewardItems)
      else acc := by
  simp only [RewardEngine.visit, RewardRule.apply_eq]
  by_cases h : rule.grants rules activity acc.1 = true
  · cases hitems : rule.rewardItems <;> simp [h]
  · simp [h]

/-- The loop over any part of the rules is a pass over that part. -/
theorem RewardEngine.foldl_visit (allRules : RewardRule → List RewardRule) (activity : Activity)
    (todo : List RewardRule) (acc : List String × List RewardItem) :
    todo.foldl (fun acc rule => RewardEngine.visit (allRules rule) activity acc rule) acc =
      (heldAfter RewardRule.id (fun rule => rule.grants (allRules rule) activity) todo acc.1,
        acc.2 ++ (choose RewardRule.id (fun rule => rule.grants (allRules rule) activity) todo
          acc.1).flatMap RewardRule.rewardItems) := by
  induction todo generalizing acc with
  | nil => simp [heldAfter]
  | cons rule todo ih =>
    rw [List.foldl_cons, RewardEngine.visit_eq, ih]
    by_cases h : rule.grants (allRules rule) activity acc.1 = true
    · simp [h, heldAfter, choose]
    · simp [h, heldAfter, choose]

/-- The new ids and the rewards are read off the same list of granted rules. -/
theorem RewardEngine.runOn_eq (allRules : RewardRule → List RewardRule) (rules : List RewardRule)
    (activity : Activity) (pastRuleIds : List String) :
    RewardEngine.runOn allRules rules activity pastRuleIds =
      ⟨(RewardEngine.grantedOn allRules rules activity pastRuleIds).map RewardRule.id,
        (RewardEngine.grantedOn allRules rules activity pastRuleIds).flatMap
          RewardRule.rewardItems⟩ := by
  have hpast : (setOf pastRuleIds).filter (fun id => !pastRuleIds.contains id) = [] := by
    rw [List.filter_eq_nil_iff]
    intro id hid
    simpa using hid
  have hnew : ((RewardEngine.grantedOn allRules rules activity pastRuleIds).map
      RewardRule.id).filter (fun id => !pastRuleIds.contains id) =
      (RewardEngine.grantedOn allRules rules activity pastRuleIds).map RewardRule.id := by
    rw [List.filter_eq_self]
    intro id hid
    obtain ⟨rule, hrule, rfl⟩ := List.mem_map.mp hid
    have h := key_not_mem_held _ _ (fun rule ruleIds => rule.grants_fresh ruleIds) hrule
    simpa using h
  unfold RewardEngine.runOn
  rw [RewardEngine.foldl_visit]
  simp only [heldAfter, List.filter_append, hpast, List.nil_append]
  rw [show choose RewardRule.id (fun rule => rule.grants (allRules rule) activity) rules
    (setOf pastRuleIds) = RewardEngine.grantedOn allRules rules activity pastRuleIds from rfl, hnew]

theorem RewardEngine.run_eq (rules : List RewardRule) (activity : Activity)
    (pastRuleIds : List String) :
    RewardEngine.run rules activity pastRuleIds =
      ⟨(RewardEngine.granted rules activity pastRuleIds).map RewardRule.id,
        (RewardEngine.granted rules activity pastRuleIds).flatMap RewardRule.rewardItems⟩ := by
  exact RewardEngine.runOn_eq (fun _ => rules) rules activity pastRuleIds

/-! ## Over the rule documents -/

def Built (doc : RewardRuleDocument) (rule : RewardRule) : Prop := ruleFromDoc doc = .ok rule

theorem createRulesFromDocs_built {docs : List RewardRuleDocument} {rules : List RewardRule}
    (h : createRulesFromDocs docs = .ok rules) : List.Forall₂ Built docs rules := by
  induction docs generalizing rules with
  | nil =>
    cases h
    exact List.Forall₂.nil
  | cons doc docs ih =>
    obtain ⟨rule, hrule, h⟩ := bind_eq_ok h
    obtain ⟨rest, hrest, h⟩ := bind_eq_ok h
    cases h
    exact List.Forall₂.cons hrule (ih hrest)

theorem Built.id_eq {doc : RewardRuleDocument} {rule : RewardRule} (h : Built doc rule) :
    doc._id.toString = rule.id := by
  unfold Built ruleFromDoc at h
  split at h <;> cases h <;> rfl

theorem Built.rewardItems_eq {doc : RewardRuleDocument} {rule : RewardRule} (h : Built doc rule) :
    doc.rewardItems = rule.rewardItems := by
  unfold Built ruleFromDoc at h
  split at h <;> cases h <;> rfl

theorem Built.stage {doc : RewardRuleDocument} {rule : RewardRule} {config : StageRuleConfig}
    (h : Built doc rule) (hc : doc.config = .stage config) :
    rule = .stage ⟨doc._id.toString, doc.rewardItems, config⟩ := by
  unfold Built ruleFromDoc at h
  rw [hc] at h
  cases h
  rfl

theorem Built.stage_config {doc : RewardRuleDocument} {rule : RewardRule} {r : StageRule}
    (h : Built doc rule) (hr : rule.asStage = some r) : ∃ config, doc.config = .stage config := by
  unfold Built ruleFromDoc at h
  split at h
  · cases h
    cases hr
  · next config hc => exact ⟨config, hc⟩
  · cases h
    cases hr
  · cases h

theorem Built.final {doc : RewardRuleDocument} {rule : RewardRule} {config : FinalRuleConfig}
    (h : Built doc rule) (hc : doc.config = .final config) :
    rule = .final ⟨doc._id.toString, doc.rewardItems, config⟩ := by
  unfold Built ruleFromDoc at h
  rw [hc] at h
  cases h
  rfl

theorem built_map_eq {docs : List RewardRuleDocument} {rules : List RewardRule}
    (h : List.Forall₂ Built docs rules) :
    docs.map (fun doc => doc._id.toString) = rules.map RewardRule.id := by
  induction h with
  | nil => rfl
  | cons hb _ ih => rw [List.map_cons, List.map_cons, hb.id_eq, ih]

theorem built_flatMap_eq {docs : List RewardRuleDocument} {rules : List RewardRule}
    (h : List.Forall₂ Built docs rules) :
    docs.flatMap RewardRuleDocument.rewardItems = rules.flatMap RewardRule.rewardItems := by
  induction h with
  | nil => rfl
  | cons hb _ ih => rw [List.flatMap_cons, List.flatMap_cons, hb.rewardItems_eq, ih]

/-- A rule is the first of the list with its config. -/
def FirstOfConfig (keys : List (ObjectId × RuleConfig)) (key : ObjectId × RuleConfig) : Prop :=
  ∃ before after, keys = before ++ key :: after ∧ ∀ k ∈ before, k.2 ≠ key.2

theorem FirstOfConfig.mono {keys keys' : List (ObjectId × RuleConfig)}
    {key : ObjectId × RuleConfig} (h : FirstOfConfig keys key) (hpre : keys <+: keys') :
    FirstOfConfig keys' key := by
  obtain ⟨before, after, rfl, hbefore⟩ := h
  obtain ⟨extra, rfl⟩ := hpre
  exact ⟨before, after ++ extra, by simp, hbefore⟩

/-- At most one rule of a list is the first with a given config. -/
theorem FirstOfConfig.unique {keys : List (ObjectId × RuleConfig)} {k k' : ObjectId × RuleConfig}
    (h : FirstOfConfig keys k) (h' : FirstOfConfig keys k') (hc : k.2 = k'.2) : k = k' := by
  obtain ⟨before, after, he, hbefore⟩ := h
  obtain ⟨before', after', he', hbefore'⟩ := h'
  rw [he] at he'
  rcases List.append_eq_append_iff.mp he' with ⟨mid, hb, hm⟩ | ⟨mid, hb, hm⟩
  · cases mid with
    | nil => exact (List.cons.inj hm).1
    | cons m mid =>
      obtain ⟨rfl, -⟩ := List.cons.inj hm
      exact absurd hc (hbefore' k (by rw [hb]; simp))
  · cases mid with
    | nil => exact (List.cons.inj hm).1.symm
    | cons m mid =>
      obtain ⟨rfl, -⟩ := List.cons.inj hm
      exact absurd hc.symm (hbefore k' (by rw [hb]; simp))

/-- What is known of the documents whose rules a run grants: `docs` is the rule list
of the event and `past` the ids that were already paid. -/
structure GrantedDocs (docs : List RewardRuleDocument) (past : List String)
    (granted : List RewardRuleDocument) : Prop where
  sublist : granted.Sublist docs
  nodup : (granted.map RewardRuleDocument._id).Nodup
  fresh : ∀ doc ∈ granted, doc._id.toString ∉ past
  prerequisites : ∀ doc ∈ granted, ∀ config, doc.config = .final config →
    ∀ rid ∈ config.prerequisiteRuleIds, ∃ id, rid = .str id ∧
      (id ∈ past ∨ ∃ d ∈ granted, d._id.toString = id)
  first : ∀ doc ∈ granted, ∀ config, doc.config = .stage config →
    FirstOfConfig (docs.map RewardRuleDocument.key) doc.key

section Documents

variable (rules : List RewardRule) (activity : Activity)

/-- `RewardRule.grants` for the rule that a document describes. -/
def docGrants (doc : RewardRuleDocument) (ruleIds : List String) : Bool :=
  match ruleFromDoc doc with
  | .ok rule => rule.grants rules activity ruleIds
  | .error _ => false

theorem docGrants_built {doc : RewardRuleDocument} {rule : RewardRule} (h : Built doc rule)
    (ruleIds : List String) :
    docGrants rules activity doc ruleIds = rule.grants rules activity ruleIds := by
  have he : ruleFromDoc doc = .ok rule := h
  simp [docGrants, he]

theorem docGrants_fresh (doc : RewardRuleDocument) (ruleIds : List String)
    (h : docGrants rules activity doc ruleIds = true) : doc._id.toString ∉ ruleIds := by
  cases he : ruleFromDoc doc with
  | error err => simp [docGrants, he] at h
  | ok rule =>
    have hb : Built doc rule := he
    rw [docGrants_built rules activity hb] at h
    rw [hb.id_eq]
    exact rule.grants_fresh ruleIds h

theorem stageRewarded_mono {held held' : List String} {threshold : Rat}
    (hsub : ∀ id ∈ held, id ∈ held') (h : stageRewarded rules held threshold = true) :
    stageRewarded rules held' threshold = true := by
  simp only [stageRewarded, List.any_eq_true, Bool.and_eq_true, List.contains_iff_mem] at h ⊢
  obtain ⟨r, hr, hid, ht⟩ := h
  exact ⟨r, hr, hsub _ hid, ht⟩

theorem docGrants_stage {doc : RewardRuleDocument} {config : StageRuleConfig} {held : List String}
    (hc : doc.config = .stage config) :
    docGrants rules activity doc held =
      (!held.contains doc._id.toString &&
        ((⟨"", [], config⟩ : StageRule).reached activity &&
          !stageRewarded rules held config.stageThreshold)) := by
  simp [docGrants, ruleFromDoc, hc, RewardRule.grants, RewardRule.id, StageRule.reached]

/-- A granted FINAL rule found every prerequisite in the set on its turn. -/
theorem granted_final_prerequisites {doc : RewardRuleDocument} {config : FinalRuleConfig}
    {docs : List RewardRuleDocument} {held : List String}
    (h : doc ∈ choose (fun d => d._id.toString) (docGrants rules activity) docs held)
    (hc : doc.config = .final config) : ∀ rid ∈ config.prerequisiteRuleIds, ∃ id, rid = .str id ∧
      id ∈ heldAfter (fun d => d._id.toString) (docGrants rules activity) docs held := by
  obtain ⟨before, after, he, hacc⟩ := accepts_of_mem_choose _ _ h
  have hall : config.prerequisiteRuleIds.all (hasElement
      (heldAfter (fun d => d._id.toString) (docGrants rules activity) before held)) = true := by
    simp only [docGrants, ruleFromDoc, hc, RewardRule.grants, Bool.and_eq_true] at hacc
    exact hacc.2
  intro rid hrid
  have hhas := List.all_eq_true.mp hall rid hrid
  cases rid with
  | other text => cases hhas
  | str id =>
    refine ⟨id, rfl, ?_⟩
    rw [he]
    exact heldAfter_mono _ _ before (doc :: after) held id (by simpa [hasElement] using hhas)

variable {rules} {docs : List RewardRuleDocument} (hbuilt : List.Forall₂ Built docs rules)
include hbuilt

/-- A stage document of the list whose id is held blocks its threshold. -/
theorem stageRewarded_of_mem {doc : RewardRuleDocument} {config : StageRuleConfig}
    {held : List String} (hdoc : doc ∈ docs) (hc : doc.config = .stage config)
    (hid : doc._id.toString ∈ held) : stageRewarded rules held config.stageThreshold = true := by
  obtain ⟨rule, hrule, hb⟩ := Collection.mem_of_forall₂ hbuilt.flip hdoc
  have hst := Built.stage hb hc
  subst hst
  simp only [stageRewarded, List.any_eq_true, Bool.and_eq_true, List.contains_iff_mem,
    List.mem_filterMap]
  exact ⟨_, ⟨_, hrule, rfl⟩, hid, by simp⟩

/-- Of the stage rules with one metric and one threshold only the first in the list
is ever granted: it meets the same test earlier, against a smaller set. -/
theorem granted_stage_first {doc : RewardRuleDocument} {config : StageRuleConfig}
    {held : List String}
    (h : doc ∈ choose (fun d => d._id.toString) (docGrants rules activity) docs held)
    (hc : doc.config = .stage config) :
    FirstOfConfig (docs.map RewardRuleDocument.key) doc.key := by
  obtain ⟨before, after, he, hacc⟩ := accepts_of_mem_choose _ _ h
  refine ⟨before.map RewardRuleDocument.key, after.map RewardRuleDocument.key,
    by rw [he]; simp, ?_⟩
  intro k hk hkc
  obtain ⟨doc', hdoc', rfl⟩ := List.mem_map.mp hk
  have hc' : doc'.config = .stage config := by
    rw [← hc]
    exact hkc
  have hmem' : doc' ∈ docs := by
    rw [he]
    exact List.mem_append_left _ hdoc'
  rw [docGrants_stage rules activity hc] at hacc
  simp only [Bool.and_eq_true, Bool.not_eq_true'] at hacc
  obtain ⟨-, hreached, hclear⟩ := hacc
  obtain ⟨b₁, b₂, hb⟩ := List.append_of_mem hdoc'
  subst hb
  -- nothing held at the turn of `doc'` blocks the threshold either
  have hclear' : stageRewarded rules
      (heldAfter (fun d => d._id.toString) (docGrants rules activity) b₁ held)
      config.stageThreshold = false := by
    rw [Bool.eq_false_iff]
    intro hst
    rw [stageRewarded_mono rules (heldAfter_mono _ _ b₁ (doc' :: b₂) held) hst] at hclear
    cases hclear
  have hnew : doc'._id.toString ∉
      heldAfter (fun d => d._id.toString) (docGrants rules activity) b₁ held := by
    intro hid
    rw [stageRewarded_of_mem hbuilt hmem' hc' hid] at hclear'
    cases hclear'
  have hacc' : docGrants rules activity doc'
      (heldAfter (fun d => d._id.toString) (docGrants rules activity) b₁ held) = true := by
    rw [docGrants_stage rules activity hc']
    simp [hnew, hreached, hclear']
  have hheld := key_mem_heldAfter (fun d : RewardRuleDocument => d._id.toString)
    (docGrants rules activity) b₂ hacc'
  rw [stageRewarded_of_mem hbuilt hmem' hc' hheld] at hclear
  cases hclear

end Documents

/-- The documents whose rules a run grants, in the order of the event. -/
def grantedDocs (rules : List RewardRule) (activity : Activity) (docs : List RewardRuleDocument)
    (past : List String) : List RewardRuleDocument :=
  choose (fun doc => doc._id.toString) (docGrants rules activity) docs (setOf past)

theorem run_eq_grantedDocs {docs : List RewardRuleDocument} {rules : List RewardRule}
    (hbuilt : List.Forall₂ Built docs rules) (activity : Activity) (past : List String) :
    RewardEngine.run rules activity past =
      ⟨(grantedDocs rules activity docs past).map (fun doc => doc._id.toString),
        (grantedDocs rules activity docs past).flatMap RewardRuleDocument.rewardItems⟩ := by
  have hpair : List.Forall₂ Built (grantedDocs rules activity docs past)
      (RewardEngine.granted rules activity past) :=
    choose_forall₂ _ _ (R := Built) (fun _ _ hb => hb.id_eq)
      (fun _ _ held hb => docGrants_built rules activity hb held) hbuilt (setOf past)
  rw [RewardEngine.run_eq, built_map_eq hpair, built_flatMap_eq hpair]

theorem grantedDocs_grants {docs : List RewardRuleDocument} {rules : List RewardRule}
    (hbuilt : List.Forall₂ Built docs rules) (activity : Activity) (past : List String) :
    GrantedDocs docs past (grantedDocs rules activity docs past) := by
  refine ⟨choose_sublist _ _ docs _, ?_, ?_, ?_, ?_⟩
  · have hnd := choose_keys_nodup _ _ (docGrants_fresh rules activity) docs (setOf past)
    rw [show (fun doc : RewardRuleDocument => doc._id.toString) =
      ObjectId.toString ∘ RewardRuleDocument._id from rfl, ← List.map_map] at hnd
    exact hnd.of_map _
  · intro doc hdoc
    have hnew := key_not_mem_held _ _ (docGrants_fresh rules activity) hdoc
    simpa using hnew
  · intro doc hdoc config hc rid hrid
    obtain ⟨id, hid, hheld⟩ := granted_final_prerequisites rules activity hdoc hc rid hrid
    refine ⟨id, hid, ?_⟩
    rcases List.mem_append.mp hheld with hpast | hnew
    · exact Or.inl (by simpa using hpast)
    · obtain ⟨d, hd, he⟩ := List.mem_map.mp hnew
      exact Or.inr ⟨d, hd, he⟩
  · intro doc hdoc config hc
    exact granted_stage_first activity hbuilt hdoc hc

end MapleRewards
