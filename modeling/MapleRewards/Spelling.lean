import MapleRewards.AddReward
import MapleRewards.Stages

/-!
# The spellings of a rule id

The query of an update reads a rule id as an `ObjectId`, in either case. The lookup after
it and the prerequisites of a FINAL rule compare the string with the canonical spelling.
-/
namespace MapleRewards

open Collection OnePass LabelledRuns SnapshotStore

/-- A string that spells an id is its canonical spelling or that of no id. -/
theorem eq_toString_of_spells {spelling : String} {rid id : ObjectId}
    (h : ObjectId.ofString spelling = some rid) (heq : id.toString = spelling) :
    spelling = rid.toString := by
  rw [ofString_eq_of_toString heq] at h
  cases h
  exact heq.symm

/-! ## Adding an item -/

/-- The response to an item for a rule. -/
def RewardRuleDocument.answer (rule : RewardRuleDocument) (item : RewardItem) : RewardRuleDto :=
  { (rule.pushItem item).entry with furtherConfig := rule.furtherConfig }

/-- The call adds the item to the rule and answers with what the rule then holds. -/
def AddsItem (snap db : Db) (event : EventDocument) (rule : RewardRuleDocument) (item : RewardItem)
    (dto : RewardAddRequestDto) (newRuleId : ObjectId) : Prop :=
  RewardService.addReward snap db dto newRuleId =
    .ok (rule.answer item, db.pushItem event._id rule._id item)

/-- `addReward` for a rule of the event: only the canonical spelling of its id adds the item. -/
theorem addReward_spelled {snap db : Db} (hids : (db.events.map EventDocument._id).Nodup)
    {event : EventDocument} (hevent : event ∈ db.events)
    (hrules : (event.rewardRules.map RewardRuleDocument._id).Nodup) {rule : RewardRuleDocument}
    (hrule : rule ∈ event.rewardRules) {spelling : String}
    (hspelling : ObjectId.ofString spelling = some rule._id)
    (hsnap : ∃ e ∈ snap.events, e._id = event._id) {eventId : String}
    (heventId : ObjectId.ofString eventId = some event._id) {rewardItem : SubmittedItem}
    {item : RewardItem} (hcast : rewardItem.cast = some item) (newRule : Option NewRuleDto)
    (newRuleId : ObjectId) :
    RewardService.addReward snap db ⟨eventId, rewardItem, some ⟨some spelling, newRule⟩⟩ newRuleId =
      if spelling = rule._id.toString then
        .ok (rule.answer item, db.pushItem event._id rule._id item)
      else transact (throwEvent .REWARD_RULE_NOT_FOUND) := by
  have hfound : ∃ e, EventRepository.findById snap eventId = .ok (some e) := by
    obtain ⟨e, he, heid⟩ := hsnap
    have hsome : (snap.events.find? fun e => e._id == event._id).isSome = true := by
      rw [List.find?_isSome]
      exact ⟨e, he, by simp [heid]⟩
    obtain ⟨found, hfound⟩ := Option.isSome_iff_exists.mp hsome
    refine ⟨found, ?_⟩
    rw [EventRepository.findById, parseId_eq_ok.mpr heventId]
    exact congrArg Except.ok hfound
  obtain ⟨e, he⟩ := hfound
  have hname : spelling ≠ "" := by
    rintro rfl
    cases hspelling
  have hexisting : RewardService.addReward snap db
      ⟨eventId, rewardItem, some ⟨some spelling, newRule⟩⟩ newRuleId =
        transact (addRewardToExistingRule db eventId spelling rewardItem) := by
    simp [RewardService.addReward, he, hname, Bind.bind, Except.bind]
  rw [hexisting, addRewardToExistingRule, findByIdAndUpdate_eq db heventId hspelling hcast,
    find?_query hids hevent hrule]
  simp only [Bind.bind, Except.bind, Option.map_some]
  split
  · next hnone =>
    rw [if_neg]
    rintro rfl
    rw [find?_canonical hrules hrule] at hnone
    cases hnone
  · next updated hupdated =>
    obtain ⟨rule', hrule', hid, hcanonical, rfl⟩ := find?_pushItem hspelling hupdated
    have hsame : rule' = rule := List.inj_on_of_nodup_map hrules hrule' hrule hid
    subst hsame
    rw [if_pos hcanonical]
    rfl

/-- An item that cannot be cast is not added, to whatever rule. -/
theorem addReward_uncast {snap db : Db} {dto : RewardAddRequestDto} {newRuleId : ObjectId}
    (hcast : dto.rewardItem.cast = none) (p : RewardRuleDto × Db) :
    RewardService.addReward snap db dto newRuleId ≠ .ok p := by
  obtain ⟨response, db'⟩ := p
  intro hok
  cases RewardService.addReward_added hok with
  | item event rule item hevent hrule hid hname hitem hresponse =>
    rw [hcast] at hitem
    cases hitem
  | rule event newRule config item hevent hid hname hnew hitem hconfig hvalid hgood hresponse =>
    rw [hcast] at hitem
    cases hitem

/-! ## Waiting for a prerequisite -/

/-- The prerequisites with one spelling replaced by another. -/
def respell (spelling canonical : String) (rid : JsonElement) : JsonElement :=
  if rid = .str spelling then .str canonical else rid

/-- The FINAL rule as it would be with these prerequisites. -/
def RewardRuleDocument.waitingFor (rule : RewardRuleDocument)
    (prerequisiteRuleIds : List JsonElement) : RewardRuleDocument :=
  { rule with config := .final ⟨prerequisiteRuleIds⟩ }

theorem newlyGranted_final_iff {docs before after : List RewardRuleDocument}
    {final : RewardRuleDocument} (hids : (docs.map RewardRuleDocument._id).Nodup)
    {rules : List RewardRule} (hrules : createRulesFromDocs docs = .ok rules)
    (hdocs : docs = before ++ final :: after) {config : FinalRuleConfig}
    (hc : final.config = .final config) (activity : Activity) (past : List String) :
    NewlyGranted docs activity past final ↔ final._id.toString ∉ past ∧
      ∀ rid ∈ config.prerequisiteRuleIds,
        ∃ id, rid = .str id ∧ id ∈ turn activity past rules before := by
  rw [newlyGranted_iff hrules,
    newAchieved_iff activity past hids (createRulesFromDocs_built hrules) hdocs,
    docGrants_final activity hc, mem_turn_self activity past hids hdocs, List.all_eq_true]
  simp only [hasElement_iff]

/-- No string that a history may hold is the prerequisite, the id of the rule itself apart. -/
def Unmeetable (admits : String → Prop) (final : RewardRuleDocument) (rid : JsonElement) : Prop :=
  ∀ id, admits id → id ≠ final._id.toString → rid ≠ .str id

/-- The strings among the elements of an array. -/
def strings (ids : List JsonElement) : List String :=
  ids.filterMap fun rid =>
    match rid with
    | .str id => some id
    | .other _ => none

theorem mem_strings {ids : List JsonElement} {id : String} :
    id ∈ strings ids ↔ JsonElement.str id ∈ ids := by
  rw [strings, List.mem_filterMap]
  constructor
  · rintro ⟨rid, hrid, hid⟩
    cases rid with
    | str id' =>
      cases hid
      exact hrid
    | other text => cases hid
  · intro hid
    exact ⟨.str id, hid, rfl⟩

section Final

variable {docs before after : List RewardRuleDocument} {final : RewardRuleDocument}
  (hids : (docs.map RewardRuleDocument._id).Nodup) (hdocs : docs = before ++ final :: after)
include hids hdocs

theorem not_newlyGranted_of_unmeetable {config : FinalRuleConfig}
    (hc : final.config = .final config) {admits : String → Prop}
    (hcanonical : ∀ id : ObjectId, admits id.toString) {other : JsonElement}
    (hother : other ∈ config.prerequisiteRuleIds) (hunmeetable : Unmeetable admits final other)
    (activity : Activity) {past : List String} (hpast : ∀ id ∈ past, admits id) :
    ¬NewlyGranted docs activity past final := by
  intro hgranted
  obtain ⟨rules, hrules, -⟩ := id hgranted
  rw [newlyGranted_final_iff hids hrules hdocs hc] at hgranted
  obtain ⟨hnew, hall⟩ := hgranted
  obtain ⟨id, hstr, hid⟩ := hall other hother
  apply hunmeetable id _ _ hstr
  · rcases mem_turn_origin activity past hid with hold | ⟨doc, -, rfl⟩
    · exact hpast id hold
    · exact hcanonical doc._id
  · rintro rfl
    exact hnew ((mem_turn_self activity past hids hdocs).mp hid)

/-- A FINAL rule that is not among the past ids, and whose prerequisites all are, is granted. -/
theorem newlyGranted_of_past (hsupported : ∀ doc ∈ docs, ∀ ruleType,
      doc.config ≠ .unsupported ruleType) {config : FinalRuleConfig}
    (hc : final.config = .final config) (activity : Activity) {past : List String}
    (hnew : final._id.toString ∉ past)
    (hall : ∀ rid ∈ config.prerequisiteRuleIds, ∃ id, rid = .str id ∧ id ∈ past) :
    NewlyGranted docs activity past final := by
  obtain ⟨rules, hrules⟩ := built_of_supported hsupported
  rw [newlyGranted_final_iff hids hrules hdocs hc]
  refine ⟨hnew, ?_⟩
  intro rid hrid
  obtain ⟨id, hstr, hid⟩ := hall rid hrid
  exact ⟨id, hstr, mem_turn_of_past activity past before hid⟩

end Final

section Respelled

variable {docs before after : List RewardRuleDocument} {final rule : RewardRuleDocument}
  {spelling : String} {prerequisites : List JsonElement} {admits : String → Prop}

/-- A history with all prerequisites in their new spelling, and without the old one, grants
the one rule and not the other. -/
theorem exists_telling_history (hids : (docs.map RewardRuleDocument._id).Nodup)
    (hsupported : ∀ doc ∈ docs, ∀ ruleType, doc.config ≠ .unsupported ruleType)
    (hdocs : docs = before ++ final :: after)
    (hspelling : ObjectId.ofString spelling = some rule._id)
    (hc : final.config = .final ⟨prerequisites⟩) (hnamed : JsonElement.str spelling ∈ prerequisites)
    (hne : spelling ≠ rule._id.toString) {respelled : List JsonElement}
    (hmet : ∀ rid ∈ respelled, ∃ id, rid = .str id ∧ admits id ∧ id ≠ final._id.toString ∧
      id ≠ spelling) :
    ∃ past, (∀ id ∈ past, admits id) ∧ ¬NewlyGranted docs ⟨0, 0, 0⟩ past final ∧
      NewlyGranted (before ++ final.waitingFor respelled :: after) ⟨0, 0, 0⟩ past
        (final.waitingFor respelled) := by
  have hpast : ∀ id ∈ strings respelled, admits id ∧ id ≠ final._id.toString ∧
      id ≠ spelling := by
    intro id hid
    obtain ⟨id', heq, hid'⟩ := hmet (.str id) (mem_strings.mp hid)
    cases heq
    exact hid'
  refine ⟨strings respelled, fun id hid => (hpast id hid).1, ?_, ?_⟩
  · intro hgranted
    obtain ⟨rules, hrules, -⟩ := id hgranted
    rw [newlyGranted_final_iff hids hrules hdocs hc] at hgranted
    obtain ⟨id, heq, hid⟩ := hgranted.2 _ hnamed
    cases heq
    rcases mem_turn_origin _ _ hid with hold | ⟨doc, -, hdoc⟩
    · exact (hpast spelling hold).2.2 rfl
    · exact hne (eq_toString_of_spells hspelling hdoc)
  · have hids' : ((before ++ final.waitingFor respelled :: after).map
        RewardRuleDocument._id).Nodup := by
      simpa [hdocs, RewardRuleDocument.waitingFor] using hids
    refine newlyGranted_of_past hids' rfl ?_ rfl ⟨0, 0, 0⟩ (fun hid => (hpast _ hid).2.1 rfl) ?_
    · intro doc hdoc ruleType hunsupported
      rcases List.mem_append.mp hdoc with hbefore | hrest
      · exact hsupported doc (by simp [hdocs, hbefore]) ruleType hunsupported
      · rcases List.mem_cons.mp hrest with rfl | hafter
        · cases hunsupported
        · exact hsupported doc (by simp [hdocs, hafter]) ruleType hunsupported
    · intro rid hrid
      obtain ⟨id, rfl, -⟩ := hmet rid hrid
      exact ⟨id, rfl, mem_strings.mpr hrid⟩

theorem map_respell_self (ids : List JsonElement) :
    ids.map (respell spelling spelling) = ids := by
  conv_rhs => rw [← List.map_id ids]
  apply List.map_congr_left
  intro rid _
  by_cases hrid : rid = .str spelling
  · simp [respell, hrid]
  · simp [respell, hrid]

/-- A FINAL rule is granted alike with both spellings exactly when they are the same or
another prerequisite keeps it from being granted at all. -/
theorem granted_alike_iff (hids : (docs.map RewardRuleDocument._id).Nodup)
    (hsupported : ∀ doc ∈ docs, ∀ ruleType, doc.config ≠ .unsupported ruleType)
    (hdocs : docs = before ++ final :: after) (hrule : rule ∈ before)
    (hspelling : ObjectId.ofString spelling = some rule._id)
    (hc : final.config = .final ⟨prerequisites⟩) (hnamed : JsonElement.str spelling ∈ prerequisites)
    (hcanonical : ∀ id : ObjectId, admits id.toString) :
    (∀ activity past, (∀ id ∈ past, admits id) →
      (NewlyGranted docs activity past final ↔
        NewlyGranted (before ++ final.waitingFor
            (prerequisites.map (respell spelling rule._id.toString)) :: after) activity past
          (final.waitingFor (prerequisites.map (respell spelling rule._id.toString))))) ↔
      spelling = rule._id.toString ∨
        ∃ other ∈ prerequisites, other ≠ .str spelling ∧ Unmeetable admits final other := by
  constructor
  · intro halike
    by_contra hnot
    obtain ⟨hne, hmeetable⟩ := not_or.mp hnot
    have hown : rule._id ≠ final._id := by
      intro heq
      rw [hdocs, List.map_append, List.nodup_append] at hids
      exact hids.2.2 _ (List.mem_map_of_mem hrule) _ (by simp) heq
    have hmet : ∀ rid ∈ prerequisites.map (respell spelling rule._id.toString),
        ∃ id, rid = .str id ∧ admits id ∧ id ≠ final._id.toString ∧ id ≠ spelling := by
      intro rid hrid
      obtain ⟨other, hother, rfl⟩ := List.mem_map.mp hrid
      by_cases hsame : other = .str spelling
      · refine ⟨rule._id.toString, by simp [respell, hsame], hcanonical rule._id, ?_, Ne.symm hne⟩
        simpa using hown
      · by_contra hunmet
        apply hmeetable
        refine ⟨other, hother, hsame, ?_⟩
        rintro id hadmits hid rfl
        apply hunmet
        refine ⟨id, by simp [respell, hsame], hadmits, hid, ?_⟩
        rintro rfl
        exact hsame rfl
    obtain ⟨past, hpast, hrefused, hgranted⟩ :=
      exists_telling_history hids hsupported hdocs hspelling hc hnamed hne hmet
    exact hrefused ((halike ⟨0, 0, 0⟩ past hpast).mpr hgranted)
  · rintro (hsame | ⟨other, hother, hne, hunmeetable⟩) activity past hpast
    · have hself : final.waitingFor prerequisites = final := by
        rw [RewardRuleDocument.waitingFor, ← hc]
      rw [← hsame, map_respell_self, hself, ← hdocs]
    · have hother' : other ∈ prerequisites.map (respell spelling rule._id.toString) :=
        List.mem_map.mpr ⟨other, hother, by simp [respell, hne]⟩
      have hids' : ((before ++ final.waitingFor (prerequisites.map
          (respell spelling rule._id.toString)) :: after).map RewardRuleDocument._id).Nodup := by
        simpa [hdocs, RewardRuleDocument.waitingFor] using hids
      exact iff_of_false
        (not_newlyGranted_of_unmeetable hids hdocs hc hcanonical hother hunmeetable activity hpast)
        (not_newlyGranted_of_unmeetable hids' rfl rfl hcanonical hother' hunmeetable activity hpast)

end Respelled

/-! ## Both uses of an id -/

/-- A string that spells the id of a stored rule works like the canonical spelling for
`addReward` exactly when it is the canonical spelling, an item that cannot be added at all
apart, and as a prerequisite of a FINAL rule exactly when it is, or when the rule cannot be
granted anyway. Histories are drawn from any strings that include the ids. -/
theorem spelled_alike_iff {κ : Type} [DecidableEq κ] {s : ServiceState κ}
    (h : ReachableService s) {event : EventDocument} (hevent : event ∈ s.db.events)
    {rule : RewardRuleDocument} (hrule : rule ∈ event.rewardRules) {spelling : String}
    (hspelling : ObjectId.ofString spelling = some rule._id) :
    (∀ snap : Db, (∃ e ∈ snap.events, e._id = event._id) →
      ∀ eventId, ObjectId.ofString eventId = some event._id →
      ∀ (rewardItem : SubmittedItem) newRule newRuleId,
        (∀ item, rewardItem.cast = some item →
          (AddsItem snap s.db event rule item ⟨eventId, rewardItem, some ⟨some spelling, newRule⟩⟩
            newRuleId ↔ spelling = rule._id.toString)) ∧
        (rewardItem.cast = none → ∀ ruleId p, RewardService.addReward snap s.db
          ⟨eventId, rewardItem, some ⟨some ruleId, newRule⟩⟩ newRuleId ≠ .ok p)) ∧
    ∀ before final after prerequisites, event.rewardRules = before ++ final :: after →
      rule ∈ before → final.config = .final ⟨prerequisites⟩ →
      JsonElement.str spelling ∈ prerequisites →
      ∀ admits : String → Prop, (∀ id : ObjectId, admits id.toString) →
        ((∀ activity past, (∀ id ∈ past, admits id) →
          (NewlyGranted event.rewardRules activity past final ↔
            NewlyGranted (before ++ final.waitingFor
                (prerequisites.map (respell spelling rule._id.toString)) :: after) activity past
              (final.waitingFor (prerequisites.map (respell spelling rule._id.toString))))) ↔
          spelling = rule._id.toString ∨
            ∃ other ∈ prerequisites, other ≠ .str spelling ∧ Unmeetable admits final other) := by
  have haccepted := h.acceptedRules hevent
  constructor
  · intro snap hsnap eventId heventId rewardItem newRule newRuleId
    refine ⟨?_, fun huncast _ p => addReward_uncast huncast p⟩
    intro item hcast
    rw [AddsItem, addReward_spelled h.coherent.db.events.ids hevent haccepted.ids hrule hspelling
      hsnap heventId hcast]
    constructor
    · intro hadded
      by_contra hne
      rw [if_neg hne] at hadded
      cases hadded
    · intro hsame
      rw [if_pos hsame]
  · intro before final after prerequisites hdocs hbefore hc hnamed admits hcanonical
    exact granted_alike_iff haccepted.ids haccepted.supported hdocs hbefore hspelling hc hnamed
      hcanonical

namespace SampleSpelling

open Sample

def spelling : String := String.ofList (List.replicate 24 'A')

/-- One condition rule and a FINAL rule that names it in upper case. -/
def setup : List Command :=
  [.createEvent ⟨"Launch", some 100, some 200, some false⟩ eventId 0 0,
    addRule .PER_CONDITION [("metric", .str "loginStreak"), ("perThreshold", .num 3)]
      ⟨some "COUPON", some 1⟩ conditionRuleId,
    addRule .FINAL [("prerequisiteRuleIds", .arr [.str spelling])] ⟨some "CASH", some 1000⟩
      finalRuleId]

def state : ServiceState Nat :=
  (run (step perform) (setup.flatMap alone) (initial Db.empty)).getD (initial Db.empty)

def final : RewardRuleDocument :=
  ⟨finalRuleId, .final ⟨[.str spelling]⟩, [], [⟨some "CASH", some 1000⟩]⟩

def event : EventDocument :=
  ⟨eventId, "Launch", 100, 200, .INACTIVE, false, [conditionRule, final]⟩

theorem setup_run : (run (step perform) (setup.flatMap alone) (initial Db.empty)).map State.db =
    some ⟨[event], [], []⟩ := by
  decide +kernel

theorem state_reachable : ReachableService state := ⟨setup.flatMap alone, (run_of_view setup_run).1⟩

theorem state_db : state.db = ⟨[event], [], []⟩ := (run_of_view setup_run).2

def item : RewardItem := ⟨some "CASH", some 5⟩

def dto (ruleId : String) : RewardAddRequestDto :=
  ⟨eventId.toString, item.submitted, some ⟨some ruleId, none⟩⟩

end SampleSpelling

theorem spelled_alike_iff_sample :
    (AddsItem SampleSpelling.state.db SampleSpelling.state.db SampleSpelling.event
        Sample.conditionRule SampleSpelling.item (SampleSpelling.dto SampleSpelling.spelling)
        (ObjectId.ofDigit 9) ↔
      SampleSpelling.spelling = Sample.conditionRuleId.toString) ∧
    ((∀ activity past, (∀ id ∈ past, True) →
      (NewlyGranted SampleSpelling.event.rewardRules activity past SampleSpelling.final ↔
        NewlyGranted ([Sample.conditionRule] ++ SampleSpelling.final.waitingFor
            ([.str SampleSpelling.spelling].map (respell SampleSpelling.spelling
              Sample.conditionRuleId.toString)) :: []) activity past
          (SampleSpelling.final.waitingFor ([.str SampleSpelling.spelling].map
            (respell SampleSpelling.spelling Sample.conditionRuleId.toString))))) ↔
      SampleSpelling.spelling = Sample.conditionRuleId.toString ∨
        ∃ other ∈ [JsonElement.str SampleSpelling.spelling],
          other ≠ .str SampleSpelling.spelling ∧
            Unmeetable (fun _ => True) SampleSpelling.final other) := by
  have hevent : SampleSpelling.event ∈ SampleSpelling.state.db.events := by
    simp [SampleSpelling.state_db]
  obtain ⟨hitem, hbonus⟩ := spelled_alike_iff SampleSpelling.state_reachable hevent
    (show Sample.conditionRule ∈ SampleSpelling.event.rewardRules by decide)
    (show ObjectId.ofString SampleSpelling.spelling = some Sample.conditionRule._id from rfl)
  exact ⟨(hitem SampleSpelling.state.db ⟨_, hevent, rfl⟩ _ rfl SampleSpelling.item.submitted none
      (ObjectId.ofDigit 9)).1 SampleSpelling.item rfl,
    hbonus [Sample.conditionRule] SampleSpelling.final [] _ rfl (by decide) rfl (by decide)
      (fun _ => True) (fun _ => trivial)⟩

/-- The upper-case spelling of the id of a stored rule is refused with the item, and a FINAL
rule that names the rule so is not granted beside it. -/
theorem spelled_apart :
    (ReachableService SampleSpelling.state ∧
      SampleSpelling.event ∈ SampleSpelling.state.db.events ∧
      ObjectId.ofString SampleSpelling.spelling = some Sample.conditionRuleId) ∧
    (AddsItem SampleSpelling.state.db SampleSpelling.state.db SampleSpelling.event
        Sample.conditionRule SampleSpelling.item
        (SampleSpelling.dto Sample.conditionRuleId.toString) (ObjectId.ofDigit 9) ∧
      ¬AddsItem SampleSpelling.state.db SampleSpelling.state.db SampleSpelling.event
        Sample.conditionRule SampleSpelling.item (SampleSpelling.dto SampleSpelling.spelling)
        (ObjectId.ofDigit 9)) ∧
    (NewlyGranted [Sample.conditionRule,
          SampleSpelling.final.waitingFor [.str Sample.conditionRuleId.toString]] ⟨5, 0, 0⟩ []
        (SampleSpelling.final.waitingFor [.str Sample.conditionRuleId.toString]) ∧
      ¬NewlyGranted SampleSpelling.event.rewardRules ⟨5, 0, 0⟩ [] SampleSpelling.final) := by
  refine ⟨⟨SampleSpelling.state_reachable, by simp [SampleSpelling.state_db], rfl⟩, ⟨?_, ?_⟩,
    ?_, ?_⟩
  · rw [AddsItem, SampleSpelling.state_db]
    rfl
  · have hrefused : RewardService.addReward SampleSpelling.state.db SampleSpelling.state.db
        (SampleSpelling.dto SampleSpelling.spelling) (ObjectId.ofDigit 9) =
          transact (throwEvent .REWARD_RULE_NOT_FOUND) := by
      rw [SampleSpelling.state_db]
      rfl
    rw [AddsItem, hrefused]
    intro hadded
    cases hadded
  · exact ⟨_, rfl, by decide +kernel⟩
  · rintro ⟨rules, hrules, hnew⟩
    cases hrules
    revert hnew
    decide +kernel

end MapleRewards
