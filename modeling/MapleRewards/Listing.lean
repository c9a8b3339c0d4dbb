import MapleRewards.AddReward

/-!
# The rules of an event as they are listed

New rules reach the store by a read, a push and a save, further items by an update of
one array element. The listing maps what is stored; the response to a new rule holds the
item and the config as they were sent.
-/
namespace MapleRewards

open Collection LabelledRuns SnapshotStore

theorem mapM_toRewardRuleDto {rules : List RewardRuleDocument}
    (h : ∀ rule ∈ rules, ∃ ruleType config,
      validateRuleConfig ruleType config = .ok rule.config) :
    rules.mapM RewardMapper.toRewardRuleDto = .ok (rules.map RewardRuleDocument.entry) := by
  induction rules with
  | nil => rfl
  | cons rule rules ih =>
    obtain ⟨ruleType, input, hconfig⟩ := h rule List.mem_cons_self
    have hentry : RewardMapper.toRewardRuleDto rule = .ok rule.entry := by
      unfold RewardMapper.toRewardRuleDto RewardRuleDocument.entry
      rcases validateRuleConfig_cases hconfig with ⟨fields, c, -, -, hc⟩ |
        ⟨fields, c, -, -, hc⟩ | ⟨fields, c, -, -, hc⟩ <;> rw [hc]
    rw [List.mapM_cons, hentry, ih fun r hr => h r (List.mem_cons_of_mem rule hr)]
    rfl

/-- The listing of a stored event shows every rule with its id, config and items. -/
theorem findByEventId_eq {db : Db} (hwf : WellFormed db) (hdb : db.ConfigsAccepted)
    {event : EventDocument} (hevent : event ∈ db.events) {eventId : String}
    (hid : ObjectId.ofString eventId = some event._id) :
    RewardService.findByEventId db eventId =
      .ok (event.rewardRules.map RewardRuleDocument.entry) := by
  rw [RewardService.findByEventId, EventRepository.findById_of_mem hwf hevent hid]
  exact mapM_toRewardRuleDto (hdb event hevent)

/-! ## One call and the listing -/

def RewardRuleDto.addItem (rewardItem : RewardItemDto) (entry : RewardRuleDto) : RewardRuleDto :=
  { entry with rewardItems := entry.rewardItems ++ [rewardItem] }

/-- The listing with the item added to the entry of the rule. -/
def withItem (ruleId : String) (rewardItem : RewardItemDto) (listed : List RewardRuleDto) :
    List RewardRuleDto :=
  listed.map fun entry => if entry.id = ruleId then entry.addItem rewardItem else entry

theorem pushItem_mem {db : Db} (hwf : WellFormed db) {event : EventDocument}
    (hevent : event ∈ db.events) {rule : RewardRuleDocument} (hrule : rule ∈ event.rewardRules)
    (rewardItem : RewardItem) :
    event.pushItem rule._id rewardItem ∈ (db.pushItem event._id rule._id rewardItem).events := by
  apply mem_updateFirst_of_mem EventDocument._id hwf.events.ids hevent
  · simp only [Bool.and_eq_true, beq_self_eq_true, true_and, List.any_eq_true, beq_iff_eq]
    exact ⟨rule, hrule, rfl⟩
  · intro e he
    simp only [Bool.and_eq_true, beq_iff_eq] at he
    exact he.1

theorem pushRule_mem {db : Db} (hwf : WellFormed db) {event : EventDocument}
    (hevent : event ∈ db.events) (rule : RewardRuleDocument) :
    { event with rewardRules := event.rewardRules ++ [rule] } ∈
      (db.pushRule event._id rule).events := by
  apply mem_updateFirst_of_mem EventDocument._id hwf.events.ids hevent
  · simp
  · intro e he
    simpa using he

/-- The entries of an event whose rule has taken an item. -/
theorem pushItem_entries {event : EventDocument}
    (hids : (event.rewardRules.map RewardRuleDocument._id).Nodup) (id : ObjectId)
    (rewardItem : RewardItem) :
    (event.pushItem id rewardItem).rewardRules.map RewardRuleDocument.entry =
      withItem id.toString rewardItem.toDto (event.rewardRules.map RewardRuleDocument.entry) := by
  have hrules : updateFirst (fun r => r._id == id) (RewardRuleDocument.pushItem rewardItem)
      event.rewardRules =
      event.rewardRules.map fun r => if r._id == id then r.pushItem rewardItem else r :=
    updateFirst_eq_map RewardRuleDocument._id hids
  rw [EventDocument.pushItem, hrules, withItem, List.map_map, List.map_map]
  apply List.map_congr_left
  intro r _
  by_cases hr : r._id = id
  · simp [RewardRuleDocument.entry, RewardRuleDocument.pushItem, RewardRuleDto.addItem, hr]
  · simp [RewardRuleDocument.entry, hr]

/-- What a successful call on an event answers, with the entry that is then listed and
the entries of the event before and after. -/
inductive Shown (event : EventDocument) (dto : RewardAddRequestDto) (newRuleId : ObjectId)
    (response entry : RewardRuleDto) (listed' : List RewardRuleDto) : Prop where
  | item (rule : RewardRuleDocument) (item : RewardItem) (hnames : NamesRule event dto rule item)
      (hentry : entry = (rule.pushItem item).entry)
      (hresponse : response = { entry with furtherConfig := rule.furtherConfig })
      (hlisted : listed' =
        withItem dto.ruleId item.toDto (event.rewardRules.map RewardRuleDocument.entry))
  | rule (newRule : NewRuleDto) (config : RuleConfig) (item : RewardItem)
      (hmakes : MakesRule event dto newRule config item)
      (hentry : entry = ⟨newRuleId.toString, config, [], [item.toDto]⟩)
      (hresponse : response =
        ⟨newRuleId.toString, config, newRule.config.further, [dto.rewardItem.json]⟩)
      (hlisted : listed' = event.rewardRules.map RewardRuleDocument.entry ++ [entry])

/-- What is left of an event after a successful call on it. -/
theorem Added.shown {dto : RewardAddRequestDto} {newRuleId : ObjectId}
    {response : RewardRuleDto} {db db' : Db} (h : Added db dto newRuleId response db db')
    (hwf : WellFormed db) {event : EventDocument} (hevent : event ∈ db.events)
    (hon : ObjectId.ofString dto.eventId = some event._id) :
    ∃ event' ∈ db'.events, event'._id = event._id ∧
      ∃ entry ∈ event'.rewardRules.map RewardRuleDocument.entry, Shown event dto newRuleId response
        entry (event'.rewardRules.map RewardRuleDocument.entry) := by
  cases h with
  | item named rule item hnamed hrule hid hname hcast hresponse =>
    obtain rfl : named = event :=
      hwf.event_unique hnamed hevent (Option.some.inj (hid.symm.trans hon))
    have hentries := pushItem_entries (hwf.events.rules named hevent).ids rule._id item
    refine ⟨named.pushItem rule._id item, pushItem_mem hwf hevent hrule item, rfl,
      (rule.pushItem item).entry, ?_, .item rule item ⟨hrule, hname, hcast⟩ rfl hresponse ?_⟩
    · rw [hentries, withItem, List.mem_map]
      exact ⟨rule.entry, List.mem_map_of_mem hrule, by simp [RewardRuleDocument.entry,
        RewardRuleDocument.pushItem, RewardRuleDto.addItem]⟩
    · rw [hentries, hname]
  | rule found newRule config item hfound hid hname hnew hcast hconfig hvalid hitem hresponse =>
    obtain rfl : found = event :=
      hwf.event_unique hfound hevent (Option.some.inj (hid.symm.trans hon))
    refine ⟨_, pushRule_mem hwf hevent ⟨newRuleId, config, newRule.config.further, [item]⟩, rfl,
      ⟨newRuleId.toString, config, [], [item.toDto]⟩, ?_, .rule newRule config item
        ⟨hname, hnew, hconfig, hcast, hvalid, hitem⟩ rfl hresponse ?_⟩
    · rw [List.map_append]
      exact List.mem_append_right _ (List.mem_singleton.mpr rfl)
    · rw [List.map_append]
      rfl

/-- Adding one item or another to an entry that is listed makes a difference. -/
theorem withItem_inj {ruleId : String} {rewardItem rewardItem' : RewardItemDto}
    {listed : List RewardRuleDto} (h : withItem ruleId rewardItem listed =
      withItem ruleId rewardItem' listed) {entry : RewardRuleDto} (hentry : entry ∈ listed)
    (hid : entry.id = ruleId) : rewardItem = rewardItem' := by
  have hsame := List.map_inj_left.mp h entry hentry
  simp only [hid, if_true, RewardRuleDto.addItem, RewardRuleDto.mk.injEq, true_and] at hsame
  simpa using hsame

/-! ## Sequences of calls -/

/-- A call with the id that it generates if it makes a rule. -/
structure AddRewardCall where
  requestDto : RewardAddRequestDto
  newRuleId : ObjectId

/-- A call and what it has answered. -/
abbrev Reply := AddRewardCall × Except Thrown RewardRuleDto

/-- The store after the call and its reply; what a failing call wrote is rolled back. -/
def AddRewardCall.perform (call : AddRewardCall) (db : Db) : Db × Except Thrown RewardRuleDto :=
  match RewardService.addReward db db call.requestDto call.newRuleId with
  | .ok (response, db') => (db', .ok response)
  | .error err => (db, .error err)

/-- One call after another, with the replies. -/
def addRewards : List AddRewardCall → Db → Db × List Reply
  | [], db => (db, [])
  | call :: calls, db =>
    let after := call.perform db
    let rest := addRewards calls after.1
    (rest.1, (call, after.2) :: rest.2)

/-- The items of the successful calls that name the rule, in order, as they were sent. -/
def itemsAdded (ruleId : String) : List Reply → List RewardItemDto
  | [] => []
  | (call, .ok _) :: rest =>
    if call.requestDto.ruleId = ruleId ∧ ruleId ≠ "" then
      call.requestDto.rewardItem.json :: itemsAdded ruleId rest
    else itemsAdded ruleId rest
  | (_, .error _) :: rest => itemsAdded ruleId rest

/-- One entry for each successful call that makes a rule, with the id and the config of
its response, its own item and those of the later calls that name the rule. -/
def entriesAdded : List Reply → List RewardRuleDto
  | [] => []
  | (call, .ok response) :: rest =>
    if call.requestDto.ruleId = "" then
      { response with rewardItems :=
          call.requestDto.rewardItem.json :: itemsAdded response.id rest } :: entriesAdded rest
    else entriesAdded rest
  | (_, .error _) :: rest => entriesAdded rest

/-- An entry that was there before the calls, with the items they have added. -/
def RewardRuleDto.withItems (replies : List Reply) (entry : RewardRuleDto) : RewardRuleDto :=
  { entry with rewardItems := entry.rewardItems ++ itemsAdded entry.id replies }

/-- What the calls have made of a listing. -/
def listedAfter (replies : List Reply) (listed : List RewardRuleDto) : List RewardRuleDto :=
  listed.map (RewardRuleDto.withItems replies) ++ entriesAdded replies

theorem addRewards_concat (calls : List AddRewardCall) (call : AddRewardCall) (db : Db) :
    addRewards (calls ++ [call]) db =
      ((call.perform (addRewards calls db).1).1, (addRewards calls db).2 ++
        [(call, (call.perform (addRewards calls db).1).2)]) := by
  induction calls generalizing db with
  | nil => rfl
  | cons first calls ih =>
    rw [List.cons_append, addRewards, ih]
    rfl

theorem itemsAdded_append (ruleId : String) (replies replies' : List Reply) :
    itemsAdded ruleId (replies ++ replies') =
      itemsAdded ruleId replies ++ itemsAdded ruleId replies' := by
  induction replies with
  | nil => rfl
  | cons reply replies ih =>
    obtain ⟨call, answer⟩ := reply
    cases answer with
    | error err => exact ih
    | ok response =>
      simp only [List.cons_append, itemsAdded, ih]
      split <;> rfl

/-- A call that fails adds nothing. -/
theorem listedAfter_error (replies : List Reply) (call : AddRewardCall) (err : Thrown)
    (listed : List RewardRuleDto) :
    listedAfter (replies ++ [(call, .error err)]) listed = listedAfter replies listed := by
  have hentries : entriesAdded (replies ++ [(call, .error err)]) = entriesAdded replies := by
    induction replies with
    | nil => rfl
    | cons reply replies ih =>
      obtain ⟨first, answer⟩ := reply
      cases answer with
      | error _ => exact ih
      | ok response => simp [entriesAdded, ih, itemsAdded_append, itemsAdded]
  rw [listedAfter, hentries]
  simp [listedAfter, RewardRuleDto.withItems, itemsAdded_append, itemsAdded]

/-- A call that makes a rule adds one entry. -/
theorem listedAfter_rule (replies : List Reply) {call : AddRewardCall} (response : RewardRuleDto)
    (hname : call.requestDto.ruleId = "") (listed : List RewardRuleDto) :
    listedAfter (replies ++ [(call, .ok response)]) listed = listedAfter replies listed ++
      [{ response with rewardItems := [call.requestDto.rewardItem.json] }] := by
  have hitems : ∀ id, itemsAdded id [(call, .ok response)] = [] := by
    intro id
    simp only [itemsAdded, hname, ite_eq_right_iff]
    exact fun h => absurd h.1.symm h.2
  have hentries : entriesAdded (replies ++ [(call, .ok response)]) = entriesAdded replies ++
      [{ response with rewardItems := [call.requestDto.rewardItem.json] }] := by
    induction replies with
    | nil => simp [entriesAdded, hname, itemsAdded]
    | cons reply replies ih =>
      obtain ⟨first, answer⟩ := reply
      cases answer with
      | error _ => exact ih
      | ok response =>
        simp only [List.cons_append, entriesAdded, ih, itemsAdded_append, hitems, List.append_nil]
        split <;> rfl
  rw [listedAfter, hentries]
  simp [listedAfter, RewardRuleDto.withItems, itemsAdded_append, hitems]

theorem itemsAdded_singleton {call : AddRewardCall} (response : RewardRuleDto)
    (hname : call.requestDto.ruleId ≠ "") (id : String) : itemsAdded id [(call, .ok response)] =
      if id = call.requestDto.ruleId then [call.requestDto.rewardItem.json] else [] := by
  by_cases hid : id = call.requestDto.ruleId
  · simp [itemsAdded, hid, hname]
  · simp [itemsAdded, hid, Ne.symm hid]

theorem entriesAdded_item (replies : List Reply) {call : AddRewardCall} (response : RewardRuleDto)
    (hname : call.requestDto.ruleId ≠ "") :
    entriesAdded (replies ++ [(call, .ok response)]) =
      withItem call.requestDto.ruleId call.requestDto.rewardItem.json (entriesAdded replies) := by
  induction replies with
  | nil => simp [entriesAdded, withItem, hname]
  | cons reply replies ih =>
    obtain ⟨first, answer⟩ := reply
    cases answer with
    | error _ => exact ih
    | ok response' =>
      simp only [List.cons_append, entriesAdded, ih, itemsAdded_append,
        itemsAdded_singleton response hname]
      split
      · by_cases hid : response'.id = call.requestDto.ruleId <;>
          simp [withItem, RewardRuleDto.addItem, hid]
      · rfl

/-- A call that names a rule adds its item to the entry of the rule. -/
theorem listedAfter_item (replies : List Reply) {call : AddRewardCall} (response : RewardRuleDto)
    (hname : call.requestDto.ruleId ≠ "") (listed : List RewardRuleDto) :
    listedAfter (replies ++ [(call, .ok response)]) listed =
      withItem call.requestDto.ruleId call.requestDto.rewardItem.json
        (listedAfter replies listed) := by
  have hold : listed.map (RewardRuleDto.withItems (replies ++ [(call, .ok response)])) =
      withItem call.requestDto.ruleId call.requestDto.rewardItem.json
        (listed.map (RewardRuleDto.withItems replies)) := by
    rw [withItem, List.map_map]
    apply List.map_congr_left
    intro entry _
    by_cases hid : entry.id = call.requestDto.ruleId <;>
      simp [RewardRuleDto.withItems, RewardRuleDto.addItem, itemsAdded_append,
        itemsAdded_singleton response hname, hid]
  rw [listedAfter, hold, entriesAdded_item replies response hname]
  simp [listedAfter, withItem]

/-- The generated ids are new: to the store and to each other. -/
structure FreshRuleIds (calls : List AddRewardCall) (db : Db) : Prop where
  nodup : (calls.map AddRewardCall.newRuleId).Nodup
  unused : ∀ call ∈ calls, db.hasRule call.newRuleId = false

/-- The states between the calls of a sequence on one event. -/
structure Between (db : Db) (event : EventDocument) (calls : List AddRewardCall) : Prop where
  wellFormed : WellFormed db
  configs : db.ConfigsAccepted
  event_mem : event ∈ db.events
  on : ∀ call ∈ calls, ObjectId.ofString call.requestDto.eventId = some event._id
  fresh : FreshRuleIds calls db

theorem Added.hasRule {dto : RewardAddRequestDto} {newRuleId : ObjectId}
    {response : RewardRuleDto} {snap db db' : Db} (h : Added snap dto newRuleId response db db')
    {id : ObjectId} (hid : db.hasRule id = false) (hne : id ≠ newRuleId) :
    db'.hasRule id = false := by
  simp only [Db.hasRule, List.any_eq_false] at hid ⊢
  intro e he
  cases h with
  | item event rule item hevent hrule hon hname hcast hresponse =>
    cases mem_updateFirst he with
    | inl hold => exact hid e hold
    | inr hnew =>
      obtain ⟨e₀, he₀, -, rfl⟩ := hnew
      rw [any_id_pushItem]
      exact hid e₀ he₀
  | rule event newRule config item hevent hon hname hnew hcast hconfig hvalid hitem hresponse =>
    cases mem_updateFirst he with
    | inl hold => exact hid e hold
    | inr hnew =>
      obtain ⟨e₀, he₀, -, rfl⟩ := hnew
      have hold := hid e₀ he₀
      simp only [List.any_append, List.any_cons, List.any_nil, Bool.or_false, Bool.or_eq_true,
        not_or, beq_iff_eq]
      exact ⟨hold, fun heq => hne heq.symm⟩

/-- What a successful call shows, and leaves for the calls after it. -/
theorem Between.added {db db' : Db} {event : EventDocument} {call : AddRewardCall}
    {calls : List AddRewardCall} (h : Between db event (call :: calls)) {response : RewardRuleDto}
    (hok : RewardService.addReward db db call.requestDto call.newRuleId = .ok (response, db')) :
    ∃ event', Between db' event' calls ∧ event'._id = event._id ∧
      ∃ entry ∈ event'.rewardRules.map RewardRuleDocument.entry, Shown event call.requestDto
        call.newRuleId response entry (event'.rewardRules.map RewardRuleDocument.entry) := by
  have hadded := RewardService.addReward_added hok
  have hnodup := h.fresh.nodup
  rw [List.map_cons, List.nodup_cons] at hnodup
  have hunused := h.fresh.unused call List.mem_cons_self
  have hperform : perform (.addReward call.requestDto call.newRuleId) db db = some db' := by
    simp [perform, hunused, hok, committed]
  have hwf := (perform_preserves.commit _ db db db' h.wellFormed h.wellFormed (Evolves.refl db)
    hperform).1
  obtain ⟨event', hmem, hid, hshown⟩ :=
    hadded.shown h.wellFormed h.event_mem (h.on call List.mem_cons_self)
  refine ⟨event', ⟨hwf, hadded.configsAccepted h.configs, hmem, ?_, hnodup.2, ?_⟩, hid, hshown⟩
  · intro c hc
    rw [hid]
    exact h.on c (List.mem_cons_of_mem call hc)
  · intro c hc
    apply hadded.hasRule (h.fresh.unused c (List.mem_cons_of_mem call hc))
    intro heq
    exact hnodup.1 (heq ▸ List.mem_map_of_mem hc)

theorem Between.tail {db : Db} {event : EventDocument} {call : AddRewardCall}
    {calls : List AddRewardCall} (h : Between db event (call :: calls)) : Between db event calls :=
  ⟨h.wellFormed, h.configs, h.event_mem, fun c hc => h.on c (List.mem_cons_of_mem call hc),
    (List.nodup_cons.mp h.fresh.nodup).2,
    fun c hc => h.fresh.unused c (List.mem_cons_of_mem call hc)⟩

/-- One call, whether it goes through or not. -/
theorem Between.one {db : Db} {event : EventDocument} {call : AddRewardCall}
    {calls : List AddRewardCall} (h : Between db event (call :: calls)) :
    ∃ event', Between (call.perform db).1 event' calls ∧ event'._id = event._id := by
  cases hok : RewardService.addReward db db call.requestDto call.newRuleId with
  | error err =>
    rw [AddRewardCall.perform, hok]
    exact ⟨event, h.tail, rfl⟩
  | ok p =>
    obtain ⟨event', hbetween, hid, -⟩ := h.added hok
    rw [AddRewardCall.perform, hok]
    exact ⟨event', hbetween, hid⟩

/-- Some calls of a sequence, with the others still to come. -/
theorem Between.middle {before after : List AddRewardCall} {db : Db} {event : EventDocument}
    (h : Between db event (before ++ after)) :
    ∃ event', Between (addRewards before db).1 event' after ∧ event'._id = event._id := by
  induction before generalizing db event with
  | nil => exact ⟨event, h, rfl⟩
  | cons call before ih =>
    obtain ⟨event₁, hbetween₁, hid₁⟩ := h.one
    obtain ⟨event', hbetween, hid⟩ := ih hbetween₁
    exact ⟨event', hbetween, hid.trans hid₁⟩

/-- The listing is that of the event between the calls. -/
theorem Between.findByEventId_eq {db : Db} {event : EventDocument} {calls : List AddRewardCall}
    (h : Between db event calls) {eventId : String}
    (hid : ObjectId.ofString eventId = some event._id) : RewardService.findByEventId db eventId =
      .ok (event.rewardRules.map RewardRuleDocument.entry) :=
  MapleRewards.findByEventId_eq h.wellFormed h.configs h.event_mem hid

/-- The entry that a listing has for one rule. -/
def listedEntry (db : Db) (eventId ruleId : String) : Except Thrown (Option RewardRuleDto) := do
  let listed ← RewardService.findByEventId db eventId
  .ok (listed.find? fun entry => entry.id == ruleId)

theorem Between.listedEntry_eq {db : Db} {event : EventDocument} {calls : List AddRewardCall}
    (h : Between db event calls) {eventId : String}
    (hid : ObjectId.ofString eventId = some event._id) {entry : RewardRuleDto}
    (hentry : entry ∈ event.rewardRules.map RewardRuleDocument.entry) :
    listedEntry db eventId entry.id = .ok (some entry) := by
  have hnodup : ((event.rewardRules.map RewardRuleDocument.entry).map RewardRuleDto.id).Nodup := by
    rw [List.map_map, show RewardRuleDto.id ∘ RewardRuleDocument.entry =
      ObjectId.toString ∘ RewardRuleDocument._id from rfl, ← List.map_map]
    exact (h.wellFormed.events.rules event h.event_mem).ids.map ObjectId.toString_injective
  rw [listedEntry, h.findByEventId_eq hid]
  exact congrArg Except.ok (find?_key_of_mem RewardRuleDto.id hnodup hentry)

/-! ## What is shown and what was sent -/

/-- Rules and items are neither lost nor repeated nor changed by the calls: at every moment
the listing has what the successful calls have sent, each of them has answered with the
entry then listed, and the others have left the store as it was. -/
structure ShownAsAdded (db : Db) (eventId : String) (calls : List AddRewardCall) : Prop where
  listed : ∃ listed, RewardService.findByEventId db eventId = .ok listed ∧
    ∀ sofar later, calls = sofar ++ later →
      RewardService.findByEventId (addRewards sofar db).1 eventId =
        .ok (listedAfter (addRewards sofar db).2 listed)
  answered : ∀ before call after, calls = before ++ call :: after → ∀ db' response,
    call.perform (addRewards before db).1 = (db', .ok response) →
      listedEntry db' eventId response.id = .ok (some response) ∧
      (call.requestDto.ruleId = "" → ∃ newRule fields, call.requestDto.newRule = some newRule ∧
        response.id = call.newRuleId.toString ∧ response.config.ruleType = newRule.ruleType ∧
        newRule.config = .object fields ∧ ∀ key, fields.lookup key =
          (response.config.fields ++ response.furtherConfig).lookup key)
  failed : ∀ before call after, calls = before ++ call :: after → ∀ db' err,
    call.perform (addRewards before db).1 = (db', .error err) → db' = (addRewards before db).1

/-- Where the call can go through, its item is sent as a listing shows it, and so is the
config of the rule that it names or makes. -/
def SentAsShown (event : EventDocument) (dto : RewardAddRequestDto) : Prop :=
  (∀ rule item, NamesRule event dto rule item →
    dto.rewardItem.json = item.toDto ∧ rule.furtherConfig = []) ∧
  ∀ newRule config item, MakesRule event dto newRule config item →
    dto.rewardItem.json = item.toDto ∧ newRule.config.further = []

theorem AddRewardCall.perform_eq_ok {call : AddRewardCall} {db db' : Db}
    {response : RewardRuleDto} (h : call.perform db = (db', .ok response)) :
    RewardService.addReward db db call.requestDto call.newRuleId = .ok (response, db') := by
  unfold AddRewardCall.perform at h
  split at h
  · next hok =>
    cases h
    exact hok
  · cases h

theorem AddRewardCall.perform_of_ok {call : AddRewardCall} {db db' : Db}
    {response : RewardRuleDto}
    (h : RewardService.addReward db db call.requestDto call.newRuleId = .ok (response, db')) :
    call.perform db = (db', .ok response) := by
  rw [AddRewardCall.perform, h]

theorem AddRewardCall.perform_eq_error {call : AddRewardCall} {db db' : Db} {err : Thrown}
    (h : call.perform db = (db', .error err)) : db' = db := by
  unfold AddRewardCall.perform at h
  split at h
  · cases h
  · cases h
    rfl

/-- A call that is sent as it is shown answers with the entry then listed. -/
theorem Shown.response_eq {event : EventDocument} {dto : RewardAddRequestDto}
    {newRuleId : ObjectId} {response entry : RewardRuleDto} {listed' : List RewardRuleDto}
    (h : Shown event dto newRuleId response entry listed') (hsent : SentAsShown event dto) :
    response = entry := by
  cases h with
  | item rule item hnames hentry hresponse hlisted =>
    rw [hresponse, (hsent.1 rule item hnames).2, hentry]
    rfl
  | rule newRule config item hmakes hentry hresponse hlisted =>
    obtain ⟨hjson, hfurther⟩ := hsent.2 newRule config item hmakes
    rw [hresponse, hentry, hjson, hfurther]

/-- And the listing has what it has sent. -/
theorem Shown.listed_eq {event : EventDocument} {call : AddRewardCall}
    {response entry : RewardRuleDto} {listed' : List RewardRuleDto}
    (h : Shown event call.requestDto call.newRuleId response entry listed')
    (hsent : SentAsShown event call.requestDto) {replies : List Reply}
    {listed : List RewardRuleDto}
    (hlisted : event.rewardRules.map RewardRuleDocument.entry = listedAfter replies listed) :
    listed' = listedAfter (replies ++ [(call, .ok response)]) listed := by
  have hanswer := h.response_eq hsent
  cases h with
  | item rule item hnames hentry hresponse hlisted' =>
    have hne : call.requestDto.ruleId ≠ "" := by
      rw [hnames.name]
      exact toString_ne_empty _
    rw [listedAfter_item replies response hne, hlisted', hlisted, (hsent.1 rule item hnames).1]
  | rule newRule config item hmakes hentry hresponse hlisted' =>
    have hown : { response with rewardItems := [call.requestDto.rewardItem.json] } = entry := by
      rw [hanswer, hentry, (hsent.2 newRule config item hmakes).1]
    rw [listedAfter_rule replies response hmakes.name, hown, hlisted', hlisted]

/-- While all calls are sent as they are shown, the listing has what they have sent. -/
theorem Between.listed_eq {calls : List AddRewardCall} {db : Db} {event : EventDocument}
    (h : Between db event calls)
    (hsent : ∀ before call after, calls = before ++ call :: after →
      ∀ event' ∈ (addRewards before db).1.events, event'._id = event._id →
        SentAsShown event' call.requestDto) (sofar : List AddRewardCall) :
    ∀ later, calls = sofar ++ later → ∃ event', Between (addRewards sofar db).1 event' later ∧
      event'._id = event._id ∧ event'.rewardRules.map RewardRuleDocument.entry =
        listedAfter (addRewards sofar db).2 (event.rewardRules.map RewardRuleDocument.entry) := by
  induction sofar using List.reverseRecOn with
  | nil =>
    rintro later rfl
    exact ⟨event, h, rfl, by simp [addRewards, listedAfter, entriesAdded, RewardRuleDto.withItems,
      itemsAdded]⟩
  | append_singleton sofar call ih =>
    intro later hcalls
    rw [List.append_assoc, List.singleton_append] at hcalls
    obtain ⟨event₁, hbetween₁, hid₁, hlisted₁⟩ := ih (call :: later) hcalls
    rw [addRewards_concat]
    cases hok : RewardService.addReward (addRewards sofar db).1 (addRewards sofar db).1
        call.requestDto call.newRuleId with
    | error err =>
      rw [AddRewardCall.perform, hok]
      refine ⟨event₁, hbetween₁.tail, hid₁, ?_⟩
      rw [listedAfter_error, hlisted₁]
    | ok p =>
      obtain ⟨event', hbetween', hid', entry, -, hshown⟩ := hbetween₁.added hok
      rw [AddRewardCall.perform_of_ok hok]
      refine ⟨event', hbetween', hid'.trans hid₁, ?_⟩
      exact hshown.listed_eq (hsent sofar call later hcalls event₁ hbetween₁.event_mem hid₁)
        hlisted₁

/-- A call that goes through at some moment, with what the property says about it. -/
theorem ShownAsAdded.call {calls before after : List AddRewardCall} {call : AddRewardCall}
    {db db' : Db} {eventId : String} {response : RewardRuleDto} {event₁ event' : EventDocument}
    (h : ShownAsAdded db eventId calls) (hcalls : calls = before ++ call :: after)
    (hbetween₁ : Between (addRewards before db).1 event₁ (call :: after))
    (hid₁ : ObjectId.ofString eventId = some event₁._id) (hbetween' : Between db' event' after)
    (hid' : ObjectId.ofString eventId = some event'._id)
    (hok : RewardService.addReward (addRewards before db).1 (addRewards before db).1
      call.requestDto call.newRuleId = .ok (response, db'))
    {entry : RewardRuleDto} (hentry : entry ∈ event'.rewardRules.map RewardRuleDocument.entry)
    (hsame : entry.id = response.id) :
    response = entry ∧ ∃ replies listed,
      event₁.rewardRules.map RewardRuleDocument.entry = listedAfter replies listed ∧
      event'.rewardRules.map RewardRuleDocument.entry =
        listedAfter (replies ++ [(call, .ok response)]) listed := by
  have hperform := AddRewardCall.perform_of_ok hok
  constructor
  · obtain ⟨hresponse, -⟩ := h.answered before call after hcalls db' response hperform
    have hlisted := hbetween'.listedEntry_eq hid' hentry
    rw [hsame, hresponse, Except.ok.injEq, Option.some.injEq] at hlisted
    exact hlisted
  · obtain ⟨listed, -, hlisted⟩ := h.listed
    have hbefore := hlisted before (call :: after) hcalls
    have hafter := hlisted (before ++ [call]) after (by simp [hcalls])
    rw [addRewards_concat, hperform] at hafter
    rw [hbetween₁.findByEventId_eq hid₁, Except.ok.injEq] at hbefore
    rw [hbetween'.findByEventId_eq hid', Except.ok.injEq] at hafter
    exact ⟨_, _, hbefore, hafter⟩

/-- Where rules and items are shown as they were added, every call was sent as it is shown. -/
theorem ShownAsAdded.sent {calls before after : List AddRewardCall} {call : AddRewardCall}
    {db : Db} {eventId : String} {event₁ : EventDocument} (h : ShownAsAdded db eventId calls)
    (hcalls : calls = before ++ call :: after)
    (hbetween₁ : Between (addRewards before db).1 event₁ (call :: after))
    (hid₁ : ObjectId.ofString eventId = some event₁._id) : SentAsShown event₁ call.requestDto := by
  have hon := hbetween₁.on call List.mem_cons_self
  constructor
  · intro rule item hnames
    obtain ⟨response, db', hok⟩ :=
      hnames.addReward_ok hbetween₁.wellFormed hbetween₁.event_mem hon call.newRuleId
    obtain ⟨event', hbetween', hid', entry, hentry, hshown⟩ := hbetween₁.added hok
    cases hshown with
    | rule newRule config item hmakes hentry' hresponse hlisted =>
      exact absurd (hnames.name.symm.trans hmakes.name) (toString_ne_empty _)
    | item rule' item' hnames' hentry' hresponse hlisted =>
      obtain ⟨rfl, rfl⟩ := hnames.unique
        (hbetween₁.wellFormed.events.rules event₁ hbetween₁.event_mem) hnames'
      have hsame : entry.id = response.id := by rw [hresponse]
      obtain ⟨hanswer, replies, listed, hbefore, hafter⟩ := h.call hcalls hbetween₁ hid₁ hbetween'
        (hid' ▸ hid₁) hok hentry hsame
      have hne : call.requestDto.ruleId ≠ "" := by
        rw [hnames.name]
        exact toString_ne_empty _
      rw [listedAfter_item replies response hne, ← hbefore, hlisted] at hafter
      refine ⟨(withItem_inj hafter (List.mem_map_of_mem hnames.mem) hnames.name.symm).symm, ?_⟩
      have hfurther := congrArg RewardRuleDto.furtherConfig (hresponse.symm.trans hanswer)
      rw [hentry'] at hfurther
      exact hfurther
  · intro newRule config item hmakes
    obtain ⟨response, db', hok⟩ :=
      hmakes.addReward_ok hbetween₁.wellFormed hbetween₁.event_mem hon call.newRuleId
    obtain ⟨event', hbetween', hid', entry, hentry, hshown⟩ := hbetween₁.added hok
    cases hshown with
    | item rule item hnames hentry' hresponse hlisted =>
      exact absurd (hnames.name.symm.trans hmakes.name) (toString_ne_empty _)
    | rule newRule' config' item' hmakes' hentry' hresponse hlisted =>
      obtain ⟨rfl, rfl⟩ := hmakes.unique hmakes'
      have hsame : entry.id = response.id := by rw [hresponse, hentry']
      obtain ⟨hanswer, -⟩ := h.call hcalls hbetween₁ hid₁ hbetween' (hid' ▸ hid₁) hok hentry hsame
      rw [hresponse, hentry', RewardRuleDto.mk.injEq] at hanswer
      exact ⟨List.singleton_injective hanswer.2.2.2, hanswer.2.2.1⟩

/-- For any sequence of calls on a stored event, rules and items are shown as they were
added exactly when every call that can go through sends its item, and the config of its
rule, as a listing shows them. -/
theorem rules_shown_as_added_iff {κ : Type} [DecidableEq κ] {s : ServiceState κ}
    (h : ReachableService s) (event : EventDocument) (hevent : event ∈ s.db.events)
    (eventId : String) (hid : ObjectId.ofString eventId = some event._id)
    (calls : List AddRewardCall)
    (hon : ∀ call ∈ calls, ObjectId.ofString call.requestDto.eventId = some event._id)
    (hfresh : FreshRuleIds calls s.db) :
    ShownAsAdded s.db eventId calls ↔
      ∀ before call after, calls = before ++ call :: after →
        ∀ event' ∈ (addRewards before s.db).1.events, event'._id = event._id →
          SentAsShown event' call.requestDto := by
  have hbetween : Between s.db event calls :=
    ⟨h.coherent.db, h.configsAccepted, hevent, hon, hfresh⟩
  constructor
  · intro hshown before call after hcalls event' hevent' hid'
    obtain ⟨event₁, hbetween₁, hid₁⟩ := (hcalls ▸ hbetween).middle
    obtain rfl : event' = event₁ :=
      hbetween₁.wellFormed.event_unique hevent' hbetween₁.event_mem (hid'.trans hid₁.symm)
    exact hshown.sent hcalls hbetween₁ (hid'.symm ▸ hid)
  · intro hsent
    refine ⟨⟨event.rewardRules.map RewardRuleDocument.entry, hbetween.findByEventId_eq hid, ?_⟩, ?_,
      fun _ _ _ _ _ _ hperform => AddRewardCall.perform_eq_error hperform⟩
    · intro sofar later hcalls
      obtain ⟨event', hbetween', hid', hlisted⟩ := hbetween.listed_eq hsent sofar later hcalls
      rw [hbetween'.findByEventId_eq (hid'.symm ▸ hid), hlisted]
    · intro before call after hcalls db' response hperform
      obtain ⟨event₁, hbetween₁, hid₁⟩ := (hcalls ▸ hbetween).middle
      obtain ⟨event', hbetween', hid', entry, hentry, hshown⟩ :=
        hbetween₁.added (AddRewardCall.perform_eq_ok hperform)
      obtain rfl := hshown.response_eq
        (hsent before call after hcalls event₁ hbetween₁.event_mem hid₁)
      refine ⟨hbetween'.listedEntry_eq ((hid'.trans hid₁).symm ▸ hid) hentry, ?_⟩
      intro hname
      cases hshown with
      | item rule item hnames hentry hresponse hlisted =>
        exact absurd (hnames.name.symm.trans hname) (toString_ne_empty _)
      | rule newRule config item hmakes hentry hresponse hlisted =>
        obtain ⟨htype, fields, hinput, hlookup⟩ := validateRuleConfig_fields hmakes.config_eq
        rw [hresponse]
        exact ⟨newRule, fields, hmakes.newRule_eq, rfl, htype, hinput, hlookup⟩

/-! An event without rules; a rule, an item for it, an item for a rule that is not there
and a second rule whose config has a key too many. -/

namespace SampleListing

open Sample (eventId conditionRuleId stageRuleId)

def state : ServiceState Nat :=
  (run (step perform) (Sample.alone (.createEvent ⟨"Launch", some 100, some 200, some false⟩
    eventId 0 0)) (initial Db.empty)).getD (initial Db.empty)

def event : EventDocument := ⟨eventId, "Launch", 100, 200, .INACTIVE, false, []⟩

theorem creation_run : (run (step perform) (Sample.alone (.createEvent ⟨"Launch", some 100,
    some 200, some false⟩ eventId 0 0)) (initial Db.empty)).map State.db =
      some ⟨[event], [], []⟩ := by
  decide +kernel

theorem state_reachable : ReachableService state := ⟨_, (run_of_view creation_run).1⟩

theorem state_db : state.db = ⟨[event], [], []⟩ := (run_of_view creation_run).2

def addRule (rewardItem : SubmittedItem) (fields : List (String × JsonValue))
    (newRuleId : ObjectId) : AddRewardCall :=
  ⟨⟨eventId.toString, rewardItem, some ⟨none, some ⟨.PER_CONDITION, .object fields⟩⟩⟩, newRuleId⟩

def addItem (ruleId newRuleId : ObjectId) : AddRewardCall :=
  ⟨⟨eventId.toString, RewardItem.submitted ⟨some "CASH", some 500⟩,
    some ⟨some ruleId.toString, none⟩⟩, newRuleId⟩

def coupon : SubmittedItem := RewardItem.submitted ⟨some "COUPON", some 1⟩

def calls : List AddRewardCall :=
  [addRule coupon [("perThreshold", .num 3), ("metric", .str "loginStreak")] conditionRuleId,
    addItem conditionRuleId (ObjectId.ofDigit 4), addItem stageRuleId (ObjectId.ofDigit 5),
    addRule coupon [("perThreshold", .num 3), ("metric", .str "loginStreak"), ("bonus", .num 1)]
      (ObjectId.ofDigit 6)]

theorem calls_fresh : FreshRuleIds calls state.db := by
  rw [state_db]
  exact ⟨by decide, fun _ _ => rfl⟩

theorem calls_on (call : AddRewardCall) (hcall : call ∈ calls) :
    ObjectId.ofString call.requestDto.eventId = some eventId := by
  simp only [calls, List.mem_cons, List.not_mem_nil, or_false] at hcall
  rcases hcall with rfl | rfl | rfl | rfl <;> simp [addRule, addItem]

/-- A coupon with a property that the schema does not declare. -/
def notedCoupon : SubmittedItem where
  json := ⟨some (.str "COUPON"), some (.num 1), [("note", .str "welcome")]⟩
  cast := some ⟨some "COUPON", some 1⟩
  cast_plain := by
    intro item further h
    have hsame : (⟨some "COUPON", some 1⟩ : RewardItem).toDto = item.toDto := by
      simp only [RewardItem.toDto, Option.map_some, RewardItemDto.mk.injEq, and_true] at h ⊢
      exact ⟨h.1, h.2.1⟩
    rw [RewardItem.toDto_injective hsame]

def addNoted : AddRewardCall :=
  addRule notedCoupon [("perThreshold", .num 3), ("metric", .str "loginStreak")] conditionRuleId

end SampleListing

open SampleListing in
theorem rules_shown_as_added_iff_sample :
    ShownAsAdded state.db Sample.eventId.toString calls ↔
      ∀ before call after, calls = before ++ call :: after →
        ∀ event' ∈ (addRewards before state.db).1.events, event'._id = event._id →
          SentAsShown event' call.requestDto :=
  rules_shown_as_added_iff state_reachable event (by simp [state_db]) Sample.eventId.toString
    (by simp [event]) calls calls_on calls_fresh

open SampleListing in
/-- The response to a new rule has a property of the item that the listing has not. -/
theorem new_rule_answered_as_sent :
    ReachableService state ∧ event ∈ state.db.events ∧ FreshRuleIds [addNoted] state.db ∧
      ¬ShownAsAdded state.db Sample.eventId.toString [addNoted] := by
  refine ⟨state_reachable, by simp [state_db], ?_, ?_⟩
  · rw [state_db]
    exact ⟨by decide, fun _ _ => rfl⟩
  · intro h
    let entry (item : RewardItemDto) : RewardRuleDto :=
      ⟨Sample.conditionRuleId.toString, .perCondition ⟨"loginStreak", 3⟩, [], [item]⟩
    let stored : Db := ⟨[{ event with rewardRules := [Sample.conditionRule] }], [], []⟩
    have hperform : addNoted.perform state.db = (stored, .ok (entry notedCoupon.json)) := by
      rw [state_db]
      decide +kernel
    have hlisted : listedEntry stored Sample.eventId.toString Sample.conditionRuleId.toString =
        .ok (some (entry coupon.json)) := by
      decide +kernel
    obtain ⟨hanswer, -⟩ := h.answered [] addNoted [] rfl stored _ hperform
    rw [hlisted] at hanswer
    exact absurd hanswer (by decide)

end MapleRewards
