import MapleRewards.Writes
import MapleRewards.Lib.Processes

/-!
# Event names

`create` looks the name up and stores the event in a second repository call. No index
makes names unique, so another call may store the same name in between.
-/
namespace MapleRewards

open Processes LabelledRuns Collection

variable {κ : Type}

/-- What `create` hands to the repository. -/
def EventCreateRequestDto.toCreate (dto : EventCreateRequestDto) (newId : ObjectId)
    (createdAt : Int) : EventData :=
  { _id := newId
    name := dto.name
    startedAt := dto.startedAt
    endedAt := dto.endedAt
    autoReward := dto.autoReward
    status := determineInitialStatus dto.startedAt dto.endedAt createdAt
    rewardRules := [] }

def Db.nameTaken (db : Db) (name : String) : Bool :=
  db.events.any fun event => event.name == jsTrim name

/-- What a call does next. `before` counts the events stored when the call looked its
name up; `taken` says whether the name was stored when the call came to store its own
event. Neither is read by the code. -/
inductive CreateCall where
  | idle
  | store (toCreate : EventData) (before : Nat)
  | done (result : Except Thrown EventDto) (taken : Bool)

inductive CreateInput where
  | create (dto : EventCreateRequestDto) (newId : ObjectId) (validatedAt createdAt : Int)
  | proceed

/-- The validation needs no repository call, so it belongs to the step of the lookup. -/
def CreateCall.act (_ : κ) (input : CreateInput) (call : CreateCall) (db : Db) :
    Option (CreateCall × Db) :=
  match call, input with
  | .idle, .create dto newId validatedAt createdAt =>
    match EventValidator.validateEventPeriod dto.startedAt dto.endedAt validatedAt with
    | .error err => some (.done (.error err) false, db)
    | .ok _ =>
      match EventRepository.findByName db (dto.toCreate newId createdAt).name with
      | some _ => some (.done (throwEvent .DUPLICATED_EVENT) false, db)
      | none => some (.store (dto.toCreate newId createdAt) db.events.length, db)
  | .store toCreate _, .proceed =>
    match EventRepository.create db toCreate with
    | .error err => some (.done (.error err) (db.nameTaken toCreate.name), db)
    | .ok (createdEvent, db') =>
      some (.done (.ok (EventMapper.toEventDto createdEvent)) (db.nameTaken toCreate.name), db')
  | _, _ => none

abbrev CreateState (κ : Type) := Processes.State κ CreateCall Db

/-- Nothing but the calls moves. -/
abbrev CreateMove (κ : Type) := Processes.Move κ CreateInput Empty

variable [DecidableEq κ] in
def createStep : CreateState κ → CreateMove κ → Option (CreateState κ) :=
  Processes.step CreateCall.act fun nobody => nomatch nobody

def createInitial (db : Db) : CreateState κ := ⟨db, fun _ => .idle⟩

/-- No two stored events share a name, and every call that found its name stored when it
came to store its event has answered so. -/
structure NamesUnique (s : CreateState κ) : Prop where
  names : (s.shared.events.map EventDocument.name).Nodup
  refused : ∀ c result, s.locals c = .done result true → result = throwEvent .DUPLICATED_EVENT

/-- No call comes to store its event after its name was stored since its own lookup. -/
def NotForestalled (s : CreateState κ) : CreateMove κ → Prop
  | .act c _ =>
    match s.locals c with
    | .store toCreate before =>
      ∀ event ∈ s.shared.events.drop before, event.name ≠ jsTrim toCreate.name
    | _ => True
  | .env _ => True

/-! ## One call -/

/-- Everything one action of a call can do. -/
inductive CreateActed : CreateCall → Db → CreateCall → Db → Prop where
  | refuses (err : Thrown) (db : Db) : CreateActed .idle db (.done (.error err) false) db
  | looksUp (toCreate : EventData) (db : Db) (hfree : db.nameTaken toCreate.name = false) :
      CreateActed .idle db (.store toCreate db.events.length) db
  | fails (toCreate : EventData) (before : Nat) (err : Thrown) (db : Db)
      (herr : err = .validationError ∨ err = .duplicateKeyError) :
      CreateActed (.store toCreate before) db
        (.done (.error err) (db.nameTaken toCreate.name)) db
  | stores (toCreate : EventData) (before : Nat) (event : EventDocument) (db : Db)
      (hname : event.name = jsTrim toCreate.name) :
      CreateActed (.store toCreate before) db
        (.done (.ok (EventMapper.toEventDto event)) (db.nameTaken toCreate.name))
        { db with events := db.events ++ [event] }

theorem EventSchema_name {data : EventData} {event : EventDocument}
    (h : EventSchema data = some event) : event.name = jsTrim data.name := by
  unfold EventSchema at h
  split at h
  · split at h
    · cases h
    · cases h
      rfl
  · cases h

theorem EventRepository.create_eq_error {db : Db} {data : EventData} {err : Thrown}
    (h : EventRepository.create db data = .error err) :
    err = .validationError ∨ err = .duplicateKeyError := by
  unfold EventRepository.create at h
  split at h
  · cases h
    exact Or.inl rfl
  · split at h
    · cases h
      exact Or.inr rfl
    · cases h

theorem nameTaken_of_findByName {db : Db} {name : String}
    (h : EventRepository.findByName db name = none) : db.nameTaken name = false := by
  rw [EventRepository.findByName, List.find?_eq_none] at h
  rw [Db.nameTaken, List.any_eq_false]
  exact h

theorem createAct_acted {c : κ} {input : CreateInput} {call call' : CreateCall} {db db' : Db}
    (h : call.act c input db = some (call', db')) : CreateActed call db call' db' := by
  unfold CreateCall.act at h
  split at h
  · split at h
    · cases h
      exact .refuses _ db
    · split at h
      · cases h
        exact .refuses _ db
      · next hfree =>
        cases h
        exact .looksUp _ db (nameTaken_of_findByName hfree)
  · split at h
    · next err hcreate =>
      cases h
      exact .fails _ _ err db (EventRepository.create_eq_error hcreate)
    · next event db'' hcreate =>
      cases h
      obtain ⟨hschema, -, rfl⟩ := EventRepository.create_eq_ok hcreate
      exact .stores _ _ event db (EventSchema_name hschema)
  · cases h

theorem EventService.create_eq (snap db : Db) (dto : EventCreateRequestDto) (newId : ObjectId)
    (validatedAt createdAt : Int) :
    EventService.create snap db dto newId validatedAt createdAt = (do
      EventValidator.validateEventPeriod dto.startedAt dto.endedAt validatedAt
      match EventRepository.findByName snap (dto.toCreate newId createdAt).name with
      | some _ => throwEvent .DUPLICATED_EVENT
      | none =>
        let (createdEvent, db') ← EventRepository.create db (dto.toCreate newId createdAt)
        .ok (EventMapper.toEventDto createdEvent, db')) := rfl

/-- Run alone, the steps of a call compute `EventService.create`. -/
theorem create_alone (c : κ) (db : Db) (dto : EventCreateRequestDto) (newId : ObjectId)
    (validatedAt createdAt : Int) :
    let outcome := EventService.create db db dto newId validatedAt createdAt
    ∃ inputs taken, alone CreateCall.act c inputs .idle db =
      some (.done (outcome.map Prod.fst) taken, ((outcome.map Prod.snd).toOption).getD db) := by
  intro outcome
  have houtcome := EventService.create_eq db db dto newId validatedAt createdAt
  cases hperiod : EventValidator.validateEventPeriod dto.startedAt dto.endedAt validatedAt with
  | error err =>
    refine ⟨[.create dto newId validatedAt createdAt], false, ?_⟩
    simp [alone, CreateCall.act, outcome, houtcome, hperiod, bind, Except.bind, Except.map,
      Except.toOption]
  | ok u =>
    cases hfound : EventRepository.findByName db (dto.toCreate newId createdAt).name with
    | some event =>
      refine ⟨[.create dto newId validatedAt createdAt], false, ?_⟩
      simp [alone, CreateCall.act, outcome, houtcome, hperiod, hfound, bind, Except.bind,
        throwEvent, Except.map, Except.toOption]
    | none =>
      refine ⟨[.create dto newId validatedAt createdAt, .proceed],
        db.nameTaken (dto.toCreate newId createdAt).name, ?_⟩
      cases hcreate : EventRepository.create db (dto.toCreate newId createdAt) <;>
        simp [alone, CreateCall.act, outcome, houtcome, hperiod, hfound, hcreate, bind,
          Except.bind, Except.map, Except.toOption]

/-! ## The outline of a call -/

/-- The name was free when the call looked it up. -/
def CreateOutline (_ : κ) (call : CreateCall) (db : Db) : Prop :=
  match call with
  | .store toCreate before =>
    before ≤ db.events.length ∧
      ∀ event ∈ db.events.take before, event.name ≠ jsTrim toCreate.name
  | _ => True

theorem CreateOutline.append {d : κ} {call : CreateCall} {db : Db} (h : CreateOutline d call db)
    (event : EventDocument) : CreateOutline d call { db with events := db.events ++ [event] } := by
  cases call with
  | store toCreate before =>
    obtain ⟨hle, hfree⟩ := h
    refine ⟨?_, ?_⟩
    · rw [List.length_append]
      omega
    · rw [List.take_append_of_le_length hle]
      exact hfree
  | idle => trivial
  | done result taken => trivial

theorem create_outline :
    Outline (@CreateCall.act κ) (fun nobody : Empty => nomatch nobody) (fun _ => True)
      (fun _ => True) CreateOutline where
  own := by
    intro c input call db call' db' _ _ hcall hact
    refine ⟨trivial, ?_⟩
    cases createAct_acted hact with
    | refuses err db => trivial
    | looksUp toCreate db hfree =>
      refine ⟨Nat.le_refl _, ?_⟩
      rw [List.take_length]
      intro event hevent hname
      rw [Db.nameTaken, List.any_eq_false] at hfree
      exact hfree event hevent (by simp [hname])
    | fails toCreate before err db herr => trivial
    | stores toCreate before event db hname => trivial
  others := by
    intro c input call db call' db' d other _ _ _ hact _ hother
    cases createAct_acted hact with
    | refuses err db => exact hother
    | looksUp toCreate db hfree => exact hother
    | fails toCreate before err db herr => exact hother
    | stores toCreate before event db hname => exact hother.append event
  env := by
    intro nobody
    cases nobody

/-! ## One step -/

/-- Of a call that comes to store its event, the name is stored exactly if it was stored
since the lookup. -/
theorem CreateOutline.nameTaken_iff {c : κ} {toCreate : EventData} {before : Nat} {db : Db}
    (h : CreateOutline c (.store toCreate before) db) :
    db.nameTaken toCreate.name = true ↔
      ∃ event ∈ db.events.drop before, event.name = jsTrim toCreate.name := by
  simp only [Db.nameTaken, List.any_eq_true, beq_iff_eq]
  constructor
  · rintro ⟨event, hevent, hname⟩
    rw [← List.take_append_drop before db.events, List.mem_append] at hevent
    cases hevent with
    | inl hold => exact absurd hname (h.2 event hold)
    | inr hnew => exact ⟨event, hnew, hname⟩
  · rintro ⟨event, hevent, hname⟩
    exact ⟨event, List.mem_of_mem_drop hevent, hname⟩

theorem notForestalled_iff {s : CreateState κ} {c : κ} {input : CreateInput}
    {toCreate : EventData} {before : Nat} (hlocal : s.locals c = .store toCreate before)
    (ho : CreateOutline c (.store toCreate before) s.shared) :
    NotForestalled s (.act c input) ↔ s.shared.nameTaken toCreate.name = false := by
  simp only [NotForestalled, hlocal]
  rw [← Bool.not_eq_true, ho.nameTaken_iff]
  push Not
  rfl

variable [DecidableEq κ]

/-- A call that ends otherwise than by a name it found stored changes no other answer. -/
theorem NamesUnique.update {s : CreateState κ} (h : NamesUnique s) {db : Db}
    (hnames : (db.events.map EventDocument.name).Nodup) {c : κ} {call : CreateCall}
    (hcall : ∀ result, call ≠ .done result true) :
    NamesUnique ⟨db, Function.update s.locals c call⟩ := by
  refine ⟨hnames, ?_⟩
  intro d result hd
  by_cases hdc : d = c
  · subst hdc
    exact absurd (by simpa using hd) (hcall result)
  · simp only [Function.update_of_ne hdc] at hd
    exact h.refused d result hd

theorem NamesUnique.answered {locals : κ → CreateCall} {db : Db} {c : κ}
    {result : Except Thrown EventDto} {taken : Bool}
    (h : NamesUnique ⟨db, Function.update locals c (.done result taken)⟩)
    (hresult : result ≠ throwEvent .DUPLICATED_EVENT) : taken = false := by
  cases taken with
  | false => rfl
  | true => exact absurd (h.refused c result (by simp)) hresult

/-- A step keeps the names unique exactly if it is not one of a forestalled call. -/
theorem namesUnique_step {s t : CreateState κ} {m : CreateMove κ}
    (ho : Annotated (fun _ => True) CreateOutline s) (h : NamesUnique s)
    (hstep : createStep s m = some t) : NamesUnique t ↔ NotForestalled s m := by
  rcases step_cases hstep with ⟨c, input, call, db, rfl, hact, rfl⟩ | ⟨nobody, -, -⟩
  · have houtline := ho.locals c
    have hacted := createAct_acted hact
    cases hlocal : s.locals c with
    | idle =>
      have hguard : NotForestalled s (.act c input) := by simp [NotForestalled, hlocal]
      rw [hlocal] at hacted
      cases hacted with
      | refuses err db => exact iff_of_true (h.update h.names (by simp)) hguard
      | looksUp toCreate db hfree => exact iff_of_true (h.update h.names (by simp)) hguard
    | done result taken => simp [hlocal, CreateCall.act] at hact
    | store toCreate before =>
      rw [hlocal] at hacted houtline
      rw [notForestalled_iff hlocal houtline]
      cases hacted with
      | fails toCreate before err db herr =>
        constructor
        · intro hnames
          apply hnames.answered
          intro hrefused
          rcases herr with rfl | rfl <;> cases hrefused
        · intro hfree
          apply h.update h.names
          simp [hfree]
      | stores toCreate before event db hname =>
        constructor
        · intro hnames
          apply hnames.answered
          intro hrefused
          cases hrefused
        · intro hfree
          apply h.update
          · apply nodup_append_singleton _ h.names
            intro e he hsame
            rw [Db.nameTaken, List.any_eq_false] at hfree
            exact hfree e he (by simp [hsame, hname])
          · simp [hfree]
  · cases nobody

/-- Event names stay unique in a run, and a call that finds its name stored by the time
it would store its event is refused, exactly when no call is forestalled. -/
theorem names_unique_iff (db : Db) (hnames : (db.events.map EventDocument.name).Nodup)
    (moves : List (CreateMove κ)) :
    Always createStep NamesUnique moves (createInitial db) ↔
      Guarded createStep NotForestalled moves (createInitial db) := by
  apply always_iff_guarded (Annotated (fun _ => True) CreateOutline)
  · intro s m t ho _ hstep
    exact create_outline.step trivial ho hstep
  · intro s m t ho h hstep
    exact namesUnique_step ho h hstep
  · exact ⟨trivial, fun c => trivial⟩
  · exact ⟨hnames, by simp [createInitial]⟩

namespace SampleNames

def launch : EventCreateRequestDto := ⟨"Launch", some 100, some 200, none⟩

def create (c : Nat) (newId : ObjectId) : CreateMove Nat := .act c (.create launch newId 0 0)

def proceed (c : Nat) : CreateMove Nat := .act c .proceed

/-- Both calls look the name up before either of them stores its event. -/
def twoLaunches : List (CreateMove Nat) :=
  [create 0 (.ofDigit 1), create 1 (.ofDigit 2), proceed 0, proceed 1]

end SampleNames

open SampleNames in
theorem two_events_of_one_name :
    ∃ s, run createStep twoLaunches (createInitial Db.empty) = some s ∧
      s.shared.events.map EventDocument.name = ["Launch", "Launch"] ∧
      ¬Always createStep NamesUnique twoLaunches (createInitial Db.empty) := by
  have hstored : (run createStep twoLaunches (createInitial Db.empty)).map
      (fun s => s.shared.events.map EventDocument.name) = some ["Launch", "Launch"] := by
    decide +kernel
  obtain ⟨s, hrun, hnames⟩ := Option.map_eq_some_iff.mp hstored
  refine ⟨s, hrun, hnames, ?_⟩
  intro halways
  have hunique := (always_iff_prefixes.mp halways _ _ List.prefix_rfl hrun).names
  rw [hnames] at hunique
  exact absurd hunique (by decide)

open SampleNames in
/-- One after the other, no call is forestalled. -/
theorem names_unique_sample :
    Always createStep NamesUnique [create 0 (.ofDigit 1), proceed 0, create 1 (.ofDigit 2)]
      (createInitial Db.empty) := by
  apply (names_unique_iff Db.empty (by decide) _).mpr
  intro t ht
  refine ⟨trivial, ?_⟩
  have hlooked : createStep (createInitial Db.empty) (create 0 (.ofDigit 1)) =
      some ⟨Db.empty, Function.update (fun _ => .idle) 0
        (.store (launch.toCreate (.ofDigit 1) 0) 0)⟩ := by
    rfl
  rw [hlooked] at ht
  cases ht
  intro u hu
  refine ⟨by simp [proceed, NotForestalled, Db.empty], ?_⟩
  rcases step_cases hu with ⟨c, input, call, db, hmove, -, rfl⟩ | ⟨nobody, -, -⟩
  · cases hmove
    intro v _
    exact ⟨trivial, trivial⟩
  · cases nobody

end MapleRewards
