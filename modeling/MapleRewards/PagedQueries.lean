import MapleRewards.Services
import MapleRewards.Lib.Paging

/-!
# Paged queries

The lists of events and of reward requests. A page is read with two queries, one for
the documents and one for their number. What the database makes of `sortBy` is a
parameter: an order of the documents for each value of it. Ids are compared with the
strings of the filter, and no request is found by one.
-/
namespace MapleRewards

open Paging

/-- What the checks of the class accept: pages are numbered from 1. -/
structure PageableDto where
  page : Nat := 1
  pageSize : Nat := 20
  sortBy : Option String := none
  sortOrder : Option String := none
  page_pos : 1 ≤ page := by decide
  pageSize_pos : 1 ≤ pageSize := by decide

structure EventGetQueryDto extends PageableDto where
  active : Option Bool := none

structure RewardRequestGetQueryDto extends PageableDto where
  userId : Option String := none
  eventId : Option String := none
  status : Option String := none

structure PaginatedDto (α : Type) where
  data : List α
  total : Nat
  page : Nat
  pageSize : Nat

def PaginatedDto.read {α : Type} (result : PaginatedDto α) : List α × Nat :=
  (result.data, result.total)

/-- The same query for page `i + 1`. -/
def EventGetQueryDto.atPage (filter : EventGetQueryDto) (i : Nat) : EventGetQueryDto :=
  { filter with page := i + 1, page_pos := Nat.succ_pos i }

def RewardRequestGetQueryDto.atPage (filter : RewardRequestGetQueryDto) (i : Nat) :
    RewardRequestGetQueryDto :=
  { filter with page := i + 1, page_pos := Nat.succ_pos i }

def EventStatus.value : EventStatus → String
  | .ACTIVE => "ACTIVE"
  | .INACTIVE => "INACTIVE"

def RewardRequestStatus.value : RewardRequestStatus → String
  | .PENDING => "PENDING"
  | .SUCCESS => "SUCCESS"
  | .FAILED => "FAILED"

/-! ## Events -/

inductive QueryValue where
  | num (n : Int)
  | str (s : String)
  | bool (b : Bool)
  deriving DecidableEq

/-- The fields of the object, in the order of the class; what is undefined is not there. -/
def EventGetQueryDto.fields (filter : EventGetQueryDto) : List (String × QueryValue) :=
  [("page", .num filter.page), ("pageSize", .num filter.pageSize)] ++
    (filter.sortBy.map fun s => ("sortBy", QueryValue.str s)).toList ++
    (filter.sortOrder.map fun s => ("sortOrder", QueryValue.str s)).toList ++
    (filter.active.map fun b => ("active", QueryValue.bool b)).toList

/-- What a condition on a path is compared with. -/
def EventDocument.at (event : EventDocument) (path : String) : Option QueryValue :=
  match path with
  | "_id" => some (.str event._id.toString)
  | "name" => some (.str event.name)
  | "startedAt" => some (.num event.startedAt)
  | "endedAt" => some (.num event.endedAt)
  | "status" => some (.str event.status.value)
  | "autoReward" => some (.bool event.autoReward)
  | _ => none

/-- The status is asked for whenever `active` is given, whatever its value. -/
def EventRepository.query (active : Option Bool) (event : EventDocument) : Bool :=
  if active.isSome then event.status == .ACTIVE else true

def EventRepository.findAll (order : Option String → EventDocument → EventDocument → Bool)
    (db : Db) (active : Option Bool) (sortBy : Option String) (page limit : Nat) :
    List EventDocument :=
  window (page * limit) limit
    ((db.events.filter (EventRepository.query active)).mergeSort (order sortBy))

def EventRepository.count (db : Db) (filter : List (String × QueryValue)) : Nat :=
  db.events.countP fun event => filter.all fun condition => event.at condition.1 == some condition.2

def EventService.findAll (order : Option String → EventDocument → EventDocument → Bool) (db : Db)
    (filter : EventGetQueryDto) : Except Thrown (PaginatedDto EventDto) :=
  let events := EventRepository.findAll order db filter.active filter.sortBy filter.page
    filter.pageSize
  let total := EventRepository.count db filter.fields
  .ok ⟨events.map EventMapper.toEventDto, total, filter.page, filter.pageSize⟩

/-- The events that the query asks for. -/
def EventGetQueryDto.selects (filter : EventGetQueryDto) (event : EventDocument) : Bool :=
  match filter.active with
  | none => true
  | some true => event.status == .ACTIVE
  | some false => event.status == .INACTIVE

/-- Going through the pages yields exactly the events that the query asks for, in order,
and their number as the total. -/
def EventsReadWhole (order : Option String → EventDocument → EventDocument → Bool) (db : Db)
    (filter : EventGetQueryDto) : Prop :=
  ReadsAll (fun i => (EventService.findAll order db (filter.atPage i)).map PaginatedDto.read)
    filter.pageSize
    (((db.events.filter filter.selects).mergeSort (order filter.sortBy)).map
      EventMapper.toEventDto)

/-- The page number is itself a condition of the count, and no event has one. -/
theorem EventRepository.count_fields (db : Db) (filter : EventGetQueryDto) :
    EventRepository.count db filter.fields = 0 := by
  rw [EventRepository.count, List.countP_eq_zero]
  intro event _
  simp [EventGetQueryDto.fields, EventDocument.at]

/-- The pages follow each other, but the first `pageSize` events are on none of them. -/
theorem EventRepository.findAll_pages
    (order : Option String → EventDocument → EventDocument → Bool) (db : Db)
    (filter : EventGetQueryDto) (n : Nat) :
    pages (fun i => EventRepository.findAll order db filter.active filter.sortBy
        (filter.atPage i).page filter.pageSize) n =
      (((db.events.filter (EventRepository.query filter.active)).mergeSort
        (order filter.sortBy)).drop filter.pageSize).take (n * filter.pageSize) := by
  have hpages := pages_window filter.pageSize_pos 1
    ((db.events.filter (EventRepository.query filter.active)).mergeSort (order filter.sortBy)) n
  rw [Nat.one_mul] at hpages
  rw [← hpages]
  congr 1
  funext i
  rw [EventRepository.findAll, show (filter.atPage i).page = 1 + i from Nat.add_comm i 1]

/-- Events are read whole only where there is nothing to read. -/
theorem events_read_whole_iff (order : Option String → EventDocument → EventDocument → Bool)
    (db : Db) (filter : EventGetQueryDto) :
    EventsReadWhole order db filter ↔ ∀ event ∈ db.events, filter.selects event = false := by
  have hnone : db.events.filter filter.selects = [] ↔
      ∀ event ∈ db.events, filter.selects event = false := by
    simp [List.filter_eq_nil_iff]
  have hread : ∀ i, (EventService.findAll order db (filter.atPage i)).map PaginatedDto.read =
      .ok ((EventRepository.findAll order db filter.active filter.sortBy (i + 1)
        filter.pageSize).map EventMapper.toEventDto, 0) := by
    intro i
    rw [EventService.findAll, EventRepository.count_fields]
    rfl
  rw [← hnone]
  constructor
  · intro h
    have htotal := h.total (hread 0)
    exact map_mergeSort_eq_nil.mp (List.eq_nil_of_length_eq_zero htotal.symm)
  · intro h
    rw [EventsReadWhole, h, List.mergeSort_nil, List.map_nil]
    exact readsAll_nil filter.pageSize_pos _ hread

namespace SamplePages

def launch : EventDocument := ⟨.ofDigit 1, "Launch", 100, 200, .ACTIVE, true, []⟩

def paidOut : RewardRequestDocument :=
  ⟨.ofDigit 6, .ofDigit 1, .ofDigit 2, true, [], [], .SUCCESS, none, 50, some 50, none, none⟩

def db : Db := ⟨[launch], [paidOut], []⟩

/-- The successful requests of a user for the event, one to a page. -/
def paidTo (userId : ObjectId) : RewardRequestGetQueryDto :=
  { pageSize := 1, userId := some userId.toString, eventId := some launch._id.toString,
    status := some "SUCCESS" }

end SamplePages

open SamplePages in
/-- The only event is on no page, and the total is 0. -/
theorem event_never_listed : ¬ EventsReadWhole (fun _ _ _ => true) db { pageSize := 1 } := by
  intro h
  have hread : (EventService.findAll (fun _ _ _ => true) db
      (({ pageSize := 1 } : EventGetQueryDto).atPage 0)).map PaginatedDto.read = .ok ([], 0) := by
    rw [EventService.findAll, EventRepository.count_fields]
    simp [EventRepository.findAll, EventRepository.query, EventGetQueryDto.atPage, window, limit,
      PaginatedDto.read, Except.map, db]
  have hmatching : db.events.filter ({ pageSize := 1 } : EventGetQueryDto).selects = [launch] := rfl
  have htotal := h.total hread
  rw [hmatching, List.mergeSort_singleton] at htotal
  cases htotal

/-! ## Reward requests -/

/-- The value that a field of the filter is sent as; an undefined one is sent as null. -/
def queryValue : Option String → BsonValue
  | some s => .string s
  | none => .null

/-- All three conditions are always sent, and none of them is cast to an id. -/
def RewardRequestRepository.query (filter : RewardRequestGetQueryDto)
    (r : RewardRequestDocument) : Bool :=
  BsonValue.objectId r.userId == queryValue filter.userId &&
    BsonValue.objectId r.eventId == queryValue filter.eventId &&
    BsonValue.string r.status.value == queryValue filter.status

def RewardRequestRepository.findAll
    (order : Option String → RewardRequestDocument → RewardRequestDocument → Bool) (db : Db)
    (filter : RewardRequestGetQueryDto) : List RewardRequestDocument :=
  window filter.page filter.pageSize
    ((db.requests.filter (RewardRequestRepository.query filter)).mergeSort (order filter.sortBy))

def RewardRequestRepository.count (db : Db) (filter : RewardRequestGetQueryDto) : Nat :=
  db.requests.countP (RewardRequestRepository.query filter)

def RewardRequestService.paginate
    (order : Option String → RewardRequestDocument → RewardRequestDocument → Bool) (db : Db)
    (filter : RewardRequestGetQueryDto) : Except Thrown (PaginatedDto RewardRequestDto) :=
  let requests := RewardRequestRepository.findAll order db filter
  let total := RewardRequestRepository.count db filter
  .ok ⟨requests.map RewardRequestMapper.toDto, total, filter.page, filter.pageSize⟩

/-- The requests that the filter asks for: an absent field is no restriction. -/
def RewardRequestGetQueryDto.selects (filter : RewardRequestGetQueryDto)
    (r : RewardRequestDocument) : Bool :=
  filter.userId.all (fun id => ObjectId.ofString id == some r.userId) &&
    filter.eventId.all (fun id => ObjectId.ofString id == some r.eventId) &&
    filter.status.all (fun status => r.status.value == status)

/-- Going through the pages yields exactly the requests that the filter asks for, in
order, and their number as the total. -/
def RequestsReadWhole
    (order : Option String → RewardRequestDocument → RewardRequestDocument → Bool) (db : Db)
    (filter : RewardRequestGetQueryDto) : Prop :=
  ReadsAll (fun i =>
      (RewardRequestService.paginate order db (filter.atPage i)).map PaginatedDto.read)
    filter.pageSize
    (((db.requests.filter filter.selects).mergeSort (order filter.sortBy)).map
      RewardRequestMapper.toDto)

/-- An id that is given is no stored id, and neither is one that is not. -/
theorem RewardRequestRepository.query_eq_false (filter : RewardRequestGetQueryDto)
    (r : RewardRequestDocument) : RewardRequestRepository.query filter r = false := by
  unfold RewardRequestRepository.query queryValue
  cases filter.userId <;> simp

theorem RewardRequestService.paginate_read
    (order : Option String → RewardRequestDocument → RewardRequestDocument → Bool) (db : Db)
    (filter : RewardRequestGetQueryDto) :
    (RewardRequestService.paginate order db filter).map PaginatedDto.read = .ok ([], 0) := by
  have hfound : db.requests.filter (RewardRequestRepository.query filter) = [] := by
    simp [List.filter_eq_nil_iff, RewardRequestRepository.query_eq_false]
  have hcount : RewardRequestRepository.count db filter = 0 := by
    simp [RewardRequestRepository.count, List.countP_eq_zero,
      RewardRequestRepository.query_eq_false]
  simp [RewardRequestService.paginate, RewardRequestRepository.findAll, hfound, hcount,
    Except.map, PaginatedDto.read]

/-- Requests are read whole only where there is nothing to read. -/
theorem requests_read_whole_iff
    (order : Option String → RewardRequestDocument → RewardRequestDocument → Bool) (db : Db)
    (filter : RewardRequestGetQueryDto) :
    RequestsReadWhole order db filter ↔ ∀ r ∈ db.requests, filter.selects r = false := by
  have hnone : db.requests.filter filter.selects = [] ↔
      ∀ r ∈ db.requests, filter.selects r = false := by
    simp [List.filter_eq_nil_iff]
  have hread : ∀ i, (RewardRequestService.paginate order db (filter.atPage i)).map
      PaginatedDto.read = .ok ([], 0) :=
    fun i => RewardRequestService.paginate_read order db (filter.atPage i)
  rw [← hnone]
  constructor
  · intro h
    have htotal := h.total (hread 0)
    exact map_mergeSort_eq_nil.mp (List.eq_nil_of_length_eq_zero htotal.symm)
  · intro h
    rw [RequestsReadWhole, h, List.mergeSort_nil, List.map_nil]
    exact readsAll_nil filter.pageSize_pos (fun _ => []) hread

open SamplePages in
/-- The only request of the user for the event has the total 0. -/
theorem request_never_listed :
    ¬ RequestsReadWhole (fun _ _ _ => true) db (paidTo (.ofDigit 2)) := by
  intro h
  have hmatching : db.requests.filter (paidTo (.ofDigit 2)).selects = [paidOut] := by decide
  have htotal := h.total (RewardRequestService.paginate_read (fun _ _ _ => true) db
    ((paidTo (.ofDigit 2)).atPage 0))
  rw [hmatching, List.mergeSort_singleton] at htotal
  cases htotal

end MapleRewards
