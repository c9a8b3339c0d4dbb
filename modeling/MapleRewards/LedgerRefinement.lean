import MapleRewards.Payout
import MapleRewards.Lib.Ledgers
import MapleRewards.Lib.Simulation

/-!
# The service as a ledger

What the event service does: a user gets a right to what a rule of an event pays, the
right is promised or paid at once, and no right is paid twice. Every run of the service is
a run of such a ledger, with one entry for each claim that promises or pays.
-/
namespace MapleRewards

open SnapshotStore LabelledRuns Collection Ledgers

variable {κ : Type} [DecidableEq κ]

/-- A user's right to what a rule of an event pays. -/
structure RewardRight where
  userId : ObjectId
  eventId : ObjectId
  ruleId : ObjectId
  deriving DecidableEq

abbrev RewardVoucher := Voucher ObjectId RewardRight RewardItem

abbrev RewardEntry := Entry ObjectId RewardRight RewardItem

abbrev RewardLedger := Ledger ObjectId RewardRight RewardItem

def RewardRequestDocument.voucher (r : RewardRequestDocument) : RewardVoucher :=
  ⟨r._id, r.ruleIds.map fun ruleId => ⟨r.userId, r.eventId, ruleId⟩, r.rewards⟩

def vouchers (requests : Multiset RewardRequestDocument) (status : RewardRequestStatus) :
    Multiset RewardVoucher :=
  (requests.filter fun r => r.status = status).map RewardRequestDocument.voucher

/-- The ledger that a store keeps. A FAILED request is not in it. -/
def Db.ledger (db : Db) : RewardLedger :=
  ⟨vouchers db.requests .PENDING, vouchers db.requests .SUCCESS⟩

def RewardRequestDocument.entry (r : RewardRequestDocument) : Option RewardEntry :=
  match r.status with
  | .PENDING => some (.promise r.voucher)
  | .SUCCESS => some (.pay r.voucher)
  | .FAILED => none

/-- What a command enters when it leaves the store `db'`. -/
def Command.entry (db' : Db) : Command → Option RewardEntry
  | .createRewardRequest _ _ newId _ _ =>
    (db'.requests.find? fun r => r._id == newId).bind RewardRequestDocument.entry
  | _ => none

/-- The entry of a commit. -/
def ledgerEntry (s : ServiceState κ) : SnapshotStore.Event κ Command → Option RewardEntry
  | .commit c =>
    (s.active c).bind fun p => (perform p.1 p.2 s.db).bind fun db' => p.1.entry db'
  | _ => none

/-! ## One commit -/

theorem vouchers_cons_of_eq {r : RewardRequestDocument} {status : RewardRequestStatus}
    (h : r.status = status) (requests : Multiset RewardRequestDocument) :
    vouchers (r ::ₘ requests) status = r.voucher ::ₘ vouchers requests status := by
  rw [vouchers, Multiset.filter_cons_of_pos (p := fun r : RewardRequestDocument =>
    r.status = status) _ h, Multiset.map_cons]
  rfl

theorem vouchers_cons_of_ne {r : RewardRequestDocument} {status : RewardRequestStatus}
    (h : r.status ≠ status) (requests : Multiset RewardRequestDocument) :
    vouchers (r ::ₘ requests) status = vouchers requests status := by
  rw [vouchers, Multiset.filter_cons_of_neg (p := fun r : RewardRequestDocument =>
    r.status = status) _ h]
  rfl

theorem ledger_of_perm (db : Db) {r : RewardRequestDocument} {rest : List RewardRequestDocument}
    (h : db.requests.Perm (r :: rest)) :
    db.ledger = ⟨vouchers (r ::ₘ rest) .PENDING, vouchers (r ::ₘ rest) .SUCCESS⟩ := by
  rw [Db.ledger, Multiset.coe_eq_coe.mpr h]
  rfl

/-- A right is used by the request that was paid for it. -/
theorem mem_used {db : Db} {right : RewardRight} :
    right ∈ db.ledger.used ↔ ∃ r ∈ db.requests, r.status = .SUCCESS ∧ r.userId = right.userId ∧
      r.eventId = right.eventId ∧ right.ruleId ∈ r.ruleIds := by
  simp only [Db.ledger, Ledger.used, vouchers, Multiset.mem_bind, Multiset.mem_map,
    Multiset.mem_filter, Multiset.mem_coe]
  constructor
  · rintro ⟨v, ⟨r, ⟨hr, hs⟩, rfl⟩, hright⟩
    obtain ⟨id, hid, rfl⟩ := List.mem_map.mp hright
    exact ⟨r, hr, hs, rfl, rfl, hid⟩
  · rintro ⟨r, hr, hs, hu, he, hid⟩
    exact ⟨_, ⟨r, ⟨hr, hs⟩, rfl⟩, List.mem_map.mpr ⟨right.ruleId, hid, by rw [hu, he]⟩⟩

/-- The unique index lets a request be paid whose rights are unused. -/
theorem payable_of_unclashed {db : Db} {r : RewardRequestDocument} (hnodup : r.ruleIds.Nodup)
    (hsuccess : r.status = .SUCCESS) (hfree : ∀ r' ∈ db.requests, clashes r' r = false) :
    db.ledger.Payable r.voucher := by
  constructor
  · apply hnodup.map
    intro id id' h
    exact congrArg RewardRight.ruleId h
  · intro right hright hused
    obtain ⟨id, hid, rfl⟩ := List.mem_map.mp hright
    obtain ⟨r', hr', hs, hu, he, hid'⟩ := mem_used.mp hused
    have hclash : clashes r' r = true :=
      clashes_eq_true.mpr ⟨hs, hsuccess, hu, he, id, hid', hid⟩
    rw [hfree r' hr'] at hclash
    cases hclash

section Commit

variable {snap db db' : Db}

theorem claim_enters (hdb' : WellFormed db') {eventId : String} {dto : RewardRequestCreateDto}
    {newId : ObjectId} {checkedAt requestedAt : Int}
    (h : perform (.createRewardRequest eventId dto newId checkedAt requestedAt) snap db =
      some db') :
    ((Command.createRewardRequest eventId dto newId checkedAt requestedAt).entry db').elim
      (some db.ledger) db.ledger.step = some db'.ledger := by
  obtain ⟨response, h⟩ := committed_eq_some h
  obtain ⟨event, granted, r, hissued, rfl, -, -, hfree, rfl⟩ :=
    RewardRequestService.createRewardRequest_writes h
  have hfind : (db.requests ++ [r]).find? (fun q => q._id == r._id) = some r :=
    find?_key_of_mem RewardRequestDocument._id hdb'.requestIds (by simp)
  have hledger := ledger_of_perm { db with requests := db.requests ++ [r] }
    (List.perm_append_singleton r db.requests)
  simp only [Command.entry, hfind, Option.bind_some, RewardRequestDocument.entry]
  cases hstatus : r.status with
  | PENDING =>
    rw [hledger, vouchers_cons_of_eq hstatus, vouchers_cons_of_ne (by simp [hstatus])]
    rfl
  | SUCCESS =>
    obtain ⟨e, -, -, hsound⟩ := hdb'.requests r (by simp)
    have hpay : db.ledger.Payable r.voucher :=
      payable_of_unclashed hsound.nodup hstatus fun r' hr' => (hfree r' hr').2
    rw [hledger, vouchers_cons_of_ne (by simp [hstatus]), vouchers_cons_of_eq hstatus]
    simp only [Option.elim_some, Ledger.step, hpay, if_true]
    rfl
  | FAILED =>
    rw [hledger, vouchers_cons_of_ne (by simp [hstatus]), vouchers_cons_of_ne (by simp [hstatus])]
    rfl

/-- Any commit, from any earlier snapshot. -/
theorem perform_enters (hsnap : WellFormed snap) (hdb : WellFormed db) (hev : Evolves snap db)
    {command : Command} (h : perform command snap db = some db') :
    (command.entry db').elim (some db.ledger) db.ledger.step = some db'.ledger := by
  have hother : db'.requests = db.requests → some db.ledger = some db'.ledger := by
    intro heq
    rw [Db.ledger, Db.ledger, heq]
  cases command with
  | createRewardRequest eventId dto newId checkedAt requestedAt =>
    exact claim_enters (perform_preserves.commit _ _ _ _ hsnap hdb hev h).1 h
  | _ => exact hother ((perform_wrote h).requests_eq (by simp))

end Commit

/-! ## Runs -/

theorem step_enters {s t : ServiceState κ} {e : SnapshotStore.Event κ Command}
    (hs : Coherent WellFormed Evolves s) (h : step perform s e = some t) :
    (ledgerEntry s e).elim (some s.db.ledger) s.db.ledger.step = some t.db.ledger := by
  rcases step_cases h with ⟨c, command, rfl, rfl⟩ |
    ⟨c, command, snap, db', rfl, hc, hperform, rfl⟩ | ⟨c, rfl, rfl⟩
  · rfl
  · obtain ⟨hsnap, hev⟩ := hs.active c command snap hc
    simp only [ledgerEntry, hc, Option.bind_some, hperform]
    exact perform_enters hsnap hs.db hev hperform
  · rfl

theorem ledger_simulation : Simulation (step perform) Ledger.step ledgerEntry
    (fun s : ServiceState κ => s.db.ledger) (Coherent WellFormed Evolves) where
  inv := fun _ _ _ hs h => (hs.step perform_preserves h).1
  silent := by
    intro s e t hs h hnone
    have hstep := step_enters hs h
    rw [hnone] at hstep
    exact (Option.some.inj hstep).symm
  visible := by
    intro s e t entry hs h hsome
    have hstep := step_enters hs h
    rw [hsome] at hstep
    exact hstep

/-- The entries that the commits of a run make. -/
def ledgerTrace (es : List (SnapshotStore.Event κ Command)) : List RewardEntry :=
  trace (step perform) ledgerEntry es (initial Db.empty)

/-- Every run of the service is a run of the ledger. What has been paid is what the entries
pay, no right twice, and what is pending is all that they have ever promised. -/
theorem service_refines_ledger {es : List (SnapshotStore.Event κ Command)} {s : ServiceState κ}
    (h : run (step perform) es (initial Db.empty) = some s) :
    run Ledger.step (ledgerTrace es) Ledger.empty = some s.db.ledger ∧
      s.db.ledger.used.Nodup ∧
      vouchers s.db.requests .SUCCESS = (ledgerTrace es).filterMap Entry.pays ∧
      vouchers s.db.requests .PENDING = (ledgerTrace es).filterMap Entry.promises := by
  have hrun : run Ledger.step (ledgerTrace es) Ledger.empty = some s.db.ledger :=
    ledger_simulation.run (coherent_initial WellFormed.empty) h
  refine ⟨hrun, Ledger.used_nodup ⟨_, hrun⟩, ?_, ?_⟩
  · have hpaid := Ledger.run_paid hrun
    rw [Ledger.empty, Multiset.zero_add] at hpaid
    exact hpaid
  · have hpromised := Ledger.run_promised hrun
    rw [Ledger.empty, Multiset.zero_add] at hpromised
    exact hpromised

/-- Of two claims for the same rights one is paid. -/
theorem service_refines_ledger_sample :
    run Ledger.step (ledgerTrace Sample.overlapping) Ledger.empty = some Sample.state.db.ledger ∧
      vouchers Sample.state.db.requests .SUCCESS = {Sample.paid.voucher} := by
  refine ⟨(service_refines_ledger Sample.state_run).1, ?_⟩
  rw [Sample.state_requests]
  decide +kernel

end MapleRewards
