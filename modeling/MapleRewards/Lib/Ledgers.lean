import MapleRewards.Lib.LabelledRuns
import Mathlib.Data.Multiset.Bind

/-!
# Ledgers of vouchers

A voucher stands for some rights and says what is paid for them. It is promised or paid. A
right may be promised any number of times and is good for one payment.
-/
namespace Ledgers

open LabelledRuns

variable {ι ε ρ : Type}

structure Voucher (ι ε ρ : Type) where
  id : ι
  rights : List ε
  goods : List ρ
  deriving DecidableEq

/-- The order in which vouchers are promised and paid is not kept. -/
structure Ledger (ι ε ρ : Type) where
  promised : Multiset (Voucher ι ε ρ)
  paid : Multiset (Voucher ι ε ρ)

inductive Entry (ι ε ρ : Type) where
  | promise (voucher : Voucher ι ε ρ)
  | pay (voucher : Voucher ι ε ρ)

namespace Ledger

def empty : Ledger ι ε ρ := ⟨0, 0⟩

/-- The rights that have been paid for. -/
def used (l : Ledger ι ε ρ) : Multiset ε := l.paid.bind fun voucher => voucher.rights

/-- Each right counts once and none has been used. -/
def Payable (l : Ledger ι ε ρ) (voucher : Voucher ι ε ρ) : Prop :=
  voucher.rights.Nodup ∧ ∀ right ∈ voucher.rights, right ∉ l.used

instance [DecidableEq ε] (l : Ledger ι ε ρ) (voucher : Voucher ι ε ρ) :
    Decidable (l.Payable voucher) :=
  inferInstanceAs (Decidable (_ ∧ _))

variable [DecidableEq ε]

def step (l : Ledger ι ε ρ) : Entry ι ε ρ → Option (Ledger ι ε ρ)
  | .promise voucher => some { l with promised := voucher ::ₘ l.promised }
  | .pay voucher => if l.Payable voucher then some { l with paid := voucher ::ₘ l.paid } else none

/-- Everything one entry can do. -/
theorem step_cases {l l' : Ledger ι ε ρ} {entry : Entry ι ε ρ} (h : l.step entry = some l') :
    (∃ voucher, entry = .promise voucher ∧
      l' = { l with promised := voucher ::ₘ l.promised }) ∨
    ∃ voucher, entry = .pay voucher ∧ l.Payable voucher ∧
      l' = { l with paid := voucher ::ₘ l.paid } := by
  cases entry with
  | promise voucher => exact .inl ⟨voucher, rfl, (Option.some.inj h).symm⟩
  | pay voucher =>
    simp only [step] at h
    split at h
    · next hpay => exact .inr ⟨voucher, rfl, hpay, (Option.some.inj h).symm⟩
    · cases h

omit [DecidableEq ε] in
theorem Payable.nodup {l : Ledger ι ε ρ} {voucher : Voucher ι ε ρ} (h : l.Payable voucher)
    (hused : l.used.Nodup) :
    ((voucher ::ₘ l.paid).bind fun v => (v.rights : Multiset ε)).Nodup := by
  rw [Multiset.cons_bind, Multiset.nodup_add]
  refine ⟨Multiset.coe_nodup.mpr h.1, hused, ?_⟩
  rw [Multiset.disjoint_left]
  intro right hright
  exact h.2 right (Multiset.mem_coe.mp hright)

theorem step_used {l l' : Ledger ι ε ρ} {entry : Entry ι ε ρ} (hused : l.used.Nodup)
    (h : l.step entry = some l') : l'.used.Nodup := by
  rcases step_cases h with ⟨voucher, -, rfl⟩ | ⟨voucher, -, hpay, rfl⟩
  · exact hused
  · exact hpay.nodup hused

/-- Nothing is paid for twice. -/
theorem used_nodup {l : Ledger ι ε ρ} (h : Reachable step empty l) : l.used.Nodup :=
  h.invariant (fun l => l.used.Nodup) (fun _ _ _ => step_used) Multiset.nodup_zero

end Ledger

/-! ## What the entries of a run add up to -/

namespace Entry

def promises : Entry ι ε ρ → Option (Voucher ι ε ρ)
  | .promise voucher => some voucher
  | _ => none

def pays : Entry ι ε ρ → Option (Voucher ι ε ρ)
  | .pay voucher => some voucher
  | _ => none

end Entry

namespace Ledger

variable [DecidableEq ε]

theorem run_paid {entries : List (Entry ι ε ρ)} {l l' : Ledger ι ε ρ}
    (h : run step entries l = some l') : l'.paid = l.paid + entries.filterMap Entry.pays := by
  induction entries generalizing l with
  | nil =>
    cases h
    simp
  | cons entry entries ih =>
    obtain ⟨m, hm, hrest⟩ := Option.bind_eq_some_iff.mp h
    rw [ih hrest]
    rcases step_cases hm with ⟨voucher, rfl, rfl⟩ | ⟨voucher, rfl, -, rfl⟩
    · rfl
    · rw [List.filterMap_cons_some (by rfl), ← Multiset.cons_coe, Multiset.cons_add,
        Multiset.add_cons]

/-- Promises are kept for good. -/
theorem run_promised {entries : List (Entry ι ε ρ)} {l l' : Ledger ι ε ρ}
    (h : run step entries l = some l') :
    l'.promised = l.promised + entries.filterMap Entry.promises := by
  induction entries generalizing l with
  | nil =>
    cases h
    simp
  | cons entry entries ih =>
    obtain ⟨m, hm, hrest⟩ := Option.bind_eq_some_iff.mp h
    rw [ih hrest]
    rcases step_cases hm with ⟨voucher, rfl, rfl⟩ | ⟨voucher, rfl, -, rfl⟩
    · rw [List.filterMap_cons_some (by rfl), ← Multiset.cons_coe, Multiset.cons_add,
        Multiset.add_cons]
    · rfl

end Ledger

end Ledgers
