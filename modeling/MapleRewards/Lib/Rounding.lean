import Mathlib.Data.Int.Log
import Mathlib.Data.Rat.Floor
import Mathlib.Tactic.FieldSimp
import Mathlib.Tactic.Linarith
import Mathlib.Tactic.NormNum
import Mathlib.Tactic.Positivity
import Mathlib.Tactic.Ring

/-!
# Rounding to a number of binary digits

`roundTo p x` is the number with `p` significant binary digits that is nearest to `x`, and
of two equally near ones the one with the even last digit. The exponent is not bounded, so
this is what a binary floating-point operation returns between underflow and overflow.
-/
namespace Rounding

/-- The nearest integer, and of two the even one. -/
def nearest (x : Rat) : Int :=
  if x - ⌊x⌋ < 1 / 2 then ⌊x⌋
  else if x - ⌊x⌋ = 1 / 2 ∧ Even ⌊x⌋ then ⌊x⌋
  else ⌊x⌋ + 1

/-- The distance of two neighbours with `p` digits where `x` lies. -/
def spacing (p : Nat) (x : Rat) : Rat := 2 ^ (Int.log 2 |x| - p + 1)

def roundTo (p : Nat) (x : Rat) : Rat := nearest (x / spacing p x) * spacing p x

/-! ## To an integer -/

theorem nearest_cases (x : Rat) :
    (nearest x = ⌊x⌋ ∧ x - ⌊x⌋ ≤ 1 / 2) ∨ (nearest x = ⌊x⌋ + 1 ∧ 1 / 2 ≤ x - ⌊x⌋) := by
  unfold nearest
  split
  · next h => exact Or.inl ⟨rfl, le_of_lt h⟩
  · next h =>
    split
    · next heven => exact Or.inl ⟨rfl, le_of_eq heven.1⟩
    · exact Or.inr ⟨rfl, not_lt.mp h⟩

theorem nearest_error (x : Rat) : |(nearest x : Rat) - x| ≤ 1 / 2 := by
  have hlow := Int.floor_le x
  have hhigh := Int.lt_floor_add_one x
  rw [abs_le]
  rcases nearest_cases x with ⟨hn, h⟩ | ⟨hn, h⟩
  · rw [hn]
    constructor <;> linarith
  · rw [hn]
    push_cast
    constructor <;> linarith

@[simp] theorem nearest_intCast (n : Int) : nearest (n : Rat) = n := by
  simp [nearest]

/-- A step down could only be from a tie to itself, and a tie goes one way. -/
theorem nearest_mono {x y : Rat} (h : x ≤ y) : nearest x ≤ nearest y := by
  have hx : nearest x ≤ ⌊x⌋ + 1 := by
    rcases nearest_cases x with ⟨hn, -⟩ | ⟨hn, -⟩ <;> omega
  have hy : ⌊y⌋ ≤ nearest y := by
    rcases nearest_cases y with ⟨hn, -⟩ | ⟨hn, -⟩ <;> omega
  rcases eq_or_lt_of_le (Int.floor_le_floor h) with heq | hlt
  · rcases nearest_cases x with ⟨hnx, -⟩ | ⟨hnx, hhalfx⟩
    · omega
    · rcases nearest_cases y with ⟨hny, hhalfy⟩ | ⟨hny, -⟩
      · have hfloors : (⌊x⌋ : Rat) = ⌊y⌋ := by rw [heq]
        have hsame : x = y := by linarith
        rw [hsame]
      · omega
  · omega

/-! ## To `p` digits -/

theorem spacing_pos (p : Nat) (x : Rat) : 0 < spacing p x := zpow_pos (by norm_num) _

/-- The spacing is small against the number itself. -/
theorem spacing_le {p : Nat} {x : Rat} (hx : 0 < x) : spacing p x ≤ 2 / 2 ^ p * x := by
  have hlog : (2 : Rat) ^ Int.log 2 |x| ≤ x := by
    rw [abs_of_pos hx]
    exact Int.zpow_log_le_self (by norm_num) hx
  calc spacing p x = 2 / 2 ^ p * 2 ^ Int.log 2 |x| := by
        rw [spacing, zpow_add₀ (by norm_num), zpow_sub₀ (by norm_num), zpow_natCast, zpow_one]
        ring
    _ ≤ 2 / 2 ^ p * x := by gcongr

theorem roundTo_error (p : Nat) (x : Rat) : |roundTo p x - x| ≤ spacing p x / 2 := by
  have hpos := spacing_pos p x
  have hscaled : roundTo p x - x = (nearest (x / spacing p x) - x / spacing p x) * spacing p x := by
    rw [roundTo, sub_mul, div_mul_cancel₀ _ (ne_of_gt hpos)]
  rw [hscaled, abs_mul, abs_of_pos hpos]
  calc |(nearest (x / spacing p x) : Rat) - x / spacing p x| * spacing p x
      ≤ 1 / 2 * spacing p x := by
        gcongr
        exact nearest_error _
    _ = spacing p x / 2 := by ring

/-- The relative error is at most half a unit of the last digit. -/
theorem roundTo_le_add {p : Nat} {x : Rat} (hx : 0 < x) : roundTo p x ≤ x + x / 2 ^ p := by
  have herror := (abs_le.mp (roundTo_error p x)).2
  have hhalf : spacing p x / 2 ≤ x / 2 ^ p := by
    calc spacing p x / 2 ≤ 2 / 2 ^ p * x / 2 := by
          gcongr
          exact spacing_le hx
      _ = x / 2 ^ p := by ring
  linarith

/-- Rounding does not cross a multiple of the spacing. -/
theorem roundTo_le_of_le {p : Nat} {x z : Rat} (k : Int) (hz : z = k * spacing p x) (h : x ≤ z) :
    roundTo p x ≤ z := by
  have hpos := spacing_pos p x
  have hscaled : x / spacing p x ≤ k := by
    rw [div_le_iff₀ hpos, ← hz]
    exact h
  have hnearest : nearest (x / spacing p x) ≤ k := by simpa using nearest_mono hscaled
  rw [roundTo, hz]
  gcongr

theorem le_roundTo_of_le {p : Nat} {x z : Rat} (k : Int) (hz : z = k * spacing p x) (h : z ≤ x) :
    z ≤ roundTo p x := by
  have hpos := spacing_pos p x
  have hscaled : (k : Rat) ≤ x / spacing p x := by
    rw [le_div_iff₀ hpos, ← hz]
    exact h
  have hnearest : k ≤ nearest (x / spacing p x) := by simpa using nearest_mono hscaled
  rw [roundTo, hz]
  gcongr

/-- A power of two that is not below the last digit of `x` is a multiple of its spacing. -/
theorem two_zpow_eq_mul_spacing {p : Nat} {x : Rat} {e : Int} (h : Int.log 2 |x| - p + 1 ≤ e) :
    (2 : Rat) ^ e = ((2 ^ (e - (Int.log 2 |x| - p + 1)).toNat : Int) : Rat) * spacing p x := by
  have hnat : ((e - (Int.log 2 |x| - p + 1)).toNat : Int) = e - (Int.log 2 |x| - p + 1) :=
    Int.toNat_of_nonneg (by omega)
  push_cast
  rw [spacing, ← zpow_natCast, hnat, ← zpow_add₀ (by norm_num)]
  congr 1
  ring

theorem roundTo_natCast {p n : Nat} (h : n < 2 ^ p) : roundTo p n = n := by
  have hmultiple : ∃ k : Int, (n : Rat) = k * spacing p n := by
    rcases Nat.eq_zero_or_pos n with rfl | hn
    · exact ⟨0, by simp⟩
    · have hdigits : Nat.log 2 n < p := (Nat.log_lt_iff_lt_pow (by norm_num) (by omega)).mpr h
      have hlog : Int.log 2 |(n : Rat)| = (Nat.log 2 n : Int) := by
        rw [abs_of_nonneg (by positivity), Int.log_natCast]
      have hunit := two_zpow_eq_mul_spacing (p := p) (x := n) (e := 0) (by omega)
      rw [zpow_zero] at hunit
      refine ⟨n * 2 ^ (0 - (Int.log 2 |(n : Rat)| - p + 1)).toNat, ?_⟩
      push_cast at hunit ⊢
      rw [mul_assoc, ← hunit, mul_one]
  obtain ⟨k, hk⟩ := hmultiple
  exact le_antisymm (roundTo_le_of_le k hk le_rfl) (le_roundTo_of_le k hk le_rfl)

theorem roundTo_nonneg {p : Nat} {x : Rat} (hx : 0 ≤ x) : 0 ≤ roundTo p x :=
  le_roundTo_of_le 0 (by simp) hx

/-- Rounding keeps the order of nonnegative numbers. -/
theorem roundTo_mono {p : Nat} (hp : 0 < p) {x y : Rat} (hx : 0 ≤ x) (h : x ≤ y) :
    roundTo p x ≤ roundTo p y := by
  rcases eq_or_lt_of_le hx with rfl | hxpos
  · have hzero : roundTo p 0 ≤ 0 := roundTo_le_of_le 0 (by simp) le_rfl
    exact hzero.trans (roundTo_nonneg h)
  · have hypos : 0 < y := lt_of_lt_of_le hxpos h
    have hlogs : Int.log 2 |x| ≤ Int.log 2 |y| := by
      rw [abs_of_pos hxpos, abs_of_pos hypos]
      exact Int.log_mono_right hxpos h
    rcases eq_or_lt_of_le hlogs with heq | hlt
    · have hpos := spacing_pos p y
      have hsame : spacing p x = spacing p y := by rw [spacing, spacing, heq]
      have hnearest : nearest (x / spacing p y) ≤ nearest (y / spacing p y) := by
        apply nearest_mono
        gcongr
      rw [roundTo, roundTo, hsame]
      gcongr
    · -- a power of two lies between them, a multiple of both spacings
      have hbelow : (2 : Rat) ^ Int.log 2 |y| ≤ y := by
        rw [abs_of_pos hypos]
        exact Int.zpow_log_le_self (by norm_num) hypos
      have habove : x ≤ (2 : Rat) ^ Int.log 2 |y| := by
        calc x ≤ 2 ^ (Int.log 2 |x| + 1) := by
              rw [abs_of_pos hxpos]
              exact le_of_lt (Int.lt_zpow_succ_log_self (by norm_num) x)
          _ ≤ 2 ^ Int.log 2 |y| := zpow_le_zpow_right₀ (by norm_num) (by omega)
      calc roundTo p x ≤ 2 ^ Int.log 2 |y| :=
            roundTo_le_of_le _ (two_zpow_eq_mul_spacing (by omega)) habove
        _ ≤ roundTo p y := le_roundTo_of_le _ (two_zpow_eq_mul_spacing (by omega)) hbelow

end Rounding
