import Mathlib.Data.List.Basic

/-!
# Object ids and their spellings

An id is identified with its canonical spelling, 24 lower-case hexadecimal digits,
which is what `toString` prints. `new Types.ObjectId(s)` accepts the same digits in
either case and throws on every other string.
-/
namespace MapleRewards

def hexDigits : List Char :=
  ['0', '1', '2', '3', '4', '5', '6', '7', '8', '9', 'a', 'b', 'c', 'd', 'e', 'f']

def lowerHexDigit : Char → Char
  | 'A' => 'a'
  | 'B' => 'b'
  | 'C' => 'c'
  | 'D' => 'd'
  | 'E' => 'e'
  | 'F' => 'f'
  | c => c

structure ObjectId where
  hex : List Char
  length_hex : hex.length = 24
  lower_hex : ∀ c ∈ hex, c ∈ hexDigits
  deriving DecidableEq

namespace ObjectId

def toString (x : ObjectId) : String := String.ofList x.hex

def isHexDigit (c : Char) : Bool := hexDigits.contains (lowerHexDigit c)

theorem mem_of_isHexDigit {c : Char} (h : isHexDigit c = true) : lowerHexDigit c ∈ hexDigits := by
  simpa [isHexDigit] using h

/-- `new Types.ObjectId(s)`; `none` stands for the BSONError it throws. -/
def ofString (s : String) : Option ObjectId :=
  if h : s.toList.length = 24 ∧ s.toList.all isHexDigit = true then
    some ⟨s.toList.map lowerHexDigit, by simp [h.1], by
      intro c hc
      obtain ⟨d, hd, rfl⟩ := List.mem_map.mp hc
      exact mem_of_isHexDigit (List.all_eq_true.mp h.2 d hd)⟩
  else none

theorem lowerHexDigit_of_mem {c : Char} (h : c ∈ hexDigits) : lowerHexDigit c = c := by
  have hall : hexDigits.all (fun d => lowerHexDigit d == d) = true := by decide
  simpa using List.all_eq_true.mp hall c h

theorem map_lowerHexDigit {cs : List Char} (h : ∀ c ∈ cs, c ∈ hexDigits) :
    cs.map lowerHexDigit = cs := by
  induction cs with
  | nil => rfl
  | cons c cs ih =>
    rw [List.map_cons, lowerHexDigit_of_mem (h c List.mem_cons_self),
      ih (fun d hd => h d (List.mem_cons_of_mem c hd))]

/-- Printing an id and reading it back gives the id. -/
@[simp] theorem ofString_toString (x : ObjectId) : ofString x.toString = some x := by
  have hlist : x.toString.toList = x.hex := by simp [toString]
  have hlower : x.hex.map lowerHexDigit = x.hex := map_lowerHexDigit x.lower_hex
  have hvalid : x.toString.toList.length = 24 ∧ x.toString.toList.all isHexDigit = true := by
    rw [hlist, List.all_eq_true]
    refine ⟨x.length_hex, ?_⟩
    intro c hc
    have hmem := x.lower_hex c hc
    simpa [isHexDigit, lowerHexDigit_of_mem hmem] using hmem
  unfold ofString
  rw [dif_pos hvalid]
  cases x
  simp_all

theorem toString_injective : Function.Injective toString := by
  intro x y h
  have hxy : ofString x.toString = ofString y.toString := by rw [h]
  simpa using hxy

@[simp] theorem toString_inj {x y : ObjectId} : x.toString = y.toString ↔ x = y :=
  toString_injective.eq_iff

/-- The id that repeats the last hexadecimal digit of a number, for concrete inputs. -/
def ofDigit (n : Nat) : ObjectId :=
  ⟨List.replicate 24 (hexDigits.get ⟨n % 16, Nat.mod_lt n (by decide)⟩), by simp, by
    intro d hd
    rw [List.eq_of_mem_replicate hd]
    exact List.get_mem hexDigits _⟩

end ObjectId

end MapleRewards
