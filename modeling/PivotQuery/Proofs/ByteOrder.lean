import Mathlib.Algebra.Group.Nat.Defs
import Mathlib.Tactic.SplitIfs

namespace PivotQuery.Text

-- Texts in the order of their characters are in the order of their bytes.

def utf8 (text : String) : List UInt8 := text.toUTF8.data.toList

theorem utf8_eq (text : String) : utf8 text = text.toList.flatMap String.utf8EncodeChar := by
  rw [utf8, String.toUTF8_eq_toByteArray, ← String.utf8Encode_toList, List.utf8Encode,
    List.toList_data_toByteArray]

-- A number by its digits to the base 64, with a mark on the first and another on those behind it.
def digitBytes (mark : Nat) : Nat → Nat → List UInt8
  | 0, value => [UInt8.ofNat (value + mark)]
  | behind + 1, value => digitBytes mark behind (value / 64) ++ [UInt8.ofNat (value % 64 + 0x80)]

private theorem ofNat_lt {a b : Nat} (h : a < b) (hb : b < 256) :
    UInt8.ofNat a < UInt8.ofNat b := by
  rw [UInt8.lt_iff_toNat_lt, UInt8.toNat_ofNat', UInt8.toNat_ofNat', Nat.mod_eq_of_lt hb,
    Nat.mod_eq_of_lt (Nat.lt_trans h hb)]
  exact h

section Digits

variable {mark mark' count count' value other : Nat}

-- The first digit in which two numbers differ decides.
private theorem digitBytes_lt (h : value < other) (hother : other / 64 ^ count + mark < 256)
    (rest rest' : List UInt8) :
    digitBytes mark count value ++ rest < digitBytes mark count other ++ rest' := by
  induction count generalizing value other rest rest' with
  | zero =>
    rw [Nat.pow_zero, Nat.div_one] at hother
    exact List.cons_lt_cons_iff.mpr (Or.inl (ofNat_lt (by omega) hother))
  | succ count ih =>
    rw [Nat.pow_succ', ← Nat.div_div_eq_div_mul] at hother
    rw [digitBytes, digitBytes, List.append_assoc, List.append_assoc]
    rcases Nat.lt_or_ge (value / 64) (other / 64) with hlt | hge
    · exact ih hlt hother _ _
    · have heq : value / 64 = other / 64 := by omega
      have hlast : value % 64 + 0x80 < other % 64 + 0x80 := by omega
      rw [heq]
      exact List.append_left_lt
        (List.cons_lt_cons_iff.mpr (Or.inl (ofNat_lt hlast (by omega))))

private theorem exists_digitBytes_eq_cons (mark count value : Nat) :
    ∃ rest, digitBytes mark count value = UInt8.ofNat (value / 64 ^ count + mark) :: rest := by
  induction count generalizing value with
  | zero => exact ⟨[], by rw [digitBytes, Nat.pow_zero, Nat.div_one]⟩
  | succ count ih =>
    obtain ⟨rest, hrest⟩ := ih (value / 64)
    rw [digitBytes, hrest, Nat.div_div_eq_div_mul, ← Nat.pow_succ']
    exact ⟨_, List.cons_append⟩

private theorem digitBytes_lt_of_first
    (h : value / 64 ^ count + mark < other / 64 ^ count' + mark')
    (hother : other / 64 ^ count' + mark' < 256) (rest rest' : List UInt8) :
    digitBytes mark count value ++ rest < digitBytes mark' count' other ++ rest' := by
  obtain ⟨digits, hdigits⟩ := exists_digitBytes_eq_cons mark count value
  obtain ⟨digits', hdigits'⟩ := exists_digitBytes_eq_cons mark' count' other
  rw [hdigits, hdigits', List.cons_append, List.cons_append]
  exact List.cons_lt_cons_iff.mpr (Or.inl (ofNat_lt h hother))

end Digits

-- How many bytes of a character come behind the first one, and how that is marked in it.
def byteForm (value : Nat) : Nat × Nat :=
  if value ≤ 0x7f then (0, 0)
  else if value ≤ 0x7ff then (1, 0xc0)
  else if value ≤ 0xffff then (2, 0xe0)
  else (3, 0xf0)

def firstByte (value : Nat) : Nat := value / 64 ^ (byteForm value).1 + (byteForm value).2

private theorem toNat_lt (c : Char) : c.toNat < 0x110000 := by
  rcases c.valid with h | h
  · exact Nat.lt_trans h (by decide)
  · exact h.2

private theorem utf8EncodeChar_eq (c : Char) :
    String.utf8EncodeChar c = digitBytes (byteForm c.toNat).2 (byteForm c.toNat).1 c.toNat := by
  have hvalid := toNat_lt c
  have hval : c.val.toNat = c.toNat := rfl
  unfold String.utf8EncodeChar byteForm
  rw [hval]
  generalize c.toNat = value at *
  dsimp only
  split_ifs with hone htwo hthree
  · rfl
  · rw [Nat.mod_eq_of_lt (b := 0x20) (by omega)]
    rfl
  · have hsecond : value / 4096 = value / 64 / 64 := by omega
    rw [Nat.mod_eq_of_lt (b := 0x10) (by omega), hsecond]
    rfl
  · have hsecond : value / 4096 = value / 64 / 64 := by omega
    have hthird : value / 262144 = value / 64 / 64 / 64 := by omega
    rw [Nat.mod_eq_of_lt (b := 0x08) (by omega), hsecond, hthird]
    rfl

private theorem firstByte_lt {value : Nat} (h : value < 0x110000) : firstByte value < 256 := by
  unfold firstByte byteForm
  split_ifs <;> dsimp only <;> omega

-- More bytes have the greater mark.
private theorem byteForm_eq_or_lt {value other : Nat} (h : value < other)
    (hother : other < 0x110000) :
    byteForm value = byteForm other ∨ firstByte value < firstByte other := by
  unfold firstByte byteForm
  split_ifs <;> simp only [true_or] <;> right <;> omega

theorem utf8EncodeChar_append_lt {c d : Char} (h : c < d) (rest rest' : List UInt8) :
    String.utf8EncodeChar c ++ rest < String.utf8EncodeChar d ++ rest' := by
  have hlt : c.toNat < d.toNat := UInt32.lt_iff_toNat_lt.mp (Char.lt_def.mp h)
  have hfirst := firstByte_lt (toNat_lt d)
  rw [utf8EncodeChar_eq, utf8EncodeChar_eq]
  rcases byteForm_eq_or_lt hlt (toNat_lt d) with hform | hbyte
  · rw [hform]
    exact digitBytes_lt hlt hfirst rest rest'
  · exact digitBytes_lt_of_first hbyte hfirst rest rest'

theorem flatMap_utf8EncodeChar_lt {chars others : List Char} (h : chars < others) :
    chars.flatMap String.utf8EncodeChar < others.flatMap String.utf8EncodeChar := by
  induction h with
  | @nil c rest =>
    rw [List.flatMap_cons, utf8EncodeChar_eq]
    obtain ⟨digits, hdigits⟩ := exists_digitBytes_eq_cons (byteForm c.toNat).2
      (byteForm c.toNat).1 c.toNat
    rw [hdigits]
    exact .nil
  | cons _ ih => exact List.append_left_lt ih
  | rel hlt => exact utf8EncodeChar_append_lt hlt _ _

theorem utf8_lt {a b : String} (h : a < b) : utf8 a < utf8 b := by
  rw [utf8_eq, utf8_eq]
  exact flatMap_utf8EncodeChar_lt h

end PivotQuery.Text
