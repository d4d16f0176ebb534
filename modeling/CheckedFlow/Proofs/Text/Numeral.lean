import CheckedFlow.Text.Numeral
import Mathlib.Data.List.TakeWhile

/-!
# What numerals write

A numeral below a bound is read digit by digit, and the reader stops where the number reaches the
bound. More digits never make a number smaller, so that is the same as reading all digits at the
front and looking at the bound afterwards.

* `Writes`: a text writes a number in decimal digits, with or without a plus in front.
* `Garbles`: why a text writes no number below a bound. Of a foreign character and a number that is
  too large, the one that shows first from the left counts.
* `readDigits_eq`, `readBounded_eq`: what is read, told by the digits at the front.
* `readBounded_ok_iff`, `readBounded_error_iff`: the reader accepts what writes a number below the
  bound, and tells why it refuses anything else.
-/

namespace CheckedFlow.Text

/-- `s` writes `n`: in at least one decimal digit, behind a plus or without one. -/
def Writes (s : String) (n : Nat) : Prop :=
  ∃ ds : List Char, ds ≠ [] ∧ (∀ c ∈ ds, c.isDigit = true) ∧
    (s.toList = ds ∨ s.toList = '+' :: ds) ∧ n = Nat.ofDigitChars 10 ds 0

/-- The characters behind the plus of a numeral, if it has one. -/
def unsigned (s : String) : List Char :=
  match s.toList with
  | '+' :: cs => cs
  | cs => cs

/-- The digits at the front of a numeral. -/
def front (s : String) : List Char := (unsigned s).takeWhile Char.isDigit

/-- What stands behind the digits. -/
def behind (s : String) : List Char := (unsigned s).dropWhile Char.isDigit

/-- The number that the digits at the front write. -/
def frontNumber (s : String) : Nat := Nat.ofDigitChars 10 (front s) 0

/-- Why `s` writes no number below `bound`. -/
def Garbles (bound : Nat) (s : String) : NumeralFault → Prop
  | .empty => s.toList = []
  /- the digits in front of the foreign character are within the bound -/
  | .badDigit => s.toList ≠ [] ∧ frontNumber s < bound ∧ (front s = [] ∨ behind s ≠ [])
  | .tooLarge => bound ≤ frontNumber s

/-! ## Digits -/

variable {bound n : Nat} {s : String}

theorem digit?_of_isDigit {c : Char} (h : c.isDigit = true) :
    digit? c = some (c.toNat - '0'.toNat) := if_pos h

theorem digit?_of_not {c : Char} (h : c.isDigit = false) : digit? c = none := by
  simp [digit?, h]

theorem le_ofDigitChars (ds : List Char) (n : Nat) : n ≤ Nat.ofDigitChars 10 ds n := by
  induction ds generalizing n with
  | nil => exact Nat.le_refl n
  | cons c ds ih =>
    rw [Nat.ofDigitChars_cons]
    have := ih (10 * n + (c.toNat - '0'.toNat))
    omega

/-- The bound is looked at after every digit, but the last look decides. -/
theorem readDigits_eq (hn : n < bound) (cs : List Char) :
    readDigits bound n cs =
      if Nat.ofDigitChars 10 (cs.takeWhile Char.isDigit) n < bound then
        if cs.dropWhile Char.isDigit = [] then
          .ok (Nat.ofDigitChars 10 (cs.takeWhile Char.isDigit) n)
        else .error .badDigit
      else .error .tooLarge := by
  induction cs generalizing n with
  | nil => simp [readDigits, hn]
  | cons c cs ih =>
    rw [readDigits]
    by_cases hc : c.isDigit = true
    · rw [digit?_of_isDigit hc, List.takeWhile_cons_of_pos hc, List.dropWhile_cons_of_pos hc,
        Nat.ofDigitChars_cons]
      dsimp only
      by_cases hlt : 10 * n + (c.toNat - '0'.toNat) < bound
      · rw [if_pos hlt, ih hlt]
      · have hle := le_ofDigitChars (cs.takeWhile Char.isDigit) (10 * n + (c.toNat - '0'.toNat))
        rw [if_neg hlt, if_neg (by omega)]
    · rw [digit?_of_not (by simpa using hc), List.takeWhile_cons_of_neg hc,
        List.dropWhile_cons_of_neg hc, Nat.ofDigitChars_nil, if_pos hn, if_neg (by simp)]

/-! ## Numerals -/

/-- Where there is something to read, a digit comes first or something that is no digit. -/
theorem readDigits_numeral (hb : 0 < bound) {cs : List Char} (hcs : cs ≠ []) :
    readDigits bound 0 cs =
      if Nat.ofDigitChars 10 (cs.takeWhile Char.isDigit) 0 < bound then
        if cs.takeWhile Char.isDigit = [] ∨ cs.dropWhile Char.isDigit ≠ [] then .error .badDigit
        else .ok (Nat.ofDigitChars 10 (cs.takeWhile Char.isDigit) 0)
      else .error .tooLarge := by
  have hsplit := List.takeWhile_append_dropWhile (p := Char.isDigit) (l := cs)
  rw [readDigits_eq hb]
  by_cases hrest : cs.dropWhile Char.isDigit = []
  · have hfront : cs.takeWhile Char.isDigit ≠ [] := by
      intro h
      rw [h, hrest] at hsplit
      exact hcs hsplit.symm
    simp [hrest, hfront]
  · simp [hrest]

theorem readBounded_eq (hb : 0 < bound) (s : String) :
    readBounded bound s =
      if s.toList = [] then .error .empty
      else if frontNumber s < bound then
        if front s = [] ∨ behind s ≠ [] then .error .badDigit else .ok (frontNumber s)
      else .error .tooLarge := by
  unfold readBounded frontNumber front behind unsigned
  split
  · rename_i h
    simp [h]
  · rename_i h
    simp [h, hb]
  · rename_i cs hcs h
    have hne : cs ≠ [] := fun hnil => hcs (by rw [hnil])
    simp only [h, reduceCtorEq, if_false]
    exact readDigits_numeral hb hne
  · rename_i hnil _ hplus
    rw [if_neg hnil]
    split
    · rename_i cs h
      exact absurd h (hplus cs)
    · exact readDigits_numeral hb hnil

/-- A plus is taken off once. -/
theorem toList_eq_unsigned (s : String) :
    s.toList = unsigned s ∨ s.toList = '+' :: unsigned s := by
  unfold unsigned
  split
  · rename_i h
    exact .inr h
  · exact .inl rfl

theorem unsigned_of_digits {ds : List Char} (hds : ∀ c ∈ ds, c.isDigit = true)
    (h : s.toList = ds ∨ s.toList = '+' :: ds) : unsigned s = ds := by
  unfold unsigned
  rcases h with h | h
  · split
    · rename_i cs hplus
      have hdigit := hds '+' (by rw [← h, hplus]; exact List.mem_cons_self)
      exact absurd hdigit (by decide)
    · exact h
  · simp [h]

/-- A text that writes a number is digits from the front to the end. -/
theorem writes_iff : Writes s n ↔ front s ≠ [] ∧ behind s = [] ∧ n = frontNumber s := by
  constructor
  · rintro ⟨ds, hne, hds, h, rfl⟩
    have hfront : front s = ds := by
      rw [front, unsigned_of_digits hds h, List.takeWhile_eq_self_iff]
      exact hds
    have hbehind : behind s = [] := by
      rw [behind, unsigned_of_digits hds h, List.dropWhile_eq_nil_iff]
      exact hds
    exact ⟨hfront ▸ hne, hbehind, by rw [frontNumber, hfront]⟩
  · rintro ⟨hne, hbehind, rfl⟩
    have hfront : front s = unsigned s := by
      have hsplit := List.takeWhile_append_dropWhile (p := Char.isDigit) (l := unsigned s)
      rwa [← front, ← behind, hbehind, List.append_nil] at hsplit
    refine ⟨front s, hne, fun c hc => ?_, hfront ▸ toList_eq_unsigned s, rfl⟩
    exact List.mem_takeWhile_imp hc

/-- The reader takes what writes a number below the bound. -/
theorem readBounded_ok_iff (hb : 0 < bound) :
    readBounded bound s = .ok n ↔ Writes s n ∧ n < bound := by
  have hempty : s.toList = [] → front s = [] := fun h => by simp [front, unsigned, h]
  rw [readBounded_eq hb, writes_iff]
  split_ifs with h hlt hstop
  · simp [hempty h]
  · rcases hstop with hfront | hbehind
    · simp [hfront]
    · simp [hbehind]
  · rw [not_or, not_ne_iff] at hstop
    simp only [Except.ok.injEq, hstop, ne_eq, not_false_eq_true, true_and, eq_comm (a := n)]
    exact ⟨fun h => ⟨h, h ▸ hlt⟩, And.left⟩
  · refine iff_of_false nofun ?_
    rintro ⟨⟨-, -, rfl⟩, h⟩
    exact hlt h

/-- A text that is refused garbles its number, and the reader tells how. -/
theorem readBounded_error_iff (hb : 0 < bound) {fault : NumeralFault} :
    readBounded bound s = .error fault ↔ Garbles bound s fault := by
  have hempty : s.toList = [] → frontNumber s < bound := fun h => by
    simpa [frontNumber, front, unsigned, h] using hb
  rw [readBounded_eq hb]
  split_ifs with h hlt hstop
  · cases fault <;> simp [Garbles, h, hempty h]
  · cases fault <;> simp [Garbles, h, hlt, hstop]
  · rw [not_or, not_ne_iff] at hstop
    cases fault <;> simp [Garbles, h, hlt, hstop]
  · cases fault <;> simp [Garbles, h, hlt, Nat.le_of_not_lt hlt]

end CheckedFlow.Text
