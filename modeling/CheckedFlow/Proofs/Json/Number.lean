import CheckedFlow.Proofs.Json.Front

/-!
# Whole numbers in documents

A whole number is written with a sign if it is negative, and with the digits that it has: the first
one is not zero, unless it is the only one. A number of 64 bits is read back as it was; one of more
bits would become a float.

* `spanDigits_digits`: the digits in front of something else.
* `toDigits_head`, `foldl_toDigits`: the digits of a number have no leading zeros, and are those of
  the number.
* `number_takes`: whole numbers of 64 bits.
-/

namespace CheckedFlow.Json

variable {n : Nat} {ds : List Char} {rest : Bytes}

/-! ## Digits -/

/-- The value of a digit. -/
def digitValue (c : Char) : Nat := c.toNat - '0'.toNat

theorem toNat_lt_of_isDigit {c : Char} (h : c.isDigit = true) : c.toNat < 0x80 :=
  Nat.lt_of_le_of_lt (Char.isDigit_iff_toNat.mp h).2 (by decide)

theorem digit?_ofNat {c : Char} (h : c.isDigit = true) :
    digit? (UInt8.ofNat c.toNat) = some (digitValue c) := by
  rw [digit?, Bytes.ofUInt8_ofNat (toNat_lt_of_isDigit h), Text.digit?, if_pos h]
  rfl

/-- No digits are taken off bytes that stop what stands before them. -/
theorem spanDigits_stops (h : Reader.Stops rest) : spanDigits rest = ([], rest) := by
  cases rest with
  | nil => rfl
  | cons b rest =>
    have hb : digit? b = none := by
      rcases h b rfl with rfl | rfl | rfl <;> decide
    rw [spanDigits, hb]

theorem spanDigits_digits (hds : ∀ c ∈ ds, c.isDigit = true) (hrest : Reader.Stops rest) :
    spanDigits (Bytes.ofChars ds ++ rest) = (ds.map digitValue, rest) := by
  induction ds with
  | nil => exact spanDigits_stops hrest
  | cons c ds ih =>
    have hc := hds c List.mem_cons_self
    rw [Bytes.ofChars_cons (toNat_lt_of_isDigit hc), List.cons_append, spanDigits, digit?_ofNat hc,
      ih fun d hd => hds d (List.mem_cons_of_mem c hd), List.map_cons]

theorem isDigit_toDigits (n : Nat) : ∀ c ∈ Nat.toDigits 10 n, c.isDigit = true :=
  fun _ hc => Nat.isDigit_of_mem_toDigits (by decide) (by decide) hc

/-- A number of several digits does not start with zero. -/
theorem toDigits_head (n : Nat) :
    (Nat.toDigits 10 n).head? ≠ some '0' ∨ (Nat.toDigits 10 n).length = 1 := by
  suffices h : 0 < n → (Nat.toDigits 10 n).head? ≠ some '0' by
    rcases Nat.eq_zero_or_pos n with rfl | hn
    · exact .inr rfl
    · exact .inl (h hn)
  induction n using Nat.strongRecOn with
  | _ n ih =>
    intro hn
    rw [Nat.toDigits_eq_if (by decide)]
    split
    · rw [List.head?_cons, ne_eq, Option.some.injEq, Nat.digitChar_eq_zero]
      exact Nat.ne_of_gt hn
    · have hlt : n / 10 < n := Nat.div_lt_self hn (by decide)
      have hhead := ih _ hlt (Nat.div_pos (by omega) (by decide))
      cases hdigits : Nat.toDigits 10 (n / 10) with
      | nil => exact absurd hdigits Nat.toDigits_ne_nil
      | cons c cs => rwa [hdigits] at hhead

theorem foldl_toDigits (n : Nat) :
    ((Nat.toDigits 10 n).map digitValue).foldl (fun (m d : Nat) => 10 * m + d) 0 = n := by
  have h := Nat.ofDigitChars_toDigits (b := 10) (n := n) (by decide) (by decide)
  rw [Nat.ofDigitChars_eq_foldl] at h
  rw [List.foldl_map]
  exact h

theorem toDigits_begin (n : Nat) : ∃ c cs, Nat.toDigits 10 n = c :: cs ∧ c.isDigit = true := by
  obtain ⟨c, cs, hcs⟩ := List.exists_cons_of_ne_nil (Nat.toDigits_ne_nil (b := 10) (n := n))
  exact ⟨c, cs, hcs, isDigit_toDigits n c (hcs ▸ List.mem_cons_self)⟩

/-! ## Numerals -/

/-- The numeral of a whole number. -/
def wholeNumeral (n : Int) : Numeral :=
  ⟨decide (n < 0), (Nat.toDigits 10 n.natAbs).map digitValue, [], none⟩

theorem toList_signed (n : Int) :
    (Text.signed n).toList = (if n < 0 then ['-'] else []) ++ Nat.toDigits 10 n.natAbs := by
  rw [Text.signed, Text.decimal]
  split
  · simp only [String.toList_append, String.toList_ofList]
    rfl
  · rw [String.toList_ofList, List.nil_append]

/-- A number begins with a sign or a digit. -/
theorem signed_begin (n : Int) :
    ∃ c tail, (Text.signed n).toList = c :: tail ∧ (c = '-' ∨ c.isDigit = true) := by
  rw [toList_signed]
  split
  · exact ⟨'-', _, rfl, .inl rfl⟩
  · obtain ⟨c, cs, hcs, hdigit⟩ := toDigits_begin n.natAbs
    exact ⟨c, cs, hcs, .inr hdigit⟩

/-- Neither a fraction nor an exponent stands where something stops. -/
theorem readFraction_stops (h : Reader.Stops rest) : readFraction rest = .ok ([], rest) := by
  cases rest with
  | nil => rfl
  | cons b rest => rcases h b rfl with rfl | rfl | rfl <;> rfl

theorem readExponent_stops (h : Reader.Stops rest) : readExponent rest = .ok (none, rest) := by
  cases rest with
  | nil => rfl
  | cons b rest => rcases h b rfl with rfl | rfl | rfl <;> rfl

/-- The digits of a number are accepted as those of a numeral. -/
theorem toDigits_accepted (n : Nat) :
    ¬ (((Nat.toDigits 10 n).map digitValue).isEmpty = true ∨
      ((Nat.toDigits 10 n).map digitValue).head? = some 0 ∧
        ((Nat.toDigits 10 n).map digitValue).length ≠ 1) := by
  rintro (hempty | ⟨hzero, hlength⟩)
  · rw [List.isEmpty_iff, List.map_eq_nil_iff] at hempty
    exact Nat.toDigits_ne_nil hempty
  · rw [List.length_map] at hlength
    obtain ⟨c, hc, hvalue⟩ := by simpa using hzero
    have hdigit := isDigit_toDigits n c (List.mem_of_head? hc)
    have hc0 : c = '0' := by
      have hle := (Char.isDigit_iff_toNat.mp hdigit).1
      exact Char.toNat_inj.mp (Nat.le_antisymm (Nat.sub_eq_zero_iff_le.mp hvalue) hle)
    exact (toDigits_head n).elim (fun h => h (hc0 ▸ hc)) hlength

/-- The sign in front of a numeral, and what stands behind it. -/
def sign : Bytes → Bool × Bytes
  | 0x2D :: bs => (true, bs)
  | bs => (false, bs)

theorem readNumeral_eq (bs : Bytes) :
    readNumeral bs =
      let whole := spanDigits (sign bs).2
      if whole.1.isEmpty ∨ (whole.1.head? = some 0 ∧ whole.1.length ≠ 1) then .error .malformed
      else do
        let fraction ← readFraction whole.2
        let exponent ← readExponent fraction.2
        return (⟨(sign bs).1, whole.1, fraction.1, exponent.1⟩, exponent.2) := rfl

/-- A number is signed if it is negative. -/
theorem sign_signed (n : Int) (rest : Bytes) :
    sign (Bytes.ofChars (Text.signed n).toList ++ rest) =
      (decide (n < 0), Bytes.ofChars (Nat.toDigits 10 n.natAbs) ++ rest) := by
  rw [toList_signed]
  by_cases hn : n < 0
  · rw [if_pos hn, Bytes.ofChars_append, List.append_assoc, decide_eq_true hn]
    rfl
  · rw [if_neg hn, List.nil_append, decide_eq_false hn]
    obtain ⟨c, cs, hcs, hdigit⟩ := toDigits_begin n.natAbs
    rw [hcs, Bytes.ofChars_cons (toNat_lt_of_isDigit hdigit), List.cons_append, sign]
    intro bs hminus
    have hvalue := digit?_ofNat hdigit
    rw [(List.cons.inj hminus).1] at hvalue
    cases hvalue

theorem readNumeral_signed (n : Int) (hrest : Reader.Stops rest) :
    readNumeral (Bytes.ofChars (Text.signed n).toList ++ rest) = .ok (wholeNumeral n, rest) := by
  simp only [readNumeral_eq, sign_signed, spanDigits_digits (isDigit_toDigits n.natAbs) hrest,
    if_neg (toDigits_accepted n.natAbs), readFraction_stops hrest]
  change (readExponent rest >>= fun _ => _) = _
  rw [readExponent_stops hrest]
  rfl

/-- Of 64 bits the number is that of the numeral. -/
theorem value?_wholeNumeral {n : Int} (h : IsWord n) :
    (wholeNumeral n).value? = some (.whole n) := by
  obtain ⟨hlow, hhigh⟩ := h
  have hsize : UInt64.size = 18446744073709551616 := rfl
  simp only [Numeral.value?, wholeNumeral, foldl_toDigits, List.isEmpty_nil, Option.isNone_none,
    Bool.and_self]
  by_cases hn : n < 0
  · have hfits : n.natAbs ≠ 0 ∧ n.natAbs ≤ 0x8000000000000000 := by omega
    have hvalue : -(n.natAbs : Int) = n := by omega
    have hsign := decide_eq_true hn
    rw [if_neg fun h => h.2.1 hsign, if_pos ⟨trivial, hsign, hfits⟩, hvalue]
  · have hfits : n.natAbs < UInt64.size := by omega
    have hvalue : (n.natAbs : Int) = n := by omega
    rw [if_pos ⟨trivial, fun h => hn (of_decide_eq_true h), hfits⟩, hvalue]

/-- A whole number of 64 bits is read as it is written. -/
theorem number_takes {n : Int} (h : IsWord n) :
    Reader.Takes Reader.number (Text.signed n).toList (some (.whole n)) := by
  intro rest hrest
  let front := Bytes.ofChars (Text.signed n).toList ++ rest
  have hread : StateT.run (liftM (readNumeral front) : Reader _) front =
      .ok ((wholeNumeral n, rest), front) := by
    rw [readNumeral_signed n hrest]
    rfl
  rw [Reader.number, Reader.run_bind_ok (x := front) rfl, Reader.run_bind_ok hread]
  simp only [value?_wholeNumeral h]
  rfl

end CheckedFlow.Json
