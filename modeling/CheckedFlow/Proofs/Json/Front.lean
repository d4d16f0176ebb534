import CheckedFlow.Json.Reader
import CheckedFlow.Json.Render

/-!
# The front of a document

Readers take what they want off the front of a byte string. What they are shown here is written
text, in front of any other bytes that do not continue it.

* `Bytes.ofChars`: the UTF-8 form of characters; a character of ASCII is one byte.
* `run_bind_ok`, `run_bind_error`: a reader goes on where the one before it stopped.
* `peek_char`, `skip_char`, `literal_word`: single characters and words.
* `Stops`: bytes with which nothing that stands before them goes on.
* `Takes`: a reader takes a value off the front where it is written, or refuses it.
  `run_bind_outcome`: what comes after.
-/

namespace CheckedFlow

/-! ## Characters as bytes -/

namespace Bytes

/-- The UTF-8 form of characters. -/
def ofChars (cs : List Char) : Bytes := cs.flatMap String.utf8EncodeChar

@[simp] theorem ofChars_nil : ofChars [] = [] := rfl

@[simp] theorem ofChars_append (cs ds : List Char) :
    ofChars (cs ++ ds) = ofChars cs ++ ofChars ds := List.flatMap_append

theorem ofText_ofList (cs : List Char) : ofText (String.ofList cs) = ofChars cs := by
  rw [ofText, String.toByteArray_ofList, List.utf8Encode, List.toList_data_toByteArray, ofChars]

theorem ofText_eq_ofChars (s : String) : ofText s = ofChars s.toList := by
  rw [← ofText_ofList, String.ofList_toList]

theorem length_le_ofChars (cs : List Char) : cs.length ≤ (ofChars cs).length := by
  induction cs with
  | nil => exact Nat.le_refl _
  | cons c cs ih =>
    have hc : 0 < (String.utf8EncodeChar c).length :=
      List.length_pos_iff.mpr String.utf8EncodeChar_ne_nil
    rw [ofChars, List.flatMap_cons, List.length_append, List.length_cons]
    exact Nat.add_comm 1 _ ▸ Nat.add_le_add hc ih

/-- A character of ASCII is one byte. -/
theorem ofChars_cons {c : Char} (hc : c.toNat < 0x80) (cs : List Char) :
    ofChars (c :: cs) = UInt8.ofNat c.toNat :: ofChars cs := by
  have h : String.utf8EncodeChar c = [UInt8.ofNat c.toNat] := by
    rw [String.utf8EncodeChar]
    exact if_pos (Nat.le_of_lt_succ hc)
  rw [ofChars, List.flatMap_cons, h]
  rfl

/-- The bytes of other characters are not of ASCII. -/
theorem le_of_mem_utf8EncodeChar {c : Char} (hc : 0x80 ≤ c.toNat) :
    ∀ b ∈ String.utf8EncodeChar c, 0x80 ≤ b.toNat := by
  have hle : ¬ c.val.toNat ≤ 127 := fun h => absurd hc (Nat.not_le.mpr (Nat.lt_succ_of_le h))
  simp only [String.utf8EncodeChar, if_neg hle]
  intro b hb
  split at hb
  · simp only [List.mem_cons, List.not_mem_nil, or_false] at hb
    rcases hb with rfl | rfl <;> simp only [UInt8.toNat_ofNat'] <;> omega
  · split at hb
    · simp only [List.mem_cons, List.not_mem_nil, or_false] at hb
      rcases hb with rfl | rfl | rfl <;> simp only [UInt8.toNat_ofNat'] <;> omega
    · simp only [List.mem_cons, List.not_mem_nil, or_false] at hb
      rcases hb with rfl | rfl | rfl | rfl <;> simp only [UInt8.toNat_ofNat'] <;> omega

/-- A byte of ASCII is the character with its number. -/
theorem ofUInt8_ofNat {c : Char} (hc : c.toNat < 0x80) : Char.ofUInt8 (UInt8.ofNat c.toNat) = c := by
  apply Char.ext
  apply UInt32.toNat.inj
  change (UInt8.ofNat c.toNat).toUInt32.toNat = c.toNat
  rw [UInt8.toNat_toUInt32, UInt8.toNat_ofNat']
  exact Nat.mod_eq_of_lt (by omega)

end Bytes

namespace Json.Reader

open Decoding

variable {α β : Type} {r : Reader α} {f : α → Reader β} {bs rest : Bytes} {x : α} {c : Char}
  {cs : List Char}

/-! ## Steps of a reader -/

theorem run_bind_ok (h : r.run bs = .ok (x, rest)) : (r >>= f).run bs = (f x).run rest := by
  rw [StateT.run_bind, h]
  rfl

theorem run_bind_error {e : Fault} (h : r.run bs = .error e) : (r >>= f).run bs = .error e := by
  rw [StateT.run_bind, h]
  rfl

@[simp] theorem run_return (x : α) (bs : Bytes) :
    StateT.run (pure x : Reader α) bs = .ok (x, bs) := rfl

/-- The character is no blank. -/
def Solid (c : Char) : Prop := c.toNat < 0x80 ∧ c ≠ ' ' ∧ c ≠ '\n' ∧ c ≠ '\t' ∧ c ≠ '\r'

instance (c : Char) : Decidable (Solid c) := inferInstanceAs (Decidable (_ ∧ _))

theorem isBlank_ofNat (h : Solid c) : isBlank (UInt8.ofNat c.toNat) = false := by
  obtain ⟨hc, hspace, hline, htab, hreturn⟩ := h
  have hne : ∀ {d : Char}, c ≠ d → ∀ b : UInt8, Char.ofUInt8 b = d →
      decide (UInt8.ofNat c.toNat = b) = false := by
    rintro d hd b hb
    refine decide_eq_false fun he => hd ?_
    rw [← Bytes.ofUInt8_ofNat hc, he, hb]
  rw [isBlank, hne hspace _ rfl, hne hline _ rfl, hne htab _ rfl, hne hreturn _ rfl]
  rfl

/-- What is seen of a text is its first character. -/
theorem peek_char (h : Solid c) (cs : List Char) (rest : Bytes) :
    peek.run (Bytes.ofChars (c :: cs) ++ rest) = .ok (some c, Bytes.ofChars (c :: cs) ++ rest) := by
  rw [Bytes.ofChars_cons h.1, List.cons_append]
  have hblank := isBlank_ofNat h
  have hseen := Bytes.ofUInt8_ofNat h.1
  have hfront : (UInt8.ofNat c.toNat :: (Bytes.ofChars cs ++ rest)).dropWhile isBlank =
      UInt8.ofNat c.toNat :: (Bytes.ofChars cs ++ rest) :=
    List.dropWhile_cons_of_neg (by simp [hblank])
  have hskip : skipBlanks.run (UInt8.ofNat c.toNat :: (Bytes.ofChars cs ++ rest)) =
      .ok ((), UInt8.ofNat c.toNat :: (Bytes.ofChars cs ++ rest)) :=
    congrArg (fun bs => Except.ok ((), bs)) hfront
  rw [peek, run_bind_ok hskip]
  exact congrArg (fun o => Except.ok (some o, _)) hseen

theorem skip_char (hc : c.toNat < 0x80) (cs : List Char) (rest : Bytes) :
    skip.run (Bytes.ofChars (c :: cs) ++ rest) = .ok ((), Bytes.ofChars cs ++ rest) := by
  rw [Bytes.ofChars_cons hc]
  rfl

/-- A word of ASCII is passed over. -/
theorem literal_word {word : List Char} (hword : word.all fun c => c.toNat < 0x80) (rest : Bytes) :
    (literal word).run (Bytes.ofChars word ++ rest) = .ok ((), rest) := by
  have hbytes : (word.map fun c => UInt8.ofNat c.toNat) = Bytes.ofChars word := by
    induction word with
    | nil => rfl
    | cons c cs ih =>
      rw [List.all_cons, Bool.and_eq_true] at hword
      rw [Bytes.ofChars_cons (of_decide_eq_true hword.1), List.map_cons, ih hword.2]
  have hprefix : (Bytes.ofChars word).isPrefixOf (Bytes.ofChars word ++ rest) = true :=
    List.isPrefixOf_iff_prefix.mpr (List.prefix_append _ _)
  rw [literal, run_bind_ok rfl, hbytes, if_pos hprefix, List.drop_left]
  rfl

/-! ## Written values -/

/-- Nothing that stands before the bytes goes on with them. -/
def Stops (bs : Bytes) : Prop := ∀ b ∈ bs.head?, b = 0x2C ∨ b = 0x5D ∨ b = 0x7D

theorem stops_nil : Stops [] := nofun

theorem stops_comma (cs : List Char) (rest : Bytes) : Stops (Bytes.ofChars (',' :: cs) ++ rest) := by
  rintro b ⟨⟩
  exact .inl rfl

theorem stops_bracket (cs : List Char) (rest : Bytes) :
    Stops (Bytes.ofChars (']' :: cs) ++ rest) := by
  rintro b ⟨⟩
  exact .inr (.inl rfl)

theorem stops_brace (cs : List Char) (rest : Bytes) :
    Stops (Bytes.ofChars ('\x7d' :: cs) ++ rest) := by
  rintro b ⟨⟩
  exact .inr (.inr rfl)

/-- What comes of reading a value in front of `rest`, if there is one. -/
def outcome (x? : Option α) (rest : Bytes) : Except Fault (α × Bytes) :=
  match x? with
  | some x => .ok (x, rest)
  | none => .error .malformed

/-- What comes after a value is done if there is a value. -/
theorem run_bind_outcome {g : α → β} {x? : Option α} {rest' : Bytes}
    (h : r.run bs = outcome x? rest) (hf : ∀ x, (f x).run rest = .ok (g x, rest')) :
    (r >>= f).run bs = outcome (x?.map g) rest' := by
  cases x? with
  | none => exact run_bind_error h
  | some x => rw [run_bind_ok h, hf, Option.map_some, outcome]

/-- The reader takes the value `x?` off the front where `cs` is written, or refuses what is written
there if there is no value. -/
def Takes (r : Reader α) (cs : List Char) (x? : Option α) : Prop :=
  ∀ rest, Stops rest → r.run (Bytes.ofChars cs ++ rest) = outcome x? rest

end Json.Reader

end CheckedFlow
