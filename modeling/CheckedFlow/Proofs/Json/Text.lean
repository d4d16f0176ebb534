import CheckedFlow.Proofs.Json.Front

/-!
# Texts in documents

A text is written between quotes, with an escape for each quote, backslash and control character and
the UTF-8 form of every other character. Reading undoes the escapes one by one, so every text of
Unicode is read back as it was.

* `Content`: what is read as the content of a string. `Content.plain`, `Content.escape`: bytes that
  stand for themselves, and escapes.
* `Content.char`, `content_chars`: one character, and all of them up to the closing quote.
* `string_run`, `quoted_run`: the text behind its opening quote, and with it.
-/

namespace CheckedFlow.Json.Reader

open Decoding

variable {more content rest : Bytes} {c : Char}

/-- The content is read from the bytes, however many rounds more than bytes there are. -/
def Content (more content rest : Bytes) : Prop :=
  ∀ rounds : Bytes, more.length ≤ rounds.length → stringBytes rounds more = .ok (content, rest)

/-- The closing quote. -/
theorem content_quote (rest : Bytes) : Content (0x22 :: rest) [] rest := by
  intro rounds h
  cases rounds with
  | nil => cases h
  | cons => rfl

/-- The byte stands for itself. -/
def Plain (b : UInt8) : Prop := b ≠ 0x22 ∧ b ≠ 0x5C ∧ ¬ b < 0x20

theorem Content.plain {ps : Bytes} (hps : ∀ b ∈ ps, Plain b) (h : Content more content rest) :
    Content (ps ++ more) (ps ++ content) rest := by
  induction ps with
  | nil => exact h
  | cons b ps ih =>
    intro rounds hrounds
    cases rounds with
    | nil => cases hrounds
    | cons r rounds =>
      obtain ⟨hquote, hslash, hcontrol⟩ := hps b List.mem_cons_self
      have hrest := ih (fun d hd => hps d (List.mem_cons_of_mem b hd)) rounds
        (Nat.le_of_succ_le_succ hrounds)
      rw [List.cons_append, stringBytes, if_neg hquote, if_neg hslash, if_neg hcontrol, hrest]
      rfl

/-- An escape. -/
theorem Content.escape {cs : Bytes} (h : Content more content rest) (bs : Bytes)
    (hescape : Reader.escape (bs ++ more) = .ok (cs, more)) :
    Content (0x5C :: bs ++ more) (cs ++ content) rest := by
  intro rounds hrounds
  cases rounds with
  | nil => cases hrounds
  | cons r rounds =>
    have hmore : more.length ≤ rounds.length := by
      simp only [List.cons_append, List.length_cons, List.length_append] at hrounds
      omega
    rw [List.cons_append, stringBytes, if_neg (by decide), if_pos rfl, hescape]
    change (stringBytes rounds more >>= fun _ => _) = _
    rw [h rounds hmore]
    rfl

/-- The hexadecimal digits of a control character. -/
theorem hexQuad_control {n : Nat} (hn : n < 0x20) (more : Bytes) :
    hexQuad (Bytes.ofChars ['0', '0', hexDigit (n / 16), hexDigit (n % 16)] ++ more) =
      .ok (n, more) := by
  have hdigit : ∀ d < 16, (hexDigit d).toNat < 0x80 ∧
      Bytes.hexDigit? (Char.ofUInt8 (UInt8.ofNat (hexDigit d).toNat)) = some d := by decide
  have hhigh := hdigit (n / 16) (by omega)
  have hlow := hdigit (n % 16) (by omega)
  have hbytes : Bytes.ofChars ['0', '0', hexDigit (n / 16), hexDigit (n % 16)] ++ more =
      0x30 :: 0x30 :: UInt8.ofNat (hexDigit (n / 16)).toNat ::
        UInt8.ofNat (hexDigit (n % 16)).toNat :: more := by
    rw [Bytes.ofChars_cons (by decide), Bytes.ofChars_cons (by decide), Bytes.ofChars_cons hhigh.1,
      Bytes.ofChars_cons hlow.1]
    rfl
  have hzero : Bytes.hexDigit? (Char.ofUInt8 0x30) = some 0 := by decide
  simp only [hbytes, hexQuad, hhigh.2, hlow.2, hzero]
  congr 2
  omega

theorem unicodeEscape_control {n : Nat} (hn : n < 0x20) (more : Bytes) :
    unicodeEscape (Bytes.ofChars ['0', '0', hexDigit (n / 16), hexDigit (n % 16)] ++ more) =
      .ok (codePoint n, more) := by
  have hlow : ¬ (0xDC00 ≤ n ∧ n ≤ 0xDFFF) := by omega
  have hhigh : ¬ (0xD800 ≤ n ∧ n ≤ 0xDBFF) := by omega
  rw [unicodeEscape, hexQuad_control hn]
  change (if 0xDC00 ≤ n ∧ n ≤ 0xDFFF then _ else _) = _
  rw [if_neg hlow, if_neg hhigh]
  rfl

/-- The bytes of a character that is written as it is stand for themselves. -/
theorem plain_utf8 (hquote : c ≠ '"') (hslash : c ≠ '\\') (hcontrol : ¬ c.toNat < 0x20) :
    ∀ b ∈ String.utf8EncodeChar c, Plain b := by
  intro b hb
  rcases Nat.lt_or_ge c.toNat 0x80 with hc | hc
  · have hbytes : String.utf8EncodeChar c = [UInt8.ofNat c.toNat] := by
      simpa [Bytes.ofChars] using Bytes.ofChars_cons hc []
    rw [hbytes, List.mem_singleton] at hb
    subst hb
    refine ⟨fun h => hquote ?_, fun h => hslash ?_, fun h => hcontrol ?_⟩
    · rw [← Bytes.ofUInt8_ofNat hc, h]
      rfl
    · rw [← Bytes.ofUInt8_ofNat hc, h]
      rfl
    · rw [UInt8.lt_iff_toNat_lt, UInt8.toNat_ofNat', Nat.mod_eq_of_lt (by omega)] at h
      exact h
  · have hle := Bytes.le_of_mem_utf8EncodeChar hc b hb
    refine ⟨?_, ?_, ?_⟩
    · rintro rfl
      exact absurd hle (by decide)
    · rintro rfl
      exact absurd hle (by decide)
    · rw [UInt8.lt_iff_toNat_lt, Nat.not_lt]
      exact Nat.le_trans (by decide) hle

/-- A character is read as it is written. -/
theorem Content.char (h : Content more content rest) (c : Char) :
    Content (Bytes.ofChars (renderChar c) ++ more) (String.utf8EncodeChar c ++ content) rest := by
  unfold renderChar
  split
  · exact h.escape [0x22] rfl
  · exact h.escape [0x5C] rfl
  · exact h.escape [0x6E] rfl
  · exact h.escape [0x72] rfl
  · exact h.escape [0x74] rfl
  · exact h.escape [0x62] rfl
  · exact h.escape [0x66] rfl
  · rename_i hquote hslash _ _ _ _ _
    split
    · rename_i hcontrol
      have hcode : codePoint c.toNat = String.utf8EncodeChar c := by
        rw [codePoint, Char.ofNat_toNat]
      rw [← hcode]
      exact h.escape _ (unicodeEscape_control hcontrol more)
    · rename_i hcontrol
      have hbytes : Bytes.ofChars [c] = String.utf8EncodeChar c := by
        rw [Bytes.ofChars, List.flatMap_singleton]
      rw [hbytes]
      exact h.plain (plain_utf8 hquote hslash hcontrol)

/-- All characters up to the closing quote. -/
theorem content_chars (cs : List Char) (rest : Bytes) :
    Content (Bytes.ofChars (cs.flatMap renderChar ++ ['"']) ++ rest) (Bytes.ofChars cs) rest := by
  induction cs with
  | nil => exact content_quote rest
  | cons c cs ih =>
    have h := ih.char c
    rwa [← List.append_assoc, ← Bytes.ofChars_append, ← List.append_assoc, ← List.flatMap_cons] at h

/-- A text is read as it is written, behind its opening quote. -/
theorem string_run (s : String) (rest : Bytes) :
    string.run (Bytes.ofChars (s.toList.flatMap renderChar ++ ['"']) ++ rest) = .ok (s, rest) := by
  have hcontent := content_chars s.toList rest _ (Nat.le_refl _)
  have htext : Bytes.toText? (Bytes.ofChars s.toList) = some s := by
    rw [← Bytes.ofText_eq_ofChars, Bytes.toText?_ofText]
  let front := Bytes.ofChars (s.toList.flatMap renderChar ++ ['"']) ++ rest
  have hread : StateT.run (liftM (stringBytes front front) : Reader _) front =
      .ok ((Bytes.ofChars s.toList, rest), front) := by
    rw [hcontent]
    rfl
  rw [string, run_bind_ok (x := front) rfl, run_bind_ok hread]
  simp only [htext]
  rfl

/-- A text with its quotes. -/
theorem quoted_run {α : Type} (s : String) (rest : Bytes) (f : String → Reader α) :
    (do skip; f (← string)).run (Bytes.ofChars (renderText s) ++ rest) = (f s).run rest := by
  have hskip := skip_char (c := '"') (by decide) (s.toList.flatMap renderChar ++ ['"']) rest
  rw [renderText, List.cons_append, run_bind_ok hskip, run_bind_ok (string_run s rest)]

end CheckedFlow.Json.Reader
