import CheckedFlow.Proofs.Codec.Grouping
import CheckedFlow.View.Basic

/-!
# Keyed views and keyed codecs

The expected value of a keyed assertion is decoded by a codec, its actual value is made by a view
function. If the frames of some entries are decoded as a dictionary, the result is the one that the
view function makes of the entries themselves; and if a key occurs twice, both refuse with the first
key that is met again. The values that are gathered for a key are those of its entries, in order of
arrival.

* `ofEntries_cases`: the dictionary of some entries, or the key in its way.
* `AgreeOn`: a codec and a view function on the same entries.
* `decodeDictionary_agrees`, `decodeGrouped_agrees`, `keyed_agree`: they agree.
-/

namespace CheckedFlow

variable {κ α : Type} [DecidableEq κ] {describe : κ → String} {entry : Codec (κ × α)}
  {xs : List (κ × α)} {payload : Bytes}

/-- Entries make a dictionary that holds them in their order, or a key among them is met again. -/
theorem Dictionary.ofEntries_cases (xs : List (κ × α)) :
    (∃ m, ofEntries xs = .ok m ∧ m.entries = xs) ∨
      ∃ key, ofEntries xs = .error key ∧ FirstRepeated key xs := by
  cases h : ofEntries xs with
  | ok m => exact .inl ⟨m, rfl, ofEntries_eq_ok.mp h⟩
  | error key => exact .inr ⟨key, rfl, ofEntries_error h⟩

/-- What is decoded from the frames of the entries `xs` and what a view function makes of `xs`: the
dictionary with just these entries, in both cases, or else the errors that name the first key that
is met again. -/
structure AgreeOn (describe : κ → String) (xs : List (κ × α))
    (decoded : Except SerializationError (Dictionary κ α))
    (applied : Except ViewError (Dictionary κ α)) : Prop where
  same : ∀ m, decoded = .ok m ↔ applied = .ok m
  whole : ∀ m, applied = .ok m ↔ m.entries = xs
  refused : (¬ ∃ m, applied = .ok m) → ∃ key, Dictionary.FirstRepeated key xs ∧
    decoded = .error (.decoding (.repeatedKey (describe key))) ∧
    applied = .error (.repeatedKey (describe key))

/-- The entries are looked at in the order of their frames, as the view function looks at them. -/
theorem decodeDictionary_agrees (h : decodeFrames entry.decode payload = .ok xs) :
    AgreeOn describe xs ((Codec.dictionary describe entry).decode payload)
      ((ViewFn.dictionary describe).apply xs) := by
  rw [Codec.dictionary_decode h]
  simp only [ViewFn.dictionary]
  rcases Dictionary.ofEntries_cases xs with ⟨d, hd, rfl⟩ | ⟨key, hkey, hfirst⟩
  · rw [hd]
    refine ⟨fun m => ?_, fun m => ?_, fun hnone => absurd ⟨d, rfl⟩ hnone⟩
    · rw [Except.ok.injEq, Except.ok.injEq]
    · rw [← Dictionary.ofEntries_eq_ok, hd, Except.ok.injEq, Except.ok.injEq]
  · rw [hkey]
    refine ⟨fun m => ⟨nofun, nofun⟩, fun m => ?_, fun _ => ⟨key, hfirst, rfl, rfl⟩⟩
    rw [← Dictionary.ofEntries_eq_ok, hkey]
    exact ⟨nofun, nofun⟩

/-- Values are gathered in the order of their frames, as the view function gathers them. -/
theorem decodeGrouped_agrees (h : decodeFrames entry.decode payload = .ok xs) :
    ∃ g, (Codec.grouped entry).decode payload = .ok g ∧ ViewFn.grouped.apply xs = .ok g ∧
      ∀ k, let values := (xs.filter fun e => e.1 = k).map Prod.snd
        g.get? k = if values = [] then none else some values := by
  refine ⟨Dictionary.group xs, ?_, rfl, Dictionary.get?_group xs⟩
  simp only [Codec.grouped, h]
  rfl

/-- Entries that are their own copies have frames, if four bytes can hold their number and lengths.
What is decoded from the frames as a dictionary is what the view function makes of the entries:
the same dictionary, which holds the entries as they are, or the refusal of the same key, the first
that is met again. As a dictionary of lists, too, the frames are decoded to what the view function
makes of the entries: every key has its values in order of arrival, and no other keys are there. -/
theorem keyed_agree (describe : κ → String) (entry : Codec (κ × α)) (xs : List (κ × α))
    (hround : ∀ e ∈ xs, entry.RoundTrips e) :
    ((∃ payload, (Codec.list entry).encode xs = .ok payload) ↔ entry.Fits xs) ∧
    ∀ payload, (Codec.list entry).encode xs = .ok payload →
      AgreeOn describe xs ((Codec.dictionary describe entry).decode payload)
        ((ViewFn.dictionary describe).apply xs) ∧
      ∃ g, (Codec.grouped entry).decode payload = .ok g ∧ ViewFn.grouped.apply xs = .ok g ∧
        ∀ k, let values := (xs.filter fun e => e.1 = k).map Prod.snd
          g.get? k = if values = [] then none else some values := by
  constructor
  · have hencodes : ∀ e ∈ xs, ∃ bytes, entry.encode e = .ok bytes := fun e he =>
      Codec.encodes_of_copy (hround e he)
    exact Codec.encodeFrames_ok_iff.trans (and_iff_left hencodes)
  · intro payload hpayload
    have hframes : decodeFrames entry.decode payload = .ok xs :=
      decodeFrames_roundTrips hround hpayload
    exact ⟨decodeDictionary_agrees hframes, decodeGrouped_agrees hframes⟩

/-- Three bytes with their keys, the first of which is met again. -/
def repeatedBytes : List (UInt8 × UInt8) := [(1, 5), (2, 6), (1, 7)]

/-- The frames of the entries are refused as a dictionary, as the entries are by the view function;
as a dictionary of lists they have both values of the repeated key. -/
theorem keyed_agree_repeated :
    let describe := fun k : UInt8 => Text.decimal k.toNat
    (∀ e ∈ repeatedBytes, Codec.bytePairCodec.RoundTrips e) ∧
    ∃ payload, (Codec.list Codec.bytePairCodec).encode repeatedBytes = .ok payload ∧
      (Codec.dictionary describe Codec.bytePairCodec).decode payload =
        .error (.decoding (.repeatedKey "1")) ∧
      (ViewFn.dictionary describe).apply repeatedBytes = .error (.repeatedKey "1") ∧
      ∃ g, (Codec.grouped Codec.bytePairCodec).decode payload = .ok g ∧
        g.get? 1 = some [5, 7] := by
  intro describe
  have hround : ∀ e ∈ repeatedBytes, Codec.bytePairCodec.RoundTrips e := fun _ _ => rfl
  obtain ⟨hfits, hagree⟩ := keyed_agree describe Codec.bytePairCodec repeatedBytes hround
  obtain ⟨payload, hpayload⟩ := hfits.mpr
    (Codec.bytePairCodec_fits (show repeatedBytes.length < UInt32.size by decide))
  obtain ⟨hdictionary, g, hg, -, hvalues⟩ := hagree payload hpayload
  have hnone : ¬ ∃ m, (ViewFn.dictionary describe).apply repeatedBytes = .ok m := by
    rintro ⟨m, hm⟩
    have hnodup := m.nodup
    rw [(hdictionary.whole m).mp hm] at hnodup
    exact absurd hnodup (by decide)
  obtain ⟨key, -, hdecoded, happlied⟩ := hdictionary.refused hnone
  have hone : (ViewFn.dictionary describe).apply repeatedBytes = .error (.repeatedKey "1") := rfl
  have hkey : describe key = "1" := by
    rw [happlied] at hone
    exact ViewError.repeatedKey.inj (Except.error.inj hone)
  rw [hkey] at hdecoded
  exact ⟨hround, payload, hpayload, hdecoded, hone, g, hg, hvalues 1⟩

end CheckedFlow
