import CheckedFlow.Proofs.Codec.Cursor

/-!
# What decoding accepts

Decoding accepts the payloads of the form `Framed` whose frames all have a value, and no others.
Every other payload is refused with the first fault that a reader from the left comes upon.

* `Breaks`, `FirstFault`: where the frames of a payload end too early, and the fault found there.
* `framed_or_fault`, `FirstFault.of_cut`: a payload is of the form or has a first fault, and one
  that is cut short of the form has a framing fault.
* `decodeFrames_eq_ok_iff`, `decodeFrames_eq_error_iff`, `Framed.unique`: the answers of decoding.
* `decodeFrames_exact`: acceptance, unique frames, the fault, and payloads that are cut or longer.
-/

namespace CheckedFlow

variable {α : Type} {decode : Bytes → Except SerializationError α} {payload : Bytes}

/-! ## Lengths from the left -/

/-- Any four bytes are a length. -/
theorem Bytes.ofLength_toLength {bytes : Bytes} (h : bytes.length = 4) :
    Bytes.toLength bytes < UInt32.size ∧ Bytes.ofLength (Bytes.toLength bytes) = bytes := by
  obtain ⟨a, b, c, d, rfl⟩ : ∃ a b c d, bytes = [a, b, c, d] := by
    match bytes, h with
    | [a, b, c, d], _ => exact ⟨a, b, c, d, rfl⟩
  have hsize : UInt32.size = 4294967296 := rfl
  have ha := a.toNat_lt
  have hb := b.toNat_lt
  have hc := c.toNat_lt
  have hd := d.toNat_lt
  simp only [Bytes.toLength, Bytes.ofLength, List.foldl_cons, List.foldl_nil]
  refine ⟨by omega, ?_⟩
  simp only [List.cons.injEq, and_true, ← UInt8.toNat_inj, UInt8.toNat_ofNat']
  omega

/-- Bytes start with a length, or there are fewer than four of them. -/
theorem exists_length (bytes : Bytes) :
    bytes.length < 4 ∨ ∃ n rest, n < UInt32.size ∧ bytes = Bytes.ofLength n ++ rest := by
  by_cases h : bytes.length < 4
  · exact .inl h
  · have htake : (bytes.take 4).length = 4 := by
      rw [List.length_take]
      omega
    obtain ⟨hlt, hbytes⟩ := Bytes.ofLength_toLength htake
    exact .inr ⟨_, bytes.drop 4, hlt, by rw [hbytes, List.take_append_drop]⟩

/-! ## Where reading stops -/

/-- No further frame with a value can be read from `rest`, which stands at `offset` of a payload of
`size` bytes: there is no length, the frame is longer than the rest, or its content is refused. -/
inductive Breaks (decode : Bytes → Except SerializationError α) (size offset : Nat) :
    Bytes → SerializationError → Prop where
  | shortLength {rest : Bytes} (short : rest.length < 4) :
      Breaks decode size offset rest (.framing (.shortLength offset size))
  | overrun {length : Nat} {rest : Bytes} (fits : length < UInt32.size)
      (long : rest.length < length) :
      Breaks decode size offset (Bytes.ofLength length ++ rest)
        (.framing (.overrun length (offset + 4) size))
  | refused {content rest : Bytes} {e : SerializationError} (fits : content.length < UInt32.size)
      (refused : decode content = .error e) :
      Breaks decode size offset (Bytes.ofLength content.length ++ content ++ rest) e

/-- The first fault of a payload, from the left: it has no count; behind some frames with values,
but fewer than counted, no further one can be read; or bytes follow the last frame. -/
inductive FirstFault (decode : Bytes → Except SerializationError α) (payload : Bytes) :
    SerializationError → Prop where
  | noCount (short : payload.length < 4) :
      FirstFault decode payload (.framing (.shortLength 0 payload.length))
  | inFrame {count : Nat} {contents : List Bytes} {frames rest : Bytes} {e : SerializationError}
      (split : payload = Bytes.ofLength count ++ (frames ++ rest)) (fits : count < UInt32.size)
      (before : FrameSequence frames contents) (few : contents.length < count)
      (accepted : ∀ content ∈ contents, ∃ x, decode content = .ok x)
      (breaks : Breaks decode payload.length (4 + frames.length) rest e) :
      FirstFault decode payload e
  | trailing {contents : List Bytes} {frames rest : Bytes}
      (split : payload = Bytes.ofLength contents.length ++ (frames ++ rest))
      (fits : contents.length < UInt32.size) (before : FrameSequence frames contents)
      (accepted : ∀ content ∈ contents, ∃ x, decode content = .ok x) (more : rest ≠ []) :
      FirstFault decode payload (.framing (.trailing rest.length))

theorem Breaks.decodeItems {size offset : Nat} {rest : Bytes} {e : SerializationError}
    (h : Breaks decode size offset rest e) (count : Nat) :
    decodeItems decode size (count + 1) offset rest = .error e := by
  cases h with
  | shortLength short =>
    simp only [CheckedFlow.decodeItems, decodeLength_short short, bind, Except.bind]
  | @overrun length rest fits long =>
    have htake : (rest.take length).length ≠ length := by
      rw [List.length_take]
      omega
    simp only [CheckedFlow.decodeItems, decodeLength_ofLength fits, if_neg htake, bind, Except.bind]
    rfl
  | refused fits refused =>
    simp only [List.append_assoc, CheckedFlow.decodeItems, decodeLength_ofLength fits,
      List.take_left, if_true, refused, bind, Except.bind]

/-- Decoding tells the first fault. -/
theorem FirstFault.decodeFrames {e : SerializationError} (h : FirstFault decode payload e) :
    decodeFrames decode payload = .error e := by
  cases h with
  | noCount short =>
    simp only [CheckedFlow.decodeFrames, decodeLength_short short, bind, Except.bind]
  | @inFrame count contents frames rest _ split fits before few accepted breaks =>
    obtain ⟨xs, hxs⟩ := exists_mapM_ok.mpr accepted
    obtain ⟨k, rfl⟩ : ∃ k, count = contents.length + (k + 1) :=
      ⟨count - contents.length - 1, by omega⟩
    have hitems := decodeItems_frames decode before payload.length (k + 1) 4 rest
    rw [hxs, breaks.decodeItems k] at hitems
    simp only [CheckedFlow.decodeFrames]
    rw [split] at hitems ⊢
    simp only [decodeLength_ofLength fits, hitems, bind, Except.bind]
  | @trailing contents frames rest split fits before accepted more =>
    obtain ⟨xs, hxs⟩ := exists_mapM_ok.mpr accepted
    have hitems := decodeItems_frames decode before payload.length 0 4 rest
    rw [hxs, Nat.add_zero] at hitems
    simp only [CheckedFlow.decodeFrames]
    rw [split] at hitems ⊢
    have hmore : rest.isEmpty = false := List.isEmpty_eq_false_iff.mpr more
    simp only [decodeLength_ofLength fits, hitems, CheckedFlow.decodeItems, hmore, bind,
      Except.bind, pure, Except.pure]
    rfl

/-- Bytes start with as many frames with values as are counted, or with fewer, and then no further
one can be read. -/
theorem exists_frames (decode : Bytes → Except SerializationError α) (size count offset : Nat)
    (bytes : Bytes) :
    ∃ frames contents rest, bytes = frames ++ rest ∧ FrameSequence frames contents ∧
      (∀ content ∈ contents, ∃ x, decode content = .ok x) ∧
      (contents.length = count ∨
        contents.length < count ∧ ∃ e, Breaks decode size (offset + frames.length) rest e) := by
  induction count generalizing offset bytes with
  | zero => exact ⟨[], [], bytes, rfl, .nil, by simp, .inl rfl⟩
  | succ count ih =>
    -- Where the first frame breaks, nothing was read before it.
    have hbreaks : ∀ e, Breaks decode size offset bytes e →
        ∃ frames contents rest, bytes = frames ++ rest ∧ FrameSequence frames contents ∧
          (∀ content ∈ contents, ∃ x, decode content = .ok x) ∧
          (contents.length = count + 1 ∨ contents.length < count + 1 ∧
            ∃ e, Breaks decode size (offset + frames.length) rest e) := by
      intro e he
      exact ⟨[], [], bytes, rfl, .nil, by simp, .inr ⟨Nat.succ_pos count, e, he⟩⟩
    rcases exists_length bytes with hshort | ⟨n, tail, hn, rfl⟩
    · exact hbreaks _ (.shortLength hshort)
    · by_cases hlong : tail.length < n
      · exact hbreaks _ (.overrun hn hlong)
      · have hlength : (tail.take n).length = n := by
          rw [List.length_take]
          omega
        have hbytes : Bytes.ofLength n ++ tail =
            Bytes.ofLength (tail.take n).length ++ tail.take n ++ tail.drop n := by
          rw [hlength, List.append_assoc, List.take_append_drop]
        have hfits : (tail.take n).length < UInt32.size := hlength.symm ▸ hn
        rw [hbytes] at hbreaks ⊢
        cases hx : decode (tail.take n) with
        | error e => exact hbreaks e (.refused hfits hx)
        | ok x =>
          obtain ⟨frames, contents, rest, hrest, hframes, haccepted, hend⟩ :=
            ih (offset + 4 + (tail.take n).length) (tail.drop n)
          refine ⟨_, _, rest, ?_, .cons hfits hframes, ?_, ?_⟩
          · rw [hrest, List.append_assoc]
            simp only [List.append_assoc]
          · rintro content hcontent
            rcases List.mem_cons.mp hcontent with rfl | hcontent
            · exact ⟨x, hx⟩
            · exact haccepted content hcontent
          · have hoffset : offset + (Bytes.ofLength (tail.take n).length ++ tail.take n ++
                frames).length = offset + 4 + (tail.take n).length + frames.length := by
              simp only [List.length_append, Bytes.length_ofLength]
              omega
            rw [hoffset, List.length_cons]
            exact hend.imp (congrArg (· + 1)) fun h => ⟨Nat.succ_lt_succ h.1, h.2⟩

/-- A payload is framed and its frames have values, or it has a first fault. -/
theorem framed_or_fault (decode : Bytes → Except SerializationError α) (payload : Bytes) :
    (∃ contents items, Framed payload contents ∧ contents.mapM decode = .ok items) ∨
      ∃ e, FirstFault decode payload e := by
  rcases exists_length payload with hshort | ⟨count, bytes, hcount, hpayload⟩
  · exact .inr ⟨_, .noCount hshort⟩
  · obtain ⟨frames, contents, rest, rfl, hframes, haccepted, hend⟩ :=
      exists_frames decode payload.length count 4 bytes
    rcases hend with rfl | ⟨hfew, e, he⟩
    · cases rest with
      | nil =>
        obtain ⟨items, hitems⟩ := exists_mapM_ok.mpr haccepted
        rw [List.append_nil] at hpayload
        exact .inl ⟨contents, items, ⟨hcount, frames, hpayload, hframes⟩, hitems⟩
      | cons b rest =>
        exact .inr ⟨_, .trailing hpayload hcount hframes haccepted (List.cons_ne_nil b rest)⟩
    · exact .inr ⟨e, .inFrame hpayload hcount hframes hfew haccepted he⟩

/-! ## Payloads that are cut -/

/-- Frames that are cut end with less than a length or with less than a frame. -/
theorem FrameSequence.cut (decode : Bytes → Except SerializationError α)
    {bytes start rest : Bytes} {contents : List Bytes}
    (h : FrameSequence bytes contents) (hsplit : bytes = start ++ rest) (hrest : rest ≠ []) :
    ∃ frames before tail, start = frames ++ tail ∧ FrameSequence frames before ∧
      before <+: contents ∧ before.length < contents.length ∧
      ∀ size offset, ∃ fault, Breaks decode size offset tail (.framing fault) := by
  induction h generalizing start with
  | nil => exact absurd (List.append_eq_nil_iff.mp hsplit.symm).2 hrest
  | @cons content frames contents hshort _ ih =>
    by_cases hlength : start.length < 4
    · exact ⟨[], [], start, rfl, .nil, List.nil_prefix, Nat.succ_pos _,
        fun _ _ => ⟨_, .shortLength hlength⟩⟩
    · rw [List.append_assoc] at hsplit
      obtain ⟨tail, rfl⟩ : Bytes.ofLength content.length <+: start := by
        refine List.prefix_of_prefix_length_le (List.prefix_append _ (content ++ frames))
          (hsplit ▸ List.prefix_append start rest) ?_
        rw [Bytes.length_ofLength]
        omega
      rw [List.append_assoc, List.append_cancel_left_eq] at hsplit
      by_cases hlong : tail.length < content.length
      · exact ⟨[], [], _, rfl, .nil, List.nil_prefix, Nat.succ_pos _,
          fun _ _ => ⟨_, .overrun hshort hlong⟩⟩
      · obtain ⟨tail, rfl⟩ : content <+: tail :=
          List.prefix_of_prefix_length_le (List.prefix_append content frames)
            (hsplit ▸ List.prefix_append tail rest) (by omega)
        rw [List.append_assoc, List.append_cancel_left_eq] at hsplit
        obtain ⟨read, before, broken, rfl, hread, hbefore, hfew, hbreaks⟩ := ih hsplit
        refine ⟨_, content :: before, broken, ?_, .cons hshort hread,
          List.cons_prefix_cons.mpr ⟨rfl, hbefore⟩, Nat.succ_lt_succ hfew, hbreaks⟩
        simp only [List.append_assoc]

/-- A payload with values that is cut has a framing fault. -/
theorem FirstFault.of_cut {contents : List Bytes} (h : Framed payload contents)
    (haccepted : ∀ content ∈ contents, ∃ x, decode content = .ok x) {start : Bytes}
    (hstart : start <+: payload) (hne : start ≠ payload) :
    ∃ fault, FirstFault decode start (.framing fault) := by
  obtain ⟨hcount, frames, rfl, hframes⟩ := h
  by_cases hlength : start.length < 4
  · exact ⟨_, .noCount hlength⟩
  · obtain ⟨tail, rfl⟩ : Bytes.ofLength contents.length <+: start := by
      refine List.prefix_of_prefix_length_le (List.prefix_append _ frames) hstart ?_
      rw [Bytes.length_ofLength]
      omega
    obtain ⟨rest, hrest⟩ := hstart
    rw [List.append_assoc, List.append_cancel_left_eq] at hrest
    have hmore : rest ≠ [] := by
      rintro rfl
      rw [List.append_nil] at hrest
      exact hne (by rw [hrest])
    obtain ⟨read, before, broken, rfl, hread, hbefore, hfew, hbreaks⟩ :=
      hframes.cut decode hrest.symm hmore
    obtain ⟨fault, hfault⟩ := hbreaks _ _
    exact ⟨fault, .inFrame rfl hcount hread hfew
      (fun content hcontent => haccepted content (hbefore.subset hcontent)) hfault⟩

/-! ## Exact decoding -/

theorem decodeFrames_eq_ok_iff {items : List α} :
    decodeFrames decode payload = .ok items ↔ ∃ contents, Framed payload contents ∧
      List.Forall₂ (fun content x => decode content = .ok x) contents items := by
  constructor
  · intro h
    rcases framed_or_fault decode payload with ⟨contents, xs, hframed, hxs⟩ | ⟨e, he⟩
    · refine ⟨contents, hframed, mapM_eq_ok_iff.mp ?_⟩
      rw [← decodeFrames_framed decode hframed, h]
    · rw [he.decodeFrames] at h
      cases h
  · rintro ⟨contents, hframed, hall⟩
    rw [decodeFrames_framed decode hframed]
    exact mapM_eq_ok_iff.mpr hall

theorem decodeFrames_eq_error_iff {e : SerializationError} :
    decodeFrames decode payload = .error e ↔ FirstFault decode payload e := by
  refine ⟨fun h => ?_, FirstFault.decodeFrames⟩
  rcases framed_or_fault decode payload with ⟨contents, xs, hframed, hxs⟩ | ⟨e', he'⟩
  · rw [decodeFrames_framed decode hframed, hxs] at h
    cases h
  · rw [he'.decodeFrames] at h
    cases h
    exact he'

/-- The frames of a payload are determined: a decoder that takes every content for its own value
gives the contents themselves. -/
theorem Framed.unique {contents contents' : List Bytes} (h : Framed payload contents)
    (h' : Framed payload contents') : contents = contents' := by
  let own : Bytes → Except SerializationError Bytes := .ok
  have hself : ∀ cs : List Bytes, cs.mapM own = .ok cs :=
    fun cs => mapM_eq_ok_iff.mpr (List.forall₂_same.mpr fun _ _ => rfl)
  have hread := decodeFrames_framed own h
  rw [decodeFrames_framed own h', hself, hself] at hread
  exact (Except.ok.inj hread).symm

/-- Decoding accepts a payload exactly if it is a count and as many frames, with nothing behind
them, and every frame has a value; these values are the items. A payload has the frames of one list
of contents only. A payload that is not accepted is refused with its first fault from the left.
Whatever it claims, a payload is read through a cursor that stays in it. And an accepted payload can
neither be cut nor be followed by other bytes: the framing of the result is faulty. -/
theorem decodeFrames_exact (decode : Bytes → Except SerializationError α) (payload : Bytes) :
    (∀ items, decodeFrames decode payload = .ok items ↔ ∃ contents, Framed payload contents ∧
      List.Forall₂ (fun content x => decode content = .ok x) contents items) ∧
    (∀ contents contents', Framed payload contents → Framed payload contents' →
      contents = contents') ∧
    (∀ e, decodeFrames decode payload = .error e ↔ FirstFault decode payload e) ∧
    decodeFrames decode payload = readFrames decode payload ∧
    (∀ items, decodeFrames decode payload = .ok items →
      (∀ start, start <+: payload → start ≠ payload →
        ∃ fault, decodeFrames decode start = .error (.framing fault)) ∧
      ∀ more, more ≠ [] →
        decodeFrames decode (payload ++ more) = .error (.framing (.trailing more.length))) := by
  refine ⟨fun _ => decodeFrames_eq_ok_iff, fun _ _ => Framed.unique,
    fun _ => decodeFrames_eq_error_iff, decodeFrames_eq_readFrames decode payload, ?_⟩
  intro items h
  obtain ⟨contents, hframed, hall⟩ := decodeFrames_eq_ok_iff.mp h
  have haccepted : ∀ content ∈ contents, ∃ x, decode content = .ok x :=
    exists_mapM_ok.mp ⟨items, mapM_eq_ok_iff.mpr hall⟩
  refine ⟨fun start hstart hne => ?_, fun more hmore => ?_⟩
  · obtain ⟨fault, hfault⟩ := FirstFault.of_cut hframed haccepted hstart hne
    exact ⟨fault, hfault.decodeFrames⟩
  · obtain ⟨hcount, frames, rfl, hframes⟩ := hframed
    exact FirstFault.decodeFrames
      (.trailing (List.append_assoc ..) hcount hframes haccepted hmore)

/-- Two frames, one of them empty. -/
example : decodeFrames (Except.ok : Bytes → Except SerializationError Bytes)
    [0, 0, 0, 2, 0, 0, 0, 1, 7, 0, 0, 0, 0] = .ok [[7], []] := rfl

/-- One frame of the four billions that are counted: reading stops at the end of the payload. -/
example : decodeFrames (Except.ok : Bytes → Except SerializationError Bytes)
    [255, 255, 255, 255, 0, 0, 0, 1, 7] = .error (.framing (.shortLength 9 9)) := rfl

end CheckedFlow
