import CheckedFlow.Options.Environment
import CheckedFlow.Proofs.Text.Numeral
import Mathlib.Tactic.SplitIfs

/-!
# Options that the environment replaces

Every variable that is set replaces its field, and no other field. The merged options count, not the
ones that the overrides were applied to: those may break a rule that the merged ones keep, and the
other way round.

* `RunMode.Spells`: the texts that name a run mode.
* `PipelineOptions.FirstBroken`: the first rule that options break.
* `Overrides.Replaces`: options in which exactly the fields with a variable were replaced.
* `Overrides.FirstMisread`: the first variable that holds no value of its field.
* `Overrides.merge_ok_iff`, `Overrides.merge_error_iff`: the fields are replaced, or the first such
  variable is told.
* `Overrides.apply_exact`: what applying overrides gives, for all options and all environments.
-/

namespace CheckedFlow

variable {fault : ConfigurationFault}

/-! ## Run modes -/

namespace RunMode

variable {s : String} {m : RunMode}

/-- `s` names the run mode, with blanks around it and in any case of ASCII letters. -/
def Spells (s : String) : RunMode → Prop
  | bounded => Text.lowerAscii (Text.trim s) ∈ ["bounded", "batch"]
  | unbounded => Text.lowerAscii (Text.trim s) ∈ ["unbounded", "streaming"]

theorem parse_ok_iff : parse s = .ok m ↔ Spells s m := by
  unfold parse
  dsimp only
  split_ifs with hb hu
  · cases m
    · simpa [Spells] using hb
    · rcases hb with hb | hb <;> simp [Spells, hb]
  · cases m
    · rcases hu with hu | hu <;> simp [Spells, hu]
    · simpa [Spells] using hu
  · cases m
    · simpa [Spells] using hb
    · simpa [Spells] using hu

/-- A text that names no run mode is told trimmed and in lower case. -/
theorem parse_error_iff : parse s = .error fault ↔
    (∀ m, ¬ Spells s m) ∧ fault = .unknownRunMode (Text.lowerAscii (Text.trim s)) := by
  simp only [← parse_ok_iff]
  unfold parse
  dsimp only
  split_ifs
  · simp
  · simp
  · simp [eq_comm]

end RunMode

/-! ## Rules -/

/-- Nothing is left of a text that is blank. -/
theorem Text.trim_eq_empty_iff {s : String} : trim s = "" ↔ isBlankText s = true := by
  rw [trim, isBlankText, ← String.toList_eq_nil_iff, String.toList_ofList, List.reverse_eq_nil_iff,
    List.dropWhile_eq_nil_iff, List.all_eq_true]
  constructor
  · intro h c hc
    -- a character that is not dropped would be seen from the other end
    rw [← List.takeWhile_append_dropWhile (p := isBlank) (l := s.toList)] at hc
    rcases List.mem_append.mp hc with hc | hc
    · exact List.mem_takeWhile_imp hc
    · exact h c (List.mem_reverse.mpr hc)
  · intro h c hc
    exact h c ((List.dropWhile_sublist isBlank).mem (List.mem_reverse.mp hc))

namespace PipelineOptions

variable {o : PipelineOptions}

/-- `fault` tells the first rule that the options break: there is a job name, there are workers, and
in unbounded mode there are firings. -/
inductive FirstBroken (o : PipelineOptions) : ConfigurationFault → Prop
  | blankJobName (h : Text.trim o.jobName = "") : FirstBroken o .blankJobName
  | noWorkers (hname : Text.trim o.jobName ≠ "") (h : o.parallelism = 0) :
      FirstBroken o .noWorkers
  | noFirings (hname : Text.trim o.jobName ≠ "") (hworkers : o.parallelism ≠ 0)
      (hmode : o.runMode = .unbounded) (h : o.triggerFirings = 0) : FirstBroken o .noFirings

theorem validate_error_iff : o.validate = .error fault ↔ FirstBroken o fault := by
  have hstreaming : o.runMode.isStreaming = true ↔ o.runMode = .unbounded := by
    cases o.runMode <;> simp [RunMode.isStreaming]
  simp only [validate, ← Text.trim_eq_empty_iff, hstreaming]
  constructor
  · intro h
    split_ifs at h with hname hworkers hfirings
    · cases h
      exact .blankJobName hname
    · cases h
      exact .noWorkers hname hworkers
    · cases h
      exact .noFirings hname hworkers hfirings.1 hfirings.2
  · intro h
    cases h with
    | blankJobName h => rw [if_pos h]
    | noWorkers hname h => rw [if_neg hname, if_pos h]
    | noFirings hname hworkers hmode h =>
      rw [if_neg hname, if_neg hworkers, if_pos ⟨hmode, h⟩]

end PipelineOptions

/-! ## Variables -/

theorem Except.bind_ok_iff {ε α β : Type} {x : Except ε α} {f : α → Except ε β} {y : β} :
    (x >>= f) = .ok y ↔ ∃ a, x = .ok a ∧ f a = .ok y := by
  cases x <;> simp [bind, Except.bind]

theorem Except.bind_error_iff {ε α β : Type} {x : Except ε α} {f : α → Except ε β} {e : ε} :
    (x >>= f) = .error e ↔ x = .error e ∨ ∃ a, x = .ok a ∧ f a = .error e := by
  cases x <;> simp [bind, Except.bind]

namespace Overrides

section Field

variable {α : Type} {text : Option String} {kept x : α} {gives : String → α → Prop}
  {read : String → Except ConfigurationFault α}

/-- `x` is what the text of a variable says, or `kept` when the variable is not set. -/
def Replaced (text : Option String) (kept : α) (gives : String → α → Prop) (x : α) : Prop :=
  match text with
  | none => x = kept
  | some text => gives text x

theorem field_ok_iff (h : ∀ text x, read text = .ok x ↔ gives text x) :
    field text kept read = .ok x ↔ Replaced text kept gives x := by
  cases text with
  | none => simp [field, Replaced, eq_comm]
  | some text => exact h text x

theorem field_error_iff :
    field text kept read = .error fault ↔ ∃ s, text = some s ∧ read s = .error fault := by
  cases text <;> simp [field]

/-- What replaced a field replaces itself. -/
theorem Replaced.again (h : Replaced text kept gives x) : Replaced text x gives x := by
  cases text with
  | none => rfl
  | some text => exact h

end Field

/-- The text of a variable writes the number `n`, with blanks around it. -/
def Gives (text : String) (n : Nat) : Prop := Text.Writes (Text.trim text) n

/-- The text of the variable `name` writes no number below `bound`, and the fault tells why. -/
def Misreads (bound : Nat) (name text : String) (fault : ConfigurationFault) : Prop :=
  (∀ n < bound, ¬ Gives text n) ∧
    ∃ f, Text.Garbles bound (Text.trim text) f ∧ fault = .badNumber text name f

section Number

variable {bound n : Nat} {name text : String}

theorem number_ok_iff (hb : 0 < bound) :
    number bound name text = .ok n ↔ Gives text n ∧ n < bound := by
  rw [Gives, ← Text.readBounded_ok_iff hb]
  unfold number
  split <;> rename_i h <;> simp [h]

theorem number_error_iff (hb : 0 < bound) :
    number bound name text = .error fault ↔ Misreads bound name text fault := by
  have herror : number bound name text = .error fault ↔
      ∃ f, Text.Garbles bound (Text.trim text) f ∧ fault = .badNumber text name f := by
    simp only [← Text.readBounded_error_iff hb]
    unfold number
    split <;> rename_i h <;> simp [h, eq_comm]
  rw [Misreads, ← herror]
  refine ⟨fun h => ⟨fun n hn hgives => ?_, h⟩, And.right⟩
  rw [(number_ok_iff hb).mpr ⟨hgives, hn⟩] at h
  cases h

/-- A word is read from the texts that write its number: these are in its range. -/
theorem word_ok_iff {α : Type} {ofNat : Nat → α} {toNat : α → Nat} (hlt : ∀ x, toNat x < bound)
    (hof : ∀ x, ofNat (toNat x) = x) (hto : ∀ n < bound, toNat (ofNat n) = n) {x : α} :
    ofNat <$> number bound name text = .ok x ↔ Gives text (toNat x) := by
  have hb : 0 < bound := Nat.zero_lt_of_lt (hlt x)
  constructor
  · intro h
    cases hnumber : number bound name text with
    | error f =>
      rw [hnumber] at h
      cases h
    | ok n =>
      rw [hnumber] at h
      obtain ⟨hgives, hn⟩ := (number_ok_iff hb).mp hnumber
      cases h
      rwa [hto n hn]
  · intro h
    rw [(number_ok_iff hb).mpr ⟨h, hlt x⟩]
    exact congrArg Except.ok (hof x)

theorem word_error_iff {α : Type} {ofNat : Nat → α} (hb : 0 < bound) :
    ofNat <$> number bound name text = .error fault ↔ Misreads bound name text fault := by
  rw [← number_error_iff hb]
  cases number bound name text <;> simp [Functor.map, Except.map]

end Number

/-! ## Merging -/

variable {v : Overrides} {base o : PipelineOptions}

/-- `o` is `base` with exactly those fields replaced whose variable is set. -/
structure Replaces (v : Overrides) (base o : PipelineOptions) : Prop where
  jobName : Replaced v.jobName base.jobName (fun text name => name = text) o.jobName
  runMode : Replaced v.runMode base.runMode RunMode.Spells o.runMode
  parallelism : Replaced v.parallelism base.parallelism (fun s n => Gives s n.toNat) o.parallelism
  triggerFirings :
    Replaced v.triggerFirings base.triggerFirings (fun s n => Gives s n.toNat) o.triggerFirings

/-- `fault` tells the first of the variables, in the order of run mode, parallelism and trigger
firings, that is set and holds no value of its field. -/
inductive FirstMisread (v : Overrides) (base : PipelineOptions) : ConfigurationFault → Prop
  | runMode {text : String} (h : v.runMode = some text) (hmode : ∀ m, ¬ RunMode.Spells text m) :
      FirstMisread v base (.unknownRunMode (Text.lowerAscii (Text.trim text)))
  | parallelism {text : String} {fault : ConfigurationFault} {m : RunMode}
      (hmode : Replaced v.runMode base.runMode RunMode.Spells m)
      (h : v.parallelism = some text)
      (hfault : Misreads UInt64.size parallelismVariable text fault) : FirstMisread v base fault
  | triggerFirings {text : String} {fault : ConfigurationFault} {m : RunMode} {n : UInt64}
      (hmode : Replaced v.runMode base.runMode RunMode.Spells m)
      (hworkers : Replaced v.parallelism base.parallelism (fun s n => Gives s n.toNat) n)
      (h : v.triggerFirings = some text)
      (hfault : Misreads UInt32.size triggerFiringsVariable text fault) : FirstMisread v base fault

theorem workers_ok_iff (text : String) (n : UInt64) :
    UInt64.ofNat <$> number UInt64.size parallelismVariable text = .ok n ↔ Gives text n.toNat :=
  word_ok_iff UInt64.toNat_lt (fun _ => UInt64.ofNat_toNat) fun _ => UInt64.toNat_ofNat_of_lt

theorem firings_ok_iff (text : String) (n : UInt32) :
    UInt32.ofNat <$> number UInt32.size triggerFiringsVariable text = .ok n ↔ Gives text n.toNat :=
  word_ok_iff UInt32.toNat_lt (fun _ => UInt32.ofNat_toNat) fun _ => UInt32.toNat_ofNat_of_lt

theorem merge_ok_iff : v.merge base = .ok o ↔ v.Replaces base o := by
  simp only [merge, Except.bind_ok_iff, field_ok_iff fun _ _ => RunMode.parse_ok_iff,
    field_ok_iff workers_ok_iff, field_ok_iff firings_ok_iff]
  constructor
  · rintro ⟨mode, hmode, workers, hworkers, firings, hfirings, h⟩
    cases h
    refine ⟨?_, hmode, hworkers, hfirings⟩
    cases h : v.jobName <;> simp [Replaced]
  · rintro ⟨hname, hmode, hworkers, hfirings⟩
    refine ⟨_, hmode, _, hworkers, _, hfirings, ?_⟩
    have hname : v.jobName.getD base.jobName = o.jobName := by
      cases h : v.jobName <;> simpa [h, Replaced, eq_comm] using hname
    rw [hname]
    rfl

theorem merge_error_iff : v.merge base = .error fault ↔ v.FirstMisread base fault := by
  have h64 : 0 < UInt64.size := by decide
  have h32 : 0 < UInt32.size := by decide
  simp only [merge, Except.bind_error_iff, field_ok_iff fun _ _ => RunMode.parse_ok_iff,
    field_ok_iff workers_ok_iff, field_error_iff, RunMode.parse_error_iff, word_error_iff h64,
    word_error_iff h32]
  constructor
  · rintro (⟨text, h, hmode, rfl⟩ | ⟨mode, hmode, ⟨text, h, hfault⟩ | ⟨workers, hworkers,
      ⟨text, h, hfault⟩ | ⟨_, _, h⟩⟩⟩)
    · exact .runMode h hmode
    · exact .parallelism hmode h hfault
    · exact .triggerFirings hmode hworkers h hfault
    · cases h
  · intro h
    cases h with
    | runMode h hmode => exact .inl ⟨_, h, hmode, rfl⟩
    | parallelism hmode h hfault => exact .inr ⟨_, hmode, .inl ⟨_, h, hfault⟩⟩
    | triggerFirings hmode hworkers h hfault =>
      exact .inr ⟨_, hmode, .inr ⟨_, hworkers, .inl ⟨_, h, hfault⟩⟩⟩

theorem Replaces.again (h : v.Replaces base o) : v.Replaces o o :=
  ⟨h.jobName.again, h.runMode.again, h.parallelism.again, h.triggerFirings.again⟩

theorem apply_ok_iff : v.apply base = .ok o ↔ v.Replaces base o ∧ o.validate = .ok () := by
  simp only [apply, PipelineOptions.validated, Except.bind_ok_iff, merge_ok_iff]
  constructor
  · rintro ⟨merged, hmerged, ⟨⟩, hvalid, h⟩
    cases h
    exact ⟨hmerged, hvalid⟩
  · rintro ⟨hmerged, hvalid⟩
    exact ⟨o, hmerged, (), hvalid, rfl⟩

theorem apply_error_iff : v.apply base = .error fault ↔
    v.FirstMisread base fault ∨ ∃ o, v.Replaces base o ∧ o.FirstBroken fault := by
  simp only [apply, PipelineOptions.validated, Except.bind_error_iff, merge_error_iff, merge_ok_iff,
    PipelineOptions.validate_error_iff]
  refine or_congr Iff.rfl (exists_congr fun o => and_congr Iff.rfl ⟨?_, .inl⟩)
  rintro (h | ⟨-, -, h⟩)
  · exact h
  · cases h

/-! ## Environments -/

/-- An environment with the variables `vs`. -/
def environment (vs : List (String × String)) (name : String) : Option String := vs.lookup name

/-- Any options are valid after enough overrides. -/
theorem exists_repair (base : PipelineOptions) :
    ∃ lookup o, (ofLookup lookup).apply base = .ok o := by
  have hone : Gives "1" 1 := Text.writes_iff.mpr (by decide)
  refine ⟨environment
    [(jobNameVariable, "job"), (runModeVariable, "batch"), (parallelismVariable, "1")],
    ⟨"job", .bounded, 1, base.triggerFirings⟩, apply_ok_iff.mpr ⟨⟨rfl, ?_, hone, rfl⟩, ?_⟩⟩
  · show Text.lowerAscii (Text.trim "batch") ∈ ["bounded", "batch"]
    decide +kernel
  · have hname : Text.isBlankText "job" = false := by decide
    simp [PipelineOptions.validate, hname, RunMode.isStreaming]

/-- Overrides that all hold values of their fields may break a rule that the options kept. -/
theorem exists_breach {base : PipelineOptions} (h : base.validate = .ok ()) :
    ∃ lookup o, (ofLookup lookup).Replaces base o ∧
      (ofLookup lookup).apply base = .error .noWorkers := by
  have hzero : Gives "0" 0 := Text.writes_iff.mpr (by decide)
  have hreplaces : (ofLookup (environment [(parallelismVariable, "0")])).Replaces base
      { base with parallelism := 0 } := ⟨rfl, rfl, hzero, rfl⟩
  have hname : Text.trim base.jobName ≠ "" := by
    intro hblank
    rw [PipelineOptions.validate_error_iff.mpr (.blankJobName hblank)] at h
    cases h
  exact ⟨_, _, hreplaces, apply_error_iff.mpr (.inr ⟨_, hreplaces, .noWorkers hname rfl⟩)⟩

/-- Applying the variables of an environment to options, valid or not. They are accepted exactly if
every variable that is set holds a value of its field and the options with these fields replaced,
and no others, keep all rules; the overrides change nothing about what they gave. They are refused
for the first variable that holds no value of its field or, if all do, for the first rule that the
merged options break. Whether the options kept the rules before decides nothing. -/
theorem apply_exact (lookup : String → Option String) (base : PipelineOptions) :
    (∀ o, (ofLookup lookup).apply base = .ok o ↔
      (ofLookup lookup).Replaces base o ∧ o.validate = .ok ()) ∧
    (∀ fault, (ofLookup lookup).apply base = .error fault ↔
      (ofLookup lookup).FirstMisread base fault ∨
        ∃ o, (ofLookup lookup).Replaces base o ∧ o.FirstBroken fault) ∧
    (∀ o, (ofLookup lookup).apply base = .ok o → (ofLookup lookup).apply o = .ok o) ∧
    (∃ lookup' o, (ofLookup lookup').apply base = .ok o) ∧
    (base.validate = .ok () → ∃ lookup' o, (ofLookup lookup').Replaces base o ∧
      (ofLookup lookup').apply base = .error .noWorkers) := by
  refine ⟨fun o => apply_ok_iff, fun fault => apply_error_iff, fun o h => ?_, exists_repair base,
    exists_breach⟩
  obtain ⟨hreplaces, hvalid⟩ := apply_ok_iff.mp h
  exact apply_ok_iff.mpr ⟨hreplaces.again, hvalid⟩

/-- Options without workers are repaired, with blanks, a plus and capital letters in the variables;
what they become can be broken again. -/
theorem apply_exact_repaired :
    let lookup := environment [(runModeVariable, " Streaming\t"), (parallelismVariable, "+8 "),
      (triggerFiringsVariable, "3")]
    let base : PipelineOptions := { parallelism := 0, triggerFirings := 0 }
    let o : PipelineOptions := ⟨"velo-pipeline", .unbounded, 8, 3⟩
    base.validate = .error .noWorkers ∧ o.validate = .ok () ∧
      (ofLookup lookup).apply base = .ok o ∧ (ofLookup lookup).apply o = .ok o ∧
      ∃ lookup' merged, (ofLookup lookup').Replaces o merged ∧
        (ofLookup lookup').apply o = .error .noWorkers := by
  intro lookup base o
  have hbase : ({ parallelism := 0, triggerFirings := 0 } : PipelineOptions).validate =
      .error .noWorkers := rfl
  have hvalid : (⟨"velo-pipeline", .unbounded, 8, 3⟩ : PipelineOptions).validate = .ok () := rfl
  have hmode : RunMode.Spells " Streaming\t" .unbounded := by
    show Text.lowerAscii (Text.trim " Streaming\t") ∈ ["unbounded", "streaming"]
    decide +kernel
  have hworkers : Gives "+8 " 8 := Text.writes_iff.mpr (by decide)
  have hfirings : Gives "3" 3 := Text.writes_iff.mpr (by decide)
  have happly : (ofLookup lookup).apply base = .ok o :=
    ((apply_exact lookup base).1 o).mpr ⟨⟨rfl, hmode, hworkers, hfirings⟩, hvalid⟩
  exact ⟨hbase, hvalid, happly, (apply_exact lookup base).2.2.1 o happly,
    (apply_exact lookup o).2.2.2.2 hvalid⟩

end Overrides

end CheckedFlow
