import CheckedFlow.Proofs.Check.Isolation

/-!
# Terminal calls

A terminal call takes an assertion name and builds a check under it. Which check it is can be read
off the call; a call against an expected value has found a codec for it first.

* `IterableAssertion.satisfies_ok`, `IterableAssertion.satisfiesRelation_ok`: calls on collections.
* `SingletonAssertion.satisfies_ok`, `SingletonAssertion.satisfiesRelation_ok`: calls on single
  values.
* `Terminal`: all of these calls; `Terminal.LooksThrough`: what the firings of their checks do.
-/

namespace CheckedFlow

variable {α : Type} {k : Kind} {g g' : Graph} {h : CheckHandle}

open Builder

/-- A call that needs a codec and succeeds had one. -/
theorem requireCodec_ok {kind remedy : String} {c : Option (Codec α)} {codec : Codec α}
    (h : requireCodec kind remedy c = .ok codec) : c = some codec := by
  cases c with
  | none => cases h
  | some c => cases h; rfl

theorem IterableAssertion.satisfies_ok {a : IterableAssertion k}
    {checker : Checker (List k.Value)} (he : exec (a.satisfies checker) g = (.ok h, g')) :
    exec (checkValue (k := .list k) a.pipeline g.nextAssertion.1 a.evidence checker)
      g.nextAssertion.2 = (.ok h, g') := by
  obtain ⟨name, g₁, hn, hc⟩ := exec_bind_ok.mp he
  cases hn
  exact hc

theorem IterableAssertion.satisfiesRelation_ok {a : IterableAssertion k}
    {r : Relation (List k.Value) (List k.Value)} {expected : List k.Value}
    (he : exec (a.satisfiesRelation r expected) g = (.ok h, g')) :
    ∃ codec, a.codec = some codec ∧
      exec (checkAgainst (k := .list k) (l := .list k) a.pipeline g.nextAssertion.1 a.evidence
        (.ofValues expected (some codec) .iterable) r) g.nextAssertion.2 = (.ok h, g') := by
  obtain ⟨codec, g₁, hcodec, he₁⟩ := exec_bind_ok.mp he
  obtain ⟨name, g₂, hn, hc⟩ := exec_bind_ok.mp he₁
  rw [exec_ofExcept, Prod.mk.injEq] at hcodec
  obtain ⟨hcodec, rfl⟩ := hcodec
  cases hn
  exact ⟨codec, requireCodec_ok hcodec, hc⟩

theorem SingletonAssertion.satisfies_ok {a : SingletonAssertion k} {checker : Checker k.Value}
    (he : exec (a.satisfies checker) g = (.ok h, g')) :
    exec (checkValue a.pipeline g.nextAssertion.1 a.evidence checker) g.nextAssertion.2 =
      (.ok h, g') := by
  obtain ⟨name, g₁, hn, hc⟩ := exec_bind_ok.mp he
  cases hn
  exact hc

theorem SingletonAssertion.satisfiesRelation_ok {a : SingletonAssertion k}
    {r : Relation k.Value k.Value} {expected : k.Value}
    (he : exec (a.satisfiesRelation r expected) g = (.ok h, g')) :
    ∃ codec, a.codec = some codec ∧
      exec (checkAgainst a.pipeline g.nextAssertion.1 a.evidence
        (.ofValues [expected] (some codec) .singleton) r) g.nextAssertion.2 = (.ok h, g') := by
  obtain ⟨codec, g₁, hcodec, he₁⟩ := exec_bind_ok.mp he
  obtain ⟨name, g₂, hn, hc⟩ := exec_bind_ok.mp he₁
  rw [exec_ofExcept, Prod.mk.injEq] at hcodec
  obtain ⟨hcodec, rfl⟩ := hcodec
  cases hn
  exact ⟨codec, requireCodec_ok hcodec, hc⟩

/-! ## All terminal calls -/

/-- A terminal call. The calls with a relation of their own, such as `containsInAnyOrder` or
`isEqualTo`, are calls with that relation. -/
inductive Terminal where
  | collectionSatisfies {k : Kind} (a : IterableAssertion k) (checker : Checker (List k.Value))
  | collectionRelates {k : Kind} (a : IterableAssertion k)
      (r : Relation (List k.Value) (List k.Value)) (expected : List k.Value)
  | valueSatisfies {k : Kind} (a : SingletonAssertion k) (checker : Checker k.Value)
  | valueRelates {k : Kind} (a : SingletonAssertion k) (r : Relation k.Value k.Value)
      (expected : k.Value)

/-- The assertion is about a handle that denotes a stage of `g`. -/
def IterableActual.In (g : Graph) : IterableActual k → Prop
  | elements d => d.In g
  | singleton d => d.In g
  | view v => v.In g

/-- The assertion is about a handle that denotes a stage of `g`, or about ready evidence. -/
def SingletonActual.In (g : Graph) : SingletonActual k → Prop
  | element d => d.In g
  | derived e => e.Ready g

theorem IterableAssertion.evidence_ready {a : IterableAssertion k} (h : a.actual.In g) :
    Evidence.Ready g (k := .list k) a.evidence := by
  obtain ⟨p, actual, codec⟩ := a
  cases actual with
  | elements d => exact .ofDataset (l := .list k) _ _ _ h
  | singleton d => exact .ofDataset _ _ _ h
  | view v => exact .ofView h

theorem SingletonAssertion.evidence_ready {a : SingletonAssertion k} (h : a.actual.In g) :
    a.evidence.Ready g := by
  obtain ⟨p, actual, codec⟩ := a
  cases actual with
  | element d => exact .ofDataset _ _ _ h
  | derived e => exact h

namespace Terminal

/-- The pipeline that the call is made on. -/
def pipeline : Terminal → Pipeline
  | collectionSatisfies a _ => a.pipeline
  | collectionRelates a _ _ => a.pipeline
  | valueSatisfies a _ => a.pipeline
  | valueRelates a _ _ => a.pipeline

/-- The call itself. -/
def call : Terminal → Builder CheckHandle
  | collectionSatisfies a checker => a.satisfies checker
  | collectionRelates a r expected => a.satisfiesRelation r expected
  | valueSatisfies a checker => a.satisfies checker
  | valueRelates a r expected => a.satisfiesRelation r expected

/-- The assertion is about a handle that denotes a stage of `g`. -/
def In (g : Graph) : Terminal → Prop
  | collectionSatisfies a _ => a.actual.In g
  | collectionRelates a _ _ => a.actual.In g
  | valueSatisfies a _ => a.actual.In g
  | valueRelates a _ _ => a.actual.In g

/-- The expected values, if there are any, decode from their own encodings. -/
def Decodes : Terminal → Prop
  | collectionSatisfies .. => True
  | collectionRelates a _ expected =>
    ∀ codec, a.codec = some codec → ∀ x ∈ expected, ∃ y, codec.copy x = .ok y
  | valueSatisfies .. => True
  | valueRelates a _ expected => ∀ codec, a.codec = some codec → ∃ y, codec.copy expected = .ok y

/-- The body runs the checker or the relation of the call, on the values of views. -/
def LooksThrough : Terminal → CheckBody → Prop
  | @collectionSatisfies k _ checker, body => ∃ v : View (.list k), body = .value v checker
  | @collectionRelates k _ r _, body => ∃ v w : View (.list k), body = .against v w r
  | @valueSatisfies k _ checker, body => ∃ v : View k, body = .value v checker
  | @valueRelates k _ r _, body => ∃ v w : View k, body = .against v w r

/-- A call that succeeds built the check of a value, or the check of a value against given ones. -/
theorem call_ok {t : Terminal} (hin : t.In g) (he : exec t.call g = (.ok h, g')) :
    (∃ (k : Kind) (actual : Evidence k) (checker : Checker k.Value), actual.Ready g ∧ t.Decodes ∧
      (∀ v : View k, t.LooksThrough (.value v checker)) ∧
      exec (checkValue t.pipeline g.nextAssertion.1 actual checker) g.nextAssertion.2 =
        (.ok h, g')) ∨
    (∃ (k l m : Kind) (actual : Evidence k) (values : List m.Value) (codec : Codec m.Value)
      (f : ViewFn m.Value l.Value) (r : Relation k.Value l.Value), actual.Ready g ∧
      (t.Decodes ↔ ∀ x ∈ values, ∃ y, codec.copy x = .ok y) ∧
      (∀ (v : View k) (w : View l), t.LooksThrough (.against v w r)) ∧
      exec (checkAgainst t.pipeline g.nextAssertion.1 actual (.ofValues values (some codec) f) r)
        g.nextAssertion.2 = (.ok h, g')) := by
  cases t with
  | @collectionSatisfies k a checker =>
    exact .inl ⟨.list k, a.evidence, checker, IterableAssertion.evidence_ready hin, trivial,
      fun v => ⟨v, rfl⟩, IterableAssertion.satisfies_ok he⟩
  | @collectionRelates k a r expected =>
    obtain ⟨codec, hcodec, hc⟩ := IterableAssertion.satisfiesRelation_ok he
    refine .inr ⟨.list k, .list k, k, a.evidence, expected, codec, .iterable, r,
      IterableAssertion.evidence_ready hin, ?_, fun v w => ⟨v, w, rfl⟩, hc⟩
    simp [Decodes, hcodec]
  | @valueSatisfies k a checker =>
    exact .inl ⟨k, a.evidence, checker, SingletonAssertion.evidence_ready hin, trivial,
      fun v => ⟨v, rfl⟩, SingletonAssertion.satisfies_ok he⟩
  | @valueRelates k a r expected =>
    obtain ⟨codec, hcodec, hc⟩ := SingletonAssertion.satisfiesRelation_ok he
    refine .inr ⟨k, k, k, a.evidence, [expected], codec, .singleton, r,
      SingletonAssertion.evidence_ready hin, ?_, fun v w => ⟨v, w, rfl⟩, hc⟩
    simp [Decodes, hcodec]

end Terminal

end CheckedFlow
