import CheckedFlow.Graph.Processing

/-!
# Processing in chunks

A stage's elements are cut into as many contiguous chunks of equal length as there are workers, or
fewer. Each worker processes its chunk from the left until an element fails or the chunk ends; no
worker stops because another failed. The stage emits what the chunks emit, in order, or ends as the
first chunk that did not end well.

* `chunksOf`: the chunks; `flatten_chunksOf` says that no element is lost or moved.
* `runChunk`: one worker.
* `joinChunks`: the stage, from its workers.
* `processInChunks`: the stage, from its elements.
-/

namespace CheckedFlow

variable {α β : Type}

/-- The elements of `xs` in pieces of `n`, the last one shorter if needed. -/
def chunksOf (n : Nat) : List α → List (List α)
  | [] => []
  | x :: xs => (x :: xs.take (n - 1)) :: chunksOf n (xs.drop (n - 1))
termination_by xs => xs.length
decreasing_by simp only [List.length_drop, List.length_cons]; omega

theorem flatten_chunksOf (n : Nat) (xs : List α) : (chunksOf n xs).flatten = xs := by
  fun_induction chunksOf n xs with
  | case1 => rfl
  | case2 x xs ih => simp [ih]

/-- The length of the chunks of `total` elements for some workers. -/
def chunkSize (total workers : Nat) : Nat := max ((total + workers - 1) / workers) 1

/-- What a worker does with the elements of its chunk. -/
def runChunk (f : Windowed α → Processed β) : List (Windowed α) → Processed β
  | [] => {}
  | x :: xs =>
    let first := f x
    match first.ending with
    | .done =>
      let rest := runChunk f xs
      ⟨first.effects ++ rest.effects, first.emitted ++ rest.emitted, rest.ending⟩
    | _ => first

/-- What a stage does whose workers do `chunks`. All effects happen; what is emitted after the first
chunk that did not end well is lost with it. -/
def joinChunks : List (Processed β) → Processed β
  | [] => {}
  | first :: chunks =>
    let rest := joinChunks chunks
    match first.ending with
    | .done => ⟨first.effects ++ rest.effects, first.emitted ++ rest.emitted, rest.ending⟩
    | ending => ⟨first.effects ++ rest.effects, first.emitted, ending⟩

/-- What a stage does with its elements. -/
def processInChunks (workers : Nat) (f : Windowed α → Processed β) (xs : List (Windowed α)) :
    Processed β :=
  joinChunks ((chunksOf (chunkSize xs.length workers) xs).map (runChunk f))

end CheckedFlow
