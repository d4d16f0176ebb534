import CheckedFlow.Proofs.Json.Number
import CheckedFlow.Proofs.Json.Text

/-!
# Containers in documents

An array is read item by item and an object field by field, as long as commas follow; both readers
make as many rounds as there are bytes, which is more than they need. What a container holds is
refused with its first item that is refused.

* `Begun`: characters that begin a value, so that neither a comma nor the end of a container is seen.
* `allItems`, `allFields`: the written items and fields, with commas between them.
* `itemsFrom_all`, `items_run`: arrays, if there is a reader that takes each item.
* `Folds`: what the fields of an object come to, one after the other; `foldFields_run`.
-/

namespace CheckedFlow.Json

namespace Reader

open Decoding

variable {α β σ : Type} {cs : List Char} {rest : Bytes} {r : UInt8}

/-! ## Beginnings -/

/-- The character begins a value, and neither goes on with a container nor ends one. -/
def Begins (c : Char) : Prop := Solid c ∧ c ≠ ',' ∧ c ≠ ']' ∧ c ≠ '\x7d'

instance (c : Char) : Decidable (Begins c) := inferInstanceAs (Decidable (_ ∧ _))

theorem begins_numeric {c : Char} (h : c = '-' ∨ c.isDigit = true) : Begins c := by
  have hne : ∀ d : Char, ¬ (d = '-' ∨ d.isDigit = true) → c ≠ d := by
    rintro d hd rfl
    exact hd h
  have hc : c.toNat < 0x80 := h.elim (fun h => h ▸ by decide) toNat_lt_of_isDigit
  exact ⟨⟨hc, hne _ (by decide), hne _ (by decide), hne _ (by decide), hne _ (by decide)⟩,
    hne _ (by decide), hne _ (by decide), hne _ (by decide)⟩

/-- The characters begin a value. -/
def Begun (cs : List Char) : Prop := ∃ c tail, cs = c :: tail ∧ Begins c

/-! ## Items of an array -/

theorem nextItem_first (hcs : Begun cs) (rest : Bytes) :
    (nextItem true).run (Bytes.ofChars cs ++ rest) = .ok (true, Bytes.ofChars cs ++ rest) := by
  obtain ⟨c, tail, rfl, hsolid, hcomma, hbracket, -⟩ := hcs
  rw [nextItem, run_bind_ok (peek_char hsolid tail rest)]
  simp only
  rfl

theorem nextItem_comma (hcs : Begun cs) (rest : Bytes) :
    (nextItem false).run (Bytes.ofChars (',' :: cs) ++ rest) =
      .ok (true, Bytes.ofChars cs ++ rest) := by
  obtain ⟨c, tail, rfl, hsolid, hcomma, hbracket, -⟩ := hcs
  rw [nextItem, run_bind_ok (peek_char (by decide) _ rest)]
  change StateT.run (skip >>= _) _ = _
  rw [run_bind_ok (skip_char (by decide) _ rest), run_bind_ok (peek_char hsolid tail rest)]
  simp only
  rfl

theorem nextItem_end (first : Bool) (rest : Bytes) :
    (nextItem first).run (Bytes.ofChars [']'] ++ rest) = .ok (false, Bytes.ofChars [']'] ++ rest) := by
  rw [nextItem, run_bind_ok (peek_char (by decide) _ rest)]
  rfl

/-- The written items of an array behind its first one. -/
def moreItems (write : α → List Char) (xs : List α) : List Char :=
  xs.flatMap fun x => ',' :: write x

/-- The written items of an array. -/
def allItems (write : α → List Char) : List α → List Char
  | [] => []
  | x :: xs => write x ++ moreItems write xs

/-- What is written of each item takes room. -/
theorem length_le_flatMap (write : α → List Char) (xs : List α) (hwrite : ∀ x, write x ≠ []) :
    xs.length ≤ (xs.flatMap write).length := by
  induction xs with
  | nil => exact Nat.le_refl _
  | cons x xs ih =>
    have hx : 0 < (write x).length := List.length_pos_iff.mpr (hwrite x)
    rw [List.flatMap_cons, List.length_append, List.length_cons]
    omega

section Items

variable {item : Reader α} {write : α → List Char} {accept : α → Option α} {xs : List α}
  {x? : Option α} {xs? : Option (List α)} {rounds rest' : Bytes}

theorem stops_moreItems (write : α → List Char) (xs : List α) (rest : Bytes) :
    Stops (Bytes.ofChars (moreItems write xs) ++ (Bytes.ofChars [']'] ++ rest)) := by
  cases xs with
  | nil => exact stops_bracket [] rest
  | cons x xs => exact stops_comma _ _

/-- Behind an item that is accepted the others are read, and behind one that is not nothing is. -/
theorem item_more (hitem : Takes item cs x?) (hrest : Stops rest)
    (hxs : (itemsFrom item rounds false).run rest = outcome xs? rest') :
    (do
      let x ← item
      let xs ← itemsFrom item rounds false
      return x :: xs : Reader (List α)).run (Bytes.ofChars cs ++ rest) =
      outcome (do return (← x?) :: (← xs?)) rest' := by
  cases x? with
  | none => exact run_bind_error (hitem rest hrest)
  | some x =>
    rw [run_bind_ok (hitem rest hrest)]
    cases xs? with
    | none => exact run_bind_error hxs
    | some xs => exact run_bind_ok hxs

/-- Items behind the first one are read up to the closing bracket. -/
theorem itemsFrom_more (hitem : ∀ x ∈ xs, Takes item (write x) (accept x))
    (hbegun : ∀ x ∈ xs, Begun (write x)) (hrounds : xs.length < rounds.length) (rest : Bytes) :
    (itemsFrom item rounds false).run (Bytes.ofChars (moreItems write xs) ++
        (Bytes.ofChars [']'] ++ rest)) =
      outcome (xs.mapM accept) (Bytes.ofChars [']'] ++ rest) := by
  induction xs generalizing rounds with
  | nil =>
    cases rounds with
    | nil => cases hrounds
    | cons r rounds =>
      rw [itemsFrom, moreItems, List.flatMap_nil, Bytes.ofChars_nil, List.nil_append,
        run_bind_ok (nextItem_end false rest)]
      rfl
  | cons x xs ih =>
    cases rounds with
    | nil => cases hrounds
    | cons r rounds =>
      have hmore := ih (fun y hy => hitem y (List.mem_cons_of_mem x hy))
        (fun y hy => hbegun y (List.mem_cons_of_mem x hy)) (Nat.lt_of_succ_lt_succ hrounds)
      rw [itemsFrom, moreItems, List.flatMap_cons, Bytes.ofChars_append, List.append_assoc,
        run_bind_ok (nextItem_comma (hbegun x List.mem_cons_self) _), List.mapM_cons]
      exact item_more (hitem x List.mem_cons_self) (stops_moreItems write xs rest) hmore

/-- The items of an array are read up to the closing bracket. -/
theorem itemsFrom_all (hitem : ∀ x ∈ xs, Takes item (write x) (accept x))
    (hbegun : ∀ x ∈ xs, Begun (write x)) (hrounds : xs.length < rounds.length) (rest : Bytes) :
    (itemsFrom item rounds true).run (Bytes.ofChars (allItems write xs) ++
        (Bytes.ofChars [']'] ++ rest)) =
      outcome (xs.mapM accept) (Bytes.ofChars [']'] ++ rest) := by
  cases rounds with
  | nil => cases hrounds
  | cons r rounds =>
    cases xs with
    | nil =>
      rw [itemsFrom, allItems, Bytes.ofChars_nil, List.nil_append,
        run_bind_ok (nextItem_end true rest)]
      rfl
    | cons x xs =>
      have hmore := itemsFrom_more (fun y hy => hitem y (List.mem_cons_of_mem x hy))
        (fun y hy => hbegun y (List.mem_cons_of_mem x hy)) (Nat.lt_of_succ_lt_succ hrounds) rest
      rw [itemsFrom, allItems, Bytes.ofChars_append, List.append_assoc,
        run_bind_ok (nextItem_first (hbegun x List.mem_cons_self) _), List.mapM_cons]
      exact item_more (hitem x List.mem_cons_self) (stops_moreItems write xs rest) hmore

/-- As many rounds as there are bytes in the document are enough. -/
theorem length_lt_allItems (hbegun : ∀ x ∈ xs, Begun (write x)) (rest : Bytes) :
    xs.length < (Bytes.ofChars (allItems write xs) ++ (Bytes.ofChars [']'] ++ rest)).length := by
  have hall : xs.length ≤ (allItems write xs).length := by
    cases xs with
    | nil => exact Nat.le_refl _
    | cons x xs =>
      obtain ⟨c, tail, hx, -⟩ := hbegun x List.mem_cons_self
      have hmore := length_le_flatMap (fun y => ',' :: write y) xs fun _ => nofun
      rw [allItems, hx, List.length_append, List.length_cons, List.length_cons, moreItems]
      omega
  have hbytes := Bytes.length_le_ofChars (allItems write xs)
  rw [List.length_append]
  exact Nat.lt_of_le_of_lt (Nat.le_trans hall hbytes) (Nat.lt_add_of_pos_right (Nat.succ_pos _))

theorem endArray_run (rest : Bytes) : endArray.run (Bytes.ofChars [']'] ++ rest) = .ok ((), rest) := by
  rw [endArray, run_bind_ok (peek_char (by decide) _ rest)]
  exact skip_char (by decide) _ rest

/-- An array is read behind its opening bracket. -/
theorem items_run (hitem : ∀ x ∈ xs, Takes item (write x) (accept x))
    (hbegun : ∀ x ∈ xs, Begun (write x)) (rest : Bytes) :
    (items item).run (Bytes.ofChars (allItems write xs ++ [']']) ++ rest) =
      outcome (xs.mapM accept) rest := by
  have hall := itemsFrom_all hitem hbegun (length_lt_allItems hbegun rest) rest
  rw [Bytes.ofChars_append, List.append_assoc, items, run_bind_ok rfl]
  rw [run_bind_outcome (g := id) hall, Option.map_id_apply]
  intro ys
  rw [run_bind_ok (endArray_run rest)]
  rfl

end Items

/-! ## Fields of an object -/

theorem peek_text (s : String) (rest : Bytes) :
    peek.run (Bytes.ofChars (renderText s) ++ rest) =
      .ok (some '"', Bytes.ofChars (renderText s) ++ rest) :=
  peek_char (by decide) (s.toList.flatMap renderChar ++ ['"']) rest

/-- A key is read where one is expected. -/
theorem key_run (key : String) (rest : Bytes) :
    (do
      if (← peek) = some '"' then
        skip
        return some (← string)
      else if (← get).isEmpty then malformed
      else throw .keyNotText : Reader (Option String)).run
        (Bytes.ofChars (renderText key) ++ rest) = .ok (some key, rest) := by
  rw [run_bind_ok (peek_text key rest), if_pos rfl]
  exact quoted_run key rest (fun s => pure (some s))

theorem nextKey_first (key : String) (rest : Bytes) :
    (nextKey true).run (Bytes.ofChars (renderText key) ++ rest) = .ok (some key, rest) := by
  rw [nextKey, run_bind_ok (peek_text key rest)]
  exact key_run key rest

theorem nextKey_comma (key : String) (rest : Bytes) :
    (nextKey false).run (Bytes.ofChars (',' :: renderText key) ++ rest) = .ok (some key, rest) := by
  rw [nextKey, run_bind_ok (peek_char (by decide) _ rest)]
  change StateT.run (skip >>= _) _ = _
  rw [run_bind_ok (skip_char (by decide) _ rest)]
  change StateT.run (peek >>= _) _ = _
  rw [run_bind_ok (peek_text key rest)]
  exact key_run key rest

theorem nextKey_end (first : Bool) (rest : Bytes) :
    (nextKey first).run (Bytes.ofChars ['\x7d'] ++ rest) =
      .ok (none, Bytes.ofChars ['\x7d'] ++ rest) := by
  rw [nextKey, run_bind_ok (peek_char (by decide) _ rest)]
  rfl

theorem colon_run (cs : List Char) (rest : Bytes) :
    colon.run (Bytes.ofChars (':' :: cs) ++ rest) = .ok ((), Bytes.ofChars cs ++ rest) := by
  rw [colon, run_bind_ok (peek_char (by decide) _ rest)]
  exact skip_char (by decide) _ rest

theorem endObject_run (rest : Bytes) :
    endObject.run (Bytes.ofChars ['\x7d'] ++ rest) = .ok ((), rest) := by
  rw [endObject, run_bind_ok (peek_char (by decide) _ rest)]
  exact skip_char (by decide) _ rest

/-- The written fields of an object behind its first one. -/
def moreFields (write : β → List Char) (fields : List (String × β)) : List Char :=
  fields.flatMap fun f => ',' :: renderText f.1 ++ ':' :: write f.2

/-- The written fields of an object. -/
def allFields (write : β → List Char) : List (String × β) → List Char
  | [] => []
  | (key, x) :: fields => renderText key ++ ':' :: write x ++ moreFields write fields

section Fields

variable {step : σ → String → Reader σ} {write : β → List Char} {fields : List (String × β)}
  {s : σ} {s? : Option σ} {rounds : Bytes}

/-- Taking the fields one by one leads from the state `s` to `s?`, or to a value that is refused. -/
inductive Folds (step : σ → String → Reader σ) (write : β → List Char) :
    σ → List (String × β) → Option σ → Prop
  | done (s : σ) : Folds step write s [] (some s)
  | next {s s' : σ} {s? : Option σ} {key : String} {x : β} {fields : List (String × β)}
      (h : Takes (step s key) (':' :: write x) (some s'))
      (hrest : Folds step write s' fields s?) : Folds step write s ((key, x) :: fields) s?
  | refused {s : σ} {key : String} {x : β} {fields : List (String × β)}
      (h : Takes (step s key) (':' :: write x) none) :
      Folds step write s ((key, x) :: fields) none

theorem stops_moreFields (write : β → List Char) (fields : List (String × β)) (rest : Bytes) :
    Stops (Bytes.ofChars (moreFields write fields) ++ (Bytes.ofChars ['\x7d'] ++ rest)) := by
  cases fields with
  | nil => exact stops_brace [] rest
  | cons f fields => exact stops_comma _ _

/-- Behind its key a field is taken, and then the fields behind it. -/
theorem foldFieldsFrom_field {first : Bool} {key : String} {front behind : Bytes}
    (hkey : (nextKey first).run front = .ok (some key, behind)) :
    (foldFieldsFrom step (r :: rounds) first s).run front =
      (step s key >>= foldFieldsFrom step rounds false).run behind := by
  rw [foldFieldsFrom, run_bind_ok hkey]

theorem moreFields_cons (key : String) (x : β) (rest : Bytes) :
    Bytes.ofChars (moreFields write ((key, x) :: fields)) ++ rest =
      Bytes.ofChars (',' :: renderText key) ++ (Bytes.ofChars (':' :: write x) ++
        (Bytes.ofChars (moreFields write fields) ++ rest)) := by
  simp only [moreFields, List.flatMap_cons, Bytes.ofChars_append, List.append_assoc]

/-- Fields behind the first one are read up to the closing brace. -/
theorem foldFieldsFrom_more (h : Folds step write s fields s?)
    (hrounds : fields.length < rounds.length) (rest : Bytes) :
    (foldFieldsFrom step rounds false s).run (Bytes.ofChars (moreFields write fields) ++
        (Bytes.ofChars ['\x7d'] ++ rest)) = outcome s? (Bytes.ofChars ['\x7d'] ++ rest) := by
  induction h generalizing rounds with
  | done s =>
    cases rounds with
    | nil => cases hrounds
    | cons r rounds =>
      rw [foldFieldsFrom, moreFields, List.flatMap_nil, Bytes.ofChars_nil, List.nil_append,
        run_bind_ok (nextKey_end false rest)]
      rfl
  | @next s s' s? key x fields htakes hrest ih =>
    cases rounds with
    | nil => cases hrounds
    | cons r rounds =>
      rw [moreFields_cons, foldFieldsFrom_field (nextKey_comma key _),
        run_bind_ok (htakes _ (stops_moreFields write fields rest))]
      exact ih (Nat.lt_of_succ_lt_succ hrounds)
  | @refused s key x fields htakes =>
    cases rounds with
    | nil => cases hrounds
    | cons r rounds =>
      rw [moreFields_cons, foldFieldsFrom_field (nextKey_comma key _)]
      exact run_bind_error (htakes _ (stops_moreFields write fields rest))

/-- The fields of an object are read up to the closing brace. -/
theorem foldFieldsFrom_all (h : Folds step write s fields s?)
    (hrounds : fields.length < rounds.length) (rest : Bytes) :
    (foldFieldsFrom step rounds true s).run (Bytes.ofChars (allFields write fields) ++
        (Bytes.ofChars ['\x7d'] ++ rest)) = outcome s? (Bytes.ofChars ['\x7d'] ++ rest) := by
  cases rounds with
  | nil => cases hrounds
  | cons r rounds =>
    cases h with
    | done =>
      rw [foldFieldsFrom, allFields, Bytes.ofChars_nil, List.nil_append,
        run_bind_ok (nextKey_end true rest)]
      rfl
    | @next s s' s? key x fields htakes hrest =>
      rw [allFields, Bytes.ofChars_append, Bytes.ofChars_append, List.append_assoc,
        List.append_assoc, foldFieldsFrom_field (nextKey_first key _),
        run_bind_ok (htakes _ (stops_moreFields write fields rest))]
      exact foldFieldsFrom_more hrest (Nat.lt_of_succ_lt_succ hrounds) rest
    | @refused s key x fields htakes =>
      rw [allFields, Bytes.ofChars_append, Bytes.ofChars_append, List.append_assoc,
        List.append_assoc, foldFieldsFrom_field (nextKey_first key _)]
      exact run_bind_error (htakes _ (stops_moreFields write fields rest))

theorem length_lt_allFields (write : β → List Char) (fields : List (String × β)) (rest : Bytes) :
    fields.length <
      (Bytes.ofChars (allFields write fields) ++ (Bytes.ofChars ['\x7d'] ++ rest)).length := by
  have hall : fields.length ≤ (allFields write fields).length := by
    cases fields with
    | nil => exact Nat.le_refl _
    | cons f fields =>
      have hmore := length_le_flatMap
        (fun g : String × β => ',' :: renderText g.1 ++ ':' :: write g.2) fields
        fun _ => nofun
      rw [allFields, List.length_append, renderText, moreFields]
      simp only [List.length_append, List.length_cons] at hmore ⊢
      omega
  have hbytes := Bytes.length_le_ofChars (allFields write fields)
  rw [List.length_append]
  exact Nat.lt_of_le_of_lt (Nat.le_trans hall hbytes) (Nat.lt_add_of_pos_right (Nat.succ_pos _))

/-- The fields of an object are read behind its opening brace. -/
theorem foldFields_run (h : Folds step write s fields s?) (rest : Bytes) :
    (foldFields step s).run (Bytes.ofChars (allFields write fields ++ ['\x7d']) ++ rest) =
      outcome s? (Bytes.ofChars ['\x7d'] ++ rest) := by
  rw [Bytes.ofChars_append, List.append_assoc, foldFields, run_bind_ok rfl]
  exact foldFieldsFrom_all h (length_lt_allFields write fields rest) rest

end Fields

end Reader

end CheckedFlow.Json
