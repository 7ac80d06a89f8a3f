import GroupStore.Proofs.Json.Value

/-!
# The text of a value is one line

Control characters are escaped in strings and occur nowhere else, so no line ends inside the text of
a value.

* `Json.OneLine` — texts without a line end;
* `Json.oneLine_text` — the text of a value is one.
-/

namespace GroupStore.Json

open TextOrder (bytes bytes_eq_flatMap)

/-- No line ends in a text. -/
def OneLine (s : String) : Prop := '\n' ∉ s.toList

instance (s : String) : Decidable (OneLine s) := inferInstanceAs (Decidable ('\n' ∉ s.toList))

theorem OneLine.append {s t : String} (first : OneLine s) (second : OneLine t) :
    OneLine (s ++ t) := by
  rw [OneLine, String.toList_append, List.mem_append]
  exact fun member => member.elim first second

/-- A text whose bytes are none of a line end is one line. -/
theorem oneLine_of_bytes {s : String} (other : ∀ b ∈ bytes s, b ≠ ascii '\n') : OneLine s := by
  intro member
  refine other (ascii '\n') ?_ rfl
  rw [bytes_eq_flatMap]
  exact List.mem_flatMap.mpr ⟨'\n', member, by decide⟩

/-! ### Strings -/

theorem hexDigit_ne (n : Nat) (small : n < 16) : hexDigit n ≠ '\n' := by
  have each : ∀ n, n < 16 → hexDigit n ≠ '\n' := by decide
  exact each n small

/-- A character that ends a line is escaped. -/
theorem newline_not_mem_escape (c : Char) : '\n' ∉ escape c := by
  unfold escape
  by_cases small : c.toNat < 32
  · have high := hexDigit_ne (c.toNat / 16) (by omega)
    have low := hexDigit_ne (c.toNat % 16) (by omega)
    repeat' split
    all_goals simp [high.symm, low.symm]
  · have other : '\n' ≠ c := fun isNewline => small (isNewline ▸ by decide)
    repeat' split
    all_goals simp_all

theorem oneLine_quoted (s : String) : OneLine (quoted s) := by
  rw [OneLine, toList_quoted]
  simp only [List.mem_cons, List.mem_append, List.mem_flatMap, List.not_mem_nil, or_false]
  rintro (quote | ⟨c, -, member⟩ | quote)
  · exact absurd quote (by decide)
  · exact newline_not_mem_escape c member
  · exact absurd quote (by decide)

/-! ### Numbers -/

theorem digitByte_ne {ds : List Nat} (small : ∀ d ∈ ds, d < 10) :
    ∀ b ∈ ds.map digitByte, b ≠ ascii '\n' := by
  have each : ∀ d, d < 10 → digitByte d ≠ ascii '\n' := by decide
  intro b member
  obtain ⟨d, inside, rfl⟩ := List.mem_map.mp member
  exact each d (small d inside)

theorem spelling_ne {n : Numeral} (right : n.WellFormed) :
    ∀ b ∈ n.spelling, b ≠ ascii '\n' := by
  intro b member
  simp only [Numeral.spelling, List.mem_append] at member
  rcases member with sign | whole | decimals | exponent
  · split at sign
    · rw [List.mem_singleton.mp sign]
      decide
    · exact absurd sign List.not_mem_nil
  · exact digitByte_ne right.whole b whole
  · cases parts : n.decimals with
    | none =>
      rw [parts] at decimals
      exact absurd decimals List.not_mem_nil
    | some ds =>
      rw [parts] at decimals
      rcases List.mem_cons.mp decimals with rfl | digit
      · decide
      · exact digitByte_ne (right.decimals ds parts).2 b digit
  · cases parts : n.exponent with
    | none =>
      rw [parts] at exponent
      exact absurd exponent List.not_mem_nil
    | some e =>
      obtain ⟨minus, ds⟩ := e
      rw [parts] at exponent
      rcases List.mem_cons.mp exponent with rfl | rest
      · decide
      · rcases List.mem_cons.mp rest with rfl | digit
        · cases minus <;> decide
        · exact digitByte_ne (right.exponent minus ds parts).2 b digit

theorem oneLine_number (n : Number) : OneLine n.text := by
  obtain ⟨right, spelled⟩ := bytes_number n
  refine oneLine_of_bytes fun b member => ?_
  rw [spelled] at member
  exact spelling_ne right b member

/-! ### Values -/

mutual

theorem oneLine_write (v : Json) {out : String} (line : OneLine out) : OneLine (v.write out) := by
  match v with
  | null => exact line.append (by decide)
  | bool true => exact line.append (by decide)
  | bool false => exact line.append (by decide)
  | number n => exact line.append (oneLine_number n)
  | string s => exact line.append (oneLine_quoted s)
  | array [] => exact line.append (by decide)
  | array (item :: items) =>
    rw [write]
    exact (oneLine_writeItems items (oneLine_write item (line.append (by decide)))).append
      (by decide)
  | object [] => exact line.append (by decide)
  | object ((name, value) :: fields) =>
    rw [write]
    exact (oneLine_writeFields fields (oneLine_write value
      (((line.append (by decide)).append (oneLine_quoted name)).append (by decide)))).append
        (by decide)

theorem oneLine_writeItems (items : List Json) {out : String} (line : OneLine out) :
    OneLine (writeItems out items) := by
  match items with
  | [] => exact line
  | item :: items =>
    rw [writeItems]
    exact oneLine_writeItems items (oneLine_write item (line.append (by decide)))

theorem oneLine_writeFields (fields : List (String × Json)) {out : String} (line : OneLine out) :
    OneLine (writeFields out fields) := by
  match fields with
  | [] => exact line
  | (name, value) :: fields =>
    rw [writeFields]
    exact oneLine_writeFields fields (oneLine_write value
      (((line.append (by decide)).append (oneLine_quoted name)).append (by decide)))

end

/-- The text of a value is one line. -/
theorem oneLine_text (v : Json) : OneLine v.text := oneLine_write v (by decide)

end GroupStore.Json
