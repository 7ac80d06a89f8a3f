import GroupStore.Proofs.Binary64.Shortest
import GroupStore.Proofs.Json.Numeral

/-!
# Floating point numbers are written as literals

The text of a floating point number is the spelling of a literal with a point or an exponent.  Its
digits are those of the shortest decimal number that rounds to it.

* `Json.Numeral.ofFloat` — the literal;
* `Json.Numeral.wellFormed_ofFloat` — the grammar allows it;
* `Json.bytes_float` — the text is its spelling.
-/

namespace GroupStore.Json

open TextOrder (bytes bytes_eq_flatMap)
open Binary64 (shortest positional mantissaText exponentText positionalFrom positionalBelow)

namespace Numeral

/-- Digits on both sides of a point that stands after the first `point` of them; zeros fill up. -/
def around (ds : List Nat) (point : Int) : List Nat × List Nat :=
  if point ≤ 0 then ([0], List.replicate (-point).toNat 0 ++ ds)
  else if ds.length ≤ point.toNat then (ds ++ List.replicate (point.toNat - ds.length) 0, [0])
  else (ds.take point.toNat, ds.drop point.toNat)

/-- The literal of digits and their power: positional, or with one digit before the point and an
exponent. -/
def ofDecimal (negative : Bool) (ds : List Nat) (k : Int) : Numeral :=
  let point : Int := ds.length + k
  if positionalFrom < point ∧ point ≤ positionalBelow then
    ⟨negative, (around ds point).1, some (around ds point).2, none⟩
  else
    ⟨negative, ds.take 1, if ds.drop 1 = [] then none else some (ds.drop 1),
      some (decide (point - 1 < 0), digits (point - 1).natAbs)⟩

/-- The literal of a floating point number. -/
def ofFloat (f : Binary64) : Numeral :=
  if f.mantissa = 0 then ⟨f.negative, [0], some [0], none⟩
  else
    ofDecimal f.negative (digits (shortest (f.mantissa, f.exponent)).1)
      (shortest (f.mantissa, f.exponent)).2

/-! ### The grammar -/

/-- Digits that begin like a number other than zero. -/
def Positive (ds : List Nat) : Prop := ∃ d rest, ds = (d + 1) :: rest

theorem wellFormed_around {ds : List Nat} {point : Int} (small : ∀ d ∈ ds, d < 10)
    (nonempty : ds ≠ []) (begins : Positive ds ∨ ds = [0] ∧ point = 1) :
    (∀ d ∈ (around ds point).1, d < 10) ∧ wellBegun (around ds point).1 = true ∧
      (around ds point).2 ≠ [] ∧ ∀ d ∈ (around ds point).2, d < 10 := by
  have zeros (n : Nat) : ∀ d ∈ List.replicate n 0, d < 10 := by
    intro d member
    rw [List.eq_of_mem_replicate member]
    decide
  unfold around
  by_cases before : point ≤ 0
  · rw [if_pos before]
    refine ⟨by simp, rfl, by simp [nonempty], fun d member => ?_⟩
    rcases List.mem_append.mp member with zero | own
    · exact zeros _ d zero
    · exact small d own
  rw [if_neg before]
  by_cases after : ds.length ≤ point.toNat
  · rw [if_pos after]
    refine ⟨fun d member => ?_, ?_, by simp, by simp⟩
    · rcases List.mem_append.mp member with own | zero
      · exact small d own
      · exact zeros _ d zero
    · rcases begins with ⟨d, rest, rfl⟩ | ⟨rfl, rfl⟩ <;> rfl
  · rw [if_neg after]
    refine ⟨fun d member => small d (List.mem_of_mem_take member), ?_, ?_,
      fun d member => small d (List.mem_of_mem_drop member)⟩
    · obtain ⟨n, point⟩ : ∃ n, point.toNat = n + 1 := ⟨point.toNat - 1, by omega⟩
      rw [point]
      rcases begins with ⟨d, rest, rfl⟩ | ⟨rfl, -⟩
      · rfl
      · simp [point] at after
    · intro empty
      have short := List.drop_eq_nil_iff.mp empty
      omega

theorem wellFormed_ofDecimal (negative : Bool) {ds : List Nat} {k : Int}
    (small : ∀ d ∈ ds, d < 10) (nonempty : ds ≠ []) (begins : Positive ds ∨ ds = [0] ∧ k = 0) :
    (ofDecimal negative ds k).WellFormed := by
  unfold ofDecimal
  dsimp only
  split
  · have begins' : Positive ds ∨ ds = [0] ∧ (ds.length : Int) + k = 1 := by
      rcases begins with head | ⟨rfl, rfl⟩
      · exact .inl head
      · exact .inr ⟨rfl, rfl⟩
    obtain ⟨whole, begun, more, decimals⟩ := wellFormed_around small nonempty begins'
    refine ⟨whole, begun, ?_, fun _ _ absent => by cases absent⟩
    rintro _ ⟨⟩
    exact ⟨more, decimals⟩
  · refine ⟨fun d member => small d (List.mem_of_mem_take member), ?_,
      fun other decimalsIs => ?_, ?_⟩
    · cases ds with
      | nil => exact absurd rfl nonempty
      | cons d rest => cases d <;> rfl
    · dsimp only at decimalsIs
      split at decimalsIs
      · cases decimalsIs
      · rename_i more
        cases decimalsIs
        exact ⟨more, fun d member => small d (List.mem_of_mem_drop member)⟩
    · rintro _ _ ⟨⟩
      exact ⟨digits_ne_nil _, digits_small _⟩

/-- The grammar allows the literal of a floating point number. -/
theorem wellFormed_ofFloat (f : Binary64) : (ofFloat f).WellFormed := by
  unfold ofFloat
  split
  · refine ⟨by simp, rfl, ?_, fun _ _ absent => by cases absent⟩
    rintro _ ⟨⟩
    simp
  · refine wellFormed_ofDecimal _ (digits_small _) (digits_ne_nil _) ?_
    rcases Binary64.shortest_cases (f.mantissa, f.exponent) with ⟨nonzero, -⟩ | ⟨zero, -⟩
    · exact .inl (digits_head (Nat.pos_of_ne_zero nonzero))
    · rw [zero]
      exact .inr ⟨by rw [digits, if_pos (by decide)], rfl⟩

end Numeral

/-! ### The text -/

theorem bytes_ofList_append (cs ds : List Char) :
    bytes (String.ofList (cs ++ ds)) = bytes (String.ofList cs) ++ bytes (String.ofList ds) := by
  rw [String.ofList_append, bytes_append]

theorem positional_eq (ds : List Nat) (point : Int) :
    positional (ds.map Nat.digitChar) point =
      (Numeral.around ds point).1.map Nat.digitChar ++
        ('.' :: (Numeral.around ds point).2.map Nat.digitChar) := by
  unfold positional Numeral.around
  rw [List.length_map]
  split
  · simp [Nat.digitChar]
  · split
    · simp [Nat.digitChar]
    · simp [List.map_take, List.map_drop]

theorem bytes_positional {ds : List Nat} {point : Int}
    (whole : ∀ d ∈ (Numeral.around ds point).1, d < 10)
    (decimals : ∀ d ∈ (Numeral.around ds point).2, d < 10) :
    bytes (String.ofList (positional (ds.map Nat.digitChar) point)) =
      (Numeral.around ds point).1.map digitByte ++
        Numeral.decimalBytes (some (Numeral.around ds point).2) := by
  rw [positional_eq, bytes_ofList_append, bytes_ofDigits whole, ← List.singleton_append,
    bytes_ofList_append, bytes_ofDigits decimals]
  rfl

theorem bytes_mantissaText {ds : List Nat} (small : ∀ d ∈ ds, d < 10) :
    bytes (String.ofList (mantissaText (ds.map Nat.digitChar))) =
      (ds.take 1).map digitByte ++
        Numeral.decimalBytes (if ds.drop 1 = [] then none else some (ds.drop 1)) := by
  match ds with
  | [] => rfl
  | [d] => exact bytes_ofDigits small
  | d :: e :: rest =>
    have first : ∀ c ∈ [d], c < 10 := fun c member =>
      small c (List.mem_cons.mpr (.inl (List.mem_singleton.mp member)))
    have others : ∀ c ∈ e :: rest, c < 10 := fun c member => small c (List.mem_cons_of_mem _ member)
    have text : mantissaText ((d :: e :: rest).map Nat.digitChar) =
        [d].map Nat.digitChar ++ (['.'] ++ (e :: rest).map Nat.digitChar) := rfl
    rw [text, bytes_ofList_append, bytes_ofDigits first, bytes_ofList_append,
      bytes_ofDigits others]
    rfl

theorem bytes_exponentText (power : Int) :
    bytes (exponentText power) =
      Numeral.exponentBytes (some (decide (power < 0), digits power.natAbs)) := by
  have digits' : bytes (toString power.natAbs) = (digits power.natAbs).map digitByte :=
    bytes_repr power.natAbs
  unfold exponentText
  rw [bytes_append, bytes_append, digits']
  by_cases negative : power < 0
  · rw [if_pos negative, decide_eq_true negative]
    rfl
  · rw [if_neg negative, decide_eq_false negative]
    rfl

/-- The text of a floating point number is the spelling of its literal. -/
theorem bytes_float (f : Binary64) : bytes f.text = (Numeral.ofFloat f).spelling := by
  have right := Numeral.wellFormed_ofFloat f
  have sign : bytes (if f.negative then "-" else "") =
      if f.negative then [ascii '-'] else [] := by
    cases f.negative <;> rfl
  rw [Binary64.text, bytes_append, sign]
  unfold Numeral.ofFloat at right ⊢
  unfold Binary64.magnitudeText
  by_cases zero : f.mantissa = 0
  · rw [if_pos zero, if_pos zero]
    rfl
  · rw [if_neg zero] at right
    rw [if_neg zero, if_neg zero]
    dsimp only
    generalize shortest (f.mantissa, f.exponent) = found at *
    rw [toDigits_eq, List.length_map]
    unfold Numeral.ofDecimal at right ⊢
    dsimp only at right ⊢
    by_cases near : positionalFrom < ((digits found.1).length : Int) + found.2 ∧
        ((digits found.1).length : Int) + found.2 ≤ positionalBelow
    · rw [if_pos near] at right
      rw [if_pos near, if_pos near, bytes_positional right.whole (right.decimals _ rfl).2]
      simp only [Numeral.spelling, Numeral.exponentBytes, List.append_nil]
    · rw [if_neg near, if_neg near, bytes_append, bytes_mantissaText (digits_small _),
        bytes_exponentText]
      simp only [Numeral.spelling, List.append_assoc]

end GroupStore.Json
