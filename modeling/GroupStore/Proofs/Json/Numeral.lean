import GroupStore.Proofs.Json.Text

/-!
# Number literals are read as they were written

A literal has texts: its digits with a point, a sign and an exponent where it has them.  They are
read as the literal again, and the tokenizer finds their end at the next byte that is no part of a
number.  Integers are written as such spellings, and an integer in range stands for itself
again.

* `Json.Numeral.spelling` — the bytes of a literal as it is written;
* `Json.Numeral.IsText` — all texts that the grammar has for a literal;
* `Json.Numeral.IsText.ofBytes?` — they are read as the literal;
* `Json.Tokenizer.run_text` — the tokenizer gathers them;
* `Json.Numeral.ofInt`, `Json.Numeral.value?_ofInt` — the literal of an integer and its value.
-/

namespace GroupStore.Json

open TextOrder (bytes bytes_eq_flatMap)

/-! ### Digits -/

/-- The byte of a decimal digit. -/
def digitByte (d : Nat) : UInt8 := ascii '0' + d.toUInt8

theorem digitByte_facts {d : Nat} (small : d < 10) :
    isDigit (digitByte d) = true ∧ digitValue (digitByte d) = d := by
  have each : ∀ d, d < 10 → isDigit (digitByte d) = true ∧ digitValue (digitByte d) = d := by decide
  exact each d small

/-- A digit of a decimal numeral, as a byte. -/
theorem encode_digitChar {d : Nat} (small : d < 10) :
    String.utf8EncodeChar d.digitChar = [digitByte d] := by
  have each : ∀ d, d < 10 → String.utf8EncodeChar d.digitChar = [digitByte d] := by decide
  exact each d small

/-- The decimal digits of a number. -/
def digits (n : Nat) : List Nat := if n < 10 then [n] else digits (n / 10) ++ [n % 10]

theorem toDigits_eq (n : Nat) : Nat.toDigits 10 n = (digits n).map Nat.digitChar := by
  induction n using digits.induct with
  | case1 n small => rw [digits, if_pos small, Nat.toDigits_of_lt_base small, List.map_singleton]
  | case2 n large ih =>
    rw [digits, if_neg large, Nat.toDigits_of_base_le (by decide) (by omega), ih, List.map_append,
      List.map_singleton]

theorem digits_small (n : Nat) : ∀ d ∈ digits n, d < 10 := by
  induction n using digits.induct with
  | case1 n small =>
    rw [digits, if_pos small]
    simpa using small
  | case2 n large ih =>
    rw [digits, if_neg large]
    intro d member
    rcases List.mem_append.mp member with front | last
    · exact ih d front
    · rw [List.mem_singleton.mp last]
      exact Nat.mod_lt n (by decide)

theorem digits_ne_nil (n : Nat) : digits n ≠ [] := by
  rw [digits]
  split <;> simp

/-- The first digit of a positive number is positive. -/
theorem digits_head {n : Nat} (positive : 0 < n) : ∃ d rest, digits n = (d + 1) :: rest := by
  induction n using digits.induct with
  | case1 n small => exact ⟨n - 1, [], by rw [digits, if_pos small, Nat.sub_add_cancel positive]⟩
  | case2 n large ih =>
    obtain ⟨d, rest, digitsIs⟩ := ih (by omega)
    exact ⟨d, rest ++ [n % 10], by rw [digits, if_neg large, digitsIs]; rfl⟩

theorem wellBegun_digits (n : Nat) : Numeral.wellBegun (digits n) = true := by
  rcases Nat.eq_zero_or_pos n with rfl | positive
  · rw [digits, if_pos (by decide)]
    rfl
  · obtain ⟨d, rest, digitsIs⟩ := digits_head positive
    rw [digitsIs]
    rfl

/-- The number of some digits. -/
def ofDigits (ds : List Nat) : Nat := ds.foldl (fun value digit => value * 10 + digit) 0

theorem ofDigits_append (ds es : List Nat) :
    ofDigits (ds ++ es) = ofDigits ds * Binary64.tenTo es.length + ofDigits es := by
  have general : ∀ (start : Nat), es.foldl (fun value digit => value * 10 + digit) start =
      start * Binary64.tenTo es.length + ofDigits es := by
    induction es with
    | nil =>
      intro start
      exact (Nat.mul_one start).symm
    | cons e rest ih =>
      intro start
      have own := ih (0 * 10 + e)
      have more : Binary64.tenTo (rest.length + 1) = 10 * Binary64.tenTo rest.length :=
        Nat.mul_comm ..
      rw [ofDigits, List.foldl_cons, ih, List.foldl_cons, own, List.length_cons, more]
      rw [Nat.add_mul, Nat.mul_assoc, Nat.zero_mul, Nat.zero_add, Nat.add_assoc]
  rw [ofDigits, List.foldl_append]
  exact general _

theorem ofDigits_digits (n : Nat) : ofDigits (digits n) = n := by
  induction n using digits.induct with
  | case1 n small =>
    rw [digits, if_pos small]
    simp [ofDigits]
  | case2 n large ih =>
    have ten : Binary64.tenTo 1 = 10 := rfl
    rw [digits, if_neg large, ofDigits_append, ih]
    simp only [ofDigits, List.foldl_cons, List.foldl_nil, List.length_singleton, ten]
    omega

theorem bytes_ofDigits {ds : List Nat} (small : ∀ d ∈ ds, d < 10) :
    bytes (String.ofList (ds.map Nat.digitChar)) = ds.map digitByte := by
  rw [bytes_eq_flatMap, String.toList_ofList]
  induction ds with
  | nil => rfl
  | cons d rest ih =>
    rw [List.map_cons, List.flatMap_cons, encode_digitChar (small d List.mem_cons_self),
      ih fun other member => small other (List.mem_cons_of_mem _ member)]
    rfl

/-! ### Spellings -/

namespace Numeral

/-- The bytes of the digits after a point, if there is one. -/
def decimalBytes : Option (List Nat) → List UInt8
  | none => []
  | some ds => ascii '.' :: ds.map digitByte

/-- The bytes of an exponent, if there is one. -/
def exponentBytes : Option (Bool × List Nat) → List UInt8
  | none => []
  | some (minus, ds) =>
    ascii 'e' :: ascii (if minus then '-' else '+') :: ds.map digitByte

/-- The texts of an exponent, if there is one: the letter may be large, a plus may be left out. -/
inductive ExponentText : Option (Bool × List Nat) → List UInt8 → Prop where
  | none : ExponentText none []
  | signed {letter : UInt8} (any : letter = ascii 'e' ∨ letter = ascii 'E') (minus : Bool)
      (ds : List Nat) : ExponentText (some (minus, ds))
        (letter :: ascii (if minus then '-' else '+') :: ds.map digitByte)
  | unsigned {letter : UInt8} (any : letter = ascii 'e' ∨ letter = ascii 'E') (ds : List Nat) :
      ExponentText (some (false, ds)) (letter :: ds.map digitByte)

/-- A literal with a text of its exponent. -/
def textWith (n : Numeral) (tail : List UInt8) : List UInt8 :=
  (if n.negative then [ascii '-'] else []) ++
    (n.whole.map digitByte ++ (decimalBytes n.decimals ++ tail))

/-- The bytes of a literal. -/
def spelling (n : Numeral) : List UInt8 :=
  (if n.negative then [ascii '-'] else []) ++
    (n.whole.map digitByte ++ (decimalBytes n.decimals ++ exponentBytes n.exponent))

/-- A literal that the grammar allows. -/
structure WellFormed (n : Numeral) : Prop where
  whole : ∀ d ∈ n.whole, d < 10
  begun : wellBegun n.whole = true
  decimals : ∀ ds, n.decimals = some ds → ds ≠ [] ∧ ∀ d ∈ ds, d < 10
  exponent : ∀ minus ds, n.exponent = some (minus, ds) → ds ≠ [] ∧ ∀ d ∈ ds, d < 10

/-- Digits are read up to a byte that is none. -/
theorem spanDigits_append {ds : List Nat} (small : ∀ d ∈ ds, d < 10) {rest : List UInt8}
    (other : ∀ b ∈ rest.head?, isDigit b = false) :
    spanDigits (ds.map digitByte ++ rest) = (ds, rest) := by
  induction ds with
  | nil =>
    cases rest with
    | nil => rfl
    | cons b rest =>
      have apart := other b rfl
      rw [List.map_nil, List.nil_append, spanDigits, apart]
      rfl
  | cons d ds ih =>
    obtain ⟨digit, value⟩ := digitByte_facts (small d List.mem_cons_self)
    rw [List.map_cons, List.cons_append, spanDigits, if_pos digit,
      ih fun e member => small e (List.mem_cons_of_mem _ member), value]

/-- The texts of a literal that the grammar allows. -/
def IsText (n : Numeral) (text : List UInt8) : Prop :=
  n.WellFormed ∧ ∃ tail, ExponentText n.exponent tail ∧ text = n.textWith tail

/-- The spelling of a literal is one of its texts. -/
theorem WellFormed.isText {n : Numeral} (right : n.WellFormed) : n.IsText n.spelling := by
  refine ⟨right, exponentBytes n.exponent, ?_, rfl⟩
  cases n.exponent with
  | none => exact .none
  | some parts => exact .signed (.inl rfl) parts.1 parts.2

section Texts

variable {e : Option (Bool × List Nat)} {tail : List UInt8}

theorem readExponent_text (text : ExponentText e tail)
    (right : ∀ minus ds, e = some (minus, ds) → ds ≠ [] ∧ ∀ d ∈ ds, d < 10) :
    readExponent tail = some (e, []) := by
  have spanned {ds : List Nat} (small : ∀ d ∈ ds, d < 10) :
      spanDigits (ds.map digitByte) = (ds, []) := by
    have ends : ∀ b ∈ ([] : List UInt8).head?, isDigit b = false := fun b absent => by cases absent
    have spanned := spanDigits_append small ends
    rwa [List.append_nil] at spanned
  cases text with
  | none => rfl
  | signed any minus ds =>
    obtain ⟨nonempty, small⟩ := right minus ds rfl
    have sign : readSign (ascii (if minus then '-' else '+') :: ds.map digitByte) =
        (minus, ds.map digitByte) := by
      cases minus <;> rfl
    rw [readExponent, if_pos any, sign]
    simp only [spanned small]
  | unsigned any ds =>
    obtain ⟨nonempty, small⟩ := right false ds rfl
    have sign : readSign (ds.map digitByte) = (false, ds.map digitByte) := by
      cases ds with
      | nil => exact absurd rfl nonempty
      | cons d ds =>
        have apart : digitByte d ≠ ascii '-' ∧ digitByte d ≠ ascii '+' := by
          have each : ∀ d, d < 10 → digitByte d ≠ ascii '-' ∧ digitByte d ≠ ascii '+' := by decide
          exact each d (small d List.mem_cons_self)
        rw [List.map_cons, readSign, if_neg apart.1, if_neg apart.2]
    rw [readExponent, if_pos any, sign]
    simp only [spanned small]

theorem ExponentText.head (text : ExponentText e tail) :
    ∀ b ∈ tail.head?, isDigit b = false ∧ b ≠ ascii '.' := by
  have letters {letter : UInt8} (any : letter = ascii 'e' ∨ letter = ascii 'E') :
      isDigit letter = false ∧ letter ≠ ascii '.' := by
    rcases any with rfl | rfl <;> decide
  cases text with
  | none => exact fun b absent => by cases absent
  | signed any minus ds =>
    intro b first
    cases first
    exact letters any
  | unsigned any ds =>
    intro b first
    cases first
    exact letters any

theorem readDecimals_text {decimals : Option (List Nat)} (text : ExponentText e tail)
    (right : ∀ ds, decimals = some ds → ds ≠ [] ∧ ∀ d ∈ ds, d < 10) :
    readDecimals (decimalBytes decimals ++ tail) = some (decimals, tail) := by
  have follows := text.head
  cases decimals with
  | none =>
    rw [decimalBytes, List.nil_append]
    cases tail with
    | nil => rfl
    | cons b rest => rw [readDecimals, if_neg (follows b rfl).2]
  | some ds =>
    obtain ⟨nonempty, small⟩ := right ds rfl
    have ends : ∀ b ∈ tail.head?, isDigit b = false := fun b first => (follows b first).1
    have spanned := spanDigits_append small ends
    rw [decimalBytes, List.cons_append, readDecimals, if_pos rfl, spanned]
    cases ds with
    | nil => exact absurd rfl nonempty
    | cons d ds => rfl

end Texts

/-- A text of a literal is read as the literal. -/
theorem IsText.ofBytes? {n : Numeral} {text : List UInt8} (spelled : n.IsText text) :
    ofBytes? text = some n := by
  obtain ⟨negative, whole, decimals, exponent⟩ := n
  obtain ⟨⟨small, begun, right, right'⟩, tail, power, rfl⟩ := spelled
  have follows : ∀ b ∈ (decimalBytes decimals ++ tail).head?, isDigit b = false := by
    cases decimals with
    | none => exact fun b first => (power.head b first).1
    | some ds =>
      intro b first
      cases first
      decide
  have spanned := spanDigits_append small follows
  have read := readDecimals_text power right
  have read' := readExponent_text power right'
  cases negative with
  | true =>
    simp only [textWith, Numeral.ofBytes?, if_true, List.cons_append, List.nil_append, spanned]
    rw [if_pos begun, read]
    simp only [bind, Option.bind, read']
  | false =>
    obtain ⟨b, rest, bytesEq⟩ : ∃ b rest, whole.map digitByte = b :: rest := by
      cases whole with
      | nil => cases begun
      | cons d ds => exact ⟨_, _, rfl⟩
    have digit : isDigit b = true := by
      cases whole with
      | nil => cases begun
      | cons d ds =>
        cases bytesEq
        exact (digitByte_facts (small d List.mem_cons_self)).1
    have minus : b ≠ ascii '-' := by
      rintro rfl
      exact absurd digit (by decide)
    rw [bytesEq] at spanned
    simp only [textWith, Numeral.ofBytes?, Bool.false_eq_true, if_false, List.nil_append, bytesEq]
    rw [List.cons_append] at spanned ⊢
    simp only [if_neg minus, spanned]
    rw [if_pos begun, read]
    simp only [bind, Option.bind, read']

/-- The spelling of a literal is read as the literal. -/
theorem ofBytes?_spelling {n : Numeral} (right : n.WellFormed) : ofBytes? n.spelling = some n :=
  right.isText.ofBytes?

end Numeral

/-! ### The tokenizer -/

namespace Tokenizer

/-- The bytes of a number are gathered. -/
theorem run_number {bs : List UInt8} (all : ∀ b ∈ bs, isNumberByte b = true) (kept : List UInt8)
    (tokens : List Token) :
      run ⟨.number kept, tokens⟩ bs = some ⟨.number (bs.reverse ++ kept), tokens⟩ := by
  induction bs generalizing kept with
  | nil => rfl
  | cons b rest ih =>
    have next : step ⟨.number kept, tokens⟩ b = some ⟨.number (b :: kept), tokens⟩ := by
      simp only [step, all b List.mem_cons_self, if_true]
    rw [run_cons next, ih fun d inside => all d (List.mem_cons_of_mem _ inside)]
    simp

theorem begin_number {b : UInt8} (h : b = ascii '-' ∨ isDigit b = true) (tokens : List Token) :
    step ⟨.between, tokens⟩ b = some ⟨.number [b], tokens⟩ := by
  rcases h with rfl | digit
  · rfl
  · have other : ∀ d ∈ [' ', '\n', '\r', '\t', '"', '\x7b', '\x7d', '[', ']', ',', ':'],
        b ≠ ascii d := by
      have noDigit : [' ', '\n', '\r', '\t', '"', '\x7b', '\x7d', '[', ']', ',', ':'].all
          (fun d => !isDigit (ascii d)) = true := by decide
      intro d member byteEq
      have apart := List.all_eq_true.mp noDigit d member
      rw [← byteEq, digit] at apart
      cases apart
    simp only [List.forall_mem_cons] at other
    simp only [step, begin, isBlank, other, digit, decide_false, Bool.or_self, Bool.or_true,
      Bool.false_eq_true, if_false, if_true]

theorem isNumberByte_digits {ds : List Nat} (small : ∀ d ∈ ds, d < 10) :
    ∀ b ∈ ds.map digitByte, isNumberByte b = true := by
  intro b member
  obtain ⟨d, inside, rfl⟩ := List.mem_map.mp member
  simp only [isNumberByte, (digitByte_facts (small d inside)).1, Bool.true_or]

theorem isNumberByte_exponent {e : Option (Bool × List Nat)} {tail : List UInt8}
    (text : Numeral.ExponentText e tail)
    (right : ∀ minus ds, e = some (minus, ds) → ds ≠ [] ∧ ∀ d ∈ ds, d < 10) :
    ∀ b ∈ tail, isNumberByte b = true := by
  have letters {letter : UInt8} (any : letter = ascii 'e' ∨ letter = ascii 'E') :
      isNumberByte letter = true := by
    rcases any with rfl | rfl <;> decide
  intro b member
  cases text with
  | none => cases member
  | signed any minus ds =>
    rcases List.mem_cons.mp member with rfl | member
    · exact letters any
    rcases List.mem_cons.mp member with rfl | inside
    · cases minus <;> rfl
    · exact isNumberByte_digits (right minus ds rfl).2 b inside
  | unsigned any ds =>
    rcases List.mem_cons.mp member with rfl | inside
    · exact letters any
    · exact isNumberByte_digits (right false ds rfl).2 b inside

/-- A text of a literal consists of bytes that number literals are made of. -/
theorem isNumberByte_text {n : Numeral} {text : List UInt8} (spelled : n.IsText text) :
    ∀ b ∈ text, isNumberByte b = true := by
  obtain ⟨negative, whole, decimals, exponent⟩ := n
  obtain ⟨⟨small, -, right, right'⟩, tail, power, rfl⟩ := spelled
  intro b member
  rcases List.mem_append.mp member with sign | member
  · cases negative with
    | true => rw [List.mem_singleton.mp sign]; rfl
    | false => cases sign
  rcases List.mem_append.mp member with front | member
  · exact isNumberByte_digits small b front
  rcases List.mem_append.mp member with point | last
  · cases decimals with
    | none => cases point
    | some ds =>
      rcases List.mem_cons.mp point with rfl | inside
      · rfl
      · exact isNumberByte_digits (right ds rfl).2 b inside
  · exact isNumberByte_exponent power right' b last

/-- A text of a literal is gathered whole. -/
theorem run_text {n : Numeral} {text : List UInt8} (spelled : n.IsText text)
    (tokens : List Token) :
    run ⟨.between, tokens⟩ text = some ⟨.number text.reverse, tokens⟩ := by
  have all := isNumberByte_text spelled
  have first : ∃ b rest, text = b :: rest ∧ (b = ascii '-' ∨ isDigit b = true) := by
    obtain ⟨negative, whole, decimals, exponent⟩ := n
    obtain ⟨right, tail, -, rfl⟩ := spelled
    cases negative with
    | true => exact ⟨_, _, rfl, .inl rfl⟩
    | false =>
      cases whole with
      | nil => cases right.begun
      | cons d ds => exact ⟨_, _, rfl, .inr (digitByte_facts (right.whole d List.mem_cons_self)).1⟩
  obtain ⟨b, rest, textEq, begins⟩ := first
  rw [textEq] at all ⊢
  rw [run_cons (begin_number begins tokens),
    run_number fun d inside => all d (List.mem_cons_of_mem _ inside)]
  simp

end Tokenizer

/-! ### Integers -/

/-- The literal of an integer. -/
def Numeral.ofInt (n : Int) : Numeral := ⟨decide (n < 0), digits n.natAbs, none, none⟩

theorem Numeral.wellFormed_ofInt (n : Int) : (ofInt n).WellFormed where
  whole := digits_small n.natAbs
  begun := wellBegun_digits n.natAbs
  decimals := fun _ absent => by cases absent
  exponent := fun _ _ absent => by cases absent

theorem bytes_repr (n : Nat) : bytes n.repr = (digits n).map digitByte := by
  rw [← bytes_ofDigits (digits_small n), ← toDigits_eq]
  rfl

/-- An integer is written as its literal is spelled. -/
theorem bytes_toString (n : Int) : bytes (toString n) = (Numeral.ofInt n).spelling := by
  cases n with
  | ofNat n =>
    have sign : decide (Int.ofNat n < 0) = false := by simp
    simp only [Numeral.spelling, Numeral.ofInt, sign, Numeral.decimalBytes, Numeral.exponentBytes,
      Bool.false_eq_true, if_false, List.nil_append, List.append_nil]
    exact bytes_repr n
  | negSucc n =>
    have sign : decide (Int.negSucc n < 0) = true := decide_eq_true (Int.negSucc_lt_zero n)
    simp only [Numeral.spelling, Numeral.ofInt, sign, Numeral.decimalBytes, Numeral.exponentBytes,
      if_true, List.append_nil]
    show bytes ("-" ++ (n + 1).repr) = _
    rw [bytes_append, bytes_repr]
    rfl

/-- An integer in the range of integers stands for itself. -/
theorem Numeral.value?_ofInt {n : Int} (low : -(maxNegative : Int) ≤ n) (high : n ≤ maxWord) :
    (ofInt n).value? = some (.int n) := by
  have whole : (ofInt n).wholeValue = n.natAbs := ofDigits_digits n.natAbs
  have int : (ofInt n).int? = some n := by
    unfold int?
    rw [if_pos (show (ofInt n).isWhole = true from rfl), whole]
    by_cases negative : n < 0
    · rw [if_pos (show (ofInt n).negative = true from decide_eq_true negative), if_pos (by omega)]
      exact congrArg some (by omega)
    · rw [if_neg (show ¬(ofInt n).negative = true by simp [ofInt, negative]), if_pos (by omega)]
      exact congrArg some (by omega)
  rw [value?, int]

end GroupStore.Json
