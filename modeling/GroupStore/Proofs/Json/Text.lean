import GroupStore.Json.Text
import GroupStore.Proofs.TextOrder

/-!
# Strings in JSON texts are read as they were written

A string is written between quotes with escapes.  The tokenizer finds its end where it was written,
and decoding the bytes in between gives the string back.

* `Json.raw` — the bytes of a string between its quotes;
* `Json.Body` — what the grammar allows there, `Json.body_raw`;
* `Json.Tokenizer.run_quotes` — the tokenizer passes over a quoted string;
* `Json.readText?_raw` — decoding what was written.
-/

namespace GroupStore.Json

open TextOrder (bytes bytes_eq_flatMap)

/-! ### Bytes -/

theorem bytes_append (s t : String) : bytes (s ++ t) = bytes s ++ bytes t := by
  rw [bytes_eq_flatMap, bytes_eq_flatMap, bytes_eq_flatMap, String.toList_append,
    List.flatMap_append]

/-- The list of some bytes. -/
theorem toList_eq (b : ByteArray) : b.toList = b.data.toList := by
  suffices general : ∀ (left i : Nat) (done : List UInt8), b.size - i = left →
      ByteArray.toList.loop b i done = done.reverse ++ b.data.toList.drop i by
    have whole := general (b.size - 0) 0 [] rfl
    rwa [List.reverse_nil, List.nil_append, List.drop_zero] at whole
  intro left
  induction left with
  | zero =>
    intro i done beyond
    have short : b.data.toList.length ≤ i := by
      have size : b.data.toList.length = b.size := rfl
      omega
    rw [ByteArray.toList.loop, if_neg (by omega), List.drop_eq_nil_of_le short, List.append_nil]
  | succ left ih =>
    intro i done within
    have inside : i < b.size := by omega
    have length : i < b.data.toList.length := inside
    have byte : b.get! i = b.data.toList[i] := by
      show b.data[i]! = _
      rw [getElem!_pos b.data i inside, Array.getElem_toList]
    rw [ByteArray.toList.loop, if_pos inside, ih (i + 1) _ (by omega), byte,
      List.drop_eq_getElem_cons length]
    simp

theorem toList_append (a b : ByteArray) : (a ++ b).toList = a.toList ++ b.toList := by
  rw [toList_eq, toList_eq, toList_eq, ByteArray.data_append, Array.toList_append]

theorem fromUTF8?_bytes (s : String) : String.fromUTF8? (bytes s).toByteArray = some s := by
  have bytesEq : (bytes s).toByteArray = s.toByteArray := by
    apply ByteArray.ext
    apply Array.ext'
    rw [List.toList_data_toByteArray]
    rfl
  rw [bytesEq, String.fromUTF8?, dif_pos s.isValidUTF8]
  rfl

/-- The bytes of a character in a string. -/
def rawChar (c : Char) : List UInt8 := (escape c).flatMap String.utf8EncodeChar

/-- The bytes of a string between its quotes. -/
def raw (s : String) : List UInt8 := s.toList.flatMap rawChar

theorem bytes_quoted (s : String) :
    bytes (quoted s) = ascii '"' :: (raw s ++ [ascii '"']) := by
  rw [bytes_eq_flatMap, toList_quoted, List.flatMap_cons, List.flatMap_append, List.flatMap_assoc]
  rfl

/-! ### What stands for a character -/

/-- A byte that stands for itself in a string. -/
def Plain (b : UInt8) : Prop := b ≠ ascii '"' ∧ b ≠ ascii '\\' ∧ 32 ≤ b

/-- A character is one byte below 128 or several bytes above. -/
theorem encoded_cases (c : Char) :
    (c.toNat < 128 ∧ String.utf8EncodeChar c = [UInt8.ofNat c.toNat]) ∨
      (128 ≤ c.toNat ∧ ∀ b ∈ String.utf8EncodeChar c, 128 ≤ b.toNat) := by
  have top : c.toNat < 1114112 := by
    have valid := c.valid
    unfold Char.toNat
    rcases valid with low | high <;> omega
  have large {n : Nat} (low : 128 ≤ n) (high : n < 256) : 128 ≤ (UInt8.ofNat n).toNat := by
    rw [UInt8.toNat_ofNat']
    omega
  simp only [String.utf8EncodeChar]
  rw [show c.val.toNat = c.toNat from rfl]
  generalize c.toNat = n at top
  by_cases small : n ≤ 127
  · rw [if_pos small]
    exact .inl ⟨by omega, rfl⟩
  · rw [if_neg small]
    refine .inr ⟨by omega, fun b member => ?_⟩
    split at member
    · simp only [List.mem_cons, List.not_mem_nil, or_false] at member
      rcases member with rfl | rfl <;> exact large (by omega) (by omega)
    · split at member
      · simp only [List.mem_cons, List.not_mem_nil, or_false] at member
        rcases member with rfl | rfl | rfl <;> exact large (by omega) (by omega)
      · simp only [List.mem_cons, List.not_mem_nil, or_false] at member
        rcases member with rfl | rfl | rfl | rfl <;> exact large (by omega) (by omega)

/-- A character that stands for itself has bytes that do. -/
theorem plain_of_isPlain {c : Char} (h : isPlain c = true) :
    ∀ b ∈ String.utf8EncodeChar c, Plain b := by
  simp only [isPlain, Bool.and_eq_true, decide_eq_true_eq] at h
  obtain ⟨⟨quote, backslash⟩, blank⟩ := h
  intro b member
  rcases encoded_cases c with ⟨small, encoded⟩ | ⟨-, large⟩
  · rw [encoded, List.mem_singleton] at member
    have value : b.toNat = c.toNat := by
      rw [member, UInt8.toNat_ofNat']
      omega
    have other (d : Char) (ascii : d.toNat < 128) (differ : c ≠ d) : b ≠ d.toUInt8 := by
      intro same
      rw [same] at value
      refine differ (Char.ext (UInt32.toNat_inj.mp (Eq.trans value.symm ?_)))
      show d.toNat % 256 = d.toNat
      omega
    refine ⟨other '"' (by decide) quote, other '\\' (by decide) backslash, ?_⟩
    rw [UInt8.le_iff_toNat_le, value]
    exact blank
  · have high := large b member
    refine ⟨fun isQuote => ?_, fun isBackslash => ?_, ?_⟩
    · rw [isQuote] at high
      exact absurd high (by decide)
    · rw [isBackslash] at high
      exact absurd high (by decide)
    · rw [UInt8.le_iff_toNat_le]
      exact Nat.le_trans (by decide) high

/-- The bytes of a character in a string: its own, or a backslash with a letter, or a backslash
with four digits. -/
inductive Spelling (c : Char) : Prop where
  | plain (own : rawChar c = String.utf8EncodeChar c)
      (plain : ∀ b ∈ String.utf8EncodeChar c, Plain b)
  | letter (u v : UInt8) (spelled : rawChar c = [ascii '\\', u]) (differs : u ≠ ascii 'u')
      (allowed : Tokenizer.isSimpleEscape u = true) (means : simpleEscape? u = some v)
      (encoded : String.utf8EncodeChar c = [v])
  | digits (h₁ h₂ : UInt8) (high : (Tokenizer.hexValue? h₁).isSome = true)
      (low : (Tokenizer.hexValue? h₂).isSome = true)
      (spelled : rawChar c = [ascii '\\', ascii 'u', ascii '0', ascii '0', h₁, h₂])
      (means : hexWord? [ascii '0', ascii '0', h₁, h₂] = some c.toNat) (small : c.toNat < 32)

theorem spelling (c : Char) : Spelling c := by
  by_cases own : isPlain c = true
  · refine .plain ?_ (plain_of_isPlain own)
    rw [rawChar, escape_of_isPlain own, List.flatMap_singleton]
  have letter {d : Char} (l : Char) (v : UInt8) (charEq : c = d) (spelled : escape d = ['\\', l])
      (facts : (String.utf8EncodeChar '\\' = [ascii '\\'] ∧ String.utf8EncodeChar l = [ascii l]) ∧
        ascii l ≠ ascii 'u' ∧ Tokenizer.isSimpleEscape (ascii l) = true ∧
        simpleEscape? (ascii l) = some v ∧ String.utf8EncodeChar d = [v]) : Spelling c := by
    obtain ⟨⟨backslash, encoded⟩, differs, allowed, means, own⟩ := facts
    subst charEq
    refine .letter (ascii l) v ?_ differs allowed means own
    rw [rawChar, spelled, List.flatMap_cons, List.flatMap_singleton, backslash, encoded]
    rfl
  by_cases quote : c = '"'
  · exact letter '"' 34 quote (by decide) (by decide)
  by_cases backslash : c = '\\'
  · exact letter '\\' 92 backslash (by decide) (by decide)
  by_cases back : c = '\x08'
  · exact letter 'b' 8 back (by decide) (by decide)
  by_cases feed : c = '\x0c'
  · exact letter 'f' 12 feed (by decide) (by decide)
  by_cases line : c = '\n'
  · exact letter 'n' 10 line (by decide) (by decide)
  by_cases carriage : c = '\r'
  · exact letter 'r' 13 carriage (by decide) (by decide)
  by_cases tab : c = '\t'
  · exact letter 't' 9 tab (by decide) (by decide)
  have small : c.toNat < 32 := by
    simp only [isPlain, quote, backslash, decide_true, ne_eq, not_false_eq_true, Bool.true_and,
      decide_eq_true_eq] at own
    omega
  have spelled : escape c =
      ['\\', 'u', '0', '0', hexDigit (c.toNat / 16), hexDigit (c.toNat % 16)] := by
    simp only [escape, quote, backslash, back, feed, line, carriage, tab, if_false, small, if_true]
  have each : ∀ n, n < 32 →
      (Tokenizer.hexValue? (ascii (hexDigit (n / 16)))).isSome = true ∧
      (Tokenizer.hexValue? (ascii (hexDigit (n % 16)))).isSome = true ∧
      String.utf8EncodeChar (hexDigit (n / 16)) = [ascii (hexDigit (n / 16))] ∧
      String.utf8EncodeChar (hexDigit (n % 16)) = [ascii (hexDigit (n % 16))] ∧
      hexWord? [ascii '0', ascii '0', ascii (hexDigit (n / 16)), ascii (hexDigit (n % 16))] =
        some n := by decide
  obtain ⟨high, low, encoded₁, encoded₂, means⟩ := each c.toNat small
  refine .digits _ _ high low ?_ means small
  rw [rawChar, spelled]
  simp only [List.flatMap_cons, List.flatMap_nil, encoded₁, encoded₂]
  rfl

/-! ### What may stand between quotes -/

/-- A hexadecimal digit. -/
def IsHex (b : UInt8) : Prop :=
  isDigit b = true ∨ (ascii 'a' ≤ b ∧ b ≤ ascii 'f') ∨ (ascii 'A' ≤ b ∧ b ≤ ascii 'F')

/-- The letters that may follow a backslash alone. -/
def escapeLetters : List UInt8 :=
  [ascii '"', ascii '\\', ascii '/', ascii 'b', ascii 'f', ascii 'n', ascii 'r', ascii 't']

/-- What the grammar allows between the quotes of a string. -/
inductive Body : List UInt8 → Prop where
  | nil : Body []
  | plain {b : UInt8} {rest : List UInt8} (own : Plain b) (later : Body rest) : Body (b :: rest)
  | letter {u : UInt8} {rest : List UInt8} (allowed : u ∈ escapeLetters) (later : Body rest) :
      Body (ascii '\\' :: u :: rest)
  | digits {h₁ h₂ h₃ h₄ : UInt8} {rest : List UInt8} (hex : ∀ h ∈ [h₁, h₂, h₃, h₄], IsHex h)
      (later : Body rest) : Body (ascii '\\' :: ascii 'u' :: h₁ :: h₂ :: h₃ :: h₄ :: rest)

theorem isHex_iff {b : UInt8} : IsHex b ↔ (Tokenizer.hexValue? b).isSome = true := by
  unfold IsHex Tokenizer.hexValue?
  split
  · simp [*]
  · split
    · simp [*]
    · split <;> simp [*]

theorem mem_escapeLetters {u : UInt8} :
    u ∈ escapeLetters ↔ Tokenizer.isSimpleEscape u = true := by
  simp only [escapeLetters, Tokenizer.isSimpleEscape, List.mem_cons, List.not_mem_nil, or_false,
    Bool.or_eq_true, decide_eq_true_eq, or_assoc]

theorem body_plain {bs rest : List UInt8} (plain : ∀ b ∈ bs, Plain b) (later : Body rest) :
    Body (bs ++ rest) := by
  induction bs with
  | nil => exact later
  | cons b others ih =>
    exact .plain (plain b List.mem_cons_self)
      (ih fun d member => plain d (List.mem_cons_of_mem _ member))

/-- A string is written as the grammar allows. -/
theorem body_raw (s : String) : Body (raw s) := by
  suffices general : ∀ cs : List Char, Body (cs.flatMap rawChar) from general s.toList
  intro cs
  induction cs with
  | nil => exact .nil
  | cons c others ih =>
    rw [List.flatMap_cons]
    cases spelling c with
    | plain own plain =>
      rw [own]
      exact body_plain plain ih
    | letter u v spelled differs allowed means encoded =>
      rw [spelled]
      exact .letter (mem_escapeLetters.mpr allowed) ih
    | digits h₁ h₂ high low spelled means small =>
      rw [spelled]
      refine .digits ?_ ih
      simp only [List.forall_mem_cons, isHex_iff]
      exact ⟨rfl, rfl, high, low, fun _ member => absurd member List.not_mem_nil⟩

/-! ### The tokenizer -/

namespace Tokenizer

theorem run_append (s : State) (xs ys : List UInt8) :
    run s (xs ++ ys) = (run s xs).bind fun s' => run s' ys := by
  induction xs generalizing s with
  | nil => rfl
  | cons b rest ih =>
    simp only [List.cons_append, run]
    cases step s b with
    | none => rfl
    | some s' => exact ih s'

theorem run_cons {s t : State} {b : UInt8} (h : step s b = some t) (rest : List UInt8) :
    run s (b :: rest) = run t rest := by
  simp only [run, h]

/-- What may stand between quotes is kept. -/
theorem run_body {body : List UInt8} (allowed : Body body) (kept : List UInt8)
    (tokens : List Token) (rest : List UInt8) :
    run ⟨.text kept, tokens⟩ (body ++ rest) = run ⟨.text (body.reverse ++ kept), tokens⟩ rest := by
  have backslash (kept : List UInt8) : step ⟨.text kept, tokens⟩ (ascii '\\') =
      some ⟨.escape (ascii '\\' :: kept), tokens⟩ := rfl
  induction allowed generalizing kept with
  | nil => rfl
  | @plain b others own later ih =>
    obtain ⟨quote, slash, blank⟩ := own
    have next : step ⟨.text kept, tokens⟩ b = some ⟨.text (b :: kept), tokens⟩ := by
      simp only [step, stepText, quote, slash, UInt8.not_lt.mpr blank, if_false]
    rw [List.cons_append, run_cons next, ih]
    simp
  | @letter u others allowed later ih =>
    have differs : u ≠ ascii 'u' := by
      rintro rfl
      exact absurd allowed (by decide)
    have letter : step ⟨.escape (ascii '\\' :: kept), tokens⟩ u =
        some ⟨.text (u :: ascii '\\' :: kept), tokens⟩ := by
      simp only [step, differs, mem_escapeLetters.mp allowed, if_false, if_true]
    rw [List.cons_append, run_cons (backslash kept), List.cons_append, run_cons letter, ih]
    simp
  | @digits h₁ h₂ h₃ h₄ others hex later ih =>
    have letter : step ⟨.escape (ascii '\\' :: kept), tokens⟩ (ascii 'u') =
        some ⟨.hex 4 (ascii 'u' :: ascii '\\' :: kept), tokens⟩ := rfl
    have digit (left : Nat) {b : UInt8} (kept : List UInt8) (hex : IsHex b) :
        step ⟨.hex left kept, tokens⟩ b = if left ≤ 1 then some ⟨.text (b :: kept), tokens⟩
          else some ⟨.hex (left - 1) (b :: kept), tokens⟩ := by
      simp only [step, isHex_iff.mp hex, if_true]
    simp only [List.forall_mem_cons] at hex
    obtain ⟨hex₁, hex₂, hex₃, hex₄, -⟩ := hex
    simp only [List.cons_append]
    rw [run_cons (backslash kept), run_cons letter, run_cons (digit 4 _ hex₁),
      run_cons (digit 3 _ hex₂), run_cons (digit 2 _ hex₃), run_cons (digit 1 _ hex₄), ih]
    simp

/-- What stands between quotes is one token. -/
theorem run_quotes {body : List UInt8} (allowed : Body body) (tokens : List Token)
    (rest : List UInt8) :
    run ⟨.between, tokens⟩ (ascii '"' :: (body ++ ascii '"' :: rest)) =
      run ⟨.between, .text body :: tokens⟩ rest := by
  have closes : step ⟨.text body.reverse, tokens⟩ (ascii '"') =
      some ⟨.between, .text body :: tokens⟩ := by
    simp only [step, stepText, if_true, List.reverse_reverse]
  rw [run_cons (t := ⟨.text [], tokens⟩) rfl, run_body allowed, List.append_nil, run_cons closes]

end Tokenizer

/-! ### Decoding -/

theorem unescape_other {b : UInt8} (differs : b ≠ ascii '\\') (done rest : List UInt8) :
    unescape done (b :: rest) = unescape (b :: done) rest := by
  rw [unescape.eq_def]
  simp only [if_neg differs]

theorem unescape_plain {bs : List UInt8} (plain : ∀ b ∈ bs, Plain b) (done rest : List UInt8) :
    unescape done (bs ++ rest) = unescape (bs.reverse ++ done) rest := by
  induction bs generalizing done with
  | nil => rfl
  | cons b others ih =>
    rw [List.cons_append, unescape_other (plain b List.mem_cons_self).2.1,
      ih fun b member => plain b (List.mem_cons_of_mem _ member)]
    simp

theorem unescape_letter {u v : UInt8} (differs : u ≠ ascii 'u') (means : simpleEscape? u = some v)
    (done rest : List UInt8) :
    unescape done (ascii '\\' :: u :: rest) = unescape (v :: done) rest := by
  rw [unescape.eq_def]
  simp only [if_true]
  split
  · rename_i consEq
    cases consEq
    simp only [differs, means, if_false]
  · rename_i consEq
    cases consEq
    simp only [means]
  · rename_i never
    cases never

/-- What stands for a character is decoded to it. -/
theorem unescape_rawChar (c : Char) (done rest : List UInt8) :
    unescape done (rawChar c ++ rest) =
      unescape ((String.utf8EncodeChar c).reverse ++ done) rest := by
  cases spelling c with
  | plain own plain =>
    rw [own]
    exact unescape_plain plain done rest
  | letter u v spelled differs allowed means encoded =>
    rw [spelled, encoded]
    exact unescape_letter differs means done rest
  | digits h₁ h₂ high low spelled means small =>
    have whole : isHighSurrogate c.toNat = false ∧ isLowSurrogate c.toNat = false := by
      simp only [isHighSurrogate, isLowSurrogate, Bool.and_eq_false_iff, decide_eq_false_iff_not]
      omega
    have encoded : encodeRev c.toNat = (String.utf8EncodeChar c).reverse := by
      rw [encodeRev, Char.ofNat_toNat]
    rw [spelled]
    simp only [List.cons_append, List.nil_append]
    rw [unescape.eq_def]
    simp only [means, whole.1, whole.2, encoded, if_true, if_false, Bool.false_eq_true]

/-- The bytes of a string are decoded to it. -/
theorem readText?_raw (s : String) : readText? (raw s) = some s := by
  have decoded : ∀ (cs : List Char) (done : List UInt8), unescape done (cs.flatMap rawChar) =
      some (done.reverse ++ cs.flatMap String.utf8EncodeChar) := by
    intro cs done
    induction cs generalizing done with
    | nil => simp [unescape]
    | cons c others ih =>
      rw [List.flatMap_cons, unescape_rawChar, ih]
      simp
  rw [readText?_eq, raw, decoded, Option.bind_some, List.reverse_nil, List.nil_append,
    ← bytes_eq_flatMap]
  exact fromUTF8?_bytes s

end GroupStore.Json
