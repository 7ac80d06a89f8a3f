import GroupStore.Proofs.Schema

/-!
# The words and signs of a statement

A session gets a statement as text.  The text is cut into words and signs.  Nothing here knows of
templates, so what is read later is a property of the text.

* `lexemes` — the words and signs of a text; blanks and quotes only end words;
* `lexemes_append_of_opens`, `lexemes_append_of_closes` and `Lexeme.Cuts.append` — a text that is
  put together has the lexemes of its parts;
* `lexemes_identifier`, `lexemes_numeral` — names and numbers are single words.
-/

namespace GroupStore

/-! ### Lexemes -/

/-- A part of the text of a statement. -/
inductive Lexeme where
  /-- A keyword, a name, a number or a marker. -/
  | word (text : String)
  | sign (c : Char)
deriving DecidableEq

namespace Lexeme

/-- The characters of words: those of names, and the question mark of markers. -/
def joins (c : Char) : Bool := Identifier.continues c || c == '?'

/-- A character between words, unless it is a blank or a quote. -/
def between (c : Char) : List Lexeme := if c = ' ' ∨ c = '"' then [] else [.sign c]

/-- A word that has come to its end. -/
def ended (letters : List Char) : List Lexeme :=
  if letters = [] then [] else [.word (String.ofList letters)]

/-- The lexemes of a text behind the letters of a word that has begun. -/
def scan (letters : List Char) : List Char → List Lexeme
  | [] => ended letters
  | c :: rest =>
    if joins c then scan (letters ++ [c]) rest
    else ended letters ++ (between c ++ scan [] rest)

end Lexeme

/-- The words and signs of a text. -/
def lexemes (text : String) : List Lexeme := Lexeme.scan [] text.toList

namespace Lexeme

theorem scan_stop {c : Char} (stops : joins c = false) (letters rest : List Char) :
    scan letters (c :: rest) = ended letters ++ (between c ++ scan [] rest) := by
  rw [scan, if_neg (by simp [stops])]

/-- A text is read anew from a character that ends words. -/
theorem scan_append {c : Char} (stops : joins c = false) (letters cs rest : List Char) :
    scan letters (cs ++ c :: rest) = scan letters cs ++ scan [] (c :: rest) := by
  rw [scan_stop stops [] rest]
  -- a letter goes into the word that has begun, so the word is not fixed in the induction
  induction cs generalizing letters with
  | nil => exact scan_stop stops letters rest
  | cons d cs ih =>
    rw [List.cons_append, scan, scan]
    split
    · exact ih _
    · rw [ih, List.append_assoc, List.append_assoc]

theorem scan_word (letters : List Char) {cs : List Char} (all : ∀ c ∈ cs, joins c = true) :
    scan letters cs = ended (letters ++ cs) := by
  induction cs generalizing letters with
  | nil => rw [scan, List.append_nil]
  | cons c rest ih =>
    rw [scan, if_pos (all c List.mem_cons_self),
      ih _ fun d member => all d (List.mem_cons_of_mem _ member), List.append_assoc]
    rfl

/-! ### Texts that are put together -/

/-- A text that begins with a character between words. -/
def Opens (text : String) : Prop := (text.toList.head?.any fun c => !joins c) = true

/-- A text that ends with a character between words. -/
def Closes (text : String) : Prop := (text.toList.getLast?.any fun c => !joins c) = true

instance (text : String) : Decidable (Opens text) := inferInstanceAs (Decidable (_ = true))

instance (text : String) : Decidable (Closes text) := inferInstanceAs (Decidable (_ = true))

end Lexeme

open Lexeme

variable {a b sep : String} {ls : List Lexeme}

theorem lexemes_append_of_opens (a : String) (opens : Opens b) :
    lexemes (a ++ b) = lexemes a ++ lexemes b := by
  rw [lexemes, lexemes, lexemes, String.toList_append]
  unfold Opens at opens
  cases chars : b.toList with
  | nil => simp [chars] at opens
  | cons c rest =>
    rw [chars] at opens
    exact scan_append (by simpa using opens) [] a.toList rest

theorem lexemes_append_of_closes (closes : Closes a) (b : String) :
    lexemes (a ++ b) = lexemes a ++ lexemes b := by
  rw [lexemes, lexemes, lexemes, String.toList_append]
  unfold Closes at closes
  -- the scan begins anew at the last character of the first text, so it is split off
  rcases List.eq_nil_or_concat a.toList with empty | ⟨front, c, chars⟩
  · simp [empty] at closes
  · rw [chars, List.concat_eq_append, List.getLast?_append_of_ne_nil _ (List.cons_ne_nil _ _)]
      at closes
    have stops : joins c = false := by simpa using closes
    have anew (rest : List Char) : scan [] (c :: rest) = between c ++ scan [] rest :=
      scan_stop stops [] rest
    rw [chars, List.concat_eq_append, scan_append stops, List.append_assoc, List.singleton_append,
      scan_append stops, anew, anew, List.append_assoc, List.append_assoc]
    rfl

/-- A clause is empty or begins with a blank. -/
theorem lexemes_clause (a : String) (opens : b = "" ∨ Opens b) :
    lexemes (a ++ b) = lexemes a ++ lexemes b := by
  rcases opens with rfl | opens
  · rw [String.append_empty]
    exact (List.append_nil _).symm
  · exact lexemes_append_of_opens a opens

theorem Lexeme.Opens.append (opens : Opens a) (b : String) : Opens (a ++ b) := by
  unfold Opens at opens ⊢
  cases chars : a.toList with
  | nil => simp [chars] at opens
  | cons c rest => simpa [String.toList_append, chars] using opens

/-- A separator: words end before it and behind it, and these are its own lexemes. -/
structure Lexeme.Cuts (sep : String) (ls : List Lexeme) : Prop where
  opens : Opens sep
  closes : Closes sep
  read : lexemes sep = ls

/-- A separator cuts a text. -/
theorem Lexeme.Cuts.append (cuts : Cuts sep ls) (a b : String) :
    lexemes (a ++ sep ++ b) = lexemes a ++ (ls ++ lexemes b) := by
  rw [String.append_assoc, lexemes_append_of_opens a (cuts.opens.append b),
    lexemes_append_of_closes cuts.closes, cuts.read]

/-- Texts between which a separator is put. -/
theorem Lexeme.Cuts.joined (cuts : Cuts sep ls) (parts : List String) :
    lexemes (sep.intercalate parts) = ls.intercalate (parts.map lexemes) := by
  induction parts with
  | nil => rfl
  | cons part rest ih =>
    cases rest with
    | nil => simp
    | cons next others =>
      rw [String.intercalate_cons_cons, cuts.append, ih]
      simp only [List.map_cons, List.intercalate_cons_cons, List.append_assoc]

/-- A text of letters only is a word. -/
theorem lexemes_word {text : String} (nonempty : text ≠ "")
    (all : ∀ c ∈ text.toList, joins c = true) :
    lexemes text = [.word text] := by
  have letters : text.toList ≠ [] := fun empty => nonempty (String.toList_eq_nil_iff.mp empty)
  rw [lexemes, scan_word [] all, List.nil_append, ended, if_neg letters, String.ofList_toList]

theorem Identifier.joins_of_mem (name : Identifier) : ∀ c ∈ name.text.toList, joins c = true :=
  fun c member => by rw [joins, name.continues_of_mem c member, Bool.true_or]

@[simp] theorem lexemes_identifier (name : Identifier) : lexemes name.text = [.word name.text] :=
  lexemes_word name.text_ne_empty name.joins_of_mem

theorem toList_numeral (n : Nat) : (toString n).toList = Nat.toDigits 10 n := Nat.toList_repr

theorem isDigit_of_mem_numeral (n : Nat) : ∀ c ∈ (toString n).toList, c.isDigit = true := by
  intro c member
  rw [toList_numeral] at member
  exact Nat.isDigit_of_mem_toDigits (by decide) (by decide) member

theorem joins_of_isDigit {c : Char} (digit : c.isDigit = true) : joins c = true := by
  simp [joins, Identifier.continues, Char.isAlphanum, digit]

theorem numeral_injective {m n : Nat} (toStringEq : toString m = toString n) : m = n := by
  have back (n : Nat) : Nat.ofDigitChars 10 (toString n).toList 0 = n := by
    rw [toList_numeral, Nat.ofDigitChars_ten_toDigits]
  rw [← back m, toStringEq, back n]

@[simp] theorem lexemes_numeral (n : Nat) : lexemes (toString n) = [.word (toString n)] :=
  lexemes_word Nat.repr_ne_empty fun c member =>
    joins_of_isDigit (isDigit_of_mem_numeral n c member)

end GroupStore
