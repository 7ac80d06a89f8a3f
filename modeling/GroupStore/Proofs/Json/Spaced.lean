import Mathlib.Data.List.Chain
import GroupStore.Proofs.Json.Beginning
import GroupStore.Proofs.Json.Numeral

/-!
# Texts with blanks between their tokens

The grammar says which bytes a token may have, and that blanks may stand before, between and after
tokens.  Every text of this kind is read as the tokens that it was made of, however it is spaced,
as long as no number stands right before another; in the tokens of a tree none does.  So the
reader takes every text of a tree for that tree.

* `Json.Token.IsText` — the texts of a token;
* `Json.Spaced` — tokens with blanks before, between and after them;
* `Json.Tree.IsText`, `Json.Tree.IsText.ofBytes?` — the texts of a tree, and what they are read as.
-/

namespace GroupStore.Json

open TextOrder (bytes)

/-! ### Texts of tokens -/

/-- The bytes that may stand between tokens. -/
def IsBlank (b : UInt8) : Prop := b = 0x20 ∨ b = 0x0A ∨ b = 0x0D ∨ b = 0x09

namespace Token

/-- What the grammar allows for a token. -/
inductive IsText : Token → List UInt8 → Prop where
  | openBrace : IsText .openBrace [ascii '\x7b']
  | closeBrace : IsText .closeBrace [ascii '\x7d']
  | openBracket : IsText .openBracket [ascii '[']
  | closeBracket : IsText .closeBracket [ascii ']']
  | comma : IsText .comma [ascii ',']
  | colon : IsText .colon [ascii ':']
  | null : IsText .null (bytes "null")
  | true : IsText (.bool true) (bytes "true")
  | false : IsText (.bool false) (bytes "false")
  | number {n : Numeral} {text : List UInt8} (spelled : n.IsText text) : IsText (.number n) text
  | text {raw : List UInt8} (allowed : Body raw) :
      IsText (.text raw) (ascii '"' :: (raw ++ [ascii '"']))

/-- Whether a token is a number. -/
def isNumber : Token → Bool
  | number _ => true
  | _ => false

end Token

/-- Texts of some tokens, one after the other, with blanks before, between and after them. -/
inductive Spaced : List Token → List UInt8 → Prop where
  | blank {blanks : List UInt8} (blank : ∀ b ∈ blanks, IsBlank b) : Spaced [] blanks
  | token {blanks text rest : List UInt8} {token : Token} {tokens : List Token}
      (blank : ∀ b ∈ blanks, IsBlank b) (spelled : token.IsText text)
      (later : Spaced tokens rest) : Spaced (token :: tokens) (blanks ++ (text ++ rest))

section Spaced

variable {tokens tokens' : List Token} {text text' : List UInt8}

theorem Spaced.of_token {token : Token} (spelled : token.IsText text) : Spaced [token] text := by
  have whole := Spaced.token (fun b member => absurd member List.not_mem_nil) spelled
    (.blank fun b member => absurd member List.not_mem_nil)
  rwa [List.nil_append, List.append_nil] at whole

/-- Blanks may be added in front. -/
theorem Spaced.after_blanks (spaced : Spaced tokens text) {blanks : List UInt8}
    (blank : ∀ b ∈ blanks, IsBlank b) : Spaced tokens (blanks ++ text) := by
  have both {more : List UInt8} (blank' : ∀ b ∈ more, IsBlank b) :
      ∀ b ∈ blanks ++ more, IsBlank b := List.forall_mem_append.mpr ⟨blank, blank'⟩
  cases spaced with
  | blank blank' => exact .blank (both blank')
  | token blank' spelled later =>
    rw [← List.append_assoc]
    exact .token (both blank') spelled later

theorem Spaced.append (first : Spaced tokens text) (second : Spaced tokens' text') :
    Spaced (tokens ++ tokens') (text ++ text') := by
  induction first with
  | blank blank => exact second.after_blanks blank
  | token blank spelled later ih =>
    rw [List.cons_append, List.append_assoc, List.append_assoc]
    exact .token blank spelled ih

end Spaced

/-- No number stands right before another. -/
def Apart (tokens : List Token) : Prop :=
  tokens.IsChain fun token next => token.isNumber = true → next.isNumber = false

/-! ### Reading spaced tokens -/

namespace Tokenizer

section Read

variable {tokens : List Token} {text rest : List UInt8}

/-- A token that is no number is found where it ends. -/
theorem run_isText {token : Token} (spelled : token.IsText text) (other : token.isNumber = false)
    (found : List Token) (rest : List UInt8) :
    run ⟨.between, found⟩ (text ++ rest) = run ⟨.between, token :: found⟩ rest := by
  cases spelled with
  | number spelled => cases other
  | text allowed =>
    rw [List.cons_append, List.append_assoc]
    exact run_quotes allowed found rest
  | _ => rfl

/-- Only a number begins like one. -/
theorem head_isText {token : Token} (spelled : token.IsText text) (other : token.isNumber = false) :
    ∃ b later, text = b :: later ∧ isNumberByte b = false := by
  cases spelled with
  | number spelled => cases other
  | _ => exact ⟨_, _, rfl, by decide⟩

theorem isNumberByte_of_isBlank {b : UInt8} (blank : IsBlank b) : isNumberByte b = false := by
  rcases blank with rfl | rfl | rfl | rfl <;> rfl

/-- What begins with no number does not begin like one. -/
theorem head_spaced (spaced : Spaced tokens text)
    (other : ∀ token ∈ tokens.head?, token.isNumber = false) :
    ∀ b ∈ text.head?, isNumberByte b = false := by
  have blanks {blanks later : List UInt8} (blank : ∀ b ∈ blanks, IsBlank b)
      (first : ∀ b ∈ later.head?, isNumberByte b = false) :
      ∀ b ∈ (blanks ++ later).head?, isNumberByte b = false := by
    cases blanks with
    | nil => exact first
    | cons c blanks =>
      intro b head
      cases head
      exact isNumberByte_of_isBlank (blank c List.mem_cons_self)
  cases spaced with
  | blank blank =>
    have ends := @blanks _ [] blank fun b absent => by cases absent
    rwa [List.append_nil] at ends
  | token blank spelled later =>
    refine blanks blank ?_
    obtain ⟨b, rest, rfl, first⟩ := head_isText spelled (other _ rfl)
    intro c head
    cases head
    exact first

/-- A number is found where something else begins, or where the text ends. -/
theorem run_number_ends {digits : List UInt8} {n : Numeral}
    (literal : Numeral.ofBytes? digits.reverse = some n)
    (ends : ∀ b ∈ rest.head?, isNumberByte b = false) (found : List Token) :
    (run ⟨.number digits, found⟩ rest).bind finish =
      (run ⟨.between, .number n :: found⟩ rest).bind finish := by
  cases rest with
  | nil => simp only [run, Option.bind_some, finish, literal, Option.map_some]
  | cons b rest =>
    have other : isNumberByte b = false := ends b rfl
    have stepEq : step ⟨.number digits, found⟩ b = step ⟨.between, .number n :: found⟩ b := by
      simp only [step, other, literal, Option.bind_some, Bool.false_eq_true, if_false]
    simp only [run, stepEq]

/-- Spaced tokens are found, whatever was found before. -/
theorem run_spaced (spaced : Spaced tokens text) (apart : Apart tokens) (found : List Token) :
    (run ⟨.between, found⟩ text).bind finish = some (found.reverse ++ tokens) := by
  have skips {blanks : List UInt8} (blank : ∀ b ∈ blanks, IsBlank b) (found : List Token) :
      run ⟨.between, found⟩ blanks = some ⟨.between, found⟩ :=
    run_blank fun b member => isBlank_iff.mpr (blank b member)
  induction spaced generalizing found with
  | blank blank =>
    rw [skips blank, List.append_nil]
    rfl
  | @token blanks text rest token tokens blank spelled later ih =>
    have next : (run ⟨.between, token :: found⟩ rest).bind finish =
        some (found.reverse ++ token :: tokens) := by
      rw [ih apart.tail, List.reverse_cons, List.append_assoc, List.singleton_append]
    rw [run_append, skips blank, Option.bind_some]
    cases number : token.isNumber with
    | false => rw [run_isText spelled number, next]
    | true =>
      have follows : ∀ next ∈ tokens.head?, next.isNumber = false :=
        fun next first => apart.rel_head? first number
      cases spelled with
      | number spelled =>
        rw [run_append, run_text spelled, Option.bind_some,
          run_number_ends (by rw [List.reverse_reverse, spelled.ofBytes?])
            (head_spaced later follows), next]
      | _ => cases number

/-- Spaced tokens are the tokens of their text. -/
theorem tokens?_spaced (spaced : Spaced tokens text) (apart : Apart tokens) :
    tokens? text = some tokens := run_spaced spaced apart []

end Read

end Tokenizer

/-! ### Texts of trees -/

/-- No number stands right before another or comes first. -/
structure Follows (tokens : List Token) : Prop where
  apart : Apart tokens
  other : ∀ token ∈ tokens.head?, token.isNumber = false

section Follows

variable {tokens : List Token}

/-- Anything may follow what is no number. -/
theorem Apart.cons (apart : Apart tokens) (token : Token) (other : token.isNumber = false) :
    Follows (token :: tokens) where
  apart := List.isChain_cons.mpr ⟨fun _ _ number => by simp [other] at number, apart⟩
  other := by
    intro first head
    cases head
    exact other

theorem Follows.number (follows : Follows tokens) (n : Numeral) : Apart (.number n :: tokens) :=
  List.isChain_cons.mpr ⟨fun next head _ => follows.other next head, follows.apart⟩

theorem follows_nil : Follows [] := ⟨List.isChain_nil, fun _ absent => by cases absent⟩

end Follows

namespace Tree

mutual

/-- In the tokens of a tree no number stands right before another. -/
theorem apart_tokens (t : Tree) {rest : List Token} (follows : Follows rest) :
    Apart (t.tokens ++ rest) := by
  match t with
  | null => exact (follows.apart.cons _ rfl).apart
  | bool b => exact (follows.apart.cons _ rfl).apart
  | number n => exact follows.number n
  | text raw => exact (follows.apart.cons _ rfl).apart
  | array [] =>
    have closed := follows.apart.cons .closeBracket rfl
    exact (closed.apart.cons _ rfl).apart
  | array (item :: items) =>
    have closed := follows.apart.cons .closeBracket rfl
    have first := apart_tokens item (follows_itemTokens items closed)
    simpa [tokens] using (first.cons .openBracket rfl).apart
  | object [] =>
    have closed := follows.apart.cons .closeBrace rfl
    exact (closed.apart.cons _ rfl).apart
  | object ((name, value) :: fields) =>
    have closed := follows.apart.cons .closeBrace rfl
    have first := apart_tokens value (follows_fieldTokens fields closed)
    have colon := first.cons .colon rfl
    have named := colon.apart.cons (.text name) rfl
    simpa [tokens] using
      (named.apart.cons .openBrace rfl).apart

theorem follows_itemTokens (items : List Tree) {rest : List Token} (follows : Follows rest) :
    Follows (itemTokens items ++ rest) := by
  match items with
  | [] => exact follows
  | item :: items =>
    have first := apart_tokens item (follows_itemTokens items follows)
    simpa [itemTokens] using first.cons .comma rfl

theorem follows_fieldTokens (fields : List (List UInt8 × Tree)) {rest : List Token}
    (follows : Follows rest) : Follows (fieldTokens fields ++ rest) := by
  match fields with
  | [] => exact follows
  | (name, value) :: fields =>
    have first := apart_tokens value (follows_fieldTokens fields follows)
    have colon := first.cons .colon rfl
    have named := colon.apart.cons (.text name) rfl
    simpa [fieldTokens] using named.apart.cons .comma rfl

end

/-- The texts of a tree: its tokens with blanks anywhere around them. -/
def IsText (t : Tree) (text : List UInt8) : Prop := Spaced t.tokens text

section IsText

variable {t : Tree} {text : List UInt8}

/-- The tokens of a text of a tree are those of the tree. -/
theorem IsText.tokens? (spelled : t.IsText text) : tokens? text = some t.tokens := by
  have apart := apart_tokens t follows_nil
  rw [List.append_nil] at apart
  exact Tokenizer.tokens?_spaced spelled apart

/-- Every text of a tree is read as the tree. -/
theorem IsText.ofBytes? (spelled : t.IsText text) : ofBytes? text = some t := by
  rw [Tree.ofBytes?, spelled.tokens?, Option.bind_some, ofTokens?_tokens]

end IsText

end Tree

end GroupStore.Json
