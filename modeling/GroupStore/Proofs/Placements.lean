import Mathlib.Data.List.TakeWhile
import GroupStore.Proofs.Lexemes

/-!
# What the placeholders of a statement stand for

The words and signs of a statement tell for which column each placeholder stands: in an insert for
the column that is listed in its place, elsewhere for the column that is compared with it.

* `placeholders`, `placements` — the placeholders of a statement and what each is for;
* `count_placeholders` — no question mark of a text is outside of them;
* `inserting`, `reads_inserting` — an insert as it is put together, and read off;
* `Compares` — what conditions compare, whatever stands before them;
* `Reads` — what is read off from a whole statement.
-/

namespace GroupStore

open Lexeme

/-! ### Placeholders and what they stand for -/

/-- A word with a question mark is a placeholder. -/
def isPlaceholder (text : String) : Bool := text.toList.contains '?'

/-- The text of a word. -/
def Lexeme.word? : Lexeme → Option String
  | word text => some text
  | sign _ => none

/-- The words among lexemes. -/
def words (ls : List Lexeme) : List String := ls.filterMap Lexeme.word?

/-- The placeholders among lexemes. -/
def placeholders (ls : List Lexeme) : List String := (words ls).filter isPlaceholder

/-- What the value of a placeholder is for. -/
inductive Role where
  /-- It is stored in a column. -/
  | stored (column : String)
  /-- A column is compared with it. -/
  | compared (column : String) (operator : Char)
deriving DecidableEq

/-- What comes before a sign. -/
def upTo (c : Char) (ls : List Lexeme) : List Lexeme := ls.takeWhile fun l => l ≠ .sign c

/-- What comes behind a sign. -/
def beyond (c : Char) (ls : List Lexeme) : List Lexeme := (ls.dropWhile fun l => l ≠ .sign c).tail

/-- The values in the second parentheses are stored in the columns in the first ones, each in the
column in its place. -/
def assignments (ls : List Lexeme) : List (Role × String) :=
  let columns := words (upTo ')' (beyond '(' ls))
  let values := words (upTo ')' (beyond '(' (beyond ')' ls)))
  if columns.length = values.length then (columns.map Role.stored).zip values else []

/-- A placeholder is compared with the column that stands before it and a sign. -/
def comparison (seen : List Lexeme) : Lexeme → List (Role × String)
  | .sign _ => []
  | .word text =>
    match seen with
    | .sign operator :: .word column :: _ =>
      if isPlaceholder text then [(.compared column operator, text)] else []
    | _ => []

/-- The comparisons with placeholders behind what has been seen, which is listed backwards. -/
def comparisons (seen : List Lexeme) : List Lexeme → List (Role × String)
  | [] => []
  | l :: rest => comparison seen l ++ comparisons (l :: seen) rest

/-- What each placeholder of a statement is for. -/
def placements (ls : List Lexeme) : List (Role × String) :=
  if ls.head? = some (.word "INSERT") then assignments ls else comparisons [] ls

section Reading

variable {seen front ls rest : List Lexeme}

@[simp] theorem words_nil : words [] = [] := rfl

@[simp] theorem words_word (text : String) (ls : List Lexeme) :
    words (.word text :: ls) = text :: words ls := rfl

@[simp] theorem words_append (a b : List Lexeme) : words (a ++ b) = words a ++ words b :=
  List.filterMap_append

@[simp] theorem placeholders_append (a b : List Lexeme) :
    placeholders (a ++ b) = placeholders a ++ placeholders b := by
  rw [placeholders, words_append, List.filter_append]
  rfl

@[simp] theorem placeholders_nil : placeholders [] = [] := rfl

@[simp] theorem placeholders_sign (c : Char) (ls : List Lexeme) :
    placeholders (.sign c :: ls) = placeholders ls := rfl

theorem placeholders_marked {mark : String} (marked : isPlaceholder mark = true)
    (ls : List Lexeme) : placeholders (.word mark :: ls) = mark :: placeholders ls := by
  rw [placeholders, words_word, List.filter_cons_of_pos marked]
  rfl

theorem placeholders_unmarked {text : String} (other : isPlaceholder text = false)
    (ls : List Lexeme) : placeholders (.word text :: ls) = placeholders ls := by
  rw [placeholders, words_word, List.filter_cons_of_neg (by simp [other])]
  rfl

/-- No name has a question mark. -/
@[simp] theorem Identifier.not_isPlaceholder (name : Identifier) :
    isPlaceholder name.text = false := by
  rw [isPlaceholder, Bool.eq_false_iff]
  intro marked
  exact absurd (name.continues_of_mem _ (List.contains_iff_mem.mp marked)) (by decide)

/-- No numeral has a question mark. -/
@[simp] theorem isPlaceholder_numeral (n : Nat) : isPlaceholder (toString n) = false := by
  rw [isPlaceholder, Bool.eq_false_iff]
  intro marked
  exact absurd (isDigit_of_mem_numeral n _ (List.contains_iff_mem.mp marked)) (by decide)

/-! ### Question marks -/

theorem count_ended (letters : List Char) :
    ((words (ended letters)).flatMap String.toList).count '?' = letters.count '?' := by
  unfold ended
  split
  · simp [*]
  · simp

theorem words_between (c : Char) : words (between c) = [] := by
  unfold between
  split <;> rfl

/-- No question mark is lost: it is no character between words. -/
theorem count_scan (letters cs : List Char) :
    ((words (scan letters cs)).flatMap String.toList).count '?' =
      letters.count '?' + cs.count '?' := by
  induction cs generalizing letters with
  | nil => exact count_ended letters
  | cons c rest ih =>
    rw [scan]
    split
    · rw [ih, List.count_append, Nat.add_assoc, ← List.count_append, List.singleton_append]
    case isFalse stops =>
      have other : c ≠ '?' := by
        rintro rfl
        exact stops (by decide)
      rw [words_append, words_append, words_between, List.nil_append, List.flatMap_append,
        List.count_append, count_ended, ih, List.count_nil, Nat.zero_add,
        List.count_cons_of_ne other]

/-- Only placeholders have question marks. -/
theorem count_filter_isPlaceholder (ws : List String) :
    ((ws.filter isPlaceholder).flatMap String.toList).count '?' =
      (ws.flatMap String.toList).count '?' := by
  induction ws with
  | nil => rfl
  | cons w rest ih =>
    rw [List.flatMap_cons, List.count_append, ← ih]
    cases mark : isPlaceholder w with
    | true => rw [List.filter_cons_of_pos mark, List.flatMap_cons, List.count_append]
    | false =>
      have unmarked : w.toList.count '?' = 0 :=
        List.count_eq_zero.mpr fun member => by simp [isPlaceholder, member] at mark
      rw [List.filter_cons_of_neg (by simp [mark]), unmarked, Nat.zero_add]

/-- The question marks of a text are those of its placeholders. -/
theorem count_placeholders (text : String) :
    ((placeholders (lexemes text)).flatMap String.toList).count '?' = text.toList.count '?' := by
  rw [placeholders, count_filter_isPlaceholder, lexemes, count_scan, List.count_nil, Nat.zero_add]

/-! ### Lists of names -/

/-- What is gathered from parts does not depend on a separator that has nothing of it. -/
theorem gathered_of_joined {β : Type} (gather : List Lexeme → List β) (empty : gather [] = [])
    (append : ∀ a b, gather (a ++ b) = gather a ++ gather b) {sep : List Lexeme}
    (silent : gather sep = []) (parts : List (List Lexeme)) :
    gather (sep.intercalate parts) = parts.flatMap gather := by
  induction parts with
  | nil => exact empty
  | cons part others ih =>
    cases others with
    | nil => simp
    | cons next others =>
      rw [List.intercalate_cons_cons, append, append, silent, ih, List.append_nil]
      rfl

/-- Names with commas between them. -/
def listing (names : List String) : List Lexeme :=
  [.sign ','].intercalate (names.map fun name => [.word name])

/-- The text of a list of names. -/
theorem lexemes_listing {α : Type} {items : List α} {text name : α → String} {sep : String}
    (comma : Cuts sep [.sign ','])
    (each : ∀ a ∈ items, lexemes (text a) = [.word (name a)]) :
    lexemes (sep.intercalate (items.map text)) = listing (items.map name) := by
  rw [comma.joined, listing, List.map_map, List.map_map]
  exact congrArg _ (List.map_congr_left each)

@[simp] theorem words_listing (names : List String) : words (listing names) = names := by
  rw [listing, gathered_of_joined words rfl words_append rfl, List.flatMap_map]
  exact List.flatMap_singleton' names

@[simp] theorem placeholders_listing (names : List String) :
    placeholders (listing names) = names.filter isPlaceholder := by
  rw [placeholders, words_listing]

/-- The only signs of a list of names are its commas. -/
theorem sign_not_mem_listing {c : Char} (other : c ≠ ',') (names : List String) :
    Lexeme.sign c ∉ listing names := by
  have unsigned : (listing names).filter (fun l => decide (l = .sign c)) = [] := by
    rw [listing, gathered_of_joined (List.filter fun l => decide (l = .sign c)) rfl
      (fun _ _ => List.filter_append ..) (by simpa using other.symm)]
    simp
  intro member
  exact List.not_mem_nil (unsigned ▸ List.mem_filter.mpr ⟨member, decide_eq_true rfl⟩)

/-! ### Inserts -/

theorem upTo_append {c : Char} (absent : .sign c ∉ front) (rest : List Lexeme) :
    upTo c (front ++ .sign c :: rest) = front := by
  have before : ∀ l ∈ front, (decide (l ≠ .sign c)) = true :=
    fun l member => decide_eq_true fun isSign => absent (isSign ▸ member)
  rw [upTo, List.takeWhile_append_of_pos before]
  simp

theorem beyond_append {c : Char} (absent : .sign c ∉ front) (rest : List Lexeme) :
    beyond c (front ++ .sign c :: rest) = rest := by
  have before : ∀ l ∈ front, (decide (l ≠ .sign c)) = true :=
    fun l member => decide_eq_true fun isSign => absent (isSign ▸ member)
  rw [beyond, List.dropWhile_append_of_pos before]
  simp

/-- An insert: where it writes, the columns, their values, and what comes behind. -/
def inserting (target : List Lexeme) (columns values : List String) (rest : List Lexeme) :
    List Lexeme :=
  .word "INSERT" :: target ++ .sign '(' :: (listing columns ++
    .sign ')' :: .word "VALUES" :: .sign '(' :: (listing values ++ .sign ')' :: rest))

variable {target : List Lexeme} {columns values : List String}

theorem upTo_inserting (plain : .sign '(' ∉ target) :
    upTo '(' (inserting target columns values rest) = .word "INSERT" :: target :=
  upTo_append (by simpa using plain) _

theorem beyond_inserting (plain : .sign '(' ∉ target) :
    beyond '(' (inserting target columns values rest) = listing columns ++
      .sign ')' :: .word "VALUES" :: .sign '(' :: (listing values ++ .sign ')' :: rest) :=
  beyond_append (by simpa using plain) _

/-- What comes behind the columns of an insert. -/
theorem beyond_columns (plain : .sign ')' ∉ target) :
    beyond ')' (inserting target columns values rest) =
      .word "VALUES" :: .sign '(' :: (listing values ++ .sign ')' :: rest) := by
  have split : inserting target columns values rest =
      (.word "INSERT" :: target ++ .sign '(' :: listing columns) ++
        .sign ')' :: .word "VALUES" :: .sign '(' :: (listing values ++ .sign ')' :: rest) := by
    simp [inserting]
  rw [split]
  refine beyond_append ?_ _
  simp [plain, sign_not_mem_listing]

theorem beyond_verb (rest : List Lexeme) :
    beyond '(' (.word "VALUES" :: .sign '(' :: rest) = rest := by
  have absent : Lexeme.sign '(' ∉ [Lexeme.word "VALUES"] := by simp
  exact beyond_append absent rest

theorem placements_inserting (opens : .sign '(' ∉ target) (closes : .sign ')' ∉ target)
    (lengthEq : columns.length = values.length) :
    placements (inserting target columns values rest) = (columns.map Role.stored).zip values := by
  have begins : (inserting target columns values rest).head? = some (.word "INSERT") := rfl
  have named : upTo ')' (beyond '(' (inserting target columns values rest)) = listing columns := by
    rw [beyond_inserting opens, upTo_append (sign_not_mem_listing (by decide) _)]
  have given : upTo ')' (beyond '(' (beyond ')' (inserting target columns values rest))) =
      listing values := by
    rw [beyond_columns closes, beyond_verb, upTo_append (sign_not_mem_listing (by decide) _)]
  rw [placements, if_pos begins, assignments, named, given, words_listing, words_listing,
    if_pos lengthEq]

/-- An insert is read off from its lexemes. -/
theorem inserting_injective {target' : List Lexeme} {columns' values' : List String}
    {rest' : List Lexeme} (opens : .sign '(' ∉ target) (opens' : .sign '(' ∉ target')
    (closes : .sign ')' ∉ target) (closes' : .sign ')' ∉ target')
    (insertingEq :
      inserting target columns values rest = inserting target' columns' values' rest') :
    target = target' ∧ columns = columns' ∧ rest = rest' := by
  have silent (names : List String) : Lexeme.sign ')' ∉ listing names :=
    sign_not_mem_listing (by decide) names
  have front := congrArg (upTo '(') insertingEq
  rw [upTo_inserting opens, upTo_inserting opens'] at front
  have named := congrArg (fun ls => words (upTo ')' (beyond '(' ls))) insertingEq
  simp only [beyond_inserting opens, beyond_inserting opens', upTo_append (silent _),
    words_listing] at named
  have behind := congrArg (fun ls => beyond ')' (beyond '(' (beyond ')' ls))) insertingEq
  simp only [beyond_columns closes, beyond_columns closes', beyond_verb, beyond_append (silent _)]
    at behind
  exact ⟨(List.cons.inj front).2, named, behind⟩

/-- The placeholders of an insert are its values. -/
theorem placeholders_inserting (silent : placeholders target = [])
    (names : ∀ column ∈ columns, isPlaceholder column = false)
    (marked : ∀ value ∈ values, isPlaceholder value = true) (ends : placeholders rest = []) :
    placeholders (inserting target columns values rest) = values := by
  have unmarked : columns.filter isPlaceholder = [] :=
    List.filter_eq_nil_iff.mpr fun column member => by simp [names column member]
  have given : values.filter isPlaceholder = values := List.filter_eq_self.mpr marked
  have behind : placeholders
      (.word "VALUES" :: .sign '(' :: (listing values ++ .sign ')' :: rest)) = values := by
    rw [placeholders_unmarked (by decide), placeholders_sign, placeholders_append,
      placeholders_listing, given, placeholders_sign, ends, List.append_nil]
  rw [inserting, List.cons_append, placeholders_unmarked (by decide), placeholders_append, silent,
    placeholders_sign, placeholders_append, placeholders_listing, unmarked, placeholders_sign,
    behind]
  rfl

/-- The text of an insert. -/
theorem lexemes_inserting {front sep names marks : String}
    (verb : lexemes front = .word "INSERT" :: target) (bracket : Cuts sep [.sign '('])
    (named : lexemes names = listing columns) (given : lexemes marks = listing values) :
    lexemes (front ++ sep ++ names ++ ") VALUES (" ++ marks ++ ")") =
      inserting target columns values [] := by
  have middle : Cuts ") VALUES (" [.sign ')', .word "VALUES", .sign '('] :=
    ⟨by decide, by decide, rfl⟩
  have last : lexemes ")" = [.sign ')'] := rfl
  rw [lexemes_append_of_opens _ (by decide), middle.append, bracket.append, verb, named, given,
    last]
  simp [inserting]

/-! ### Comparisons -/

theorem comparisons_append (seen a b : List Lexeme) :
    comparisons seen (a ++ b) = comparisons seen a ++ comparisons (a.reverse ++ seen) b := by
  induction a generalizing seen with
  | nil => rfl
  | cons l rest ih =>
    rw [List.cons_append, comparisons, comparisons, ih, List.append_assoc, List.reverse_cons,
      List.append_assoc]
    rfl

/-- Where there is no placeholder, none is compared. -/
theorem comparisons_silent (silent : placeholders ls = []) (seen : List Lexeme) :
    comparisons seen ls = [] := by
  induction ls generalizing seen with
  | nil => rfl
  | cons l rest ih =>
    cases l with
    | sign c => exact ih silent (.sign c :: seen)
    | word text =>
      have other : isPlaceholder text = false := by
        cases mark : isPlaceholder text with
        | false => rfl
        | true => cases (placeholders_marked mark rest).symm.trans silent
      rw [placeholders_unmarked other] at silent
      rw [comparisons, ih silent, List.append_nil]
      unfold comparison
      split
      · rfl
      · split
        · simp_all
        · rfl

/-- A column with an operator and a placeholder. -/
def comparing (column : String) (operator : Char) (mark : String) : List Lexeme :=
  [.word column, .sign operator, .word mark]

/-- Lexemes compare columns with placeholders, whatever stands before them. -/
structure Compares (ls : List Lexeme) (found : List (Role × String)) : Prop where
  comparisons : ∀ seen, comparisons seen ls = found
  placeholders : placeholders ls = found.map Prod.snd

namespace Compares

variable {found found' : List (Role × String)}

theorem silent (unmarked : GroupStore.placeholders ls = []) : Compares ls [] where
  comparisons := comparisons_silent unmarked
  placeholders := unmarked

theorem append {a b : List Lexeme} (first : Compares a found) (second : Compares b found') :
    Compares (a ++ b) (found ++ found') where
  comparisons seen := by rw [comparisons_append, first.comparisons, second.comparisons]
  placeholders := by
    rw [placeholders_append, first.placeholders, second.placeholders, List.map_append]

theorem comparing {column mark : String} (name : isPlaceholder column = false)
    (marked : isPlaceholder mark = true) (operator : Char) :
    Compares (comparing column operator mark) [(.compared column operator, mark)] where
  comparisons seen := by
    have first : comparison seen (.word column) = [] := by
      have alone := comparisons_silent (placeholders_unmarked name []) seen
      rwa [GroupStore.comparisons, GroupStore.comparisons, List.append_nil] at alone
    rw [GroupStore.comparing, GroupStore.comparisons, first]
    simp [GroupStore.comparisons, comparison, marked]
  placeholders := by
    rw [GroupStore.comparing, placeholders_unmarked name, placeholders_sign,
      placeholders_marked marked]
    rfl

theorem joined {α : Type} {items : List α} {part : α → List Lexeme}
    {compared : α → List (Role × String)} (each : ∀ a ∈ items, Compares (part a) (compared a)) :
    Compares ([.word "AND"].intercalate (items.map part)) (items.flatMap compared) := by
  have conjunction : Compares [.word "AND"] [] := silent (by decide)
  induction items with
  | nil => exact silent rfl
  | cons a rest ih =>
    have first := each a List.mem_cons_self
    have later := ih fun b member => each b (List.mem_cons_of_mem _ member)
    cases rest with
    | nil => simpa using first
    | cons b others =>
      rw [List.map_cons, List.map_cons, List.intercalate_cons_cons, List.flatMap_cons,
        ← List.append_nil (compared a)]
      exact (first.append conjunction).append later

/-- The text of conditions that must hold together. -/
theorem conditions {α : Type} {items : List α} {text : α → String}
    {compared : α → List (Role × String)}
    (each : ∀ a ∈ items, Compares (lexemes (text a)) (compared a)) :
    Compares (lexemes (" AND ".intercalate (items.map text))) (items.flatMap compared) := by
  have conjunction : Cuts " AND " [.word "AND"] := ⟨by decide, by decide, rfl⟩
  rw [conjunction.joined, List.map_map]
  exact joined each

end Compares

/-! ### Whole statements -/

/-- The placeholders of a statement are these, and this is what each is for. -/
structure Reads (ls : List Lexeme) (found : List (Role × String)) : Prop where
  placements : placements ls = found
  placeholders : placeholders ls = found.map Prod.snd

/-- A statement other than an insert is read off from its conditions. -/
theorem Compares.reads {found : List (Role × String)} (compares : Compares ls found)
    (other : ls.head? ≠ some (.word "INSERT")) : Reads ls found where
  placements := by rw [GroupStore.placements, if_neg other, compares.comparisons]
  placeholders := compares.placeholders

/-- An insert stores its values in its columns. -/
theorem reads_inserting (opens : .sign '(' ∉ target) (closes : .sign ')' ∉ target)
    (silent : placeholders target = []) (lengthEq : columns.length = values.length)
    (names : ∀ column ∈ columns, isPlaceholder column = false)
    (marked : ∀ value ∈ values, isPlaceholder value = true) (ends : placeholders rest = []) :
    Reads (inserting target columns values rest) ((columns.map Role.stored).zip values) where
  placements := placements_inserting opens closes lengthEq
  placeholders := by
    rw [placeholders_inserting silent names marked ends, List.map_snd_zip (by simp [lengthEq])]

end Reading

end GroupStore
