import Mathlib.Logic.Basic
import GroupStore.Proofs.Json.Text
import GroupStore.Proofs.Json.Tree

/-!
# Texts that begin another text

Both the tokenizer and the reader take their input from front to back and never take back what they
have found.  So if a text is a value and a longer text that begins with it is one too, nothing but
blanks was added, or the two are number literals, of which one can begin another.

* `Json.Tokenizer.tokens?_append` — the tokens of a text and of its beginning;
* `Json.Tree.ofBytes?_append` — the trees of a text and of its beginning;
* `Json.Tree.ofBytes?_blank` — blanks after a text.
-/

namespace GroupStore.Json

/-! ### Tokens -/

namespace Tokenizer

/-- Blanks are spaces, line ends and tabs. -/
theorem isBlank_iff {b : UInt8} :
    isBlank b = true ↔ b = 0x20 ∨ b = 0x0A ∨ b = 0x0D ∨ b = 0x09 := by
  rw [isBlank, Bool.or_eq_true, Bool.or_eq_true, Bool.or_eq_true, decide_eq_true_eq,
    decide_eq_true_eq, decide_eq_true_eq, decide_eq_true_eq, or_assoc, or_assoc]
  exact Iff.rfl

/-- The number of tokens that are found or begun. -/
def State.count (s : State) : Nat := s.tokens.length + if s.mode = .between then 0 else 1

/-- Nothing is taken back on the way from a state to another. -/
structure Grows (s s' : State) : Prop where
  kept : s.tokens <:+ s'.tokens
  count : s.count ≤ s'.count

theorem Grows.refl (s : State) : Grows s s := ⟨List.suffix_refl _, Nat.le_refl _⟩

theorem Grows.trans {s s' s'' : State} (first : Grows s s') (second : Grows s' s'') :
    Grows s s'' :=
  ⟨first.kept.trans second.kept, Nat.le_trans first.count second.count⟩

/-- A token may go on. -/
theorem Grows.inside {mode mode' : Mode} (inside : mode' ≠ .between) (tokens : List Token) :
    Grows ⟨mode, tokens⟩ ⟨mode', tokens⟩ := by
  refine ⟨List.suffix_refl tokens, ?_⟩
  simp only [State.count, if_neg inside]
  split <;> omega

/-- A token may end. -/
theorem Grows.found (mode : Mode) (token : Token) (tokens : List Token) :
    Grows ⟨mode, tokens⟩ ⟨.between, token :: tokens⟩ := by
  refine ⟨List.suffix_cons token tokens, ?_⟩
  simp only [State.count, List.length_cons, if_true]
  split <;> omega

/-- Between tokens a blank changes nothing, and any other byte begins a token. -/
theorem begin_cases {b : UInt8} {tokens : List Token} {s : State} (h : begin b tokens = some s) :
    (isBlank b = true ∧ s = ⟨.between, tokens⟩) ∨
      (isBlank b = false ∧ Grows ⟨.between, tokens⟩ s ∧ tokens.length < s.count) := by
  have opens {mode : Mode} (inside : mode ≠ .between) (h : some ⟨mode, tokens⟩ = some s) :
      Grows ⟨.between, tokens⟩ s ∧ tokens.length < s.count := by
    cases h
    refine ⟨.inside inside tokens, ?_⟩
    rw [State.count, if_neg inside]
    exact Nat.lt_succ_self tokens.length
  have stands {token : Token} (h : some ⟨.between, token :: tokens⟩ = some s) :
      Grows ⟨.between, tokens⟩ s ∧ tokens.length < s.count := by
    cases h
    exact ⟨.found .between token tokens, Nat.lt_succ_self tokens.length⟩
  unfold begin at h
  by_cases blank : isBlank b = true
  · rw [if_pos blank] at h
    exact .inl ⟨blank, (Option.some.inj h).symm⟩
  · rw [if_neg blank] at h
    refine .inr ⟨Bool.eq_false_iff.mpr blank, ?_⟩
    iterate 11
      rcases ite_eq_iff.mp h with ⟨-, h⟩ | ⟨-, h⟩
      · first
        | exact stands h
        | exact opens (by simp) h
    cases h

theorem begin_grows {b : UInt8} {tokens : List Token} {s : State} (h : begin b tokens = some s) :
    Grows ⟨.between, tokens⟩ s := by
  rcases begin_cases h with ⟨-, rfl⟩ | ⟨-, grows, -⟩
  · exact .refl _
  · exact grows

/-- One byte takes nothing back. -/
theorem step_grows {s s' : State} {b : UInt8} (h : step s b = some s') : Grows s s' := by
  obtain ⟨mode, tokens⟩ := s
  cases mode with
  | between => exact begin_grows h
  | word rest token =>
    rcases rest with _ | ⟨c, _ | ⟨d, rest⟩⟩
    · exact (Grows.found _ token tokens).trans (begin_grows h)
    · simp only [step] at h
      split at h
      · cases h
        exact .found (.word [c] token) token tokens
      · cases h
    · simp only [step] at h
      split at h
      · cases h
        exact .inside (by simp) tokens
      · cases h
  | number bytes =>
    simp only [step] at h
    split at h
    · cases h
      exact .inside (by simp) tokens
    · obtain ⟨n, -, begun⟩ := Option.bind_eq_some_iff.mp h
      exact (Grows.found _ (.number n) tokens).trans (begin_grows begun)
  | text raw =>
    simp only [step, stepText] at h
    repeat' split at h
    all_goals first
      | cases h; exact .found (.text raw) (.text raw.reverse) tokens
      | cases h; exact .inside (by simp) tokens
      | cases h
  | escape raw =>
    simp only [step] at h
    repeat' split at h
    all_goals first
      | cases h; exact .inside (by simp) tokens
      | cases h
  | hex left raw =>
    simp only [step] at h
    repeat' split at h
    all_goals first
      | cases h; exact .inside (by simp) tokens
      | cases h

theorem run_grows {s s' : State} {text : List UInt8} (h : run s text = some s') : Grows s s' := by
  induction text generalizing s with
  | nil =>
    cases h
    exact .refl _
  | cons b rest ih =>
    simp only [run] at h
    split at h
    · cases h
    · rename_i next
      exact (step_grows next).trans (ih h)

/-- A text may end between tokens, or with the last digit of a number. -/
theorem finish_cases {s : State} {tokens : List Token} (h : finish s = some tokens) :
    (∃ found, s = ⟨.between, found⟩ ∧ tokens = found.reverse) ∨
      ∃ found digits n, s = ⟨.number digits, found⟩ ∧ Numeral.ofBytes? digits.reverse = some n ∧
        tokens = found.reverse ++ [.number n] := by
  obtain ⟨mode, found⟩ := s
  cases mode with
  | between => exact .inl ⟨found, rfl, (Option.some.inj h).symm⟩
  | number digits =>
    obtain ⟨n, literal, rfl⟩ := Option.map_eq_some_iff.mp h
    exact .inr ⟨found, digits, n, rfl, literal, List.reverse_cons⟩
  | word rest token => cases h
  | text raw => cases h
  | escape raw => cases h
  | hex left raw => cases h

/-- A text that ends here has the tokens that are found, and one more if it is begun. -/
theorem finish_tokens {s : State} {tokens : List Token} (h : finish s = some tokens) :
    s.tokens.reverse <+: tokens ∧ tokens.length = s.count := by
  rcases finish_cases h with ⟨found, rfl, rfl⟩ | ⟨found, digits, n, rfl, -, rfl⟩
  · exact ⟨List.prefix_refl _, List.length_reverse⟩
  · refine ⟨List.prefix_append _ _, ?_⟩
    rw [List.length_append, List.length_reverse]
    rfl

/-- Between tokens, only blanks are without tokens. -/
theorem blank_of_run {tokens : List Token} {text : List UInt8} {s : State}
    (h : run ⟨.between, tokens⟩ text = some s) (few : s.count ≤ tokens.length) :
    ∀ b ∈ text, isBlank b = true := by
  induction text with
  | nil => exact fun b member => absurd member List.not_mem_nil
  | cons b rest ih =>
    simp only [run] at h
    split at h
    · cases h
    · rename_i next
      rcases begin_cases next with ⟨blank, rfl⟩ | ⟨-, -, more⟩
      · exact List.forall_mem_cons.mpr ⟨blank, ih h⟩
      · exact absurd (Nat.le_trans (run_grows h).count few) (Nat.not_le_of_lt more)

/-- A number goes on to the end of a text, or it is found. -/
theorem run_number_cases {digits text : List UInt8} {tokens : List Token} {s : State}
    (h : run ⟨.number digits, tokens⟩ text = some s) :
    (∃ digits', s = ⟨.number digits', tokens⟩) ∨ ∃ n, .number n :: tokens <:+ s.tokens := by
  induction text generalizing digits with
  | nil =>
    cases h
    exact .inl ⟨digits, rfl⟩
  | cons b rest ih =>
    simp only [run] at h
    split at h
    · cases h
    · rename_i next
      simp only [step] at next
      split at next
      · cases next
        exact ih h
      · obtain ⟨n, -, begun⟩ := Option.bind_eq_some_iff.mp next
        exact .inr ⟨n, ((begin_grows begun).trans (run_grows h)).kept⟩

/-- A longer text has more tokens, unless only blanks were added; but the last token of the shorter
text may be a number that goes on. -/
theorem tokens?_append {front rest : List UInt8} {tokens tokens' : List Token}
    (short : tokens? front = some tokens) (long : tokens? (front ++ rest) = some tokens') :
    (∃ more, tokens' = tokens ++ more ∧ (more = [] → ∀ b ∈ rest, isBlank b = true)) ∨
      ∃ found n n' more, tokens = found ++ [.number n] ∧ tokens' = found ++ .number n' :: more := by
  obtain ⟨s, first, ends⟩ := Option.bind_eq_some_iff.mp short
  obtain ⟨s', both, ends'⟩ := Option.bind_eq_some_iff.mp long
  rw [run_append, first, Option.bind_some] at both
  obtain ⟨found', count⟩ := finish_tokens ends'
  rcases finish_cases ends with ⟨found, rfl, rfl⟩ | ⟨found, digits, n, rfl, -, rfl⟩
  · obtain ⟨more, rfl⟩ := (List.reverse_prefix.mpr (run_grows both).kept).trans found'
    refine .inl ⟨more, rfl, fun empty => blank_of_run both (Nat.le_of_eq ?_)⟩
    rw [← count, empty, List.append_nil, List.length_reverse]
  · rcases run_number_cases both with ⟨digits', rfl⟩ | ⟨n', kept⟩
    · obtain ⟨n', -, rfl⟩ := Option.map_eq_some_iff.mp ends'
      exact .inr ⟨found.reverse, n, n', [], rfl, List.reverse_cons⟩
    · obtain ⟨more, rfl⟩ := (List.reverse_prefix.mpr kept).trans found'
      exact .inr ⟨found.reverse, n, n', more, rfl, by simp⟩

/-- Between tokens, blanks change nothing. -/
theorem run_blank {found : List Token} {rest : List UInt8}
    (blank : ∀ b ∈ rest, isBlank b = true) :
    run ⟨.between, found⟩ rest = some ⟨.between, found⟩ := by
  induction rest with
  | nil => rfl
  | cons b rest ih =>
    rw [List.forall_mem_cons] at blank
    have stays : step ⟨.between, found⟩ b = some ⟨.between, found⟩ := if_pos blank.1
    rw [run_cons stays, ih blank.2]

/-- Blanks after a text are without tokens. -/
theorem tokens?_blank {front rest : List UInt8} {tokens : List Token}
    (short : tokens? front = some tokens) (blank : ∀ b ∈ rest, isBlank b = true) :
    tokens? (front ++ rest) = some tokens := by
  obtain ⟨s, first, ends⟩ := Option.bind_eq_some_iff.mp short
  rw [tokens?, run_append, first, Option.bind_some]
  rcases finish_cases ends with ⟨found, rfl, rfl⟩ | ⟨found, digits, n, rfl, literal, rfl⟩
  · rw [run_blank blank]
    rfl
  · cases rest with
    | nil => exact ends
    | cons b rest =>
      rw [List.forall_mem_cons] at blank
      have other : isNumberByte b = false := by
        rcases isBlank_iff.mp blank.1 with rfl | rfl | rfl | rfl <;> rfl
      have closes : step ⟨.number digits, found⟩ b = some ⟨.between, .number n :: found⟩ := by
        simp only [step, other, literal, Option.bind_some, Bool.false_eq_true, if_false]
        exact if_pos blank.1
      rw [run_cons closes, run_blank blank.2, Option.bind_some]
      exact congrArg some List.reverse_cons

end Tokenizer

/-! ### Trees -/

namespace Tree

theorem run_append (s : State) (xs ys : List Token) :
    run s (xs ++ ys) = (run s xs).bind fun s' => run s' ys := by
  induction xs generalizing s with
  | nil => rfl
  | cons token rest ih =>
    simp only [List.cons_append, run]
    cases step s token with
    | none => rfl
    | some s' => exact ih s'

/-- No token follows a whole tree. -/
theorem run_complete {t : Tree} {tokens : List Token} {s : State}
    (h : run (.complete t) tokens = some s) : tokens = [] ∧ s = .complete t := by
  cases tokens with
  | nil => exact ⟨rfl, (Option.some.inj h).symm⟩
  | cons token rest => cases h

/-- Where a number completes a tree, every number does, and it is the tree. -/
theorem step_number {s : State} {n : Numeral} {t : Tree}
    (h : step s (.number n) = some (.complete t)) :
    t = .number n ∧ ∀ n', step s (.number n') = some (.complete (.number n')) := by
  have whole {stack : List Frame} (h : supply (.number n) stack = .complete t) :
      stack = [] ∧ t = .number n := by
    rcases stack with _ | ⟨_ | _, stack⟩
    · cases h
      exact ⟨rfl, rfl⟩
    · cases h
    · cases h
  cases s with
  | value stack =>
    obtain ⟨rfl, rfl⟩ := whole (Option.some.inj h)
    exact ⟨rfl, fun n' => rfl⟩
  | item stack => cases h
  | field stack => cases h
  | name done stack => cases h
  | colon done name stack => cases h
  | nextItem done stack => cases h
  | nextField done stack => cases h
  | complete tree => cases h

theorem ofTokens?_eq_some_iff {tokens : List Token} {t : Tree} :
    ofTokens? tokens = some t ↔ run (.value []) tokens = some (.complete t) := by
  unfold ofTokens?
  split
  · rename_i t' found
    rw [found]
    simp
  · rename_i other
    exact iff_of_false (by simp) fun found => other t found

/-- Of two texts that are values, one the beginning of the other, the longer has only blanks more,
or both are numbers. -/
theorem ofBytes?_append {front rest : List UInt8} {t t' : Tree} (short : ofBytes? front = some t)
    (long : ofBytes? (front ++ rest) = some t') :
    (t' = t ∧ ∀ b ∈ rest, Tokenizer.isBlank b = true) ∨
      ∃ n n', t = .number n ∧ t' = .number n' := by
  obtain ⟨tokens, first, ends⟩ := Option.bind_eq_some_iff.mp short
  obtain ⟨tokens', both, ends'⟩ := Option.bind_eq_some_iff.mp long
  rw [ofTokens?_eq_some_iff] at ends ends'
  rcases Tokenizer.tokens?_append first both with ⟨more, rfl, blank⟩ |
    ⟨found, n, n', more, rfl, rfl⟩
  · rw [run_append, ends, Option.bind_some] at ends'
    obtain ⟨empty, completeEq⟩ := run_complete ends'
    cases completeEq
    exact .inl ⟨rfl, blank empty⟩
  · rw [run_append] at ends ends'
    obtain ⟨s, before, last⟩ := Option.bind_eq_some_iff.mp ends
    have completes : step s (.number n) = some (.complete t) := by
      simp only [run] at last
      split at last
      · cases last
      · rename_i next
        exact next.trans last
    obtain ⟨rfl, every⟩ := step_number completes
    rw [before, Option.bind_some, run_cons (every n')] at ends'
    obtain ⟨-, completeEq⟩ := run_complete ends'
    cases completeEq
    exact .inr ⟨n, n', rfl, rfl⟩

/-- Blanks after a text are not looked at. -/
theorem ofBytes?_blank {front rest : List UInt8} {t : Tree} (short : ofBytes? front = some t)
    (blank : ∀ b ∈ rest, Tokenizer.isBlank b = true) : ofBytes? (front ++ rest) = some t := by
  obtain ⟨tokens, first, ends⟩ := Option.bind_eq_some_iff.mp short
  rw [ofBytes?, Tokenizer.tokens?_blank first blank, Option.bind_some, ends]

end Tree

end GroupStore.Json
