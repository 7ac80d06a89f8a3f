import GroupStore.Json.Tree

/-!
# Trees are read back from their tokens

Every tree has a list of tokens, from which the reader recovers it whatever its depth.

* `Json.Tree.tokens` — the tokens of a tree;
* `Json.Tree.ofTokens?_tokens` — the reader recovers the tree.
-/

namespace GroupStore.Json.Tree

mutual

/-- The tokens of a tree. -/
def tokens : Tree → List Token
  | null => [.null]
  | bool b => [.bool b]
  | number n => [.number n]
  | text raw => [.text raw]
  | array [] => [.openBracket, .closeBracket]
  | array (item :: items) =>
    .openBracket :: (tokens item ++ (itemTokens items ++ [.closeBracket]))
  | object [] => [.openBrace, .closeBrace]
  | object ((name, value) :: fields) =>
    .openBrace :: .text name :: .colon ::
      (tokens value ++ (fieldTokens fields ++ [.closeBrace]))

/-- The tokens of further items. -/
def itemTokens : List Tree → List Token
  | [] => []
  | item :: items => .comma :: (tokens item ++ itemTokens items)

/-- The tokens of further fields. -/
def fieldTokens : List (List UInt8 × Tree) → List Token
  | [] => []
  | (name, value) :: fields =>
    .comma :: .text name :: .colon :: (tokens value ++ fieldTokens fields)

end

theorem run_cons {s t : State} {token : Token} (h : step s token = some t) (rest : List Token) :
    run s (token :: rest) = run t rest := by
  simp only [run, h]

/-- After an opening bracket a value begins as anywhere else. -/
theorem run_item (t : Tree) (stack : List Frame) (rest : List Token) :
    run (.item stack) (t.tokens ++ rest) =
      run (.value (.items [] :: stack)) (t.tokens ++ rest) := by
  have first {token : Token} (opens : token ≠ .closeBracket) (rest : List Token) :
      run (.item stack) (token :: rest) = run (.value (.items [] :: stack)) (token :: rest) := by
    have stepEq : step (.item stack) token = step (.value (.items [] :: stack)) token := by
      cases token <;> first | rfl | exact absurd rfl opens
    simp only [run, stepEq]
  cases t with
  | null => exact first (by simp) _
  | bool b => exact first (by simp) _
  | number n => exact first (by simp) _
  | text raw => exact first (by simp) _
  | array items => cases items <;> simp only [tokens] <;> exact first (by simp) _
  | object fields => cases fields <;> simp only [tokens] <;> exact first (by simp) _

mutual

/-- Where a value must begin, the tokens of a tree are read as the tree. -/
theorem run_tokens (t : Tree) (stack : List Frame) (rest : List Token) :
    run (.value stack) (t.tokens ++ rest) = run (supply t stack) rest := by
  match t with
  | null => rfl
  | bool b => rfl
  | number n => rfl
  | text raw => rfl
  | array [] => rfl
  | array (item :: items) =>
    simp only [tokens, List.cons_append, List.append_assoc]
    rw [run_cons (t := .item stack) rfl, run_item, run_tokens item, supply, run_itemTokens items,
      List.nil_append, run_cons rfl]
    simp
  | object [] => rfl
  | object ((name, value) :: fields) =>
    simp only [tokens, List.cons_append, List.append_assoc]
    rw [run_cons (t := .field stack) rfl, run_cons (t := .colon [] name stack) rfl,
      run_cons (t := .value (.fields [] name :: stack)) rfl, run_tokens value, supply,
      run_fieldTokens fields, List.nil_append, run_cons rfl]
    simp

theorem run_itemTokens (items done : List Tree) (stack : List Frame) (rest : List Token) :
    run (.nextItem done stack) (itemTokens items ++ rest) =
      run (.nextItem (items.reverse ++ done) stack) rest := by
  match items with
  | [] => rfl
  | item :: items =>
    simp only [itemTokens, List.cons_append, List.append_assoc]
    rw [run_cons (t := .value (.items done :: stack)) rfl, run_tokens item, supply,
      run_itemTokens items]
    simp

theorem run_fieldTokens (fields done : List (List UInt8 × Tree)) (stack : List Frame)
    (rest : List Token) :
    run (.nextField done stack) (fieldTokens fields ++ rest) =
      run (.nextField (fields.reverse ++ done) stack) rest := by
  match fields with
  | [] => rfl
  | (name, value) :: fields =>
    simp only [fieldTokens, List.cons_append, List.append_assoc]
    rw [run_cons (t := .name done stack) rfl, run_cons (t := .colon done name stack) rfl,
      run_cons (t := .value (.fields done name :: stack)) rfl, run_tokens value, supply,
      run_fieldTokens fields]
    simp

end

/-- The reader recovers every tree from its tokens. -/
theorem ofTokens?_tokens (t : Tree) : ofTokens? t.tokens = some t := by
  have whole := run_tokens t [] []
  rw [List.append_nil] at whole
  rw [ofTokens?, whole]
  rfl

end GroupStore.Json.Tree
