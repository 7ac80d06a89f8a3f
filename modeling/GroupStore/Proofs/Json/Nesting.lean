import GroupStore.Proofs.Json.Value

/-!
# Containers open at once in a text

An opening bracket or brace opens a container and a closing one closes it.  The tokens of a value
open as many containers at once as the value is deep, whatever stands around them.

* `Json.openAtOnce` — the greatest number of containers open at once in a text;
* `Json.peak_tree` — the tokens of a value;
* `Json.openAtOnce_object` — the text of an object.
-/

namespace GroupStore.Json

open TextOrder (bytes)

/-- The number of containers open after a token, if so many are open before it. -/
def Token.nesting (n : Nat) : Token → Nat
  | .openBrace | .openBracket => n + 1
  | .closeBrace | .closeBracket => n - 1
  | _ => n

/-- The greatest number of containers open at once among some tokens, if so many are open before
them. -/
def peak (n : Nat) : List Token → Nat
  | [] => n
  | token :: rest => max n (peak (token.nesting n) rest)

/-- The greatest number of containers open at once in a text. -/
def openAtOnce (text : List UInt8) : Nat := ((tokens? text).map (peak 0)).getD 0

theorem le_peak (n : Nat) (tokens : List Token) : n ≤ peak n tokens := by
  cases tokens with
  | nil => exact Nat.le_refl n
  | cons token rest => exact Nat.le_max_left _ _

mutual

/-- The tokens of a value open as many containers at once as the value is deep, and leave none of
them open. -/
theorem peak_tree (v : Json) (n : Nat) (rest : List Token) :
    peak n (v.tree.tokens ++ rest) = max (n + v.depth) (peak n rest) := by
  have least := le_peak n rest
  match v with
  | null => simp [tree, Tree.tokens, peak, Token.nesting, depth]
  | bool b => simp [tree, Tree.tokens, peak, Token.nesting, depth]
  | number m => simp [tree, Tree.tokens, peak, Token.nesting, depth]
  | string s => simp [tree, Tree.tokens, peak, Token.nesting, depth]
  | array [] =>
    simp only [tree, trees, Tree.tokens, List.cons_append, List.nil_append, peak, Token.nesting,
      depth, depthOfItems, Nat.add_sub_cancel]
    omega
  | array (item :: items) =>
    simp only [tree, trees, Tree.tokens, List.cons_append, List.append_assoc, List.nil_append, peak,
      Token.nesting, peak_tree item, peak_trees items, Nat.add_sub_cancel, depth, depthOfItems]
    omega
  | object [] =>
    simp only [tree, fieldTrees, Tree.tokens, List.cons_append, List.nil_append, peak,
      Token.nesting, depth, depthOfFields, Nat.add_sub_cancel]
    omega
  | object ((name, value) :: fields) =>
    simp only [tree, fieldTrees, Tree.tokens, List.cons_append, List.append_assoc, List.nil_append,
      peak, Token.nesting, peak_tree value, peak_fieldTrees fields, Nat.add_sub_cancel, depth,
      depthOfFields]
    omega

theorem peak_trees (items : List Json) (n : Nat) (rest : List Token) :
    peak n (Tree.itemTokens (trees items) ++ rest) =
      max (n + depthOfItems items) (peak n rest) := by
  have least := le_peak n rest
  match items with
  | [] =>
    rw [trees, Tree.itemTokens, List.nil_append, depthOfItems]
    omega
  | item :: items =>
    simp only [trees, Tree.itemTokens, List.cons_append, List.append_assoc, peak, Token.nesting,
      peak_tree item, peak_trees items, depthOfItems]
    omega

theorem peak_fieldTrees (fields : List (String × Json)) (n : Nat) (rest : List Token) :
    peak n (Tree.fieldTokens (fieldTrees fields) ++ rest) =
      max (n + depthOfFields fields) (peak n rest) := by
  have least := le_peak n rest
  match fields with
  | [] =>
    rw [fieldTrees, Tree.fieldTokens, List.nil_append, depthOfFields]
    omega
  | (name, value) :: fields =>
    simp only [fieldTrees, Tree.fieldTokens, List.cons_append, List.append_assoc, peak,
      Token.nesting, peak_tree value, peak_fieldTrees fields, depthOfFields]
    omega

end

/-- In the text of an object as many containers are open at once as the object is deep. -/
theorem openAtOnce_object (fields : List (String × Json)) :
    openAtOnce (bytes (object fields).text) = (object fields).depth := by
  have whole := peak_tree (object fields) 0 []
  rw [List.append_nil, peak, Nat.zero_add, Nat.max_zero] at whole
  rw [openAtOnce, tokens?_object, Option.map_some, Option.getD_some, whole]

end GroupStore.Json
