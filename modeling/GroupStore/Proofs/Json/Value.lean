import GroupStore.Json
import GroupStore.Proofs.Json.Float
import GroupStore.Proofs.Json.Spaced
import GroupStore.Proofs.Sorted

/-!
# Values are read as they were written, up to a depth

The text of an object is read as its tree.  The tree of a value without floating point numbers is
evaluated to the value again unless too many containers are open in it at once.

* `Json.Exact` — values that a program holds, without floating point numbers;
* `Json.depth` — the number of containers that are open at once;
* `Json.isText_text` — the text of a value is a text of its tree;
* `Json.tokens?_object`, `Json.ofBytes?_object` — the tokens and the tree that are read in the text
  of an object;
* `Json.Exact.ofTree?_tree` — what the tree is evaluated to.
-/

namespace GroupStore.Json

open TextOrder (bytes)

/-- A value as a program holds it, without floating point numbers: integers are in range, and
fields ascend. -/
inductive Exact : Json → Prop where
  | null : Exact .null
  | bool (b : Bool) : Exact (.bool b)
  | int {n : Int} (low : -(Numeral.maxNegative : Int) ≤ n) (high : n ≤ Numeral.maxWord) :
      Exact (.number (.int n))
  | string (s : String) : Exact (.string s)
  | array {items : List Json} (all : ∀ item ∈ items, Exact item) : Exact (.array items)
  | object {fields : List (String × Json)} (ascending : Sorted.Ascending fields)
      (all : ∀ field ∈ fields, Exact field.2) : Exact (.object fields)

/-! ### Depth -/

mutual

/-- The number of containers that are open at once. -/
def depth : Json → Nat
  | array items => depthOfItems items + 1
  | object fields => depthOfFields fields + 1
  | _ => 0

/-- The greatest depth of some items. -/
def depthOfItems : List Json → Nat
  | [] => 0
  | item :: items => max (depth item) (depthOfItems items)

/-- The greatest depth of the values of some fields. -/
def depthOfFields : List (String × Json) → Nat
  | [] => 0
  | (_, value) :: fields => max (depth value) (depthOfFields fields)

end

theorem depthOfItems_le_iff {items : List Json} {d : Nat} :
    depthOfItems items ≤ d ↔ ∀ item ∈ items, item.depth ≤ d := by
  induction items with
  | nil => simp [depthOfItems]
  | cons item rest ih => rw [depthOfItems, Nat.max_le, ih, List.forall_mem_cons]

theorem depthOfFields_le_iff {fields : List (String × Json)} {d : Nat} :
    depthOfFields fields ≤ d ↔ ∀ field ∈ fields, field.2.depth ≤ d := by
  induction fields with
  | nil => simp [depthOfFields]
  | cons field rest ih => rw [depthOfFields, Nat.max_le, ih, List.forall_mem_cons]

/-- The values of an object are less deep than the object. -/
theorem depth_object_le_iff {fields : List (String × Json)} {d : Nat} :
    (object fields).depth ≤ d + 1 ↔ ∀ field ∈ fields, field.2.depth ≤ d := by
  rw [depth, Nat.add_le_add_iff_right, depthOfFields_le_iff]

/-! ### Trees -/

/-- The literal of a number. -/
def literal (n : Number) : Numeral := (Numeral.ofBytes? (bytes n.text)).getD (.ofInt 0)

/-- A number is written as its literal is spelled. -/
theorem bytes_number (n : Number) :
    (literal n).WellFormed ∧ bytes n.text = (literal n).spelling := by
  have own {m : Numeral} (right : m.WellFormed) (spelled : bytes n.text = m.spelling) :
      (literal n).WellFormed ∧ bytes n.text = (literal n).spelling := by
    rw [literal, spelled, Numeral.ofBytes?_spelling right]
    exact ⟨right, rfl⟩
  cases n with
  | int n => exact own (Numeral.wellFormed_ofInt n) (bytes_toString n)
  | float f => exact own (Numeral.wellFormed_ofFloat f) (bytes_float f)

theorem literal_int (n : Int) : literal (.int n) = .ofInt n := by
  rw [literal, Number.text, bytes_toString, Numeral.ofBytes?_spelling (Numeral.wellFormed_ofInt n),
    Option.getD_some]

theorem literal_float (f : Binary64) : literal (.float f) = .ofFloat f := by
  rw [literal, Number.text, bytes_float, Numeral.ofBytes?_spelling (Numeral.wellFormed_ofFloat f),
    Option.getD_some]

mutual

/-- The tree of the text of a value. -/
def tree : Json → Tree
  | null => .null
  | bool b => .bool b
  | number n => .number (literal n)
  | string s => .text (raw s)
  | array items => .array (trees items)
  | object fields => .object (fieldTrees fields)

/-- The trees of some items. -/
def trees : List Json → List Tree
  | [] => []
  | item :: items => tree item :: trees items

/-- The names and the trees of some fields. -/
def fieldTrees : List (String × Json) → List (List UInt8 × Tree)
  | [] => []
  | (name, value) :: fields => (raw name, tree value) :: fieldTrees fields

end

/-! ### Writing -/

/-- A text was made longer by some tokens. -/
def Adds (out longer : String) (tokens : List Token) : Prop :=
  ∃ own, bytes longer = bytes out ++ own ∧ Spaced tokens own

section Write

variable {out longer longest : String} {tokens tokens' : List Token}

theorem Adds.trans (first : Adds out longer tokens) (later : Adds longer longest tokens') :
    Adds out longest (tokens ++ tokens') := by
  obtain ⟨own, bytesIs, spaced⟩ := first
  obtain ⟨own', bytesIs', spaced'⟩ := later
  exact ⟨own ++ own', by rw [bytesIs', bytesIs, List.append_assoc], spaced.append spaced'⟩

theorem adds_token (out text : String) {token : Token}
    (spelled : token.IsText (bytes text)) : Adds out (out ++ text) [token] :=
  ⟨bytes text, bytes_append out text, .of_token spelled⟩

theorem adds_quoted (out s : String) : Adds out (out ++ quoted s) [.text (raw s)] := by
  refine adds_token out _ ?_
  rw [bytes_quoted]
  exact .text (body_raw s)

theorem adds_number (out : String) (n : Number) :
    Adds out (out ++ n.text) [.number (literal n)] := by
  obtain ⟨right, spelled⟩ := bytes_number n
  exact adds_token out _ (.number (spelled ▸ right.isText))

/-- A name is followed by a colon. -/
theorem adds_name (out name : String) :
    Adds out (out ++ quoted name ++ ":") [.text (raw name), .colon] :=
  (adds_quoted out name).trans (adds_token _ ":" .colon)

end Write

/-- Wherever a value is written, the tokens of its tree are added. -/
def Written (v : Json) : Prop := ∀ out, Adds out (v.write out) v.tree.tokens

theorem writeItems_adds {items : List Json} (all : ∀ item ∈ items, Written item) (out : String) :
    Adds out (writeItems out items) (Tree.itemTokens (trees items)) := by
  induction items generalizing out with
  | nil => exact ⟨[], by simp [writeItems], .blank fun b member => absurd member List.not_mem_nil⟩
  | cons item rest ih =>
    have first := (adds_token out "," .comma).trans (all item List.mem_cons_self (out ++ ","))
    exact first.trans (ih (fun other member => all other (List.mem_cons_of_mem _ member)) _)

theorem writeFields_adds {fields : List (String × Json)}
    (all : ∀ field ∈ fields, Written field.2) (out : String) :
    Adds out (writeFields out fields) (Tree.fieldTokens (fieldTrees fields)) := by
  induction fields generalizing out with
  | nil => exact ⟨[], by simp [writeFields], .blank fun b member => absurd member List.not_mem_nil⟩
  | cons field rest ih =>
    obtain ⟨name, value⟩ := field
    have named := (adds_token out "," .comma).trans (adds_name (out ++ ",") name)
    have first := named.trans (all (name, value) List.mem_cons_self _)
    exact first.trans (ih (fun other member => all other (List.mem_cons_of_mem _ member)) _)

theorem writeArray_adds {items : List Json} (all : ∀ item ∈ items, Written item) :
    Written (array items) := by
  intro out
  cases items with
  | nil =>
    exact ⟨bytes "[]", bytes_append out "[]",
      (Spaced.of_token .openBracket).append (.of_token .closeBracket)⟩
  | cons item rest =>
    have first := (adds_token out "[" .openBracket).trans (all item List.mem_cons_self (out ++ "["))
    have others :=
      writeItems_adds (fun other member => all other (List.mem_cons_of_mem _ member))
        (item.write (out ++ "["))
    have whole := (first.trans others).trans (adds_token _ "]" .closeBracket)
    simpa [write, tree, trees, Tree.tokens] using whole

theorem writeObject_adds {fields : List (String × Json)}
    (all : ∀ field ∈ fields, Written field.2) : Written (object fields) := by
  intro out
  cases fields with
  | nil =>
    exact ⟨bytes "\x7b\x7d", bytes_append out "\x7b\x7d",
      (Spaced.of_token .openBrace).append (.of_token .closeBrace)⟩
  | cons field rest =>
    obtain ⟨name, value⟩ := field
    have named := (adds_token out "\x7b" .openBrace).trans (adds_name (out ++ "\x7b") name)
    have first := named.trans (all (name, value) List.mem_cons_self _)
    have others :=
      writeFields_adds (fun other member => all other (List.mem_cons_of_mem _ member))
        (value.write (out ++ "\x7b" ++ quoted name ++ ":"))
    have whole := (first.trans others).trans (adds_token _ "\x7d" .closeBrace)
    simpa [write, tree, fieldTrees, Tree.tokens, String.append_assoc] using whole

mutual

/-- The text of a value has the tokens of its tree. -/
theorem written (v : Json) : Written v := by
  match v with
  | null => exact fun out => adds_token out "null" .null
  | bool true => exact fun out => adds_token out "true" .true
  | bool false => exact fun out => adds_token out "false" .false
  | number n => exact fun out => adds_number out n
  | string s => exact fun out => adds_quoted out s
  | array items => exact writeArray_adds (written_items items)
  | object fields => exact writeObject_adds (written_fields fields)

theorem written_items (items : List Json) : ∀ item ∈ items, Written item := by
  match items with
  | [] => exact fun _ member => absurd member List.not_mem_nil
  | item :: rest => exact List.forall_mem_cons.mpr ⟨written item, written_items rest⟩

theorem written_fields (fields : List (String × Json)) : ∀ field ∈ fields, Written field.2 := by
  match fields with
  | [] => exact fun _ member => absurd member List.not_mem_nil
  | (name, value) :: rest => exact List.forall_mem_cons.mpr ⟨written value, written_fields rest⟩

end

/-- What is written is a text of the tree of the value. -/
theorem isText_text (v : Json) : v.tree.IsText (bytes v.text) := by
  obtain ⟨own, bytesIs, spaced⟩ := written v ""
  rw [text, bytesIs]
  exact spaced

/-- The text of an object ends where the object does. -/
theorem ends_in_brace (fields : List (String × Json)) :
    ∃ front, bytes (object fields).text = front ++ [ascii '\x7d'] := by
  cases fields with
  | nil => exact ⟨[ascii '\x7b'], by decide⟩
  | cons field rest =>
    obtain ⟨name, value⟩ := field
    rw [text, write, bytes_append]
    exact ⟨_, rfl⟩

/-- The tokens that are found in the text of an object. -/
theorem tokens?_object (fields : List (String × Json)) :
    tokens? (bytes (object fields).text) = some (object fields).tree.tokens :=
  (isText_text _).tokens?

/-- The tree that is read in the text of an object. -/
theorem ofBytes?_object (fields : List (String × Json)) :
    Tree.ofBytes? (bytes (object fields).text) = some (object fields).tree :=
  (isText_text _).ofBytes?

/-! ### Reading -/

theorem mapM_trees {items : List Json} {d : Nat}
    (each : ∀ item ∈ items, ofTree? d item.tree = if item.depth ≤ d then some item else none) :
    (trees items).mapM (ofTree? d) = if depthOfItems items ≤ d then some items else none := by
  induction items with
  | nil => simp [trees, depthOfItems]
  | cons item rest ih =>
    rw [trees, List.mapM_cons, each item List.mem_cons_self,
      ih fun other member => each other (List.mem_cons_of_mem _ member), depthOfItems]
    simp only [Nat.max_le]
    by_cases own : item.depth ≤ d <;> by_cases others : depthOfItems rest ≤ d <;>
      simp [own, others]

theorem mapM_fieldTrees {fields : List (String × Json)} {d : Nat}
    (each : ∀ field ∈ fields,
      ofTree? d field.2.tree = if field.2.depth ≤ d then some field.2 else none) :
    ((fieldTrees fields).mapM fun (field : List UInt8 × Tree) => do
        let name ← readText? field.1
        let value ← ofTree? d field.2
        return (name, value)) =
      if depthOfFields fields ≤ d then some fields else none := by
  induction fields with
  | nil => simp [fieldTrees, depthOfFields]
  | cons field rest ih =>
    obtain ⟨name, value⟩ := field
    rw [fieldTrees, List.mapM_cons,
      ih fun other member => each other (List.mem_cons_of_mem _ member),
      each (name, value) List.mem_cons_self, readText?_raw, depthOfFields]
    simp only [Nat.max_le]
    by_cases own : value.depth ≤ d <;> by_cases others : depthOfFields rest ≤ d <;>
      simp [own, others]

/-- The tree of a value is evaluated to it, unless it is too deep. -/
theorem Exact.ofTree?_tree {v : Json} (exact' : Exact v) (d : Nat) :
    ofTree? d v.tree = if v.depth ≤ d then some v else none := by
  induction exact' generalizing d with
  | null => simp [tree, ofTree?, depth]
  | bool b => simp [tree, ofTree?, depth]
  | int low high => simp [tree, ofTree?, depth, literal_int, Numeral.value?_ofInt low high]
  | string s => simp [tree, ofTree?, depth, readText?_raw]
  | @array items all ih =>
    cases d with
    | zero => simp [tree, ofTree?, depth]
    | succ d =>
      rw [tree, ofTree?, mapM_trees fun item member => ih item member d, depth]
      by_cases fits : depthOfItems items ≤ d <;> simp [fits]
  | @object fields ascending all ih =>
    cases d with
    | zero => simp [tree, ofTree?, depth]
    | succ d =>
      rw [tree, ofTree?, mapM_fieldTrees fun field member => ih field member d, depth]
      by_cases fits : depthOfFields fields ≤ d <;>
        simp [fits, collect, Sorted.ofPairs_eq_self ascending]

end GroupStore.Json
