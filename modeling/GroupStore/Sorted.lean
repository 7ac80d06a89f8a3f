/-!
# Finite maps as sorted lists of pairs

A map is the list of its entries in ascending order of the keys, each key once.  Putting an entry
replaces the one of an equal key; looking up and dropping do not depend on the order, so their
laws hold of any list of pairs.

* `put`, `get?`, `drop` — the operations;
* `ofPairs` — the map of a list of pairs in which a later pair replaces an earlier one;
* `Ascending` — the invariant, kept by `put` and `drop`.
-/

namespace GroupStore.Sorted

variable {κ : Type u} {ν : Type v}

/-- The entry of a key. -/
def get? [DecidableEq κ] (k : κ) : List (κ × ν) → Option ν
  | [] => none
  | (k', v) :: rest => if k = k' then some v else get? k rest

/-- Whether a key has an entry. -/
def has [DecidableEq κ] (k : κ) (m : List (κ × ν)) : Bool := (get? k m).isSome

/-- Store an entry at the place of its key. -/
def put [Ord κ] (k : κ) (v : ν) : List (κ × ν) → List (κ × ν)
  | [] => [(k, v)]
  | (k', v') :: rest =>
    match compare k k' with
    | .lt => (k, v) :: (k', v') :: rest
    | .eq => (k, v) :: rest
    | .gt => (k', v') :: put k v rest

/-- Forget the entry of a key. -/
def drop [DecidableEq κ] (k : κ) (m : List (κ × ν)) : List (κ × ν) :=
  m.filter fun entry => entry.1 ≠ k

/-- The map of a list of pairs; of two pairs with one key the later one stays. -/
def ofPairs [Ord κ] (pairs : List (κ × ν)) : List (κ × ν) :=
  pairs.foldl (fun m entry => put entry.1 entry.2 m) []

/-- Keys ascend, hence none occurs twice. -/
def Ascending [Ord κ] (m : List (κ × ν)) : Prop :=
  m.Pairwise fun a b => compare a.1 b.1 = .lt

end GroupStore.Sorted
