import GroupStore.Binary64.Shortest

/-!
# What the search for the shortest digits finds

Decimal grids are tried one after the other, and digits that were found round to the magnitude.

* `Binary64.onGrid?_eq` — the two points of a grid that are tried;
* `Binary64.shortest_cases` — digits that round to the magnitude, or none on any grid.
-/

namespace GroupStore.Binary64

/-- A magnitude in steps of a grid, as a fraction. -/
def inSteps (x : Magnitude) (k : Int) : Nat × Nat :=
  if 0 ≤ k then ((fraction x).1, (fraction x).2 * tenTo k.toNat)
  else ((fraction x).1 * tenTo (-k).toNat, (fraction x).2)

theorem onGrid?_eq (x : Magnitude) (k : Int) :
    onGrid? x k =
      let near := roundDiv (inSteps x k).1 (inSteps x k).2
      let low := (inSteps x k).1 / (inSteps x k).2
      let far := if near = low then low + 1 else low
      if roundsTo x near k then some near else if roundsTo x far k then some far else none := rfl

theorem onGrid?_roundsTo {x : Magnitude} {k : Int} {d : Nat} (found : onGrid? x k = some d) :
    roundsTo x d k = true := by
  rw [onGrid?_eq] at found
  dsimp only at found
  generalize roundDiv (inSteps x k).1 (inSteps x k).2 = near at found
  generalize (if near = (inSteps x k).1 / (inSteps x k).2 then (inSteps x k).1 / (inSteps x k).2 + 1
    else (inSteps x k).1 / (inSteps x k).2) = far at found
  by_cases first : roundsTo x near k = true
  · rw [if_pos first] at found
    cases found
    exact first
  · rw [if_neg first] at found
    by_cases second : roundsTo x far k = true
    · rw [if_pos second] at found
      cases found
      exact second
    · rw [if_neg second] at found
      cases found

/-- The digits found on a grid, unless they are none. -/
def digitsOn? (x : Magnitude) (k : Int) : Option (Nat × Int) :=
  (onGrid? x k).bind fun d => if d = 0 then none else some (d, k)

theorem digitsOn?_eq_some {x : Magnitude} {k : Int} {found : Nat × Int}
    (here : digitsOn? x k = some found) : found.1 ≠ 0 ∧ roundsTo x found.1 found.2 = true := by
  obtain ⟨d, on, kept⟩ := Option.bind_eq_some_iff.mp here
  by_cases zero : d = 0
  · rw [if_pos zero] at kept
    cases kept
  · rw [if_neg zero] at kept
    cases kept
    exact ⟨zero, onGrid?_roundsTo on⟩

/-- The grids that are tried. -/
def grids (x : Magnitude) : List Int := (List.range 22).map fun (i : Nat) => topPower x - (i : Int)

/-- The shortest digits are those of the first grid that has some. -/
theorem shortest_eq (x : Magnitude) :
    shortest x = ((grids x).findSome? (digitsOn? x)).getD (0, 0) := by
  unfold shortest
  dsimp only
  split
  · rename_i found here
    have own : (grids x).findSome? (digitsOn? x) = some found := here
    rw [own, Option.getD_some]
  · rename_i here
    have own : (grids x).findSome? (digitsOn? x) = none := here
    rw [own, Option.getD_none]

/-- The shortest digits round to the magnitude, unless there are none on any grid. -/
theorem shortest_cases (x : Magnitude) :
    ((shortest x).1 ≠ 0 ∧ roundsTo x (shortest x).1 (shortest x).2 = true) ∨
      (shortest x = (0, 0) ∧ ∀ k ∈ grids x, digitsOn? x k = none) := by
  rw [shortest_eq]
  cases search : (grids x).findSome? (digitsOn? x) with
  | none => exact .inr ⟨rfl, List.findSome?_eq_none_iff.mp search⟩
  | some found =>
    obtain ⟨k, -, here⟩ := List.exists_of_findSome?_eq_some search
    exact .inl (digitsOn?_eq_some here)

end GroupStore.Binary64
