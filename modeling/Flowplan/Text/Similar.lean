/-!
How alike two texts are, by the runs of characters that they share.
-/

namespace Flowplan.Text

/-- How many characters two texts have in common at their start. -/
def commonStart : List Char → List Char → Nat
  | a :: as, b :: bs => if a = b then commonStart as bs + 1 else 0
  | _, _ => 0

/-- A run of characters that two texts share: where it starts in each, and its length. -/
structure Run where
  left : Nat
  right : Nat
  length : Nat
deriving DecidableEq, Repr

/-- The best of a run and those that start where the left text does. -/
def longestAt (i : Nat) (as : List Char) (j : Nat) (best : Run) : List Char → Run
  | [] => best
  | b :: bs =>
    let n := commonStart as (b :: bs)
    longestAt i as (j + 1) (if best.length < n then ⟨i, j, n⟩ else best) bs

def longestFrom (bs : List Char) (i : Nat) (best : Run) : List Char → Run
  | [] => best
  | a :: as => longestFrom bs (i + 1) (longestAt i (a :: as) 0 best bs) as

/-- The longest run, the first of several in the left text and then in the right one. -/
def longestRun (as bs : List Char) : Run := longestFrom bs 0 ⟨0, 0, 0⟩ as

/-- The characters in the longest run and in the runs on either side of it. -/
def sharedWithin : Nat → List Char → List Char → Nat
  | 0, _, _ => 0
  | fuel + 1, as, bs =>
    let run := longestRun as bs
    if run.length = 0 then 0
    else run.length + sharedWithin fuel (as.take run.left) (bs.take run.right) +
      sharedWithin fuel (as.drop (run.left + run.length)) (bs.drop (run.right + run.length))

def shared (as bs : List Char) : Nat := sharedWithin (as.length + 1) as bs

/-- Two texts are alike if three fifths of their characters are in shared runs. -/
def alike (a b : String) : Bool :=
  3 * (a.length + b.length) ≤ 10 * shared a.toList b.toList

end Flowplan.Text
