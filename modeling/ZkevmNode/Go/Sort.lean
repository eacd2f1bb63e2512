import Mathlib.Tactic.Common

set_option autoImplicit false

/-! `sort.Search` of Go's standard library: the binary search for the first
index of `[0, n)` at which a predicate holds, for a predicate that is false and
then true. The predicate is a Go closure, which may panic, so it returns an
`Option`. -/

namespace Go

/-- The loop of `sort.Search` over the half-open interval `[i, j)`. Each round
shrinks the interval, so `fuel` rounds suffice for an interval of length at
most `fuel`. -/
def searchLoop (f : Nat → Option Bool) : Nat → Nat → Nat → Option Nat
  | 0, i, _ => some i
  | fuel + 1, i, j =>
    if i < j then do
      let h := (i + j) / 2
      if !(← f h) then searchLoop f fuel (h + 1) j else searchLoop f fuel i h
    else some i

/-- `sort.Search`. -/
def search (n : Nat) (f : Nat → Option Bool) : Option Nat := searchLoop f n 0 n

section Spec

variable {f : Nat → Option Bool} {n m : Nat}

theorem searchLoop_eq (below : ∀ k < m, f k = some false)
    (above : ∀ k, m ≤ k → k < n → f k = some true) :
    ∀ fuel i j, i ≤ m → m ≤ j → j ≤ n → j - i ≤ fuel → searchLoop f fuel i j = some m
  | 0, i, j, lower, upper, _, short => by
    have same : i = m := by omega
    rw [searchLoop, same]
  | fuel + 1, i, j, lower, upper, bounded, short => by
    unfold searchLoop
    split
    · rename_i nonempty
      dsimp only
      by_cases left : (i + j) / 2 < m
      · rw [below _ left]
        exact searchLoop_eq below above fuel _ j (by omega) upper bounded (by omega)
      · rw [above _ (by omega) (by omega)]
        exact searchLoop_eq below above fuel i _ lower (by omega) (by omega) (by omega)
    · rename_i empty
      rw [show i = m by omega]

theorem search_eq (bounded : m ≤ n) (below : ∀ k < m, f k = some false)
    (above : ∀ k, m ≤ k → k < n → f k = some true) : search n f = some m :=
  searchLoop_eq below above n 0 n (Nat.zero_le m) bounded (Nat.le_refl n) (by omega)

end Spec

end Go
