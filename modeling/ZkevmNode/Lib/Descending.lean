import Mathlib

set_option autoImplicit false

/-! Lists kept in strictly decreasing order of a key, as a sorted slice is kept
by binary search: the elements ranked above a value form a prefix, so the
first index at which an element is not above the value is their number. There
a new value is inserted, and there a member is found and erased. -/

namespace Descending

variable {α β : Type} [LinearOrder β] (key : α → β)

/-- The number of elements of `l` whose key is above that of `x`. -/
def rank (l : List α) (x : α) : Nat := l.countP fun y => key x < key y

variable {key}

theorem rank_cons (y : α) (l : List α) (x : α) :
    rank key (y :: l) x = rank key l x + if key x < key y then 1 else 0 := by
  simp [rank, List.countP_cons]

theorem rank_le_length (l : List α) (x : α) : rank key l x ≤ l.length :=
  List.countP_le_length

theorem rank_eq_zero {y : α} {l : List α} (desc : (y :: l).Pairwise fun a b => key b < key a)
    {x : α} (notAbove : key y ≤ key x) : rank key (y :: l) x = 0 := by
  simp only [rank, List.countP_eq_zero, List.mem_cons, decide_eq_true_eq, not_lt]
  rintro z (rfl | member)
  · exact notAbove
  · exact ((List.pairwise_cons.mp desc).1 z member).le.trans notAbove

theorem le_iff_rank_le {l : List α} (desc : l.Pairwise fun a b => key b < key a) (x : α) :
    ∀ (i : Nat) (h : i < l.length), key l[i] ≤ key x ↔ rank key l x ≤ i := by
  induction l with
  | nil => intro i h; simp at h
  | cons y l ih =>
    intro i h
    by_cases above : key x < key y
    · rw [rank_cons, if_pos above]
      cases i with
      | zero => simpa using above
      | succ i =>
        rw [List.getElem_cons_succ, ih (List.pairwise_cons.mp desc).2 i (by simpa using h)]
        omega
    · have first : key y ≤ key x := not_lt.mp above
      rw [rank_eq_zero desc first]
      cases i with
      | zero => simpa using first
      | succ i =>
        have fits : i < l.length := by simpa using h
        have later := (List.pairwise_cons.mp desc).1 l[i] (List.getElem_mem fits)
        simpa using later.le.trans first

theorem pairwise_insertIdx_rank {l : List α} (desc : l.Pairwise fun a b => key b < key a)
    {x : α} (fresh : ∀ y ∈ l, key y ≠ key x) :
    (l.insertIdx (rank key l x) x).Pairwise fun a b => key b < key a := by
  induction l with
  | nil => simp [rank]
  | cons y l ih =>
    obtain ⟨tail, rest⟩ := List.pairwise_cons.mp desc
    by_cases above : key x < key y
    · rw [rank_cons, if_pos above, List.insertIdx_succ_cons, List.pairwise_cons]
      refine ⟨?_, ih rest fun z member => fresh z (by simp [member])⟩
      intro z member
      rcases (List.mem_insertIdx (rank_le_length l x)).mp member with rfl | member
      · exact above
      · exact tail z member
    · have below : key y < key x :=
        lt_of_le_of_ne (not_lt.mp above) (fresh y (by simp))
      rw [rank_eq_zero desc below.le, List.insertIdx_zero, List.pairwise_cons]
      refine ⟨?_, desc⟩
      rintro z (_ | ⟨_, member⟩)
      · exact below
      · exact (tail z member).trans below

theorem getElem_rank {l : List α} (desc : l.Pairwise fun a b => key b < key a) {x : α}
    (mem : x ∈ l) : ∃ h : rank key l x < l.length, l[rank key l x] = x := by
  induction l with
  | nil => simp at mem
  | cons y l ih =>
    obtain ⟨tail, rest⟩ := List.pairwise_cons.mp desc
    rcases List.mem_cons.mp mem with rfl | member
    · rw [rank_eq_zero desc le_rfl]
      exact ⟨by simp, rfl⟩
    · have above : key x < key y := tail x member
      obtain ⟨fits, found⟩ := ih rest member
      simp only [rank_cons, if_pos above]
      exact ⟨by simpa using fits, by simpa using found⟩

theorem nodup_of_pairwise {l : List α} (desc : l.Pairwise fun a b => key b < key a) : l.Nodup :=
  desc.imp fun lt same => lt.ne' (congrArg key same)

theorem eraseIdx_rank [DecidableEq α] {l : List α} (desc : l.Pairwise fun a b => key b < key a)
    {x : α} (mem : x ∈ l) : l.eraseIdx (rank key l x) = l.erase x := by
  obtain ⟨fits, found⟩ := getElem_rank desc mem
  rw [← (nodup_of_pairwise desc).erase_getElem _ fits, found]

end Descending
