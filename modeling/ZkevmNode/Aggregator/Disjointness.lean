import Mathlib.Data.List.Nodup
import Mathlib.Data.List.Pairwise
import ZkevmNode.Aggregator.Proofs

set_option autoImplicit false

/-! The rows of `state.proof` cover disjoint ranges of batches in every run in
which no lock expires under the goroutine that holds it: each goroutine holds
the rows it locked until it lets them go, an aggregated proof takes the place of
exactly the two rows it aggregates, and a new batch proof covers a batch no row
covers. `CleanupLockedProofs` deletes rows their holders still work on, and a run
that uses it reaches two rows covering one batch. -/

namespace ZkevmNode.Aggregator

/-- Two closed ranges of batches with no batch in common. -/
def RangesApart (r r' : Nat × Nat) : Prop := r.2 < r'.1 ∨ r'.2 < r.1

instance : Std.Symm RangesApart := ⟨fun _ _ apart => apart.symm⟩

/-- Two rows with no batch in common. -/
def Proof.Apart (p q : Proof) : Prop := p.batchNumberFinal < q.batchNumber ∨ q.batchNumberFinal < p.batchNumber

instance : DecidableRel Proof.Apart := fun _ _ => inferInstanceAs (Decidable (_ ∨ _))

/-- The ranges of a table whose rows cover nonempty ranges of batches, pairwise
apart and above the last verified batch. -/
structure Shape (ranges : List (Nat × Nat)) (lastVerifiedBatch : Nat) : Prop where
  apart : ranges.Pairwise RangesApart
  ordered : ∀ r ∈ ranges, r.1 ≤ r.2
  unverified : ∀ r ∈ ranges, lastVerifiedBatch < r.1

namespace Shape

variable {ranges : List (Nat × Nat)} {lastVerifiedBatch : Nat}

theorem sublist (shape : Shape ranges lastVerifiedBatch) {smaller : List (Nat × Nat)}
    (sub : smaller.Sublist ranges) : Shape smaller lastVerifiedBatch where
  apart := shape.apart.sublist sub
  ordered r member := shape.ordered r (sub.subset member)
  unverified r member := shape.unverified r (sub.subset member)

theorem append (shape : Shape ranges lastVerifiedBatch) {r : Nat × Nat} (ordered : r.1 ≤ r.2)
    (unverified : lastVerifiedBatch < r.1) (apart : ∀ r' ∈ ranges, RangesApart r' r) :
    Shape (ranges ++ [r]) lastVerifiedBatch where
  apart := by
    rw [List.pairwise_append]
    refine ⟨shape.apart, List.pairwise_singleton _ _, fun r' member r'' single => ?_⟩
    rw [List.mem_singleton.mp single]
    exact apart r' member
  ordered r' member := by
    rcases List.mem_append.mp member with old | new
    · exact shape.ordered r' old
    · rw [List.mem_singleton.mp new]
      exact ordered
  unverified r' member := by
    rcases List.mem_append.mp member with old | new
    · exact shape.unverified r' old
    · rw [List.mem_singleton.mp new]
      exact unverified

theorem eq_of_not_apart (shape : Shape ranges lastVerifiedBatch) {r r' : Nat × Nat} (member : r ∈ ranges)
    (member' : r' ∈ ranges) (overlap : ¬ RangesApart r r') : r = r' := by
  by_contra different
  exact overlap (shape.apart.forall member member' different)

theorem eq_of_start (shape : Shape ranges lastVerifiedBatch) {r r' : Nat × Nat} (member : r ∈ ranges)
    (member' : r' ∈ ranges) (same : r.1 = r'.1) : r = r' := by
  apply shape.eq_of_not_apart member member'
  have ordered := shape.ordered r member
  have ordered' := shape.ordered r' member'
  unfold RangesApart
  omega

theorem apart_union (shape : Shape ranges lastVerifiedBatch) {r r1 r2 : Nat × Nat} (member : r ∈ ranges)
    (member1 : r1 ∈ ranges) (member2 : r2 ∈ ranges) (adjacent : r1.2 + 1 = r2.1) (other1 : r ≠ r1)
    (other2 : r ≠ r2) : RangesApart r (r1.1, r2.2) := by
  have apart1 : RangesApart r r1 := by_contra fun overlap => other1 (shape.eq_of_not_apart member member1 overlap)
  have apart2 : RangesApart r r2 := by_contra fun overlap => other2 (shape.eq_of_not_apart member member2 overlap)
  have ordered := shape.ordered r member
  have ordered1 := shape.ordered r1 member1
  unfold RangesApart at apart1 apart2 ⊢
  omega

theorem nodup (shape : Shape ranges lastVerifiedBatch) : ranges.Nodup := by
  apply shape.apart.imp_of_mem
  intro r r' member _ apart same
  have ordered := shape.ordered r member
  rw [← same] at apart
  unfold RangesApart at apart
  omega

end Shape

theorem eq_of_range_eq {proofs : List Proof} {lastVerifiedBatch : Nat}
    (shape : Shape (proofs.map Proof.range) lastVerifiedBatch) {p q : Proof} (member : p ∈ proofs)
    (member' : q ∈ proofs) (same : p.range = q.range) : p = q :=
  List.inj_on_of_nodup_map shape.nodup member member' same

/-- The row with the range is in the table and locked. -/
def Locked (proofs : List Proof) (range : Nat × Nat) : Prop :=
  ∃ p ∈ proofs, p.range = range ∧ p.generatingSince.isSome

section Locked

variable {proofs : List Proof} {r : Nat × Nat}

theorem Locked.mem (locked : Locked proofs r) : r ∈ proofs.map Proof.range := by
  obtain ⟨p, member, range, -⟩ := locked
  exact List.mem_map.mpr ⟨p, member, range⟩

theorem Locked.append (locked : Locked proofs r) (extra : List Proof) : Locked (proofs ++ extra) r := by
  obtain ⟨p, member, range, held⟩ := locked
  exact ⟨p, List.mem_append_left extra member, range, held⟩

theorem not_locked_of_unlocked {lastVerifiedBatch : Nat} (shape : Shape (proofs.map Proof.range) lastVerifiedBatch)
    {p : Proof} (member : p ∈ proofs) (unlocked : p.generatingSince = none) : ¬ Locked proofs p.range := by
  intro ⟨q, member', range, held⟩
  rw [eq_of_range_eq shape member' member range, unlocked] at held
  cases held

theorem locked_deleteProofsWhere {cond : Proof → Bool} (locked : Locked proofs r)
    (kept : ∀ p ∈ proofs, p.range = r → cond p = false) : Locked (deleteProofsWhere cond proofs) r := by
  obtain ⟨p, member, range, held⟩ := locked
  refine ⟨p, List.mem_filter.mpr ⟨member, ?_⟩, range, held⟩
  rw [kept p member range]
  rfl

theorem locked_deleteGeneratedProofs (locked : Locked proofs r) (ordered : r.1 ≤ r.2) {batchNumber batchNumberFinal : Nat}
    (apart : RangesApart r (batchNumber, batchNumberFinal)) :
    Locked (deleteGeneratedProofs proofs batchNumber batchNumberFinal) r := by
  apply locked_deleteProofsWhere locked
  intro p _ range
  rw [← range] at ordered apart
  simp only [RangesApart, Proof.range] at apart ordered
  simp only [Bool.and_eq_false_iff, decide_eq_false_iff_not, Nat.not_le]
  omega

theorem map_range_deleteProofsWhere_sublist (cond : Proof → Bool) (proofs : List Proof) :
    ((deleteProofsWhere cond proofs).map Proof.range).Sublist (proofs.map Proof.range) :=
  List.filter_sublist.map _

theorem mem_map_range_deleteProofsWhere {cond : Proof → Bool} (condition : Nat × Nat → Bool)
    (byRange : ∀ p, cond p = condition p.range) {range : Nat × Nat} :
    range ∈ (deleteProofsWhere cond proofs).map Proof.range ↔
      range ∈ proofs.map Proof.range ∧ condition range = false := by
  simp only [deleteProofsWhere, List.mem_map, List.mem_filter, Bool.not_eq_true', byRange]
  constructor
  · intro ⟨p, ⟨member, deleted⟩, same⟩
    exact ⟨⟨p, member, same⟩, same ▸ deleted⟩
  · intro ⟨⟨p, member, same⟩, deleted⟩
    exact ⟨p, ⟨member, same ▸ deleted⟩, same⟩

theorem map_range_updateGeneratedProof (proofs : List Proof) (proof : Proof) :
    (updateGeneratedProof proofs proof).map Proof.range = proofs.map Proof.range := by
  unfold updateGeneratedProof
  rw [List.map_map]
  apply List.map_congr_left
  intro p _
  simp only [Function.comp_apply]
  split <;> rfl

theorem locked_updateGeneratedProof_of_ne {proof : Proof} (other : r ≠ proof.range) :
    Locked (updateGeneratedProof proofs proof) r ↔ Locked proofs r := by
  unfold Locked updateGeneratedProof
  constructor
  · intro ⟨p, member, range, held⟩
    obtain ⟨q, member', rfl⟩ := List.mem_map.mp member
    by_cases same : q.range = proof.range
    · rw [if_pos same] at range
      exact absurd (range.symm.trans same) other
    · rw [if_neg same] at range held
      exact ⟨q, member', range, held⟩
  · intro ⟨q, member', range, held⟩
    have different : q.range ≠ proof.range := range ▸ other
    refine ⟨q, List.mem_map.mpr ⟨q, member', ?_⟩, range, held⟩
    rw [if_neg different]

theorem locked_updateGeneratedProof_self {proof : Proof} (present : proof.range ∈ proofs.map Proof.range)
    (lock : proof.generatingSince.isSome) : Locked (updateGeneratedProof proofs proof) proof.range := by
  obtain ⟨q, member, range⟩ := List.mem_map.mp present
  refine ⟨{ q with proof := proof.proof, generatingSince := proof.generatingSince },
    List.mem_map.mpr ⟨q, member, ?_⟩, range, lock⟩
  rw [if_pos range]

theorem locked_updateGeneratedProof_of_isSome {proof : Proof} (lock : proof.generatingSince.isSome)
    (locked : Locked proofs r) : Locked (updateGeneratedProof proofs proof) r := by
  by_cases same : r = proof.range
  · rw [same] at locked ⊢
    exact locked_updateGeneratedProof_self locked.mem lock
  · exact (locked_updateGeneratedProof_of_ne same).mpr locked

theorem addGeneratedProof_eq_some {proof : Proof} {proofs' : List Proof}
    (added : addGeneratedProof proofs proof = some proofs') : proofs' = proofs ++ [proof] := by
  unfold addGeneratedProof at added
  split at added
  · cases added
  · exact (Option.some_inj.mp added).symm

end Locked

section Queries

variable {db : StateDB}

theorem getVirtualBatchToProve_spec {lastVerfiedBatchNumber batchNumber : Nat}
    (found : getVirtualBatchToProve db lastVerfiedBatchNumber = some batchNumber) :
    lastVerfiedBatchNumber < batchNumber ∧
      ∀ p ∈ db.proofs, ¬ (p.batchNumber ≤ batchNumber ∧ batchNumber ≤ p.batchNumberFinal) := by
  have member := List.min?_mem found
  simp only [List.mem_filter, Bool.and_eq_true, decide_eq_true_eq, Bool.not_eq_true', List.any_eq_false,
    Bool.and_eq_true, decide_eq_true_eq] at member
  exact ⟨member.2.1, fun p inTable covers => member.2.2 p inTable covers⟩

theorem getProofsToAggregate_spec {proof1 proof2 : Proof}
    (found : getProofsToAggregate db = some (proof1, proof2)) :
    proof1 ∈ db.proofs ∧ proof2 ∈ db.proofs ∧ proof1.batchNumberFinal + 1 = proof2.batchNumber ∧
      proof1.generatingSince = none ∧ proof2.generatingSince = none := by
  have member := List.argmin_mem found
  simp only [List.mem_flatMap, List.mem_map, List.mem_filter, Prod.mk.injEq] at member
  obtain ⟨p1, inTable1, p2, ⟨inTable2, pair⟩, rfl, rfl⟩ := member
  simp only [aggregable, Bool.and_eq_true, decide_eq_true_eq, Option.isNone_iff_eq_none] at pair
  exact ⟨inTable1, inTable2, pair.1.1.1.1.1, pair.1.1.1.1.2, pair.1.1.1.2⟩

theorem getProofReadyToVerify_spec {lastVerfiedBatchNumber : Nat} {proof : Proof}
    (found : getProofReadyToVerify db lastVerfiedBatchNumber = some proof) :
    proof ∈ db.proofs ∧ proof.batchNumber = lastVerfiedBatchNumber + 1 ∧ proof.generatingSince = none := by
  have chosen := List.find?_some found
  simp only [Bool.and_eq_true, decide_eq_true_eq, Option.isNone_iff_eq_none] at chosen
  exact ⟨List.mem_of_find?_eq_some found, chosen.1.1, chosen.1.2⟩

theorem validateEligibleFinalProof_cases (db : StateDB) (proof : Proof) :
    (validateEligibleFinalProof db proof).2 =
        deleteGeneratedProofs db.proofs proof.batchNumber proof.batchNumberFinal ∧
      (validateEligibleFinalProof db proof).1 = false ∨
    (validateEligibleFinalProof db proof).2 = db.proofs ∧
      ((validateEligibleFinalProof db proof).1 = true → proof.batchNumber ≤ db.lastVerifiedBatch + 1) := by
  unfold validateEligibleFinalProof
  dsimp only
  split
  · split
    · exact .inr ⟨rfl, fun _ => by omega⟩
    · split
      · exact .inl ⟨rfl, rfl⟩
      · exact .inr ⟨rfl, fun never => nomatch never⟩
  · exact .inr ⟨rfl, fun _ => by omega⟩

theorem tryBuildFinalProof_rows (db : StateDB) (proof : Proof) (canVerify built : Bool) :
    (tryBuildFinalProof db proof canVerify built).2 = db.proofs ∨
      (tryBuildFinalProof db proof canVerify built).2 =
        deleteGeneratedProofs db.proofs proof.batchNumber proof.batchNumberFinal := by
  unfold tryBuildFinalProof
  split
  · dsimp only
    rcases validateEligibleFinalProof_cases db proof with ⟨deleted, -⟩ | ⟨kept, -⟩
    · split <;> exact .inr deleted
    · split <;> exact .inl kept
  · exact .inl rfl

theorem tryBuildFinalProof_sent {proof : Proof} {canVerify built : Bool}
    (sent : (tryBuildFinalProof db proof canVerify built).1 = true) :
    (tryBuildFinalProof db proof canVerify built).2 = db.proofs ∧
      proof.batchNumber ≤ db.lastVerifiedBatch + 1 := by
  unfold tryBuildFinalProof at sent ⊢
  by_cases can : canVerify = true
  · rw [if_pos can] at sent ⊢
    dsimp only at sent ⊢
    by_cases eligible : (validateEligibleFinalProof db proof).1 = true
    · rw [if_pos eligible]
      rcases validateEligibleFinalProof_cases db proof with ⟨-, refused⟩ | ⟨kept, below⟩
      · rw [refused] at eligible
        cases eligible
      · exact ⟨kept, below eligible⟩
    · rw [if_neg eligible] at sent
      cases sent
  · rw [if_neg can] at sent
    cases sent

end Queries

/-- The ranges of the rows a prover's loop holds. -/
def Phase.holds : Phase → List (Nat × Nat)
  | .idle => []
  | .provingBatch proof => [proof.range]
  | .aggregating proof1 proof2 => [proof1.range, proof2.range]
  | .storing proof => [proof.range]
  | .verifying proof => [proof.range]

section Provers

variable {provers : Nat → Phase} {i : Nat} {phase : Phase}

theorem forall_update {motive : Nat → Phase → Prop} (others : ∀ j, j ≠ i → motive j (provers j))
    (moved : motive i phase) : ∀ j, motive j (Function.update provers i phase j) := by
  intro j
  rw [Function.update_apply]
  split
  · rename_i same
    rw [same]
    exact moved
  · rename_i other
    exact others j other

theorem exclusive_update (exclusive : ∀ j k r, r ∈ (provers j).holds → r ∈ (provers k).holds → j = k)
    (fresh : ∀ j, j ≠ i → ∀ r ∈ phase.holds, r ∉ (provers j).holds) :
    ∀ j k r, r ∈ (Function.update provers i phase j).holds →
      r ∈ (Function.update provers i phase k).holds → j = k := by
  intro j k r member member'
  rw [Function.update_apply] at member member'
  by_cases atJ : j = i <;> by_cases atK : k = i
  · rw [atJ, atK]
  · rw [if_pos atJ] at member
    rw [if_neg atK] at member'
    exact absurd member' (fresh k atK r member)
  · rw [if_neg atJ] at member
    rw [if_pos atK] at member'
    exact absurd member (fresh j atJ r member')
  · rw [if_neg atJ] at member
    rw [if_neg atK] at member'
    exact exclusive j k r member member'

end Provers

/-- The invariant of the aggregator: the table has the shape; every row a
goroutine holds is in the table and locked, and no two goroutines hold one row;
the two rows an aggregation holds are adjacent; and a proof being verified, or
waiting for `sendFinalProof`, of which there is at most one, starts at the next
batch to verify. -/
structure World.Safe (s : World) : Prop where
  shape : Shape (s.state.proofs.map Proof.range) s.state.lastVerifiedBatch
  held : ∀ i r, r ∈ (s.provers i).holds → Locked s.state.proofs r
  exclusive : ∀ i j r, r ∈ (s.provers i).holds → r ∈ (s.provers j).holds → i = j
  adjacent : ∀ i proof1 proof2, s.provers i = .aggregating proof1 proof2 →
    proof1.batchNumberFinal + 1 = proof2.batchNumber
  verifying : ∀ i proof, s.provers i = .verifying proof → proof.batchNumber = s.state.lastVerifiedBatch + 1
  sent : ∀ proof ∈ s.finalProof, Locked s.state.proofs proof.range ∧
    proof.batchNumber = s.state.lastVerifiedBatch + 1 ∧ ∀ i, proof.range ∉ (s.provers i).holds
  single : s.finalProof.length ≤ 1

theorem start_safe {state : StateDB} (shape : Shape (state.proofs.map Proof.range) state.lastVerifiedBatch)
    (now : Nat) : (World.start state now).Safe where
  shape := shape.sublist (map_range_deleteProofsWhere_sublist _ _)
  held _ _ member := absurd member List.not_mem_nil
  exclusive _ _ _ member := absurd member List.not_mem_nil
  adjacent _ _ _ aggregating := nomatch aggregating
  verifying _ _ verifying := nomatch verifying
  sent _ member := absurd member List.not_mem_nil
  single := Nat.zero_le 1

namespace World.Safe

variable {s : World} (safe : s.Safe)
include safe

theorem locked_deleteOwn {held : Proof} (present : held.range ∈ s.state.proofs.map Proof.range)
    {r : Nat × Nat} (locked : Locked s.state.proofs r) (other : r ≠ held.range) :
    Locked (deleteGeneratedProofs s.state.proofs held.batchNumber held.batchNumberFinal) r :=
  locked_deleteGeneratedProofs locked (safe.shape.ordered r locked.mem)
    (by_contra fun overlap => other (safe.shape.eq_of_not_apart locked.mem present overlap))

theorem acquire (i : Nat) {proofs : List Proof} {phase : Phase}
    (shape : Shape (proofs.map Proof.range) s.state.lastVerifiedBatch)
    (keeps : ∀ r, Locked s.state.proofs r → r ∉ (s.provers i).holds → Locked proofs r)
    (locked : ∀ r ∈ phase.holds, Locked proofs r)
    (unheld : ∀ j, j ≠ i → ∀ r ∈ phase.holds, r ∉ (s.provers j).holds)
    (unsent : ∀ proof ∈ s.finalProof, proof.range ∉ phase.holds)
    (adjacent : ∀ proof1 proof2, phase = .aggregating proof1 proof2 →
      proof1.batchNumberFinal + 1 = proof2.batchNumber)
    (verifying : ∀ proof, phase = .verifying proof → proof.batchNumber = s.state.lastVerifiedBatch + 1) :
    ((s.setProofs proofs).setProver i phase).Safe where
  shape := shape
  held := forall_update (motive := fun _ phase => ∀ r ∈ phase.holds, Locked proofs r)
    (fun j other r member => keeps r (safe.held j r member) fun mine => other (safe.exclusive j i r member mine))
    locked
  exclusive := exclusive_update safe.exclusive unheld
  adjacent := forall_update (motive := fun j phase => ∀ proof1 proof2, phase = .aggregating proof1 proof2 →
      proof1.batchNumberFinal + 1 = proof2.batchNumber)
    (fun j _ => safe.adjacent j) adjacent
  verifying := forall_update (motive := fun j phase => ∀ proof, phase = .verifying proof →
      proof.batchNumber = s.state.lastVerifiedBatch + 1)
    (fun j _ => safe.verifying j) verifying
  sent proof member := by
    obtain ⟨wasLocked, next, free⟩ := safe.sent proof member
    refine ⟨keeps _ wasLocked (free i), next, ?_⟩
    exact forall_update (motive := fun _ phase => proof.range ∉ phase.holds) (fun j _ => free j)
      (unsent proof member)
  single := safe.single

theorem release (i : Nat) {proofs : List Proof}
    (sub : (proofs.map Proof.range).Sublist (s.state.proofs.map Proof.range))
    (keeps : ∀ r, Locked s.state.proofs r → r ∉ (s.provers i).holds → Locked proofs r) :
    ((s.setProofs proofs).setProver i .idle).Safe :=
  safe.acquire i (safe.shape.sublist sub) keeps (fun _ member => absurd member List.not_mem_nil)
    (fun _ _ _ member => absurd member List.not_mem_nil) (fun _ _ member => absurd member List.not_mem_nil)
    (fun _ _ idle => nomatch idle) (fun _ idle => nomatch idle)

theorem lockBatch {i batchNumber : Nat}
    (found : getVirtualBatchToProve s.state s.state.lastVerifiedBatch = some batchNumber) {proof : Proof}
    (range : proof.range = (batchNumber, batchNumber)) (lock : proof.generatingSince.isSome) :
    ((s.setProofs (s.state.proofs ++ [proof])).setProver i (.provingBatch proof)).Safe := by
  obtain ⟨above, uncovered⟩ := getVirtualBatchToProve_spec found
  have fresh : ∀ r ∈ s.state.proofs.map Proof.range, RangesApart r proof.range := by
    intro r member
    obtain ⟨p, inTable, rfl⟩ := List.mem_map.mp member
    have outside := uncovered p inTable
    rw [range]
    unfold RangesApart Proof.range
    omega
  have unheld : ∀ r, Locked s.state.proofs r → r ≠ proof.range := by
    intro r locked same
    have apart := fresh r locked.mem
    rw [same, range] at apart
    unfold RangesApart at apart
    omega
  have added : Locked (s.state.proofs ++ [proof]) proof.range :=
    ⟨proof, List.mem_append_right _ (List.mem_singleton_self _), rfl, lock⟩
  have shape : Shape ((s.state.proofs ++ [proof]).map Proof.range) s.state.lastVerifiedBatch := by
    simp only [List.map_append, List.map_cons, List.map_nil]
    exact safe.shape.append (by rw [range]) (by rw [range]; exact above) fresh
  apply safe.acquire i shape (fun r locked _ => locked.append _)
  · intro r member
    rw [List.mem_singleton.mp member]
    exact added
  · exact fun j _ r member mine => unheld r (safe.held j r mine) (List.mem_singleton.mp member)
  · exact fun m member mine => unheld _ (safe.sent m member).1 (List.mem_singleton.mp mine)
  · exact fun _ _ proving => nomatch proving
  · exact fun _ proving => nomatch proving

theorem lockAggregate {i : Nat} {proof1 proof2 : Proof}
    (found : getProofsToAggregate s.state = some (proof1, proof2)) {lock1 lock2 : Proof}
    (range1 : lock1.range = proof1.range) (range2 : lock2.range = proof2.range)
    (locking1 : lock1.generatingSince.isSome) (locking2 : lock2.generatingSince.isSome) :
    ((s.setProofs (updateGeneratedProof (updateGeneratedProof s.state.proofs lock1) lock2)).setProver i
      (.aggregating lock1 lock2)).Safe := by
  obtain ⟨member1, member2, adjacent, unlocked1, unlocked2⟩ := getProofsToAggregate_spec found
  have present1 : lock1.range ∈ s.state.proofs.map Proof.range := range1 ▸ List.mem_map_of_mem member1
  have present2 : lock2.range ∈ s.state.proofs.map Proof.range := range2 ▸ List.mem_map_of_mem member2
  have keeps : ∀ r, Locked s.state.proofs r →
      Locked (updateGeneratedProof (updateGeneratedProof s.state.proofs lock1) lock2) r := fun r locked =>
    locked_updateGeneratedProof_of_isSome locking2 (locked_updateGeneratedProof_of_isSome locking1 locked)
  have unheld : ∀ r, Locked s.state.proofs r → r ∉ [lock1.range, lock2.range] := by
    intro r locked member
    rcases List.mem_pair.mp member with same | same
    · rw [same, range1] at locked
      exact not_locked_of_unlocked safe.shape member1 unlocked1 locked
    · rw [same, range2] at locked
      exact not_locked_of_unlocked safe.shape member2 unlocked2 locked
  have shape : Shape ((updateGeneratedProof (updateGeneratedProof s.state.proofs lock1) lock2).map Proof.range)
      s.state.lastVerifiedBatch := by
    rw [map_range_updateGeneratedProof, map_range_updateGeneratedProof]
    exact safe.shape
  apply safe.acquire i shape (fun r locked _ => keeps r locked)
  · intro r member
    rcases List.mem_pair.mp member with rfl | rfl
    · exact locked_updateGeneratedProof_of_isSome locking2 (locked_updateGeneratedProof_self present1 locking1)
    · apply locked_updateGeneratedProof_self _ locking2
      rw [map_range_updateGeneratedProof]
      exact present2
  · exact fun j _ r member mine => unheld r (safe.held j r mine) member
  · exact fun m member => unheld _ (safe.sent m member).1
  · intro first second aggregating
    cases aggregating
    rw [show lock1.batchNumberFinal = proof1.batchNumberFinal from congrArg Prod.snd range1,
      show lock2.batchNumber = proof2.batchNumber from congrArg Prod.fst range2]
    exact adjacent
  · exact fun _ aggregating => nomatch aggregating

theorem lockVerify {i : Nat} {proof : Proof}
    (found : getProofReadyToVerify s.state s.state.lastVerifiedBatch = some proof) {lock : Proof}
    (range : lock.range = proof.range) (locking : lock.generatingSince.isSome) :
    ((s.setProofs (updateGeneratedProof s.state.proofs lock)).setProver i (.verifying lock)).Safe := by
  obtain ⟨member, next, unlocked⟩ := getProofReadyToVerify_spec found
  have present : lock.range ∈ s.state.proofs.map Proof.range := range ▸ List.mem_map_of_mem member
  have unheld : ∀ r, Locked s.state.proofs r → r ≠ lock.range := by
    intro r locked same
    rw [same, range] at locked
    exact not_locked_of_unlocked safe.shape member unlocked locked
  have shape : Shape ((updateGeneratedProof s.state.proofs lock).map Proof.range) s.state.lastVerifiedBatch := by
    rw [map_range_updateGeneratedProof]
    exact safe.shape
  apply safe.acquire i shape (fun r locked _ => locked_updateGeneratedProof_of_isSome locking locked)
  · intro r member
    rw [List.mem_singleton.mp member]
    exact locked_updateGeneratedProof_self present locking
  · exact fun j _ r member mine => unheld r (safe.held j r mine) (List.mem_singleton.mp member)
  · exact fun m member mine => unheld _ (safe.sent m member).1 (List.mem_singleton.mp mine)
  · exact fun _ _ verifying => nomatch verifying
  · intro locked verifying
    cases verifying
    rw [show lock.batchNumber = proof.batchNumber from congrArg Prod.fst range]
    exact next

theorem commitAggregate {i : Nat} {proof1 proof2 : Proof}
    (aggregating : s.provers i = .aggregating proof1 proof2) {proof : Proof}
    (range : proof.range = (proof1.batchNumber, proof2.batchNumberFinal)) (lock : proof.generatingSince.isSome) :
    ((s.setProofs (deleteGeneratedProofs s.state.proofs proof1.batchNumber proof2.batchNumberFinal ++ [proof])).setProver
      i (.storing proof)).Safe := by
  have holds : (s.provers i).holds = [proof1.range, proof2.range] := by rw [aggregating]; rfl
  have member1 := (safe.held i _ (by rw [holds]; exact List.mem_cons_self)).mem
  have member2 := (safe.held i _ (by rw [holds]; exact List.mem_cons_of_mem _ (List.mem_singleton_self _))).mem
  have adjacent := safe.adjacent i proof1 proof2 aggregating
  have ordered1 := safe.shape.ordered _ member1
  have ordered2 := safe.shape.ordered _ member2
  -- every other range of the table is apart from the aggregated one
  have others : ∀ r ∈ s.state.proofs.map Proof.range, r ∉ (s.provers i).holds → RangesApart r proof.range := by
    intro r member mine
    rw [holds] at mine
    rw [range]
    exact safe.shape.apart_union member member1 member2 adjacent (fun same => mine (same ▸ List.mem_cons_self))
      (fun same => mine (same ▸ List.mem_cons_of_mem _ (List.mem_singleton_self _)))
  have notSelf : ¬ RangesApart proof.range proof.range := by
    rw [range]
    unfold RangesApart
    simp only [Proof.range] at ordered1 ordered2
    omega
  have kept : ∀ r, Locked s.state.proofs r → r ∉ (s.provers i).holds →
      Locked (deleteGeneratedProofs s.state.proofs proof1.batchNumber proof2.batchNumberFinal ++ [proof]) r :=
    fun r locked mine => (locked_deleteGeneratedProofs locked (safe.shape.ordered r locked.mem)
      (range ▸ others r locked.mem mine)).append _
  have unheld : ∀ j, j ≠ i → ∀ r, r ∈ (s.provers j).holds → r ≠ proof.range := by
    intro j other r mine same
    have apart := others r (safe.held j r mine).mem fun held => other (safe.exclusive j i r mine held)
    rw [same] at apart
    exact notSelf apart
  have shape : Shape ((deleteGeneratedProofs s.state.proofs proof1.batchNumber proof2.batchNumberFinal ++
      [proof]).map Proof.range) s.state.lastVerifiedBatch := by
    simp only [List.map_append, List.map_cons, List.map_nil]
    apply (safe.shape.sublist (map_range_deleteProofsWhere_sublist _ _)).append
    · rw [range]
      simp only [Proof.range] at ordered1 ordered2
      omega
    · rw [range]
      exact safe.shape.unverified proof1.range member1
    · intro r member
      have ⟨inTable, outside⟩ := (mem_map_range_deleteProofsWhere
        (fun r => proof1.batchNumber ≤ r.1 && r.2 ≤ proof2.batchNumberFinal) (fun _ => rfl)).mp member
      apply others r inTable
      rw [holds]
      intro mine
      simp only [Bool.and_eq_false_iff, decide_eq_false_iff_not, Nat.not_le] at outside
      rcases List.mem_pair.mp mine with rfl | rfl
      · simp only [Proof.range] at outside ordered1 ordered2
        omega
      · simp only [Proof.range] at outside ordered1 ordered2
        omega
  apply safe.acquire i shape kept
  · intro r member
    rw [List.mem_singleton.mp member]
    exact ⟨proof, List.mem_append_right _ (List.mem_singleton_self _), rfl, lock⟩
  · exact fun j other r member mine => unheld j other r mine (List.mem_singleton.mp member)
  · intro m member mine
    have apart := others _ (safe.sent m member).1.mem ((safe.sent m member).2.2 i)
    rw [List.mem_singleton.mp mine] at apart
    exact notSelf apart
  · exact fun _ _ storing => nomatch storing
  · exact fun _ storing => nomatch storing

theorem dropBatch {i : Nat} {proof : Proof} (proving : s.provers i = .provingBatch proof) :
    ((s.setProofs (deleteGeneratedProofs s.state.proofs proof.batchNumber proof.batchNumberFinal)).setProver i
      .idle).Safe := by
  have holds : (s.provers i).holds = [proof.range] := by rw [proving]; rfl
  have present := (safe.held i proof.range (by rw [holds]; exact List.mem_singleton_self _)).mem
  apply safe.release i (map_range_deleteProofsWhere_sublist _ _)
  intro r locked mine
  rw [holds] at mine
  exact safe.locked_deleteOwn present locked fun same => mine (same ▸ List.mem_singleton_self _)

theorem unlockAggregate {i : Nat} {proof1 proof2 : Proof} (aggregating : s.provers i = .aggregating proof1 proof2) :
    (s.unlockProofsToAggregate i proof1 proof2).Safe := by
  have holds : (s.provers i).holds = [proof1.range, proof2.range] := by rw [aggregating]; rfl
  apply safe.release i
  · rw [map_range_updateGeneratedProof, map_range_updateGeneratedProof]
  · intro r locked mine
    rw [holds, List.mem_pair, not_or] at mine
    refine (locked_updateGeneratedProof_of_ne ?_).mpr ((locked_updateGeneratedProof_of_ne ?_).mpr locked)
    · exact mine.2
    · exact mine.1

theorem unlockVerify {i : Nat} {proof : Proof} (verifying : s.provers i = .verifying proof) :
    ((s.setProofs (updateGeneratedProof s.state.proofs { proof with generatingSince := none })).setProver i
      .idle).Safe := by
  have holds : (s.provers i).holds = [proof.range] := by rw [verifying]; rfl
  apply safe.release i
  · rw [map_range_updateGeneratedProof]
  · intro r locked mine
    rw [holds, List.mem_singleton] at mine
    refine (locked_updateGeneratedProof_of_ne ?_).mpr locked
    exact mine

theorem send {i : Nat} {proof : Proof} (holds : (s.provers i).holds = [proof.range])
    (next : proof.batchNumber = s.state.lastVerifiedBatch + 1) :
    { s.setProver i .idle with finalProof := s.finalProof ++ [proof] }.Safe := by
  have locked := safe.held i proof.range (by rw [holds]; exact List.mem_singleton_self _)
  have unheld : ∀ j, j ≠ i → proof.range ∉ (s.provers j).holds := fun j other mine =>
    other (safe.exclusive j i proof.range mine (by rw [holds]; exact List.mem_singleton_self _))
  -- a proof waiting already would start where this one starts, and be this one
  have empty : s.finalProof = [] := by
    cases queue : s.finalProof with
    | nil => rfl
    | cons waiting rest =>
      obtain ⟨locked', next', free⟩ := safe.sent waiting (by rw [queue]; exact List.mem_cons_self)
      have same := safe.shape.eq_of_start locked'.mem locked.mem (next'.trans next.symm)
      exact absurd (by rw [holds, same]; exact List.mem_singleton_self _) (free i)
  constructor
  · exact safe.shape
  · exact forall_update (motive := fun _ phase => ∀ r ∈ phase.holds, Locked s.state.proofs r)
      (fun j _ => safe.held j) (fun _ member => absurd member List.not_mem_nil)
  · exact exclusive_update safe.exclusive fun _ _ _ member => absurd member List.not_mem_nil
  · exact forall_update (motive := fun _ phase => ∀ proof1 proof2, phase = .aggregating proof1 proof2 →
        proof1.batchNumberFinal + 1 = proof2.batchNumber)
      (fun j _ => safe.adjacent j) (fun _ _ idle => nomatch idle)
  · exact forall_update (motive := fun _ phase => ∀ proof, phase = .verifying proof →
        proof.batchNumber = s.state.lastVerifiedBatch + 1)
      (fun j _ => safe.verifying j) (fun _ idle => nomatch idle)
  · intro m member
    rw [empty, List.nil_append, List.mem_singleton] at member
    rw [member]
    refine ⟨locked, next, ?_⟩
    exact forall_update (motive := fun _ phase => proof.range ∉ phase.holds) unheld
      (fun member => absurd member List.not_mem_nil)
  · show (s.finalProof ++ [proof]).length ≤ 1
    rw [empty]
    rfl

theorem finishProof {i : Nat} {held : Proof} (holds : (s.provers i).holds = [held.range]) {proof : Proof}
    (range : proof.range = held.range) (canVerify built : Bool) :
    (s.finishProof i proof canVerify built).Safe := by
  have present := (safe.held i held.range (by rw [holds]; exact List.mem_singleton_self _)).mem
  unfold World.finishProof
  dsimp only
  split
  · rename_i sent
    obtain ⟨kept, below⟩ := tryBuildFinalProof_sent sent
    rw [kept, setProofs_self]
    have above := safe.shape.unverified held.range present
    rw [← range] at above
    exact safe.send (range ▸ holds) (by simp only [Proof.range] at above; omega)
  · apply safe.release i
    · rw [map_range_updateGeneratedProof]
      rcases tryBuildFinalProof_rows s.state proof canVerify built with same | deleted
      · rw [same]
      · rw [deleted]
        exact map_range_deleteProofsWhere_sublist _ _
    · intro r locked mine
      rw [holds] at mine
      have other : r ≠ held.range := fun same => mine (same ▸ List.mem_singleton_self _)
      rw [locked_updateGeneratedProof_of_ne (range ▸ other)]
      rcases tryBuildFinalProof_rows s.state proof canVerify built with same | deleted
      · rw [same]
        exact locked
      · rw [deleted]
        exact safe.locked_deleteOwn (range ▸ present) locked (range ▸ other)

theorem dropFinal {proof : Proof} {rest : List Proof} (queue : s.finalProof = proof :: rest) :
    { s with finalProof := rest }.Safe where
  shape := safe.shape
  held := safe.held
  exclusive := safe.exclusive
  adjacent := safe.adjacent
  verifying := safe.verifying
  sent m member := safe.sent m (by rw [queue]; exact List.mem_cons_of_mem _ member)
  single := by
    have single := safe.single
    rw [queue, List.length_cons] at single
    show rest.length ≤ 1
    omega

theorem rest_eq_nil {proof : Proof} {rest : List Proof} (queue : s.finalProof = proof :: rest) : rest = [] := by
  have single := safe.single
  rw [queue, List.length_cons] at single
  exact List.eq_nil_of_length_eq_zero (by omega)

theorem unmonitored {proof : Proof} {rest : List Proof} (queue : s.finalProof = proof :: rest) :
    { s.setProofs (updateGeneratedProof s.state.proofs { proof with generatingSince := none }) with
      finalProof := rest }.Safe := by
  have free := (safe.sent proof (by rw [queue]; exact List.mem_cons_self)).2.2
  have empty := safe.rest_eq_nil queue
  constructor
  · show Shape ((updateGeneratedProof s.state.proofs _).map Proof.range) s.state.lastVerifiedBatch
    rw [map_range_updateGeneratedProof]
    exact safe.shape
  · intro j r mine
    show Locked (updateGeneratedProof s.state.proofs { proof with generatingSince := none }) r
    refine (locked_updateGeneratedProof_of_ne ?_).mpr (safe.held j r mine)
    exact fun same => free j (same ▸ mine)
  · exact safe.exclusive
  · exact safe.adjacent
  · exact safe.verifying
  · intro m member
    rw [show rest = [] from empty] at member
    exact absurd member List.not_mem_nil
  · show rest.length ≤ 1
    rw [empty]
    exact Nat.zero_le 1

theorem verified {proof : Proof} {rest : List Proof} (queue : s.finalProof = proof :: rest) :
    ({ s with
      state := { s.state with
        proofs := cleanupGeneratedProofs s.state.proofs proof.batchNumberFinal
        lastVerifiedBatch := proof.batchNumberFinal }
      finalProof := rest } : World).Safe := by
  obtain ⟨locked, next, free⟩ := safe.sent proof (by rw [queue]; exact List.mem_cons_self)
  have empty := safe.rest_eq_nil queue
  have present := locked.mem
  -- every other range of the table lies above the verified one
  have beyond : ∀ r ∈ s.state.proofs.map Proof.range, r ≠ proof.range → proof.batchNumberFinal < r.1 := by
    intro r member other
    have apart : RangesApart r proof.range :=
      by_contra fun overlap => other (safe.shape.eq_of_not_apart member present overlap)
    have ordered := safe.shape.ordered r member
    have above := safe.shape.unverified r member
    unfold RangesApart Proof.range at apart
    omega
  have remaining : ∀ r, r ∈ (cleanupGeneratedProofs s.state.proofs proof.batchNumberFinal).map Proof.range ↔
      r ∈ s.state.proofs.map Proof.range ∧ decide (r.2 ≤ proof.batchNumberFinal) = false :=
    fun r => mem_map_range_deleteProofsWhere (fun r => decide (r.2 ≤ proof.batchNumberFinal)) (fun _ => rfl)
  have kept : ∀ r, Locked s.state.proofs r → r ≠ proof.range →
      Locked (cleanupGeneratedProofs s.state.proofs proof.batchNumberFinal) r := by
    intro r locked' other
    apply locked_deleteProofsWhere locked'
    intro p _ range
    have ordered := safe.shape.ordered r locked'.mem
    have after := beyond r locked'.mem other
    rw [← range] at ordered after
    simp only [Proof.range] at ordered after
    simp only [decide_eq_false_iff_not, Nat.not_le]
    omega
  constructor
  · have sub := safe.shape.sublist (map_range_deleteProofsWhere_sublist
      (fun p => decide (p.batchNumberFinal ≤ proof.batchNumberFinal)) s.state.proofs)
    refine ⟨sub.apart, sub.ordered, fun r member => ?_⟩
    have ⟨inTable, after⟩ := (remaining r).mp member
    apply beyond r inTable
    intro same
    rw [same] at after
    simp [Proof.range] at after
  · intro j r mine
    exact kept r (safe.held j r mine) fun same => free j (same ▸ mine)
  · exact safe.exclusive
  · exact safe.adjacent
  · intro j verifying isVerifying
    -- a proof being verified would start where the verified one starts
    have held := safe.held j verifying.range (by rw [isVerifying]; exact List.mem_singleton_self _)
    have same := safe.shape.eq_of_start held.mem present ((safe.verifying j verifying isVerifying).trans next.symm)
    exact absurd (by rw [isVerifying, ← same]; exact List.mem_singleton_self _) (free j)
  · intro m member
    rw [show rest = [] from empty] at member
    exact absurd member List.not_mem_nil
  · show rest.length ≤ 1
    rw [empty]
    exact Nat.zero_le 1

theorem environment {s' : World} (state : s'.state.proofs = s.state.proofs)
    (lastVerified : s'.state.lastVerifiedBatch = s.state.lastVerifiedBatch) (provers : s'.provers = s.provers)
    (finalProof : s'.finalProof = s.finalProof) : s'.Safe where
  shape := by rw [state, lastVerified]; exact safe.shape
  held := by rw [state, provers]; exact safe.held
  exclusive := by rw [provers]; exact safe.exclusive
  adjacent := by rw [provers]; exact safe.adjacent
  verifying := by rw [provers, lastVerified]; exact safe.verifying
  sent := by rw [finalProof, state, lastVerified, provers]; exact safe.sent
  single := by rw [finalProof]; exact safe.single

end World.Safe

def Action.permitted : Action → Bool
  | .generateBatchProof _ isProfitable => isProfitable
  | .cleanupLockedProofs _ => false
  | _ => true

theorem World.Safe.step {s : World} (safe : s.Safe) {a : Action} (permitted : a.permitted = true) :
    ∃ s', s.step a = some s' ∧ s'.Safe := by
  cases a with
  | generateBatchProof i isProfitable =>
    simp only [World.step]
    split
    · rename_i batchNumber _ found
      have profitable : isProfitable = true := permitted
      rw [if_pos profitable]
      split
      · rename_i proofs added
        rw [addGeneratedProof_eq_some added]
        exact ⟨_, rfl, safe.lockBatch found rfl rfl⟩
      · exact ⟨s, rfl, safe⟩
    · exact ⟨s, rfl, safe⟩
  | batchProofFailed i =>
    simp only [World.step]
    split
    · rename_i proof proving
      exact ⟨_, rfl, safe.dropBatch proving⟩
    · exact ⟨s, rfl, safe⟩
  | batchProofGenerated i result canVerify built =>
    simp only [World.step]
    split
    · rename_i proof proving
      exact ⟨_, rfl, safe.finishProof (by rw [proving]; rfl) rfl canVerify built⟩
    · exact ⟨s, rfl, safe⟩
  | aggregateProofs i =>
    simp only [World.step]
    split
    · rename_i proof1 proof2 _ found
      exact ⟨_, rfl, safe.lockAggregate found rfl rfl rfl rfl⟩
    · exact ⟨s, rfl, safe⟩
  | aggregationFailed i =>
    simp only [World.step]
    split
    · rename_i proof1 proof2 aggregating
      exact ⟨_, rfl, safe.unlockAggregate aggregating⟩
    · exact ⟨s, rfl, safe⟩
  | aggregatedProofGenerated i result =>
    simp only [World.step]
    split
    · rename_i proof1 proof2 aggregating
      split
      · rename_i proofs added
        rw [addGeneratedProof_eq_some added]
        exact ⟨_, rfl, safe.commitAggregate aggregating rfl rfl⟩
      · exact ⟨_, rfl, safe.unlockAggregate aggregating⟩
    · exact ⟨s, rfl, safe⟩
  | aggregatedProofStored i canVerify built =>
    simp only [World.step]
    split
    · rename_i proof storing
      exact ⟨_, rfl, safe.finishProof (by rw [storing]; rfl) rfl canVerify built⟩
    · exact ⟨s, rfl, safe⟩
  | verifyProof i canVerify =>
    simp only [World.step]
    split
    · split
      · rename_i proof _ found
        exact ⟨_, rfl, safe.lockVerify found rfl rfl⟩
      · exact ⟨s, rfl, safe⟩
    · exact ⟨s, rfl, safe⟩
  | finalProofFailed i =>
    simp only [World.step]
    split
    · rename_i proof verifying
      exact ⟨_, rfl, safe.unlockVerify verifying⟩
    · exact ⟨s, rfl, safe⟩
  | finalProofBuilt i =>
    simp only [World.step]
    split
    · rename_i proof verifying
      exact ⟨_, rfl, safe.send (by rw [verifying]; rfl) (safe.verifying i proof verifying)⟩
    · exact ⟨s, rfl, safe⟩
  | finalBatchUnavailable =>
    simp only [World.step]
    split
    · rename_i proof rest queue
      exact ⟨_, rfl, safe.dropFinal queue⟩
    · exact ⟨s, rfl, safe⟩
  | verificationNotMonitored =>
    simp only [World.step]
    split
    · rename_i proof rest queue
      exact ⟨_, rfl, safe.unmonitored queue⟩
    · exact ⟨s, rfl, safe⟩
  | proofVerified =>
    simp only [World.step]
    split
    · rename_i proof rest queue
      exact ⟨_, rfl, safe.verified queue⟩
    · exact ⟨s, rfl, safe⟩
  | cleanupLockedProofs threshold => cases permitted
  | tick => exact ⟨_, rfl, safe.environment rfl rfl rfl rfl⟩
  | sequenceBatches batches sequence => exact ⟨_, rfl, safe.environment rfl rfl rfl rfl⟩

/-- In every run from `Start` on a table whose rows cover disjoint ranges above
the last verified batch, in which no lock expires under its holder and the
profitability checker accepts, no goroutine panics and the rows of
`state.proof` cover pairwise disjoint ranges of batches. -/
theorem proofs_apart (state : StateDB) (now : Nat)
    (initial : Shape (state.proofs.map Proof.range) state.lastVerifiedBatch) (actions : List Action)
    (permitted : ∀ a ∈ actions, a.permitted = true) :
    ∃ s, Machine.run World.step (World.start state now) actions = some s ∧
      s.state.proofs.Pairwise Proof.Apart := by
  obtain ⟨s, ran, safe⟩ := Machine.run_invariant (fun s a (safe : s.Safe) allowed => safe.step allowed)
    actions (World.start state now) (start_safe initial now) permitted
  have apart := List.pairwise_map.mp safe.shape.apart
  exact ⟨s, ran, apart⟩

def sampleState : StateDB := ⟨[], [1, 2, 3], [(1, 3)], 0⟩

def sampleRun : List Action :=
  [.generateBatchProof 0 true, .generateBatchProof 1 true, .generateBatchProof 2 true,
    .batchProofGenerated 0 "p1" false false, .batchProofGenerated 1 "p2" false false,
    .batchProofGenerated 2 "p3" false false,
    .aggregateProofs 0, .aggregatedProofGenerated 0 "p12", .aggregatedProofStored 0 false false,
    .aggregateProofs 1, .aggregatedProofGenerated 1 "p123", .aggregatedProofStored 1 true true,
    .proofVerified]

theorem proofs_apart_sample :
    ∃ s, Machine.run World.step (World.start sampleState 0) sampleRun = some s ∧
      s.state.proofs.Pairwise Proof.Apart :=
  proofs_apart sampleState 0 ⟨List.Pairwise.nil, nofun, nofun⟩ sampleRun (by decide)

/- The run ends with every batch verified and the table empty. -/
example : (Machine.run World.step (World.start sampleState 0) sampleRun).map
    (fun s => (s.state.proofs.length, s.state.lastVerifiedBatch)) = some (0, 3) := by
  decide

def overlapRun : List Action :=
  [.generateBatchProof 0 true, .generateBatchProof 1 true, .generateBatchProof 2 true,
    .batchProofGenerated 0 "p1" false false, .batchProofGenerated 1 "p2" false false,
    .batchProofGenerated 2 "p3" false false,
    .aggregateProofs 0, .tick, .tick, .cleanupLockedProofs 1,
    .generateBatchProof 1 true, .generateBatchProof 2 true, .batchProofGenerated 2 "q2" false false,
    .aggregateProofs 3, .aggregatedProofGenerated 3 "q23", .aggregatedProofGenerated 0 "p12"]

theorem proofs_overlap :
    ∃ s, Machine.run World.step (World.start sampleState 0) overlapRun = some s ∧
      ¬ s.state.proofs.Pairwise Proof.Apart :=
  ⟨_, rfl, by decide⟩

end ZkevmNode.Aggregator
