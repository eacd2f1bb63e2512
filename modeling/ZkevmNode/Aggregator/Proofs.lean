import Mathlib.Data.List.MinMax
import ZkevmNode.Lib.Machine

set_option autoImplicit false

/-! `aggregator/aggregator.go` and the statements on `state.proof` of
`state/pgstatestorage.go`. Every prover connected to the aggregator runs the
loop of `Channel`, and the aggregator runs `cleanupLockedProofs` and
`sendFinalProof` in goroutines of their own. A step is one statement, or the
statements the code runs under `StateDBMutex` or in one database transaction;
the calls to a prover, which take long, lie between the steps of its loop, so
that any interleaving of the steps of all goroutines is a run. A row whose
`generating_since` is set is locked by the goroutine that set it. The last
verified batch moves only when a final proof this aggregator sent is verified. -/

namespace ZkevmNode.Aggregator

/-- A row of `state.proof`: the batches it covers, its recursive proof, and
since when a prover holds it. The columns that no statement here reads are left
out. -/
structure Proof where
  batchNumber : Nat
  batchNumberFinal : Nat
  proof : Option String
  generatingSince : Option Nat
  deriving DecidableEq, Repr

/-- The key of a row, `(batch_num, batch_num_final)`. -/
def Proof.range (p : Proof) : Nat × Nat := (p.batchNumber, p.batchNumberFinal)

/-- The tables of the state database the aggregator reads: the proofs, the
virtual batches, the sequences `(from_batch_num, to_batch_num)` and the last
verified batch. -/
structure StateDB where
  proofs : List Proof
  virtualBatches : List Nat
  sequences : List (Nat × Nat)
  lastVerifiedBatch : Nat
  deriving Repr

section Statements

/-- The rows a `DELETE FROM state.proof WHERE cond` leaves. -/
def deleteProofsWhere (cond : Proof → Bool) (proofs : List Proof) : List Proof :=
  proofs.filter fun p => !cond p

/-- `DeleteGeneratedProofs`: the rows that lie within the batches. -/
def deleteGeneratedProofs (proofs : List Proof) (batchNumber batchNumberFinal : Nat) : List Proof :=
  deleteProofsWhere (fun p => batchNumber ≤ p.batchNumber && p.batchNumberFinal ≤ batchNumberFinal) proofs

/-- `CleanupGeneratedProofs`. -/
def cleanupGeneratedProofs (proofs : List Proof) (batchNumber : Nat) : List Proof :=
  deleteProofsWhere (fun p => p.batchNumberFinal ≤ batchNumber) proofs

/-- `CleanupLockedProofs` at the moment `now`: `generating_since < NOW() -
interval`, an inequation of integers. -/
def cleanupLockedProofs (proofs : List Proof) (now threshold : Nat) : List Proof :=
  deleteProofsWhere (fun p => p.generatingSince.any fun since => since + threshold < now) proofs

/-- `DeleteUngeneratedProofs`. -/
def deleteUngeneratedProofs (proofs : List Proof) : List Proof :=
  deleteProofsWhere (fun p => p.generatingSince.isSome) proofs

/-- `AddGeneratedProof`, or `none` when a row has the key and the insert
fails. -/
def addGeneratedProof (proofs : List Proof) (proof : Proof) : Option (List Proof) :=
  if proofs.any fun p => p.range = proof.range then none else some (proofs ++ [proof])

/-- `UpdateGeneratedProof`: the row with the key of `proof` takes its proof and
its `generating_since`. -/
def updateGeneratedProof (proofs : List Proof) (proof : Proof) : List Proof :=
  proofs.map fun p =>
    if p.range = proof.range then { p with proof := proof.proof, generatingSince := proof.generatingSince }
    else p

/-- `CheckProofContainsCompleteSequences`: a sequence starts where the proof
starts and one ends where it ends. -/
def checkProofContainsCompleteSequences (db : StateDB) (proof : Proof) : Bool :=
  db.sequences.any (fun s => s.1 = proof.batchNumber) &&
    db.sequences.any fun s => s.2 = proof.batchNumberFinal

/-- `GetVirtualBatchToProve`: the lowest virtual batch above the last verified
one that no row covers. -/
def getVirtualBatchToProve (db : StateDB) (lastVerfiedBatchNumber : Nat) : Option Nat :=
  (db.virtualBatches.filter fun b =>
    lastVerfiedBatchNumber < b && !db.proofs.any fun p => p.batchNumber ≤ b && b ≤ p.batchNumberFinal).min?

/-- Whether a sequence holds the first and the last batch of a proof. -/
def Proof.inSequence (p : Proof) (s : Nat × Nat) : Bool :=
  s.1 ≤ p.batchNumber && p.batchNumber ≤ s.2 && s.1 ≤ p.batchNumberFinal && p.batchNumberFinal ≤ s.2

/-- The condition of `GetProofsToAggregate` on a pair of rows;
`p1.batch_num_final = p2.batch_num - 1` is an equation of integers. -/
def aggregable (db : StateDB) (proof1 proof2 : Proof) : Bool :=
  proof1.batchNumberFinal + 1 = proof2.batchNumber &&
    proof1.generatingSince.isNone && proof2.generatingSince.isNone &&
    proof1.proof.isSome && proof2.proof.isSome &&
    (db.sequences.any (fun s => proof1.inSequence s && proof2.inSequence s) ||
      checkProofContainsCompleteSequences db proof1 && checkProofContainsCompleteSequences db proof2)

/-- `GetProofsToAggregate`: of the pairs of rows it may aggregate, one whose
first row starts lowest. -/
def getProofsToAggregate (db : StateDB) : Option (Proof × Proof) :=
  (db.proofs.flatMap fun proof1 => (db.proofs.filter (aggregable db proof1)).map fun proof2 =>
    (proof1, proof2)).argmin fun pair => pair.1.batchNumber

/-- `GetProofReadyToVerify`. -/
def getProofReadyToVerify (db : StateDB) (lastVerfiedBatchNumber : Nat) : Option Proof :=
  db.proofs.find? fun p =>
    p.batchNumber = lastVerfiedBatchNumber + 1 && p.generatingSince.isNone &&
      checkProofContainsCompleteSequences db p

end Statements

/-- Where the loop of a prover stands between two steps, with what the code
keeps of the rows it holds. -/
inductive Phase where
  | idle
  /-- In `tryGenerateBatchProof`, waiting for the batch proof. -/
  | provingBatch (proof : Proof)
  /-- In `tryAggregateProofs`, waiting for the aggregated proof. -/
  | aggregating (proof1 proof2 : Proof)
  /-- In `tryAggregateProofs`, the aggregated proof stored and still locked. -/
  | storing (proof : Proof)
  /-- In `tryBuildFinalProof`, a proof ready to verify locked, waiting for the
  final proof. -/
  | verifying (proof : Proof)
  deriving DecidableEq, Repr

/-- The aggregator with its provers and its database: the state database, the
clock, the loops of the provers, and the recursive proofs sent on the channel
`finalProof` that `sendFinalProof` has not handled yet. -/
structure World where
  state : StateDB
  now : Nat
  provers : Nat → Phase
  finalProof : List Proof

/-- The steps of the goroutines and of the world around them. -/
inductive Action where
  /-- `getAndLockBatchToProve`, with the answer of the profitability checker. -/
  | generateBatchProof (prover : Nat) (isProfitable : Bool)
  /-- The input or the prover failed: the deferred `DeleteGeneratedProofs`. -/
  | batchProofFailed (prover : Nat)
  /-- The prover returned the batch proof: the rest of `tryGenerateBatchProof`. -/
  | batchProofGenerated (prover : Nat) (proof : String) (canVerify built : Bool)
  /-- `getAndLockProofsToAggregate`. -/
  | aggregateProofs (prover : Nat)
  /-- The prover failed: the deferred `unlockProofsToAggregate`. -/
  | aggregationFailed (prover : Nat)
  /-- The prover returned the aggregated proof: the transaction that puts it in
  place of the rows it aggregates. -/
  | aggregatedProofGenerated (prover : Nat) (proof : String)
  /-- The rest of `tryAggregateProofs`. -/
  | aggregatedProofStored (prover : Nat) (canVerify built : Bool)
  /-- `tryBuildFinalProof` without a proof, up to `getAndLockProofReadyToVerify`. -/
  | verifyProof (prover : Nat) (canVerify : Bool)
  /-- `buildFinalProof` failed: the deferred unlock. -/
  | finalProofFailed (prover : Nat)
  /-- The final proof built and sent to `sendFinalProof`. -/
  | finalProofBuilt (prover : Nat)
  /-- `sendFinalProof` could not read the final batch. -/
  | finalBatchUnavailable
  /-- `handleFailureToAddVerifyBatchToBeMonitored`. -/
  | verificationNotMonitored
  /-- The verification mined and synchronized: `handleMonitoredTxResult`. -/
  | proofVerified
  /-- `cleanupLockedProofs`, with `GeneratingProofCleanupThreshold`. -/
  | cleanupLockedProofs (threshold : Nat)
  /-- Time passes. -/
  | tick
  /-- The synchronizer stores virtual batches and a sequence. -/
  | sequenceBatches (batches : List Nat) (sequence : Nat × Nat)

/-- `validateEligibleFinalProof`: whether the proof can be verified next, and
the rows after it, a proof wholly below the next batch to verify being
deleted. -/
def validateEligibleFinalProof (db : StateDB) (proof : Proof) : Bool × List Proof :=
  let batchNumberToVerify := db.lastVerifiedBatch + 1
  if proof.batchNumber ≠ batchNumberToVerify then
    if proof.batchNumber < batchNumberToVerify ∧ proof.batchNumberFinal ≥ batchNumberToVerify then
      (checkProofContainsCompleteSequences db proof, db.proofs)
    else if proof.batchNumberFinal < batchNumberToVerify then
      (false, deleteGeneratedProofs db.proofs proof.batchNumber proof.batchNumberFinal)
    else (false, db.proofs)
  else (checkProofContainsCompleteSequences db proof, db.proofs)

/-- `tryBuildFinalProof` with the proof just generated: whether the final proof
was built and sent, and the rows. `canVerify` is what `canVerifyProof` answers
and `built` whether the prover built the final proof. -/
def tryBuildFinalProof (db : StateDB) (proof : Proof) (canVerify built : Bool) : Bool × List Proof :=
  if canVerify then
    let eligible := validateEligibleFinalProof db proof
    if eligible.1 then (built, eligible.2) else (false, eligible.2)
  else (false, db.proofs)

namespace World

/-- The aggregator after `Start`, which deletes the rows left locked, with no
prover busy. -/
def start (state : StateDB) (now : Nat) : World :=
  ⟨{ state with proofs := deleteUngeneratedProofs state.proofs }, now, fun _ => .idle, []⟩

def setProofs (s : World) (proofs : List Proof) : World :=
  { s with state := { s.state with proofs := proofs } }

def setProver (s : World) (prover : Nat) (phase : Phase) : World :=
  { s with provers := Function.update s.provers prover phase }

theorem setProofs_self (s : World) : s.setProofs s.state.proofs = s := rfl

/-- `unlockProofsToAggregate`, and the prover's loop goes on. -/
def unlockProofsToAggregate (s : World) (prover : Nat) (proof1 proof2 : Proof) : World :=
  (s.setProofs (updateGeneratedProof (updateGeneratedProof s.state.proofs
    { proof1 with generatingSince := none }) { proof2 with generatingSince := none })).setProver prover .idle

/-- The end of `tryGenerateBatchProof` and of `tryAggregateProofs`: the proof
goes to `sendFinalProof` if it became the final one, and is stored unlocked
otherwise. -/
def finishProof (s : World) (prover : Nat) (proof : Proof) (canVerify built : Bool) : World :=
  let tried := tryBuildFinalProof s.state proof canVerify built
  if tried.1 then { (s.setProofs tried.2).setProver prover .idle with finalProof := s.finalProof ++ [proof] }
  else (s.setProofs (updateGeneratedProof tried.2 { proof with generatingSince := none })).setProver prover .idle

/-- One step, or `none` when the goroutine panics. A step of a prover whose loop
is not where the step starts changes nothing. A prover's loop tries a final
proof, then an aggregation, then a batch proof; since each of the first two may
fail on the database, the model lets a prover start any of them. -/
def step (s : World) : Action → Option World
  | .generateBatchProof prover isProfitable =>
    match s.provers prover, getVirtualBatchToProve s.state s.state.lastVerifiedBatch with
    | .idle, some batchNumber =>
      -- an unprofitable batch makes `getAndLockBatchToProve` return no batch and
      -- no error, and `tryGenerateBatchProof` reads the number of the missing batch
      if isProfitable then
        let proof : Proof := ⟨batchNumber, batchNumber, none, some s.now⟩
        match addGeneratedProof s.state.proofs proof with
        | some proofs => some ((s.setProofs proofs).setProver prover (.provingBatch proof))
        | none => some s
      else none
    | _, _ => some s
  | .batchProofFailed prover =>
    match s.provers prover with
    | .provingBatch proof =>
      some ((s.setProofs (deleteGeneratedProofs s.state.proofs proof.batchNumber
        proof.batchNumberFinal)).setProver prover .idle)
    | _ => some s
  | .batchProofGenerated prover result canVerify built =>
    match s.provers prover with
    | .provingBatch proof => some (s.finishProof prover { proof with proof := some result } canVerify built)
    | _ => some s
  | .aggregateProofs prover =>
    match s.provers prover, getProofsToAggregate s.state with
    | .idle, some (proof1, proof2) =>
      let proof1 := { proof1 with generatingSince := some s.now }
      let proof2 := { proof2 with generatingSince := some s.now }
      some ((s.setProofs (updateGeneratedProof (updateGeneratedProof s.state.proofs proof1) proof2)).setProver
        prover (.aggregating proof1 proof2))
    | _, _ => some s
  | .aggregationFailed prover =>
    match s.provers prover with
    | .aggregating proof1 proof2 => some (s.unlockProofsToAggregate prover proof1 proof2)
    | _ => some s
  | .aggregatedProofGenerated prover result =>
    match s.provers prover with
    | .aggregating proof1 proof2 =>
      let proof : Proof := ⟨proof1.batchNumber, proof2.batchNumberFinal, some result, some s.now⟩
      match addGeneratedProof (deleteGeneratedProofs s.state.proofs proof1.batchNumber
          proof2.batchNumberFinal) proof with
      | some proofs => some ((s.setProofs proofs).setProver prover (.storing proof))
      -- the transaction rolls back and the deferred function unlocks both rows
      | none => some (s.unlockProofsToAggregate prover proof1 proof2)
    | _ => some s
  | .aggregatedProofStored prover canVerify built =>
    match s.provers prover with
    | .storing proof => some (s.finishProof prover proof canVerify built)
    | _ => some s
  | .verifyProof prover canVerify =>
    if canVerify then
      match s.provers prover, getProofReadyToVerify s.state s.state.lastVerifiedBatch with
      | .idle, some proof =>
        let proof := { proof with generatingSince := some s.now }
        some ((s.setProofs (updateGeneratedProof s.state.proofs proof)).setProver prover (.verifying proof))
      | _, _ => some s
    else some s
  | .finalProofFailed prover =>
    match s.provers prover with
    | .verifying proof =>
      some ((s.setProofs (updateGeneratedProof s.state.proofs { proof with generatingSince := none })).setProver
        prover .idle)
    | _ => some s
  | .finalProofBuilt prover =>
    match s.provers prover with
    | .verifying proof => some ({ s with finalProof := s.finalProof ++ [proof] }.setProver prover .idle)
    | _ => some s
  | .finalBatchUnavailable =>
    match s.finalProof with
    | _ :: rest => some { s with finalProof := rest }
    | [] => some s
  | .verificationNotMonitored =>
    match s.finalProof with
    | proof :: rest =>
      some { s.setProofs (updateGeneratedProof s.state.proofs { proof with generatingSince := none }) with
        finalProof := rest }
    | [] => some s
  | .proofVerified =>
    match s.finalProof with
    | proof :: rest =>
      some { s with
        state := { s.state with
          proofs := cleanupGeneratedProofs s.state.proofs proof.batchNumberFinal
          lastVerifiedBatch := proof.batchNumberFinal }
        finalProof := rest }
    | [] => some s
  | .cleanupLockedProofs threshold => some (s.setProofs (cleanupLockedProofs s.state.proofs s.now threshold))
  | .tick => some { s with now := s.now + 1 }
  | .sequenceBatches batches sequence =>
    some { s with
      state := { s.state with
        virtualBatches := s.state.virtualBatches ++ batches
        sequences := s.state.sequences ++ [sequence] } }

end World

end ZkevmNode.Aggregator
