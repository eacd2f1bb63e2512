import ZkevmNode.Sequencer.DbManager
import ZkevmNode.Lib.Machine

set_option autoImplicit false

/-! The forced batches of the sequencer's finalizer (`sequencer/finalizer.go`).
The listener keeps the forced batches received from L1 in `nextForcedBatches`,
sorted by `SortForcedBatches`; `processForcedBatches` hands them to
`dbManager.ProcessForcedBatch` from the number after the last trusted one, each
under the next L2 batch number. The database manager's answers are an
environment, and the finalizer records the calls made to it. -/

namespace ZkevmNode.Sequencer

section Sorting

variable {H : Type}

/-- Round `i` of `SortForcedBatches`: `fb[i]` is compared with every later entry
and swapped with each one of lower number. The first component is what `fb[i]`
ends as, the second the later entries. -/
def sortRound (first : ForcedBatch H) : List (ForcedBatch H) → ForcedBatch H × List (ForcedBatch H)
  | [] => (first, [])
  | fb :: rest =>
    if first.forcedBatchNumber > fb.forcedBatchNumber then
      let (least, rest) := sortRound fb rest
      (least, first :: rest)
    else
      let (least, rest) := sortRound first rest
      (least, fb :: rest)

/-- The rounds of `SortForcedBatches` from entry `i` on. -/
def sortRounds : Nat → List (ForcedBatch H) → List (ForcedBatch H)
  | 0, fb => fb
  | _ + 1, [] => []
  | rounds + 1, first :: rest =>
    let (least, rest) := sortRound first rest
    least :: sortRounds rounds rest

/-- `SortForcedBatches`: rounds `0` to `len(fb) - 2`. -/
def sortForcedBatches (fb : List (ForcedBatch H)) : List (ForcedBatch H) :=
  sortRounds (fb.length - 1) fb

theorem sortRound_perm (first : ForcedBatch H) (rest : List (ForcedBatch H)) :
    List.Perm ((sortRound first rest).1 :: (sortRound first rest).2) (first :: rest) := by
  induction rest generalizing first with
  | nil => simp [sortRound]
  | cons fb rest ih =>
    by_cases lower : first.forcedBatchNumber > fb.forcedBatchNumber
    · simp only [sortRound, if_pos lower]
      exact (List.Perm.swap first _ _).trans ((ih fb).cons first)
    · simp only [sortRound, if_neg lower]
      exact ((List.Perm.swap fb _ _).trans ((ih first).cons fb)).trans (List.Perm.swap first fb rest)

theorem sortRound_least (first : ForcedBatch H) (rest : List (ForcedBatch H)) :
    (sortRound first rest).1.forcedBatchNumber ≤ first.forcedBatchNumber ∧
      ∀ fb ∈ rest, (sortRound first rest).1.forcedBatchNumber ≤ fb.forcedBatchNumber := by
  induction rest generalizing first with
  | nil => simp [sortRound]
  | cons fb rest ih =>
    by_cases lower : first.forcedBatchNumber > fb.forcedBatchNumber
    · simp only [sortRound, if_pos lower, List.forall_mem_cons]
      obtain ⟨least, below⟩ := ih fb
      exact ⟨by omega, least, below⟩
    · simp only [sortRound, if_neg lower, List.forall_mem_cons]
      obtain ⟨least, below⟩ := ih first
      exact ⟨least, by omega, below⟩

theorem sortRounds_sorted : ∀ (rounds : Nat) (fb : List (ForcedBatch H)), fb.length ≤ rounds + 1 →
    (sortRounds rounds fb).Pairwise (·.forcedBatchNumber ≤ ·.forcedBatchNumber) ∧
      List.Perm (sortRounds rounds fb) fb
  | 0, [], _ => by simp [sortRounds]
  | 0, [_], _ => by simp [sortRounds]
  | 0, _ :: _ :: _, short => by simp at short
  | _ + 1, [], _ => by simp [sortRounds]
  | rounds + 1, first :: rest, short => by
    have perm := sortRound_perm first rest
    have shorter : (sortRound first rest).2.length ≤ rounds + 1 := by
      have := perm.length_eq
      simp only [List.length_cons] at this short
      omega
    obtain ⟨sorted, permRest⟩ := sortRounds_sorted rounds _ shorter
    obtain ⟨leastFirst, leastRest⟩ := sortRound_least first rest
    refine ⟨List.pairwise_cons.mpr ⟨fun fb member => ?_, sorted⟩, (permRest.cons _).trans perm⟩
    have found := (permRest.cons (sortRound first rest).1).trans perm |>.subset (List.mem_cons_of_mem _ member)
    rcases List.mem_cons.mp found with rfl | inRest
    · exact leastFirst
    · exact leastRest fb inRest

theorem sortForcedBatches_sorted (fb : List (ForcedBatch H)) :
    (sortForcedBatches fb).Pairwise (·.forcedBatchNumber ≤ ·.forcedBatchNumber) ∧
      List.Perm (sortForcedBatches fb) fb :=
  sortRounds_sorted _ fb (by omega)

end Sorting

/-- The finalizer's fields that forced batches touch, and the calls of
`dbManager.ProcessForcedBatch` made so far. -/
structure Finalizer (H A : Type) where
  sequencerAddress : A
  lastGERHash : H
  nextForcedBatches : List (ForcedBatch H)
  nextForcedBatchDeadline : Nat
  forcedBatchCalls : List (Nat × ProcessRequest H A)

/-- The answers of the database manager to `processForcedBatches`. -/
structure ForcedBatchDb (ε H A Z : Type) where
  beginStateTransaction : Option ε
  getLastTrustedForcedBatchNumber : Except ε Nat
  processForcedBatch : Nat → ProcessRequest H A → Except ε (ProcessBatchResponse H Z)

/-- What `processForcedBatches` threads through `processForcedBatch`. -/
structure Progress (H A : Type) where
  lastBatchNumberInState : Nat
  stateRoot : H
  finalizer : Finalizer H A

namespace Finalizer

variable {ε H A Z : Type} (db : ForcedBatchDb ε H A Z)

/-- The listener's case for `ForcedBatchCh`; `deadline` is what
`setNextForcedBatchDeadline` computes from the clock. -/
def receiveForcedBatch (f : Finalizer H A) (fb : ForcedBatch H) (deadline : Nat) : Finalizer H A :=
  let f := { f with nextForcedBatches := sortForcedBatches (f.nextForcedBatches ++ [fb]) }
  if f.nextForcedBatchDeadline = 0 then { f with nextForcedBatchDeadline := deadline } else f

/-- The listener's loop on the forced batches it receives, each with the
deadline computed when it arrives. -/
def receiveForcedBatches (f : Finalizer H A) (received : List (ForcedBatch H × Nat)) : Finalizer H A :=
  received.foldl (fun f fb => f.receiveForcedBatch fb.1 fb.2) f

/-- `processForcedBatch`. -/
def processForcedBatch (progress : Progress H A) (forcedBatch : ForcedBatch H) : Option (Progress H A) :=
  let processRequest : ProcessRequest H A := ⟨progress.lastBatchNumberInState + 1, forcedBatch.globalExitRoot,
    progress.stateRoot, forcedBatch.rawTxsData, progress.finalizer.sequencerAddress⟩
  let f := { progress.finalizer with
    forcedBatchCalls := progress.finalizer.forcedBatchCalls ++ [(forcedBatch.forcedBatchNumber, processRequest)] }
  match db.processForcedBatch forcedBatch.forcedBatchNumber processRequest with
  -- the error is only logged; `ProcessForcedBatch` returns a nil response with
  -- every error, and `response.NewStateRoot` dereferences it
  | .error _ => none
  | .ok response =>
    some ⟨progress.lastBatchNumberInState + 1, response.newStateRoot,
      { f with lastGERHash := forcedBatch.globalExitRoot }⟩

/-- One entry of the loop over `nextForcedBatches`, with `nextForcedBatchNum`. -/
def processForcedBatchesStep (acc : Nat × Progress H A) (forcedBatch : ForcedBatch H) :
    Option (Nat × Progress H A) :=
  if forcedBatch.forcedBatchNumber < acc.1 then some acc
  else do
    -- `for forcedBatch.ForcedBatchNumber > nextForcedBatchNum` adds one to
    -- `nextForcedBatchNum` in every round, so it runs once for each number from
    -- `nextForcedBatchNum` below the forced batch's own, passing the forced
    -- batch itself every time
    let progress ← Machine.run (processForcedBatch db) acc.2
      (List.replicate (forcedBatch.forcedBatchNumber - acc.1) forcedBatch)
    let progress ← processForcedBatch db progress forcedBatch
    pure (forcedBatch.forcedBatchNumber + 1, progress)

/-- `processForcedBatches`. With an error, Go also returns zero for the batch
number and the state root. -/
def processForcedBatches (f : Finalizer H A) (lastBatchNumberInState : Nat) (stateRoot : H) :
    Option (Except ε (Nat × H) × Finalizer H A) :=
  let f := { f with nextForcedBatchDeadline := 0 }
  match db.beginStateTransaction with
  | some err => some (.error err, f)
  | none =>
  match db.getLastTrustedForcedBatchNumber with
  | .error err => some (.error err, f)
  | .ok lastTrustedForcedBatchNumber => do
    let (_, progress) ← Machine.run (processForcedBatchesStep db)
      (lastTrustedForcedBatchNumber + 1, ⟨lastBatchNumberInState, stateRoot, f⟩) f.nextForcedBatches
    pure (.ok (progress.lastBatchNumberInState, progress.stateRoot), { progress.finalizer with nextForcedBatches := [] })

end Finalizer

section Passed

variable {H : Type}

/-- The highest of `last` and the numbers of the forced batches `fb`. -/
def lastForcedBatchNumber (last : Nat) (fb : List (ForcedBatch H)) : Nat :=
  fb.foldl (fun top fb => max top fb.forcedBatchNumber) last

def passedAfter : Nat → List (ForcedBatch H) → List (ForcedBatch H)
  | _, [] => []
  | last, fb :: rest =>
    if fb.forcedBatchNumber ≤ last then passedAfter last rest
    else List.replicate (fb.forcedBatchNumber - last) fb ++ passedAfter fb.forcedBatchNumber rest

theorem lastForcedBatchNumber_perm (last : Nat) {fb fb' : List (ForcedBatch H)} (perm : List.Perm fb fb') :
    lastForcedBatchNumber last fb = lastForcedBatchNumber last fb' := by
  unfold lastForcedBatchNumber
  exact perm.foldl_eq' (fun _ _ _ _ _ => Nat.max_right_comm _ _ _) last

theorem lastForcedBatchNumber_cons (last : Nat) (fb : ForcedBatch H) (rest : List (ForcedBatch H)) :
    lastForcedBatchNumber last (fb :: rest) = lastForcedBatchNumber (max last fb.forcedBatchNumber) rest :=
  rfl

theorem le_lastForcedBatchNumber (last : Nat) (fb : List (ForcedBatch H)) :
    last ≤ lastForcedBatchNumber last fb := by
  induction fb generalizing last with
  | nil => exact Nat.le_refl last
  | cons fb rest ih => exact Nat.le_trans (Nat.le_max_left _ _) (ih _)

theorem le_lastForcedBatchNumber_of_mem (last : Nat) {fb : List (ForcedBatch H)} {g : ForcedBatch H}
    (member : g ∈ fb) : g.forcedBatchNumber ≤ lastForcedBatchNumber last fb := by
  induction fb generalizing last with
  | nil => simp at member
  | cons fb rest ih =>
    rw [lastForcedBatchNumber_cons]
    rcases List.mem_cons.mp member with rfl | inRest
    · exact Nat.le_trans (Nat.le_max_right _ _) (le_lastForcedBatchNumber _ rest)
    · exact ih _ inRest

theorem length_passedAfter (last : Nat) (fb : List (ForcedBatch H)) :
    (passedAfter last fb).length = lastForcedBatchNumber last fb - last := by
  induction fb generalizing last with
  | nil => simp [passedAfter, lastForcedBatchNumber]
  | cons fb rest ih =>
    by_cases old : fb.forcedBatchNumber ≤ last
    · rw [passedAfter, if_pos old, ih, lastForcedBatchNumber_cons, Nat.max_eq_left old]
    · have top := le_lastForcedBatchNumber fb.forcedBatchNumber rest
      rw [passedAfter, if_neg old, List.length_append, List.length_replicate, ih, lastForcedBatchNumber_cons,
        Nat.max_eq_right (by omega)]
      omega

theorem mem_passedAfter {last : Nat} {fb : List (ForcedBatch H)} {passed : ForcedBatch H}
    (member : passed ∈ passedAfter last fb) : passed ∈ fb := by
  induction fb generalizing last with
  | nil => simp [passedAfter] at member
  | cons fb rest ih =>
    unfold passedAfter at member
    split at member
    · exact List.mem_cons_of_mem _ (ih member)
    · rcases List.mem_append.mp member with repeated | later
      · exact List.mem_cons.mpr (.inl (List.eq_of_mem_replicate repeated))
      · exact List.mem_cons_of_mem _ (ih later)

theorem passedAfter_of_covered : ∀ (last : Nat) (fb : List (ForcedBatch H)),
    fb.Pairwise (·.forcedBatchNumber ≤ ·.forcedBatchNumber) →
    (∀ k, last < k → k ≤ lastForcedBatchNumber last fb → ∃ g ∈ fb, g.forcedBatchNumber = k) →
    (passedAfter last fb).map (·.forcedBatchNumber) =
      List.range' (last + 1) (lastForcedBatchNumber last fb - last)
  | last, [], _, _ => by simp [passedAfter, lastForcedBatchNumber]
  | last, fb :: rest, sorted, covered => by
    obtain ⟨first, sortedRest⟩ := List.pairwise_cons.mp sorted
    by_cases old : fb.forcedBatchNumber ≤ last
    · rw [passedAfter, if_pos old, lastForcedBatchNumber_cons, Nat.max_eq_left old]
      apply passedAfter_of_covered last rest sortedRest
      intro k above below
      rw [← Nat.max_eq_left old, ← lastForcedBatchNumber_cons] at below
      obtain ⟨g, member, numbered⟩ := covered k above below
      rcases List.mem_cons.mp member with rfl | inRest
      · omega
      · exact ⟨g, inRest, numbered⟩
    · have top := le_lastForcedBatchNumber fb.forcedBatchNumber rest
      have highest : lastForcedBatchNumber last (fb :: rest) = lastForcedBatchNumber fb.forcedBatchNumber rest := by
        rw [lastForcedBatchNumber_cons, Nat.max_eq_right (by omega)]
      -- `last + 1` has a forced batch, and none after `fb` has a lower number than `fb`
      have next : fb.forcedBatchNumber = last + 1 := by
        obtain ⟨g, member, numbered⟩ := covered (last + 1) (by omega) (by omega)
        rcases List.mem_cons.mp member with rfl | inRest
        · exact numbered
        · have := first g inRest
          omega
      have restCovered : ∀ k, fb.forcedBatchNumber < k → k ≤ lastForcedBatchNumber fb.forcedBatchNumber rest →
          ∃ g ∈ rest, g.forcedBatchNumber = k := by
        intro k above below
        obtain ⟨g, member, numbered⟩ := covered k (by omega) (by omega)
        rcases List.mem_cons.mp member with rfl | inRest
        · omega
        · exact ⟨g, inRest, numbered⟩
      obtain ⟨n, count⟩ : ∃ n, lastForcedBatchNumber fb.forcedBatchNumber rest - last = n + 1 :=
        ⟨lastForcedBatchNumber fb.forcedBatchNumber rest - last - 1, by omega⟩
      rw [passedAfter, if_neg old, highest, List.map_append,
        passedAfter_of_covered fb.forcedBatchNumber rest sortedRest restCovered, count, List.range'_succ, next]
      have rest_count : lastForcedBatchNumber (last + 1) rest - (last + 1) = n := by
        rw [← next]
        omega
      simp [rest_count, next]

end Passed

namespace Finalizer

variable {ε H A Z : Type} (db : ForcedBatchDb ε H A Z)

theorem processForcedBatch_eq_some (progress : Progress H A) (forcedBatch : ForcedBatch H)
    {response : ProcessBatchResponse H Z}
    (answered : db.processForcedBatch forcedBatch.forcedBatchNumber ⟨progress.lastBatchNumberInState + 1,
      forcedBatch.globalExitRoot, progress.stateRoot, forcedBatch.rawTxsData,
      progress.finalizer.sequencerAddress⟩ = .ok response) :
    processForcedBatch db progress forcedBatch = some ⟨progress.lastBatchNumberInState + 1, response.newStateRoot,
      { progress.finalizer with
        forcedBatchCalls := progress.finalizer.forcedBatchCalls ++ [(forcedBatch.forcedBatchNumber,
          ⟨progress.lastBatchNumberInState + 1, forcedBatch.globalExitRoot, progress.stateRoot,
            forcedBatch.rawTxsData, progress.finalizer.sequencerAddress⟩)]
        lastGERHash := forcedBatch.globalExitRoot }⟩ := by
  simp only [processForcedBatch, answered]

theorem processForcedBatchesStep_of_le {next : Nat} {progress : Progress H A} {fb : ForcedBatch H}
    (due : next ≤ fb.forcedBatchNumber) :
    processForcedBatchesStep db (next, progress) fb =
      ((Machine.run (processForcedBatch db) progress (List.replicate (fb.forcedBatchNumber - next) fb)).bind
        fun progress => processForcedBatch db progress fb).map fun progress => (fb.forcedBatchNumber + 1, progress) := by
  simp only [processForcedBatchesStep]
  rw [if_neg (Nat.not_lt.mpr due)]
  cases Machine.run (processForcedBatch db) progress (List.replicate (fb.forcedBatchNumber - next) fb) with
  | none => rfl
  | some progress =>
    show (processForcedBatch db progress fb).bind (fun progress => some (fb.forcedBatchNumber + 1, progress)) =
      (processForcedBatch db progress fb).map _
    cases processForcedBatch db progress fb <;> rfl

theorem run_processForcedBatchesStep (last : Nat) (fb : List (ForcedBatch H)) (progress : Progress H A) :
    Machine.run (processForcedBatchesStep db) (last + 1, progress) fb =
      (Machine.run (processForcedBatch db) progress (passedAfter last fb)).map
        fun progress => (lastForcedBatchNumber last fb + 1, progress) := by
  induction fb generalizing last progress with
  | nil => simp [passedAfter, lastForcedBatchNumber]
  | cons fb rest ih =>
    rw [Machine.run_cons]
    by_cases old : fb.forcedBatchNumber ≤ last
    · have skip : processForcedBatchesStep db (last + 1, progress) fb = some (last + 1, progress) := by
        simp only [processForcedBatchesStep, if_pos (Nat.lt_succ_of_le old)]
      rw [skip, Option.bind_some, ih, passedAfter, if_pos old, lastForcedBatchNumber_cons, Nat.max_eq_left old]
    · have repeated : List.replicate (fb.forcedBatchNumber - last) fb =
          List.replicate (fb.forcedBatchNumber - (last + 1)) fb ++ [fb] := by
        rw [← List.replicate_succ']
        congr 1
        omega
      rw [processForcedBatchesStep_of_le db (by omega), passedAfter, if_neg old, repeated, Machine.run_append,
        Machine.run_append, lastForcedBatchNumber_cons, Nat.max_eq_right (by omega)]
      cases Machine.run (processForcedBatch db) progress (List.replicate (fb.forcedBatchNumber - (last + 1)) fb) with
      | none => rfl
      | some progress =>
        simp only [Option.bind_some, Machine.run_cons, Machine.run_nil]
        cases processForcedBatch db progress fb with
        | none => rfl
        | some progress => exact ih _ _

theorem run_processForcedBatch_answered
    (answered : ∀ n request, ∃ response, db.processForcedBatch n request = .ok response)
    (fb : List (ForcedBatch H)) (progress : Progress H A) :
    ∃ progress', Machine.run (processForcedBatch db) progress fb = some progress' ∧
      progress'.lastBatchNumberInState = progress.lastBatchNumberInState + fb.length ∧
      ∃ newCalls, progress'.finalizer.forcedBatchCalls = progress.finalizer.forcedBatchCalls ++ newCalls ∧
        newCalls.map (fun call => (call.1, call.2.batchNumber)) =
          (fb.map (·.forcedBatchNumber)).zip (List.range' (progress.lastBatchNumberInState + 1) fb.length) := by
  induction fb generalizing progress with
  | nil => exact ⟨progress, rfl, rfl, [], by simp, by simp⟩
  | cons fb rest ih =>
    obtain ⟨response, ok⟩ := answered fb.forcedBatchNumber ⟨progress.lastBatchNumberInState + 1,
      fb.globalExitRoot, progress.stateRoot, fb.rawTxsData, progress.finalizer.sequencerAddress⟩
    obtain ⟨progress', ran, count, newCalls, calls, numbered⟩ := ih _
    refine ⟨progress', ?_, ?_, (fb.forcedBatchNumber, ⟨progress.lastBatchNumberInState + 1, fb.globalExitRoot,
      progress.stateRoot, fb.rawTxsData, progress.finalizer.sequencerAddress⟩) :: newCalls, ?_, ?_⟩
    · rw [Machine.run_cons, processForcedBatch_eq_some db progress fb ok, Option.bind_some, ran]
    · simp only [count, List.length_cons]
      omega
    · simp [calls]
    · simp only [List.map_cons, numbered, List.length_cons, List.range'_succ, List.zip_cons_cons]

theorem processForcedBatches_eq (f : Finalizer H A) (lastBatchNumberInState : Nat) (stateRoot : H)
    {lastTrusted : Nat} (began : db.beginStateTransaction = none)
    (trusted : db.getLastTrustedForcedBatchNumber = .ok lastTrusted) :
    processForcedBatches db f lastBatchNumberInState stateRoot =
      (Machine.run (processForcedBatch db) ⟨lastBatchNumberInState, stateRoot, { f with nextForcedBatchDeadline := 0 }⟩
        (passedAfter lastTrusted f.nextForcedBatches)).map fun progress =>
          (.ok (progress.lastBatchNumberInState, progress.stateRoot), { progress.finalizer with nextForcedBatches := [] }) := by
  simp only [processForcedBatches, began, trusted]
  rw [run_processForcedBatchesStep]
  cases Machine.run (processForcedBatch db) _ _ <;> rfl

/-- A failing database manager makes `processForcedBatches` panic as soon as
there is a forced batch to process. -/
theorem processForcedBatches_panics (f : Finalizer H A) (lastBatchNumberInState : Nat) (stateRoot : H)
    {lastTrusted : Nat} (began : db.beginStateTransaction = none)
    (trusted : db.getLastTrustedForcedBatchNumber = .ok lastTrusted)
    (failing : ∀ n request, ∃ err, db.processForcedBatch n request = .error err)
    (pending : ∃ fb ∈ f.nextForcedBatches, lastTrusted < fb.forcedBatchNumber) :
    processForcedBatches db f lastBatchNumberInState stateRoot = none := by
  have nonempty : passedAfter lastTrusted f.nextForcedBatches ≠ [] := by
    intro empty
    have count := length_passedAfter lastTrusted f.nextForcedBatches
    obtain ⟨fb, member, above⟩ := pending
    have bounded := le_lastForcedBatchNumber_of_mem lastTrusted member
    rw [empty] at count
    simp at count
    omega
  rw [processForcedBatches_eq db f lastBatchNumberInState stateRoot began trusted]
  obtain ⟨first, rest, split⟩ := List.exists_cons_of_ne_nil nonempty
  obtain ⟨err, fails⟩ := failing first.forcedBatchNumber ⟨lastBatchNumberInState + 1, first.globalExitRoot,
    stateRoot, first.rawTxsData, f.sequencerAddress⟩
  rw [split, Machine.run_cons]
  simp [processForcedBatch, fails]

theorem receiveForcedBatch_nextForcedBatches (f : Finalizer H A) (fb : ForcedBatch H) (deadline : Nat) :
    (f.receiveForcedBatch fb deadline).nextForcedBatches = sortForcedBatches (f.nextForcedBatches ++ [fb]) := by
  unfold receiveForcedBatch
  dsimp only
  split <;> rfl

theorem receiveForcedBatch_forcedBatchCalls (f : Finalizer H A) (fb : ForcedBatch H) (deadline : Nat) :
    (f.receiveForcedBatch fb deadline).forcedBatchCalls = f.forcedBatchCalls := by
  unfold receiveForcedBatch
  dsimp only
  split <;> rfl

theorem receiveForcedBatches_queue (received : List (ForcedBatch H × Nat)) :
    ∀ f : Finalizer H A, f.nextForcedBatches.Pairwise (·.forcedBatchNumber ≤ ·.forcedBatchNumber) →
      (f.receiveForcedBatches received).nextForcedBatches.Pairwise (·.forcedBatchNumber ≤ ·.forcedBatchNumber) ∧
      List.Perm (f.receiveForcedBatches received).nextForcedBatches (f.nextForcedBatches ++ received.map Prod.fst) ∧
      (f.receiveForcedBatches received).forcedBatchCalls = f.forcedBatchCalls := by
  induction received with
  | nil => intro f sorted; simp [receiveForcedBatches, sorted]
  | cons fb rest ih =>
    intro f _
    obtain ⟨sorted, perm⟩ := sortForcedBatches_sorted (f.nextForcedBatches ++ [fb.1])
    rw [← receiveForcedBatch_nextForcedBatches f fb.1 fb.2] at sorted perm
    obtain ⟨sortedAfter, permAfter, calls⟩ := ih (f.receiveForcedBatch fb.1 fb.2) sorted
    refine ⟨sortedAfter, ?_, ?_⟩
    · refine permAfter.trans ?_
      simpa using perm.append_right (rest.map Prod.fst)
    · rw [← receiveForcedBatch_forcedBatchCalls f fb.1 fb.2]
      exact calls

theorem processForcedBatches_answered (f : Finalizer H A) (lastBatchNumberInState : Nat) (stateRoot : H)
    {lastTrusted : Nat} (began : db.beginStateTransaction = none)
    (trusted : db.getLastTrustedForcedBatchNumber = .ok lastTrusted)
    (answered : ∀ n request, ∃ response, db.processForcedBatch n request = .ok response) :
    ∃ stateRoot' f' newCalls, processForcedBatches db f lastBatchNumberInState stateRoot =
        some (.ok (lastBatchNumberInState + (lastForcedBatchNumber lastTrusted f.nextForcedBatches - lastTrusted),
          stateRoot'), f') ∧
      f'.forcedBatchCalls = f.forcedBatchCalls ++ newCalls ∧
      newCalls.map (fun call => (call.1, call.2.batchNumber)) =
        ((passedAfter lastTrusted f.nextForcedBatches).map (·.forcedBatchNumber)).zip
          (List.range' (lastBatchNumberInState + 1)
            (lastForcedBatchNumber lastTrusted f.nextForcedBatches - lastTrusted)) := by
  obtain ⟨progress, ran, count, newCalls, calls, numbered⟩ := run_processForcedBatch_answered db answered
    (passedAfter lastTrusted f.nextForcedBatches) ⟨lastBatchNumberInState, stateRoot, { f with nextForcedBatchDeadline := 0 }⟩
  have length := length_passedAfter lastTrusted f.nextForcedBatches
  refine ⟨progress.stateRoot, { progress.finalizer with nextForcedBatches := [] }, newCalls, ?_, calls, ?_⟩
  · rw [processForcedBatches_eq db f lastBatchNumberInState stateRoot began trusted, ran, Option.map_some, count,
      length]
  · rw [numbered, length]

/-- A forced batch number between the last trusted one and the highest that
`nextForcedBatches` lacks is never processed, though `processForcedBatches`
still makes one call per number, under consecutive L2 batch numbers: every
call passes a forced batch of the list, so the numbers passed are not those
from the one after the last trusted to the highest. -/
theorem processForcedBatches_skips_missing (f : Finalizer H A) (lastBatchNumberInState : Nat) (stateRoot : H)
    (lastTrusted : Nat) (began : db.beginStateTransaction = none)
    (trusted : db.getLastTrustedForcedBatchNumber = .ok lastTrusted)
    (answered : ∀ n request, ∃ response, db.processForcedBatch n request = .ok response) (k : Nat)
    (above : lastTrusted < k) (below : k ≤ lastForcedBatchNumber lastTrusted f.nextForcedBatches)
    (missing : ∀ fb ∈ f.nextForcedBatches, fb.forcedBatchNumber ≠ k) :
    ∃ stateRoot' f' newCalls, processForcedBatches db f lastBatchNumberInState stateRoot =
        some (.ok (lastBatchNumberInState + (lastForcedBatchNumber lastTrusted f.nextForcedBatches - lastTrusted),
          stateRoot'), f') ∧
      f'.forcedBatchCalls = f.forcedBatchCalls ++ newCalls ∧
      newCalls.map (·.2.batchNumber) =
        List.range' (lastBatchNumberInState + 1) (lastForcedBatchNumber lastTrusted f.nextForcedBatches - lastTrusted) ∧
      k ∉ newCalls.map (·.1) ∧
      newCalls.map (·.1) ≠
        List.range' (lastTrusted + 1) (lastForcedBatchNumber lastTrusted f.nextForcedBatches - lastTrusted) := by
  obtain ⟨stateRoot', f', newCalls, processed, calls, numbered⟩ :=
    processForcedBatches_answered db f lastBatchNumberInState stateRoot began trusted answered
  have length : ((passedAfter lastTrusted f.nextForcedBatches).map (·.forcedBatchNumber)).length =
      lastForcedBatchNumber lastTrusted f.nextForcedBatches - lastTrusted := by
    rw [List.length_map, length_passedAfter]
  have notPassed : k ∉ newCalls.map (·.1) := by
    have forcedBatchNumbers := congrArg (List.map Prod.fst) numbered
    rw [List.map_map, List.map_fst_zip (by simp [length])] at forcedBatchNumbers
    intro member
    change k ∈ newCalls.map (Prod.fst ∘ fun call => (call.1, call.2.batchNumber)) at member
    rw [forcedBatchNumbers, List.mem_map] at member
    obtain ⟨passed, inPassed, numberedK⟩ := member
    exact missing passed (mem_passedAfter inPassed) numberedK
  refine ⟨stateRoot', f', newCalls, processed, calls, ?_, notPassed, ?_⟩
  · have batchNumbers := congrArg (List.map Prod.snd) numbered
    rwa [List.map_map, List.map_snd_zip (by simp [length])] at batchNumbers
  · intro inOrder
    have due : k ∈ List.range' (lastTrusted + 1)
        (lastForcedBatchNumber lastTrusted f.nextForcedBatches - lastTrusted) :=
      List.mem_range'_1.mpr ⟨by omega, by omega⟩
    rw [← inOrder] at due
    exact notPassed due

def answeringDb : ForcedBatchDb String Nat Nat Nat where
  beginStateTransaction := none
  getLastTrustedForcedBatchNumber := .ok 0
  processForcedBatch _ request := .ok ⟨request.batchNumber, 0, 0, 0, []⟩

def gapFinalizer : Finalizer Nat Nat := ⟨0, 0, [⟨2, 5, [0xc0]⟩], 0, []⟩

theorem processForcedBatches_skips_missing_sample :
    ∃ stateRoot' f' newCalls, processForcedBatches answeringDb gapFinalizer 10 0 =
        some (.ok (10 + (lastForcedBatchNumber 0 gapFinalizer.nextForcedBatches - 0), stateRoot'), f') ∧
      f'.forcedBatchCalls = gapFinalizer.forcedBatchCalls ++ newCalls ∧
      newCalls.map (·.2.batchNumber) =
        List.range' (10 + 1) (lastForcedBatchNumber 0 gapFinalizer.nextForcedBatches - 0) ∧
      1 ∉ newCalls.map (·.1) ∧
      newCalls.map (·.1) ≠ List.range' (0 + 1) (lastForcedBatchNumber 0 gapFinalizer.nextForcedBatches - 0) :=
  processForcedBatches_skips_missing answeringDb gapFinalizer 10 0 0 rfl rfl (fun _ _ => ⟨_, rfl⟩) 1
    (by decide) (by decide) (by decide)

/- Forced batch 2 is processed twice, under L2 batches 11 and 12. -/
example : (processForcedBatches answeringDb gapFinalizer 10 0).map
    (fun result => result.2.forcedBatchCalls.map fun call => (call.1, call.2.batchNumber)) =
      some [(2, 11), (2, 12)] := by
  decide

/-- From an empty queue, whatever order the listener receives forced batches
in, when every number from the one after the last trusted to the highest was
received, `processForcedBatches` processes each of them once, in order, under
consecutive L2 batch numbers, and returns the last of these. -/
theorem received_forced_batches_in_order (f : Finalizer H A) (received : List (ForcedBatch H × Nat))
    (empty : f.nextForcedBatches = []) (lastBatchNumberInState : Nat) (stateRoot : H) (lastTrusted : Nat)
    (began : db.beginStateTransaction = none) (trusted : db.getLastTrustedForcedBatchNumber = .ok lastTrusted)
    (answered : ∀ n request, ∃ response, db.processForcedBatch n request = .ok response)
    (covered : ∀ k, lastTrusted < k → k ≤ lastForcedBatchNumber lastTrusted (received.map Prod.fst) →
      ∃ fb ∈ received.map Prod.fst, fb.forcedBatchNumber = k) :
    ∃ stateRoot' f' newCalls,
      processForcedBatches db (f.receiveForcedBatches received) lastBatchNumberInState stateRoot =
        some (.ok (lastBatchNumberInState + (lastForcedBatchNumber lastTrusted (received.map Prod.fst) - lastTrusted),
          stateRoot'), f') ∧
      f'.forcedBatchCalls = f.forcedBatchCalls ++ newCalls ∧
      newCalls.map (fun call => (call.1, call.2.batchNumber)) =
        (List.range' (lastTrusted + 1) (lastForcedBatchNumber lastTrusted (received.map Prod.fst) - lastTrusted)).zip
          (List.range' (lastBatchNumberInState + 1)
            (lastForcedBatchNumber lastTrusted (received.map Prod.fst) - lastTrusted)) := by
  obtain ⟨sorted, perm, sameCalls⟩ := receiveForcedBatches_queue received f (by simp [empty])
  rw [empty, List.nil_append] at perm
  have highest := lastForcedBatchNumber_perm lastTrusted perm
  obtain ⟨stateRoot', f', newCalls, processed, calls, numbered⟩ :=
    processForcedBatches_answered db (f.receiveForcedBatches received) lastBatchNumberInState stateRoot began trusted
      answered
  have inOrder := passedAfter_of_covered lastTrusted _ sorted fun k above below => by
    rw [highest] at below
    obtain ⟨fb, member, numberedK⟩ := covered k above below
    exact ⟨fb, perm.mem_iff.mpr member, numberedK⟩
  refine ⟨stateRoot', f', newCalls, ?_, ?_, ?_⟩
  · rw [processed, highest]
  · rw [calls, sameCalls]
  · rw [numbered, inOrder, highest]

def idleFinalizer : Finalizer Nat Nat := ⟨0, 0, [], 0, []⟩

def receivedOutOfOrder : List (ForcedBatch Nat × Nat) := [(⟨2, 5, [0xc0]⟩, 100), (⟨1, 4, [0xc0]⟩, 101)]

theorem received_forced_batches_in_order_sample :
    ∃ stateRoot' f' newCalls,
      processForcedBatches answeringDb (idleFinalizer.receiveForcedBatches receivedOutOfOrder) 10 0 =
        some (.ok (10 + (lastForcedBatchNumber 0 (receivedOutOfOrder.map Prod.fst) - 0), stateRoot'), f') ∧
      f'.forcedBatchCalls = idleFinalizer.forcedBatchCalls ++ newCalls ∧
      newCalls.map (fun call => (call.1, call.2.batchNumber)) =
        (List.range' (0 + 1) (lastForcedBatchNumber 0 (receivedOutOfOrder.map Prod.fst) - 0)).zip
          (List.range' (10 + 1) (lastForcedBatchNumber 0 (receivedOutOfOrder.map Prod.fst) - 0)) :=
  received_forced_batches_in_order answeringDb idleFinalizer receivedOutOfOrder rfl 10 0 0 rfl rfl
    (fun _ _ => ⟨_, rfl⟩) (by
      intro k above below
      have bounded : k ≤ 2 := below
      obtain rfl | rfl : k = 1 ∨ k = 2 := by omega
      · decide
      · decide)

end Finalizer

end ZkevmNode.Sequencer
