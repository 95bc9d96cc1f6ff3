import Keirin.Datetime
import Keirin.HostedRecovery
import Keirin.HostedWorker

/-!
# The inspector

`hosted_recovery.py`: the reading of a row and of its evidence after an interruption, the classification of what was read, and
the proposal made from two readings that agree.
-/

namespace Keirin

structure HostedRecoveryReport where
  taskId : String
  checkpointStatus : String
  revision : ℤ
  attemptCount : ℤ
  maxAttempts : ℤ
  leaseGeneration : ℤ
  leaseOwner : Option String
  leaseExpiresAt : Option String
  leaseExpired : Option Bool
  observationEvents : ℕ
  verificationEvents : ℕ
  latestObservationEventId : Option ℤ
  latestVerificationEventId : Option ℤ
  verified : Option Bool
  classification : String
  mayReconcileExpiredToBlocked : Bool
  reexecutionAllowed : Bool
deriving DecidableEq

structure HostedRecoveryProposal where
  taskId : String
  classification : String
  proposedAction : String
  expectedRevision : ℤ
  leaseGeneration : ℤ
  reason : String
  automaticExecutionAllowed : Bool
  blockedState : Option TaskState

namespace HostedInspector

open HostedQueue (builtin ok now)

/-! ## Evidence -/

/-- Raise an integrity error where `bad` holds. -/
def refuseIf (bad : Prop) [Decidable bad] (message : String) : Except HostedError Unit := raiseIf bad (.recoveryIntegrity message)

/-- `_parse_timestamp`, in microseconds. -/
def parseTimestamp (value : String) : Except HostedError ℤ :=
  match Datetime.fromisoformat (zuluOffset value) with
  | none => .error (.recoveryIntegrity "invalid_lease_expiry")
  | some t =>
    if t.utcoffset = none then .error (.recoveryIntegrity "lease_expiry_must_be_timezone_aware") else .ok t.epochMicros

/-- The types of the events that are evidence. -/
def EVIDENCE_TYPES : List String := ["github_observation", "github_verification"]

/-- An integer of a payload that is at least `minimum`. -/
def evidenceInt (v : Doc) (minimum : ℤ) (message : String) : Except HostedError ℤ :=
  match v with
  | .num (.int n) => if n < minimum then .error (.recoveryIntegrity message) else .ok n
  | _ => .error (.recoveryIntegrity message)

/-- The flag of a verification. -/
def verifiedFlag (evidence : Dict Doc) : Except HostedError Bool :=
  match Dict.getD evidence "verified" .null with
  | .bool b => .ok b
  | _ => .error (.recoveryIntegrity "verification_evidence_missing_boolean_result")

/-- The observations and the verifications of the current generation, each verification with its flag. -/
structure Evidence where
  observations : List HostedActivityEvent
  verifications : List (HostedActivityEvent × Bool)

/-- The body of the loop of `_current_generation_evidence`. -/
def addEvidence (lease : HostedQueueLease) (fingerprint : String) (found : Evidence) (event : HostedActivityEvent) :
    Except HostedError Evidence :=
  if event.eventType ∉ EVIDENCE_TYPES then .ok found
  else do
    let field := fun key => Dict.getD event.payload key .null
    refuseIf (field "spec_fingerprint" ≠ .str fingerprint) "evidence_spec_fingerprint_mismatch"
    let generation ← evidenceInt (field "lease_generation") 1 "invalid_evidence_lease_generation"
    refuseIf (lease.leaseGeneration < generation) "evidence_from_future_lease_generation"
    let revision ← evidenceInt (field "revision") 0 "invalid_evidence_revision"
    refuseIf (lease.revision < revision) "evidence_revision_ahead_of_checkpoint"
    match field "evidence" with
    | .obj evidence =>
      if generation ≠ lease.leaseGeneration then return found
      else if event.eventType = "github_observation" then return { found with observations := found.observations ++ [event] }
      else do
        let flag ← verifiedFlag evidence
        return { found with verifications := found.verifications ++ [(event, flag)] }
    | _ => throw (.recoveryIntegrity "evidence_payload_object_required")

/-- `_current_generation_evidence` -/
def currentGenerationEvidence (lease : HostedQueueLease) (events : List HostedActivityEvent) : Except HostedError Evidence := do
  let fingerprint ← builtin lease.spec.fingerprint
  events.foldlM (addEvidence lease fingerprint) { observations := [], verifications := [] }

/-! ## Classification -/

/-- What is said of a row: its class, whether an expired lease may be reconciled, and whether the task may be executed. -/
structure Verdict where
  classification : String
  mayReconcile : Bool
  reexecutionAllowed : Bool

/-- The class of a running row whose lease expired. -/
def expiredClass (evidence : Evidence) (verified : Option Bool) : String :=
  if verified = some true then "running_expired_with_verified_evidence"
  else if evidence.verifications ≠ [] then "running_expired_with_negative_verification"
  else if evidence.observations ≠ [] then "running_expired_with_observation_only"
  else "running_expired_without_provider_evidence"

/-- The class of a completed row. -/
def completedClass (evidence : Evidence) (verified : Option Bool) : String :=
  if verified = some true then "completed_verified_no_reexecution"
  else if evidence.verifications ≠ [] then "completed_with_negative_verification_integrity_review"
  else "completed_without_verification_evidence_review"

/-- The branches of `_inspect_snapshot` over the status of the row. -/
def classify (lease : HostedQueueLease) (evidence : Evidence) (leaseExpired verified : Option Bool) : Except HostedError Verdict :=
  if lease.status = "queued" then
    .ok { classification := if lease.attemptCount = 0 then "queued_unstarted" else "queued_with_prior_attempt_requires_review"
          mayReconcile := false
          reexecutionAllowed := lease.attemptCount = 0 && evidence.observations.isEmpty && evidence.verifications.isEmpty }
  else if lease.status = "running" then
    if leaseExpired = some false then
      .ok { classification := "running_active_do_not_touch", mayReconcile := false, reexecutionAllowed := false }
    else .ok { classification := expiredClass evidence verified, mayReconcile := true, reexecutionAllowed := false }
  else if lease.status = "completed" then
    .ok { classification := completedClass evidence verified, mayReconcile := false, reexecutionAllowed := false }
  else if lease.status = "blocked" then
    .ok { classification := "blocked_requires_explicit_reconciliation", mayReconcile := false, reexecutionAllowed := false }
  else if lease.status = "failed" then
    .ok { classification := "failed_requires_explicit_reconciliation", mayReconcile := false, reexecutionAllowed := false }
  else .error (.recoveryIntegrity "unsupported_checkpoint_status")

def reportOf (lease : HostedQueueLease) (evidence : Evidence) (leaseExpired verified : Option Bool) (v : Verdict) :
    HostedRecoveryReport :=
  { taskId := lease.taskId
    checkpointStatus := lease.status
    revision := lease.revision
    attemptCount := lease.attemptCount
    maxAttempts := lease.maxAttempts
    leaseGeneration := lease.leaseGeneration
    leaseOwner := lease.leaseOwner
    leaseExpiresAt := lease.leaseExpiresAt
    leaseExpired := leaseExpired
    observationEvents := evidence.observations.length
    verificationEvents := evidence.verifications.length
    latestObservationEventId := evidence.observations.getLast?.map HostedActivityEvent.eventId
    latestVerificationEventId := evidence.verifications.getLast?.map fun v => v.1.eventId
    verified := verified
    classification := v.classification
    mayReconcileExpiredToBlocked := v.mayReconcile
    reexecutionAllowed := v.reexecutionAllowed }

/-! ## Reading -/

section Inspector

variable (repr : Doc → String)

/-- An integrity error of the queue is one of the recovery. -/
def integrityOf : HostedError → HostedError
  | .queueIntegrity message => .recoveryIntegrity message
  | e => e

/-- Whether the lease of a running row expired. -/
def leaseExpiry (lease : HostedQueueLease) : ClientProg (Option Bool) :=
  if lease.status ≠ "running" then .ret none
  else match lease.leaseExpiresAt with
    | none => .raise (.recoveryIntegrity "running_checkpoint_missing_lease_expiry")
    | some expiresAt => .cmd .utcnow fun time =>
      match time with
      | none => .raise (.recoveryIntegrity "recovery_clock_must_be_timezone_aware")
      | some time => do
        let expires ← ok (parseTimestamp expiresAt)
        return some (expires ≤ time)

/-- The report on what was read. -/
def reportOn (lease : HostedQueueLease) (events : List HostedActivityEvent) : ClientProg HostedRecoveryReport := do
  let evidence ← ok (currentGenerationEvidence lease events)
  let verified := evidence.verifications.getLast?.map Prod.snd
  let leaseExpired ← leaseExpiry lease
  let verdict ← ok (classify lease evidence leaseExpired verified)
  return reportOf lease evidence leaseExpired verified verdict

/-- `_inspect_snapshot`; the ledger is read with at most `fuel` requests, and `none` stands for a reading that goes on. -/
def inspectSnapshot (fuel : ℕ) (spec : TaskSpec) : ClientProg (Option (HostedQueueLease × HostedRecoveryReport)) := do
  let spec ← ok (HostedQueue.detachedSpec repr spec)
  let lease ← (HostedQueue.inspect repr spec).mapError integrityOf
  match ← HostedWorker.ledger (HostedRecovery.allEvents repr spec.taskId fuel) with
  | none => return none
  | some events => do
    let report ← reportOn lease events
    return some (lease, report)

/-- `inspect` -/
def inspect (fuel : ℕ) (spec : TaskSpec) : ClientProg (Option HostedRecoveryReport) := do
  return (← inspectSnapshot repr fuel spec).map Prod.snd

/-! ## Proposals -/

/-- What `_snapshot_identity` compares. -/
structure SnapshotIdentity where
  taskId : String
  status : String
  revision : ℤ
  attemptCount : ℤ
  maxAttempts : ℤ
  leaseGeneration : ℤ
  leaseOwner : Option String
  leaseExpiresAt : Option String
  classification : String
  observationEvents : ℕ
  verificationEvents : ℕ
  latestObservationEventId : Option ℤ
  latestVerificationEventId : Option ℤ
  verified : Option Bool
deriving DecidableEq

/-- `_snapshot_identity` -/
def snapshotIdentity (lease : HostedQueueLease) (report : HostedRecoveryReport) : SnapshotIdentity :=
  { taskId := lease.taskId
    status := lease.status
    revision := lease.revision
    attemptCount := lease.attemptCount
    maxAttempts := lease.maxAttempts
    leaseGeneration := lease.leaseGeneration
    leaseOwner := lease.leaseOwner
    leaseExpiresAt := lease.leaseExpiresAt
    classification := report.classification
    observationEvents := report.observationEvents
    verificationEvents := report.verificationEvents
    latestObservationEventId := report.latestObservationEventId
    latestVerificationEventId := report.latestVerificationEventId
    verified := report.verified }

/-- The state a proposal to reconcile an expired lease holds. -/
def blockedState (time touched : String) (lease : HostedQueueLease) : Except HostedError TaskState := do
  let blocked ← HostedQueue.detachedState repr time lease.state
  return { blocked with
    status := .blocked
    blockedReason := .str "expired_lease_requires_reconciliation"
    lastError := Doc.orElse blocked.lastError (.str "hosted_run_interrupted_or_expired")
    updatedAt := touched }

/-- A proposal that holds no state. -/
def proposal (lease : HostedQueueLease) (report : HostedRecoveryReport) (action reason : String) : HostedRecoveryProposal :=
  { taskId := report.taskId
    classification := report.classification
    proposedAction := action
    expectedRevision := lease.revision
    leaseGeneration := lease.leaseGeneration
    reason := reason
    automaticExecutionAllowed := false
    blockedState := none }

/-- The proposals for a row whose lease is not to be reconciled. -/
def otherProposal (lease : HostedQueueLease) (report : HostedRecoveryReport) : HostedRecoveryProposal :=
  if report.classification = "queued_unstarted" then
    proposal lease report "eligible_for_first_execution"
      "no prior attempt or provider evidence was observed; separate execution authorization is still required"
  else if report.classification = "running_active_do_not_touch" then
    proposal lease report "do_not_touch" "active lease is still owned; do not reconcile or replay"
  else if report.checkpointStatus = "completed" then
    proposal lease report "no_reexecution" "completed checkpoint is not a retry signal regardless of evidence completeness"
  else if report.checkpointStatus ∈ ["blocked", "failed"] ∨ report.classification = "queued_with_prior_attempt_requires_review" then
    proposal lease report "manual_reconciliation_required"
      "durable prior-attempt state requires an explicit reconciliation decision"
  else proposal lease report "manual_review" "no automatic recovery action is permitted for this durable state"

/-- The proposal made from the second of two readings. -/
def proposalOf (lease : HostedQueueLease) (report : HostedRecoveryReport) : ClientProg HostedRecoveryProposal :=
  if report.mayReconcileExpiredToBlocked then do
    let time ← now
    let touched ← now
    let blocked ← ok (blockedState repr time touched lease)
    return { proposal lease report "reconcile_expired_to_blocked"
        "expired running lease must be converted to blocked before any later decision" with blockedState := some blocked }
  else return otherProposal lease report

/-- `propose` -/
def propose (fuel : ℕ) (spec : TaskSpec) : ClientProg (Option HostedRecoveryProposal) := do
  let some (firstLease, firstReport) ← inspectSnapshot repr fuel spec | return none
  let some (lease, report) ← inspectSnapshot repr fuel spec | return none
  ok (refuseIf (snapshotIdentity firstLease firstReport ≠ snapshotIdentity lease report) "recovery_snapshot_changed")
  return some (← proposalOf repr lease report)

end Inspector

end HostedInspector

end Keirin
