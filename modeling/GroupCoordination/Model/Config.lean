import GroupCoordination.Model.Types

/-!
# Coordinator configuration

`config.go`: the tuneable parameters, their two stock values, and the check
`NewCoordinator` makes before it builds anything. Durations are nanoseconds.
-/

namespace GroupCoordination

inductive MLSRetentionMode
  | strictSecurity
  | balanced
  | highAvailability
  | other (name : String)
  deriving DecidableEq

structure CoordinatorConfig where
  tokenHolderTimeout : Int
  heartbeatInterval : Int
  announceInterval : Int
  peerDeadAfter : Int
  maxBatchedProposals : Int
  keyRotationInterval : Int
  replayThrottleMs : Int
  offlineSyncEnabled : Bool
  envelopeLogTTL : Int
  envelopeLogMaxPerGroup : Int
  batchingDelay : Int
  viewBootstrapGrace : Int
  mlsOperationTimeout : Int
  applicationAckTimeout : Int
  applicationDirectRetryLimit : Int
  retentionMode : MLSRetentionMode
  maxPastEpochsOverride : Nat := 0
  deriving DecidableEq

namespace CoordinatorConfig

def getMaxPastEpochs (c : CoordinatorConfig) : Nat :=
  if c.maxPastEpochsOverride > 0 then c.maxPastEpochsOverride
  else match c.retentionMode with
    | .strictSecurity => 0
    | .highAvailability => 10
    | .balanced => 3
    | .other _ => 3

def getMaxPastAgeSeconds (c : CoordinatorConfig) : Int :=
  match c.retentionMode with
  | .strictSecurity => 0
  | .highAvailability => 3600
  | .balanced => 300
  | .other _ => 300

def millisecond : Int := 1000000

def second : Int := 1000 * millisecond

def defaultConfig : CoordinatorConfig where
  tokenHolderTimeout := 4 * second
  heartbeatInterval := 5 * second
  announceInterval := 10 * second
  peerDeadAfter := 3
  maxBatchedProposals := 10
  keyRotationInterval := 5 * 60 * second
  replayThrottleMs := 100
  offlineSyncEnabled := true
  envelopeLogTTL := 7 * 24 * 3600 * second
  envelopeLogMaxPerGroup := 10000
  batchingDelay := 1 * second
  viewBootstrapGrace := 2 * second
  mlsOperationTimeout := 20 * second
  applicationAckTimeout := 10 * second
  applicationDirectRetryLimit := 2
  retentionMode := .balanced

def testConfig : CoordinatorConfig where
  tokenHolderTimeout := 100 * millisecond
  heartbeatInterval := 50 * millisecond
  announceInterval := 0
  peerDeadAfter := 3
  maxBatchedProposals := 10
  keyRotationInterval := 0
  replayThrottleMs := 0
  offlineSyncEnabled := true
  envelopeLogTTL := 7 * 24 * 3600 * second
  envelopeLogMaxPerGroup := 10000
  batchingDelay := 0
  viewBootstrapGrace := 0
  mlsOperationTimeout := 250 * millisecond
  applicationAckTimeout := 50 * millisecond
  applicationDirectRetryLimit := 2
  retentionMode := .balanced

/-- One bound of `Validate`: the field, its lower bound, and the bound's words in
the message. -/
structure Bound where
  field : String
  value : Int
  least : Int
  words : String

def bounds (c : CoordinatorConfig) : List Bound :=
  [⟨"TokenHolderTimeout", c.tokenHolderTimeout, 1, "must be positive"⟩,
   ⟨"HeartbeatInterval", c.heartbeatInterval, 1, "must be positive"⟩,
   ⟨"PeerDeadAfter", c.peerDeadAfter, 1, "must be >= 1"⟩,
   ⟨"MaxBatchedProposals", c.maxBatchedProposals, 1, "must be >= 1"⟩,
   ⟨"KeyRotationInterval", c.keyRotationInterval, 0, "must be >= 0"⟩,
   ⟨"AnnounceInterval", c.announceInterval, 0, "must be >= 0"⟩,
   ⟨"ReplayThrottleMs", c.replayThrottleMs, 0, "must be >= 0"⟩,
   ⟨"EnvelopeLogTTL", c.envelopeLogTTL, 0, "must be >= 0"⟩,
   ⟨"EnvelopeLogMaxPerGroup", c.envelopeLogMaxPerGroup, 1, "must be >= 1"⟩,
   ⟨"BatchingDelay", c.batchingDelay, 0, "must be >= 0"⟩,
   ⟨"ViewBootstrapGrace", c.viewBootstrapGrace, 0, "must be >= 0"⟩,
   ⟨"MLSOperationTimeout", c.mlsOperationTimeout, 1, "must be positive"⟩,
   ⟨"ApplicationAckTimeout", c.applicationAckTimeout, 1, "must be positive"⟩,
   ⟨"ApplicationDirectRetryLimit", c.applicationDirectRetryLimit, 0, "must be >= 0"⟩]

def validate (c : CoordinatorConfig) : Except String Unit :=
  match c.bounds.find? fun b => b.value < b.least with
  | some b => .error ("coordination: invalid configuration: " ++ b.field ++ " " ++ b.words ++
      ", got " ++ toString b.value)
  | none => .ok ()

theorem validate_ok (c : CoordinatorConfig) :
    c.validate = .ok () ↔ ∀ b ∈ c.bounds, b.least ≤ b.value := by
  unfold validate
  cases h : c.bounds.find? fun b => b.value < b.least with
  | none => simpa using h
  | some b =>
    have hb := List.find?_some h
    have hm := List.mem_of_find?_eq_some h
    simp only [decide_eq_true_eq] at hb
    simp only [reduceCtorEq, false_iff, not_forall, not_le]
    exact ⟨b, hm, hb⟩

theorem defaultConfig_valid : defaultConfig.validate = .ok () := by
  rw [validate_ok]
  decide

theorem testConfig_valid : testConfig.validate = .ok () := by
  rw [validate_ok]
  decide

theorem maxBatchedProposals_pos {c : CoordinatorConfig} (h : c.validate = .ok ()) :
    1 ≤ c.maxBatchedProposals :=
  (validate_ok c).mp h ⟨"MaxBatchedProposals", c.maxBatchedProposals, 1, "must be >= 1"⟩
    (by simp [bounds])

end CoordinatorConfig

end GroupCoordination
