import GroupCoordination.Model.Broadcast

/-!
# Proposals

`coordinator_proposal.go`: proposals made here, proposals received, and the join
request of a healing peer, which the receiver turns into a removal of the old leaf
and an addition of the new one.
-/

namespace GroupCoordination

def State.bufferProposal (x : Ctx) (p : BufferedProposal) (s : State) : State :=
  { s with
    singleWriter := s.singleWriter.bufferProposal x.cfg p
    dropped := s.dropped + (s.singleWriter.drops x.cfg p).toNat }

variable (x : Ctx) (call : Call → State → State) (pType : ProposalType)

/-- `createAndStoreLocalProposalLocked`: the engine state that holds the proposal is
persisted before anything else sees it. -/
def createAndStoreLocalProposalLocked (data : Bytes) (info : BufferedProposal) (s : State) :
    Except String (ProposalMsg × BufferedProposal × State) := do
  let result ← x.engine.createProposal s.groupState pType data
  let s ← persistCurrentEpochStateLocked x result.newGroupState s
  let msg : ProposalMsg :=
    { proposalType := pType
      data := result.proposalBytes
      proposalRef := result.proposalRef
      operationID := info.operationID
      targetPeerID := info.targetPeerID
      requestID := info.requestID
      groupType := info.groupType
      categoryID := info.categoryID
      keyPackageHash := info.keyPackageHash }
  let buffered : BufferedProposal :=
    { info with
      type := pType
      data := result.proposalBytes
      proposalRef := result.proposalRef }
  return (msg, buffered, { s with
    groupState := result.newGroupState
    operationTrace := s.operationTrace ++ [.proposed info.operationID] })

def createAndBufferLocked (data : Bytes) (info : BufferedProposal) (s : State) : State :=
  match createAndStoreLocalProposalLocked x pType data info s with
  | .error _ => s
  | .ok (_, buffered, s) => s.bufferProposal x buffered

/-- Proposes to remove the old leaf of a peer that asks to join again. A leaf that is
already gone is not removed again. -/
def removeZombieLocked (targetIdentity : Bytes) (targetPeerID : String) (s : State) : State :=
  match x.engine.hasMember s.groupState targetIdentity with
  | .ok true => createAndBufferLocked x .remove targetIdentity { targetPeerID } s
  | _ => s

def commitOrWaitLocked (s : State) : State :=
  if s.isTokenHolder x then scheduleBatchCommitLocked x call s else scheduleFailoverTimerLocked x s

def ProposalMsg.joinIdentity (p : ProposalMsg) : Bytes :=
  if p.targetIdentity = [] then stringBytes p.targetPeerID else p.targetIdentity

def handleJoinLocked (env : Envelope) (proposal : ProposalMsg) (s : State) : State :=
  -- The sum is a `uint64`: an epoch near the top wraps and passes for an old one.
  if addUInt64 env.epoch x.cfg.getMaxPastEpochs < s.epoch then s
  else if s.groupState = [] then s
  else
    let s := removeZombieLocked x proposal.joinIdentity proposal.targetPeerID s
    let s := createAndBufferLocked x .add proposal.data
      { operationID := proposal.operationID
        targetPeerID := proposal.targetPeerID
        requestID := proposal.requestID
        groupType := proposal.groupType
        categoryID := proposal.categoryID
        keyPackageHash := proposal.keyPackageHash } s
    if s.groupState = [] then s else commitOrWaitLocked x call s

def ProposalMsg.toBuffered (p : ProposalMsg) : BufferedProposal where
  type := p.proposalType
  data := p.data
  proposalRef := p.proposalRef
  operationID := p.operationID
  targetPeerID := p.targetPeerID
  requestID := p.requestID
  groupType := p.groupType
  categoryID := p.categoryID
  keyPackageHash := p.keyPackageHash

def ProposalMsg.refOr (p : ProposalMsg) (ref : Bytes) : Bytes :=
  if p.proposalRef = [] then ref else p.proposalRef

/-- A proposal of the current epoch: the engine processes it, and a ref the sender
gave must be the engine's. -/
def processProposalLocked (proposal : ProposalMsg) (s : State) : Except String State := do
  let processed ← x.engine.processProposal s.groupState proposal.data
  if proposal.refOr processed.proposalRef ≠ processed.proposalRef then
    .error "mismatched ProposalRef"
  else do
    let s ← persistCurrentEpochStateLocked x processed.newGroupState s
    return { s with groupState := processed.newGroupState }.bufferProposal x
      { proposal with proposalRef := proposal.refOr processed.proposalRef }.toBuffered

def State.retain (key : Nat) (wire : Wire) (s : State) : State :=
  { s with
    epochTracker := s.epochTracker.bufferFuture key wire
    retained := s.retained ++ [(key, wire)] }

def handleProposalLocked («from» : PeerID) (env : Envelope) (s : State) : State :=
  match env.payload with
  | .proposal proposal =>
    if s.groupState = [] ∧ proposal.proposalType ≠ .join then s
    else if proposal.proposalType = .join then handleJoinLocked x call env proposal s
    else
      match s.epochTracker.validate env.epoch with
      | .rejectStale => s
      | .bufferFuture => s.retain env.epoch env.marshal
      | .process =>
        match processProposalLocked x proposal s with
        | .error _ => s
        | .ok s =>
          let s := (scheduleFailoverTimerLocked x s).emit (.proposalObserved
            { epoch := env.epoch
              actorPeerID := x.peers.toString «from»
              proposalType := proposal.proposalType
              operationID := proposal.operationID
              targetPeerID := proposal.targetPeerID
              requestID := proposal.requestID
              groupType := proposal.groupType
              categoryID := proposal.categoryID
              keyPackageHash := proposal.keyPackageHash })
          if s.isTokenHolder x then scheduleBatchCommitLocked x call s else s
  | _ => s

-- -------- Local proposals

def errAccessRevoked : String := "coordination: local membership revoked"

def proposeLockedWithMetadata (data : Bytes) (info : BufferedProposal) (s : State) :
    Except String State :=
  if !s.started then .error "coordinator not started"
  else if s.accessRevoked then .error errAccessRevoked
  else do
    let (msg, buffered, s) ←
      (createAndStoreLocalProposalLocked x pType data info s).mapError ("CreateProposal: " ++ ·)
    let s := (broadcastLocked x .proposal (.proposal msg) s).bufferProposal x buffered
    let s := (scheduleFailoverTimerLocked x s).emit (.proposalObserved
      { epoch := s.epoch
        actorPeerID := x.peers.toString x.localID
        proposalType := pType
        targetPeerID := info.targetPeerID })
    return if s.isTokenHolder x then scheduleBatchCommitLocked x call s else s

def proposeLocked (data : Bytes) (s : State) : Except String State :=
  proposeLockedWithMetadata x call pType data {} s

end GroupCoordination
