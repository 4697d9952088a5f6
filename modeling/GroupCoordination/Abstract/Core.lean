import GroupCoordination.Model.System
import Mathlib.Logic.Relation

/-!
# What a coordinator does to its group

The part of the state that the protocol is about, and the few atomic things that can
happen to it: a proposal is accepted, a message is kept for a later epoch, a commit
opens the next epoch, a message is applied. Timers, retries, pending operations and
everything else a handler does leave it alone.

Every handler of the coordinator is a sequence of these steps, so an invariant of the
group is proved against `CoreStep` once and holds after every public operation.
-/

namespace GroupCoordination

/-- The tables that say where the group stands and which envelopes took effect. Envelopes
and stored messages go by their hash. -/
structure Ledger where
  record : Option GroupRecord
  coord : Option CoordState
  /-- Whether the coordination state was stored after the last commit. -/
  saved : Bool
  applied : List Bytes
  messages : List Bytes

structure Core where
  groupState : Bytes
  treeHash : Bytes
  epoch : Nat
  lastCommitHash : Bytes
  historyHash : Option Bytes
  historyChain : HistoryChain
  members : List PeerID
  singleWriter : SingleWriter
  epochTracker : EpochTracker
  ledger : Ledger
  delivered : List Wire
  invalid : List Bytes
  arriving : List Wire
  arrivedFrom : PeerID
  lineage : Lineage
  told : List (Nat × Bytes)
  suspected : List (ForkEvent × Lineage)
  appliedCommits : List AppliedCommit
  issuedCommits : List IssuedCommit
  retained : List (Nat × Wire)
  inflight : List (Nat × Wire)
  dispatched : List Dispatched
  dropped : Nat

namespace Core

def electorate (x : Ctx) (c : Core) : Electorate where
  hash := x.hash
  codec := x.peers
  groupID := x.groupID
  members := c.members
  authorized := x.authorized

def Known (c : Core) (wire : Wire) (env : Envelope) : Prop :=
  wire.unmarshal = some env ∧ (wire ∈ c.arriving ∨ ∃ d ∈ c.dispatched, d.wire = wire)

def Records (c : Core) (newState : Bytes) (record : Option GroupRecord) : Prop :=
  ∃ stored, record = some stored ∧ stored.groupState = newState ∧ stored.epoch = c.epoch

/-- The next epoch is entered: the engine state, the history and the stored record move
together, the buffer of proposals starts empty, and the messages kept for this epoch are
on their way. -/
def enterEpoch (x : Ctx) (newState newTreeHash commitData : Bytes) (ledger : Ledger) (c : Core) :
    Core :=
  let newEpoch := c.epoch + 1
  let history := extendHistory x newEpoch (x.hashCommitData commitData) c.historyHash c.historyChain
  { c with
    groupState := newState
    treeHash := newTreeHash
    epoch := newEpoch
    lastCommitHash := x.hashCommitData commitData
    historyHash := some history.1
    historyChain := history.2
    lineage := c.lineage.extend (x.hashCommitData commitData)
    singleWriter := { epoch := newEpoch }
    epochTracker := (c.epochTracker.advance newEpoch newTreeHash).1
    ledger
    inflight := (c.epochTracker.futureBuffer newEpoch).map (newEpoch, ·) ++ c.inflight }

def coordState (c : Core) : CoordState where
  lastCommitHash := c.lastCommitHash
  historyChain := c.historyChain.map fun (epoch, h) => (epoch, some (h.getD []))

/-- The coordination state is stored, or the write that follows a commit's own was lost. -/
def Persisted (c : Core) : Prop :=
  c.ledger.coord = some c.coordState ∨ c.ledger.saved = false

end Core

inductive Accepts (engine : MLSEngine) (groupState : Bytes) (p : BufferedProposal) :
    Bytes → Prop
  | created (h : engine.createProposal groupState pType data = .ok result)
      (href : p.proposalRef = result.proposalRef) (hdata : p.data = result.proposalBytes) :
      Accepts engine groupState p result.newGroupState
  | processed (h : engine.processProposal groupState p.data = .ok result)
      (href : p.proposalRef = result.proposalRef) :
      Accepts engine groupState p result.newGroupState

inductive Ciphers (engine : MLSEngine) (groupState : Bytes) : Bytes → Prop
  | encrypted (h : engine.encryptMessage groupState plaintext = .ok (ciphertext, newState)) :
      Ciphers engine groupState newState
  | decrypted (h : engine.decryptMessage groupState ciphertext = .ok (plaintext, newState)) :
      Ciphers engine groupState newState

/-- What the single-writer check asks of a commit that carries a batch and names its
sender. -/
def GatePassed (C : PeerCodec) (E : Electorate) (w : SingleWriter) (env : Envelope)
    (commit : CommitMsg) : Prop :=
  let batch := bufferedBatchFromProposalMsgs commit.includedProposals
  let sender := decodeEnvelopePeerID C env.from []
  batch = [] ∨ sender = [] ∨
    (w.holderForBatch E batch = .ok sender ∧ removesPeer C batch sender = false)

/-- The engine staged and processed a received commit, and its refs are those it names. -/
structure CommitAccepted (engine : MLSEngine) (groupState : Bytes) (commit : CommitMsg)
    (newState newTreeHash : Bytes) : Prop where
  staged : ∃ refs, engine.stageCommit groupState commit.commitData
      (proposalBytesFromMsgs commit.includedProposals) = .ok refs ∧
    (commit.committedProposalRefs = [] ∨ refs.Perm commit.committedProposalRefs)
  processed : engine.processCommit groupState commit.commitData
    (proposalBytesFromMsgs commit.includedProposals) = .ok (newState, newTreeHash)

structure Applies (l : Ledger) (envelopeHash : Bytes) (l' : Ledger) : Prop where
  fresh : envelopeHash ∉ l.applied
  applied : l'.applied = l.applied ++ [envelopeHash]
  messages : l'.messages = l.messages ∨
    l'.messages = Table.insertOrIgnore (fun h => h) l.messages envelopeHash

def refuseCommit (commitHash : Bytes) (invalid : List Bytes) : List Bytes :=
  if commitHash = [] ∨ commitHash ∈ invalid then invalid else commitHash :: invalid

-- -------- Steps

/-- The atomic steps of a coordinator that is not healing. -/
inductive CoreStep (x : Ctx) (c : Core) : Core → Prop
  | view (members : List PeerID) : CoreStep x c { c with members }
  | suspend (pid : PeerID) : CoreStep x c { c with singleWriter := c.singleWriter.suspend pid }
  /-- A message of a later epoch is kept, in its own spelling or another. -/
  | retain (key : Nat) (wire : Wire) (source : Wire) (env : Envelope) (known : c.Known source env)
      (spelled : wire.unmarshal = some env) (epoch : env.epoch = key)
      (ahead : c.epochTracker.epoch < key) :
      CoreStep x c { c with
        epochTracker := c.epochTracker.bufferFuture key wire
        retained := c.retained ++ [(key, wire)] }
  /-- A kept message goes to its handler. -/
  | take (key : Nat) (wire : Wire) (rest : List (Nat × Wire))
      (next : c.inflight = (key, wire) :: rest) :
      CoreStep x c { c with
        inflight := rest
        dispatched := c.dispatched ++ [{ key, wire, epoch := c.epoch }] }
  /-- A proposal is accepted by the engine, recorded and offered to the buffer. -/
  | propose (p : BufferedProposal) (newState : Bytes) (record : Option GroupRecord)
      (accepted : Accepts x.engine c.groupState p newState) (recorded : c.Records newState record) :
      CoreStep x c { c with
        groupState := newState
        ledger := { c.ledger with record }
        singleWriter := c.singleWriter.bufferProposal x.cfg p
        dropped := c.dropped + (c.singleWriter.drops x.cfg p).toNat }
  /-- A received commit opens the next epoch. -/
  | commit (env : Envelope) (wire : Wire) (commit : CommitMsg) (newState newTreeHash : Bytes)
      (ledger : Ledger) (known : c.Known wire env) (payload : env.payload = .commit commit)
      (current : env.epoch = c.epochTracker.epoch)
      (gate : GatePassed x.peers (c.electorate x) c.singleWriter env commit)
      (accepted : CommitAccepted x.engine c.groupState commit newState newTreeHash)
      (applies : Applies c.ledger (x.disk.hash wire) ledger)
      (stored : ∃ r, ledger.record = some r ∧ r.groupState = newState ∧ r.epoch = c.epoch + 1)
      (persisted : (c.enterEpoch x newState newTreeHash commit.commitData ledger).Persisted) :
      CoreStep x c { c.enterEpoch x newState newTreeHash commit.commitData ledger with
        appliedCommits := c.appliedCommits ++ [{
          env, commit, groupState := c.groupState, electorate := c.electorate x,
          singleWriter := c.singleWriter }] }
  /-- A received commit is refused. -/
  | refuse (env : Envelope) (wire : Wire) (commit : CommitMsg) (known : c.Known wire env)
      (payload : env.payload = .commit commit) (current : env.epoch = c.epochTracker.epoch)
      (refused : ∀ newState newTreeHash,
        GatePassed x.peers (c.electorate x) c.singleWriter env commit →
        ¬ CommitAccepted x.engine c.groupState commit newState newTreeHash) :
      CoreStep x c { c with
        invalid := refuseCommit (x.hashCommitData commit.commitData) c.invalid }
  /-- The local node, elected for a batch, issues a commit. -/
  | issue (issued : IssuedCommit) (result : CreateCommitResult) (expectedRefs : List Bytes)
      (wire : Wire) (ledger : Ledger) (electorate : issued.electorate = c.electorate x)
      (writer : issued.singleWriter = c.singleWriter)
      (elected : c.singleWriter.holderForBatch (c.electorate x) issued.electedFor = .ok x.localID)
      (sender : issued.env.from = x.peers.toString x.localID)
      (message : issued.env.type = .commit ∧ issued.env.epoch = c.epoch ∧
        issued.env.payload = .commit issued.commit)
      (carries : issued.path = .batch →
        issued.commit.includedProposals = proposalMsgsFromBatch issued.electedFor)
      (created : x.engine.createCommit c.groupState expectedRefs = .ok result)
      (applies : Applies c.ledger (x.disk.hash wire) ledger)
      (stored : ∃ r, ledger.record = some r ∧ r.groupState = result.newGroupState ∧
        r.epoch = c.epoch + 1)
      (persisted : (c.enterEpoch x result.newGroupState result.newTreeHash result.commitBytes
        ledger).Persisted) :
      CoreStep x c {
        c.enterEpoch x result.newGroupState result.newTreeHash result.commitBytes ledger with
        issuedCommits := c.issuedCommits ++ [issued] }
  /-- The proposals of a received commit leave the buffer. -/
  | drain (applied : AppliedCommit) (seen : applied ∈ c.appliedCommits) :
      CoreStep x c { c with singleWriter :=
        ((c.singleWriter.drainBatchByRefs applied.commit.committedProposalRefs).1.drainBatchByData
          ((proposalBytesFromMsgs applied.commit.includedProposals).filter (· ≠ []))).1 }
  /-- An application envelope is stored and its message delivered. -/
  | deliver (wire : Wire) (newState : Bytes) (ledger : Ledger)
      (ciphers : Ciphers x.engine c.groupState newState)
      (applies : Applies c.ledger (x.disk.hash wire) ledger)
      (coord : ledger.coord = c.ledger.coord ∧ ledger.saved = c.ledger.saved)
      (recorded : c.Records newState ledger.record) :
      CoreStep x c { c with
        groupState := newState
        ledger
        delivered := c.delivered ++ [wire] }
  /-- A batch of messages is decrypted; its rows may or may not be stored. -/
  | batch (wire : Wire) (newState : Bytes) (ledger : Ledger)
      (ciphers : Ciphers x.engine c.groupState newState)
      (applies : (ledger.applied = c.ledger.applied ∧ ledger.messages = c.ledger.messages) ∨
        Applies c.ledger (x.disk.hash wire) ledger)
      (coord : ledger.coord = c.ledger.coord ∧ ledger.saved = c.ledger.saved)
      (recorded : ledger.record = c.ledger.record ∨ c.Records newState ledger.record) :
      CoreStep x c { c with groupState := newState, ledger }
  /-- The coordination state is stored again. -/
  | persist : CoreStep x c { c with
      ledger := { c.ledger with coord := some c.coordState, saved := true } }
  /-- The history of the current epoch is announced, or that of an earlier one on request. -/
  | tell (claim : Nat × Bytes)
      (known : claim = (c.epoch, c.historyHash.getD []) ∨
        ∃ h, c.historyChain.get claim.1 = some h ∧ claim.2 = h.getD []) :
      CoreStep x c { c with told := c.told ++ [claim] }
  /-- A heal is scheduled for what a peer said of its history. -/
  | suspect (event : ForkEvent) (wire : Wire) (env : Envelope) (claim : Nat × Bytes)
      (peer : event.remotePeer = c.arrivedFrom) (arrived : wire ∈ c.arriving)
      (said : wire.unmarshal = some env ∧ env.payload.claim = some claim)
      (differs : (claim.1 = c.epoch ∧ claim.2 ≠ c.historyHash.getD []) ∨
        ∃ h, c.historyChain.get claim.1 = some h ∧
          (h.getD [] = claim.2 → x.onSyncRequired = false)) :
      CoreStep x c { c with suspected := c.suspected ++ [(event, c.lineage)] }

abbrev CoreSteps (x : Ctx) : Core → Core → Prop := Relation.ReflTransGen (CoreStep x)

/-- What a heal does to the group before and after it changes branches. -/
inductive HealEdit (x : Ctx) (c : Core) : Core → Prop
  | drop : HealEdit x c { c with groupState := [], treeHash := [] }
  /-- The stored record comes back. -/
  | restore (stored : GroupRecord) (here : c.ledger.record = some stored) :
      HealEdit x c { c with
        groupState := stored.groupState, epoch := stored.epoch, treeHash := stored.treeHash }
  /-- A replayed batch leaves an engine state of some earlier moment. -/
  | overwrite (newState : Bytes) (record : Option GroupRecord)
      (recorded : record = c.ledger.record ∨ c.Records newState record) :
      HealEdit x c { c with groupState := newState, ledger := { c.ledger with record } }

/-- The joined branch replaces the losing one. -/
inductive HealSwap (x : Ctx) (c : Core) : Core → Prop
  | swap (newState newTreeHash : Bytes) (newEpoch : Nat) (record : GroupRecord)
      (coord : Option CoordState) (saved : Bool) (state : record.groupState = newState)
      (epoch : record.epoch = newEpoch)
      (persisted : coord =
          some ⟨[], HistoryChain.set [] newEpoch (some x.initialHistoryHash)⟩ ∨
        x.toWorld.LosesCoordState) :
      HealSwap x c { c with
        groupState := newState
        treeHash := newTreeHash
        epoch := newEpoch
        lastCommitHash := []
        historyHash := some x.initialHistoryHash
        historyChain := HistoryChain.set [] newEpoch (some x.initialHistoryHash)
        lineage := { root := x.initialHistoryHash, base := newEpoch }
        singleWriter := SingleWriter.new newEpoch
        epochTracker := EpochTracker.new newEpoch newTreeHash
        ledger := { c.ledger with record := some record, coord, saved } }

end GroupCoordination
