import GroupCoordination.Model.System

/-!
# The outbox

What becomes of the events that a heal replays, over the whole life of a node: which event was
put into which envelope, and what is left when the process dies in the middle of a step. A dead
process leaves its database as far as it got. A batch is marked as broadcast only after it was
published, so of the batches that it was about to publish at least the marked ones went out.

`triggerBatchReplayAsync` of `coordinator_batch.go`. Every commit that is received or made from the
buffer starts `batchAndReplayOutbox` on a goroutine of its own, under a job of its own. As in a
heal, a batch is encrypted in one critical section and its engine state stored in another, and
anything may happen between the two.
-/

namespace GroupCoordination

def batchEnvelope (x : Ctx) (ciphertext : Bytes) (s : State) : Wire :=
  buildEnvelopeWithTimestampLocked x (s.stamp x).1 .applicationBatched
    (.applicationBatched ciphertext) (s.stamp x).2

def batched (x : Ctx) (op : Op) (s : State) : List (String × Bytes) :=
  match op, s.heal with
  | .heal _, some ⟨_, _, .assign _ _ chunk ciphertext _ _⟩ =>
    chunk.map fun item => (item.event.eventID, x.disk.hash (batchEnvelope x ciphertext s))
  | _, _ => []

structure Outbox where
  state : State
  carried : List (String × Bytes) := []

inductive OutboxOp
  | step (a : Action)
  /-- The process dies in this action, after so many transactions, and a new one starts. -/
  | crash (a : Action) (limit : Nat) (boot : World) (view : List PeerID)
      (anchor : Option (Option Bytes))

def OutboxOp.action : OutboxOp → Action
  | .step a => a
  | .crash a .. => a

/-- The same action of a process that dies when so many transactions are committed. -/
def Action.until (limit : Nat) (a : Action) : Action :=
  { a with world := { a.world with works := fun n op => a.world.works n op && n < limit } }

def State.died (s s' : State) : State :=
  { s with
    storage := s'.storage
    published := s.published ++
      (s'.storage.outboundReplays.filter (·.status = .broadcasted)).map (·.replayEnvelope) }

def Storage.outboundWrites (db : Storage) : Nat := db.log.count .saveOutboundReplay

def Outbox.step (node : Node) (op : OutboxOp) (p : Outbox) : Option Outbox :=
  match op with
  | .step a =>
    (GroupCoordination.step node a p.state).map fun state =>
      { state, carried := p.carried ++ batched (a.ctx node) a.op p.state }
  | .crash a limit boot view anchor =>
    (GroupCoordination.step node (a.until limit) p.state).bind fun s =>
      (restart { node, boot with } view anchor (p.state.died s)).toOption.map fun state =>
        { state
          carried := p.carried ++
            if p.state.storage.outboundWrites < s.storage.outboundWrites
            then batched (a.ctx node) a.op p.state else [] }

-- -------- The replay that a commit starts

inductive BatchReplay
  | started
  | encrypt (jobID : String) (index : Nat) (chunks : List (List ReplayItem))
  | assign (jobID : String) (index : Nat) (chunk : List ReplayItem) (ciphertext newState : Bytes)
      (rest : List (List ReplayItem))
  deriving DecidableEq

def BatchReplay.openEvents (x : Ctx) (s : State) : Option BatchReplay × State :=
  let jobID := "WINNER-REPLAY-" ++ x.groupID ++ "-" ++ toString x.now
  match Storage.listApplicationEvents x.disk s.storage jobID with
  | .error _ => (none, s)
  | .ok events =>
    let (items, s) := events.foldl (openOrphan x) ([], s)
    (some (.encrypt jobID 0 (items.toChunks maxBatchSize)), s)

/-- What a heal does with an encrypted batch, which reads nothing of its job but the id. -/
def assignBatch (x : Ctx) (jobID : String) (index : Nat) (chunk : List ReplayItem)
    (ciphertext newState : Bytes) (s : State) : State :=
  let job : ForkHealingJob := { jobID, traceID := "", status := .stateSwapped }
  { assignHeal x job index chunk ciphertext newState [] s with heal := s.heal }

def BatchReplay.step (x : Ctx) (s : State) : BatchReplay → Option BatchReplay × State
  | .started => BatchReplay.openEvents x s
  | .encrypt _ _ [] => (none, s)
  | .encrypt jobID index (chunk :: rest) =>
    match x.engine.encryptMessage s.groupState (x.codec.encodeBatch (chunk.map (·.payload))) with
    | .error err =>
      (some (.encrypt jobID (index + 1) rest), chunk.foldl (fun s item =>
        s.saveEvent x { item.event with status := .replayFailed, lastError := err }) s)
    | .ok (ciphertext, newState) => (some (.assign jobID index chunk ciphertext newState rest), s)
  | .assign jobID index chunk ciphertext newState rest =>
    (some (.encrypt jobID (index + 1) rest), assignBatch x jobID index chunk ciphertext newState s)

structure Replaying where
  state : State
  replays : List BatchReplay := []

/-- How many replays a step starts. The commits of `AddMember` and `RemoveMember` start none. -/
def startedReplays (s s' : State) : Nat :=
  (s'.appliedCommits.length - s.appliedCommits.length) +
    (s'.issuedCommits.drop s.issuedCommits.length).countP (·.path = .batch)

inductive ReplayingOp
  | coord (a : Action)
  | replay (world : World) (i : Nat)

def ReplayingOp.world : ReplayingOp → World
  | .coord a => a.world
  | .replay world _ => world

/-- One event. A new process knows nothing of the goroutines of the old one. -/
def Replaying.step (node : Node) (op : ReplayingOp) (p : Replaying) : Option Replaying :=
  match op with
  | .coord a =>
    (GroupCoordination.step node a p.state).map fun state =>
      match a.op with
      | .restart .. => { state }
      | _ =>
        { state, replays := p.replays ++ List.replicate (startedReplays p.state state) .started }
  | .replay world i =>
    match p.replays[i]? with
    | none => none
    | some replay =>
      match replay.step { node, world with } p.state with
      | (some next, state) => some { state, replays := p.replays.set i next }
      | (none, state) => some { state, replays := p.replays.eraseIdx i }

end GroupCoordination
