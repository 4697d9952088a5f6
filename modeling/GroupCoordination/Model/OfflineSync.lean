import GroupCoordination.Lib.Feed
import GroupCoordination.Lib.Run
import GroupCoordination.Model.Storage

/-!
# Offline sync

The envelope log of one group as the node serves it, and one peer that pulls from it:
`GetEnvelopesSince` and `PruneEnvelopes` of `coordination_storage.go`, and both ends of the stream
of `offline_sync.go`. Every statement and every frame is an event of its own, and a peer may have
several pulls under way.

What the peer's own coordinator makes of an envelope is a parameter of the pull. Acknowledgements,
which the server only records, are left out, and so is leaving the group.
-/

namespace GroupCoordination

-- -------- Reading the log

def EnvelopeRecord.createdAt (row : EnvelopeRecord) : Int := row.firstSeenAtMs / 1000

def EnvelopeRecord.entry (row : EnvelopeRecord) : Nat × Wire := (row.seq, row.envelope)

def Storage.getEnvelopesSince (db : Storage) (afterSeq : Nat) (maxCount : Int) :
    List EnvelopeRecord :=
  let limit := if maxCount < 1 then 50 else maxCount.toNat
  ((db.envelopeLog.filter (afterSeq < ·.seq)).insertionSort (·.seq ≤ ·.seq)).take limit

/-- One turn of the loop of `handleOfflineSyncStream`: only a full batch is followed by another. -/
def sendBatch (db : Storage) (p : Pull Wire) : Pull Wire :=
  let recs : List EnvelopeRecord := db.getEnvelopesSince p.after 50
  let p := { p with entries := p.entries ++ recs.map EnvelopeRecord.entry }
  if recs.length < 50 then { p with more := false }
  else { p with after := (recs.getLast?.map EnvelopeRecord.seq).getD p.after }

def offlineSyncShouldAdvanceCursor (state : ReplayEnvelopeState) : Bool :=
  state ∈ [.applied, .duplicateApplied, .staleEpoch, .decryptFailed, .blockedStaleRequiresSnapshot,
    .blockedDecryptFailed]

-- -------- Pruning it

def deleteOldest (rows : List EnvelopeRecord) : List EnvelopeRecord :=
  rows.eraseP fun row => rows.all (row.seq ≤ ·.seq)

def capRows (maxPerGroup : Int) : Nat → List EnvelopeRecord → List EnvelopeRecord
  | 0, rows => rows
  | works + 1, rows =>
    if rows.length > maxPerGroup then capRows maxPerGroup works (deleteOldest rows) else rows

structure PruneStatements where
  age : Bool := true
  dedup : Bool := true
  caps : Nat

/-- The envelope log of one group, with the times of its dedup rows, and a peer that pulls from
it. -/
structure OfflineSync where
  db : Storage := {}
  dedupAt : List (Bytes × Int) := []
  cursor : Nat := 0
  pulls : List (Pull Wire) := []
  received : List (Nat × Wire) := []
  assigned : List Nat := []

def OfflineSync.prune (cutoffUnix maxPerGroup : Int) (w : PruneStatements) (s : OfflineSync) :
    OfflineSync :=
  if w.age = false then s
  else
    let young := s.db.envelopeLog.filter (cutoffUnix ≤ ·.createdAt)
    let known := if w.dedup then s.dedupAt.filter (cutoffUnix ≤ ·.2) else s.dedupAt
    let dedup := if w.dedup then s.db.dedup.filter (· ∈ known.map Prod.fst) else s.db.dedup
    let rows := if maxPerGroup < 1 then young else capRows maxPerGroup w.caps young
    { s with db := { s.db with envelopeLog := rows, dedup }, dedupAt := known }

-- -------- Events

def OfflineSync.store (nowMs : Int) (result : Except String Storage) (s : OfflineSync) :
    OfflineSync :=
  match result with
  | .error _ => s
  | .ok db =>
    { s with
      db
      dedupAt := s.dedupAt ++ (db.dedup.filter (· ∉ s.db.dedup)).map (·, nowMs / 1000)
      assigned := s.assigned ++ (db.envelopeLog.drop s.db.envelopeLog.length).map (·.seq) }

inductive SyncOp
  | append (d : Disk) (msgType : MessageType) (epoch : Nat) (ts : HLCTimestamp) (envelope : Wire)
      (sourcePath : String)
  | applyCommit (d : Disk) (rec : GroupRecord) (msgType : MessageType) (envelope : Wire)
      (ts : HLCTimestamp) (envEpoch : Nat)
  | applyApplication (d : Disk) (rec : GroupRecord) (msg : StoredMessage) (msgType : MessageType)
      (envelope : Wire) (ts : HLCTimestamp) (envEpoch : Nat)
  | applyBatchedApplication (d : Disk) (rec : GroupRecord) (msgs : List StoredMessage)
      (msgType : MessageType) (envelope : Wire) (ts : HLCTimestamp) (envEpoch : Nat)
  | markReplayState (d : Disk) (envelopeHash : Bytes) (state : ReplayEnvelopeState)
      (lastErr : String)
  | prune (cutoffUnix maxPerGroup : Int) (works : PruneStatements)
  | request
  | batch (pull : Nat)
  | queryFails (pull : Nat)
  | finish (pull : Nat) (replay : Nat × Wire → Option ReplayEnvelopeState) (saved : Bool)
  | abort (pull : Nat)

/-- The end of `pullOfflineSyncFromPeerOnce`: the entries are replayed in order until one of them
does not advance the cursor. -/
def OfflineSync.finish (pull : Nat) (p : Pull Wire)
    (replay : Nat × Wire → Option ReplayEnvelopeState)
    (saved : Bool) (s : OfflineSync) : OfflineSync :=
  let replayed := (p.entries.insertionSort (·.1 ≤ ·.1)).takeWhile fun e =>
    (replay e).any offlineSyncShouldAdvanceCursor
  let lastSuccessSeq := (replayed.getLast?.map Prod.fst).getD 0
  { s with
    pulls := s.pulls.eraseIdx pull
    received := s.received ++ replayed
    cursor := if 0 < lastSuccessSeq ∧ saved = true then lastSuccessSeq else s.cursor }

def OfflineSync.step (op : SyncOp) (s : OfflineSync) : Option OfflineSync :=
  match op with
  | .append d msgType epoch ts envelope sourcePath =>
    some (s.store d.nowMs (s.db.appendEnvelopeWithSource d msgType epoch ts envelope sourcePath))
  | .applyCommit d rec msgType envelope ts envEpoch =>
    some (s.store d.nowMs ((s.db.applyCommit d rec msgType envelope ts envEpoch).map (·.2)))
  | .applyApplication d rec msg msgType envelope ts envEpoch =>
    some (s.store d.nowMs
      ((s.db.applyApplication d rec msg msgType envelope ts envEpoch).map (·.2)))
  | .applyBatchedApplication d rec msgs msgType envelope ts envEpoch =>
    some (s.store d.nowMs
      ((s.db.applyBatchedApplication d rec msgs msgType envelope ts envEpoch).map (·.2)))
  | .markReplayState d envelopeHash state lastErr =>
    some (s.store d.nowMs (s.db.markEnvelopeReplayState d envelopeHash state lastErr))
  | .prune cutoffUnix maxPerGroup works => some (s.prune cutoffUnix maxPerGroup works)
  | .request => some { s with pulls := s.pulls ++ [{ start := s.cursor, after := s.cursor }] }
  | .batch pull =>
    match s.pulls[pull]? with
    | none => none
    | some p =>
      if p.more then some { s with pulls := s.pulls.set pull (sendBatch s.db p) } else none
  | .queryFails pull =>
    match s.pulls[pull]? with
    | none => none
    | some p => some { s with pulls := s.pulls.set pull { p with more := false } }
  | .finish pull replay saved =>
    match s.pulls[pull]? with
    | none => none
    | some p => if p.more then none else some (s.finish pull p replay saved)
  | .abort pull => some { s with pulls := s.pulls.eraseIdx pull }

end GroupCoordination
