import Mathlib.Logic.Relation
import GroupCoordination.Model.System

/-!
# Transactions outside a heal

What a handler may do to the database, as long as it is not a step of a heal: one statement
after the other, each of which went through. None of them touches the tables of a heal, except
that the reconciliation of a commit writes an event row for every own message of the epoch that
ended.
-/

namespace GroupCoordination

open Disk

-- -------- Statements beside a heal

def Storage.healTables (db : Storage) :
    List ForkHealingJob × List ApplicationEvent × List OutboundReplay :=
  (db.jobs, db.applicationEvents, db.outboundReplays)

structure Storage.Spares (db db' : Storage) : Prop where
  tables : db'.healTables = db.healTables
  writes : db.writes ≤ db'.writes

namespace Storage

variable {d : Disk} {db db' : Storage}

theorem Spares.refl (db : Storage) : db.Spares db := ⟨rfl, le_rfl⟩

theorem Spares.jobs (h : db.Spares db') : db'.jobs = db.jobs := congrArg Prod.fst h.tables

theorem Spares.events (h : db.Spares db') : db'.applicationEvents = db.applicationEvents :=
  congrArg (·.2.1) h.tables

theorem Spares.outbound (h : db.Spares db') : db'.outboundReplays = db.outboundReplays :=
  congrArg (·.2.2) h.tables

theorem saveGroupRecord_spares (h : saveGroupRecord d db record = .ok db') : db.Spares db' := by
  obtain ⟨-, -, rfl⟩ := exec_ok h
  exact ⟨rfl, Nat.le_succ _⟩

theorem saveCoordState_spares (h : saveCoordState d db stored = .ok db') : db.Spares db' := by
  obtain ⟨-, -, rfl⟩ := exec_ok h
  exact ⟨rfl, Nat.le_succ _⟩

theorem applyEnvelope_spares
    (h : applyEnvelope d op name db record msgs msgType wire ts epoch = .ok (fresh, db')) :
    db.Spares db' := by
  obtain rfl | ⟨_, _, _, _, _, rfl⟩ := applyEnvelope_writes h
  · exact .refl _
  · exact ⟨rfl, Nat.le_succ _⟩

theorem appendEnvelopeWithSource_spares
    (h : appendEnvelopeWithSource d db msgType epoch ts wire source = .ok db') : db.Spares db' := by
  obtain rfl | ⟨_, _, rfl⟩ := appendEnvelopeWithSource_writes h
  · exact .refl _
  · exact ⟨rfl, Nat.le_succ _⟩

theorem markEnvelopeReplayState_spares
    (h : markEnvelopeReplayState d db envelopeHash state err = .ok db') : db.Spares db' := by
  obtain rfl | rfl := markEnvelopeReplayState_ok h
  · exact .refl _
  · exact ⟨rfl, Nat.le_succ _⟩

theorem savePendingOperation_spares (h : savePendingOperation d db op = .ok db') :
    db.Spares db' := by
  obtain ⟨-, -, rfl⟩ := exec_ok h
  exact ⟨rfl, Nat.le_succ _⟩

end Storage

-- -------- Transactions

def orphanEvent (x : Ctx) (msg : StoredMessage) (sealed : Bytes × Bytes) : ApplicationEvent where
  eventID := hexEncode msg.envelopeHash
  jobID := "COMMIT-RECONCILE-" ++ x.groupID
  originalEpoch := msg.epoch
  authorID := x.peers.toString x.localID
  envelopeHash := msg.envelopeHash
  payloadSealed := sealed.1
  payloadHash := x.hash.sum (msg.content.getD [])
  sealKeyID := "local_node_key"
  sealNonce := sealed.2
  hlc := msg.timestamp
  status := .orphanedOwn
  createdAtMs := x.nowMs
  updatedAtMs := x.nowMs

structure Scope where
  /-- Batches of replayed messages may be stored. -/
  batches : Prop
  /-- Operations that a commit has reached never open again. -/
  kept : Prop
  /-- What may be proposed here: a type with an identity or a key package. -/
  asks : ProposalType → Bytes → Prop := fun _ _ => True
  /-- The proposals that may be committed. -/
  founds : ProposalType → Bytes → Prop := fun _ _ => True

def Scope.any : Scope where
  batches := True
  kept := False

def Scope.Logs (S : Scope) (wire : Wire) : Prop :=
  ∃ env, wire.unmarshal = some env ∧
    (env.type = .commit ∨ env.type = .application ∨ env.type = .applicationBatched ∧ S.batches)

/-- Reached by a commit, and perhaps undone by a later one. -/
def PendingOperation.isConcluded (op : PendingOperation) : Bool :=
  op.isReached ∨ op.status = .superseded

theorem PendingOperation.isConcluded_of_reached {op : PendingOperation} (h : op.isReached = true) :
    op.isConcluded = true := by
  simp [PendingOperation.isConcluded, h]

theorem PendingOperation.not_concluded {op : PendingOperation} (h : op.isOpen = true) :
    op.isConcluded = false := by
  cases hstatus : op.status <;>
    simp_all [PendingOperation.isOpen, PendingOperation.isConcluded, PendingOperation.isReached]

def PendingOperation.proposalType (op : PendingOperation) : ProposalType :=
  match op.opType with
  | .addMember => .add
  | .removeMember => .remove

theorem PendingOperation.proposal_type (op : PendingOperation) :
    op.proposal.1 = op.proposalType := by
  unfold PendingOperation.proposal PendingOperation.proposalType
  cases op.opType <;> rfl

def Storage.Concluded (db : Storage) (operationID : String) : Prop :=
  ∃ op, Table.get PendingOperation.operationID db.pendingOperations operationID = some op ∧
    op.isConcluded = true

inductive Transaction (x : Ctx) (S : Scope) (db : Storage) : Storage → Prop
  | groupRecord (h : Storage.saveGroupRecord x.disk db record = .ok db') : Transaction x S db db'
  | coordState (h : Storage.saveCoordState x.disk db stored = .ok db') : Transaction x S db db'
  | apply (h : Storage.applyEnvelope x.disk op name db record msgs msgType wire ts epoch =
      .ok (fresh, db')) (hlog : S.Logs wire) : Transaction x S db db'
  | append (h : Storage.appendEnvelopeWithSource x.disk db msgType epoch ts wire source = .ok db')
      (hlog : S.Logs wire) : Transaction x S db db'
  | replayState (h : Storage.markEnvelopeReplayState x.disk db envelopeHash state err = .ok db') :
      Transaction x S db db'
  | operation (h : Storage.savePendingOperation x.disk db op = .ok db') : Transaction x S db db'
  | orphan (msg : StoredMessage) (sealed : Bytes × Bytes)
      (hseal : x.sealer.sealPayload db.writes (msg.content.getD []) = .ok sealed)
      (h : Storage.saveApplicationEvent x.disk db (orphanEvent x msg sealed) = .ok db') :
      Transaction x S db db'

abbrev Transacts (x : Ctx) (S : Scope) : Storage → Storage → Prop :=
  Relation.ReflTransGen (Transaction x S)

theorem Transaction.spares_or (h : Transaction x S db db') : db.Spares db' ∨
    ∃ msg sealed, x.sealer.sealPayload db.writes (msg.content.getD []) = .ok sealed ∧
      Storage.saveApplicationEvent x.disk db (orphanEvent x msg sealed) = .ok db' := by
  cases h with
  | groupRecord h => exact .inl (Storage.saveGroupRecord_spares h)
  | coordState h => exact .inl (Storage.saveCoordState_spares h)
  | apply h => exact .inl (Storage.applyEnvelope_spares h)
  | append h => exact .inl (Storage.appendEnvelopeWithSource_spares h)
  | replayState h => exact .inl (Storage.markEnvelopeReplayState_spares h)
  | operation h => exact .inl (Storage.savePendingOperation_spares h)
  | orphan msg sealed hseal h => exact .inr ⟨msg, sealed, hseal, h⟩

theorem Transaction.jobs (h : Transaction x S db db') : db'.jobs = db.jobs := by
  obtain hspares | ⟨msg, sealed, -, hsave⟩ := h.spares_or
  · exact hspares.jobs
  · obtain ⟨-, -, rfl⟩ := exec_ok hsave
    rfl

-- -------- Operations

section Operations

variable {x : Ctx} {S : Scope} {d : Disk} {db db' : Storage} {op : PendingOperation}

def PendingOperation.row (op : PendingOperation) : PendingOperation :=
  { op with idempotencyKey := op.idempotencyKey.filter (· ≠ "") }

theorem Storage.savePendingOperation_ok (h : savePendingOperation d db op = .ok db') :
    db'.pendingOperations = Table.upsert PendingOperation.operationID
      (fun old new => { new with createdAt := old.createdAt }) db.pendingOperations op.row := by
  obtain ⟨-, -, rfl⟩ := exec_ok h
  rfl

theorem Storage.savePendingOperation_self (h : savePendingOperation d db op = .ok db') :
    db'.Concluded op.operationID ↔ op.isConcluded = true := by
  have hget : Table.get PendingOperation.operationID db'.pendingOperations op.row.operationID =
      some (Table.upserted PendingOperation.operationID
        (fun old new => { new with createdAt := old.createdAt }) db.pendingOperations op.row) := by
    rw [savePendingOperation_ok h]
    exact Table.get_upsert_self fun _ _ => rfl
  have hstatus : (Table.upserted PendingOperation.operationID
      (fun old new => { new with createdAt := old.createdAt }) db.pendingOperations
      op.row).isConcluded = op.isConcluded := by
    unfold Table.upserted
    split <;> rfl
  constructor
  · rintro ⟨row, hrow, hdone⟩
    cases hget.symm.trans hrow
    exact hstatus.symm.trans hdone
  · exact fun hdone => ⟨_, hget, hstatus.trans hdone⟩

theorem Storage.savePendingOperation_other (h : savePendingOperation d db op = .ok db')
    (hne : operationID ≠ op.operationID) :
    db'.Concluded operationID ↔ db.Concluded operationID := by
  have hrow : operationID ≠ op.row.operationID := hne
  unfold Storage.Concluded
  rw [savePendingOperation_ok h, Table.get_upsert_of_ne hrow fun _ _ => rfl]

theorem Storage.Concluded.congr (h : db'.pendingOperations = db.pendingOperations) :
    Storage.Concluded db' operationID ↔ Storage.Concluded db operationID := by
  unfold Storage.Concluded
  rw [h]

/-- What the rows of the operations ask for stays what it was, or is what the saved one asks for. -/
theorem Storage.savePendingOperation_asks {P : ProposalType → Bytes → Prop}
    (h : savePendingOperation d db op = .ok db') (hop : P op.proposalType op.semanticPayload)
    (hrows : ∀ row ∈ db.pendingOperations, P row.proposalType row.semanticPayload) :
    ∀ row ∈ db'.pendingOperations, P row.proposalType row.semanticPayload := by
  rw [savePendingOperation_ok h]
  exact Table.forall_mem_upsert hrows hop fun _ _ _ => hop

theorem Storage.appendEnvelopeWithSource_operations
    (h : appendEnvelopeWithSource d db msgType epoch ts wire source = .ok db') :
    db'.pendingOperations = db.pendingOperations := by
  obtain rfl | ⟨_, _, rfl⟩ := appendEnvelopeWithSource_writes h
  · rfl
  · rfl

structure Elsewhere (x : Ctx) (S : Scope) (db db' : Storage) : Prop where
  statement : Transaction x S db db'
  operations : db'.pendingOperations = db.pendingOperations

theorem Elsewhere.groupRecord (h : Storage.saveGroupRecord x.disk db record = .ok db') :
    Elsewhere x S db db' := by
  refine ⟨.groupRecord h, ?_⟩
  obtain ⟨-, -, rfl⟩ := exec_ok h
  rfl

theorem Elsewhere.coordState (h : Storage.saveCoordState x.disk db stored = .ok db') :
    Elsewhere x S db db' := by
  refine ⟨.coordState h, ?_⟩
  obtain ⟨-, -, rfl⟩ := exec_ok h
  rfl

theorem Elsewhere.apply
    (h : Storage.applyEnvelope x.disk stmt name db record msgs msgType wire ts epoch =
    .ok (fresh, db')) (hlog : S.Logs wire) : Elsewhere x S db db' := by
  refine ⟨.apply h hlog, ?_⟩
  obtain rfl | ⟨_, _, _, _, _, rfl⟩ := Storage.applyEnvelope_writes h
  · rfl
  · rfl

theorem Elsewhere.append
    (h : Storage.appendEnvelopeWithSource x.disk db msgType epoch ts wire source = .ok db')
    (hlog : S.Logs wire) : Elsewhere x S db db' :=
  ⟨.append h hlog, Storage.appendEnvelopeWithSource_operations h⟩

theorem Elsewhere.replayState
    (h : Storage.markEnvelopeReplayState x.disk db envelopeHash state err = .ok db') :
    Elsewhere x S db db' := by
  refine ⟨.replayState h, ?_⟩
  obtain rfl | rfl := Storage.markEnvelopeReplayState_ok h
  · rfl
  · rfl

theorem Elsewhere.orphan (msg : StoredMessage) (sealed : Bytes × Bytes)
    (hseal : x.sealer.sealPayload db.writes (msg.content.getD []) = .ok sealed)
    (h : Storage.saveApplicationEvent x.disk db (orphanEvent x msg sealed) = .ok db') :
    Elsewhere x S db db' := by
  refine ⟨.orphan msg sealed hseal h, ?_⟩
  obtain ⟨-, -, rfl⟩ := exec_ok h
  rfl

theorem Transaction.elsewhere_or (h : Transaction x S db db') :
    Elsewhere x S db db' ∨ ∃ op, Storage.savePendingOperation x.disk db op = .ok db' := by
  cases h with
  | groupRecord h => exact .inl (.groupRecord h)
  | coordState h => exact .inl (.coordState h)
  | apply h hlog => exact .inl (.apply h hlog)
  | append h hlog => exact .inl (.append h hlog)
  | replayState h => exact .inl (.replayState h)
  | operation h => exact .inr ⟨_, h⟩
  | orphan msg sealed hseal h => exact .inl (.orphan msg sealed hseal h)

theorem Transaction.keyed (h : Transaction x S db db')
    (hkeyed : Table.Keyed PendingOperation.operationID db.pendingOperations) :
    Table.Keyed PendingOperation.operationID db'.pendingOperations := by
  obtain helsewhere | ⟨op, hsave⟩ := h.elsewhere_or
  · rwa [helsewhere.operations]
  · rw [Storage.savePendingOperation_ok hsave]
    exact hkeyed.upsert fun _ _ => rfl

-- -------- What happens to an operation

def OperationEvent.concludes (e : OperationEvent) (operationID : String) : Prop :=
  ∃ op, e = .stored op ∧ op.operationID = operationID ∧ op.isConcluded = true

def OperationEvent.opens (e : OperationEvent) (operationID : String) : Prop :=
  (∃ op, e = .stored op ∧ op.operationID = operationID ∧ op.isOpen = true) ∨
    operationID ≠ "" ∧ e = .proposed operationID

structure Keeps (db : Storage) (events : List OperationEvent) (db' : Storage) : Prop where
  before : ∀ e ∈ events, ∀ operationID, db.Concluded operationID → ¬ e.opens operationID
  among : events.Pairwise fun e e' => ∀ operationID, e.concludes operationID →
    ¬ e'.opens operationID
  after : ∀ e ∈ events, ∀ operationID, e.concludes operationID → db'.Concluded operationID
  stays : ∀ operationID, db.Concluded operationID → db'.Concluded operationID

theorem Keeps.same (h : db'.pendingOperations = db.pendingOperations) : Keeps db [] db' where
  before _ he := absurd he List.not_mem_nil
  among := .nil
  after _ he := absurd he List.not_mem_nil
  stays _ := (Storage.Concluded.congr h).mpr

theorem Keeps.append (h : Keeps db events db') (h' : Keeps db' events' db'') :
    Keeps db (events ++ events') db'' := by
  refine ⟨?_, List.pairwise_append.mpr ⟨h.among, h'.among, ?_⟩, ?_, fun id hdone =>
    h'.stays id (h.stays id hdone)⟩
  · intro e he id hdone
    rcases List.mem_append.mp he with he | he
    · exact h.before e he id hdone
    · exact h'.before e he id (h.stays id hdone)
  · exact fun e he e' he' id hdone => h'.before e' he' id (h.after e he id hdone)
  intro e he id hdone
  rcases List.mem_append.mp he with he | he
  · exact h'.stays id (h.after e he id hdone)
  · exact h'.after e he id hdone

theorem Keeps.stored (h : Storage.savePendingOperation d db op = .ok db')
    (hop : op.isConcluded = true ∨ ¬ db.Concluded op.operationID) : Keeps db [.stored op] db' := by
  refine ⟨?_, List.pairwise_singleton _ _, ?_, fun id hdone => ?_⟩
  · intro e he id hdone
    rw [List.mem_singleton.mp he]
    rintro (⟨op', heq, rfl, hopen⟩ | ⟨-, heq⟩)
    · cases heq
      rcases hop with hconcluded | hfree
      · rw [PendingOperation.not_concluded hopen] at hconcluded
        cases hconcluded
      · exact hfree hdone
    · cases heq
  · intro e he id
    rw [List.mem_singleton.mp he]
    rintro ⟨op', heq, rfl, hconcluded⟩
    cases heq
    exact (Storage.savePendingOperation_self h).mpr hconcluded
  · by_cases hid : id = op.operationID
    · subst hid
      exact (Storage.savePendingOperation_self h).mpr (hop.resolve_right (not_not.mpr hdone))
    · exact (Storage.savePendingOperation_other h hid).mpr hdone

theorem Keeps.proposed (h : operationID = "" ∨ ¬ db.Concluded operationID)
    (hsame : db'.pendingOperations = db.pendingOperations) :
    Keeps db [.proposed operationID] db' := by
  refine ⟨?_, List.pairwise_singleton _ _, ?_, fun _ => (Storage.Concluded.congr hsame).mpr⟩
  · intro e he id hdone
    rw [List.mem_singleton.mp he]
    rintro (⟨op, heq, -⟩ | ⟨hne, heq⟩)
    · cases heq
    · cases heq
      exact h.elim hne (· hdone)
  · intro e he id
    rw [List.mem_singleton.mp he]
    rintro ⟨op, heq, -⟩
    cases heq

end Operations

end GroupCoordination
