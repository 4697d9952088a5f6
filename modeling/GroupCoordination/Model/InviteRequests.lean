import Mathlib.Data.List.Infix
import Mathlib.Data.List.Sort
import Mathlib.Data.Prod.Lex
import Mathlib.Data.String.Basic
import GroupCoordination.Model.Welcome

/-!
# Invite requests

The table `group_invite_requests` and what works on it: `group_invite_requests.go` of the store and
of the service, and `rpcSubmitInviteRequest`, which creates the authority's rows. Nothing in the
service holds a lock across two statements, so a call is a task that takes one statement (or one
call of another component) at a time, and any number of tasks run side by side.

Left out: the events, notifications and updates that are pushed, and the column `add_operation_id`,
which nothing here reads.
-/

namespace GroupCoordination

-- -------- Rows

inductive InviteRequestStatus
  | pending
  | processing
  | approved
  | rejected
  | failed
  | cancelled
  | expired
  | permanentlyFailed
  deriving DecidableEq

structure GroupInviteRequestRecord where
  requestID : String
  groupID : String
  requesterPeerID : String
  targetPeerID : String
  status : InviteRequestStatus
  failureCode : String := ""
  failureMessage : String := ""
  rejectionReason : String := ""
  attemptCount : Int := 0
  maxAttempts : Int
  processingStartedAt : Option Int := none
  expiresAt : Int
  createdAt : Int
  updatedAt : Int
  isMirror : Bool := false
  deriving DecidableEq

abbrev InviteRequests := List GroupInviteRequestRecord

def InviteRequests.row (rows : InviteRequests) (requestID : String) :
    Option GroupInviteRequestRecord :=
  Table.get GroupInviteRequestRecord.requestID rows requestID

def InviteRequestStatus.isActive (status : InviteRequestStatus) : Bool :=
  status = .pending ∨ status = .processing

def GroupInviteRequestRecord.clashes (a b : GroupInviteRequestRecord) : Bool :=
  a.status.isActive ∧ b.status.isActive ∧ a.groupID = b.groupID ∧ a.targetPeerID = b.targetPeerID

def InviteRequests.indexed (rows : InviteRequests) : Bool :=
  rows.Pairwise fun a b => a.clashes b = false

-- -------- Statements

def InviteRequests.update (rows : InviteRequests) (cond : GroupInviteRequestRecord → Bool)
    (edit : GroupInviteRequestRecord → GroupInviteRequestRecord) : InviteRequests :=
  rows.map fun rec => if cond rec then edit rec else rec

structure InviteRequestTransitionPatch where
  failureCode : Option String := none
  failureMessage : Option String := none
  rejectionReason : Option String := none
  /-- `some none` writes NULL. -/
  processingStartedAt : Option (Option Int) := none
  incrementAttempt : Bool := false
  clearFailure : Bool := false
  deriving DecidableEq

/-- The columns a transition sets. SQLite takes the last of two assignments to a column, so what the
patch gives wins over what it clears. -/
def InviteRequestTransitionPatch.set (patch : InviteRequestTransitionPatch) (now : Int)
    (toStatus : InviteRequestStatus) (rec : GroupInviteRequestRecord) : GroupInviteRequestRecord :=
  let cleared (text : String) := if patch.clearFailure then "" else text
  { rec with
    status := toStatus
    failureCode := (patch.failureCode.map trimSpace).getD (cleared rec.failureCode)
    failureMessage := (patch.failureMessage.map trimSpace).getD (cleared rec.failureMessage)
    rejectionReason := (patch.rejectionReason.map trimSpace).getD (cleared rec.rejectionReason)
    processingStartedAt := patch.processingStartedAt.getD rec.processingStartedAt
    attemptCount := if patch.incrementAttempt then rec.attemptCount + 1 else rec.attemptCount
    updatedAt := now }

def GroupInviteRequestRecord.taken (requestID : String) (fromStatuses : List InviteRequestStatus)
    (rec : GroupInviteRequestRecord) : Bool :=
  rec.requestID = requestID ∧ rec.isMirror = false ∧ rec.status ∈ fromStatuses

structure InviteWorld where
  now : Int
  works : Bool := true
  /-- `requireGroupPermission` for `permissionManageInvites`, and the other checks on a caller. -/
  permitted : Bool := true
  targetIsMember : Except String Bool := .ok false
  invitePeerToGroup : Except String Unit := .ok ()

section

variable (w : InviteWorld)

/-- `TryTransitionInviteRequest`: one conditional `UPDATE`, which fails if the row that it leaves
clashes with another. -/
def tryTransitionInviteRequest (requestID : String)
    (fromStatuses : List InviteRequestStatus) (toStatus : InviteRequestStatus)
    (patch : InviteRequestTransitionPatch) (rows : InviteRequests) :
    Except String (Bool × InviteRequests) :=
  let rows' := rows.update (·.taken requestID fromStatuses) (patch.set w.now toStatus)
  if requestID = "" then .error "TryTransitionInviteRequest: invalid arguments"
  else if w.works ∧ rows'.indexed then
    -- request_id is the primary key: at most one row is affected
    .ok ((rows.row requestID).any (·.taken requestID fromStatuses), rows')
  else .error "TryTransitionInviteRequest"

def maxInviteRetryAttempts : Int := 5

def GroupInviteRequestRecord.stored (rec : GroupInviteRequestRecord) : GroupInviteRequestRecord :=
  { rec with
    failureCode := trimSpace rec.failureCode
    failureMessage := trimSpace rec.failureMessage
    rejectionReason := trimSpace rec.rejectionReason
    createdAt := if rec.createdAt ≤ 0 then w.now else rec.createdAt
    updatedAt := if rec.updatedAt ≤ 0 then w.now else rec.updatedAt
    maxAttempts := if rec.maxAttempts ≤ 0 then 5 else rec.maxAttempts }

def createGroupInviteRequest (rec : GroupInviteRequestRecord)
    (rows : InviteRequests) : Except String InviteRequests :=
  if trimSpace rec.requestID = "" ∨ trimSpace rec.groupID = "" ∨
    trimSpace rec.requesterPeerID = "" ∨
      trimSpace rec.targetPeerID = "" then
    .error "CreateGroupInviteRequest: required fields missing"
  else if rec.expiresAt ≤ 0 then .error "CreateGroupInviteRequest: expires_at is required"
  else if w.works ∧ rows.row rec.requestID = none ∧
    InviteRequests.indexed (rows ++ [rec.stored w]) then
    .ok (rows ++ [rec.stored w])
  else .error "CreateGroupInviteRequest"

/-- `UpsertGroupInviteRequestMirror`: `INSERT OR REPLACE` deletes every row that stands in the way,
under the primary key or under the unique index. -/
def upsertGroupInviteRequestMirror (rec : GroupInviteRequestRecord)
    (rows : InviteRequests) : InviteRequests :=
  let rec' := { rec.stored w with isMirror := true }
  if trimSpace rec.requestID = "" ∨ trimSpace rec.groupID = "" ∨
    trimSpace rec.requesterPeerID = "" ∨
      trimSpace rec.targetPeerID = "" ∨ rec.expiresAt ≤ 0 ∨ w.works = false then rows
  else rows.filter (fun old => ¬ (old.requestID = rec.requestID ∨ rec'.clashes old)) ++ [rec']

def failCorruptProcessingInviteRequests (now : Int) (rows : InviteRequests) : InviteRequests :=
  if w.works then
    rows.update
      (fun rec => rec.isMirror = false ∧ rec.status = .processing ∧ rec.processingStartedAt = none)
      fun rec =>
        { rec with
          status := .failed
          failureCode := "ERR_INVITE_CORRUPT_PROCESSING_STATE"
          failureMessage := "processing request missing processing_started_at"
          updatedAt := if now ≤ 0 then w.now else now }
  else rows

def failStaleProcessingInviteRequests (now processingTimeoutSec : Int)
    (failureCode : String) (rows : InviteRequests) : InviteRequests :=
  if now ≤ 0 ∨ processingTimeoutSec ≤ 0 then rows
  else if w.works then
    rows.update
      (fun rec => rec.isMirror = false ∧ rec.status = .processing ∧
        rec.processingStartedAt.any (now - · > processingTimeoutSec))
      fun rec =>
        { rec with
          status := .failed
          failureCode :=
            if trimSpace failureCode = "" then "ERR_INVITE_PROCESSING_TIMEOUT" else failureCode
          failureMessage := "invite processing timed out"
          updatedAt := now }
  else rows

def expirePendingInviteRequests (now : Int) (rows : InviteRequests) : InviteRequests :=
  let now := if now ≤ 0 then w.now else now
  if w.works then
    rows.update (fun rec => rec.isMirror = false ∧ rec.status = .pending ∧ rec.expiresAt ≤ now)
      fun rec => { rec with status := .expired, updatedAt := now }
  else rows

def listInviteRequestsByStatusesForGroup (groupID : String) (statuses : List InviteRequestStatus)
    (limit : Nat) (rows : InviteRequests) : InviteRequests :=
  let listed := rows.filter fun rec =>
    rec.groupID = groupID ∧ rec.isMirror = false ∧ rec.status ∈ statuses
  (listed.mergeSort fun a b =>
    a.createdAt < b.createdAt ∨ a.createdAt = b.createdAt ∧ a.requestID ≤ b.requestID).take limit

-- -------- Listing

/-- `normalizeInviteRequestStatus`; `none` is the empty text. -/
def normalizeInviteRequestStatus (status : String) : Option InviteRequestStatus :=
  match trimSpace (toLower status) with
  | "pending" => some .pending
  | "processing" => some .processing
  | "approved" => some .approved
  | "rejected" => some .rejected
  | "failed" => some .failed
  | "cancelled" => some .cancelled
  | "expired" => some .expired
  | "permanently_failed" => some .permanentlyFailed
  | _ => none

/-- The order of a listing: by `updated_at`, then by `request_id`. -/
def GroupInviteRequestRecord.position (rec : GroupInviteRequestRecord) : Int ×ₗ String :=
  toLex (rec.updatedAt, rec.requestID)

def GroupInviteRequestRecord.cursor (rec : GroupInviteRequestRecord) : String :=
  toString rec.updatedAt ++ ":" ++ rec.requestID

def parseDigits (cs : List Char) : Option Nat :=
  if cs ≠ [] ∧ cs.all Char.isDigit then some (Nat.ofDigitChars 10 cs 0) else none

/-- `strconv.ParseInt`, base 10, without the bound of 64 bits, which `updated_at` has anyway. -/
def parseInt : List Char → Option Int
  | '-' :: cs => (parseDigits cs).map fun n => -(n : Int)
  | '+' :: cs => (parseDigits cs).map Int.ofNat
  | cs => (parseDigits cs).map Int.ofNat

/-- The position in a cursor; `none` adds no condition to the query. -/
def parseInviteCursor (cursor : String) : Option (Int ×ₗ String) :=
  match cursor.toList.splitOn ':' with
  | [ts, requestID] => (parseInt ts).map fun ts => toLex (ts, String.ofList requestID)
  | _ => none

/-- All rows of the query without cursor and limit. -/
def InviteRequests.listed (rows : InviteRequests) (groupID : String) (statuses : List String) :
    InviteRequests :=
  let filtered := statuses.filterMap normalizeInviteRequestStatus
  let selected := rows.filter fun rec =>
    rec.groupID = trimSpace groupID ∧ (filtered = [] ∨ rec.status ∈ filtered)
  if trimSpace groupID = "" then []
  else selected.insertionSort fun a b => b.position ≤ a.position

def InviteRequests.after (listed : InviteRequests) (cursor : String) : InviteRequests :=
  match parseInviteCursor cursor with
  | some after => listed.filter fun rec : GroupInviteRequestRecord => rec.position < after
  | none => listed

def invitePageLimit (limit : Int) : Nat := if limit ≤ 0 ∨ limit > 100 then 50 else limit.toNat

def listGroupInviteRequests (groupID : String) (statuses : List String) (cursor : String)
    (limit : Int) (rows : InviteRequests) : InviteRequests × String :=
  let limit := invitePageLimit limit
  let out := ((rows.listed groupID statuses).after cursor).take (limit + 1)
  if out.length > limit then
    (out.take limit, (out[limit - 1]?.map GroupInviteRequestRecord.cursor).getD "")
  else (out, "")

-- -------- Mirrors

structure InviteRequestRecordWire where
  requestID : String
  groupID : String
  requesterPeerID : String
  targetPeerID : String
  status : String
  failureCode : String := ""
  failureMessage : String := ""
  rejectionReason : String := ""
  attemptCount : Int := 0
  maxAttempts : Int := 0
  processingStartedAt : Option Int := none
  expiresAt : Int
  createdAt : Int := 0
  updatedAt : Int := 0
  isMirror : Bool := false
  deriving DecidableEq

/-- `inviteWireToRecord`. A status that is none of the known ones is stored as pending. -/
def inviteWireToRecord (wire : InviteRequestRecordWire) : GroupInviteRequestRecord where
  requestID := trimSpace wire.requestID
  groupID := trimSpace wire.groupID
  requesterPeerID := trimSpace wire.requesterPeerID
  targetPeerID := trimSpace wire.targetPeerID
  status := (normalizeInviteRequestStatus (trimSpace wire.status)).getD .pending
  failureCode := trimSpace wire.failureCode
  failureMessage := trimSpace wire.failureMessage
  rejectionReason := trimSpace wire.rejectionReason
  attemptCount := wire.attemptCount
  maxAttempts := wire.maxAttempts
  processingStartedAt := wire.processingStartedAt
  expiresAt := wire.expiresAt
  createdAt := wire.createdAt
  updatedAt := wire.updatedAt
  isMirror := wire.isMirror

inductive MirrorFrame
  | push (op : String) (record : InviteRequestRecordWire)
  /-- The reply to a request that this node forwarded. -/
  | submitReply (ok : Bool) (record : Option InviteRequestRecordWire)
  /-- The reply to `SyncInviteRequestFromCreator`. -/
  | syncReply (ok : Bool) (record : Option InviteRequestRecordWire)
  deriving DecidableEq

/-- `applyInviteRequestPushFromCreator`; `permitted` says that the sender is a verified peer and an
active admin of the record's group. -/
def applyInviteRequestPushFromCreator (op : String)
    (record : InviteRequestRecordWire) (rows : InviteRequests) : InviteRequests :=
  if toLower (trimSpace op) ≠ "push" ∨ trimSpace record.groupID = "" ∨ w.permitted = false then rows
  else upsertGroupInviteRequestMirror w (inviteWireToRecord record) rows

/-- The end of `RequestGroupInvite` and of `SyncInviteRequestFromCreator`: whatever record came back
is stored. `permitted` says that the checks before the request was sent passed. -/
def storeInviteReply (ok : Bool) (record : Option InviteRequestRecordWire)
    (rows : InviteRequests) : InviteRequests :=
  match record with
  | none => rows
  | some wire =>
    if ok = false ∨ w.permitted = false then rows
    else upsertGroupInviteRequestMirror w { inviteWireToRecord wire with isMirror := true } rows

def MirrorFrame.apply (rows : InviteRequests) : MirrorFrame → InviteRequests
  | .push op record => applyInviteRequestPushFromCreator w op record rows
  | .submitReply ok record => storeInviteReply w ok record rows
  | .syncReply ok record => storeInviteReply w ok record rows

-- -------- Tasks

inductive AttemptOutcome
  | exhausted
  | checkFailed (err : String)
  | alreadyMember
  | duplicate
  | addFailed (err : String)
  | added
  deriving DecidableEq

def AttemptOutcome.status : AttemptOutcome → InviteRequestStatus
  | .exhausted => .permanentlyFailed
  | .checkFailed _ | .addFailed _ => .failed
  | .alreadyMember | .duplicate | .added => .approved

def AttemptOutcome.patch : AttemptOutcome → InviteRequestTransitionPatch
  | .exhausted =>
    { failureCode := some "ERR_INVITE_MAX_ATTEMPTS_EXCEEDED"
      failureMessage := some "invite request reached maximum retry attempts" }
  | .checkFailed err =>
    { failureCode := some "ERR_INVITE_MEMBER_CHECK_FAILED", failureMessage := some err }
  | .addFailed err =>
    { failureCode := some "ERR_INVITE_ADD_MEMBER_FAILED"
      failureMessage := some err
      processingStartedAt := some none }
  | .alreadyMember | .duplicate | .added =>
    { processingStartedAt := some none, clearFailure := true }

inductive AttemptPhase
  | lookup
  | claim
  | reread
  | check (rec : GroupInviteRequestRecord)
  | invite (rec : GroupInviteRequestRecord)
  | settle (outcome : AttemptOutcome)
  | link
  deriving DecidableEq

inductive SweepPhase
  | failCorrupt
  | failStale
  | expirePending
  deriving DecidableEq

inductive InviteTask
  | approve (requestID : String)
  | reject (requestID reason : String)
  | rejecting (requestID reason : String)
  | switchAnyMember (groupID : String)
  /-- `processInviteRequest`, and the requests that a policy switch handles after it. -/
  | attempt (requestID : String) (allowAnyMember : Bool) (phase : AttemptPhase)
      (queue : List String)
  | sweep (now : Int) (phase : SweepPhase)
  | submit (requestID groupID requesterPeerID targetPeerID : String) (anyMember : Bool)
  | done
  deriving DecidableEq

def InviteTask.ofQueue : List String → InviteTask
  | [] => .done
  | requestID :: queue => .attempt requestID true .lookup queue

def requireInviteManagerForRequest (requestID : String) (rows : InviteRequests) : Bool :=
  w.works ∧ w.permitted ∧ (rows.row requestID).any fun rec => rec.isMirror = false

def reportsDuplicate (text : String) : Bool :=
  let msg := (toLower text).toList
  "already".toList <:+: msg ∨ "duplicate".toList <:+: msg

def AttemptOutcome.ofInvite : Except String Unit → AttemptOutcome
  | .ok () => .added
  | .error err => if reportsDuplicate err then .duplicate else .addFailed err

structure TaskResult where
  task : InviteTask
  rows : InviteRequests
  invited : Bool := false

def processInviteRequest (requestID : String) (allowAnyMember : Bool)
    (queue : List String) (rows : InviteRequests) : AttemptPhase → TaskResult
  | .lookup =>
    match rows.row requestID with
    | none => ⟨.ofQueue queue, rows, false⟩
    | some rec =>
      if w.works = false ∨ rec.isMirror ∨ (allowAnyMember = false ∧ w.permitted = false) then
        ⟨.ofQueue queue, rows, false⟩
      else ⟨.attempt requestID allowAnyMember .claim queue, rows, false⟩
  | .claim =>
    match tryTransitionInviteRequest w requestID [.pending, .failed] .processing
        { processingStartedAt := some (some w.now), incrementAttempt := true, clearFailure := true }
        rows with
    | .error _ => ⟨.ofQueue queue, rows, false⟩
    | .ok (false, rows) => ⟨.ofQueue queue, rows, false⟩
    | .ok (true, rows) => ⟨.attempt requestID allowAnyMember .reread queue, rows, false⟩
  | .reread =>
    match rows.row requestID with
    | none => ⟨.ofQueue queue, rows, false⟩
    | some rec =>
      if w.works = false then ⟨.ofQueue queue, rows, false⟩
      else if rec.attemptCount > rec.maxAttempts then
        ⟨.attempt requestID allowAnyMember (.settle .exhausted) queue, rows, false⟩
      else ⟨.attempt requestID allowAnyMember (.check rec) queue, rows, false⟩
  | .check rec =>
    match w.targetIsMember with
    | .error err =>
      ⟨.attempt requestID allowAnyMember (.settle (.checkFailed err)) queue, rows, false⟩
    | .ok true => ⟨.attempt requestID allowAnyMember (.settle .alreadyMember) queue, rows, false⟩
    | .ok false => ⟨.attempt requestID allowAnyMember (.invite rec) queue, rows, false⟩
  | .invite _ =>
    ⟨.attempt requestID allowAnyMember (.settle (.ofInvite w.invitePeerToGroup)) queue, rows, true⟩
  | .settle outcome =>
    match tryTransitionInviteRequest w requestID
      [.processing] outcome.status outcome.patch rows with
    | .error _ => ⟨.ofQueue queue, rows, false⟩
    | .ok (_, rows) =>
      -- only an attempt that added the target goes on to link its operation
      ⟨if outcome = .added then .attempt requestID allowAnyMember .link queue else .ofQueue queue,
        rows, false⟩
  | .link =>
    ⟨.ofQueue queue,
      if w.works then
        rows.update (fun rec => rec.requestID = requestID) fun rec =>
          { rec with updatedAt := w.now }
      else rows, false⟩

def InviteTask.step (rows : InviteRequests) : InviteTask → TaskResult
  | .approve requestID =>
    if requireInviteManagerForRequest w requestID rows then
      ⟨.attempt requestID false .lookup [], rows, false⟩
    else ⟨.done, rows, false⟩
  | .reject requestID reason =>
    if requireInviteManagerForRequest w requestID rows then
      ⟨.rejecting requestID reason, rows, false⟩
    else ⟨.done, rows, false⟩
  | .rejecting requestID reason =>
    match tryTransitionInviteRequest w requestID [.pending] .rejected
        { rejectionReason := some (trimSpace reason), clearFailure := true } rows with
    | .error _ => ⟨.done, rows, false⟩
    | .ok (_, rows) => ⟨.done, rows, false⟩
  | .switchAnyMember groupID =>
    if w.works then
      ⟨.ofQueue ((listInviteRequestsByStatusesForGroup groupID [.pending, .failed] 500 rows).map
        (·.requestID)), rows, false⟩
    else ⟨.done, rows, false⟩
  | .attempt requestID allowAnyMember phase queue =>
    processInviteRequest w requestID allowAnyMember queue rows phase
  | .sweep now .failCorrupt =>
    ⟨.sweep now .failStale, failCorruptProcessingInviteRequests w now rows, false⟩
  | .sweep now .failStale =>
    ⟨.sweep now .expirePending,
      failStaleProcessingInviteRequests w now 300 "ERR_INVITE_PROCESSING_TIMEOUT" rows, false⟩
  | .sweep now .expirePending => ⟨.done, expirePendingInviteRequests w now rows, false⟩
  | .submit requestID groupID requesterPeerID targetPeerID anyMember =>
    if w.permitted then
      match createGroupInviteRequest w
          { requestID, groupID, requesterPeerID, targetPeerID
            status := .pending
            maxAttempts := maxInviteRetryAttempts
            expiresAt := w.now + 7 * 24 * 3600
            createdAt := w.now
            updatedAt := w.now } rows with
      | .error _ => ⟨.done, rows, false⟩
      | .ok rows =>
        ⟨if anyMember then .attempt requestID false .lookup [] else .done, rows, false⟩
    else ⟨.done, rows, false⟩
  | .done => ⟨.done, rows, false⟩

end

-- -------- The system

inductive InviteCall
  | approveGroupInviteRequest (requestID : String)
  | retryGroupInviteRequest (requestID : String)
  | rejectGroupInviteRequest (requestID reason : String)
  | setAnyMemberPolicy (groupID : String)
  | runInviteMaintenanceSweep (now : Int)
  | rpcSubmitInviteRequest (requestID groupID requesterPeerID targetPeerID : String)
      (anyMember : Bool)
  deriving DecidableEq

def InviteCall.task : InviteCall → InviteTask
  | .approveGroupInviteRequest requestID => .approve requestID
  | .retryGroupInviteRequest requestID => .approve requestID
  | .rejectGroupInviteRequest requestID reason => .reject requestID reason
  | .setAnyMemberPolicy groupID => .switchAnyMember groupID
  | .runInviteMaintenanceSweep now => .sweep now .failCorrupt
  | .rpcSubmitInviteRequest requestID groupID requesterPeerID targetPeerID anyMember =>
    .submit requestID groupID requesterPeerID targetPeerID anyMember

structure InviteDesk where
  rows : InviteRequests := []
  tasks : List InviteTask := []
  invited : List String := []
  deriving DecidableEq

inductive InviteAction
  | call (c : InviteCall)
  | advance (i : Nat) (w : InviteWorld)
  | crash
  | mirror (w : InviteWorld) (rec : GroupInviteRequestRecord)
  | purge (groupID : String)

def InviteTask.requestID : InviteTask → String
  | .attempt requestID _ _ _ => requestID
  | _ => ""

def InviteDesk.advance (desk : InviteDesk) (i : Nat) (task : InviteTask) (w : InviteWorld) :
    InviteDesk :=
  let result := task.step w desk.rows
  { rows := result.rows
    tasks := desk.tasks.set i result.task
    invited := if result.invited then desk.invited ++ [task.requestID] else desk.invited }

def inviteStep : InviteAction → InviteDesk → Option InviteDesk
  | .call c, desk => some { desk with tasks := desk.tasks ++ [c.task] }
  | .advance i w, desk => desk.tasks[i]?.map fun task => desk.advance i task w
  | .crash, desk => some { desk with tasks := [] }
  | .mirror w rec, desk => some { desk with rows := upsertGroupInviteRequestMirror w rec desk.rows }
  | .purge groupID, desk => some { desk with rows := desk.rows.filter (·.groupID ≠ groupID) }

end GroupCoordination
