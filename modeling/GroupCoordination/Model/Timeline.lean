import Mathlib.Data.List.Sort
import Mathlib.Data.Prod.Lex

/-!
# The timeline of a chat

`timelineState.ts`, and what `useChatStore` does with it to the messages of one group. The keys
`sender`, `commentCount` and `replayedAt` are only shown and are left out.
-/

namespace GroupCoordination

inductive ChatMessageStatus
  | sending | published | failed
  deriving DecidableEq

inductive ChatMessageKind
  | user | system
  deriving DecidableEq

structure ChatMessage where
  id : String
  groupId : String
  content : String
  timestamp : Int
  isMine : Bool
  status : ChatMessageStatus
  kind : ChatMessageKind
  localEchoToken : Option String
  supersedesMessageId : Option String
  deriving DecidableEq

namespace ChatMessage

def supersedes (s m : ChatMessage) : Bool := s.supersedesMessageId = some m.id ∧ m.id ≠ ""

def isLocal (m : ChatMessage) : Bool := "local:".toList.isPrefixOf m.id.toList

/-- The placeholder of a message that was sent here and has not failed. -/
def isPending (m : ChatMessage) : Bool := m.isLocal ∧ m.isMine ∧ m.status ≠ .failed

end ChatMessage

-- -------- Reconciling

section Reconcile

variable {κ : Type} [LinearOrder κ] (collate : String ↪ κ) (trim : String → String)

/-- What `compareMessagesByTimeline` compares. `localeCompare` compares ids by their keys, and no
two ids have the same. -/
def timelineKey (m : ChatMessage) : Int ×ₗ κ := toLex (m.timestamp, collate m.id)

def reconcileTimelineMessages (messages : List ChatMessage) : List ChatMessage :=
  let next := messages.insertionSort (timelineKey collate · ≤ timelineKey collate ·)
  next.filter fun m => !next.any (·.supersedes m)

/-- A message that takes the place of another has all of its keys. -/
def mergeMessage (merged : List ChatMessage) (message : ChatMessage) : List ChatMessage :=
  match merged.findIdx? (·.id = message.id) with
  | some i => merged.set i message
  | none => merged ++ [message]

def mergeTimelineMessages (existing incoming : List ChatMessage) : List ChatMessage :=
  reconcileTimelineMessages collate (incoming.foldl mergeMessage existing)

def insertSortedUniqueMessage (existing : List ChatMessage) (message : ChatMessage) :
    List ChatMessage :=
  mergeTimelineMessages collate existing [message]

def ChatMessage.echoes (canonical m : ChatMessage) : Bool :=
  m.isPending ∧ canonical.isMine ∧ m.localEchoToken.map trim = canonical.localEchoToken.map trim ∧
    (canonical.localEchoToken.map trim).any (· ≠ "")

def findOptimisticByLocalEchoToken (existing : List ChatMessage) (canonical : ChatMessage) :
    Option Nat :=
  existing.findIdx? (canonical.echoes trim)

def ChatMessage.resembles (canonical m : ChatMessage) : Bool :=
  m.isPending ∧ canonical.isMine ∧ m.kind = .user ∧ m.groupId = canonical.groupId ∧
    trim m.content = trim canonical.content ∧ trim canonical.content ≠ ""

def chooseOptimisticCandidateIndex (existing : List ChatMessage) (canonical : ChatMessage) :
    Option Nat :=
  let candidates := existing.zipIdx.filter (canonical.resembles trim ·.1)
  let notAfterCanonical := candidates.filter (·.1.timestamp ≤ canonical.timestamp)
  let preferredPool := if notAfterCanonical.isEmpty then candidates else notAfterCanonical
  let sorted := preferredPool.insertionSort fun a b =>
    a.1.timestamp < b.1.timestamp ∨ a.1.timestamp = b.1.timestamp ∧ a.2 ≤ b.2
  sorted.head?.map (·.2)

def reconcileCanonicalWithOptimistic (existing : List ChatMessage) (canonical : ChatMessage) :
    List ChatMessage :=
  match (findOptimisticByLocalEchoToken trim existing canonical).or
      (chooseOptimisticCandidateIndex trim existing canonical) with
  | none => insertSortedUniqueMessage collate existing canonical
  | some i => reconcileTimelineMessages collate (existing.eraseIdx i ++
      [{ canonical with status := .published }])

def upsertPublishedMessage (existing : List ChatMessage) (message : ChatMessage) :
    List ChatMessage :=
  let published := { message with status := .published }
  if existing.any (·.id = message.id) then insertSortedUniqueMessage collate existing published
  else if message.isMine then reconcileCanonicalWithOptimistic collate trim existing published
  else insertSortedUniqueMessage collate existing published

def updateMessageStatus (existing : List ChatMessage) (messageId : String)
    (status : ChatMessageStatus) : List ChatMessage :=
  existing.map fun m => if m.id = messageId then { m with status } else m

/-- The message that `handleSendMessage` pushes. -/
def optimisticMessage (groupId token content : String) (timestamp : Int) : ChatMessage where
  id := "local:" ++ token
  groupId := groupId
  content := content
  timestamp := timestamp
  isMine := true
  status := .sending
  kind := .user
  localEchoToken := some token
  supersedesMessageId := none

end Reconcile

-- -------- Unread messages

structure UnreadAnchorState where
  anchorId : Option String
  count : Nat
  deriving DecidableEq

/-- The messages of a list that were not in the one before. -/
def newMessages (previous next : List ChatMessage) : List ChatMessage :=
  next.filter fun m => !previous.any (·.id = m.id)

def relevantIncomingMessages (previous next : List ChatMessage) : List ChatMessage :=
  (newMessages previous next).filter fun m => !m.isMine && m.kind = .user

def computeUnreadAnchorUpdate (previous next : List ChatMessage) (current : UnreadAnchorState)
    (isAtBottom suppressTracking : Bool) : UnreadAnchorState :=
  let insertedIntoHistory := (newMessages previous next).any fun m =>
    next.findIdx (·.id = m.id) < previous.length
  let relevant := relevantIncomingMessages previous next
  if suppressTracking then current
  else if newMessages previous next = [] then current
  else if isAtBottom ∧ ¬ insertedIntoHistory then ⟨none, 0⟩
  else if relevant = [] then current
  else
    let orderedUnread := next.filter fun m =>
      m.id ≠ "" ∧ current.anchorId = some m.id ∨ relevant.any (·.id = m.id)
    ⟨orderedUnread.head?.map (·.id), orderedUnread.length⟩

end GroupCoordination
