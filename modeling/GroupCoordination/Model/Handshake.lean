import GroupCoordination.Lib.Fallible
import GroupCoordination.Lib.Run
import GroupCoordination.Model.Types

/-!
# Auth handshakes

`auth_protocol.go`, `session_claim.go` and the session part of `session.go`: what a node knows about
the sessions of one remote peer. Each stream is handled by a goroutine of its own and nothing holds
a lock from the check of a session to the store of it, so a handshake is a task that takes one step
at a time beside the others, beside new and closing connections and beside the notifications about
closed ones. Entries of different peers do not meet.

Left out: the callbacks of a verified peer, the profile that is sent along, and the blacklist, which
only refuses connections.
-/

namespace GroupCoordination

open Fallible (require)

-- -------- Tokens and claims

structure InvitationToken where
  displayName : String := ""
  peerID : String
  publicKey : Bytes
  issuedAt : Int := 0
  expiresAt : Int
  signature : Bytes := []
  deriving DecidableEq

structure SessionClaim where
  startedAt : Int := 0
  nonce : Bytes := []
  signature : Bytes := []
  deriving DecidableEq

structure AuthKeys where
  verifyToken : InvitationToken → Bool
  /-- `ed25519.Sign` of a claim's payload: private key, peer id, start, nonce. -/
  signClaim : Bytes → String → Int → Bytes → Bytes
  /-- `ed25519.Verify` of it: public key, peer id, start, nonce, signature. -/
  verifyClaim : Bytes → String → Int → Bytes → Bytes → Bool

def ed25519PublicKeySize : Nat := 32

variable (keys : AuthKeys)

def buildSessionClaim (signingKey : Bytes) (peerID : String) (startedAt : Int)
    (nonce : Bytes) : SessionClaim :=
  { startedAt, nonce, signature := keys.signClaim signingKey peerID startedAt nonce }

def verifySessionClaim (claim : SessionClaim) (tokenPeerID : String)
    (tokenPubKey : Bytes) : Except String Unit := do
  require (claim.startedAt > 0) "invalid session started_at"
  require (8 ≤ claim.nonce.length) "invalid session nonce"
  require (claim.signature ≠ []) "missing session signature"
  require (tokenPubKey.length = ed25519PublicKeySize) "invalid token public key length"
  require (keys.verifyClaim tokenPubKey tokenPeerID claim.startedAt claim.nonce claim.signature)
    "invalid session signature"

def verifyPeerToken (now : Int) (token : InvitationToken)
    (authenticatedPeerID : String) : Except String Unit := do
  require (keys.verifyToken token) "invalid Admin signature"
  require (now ≤ token.expiresAt) "token expired"
  require (token.peerID = authenticatedPeerID) "PeerID mismatch"

structure AuthHandshakeMsg where
  token : InvitationToken
  /-- A node that sends its bare token has a claim that starts at 0. -/
  session : SessionClaim := {}
  error : String := ""
  supersedingSession : SessionClaim := {}
  deriving DecidableEq

def authErrorSessionReplaced : String := "session_replaced"

/-- A claim that starts at 0 or before is not checked. -/
def verifySession (hs : AuthHandshakeMsg) : Except String Unit :=
  if hs.session.startedAt > 0 then verifySessionClaim keys hs.session hs.token.peerID
    hs.token.publicKey
  else .ok ()

structure VerifiedPeerState where
  token : InvitationToken
  sessionStarted : Int
  session : SessionClaim
  deriving DecidableEq

/-- The check of `acceptSession`; a session that is refused is told which one superseded it. -/
def acceptSession (verified : Option VerifiedPeerState) (startedAt : Int) :
    Except SessionClaim Unit :=
  match verified with
  | some existing => require (existing.sessionStarted ≤ startedAt) existing.session
  | none => .ok ()

-- -------- The session of a device

structure SessionConfig where
  startedAt : Option Int := none
  replacedAt : Option Int := none
  killPending : Bool := false
  deriving DecidableEq

def SessionConfig.getOrCreateSessionStartedAt (cfg : SessionConfig) (now : Int) :
    Int × SessionConfig :=
  match cfg.startedAt with
  | some startedAt => (startedAt, cfg)
  | none => (now, { cfg with startedAt := some now })

def SessionConfig.applyIdentityImportSideEffects (cfg : SessionConfig) (now : Int) :
    SessionConfig :=
  { cfg with startedAt := some now, replacedAt := none, killPending := true }

def SessionConfig.buildLocalAuthHandshake (signingKey : Bytes)
    (token : InvitationToken) (nonce : Bytes) (cfg : SessionConfig) (now : Int) :
    AuthHandshakeMsg × SessionConfig :=
  let (startedAt, cfg) := cfg.getOrCreateSessionStartedAt now
  ({ token, session := buildSessionClaim keys signingKey token.peerID startedAt nonce }, cfg)

-- -------- Handshakes under way

inductive HandshakeOutcome
  | verified
  /-- Refused, because this session superseded it. -/
  | stale (superseding : SessionClaim)
  | insecure (reason : String)
  | transient
  /-- The remote peer answers that this node's own session is superseded. -/
  | replaced
  | skipped
  deriving DecidableEq

inductive HandshakePhase
  | guarded
  | opening
  | awaiting (conn : Nat)
  | received (conn : Nat) (hs : AuthHandshakeMsg)
  | checking (conn : Nat) (hs : AuthHandshakeMsg)
  | evicting (conn : Nat) (hs : AuthHandshakeMsg)
  | answering (conn : Nat) (hs : AuthHandshakeMsg)
  | storing (conn : Nat) (hs : AuthHandshakeMsg)
  | finished (outcome : HandshakeOutcome)
  deriving DecidableEq

structure HandshakeTask where
  inbound : Bool
  phase : HandshakePhase
  deriving DecidableEq

structure PeerAuth where
  verified : Option VerifiedPeerState := none
  conns : List Nat := []
  /-- Connections that are closed and whose `Disconnected` has not run. -/
  closed : List Nat := []
  /-- Runs of `Disconnected` that found no connection and are about to delete the entry. -/
  clearing : Nat := 0
  handshaking : Bool := false
  /-- The session that is known to have superseded this node's own. -/
  localReplaced : Option SessionClaim := none
  tasks : List HandshakeTask := []
  deriving DecidableEq

def PeerAuth.closeConns (p : PeerAuth) (keep : Nat → Bool) : PeerAuth :=
  { p with conns := p.conns.filter keep, closed := p.closed ++ p.conns.filter fun c => ¬ keep c }

structure AuthWorld where
  now : Int
  works : Bool := true
  conn : Nat := 0
  reply : AuthHandshakeMsg

structure LocalAuth where
  token : InvitationToken
  session : SessionClaim
  deriving DecidableEq

variable (me : LocalAuth) (remote : String)

def LocalAuth.verifySupersedingLocalSession (claim : SessionClaim) : Bool :=
  claim.startedAt > me.session.startedAt ∧
    (verifySessionClaim keys claim me.token.peerID me.token.publicKey).isOk

def HandshakeTask.verify (now : Int) (inbound : Bool)
    (conn : Nat) (hs : AuthHandshakeMsg) (p : PeerAuth) : PeerAuth × HandshakePhase :=
  match verifyPeerToken keys now hs.token remote with
  -- `rejectSecurity` closes every connection of the peer
  | .error reason => (p.closeConns fun _ => false, .finished (.insecure reason))
  | .ok () =>
    if inbound = false ∧ hs.error = authErrorSessionReplaced then
      (if me.verifySupersedingLocalSession keys hs.supersedingSession then
          { p with localReplaced := some hs.supersedingSession }
        else p, .finished .replaced)
    else
      match verifySession keys hs with
      | .error reason => (p.closeConns fun _ => false, .finished (.insecure reason))
      | .ok () => (p, .checking conn hs)

def HandshakeTask.step (w : AuthWorld)
    (inbound : Bool) (p : PeerAuth) : HandshakePhase → Option (PeerAuth × HandshakePhase)
  | .guarded =>
    some (if p.handshaking then (p, .finished .skipped)
      else ({ p with handshaking := true }, .opening))
  | .opening => some (p, if w.works then .awaiting w.conn else .finished .transient)
  | .awaiting conn => some (p, if w.works then .received conn w.reply else .finished .transient)
  | .received conn hs => some (verify keys me remote w.now inbound conn hs p)
  | .checking conn hs =>
    some (p,
      match acceptSession p.verified hs.session.startedAt with
      | .error superseding => .finished (.stale superseding)
      | .ok () => .evicting conn hs)
  | .evicting conn hs =>
    some (p.closeConns (· = conn), if inbound then .answering conn hs else .storing conn hs)
  | .answering conn hs => some (p, if w.works then .storing conn hs else .finished .transient)
  | .storing _ hs =>
    some ({ p with verified := some ⟨hs.token, hs.session.startedAt, hs.session⟩ },
      .finished .verified)
  | .finished _ => none

def PeerAuth.release (p : PeerAuth) (inbound : Bool) : HandshakePhase → PeerAuth
  | .finished .skipped => p
  | .finished _ => if inbound then p else { p with handshaking := false }
  | _ => p

inductive AuthAction
  | connect (conn : Nat)
  | close (conn : Nat)
  | disconnected (conn : Nat)
  | clear
  | incoming (conn : Nat) (hs : AuthHandshakeMsg)
  | initiateHandshake
  | advance (i : Nat) (w : AuthWorld)

def PeerAuth.advance (p : PeerAuth) (i : Nat) (w : AuthWorld) : Option PeerAuth := do
  let task ← p.tasks[i]?
  let (p', phase) ← HandshakeTask.step keys me remote w task.inbound p task.phase
  return { p'.release task.inbound phase with tasks := p.tasks.set i { task with phase } }

def authStep :
    AuthAction → PeerAuth → Option PeerAuth
  | .connect conn, p =>
    if conn ∈ p.conns ∨ conn ∈ p.closed then none else some { p with conns := p.conns ++ [conn] }
  | .close conn, p => if conn ∈ p.conns then some (p.closeConns (· ≠ conn)) else none
  | .disconnected conn, p =>
    if conn ∈ p.closed then
      some { p with
        closed := p.closed.erase conn
        clearing := if p.conns = [] then p.clearing + 1 else p.clearing }
    else none
  | .clear, p =>
    if p.clearing = 0 then none else some { p with clearing := p.clearing - 1, verified := none }
  | .incoming conn hs, p => some { p with tasks := p.tasks ++ [⟨true, .received conn hs⟩] }
  | .initiateHandshake, p =>
    some (if p.verified.isSome then p else { p with tasks := p.tasks ++ [⟨false, .guarded⟩] })
  | .advance i w, p => p.advance keys me remote i w

end GroupCoordination
