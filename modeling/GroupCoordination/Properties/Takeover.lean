import GroupCoordination.Properties.Sessions

/-!
# Taking a session over

Two devices hold one identity: the old one runs a session, the new one has imported the identity,
which starts its session anew. A remote peer knows both under one peer id and decides between them
by the start that each of them claims, which is a reading of the device's own clock.
-/

namespace GroupCoordination

open Fallible

variable {keys : AuthKeys} {me : LocalAuth} {signingKey : Bytes} {token : InvitationToken}
  {p p' : PeerAuth} {hs : AuthHandshakeMsg} {cfg : SessionConfig}

-- -------- Messages of a device

/-- The identity that the devices share, as the remote peer sees it. -/
structure SoundIdentity (keys : AuthKeys) (signingKey : Bytes) (token : InvitationToken) :
    Prop where
  signed : keys.verifyToken token = true
  keySize : token.publicKey.length = ed25519PublicKeySize
  signature : ∀ startedAt nonce, keys.signClaim signingKey token.peerID startedAt nonce ≠ []
  verifies : ∀ startedAt nonce,
    keys.verifyClaim token.publicKey token.peerID startedAt nonce
      (keys.signClaim signingKey token.peerID startedAt nonce) = true

/-- A message of the device with this configuration: its own handshake, or a reply that carries
it. -/
def SentBy (keys : AuthKeys) (signingKey : Bytes) (token : InvitationToken) (cfg : SessionConfig)
    (hs : AuthHandshakeMsg) : Prop :=
  ∃ nonce now, 8 ≤ nonce.length ∧ hs.token = token ∧
    hs.session = (cfg.buildLocalAuthHandshake keys signingKey token nonce now).1.session

theorem SentBy.session_start (h : SentBy keys signingKey token cfg hs) {start : Int}
    (hcfg : cfg.startedAt = some start) : hs.session.startedAt = start := by
  obtain ⟨nonce, now, -, -, hsession⟩ := h
  simp [hsession, SessionConfig.buildLocalAuthHandshake,
    SessionConfig.getOrCreateSessionStartedAt, hcfg,
    buildSessionClaim]

section

variable (hid : SoundIdentity keys signingKey token)

include hid

theorem verifySessionClaim_build {startedAt : Int} {nonce : Bytes}
    (hpos : startedAt > 0) (hnonce : 8 ≤ nonce.length) :
    verifySessionClaim keys
      (buildSessionClaim keys signingKey token.peerID startedAt nonce) token.peerID
      token.publicKey = .ok () := by
  simp [verifySessionClaim, buildSessionClaim, require, hpos, hnonce, hid.signature, hid.keySize,
    hid.verifies]
  rfl

theorem SentBy.verifySession
    (h : SentBy keys signingKey token cfg hs) : verifySession keys hs = .ok () := by
  obtain ⟨nonce, now, hnonce, htoken, hsession⟩ := h
  unfold GroupCoordination.verifySession
  split
  next hpos =>
    rw [htoken, hsession]
    rw [hsession] at hpos
    exact verifySessionClaim_build hid hpos hnonce
  · rfl

theorem SentBy.verifyPeerToken
    (h : SentBy keys signingKey token cfg hs) {now : Int} (hvalid : now ≤ token.expiresAt) :
    verifyPeerToken keys now hs.token token.peerID = .ok () := by
  obtain ⟨-, -, -, htoken, -⟩ := h
  unfold GroupCoordination.verifyPeerToken
  rw [htoken, require_eq_ok hid.signed, require_eq_ok hvalid, require_eq_ok rfl]
  rfl

end

def HandshakePhase.message : HandshakePhase → Option AuthHandshakeMsg
  | .received _ hs | .checking _ hs | .evicting _ hs | .answering _ hs | .storing _ hs => some hs
  | _ => none

def PeerAuth.Reads (said : AuthHandshakeMsg → Prop) (p : PeerAuth) : Prop :=
  ∀ task ∈ p.tasks, ∀ hs, task.phase.message = some hs → said hs

def Says (said : AuthHandshakeMsg → Prop) (p : PeerAuth) : AuthAction → Prop
  | .incoming _ hs => said hs
  | .advance i w =>
    ∀ task conn, p.tasks[i]? = some task → task.phase = .awaiting conn → said w.reply
  | _ => True

theorem HandshakeTask.step_message {remote : String} {inbound : Bool} {w : AuthWorld}
    {phase phase' : HandshakePhase} {q : PeerAuth}
    (h : step keys me remote w inbound p phase = some (q, phase')) :
    phase'.message = none ∨ phase'.message = phase.message ∨
      (∃ conn, phase = .awaiting conn) ∧ phase'.message = some w.reply := by
  cases phase with
  | guarded =>
    simp only [step, Option.some.injEq] at h
    split at h
    · cases h
      exact .inl rfl
    · cases h
      exact .inl rfl
  | opening =>
    cases h
    exact .inl (by split <;> rfl)
  | awaiting conn =>
    cases h
    split
    · exact .inr (.inr ⟨⟨conn, rfl⟩, rfl⟩)
    · exact .inl rfl
  | received conn hs =>
    have hverify : verify keys me remote w.now inbound conn hs p = (q, phase') := Option.some.inj h
    unfold verify at hverify
    split at hverify
    · cases hverify
      exact .inl rfl
    split at hverify
    · cases hverify
      exact .inl rfl
    split at hverify
    · cases hverify
      exact .inl rfl
    · cases hverify
      exact .inr (.inl rfl)
  | checking conn hs =>
    simp only [step, Option.some.injEq] at h
    split at h
    · cases h
      exact .inl rfl
    · cases h
      exact .inr (.inl rfl)
  | evicting conn hs =>
    cases h
    exact .inr (.inl (by split <;> rfl))
  | answering conn hs =>
    cases h
    split
    · exact .inr (.inl rfl)
    · exact .inl rfl
  | storing conn hs =>
    cases h
    exact .inl rfl
  | finished outcome => cases h

theorem PeerAuth.advance_step {remote : String} {i : Nat} {w : AuthWorld}
    (h : p.advance keys me remote i w = some p') :
    ∃ inbound old q new, p.tasks[i]? = some ⟨inbound, old⟩ ∧
      HandshakeTask.step keys me remote w inbound p old = some (q, new) ∧
      p'.tasks = p.tasks.set i ⟨inbound, new⟩ := by
  obtain ⟨⟨inbound, old⟩, htask, h⟩ := Option.bind_eq_some_iff.mp h
  obtain ⟨⟨q, new⟩, hstep, h⟩ := Option.bind_eq_some_iff.mp h
  obtain rfl := Option.some.inj h
  exact ⟨inbound, old, q, new, htask, hstep, rfl⟩

theorem PeerAuth.Reads.append {said : AuthHandshakeMsg → Prop} {task : HandshakeTask}
    (h : p.Reads said)
    (htasks : p'.tasks = p.tasks ++ [task]) (hnew : ∀ hs, task.phase.message = some hs → said hs) :
    p'.Reads said := by
  intro t ht hs hmsg
  rw [htasks] at ht
  rcases List.mem_append.mp ht with hold | hlast
  · exact h t hold hs hmsg
  · obtain rfl := List.mem_singleton.mp hlast
    exact hnew hs hmsg

theorem PeerAuth.Reads.step {said : AuthHandshakeMsg → Prop} {remote : String} {a : AuthAction}
    (h : p.Reads said) (hheard : Says said p a) (hstep : authStep keys me remote a p = some p') :
    p'.Reads said := by
  cases a with
  | connect conn | close conn | disconnected conn | clear =>
    simp only [authStep] at hstep
    split at hstep <;> cases hstep
    exact h
  | incoming conn hs =>
    cases hstep
    exact h.append rfl fun hs' hmsg => Option.some.inj hmsg ▸ hheard
  | initiateHandshake =>
    simp only [authStep, Option.some.injEq] at hstep
    split at hstep <;> cases hstep
    · exact h
    · exact h.append rfl fun hs' hmsg => by cases hmsg
  | advance i w =>
    obtain ⟨inbound, old, q, new, htask, hmove, htasks⟩ := advance_step hstep
    intro t ht hs hmsg
    rw [htasks] at ht
    rcases List.mem_or_eq_of_mem_set ht with hold | rfl
    · exact h t hold hs hmsg
    dsimp only at hmsg
    rcases HandshakeTask.step_message hmove with hnone | hsame | ⟨⟨conn, rfl⟩, hreply⟩
    · cases hnone.symm.trans hmsg
    · exact h _ (List.mem_of_getElem? htask) hs (hsame.symm.trans hmsg)
    · cases hreply.symm.trans hmsg
      exact hheard _ conn htask rfl

-- -------- The old device and the new one

/-- A step in which the messages of the identity are those of the two devices, whose token has not
expired, and no handshake is disturbed. -/
structure OfDevices (keys : AuthKeys) (signingKey : Bytes) (token : InvitationToken)
    (old new : SessionConfig) (p : PeerAuth) (a : AuthAction) : Prop where
  undisturbed : HandshakeUndisturbed keys token.peerID p a
  messages : Says (fun hs => SentBy keys signingKey token old hs ∨
    SentBy keys signingKey token new hs) p a
  valid : ∀ i w, a = .advance i w → w.now ≤ token.expiresAt

def HandshakePhase.Refused (phase : HandshakePhase) : Prop :=
  (∃ superseding, phase = .finished (.stale superseding)) ∨ ∃ reason,
    phase = .finished (.insecure reason)

structure PeerAuth.Knows (keys : AuthKeys) (signingKey : Bytes) (token : InvitationToken)
    (old new : SessionConfig) (p : PeerAuth) : Prop where
  orderly : p.Orderly
  reads : p.Reads fun hs => SentBy keys signingKey token old hs ∨
    SentBy keys signingKey token new hs
  entry : ∀ v, p.verified = some v →
    old.startedAt = some v.sessionStarted ∨ new.startedAt = some v.sessionStarted

theorem HandshakePhase.message_of_accepted {phase : HandshakePhase} {conn : Nat}
    (h : phase.accepted = some (conn, hs)) : phase.message = some hs := by
  cases phase <;> cases h <;> rfl

section
variable {old new : SessionConfig} {start later : Int} (hold : old.startedAt = some start)
  (hnew : new.startedAt = some later)

include hold hnew

theorem PeerAuth.Knows.step {a : AuthAction} (h : p.Knows keys signingKey token old new)
    (hof : OfDevices keys signingKey token old new p a)
    (hstep : authStep keys me token.peerID a p = some p') :
    p'.Knows keys signingKey token old new where
  orderly := h.orderly.step hof.undisturbed hstep
  reads := h.reads.step hof.messages hstep
  entry := by
    intro v hv
    rcases authStep_verified hstep with hsame | ⟨hnone, -⟩ |
      ⟨i, conn, hs, ⟨task, htask, hacc⟩, hstored⟩
    · exact h.entry v (hsame ▸ hv)
    · cases hnone.symm.trans hv
    cases hstored.symm.trans hv
    have hmsg := HandshakePhase.message_of_accepted hacc
    rcases h.reads task (List.mem_of_getElem? htask) hs hmsg with hsent | hsent
    · exact .inl (hold.trans (congrArg some (hsent.session_start hold).symm))
    · exact .inr (hnew.trans (congrArg some (hsent.session_start hnew).symm))

theorem PeerAuth.Knows.stays {a : AuthAction} (h : p.Knows keys signingKey token old new)
    (hlater : start < later) (hkept : a ≠ .clear)
    (hstep : authStep keys me token.peerID a p = some p')
    (hentry : p.verified.map (·.sessionStarted) = some later) :
    p'.verified.map (·.sessionStarted) = some later := by
  obtain ⟨v, hv, rfl⟩ := Option.map_eq_some_iff.mp hentry
  rcases authStep_verified hstep with hsame | ⟨-, hclear⟩ | ⟨i, conn, hs, hacc, hstored⟩
  · rw [hsame, hv]
    rfl
  · exact absurd hclear hkept
  have hle := h.orderly.newer i conn hs hacc v hv
  obtain ⟨task, htask, hacc⟩ := hacc
  have hmsg := HandshakePhase.message_of_accepted hacc
  rw [hstored]
  rcases h.reads task (List.mem_of_getElem? htask) hs hmsg with hsent | hsent
  · rw [hsent.session_start hold] at hle
    omega
  · exact congrArg some (hsent.session_start hnew)

theorem PeerAuth.Knows.not_refused (hid : SoundIdentity keys signingKey token)
    (h : p.Knows keys signingKey token old new) (hlater : start < later) {w : AuthWorld}
    (hvalid : w.now ≤ token.expiresAt) {inbound : Bool} {phase phase' : HandshakePhase}
    {q : PeerAuth}
    (hstep : HandshakeTask.step keys me token.peerID w inbound p phase = some (q, phase'))
    (hmsg : phase.message = some hs) (hsent : SentBy keys signingKey token new hs) :
    ¬ phase'.Refused := by
  cases phase with
  | received conn hs =>
    cases hmsg
    simp only [HandshakeTask.step, HandshakeTask.verify, hsent.verifyPeerToken hid hvalid,
      hsent.verifySession hid, Option.some.injEq] at hstep
    split at hstep <;> cases hstep <;> simp [HandshakePhase.Refused]
  | checking conn hs =>
    cases hmsg
    have haccept : acceptSession p.verified hs.session.startedAt = .ok () := by
      unfold acceptSession
      split
      next v hv =>
        refine require_eq_ok ?_
        rw [hsent.session_start hnew]
        rcases h.entry v hv with hstart | hstart
        · cases hold.symm.trans hstart
          exact hlater.le
        · cases hnew.symm.trans hstart
          exact le_rfl
      · rfl
    simp only [HandshakeTask.step, haccept, Option.some.injEq] at hstep
    cases hstep
    simp [HandshakePhase.Refused]
  | evicting conn hs =>
    cases hstep
    cases inbound <;> simp [HandshakePhase.Refused]
  | answering conn hs =>
    cases hstep
    split <;> simp [HandshakePhase.Refused]
  | storing conn hs =>
    cases hstep
    simp [HandshakePhase.Refused]
  | guarded | opening | awaiting | finished => cases hmsg

end

theorem PeerAuth.knows_start {old new : SessionConfig} :
    Knows keys signingKey token old new {} where
  orderly := orderly_start
  reads := by rintro task htask; cases htask
  entry := by rintro v hv; cases hv

/-- Once the identity is imported on a device whose clock then shows a later time than the session
of the old device started at: in every run on the messages of the two devices that disturbs no
handshake, the handshakes of the new device are not refused, and from the time its session is
recorded to the time the entry is cleared, those of the old device are refused as stale. -/
theorem newer_device_takes_over (keys : AuthKeys) (me : LocalAuth) (signingKey : Bytes)
    (token : InvitationToken) (hid : SoundIdentity keys signingKey token) (old cfg : SessionConfig)
    (start now : Int) (hold : old.startedAt = some start) (hclock : start < now) (p : PeerAuth)
    (run : Transition.Run (authStep keys me token.peerID)
      (OfDevices keys signingKey token old (cfg.applyIdentityImportSideEffects now)) {} p) :
    (∀ i w p' task task' hs,
      OfDevices keys signingKey token old (cfg.applyIdentityImportSideEffects now) p
        (.advance i w) →
      authStep keys me token.peerID (.advance i w) p = some p' → p.tasks[i]? = some task →
      task.phase.message = some hs →
      SentBy keys signingKey token (cfg.applyIdentityImportSideEffects now) hs →
      p'.tasks[i]? = some task' → ¬ task'.phase.Refused) ∧
    (p.verified.map (·.sessionStarted) = some now → ∀ q,
      Transition.Run (authStep keys me token.peerID)
        (fun r a => OfDevices keys signingKey token old
          (cfg.applyIdentityImportSideEffects now) r a ∧
          a ≠ .clear) p q →
      q.verified.map (·.sessionStarted) = some now ∧
        ∀ i w q' task conn hs, authStep keys me token.peerID (.advance i w) q = some q' →
          q.tasks[i]? = some task → task.phase = .checking conn hs →
          SentBy keys signingKey token old hs →
          ∃ superseding,
            q'.tasks[i]? = some { task with phase := .finished (.stale superseding) }) := by
  have hnew : (cfg.applyIdentityImportSideEffects now).startedAt = some now := rfl
  have hknows : p.Knows keys signingKey token old (cfg.applyIdentityImportSideEffects now) :=
    run.invariant _ PeerAuth.knows_start fun _ _ _ h ok next => h.step hold hnew ok next
  constructor
  · intro i w p' task task' hs hof hstep htask hmsg hsent htask'
    obtain ⟨inbound, phase, q, phase', hthis, hmove, htasks⟩ := PeerAuth.advance_step hstep
    cases hthis.symm.trans htask
    have hnext : p'.tasks[i]? = some ⟨inbound, phase'⟩ := by
      rw [htasks, List.getElem?_set_self (List.getElem?_eq_some_iff.mp hthis).1]
    cases hnext.symm.trans htask'
    exact hknows.not_refused hold hnew hid hclock (hof.valid i w rfl) hmove hmsg hsent
  intro hentry q run'
  have hq : q.Knows keys signingKey token old (cfg.applyIdentityImportSideEffects now) ∧
      q.verified.map (·.sessionStarted) = some now :=
    run'.invariant
      (fun r => r.Knows keys signingKey token old (cfg.applyIdentityImportSideEffects now) ∧
        r.verified.map (·.sessionStarted) = some now) ⟨hknows, hentry⟩ fun _ _ _ h ok next =>
      ⟨h.1.step hold hnew ok.1 next, h.1.stays hold hnew hclock ok.2 next h.2⟩
  refine ⟨hq.2, ?_⟩
  intro i w q' task conn hs hstep htask hphase hsent
  obtain ⟨inbound, phase, r, phase', hthis, hmove, htasks⟩ := PeerAuth.advance_step hstep
  cases hthis.symm.trans htask
  obtain rfl := hphase
  obtain ⟨v, hv, hstarted⟩ := Option.map_eq_some_iff.mp hq.2
  have hrefuse : acceptSession q.verified hs.session.startedAt = .error v.session := by
    rw [hv, hsent.session_start hold]
    exact if_neg (by omega)
  simp only [HandshakeTask.step, hrefuse, Option.some.injEq] at hmove
  cases hmove
  refine ⟨v.session, ?_⟩
  rw [htasks, List.getElem?_set_self (List.getElem?_eq_some_iff.mp hthis).1]

namespace Reference

def startedAt (start : Int) : SessionConfig := { startedAt := some start }

def importedAt (now : Int) :
    SessionConfig := ({} : SessionConfig).applyIdentityImportSideEffects now

def deviceHandshake (cfg : SessionConfig) : AuthHandshakeMsg :=
  (cfg.buildLocalAuthHandshake openKeys [] peerToken (List.replicate 16 3) 0).1

theorem sentBy_deviceHandshake {cfg : SessionConfig} :
    SentBy openKeys [] peerToken cfg (deviceHandshake cfg) :=
  ⟨List.replicate 16 3, 0, by decide, rfl, rfl⟩

theorem openKeys_sound : SoundIdentity openKeys [] peerToken where
  signed := rfl
  keySize := rfl
  signature := fun _ _ => List.cons_ne_nil _ _
  verifies := fun _ _ => rfl

/-- A connection on which a device makes its handshake, as the one in place `i`, which ends in `n`
steps. -/
def deviceConnects (i : Nat) (cfg : SessionConfig) (n : Nat) : List AuthAction :=
  [.connect i, .incoming i (deviceHandshake cfg)] ++ handshakeSteps i n

def ofDevices (old new : SessionConfig) (p : PeerAuth) (a : AuthAction) : Bool :=
  undisturbed p a &&
    match a with
    | .incoming _ hs => hs = deviceHandshake old ∨ hs = deviceHandshake new
    | .advance i w =>
      w.now ≤ peerToken.expiresAt ∧ p.tasks[i]?.all fun task => task.phase.message.isSome
    | _ => true

theorem ofDevices_sound {old new : SessionConfig} {p : PeerAuth} {a : AuthAction}
    (h : ofDevices old new p a = true) : OfDevices openKeys [] peerToken old new p a := by
  obtain ⟨hun, h⟩ := Bool.and_eq_true_iff.mp h
  refine ⟨undisturbed_sound hun, ?_, ?_⟩
  · cases a with
    | incoming conn hs =>
      rcases of_decide_eq_true h with rfl | rfl
      · exact .inl sentBy_deviceHandshake
      · exact .inr sentBy_deviceHandshake
    | advance i w =>
      intro task conn htask hphase
      have hread := (of_decide_eq_true h).2
      rw [htask, Option.all_some, hphase] at hread
      cases hread
    | _ => trivial
  · rintro i w rfl
    exact (of_decide_eq_true h).1

end Reference

open Reference in
/-- A device imported the identity at 10, after another one that started at 5. Its session stays,
and the old device that connects again is refused. -/
theorem imported_device_takes_over :
    ∃ p q q', p.verified.map (·.sessionStarted) = some 10 ∧
      Transition.Run authRun
        (fun r a => OfDevices openKeys [] peerToken (startedAt 5) (importedAt 10) r a ∧ a ≠ .clear)
        p q ∧
      authRun (.advance 2 authWorld) q = some q' ∧
      q.tasks[2]? = some ⟨true, .checking 2 (deviceHandshake (startedAt 5))⟩ ∧
      q.verified.map (·.sessionStarted) = some 10 ∧
      ∃ superseding, q'.tasks[2]? = some ⟨true, .finished (.stale superseding)⟩ := by
  have hrun : ∃ p, Transition.Run authRun
        (OfDevices openKeys [] peerToken (startedAt 5) (importedAt 10)) {} p ∧
      p.verified.map (·.sessionStarted) = some 10 ∧
      (Transition.exec (fun a s => if ofDevices (startedAt 5) (importedAt 10) s a then authRun a s
        else none) (deviceConnects 2 (startedAt 5) 1) p).any (fun q => decide
          (q.tasks[2]? = some ⟨true, .checking 2 (deviceHandshake (startedAt 5))⟩)) = true :=
    Transition.Run.exists_of_checked
      (deviceConnects 0 (startedAt 5) 5 ++ deviceConnects 1 (importedAt 10) 5)
      (ofDevices (startedAt 5) (importedAt 10))
      (fun _ _ _ => ofDevices_sound) (by decide +kernel)
  obtain ⟨p, run, hp, hagain⟩ := hrun
  obtain ⟨q, run', htask⟩ : ∃ q, Transition.Run authRun (fun r a =>
        OfDevices openKeys [] peerToken (startedAt 5) (importedAt 10) r a ∧ a ≠ .clear) p q ∧
      q.tasks[2]? = some ⟨true, .checking 2 (deviceHandshake (startedAt 5))⟩ := by
    refine Transition.Run.exists_of_checked _ _ (fun _ a ha hok => ⟨ofDevices_sound hok, ?_⟩) hagain
    rintro rfl
    simp [deviceConnects, handshakeSteps] at ha
  obtain ⟨hverified, hrefused⟩ := (newer_device_takes_over openKeys meAuth [] peerToken
    openKeys_sound (startedAt 5) {} 5 10 rfl (by decide) p run).2 hp q run'
  obtain ⟨q', hstep⟩ : ∃ q', authRun (.advance 2 authWorld) q = some q' := by
    simp [authRun, authStep, PeerAuth.advance, htask, HandshakeTask.step]
  exact ⟨p, q, q', hp, run', hstep, htask, hverified,
    hrefused 2 authWorld q' _ 2 _ hstep htask rfl sentBy_deviceHandshake⟩

namespace Reference

/-- How the handshake in place `i` ends, and the start of the session that is then recorded. -/
def takeoverEnd (i : Nat) (actions : List AuthAction) :
    Option (Option HandshakePhase × Option Int) :=
  (Transition.exec authRun actions {}).map fun p =>
    (p.tasks[i]?.map (·.phase), p.verified.map (·.sessionStarted))

def newDeviceLeaves : List AuthAction := [.close 1, .disconnected 1, .clear]

end Reference

open Reference in
/-- With a clock that is behind, the device that imported the identity is refused as stale; with the
same reading on both, the old device is verified again; and so it is once the new device has
disconnected. -/
theorem takeovers_by_clock :
    takeoverEnd 1
        (deviceConnects 0 (startedAt 10) 5 ++
          deviceConnects 1 (importedAt 5) 2) =
      some (some (.finished (.stale (deviceHandshake (startedAt 10)).session)),
        some 10) ∧
    takeoverEnd 2
        (deviceConnects 0 (startedAt 5) 5 ++
          deviceConnects 1 (importedAt 5) 5 ++
          deviceConnects 2 (startedAt 5) 5) =
      some (some (.finished .verified), some 5) ∧
    takeoverEnd 2
        (deviceConnects 0 (startedAt 5) 5 ++
          deviceConnects 1 (importedAt 10) 5 ++ newDeviceLeaves ++
          deviceConnects 2 (startedAt 5) 5) =
      some (some (.finished .verified), some 5) := by
  decide +kernel

end GroupCoordination
