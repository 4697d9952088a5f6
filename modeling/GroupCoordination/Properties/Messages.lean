import GroupCoordination.Model.Reference
import GroupCoordination.Refinement.Operations

/-!
# What becomes of a received message

The rows an application envelope leaves in the message table, and under whose name. The
rows of one envelope share its hash and the table keeps one row per hash, so a batch leaves
one message. The name comes from a field of the envelope that its sender fills in.
-/

namespace GroupCoordination

-- -------- Rows of one envelope

namespace Storage

variable {d : Disk} {db db' : Storage}

theorem foldl_putMessage_messages (msgs : List StoredMessage) (db : Storage)
    (h : ∀ msg ∈ msgs, msg.envelopeHash = envelopeHash) :
    (msgs.foldl putMessage db).messages =
      if envelopeHash ∈ db.messages.map (·.envelopeHash) then db.messages
      else db.messages ++ (msgs.find? (·.content.isSome)).toList := by
  induction msgs generalizing db with
  | nil => simp
  | cons msg msgs ih =>
    have hmsg := h msg List.mem_cons_self
    rw [List.foldl_cons, ih (db.putMessage msg) fun m hm => h m (List.mem_cons_of_mem msg hm)]
    cases hc : msg.content with
    | none => simp [putMessage, hc]
    | some content =>
      by_cases hold : envelopeHash ∈ db.messages.map (·.envelopeHash)
      · simp [putMessage, hc, Table.insertOrIgnore, hmsg, hold]
      · simp [putMessage, hc, Table.insertOrIgnore, hmsg, hold]

theorem applyEnvelope_messages
    (h : applyEnvelope d op name db record msgs msgType wire ts epoch = .ok (true, db')) :
    db'.messages = if d.hash wire ∈ db.messages.map (·.envelopeHash) then db.messages
      else db.messages ++ ((msgs.map fun msg =>
        { msg with envelopeHash := d.hash wire, messageID := d.hash wire }).find?
          (·.content.isSome)).toList := by
  obtain ⟨hfalse, -⟩ | ⟨-, -, rfl⟩ := applyEnvelope_ok h
  · cases hfalse
  rw [putEnvelope_eq]
  exact foldl_putMessage_messages _ (db.putGroupRecord record) (by simp)

end Storage

section Handlers

variable {x : Ctx} {s s' : State}

theorem saveCurrentGroupStateLocked_tables (x : Ctx) (s : State) :
    ∃ db, s.unlessError (saveCurrentGroupStateLocked x s) = { s with storage := db } ∧
      db.messages = s.storage.messages ∧ db.applied = s.storage.applied := by
  cases h : saveCurrentGroupStateLocked x s with
  | error => exact ⟨s.storage, rfl, rfl, rfl⟩
  | ok s' =>
    obtain ⟨record, -, -, hstore⟩ := saveCurrentGroupStateLocked_stores h
    obtain ⟨db, hr, rfl⟩ := State.store_ok hstore
    obtain ⟨-, -, rfl⟩ := Disk.exec_ok hr
    exact ⟨_, rfl, rfl, rfl⟩

/-- A batch leaves the tables as they were, or its first message with content unless the
envelope has one. -/
theorem storeBatchLocked_tables (x : Ctx) (s : State) :
    (storeBatchLocked x msgs newState env wire s).delivered = s.delivered ∧
      ((storeBatchLocked x msgs newState env wire s).storage.messages = s.storage.messages ∧
          (storeBatchLocked x msgs newState env wire s).storage.applied = s.storage.applied ∨
        msgs ≠ [] ∧ (storeBatchLocked x msgs newState env wire s).storage.messages =
          if x.disk.hash wire ∈ s.storage.messages.map (·.envelopeHash) then s.storage.messages
          else s.storage.messages ++
            ((msgs.map (·.identified x wire)).find? (·.content.isSome)).toList) := by
  obtain ⟨db, hs, hmessages, happlied⟩ :=
    saveCurrentGroupStateLocked_tables x { s with groupState := newState }
  unfold storeBatchLocked
  dsimp only
  rw [hs]
  cases hap : Storage.applyBatchedApplication x.disk db
      (sameEpochRecord x newState { s with groupState := newState, storage := db }) msgs env.type
      wire env.timestamp env.epoch with
  | error => exact ⟨rfl, .inl ⟨hmessages, happlied⟩⟩
  | ok result =>
    obtain ⟨applied, db'⟩ := result
    refine ⟨rfl, ?_⟩
    unfold Storage.applyBatchedApplication at hap
    split at hap
    · cases hap
    rename_i hne
    cases applied with
    | false =>
      obtain rfl := Storage.applyEnvelope_false hap
      exact .inl ⟨hmessages, happlied⟩
    | true =>
      have hrows := Storage.applyEnvelope_messages hap
      rw [hmessages] at hrows
      exact .inr ⟨hne, hrows⟩

theorem markReplayResultLocked_tables (x : Ctx) (result : ReplayEnvelopeResult) (s : State) :
    (markReplayResultLocked x result s).delivered = s.delivered ∧
      (markReplayResultLocked x result s).storage.messages = s.storage.messages ∧
      (markReplayResultLocked x result s).storage.applied = s.storage.applied := by
  unfold markReplayResultLocked
  split
  · exact ⟨rfl, rfl, rfl⟩
  unfold State.storeOrWarn
  split
  next hmark =>
    obtain rfl | rfl := Storage.markEnvelopeReplayState_ok hmark
    · exact ⟨rfl, rfl, rfl⟩
    · exact ⟨rfl, rfl, rfl⟩
  · exact ⟨rfl, rfl, rfl⟩

theorem handleApplicationBatchedLocked_tables (x : Ctx) («from» : PeerID) (env : Envelope)
    (wire : Wire) (s : State) :
    (handleApplicationBatchedLocked x «from» env wire s).delivered = s.delivered ∧
      ((handleApplicationBatchedLocked x «from» env wire s).storage.messages = s.storage.messages ∧
          (handleApplicationBatchedLocked x «from» env wire s).storage.applied =
            s.storage.applied ∨
        ∃ ciphertext plaintext newState events,
          env.payload = .applicationBatched ciphertext ∧
          x.engine.decryptMessage s.groupState ciphertext = .ok (plaintext, newState) ∧
          x.codec.decodeBatch plaintext = some events ∧ events ≠ [] ∧
          (handleApplicationBatchedLocked x «from» env wire s).storage.messages =
            if x.disk.hash wire ∈ s.storage.messages.map (·.envelopeHash) then s.storage.messages
            else s.storage.messages ++ ((events.map fun ev => (ev.message env
              (decodeEnvelopePeerID x.peers env.from «from») []).identified x wire).find?
                (·.content.isSome)).toList) := by
  unfold handleApplicationBatchedLocked
  dsimp only
  split
  · obtain ⟨hd, htables⟩ := markReplayResultLocked_tables x _ s
    exact ⟨hd, .inl htables⟩
  split
  · exact ⟨rfl, .inl ⟨rfl, rfl⟩⟩
  split
  next ciphertext hpayload =>
    split
    · exact ⟨rfl, .inl ⟨rfl, rfl⟩⟩
    rename_i plaintext newState hdecrypt
    split
    · exact ⟨rfl, .inl ⟨rfl, rfl⟩⟩
    rename_i events hdecode
    rw [foldl_deliverBatchedEvent]
    obtain ⟨hd, htables | ⟨hne, hrows⟩⟩ := storeBatchLocked_tables x s
    · exact ⟨hd, .inl htables⟩
    refine ⟨hd, .inr ⟨ciphertext, plaintext, newState, events, hpayload, hdecrypt, hdecode, ?_, ?_⟩⟩
    · rintro rfl
      exact hne rfl
    · rw [hrows, List.map_map]
      rfl
  · exact ⟨rfl, .inl ⟨rfl, rfl⟩⟩

end Handlers

-- -------- Batches

/-- A batch whose envelope was applied has left a message for each of its events, with its
content, sender and time, exactly if it has one event and that has content. -/
theorem batch_stored_without_loss_iff (x : Ctx) («from» : PeerID) (env : Envelope) (wire : Wire)
    (s : State) (ciphertext plaintext newState : Bytes) (events : List ApplicationEventPayload)
    (hempty : s.storage.messages = []) (hpayload : env.payload = .applicationBatched ciphertext)
    (hdecrypt : x.engine.decryptMessage s.groupState ciphertext = .ok (plaintext, newState))
    (hdecode : x.codec.decodeBatch plaintext = some events)
    (hfresh : s.storage.hasApplied (x.disk.hash wire) = false)
    (happlied : (handleApplicationBatchedLocked x «from» env wire s).storage.hasApplied
      (x.disk.hash wire) = true) :
    (events.map fun ev =>
        (ev.plaintext, decodeEnvelopePeerID x.peers env.from «from», ev.hlc)).Subperm
      ((handleApplicationBatchedLocked x «from» env wire s).storage.messages.map fun msg =>
        (msg.content, msg.senderID, msg.timestamp)) ↔
      ∃ ev, events = [ev] ∧ ev.plaintext.isSome = true := by
  obtain ⟨-, ⟨-, hsame⟩ | ⟨ciphertext', plaintext', newState', events', hpayload', hdecrypt',
    hdecode', hne, hrows⟩⟩ := handleApplicationBatchedLocked_tables x «from» env wire s
  · unfold Storage.hasApplied at hfresh happlied
    rw [hsame, hfresh] at happlied
    cases happlied
  obtain rfl := Payload.applicationBatched.inj (hpayload.symm.trans hpayload')
  obtain ⟨rfl, rfl⟩ := Prod.mk.inj (Except.ok.inj (hdecrypt.symm.trans hdecrypt'))
  obtain rfl := Option.some.inj (hdecode.symm.trans hdecode')
  rw [hrows, hempty]
  simp only [List.map_nil, List.not_mem_nil, if_false, List.nil_append]
  match events with
  | [] => exact absurd rfl hne
  | [ev] =>
    cases hcontent : ev.plaintext with
    | none | some content =>
      simp [StoredMessage.identified, ApplicationEventPayload.message, hcontent]
  | ev :: ev' :: rest =>
    -- One row at most, for two events at least.
    refine iff_of_false (fun hsub => ?_) (by simp)
    have hlen := hsub.length_le
    generalize List.find? _ _ = row at hlen
    cases row <;> simp at hlen

namespace Reference

def batch (plaintext : Bytes) : Envelope :=
  { type := .applicationBatched, groupID := "g", epoch := 0, «from» := "B", timestamp := {},
    payload := .applicationBatched (9 :: 0 :: plaintext) }

def receivesBatch (plaintext : Bytes) (s : State) : State :=
  handleApplicationBatchedLocked receiver [66] (batch plaintext) (batch plaintext).marshal s

end Reference

open Reference in
/-- A batch of one event is stored. -/
theorem batch_of_one_stored :
    ∃ s, boot (member [65]) [[65], [66]] = some s ∧
      [(some [42], [66], {})].Subperm ((receivesBatch [42] s).storage.messages.map
        fun msg => (msg.content, msg.senderID, msg.timestamp)) := by
  obtain ⟨s, hboot, hempty, hdecrypt, hfresh, happlied⟩ :
      ∃ s, boot (member [65]) [[65], [66]] = some s ∧ s.storage.messages = [] ∧
        (receiver.engine.decryptMessage s.groupState [9, 0, 42]).toOption = some ([42], [1, 0]) ∧
        s.storage.hasApplied (receiver.disk.hash (batch [42]).marshal) = false ∧
        (receivesBatch [42] s).storage.hasApplied
          (receiver.disk.hash (batch [42]).marshal) = true := by
    decide +kernel
  exact ⟨s, hboot, (batch_stored_without_loss_iff receiver [66] (batch [42])
    (batch [42]).marshal s [9, 0, 42] [42] [1, 0] _ hempty rfl
    (Fallible.toOption_eq_some hdecrypt) rfl hfresh happlied).mpr ⟨_, rfl, rfl⟩⟩

open Reference in
/-- A batch of two events is applied, so it is never taken again, and leaves one message. -/
theorem batch_of_two_loses_one :
    ∃ s events, boot (member [65]) [[65], [66]] = some s ∧
      receiver.codec.decodeBatch [42, 43] = some events ∧ events.length = 2 ∧
      (receivesBatch [42, 43] s).storage.hasApplied
        (receiver.disk.hash (batch [42, 43]).marshal) = true ∧
      (receivesBatch [42, 43] s).storage.messages.map (·.content) = [some [42]] := by
  simp only [exists_and_left]
  decide +kernel

-- -------- Senders

/-- A message that was stored or given to the user on the way from one state to another. -/
def Surfaced (s s' : State) (msg : StoredMessage) : Prop :=
  msg ∈ s'.storage.messages ∧ msg ∉ s.storage.messages ∨
    ∃ d ∈ s'.delivered, d ∉ s.delivered ∧ d.message = msg

def SurfacesAs (sender : PeerID) (s s' : State) :
    Prop := ∀ msg, Surfaced s s' msg → msg.senderID = sender

section Senders

variable {x : Ctx} {s s' s'' : State}

theorem SurfacesAs.of_same (hm : s'.storage.messages = s.storage.messages)
    (hd : s'.delivered = s.delivered) : SurfacesAs sender s s' := by
  rintro msg (⟨hnew, hold⟩ | ⟨d, hnew, hold, -⟩)
  · exact absurd (hm ▸ hnew) hold
  · exact absurd (hd ▸ hnew) hold

theorem SurfacesAs.congr (h : SurfacesAs sender s s')
    (hm : s''.storage.messages = s'.storage.messages)
    (hd : s''.delivered = s'.delivered) : SurfacesAs sender s s'' := by
  intro msg hsurfaced
  refine h msg ?_
  rwa [Surfaced, hm, hd] at hsurfaced

theorem conclude_surfaces (h : SurfacesAs sender s s') :
    SurfacesAs sender s (conclude x result s').2 := by
  obtain ⟨hd, hm, -⟩ := markReplayResultLocked_tables x result s'
  exact h.congr hm hd

theorem sendDeliveryAckLocked_surfaces (h : SurfacesAs sender s s') :
    SurfacesAs sender s (sendDeliveryAckLocked x target envelopeHash s') := by
  unfold sendDeliveryAckLocked
  split
  · exact h
  · exact h.congr rfl rfl

theorem deliverLocked_surfaces (h : deliverLocked x msg newState env wire s = .ok (applied, s')) :
    SurfacesAs msg.senderID s s' := by
  unfold deliverLocked at h
  obtain ⟨⟨applied', db⟩, hap, h⟩ := Fallible.bind_ok h
  dsimp only at h
  split at h
  · cases h
    exact .of_same rfl rfl
  rename_i hok
  obtain rfl : applied' = true := by simpa using hok
  cases h
  have hrows := Storage.applyEnvelope_messages hap
  rintro m (⟨hnew, hold⟩ | ⟨d, hnew, hold, rfl⟩)
  · change m ∈ db.messages at hnew
    rw [hrows] at hnew
    split at hnew
    · exact absurd hnew hold
    rcases List.mem_append.mp hnew with hnew | hnew
    · exact absurd hnew hold
    have hfound := List.mem_of_find?_eq_some (Option.mem_toList.mp hnew)
    simp at hfound
    rw [hfound]
  · rcases List.mem_append.mp hnew with hnew | hnew
    · exact absurd hnew hold
    · rw [List.mem_singleton.mp hnew]
      rfl

theorem handleApplicationLocked_surfaces (x : Ctx) («from» : PeerID) (env : Envelope) (wire : Wire)
    (s : State) : SurfacesAs (decodeEnvelopePeerID x.peers env.from «from») s
      (handleApplicationLocked x «from» env wire s) := by
  unfold handleApplicationLocked handleApplicationDetailedLocked
  dsimp only
  split
  · exact conclude_surfaces (.of_same rfl rfl)
  split
  · exact conclude_surfaces (.of_same rfl rfl)
  · exact conclude_surfaces (.of_same rfl rfl)
  unfold processApplicationLocked
  split
  · split
    · exact conclude_surfaces (.of_same rfl rfl)
    dsimp only
    split
    · exact conclude_surfaces (.of_same rfl rfl)
    split
    · exact conclude_surfaces (.of_same rfl rfl)
    next hdeliver =>
      exact conclude_surfaces (deliverLocked_surfaces hdeliver)
    next hdeliver =>
      exact conclude_surfaces (sendDeliveryAckLocked_surfaces (deliverLocked_surfaces hdeliver))
  · exact conclude_surfaces (.of_same rfl rfl)

theorem handleApplicationBatchedLocked_surfaces (x : Ctx) («from» : PeerID) (env : Envelope)
    (wire : Wire) (s : State) : SurfacesAs (decodeEnvelopePeerID x.peers env.from «from») s
      (handleApplicationBatchedLocked x «from» env wire s) := by
  obtain ⟨hd, ⟨hm, -⟩ | ⟨_, _, _, events, -, -, -, -, hrows⟩⟩ :=
    handleApplicationBatchedLocked_tables x «from» env wire s
  · exact .of_same hm hd
  rintro msg (⟨hnew, hold⟩ | ⟨d, hnew, hold, -⟩)
  · rw [hrows] at hnew
    split at hnew
    · exact absurd hnew hold
    rcases List.mem_append.mp hnew with hnew | hnew
    · exact absurd hnew hold
    obtain ⟨ev, -, rfl⟩ := List.mem_map.mp
      (List.mem_of_find?_eq_some (Option.mem_toList.mp hnew))
    rfl
  · exact absurd (hd ▸ hnew) hold

theorem appendEnvelope_surfaces (x : Ctx) (s : State) :
    SurfacesAs sender s (s.storeOrWarn
      (Storage.appendEnvelopeWithSource x.disk s.storage msgType epoch ts wire source)) := by
  cases h : Storage.appendEnvelopeWithSource x.disk s.storage msgType epoch ts wire source with
  | error => exact .of_same rfl rfl
  | ok db =>
    refine .of_same ?_ rfl
    obtain rfl | ⟨_, _, rfl⟩ := Storage.appendEnvelopeWithSource_writes h
    · rfl
    · rfl

/-- While the coordinator catches up or heals, a message goes to the log and a batch nowhere. -/
theorem handleAcceptedLocked_surfaces (call : Call → State → State) (wire : Wire)
    (htype : env.type = .application ∨ env.type = .applicationBatched) :
    SurfacesAs (decodeEnvelopePeerID x.peers env.from «from») s
      (handleAcceptedLocked x call «from» env wire s) := by
  have hcontrol : ¬ (env.type = .commit ∨ env.type = .application) →
      handleControlMessageLocked x «from» env s = s := by
    intro hne
    rcases htype with htype | htype
    · exact absurd (.inr htype) hne
    · rw [handleControlMessageLocked, htype]
  unfold handleAcceptedLocked
  split
  · split
    · split
      · exact appendEnvelope_surfaces x s
      · exact .of_same rfl rfl
    next hne =>
      rw [hcontrol hne]
      exact .of_same rfl rfl
  · split
    · exact appendEnvelope_surfaces x s
    next hne =>
      rw [hcontrol hne]
      exact .of_same rfl rfl
  unfold handleLiveLocked
  rcases htype with htype | htype
  · rw [htype]
    exact handleApplicationLocked_surfaces x «from» env wire s
  · rw [htype]
    exact handleApplicationBatchedLocked_surfaces x «from» env wire s

theorem decodeEnvelopePeerID_idem (C : PeerCodec) (name : String) :
    decodeEnvelopePeerID C name (decodeEnvelopePeerID C name fallback) =
      decodeEnvelopePeerID C name fallback := by
  unfold decodeEnvelopePeerID
  by_cases hname : name = ""
  · simp [hname]
  · cases h : C.decode name <;> simp [hname]

theorem dispatchLocked_surfaces (call : Call → State → State) (henv : wire.unmarshal = some env)
    (htype : env.type = .application ∨ env.type = .applicationBatched) :
    SurfacesAs (decodeEnvelopePeerID x.peers env.from []) s (dispatchLocked x call wire s) := by
  rw [← decodeEnvelopePeerID_idem]
  unfold dispatchLocked
  rw [henv]
  rcases htype with htype | htype
  · simp only [htype]
    exact handleApplicationLocked_surfaces x _ env wire s
  · simp only [htype]
    exact handleApplicationBatchedLocked_surfaces x _ env wire s

theorem replayEnvelope_surfaces (call : Call → State → State) (henv : wire.unmarshal = some env)
    (htype : env.type = .application ∨ env.type = .applicationBatched) :
    SurfacesAs (decodeEnvelopePeerID x.peers env.from []) s (replayEnvelope x call wire s).2 := by
  rw [← decodeEnvelopePeerID_idem]
  unfold replayEnvelope
  split
  · exact .of_same rfl rfl
  rw [henv]
  dsimp only
  split
  · exact .of_same rfl rfl
  split
  · exact .of_same rfl rfl
  rcases htype with htype | htype
  · simp only [htype]
    exact handleApplicationLocked_surfaces x _ env wire s
  · simp only [htype]
    exact .of_same rfl rfl

end Senders

theorem decodeEnvelopePeerID_eq_iff (C : PeerCodec) (name : String) (fallback pid : PeerID) :
    decodeEnvelopePeerID C name fallback = pid ↔
      name ≠ "" ∧ C.decode name = some pid ∨
        (name = "" ∨ C.decode name = none) ∧ fallback = pid := by
  unfold decodeEnvelopePeerID
  by_cases hname : name = ""
  · simp [hname]
  · cases h : C.decode name <;> simp [hname]

/-- A message that is handed over by a peer, its publisher or another, goes under the name of its
publisher exactly if the envelope names the publisher, or names no one and the publisher handed
it over. One that was kept for a later epoch, or came from the log, does so exactly if the
envelope names the publisher. -/
theorem sender_is_publisher_iff (x : Ctx) (call : Call → State → State) (publisher hop : PeerID)
    (wire : Wire) (env : Envelope) (s : State) (msg : StoredMessage) (hpublisher : publisher ≠ [])
    (henv : wire.unmarshal = some env)
    (htype : env.type = .application ∨ env.type = .applicationBatched) :
    (Surfaced s (handleRawMessage x call hop wire s) msg →
      (msg.senderID = publisher ↔
        env.from ≠ "" ∧ x.peers.decode env.from = some publisher ∨
          (env.from = "" ∨ x.peers.decode env.from = none) ∧ hop = publisher)) ∧
    (Surfaced s (dispatchLocked x call wire s) msg ∨
      Surfaced s (replayEnvelope x call wire s).2 msg →
      (msg.senderID = publisher ↔ env.from ≠ "" ∧ x.peers.decode env.from = some publisher)) := by
  constructor
  · intro hsurfaced
    have hsender : msg.senderID = decodeEnvelopePeerID x.peers env.from hop := by
      unfold handleRawMessage at hsurfaced
      cases haccept : acceptsRaw x hop wire with
      | none =>
        rw [haccept] at hsurfaced
        exact SurfacesAs.of_same rfl rfl msg hsurfaced
      | some env' =>
        obtain rfl := Option.some.inj ((acceptsRaw_unmarshal haccept).symm.trans henv)
        rw [haccept] at hsurfaced
        exact handleAcceptedLocked_surfaces call wire htype msg hsurfaced
    rw [hsender, decodeEnvelopePeerID_eq_iff]
  · intro hsurfaced
    have hsender : msg.senderID = decodeEnvelopePeerID x.peers env.from [] := by
      rcases hsurfaced with hsurfaced | hsurfaced
      · exact dispatchLocked_surfaces call henv htype msg hsurfaced
      · exact replayEnvelope_surfaces call henv htype msg hsurfaced
    rw [hsender, decodeEnvelopePeerID_eq_iff]
    exact or_iff_left fun h => hpublisher h.2.symm

namespace Reference

def named (name : String) : Envelope :=
  { type := .application, groupID := "g", epoch := 0, «from» := name, timestamp := {},
    payload := .application [9, 0, 42] }

def receivesNamed (name : String) (hop : PeerID) (s : State) : State :=
  handleRawMessage receiver (run receiver 4) hop (named name).marshal s

end Reference

open Reference in
/-- A message that names its publisher goes under that name, whoever handed it over. -/
theorem honest_sender_recorded :
    ∃ s msg, boot (member [65]) [[65], [66]] = some s ∧
      msg ∈ (receivesNamed "B" [67] s).storage.messages ∧ msg.senderID = [66] := by
  obtain ⟨s, hboot, msg, hhead, hnew⟩ : ∃ s, boot (member [65]) [[65], [66]] = some s ∧
      ∃ msg, (receivesNamed "B" [67] s).storage.messages.head? = some msg ∧
        msg ∉ s.storage.messages := by
    decide +kernel
  have hmem := List.mem_of_head? hhead
  refine ⟨s, msg, hboot, hmem, ((sender_is_publisher_iff receiver (run receiver 4)
    [66] [67] (named "B").marshal (named "B") s msg nofun rfl (.inl rfl)).1
    (.inl ⟨hmem, hnew⟩)).mpr (.inl ?_)⟩
  decide

open Reference in
/-- What `[67]` publishes in the name of `[66]`, or in no name with `[66]` handing it over, is
stored and shown as `[66]`'s. -/
theorem message_recorded_under_other_name :
    ∃ s, boot (member [65]) [[65], [66]] = some s ∧
      ∀ out ∈ [receivesNamed "B" [67] s, receivesNamed "" [66] s],
        ∃ msg, Surfaced s out msg ∧ msg.senderID = [66] := by
  obtain ⟨s, hboot, hstored⟩ : ∃ s, boot (member [65]) [[65], [66]] = some s ∧
      ∀ out ∈ [receivesNamed "B" [67] s, receivesNamed "" [66] s],
        ∃ msg, out.storage.messages.head? = some msg ∧ msg ∉ s.storage.messages ∧
          msg.senderID = [66] := by
    decide +kernel
  refine ⟨s, hboot, fun out hout => ?_⟩
  obtain ⟨msg, hhead, hnew, hsender⟩ := hstored out hout
  exact ⟨msg, .inl ⟨List.mem_of_head? hhead, hnew⟩, hsender⟩

end GroupCoordination
