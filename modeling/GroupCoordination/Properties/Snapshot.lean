import GroupCoordination.Properties.Atomicity
import GroupCoordination.Refinement.Events

/-!
# What a snapshot keeps

The snapshot of a heal seals the own messages into event rows of its job, so that they can
be replayed on the winning branch. `SaveApplicationEvent` inserts a row whole, but of a row
that is there it replaces the ciphertext and leaves the job and the nonce. Whether a message
is kept therefore depends on who wrote its row first: another job, the reconciliation of a
commit, or the snapshot itself, which meets a message in the message table and once more in
the log.
-/

namespace GroupCoordination

-- -------- One event row

def RowAfter (k : Sealer) (jobID : String) (earlier : Option ApplicationEvent)
    (writes : List (Option Bytes)) (row : Option ApplicationEvent) : Prop :=
  match earlier, writes with
  | _, [] => row = earlier
  | none, [some p] => ∃ ev, row = some ev ∧ ev.jobID = jobID ∧
      k.openPayload ev.payloadSealed ev.sealNonce = .ok p
  | _, _ => ∃ ev, row = some ev ∧ ∀ p, k.openPayload ev.payloadSealed ev.sealNonce ≠ .ok p

theorem RowAfter.insert {k : Sealer} (hk : k.Lawful) (h : RowAfter k jobID earlier ws none)
    (hjob : ev.jobID = jobID) (hw : k.Wraps draw w (ev.payloadSealed, ev.sealNonce)) :
    RowAfter k jobID earlier (ws ++ [w]) (some ev) := by
  -- A row that is not there has not been written and was not there before.
  have hfresh : earlier = none ∧ ws = [] := by
    unfold RowAfter at h
    split at h
    · exact ⟨h.symm, rfl⟩
    · obtain ⟨_, hrow, -⟩ := h
      cases hrow
    · obtain ⟨_, hrow, -⟩ := h
      cases hrow
  obtain ⟨rfl, rfl⟩ := hfresh
  cases w with
  | none =>
    refine ⟨ev, rfl, fun p hopen => ?_⟩
    obtain ⟨hc, -⟩ := Prod.mk.inj hw
    rw [hc] at hopen
    exact hk.empty hopen
  | some p => exact ⟨ev, rfl, hjob, hk.opens hw⟩

theorem RowAfter.update {k : Sealer} (h : RowAfter k jobID earlier ws (some old))
    (hshut : ∀ p, k.openPayload ev.payloadSealed old.sealNonce ≠ .ok p) :
    RowAfter k jobID earlier (ws ++ [w]) (some (old.merge ev)) := by
  unfold RowAfter
  split
  next hnil =>
    exact absurd hnil (by simp)
  · -- The write before would have found no row.
    rename_i hone
    have hws : ws = [] := by
      cases ws with
      | nil => rfl
      | cons => simp at hone
    subst hws
    cases h
  · exact ⟨old.merge ev, rfl, hshut⟩

-- -------- What a snapshot writes

def StoredMessage.snapshotWrite (eventID : String) (msg : StoredMessage) : List (Option Bytes) :=
  if hexEncode msg.envelopeHash = eventID ∧ msg.envelopeHash ≠ [] ∧ bindable msg.epoch then
    [some (msg.content.getD [])]
  else []

def EnvelopeRecord.applicationMsg (row : EnvelopeRecord) : Option (Envelope × Bytes) :=
  match row.msgType, row.envelope.unmarshal with
  | .application, some env =>
    match env.payload with
    | .application ciphertext => some (env, ciphertext)
    | _ => none
  | _, _ => none

def keptPlaintext (x : Ctx) (groupState : Bytes) (env : Envelope) (ciphertext : Bytes) :
    Option Bytes :=
  match x.engine.decryptMessage groupState ciphertext with
  | .error _ => none
  | .ok (plaintext, _) => if env.from = x.peers.toString x.localID then some plaintext else none

def EnvelopeRecord.snapshotWrite (x : Ctx) (groupState : Bytes) (eventID : String)
    (row : EnvelopeRecord) : List (Option Bytes) :=
  match row.applicationMsg with
  | none => []
  | some (env, ciphertext) =>
    if hexEncode row.envelopeHash = eventID ∧ row.envelopeHash ≠ [] ∧ bindable row.epoch then
      [keptPlaintext x groupState env ciphertext]
    else []

theorem snapshotPendingEnvelope_none (h : row.applicationMsg = none) :
    snapshotPendingEnvelope x job s row = s := by
  unfold EnvelopeRecord.applicationMsg at h
  unfold snapshotPendingEnvelope
  split
  next env htype henv =>
    rw [htype, henv] at h
    split
    next ciphertext hpayload =>
      simp [hpayload] at h
    · rfl
  · rfl

theorem snapshotPendingEnvelope_some {x : Ctx} (hk : x.sealer.Lawful)
    (h : row.applicationMsg = some (env, ciphertext)) (s : State) :
    ∃ payloadHash payload status, (row.envelopeHash ≠ [] → payloadHash ≠ []) ∧
      x.sealer.Wraps s.storage.writes (keptPlaintext x s.groupState env ciphertext) payload ∧
      snapshotPendingEnvelope x job s row = s.saveEvent x
        (snapshotEvent x job row.envelopeHash row.epoch env.from row.timestamp payloadHash payload
          status) := by
  have hmsg : row.msgType = .application ∧ row.envelope.unmarshal = some env ∧
      env.payload = .application ciphertext := by
    unfold EnvelopeRecord.applicationMsg at h
    split at h
    next env' htype henv =>
      split at h
      next ciphertext' hpayload =>
        obtain ⟨rfl, rfl⟩ := Prod.mk.inj (Option.some.inj h)
        exact ⟨htype, henv, hpayload⟩
      · cases h
    · cases h
  obtain ⟨htype, henv, hpayload⟩ := hmsg
  unfold snapshotPendingEnvelope keptPlaintext
  simp only [htype, henv, hpayload]
  cases x.engine.decryptMessage s.groupState ciphertext with
  | error => exact ⟨row.envelopeHash, ([], []), .unrecoverable, id, rfl, rfl⟩
  | ok decrypted =>
    dsimp only
    by_cases hown : env.from = x.peers.toString x.localID
    · obtain ⟨c, n, hseal⟩ := hk.seals s.storage.writes decrypted.1
      simp only [hown, if_true, hseal]
      exact ⟨_, (c, n), _, fun _ => x.hash.sum_ne_nil _, hseal, rfl⟩
    · simp only [hown, if_false]
      exact ⟨_, ([], []), _, fun _ => x.hash.sum_ne_nil _, rfl, rfl⟩

def ownMessages (x : Ctx) (db : Storage) : List StoredMessage :=
  (Storage.getMessagesByOwnerInRange x.disk db x.localID 0 x.nowMs).toOption.getD []

def pendingEnvelopes (x : Ctx) (db : Storage) : List EnvelopeRecord :=
  (Storage.getPendingEnvelopes x.disk db 1000).toOption.getD []

theorem getMessagesByOwnerInRange_own {x : Ctx} (hworks : x.DiskWorks) (db : Storage) :
    Storage.getMessagesByOwnerInRange x.disk db x.localID 0 x.nowMs = .ok (ownMessages x db) := by
  unfold ownMessages Storage.getMessagesByOwnerInRange
  dsimp only
  rw [hworks.exec rfl]
  rfl

theorem getPendingEnvelopes_pending {x : Ctx} (hworks : x.DiskWorks)
    (h : db'.envelopeLog = db.envelopeLog) :
    Storage.getPendingEnvelopes x.disk db' 1000 = .ok (pendingEnvelopes x db) := by
  unfold pendingEnvelopes Storage.getPendingEnvelopes
  dsimp only
  rw [hworks.exec rfl, hworks.exec rfl, h]
  rfl

def snapshotWrites (x : Ctx) (s : State) (eventID : String) : List (Option Bytes) :=
  (ownMessages x s.storage).flatMap (·.snapshotWrite eventID) ++
    (pendingEnvelopes x s.storage).flatMap (·.snapshotWrite x s.groupState eventID)

structure Snapshotting (x : Ctx) (jobID eventID : String) (s₀ : State)
    (writes : List (Option Bytes)) (s : State) : Prop where
  groupState : s.groupState = s₀.groupState
  messages : s.storage.messages = s₀.storage.messages
  envelopeLog : s.storage.envelopeLog = s₀.storage.envelopeLog
  keyed : Table.Keyed ApplicationEvent.eventID s.storage.applicationEvents
  row : RowAfter x.sealer jobID
    (Table.get ApplicationEvent.eventID s₀.storage.applicationEvents eventID) writes
    (Table.get ApplicationEvent.eventID s.storage.applicationEvents eventID)
  unused : ∀ ev ∈ Table.get ApplicationEvent.eventID s.storage.applicationEvents eventID,
    x.sealer.Unused s.storage.writes ev.sealNonce

namespace Snapshotting

variable {x : Ctx} {s₀ s : State} {job : ForkHealingJob}

theorem start (hkeyed : Table.Keyed ApplicationEvent.eventID s₀.storage.applicationEvents)
    (hunused : ∀ ev ∈ s₀.storage.applicationEvents,
      x.sealer.Unused s₀.storage.writes ev.sealNonce) :
    Snapshotting x jobID eventID s₀ [] s₀ where
  groupState := rfl
  messages := rfl
  envelopeLog := rfl
  keyed := hkeyed
  row := by
    unfold RowAfter
    split <;> first | rfl | contradiction
  unused ev hget := hunused ev (List.mem_of_find?_eq_some hget)

theorem saveEvent (h : Snapshotting x jobID eventID s₀ ws s) (hworks : x.DiskWorks)
    (hk : x.sealer.Lawful) (hok : ev.savable = true) (hjob : ev.jobID = jobID)
    (hsaved : ev.eventID = saved)
    (hw : x.sealer.Wraps s.storage.writes w (ev.payloadSealed, ev.sealNonce)) :
    Snapshotting x jobID eventID s₀ (if saved = eventID then ws ++ [w] else ws)
      (s.saveEvent x ev) := by
  subst hsaved
  rw [saveEvent_stored (hworks _ _) hok]
  refine ⟨h.groupState, h.messages, h.envelopeLog, Storage.putEvent_keyed h.keyed ev, ?_, ?_⟩
  · dsimp only
    split
    next hid =>
      subst hid
      rw [Storage.get_putEvent_self]
      have hrow := h.row
      unfold Table.upserted
      cases hget : Table.get ApplicationEvent.eventID s.storage.applicationEvents ev.eventID with
      | none =>
        rw [hget] at hrow
        exact hrow.insert hk hjob hw
      | some old =>
        rw [hget] at hrow
        exact hrow.update fun p => hk.wraps_shut hw (h.unused old hget)
    next hid =>
      rw [Storage.get_putEvent_of_ne hid]
      exact h.row
  · intro row hrow
    dsimp only at hrow
    by_cases hid : ev.eventID = eventID
    · subst hid
      rw [Storage.get_putEvent_self] at hrow
      cases hrow
      unfold Table.upserted
      split
      next old hget =>
        exact (h.unused old hget).later (Nat.le_succ _)
      · exact hk.wraps_unused hw
    · rw [Storage.get_putEvent_of_ne hid] at hrow
      exact (h.unused row hrow).later (Nat.le_succ _)

section

variable (h : Snapshotting x job.jobID eventID s₀ ws s)

include h

theorem event (hworks : x.DiskWorks)
    (hk : x.sealer.Lawful) (hhash : envelopeHash ≠ [] → payloadHash ≠ [])
    (hw : x.sealer.Wraps s.storage.writes w payload) :
    Snapshotting x job.jobID eventID s₀
      (ws ++ if hexEncode envelopeHash = eventID ∧ envelopeHash ≠ [] ∧ bindable epoch = true
        then [w] else [])
      (s.saveEvent x
        (snapshotEvent x job envelopeHash epoch author ts payloadHash payload status)) := by
  by_cases hok : envelopeHash ≠ [] ∧ bindable epoch = true
  · have hsavable : (snapshotEvent x job envelopeHash epoch author ts payloadHash payload
        status).savable = true := decide_eq_true ⟨hok.1, hhash hok.1, hok.2⟩
    have hsaved := h.saveEvent hworks hk hsavable rfl (show _ = hexEncode envelopeHash from rfl) hw
    by_cases hid : hexEncode envelopeHash = eventID
    · rw [if_pos ⟨hid, hok⟩]
      rwa [if_pos hid] at hsaved
    · rw [if_neg fun hall => hid hall.1, List.append_nil]
      rwa [if_neg hid] at hsaved
  · have hrefused : (snapshotEvent x job envelopeHash epoch author ts payloadHash payload
        status).savable = false := decide_eq_false fun hall => hok ⟨hall.1, hall.2.2⟩
    rw [if_neg fun hall => hok hall.2, List.append_nil, saveEvent_refused hrefused]
    exact h

theorem ownMessage (hworks : x.DiskWorks) (hk : x.sealer.Lawful) (msg : StoredMessage) :
    Snapshotting x job.jobID eventID s₀ (ws ++ msg.snapshotWrite eventID)
      (snapshotOwnMessage x job s msg) := by
  obtain ⟨c, n, hseal⟩ := hk.seals s.storage.writes (msg.content.getD [])
  unfold snapshotOwnMessage StoredMessage.snapshotWrite
  simp only [hseal]
  exact h.event hworks hk (fun _ => x.hash.sum_ne_nil _) hseal

theorem pendingEnvelope (hworks : x.DiskWorks) (hk : x.sealer.Lawful) (row : EnvelopeRecord) :
    Snapshotting x job.jobID eventID s₀ (ws ++ row.snapshotWrite x s₀.groupState eventID)
      (snapshotPendingEnvelope x job s row) := by
  unfold EnvelopeRecord.snapshotWrite
  cases hmsg : row.applicationMsg with
  | none =>
    rw [snapshotPendingEnvelope_none hmsg, List.append_nil]
    exact h
  | some msg =>
    obtain ⟨payloadHash, payload, status, hhash, hwraps, hsave⟩ :=
      snapshotPendingEnvelope_some hk hmsg s
    rw [hsave]
    rw [h.groupState] at hwraps
    exact h.event hworks hk hhash hwraps

end

theorem foldl {turn : State → α → State} {write : α → List (Option Bytes)}
    (hturn : ∀ ws s a, Snapshotting x jobID eventID s₀ ws s →
      Snapshotting x jobID eventID s₀ (ws ++ write a) (turn s a))
    (h : Snapshotting x jobID eventID s₀ ws s) (as : List α) :
    Snapshotting x jobID eventID s₀ (ws ++ as.flatMap write) (as.foldl turn s) := by
  induction as generalizing ws s with
  | nil => rwa [List.flatMap_nil, List.append_nil]
  | cons a as ih =>
    rw [List.flatMap_cons, ← List.append_assoc]
    exact ih (hturn ws s a h)

theorem saveJob (h : Snapshotting x jobID eventID s₀ ws s) (job : ForkHealingJob)
    (phase : HealPhase) :
    Snapshotting x jobID eventID s₀ ws ((s.saveJob x job).setHealPhase phase) := by
  unfold State.saveJob State.storeOrWarn
  cases hsave : Storage.saveForkHealingJob x.disk s.storage job with
  | error => exact ⟨h.groupState, h.messages, h.envelopeLog, h.keyed, h.row, h.unused⟩
  | ok db =>
    obtain ⟨-, -, rfl⟩ := Disk.exec_ok hsave
    exact ⟨h.groupState, h.messages, h.envelopeLog, h.keyed, h.row,
      fun ev hev => (h.unused ev hev).later (Nat.le_succ _)⟩

theorem snapshotHeal (hworks : x.DiskWorks) (hk : x.sealer.Lawful)
    (hstatus : job.status = .initiated)
    (hkeyed : Table.Keyed ApplicationEvent.eventID s.storage.applicationEvents)
    (hunused : ∀ ev ∈ s.storage.applicationEvents, x.sealer.Unused s.storage.writes ev.sealNonce)
    (eventID : String) :
    Snapshotting x job.jobID eventID s (snapshotWrites x s eventID) (snapshotHeal x job s) := by
  have hstart : Snapshotting x job.jobID eventID s [] s := start hkeyed hunused
  have hown := hstart.foldl (fun _ _ msg hs => hs.ownMessage hworks hk msg)
    (ownMessages x s.storage)
  have hall := hown.foldl (fun _ _ row hs => hs.pendingEnvelope hworks hk row)
    (pendingEnvelopes x s.storage)
  unfold GroupCoordination.snapshotHeal
  rw [if_neg (not_not.mpr hstatus)]
  simp only [getMessagesByOwnerInRange_own hworks,
    getPendingEnvelopes_pending hworks hown.envelopeLog]
  exact hall.saveJob _ _

end Snapshotting

-- -------- Completeness

/-- The events of a job that a message can be replayed from. -/
def Replayable (x : Ctx) (jobID : String) (db : Storage) (msg : StoredMessage) : Prop :=
  ∃ evs, Storage.listApplicationEvents x.disk db jobID = .ok evs ∧
    ∃ ev ∈ evs, ev.eventID = hexEncode msg.envelopeHash ∧
      x.sealer.openPayload ev.payloadSealed ev.sealNonce = .ok (msg.content.getD [])

/-- Every stored message of the node can be replayed from an event of the job. -/
def SnapshotComplete (x : Ctx) (jobID : String) (db : Storage) : Prop :=
  ∀ msg ∈ db.messages, msg.senderID = x.localID → Replayable x jobID db msg

/-- The event of a message is new and written once, with the content; or it is not written and
the row that is there is of this job and has the content. -/
def Covered (x : Ctx) (job : ForkHealingJob) (s : State) (msg : StoredMessage) : Prop :=
  match Table.get ApplicationEvent.eventID s.storage.applicationEvents
      (hexEncode msg.envelopeHash), snapshotWrites x s (hexEncode msg.envelopeHash) with
  | some ev, [] => ev.jobID = job.jobID ∧
      x.sealer.openPayload ev.payloadSealed ev.sealNonce = .ok (msg.content.getD [])
  | none, [some p] => p = msg.content.getD []
  | _, _ => False

theorem replayable_iff (hworks : x.DiskWorks)
    (hkeyed : Table.Keyed ApplicationEvent.eventID db.applicationEvents) :
    Replayable x jobID db msg ↔
      ∃ ev, Table.get ApplicationEvent.eventID db.applicationEvents (hexEncode msg.envelopeHash) =
          some ev ∧ ev.jobID = jobID ∧
        x.sealer.openPayload ev.payloadSealed ev.sealNonce = .ok (msg.content.getD []) := by
  unfold Replayable Storage.listApplicationEvents
  dsimp only
  rw [hworks.exec rfl]
  constructor
  · rintro ⟨evs, hlist, ev, hev, hid, hopen⟩
    cases hlist
    have hmem := (List.perm_insertionSort _ _).mem_iff.mp hev
    obtain ⟨hrow, hjob⟩ := List.mem_filter.mp hmem
    exact ⟨ev, hid ▸ Table.get_eq_some hkeyed hrow, of_decide_eq_true hjob, hopen⟩
  · rintro ⟨ev, hget, hjob, hopen⟩
    have hrow := List.mem_of_find?_eq_some hget
    refine ⟨_, rfl, ev, (List.perm_insertionSort _ _).mem_iff.mpr ?_, ?_, hopen⟩
    · exact List.mem_filter.mpr ⟨hrow, decide_eq_true hjob⟩
    · simpa using List.find?_some hget

theorem Snapshotting.replayable_iff_covered
    (h : Snapshotting x job.jobID (hexEncode msg.envelopeHash) s
      (snapshotWrites x s (hexEncode msg.envelopeHash)) s')
    (hworks : x.DiskWorks) : Replayable x job.jobID s'.storage msg ↔ Covered x job s msg := by
  rw [replayable_iff hworks h.keyed]
  have hrow := h.row
  unfold RowAfter at hrow
  unfold Covered
  generalize snapshotWrites x s (hexEncode msg.envelopeHash) = ws at hrow
  generalize Table.get ApplicationEvent.eventID s.storage.applicationEvents
    (hexEncode msg.envelopeHash) = earlier at hrow
  generalize Table.get ApplicationEvent.eventID s'.storage.applicationEvents
    (hexEncode msg.envelopeHash) = row at hrow
  split at hrow
  · cases earlier with
    | none | some => simp [hrow]
  · obtain ⟨ev, rfl, hjob, hopen⟩ := hrow
    simp [hjob, hopen]
  obtain ⟨ev, rfl, hshut⟩ := hrow
  rename_i hwritten hnew
  split
  · exact (hwritten rfl).elim
  · exact (hnew _ rfl rfl).elim
  · simp [hshut]

/-- A snapshot is complete exactly if every own message is covered. -/
theorem snapshot_complete_iff (hworks : x.DiskWorks) (hk : x.sealer.Lawful)
    (hr : s.heal = some r) (hp : r.phase = .snapshot job) (hstatus : job.status = .initiated)
    (hkeyed : Table.Keyed ApplicationEvent.eventID s.storage.applicationEvents)
    (hunused : ∀ ev ∈ s.storage.applicationEvents, x.sealer.Unused s.storage.writes ev.sealNonce) :
    SnapshotComplete x job.jobID (healStep x wake s).storage ↔
      ∀ msg ∈ s.storage.messages, msg.senderID = x.localID → Covered x job s msg := by
  have hwrote := fun eventID => Snapshotting.snapshotHeal hworks hk hstatus hkeyed hunused eventID
  simp only [healStep, hr, hp, SnapshotComplete, (hwrote "").messages]
  refine forall_congr' fun msg => forall_congr' fun _ => forall_congr' fun _ => ?_
  exact (hwrote (hexEncode msg.envelopeHash)).replayable_iff_covered hworks

instance : Decidable (Covered x job s msg) := by
  unfold Covered
  split <;> infer_instance

namespace Reference

def gcm : Sealer where
  sealPayload draw p := .ok (List.replicate (draw + 1) 0 ++ 1 :: p, List.replicate (draw + 1) 0)
  openPayload c n :=
    if n ≠ [] ∧ c.takeWhile (· = 0) = n then .ok (c.drop (n.length + 1)) else .error "open"

theorem gcm_nonce (draw : Nat) (p : Bytes) :
    (List.replicate (draw + 1) 0 ++ 1 :: p : Bytes).takeWhile (· = 0) =
      List.replicate (draw + 1) 0 := by
  simp

theorem gcm_lawful : gcm.Lawful where
  seals _ _ := ⟨_, _, rfl⟩
  opens {draw p c n} h := by
    cases h
    unfold gcm
    dsimp only
    rw [gcm_nonce, if_pos ⟨by simp [List.replicate_succ], rfl⟩]
    simp [List.drop_append]
  binds {draw p c n n' q} h hopen := by
    cases h
    unfold gcm at hopen
    dsimp only at hopen
    split at hopen
    next hn =>
      exact hn.2.symm.trans (gcm_nonce draw p)
    · cases hopen
  draws {draw p c n draw' p' c'} h h' := by
    obtain ⟨-, hn⟩ := Prod.mk.inj (Except.ok.inj h)
    obtain ⟨-, hn'⟩ := Prod.mk.inj (Except.ok.inj h')
    have hlength := congrArg List.length (hn.trans hn'.symm)
    simpa using hlength
  fresh {draw p c n} h := by
    cases h
    simp [List.replicate_succ]
  empty {n p} hopen := by
    unfold gcm at hopen
    dsimp only at hopen
    split at hopen
    next hn =>
      exact hn.1 hn.2.symm
    · cases hopen
  bare {c p} hopen := by
    unfold gcm at hopen
    simp at hopen

def snapshotJob (s : State) : Option ForkHealingJob :=
  s.heal.bind fun r => match r.phase with
    | .snapshot job => some job
    | _ => none

theorem snapshotJob_some (h : snapshotJob s = some job) :
    ∃ r, s.heal = some r ∧ r.phase = .snapshot job := by
  obtain ⟨r, hr, hjob⟩ := Option.bind_eq_some_iff.mp h
  split at hjob
  next hphase =>
    cases hjob
    exact ⟨r, hr, hphase⟩
  · cases hjob

def sealing (op : Op) : Action := { world := { world with sealer := gcm }, fuel := 4, op }

def sendsThenForks : List Action :=
  [.send [7] "echo", .receive [66] forkAnnounce, .heal .signal].map sealing

def commitsThenForks : List Action :=
  [.send [7] "echo", .replay [looseCommit 0], .receive [66] (wire 1 [66] .announce (.announce
    { treeHash? := some [9], memberCount := 5, epoch := 1, commitHash := [9],
      historyHash := [9] })),
    .heal .signal].map sealing

end Reference

open Reference in
/-- The snapshot of a message that no commit has touched. -/
theorem sent_message_is_kept :
    ∃ s r job, trace (member [65]) [[65]] sendsThenForks = some s ∧
      s.heal = some r ∧ r.phase = .snapshot job ∧ s.storage.messages.length = 1 ∧
      SnapshotComplete ((sealing (.heal .signal)).ctx (member [65])) job.jobID
        (healStep ((sealing (.heal .signal)).ctx (member [65])) .signal s).storage := by
  obtain ⟨s, hs, job, hjob, hstatus, hsent, hevents, hcovered⟩ :
      ∃ s, trace (member [65]) [[65]] sendsThenForks = some s ∧ ∃ job, snapshotJob s = some job ∧
        job.status = .initiated ∧ s.storage.messages.length = 1 ∧ s.storage.applicationEvents = [] ∧
        ∀ msg ∈ s.storage.messages, msg.senderID = [65] →
          Covered ((sealing (.heal .signal)).ctx (member [65])) job s msg := by
    decide +kernel
  obtain ⟨r, hr, hphase⟩ := snapshotJob_some hjob
  refine ⟨s, r, job, hs, hr, hphase, hsent, ?_⟩
  refine (snapshot_complete_iff (fun _ _ => rfl) gcm_lawful hr hphase hstatus ?_ ?_).mpr
    hcovered
  · rw [hevents]
    exact Table.keyed_nil
  · rw [hevents]
    exact fun _ hev => absurd hev List.not_mem_nil

open Reference in
/-- A message whose event was written when its epoch ended stays with the reconciliation: the job
has a snapshot without it, and its ciphertext no longer opens. -/
theorem reconciled_message_is_missed :
    ∃ s r job s' msg ev,
      trace (member [65]) [[65]] commitsThenForks = some s ∧
      s.heal = some r ∧ r.phase = .snapshot job ∧ job.status = .initiated ∧
      step (member [65]) (sealing (.heal .signal)) s = some s' ∧
      s'.storage.jobs.map (·.status) = [.snapshotCreated] ∧ s'.storage.messages = [msg] ∧
      msg.senderID = [65] ∧ msg.content = some [7] ∧ s'.storage.applicationEvents = [ev] ∧
      ev.eventID = hexEncode msg.envelopeHash ∧ ev.jobID = "COMMIT-RECONCILE-g" ∧
      gcm.openPayload ev.payloadSealed ev.sealNonce = .error "open" ∧
      ¬ SnapshotComplete ((sealing (.heal .signal)).ctx (member [65])) job.jobID s'.storage := by
  obtain ⟨s, hs, job, hjob, s', hstep, msg, -, ev, -, hstatus, hjobs, hmsgs, hown,
    hcontent, hevs, hid,
      hother, hname, hshut⟩ : ∃ s, trace (member [65]) [[65]] commitsThenForks = some s ∧
      ∃ job, snapshotJob s = some job ∧
      ∃ s', step (member [65]) (sealing (.heal .signal)) s = some s' ∧
      ∃ msg, s'.storage.messages.head? = some msg ∧
      ∃ ev, s'.storage.applicationEvents.head? = some ev ∧ job.status = .initiated ∧
        s'.storage.jobs.map (·.status) = [.snapshotCreated] ∧ s'.storage.messages = [msg] ∧
        msg.senderID = [65] ∧ msg.content = some [7] ∧ s'.storage.applicationEvents = [ev] ∧
        ev.eventID = hexEncode msg.envelopeHash ∧ ev.jobID = "COMMIT-RECONCILE-g" ∧
        job.jobID = "job-g-0" ∧
          (gcm.openPayload ev.payloadSealed ev.sealNonce).toOption = none := by
    decide +kernel
  obtain ⟨r, hr, hphase⟩ := snapshotJob_some hjob
  refine ⟨s, r, job, s', msg, ev, hs, hr, hphase, hstatus, hstep, hjobs, hmsgs, hown,
    hcontent, hevs,
    hid, hother, ?_, fun hcomplete => ?_⟩
  · unfold gcm at hshut ⊢
    dsimp only at hshut ⊢
    split at hshut
    · cases hshut
    next hn =>
      exact if_neg hn
  have hmsg : msg ∈ s'.storage.messages := hmsgs ▸ List.mem_singleton_self msg
  have hkeyed : Table.Keyed ApplicationEvent.eventID s'.storage.applicationEvents := by
    rw [hevs]
    exact List.nodup_singleton _
  obtain ⟨row, hget, hrow, -⟩ :=
    (replayable_iff (fun _ _ => rfl) hkeyed).mp (hcomplete msg hmsg hown)
  have hmem := List.mem_of_find?_eq_some hget
  rw [hevs, List.mem_singleton] at hmem
  rw [hmem, hother, hname] at hrow
  exact absurd hrow (by decide)

end GroupCoordination
