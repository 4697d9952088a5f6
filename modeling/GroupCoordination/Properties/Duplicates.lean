import GroupCoordination.Properties.Snapshot

/-!
# Replayed once

A heal puts an own event into one envelope only. The row of an event says whether it still has
to be replayed; a batch stores the outbound row first and then its event rows one by one, so a
process that dies in between leaves events that are in an envelope and look as if they were not.
The resumed heal sends that envelope again and puts those events into another one.
-/

namespace GroupCoordination

open Storage

-- -------- Rows that are not replayed again

def ApplicationEvent.Settled (opens : Bytes → Bytes → Except String Bytes)
    (ev : ApplicationEvent) : Prop :=
  ev.status.isOpen = false ∨ ∀ p, opens ev.payloadSealed ev.sealNonce ≠ .ok p

structure SettledRows (opens : Bytes → Bytes → Except String Bytes) (ids : List String)
    (db : Storage) : Prop where
  keyed : Table.Keyed ApplicationEvent.eventID db.applicationEvents
  savable : ∀ ev ∈ db.applicationEvents, ev.savable = true
  present : ∀ eventID ∈ ids, eventID ∈ db.applicationEvents.map (·.eventID)
  settled : ∀ ev ∈ db.applicationEvents, ev.eventID ∈ ids → ev.Settled opens

def UnusedNonces (k : Sealer) (db : Storage) : Prop :=
  ∀ ev ∈ db.applicationEvents, k.Unused db.writes ev.sealNonce

section Rows

variable {x : Ctx} {opens : Bytes → Bytes → Except String Bytes} {ids : List String}
  {db db' : Storage} {ev : ApplicationEvent}

theorem ApplicationEvent.merge_savable {old : ApplicationEvent} (h : old.savable = true) :
    (old.merge ev).savable = true := h

namespace SettledRows

section

variable (h : SettledRows opens ids db)

include h

theorem keeps (hkeeps : db.KeepsEvents db') : SettledRows opens ids db' := by
  refine ⟨?_, ?_, ?_, ?_⟩ <;> rw [hkeeps.events]
  · exact h.keyed
  · exact h.savable
  · exact h.present
  · exact h.settled

theorem put (hok : ev.savable = true)
    (hsettled : ∀ old ∈ db.applicationEvents, old.eventID = ev.eventID → ev.eventID ∈ ids →
      (old.merge ev).Settled opens) : SettledRows opens ids (db.putEvent ev) := by
  refine ⟨putEvent_keyed h.keyed ev, ?_, fun id hid => putEvent_ids (h.present id hid), ?_⟩
  · intro row hrow
    rcases (mem_putEvent h.keyed).mp hrow with ⟨hold, -⟩ | ⟨old, hold, -, rfl⟩ | ⟨rfl, -⟩
    · exact h.savable row hold
    · exact ApplicationEvent.merge_savable (h.savable old hold)
    · exact hok
  · intro row hrow hid
    rcases (mem_putEvent h.keyed).mp hrow with ⟨hold, -⟩ | ⟨old, hold, heq, rfl⟩ | ⟨rfl, hnew⟩
    · exact h.settled row hold hid
    · exact hsettled old hold heq (heq ▸ hid)
    · exact absurd (h.present _ hid) hnew

theorem putClosed (hok : ev.savable = true)
    (hclosed : ev.status.isOpen = false) : SettledRows opens ids (db.putEvent ev) :=
  h.put hok fun _ _ _ _ => .inl hclosed

theorem close (hok : ev.savable = true) (hclosed : ev.status.isOpen = false) :
    SettledRows opens (ids ++ [ev.eventID]) (db.putEvent ev) := by
  have hput := h.putClosed hok hclosed
  refine ⟨hput.keyed, hput.savable, ?_, ?_⟩
  · intro eventID hid
    rcases List.mem_append.mp hid with hid | hid
    · exact hput.present eventID hid
    · obtain rfl := List.mem_singleton.mp hid
      exact putEvent_self_id
  intro row hrow hid
  rcases List.mem_append.mp hid with hid | hid
  · exact hput.settled row hrow hid
  have hself := List.mem_singleton.mp hid
  rcases (mem_putEvent h.keyed).mp hrow with ⟨-, hne⟩ | ⟨old, -, -, rfl⟩ | ⟨rfl, -⟩
  · exact absurd hself hne
  · exact .inl hclosed
  · exact .inl hclosed

end

end SettledRows

theorem Seals.shuts (hk : x.sealer.Lawful) (hopens : x.sealer.openPayload = opens)
    (h : SettledRows opens ids db) (hunused : UnusedNonces x.sealer db)
    (hseals : Seals x jobID db db') : SettledRows opens ids db' ∧ UnusedNonces x.sealer db' := by
  cases hseals with
  | keeps hkeeps =>
    refine ⟨h.keeps hkeeps, fun ev hev => ?_⟩
    rw [hkeeps.events] at hev
    exact (hunused ev hev).later hkeeps.writes
  | row ev w hok hjob hwraps horphaned =>
    refine ⟨h.put hok fun old hold _ _ => .inr fun p => ?_, fun row hrow => ?_⟩
    · rw [← hopens]
      exact hk.wraps_shut hwraps (hunused old hold)
    rcases (mem_putEvent h.keyed).mp hrow with ⟨hold, -⟩ | ⟨old, hold, -, rfl⟩ | ⟨rfl, -⟩
    · exact (hunused row hold).later (Nat.le_succ _)
    · exact (hunused old hold).later (Nat.le_succ _)
    · exact hk.wraps_unused hwraps

theorem SettledRows.sealsOver (hk : x.sealer.Lawful) (hopens : x.sealer.openPayload = opens)
    (h : SettledRows opens ids db) (hunused : UnusedNonces x.sealer db)
    (hseals : SealsOver x jobID db db') : SettledRows opens ids db' := by
  suffices SettledRows opens ids db' ∧ UnusedNonces x.sealer db' from this.1
  induction hseals with
  | refl => exact ⟨h, hunused⟩
  | tail _ hseal ih => exact hseal.shuts hk hopens ih.1 ih.2

end Rows

-- -------- The phases that write rows

structure Batched (ids : List String) (items : List ReplayItem) : Prop where
  nodup : (items.map (·.event.eventID)).Nodup
  fresh : ∀ item ∈ items, item.event.eventID ∉ ids
  savable : ∀ item ∈ items, item.event.savable = true

theorem Batched.nil : Batched ids [] := ⟨List.nodup_nil, by simp, by simp⟩

theorem Batched.sublist (h : Batched ids items) (hsub : items'.Sublist items) :
    Batched ids items' :=
  ⟨h.nodup.sublist (hsub.map _), fun item hitem => h.fresh item (hsub.subset hitem),
    fun item hitem => h.savable item (hsub.subset hitem)⟩

theorem Batched.snoc (h : Batched ids items)
    (hnew : item.event.eventID ∉ items.map (·.event.eventID))
    (hfresh : item.event.eventID ∉ ids) (hok : item.event.savable = true) :
    Batched ids (items ++ [item]) := by
  refine ⟨Table.keyed_append_fresh h.nodup hnew, ?_, ?_⟩
  · intro other hother
    rcases List.mem_append.mp hother with hold | hself
    · exact h.fresh other hold
    · obtain rfl := List.mem_singleton.mp hself
      exact hfresh
  · intro other hother
    rcases List.mem_append.mp hother with hold | hself
    · exact h.savable other hold
    · obtain rfl := List.mem_singleton.mp hself
      exact hok

theorem Batched.drop (h : Batched ids (chunk ++ rest)) :
    Batched (ids ++ chunk.map (·.event.eventID)) rest := by
  have hrest := h.sublist (List.sublist_append_right chunk rest)
  refine ⟨hrest.nodup, fun item hitem hin => ?_, hrest.savable⟩
  rcases List.mem_append.mp hin with hid | hid
  · exact hrest.fresh item hitem hid
  have hnodup := h.nodup
  rw [List.map_append] at hnodup
  exact List.disjoint_of_nodup_append hnodup hid (List.mem_map_of_mem hitem)

section Phases

variable {x : Ctx} {opens : Bytes → Bytes → Except String Bytes} {ids : List String} {s : State}
  {ev : ApplicationEvent}

namespace SettledRows

section

variable (h : SettledRows opens ids s.storage)

include h

theorem saveEvent
    (hsettled : ∀ old ∈ s.storage.applicationEvents, old.eventID = ev.eventID →
      ev.eventID ∈ ids → (old.merge ev).Settled opens) :
    SettledRows opens ids (s.saveEvent x ev).storage := by
  rcases saveEvent_cases x ev s with hsame | ⟨hok, hstored⟩
  · rw [hsame]
    exact h
  · rw [hstored]
    exact h.put hok hsettled

theorem saveClosed (hclosed : ev.status.isOpen = false) :
    SettledRows opens ids (s.saveEvent x ev).storage :=
  h.saveEvent fun _ _ _ _ => .inl hclosed

theorem markReplayed : SettledRows opens ids (markReplayed x s ev).storage :=
  (h.saveClosed rfl).keeps (markMessageReplayed_keepsEvents _ _ _)

end

theorem saveOutbound (h : SettledRows opens ids db)
    (hsave : saveOutboundReplay d db outbound = .ok db') : SettledRows opens ids db' := by
  obtain ⟨-, -, rfl⟩ := Disk.exec_ok hsave
  exact ⟨h.keyed, h.savable, h.present, h.settled⟩

theorem broadcast (h : SettledRows opens ids s.storage) :
    SettledRows opens ids (broadcastBatchedOutboundReplay x outbound evs s).storage := by
  unfold broadcastBatchedOutboundReplay
  dsimp only
  have hpublished : SettledRows opens ids (publishPreparedEnvelopeLocked .applicationBatched
      outbound.replayEnvelope
        (appendOfflineEnvelopeLocked x outbound.replayEnvelope s)).storage := by
    rw [publishPreparedEnvelopeLocked_storage]
    exact h.keeps ((appendOfflineEnvelopeLocked_skirts _ s).apart.events rfl)
  split
  · exact hpublished
  rename_i hstore
  obtain ⟨db, hsave, rfl⟩ := State.store_ok hstore
  have hsaved := hpublished.saveOutbound hsave
  exact List.foldlRecOn evs _ (motive := fun s : State => SettledRows opens ids s.storage) hsaved
    fun _ h _ _ => h.markReplayed

theorem resendQueue (h : SettledRows opens ids s.storage) :
    SettledRows opens ids (resendQueue x jobID s).storage := by
  unfold GroupCoordination.resendQueue
  split
  · exact h
  rename_i outbounds _
  refine List.foldlRecOn outbounds _ (motive := fun s : State => SettledRows opens ids s.storage) h
    fun s h outbound _ => ?_
  unfold resendOutbound
  split
  · exact h
  split
  · exact h
  dsimp only
  split
  · exact h
  · exact h.broadcast

end SettledRows

structure OpeningRows (opens : Bytes → Bytes → Except String Bytes) (ids : List String)
    (rest : List ApplicationEvent) (acc : List ReplayItem × State) : Prop where
  rows : SettledRows opens ids acc.2.storage
  opened : Batched ids acc.1
  listed : ∀ ev ∈ rest, ev ∈ acc.2.storage.applicationEvents
  apart : ∀ ev ∈ rest, ev.eventID ∉ acc.1.map (·.event.eventID)

section

variable (hopens : x.sealer.openPayload = opens)

include hopens

theorem OpeningRows.turn (h : OpeningRows opens ids (ev :: rest) (items, s))
    (hnodup : ((ev :: rest).map (·.eventID)).Nodup) :
    OpeningRows opens ids rest (openOrphan x (items, s) ev) := by
  have hne : ∀ row ∈ rest, row.eventID ≠ ev.eventID := fun row hrow heq =>
    (List.nodup_cons.mp hnodup).1 (List.mem_map.mpr ⟨row, hrow, heq⟩)
  have hev := h.listed ev List.mem_cons_self
  have hrest := fun row hrow => h.listed row (List.mem_cons_of_mem ev hrow)
  have hapart := fun row hrow => h.apart row (List.mem_cons_of_mem ev hrow)
  -- the row that is written over is the one that was listed, so a shut row stays shut
  have hshut : ev.status.isOpen = true → ev.eventID ∈ ids →
      ∀ p, opens ev.payloadSealed ev.sealNonce ≠ .ok p := by
    intro hopen hid
    rcases h.rows.settled ev hev hid with hclosed | hshut
    · rw [hopen] at hclosed
      cases hclosed
    · exact hshut
  have hpending : ev.status.isOpen = true →
      SettledRows opens ids (s.saveEvent x ev.pending).storage := fun hopen =>
    h.rows.saveEvent fun old hold heq hid => by
      obtain rfl := List.inj_on_of_nodup_map h.rows.keyed hold hev heq
      exact .inr (hshut hopen hid)
  have hmove := openOrphan_unseals x items s ev
  generalize openOrphan x (items, s) ev = acc at hmove
  cases hmove with
  | skipped => exact ⟨h.rows, h.opened, hrest, hapart⟩
  | left ev' hid hstatus =>
    exact ⟨h.rows.saveClosed (by rw [hstatus]; rfl), h.opened, fun row hrow =>
      saveEvent_others h.rows.keyed (hrest row hrow) (hid ▸ hne row hrow), hapart⟩
  | shut hopen err =>
    refine ⟨(hpending hopen).saveClosed rfl, h.opened, fun row hrow => ?_, hapart⟩
    exact saveEvent_others (hpending hopen).keyed
      (saveEvent_others h.rows.keyed (hrest row hrow) (hne row hrow)) (hne row hrow)
  | opened hopen _ p hopened =>
    refine ⟨hpending hopen, ?_, fun row hrow =>
      saveEvent_others h.rows.keyed (hrest row hrow) (hne row hrow), fun row hrow hin => ?_⟩
    · rw [hopens] at hopened
      exact h.opened.snoc (h.apart ev List.mem_cons_self) (fun hid => hshut hopen hid p hopened)
        (h.rows.savable ev hev)
    rw [List.map_append] at hin
    rcases List.mem_append.mp hin with hold | hself
    · exact hapart row hrow hold
    · exact hne row hrow (List.mem_singleton.mp hself)

theorem OpeningRows.loop
    (hnodup : (evs.map (·.eventID)).Nodup) (h : OpeningRows opens ids evs acc) :
    OpeningRows opens ids [] (evs.foldl (openOrphan x) acc) := by
  induction evs generalizing acc with
  | nil => exact h
  | cons ev rest ih => exact ih (List.nodup_cons.mp hnodup).2 (h.turn hopens hnodup)

theorem replayHeal_settled (h : SettledRows opens ids s.storage) :
    SettledRows opens ids (replayHeal x job s).storage ∧
      ∀ r, (replayHeal x job s).heal = some r → Batched ids r.phase.items := by
  unfold replayHeal
  split
  · exact ⟨h, fun r hr => by rw [setHealPhase_phase hr]; exact .nil⟩
  dsimp only
  have hsent : SettledRows opens ids (resendQueue x job.jobID s).storage := h.resendQueue
  split
  · exact ⟨hsent, fun r hr => by rw [setHealPhase_phase hr]; exact .nil⟩
  rename_i evs hlist
  have hloop : OpeningRows opens ids []
      (evs.foldl (openOrphan x) ([], resendQueue x job.jobID s)) :=
    .loop hopens (listApplicationEvents_nodup hlist hsent.keyed)
      ⟨hsent, .nil, fun ev hev => ((mem_listApplicationEvents hlist).mp hev).1, by simp⟩
  refine ⟨hloop.rows, fun r hr => ?_⟩
  rw [setHealPhase_phase hr, HealPhase.items, flatten_toChunks]
  exact hloop.opened

end

theorem encryptHeal_settled (h : SettledRows opens ids s.storage) :
    SettledRows opens ids (encryptHeal x job index chunks s).storage := by
  unfold encryptHeal
  split
  · exact h.keeps ((saveJob_skirts _ s).apart.events rfl)
  split
  next chunk _ _ _ _ =>
    exact List.foldlRecOn chunk _ (motive := fun s : State => SettledRows opens ids s.storage) h
      fun _ h _ _ => h.saveClosed rfl
  · exact h

theorem SettledRows.clear (h : SettledRows opens ids db)
    (hclear : clearSealedPayloads d db jobID = .ok db') : SettledRows opens ids db' := by
  have hids := clearSealedPayloads_ids hclear
  have hrow : ∀ row ∈ db'.applicationEvents, ∃ ev ∈ db.applicationEvents, ev.cleared jobID = row :=
    fun row hrow => by
      rw [clearSealedPayloads_events hclear] at hrow
      exact List.mem_map.mp hrow
  refine ⟨?_, fun row hmem => ?_, hids ▸ h.present, fun row hmem hid => ?_⟩
  · unfold Table.Keyed
    rw [hids]
    exact h.keyed
  · obtain ⟨ev, hev, rfl⟩ := hrow row hmem
    rcases ev.cleared_cases jobID with hsame | ⟨-, hbared⟩
    · rw [hsame]
      exact h.savable ev hev
    · rw [hbared]
      exact h.savable ev hev
  · obtain ⟨ev, hev, rfl⟩ := hrow row hmem
    rcases ev.cleared_cases jobID with hsame | ⟨hclosed, hbared⟩
    · rw [hsame] at hid ⊢
      exact h.settled ev hev hid
    · rw [hbared]
      exact .inl hclosed

section

variable (h : SettledRows opens ids s.storage)

include h

theorem cleanHeal_settled : SettledRows opens ids (cleanHeal x r job s).storage := by
  unfold cleanHeal
  split
  · exact h
  refine .keeps ?_ ((saveJob_skirts _ _).apart.events rfl)
  cases hclear : clearSealedPayloads x.disk s.storage job.jobID with
  | error => exact h
  | ok db => exact h.clear hclear

theorem SettledRows.closeAll {evs : List ApplicationEvent}
    (hevs : ∀ ev ∈ evs, ev.savable = true ∧ ev.status.isOpen = false)
    (hworks : ∀ n < s.storage.writes + evs.length, x.works n .saveApplicationEvent = true) :
    SettledRows opens (ids ++ evs.map (·.eventID))
      (evs.foldl (fun s ev => s.saveEvent x ev) s).storage := by
  induction evs generalizing ids s with
  | nil => simpa using h
  | cons ev rest ih =>
    obtain ⟨hok, hclosed⟩ := hevs ev List.mem_cons_self
    rw [List.length_cons] at hworks
    have hwrites : (s.storage.putEvent ev).writes = s.storage.writes + 1 := rfl
    rw [List.foldl_cons, saveEvent_stored (hworks _ (by omega)) hok, List.map_cons,
      ← List.singleton_append, ← List.append_assoc]
    exact ih (h.close hok hclosed) (fun ev hev => hevs ev (List.mem_cons_of_mem _ hev))
      fun n hn => hworks n (by simp only [hwrites] at hn; omega)

theorem saveOutbound_settled :
    SettledRows opens ids
      (s.storeOrWarn (saveOutboundReplay x.disk s.storage outbound)).storage := by
  cases hsave : saveOutboundReplay x.disk s.storage outbound with
  | error => exact h
  | ok db => exact h.saveOutbound hsave

end

theorem ReplayItem.enqueued_closed (outbound : OutboundReplay) (chunk : List ReplayItem) :
    ∀ ev ∈ chunk.map (·.enqueued outbound), ev.status.isOpen = false := by
  intro ev hev
  obtain ⟨item, -, rfl⟩ := List.mem_map.mp hev
  rfl

theorem assignHeal_settled (h : SettledRows opens ids s.storage) :
    SettledRows opens ids (assignHeal x job index chunk ciphertext newState rest s).storage := by
  rw [assignHeal_eq]
  refine .broadcast (List.foldlRecOn _ _
    (motive := fun s : State => SettledRows opens ids s.storage) ?_ fun _ h ev hev => ?_)
  · exact saveOutbound_settled (h.keeps (keepBatchState_keeps x newState s).1)
  · exact h.saveClosed (ReplayItem.enqueued_closed _ chunk ev hev)

theorem assignHeal_settles (h : SettledRows opens ids s.storage)
    (hok : ∀ item ∈ chunk, item.event.savable = true)
    (hworks : ∀ n < s.storage.writes + 2 + chunk.length, x.works n .saveApplicationEvent = true) :
    SettledRows opens (ids ++ chunk.map (·.event.eventID))
      (assignHeal x job index chunk ciphertext newState rest s).storage := by
  obtain ⟨hkeeps, hwrites⟩ := keepBatchState_keeps x newState s
  rw [assignHeal_eq]
  refine .broadcast ?_
  have hids : (chunk.map (·.enqueued (batchOutbound x job index ciphertext s))).map (·.eventID) =
      chunk.map (·.event.eventID) := by
    rw [List.map_map]
    rfl
  rw [← hids]
  refine .closeAll (saveOutbound_settled (h.keeps hkeeps)) (fun ev hev => ?_)
    fun n hn => hworks n ?_
  · refine ⟨?_, ReplayItem.enqueued_closed _ chunk ev hev⟩
    obtain ⟨item, hitem, rfl⟩ := List.mem_map.mp hev
    exact hok item hitem
  have hstored := saveOutbound_writes x (batchOutbound x job index ciphertext s)
    (keepBatchState x newState s)
  rw [List.length_map] at hn
  omega

theorem State.storeOrWarn_dead {db₁ : Storage} (h : x.works s.storage.writes op = false) :
    s.storeOrWarn (x.disk.exec s.storage op name ok db₁) = s := by
  have hfails : x.disk.exec s.storage op name ok db₁ = .error name :=
    if_neg fun hworks => by cases h.symm.trans hworks.1
  rw [hfails]
  rfl

theorem broadcast_dead {db : Storage} (hdead : ∀ op, x.works db.writes op = false)
    (h : s.storage = db) : (broadcastBatchedOutboundReplay x outbound evs s).storage = db := by
  subst h
  have happended : (appendOfflineEnvelopeLocked x outbound.replayEnvelope s).storage =
      s.storage := by
    unfold appendOfflineEnvelopeLocked
    split
    · rfl
    split
    · unfold appendEnvelope appendEnvelopeWithSource
      split <;> exact congrArg State.storage (State.storeOrWarn_dead (hdead _))
    · rfl
  unfold broadcastBatchedOutboundReplay
  dsimp only
  split
  · rw [publishPreparedEnvelopeLocked_storage, happended]
  rename_i hstore
  obtain ⟨db, hsave, rfl⟩ := State.store_ok hstore
  have hworks := (Disk.exec_ok hsave).1
  rw [publishPreparedEnvelopeLocked_storage, happended] at hworks
  cases (hdead _).symm.trans hworks

theorem assignHeal_dead (hdead : ∀ op, x.works s.storage.writes op = false) :
    (assignHeal x job index chunk ciphertext newState rest s).storage = s.storage := by
  rw [assignHeal_eq]
  have hkept : (keepBatchState x newState s).storage = s.storage := by
    unfold keepBatchState State.unlessError
    dsimp only
    split
    next hsaved =>
      cases (hdead _).symm.trans (saveCurrentGroupStateLocked_keeps hsaved).2.2
    · rfl
  have hqueued : ∀ (outbound : OutboundReplay) (evs : List ApplicationEvent),
      ((keepBatchState x newState s).enqueue x outbound evs).storage = s.storage := by
    intro outbound evs
    refine List.foldlRecOn evs _ (motive := fun s' : State => s'.storage = s.storage) ?_
      fun s' hs' ev _ => ?_
    · exact (congrArg State.storage (State.storeOrWarn_dead (hkept ▸ hdead _))).trans hkept
    · exact (congrArg State.storage (State.storeOrWarn_dead (hs' ▸ hdead _))).trans hs'
  exact broadcast_dead hdead (hqueued _ _)

theorem healStep_settled (hk : x.sealer.Lawful) (hopens : x.sealer.openPayload = opens)
    (hunused : UnusedNonces x.sealer s.storage) (h : SettledRows opens ids s.storage) :
    SettledRows opens ids (healStep x wake s).storage := by
  cases hr : s.heal with
  | none => simpa only [healStep, hr] using h
  | some r =>
    cases hphase : r.phase with
    | snapshot job =>
      simp only [healStep, hr, hphase]
      exact h.sealsOver hk hopens hunused (snapshotHeal_seals job s)
    | replay job =>
      simp only [healStep, hr, hphase]
      exact (replayHeal_settled hopens h).1
    | encrypt job index chunks =>
      simp only [healStep, hr, hphase]
      exact encryptHeal_settled h
    | assign job index chunk ciphertext newState rest =>
      simp only [healStep, hr, hphase]
      exact assignHeal_settled h
    | clean job =>
      simp only [healStep, hr, hphase]
      exact cleanHeal_settled h
    | _ => exact h.keeps (healStep_keepsEvents hr (by rw [hphase]; rfl))

theorem healStep_batched (hopens : x.sealer.openPayload = opens)
    (h : SettledRows opens ids s.storage)
    (hitems : ∀ r, s.heal = some r → Batched ids r.phase.items) :
    ∀ r, (healStep x wake s).heal = some r → Batched ids r.phase.items := by
  intro r' hr'
  cases hr : s.heal with
  | none =>
    rw [healStep, hr] at hr'
    exact hitems r' hr'
  | some r =>
    by_cases hreplay : ∃ job, r.phase = .replay job
    · obtain ⟨job, hphase⟩ := hreplay
      simp only [healStep, hr, hphase] at hr'
      exact (replayHeal_settled hopens h).2 r' hr'
    · exact (hitems r hr).sublist ((healStep_heals hr wake).items_sublist
        (fun job hphase => hreplay ⟨job, hphase⟩) hr rfl hr')

end Phases

-- -------- The outbox over a run

/-- The cipher of a step: one key for the whole life of the node, and no nonce drawn twice. -/
structure Ciphered (opens : Bytes → Bytes → Except String Bytes) (p : Outbox) (op : OutboxOp) :
    Prop where
  lawful : op.action.world.sealer.Lawful
  opens : op.action.world.sealer.openPayload = opens
  unused : UnusedNonces op.action.world.sealer p.state.storage

def OutboxOp.works : OutboxOp → Nat → StorageOp → Bool
  | .step a => a.world.works
  | .crash a limit .. => (a.until limit).world.works

def OutboxOp.deadAt (writes : Nat) : OutboxOp → Bool
  | .step _ => false
  | .crash _ limit .. => limit ≤ writes

def batchSize (op : Op) (s : State) : Option Nat :=
  match op, s.heal with
  | .heal _, some ⟨_, _, .assign _ _ chunk _ _ _⟩ => some chunk.length
  | _, _ => none

/-- All event rows of a batch are stored, or the process dies before any of its rows is: the
record of the group, the outbound row and the event rows are one transaction each. -/
def StoresWhole (p : Outbox) (op : OutboxOp) : Prop :=
  ∀ size ∈ batchSize op.action.op p.state,
    (∀ n < p.state.storage.writes + 2 + size, op.works n .saveApplicationEvent = true) ∨
      op.deadAt p.state.storage.writes = true

instance (p : Outbox) (op : OutboxOp) : Decidable (StoresWhole p op) := by
  unfold StoresWhole
  infer_instance

structure Tidy (opens : Bytes → Bytes → Except String Bytes) (p : Outbox) : Prop where
  rows : SettledRows opens (p.carried.map (·.1)) p.state.storage
  once : (p.carried.map (·.1)).Nodup
  items : ∀ r, p.state.heal = some r → Batched (p.carried.map (·.1)) r.phase.items

section Runs

variable {node : Node} {opens : Bytes → Bytes → Except String Bytes} {ids : List String}
  {a : Action} {s s' : State} {p p' : Outbox} {op : OutboxOp}

theorem step_settled (hk : a.world.sealer.Lawful) (hopens : a.world.sealer.openPayload = opens)
    (hunused : UnusedNonces a.world.sealer s.storage) (h : SettledRows opens ids s.storage)
    (hstep : step node a s = some s') : SettledRows opens ids s'.storage := by
  by_cases hheal : ∃ wake, a.op = .heal wake
  · obtain ⟨wake, hop⟩ := hheal
    rw [step, hop] at hstep
    cases hstep
    exact healStep_settled hk hopens hunused h
  · exact h.sealsOver hk hopens hunused (step_seals (fun wake hop => hheal ⟨wake, hop⟩) hstep)

theorem step_batched (hopens : a.world.sealer.openPayload = opens)
    (h : SettledRows opens ids s.storage)
    (hitems : ∀ r, s.heal = some r → Batched ids r.phase.items) (hstep : step node a s = some s') :
    ∀ r, s'.heal = some r → Batched ids r.phase.items := by
  obtain ⟨view, anchor, hop, hrestarts⟩ | ⟨wake, hop, rfl⟩ | ⟨hrestart, hheal⟩ := step_kinds hstep
  · simp [(restart_idle hrestarts).1]
  · exact healStep_batched hopens h hitems
  rcases (step_desk_kept hheal hrestart hstep).1 with ⟨hsame, -⟩ | ⟨-, -, r', hr', hphase⟩
  · rwa [hsame]
  intro r hr
  obtain rfl := Option.some.inj (hr'.symm.trans hr)
  rw [hphase]
  exact .nil

theorem batched_cases (x : Ctx) (op : Op) (s : State) :
    batched x op s = [] ∨ ∃ wake r job index chunk ciphertext newState rest,
      op = .heal wake ∧ s.heal = some r ∧
      r.phase = .assign job index chunk ciphertext newState rest ∧
      batchSize op s = some chunk.length ∧
      (batched x op s).map (·.1) = chunk.map (·.event.eventID) := by
  unfold batched
  split
  next wake traceID event job index chunk ciphertext newState rest hheal =>
    refine .inr ⟨wake, _, job, index, chunk, ciphertext, newState, rest, rfl, hheal, rfl, ?_, ?_⟩
    · simp [batchSize, hheal]
    · simp
  · exact .inl rfl

theorem step_assign (hop : a.op = .heal wake) (hr : s.heal = some r)
    (hphase : r.phase = .assign job index chunk ciphertext newState rest)
    (hstep : step node a s = some s') :
    s' = assignHeal (a.ctx node) job index chunk ciphertext newState rest (s.arrive a.op) := by
  have hr : (s.arrive (.heal wake)).heal = some r := hr
  rw [step, hop] at hstep
  cases hstep
  simp only [hop, perform, healStep, hr, hphase]

theorem Tidy.carry (h : Tidy opens p) (hbatched : Batched (p.carried.map (·.1)) (chunk ++ rest))
    (hrows : SettledRows opens (p.carried.map (·.1) ++ chunk.map (·.event.eventID)) s.storage)
    (hsent : sent.map (·.1) = chunk.map (·.event.eventID))
    (hitems : ∀ r, s.heal = some r → r.phase.items = rest) :
    Tidy opens { state := s, carried := p.carried ++ sent } := by
  have hids : (p.carried ++ sent).map (·.1) =
      p.carried.map (·.1) ++ chunk.map (·.event.eventID) := by
    rw [List.map_append, hsent]
  have hchunk := hbatched.sublist (List.sublist_append_left chunk rest)
  refine ⟨?_, ?_, fun r hr => ?_⟩
  · simpa only [hids] using hrows
  · simp only [hids]
    refine h.once.append hchunk.nodup fun eventID hold hnew => ?_
    obtain ⟨item, hitem, rfl⟩ := List.mem_map.mp hnew
    exact hchunk.fresh item hitem hold
  · simp only [hids]
    rw [hitems r hr]
    exact hbatched.drop

theorem Tidy.step (h : Tidy opens p) (hcipher : Ciphered opens p op) (hwhole : StoresWhole p op)
    (hstep : Outbox.step node op p = some p') : Tidy opens p' := by
  cases op with
  | step a =>
    obtain ⟨s', hs', rfl⟩ := Option.map_eq_some_iff.mp hstep
    rcases batched_cases (a.ctx node) a.op p.state with
      hnone | ⟨wake, r, job, index, chunk, ciphertext, newState, rest, hop, hr, hphase, hsize, hids⟩
    · rw [hnone, List.append_nil]
      exact ⟨step_settled hcipher.lawful hcipher.opens hcipher.unused h.rows hs', h.once,
        step_batched hcipher.opens h.rows h.items hs'⟩
    have hitems := h.items r hr
    rw [hphase] at hitems
    have hworks := (hwhole _ hsize).resolve_right Bool.false_ne_true
    obtain rfl := step_assign hop hr hphase hs'
    refine h.carry hitems ?_ hids fun r' hr' => ?_
    · exact assignHeal_settles h.rows
        (hitems.sublist (List.sublist_append_left chunk rest.flatten)).savable hworks
    rw [assignHeal_eq] at hr'
    rw [setHealPhase_phase hr']
    rfl
  | crash a limit boot view anchor =>
    obtain ⟨s', hs', hrest⟩ := Option.bind_eq_some_iff.mp hstep
    obtain ⟨booted, hbooted, rfl⟩ := Option.map_eq_some_iff.mp hrest
    have hboot := Fallible.toOption_eq_some hbooted
    have hkeeps := (restart_apart hboot).events rfl
    change s'.storage.KeepsEvents booted.storage at hkeeps
    have hidle := (restart_idle hboot).1
    have hrows : SettledRows opens (p.carried.map (·.1)) booted.storage :=
      (step_settled (a := a.until limit) hcipher.lawful hcipher.opens hcipher.unused
        h.rows hs').keeps
        hkeeps
    have hsame : Tidy opens { state := booted, carried := p.carried ++ [] } := by
      rw [List.append_nil]
      exact ⟨hrows, h.once, by simp [hidle]⟩
    rcases batched_cases (a.ctx node) a.op p.state with
      hnone | ⟨wake, r, job, index, chunk, ciphertext, newState, rest, hop, hr, hphase, hsize, hids⟩
    · rw [hnone, ite_self]
      exact hsame
    have hitems := h.items r hr
    rw [hphase] at hitems
    have hs' := step_assign (a := a.until limit) hop hr hphase hs'
    split
    next hstored =>
      rcases hwhole _ hsize with hworks | hdead
      · refine h.carry hitems ?_ hids (by simp [hidle])
        refine .keeps ?_ hkeeps
        rw [hs']
        exact assignHeal_settles h.rows
          (hitems.sublist (List.sublist_append_left chunk rest.flatten)).savable hworks
      -- a process that is already dead has not stored the outbound row either
      have hlimit : limit ≤ p.state.storage.writes := by simpa [OutboxOp.deadAt] using hdead
      have hdisk : ∀ op, (a.until limit).world.works p.state.storage.writes op = false := by
        simp [Action.until, hlimit]
      have hunwritten : s'.storage = p.state.storage := by
        rw [hs']
        exact assignHeal_dead hdisk
      rw [hunwritten] at hstored
      exact absurd hstored (lt_irrefl _)
    · exact hsame

/-- Over any run in which no process dies while it stores the rows of a batch, no event is in two
envelopes with different hashes. -/
theorem replayed_in_one_envelope (hboot : Booted node (fun _ => True) p.state)
    (hnew : p.carried = [])
    (hkeyed : Table.Keyed ApplicationEvent.eventID p.state.storage.applicationEvents)
    (hsavable : ∀ ev ∈ p.state.storage.applicationEvents, ev.savable = true)
    (hrun : Transition.Run (Outbox.step node)
      (fun p op => Ciphered opens p op ∧ StoresWhole p op) p p')
    {eventID : String} {hash hash' : Bytes} (h : (eventID, hash) ∈ p'.carried)
    (h' : (eventID, hash') ∈ p'.carried) : hash = hash' := by
  have hbase : Tidy opens p := by
    refine ⟨⟨hkeyed, hsavable, by simp [hnew], by simp [hnew]⟩, by simp [hnew], ?_⟩
    simp [hboot.idle.1]
  have htidy := hrun.invariant (Tidy opens) hbase fun p op p' htidy hok hstep =>
    htidy.step hok.1 hok.2 hstep
  exact congrArg Prod.snd (List.inj_on_of_nodup_map htidy.once h h' rfl)

end Runs

namespace Reference

def ownEvent (eventID : String) (draw : Nat) (payload : Bytes) : ApplicationEvent where
  eventID := eventID
  jobID := "job"
  originalEpoch := 0
  authorID := "A"
  envelopeHash := [1]
  payloadSealed := List.replicate (draw + 1) 0 ++ 1 :: payload
  payloadHash := [2]
  sealNonce := List.replicate (draw + 1) 0
  status := .orphanedOwn

/-- A database with a joined branch to swap to and two messages to replay. -/
def orphaned : Storage where
  jobs := [{ joinedJob with pendingGroupState := [1, 1] }]
  applicationEvents := [ownEvent "first" 0 [7], ownEvent "second" 1 [8]]

def encryptsBatch : List OutboxOp :=
  (.resumeHeal :: List.replicate 6 (.heal .signal)).map fun op => .step (sealing op)

def dies (limit : Nat) : OutboxOp := .crash (sealing (.heal .signal)) limit world [[65]] none

def diesAndResumes (limit : Nat) : List OutboxOp :=
  encryptsBatch ++ dies limit :: encryptsBatch ++ [.step (sealing (.heal .signal))]

theorem diesAndResumes_sealer (hop : op ∈ diesAndResumes limit) : op.action.world.sealer = gcm := by
  simp only [diesAndResumes, encryptsBatch, dies, List.mem_append, List.mem_map, List.mem_cons,
    List.not_mem_nil, or_false] at hop
  rcases hop with (⟨_, -, rfl⟩ | rfl | ⟨_, -, rfl⟩) | rfl <;> rfl

def Drawn (p : Outbox) : Prop :=
  ∀ ev ∈ p.state.storage.applicationEvents, ev.sealNonce.length ≤ p.state.storage.writes

instance (p : Outbox) : Decidable (Drawn p) := by
  unfold Drawn
  infer_instance

theorem Drawn.ciphered (h : Drawn p) (hop : op.action.world.sealer = gcm) :
    Ciphered gcm.openPayload p op := by
  refine ⟨hop ▸ gcm_lawful, by rw [hop], hop ▸ fun ev hev draw q c hdraw hseal => ?_⟩
  have hnonce := congrArg List.length (Prod.mk.inj (Except.ok.inj hseal)).2
  rw [List.length_replicate] at hnonce
  have hlength := h ev hev
  omega

end Reference

open Reference in
/-- A process that dies right after the batch is stored: the resumed heal sends the same
envelope. -/
theorem stored_batch_is_sent_again :
    ∃ s p, foundsOver orphaned [65] = some s ∧
      Transition.Run (Outbox.step (member [65]))
        (fun p op => Ciphered gcm.openPayload p op ∧ StoresWhole p op) { state := s } p ∧
      p.carried.map (·.1) = ["first", "second"] ∧ p.state.published.length = 1 ∧
      ∀ eventID hash hash', (eventID, hash) ∈ p.carried → (eventID, hash') ∈ p.carried →
        hash = hash' := by
  obtain ⟨s, hs, p, hexec, hkeyed, hsavable, hcarried, hpublished⟩ :
      ∃ s, foundsOver orphaned [65] = some s ∧
        ∃ p, Transition.exec (fun op p => if decide (Drawn p ∧ StoresWhole p op) then
            Outbox.step (member [65]) op p else none) (diesAndResumes 11) { state := s } = some p ∧
          (s.storage.applicationEvents.map (·.eventID)).Nodup ∧
          (∀ ev ∈ s.storage.applicationEvents, ev.savable = true) ∧
          p.carried.map (·.1) = ["first", "second"] ∧ p.state.published.length = 1 := by
    decide +kernel
  have hrun : Transition.Run (Outbox.step (member [65]))
      (fun p op => Ciphered gcm.openPayload p op ∧ StoresWhole p op) { state := s } p :=
    .of_checked _ hexec fun q op hop hok =>
      have hchecked := of_decide_eq_true hok
      ⟨hchecked.1.ciphered (diesAndResumes_sealer hop), hchecked.2⟩
  exact ⟨s, p, hs, hrun, hcarried, hpublished, fun _ _ _ =>
    replayed_in_one_envelope (p := { state := s }) (foundsOver_booted hs trivial) rfl
      hkeyed hsavable hrun⟩

open Reference in
/-- A process that dies between the rows of a batch: the resumed heal sends the envelope of both
events again, and a second one with the event whose row was not stored. -/
theorem torn_batch_is_replayed_twice :
    ∃ s p hash hash', foundsOver orphaned [65] = some s ∧
      Transition.Run (Outbox.step (member [65])) (Ciphered gcm.openPayload)
        { state := s } p ∧
      ("second", hash) ∈ p.carried ∧ ("second", hash') ∈ p.carried ∧ hash ≠ hash' ∧
      p.state.published.map receiver.disk.hash = [hash, hash'] := by
  obtain ⟨s, hs, p, hexec, a, -, b, -, hcarried, hne, hpublished⟩ :
      ∃ s, foundsOver orphaned [65] = some s ∧
        ∃ p, Transition.exec (fun op p => if decide (Drawn p) then
            Outbox.step (member [65]) op p else none) (diesAndResumes 10) { state := s } = some p ∧
          ∃ a, p.carried[0]? = some a ∧ ∃ b, p.carried[2]? = some b ∧
            p.carried = [("first", a.2), ("second", a.2), ("second", b.2)] ∧ a.2 ≠ b.2 ∧
            p.state.published.map receiver.disk.hash = [a.2, b.2] := by
    decide +kernel
  have hrun : Transition.Run (Outbox.step (member [65]))
      (Ciphered gcm.openPayload) { state := s } p :=
    .of_checked _ hexec fun q op hop hok =>
      (of_decide_eq_true hok : Drawn q).ciphered (diesAndResumes_sealer hop)
  exact ⟨s, p, a.2, b.2, hs, hrun, by simp [hcarried], by simp [hcarried], hne, hpublished⟩

end GroupCoordination
