import GroupCoordination.Model.Recovery
import GroupCoordination.Model.Reference
import GroupCoordination.Refinement.Events

/-!
# What the log holds can be replayed

A reader of the log replays commits and single messages, and stops at anything else. A batch of
replayed messages that arrives live is stored like any other message and logged with it, so a reader
never gets past it. Without such a batch the log holds nothing a reader does not know.
-/

namespace GroupCoordination

-- -------- Refusals

/-- The answer to an envelope of a type that cannot be replayed. -/
def ReplayEnvelopeResult.Unsupported (r : ReplayEnvelopeResult) : Prop :=
  r.state = some .invalid ∧ ∃ name, r.error = "unsupported envelope type \"" ++ name ++ "\""

section Refusals

variable {x : Ctx} {call : Call → State → State} {env : Envelope} {wire : Wire} {s : State}
  {r : ReplayEnvelopeResult}

theorem ReplayEnvelopeResult.not_unsupported (h : r.error.toList.head? ≠ some 'u') :
    ¬ r.Unsupported := by
  rintro ⟨-, name, herror⟩
  rw [herror] at h
  simp at h

theorem ReplayEnvelopeResult.not_unsupported_of_state (h : r.state ≠ some .invalid) :
    ¬ r.Unsupported := fun hr => h hr.1

open ReplayEnvelopeResult

theorem processApplicationLocked_supported :
    ¬ (processApplicationLocked x pid env wire r s).1.Unsupported := by
  unfold processApplicationLocked
  split
  · split
    · exact not_unsupported (by simp [conclude, asFailed])
    dsimp only
    split
    · exact not_unsupported_of_state (by simp [conclude, asFailed])
    · split <;> exact not_unsupported_of_state (by simp [conclude, asPersistFailed, asDuplicate,
        asApplied])
  · exact not_unsupported (by simp [conclude, asFailed])

theorem handleApplicationDetailedLocked_supported :
    ¬ (handleApplicationDetailedLocked x pid env wire s).1.Unsupported := by
  unfold handleApplicationDetailedLocked
  dsimp only
  split
  · exact not_unsupported_of_state (by simp [conclude, asDuplicate])
  split
  · exact not_unsupported_of_state (by simp [conclude, asStale])
  · exact not_unsupported_of_state (by simp [conclude, asFuture])
  · exact processApplicationLocked_supported

theorem handleCommitDetailedLocked_supported :
    ¬ (handleCommitDetailedLocked x call env wire s).1.Unsupported := by
  unfold handleCommitDetailedLocked
  dsimp only
  split
  · exact not_unsupported_of_state (by simp [conclude, asDuplicate])
  split
  · exact not_unsupported_of_state (by simp [conclude, asStale])
  · exact not_unsupported_of_state (by simp [conclude, asFuture])
  split
  · exact not_unsupported_of_state (by simp [conclude, asApplied])
  split
  · exact not_unsupported_of_state (by simp [conclude, asPersistFailed])
  · exact not_unsupported_of_state (by simp [conclude, asDuplicate])
  · exact not_unsupported (by simp [conclude, asFailed])

/-- A commit or a message is never refused for its type, whoever replays it and in whatever
state. -/
theorem Wire.Replicated.supported (h : wire.Replicated)
    (hr : (replayEnvelope x call wire s).1 = some r) : ¬ r.Unsupported := by
  obtain ⟨env, hwire, htype⟩ := h
  unfold replayEnvelope at hr
  rw [hwire] at hr
  split at hr
  · cases hr
  dsimp only at hr
  split at hr
  · cases hr
    exact not_unsupported (by simp [asFailed])
  split at hr
  next err hskew =>
    cases hr
    unfold validateSenderTimestamp at hskew
    dsimp only at hskew
    split at hskew
    · cases hskew
      exact not_unsupported (by simp [asFailed])
    · cases hskew
  · split at hr
    · cases hr
      exact handleCommitDetailedLocked_supported
    · cases hr
      exact handleApplicationDetailedLocked_supported
    next hcommit happlication =>
      exact (htype.elim hcommit happlication).elim

end Refusals

-- -------- Runs without live batches

def Scope.unbatched : Scope where
  batches := False
  kept := False

theorem Scope.unbatched_lax : Scope.unbatched.Lax := ⟨fun _ _ => trivial, fun _ _ => trivial⟩

theorem Scope.unbatched_fits (x : Ctx) : Scope.unbatched.Fits x :=
  ⟨False.elim, fun _ _ _ _ _ _ => trivial⟩

theorem Scope.unbatched_logs (h : Scope.unbatched.Logs wire) : wire.Replicated := by
  obtain ⟨env, hwire, hcommit | happlication | ⟨-, hbatches⟩⟩ := h
  · exact ⟨env, hwire, .inl hcommit⟩
  · exact ⟨env, hwire, .inr happlication⟩
  · exact hbatches.elim

def LogOp.Unbatched : LogOp → Prop
  | .coordinator a => ∀ pid data, a.op = .receive pid data → data.batched = false
  | _ => True

structure ReplayableLog (s : State) : Prop where
  log : ∀ row ∈ s.storage.envelopeLog, row.envelope.Replicated
  clean : s.Clean .unbatched

section Runs

variable {x : Ctx} {s s' : State}

theorem ReplayableLog.extend (h : ReplayableLog s)
    (hlog : s.storage.LogsOnly Wire.Replicated s'.storage) (hclean : s'.Clean .unbatched) :
    ReplayableLog s' := by
  refine ⟨fun row hrow => ?_, hclean⟩
  rcases hlog row hrow with ⟨old, hold, henvelope⟩ | hnew
  · exact henvelope ▸ h.log old hold
  · exact hnew

theorem ReplayableLog.outside (h : ReplayableLog s) (hs : Outside x .unbatched s s') :
    ReplayableLog s' := by
  obtain ⟨-, hworks⟩ := hs h.clean
  exact h.extend (hworks.transacts.logs.mono fun _ => Scope.unbatched_logs) hworks.clean

theorem ReplayableLog.step (h : ReplayableLog s) (ok : (LogOp.coordinator a).Unbatched)
    (hstep : step node a s = some s') : ReplayableLog s' := by
  have hwithin : a.op.Within .unbatched (a.ctx node) s := by
    unfold Op.Within
    split
    next hop =>
      exact ⟨.inr (ok _ _ hop), False.elim, Scope.unbatched_lax.offered _⟩
    · exact ⟨trivial, fun _ => False.elim⟩
    · exact ⟨trivial, fun _ => False.elim⟩
    · trivial
    · trivial
  have hscoped := step_scoped (Scope.unbatched_fits _) hwithin h.clean hstep
  exact h.extend (hscoped.log.mono fun _ => Scope.unbatched_logs) hscoped.clean

theorem pullEntry_outside (fuel : Nat) (raw : Wire) (s : State) :
    Outside x .unbatched s (pullEntry x (run x fuel) raw s).2 := by
  have hcall : Discreet x .unbatched (run x fuel) := run_discreet (Scope.unbatched_fits _) fuel
  unfold pullEntry
  split
  · exact .refl s
  rename_i env hwire
  split
  · exact .refl s
  rename_i hpass
  have htype : env.type = .commit ∨ env.type = .application := by
    by_contra hno
    exact hpass (.inr (not_or.mp hno))
  split
  · exact .refl s
  rename_i s₁ hstore
  have happend : Outside x .unbatched s s₁ := State.store_outside hstore fun _ h =>
    .append h ⟨env, hwire, htype.imp_right .inl⟩
  have hreplay : Outside x .unbatched s₁ (replayEnvelopesDetailed x (run x fuel) [raw] s₁).2 := by
    unfold replayEnvelopesDetailed
    split
    · exact .refl s₁
    · exact replayEnvelopes_outside hcall [raw] s₁
  split
  next heq =>
    rw [heq] at hreplay
    exact happend.trans hreplay
  next heq =>
    rw [heq] at hreplay
    exact happend.trans hreplay

theorem blindStoreEnvelope_outside (groupID : String) (raw : Wire) (s : State) :
    Outside x .unbatched s (blindStoreEnvelope x groupID raw s) := by
  unfold blindStoreEnvelope
  split
  · exact .refl s
  rename_i env hwire
  split
  · exact .refl s
  rename_i hpass
  have htype : env.type = .commit ∨ env.type = .application := by
    by_contra hno
    exact hpass (.inr (.inr (not_or.mp hno).symm))
  split
  · exact .refl s
  · exact State.storeOrWarn_outside fun _ h => .append h ⟨env, hwire, htype.imp_right .inl⟩

theorem ReplayableLog.logStep (h : ReplayableLog s) (ok : op.Unbatched)
    (hstep : logStep node op s = some s') : ReplayableLog s' := by
  cases op with
  | coordinator a => exact h.step ok hstep
  | pull w fuel raw =>
    cases hstep
    exact h.outside (pullEntry_outside fuel raw s)
  | blindStore w groupID raw =>
    cases hstep
    exact h.outside (blindStoreEnvelope_outside groupID raw s)

end Runs

/-- As long as no batch arrives live, every entry of the log is a commit or a message, and no
reader, in whatever state, refuses it for its type. -/
theorem log_entries_are_replayable (node : Node) (allowed : World → Prop) (s₀ s : State)
    (hboot : Booted node allowed s₀)
    (hlog : ∀ row ∈ s₀.storage.envelopeLog, row.envelope.Replicated)
    (hrun : Transition.Run (logStep node) (fun _ op => op.Unbatched) s₀ s) :
    ∀ row ∈ s.storage.envelopeLog, row.envelope.Replicated ∧
      ∀ (reader : Ctx) (fuel : Nat) (t : State) (r : ReplayEnvelopeResult),
        (replayEnvelope reader (run reader fuel) row.envelope t).1 = some r → ¬ r.Unsupported := by
  have hs : ReplayableLog s :=
    hrun.invariant ReplayableLog ⟨hlog, hboot.clean False.elim fun _ _ => trivial⟩
    fun _ _ _ h ok hstep => h.logStep ok hstep
  intro row hrow
  exact ⟨hs.log row hrow, fun _ _ _ _ hr => (hs.log row hrow).supported hr⟩

namespace Reference

def liveBatch : Wire := wire 0 [66] .applicationBatched (.applicationBatched [9, 0, 70])

def liveMessage : Wire := wire 0 [66] .application (.application [9, 0, 71])

def receives (wires : List Wire) : Option State :=
  (boot (member [65]) [[65], [66]]).bind
    (Transition.exec (logStep (member [65]))
      (wires.map fun w => .coordinator (action (.receive [66] w))))

theorem receives_run (allowed : State → LogOp → Prop) (h : receives wires = some s)
    (ok : ∀ s, ∀ w ∈ wires, allowed s (.coordinator (action (.receive [66] w)))) :
    ∃ s₀, Booted (member [65]) (fun _ => True) s₀ ∧ s₀.storage.envelopeLog = [] ∧
      Transition.Run (logStep (member [65])) allowed s₀ s := by
  obtain ⟨s₀, hboot, hexec⟩ := Option.bind_eq_some_iff.mp h
  refine ⟨s₀, boot_booted hboot trivial, ?_, .of_exec hexec fun s op hop => ?_⟩
  · have hempty : ∀ s ∈ boot (member [65]) [[65], [66]], s.storage.envelopeLog = [] := by
      decide +kernel
    exact hempty s₀ hboot
  · obtain ⟨w, hw, rfl⟩ := List.mem_map.mp hop
    exact ok s w hw

end Reference

open Reference in
/-- A message that arrives live is logged and can be replayed. -/
theorem live_message_is_replayable : ∃ s, receives [liveMessage] = some s ∧
    s.storage.envelopeLog.map (·.entry) = [(1, liveMessage)] ∧
    ∀ row ∈ s.storage.envelopeLog, row.envelope.Replicated ∧
      ∀ (reader : Ctx) (fuel : Nat) (t : State) (r : ReplayEnvelopeResult),
        (replayEnvelope reader (run reader fuel) row.envelope t).1 = some r → ¬ r.Unsupported := by
  obtain ⟨s, hs, hlog⟩ : ∃ s, receives [liveMessage] = some s ∧
      s.storage.envelopeLog.map (·.entry) = [(1, liveMessage)] := by
    decide +kernel
  obtain ⟨s₀, hboot, hempty, hrun⟩ := receives_run
    (fun _ op => op.Unbatched) hs fun _ w hw pid data hop => by
      cases List.mem_singleton.mp hw
      cases hop
      rfl
  exact ⟨s, hs, hlog, log_entries_are_replayable _ _ s₀ s hboot (by simp [hempty]) hrun⟩

open Reference in
/-- A batch that arrives live is logged too. A reader's loop ends at it, whatever it has already,
and a replay refuses its type, so the message after it is never reached. -/
theorem live_batch_blocks_the_log : ∃ s₀ s, Booted (member [65]) (fun _ => True) s₀ ∧
    s₀.storage.envelopeLog = [] ∧
    Transition.Run (logStep (member [65])) (fun _ _ => True) s₀ s ∧
    s.storage.envelopeLog.map (·.entry) =
      [(1, liveBatch), (2, liveMessage)] ∧
    (∀ (reader : Ctx) call t, (pullEntry reader call liveBatch t).1 = none) ∧
    ∀ call t, ∃ r, (replayEnvelope receiver call liveBatch t).1 = some r ∧
      r.Unsupported := by
  obtain ⟨s, hs, hlog⟩ : ∃ s, receives [liveBatch, liveMessage] = some s ∧
      s.storage.envelopeLog.map (·.entry) = [(1, liveBatch), (2, liveMessage)] := by
    decide +kernel
  obtain ⟨s₀, hboot, hempty, hrun⟩ := receives_run
    (fun _ _ => True) hs fun _ _ _ => trivial
  refine ⟨s₀, s, hboot, hempty, hrun, hlog, fun reader call t => ?_, fun call t => ⟨_, rfl, ?_⟩⟩
  · unfold pullEntry
    simp [liveBatch, wire]
  · exact ⟨rfl, "application_batched", rfl⟩

end GroupCoordination
