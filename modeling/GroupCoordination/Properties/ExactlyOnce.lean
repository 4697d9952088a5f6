import GroupCoordination.Model.Reference
import GroupCoordination.Refinement.Boot
import GroupCoordination.Refinement.Operations

/-!
# A message is delivered at most once

An envelope is its bytes, and the database knows it by their hash. Whatever the engine
answers and however often an envelope comes in (live, out of the buffer, replayed, after a
restart), `OnMessage` is called for it at most once and at most one row is stored for it.

A single message is delivered only by the transaction that marks its envelope as applied.
A batch does not get that far: the event rows of `handleApplicationBatchedLocked` leave
the envelope hash unset, which the table does not allow, and an event whose row was not
stored is not delivered (`deliverBatchedEvent_eq`).
-/

namespace GroupCoordination

structure AtMostOnce (hash : Wire → Bytes) (c : Core) : Prop where
  delivered : (c.delivered.map hash).Nodup
  applied : ∀ wire ∈ c.delivered, hash wire ∈ c.ledger.applied
  rows : c.ledger.messages.Nodup

namespace AtMostOnce

variable {x : Ctx} {c c' : Core} {hash : Wire → Bytes}

section

variable (h : AtMostOnce hash c)

include h

theorem rows_applies (ha : Applies c.ledger b l) : l.messages.Nodup := by
  rcases ha.messages with hm | hm
  · rw [hm]
    exact h.rows
  · have hkeyed : Table.Keyed (fun h => h) c.ledger.messages := by
      simpa [Table.Keyed] using h.rows
    have hinserted : Table.Keyed (fun h => h) l.messages := hm ▸ hkeyed.insertOrIgnore
    simpa [Table.Keyed] using hinserted

theorem applies (ha : Applies c.ledger b l)
    (hd : c'.delivered = c.delivered) (hl : c'.ledger.applied = l.applied)
    (hm : c'.ledger.messages = l.messages) : AtMostOnce hash c' where
  delivered := hd ▸ h.delivered
  applied wire hw := by
    rw [hl, ha.applied]
    exact List.mem_append_left _ (h.applied wire (hd ▸ hw))
  rows := hm ▸ h.rows_applies ha

theorem deliver (ha : Applies c.ledger (hash wire) l)
    (hd : c'.delivered = c.delivered ++ [wire]) (hl : c'.ledger = l) : AtMostOnce hash c' where
  delivered := by
    rw [hd, List.map_append, List.nodup_append]
    refine ⟨h.delivered, List.nodup_singleton _, ?_⟩
    rintro _ hmem _ hsing rfl
    obtain ⟨earlier, hearlier, heq⟩ := List.mem_map.mp hmem
    apply ha.fresh
    rw [← List.mem_singleton.mp hsing, ← heq]
    exact h.applied earlier hearlier
  applied w hw := by
    rw [hl, ha.applied]
    rcases List.mem_append.mp (hd ▸ hw) with hold | hnew
    · exact List.mem_append_left _ (h.applied w hold)
    · rw [List.mem_singleton.mp hnew]
      exact List.mem_append_right _ (List.mem_singleton_self _)
  rows := hl ▸ h.rows_applies ha

theorem congr (hd : c'.delivered = c.delivered)
    (ha : c'.ledger.applied = c.ledger.applied) (hm : c'.ledger.messages = c.ledger.messages) :
    AtMostOnce hash c' :=
  ⟨hd ▸ h.delivered, fun wire hw => ha ▸ h.applied wire (hd ▸ hw), hm ▸ h.rows⟩

end

theorem coreStep (h : AtMostOnce x.disk.hash c) (hstep : CoreStep x c c') :
    AtMostOnce x.disk.hash c' := by
  cases hstep with
  | commit env wire commit newState newTreeHash ledger _ _ _ _ _ applies _
  | issue issued result refs wire ledger _ _ _ _ _ _ _ applies _ =>
    exact h.applies applies rfl rfl rfl
  | deliver wire newState ledger _ applies _ => exact h.deliver applies rfl rfl
  | batch wire newState ledger _ applies _ =>
    rcases applies with ⟨ha, hm⟩ | applies
    · exact h.congr rfl ha hm
    · exact h.applies applies rfl rfl rfl
  | _ => exact h.congr rfl rfl rfl

theorem coreSteps (h : AtMostOnce x.disk.hash c) (hsteps : CoreSteps x c c') :
    AtMostOnce x.disk.hash c' := by
  induction hsteps with
  | refl => exact h
  | tail _ hstep ih => exact ih.coreStep hstep

theorem healEdit (h : AtMostOnce hash c) (hstep : HealEdit x c c') : AtMostOnce hash c' := by
  cases hstep <;> exact h.congr rfl rfl rfl

theorem healSwap (h : AtMostOnce hash c) (hstep : HealSwap x c c') : AtMostOnce hash c' := by
  cases hstep
  exact h.congr rfl rfl rfl

end AtMostOnce

-- -------- Runs

variable {s s' : State}

theorem Booted.delivered_nil (h : Booted node allowed s) : s.core.delivered = [] := by
  obtain ⟨_, _, hcore⟩ := h.core
  exact congrArg Core.delivered hcore

theorem Booted.atMostOnce (h : Booted node allowed s) (hash : Wire → Bytes)
    (hrows : s.core.ledger.messages.Nodup) : AtMostOnce hash s.core where
  delivered := by
    rw [h.delivered_nil]
    exact List.nodup_nil
  applied := by
    rw [h.delivered_nil]
    exact fun _ hw => absurd hw List.not_mem_nil
  rows := hrows

def Node.wireHash (node : Node) (wire : Wire) : Bytes := node.hash.sum (node.codec.wireBytes wire)

theorem step_atMostOnce (h : AtMostOnce node.wireHash s.core) (hstep : step node a s = some s') :
    AtMostOnce node.wireHash s'.core := by
  replace h : AtMostOnce node.wireHash (s.arrive a.op).core := h.congr rfl rfl rfl
  cases step_effect hstep with
  | moves hmoves => exact AtMostOnce.coreSteps (x := a.ctx node) h hmoves.steps
  | edit hedit => exact h.healEdit hedit
  | swap wake hop hs hswap => exact h.healSwap hswap
  | restart view anchor hop hrestart =>
    obtain ⟨s₁, hstart, hcore⟩ := restart_core hrestart
    obtain ⟨-, happlied, hmessages⟩ := rebooted_tables hstart
    rw [hcore]
    exact h.congr rfl happlied hmessages

/-- In every run, whatever the engine does in each step, `OnMessage` is called at most once
for an envelope and at most one row is stored for it, hence at most one for each event the
envelope carries. -/
theorem message_delivered_at_most_once (node : Node) (s₀ s : State)
    (boot : Booted node (fun _ => True) s₀)
    (unique : (s₀.storage.messages.map (·.envelopeHash)).Nodup)
    (run : Transition.Run (step node) (fun _ _ => True) s₀ s) (wire : Wire) :
    s.delivered.countP (fun d => d.wire = wire) ≤ 1 ∧
      s.storage.messages.countP (fun row => row.envelopeHash = node.wireHash wire) ≤ 1 := by
  have h : AtMostOnce node.wireHash s.core :=
    run.invariant (fun s => AtMostOnce node.wireHash s.core) (boot.atMostOnce _ unique)
      fun _ _ _ h _ hstep => step_atMostOnce h hstep
  have hdelivered : Table.Keyed (·.wire) s.delivered := List.Nodup.of_map _ h.delivered
  have hrows : Table.Keyed (·.envelopeHash) s.storage.messages := h.rows
  exact ⟨hdelivered.countP_le_one wire, hrows.countP_le_one (node.wireHash wire)⟩

open Reference in
/-- An envelope that comes in twice and is replayed once more is delivered once. -/
theorem duplicate_delivered_once :
    let wire := Envelope.marshal
      { type := .application, groupID := "g", epoch := 0, «from» := "B", timestamp := {},
        payload := .application [9, 0, 42] }
    ∃ s, trace (node .testConfig CoordinatorConfig.testConfig_valid [65]) [[65], [66]]
        ([.receive [66] wire, .receive [66] wire, .replay [wire]].map action) = some s ∧
      s.delivered.length = 1 ∧ s.delivered.countP (fun d => d.wire = wire) ≤ 1 := by
  intro wire
  obtain ⟨s₀, hboot, hnil, s, hexec, hlen⟩ : ∃ s₀,
      boot (node .testConfig CoordinatorConfig.testConfig_valid [65]) [[65], [66]] = some s₀ ∧
      s₀.storage.messages = [] ∧ ∃ s, Transition.exec
        (step (node .testConfig CoordinatorConfig.testConfig_valid [65]))
        ([.receive [66] wire, .receive [66] wire, .replay [wire]].map action) s₀ = some s ∧
        s.delivered.length = 1 := by
    decide +kernel
  have hunique : (s₀.storage.messages.map (·.envelopeHash)).Nodup := by
    rw [hnil]
    exact List.nodup_nil
  refine ⟨s, ?_, hlen, (message_delivered_at_most_once _ s₀ s
    (boot_booted hboot trivial) hunique (.of_exec hexec fun _ _ _ => trivial) wire).1⟩
  rw [trace, hboot]
  exact hexec

/-- What was surfaced stays on record as applied, in every run. -/
theorem surfaced_stays_applied {node : Node} (start : s.delivered = [])
    (unique : (s.storage.messages.map (·.envelopeHash)).Nodup)
    (run : Transition.Run (step node) (fun _ _ => True) s s') :
    ∀ d ∈ s'.delivered, node.wireHash d.wire ∈ s'.storage.applied.map (·.envelopeHash) := by
  have hbase : AtMostOnce node.wireHash s.core :=
    ⟨by simp [State.core, start], by simp [State.core, start], unique⟩
  have h := run.invariant (fun s => AtMostOnce node.wireHash s.core) hbase
    fun _ _ _ h _ hstep => step_atMostOnce h hstep
  exact fun d hd => h.applied d.wire (List.mem_map_of_mem hd)

open Reference in
theorem sent_stays_applied : ∃ s t, step (member [65]) (action (.send [42] "")) s = some t ∧
    t.delivered ≠ [] ∧
    ∀ d ∈ t.delivered, (member [65]).wireHash d.wire ∈ t.storage.applied.map (·.envelopeHash) := by
  obtain ⟨s, -, hstart, hnil, t, hstep, hsent⟩ : ∃ s, boot (member [65]) [[65]] = some s ∧
      s.delivered = [] ∧ s.storage.messages = [] ∧
      ∃ t, step (member [65]) (action (.send [42] "")) s = some t ∧ t.delivered ≠ [] := by
    decide +kernel
  exact ⟨s, t, hstep, hsent, surfaced_stays_applied hstart (by simp [hnil])
    (.snoc _ .refl trivial hstep)⟩

end GroupCoordination
