import GroupCoordination.Model.GroupInfoSync
import GroupCoordination.Model.Reference
import GroupCoordination.Properties.Nonces
import GroupCoordination.Refinement.Operations

/-!
# Exports that span an epoch

An export takes several reads of a coordinator that goes on working. As long as no heal and no
restart falls between them, what was read is of one epoch iff the first and the last read find the
same number: epochs only go up, and with the number stay the commits and the tree.
-/

namespace GroupCoordination

open Fallible

/-- Two moments of one epoch of the group: the same commits, the same number and the same tree. -/
structure SameEpoch (s t : State) : Prop where
  lineage : t.lineage = s.lineage
  epoch : t.epoch = s.epoch
  treeHash : t.treeHash = s.treeHash

theorem SameEpoch.trans (h : SameEpoch s t) (h' : SameEpoch t u) : SameEpoch s u :=
  ⟨h'.lineage.trans h.lineage, h'.epoch.trans h.epoch, h'.treeHash.trans h.treeHash⟩

def Steady (_ : State) (a : Action) : Prop :=
  (∀ wake, a.op ≠ .heal wake) ∧ ∀ view anchor, a.op ≠ .restart view anchor

theorem CoreStep.epoch_cases {x : Ctx} {c c' : Core} (h : CoreStep x c c') :
    c'.lineage = c.lineage ∧ c'.epoch = c.epoch ∧ c'.treeHash = c.treeHash ∨
    c'.epoch = c.epoch + 1 := by
  cases h with
  | commit | issue => exact .inr rfl
  | _ => exact .inl ⟨rfl, rfl, rfl⟩

theorem CoreSteps.epoch_cases {x : Ctx} {c c' : Core} (h : CoreSteps x c c') :
    c'.lineage = c.lineage ∧ c'.epoch = c.epoch ∧ c'.treeHash = c.treeHash ∨
    c.epoch < c'.epoch := by
  induction h with
  | refl => exact .inl ⟨rfl, rfl, rfl⟩
  | tail _ hstep ih =>
    rcases hstep.epoch_cases with ⟨hl, he, ht⟩ | he
    · rw [hl, he, ht]
      exact ih
    · rcases ih with ⟨-, heq, -⟩ | hlt <;> exact .inr (by omega)

/-- While nothing heals, a node stays in its epoch or goes on to a later one. -/
theorem steady_run {node : Node} (h : Transition.Run (step node) Steady s s') :
    SameEpoch s s' ∨ s.epoch < s'.epoch := by
  induction h with
  | refl => exact .inl ⟨rfl, rfl, rfl⟩
  | snoc a _ ok next ih =>
    rcases (step_moves ok.1 ok.2 next).steps.epoch_cases with ⟨hl, he, ht⟩ | hlt
    · rcases ih with hsame | hlt
      · exact .inl (hsame.trans ⟨hl, he, ht⟩)
      · exact .inr (hlt.trans_eq he.symm)
    · rcases ih with hsame | hlt'
      · exact .inr (hsame.epoch ▸ hlt)
      · exact .inr (hlt'.trans hlt)

theorem steady_le {node : Node} (h : Transition.Run (step node) Steady s s') :
    s.epoch ≤ s'.epoch := by
  rcases steady_run h with hsame | hlt
  · exact hsame.epoch.ge
  · exact hlt.le

theorem steady_same_iff {node : Node} (h : Transition.Run (step node) Steady s s') :
    SameEpoch s s' ↔ s.epoch = s'.epoch := by
  refine ⟨fun hsame => hsame.epoch.symm, fun heq => ?_⟩
  exact (steady_run h).resolve_right fun hlt => hlt.ne heq

structure GroupInfoResponse.From (exportGroupInfo : Bytes → Bool → Except String Bytes)
    (withRatchetTree : Bool) (resp : GroupInfoResponse) (reads : ExportReads) : Prop where
  groupInfo : exportGroupInfo reads.groupState.groupState withRatchetTree = .ok resp.groupInfo
  treeHash : resp.treeHash = reads.treeHash.treeHash
  epoch : resp.epoch = reads.epoch.epoch

theorem exportLocalGroupInfo_ok
    (h : exportLocalGroupInfo exportGroupInfo groupID withRatchetTree
      (some reads) hasEngine = .ok resp) :
    resp.From exportGroupInfo withRatchetTree reads := by
  obtain ⟨snap, hsnap, h⟩ := bind_ok h
  obtain ⟨info, hinfo, h⟩ := bind_ok h
  obtain ⟨_, -, hsnap⟩ := bind_ok hsnap
  obtain ⟨_, -, hsnap⟩ := bind_ok hsnap
  cases hsnap
  cases h
  exact ⟨mapError_ok hinfo, rfl, rfl⟩

theorem prepared_secret {call : PrepareCall}
    (h : (prepareOutgoingFileTransfer sha256 (call.reading exportSecret stateAt epochAt)).result =
      .ok rec) :
    rec.exportEpoch = epochAt.epoch ∧
      ∃ content secret, call.hashed = .ok content ∧
        exportSecret stateAt.groupState fileTransferLabel (sha256 content) exportSecretLen =
          .ok secret := by
  unfold prepareOutgoingFileTransfer at h
  cases hbegin : (call.reading exportSecret stateAt epochAt).begin sha256 with
  | error err => simp [hbegin] at h
  | ok src =>
    obtain ⟨content, secret, hcontent, hsecret, -⟩ := (PrepareCall.begin_ok hbegin).secret
    simp only [hbegin] at h
    obtain ⟨_, -, h⟩ := bind_ok h
    obtain ⟨_, -, h⟩ := bind_ok h
    cases h
    exact ⟨rfl, content, secret, hcontent, hsecret⟩

theorem pullSecret_ok (h : pullSecret exportSecret manifestEpoch sum epochAt stateAt = .ok secret) :
    manifestEpoch = epochAt.epoch ∧
      ∃ digest, sum = some digest ∧
        exportSecret stateAt.groupState fileTransferLabel digest exportSecretLen = .ok secret := by
  obtain ⟨_, hepoch, h⟩ := bind_ok h
  cases sum with
  | none => cases h
  | some digest => exact ⟨require_ok hepoch, digest, rfl, mapError_ok h⟩

/-- For every export taken while the node neither heals nor restarts: what it hands out is what the
reads found, and the reads are of one epoch iff the first and the last one find the same number. -/
theorem exports_coherent_iff {node : Node} (exportGroupInfo : Bytes → Bool → Except String Bytes)
    (exportSecret : SecretExporter) (sha256 : Bytes → Bytes)
    (first : Transition.Run (step node) Steady s t)
    (second : Transition.Run (step node) Steady t u) :
    (∀ groupID withRatchetTree hasEngine resp,
      exportLocalGroupInfo exportGroupInfo groupID withRatchetTree
        (some ⟨s, t, u⟩) hasEngine = .ok resp →
        resp.From exportGroupInfo withRatchetTree ⟨s, t, u⟩ ∧
          (SameEpoch s t ∧ SameEpoch t u ↔ s.epoch = u.epoch)) ∧
    (∀ (call : PrepareCall) rec,
      (prepareOutgoingFileTransfer sha256 (call.reading exportSecret s t)).result = .ok rec →
        rec.exportEpoch = t.epoch ∧
          (∃ content secret, call.hashed = .ok content ∧
            exportSecret s.groupState fileTransferLabel
              (sha256 content) exportSecretLen = .ok secret) ∧
          (SameEpoch s t ↔ s.epoch = t.epoch)) ∧
    ∀ manifestEpoch sum secret,
      pullSecret exportSecret manifestEpoch sum s t = .ok secret →
        manifestEpoch = s.epoch ∧
          (∃ digest, sum = some digest ∧
            exportSecret t.groupState fileTransferLabel digest exportSecretLen = .ok secret) ∧
          (SameEpoch s t ↔ s.epoch = t.epoch) := by
  have hst := steady_same_iff first
  refine ⟨fun _ _ _ _ h => ⟨exportLocalGroupInfo_ok h, ?_⟩, fun _ _ h => ?_, fun _ _ _ h => ?_⟩
  · rw [hst, steady_same_iff second]
    refine ⟨fun ⟨h, h'⟩ => h.trans h', fun heq => ?_⟩
    -- the number in between is caught: epochs only go up
    have hle := steady_le first
    have hle' := steady_le second
    omega
  · obtain ⟨hepoch, hsecret⟩ := prepared_secret h
    exact ⟨hepoch, hsecret, hst⟩
  · obtain ⟨hepoch, hsecret⟩ := pullSecret_ok h
    exact ⟨hepoch, hsecret, hst⟩

namespace Reference

def addsPeer : Op := .addMember { targetPeerID := [66], keyPackageBytes := [5] }

def exportsState (groupState : Bytes) (_ : Bool) : Except String Bytes := .ok groupState

end Reference

open Reference in
/-- A heartbeat between the reads leaves them in one epoch. -/
theorem heartbeat_keeps_export :
    ∃ s t resp, boot (member [65]) [[65]] = some s ∧
      step (member [65]) (action .heartbeat) s = some t ∧
      exportLocalGroupInfo exportsState "g" true (some ⟨s, t, t⟩) true = .ok resp ∧ resp.epoch = 0 ∧
      resp.From exportsState true ⟨s, t, t⟩ ∧ SameEpoch s t ∧ SameEpoch t t := by
  obtain ⟨s, hs, t, ht, hse, hte⟩ : ∃ s, boot (member [65]) [[65]] = some s ∧
      ∃ t, step (member [65]) (action .heartbeat) s = some t ∧ s.epoch = 0 ∧ t.epoch = 0 := by
    decide +kernel
  have first : Transition.Run (step (member [65])) Steady s t :=
    .snoc _ .refl ⟨by simp [action], by simp [action]⟩ ht
  have hresp : exportLocalGroupInfo exportsState "g" true (some ⟨s, t, t⟩) true =
      .ok { groupID := "g", epoch := t.epoch, treeHash := t.treeHash, groupInfo := s.groupState } :=
        rfl
  obtain ⟨hfrom, hiff⟩ :=
    (exports_coherent_iff exportsState (fun _ _ _ _ => .error "") id first .refl).1
    _ _ _ _ hresp
  exact ⟨s, t, _, hs, ht, hresp, hte, hfrom, hiff.mpr (hse.trans hte.symm)⟩

open Reference in
/-- A commit between the reads: the group info of epoch 0 goes out as epoch 1. -/
theorem commit_splits_export :
    ∃ s t resp, boot (member [65]) [[65]] = some s ∧
      step (member [65]) (action addsPeer) s = some t ∧
      exportLocalGroupInfo exportsState "g" true (some ⟨s, t, t⟩) true = .ok resp ∧
      resp.epoch = 1 ∧ resp.treeHash = [1] ∧ s.epoch = 0 ∧
      exportsState s.groupState true = .ok resp.groupInfo ∧
      exportsState t.groupState true ≠ .ok resp.groupInfo ∧ ¬ SameEpoch s t := by
  obtain ⟨s, hs, t, ht, hse, hte, htree, hsg, htg⟩ : ∃ s, boot (member [65]) [[65]] = some s ∧
      ∃ t, step (member [65]) (action addsPeer) s = some t ∧ s.epoch = 0 ∧ t.epoch = 1 ∧
        t.treeHash = [1] ∧ s.groupState = [1, 0] ∧ t.groupState = [1, 1] := by
    decide +kernel
  refine ⟨s, t, _, hs, ht, rfl, hte, htree, hse, rfl, ?_, fun hsame => ?_⟩
  · show Except.ok t.groupState ≠ .ok s.groupState
    simp [hsg, htg]
  · have := hsame.epoch
    omega

end GroupCoordination
