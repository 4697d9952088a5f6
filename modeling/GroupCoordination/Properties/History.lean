import GroupCoordination.Lib.Chain
import GroupCoordination.Properties.EpochAgreement

/-!
# The history chain and the commits behind it

A coordinator that stays on its branch keeps one history hash for every epoch since its
chain was rooted, and each is the chain of the commit hashes up to that epoch. So two
nodes that founded the same group have the same hash in an epoch exactly if they took the
same commits, unless the hash collides on what their chains fed to it.
-/

namespace GroupCoordination

open Fallible

/-- `R(E) = H(R(E-1) ∥ CommitHash(E))`. -/
def Hash.link (H : Hash) (prev commitHash : Bytes) : Bytes := H.sum (prev ++ commitHash)

namespace Lineage

def history (H : Hash) (l : Lineage) : Bytes := Chain.value H.link l.root l.commits

def upTo (l : Lineage) (e : Nat) : Lineage := { l with commits := l.commits.take (e - l.base) }

def epoch (l : Lineage) : Nat := l.base + l.commits.length

@[simp] theorem history_extend (H : Hash) (l : Lineage) :
    (l.extend commitHash).history H = H.link (l.history H) commitHash :=
  Chain.value_snoc _ _ _

@[simp] theorem epoch_extend (l : Lineage) : (l.extend commitHash).epoch = l.epoch + 1 := by
  simp [epoch, extend, Nat.add_assoc]

theorem upTo_of_le (l : Lineage) (h : l.epoch ≤ e) : l.upTo e = l := by
  unfold epoch at h
  simp [upTo, List.take_of_length_le (show l.commits.length ≤ e - l.base by omega)]

theorem upTo_extend (l : Lineage) (h : e ≤ l.epoch) : (l.extend commitHash).upTo e = l.upTo e := by
  unfold epoch at h
  simp [upTo, extend, List.take_append_of_le_length (show e - l.base ≤ l.commits.length by omega)]

end Lineage

-- -------- The chain of a node

structure Charted (H : Hash) (c : Core) : Prop where
  epoch : c.epoch = c.lineage.epoch
  head : c.historyHash = some (c.lineage.history H)
  entries : ∀ e h, c.historyChain.get e = some h ↔
    c.lineage.base ≤ e ∧ e ≤ c.epoch ∧ h = some ((c.lineage.upTo e).history H)

namespace Charted

theorem congr (h : Charted H c) (he : c'.epoch = c.epoch) (hl : c'.lineage = c.lineage)
    (hh : c'.historyHash = c.historyHash) (hc : ∀ e, c'.historyChain.get e = c.historyChain.get e) :
    Charted H c' where
  epoch := by rw [he, hl, h.epoch]
  head := by rw [hh, hl, h.head]
  entries e hash := by rw [hc, hl, he]; exact h.entries e hash

theorem entry (h : Charted H c) (hb : c.lineage.base ≤ e) (he : e ≤ c.epoch) :
    c.historyChain.get e = some (some ((c.lineage.upTo e).history H)) :=
  (h.entries e _).mpr ⟨hb, he, rfl⟩

theorem enterEpoch (h : Charted x.hash c) (newState newTreeHash commitData : Bytes)
    (ledger : Ledger) : Charted x.hash (c.enterEpoch x newState newTreeHash commitData ledger) := by
  have hbase : c.lineage.base ≤ c.lineage.epoch := Nat.le_add_right _ _
  have hextend : extendHistory x (c.epoch + 1) (x.hashCommitData commitData) c.historyHash
      c.historyChain =
      ((c.lineage.extend (x.hashCommitData commitData)).history x.hash,
        c.historyChain.set (c.epoch + 1)
          (some ((c.lineage.extend (x.hashCommitData commitData)).history x.hash))) := by
    rw [h.head, Lineage.history_extend]
    rfl
  refine ⟨?_, ?_, fun e hash => ?_⟩
  · exact (congrArg (· + 1) h.epoch).trans (Lineage.epoch_extend _).symm
  · exact congrArg (some ∘ Prod.fst) hextend
  change (extendHistory _ _ _ _ _).2.get e = some hash ↔ c.lineage.base ≤ e ∧ e ≤ c.epoch + 1 ∧
    hash = some (((c.lineage.extend (x.hashCommitData commitData)).upTo e).history x.hash)
  rw [hextend]
  by_cases he : e = c.epoch + 1
  · subst he
    rw [HistoryChain.get_set_self, Lineage.upTo_of_le _ (by rw [Lineage.epoch_extend, h.epoch])]
    have := h.epoch
    constructor
    · rintro ⟨⟩
      exact ⟨by omega, Nat.le_refl _, rfl⟩
    · rintro ⟨-, -, rfl⟩
      rfl
  · rw [HistoryChain.get_set_of_ne _ he, h.entries]
    have := h.epoch
    constructor
    · rintro ⟨hb, hle, rfl⟩
      exact ⟨hb, by omega, by rw [Lineage.upTo_extend _ (by omega)]⟩
    · rintro ⟨hb, hle, rfl⟩
      exact ⟨hb, by omega, by rw [Lineage.upTo_extend _ (by omega)]⟩

theorem coreStep (h : Charted x.hash c) (hstep : CoreStep x c c') : Charted x.hash c' := by
  cases hstep with
  | commit env wire commit newState newTreeHash ledger =>
    exact (h.enterEpoch newState newTreeHash commit.commitData ledger).congr rfl rfl rfl
      fun _ => rfl
  | issue issued result refs wire ledger =>
    exact (h.enterEpoch result.newGroupState result.newTreeHash result.commitBytes ledger).congr
      rfl rfl rfl fun _ => rfl
  | _ => exact h.congr rfl rfl rfl fun _ => rfl

theorem coreSteps (h : Charted x.hash c) (hsteps : CoreSteps x c c') : Charted x.hash c' := by
  induction hsteps with
  | refl => exact h
  | tail _ hstep ih => exact ih.coreStep hstep

theorem healEdit (h : Charted H c) (ha : EpochsAgree c) (hstep : HealEdit x c c') :
    Charted H c' := by
  cases hstep with
  | drop => exact h.congr rfl rfl rfl fun _ => rfl
  | restore stored here => exact h.congr (ha.restored here) rfl rfl fun _ => rfl
  | overwrite => exact h.congr rfl rfl rfl fun _ => rfl

theorem rooted (hl : c.lineage = { root, base := c.epoch }) (hh : c.historyHash = some root)
    (hc : c.historyChain = HistoryChain.set [] c.epoch (some root)) : Charted H c := by
  refine ⟨by rw [hl]; rfl, by rw [hl, hh]; rfl, fun e hash => ?_⟩
  rw [hc, hl]
  by_cases he : e = c.epoch
  · subst he
    simp [Lineage.upTo, Lineage.history, eq_comm]
  rw [HistoryChain.get_set_of_ne _ he]
  simp [HistoryChain.get]
  omega

theorem healSwap (hstep : HealSwap x c c') : Charted H c' := by
  obtain ⟨newState, newTreeHash, newEpoch, record, coord, saved, -, -, -⟩ := hstep
  exact rooted rfl rfl rfl

theorem head_entry (h : Charted H c) : c.historyChain.get c.epoch = some c.historyHash := by
  have hbase : c.lineage.base ≤ c.epoch := h.epoch ▸ Nat.le_add_right _ _
  rw [h.entry hbase (Nat.le_refl _), h.head, Lineage.upTo_of_le _ (Nat.le_of_eq h.epoch.symm)]

end Charted

theorem HealEdit.lineage (h : HealEdit x c c') : c'.lineage = c.lineage := by
  cases h <;> rfl

theorem CoreSteps.lineage_root (h : CoreSteps x c c') :
    c'.lineage.root = c.lineage.root ∧ c'.lineage.base = c.lineage.base := by
  induction h with
  | refl => exact ⟨rfl, rfl⟩
  | tail _ hstep ih => cases hstep <;> exact ih

-- -------- Entering a group

namespace Node

def genesis (node : Node) : Bytes :=
  node.hash.sum (stringBytes "phoenix/history/v1" ++ stringBytes node.groupID)

def historyAfter (node : Node) (commits : List Bytes) : Bytes :=
  Chain.value node.hash.link node.genesis commits

theorem historyAfter_length (node : Node) (commits : List Bytes) :
    (node.historyAfter commits).length = 32 :=
  Chain.value_of (fun b : Bytes => b.length = 32) (node.hash.size _)
    (fun _ _ => node.hash.size _) commits

end Node

def Founded (node : Node) (s : State) : Prop :=
  ∃ (w : World) (view : List PeerID) (storage : Storage) (b : Boot),
    createGroup { node, w with } (newCoordinator { node, w with } view storage) = .ok b ∧
      start { node, w with } b = .ok s

def Joined (node : Node) (anchor : Bytes) (s : State) : Prop :=
  ∃ (w : World) (view : List PeerID) (storage : Storage),
    w.works storage.writes .saveCoordState = true ∧
      start { node, w with } (rebooted { node, w with } view (some (some anchor)) storage) = .ok s

/-- A coordinator that has just entered its group after these commits: its founder before
any, a joined member with the history hash of the joined epoch. -/
inductive Enters (node : Node) : List Bytes → State → Prop
  | founded (h : Founded node s) : Enters node [] s
  | joined (h : Joined node (node.historyAfter past) s) (hlen : past.length = s.epoch) :
      Enters node past s

structure Rooted (node : Node) (root : Bytes) (c : Core) : Prop where
  lineage : c.lineage = { root, base := c.epoch }
  head : c.historyHash = some root
  chain : c.historyChain = HistoryChain.set [] c.epoch (some root)
  last : c.lastCommitHash = []
  coord : c.ledger.coord = some c.coordState ∨
    c.ledger.coord = some { lastCommitHash := [], historyChain := [] } ∧ root = node.genesis

theorem Founded.booted (h : Founded node s) : Booted node (fun _ => True) s := by
  obtain ⟨w, view, storage, b, hcreate, hstart⟩ := h
  exact .created w trivial view storage hcreate hstart

theorem Joined.booted (h : Joined node anchor s) : Booted node (fun _ => True) s := by
  obtain ⟨w, view, storage, -, hstart⟩ := h
  exact .stored w trivial view (some (some anchor)) storage hstart

theorem Founded.rooted (h : Founded node s) : Rooted node node.genesis s.core ∧ s.epoch = 0 := by
  obtain ⟨w, view, storage, b, hcreate, hstart⟩ := h
  unfold createGroup at hcreate
  obtain ⟨⟨groupState, treeHash⟩, -, hcreate⟩ := bind_ok hcreate
  obtain ⟨db, hsave, hcreate⟩ := bind_ok hcreate
  obtain ⟨db', hcoord, hcreate⟩ := bind_ok hcreate
  cases hcreate
  obtain ⟨-, hsavable, -⟩ := Disk.exec_ok hsave
  obtain ⟨-, -, rfl⟩ := Disk.exec_ok hcoord
  have hne : groupState ≠ [] := by
    simp [GroupRecord.savable] at hsavable
    exact hsavable.1
  obtain ⟨b₁, b₂, lastCommitHash, hload, hhist, hcore⟩ := start_core hstart
  simp only [loadGroup, ne_eq, hne, not_false_eq_true, if_true] at hload
  cases hload
  obtain ⟨rfl, ⟨-, rfl⟩ | ⟨hchain, -⟩⟩ := loadHistory_found rfl hhist
  · refine ⟨?_, congrArg Core.epoch hcore⟩
    rw [hcore]
    exact ⟨rfl, rfl, rfl, rfl, .inr ⟨rfl, rfl⟩⟩
  · exact absurd rfl hchain

theorem rebooted_anchored (hworks : x.works db.writes .saveCoordState = true)
    (hgroup : db.group = some stored) :
    rebooted x view (some (some anchor)) db = { newCoordinator x view db with
      epoch := stored.epoch
      historyHash := some anchor
      historyChain := HistoryChain.set [] stored.epoch (some anchor)
      storage := Storage.written { db with coord := some {
        lastCommitHash := [], historyChain := HistoryChain.set [] stored.epoch (some anchor) } }
        .saveCoordState } := by
  have hsave := Storage.saveCoordState_works (d := x.disk) db hworks
    { lastCommitHash := [], historyChain := HistoryChain.set [] stored.epoch (some anchor) }
  have hseed : rebooted x view (some (some anchor)) db =
      seedHistoryAnchor x stored.epoch (some anchor) (newCoordinator x view db) := by
    unfold rebooted
    rw [hgroup]
  rw [hseed]
  simp only [seedHistoryAnchor, newCoordinator]
  rw [hsave]
  rfl

theorem Joined.rooted (h : Joined node anchor s) : Rooted node anchor s.core := by
  obtain ⟨w, view, storage, hworks, hstart⟩ := h
  obtain ⟨b₁, b₂, lastCommitHash, hload, hhist, hcore⟩ := start_core hstart
  obtain ⟨stored, hgroup, rfl⟩ := loadGroup_stored (rebooted_nil _ _ _ _) hload
  have hrecord : storage.group = some stored := by
    have hledger := rebooted_ledger { node, w with } view (some (some anchor)) storage
    exact (congrArg Ledger.record hledger).symm.trans hgroup
  rw [rebooted_anchored hworks hrecord] at hhist
  obtain ⟨rfl, ⟨hchain, -⟩ | ⟨-, rfl⟩⟩ := loadHistory_found rfl hhist
  · cases hchain
  rw [hcore]
  have hget : (HistoryChain.set [] stored.epoch (some anchor)).get stored.epoch =
    some (some anchor) := HistoryChain.get_set_self _
  simp only [hget, rootHistory, Option.getD_some]
  exact ⟨rfl, rfl, rfl, rfl, .inl rfl⟩

theorem Enters.rooted (h : Enters node past s) :
    Rooted node (node.historyAfter past) s.core ∧ s.epoch = past.length := by
  cases h with
  | founded h => exact h.rooted
  | joined h hlen => exact ⟨h.rooted, hlen.symm⟩

theorem Enters.booted (h : Enters node past s) : Booted node (fun _ => True) s := by
  cases h with
  | founded h | joined h => exact h.booted

structure Traced (node : Node) (past : List Bytes) (c : Core) : Prop
    extends Charted node.hash c where
  root : c.lineage.root = node.historyAfter past
  base : c.lineage.base = past.length

namespace Traced

theorem history_upTo (h : Traced node past c) (he : past.length ≤ e) :
    (c.lineage.upTo e).history node.hash =
      node.historyAfter ((past ++ c.lineage.commits).take e) := by
  unfold Lineage.history Lineage.upTo Node.historyAfter
  rw [List.take_append, List.take_of_length_le he, Chain.value_append, h.base]
  exact congrArg (Chain.value _ · _) h.root

theorem congr (h : Traced node past c) (he : c'.epoch = c.epoch) (hl : c'.lineage = c.lineage)
    (hh : c'.historyHash = c.historyHash) (hc : c'.historyChain = c.historyChain) :
    Traced node past c' where
  toCharted := h.toCharted.congr he hl hh fun _ => by rw [hc]
  root := hl ▸ h.root
  base := hl ▸ h.base

theorem coreSteps (h : Traced x.toNode past c) (hsteps : CoreSteps x c c') :
    Traced x.toNode past c' := by
  obtain ⟨hroot, hbase⟩ := hsteps.lineage_root
  exact { h.toCharted.coreSteps hsteps with
    root := hroot.trans h.root, base := hbase.trans h.base }

theorem healEdit (h : Traced node past c) (ha : EpochsAgree c) (hedit : HealEdit x c c') :
    Traced node past c' where
  toCharted := h.toCharted.healEdit ha hedit
  root := (congrArg Lineage.root hedit.lineage).trans h.root
  base := (congrArg Lineage.base hedit.lineage).trans h.base

end Traced

structure Follows (node : Node) (past : List Bytes) (c : Core) : Prop
    extends EpochsAgree c, Traced node past c

theorem Enters.follows (h : Enters node past s) : Follows node past s.core := by
  obtain ⟨hrooted, hepoch⟩ := h.rooted
  exact { h.booted.epochsAgree, Charted.rooted hrooted.lineage hrooted.head hrooted.chain with
    root := congrArg Lineage.root hrooted.lineage
    base := (congrArg Lineage.base hrooted.lineage).trans hepoch }

theorem step_follows (h : Follows node past s.core) (keeps : KeepsBranch s a)
    (hstep : step node a s = some s') : Follows node past s'.core := by
  refine ⟨step_epochsAgree h.toEpochsAgree hstep, ?_⟩
  have harrive : Traced node past (s.arrive a.op).core := h.toTraced.congr rfl rfl rfl rfl
  cases step_effect hstep with
  | moves hmoves => exact Traced.coreSteps (x := a.ctx node) harrive hmoves.steps
  | edit hedit => exact harrive.healEdit (h.toEpochsAgree.arrive a.op) hedit
  | swap wake hop hs hswap => exact absurd hs (keeps.2 wake hop)
  | restart view anchor hop => exact absurd hop (keeps.1 view anchor)

-- -------- Equal hashes, equal commits

def Hash.inputs (H : Hash) (root : Bytes) (commits : List Bytes) : List Bytes :=
  (Chain.links H.link root commits).map fun link => link.1 ++ link.2

/-- No input of one kind collides with one of the other. -/
def Hash.CollisionFree (H : Hash) (inputs inputs' : List Bytes) : Prop :=
  ∀ a ∈ inputs, ∀ b ∈ inputs', H.sum a = H.sum b → a = b

instance (H : Hash) (inputs inputs' : List Bytes) : Decidable (H.CollisionFree inputs inputs') :=
  inferInstanceAs (Decidable (∀ a ∈ inputs, ∀ b ∈ inputs', H.sum a = H.sum b → a = b))

/-- Every value on a chain has the length of a hash, so an input splits in one way only, also
where a commit hash is empty. -/
theorem Hash.chain_inj {H : Hash} (hroot : root.length = 32) (hroot' : root'.length = 32)
    (hlen : commits.length = commits'.length)
    (hfree : H.CollisionFree (H.inputs root commits) (H.inputs root' commits'))
    (h : Chain.value H.link root commits = Chain.value H.link root' commits') :
    root = root' ∧ commits = commits' := by
  refine Chain.value_inj hlen (fun link hm link' hm' heq => ?_) h
  have hsize := Chain.links_left (fun b => b.length = 32) hroot (fun _ _ => H.size _) link hm
  have hsize' := Chain.links_left (fun b => b.length = 32) hroot' (fun _ _ => H.size _) link' hm'
  have happend := hfree _ (List.mem_map_of_mem hm) _ (List.mem_map_of_mem hm') heq
  obtain ⟨hleft, hright⟩ := List.append_inj happend (hsize.trans hsize'.symm)
  exact Prod.ext hleft hright

theorem Follows.founder_entry (h : Follows node [] c) (he : e ≤ c.epoch) :
    c.historyChain.get e = some (some (node.historyAfter (c.lineage.commits.take e))) := by
  rw [h.entry (h.base ▸ Nat.zero_le e) he, h.history_upTo (Nat.zero_le e), List.nil_append]

theorem Follows.founder_commits (h : Follows node [] c) : c.lineage.commits.length = c.epoch := by
  rw [h.toCharted.epoch, Lineage.epoch, h.base, List.length_nil, Nat.zero_add]

/-- Two founders of one group that stayed on their branches have the same history hash in an
epoch exactly if they took the same commits up to it, and then the same hash in every epoch
before. -/
theorem history_hash_characterises_branch (node node' : Node) (s₀ s s₀' s' : State)
    (hgroup : node.groupID = node'.groupID) (hhash : node.hash = node'.hash)
    (founded : Founded node s₀) (founded' : Founded node' s₀')
    (run : Transition.Run (step node) KeepsBranch s₀ s)
    (run' : Transition.Run (step node') KeepsBranch s₀' s') (E : Nat) (hE : E ≤ s.epoch)
    (hE' : E ≤ s'.epoch) (hfree : node.hash.CollisionFree
      (node.hash.inputs node.genesis (s.lineage.commits.take E))
      (node.hash.inputs node.genesis (s'.lineage.commits.take E))) :
    s.historyChain.get s.epoch = some s.historyHash ∧
      ∃ h h', s.historyChain.get E = some h ∧ s'.historyChain.get E = some h' ∧
        (h = h' ↔ s.lineage.commits.take E = s'.lineage.commits.take E) ∧
        (h = h' → ∀ e ≤ E, ∃ r, s.historyChain.get e = some r ∧
          s'.historyChain.get e = some r) := by
  have h : Follows node [] s.core := run.invariant (fun s => Follows node [] s.core)
    (Enters.founded founded).follows fun _ _ _ h ok next => step_follows h ok next
  have h' : Follows node' [] s'.core := run'.invariant (fun s => Follows node' [] s.core)
    (Enters.founded founded').follows fun _ _ _ h ok next => step_follows h ok next
  have hafter : node'.historyAfter = node.historyAfter := by
    unfold Node.historyAfter Node.genesis
    rw [hgroup, hhash]
  have hentry : ∀ e ≤ E, s.historyChain.get e =
      some (some (node.historyAfter (s.lineage.commits.take e))) :=
    fun e he => h.founder_entry (Nat.le_trans he hE)
  have hentry' : ∀ e ≤ E, s'.historyChain.get e =
      some (some (node.historyAfter (s'.lineage.commits.take e))) :=
    fun e he => hafter ▸ h'.founder_entry (Nat.le_trans he hE')
  have hlen : (s.lineage.commits.take E).length = (s'.lineage.commits.take E).length := by
    have hcommits : s.lineage.commits.length = s.epoch := h.founder_commits
    have hcommits' : s'.lineage.commits.length = s'.epoch := h'.founder_commits
    rw [List.length_take, List.length_take, hcommits, hcommits', Nat.min_eq_left hE,
      Nat.min_eq_left hE']
  have hinj : node.historyAfter (s.lineage.commits.take E) =
      node.historyAfter (s'.lineage.commits.take E) →
      s.lineage.commits.take E = s'.lineage.commits.take E :=
    fun heq =>
      (Hash.chain_inj (node.historyAfter_length []) (node.historyAfter_length []) hlen hfree
      heq).2
  refine ⟨?_, _, _, hentry E (Nat.le_refl E), hentry' E (Nat.le_refl E),
    ⟨fun heq => ?_, fun heq => ?_⟩,
    fun heq e he => ?_⟩
  · exact h.head_entry
  · exact hinj (Option.some.inj heq)
  · rw [heq]
  have htake : s.lineage.commits.take e = s'.lineage.commits.take e := by
    have := congrArg (List.take e) (hinj (Option.some.inj heq))
    rwa [List.take_take, List.take_take, Nat.min_eq_left he] at this
  exact ⟨_, hentry e he, htake ▸ hentry' e he⟩

theorem Reference.boot_founded {node : Node} (h : Reference.boot node view = some s) :
    Founded node s := by
  unfold Reference.boot at h
  obtain ⟨b, hcreate, hstart⟩ := Option.bind_eq_some_iff.mp h
  exact ⟨Reference.world, view, {}, b, toOption_eq_some hcreate, toOption_eq_some hstart⟩

def Reference.added (pid : PeerID) (keyPackage : Bytes) : Option State :=
  Reference.trace (Reference.member pid) [pid]
    [Reference.action (.addMember { targetPeerID := [67], keyPackageBytes := keyPackage })]

theorem Reference.added_founded (h : Reference.added pid keyPackage = some s) :
    let node := Reference.member pid
    ∃ s₀, Founded node s₀ ∧ Transition.Run (step node) KeepsBranch s₀ s := by
  unfold Reference.added Reference.trace at h
  obtain ⟨s₀, hboot, hexec⟩ := Option.bind_eq_some_iff.mp h
  refine ⟨s₀, Reference.boot_founded hboot, .of_exec hexec fun _ a ha => ?_⟩
  obtain rfl := List.mem_singleton.mp ha
  exact ⟨nofun, nofun⟩

open Reference in
/-- Two founders that took different commits have different hashes. -/
theorem founders_on_different_branches :
    ∃ s s', added [65] [5] = some s ∧ added [66] [9] = some s' ∧
      s.historyChain.get 1 ≠ s'.historyChain.get 1 := by
  let node := member [65]
  obtain ⟨s, hs, s', hs', he, he', hcommits, hfree⟩ : ∃ s, added [65] [5] = some s ∧
      ∃ s', added [66] [9] = some s' ∧ s.epoch = 1 ∧ s'.epoch = 1 ∧
        s.lineage.commits.take 1 ≠ s'.lineage.commits.take 1 ∧ node.hash.CollisionFree
          (node.hash.inputs node.genesis (s.lineage.commits.take 1))
          (node.hash.inputs node.genesis (s'.lineage.commits.take 1)) := by
    decide +kernel
  obtain ⟨s₀, founded, run⟩ := added_founded hs
  obtain ⟨s₀', founded', run'⟩ := added_founded hs'
  obtain ⟨-, h, h', hget, hget', hsame, -⟩ := history_hash_characterises_branch node
    (member [66]) s₀ s s₀' s' rfl rfl founded
    founded' run run' 1 (Nat.le_of_eq he.symm) (Nat.le_of_eq he'.symm) hfree
  refine ⟨s, s', hs, hs', fun heq => hcommits (hsame.mp ?_)⟩
  rw [hget, hget'] at heq
  exact Option.some.inj heq

end GroupCoordination
