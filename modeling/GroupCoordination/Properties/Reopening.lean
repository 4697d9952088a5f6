import GroupCoordination.Model.Reference
import GroupCoordination.Refinement.Events

/-!
# What a commit has reached stays reached

The loop over the open operations that follows a commit works on a list it loaded before. Where a
proposal is committed at once, a turn of the loop reaches the operations of the turns to come, and
these are proposed once more. With a delay before each commit no operation opens again, as long as
nobody asks for one under the identifier of an operation that is concluded.
-/

namespace GroupCoordination

def Scope.lasting : Scope where
  batches := True
  kept := True

theorem Scope.lasting_lax : Scope.lasting.Lax := ⟨fun _ _ => trivial, fun _ _ => trivial⟩

section Requests

variable {x : Ctx} {s : State}

instance (db : Storage) (operationID : String) : Decidable (db.Concluded operationID) :=
  decidable_of_iff ((Table.get PendingOperation.operationID db.pendingOperations operationID).any
    (·.isConcluded) = true) (by simp [Storage.Concluded, Option.any_eq_true])

/-- The identifier of the operation that a request or a member who joins again asks for, unless the
request is answered as a repetition. -/
def Op.asksFor (x : Ctx) (s : State) : Op → Option String
  | .receive _ data =>
    ((data.unmarshal.bind Envelope.join?).map (·.operationID)).filter (· ≠ "")
  | .addMember req => request req.operationID ("add_member_" ++ x.peers.toString req.targetPeerID)
  | .removeMember req =>
    request req.operationID ("remove_member_" ++ x.peers.toString req.targetPeerID)
  | _ => none
where
  request (operationID key : String) : Option String :=
    if repeatedRequest x operationID key s = none then some (recordedID x operationID) else none

def Action.AsksAnew (node : Node) (a : Action) (s : State) : Prop :=
  ∀ operationID ∈ a.op.asksFor (a.ctx node) s, ¬ s.storage.Concluded operationID

instance (node : Node) (a : Action) (s : State) : Decidable (a.AsksAnew node s) :=
  inferInstanceAs (Decidable (∀ operationID ∈ a.op.asksFor (a.ctx node) s, _))

theorem Op.within_lasting {op : Op}
    (h : ∀ operationID ∈ op.asksFor x s, ¬ s.storage.Concluded operationID) :
    op.Within .lasting x s := by
  cases op with
  | receive pid data =>
    refine ⟨.inl trivial, fun _ p hp => or_iff_not_imp_left.mpr fun hne => h p.operationID ?_,
      Scope.lasting_lax.offered data⟩
    simp [Op.asksFor, hp, hne]
  | addMember req | removeMember req =>
    refine ⟨trivial, fun hfresh _ => h _ ?_⟩
    simp [Op.asksFor, Op.asksFor.request, hfresh]
  | _ => trivial

end Requests

structure Lasting (s₀ s : State) : Prop where
  clean : s.Clean .lasting
  keeps : ∃ events, s.operationTrace = s₀.operationTrace ++ events ∧
    Keeps s₀.storage events s.storage

theorem Lasting.step (h : Lasting s₀ s) (hdelay : 0 < node.cfg.batchingDelay)
    (hnew : a.AsksAnew node s) (hstep : step node a s = some s') : Lasting s₀ s' := by
  obtain ⟨events, htrace, hkeeps⟩ := h.keeps
  have hscoped := step_scoped ⟨fun _ => hdelay, fun _ _ _ _ _ _ => trivial⟩
    (Op.within_lasting hnew) h.clean hstep
  obtain ⟨events', htrace', hkeeps'⟩ := hscoped.keeps trivial
  refine ⟨hscoped.clean, events ++ events', ?_, hkeeps.append hkeeps'⟩
  rw [htrace', htrace, List.append_assoc]

/-- Where commits wait and nobody asks for a concluded operation, an operation that is stored as
reached, at the start or on the way, is never stored as open again, and no further proposal is made
for it. -/
theorem reached_operations_stay_reached (node : Node) (allowed : World → Prop) (s₀ s : State)
    (hboot : Booted node allowed s₀)
    (hkeyed : Table.Keyed PendingOperation.operationID s₀.storage.pendingOperations)
    (hdelay : 0 < node.cfg.batchingDelay)
    (hrun : Transition.Run (step node) (fun s a => a.AsksAnew node s) s₀ s) :
    ∃ events, s.operationTrace = s₀.operationTrace ++ events ∧
      (∀ op ∈ s₀.storage.pendingOperations, op.isReached = true →
        ∀ e ∈ events, ¬ e.opens op.operationID) ∧
      events.Pairwise fun e e' => ∀ op, e = .stored op → op.isReached = true →
        ¬ e'.opens op.operationID := by
  have hstart : Lasting s₀ s₀ :=
    ⟨hboot.clean (fun _ => hkeyed) fun _ _ => trivial, [], by simp, .same rfl⟩
  have hs : Lasting s₀ s := hrun.invariant (Lasting s₀) hstart
    fun _ _ _ h hnew hstep => h.step hdelay hnew hstep
  obtain ⟨events, htrace, hkeeps⟩ := hs.keeps
  refine ⟨events, htrace, fun op hop hreached e he => ?_, hkeeps.among.imp ?_⟩
  · have hget := Table.get_eq_some hkeyed hop
    exact hkeeps.before e he _ ⟨op, hget, PendingOperation.isConcluded_of_reached hreached⟩
  · intro e e' h op hstored hreached
    exact h _ ⟨op, hstored, rfl, PendingOperation.isConcluded_of_reached hreached⟩

namespace Reference

/-- Two requests of a member who does not hold the token. The holder is silent until it leaves the
active view, and then an empty commit of it arrives. -/
def twoAdds : List Op :=
  [.addMember { targetPeerID := [67], keyPackageBytes := [67], operationID := "a" },
    .addMember { targetPeerID := [68], keyPackageBytes := [68], operationID := "b" },
    .liveness, .liveness, .liveness,
    .receive [65] (wire 0 [65] .commit (.commit { commitData := [7, 0], newTreeHash := [1] }))]

/-- A new group after some operations, none of which asks for a concluded operation. -/
def asksAnew (node : Node) (ops : List Op) : Option State :=
  (boot node [[65], [66]]).bind (Transition.exec
    (fun a s => if decide (a.AsksAnew node s) then step node a s else none) (ops.map action))

theorem asksAnew_run {node : Node} (h : asksAnew node ops = some s) :
    ∃ s₀, boot node [[65], [66]] = some s₀ ∧ Booted node (fun _ => True) s₀ ∧
      Transition.Run (step node) (fun s a => a.AsksAnew node s) s₀ s := by
  obtain ⟨s₀, hboot, hexec⟩ := Option.bind_eq_some_iff.mp h
  exact ⟨s₀, hboot, boot_booted hboot trivial,
    .of_checked _ hexec fun _ _ _ hok => of_decide_eq_true hok⟩

def statuses (s : State) : List (String × OpStatus) :=
  s.storage.pendingOperations.map fun op => (op.operationID, op.status)

def patient : Node := node .defaultConfig CoordinatorConfig.defaultConfig_valid [66]

end Reference

open Reference in
/-- Both requests are proposed again after the commit and committed together once the delay is
over. -/
theorem delayed_adds_stay_reached : ∃ s₀ s : State,
    boot patient [[65], [66]] = some s₀ ∧
    asksAnew patient (twoAdds ++ [.proposalTimer 1]) = some s ∧
    statuses s = [("a", .committed), ("b", .committed)] ∧
    ∃ events, s.operationTrace = s₀.operationTrace ++ events ∧
      (∀ op ∈ s₀.storage.pendingOperations, op.isReached = true →
        ∀ e ∈ events, ¬ e.opens op.operationID) ∧
      events.Pairwise fun e e' => ∀ op, e = .stored op → op.isReached = true →
        ¬ e'.opens op.operationID := by
  have hkeyed : ∀ s₀ ∈ boot patient [[65], [66]],
      (s₀.storage.pendingOperations.map (·.operationID)).Nodup := by decide +kernel
  obtain ⟨s, hs, hstatuses⟩ : ∃ s, asksAnew patient (twoAdds ++ [.proposalTimer 1]) = some s ∧
      statuses s = [("a", .committed), ("b", .committed)] := by decide +kernel
  obtain ⟨s₀, hboot, hbooted, hrun⟩ := asksAnew_run hs
  exact ⟨s₀, s, hboot, hs, hstatuses,
    reached_operations_stay_reached _ _ s₀ s hbooted (hkeyed s₀ hboot) (by decide) hrun⟩

def OperationEvent.operation : OperationEvent → Option PendingOperation
  | .stored op => some op
  | .proposed _ => none

open Reference in
/-- The same requests without a delay: the turn of the loop for the first operation commits both,
and the turn for the second one, which still sees it as open, makes another proposal for it. -/
theorem committed_operation_is_proposed_again : ∃ s₀ s op,
    Booted (member [66]) (fun _ => True) s₀ ∧
    Transition.Run (step (member [66]))
      (fun s a => a.AsksAnew (member [66]) s) s₀ s ∧ s.exhausted = false ∧
    s.operationTrace[10]? = some (.stored op) ∧ op.status = .committed ∧
    s.operationTrace[12]? = some (.proposed op.operationID) := by
  obtain ⟨s, hs, op, -, hcheck⟩ : ∃ s, asksAnew (member [66]) twoAdds = some s ∧
      ∃ op, s.operationTrace[10]?.bind OperationEvent.operation = some op ∧ s.exhausted = false ∧
        s.operationTrace[10]? = some (.stored op) ∧ op.status = .committed ∧
        s.operationTrace[12]? = some (.proposed op.operationID) := by decide +kernel
  obtain ⟨s₀, -, hbooted, hrun⟩ := asksAnew_run hs
  exact ⟨s₀, s, op, hbooted, hrun, hcheck⟩

end GroupCoordination
