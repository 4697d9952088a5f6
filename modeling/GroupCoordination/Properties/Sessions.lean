import GroupCoordination.Model.Handshake

/-!
# Sessions of a remote peer

What the entry of a verified peer tells about its sessions. The check of a session and the store of
it are separate steps, and so are the close of the last connection and the removal of the entry. The
entry only ever moves to newer sessions, and does not outlive the connections, in the runs in which
nothing disturbs a handshake between its check and its store.
-/

namespace GroupCoordination

variable {keys : AuthKeys} {me : LocalAuth} {remote : String} {p p' : PeerAuth}

-- -------- Handshakes between check and store

/-- The connection and the message of a handshake that has passed `acceptSession` and has not
stored. -/
def HandshakePhase.accepted : HandshakePhase → Option (Nat × AuthHandshakeMsg)
  | .evicting conn hs | .answering conn hs | .storing conn hs => some (conn, hs)
  | _ => none

/-- The handshake in place `i` is between its check and its store. -/
def PeerAuth.Accepted (p : PeerAuth) (i conn : Nat) (hs : AuthHandshakeMsg) : Prop :=
  ∃ task, p.tasks[i]? = some task ∧ task.phase.accepted = some (conn, hs)

def PeerAuth.Idle (p : PeerAuth) : Prop := ∀ i conn hs, ¬ p.Accepted i conn hs

/-- A step that disturbs no handshake: a session is checked only while its connection is open and no
other handshake is between its check and its store, and no connection is closed by others
meanwhile. -/
def HandshakeUndisturbed (keys : AuthKeys) (remote : String) (p : PeerAuth) : AuthAction → Prop
  | .close _ => p.Idle
  | .advance i w => ∀ task, p.tasks[i]? = some task →
    match task.phase with
    | .received _ hs =>
      (verifyPeerToken keys w.now hs.token remote = .ok () ∧ verifySession keys hs = .ok ()) ∨
        p.Idle
    | .checking conn _ => conn ∈ p.conns ∧ p.Idle
    | _ => True
  | _ => True

structure PeerAuth.Orderly (p : PeerAuth) : Prop where
  single : ∀ i conn hs j conn' hs', p.Accepted i conn hs → p.Accepted j conn' hs' → i = j
  live : ∀ i conn hs, p.Accepted i conn hs → conn ∈ p.conns
  newer : ∀ i conn hs, p.Accepted i conn hs →
    ∀ v, p.verified = some v → v.sessionStarted ≤ hs.session.startedAt
  /-- An entry without connections is about to be removed. -/
  kept : p.verified ≠ none → p.conns ≠ [] ∨ p.closed ≠ [] ∨ p.clearing ≠ 0

theorem PeerAuth.orderly_start : PeerAuth.Orderly {} where
  single := by rintro i conn hs j conn' hs' ⟨task, htask, -⟩; cases htask
  live := by rintro i conn hs ⟨task, htask, -⟩; cases htask
  newer := by rintro i conn hs ⟨task, htask, -⟩; cases htask
  kept := fun h => absurd rfl h

theorem PeerAuth.Idle.orderly (h : p.Idle)
    (hkept : p.verified ≠ none → p.conns ≠ [] ∨ p.closed ≠ [] ∨ p.clearing ≠ 0) : p.Orderly where
  single := fun i conn hs _ _ _ hi => absurd hi (h i conn hs)
  live := fun i conn hs hi => absurd hi (h i conn hs)
  newer := fun i conn hs hi => absurd hi (h i conn hs)
  kept := hkept

/-- What stays orderly when the tasks that are between check and store are among those before. -/
theorem PeerAuth.Orderly.of_accepted (h : p.Orderly)
    (haccepted : ∀ i conn hs, p'.Accepted i conn hs → p.Accepted i conn hs)
    (hconns : ∀ conn ∈ p.conns, conn ∈ p'.conns)
    (hverified : p'.verified = p.verified ∨ p'.verified = none)
    (hkept : p'.verified ≠ none → p'.conns ≠ [] ∨ p'.closed ≠ [] ∨ p'.clearing ≠ 0) :
    p'.Orderly where
  single := fun i conn hs j conn' hs' hi hj =>
    h.single i conn hs j conn' hs' (haccepted i conn hs hi) (haccepted j conn' hs' hj)
  live := fun i conn hs hi => hconns conn (h.live i conn hs (haccepted i conn hs hi))
  newer := by
    intro i conn hs hi v hv
    rcases hverified with hsame | hnone
    · exact h.newer i conn hs (haccepted i conn hs hi) v (hsame ▸ hv)
    · rw [hnone] at hv
      cases hv
  kept := hkept

-- -------- A step of a handshake

/-- Which handshakes are between check and store once the task in place `i` is replaced. -/
theorem PeerAuth.accepted_set {tasks : List HandshakeTask} {i : Nat} {task : HandshakeTask}
    {j conn : Nat} {hs : AuthHandshakeMsg} (hset : p'.tasks = tasks.set i task)
    (h : p'.Accepted j conn hs) :
    i = j ∧ task.phase.accepted = some (conn, hs) ∨
      i ≠ j ∧ ∃ task, tasks[j]? = some task ∧ task.phase.accepted = some (conn, hs) := by
  obtain ⟨t, ht, hacc⟩ := h
  rw [hset, List.getElem?_set] at ht
  by_cases hij : i = j
  · subst hij
    rw [if_pos rfl] at ht
    split at ht
    · exact .inl ⟨rfl, Option.some.inj ht ▸ hacc⟩
    · cases ht
  · rw [if_neg hij] at ht
    exact .inr ⟨hij, t, ht, hacc⟩

theorem PeerAuth.accepted_append {task : HandshakeTask} {i conn : Nat} {hs : AuthHandshakeMsg}
    (hnew : task.phase.accepted = none)
    (h : PeerAuth.Accepted { p with tasks := p.tasks ++ [task] } i conn hs) :
    p.Accepted i conn hs := by
  obtain ⟨t, ht, hacc⟩ := h
  rcases Nat.lt_or_ge i p.tasks.length with hi | hi
  · exact ⟨t, by rwa [List.getElem?_append_left hi] at ht, hacc⟩
  rw [List.getElem?_append_right hi] at ht
  obtain rfl := List.mem_singleton.mp (List.mem_of_getElem? ht)
  rw [hnew] at hacc
  cases hacc

inductive HandshakeMove (keys : AuthKeys) (remote : String) (w : AuthWorld) (p : PeerAuth) :
    HandshakePhase → PeerAuth → HandshakePhase → Prop
  /-- Nothing that the other handshakes see. -/
  | quiet {phase phase' : HandshakePhase} {q : PeerAuth} (hverified : q.verified = p.verified)
      (hconns : q.conns = p.conns) (hclosed : q.closed = p.closed)
      (hclearing : q.clearing = p.clearing)
      (haccepted : phase'.accepted = none ∨ phase'.accepted = phase.accepted) :
      HandshakeMove keys remote w p phase q phase'
  /-- The message is refused, and with it every connection. -/
  | reject {conn : Nat} {hs : AuthHandshakeMsg} {reason : String}
      (hfails : ¬ (verifyPeerToken keys w.now hs.token remote = .ok () ∧
        verifySession keys hs = .ok ())) :
      HandshakeMove keys remote w p (.received conn hs) (p.closeConns fun _ => false)
        (.finished (.insecure reason))
  | accept {conn : Nat} {hs : AuthHandshakeMsg}
      (haccept : acceptSession p.verified hs.session.startedAt = .ok ()) :
      HandshakeMove keys remote w p (.checking conn hs) p (.evicting conn hs)
  | evict {conn : Nat} {hs : AuthHandshakeMsg} {phase' : HandshakePhase}
      (haccepted : phase'.accepted = some (conn, hs)) :
      HandshakeMove keys remote w p (.evicting conn hs) (p.closeConns (· = conn)) phase'
  | store {conn : Nat} {hs : AuthHandshakeMsg} :
      HandshakeMove keys remote w p (.storing conn hs)
        { p with verified := some ⟨hs.token, hs.session.startedAt, hs.session⟩ }
          (.finished .verified)

theorem HandshakeTask.verify_move {inbound : Bool} {conn : Nat} {hs : AuthHandshakeMsg}
    {w : AuthWorld} {q : PeerAuth} {phase' : HandshakePhase}
    (h : verify keys me remote w.now inbound conn hs p = (q, phase')) :
    HandshakeMove keys remote w p (.received conn hs) q phase' := by
  unfold verify at h
  split at h
  next reason hfails =>
    cases h
    exact .reject fun h => by simp [hfails] at h
  split at h
  · cases h
    split
    · exact .quiet rfl rfl rfl rfl (.inl rfl)
    · exact .quiet rfl rfl rfl rfl (.inl rfl)
  split at h
  next reason hfails =>
    cases h
    exact .reject fun h => by simp [hfails] at h
  · cases h
    exact .quiet rfl rfl rfl rfl (.inl rfl)

theorem HandshakeTask.step_move {inbound : Bool} {w : AuthWorld} {phase phase' : HandshakePhase}
    {q : PeerAuth} (h : step keys me remote w inbound p phase = some (q, phase')) :
    HandshakeMove keys remote w p phase q phase' := by
  cases phase with
  | guarded =>
    simp only [step, Option.some.injEq] at h
    split at h
    · cases h
      exact .quiet rfl rfl rfl rfl (.inl rfl)
    · cases h
      exact .quiet rfl rfl rfl rfl (.inl rfl)
  | opening | awaiting conn =>
    cases h
    exact .quiet rfl rfl rfl rfl (.inl (by split <;> rfl))
  | received conn hs =>
    exact verify_move (Option.some.inj h)
  | checking conn hs =>
    simp only [step, Option.some.injEq] at h
    split at h
    · cases h
      exact .quiet rfl rfl rfl rfl (.inl rfl)
    · cases h
      exact .accept ‹_›
  | evicting conn hs =>
    cases h
    exact .evict (by split <;> rfl)
  | answering conn hs =>
    cases h
    refine .quiet rfl rfl rfl rfl ?_
    split
    · exact .inr rfl
    · exact .inl rfl
  | storing conn hs =>
    cases h
    exact .store
  | finished outcome => cases h

theorem PeerAuth.release_eq (q : PeerAuth) (inbound : Bool) (phase : HandshakePhase) :
    ∃ handshaking, q.release inbound phase = { q with handshaking } := by
  unfold release
  split
  · exact ⟨_, rfl⟩
  · split
    · exact ⟨_, rfl⟩
    · exact ⟨false, rfl⟩
  · exact ⟨_, rfl⟩

structure PeerAuth.Advanced (keys : AuthKeys) (remote : String) (w : AuthWorld)
    (p : PeerAuth) (i : Nat)
    (inbound : Bool) (old : HandshakePhase) (q : PeerAuth) (new : HandshakePhase) (p' : PeerAuth) :
    Prop where
  task : p.tasks[i]? = some ⟨inbound, old⟩
  move : HandshakeMove keys remote w p old q new
  verified : p'.verified = q.verified
  conns : p'.conns = q.conns
  closed : p'.closed = q.closed
  clearing : p'.clearing = q.clearing
  tasks : p'.tasks = p.tasks.set i ⟨inbound, new⟩

theorem PeerAuth.advance_cases {i : Nat} {w : AuthWorld}
    (h : p.advance keys me remote i w = some p') :
    ∃ inbound old q new, p.Advanced keys remote w i inbound old q new p' := by
  obtain ⟨⟨inbound, old⟩, htask, h⟩ := Option.bind_eq_some_iff.mp h
  obtain ⟨⟨q, new⟩, hstep, h⟩ := Option.bind_eq_some_iff.mp h
  obtain ⟨handshaking, hrelease⟩ := q.release_eq inbound new
  dsimp only at h
  rw [hrelease] at h
  obtain rfl := Option.some.inj h
  exact ⟨inbound, old, q, new, htask, HandshakeTask.step_move hstep, rfl, rfl, rfl, rfl, rfl⟩

-- -------- Every step that disturbs no handshake

theorem PeerAuth.kept_closeConns {keep : Nat → Bool}
    (h : p.conns ≠ [] ∨ p.closed ≠ [] ∨ p.clearing ≠ 0) :
    (p.closeConns keep).conns ≠ [] ∨ (p.closeConns keep).closed ≠ [] ∨
    (p.closeConns keep).clearing ≠ 0 := by
  rcases h with hconns | hclosed | hclearing
  · obtain ⟨conn, hconn⟩ := List.exists_mem_of_ne_nil _ hconns
    by_cases hkeep : keep conn = true
    · exact .inl (List.ne_nil_of_mem (List.mem_filter.mpr ⟨hconn, hkeep⟩))
    · refine .inr (.inl (List.ne_nil_of_mem (a := conn) (List.mem_append_right _ ?_)))
      exact List.mem_filter.mpr ⟨hconn, by simpa using hkeep⟩
  · exact .inr (.inl fun hnil => hclosed (List.append_eq_nil_iff.mp hnil).1)
  · exact .inr (.inr hclearing)

theorem acceptSession_ok {verified : Option VerifiedPeerState} {startedAt : Int}
    (h : acceptSession verified startedAt = .ok ()) :
    ∀ v, verified = some v → v.sessionStarted ≤ startedAt := by
  rintro v rfl
  exact Fallible.require_ok h

theorem PeerAuth.Advanced.accepted {w : AuthWorld} {i : Nat} {inbound : Bool}
    {old new : HandshakePhase} {q : PeerAuth} (h : p.Advanced keys remote w i inbound old q new p')
    (hnew : new.accepted = none ∨ new.accepted = old.accepted) :
    ∀ j conn hs, p'.Accepted j conn hs → p.Accepted j conn hs := by
  intro j conn hs hacc
  rcases accepted_set h.tasks hacc with ⟨rfl, hthis⟩ | ⟨-, hother⟩
  · rcases hnew with hnone | hsame
    · rw [hnone] at hthis
      cases hthis
    · exact ⟨_, h.task, hsame ▸ hthis⟩
  · exact hother

theorem PeerAuth.Orderly.advance {i : Nat} {w : AuthWorld} (h : p.Orderly)
    (hun : HandshakeUndisturbed keys remote p (.advance i w))
    (hstep : p.advance keys me remote i w = some p') : p'.Orderly := by
  obtain ⟨inbound, old, q, new, hadv⟩ := advance_cases hstep
  have hun := hun _ hadv.task
  have hsame := hadv.accepted
  obtain ⟨htask, hmove, hverified, hconns, hclosed, hclearing, htasks⟩ := hadv
  cases hmove with
  | quiet hv hc hcl hcg haccepted =>
    refine h.of_accepted (hsame haccepted) ?_ ?_ ?_
    · rw [hconns, hc]
      exact fun _ => id
    · exact .inl (hverified.trans hv)
    · rw [hverified, hconns, hclosed, hclearing, hv, hc, hcl, hcg]
      exact h.kept
  | reject hfails =>
    have hidle := hun.resolve_left hfails
    refine Idle.orderly (fun j conn hs hacc => hidle j conn hs (hsame (.inl rfl) j conn hs hacc)) ?_
    rw [hverified, hconns, hclosed, hclearing]
    exact fun hv => kept_closeConns (h.kept hv)
  | @accept conn hs haccept =>
    obtain ⟨hlive, hidle⟩ := hun
    have honly : ∀ j conn' hs', p'.Accepted j conn' hs' → j = i ∧ conn' = conn ∧ hs' = hs := by
      intro j conn' hs' hacc
      rcases accepted_set htasks hacc with ⟨rfl, hnew⟩ | ⟨-, hold⟩
      · cases hnew
        exact ⟨rfl, rfl, rfl⟩
      · exact absurd hold (hidle j conn' hs')
    refine ⟨?_, ?_, ?_, ?_⟩
    · intro j conn' hs' k conn'' hs'' hj hk
      rw [(honly j _ _ hj).1, (honly k _ _ hk).1]
    · intro j conn' hs' hj
      obtain ⟨-, rfl, -⟩ := honly j _ _ hj
      exact hconns ▸ hlive
    · intro j conn' hs' hj v hv
      obtain ⟨-, -, rfl⟩ := honly j _ _ hj
      exact acceptSession_ok haccept v (hverified ▸ hv)
    · rw [hverified, hconns, hclosed, hclearing]
      exact h.kept
  | @evict conn hs _ haccepted =>
    have hthis : p.Accepted i conn hs := ⟨_, htask, rfl⟩
    replace hsame := hsame (.inr haccepted)
    -- the connection of the handshake itself stays
    have hlive : conn ∈ p'.conns := by
      rw [hconns]
      exact List.mem_filter.mpr ⟨h.live i conn hs hthis, by simp⟩
    refine ⟨?_, ?_, ?_, fun _ => .inl (List.ne_nil_of_mem hlive)⟩
    · intro j conn' hs' k conn'' hs'' hj hk
      exact h.single j conn' hs' k conn'' hs'' (hsame _ _ _ hj) (hsame _ _ _ hk)
    · intro j conn' hs' hj
      have hmine := hsame _ _ _ hj
      obtain rfl := h.single j conn' hs' i conn hs hmine hthis
      obtain ⟨t, ht, hacc⟩ := hmine
      cases htask.symm.trans ht
      cases hacc
      exact hlive
    · intro j conn' hs' hj v hv
      exact h.newer j conn' hs' (hsame _ _ _ hj) v (hverified ▸ hv)
  | @store conn hs =>
    have hthis : p.Accepted i conn hs := ⟨_, htask, rfl⟩
    refine Idle.orderly (fun j conn' hs' hacc => ?_) fun _ => .inl ?_
    · rcases accepted_set htasks hacc with ⟨-, hnew⟩ | ⟨hne, hold⟩
      · cases hnew
      · exact hne (h.single i conn hs j conn' hs' hthis hold)
    · rw [hconns]
      exact List.ne_nil_of_mem (h.live i conn hs hthis)

theorem PeerAuth.Orderly.step {a : AuthAction} (h : p.Orderly)
    (hun : HandshakeUndisturbed keys remote p a)
    (hstep : authStep keys me remote a p = some p') : p'.Orderly := by
  cases a with
  | connect conn =>
    simp only [authStep] at hstep
    split at hstep
    · cases hstep
    cases hstep
    refine h.of_accepted (fun _ _ _ => id) ?_ (.inl rfl) fun _ => .inl (by simp)
    exact fun conn hconn => List.mem_append_left _ hconn
  | close conn =>
    simp only [authStep] at hstep
    split at hstep
    · cases hstep
      exact Idle.orderly hun fun hv => kept_closeConns (h.kept hv)
    · cases hstep
  | disconnected conn =>
    simp only [authStep] at hstep
    split at hstep
    · cases hstep
      refine h.of_accepted (fun _ _ _ => id) (fun _ => id) (.inl rfl) fun _ => ?_
      by_cases hnone : p.conns = []
      · exact .inr (.inr (by simp [hnone]))
      · exact .inl hnone
    · cases hstep
  | clear =>
    simp only [authStep] at hstep
    split at hstep
    · cases hstep
    · cases hstep
      exact h.of_accepted (fun _ _ _ => id) (fun _ => id) (.inr rfl) fun hv => absurd rfl hv
  | incoming conn hs =>
    cases hstep
    exact h.of_accepted (fun i conn hs => accepted_append rfl) (fun _ => id) (.inl rfl) h.kept
  | initiateHandshake =>
    simp only [authStep, Option.some.injEq] at hstep
    split at hstep
    · exact hstep ▸ h
    · cases hstep
      exact h.of_accepted (fun i conn hs => accepted_append rfl) (fun _ => id) (.inl rfl) h.kept
  | advance i w => exact h.advance hun hstep

/-- What a step leaves of the entry: the same one, none once it is cleared, or that of a handshake
that stores. -/
theorem authStep_verified {a : AuthAction} (hstep : authStep keys me remote a p = some p') :
    p'.verified = p.verified ∨ (p'.verified = none ∧ a = .clear) ∨
      ∃ i conn hs, p.Accepted i conn hs ∧
        p'.verified = some ⟨hs.token, hs.session.startedAt, hs.session⟩ := by
  cases a with
  | connect conn =>
    simp only [authStep] at hstep
    split at hstep
    · cases hstep
    · cases hstep
      exact .inl rfl
  | close conn | disconnected conn =>
    simp only [authStep] at hstep
    split at hstep
    · cases hstep
      exact .inl rfl
    · cases hstep
  | clear =>
    simp only [authStep] at hstep
    split at hstep
    · cases hstep
    · cases hstep
      exact .inr (.inl ⟨rfl, rfl⟩)
  | incoming conn hs =>
    cases hstep
    exact .inl rfl
  | initiateHandshake =>
    simp only [authStep, Option.some.injEq] at hstep
    split at hstep
    · exact .inl (hstep ▸ rfl)
    · exact .inl (hstep ▸ rfl)
  | advance i w =>
    obtain ⟨inbound, old, q, new, hadv⟩ := PeerAuth.advance_cases hstep
    obtain ⟨htask, hmove, hverified, -, -, -, -⟩ := hadv
    cases hmove with
    | quiet hv => exact .inl (hverified.trans hv)
    | reject | accept | evict => exact .inl hverified
    | @store conn hs => exact .inr (.inr ⟨i, conn, hs, ⟨_, htask, rfl⟩, hverified⟩)

theorem PeerAuth.Orderly.session_le {a : AuthAction} (h : p.Orderly)
    (hstep : authStep keys me remote a p = some p') {v v' : VerifiedPeerState}
    (hv : p.verified = some v) (hv' : p'.verified = some v') :
    v.sessionStarted ≤ v'.sessionStarted := by
  rcases authStep_verified hstep with hsame | ⟨hnone, -⟩ | ⟨i, conn, hs, hacc, hnew⟩
  · cases hv.symm.trans (hsame.symm.trans hv')
    exact le_rfl
  · cases hnone.symm.trans hv'
  · cases hnew.symm.trans hv'
    exact h.newer i conn hs hacc v hv

-- -------- Runs

theorem orderly_of_run
    (run : Transition.Run (authStep keys me remote) (HandshakeUndisturbed keys remote) {} p) :
    p.Orderly :=
  run.invariant PeerAuth.Orderly PeerAuth.orderly_start fun _ _ _ h ok next => h.step ok next

/-- In every run whose steps disturb no handshake between its check and its store: while the peer
stays verified, its recorded session never gets older, and once the last connection is closed and
every `Disconnected` has run there is no entry. -/
theorem sessions_only_get_newer (keys : AuthKeys) (me : LocalAuth) (remote : String) (p : PeerAuth)
    (run : Transition.Run (authStep keys me remote) (HandshakeUndisturbed keys remote) {} p) :
    (∀ a p' v v', authStep keys me remote a p = some p' → p.verified = some v →
      p'.verified = some v' →
        v.sessionStarted ≤ v'.sessionStarted) ∧
      (p.conns = [] → p.closed = [] → p.clearing = 0 → p.verified = none) := by
  have horderly := orderly_of_run run
  constructor
  · intro a p' v v' hstep hv hv'
    exact horderly.session_le hstep hv hv'
  intro hconns hclosed hclearing
  by_contra hsome
  rcases horderly.kept hsome with h | h | h
  · exact h hconns
  · exact h hclosed
  · exact h hclearing

namespace Reference

def openKeys : AuthKeys where
  verifyToken _ := true
  signClaim _ _ _ _ := [1]
  verifyClaim _ _ _ _ _ := true

def peerToken : InvitationToken where
  peerID := "peer"
  publicKey := List.replicate 32 7
  expiresAt := 1000

def sessionHandshake (startedAt : Int) : AuthHandshakeMsg where
  token := peerToken
  session := buildSessionClaim openKeys [] "peer" startedAt (List.replicate 16 3)

def meAuth : LocalAuth where
  token := { peerID := "me", publicKey := List.replicate 32 8, expiresAt := 1000 }
  session := {}

abbrev authRun := authStep openKeys meAuth "peer"

def authWorld : AuthWorld where
  now := 1
  reply := sessionHandshake 0

def handshakeSteps (i n : Nat) : List AuthAction := List.replicate n (.advance i authWorld)

def undisturbed (p : PeerAuth) : AuthAction → Bool
  | .close _ => p.tasks.all fun task => task.phase.accepted = none
  | .advance i w => p.tasks[i]?.all fun task =>
    match task.phase with
    | .received _ hs =>
      (verifyPeerToken openKeys w.now hs.token "peer").isOk ∧ (verifySession openKeys hs).isOk
    | .checking conn _ => conn ∈ p.conns ∧ p.tasks.all fun task => task.phase.accepted = none
    | _ => true
  | _ => true

theorem idle_of_all {p : PeerAuth}
    (h : (p.tasks.all fun task => task.phase.accepted = none) = true) : p.Idle := by
  rintro i conn hs ⟨task, htask, hacc⟩
  have hnone := List.all_eq_true.mp h task (List.mem_of_getElem? htask)
  rw [of_decide_eq_true hnone] at hacc
  cases hacc

theorem undisturbed_sound {p : PeerAuth} {a : AuthAction} (h : undisturbed p a = true) :
    HandshakeUndisturbed openKeys "peer" p a := by
  cases a with
  | close conn => exact idle_of_all h
  | advance i w =>
    intro task htask
    simp only [undisturbed, htask, Option.all_some] at h
    split
    next hphase =>
      simp only [hphase, decide_eq_true_eq] at h
      obtain ⟨_, htoken⟩ := Fallible.exists_of_isOk h.1
      obtain ⟨_, hsession⟩ := Fallible.exists_of_isOk h.2
      exact .inl ⟨htoken, hsession⟩
    next hphase =>
      simp only [hphase, decide_eq_true_eq] at h
      exact ⟨h.1, idle_of_all h.2⟩
    · trivial
  | _ => trivial

def twoSessions : List AuthAction :=
  [.connect 1, .incoming 1 (sessionHandshake 5)] ++ handshakeSteps 0 5 ++
    [.connect 2, .incoming 2 (sessionHandshake 10)] ++ handshakeSteps 1 5

end Reference

open Reference in
/-- The session of a second connection replaces the one of the first, and goes with its
connection. -/
theorem newer_session_replaces_older :
    ∃ p, (p.verified.map (·.sessionStarted) = some 10 ∧ p.conns = [2]) ∧
      (∀ a p' v v', authRun a p = some p' → p.verified = some v → p'.verified = some v' →
          v.sessionStarted ≤ v'.sessionStarted) ∧
        (p.conns = [] → p.closed = [] → p.clearing = 0 → p.verified = none) := by
  have hrun : ∃ p, Transition.Run authRun (HandshakeUndisturbed openKeys "peer") {} p ∧
      (p.verified.map (·.sessionStarted) = some 10 ∧ p.conns = [2]) :=
    Transition.Run.exists_of_checked twoSessions undisturbed
      (fun _ _ _ => undisturbed_sound) (by decide +kernel)
  obtain ⟨p, run, hp⟩ := hrun
  exact ⟨p, hp, sessions_only_get_newer openKeys meAuth "peer" p run⟩

namespace Reference

def crossedSessions : List AuthAction :=
  [.connect 1, .connect 2, .incoming 1 (sessionHandshake 5), .incoming 2 (sessionHandshake 10)] ++
    handshakeSteps 0 4 ++ handshakeSteps 1 5

def lateStore : List AuthAction :=
  [.connect 1, .incoming 1 (sessionHandshake 5)] ++ handshakeSteps 0 4 ++
    [.close 1, .disconnected 1, .clear] ++ handshakeSteps 0 1

end Reference

open Reference in
/-- An older session that was checked before a newer one was stored replaces it, and a session that
is stored after the last connection was closed stays. -/
theorem sessions_cross_and_linger :
    (∃ p p' v v', Transition.Run authRun (fun _ _ => True) {} p ∧
        authRun (.advance 0 authWorld) p = some p' ∧
        p.verified = some v ∧ p'.verified = some v' ∧ v'.sessionStarted < v.sessionStarted) ∧
      ∃ p, Transition.Run authRun (fun _ _ => True) {} p ∧
        p.conns = [] ∧ p.closed = [] ∧ p.clearing = 0 ∧ p.verified ≠ none := by
  constructor
  · have hrun : ∃ p, Transition.Run authRun (fun _ _ => True) {} p ∧
        (p.verified.map (·.sessionStarted) = some 10 ∧
          (authRun (.advance 0 authWorld) p).bind
            (fun p' => p'.verified.map (·.sessionStarted)) = some 5) :=
      Transition.Run.exists_of_checked crossedSessions (fun _ _ => true) (fun _ _ _ _ => trivial)
        (by decide +kernel)
    obtain ⟨p, run, hbefore, hafter⟩ := hrun
    obtain ⟨v, hv, hstarted⟩ := Option.map_eq_some_iff.mp hbefore
    obtain ⟨p', hstep, hafter⟩ := Option.bind_eq_some_iff.mp hafter
    obtain ⟨v', hv', hstarted'⟩ := Option.map_eq_some_iff.mp hafter
    exact ⟨p, p', v, v', run, hstep, hv, hv', by omega⟩
  · exact Transition.Run.exists_of_checked lateStore (fun _ _ => true) (fun _ _ _ _ => trivial)
      (by decide +kernel)

end GroupCoordination
