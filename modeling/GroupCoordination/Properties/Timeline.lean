import GroupCoordination.Lib.Rank
import GroupCoordination.Lib.Run
import GroupCoordination.Model.Timeline
import Mathlib.Data.String.Basic

/-!
# The timeline of a chat

What the messages of a group come to in the order in which they arrive, when a placeholder goes, and
what is counted as unread.
-/

namespace GroupCoordination

abbrev chatIds (l : List ChatMessage) : List String := l.map (·.id)

section Timeline

variable {κ : Type} [LinearOrder κ] {collate : String ↪ κ} {trim : String → String}
  {l tl D : List ChatMessage} {m p : ChatMessage}

theorem chatIds_append : (chatIds (l ++ D)).Nodup ↔
    (chatIds l).Nodup ∧ (chatIds D).Nodup ∧ (chatIds l).Disjoint (chatIds D) := by
  rw [chatIds, List.map_append, List.nodup_append']

theorem chatIds_append_of_subset (htl : (chatIds tl).Nodup) (hsub : tl ⊆ D)
    (h : (chatIds (D ++ l)).Nodup) : (chatIds (tl ++ l)).Nodup := by
  obtain ⟨-, hl, hdisjoint⟩ := chatIds_append.mp h
  exact chatIds_append.mpr ⟨htl, hl, fun i hi => hdisjoint (List.map_subset _ hsub hi)⟩

theorem mem_reconcileTimelineMessages : m ∈ reconcileTimelineMessages collate l ↔
    m ∈ l ∧ ∀ s ∈ l, s.supersedes m = false := by
  simp [reconcileTimelineMessages]

theorem reconcileTimelineMessages_subset : reconcileTimelineMessages collate l ⊆ l := fun _ hm =>
  (mem_reconcileTimelineMessages.mp hm).1

theorem exists_supersedes (hm : m ∈ l) (h : m ∉ reconcileTimelineMessages collate l) :
    ∃ s ∈ l, s.supersedes m = true := by
  simpa [mem_reconcileTimelineMessages, hm] using h

theorem reconcileTimelineMessages_nodup (h : (chatIds l).Nodup) :
    (chatIds (reconcileTimelineMessages collate l)).Nodup :=
  (List.filter_sublist.map _).nodup (((List.perm_insertionSort _ l).map _).nodup_iff.mpr h)

theorem reconcileTimelineMessages_sorted (h : (chatIds l).Nodup) :
    Rank.Sorted (timelineKey collate) (reconcileTimelineMessages collate l) := by
  have hle : (reconcileTimelineMessages collate l).Pairwise
      (timelineKey collate · ≤ timelineKey collate ·) := (List.pairwise_insertionSort _ l).filter _
  have hids : (chatIds (reconcileTimelineMessages collate l)).Nodup :=
    reconcileTimelineMessages_nodup h
  refine (hle.and (List.pairwise_map.mp hids)).imp fun hab =>
    lt_of_le_of_ne hab.1 fun heq => hab.2 ?_
  exact collate.injective (congrArg (fun k => (ofLex k).2) heq)

/-- Setting what is shown shows the same again. -/
theorem reconcileTimelineMessages_idem : reconcileTimelineMessages collate
    (reconcileTimelineMessages collate l) = reconcileTimelineMessages collate l := by
  have hsorted : (reconcileTimelineMessages collate l).Pairwise
      (timelineKey collate · ≤ timelineKey collate ·) := (List.pairwise_insertionSort _ l).filter _
  rw [reconcileTimelineMessages, hsorted.insertionSort_eq]
  refine List.filter_eq_self.mpr fun m hm => ?_
  have hnone := (mem_reconcileTimelineMessages.mp hm).2
  simpa using fun s hs => hnone s (reconcileTimelineMessages_subset hs)

theorem mergeMessage_fresh (h : m.id ∉ chatIds l) : mergeMessage l m = l ++ [m] := by
  have hnone : l.findIdx? (·.id = m.id) = none := by
    simpa [List.findIdx?_eq_none_iff] using h
  rw [mergeMessage, hnone]

theorem mergeTimelineMessages_fresh (h : (chatIds (l ++ D)).Nodup) :
    mergeTimelineMessages collate l D = reconcileTimelineMessages collate (l ++ D) := by
  have hfold : D.foldl mergeMessage l = l ++ D := by
    induction D generalizing l with
    | nil => simp
    | cons m D ih =>
      have hm : m.id ∉ chatIds l := fun hmem => (chatIds_append.mp h).2.2 hmem List.mem_cons_self
      rw [List.foldl_cons, mergeMessage_fresh hm, ih (by rwa [List.append_assoc])]
      simp
  rw [mergeTimelineMessages, hfold]

/-- Why the placeholder goes when the canonical message arrives: it carries its token, or none of
them does and the contents are the same. -/
def ChatMessage.Answers (trim : String → String) (tl : List ChatMessage) (m p : ChatMessage) :
    Prop :=
  m.echoes trim p ∨ (∀ q ∈ tl, m.echoes trim q = false) ∧ m.resembles trim p

theorem upsertPublishedMessage_cases (collate : String ↪ κ) (trim : String → String)
    (tl : List ChatMessage) (m : ChatMessage) (hm' : m' = { m with status := .published }) :
    upsertPublishedMessage collate trim tl m = insertSortedUniqueMessage collate tl m' ∨
    m.id ∉ chatIds tl ∧ ∃ i p, tl[i]? = some p ∧ m.Answers trim tl p ∧
      upsertPublishedMessage collate trim tl m =
        reconcileTimelineMessages collate (tl.eraseIdx i ++ [m']) := by
  subst hm'
  unfold upsertPublishedMessage
  dsimp only
  split
  · exact .inl rfl
  rename_i hfresh
  split
  swap
  · exact .inl rfl
  unfold reconcileCanonicalWithOptimistic
  split
  · exact .inl rfl
  rename_i i hi
  refine .inr ⟨by simpa using hfresh, i, ?_⟩
  rcases Option.or_eq_some_iff.mp hi with htoken | ⟨htoken, hcontent⟩
  · obtain ⟨hlt, hechoes, -⟩ := List.findIdx?_eq_some_iff_getElem.mp htoken
    exact ⟨tl[i], by simp [hlt], .inl hechoes, rfl⟩
  · obtain ⟨⟨p, j⟩, hhead, rfl⟩ := Option.map_eq_some_iff.mp hcontent
    have hpool := (List.mem_insertionSort _).mp (List.mem_of_head? hhead)
    have hcandidate : (p, j) ∈ tl.zipIdx.filter (m.resembles trim ·.1) := by
      split at hpool
      · exact hpool
      · exact List.mem_of_mem_filter hpool
    obtain ⟨hmem, hresembles⟩ := List.mem_filter.mp hcandidate
    exact ⟨p, List.mem_zipIdx_iff_getElem?.mp hmem,
      .inr ⟨List.findIdx?_eq_none_iff.mp htoken, hresembles⟩, rfl⟩

-- -------- Any order of the messages

/-- Messages as the back end stores them, each once. -/
structure CanonicalMessages where
  messages : List ChatMessage
  nodup : (chatIds messages).Nodup
  canonical : ∀ m ∈ messages, m.status = .published ∧ m.isLocal = false

inductive ChatDelivery
  | live (m : ChatMessage)
  | page (messages : List ChatMessage)

def ChatDelivery.messages : ChatDelivery → List ChatMessage
  | live m => [m]
  | page messages => messages

variable (collate trim) in
def deliver (existing : List ChatMessage) : ChatDelivery → List ChatMessage
  | .live m => upsertPublishedMessage collate trim existing m
  | .page messages => mergeTimelineMessages collate existing messages

theorem deliver_fresh {d : ChatDelivery} (hlocal : ∀ m ∈ l, m.isLocal = false)
    (hpublished : ∀ m ∈ d.messages, m.status = .published) (h : (chatIds (l ++ d.messages)).Nodup) :
    deliver collate trim l d = reconcileTimelineMessages collate (l ++ d.messages) := by
  have hmerge : mergeTimelineMessages collate l d.messages = _ := mergeTimelineMessages_fresh h
  cases d with
  | page messages => exact hmerge
  | live m =>
    have hsame : m = { m with status := .published } := by
      rw [← hpublished m List.mem_cons_self]
    rcases upsertPublishedMessage_cases collate trim l m hsame with heq | ⟨-, i, p, hp, hanswers, -⟩
    · exact heq.trans hmerge
    · have := hlocal p (List.mem_of_getElem? hp)
      simp [ChatMessage.Answers, ChatMessage.echoes, ChatMessage.resembles, ChatMessage.isPending,
        this] at hanswers

/-- A link that the timeline keeps: the message is replaced by itself, or by one that no other
message replaces. -/
def KeepsLink (M : List ChatMessage) (m t : ChatMessage) : Prop :=
  t.supersedes m ∧ (t = m ∨ ∀ u ∈ M, u.supersedes t → u = m)

/-- What a timeline shows of the messages that were delivered so far. -/
structure Shows (collate : String ↪ κ) (M D tl : List ChatMessage) : Prop where
  subset : tl ⊆ D
  nodup : (chatIds tl).Nodup
  sorted : Rank.Sorted (timelineKey collate) tl
  shown : ∀ m ∈ D, m ∉ tl → ∃ s ∈ D, s.supersedes m = true
  hidden : ∀ m ∈ D, ∀ t ∈ D, KeepsLink M m t → m ∉ tl

theorem Shows.deliver {d : ChatDelivery} {M : CanonicalMessages} (h : Shows collate M.messages D tl)
    (hD : (chatIds (D ++ d.messages)).Nodup) (hM : D ++ d.messages ⊆ M.messages) :
    Shows collate M.messages (D ++ d.messages) (deliver collate trim tl d) := by
  obtain ⟨hDM, hdM⟩ := List.append_subset.mp hM
  have hids := chatIds_append_of_subset h.nodup h.subset hD
  rw [deliver_fresh (fun m hm => (M.canonical m (hDM (h.subset hm))).2)
    (fun m hm => (M.canonical m (hdM hm)).1) hids]
  have hsub : tl ++ d.messages ⊆ D ++ d.messages := List.append_subset.mpr
    ⟨fun m hm => List.mem_append_left _ (h.subset hm), List.subset_append_right _ _⟩
  refine ⟨fun m hm => hsub (reconcileTimelineMessages_subset hm),
    reconcileTimelineMessages_nodup hids, reconcileTimelineMessages_sorted hids,
    fun m hm hgone => ?_, fun m hm t ht hlink hmem => ?_⟩
  · by_cases hm' : m ∈ tl ++ d.messages
    · obtain ⟨s, hs, hsm⟩ := exists_supersedes hm' hgone
      exact ⟨s, hsub hs, hsm⟩
    · obtain ⟨htl, hnew⟩ := not_or.mp (mt List.mem_append.mpr hm')
      obtain ⟨s, hs, hsm⟩ := h.shown m ((List.mem_append.mp hm).resolve_right hnew) htl
      exact ⟨s, List.mem_append_left _ hs, hsm⟩
  · obtain ⟨hm', hnone⟩ := mem_reconcileTimelineMessages.mp hmem
    have hgone : t ∉ tl ++ d.messages := fun ht' => by simpa [hlink.1] using hnone t ht'
    obtain ⟨htl, hnew⟩ := not_or.mp (mt List.mem_append.mpr hgone)
    have ht := (List.mem_append.mp ht).resolve_right hnew
    -- the link is lost only if its message was replaced, and then by `m`
    rcases hlink.2 with rfl | honly
    · exact hgone hm'
    obtain ⟨u, hu, hut⟩ := h.shown t ht htl
    obtain rfl := honly u (hDM hu) hut
    rcases List.mem_append.mp hm' with hold | hnew
    · exact h.hidden u hu t ht hlink hold
    · exact (chatIds_append.mp hD).2.2 (List.mem_map_of_mem hu) (List.mem_map_of_mem hnew)

theorem Shows.foldl {M : CanonicalMessages} (ds : List ChatDelivery)
    (h : Shows collate M.messages D tl)
    (hD : (chatIds (D ++ ds.flatMap ChatDelivery.messages)).Nodup)
    (hM : D ++ ds.flatMap ChatDelivery.messages ⊆ M.messages) :
    Shows collate M.messages (D ++ ds.flatMap ChatDelivery.messages)
      (ds.foldl (GroupCoordination.deliver collate trim) tl) := by
  induction ds generalizing D tl with
  | nil => simpa using h
  | cons d ds ih =>
    rw [List.flatMap_cons, ← List.append_assoc] at hD hM ⊢
    exact ih (h.deliver (chatIds_append.mp hD).1 (List.append_subset.mp hM).1) hD hM

/-- Every message that is replaced has a link that the timeline keeps. -/
def LinksKept (M : List ChatMessage) : Prop :=
  ∀ m ∈ M, ∀ s ∈ M, s.supersedes m → ∃ t ∈ M, KeepsLink M m t

theorem LinksKept.foldl {M : CanonicalMessages} (h : LinksKept M.messages) (ds : List ChatDelivery)
    (hds : (ds.flatMap ChatDelivery.messages).Perm M.messages) :
    ds.foldl (deliver collate trim) [] = reconcileTimelineMessages collate M.messages := by
  have hstart : Shows collate M.messages [] [] := ⟨by simp, by simp, by simp, by simp, by simp⟩
  have hall : Shows collate M.messages (ds.flatMap ChatDelivery.messages)
      (ds.foldl (deliver collate trim) []) :=
    hstart.foldl ds ((hds.map _).nodup_iff.mpr M.nodup) hds.subset
  refine hall.sorted.eq_of_mem_iff (reconcileTimelineMessages_sorted M.nodup) fun m =>
    ⟨fun hm => ?_, fun hm => ?_⟩
  · by_contra hgone
    have hD := hall.subset hm
    obtain ⟨s, hs, hsm⟩ := exists_supersedes (hds.subset hD) hgone
    obtain ⟨t, ht, hkeeps⟩ := h m (hds.subset hD) s hs hsm
    exact hall.hidden m hD t (hds.mem_iff.mpr ht) hkeeps hm
  · obtain ⟨hm, hnone⟩ := mem_reconcileTimelineMessages.mp hm
    by_contra hgone
    obtain ⟨s, hs, hsm⟩ := hall.shown m (hds.mem_iff.mpr hm) hgone
    simpa [hsm] using hnone s (hds.subset hs)

/-- The messages of a chat come to the same timeline in any order, iff every message that is
replaced has a link that is kept. -/
theorem timeline_confluent_iff (M : CanonicalMessages) :
    (∀ ds : List ChatDelivery, (ds.flatMap ChatDelivery.messages).Perm M.messages →
      ds.foldl (deliver collate trim) [] = reconcileTimelineMessages collate M.messages) ↔
    LinksKept M.messages := by
  refine ⟨fun h m hm s hs hlink => ?_, fun h ds hds => h.foldl ds hds⟩
  -- the message comes last
  have hperm : (M.messages.erase m ++ [m]).Perm M.messages :=
    List.perm_append_comm.trans (List.perm_cons_erase hm).symm
  have hids : (chatIds (M.messages.erase m ++ [m])).Nodup := (hperm.map _).nodup_iff.mpr M.nodup
  have hfirst : (chatIds ([] ++ M.messages.erase m)).Nodup := (chatIds_append.mp hids).1
  have hlast : reconcileTimelineMessages collate (reconcileTimelineMessages collate
      (M.messages.erase m) ++ [m]) = reconcileTimelineMessages collate M.messages := by
    rw [← h [.page (M.messages.erase m), .page [m]] (by simpa [ChatDelivery.messages] using hperm),
      List.foldl_cons, List.foldl_cons, List.foldl_nil, deliver, deliver,
      mergeTimelineMessages_fresh hfirst]
    exact (mergeTimelineMessages_fresh (chatIds_append_of_subset
      (reconcileTimelineMessages_nodup hfirst) reconcileTimelineMessages_subset hids)).symm
  have hgone : m ∉ reconcileTimelineMessages collate M.messages := fun hmem => by
    simpa [hlink] using (mem_reconcileTimelineMessages.mp hmem).2 s hs
  obtain ⟨t, ht, htm⟩ := exists_supersedes (by simp) (hlast ▸ hgone)
  rcases List.mem_append.mp ht with ht | ht
  · obtain ⟨ht, hnone⟩ := mem_reconcileTimelineMessages.mp ht
    refine ⟨t, List.mem_of_mem_erase ht, htm, .inr fun u hu hut => ?_⟩
    by_contra hne
    simpa [hut] using hnone u ((List.mem_erase_of_ne hne).mpr hu)
  · obtain rfl := List.mem_singleton.mp ht
    exact ⟨t, hm, htm, .inl rfl⟩

end Timeline

/-- A published message of another member. -/
def Reference.chat (id : String) (timestamp : Int) (supersedesMessageId : Option String) :
    ChatMessage where
  id := id
  groupId := "g"
  content := id
  timestamp := timestamp
  isMine := false
  status := .published
  kind := .user
  localEchoToken := none
  supersedesMessageId := supersedesMessageId

open Reference in
/-- The replay of a replay hides the first one, and the original comes back with an older page. -/
theorem older_page_brings_original_back :
    ∃ M : CanonicalMessages, ∃ ds : List ChatDelivery,
      (ds.flatMap ChatDelivery.messages).Perm M.messages ∧
      ds.foldl (deliver (.refl String) id) [] ≠ reconcileTimelineMessages
        (.refl String) M.messages := by
  let original := chat "a" 1 none
  let first := chat "b" 2 (some "a")
  let second := chat "c" 3 (some "b")
  exact ⟨⟨[original, first, second], by decide, by decide⟩,
    [.live first, .live second, .page [original]], by decide, by decide +kernel⟩

-- -------- Placeholders

section Placeholders

variable {κ : Type} [LinearOrder κ] {collate : String ↪ κ} {trim : String → String}
  {l tl : List ChatMessage} {m p : ChatMessage}

inductive TimelineAction
  | send (token content : String) (timestamp : Int)
  | canonical (m : ChatMessage)
  | status (messageId : String) (status : ChatMessageStatus)

variable (collate trim) in
def act (groupId : String) (existing : List ChatMessage) : TimelineAction → List ChatMessage
  | .send token content timestamp =>
    insertSortedUniqueMessage collate existing (optimisticMessage groupId token content timestamp)
  | .canonical m => upsertPublishedMessage collate trim existing m
  | .status messageId status => updateMessageStatus existing messageId status

/-- No id is there twice, and no message is there that another one replaces. -/
structure Settled (tl : List ChatMessage) : Prop where
  nodup : (chatIds tl).Nodup
  links : ∀ i ∈ chatIds tl, i ≠ "" → some i ∉ tl.map (·.supersedesMessageId)

theorem reconcileTimelineMessages_settled (h : (chatIds l).Nodup) :
    Settled (reconcileTimelineMessages collate l) := by
  refine ⟨reconcileTimelineMessages_nodup h, fun i hi hne hlink => ?_⟩
  obtain ⟨q, hq, rfl⟩ := List.mem_map.mp hi
  obtain ⟨s, hs, hsq⟩ := List.mem_map.mp hlink
  have := (mem_reconcileTimelineMessages.mp hq).2 s (reconcileTimelineMessages_subset hs)
  simp [ChatMessage.supersedes, hsq, hne] at this

theorem mergeMessage_ids (l : List ChatMessage) (m : ChatMessage) :
    chatIds (mergeMessage l m) = if m.id ∈ chatIds l then chatIds l else chatIds l ++ [m.id] := by
  split
  next hm =>
    obtain ⟨q, hq, heq⟩ := List.mem_map.mp hm
    unfold mergeMessage
    split
    next i hi =>
      obtain ⟨hlt, hid, -⟩ := List.findIdx?_eq_some_iff_getElem.mp hi
      have hsame : (chatIds l).set i m.id = chatIds l := by
        simp [← of_decide_eq_true hid, ← List.map_set]
      rw [chatIds, List.map_set, hsame]
    next hi => exact absurd heq (by simpa using List.findIdx?_eq_none_iff.mp hi q hq)
  next hm => simp [mergeMessage_fresh hm]

theorem mergeMessage_nodup (h : (chatIds l).Nodup) : (chatIds (mergeMessage l m)).Nodup := by
  rw [mergeMessage_ids]
  split
  · exact h
  · exact List.nodup_append'.mpr ⟨h, by simp, List.disjoint_singleton.mpr ‹_›⟩

theorem mem_mergeMessage (h : p ∈ mergeMessage l m) : p ∈ l ∨ p = m := by
  unfold mergeMessage at h
  split at h
  · exact List.mem_or_eq_of_mem_set h
  · simpa using h

theorem updateMessageStatus_ids :
    chatIds (updateMessageStatus tl messageId status) = chatIds tl := by
  simp [updateMessageStatus, apply_ite]

theorem Settled.act (h : Settled tl) (a : TimelineAction) :
    Settled (act collate trim groupId tl a) := by
  cases a with
  | send token content timestamp =>
    exact reconcileTimelineMessages_settled (mergeMessage_nodup h.nodup)
  | canonical m =>
    rw [GroupCoordination.act]
    rcases upsertPublishedMessage_cases collate trim tl m rfl with heq | ⟨hfresh, i, p, -, -, heq⟩
    · exact heq ▸ reconcileTimelineMessages_settled (mergeMessage_nodup h.nodup)
    · have hsub := (List.eraseIdx_sublist tl i).map (·.id)
      refine heq ▸ reconcileTimelineMessages_settled
        (chatIds_append.mpr ⟨hsub.nodup h.nodup, by simp, ?_⟩)
      exact List.disjoint_singleton.mpr fun hmem => hfresh (hsub.subset hmem)
  | status messageId status =>
    refine ⟨updateMessageStatus_ids.symm ▸ h.nodup, fun i hi => ?_⟩
    have hlinks : (updateMessageStatus tl messageId status).map (·.supersedesMessageId) =
        tl.map (·.supersedesMessageId) := by
      simp [updateMessageStatus, apply_ite]
    rw [GroupCoordination.act, hlinks]
    exact h.links i (updateMessageStatus_ids ▸ hi)

theorem Settled.replaced (h : Settled tl) (hp : p ∈ tl) (hl : ∀ s ∈ l, s ∈ tl ∨ s = m)
    (hid : p.id ∈ chatIds l) (hgone : p.id ∉ chatIds (reconcileTimelineMessages collate l)) :
    m.supersedesMessageId = some p.id := by
  obtain ⟨q, hq, heq⟩ := List.mem_map.mp hid
  obtain ⟨s, hs, hsq⟩ := exists_supersedes hq fun hmem => hgone (heq ▸ List.mem_map_of_mem hmem)
  obtain ⟨hlink, hne⟩ := of_decide_eq_true hsq
  rw [heq] at hlink hne
  rcases hl s hs with hs | rfl
  · exact absurd (List.mem_map.mpr ⟨s, hs, hlink⟩) (h.links p.id (List.mem_map_of_mem hp) hne)
  · exact hlink

theorem Settled.inserted (h : Settled tl) (hp : p ∈ tl)
    (hgone : p.id ∉ chatIds (insertSortedUniqueMessage collate tl m)) :
    m.supersedesMessageId = some p.id := by
  refine h.replaced hp (fun s hs => mem_mergeMessage hs) ?_ hgone
  rw [mergeMessage_ids]
  split
  · exact List.mem_map_of_mem hp
  · exact List.mem_append_left _ (List.mem_map_of_mem hp)

theorem Settled.gone {a : TimelineAction} (h : Settled tl) (hp : p ∈ tl)
    (hgone : p.id ∉ chatIds (GroupCoordination.act collate trim groupId tl a)) :
    ∃ m, a = .canonical m ∧ (m.supersedesMessageId = some p.id ∨ m.Answers trim tl p) := by
  cases a with
  | send token content timestamp => cases h.inserted hp hgone
  | status messageId status =>
    rw [GroupCoordination.act, updateMessageStatus_ids] at hgone
    exact absurd (List.mem_map_of_mem hp) hgone
  | canonical m =>
    refine ⟨m, rfl, ?_⟩
    rw [GroupCoordination.act] at hgone
    rcases upsertPublishedMessage_cases collate trim tl m rfl with heq |
      ⟨-, i, q, hq, hanswers, heq⟩
    · have hlink := h.inserted hp (heq ▸ hgone)
      exact .inl hlink
    obtain ⟨j, hj⟩ := List.mem_iff_getElem?.mp hp
    by_cases hij : j = i
    · cases hq.symm.trans (hij ▸ hj)
      exact .inr hanswers
    · have hp' : p ∈ tl.eraseIdx i := List.mem_eraseIdx_iff_getElem?.mpr ⟨j, hij, hj⟩
      have hlink := h.replaced hp (fun s hs => (List.mem_append.mp hs).imp List.mem_of_mem_eraseIdx
        List.mem_singleton.mp) (List.mem_map_of_mem (List.mem_append_left _ hp')) (heq ▸ hgone)
      exact .inl hlink

/-- Ids stay unique, and a message goes only when a canonical one comes that supersedes it or that
it is the placeholder of. -/
theorem placeholders_go_with_echoes (M : CanonicalMessages) (actions : List TimelineAction) :
    let tl :=
      actions.foldl (act collate trim groupId) (reconcileTimelineMessages collate M.messages)
    (chatIds tl).Nodup ∧ ∀ p ∈ tl, ∀ a, p.id ∉ chatIds (act collate trim groupId tl a) →
      ∃ m, a = .canonical m ∧ (m.supersedesMessageId = some p.id ∨ m.Answers trim tl p) := by
  intro tl
  have h : Settled tl := List.foldlRecOn actions _ (reconcileTimelineMessages_settled M.nodup)
    fun _ h a _ => h.act a
  exact ⟨h.nodup, fun p hp a hgone => h.gone hp hgone⟩

end Placeholders

open Reference in
/-- The same text from another device takes the place of a message that was just sent. -/
theorem other_device_takes_placeholder :
    ∃ M : CanonicalMessages, ∃ m, ∃ p ∈ act (.refl String) id "g"
        (reconcileTimelineMessages (.refl String) M.messages) (.send "t" "a" 1),
      p.localEchoToken = some "t" ∧ m.localEchoToken = none ∧
      p.id ∉ chatIds
        ([TimelineAction.send "t" "a" 1, .canonical m].foldl (act (.refl String) id "g")
        (reconcileTimelineMessages (.refl String) M.messages)) :=
  ⟨⟨[], by decide, by decide⟩, { chat "a" 2 none with isMine := true },
    optimisticMessage "g" "t" "a" 1, by decide +kernel⟩

-- -------- Unread messages

/-- What is shown as unread, and which messages came from others since the last reset. -/
structure UnreadView where
  timeline : List ChatMessage
  unread : UnreadAnchorState
  arrived : List String

/-- A new timeline, away from the bottom. `ChatView` does not track the ones of a load-more, which
brings the ids it fetched and whatever arrives meanwhile. -/
inductive ViewUpdate
  | tracked (next : List ChatMessage)
  | suppressed (next : List ChatMessage) (fetched : List String)
  deriving DecidableEq

def ViewUpdate.next : ViewUpdate → List ChatMessage
  | tracked next | suppressed next _ => next

namespace UnreadView

variable {v : UnreadView}

def incoming (v : UnreadView) : ViewUpdate → List String
  | .tracked next => chatIds (relevantIncomingMessages v.timeline next)
  | .suppressed next fetched =>
    (chatIds (relevantIncomingMessages v.timeline next)).filter (· ∉ fetched)

def update (u : ViewUpdate) (v : UnreadView) : Option UnreadView :=
  some {
    timeline := u.next
    unread := match u with
      | .tracked next => computeUnreadAnchorUpdate v.timeline next v.unread false false
      | .suppressed _ _ => v.unread
    arrived := v.arrived ++ v.incoming u }

def pending (v : UnreadView) : List String := (chatIds v.timeline).filter (· ∈ v.arrived)

/-- When messages come in, tracking is on and no other than the anchor was unread; when none do,
the unread ones stay as they are. -/
def Reckons (v : UnreadView) (u : ViewUpdate) : Prop :=
  (chatIds u.next).Nodup ∧
    if v.incoming u = [] then (chatIds u.next).filter (· ∈ v.arrived) = v.pending
    else u = .tracked u.next ∧ ∀ i ∈ chatIds u.next, i ∈ v.arrived →
      i ∈ v.incoming u ∨ v.unread.anchorId = some i ∧ i ≠ ""

theorem computeUnreadAnchorUpdate_none (h : relevantIncomingMessages previous next = []) :
    computeUnreadAnchorUpdate previous next current false false = current := by
  simp [computeUnreadAnchorUpdate, h]

theorem computeUnreadAnchorUpdate_some (h : relevantIncomingMessages previous next ≠ [])
    {unread : List String} (hunread : ∀ i ∈ chatIds next, (i ∈ unread ↔
      i ≠ "" ∧ current.anchorId = some i ∨ i ∈ chatIds (relevantIncomingMessages previous next))) :
    computeUnreadAnchorUpdate previous next current false false =
      ⟨((chatIds next).filter (· ∈ unread)).head?,
        ((chatIds next).filter (· ∈ unread)).length⟩ := by
  have hnew : newMessages previous next ≠ [] := fun hnil =>
    h (by simp [relevantIncomingMessages, hnil])
  have hordered : (next.filter fun m => m.id ≠ "" ∧ current.anchorId = some m.id ∨
      (relevantIncomingMessages previous next).any (·.id = m.id)) = next.filter (·.id ∈ unread) :=
    List.filter_congr fun m hm => by simp [hunread m.id (List.mem_map_of_mem hm)]
  rw [chatIds, List.filter_map, List.head?_map, List.length_map]
  simp only [computeUnreadAnchorUpdate, h, hnew, hordered, Bool.false_eq_true, false_and, if_false]
  rfl

/-- Where nothing comes in, what is shown stays. -/
theorem update_unread (hstep : update u v = some v') (h : v.incoming u = []) :
    v'.unread = v.unread := by
  cases hstep
  cases u with
  | tracked next => exact computeUnreadAnchorUpdate_none (List.map_eq_nil_iff.mp h)
  | suppressed => rfl

theorem unread_counts_arrived (run : Transition.Run update Reckons ⟨shown, ⟨none, 0⟩, []⟩ v) :
    v.pending.Nodup ∧ v.unread = ⟨v.pending.head?, v.pending.length⟩ := by
  refine run.invariant (fun v => v.pending.Nodup ∧ v.unread = ⟨v.pending.head?, v.pending.length⟩)
    (by simp [pending]) fun v u v' h hnext hstep => ?_
  obtain ⟨-, hunread⟩ := h
  obtain ⟨hdistinct, hcond⟩ := hnext
  split at hcond
  next hnone =>
    rw [update_unread hstep hnone, hunread]
    have hpending : v'.pending = v.pending := by
      cases hstep
      simpa only [pending, hnone, List.append_nil] using hcond
    rw [hpending]
    exact ⟨hcond ▸ hdistinct.filter _, rfl⟩
  next hsome =>
    obtain ⟨htracked, hcond⟩ := hcond
    rw [htracked] at hsome hcond hstep
    cases hstep
    have hrelevant : relevantIncomingMessages v.timeline u.next ≠ [] := fun hnil =>
      hsome (congrArg chatIds hnil)
    refine ⟨hdistinct.filter _, computeUnreadAnchorUpdate_some hrelevant fun i hi => ?_⟩
    rw [List.mem_append]
    refine ⟨fun hmem => ?_, fun hmem => ?_⟩
    · rcases hmem with hold | hnew
      · exact (hcond i hi hold).symm.imp_left And.symm
      · exact .inr hnew
    · refine hmem.imp_left fun ⟨_, hanchor⟩ => ?_
      rw [hunread] at hanchor
      exact of_decide_eq_true (List.mem_filter.mp (List.mem_of_head? hanchor)).2

instance (v : UnreadView) (u : ViewUpdate) : Decidable (v.Reckons u) :=
  inferInstanceAs (Decidable (_ ∧ _))

open Reference in
/-- Two messages come one after the other, and a load-more brings an older one. -/
theorem two_arrivals_are_counted :
    ∃ v, Transition.Run update Reckons ⟨[], ⟨none, 0⟩, []⟩ v ∧ v.pending = ["a", "b"] ∧
      v.unread = ⟨some "a", 2⟩ := by
  obtain ⟨v, hrun, hpending⟩ : ∃ v, Transition.Run update Reckons ⟨[], ⟨none, 0⟩, []⟩ v ∧
      v.pending = ["a", "b"] :=
    Transition.Run.exists_of_checked
      [.tracked [chat "a" 1 none], .tracked [chat "a" 1 none, chat "b" 2 none],
        .suppressed [chat "z" 0 none, chat "a" 1 none, chat "b" 2 none] ["z"]]
      (fun v u => decide (v.Reckons u)) (fun _ _ _ => of_decide_eq_true) (by decide +kernel)
  refine ⟨v, hrun, hpending, ?_⟩
  rw [(unread_counts_arrived hrun).2, hpending]
  rfl

open Reference in
/-- Of three messages that come one by one the last update counts two, and one that comes during
a load-more is not counted. -/
theorem arrivals_are_forgotten :
    (∃ v, Transition.exec update [.tracked [chat "a" 1 none],
        .tracked [chat "a" 1 none, chat "b" 2 none],
        .tracked [chat "a" 1 none, chat "b" 2 none, chat "c" 3 none]] ⟨[], ⟨none, 0⟩, []⟩ = some v ∧
      v.unread.count = 2 ∧ v.pending.length = 3) ∧
    ∃ v, Transition.exec update [.suppressed [chat "z" 0 none, chat "a" 1 none] ["z"]]
        ⟨[], ⟨none, 0⟩, []⟩ = some v ∧ v.unread.count = 0 ∧ v.pending.length = 1 :=
  ⟨⟨_, rfl, by decide⟩, _, rfl, by decide⟩

end UnreadView

end GroupCoordination
