import Mathlib.Logic.Relation
import GroupCoordination.Model.Lineage

/-!
# Replayed messages and their roots

A replayed message resolves to the message at the end of its chain of replays. The walk ends on
every table of events, cycles or not: it is a total function.
-/

namespace GroupCoordination

open Relation (TransGen)

/-- Every message on the way has one parent, and the last one has none. -/
inductive ReplayChain (events : List ApplicationEvent) : String → String → Prop
  | root (h : ∀ ev ∈ events, ev.isReplay messageID = false) : ReplayChain events messageID messageID
  | link (ev : ApplicationEvent) (mem : ev ∈ events) (h : ev.isReplay messageID = true)
      (only : ∀ e ∈ events, e.isReplay messageID = true → e.envelopeHash = ev.envelopeHash)
      (rest : ReplayChain events (hexEncode ev.envelopeHash) original) :
      ReplayChain events messageID original

def Replays (events : List ApplicationEvent) (messageID parent : String) : Prop :=
  replayParent events messageID = some parent

section

variable {events : List ApplicationEvent}

theorem ApplicationEvent.isReplay_hash {ev : ApplicationEvent} (h : ev.isReplay messageID = true) :
    ev.envelopeHash ≠ [] := by
  simp only [isReplay, Bool.and_eq_true, decide_eq_true_eq] at h
  exact h.1.2

theorem replayParent_none (h : ∀ ev ∈ events, ev.isReplay messageID = false) :
    replayParent events messageID = none := by
  simpa [replayParent] using h

theorem replayParent_some {ev : ApplicationEvent} (mem : ev ∈ events)
    (h : ev.isReplay messageID = true)
    (only : ∀ e ∈ events, e.isReplay messageID = true → e.envelopeHash = ev.envelopeHash) :
    Replays events messageID (hexEncode ev.envelopeHash) := by
  unfold Replays replayParent
  cases hfind : events.reverse.find? (·.isReplay messageID) with
  | none => exact absurd h (List.find?_eq_none.mp hfind ev (List.mem_reverse.mpr mem))
  | some e =>
    have he : e.isReplay messageID = true := by simpa using List.find?_some hfind
    rw [Option.map_some, only e (List.mem_reverse.mp (List.mem_of_find?_eq_some hfind)) he]

theorem ReplayChain.acyclic (h : ReplayChain events messageID original) :
    ¬TransGen (Replays events) messageID messageID := by
  induction h with
  | root h =>
    intro hcycle
    obtain ⟨parent, hparent, -⟩ := TransGen.head'_iff.mp hcycle
    cases (replayParent_none h).symm.trans hparent
  | link ev mem h only _ ih =>
    intro hcycle
    have hnext := replayParent_some mem h only
    obtain ⟨p, hp, hback⟩ := TransGen.head'_iff.mp hcycle
    cases hnext.symm.trans hp
    exact ih (.tail' hback hnext)

/-- Whatever was passed before leads to where the walk is, so a chain is never left early. -/
theorem ReplayChain.replayRoot (h : ReplayChain events messageID original) (firstParent : String)
    (hseen : ∀ x ∈ seen, TransGen (Replays events) x messageID) :
    replayRoot events messageID messageID firstParent seen = original := by
  induction h generalizing firstParent seen with
  | root h =>
    rw [GroupCoordination.replayRoot]
    split
    · rfl
    next hparent => cases (replayParent_none h).symm.trans hparent
  | @link messageID original ev mem h only rest ih =>
    have hnext := replayParent_some mem h only
    have hfresh : messageID ∉ seen := fun hmem =>
      (ReplayChain.link ev mem h only rest).acyclic (hseen _ hmem)
    rw [GroupCoordination.replayRoot]
    split
    next hnone => cases hnext.symm.trans hnone
    next hparent =>
      cases hnext.symm.trans hparent
      rw [if_neg (hexEncode_ne_empty (ApplicationEvent.isReplay_hash h)), dif_neg hfresh]
      refine ih _ fun x hx => ?_
      rcases List.mem_cons.mp hx with rfl | hx
      · exact .single hnext
      · exact (hseen x hx).tail hnext

end

/-- A replayed message is mapped to the root of its chain and to nothing else, and an original is
not mapped. -/
theorem replays_resolve_to_root (hid : messageID ∈ replayedMessageIDs)
    (hcanonical : isCanonicalMessageID messageID = true)
    (hchain : ReplayChain events (toLower (trimSpace messageID)) original) (target : String) :
    (toLower (trimSpace messageID), target) ∈
        resolveReplayCanonicalOriginalMessageIDs events replayedMessageIDs ↔
      target = original ∧ original ≠ toLower (trimSpace messageID) := by
  have hroot : replayRoot events _ _ "" [] = original := hchain.replayRoot "" (by simp)
  simp only [resolveReplayCanonicalOriginalMessageIDs, List.mem_filter, List.mem_map,
    decide_eq_true_eq,
    Prod.mk.injEq]
  constructor
  · rintro ⟨⟨id, -, rfl, rfl⟩, hne⟩
    exact ⟨hroot, hroot ▸ hne⟩
  · rintro ⟨rfl, hne⟩
    exact ⟨⟨_, ⟨messageID, ⟨hid, hcanonical⟩, rfl⟩, rfl, hroot⟩, hne⟩

def Reference.envelopeHash (n : Fin 256) : Bytes := List.replicate 32 n

def Reference.replay (original replayed : Fin 256) : ApplicationEvent where
  eventID := ""
  originalEpoch := 0
  authorID := ""
  status := .replayed
  envelopeHash := envelopeHash original
  replayedEnvelopeHash := envelopeHash replayed

theorem second_replay_resolves :
    (hexEncode (Reference.envelopeHash 3), hexEncode (Reference.envelopeHash 1)) ∈
      resolveReplayCanonicalOriginalMessageIDs [Reference.replay 1 2, Reference.replay 2 3]
        [hexEncode (Reference.envelopeHash 3)] := by
  have hid := List.mem_singleton_self (hexEncode (Reference.envelopeHash 3))
  refine (replays_resolve_to_root hid (by decide +kernel) ?_ _).mpr ⟨rfl, by decide +kernel⟩
  refine .link (Reference.replay 2 3) (by simp) (by decide +kernel) (by decide +kernel) ?_
  exact .link (Reference.replay 1 2) (by simp) (by decide +kernel) (by decide +kernel)
    (.root (by decide +kernel))

end GroupCoordination
