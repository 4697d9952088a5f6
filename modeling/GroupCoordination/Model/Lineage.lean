import GroupCoordination.Model.Storage

/-!
# The lineage of replayed messages

`ResolveReplayCanonicalOriginalMessageIDs` of `coordination_storage.go`: which original message a
replayed copy stands for, through any number of replays. The events are those of the group. Left
out: errors of the query, and the check that there is a group.
-/

namespace GroupCoordination

def isCanonicalMessageID (messageID : String) : Bool :=
  let chars := (trimSpace messageID).toList
  chars.length = 64 && chars.all fun c =>
    c.isDigit || ('a' ≤ c && c ≤ 'f') || ('A' ≤ c && c ≤ 'F')

def ApplicationEvent.isReplay (ev : ApplicationEvent) (replayedID : String) : Bool :=
  ev.replayedEnvelopeHash ≠ [] && ev.envelopeHash ≠ [] &&
    hexEncode ev.replayedEnvelopeHash = replayedID

/-- The entry of `parents`, which the last row of a replayed hash has written. -/
def replayParent (events : List ApplicationEvent) (messageID : String) : Option String :=
  (events.reverse.find? (·.isReplay messageID)).map (hexEncode ·.envelopeHash)

/-- The rows whose replayed message has not been passed yet. -/
def unseen (events : List ApplicationEvent) (seen : List String) : List ApplicationEvent :=
  events.filter (hexEncode ·.replayedEnvelopeHash ∉ seen)

theorem unseen_cons_lt (h : replayParent events current = some parent) (hseen : current ∉ seen) :
    (unseen events (current :: seen)).length < (unseen events seen).length := by
  obtain ⟨ev, hfind, -⟩ := Option.map_eq_some_iff.mp h
  have hev : ev ∈ events := List.mem_reverse.mp (List.mem_of_find?_eq_some hfind)
  have hid : hexEncode ev.replayedEnvelopeHash = current := by
    have := List.find?_some hfind
    simp only [ApplicationEvent.isReplay, Bool.and_eq_true, decide_eq_true_eq] at this
    exact this.2
  have hsplit : unseen events (current :: seen) =
      (unseen events seen).filter (hexEncode ·.replayedEnvelopeHash ≠ current) := by
    simp [unseen, List.filter_filter, not_or]
  rw [hsplit, List.length_filter_lt_length_iff_exists]
  exact ⟨ev, by simp [unseen, hev, hid, hseen], by simp [hid]⟩

/-- The walk of one message to its root; where it comes round, the first parent stands for the
root. -/
def replayRoot (events : List ApplicationEvent) (current root firstParent : String)
    (seen : List String) : String :=
  match _h : replayParent events current with
  | none => root
  | some parent =>
    if parent = "" then root
    else
      let firstParent := if firstParent = "" then parent else firstParent
      if _hseen : current ∈ seen then
        if firstParent ≠ "" then firstParent else root
      else replayRoot events parent parent firstParent (current :: seen)
termination_by (unseen events seen).length
decreasing_by exact unseen_cons_lt _h _hseen

def resolveReplayCanonicalOriginalMessageIDs (events : List ApplicationEvent)
    (replayedMessageIDs : List String) : List (String × String) :=
  let canonical := (replayedMessageIDs.filter isCanonicalMessageID).map fun id =>
    toLower (trimSpace id)
  (canonical.map fun id => (id, replayRoot events id id "" [])).filter fun link => link.2 ≠ link.1

end GroupCoordination
