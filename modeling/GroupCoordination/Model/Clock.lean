import Mathlib.Algebra.Ring.Int.Defs
import GroupCoordination.Model.Types

/-!
# The hybrid logical clock

`hlc.go`. The wall clock is read once per step of the coordinator, so `pt` is an
argument; the second reading after the one-millisecond sleep is the same one. The clock on
its own, with both readings and 64-bit wall times, follows below.
-/

namespace GroupCoordination

def maxClockDriftMs : Int := 10000

def hlcCounterLimit : Nat := 0xFFFFFFFE

structure HLC where
  l : Int := 0
  c : Nat := 0
  id : String
  deriving DecidableEq

namespace HLC

def stamp (h : HLC) : HLCTimestamp := { wallTimeMs := h.l, counter := h.c, nodeID := h.id }

def now (h : HLC) (pt : Int) : HLC × HLCTimestamp :=
  let h' : HLC :=
    if pt > h.l then { h with l := pt, c := 0 }
    else if h.c ≥ hlcCounterLimit then { h with l := max (h.l + 1) pt, c := 0 }
    else { h with c := h.c + 1 }
  (h', h'.stamp)

def guardOverflow (h : HLC) (pt : Int) : HLC :=
  if h.c ≥ hlcCounterLimit then { h with l := max (h.l + 1) pt, c := 0 } else h

/-- `Update`: merges a received timestamp; one that is too far ahead is refused.
Counters are `uint32`. -/
def update (h : HLC) (pt : Int) (received : HLCTimestamp) : Except String (HLC × HLCTimestamp) :=
  if received.wallTimeMs - pt > maxClockDriftMs then
    .error ("hlc: clock drift limit exceeded: received " ++
      toString received.wallTimeMs ++ " is " ++
      toString (received.wallTimeMs - pt) ++ "ms ahead of physical " ++ toString pt)
  else
    let g := h.guardOverflow pt
    let newL := max (max g.l received.wallTimeMs) pt
    let c :=
      if newL = g.l ∧ newL = received.wallTimeMs then (max g.c received.counter + 1) % 2 ^ 32
      else if newL = g.l then (g.c + 1) % 2 ^ 32
      else if newL = received.wallTimeMs then (received.counter + 1) % 2 ^ 32
      else 0
    let h' : HLC := { g with l := newL, c := c }
    .ok (h', h'.stamp)

-- -------- The two readings of an operation

def bump (h : HLC) (again : Int) : HLC := { h with l := max (int64 (h.l + 1)) again, c := 0 }

/-- `Now` with both of its readings: the guard sleeps and reads the clock again. -/
def nowReading (h : HLC) (pt again : Int) : HLC × HLCTimestamp :=
  let h' : HLC :=
    if pt > h.l then { h with l := pt, c := 0 }
    else if h.c ≥ hlcCounterLimit then h.bump again
    else { h with c := h.c + 1 }
  (h', h'.stamp)

def merge (g : HLC) (pt : Int) (received : HLCTimestamp) : HLC :=
  let newL := max (max g.l received.wallTimeMs) pt
  { g with
    l := newL
    c :=
      if newL = g.l ∧ newL = received.wallTimeMs then (max g.c received.counter + 1) % 2 ^ 32
      else if newL = g.l then (g.c + 1) % 2 ^ 32
      else if newL = received.wallTimeMs then (received.counter + 1) % 2 ^ 32
      else 0 }

/-- `Update` with both of its readings: where the guard fires, the second replaces the
first. -/
def updateReading (h : HLC) (pt again : Int) (received : HLCTimestamp) :
    Except String (HLC × HLCTimestamp) :=
  let ahead := int64 (received.wallTimeMs - pt)
  if ahead > maxClockDriftMs then
    .error ("hlc: clock drift limit exceeded: received " ++
      toString received.wallTimeMs ++ " is " ++
      toString ahead ++ "ms ahead of physical " ++ toString pt)
  else
    let h' := if h.c ≥ hlcCounterLimit then (h.bump again).merge again received
      else h.merge pt received
    .ok (h', h'.stamp)

end HLC

end GroupCoordination
