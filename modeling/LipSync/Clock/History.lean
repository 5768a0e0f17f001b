/-
# LipSync.Clock.History — the newest samples of one stream, and the clock rate they give.

A history holds samples in which both clocks advance from each to the next; when it is full the
oldest one makes room. A sample that does not advance both clocks is a report sent twice or out of
order, and is left out. But a sender that restarts also steps back, and would be left out for good:
so distinct stale samples in a row are counted, and the third one starts the history anew.

The two newest samples are enough for the rate of the media clock against the wall clock, and so for
the wall clock at any media time.
-/
import LipSync.Clock.Report
import LipSync.Note
import LipSync.SyncError

namespace LipSync

/-- The samples of one stream, newest first, and the run of stale ones since the newest of them. -/
structure History where
  capacity : Nat
  samples : List Sample
  lastStale : Option Sample
  staleCount : Nat
  deriving DecidableEq, BEq, Inhabited

/-- What became of a sample that was offered to a history. -/
inductive Uptake where
  /-- It is the newest sample, or the last stale one, once more. -/
  | known
  /-- It does not advance both clocks, and is counted. -/
  | stale
  /-- It ends a run of stale samples that is long enough for a restart, and is now the only one. -/
  | restarted
  /-- It is the newest sample. -/
  | appended
  deriving DecidableEq, Inhabited

/-- Whether the sample is in the history now and was not before. -/
def Uptake.isNew : Uptake → Bool
  | known | stale => false
  | restarted | appended => true

namespace History

/-- How many samples are kept when nothing else is asked for. -/
def defaultCapacity : Nat := 2

/-- How many samples a rate takes. -/
def minCapacity : Nat := 2

/-- The length of a run of stale samples that ends in a restart. -/
def maxStale : Nat := 3

/-- A history without samples, which keeps `capacity` of them but never less than a rate takes. -/
def empty (capacity : Nat) : History := ⟨max capacity minCapacity, [], none, 0⟩

/-- A history that holds no samples and no stale run, with the same capacity. -/
def clear (h : History) : History := ⟨h.capacity, [], none, 0⟩

/-- The samples, oldest first. -/
def toList (h : History) : List Sample := h.samples.reverse

/-- The number of samples. -/
def size (h : History) : Nat := h.samples.length

/-- The newest sample. -/
def latest? (h : History) : Option Sample := h.samples.head?

/-! ## Taking up samples -/

/-- `h` with `s` as its newest sample, ending any stale run. The oldest sample goes when there is no
room for it. -/
def append (h : History) (s : Sample) : History :=
  ⟨h.capacity, (s :: h.samples).take h.capacity, none, 0⟩

/-- Offers a sample to the history, and tells what became of it. -/
def update (h : History) (s : Sample) : Uptake × History :=
  match h.latest? with
  | none => (.appended, h.append s)
  | some latest =>
    if s.advances latest then (.appended, h.append s)
    -- a report that is still being sent must not count as another stale one
    else if s == latest || h.lastStale == some s then (.known, h)
    else if h.staleCount + 1 < maxStale then
      (.stale, { h with lastStale := some s, staleCount := h.staleCount + 1 })
    else (.restarted, h.clear.append s)

/-- What there is to tell about an uptake: only a restart is worth a note. -/
def notes (s : Sample) : Uptake → List Note
  | .restarted =>
    let ticks := s.mediaTime.ticks
    [⟨.warn, s!"{maxStale} stale sender reports in a row, resynchronizing at rtp {ticks}"⟩]
  | _ => []

/-! ## The rate, and the wall clock at a media time -/

/-- The two newest samples, the newest one last. -/
def lastTwo (h : History) : Except SyncError (Sample × Sample) :=
  match h.samples with
  | newest :: older :: _ => .ok (older, newest)
  | _ => .error .insufficientData

/-- The media ticks from one sample to the next, as a number. -/
def ticksBetween (older newest : Sample) : Binary64 :=
  .ofInt (newest.mediaTime.distance older.mediaTime)

/-- The wall clock in milliseconds at a media time: from the newest sample, on the line through the
two newest ones. -/
def wallClockAt (h : History) (t : MediaTime) : Except SyncError Binary64 := do
  let (older, newest) ← h.lastTwo
  let millisPerTick := (newest.wallClock - older.wallClock) / ticksBetween older newest
  return newest.wallClock + .ofInt (t.distance newest.mediaTime) * millisPerTick

/-- The rate of the media clock in ticks per second, by the two newest samples. -/
def clockRate (h : History) : Except SyncError Binary64 := do
  let (older, newest) ← h.lastTwo
  return ticksBetween older newest * .ofInt 1000 / (newest.wallClock - older.wallClock)

end History

end LipSync
