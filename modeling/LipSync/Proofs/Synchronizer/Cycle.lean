/-
# LipSync.Proofs.Synchronizer.Cycle — what one cycle of a session can come to.

A cycle that no pipeline breaks off ends in one of three ways. Something that it reads is missing,
and the session stays as it was. Or everything is there, both streams are refreshed, but no skew
comes of them, and the compensator stays as it was. Or the skew is acted on, and both pipelines are
asked for the delays of one step of the compensator. `Session.Cycles` says of each what the session
is afterwards and which pipelines were moved, and `Session.cycles_of_yields` that there are no other
ways.
-/
import LipSync.Proofs.Pipeline.Order
import LipSync.Proofs.Reception
import LipSync.Synchronizer.Command
import Mathlib.Control.Monad.Basic

namespace LipSync

open Dialogue

/-! ## Reading one stream -/

/-- The answers give these readings of a stream. -/
def Answers.Reads (a : Answers) (m : Medium) (transport : Transport) (receiver : Receiver)
    (r : Readings) : Prop :=
  a (.mediaTime m receiver) = .ok r.mediaTime ∧ a (.arrivalTime m receiver) = .ok r.arrivalTime ∧
    a (.report m transport) = .ok r.report

/-- The answers leave out a reading of a stream, or give a report without a wall clock. -/
def Answers.Lacks (a : Answers) (m : Medium) (transport : Transport) (receiver : Receiver) : Prop :=
  a (.mediaTime m receiver) = .ok none ∨ a (.arrivalTime m receiver) = .ok none ∨
    a (.report m transport) = .ok none ∨
    ∃ report, a (.report m transport) = .ok (some report) ∧ report.ntp.isZero

/-- Whether an answer tells something that has a property. -/
instance decidableTold {α : Type} (answer : Except String (Option α)) (p : α → Prop)
    [DecidablePred p] : Decidable (∃ x, answer = .ok (some x) ∧ p x) :=
  match answer with
  | .ok (some x) => decidable_of_iff (p x) (by simp)
  | .ok none | .error _ => .isFalse (by simp)

instance (a : Answers) (m : Medium) (transport : Transport) (receiver : Receiver) :
    Decidable (a.Lacks m transport receiver) := inferInstanceAs (Decidable (_ ∨ _ ∨ _ ∨ _))

variable {a : Answers} {events : List Event}

theorem Answers.Reads.lacks_iff {m : Medium} {transport : Transport} {receiver : Receiver}
    {r : Readings} (h : a.Reads m transport receiver r) :
    a.Lacks m transport receiver ↔ r.Incomplete := by
  obtain ⟨hmedia, harrival, hreport⟩ := h
  rw [Readings.Incomplete, Answers.Lacks, hmedia, harrival, hreport]
  simp

/-- A stream is read to its end, or up to the first reading that is missing. -/
theorem Medium.read_of_yields {m : Medium} {transport : Transport} {receiver : Receiver}
    {r : Readings} (h : Yields a (m.read transport receiver) r events) :
    (a.Reads m transport receiver r ∨ (a.Lacks m transport receiver ∧ r.Incomplete)) ∧
      setters events = [] := by
  unfold Medium.read at h
  obtain ⟨mediaTime, _, hmedia, h₁, rfl⟩ := yields_request_bind.mp h
  cases mediaTime with
  | none =>
    obtain ⟨rfl, rfl⟩ := yields_pure.mp h₁
    exact ⟨Or.inr ⟨Or.inl hmedia, Or.inl rfl⟩, rfl⟩
  | some mediaTime =>
    obtain ⟨arrivalTime, _, harrival, h₂, rfl⟩ := yields_request_bind.mp h₁
    cases arrivalTime with
    | none =>
      obtain ⟨rfl, rfl⟩ := yields_pure.mp h₂
      exact ⟨Or.inr ⟨Or.inr (Or.inl harrival), Or.inr (Or.inl rfl)⟩, rfl⟩
    | some arrivalTime =>
      obtain ⟨report, _, hreport, h₃, rfl⟩ := yields_request_bind.mp h₂
      obtain ⟨rfl, rfl⟩ := yields_pure.mp h₃
      exact ⟨Or.inl ⟨hmedia, harrival, hreport⟩, rfl⟩

/-- A reception is refreshed with what was read, unless something is missing. -/
theorem Reception.refresh_of_yields {reception : Reception} {m : Medium} {transport : Transport}
    {receiver : Receiver} {result : Except SyncError Reception}
    (h : Yields a (reception.refresh m transport receiver).run result events) :
    ((∃ e, result = .error e ∧ a.Lacks m transport receiver) ∨
      ∃ r refresh, a.Reads m transport receiver r ∧ reception.update r = .ok refresh ∧
        result = .ok refresh.reception) ∧ setters events = [] := by
  unfold Reception.refresh at h
  obtain ⟨r, readEvents, _, hread, h₁, rfl⟩ := yields_run_lift_bind.mp h
  obtain ⟨hread, hreadEvents⟩ := Medium.read_of_yields hread
  rw [setters_append, hreadEvents]
  rcases yields_run_except_bind.mp h₁ with ⟨e, hupdate, rfl, rfl⟩ | ⟨refresh, hupdate, h₂⟩
  · refine ⟨Or.inl ⟨e, rfl, ?_⟩, rfl⟩
    rcases hread with hread | ⟨hlacks, -⟩
    · exact hread.lacks_iff.mpr (update_error_iff.mp hupdate).1
    · exact hlacks
  · obtain ⟨_, noteEvents, _, hnotes, h₃, rfl⟩ := yields_run_lift_bind.mp h₂
    obtain ⟨rfl, rfl⟩ := yields_run_pure.mp h₃
    rw [yields_notes.mp hnotes]
    rcases hread with hread | ⟨-, hincomplete⟩
    · exact ⟨Or.inr ⟨r, refresh, hread, hupdate, rfl⟩, by simp⟩
    · exact absurd hincomplete (not_incomplete_of_update hupdate)

theorem Reception.lacks_of_refresh {reception : Reception} {m : Medium} {transport : Transport}
    {receiver : Receiver} {e : SyncError}
    (h : Yields a (reception.refresh m transport receiver).run (.error e) events) :
    a.Lacks m transport receiver ∧ setters events = [] := by
  obtain ⟨⟨_, -, hlacks⟩ | ⟨_, _, -, -, herror⟩, hsetters⟩ := refresh_of_yields h
  · exact ⟨hlacks, hsetters⟩
  · cases herror

theorem Reception.reads_of_refresh {reception next : Reception} {m : Medium} {transport : Transport}
    {receiver : Receiver}
    (h : Yields a (reception.refresh m transport receiver).run (.ok next) events) :
    (∃ r refresh, a.Reads m transport receiver r ∧ reception.update r = .ok refresh ∧
      refresh.reception = next) ∧ setters events = [] := by
  obtain ⟨⟨_, herror, -⟩ | ⟨r, refresh, hreads, hupdate, hnext⟩, hsetters⟩ := refresh_of_yields h
  · cases herror
  · cases hnext
    exact ⟨⟨r, refresh, hreads, hupdate, rfl⟩, hsetters⟩

/-- The compensator once audio has answered: a refusal takes the audio step back. -/
def Adjustment.settle (adjustment : Adjustment) : Except SyncError Unit → Compensator
  | .ok () => adjustment.next
  | .error _ => adjustment.next.revert

namespace Session

/-! ## The three ways -/

/-- Something that a cycle reads is missing: the delay estimate, the handles of the audio stream, or
a reading of one of the streams. -/
def Starved (s : Session) (a : Answers) : Prop :=
  a (.delayEstimate s.endpoints.audio s.endpoints.channel) = .ok none ∨
  a (.rtpHandles s.endpoints.audio s.endpoints.channel) = .ok none ∨
  a.Lacks .video s.endpoints.videoTransport s.endpoints.videoReceiver ∨
  ∃ handles, a (.rtpHandles s.endpoints.audio s.endpoints.channel) = .ok (some handles) ∧
    a.Lacks .audio handles.transport handles.receiver

instance (s : Session) (a : Answers) : Decidable (s.Starved a) :=
  inferInstanceAs (Decidable (_ ∨ _ ∨ _ ∨ _))

/-- Everything is there: the answers give the delays `current`, and `next` is the session with both
receptions refreshed by what they give of the streams. -/
inductive Refreshes (a : Answers) (s : Session) : Delays → Session → Prop
  | intro {videoDelay : Nat} {estimate : DelayEstimate} {handles : RtpHandles}
      {video audio : Readings} {videoRefresh audioRefresh : Refresh}
      (videoDelay_eq : a .videoDelay = .ok videoDelay)
      (estimate_eq : a (.delayEstimate s.endpoints.audio s.endpoints.channel) = .ok (some estimate))
      (handles_eq : a (.rtpHandles s.endpoints.audio s.endpoints.channel) = .ok (some handles))
      (video_reads : a.Reads .video s.endpoints.videoTransport s.endpoints.videoReceiver video)
      (video_update : s.video.update video = .ok videoRefresh)
      (audio_reads : a.Reads .audio handles.transport handles.receiver audio)
      (audio_update : s.audio.update audio = .ok audioRefresh) :
      Refreshes a s ⟨estimate.total, videoDelay⟩
        { s with audio := audioRefresh.reception, video := videoRefresh.reception }

variable {s : Session}

theorem Refreshes.not_starved {current : Delays} {next : Session}
    (h : s.Refreshes a current next) : ¬s.Starved a := by
  obtain ⟨-, hestimate, hhandles, hvideo, hvideoUpdate, haudio, haudioUpdate⟩ := h
  rintro (hnone | hnone | hlacks | ⟨handles, hsome, hlacks⟩)
  · rw [hestimate] at hnone
    cases hnone
  · rw [hhandles] at hnone
    cases hnone
  · exact Reception.not_incomplete_of_update hvideoUpdate (hvideo.lacks_iff.mp hlacks)
  · rw [hhandles] at hsome
    cases hsome
    exact Reception.not_incomplete_of_update haudioUpdate (haudio.lacks_iff.mp hlacks)

/-- The first half of a cycle finds something missing, or refreshes both streams. It moves nothing
in either case. -/
theorem gather_of_yields {result : Except SyncError (Delays × Session)}
    (h : Yields a s.gather.run result events) :
    ((∃ e, result = .error e ∧ s.Starved a) ∨
      ∃ current next, result = .ok (current, next) ∧ s.Refreshes a current next) ∧
      setters events = [] := by
  unfold gather at h
  obtain ⟨videoDelay, _, hvideoDelay, h₁, rfl⟩ := yields_run_request_bind.mp h
  obtain ⟨estimate, _, hestimate, h₂, rfl⟩ := yields_run_request_bind.mp h₁
  cases estimate with
  | none =>
    obtain ⟨rfl, rfl⟩ := yields_run_throw.mp h₂
    exact ⟨Or.inl ⟨_, rfl, Or.inl hestimate⟩, rfl⟩
  | some estimate =>
    obtain ⟨handles, _, hhandles, h₃, rfl⟩ := yields_run_request_bind.mp h₂
    cases handles with
    | none =>
      obtain ⟨rfl, rfl⟩ := yields_run_throw.mp h₃
      exact ⟨Or.inl ⟨_, rfl, Or.inr (Or.inl hhandles)⟩, rfl⟩
    | some handles =>
      rcases yields_run_bind.mp h₃ with ⟨e, rfl, hvideo⟩ | ⟨video, e₁, _, hvideo, h₄, rfl⟩
      · obtain ⟨hlacks, hsetters⟩ := Reception.lacks_of_refresh hvideo
        refine ⟨Or.inl ⟨e, rfl, Or.inr (Or.inr (Or.inl hlacks))⟩, ?_⟩
        simpa [Request.isSetter] using hsetters
      obtain ⟨⟨_, videoRefresh, hvideoReads, hvideoUpdate, rfl⟩, hvideoSetters⟩ :=
        Reception.reads_of_refresh hvideo
      rcases yields_run_bind.mp h₄ with ⟨e, rfl, haudio⟩ | ⟨audio, e₂, _, haudio, h₅, rfl⟩
      · obtain ⟨hlacks, hsetters⟩ := Reception.lacks_of_refresh haudio
        refine ⟨Or.inl ⟨e, rfl, Or.inr (Or.inr (Or.inr ⟨handles, hhandles, hlacks⟩))⟩, ?_⟩
        simp [Request.isSetter, hvideoSetters, hsetters]
      obtain ⟨⟨_, audioRefresh, haudioReads, haudioUpdate, rfl⟩, haudioSetters⟩ :=
        Reception.reads_of_refresh haudio
      obtain ⟨rfl, rfl⟩ := yields_run_pure.mp h₅
      refine ⟨Or.inr ⟨_, _, rfl, ?_⟩, by simp [Request.isSetter, hvideoSetters, haudioSetters]⟩
      exact .intro hvideoDelay hestimate hhandles hvideoReads hvideoUpdate haudioReads haudioUpdate

/-- The skew of a session, which takes no request to find out. -/
theorem skew_of_yields {result : Except SyncError Int} (h : Yields a s.skew.run result events) :
    relativeDelay s.audio s.video = result ∧ setters events = [] := by
  unfold Session.skew at h
  unfold relativeDelay
  rcases yields_run_except_bind.mp h with ⟨e, hmeasure, rfl, rfl⟩ | ⟨skew, hmeasure, h₁⟩
  · rw [hmeasure]
    exact ⟨rfl, rfl⟩
  · obtain ⟨_, noteEvents, _, hnotes, h₂, rfl⟩ := yields_run_lift_bind.mp h₁
    obtain ⟨haccept, rfl⟩ := yields_run_except.mp h₂
    rw [hmeasure, yields_notes.mp hnotes]
    exact ⟨haccept, by simp⟩

/-- Both pipelines are asked for the delays of an adjustment, and the compensator settles by what
audio answers. -/
theorem apply_of_yields {adjustment : Adjustment} {next : Session}
    (h : Yields a (s.apply adjustment) next events) :
    ∃ answer,
      a (.holdAudio s.endpoints.audio s.endpoints.channel adjustment.targets.audio) = .ok answer ∧
      next = { s with compensator := adjustment.settle answer } ∧
      setters events =
        [.holdAudio s.endpoints.audio s.endpoints.channel adjustment.targets.audio,
          .holdVideo adjustment.targets.video] := by
  unfold Session.apply at h
  obtain ⟨answer, _, hanswer, h₁, rfl⟩ := yields_request_bind.mp h
  refine ⟨answer, hanswer, ?_⟩
  cases answer with
  | ok _ =>
    obtain ⟨compensator, _, _, hcompensator, h₂, rfl⟩ := yields_bind.mp h₁
    obtain ⟨rfl, rfl⟩ := yields_pure.mp hcompensator
    obtain ⟨_, _, -, h₃, rfl⟩ := yields_request_bind.mp h₂
    obtain ⟨rfl, rfl⟩ := yields_pure.mp h₃
    exact ⟨rfl, rfl⟩
  | error e =>
    obtain ⟨_, _, _, hnotes, h₂, rfl⟩ := yields_bind.mp h₁
    obtain ⟨compensator, _, _, hcompensator, h₃, rfl⟩ := yields_bind.mp h₂
    obtain ⟨rfl, rfl⟩ := yields_pure.mp hcompensator
    obtain ⟨_, _, -, h₄, rfl⟩ := yields_request_bind.mp h₃
    obtain ⟨rfl, rfl⟩ := yields_pure.mp h₄
    rw [yields_notes.mp hnotes]
    exact ⟨rfl, rfl⟩

theorem steer_of_yields {skew : Int} {current targets : Delays} {next : Session}
    (h : Yields a (s.steer skew current) (targets, next) events) :
    targets = (s.compensator.adjust skew current).targets ∧
    ∃ answer,
      a (.holdAudio s.endpoints.audio s.endpoints.channel targets.audio) = .ok answer ∧
      next = { s with compensator := (s.compensator.adjust skew current).settle answer } ∧
      setters events =
        [.holdAudio s.endpoints.audio s.endpoints.channel targets.audio,
          .holdVideo targets.video] := by
  unfold steer at h
  obtain ⟨_, _, _, hnotes, h₁, rfl⟩ := yields_bind.mp h
  obtain ⟨_, _, _, hnotes', h₂, rfl⟩ := yields_bind.mp h₁
  obtain ⟨session, _, _, happly, h₃, rfl⟩ := yields_bind.mp h₂
  obtain ⟨hresult, rfl⟩ := yields_pure.mp h₃
  cases hresult
  obtain ⟨answer, hanswer, hnext, hsetters⟩ := apply_of_yields happly
  refine ⟨rfl, answer, hanswer, hnext, ?_⟩
  rw [yields_notes.mp hnotes, yields_notes.mp hnotes']
  simp only [setters_append, setters_noted, hsetters, List.nil_append, List.append_nil]

/-- What a cycle comes to under the answers `a`: its outcome, the session after it, and the requests
that moved a pipeline. -/
inductive Cycles (a : Answers) (s : Session) :
    Except SyncError Delays → Session → List Request → Prop
  /-- Something is missing, and the session stays as it was. -/
  | starved (e : SyncError) (starved : s.Starved a) : Cycles a s (.error e) s []
  /-- Both streams are refreshed, but give no skew to act on. -/
  | unmeasured {current : Delays} {next : Session} (e : SyncError)
      (refreshes : s.Refreshes a current next)
      (unmeasured : relativeDelay next.audio next.video = .error e) : Cycles a s (.error e) next []
  /-- The skew is acted on, and audio agrees or refuses. -/
  | applied {current : Delays} {next : Session} {skew : Int} {answer : Except SyncError Unit}
      {adjustment : Adjustment} (refreshes : s.Refreshes a current next)
      (measured : relativeDelay next.audio next.video = .ok skew)
      (adjustment_eq : adjustment = s.compensator.adjust skew current)
      (answered : a (.holdAudio s.endpoints.audio s.endpoints.channel adjustment.targets.audio) =
        .ok answer) :
      Cycles a s (.ok adjustment.targets) { next with compensator := adjustment.settle answer }
        [.holdAudio s.endpoints.audio s.endpoints.channel adjustment.targets.audio,
          .holdVideo adjustment.targets.video]

/-- A cycle that nobody breaks off comes to one of the three. -/
theorem cycles_of_yields {outcome : Except SyncError Delays} {next : Session}
    (h : Yields a s.cycle (outcome, next) events) : s.Cycles a outcome next (setters events) := by
  unfold cycle at h
  obtain ⟨gathered, _, _, hgather, h₁, rfl⟩ := yields_bind.mp h
  obtain ⟨⟨e, rfl, hstarved⟩ | ⟨current, refreshed, rfl, hrefreshes⟩, hgatherSetters⟩ :=
    gather_of_yields hgather
  · obtain ⟨hresult, rfl⟩ := yields_pure.mp h₁
    cases hresult
    simp only [List.append_nil, hgatherSetters]
    exact .starved e hstarved
  obtain ⟨measured, _, _, hskew, h₂, rfl⟩ := yields_bind.mp h₁
  obtain ⟨hmeasured, hskewSetters⟩ := skew_of_yields hskew
  cases measured with
  | error e =>
    obtain ⟨hresult, rfl⟩ := yields_pure.mp h₂
    cases hresult
    simp only [List.append_nil, setters_append, hgatherSetters, hskewSetters]
    exact .unmeasured e hrefreshes hmeasured
  | ok skew =>
    obtain ⟨⟨targets, session⟩, _, _, hsteer, h₃, rfl⟩ := yields_bind.mp h₂
    obtain ⟨hresult, rfl⟩ := yields_pure.mp h₃
    cases hresult
    obtain ⟨rfl, answer, hanswer, rfl, hsetters⟩ := steer_of_yields hsteer
    simp only [List.append_nil, List.nil_append, setters_append, hgatherSetters, hskewSetters,
      hsetters]
    cases hrefreshes with
    | intro hvideoDelay hestimate hhandles hvideo hvideoUpdate haudio haudioUpdate =>
      exact .applied (.intro hvideoDelay hestimate hhandles hvideo hvideoUpdate haudio haudioUpdate)
        hmeasured rfl hanswer

end Session

/-! ## The order of its requests -/

theorem Medium.orderly_read (m : Medium) (transport : Transport) (receiver : Receiver) :
    (m.read transport receiver).Orderly m.place (m.place + 3) := by
  unfold Medium.read
  refine orderly_request_bind (Nat.le_refl _) (by simp) ?_
  rintro (_ | mediaTime)
  · exact orderly_pure (by simp)
  refine orderly_request_bind (Nat.le_refl _) (by simp) ?_
  rintro (_ | arrivalTime)
  · exact orderly_pure (by simp)
  refine orderly_request_bind (Nat.le_refl _) (by simp) ?_
  intro report
  exact orderly_pure (Nat.le_refl _)

theorem Reception.orderly_refresh (r : Reception) (m : Medium) (transport : Transport)
    (receiver : Receiver) :
    (r.refresh m transport receiver).run.Orderly m.place (m.place + 3) := by
  unfold Reception.refresh
  refine (m.orderly_read transport receiver).run_lift_bind (Nat.le_refl _) ?_
  intro readings
  refine orderly_run_except_bind (Nat.le_refl _) ?_
  intro refresh
  refine (orderly_notes (Nat.le_refl _)).run_lift_bind (Nat.le_refl _) ?_
  intro _
  exact orderly_pure (Nat.le_refl _)

theorem Session.orderly_gather (s : Session) : s.gather.run.Orderly 0 9 := by
  unfold gather
  refine orderly_run_request_bind (by simp) (by simp) ?_
  intro videoDelay
  refine orderly_run_request_bind (by simp) (by simp) ?_
  rintro (_ | estimate)
  · exact orderly_pure (by simp)
  refine orderly_run_request_bind (by simp) (by simp) ?_
  rintro (_ | handles)
  · exact orderly_pure (by simp)
  refine (Reception.orderly_refresh s.video .video _ _).run_bind (by decide) ?_
  intro video
  refine (Reception.orderly_refresh s.audio .audio _ _).run_bind (by decide) ?_
  intro audio
  exact orderly_pure (by simp)

theorem Session.orderly_skew (s : Session) : s.skew.run.Orderly 9 9 := by
  unfold Session.skew
  refine orderly_run_except_bind (Nat.le_refl _) ?_
  intro skew
  refine (orderly_notes (Nat.le_refl _)).run_lift_bind (Nat.le_refl _) ?_
  intro _
  exact orderly_pure (Nat.le_refl _)

theorem Session.orderly_apply (s : Session) (adjustment : Adjustment) :
    (s.apply adjustment).Orderly 9 11 := by
  unfold apply
  refine orderly_request_bind (by simp) (by simp) ?_
  intro answer
  have hlast (compensator : Compensator) :
      (do Dialogue.request (.holdVideo adjustment.targets.video)
          return { s with compensator } : Dialogue Session).Orderly 10 11 :=
    orderly_request_bind (by simp) (by simp) fun _ => orderly_pure (by simp)
  cases answer with
  | ok _ => exact (orderly_pure (Nat.le_refl 10)).bind (by decide) hlast
  | error e =>
    refine (orderly_notes (Nat.le_refl 10)).bind (by decide) ?_
    intro _
    exact (orderly_pure (Nat.le_refl 10)).bind (by decide) hlast

theorem Session.orderly_steer (s : Session) (skew : Int) (current : Delays) :
    (s.steer skew current).Orderly 9 11 := by
  unfold steer
  refine (orderly_notes (Nat.le_refl _)).bind (by decide) ?_
  intro _
  refine (orderly_notes (Nat.le_refl _)).bind (by decide) ?_
  intro _
  refine (orderly_apply s _).bind (Nat.le_refl _) ?_
  intro _
  exact orderly_pure (Nat.le_refl _)

/-- A cycle makes its requests in their order. -/
theorem Session.orderly_cycle (s : Session) : s.cycle.Orderly 0 11 := by
  unfold cycle
  refine (orderly_gather s).bind (by decide) ?_
  rintro (e | ⟨current, refreshed⟩)
  · exact orderly_pure (by simp)
  refine (orderly_skew refreshed).bind (by decide) ?_
  rintro (e | skew)
  · exact orderly_pure (by simp)
  refine (orderly_steer refreshed skew current).bind (Nat.le_refl _) ?_
  intro steered
  exact orderly_pure (Nat.le_refl _)

end LipSync
