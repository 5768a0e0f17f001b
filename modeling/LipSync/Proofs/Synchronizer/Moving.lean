/-
# LipSync.Proofs.Synchronizer.Moving — the pipelines are moved as the cycles tell.

A cycle that tells delays has asked the two pipelines in force for them, audio first and then video,
also where audio refused; a cycle that tells none has moved nothing. So all that moves the pipelines
in a run can be read off what was called and what came back (`movesTold`). And a cycle of a session
tells delays exactly when everything that it reads is there (`Session.Supplied`), both streams have
two samples, and the skew is plausible.
-/
import LipSync.Proofs.Skew
import LipSync.Proofs.Synchronizer.Binding

namespace LipSync

/-! ## What the replies tell -/

/-- What moves the pipelines of a binding to these delays. -/
def Binding.moves (targets : Delays) : Binding → List Request
  | disabled => []
  | enabled e => [.holdAudio e.audio e.channel targets.audio, .holdVideo targets.video]

/-- What has moved the pipelines of a binding, by what a call returned. -/
def Turn.moves (binding : Binding) (t : Turn) : List Request :=
  match t.reply with
  | .ok (.cycled (some targets)) => binding.moves targets
  | _ => []

/-- What has moved the pipelines in the course of a record that begins with `binding` in force. It
goes by the calls and by what they returned alone. -/
def movesTold (binding : Binding) : List Entry → List Request
  | [] => []
  | e :: es => e.turn.moves binding ++ movesTold (e.call.command.bindingAfter binding) es

/-! ## When a cycle tells delays -/

/-- The answers give every reading of a stream, and the report has a wall clock. -/
def Answers.Gives (a : Answers) (m : Medium) (transport : Transport) (receiver : Receiver) : Prop :=
  ∃ mediaTime arrivalTime report, a (.mediaTime m receiver) = .ok (some mediaTime) ∧
    a (.arrivalTime m receiver) = .ok (some arrivalTime) ∧
    a (.report m transport) = .ok (some report) ∧ report.ntp.isZero = false

namespace Session

/-- Everything that a cycle reads is there: the delay estimate, the handles of the audio stream, and
all readings of both streams. -/
def Supplied (s : Session) (a : Answers) : Prop :=
  (∃ estimate,
    a (.delayEstimate s.endpoints.audio s.endpoints.channel) = .ok (some estimate)) ∧
  ∃ handles, a (.rtpHandles s.endpoints.audio s.endpoints.channel) = .ok (some handles) ∧
    a.Gives .video s.endpoints.videoTransport s.endpoints.videoReceiver ∧
    a.Gives .audio handles.transport handles.receiver

end Session

variable {a : Answers}

/-- Readings that amount to an arrival are complete. -/
theorem Readings.of_arrival? {r : Readings} {arrival : Arrival} (h : r.arrival? = some arrival) :
    ∃ mediaTime arrivalTime report, r.mediaTime = some mediaTime ∧
      r.arrivalTime = some arrivalTime ∧ r.report = some report ∧ report.ntp.isZero = false := by
  obtain ⟨hmediaTime, harrivalTime, hsample⟩ := Readings.arrival?_eq_some_iff.mp h
  obtain ⟨report, hreport, hsample⟩ := Option.bind_eq_some_iff.mp hsample
  refine ⟨_, _, report, hmediaTime, harrivalTime, hreport, ?_⟩
  unfold Sample.ofReport? at hsample
  split at hsample
  · cases hsample
  · next hclock => exact Bool.eq_false_iff.mpr hclock

namespace Answers

variable {m : Medium} {transport : Transport} {receiver : Receiver}

theorem Reads.gives {r : Readings} {arrival : Arrival} (h : a.Reads m transport receiver r)
    (harrival : r.arrival? = some arrival) : a.Gives m transport receiver := by
  obtain ⟨mediaTime, arrivalTime, report, hmediaTime, harrivalTime, hreport, hclock⟩ :=
    Readings.of_arrival? harrival
  unfold Reads at h
  rw [hmediaTime, harrivalTime, hreport] at h
  exact ⟨mediaTime, arrivalTime, report, h.1, h.2.1, h.2.2, hclock⟩

theorem Gives.not_lacks (h : a.Gives m transport receiver) : ¬a.Lacks m transport receiver := by
  obtain ⟨mediaTime, arrivalTime, report, hmediaTime, harrivalTime, hreport, hclock⟩ := h
  unfold Lacks
  rw [hmediaTime, harrivalTime, hreport]
  simp [hclock]

end Answers

namespace Session

variable {s next : Session}

theorem Supplied.not_starved (h : s.Supplied a) : ¬s.Starved a := by
  obtain ⟨⟨estimate, hestimate⟩, handles, hhandles, hvideo, haudio⟩ := h
  unfold Starved
  rw [hestimate, hhandles]
  rintro (hnone | hnone | hlacks | ⟨handles', hsame, hlacks⟩)
  · cases hnone
  · cases hnone
  · exact hvideo.not_lacks hlacks
  · cases hsame
    exact haudio.not_lacks hlacks

theorem Refreshes.supplied {current : Delays} (h : s.Refreshes a current next) : s.Supplied a := by
  obtain ⟨-, hestimate, hhandles, hvideo, hvideoUpdate, haudio, haudioUpdate⟩ := h
  obtain ⟨video, hvideoArrival, -⟩ := Reception.update_ok_iff.mp hvideoUpdate
  obtain ⟨audio, haudioArrival, -⟩ := Reception.update_ok_iff.mp haudioUpdate
  exact ⟨⟨_, hestimate⟩, _, hhandles, hvideo.gives hvideoArrival, haudio.gives haudioArrival⟩

/-- A cycle tells delays exactly when everything is there and gives a skew to act on. -/
theorem Cycles.ok_iff {outcome : Except SyncError Delays} {moved : List Request}
    (h : s.Cycles a outcome next moved) :
    (∃ targets, outcome = .ok targets) ↔
      s.Supplied a ∧ ∃ milliseconds, relativeDelay next.audio next.video = .ok milliseconds := by
  cases h with
  | starved e starved =>
    constructor
    · rintro ⟨targets, htargets⟩
      cases htargets
    · rintro ⟨hsupplied, -⟩
      exact absurd starved hsupplied.not_starved
  | unmeasured e refreshes unmeasured =>
    rw [unmeasured]
    constructor
    · rintro ⟨targets, htargets⟩
      cases htargets
    · rintro ⟨-, milliseconds, hmeasured⟩
      cases hmeasured
  | applied refreshes measured adjustment_eq answered =>
    exact ⟨fun _ => ⟨refreshes.supplied, _, measured⟩, fun _ => ⟨_, rfl⟩⟩

end Session

/-! ## What moves the pipelines -/

namespace Synchronizer

variable {s : Synchronizer} {binding : Binding}

/-- What moves the pipelines in a cycle is what the cycle tells. -/
theorem setters_cycle (h : s.Bound binding) {now : Instant} (ha : s.Answered ⟨.cycle now, a⟩) :
    setters (s.call ⟨.cycle now, a⟩).1.events = (s.call ⟨.cycle now, a⟩).1.moves binding := by
  cases hsession : s.session? with
  | none =>
    obtain ⟨hreply, hrequests, -⟩ := cycle_of_no_session hsession now a
    rw [setters, hrequests, Turn.moves, hreply]
    rfl
  | some session =>
    obtain ⟨outcome, after, hcycles, hreply, -⟩ := cycle_of_answered hsession ha
    rw [Turn.moves, hreply, h.eq_enabled hsession]
    -- which way the cycle went says both what it told and what it moved
    generalize setters _ = moved at hcycles
    cases hcycles with
    | starved e starved => rfl
    | unmeasured e refreshes unmeasured => rfl
    | applied refreshes measured adjustment_eq answered => rfl

/-- Binding returns, and moves nothing. -/
theorem setters_reconfigure (s : Synchronizer) (asked : Binding) (a : Answers) :
    (∃ result, (s.call ⟨.reconfigure asked, a⟩).1.reply = .ok (.reconfigured result)) ∧
      setters (s.call ⟨.reconfigure asked, a⟩).1.events = [] := by
  obtain ⟨settings, condition⟩ := s
  cases condition with
  | poisoned => exact ⟨⟨_, rfl⟩, rfl⟩
  | serving lastCycle session =>
    rw [call_reconfigure]
    split
    · exact ⟨⟨_, rfl⟩, rfl⟩
    · exact ⟨⟨_, rfl⟩, setters_noted _⟩

/-- What moves the pipelines during a call is what the call tells. -/
theorem setters_call (h : s.Bound binding) {c : Call} (ha : s.Answered c) :
    setters (s.call c).1.events = (s.call c).1.moves binding := by
  obtain ⟨command, a⟩ := c
  cases command with
  | reconfigure asked =>
    obtain ⟨⟨result, hreply⟩, hsetters⟩ := setters_reconfigure s asked a
    rw [hsetters, Turn.moves, hreply]
  | cycle now => exact setters_cycle h ha
  | nextCycle =>
    obtain ⟨settings, condition⟩ := s
    cases condition with
    | poisoned => rfl
    | serving lastCycle session =>
      rw [call_nextCycle]
      split <;> rfl
  | untilNextCycle | isActive | histories | interval => rfl

/-- What moves the pipelines in the course of a run is what the run tells. -/
theorem setters_record (h : s.Bound binding) {calls : List Call}
    (ha : ∀ e ∈ s.record calls, e.before.Answered e.call) :
    setters ((s.record calls).flatMap fun e => e.turn.events) =
      movesTold binding (s.record calls) := by
  induction calls generalizing s binding with
  | nil => rfl
  | cons c calls ih =>
    have hfirst := setters_call h (ha _ List.mem_cons_self)
    have hrest := ih (h.call c) fun e he => ha e (List.mem_cons_of_mem _ he)
    rw [record_cons, List.flatMap_cons, setters_append, hfirst, hrest]
    rfl

/-- A call that binds or runs a cycle returns, if everything that it asks is answered. -/
theorem reply_of_drives {c : Call} (hc : c.command.drives = true) (ha : s.Answered c) :
    ∃ reply, (s.call c).1.reply = .ok reply := by
  obtain ⟨command, a⟩ := c
  cases command with
  | reconfigure asked =>
    obtain ⟨⟨result, hreply⟩, -⟩ := setters_reconfigure s asked a
    exact ⟨_, hreply⟩
  | cycle now => exact reply_of_answered ha
  | untilNextCycle | nextCycle | isActive | histories | interval => cases hc

theorem record_replies {calls : List Call} (ha : ∀ e ∈ s.record calls, e.before.Answered e.call) :
    ∀ e ∈ s.record calls, e.call.command.drives = true → ∃ reply, e.turn.reply = .ok reply := by
  induction calls generalizing s with
  | nil => exact fun e he => absurd he List.not_mem_nil
  | cons c calls ih =>
    intro e he hdrives
    rcases List.mem_cons.mp he with rfl | he
    · exact reply_of_drives hdrives (ha _ List.mem_cons_self)
    · exact ih (fun e he => ha e (List.mem_cons_of_mem _ he)) e he hdrives

/-- A cycle of a session tells delays exactly when everything that it reads is there, both streams
have two samples after it, and the skew is plausible. -/
theorem cycle_tells_iff {session : Session} {now : Instant} (hsession : s.session? = some session)
    (ha : s.Answered ⟨.cycle now, a⟩) :
    (∃ targets, (s.call ⟨.cycle now, a⟩).1.reply = .ok (.cycled (some targets))) ↔
      session.Supplied a ∧ ∃ after, (s.call ⟨.cycle now, a⟩).2.session? = some after ∧
        2 ≤ after.audio.history.size ∧ 2 ≤ after.video.history.size ∧
        ¬Skew.Implausible after.audio after.video := by
  obtain ⟨outcome, after, hcycles, hreply, hafter⟩ := cycle_of_answered hsession ha
  have htells : (∃ targets, (s.call ⟨.cycle now, a⟩).1.reply = .ok (.cycled (some targets))) ↔
      ∃ targets, outcome = .ok targets := by
    rw [hreply]
    cases outcome <;> simp [Except.toOption]
  have hnext : (s.call ⟨.cycle now, a⟩).2.session? = some after := by
    rw [hafter]
    rfl
  rw [htells, hcycles.ok_iff, relativeDelay_ok_iff, hnext]
  simp only [Option.some.injEq, exists_eq_left']

/-- As long as every request gets an answer, what moves the pipelines in a run is what its cycles
tell: the delays that each tells, asked of the audio channel in force and then of video, whatever
audio answers, and nothing for a cycle that tells none. With nothing bound a cycle asks nothing at
all. With a session it tells delays exactly when everything that it reads is there, both streams
then have two samples, and the rounded skew is not too much. -/
theorem setters_are_what_cycles_tell (settings : Settings) (made : Instant) :
    let s := unbound settings made
    (∀ calls : List Call, (∀ e ∈ s.record calls, e.before.Answered e.call) →
      (∀ e ∈ s.record calls, e.call.command.drives = true →
        ∃ reply, e.turn.reply = .ok reply) ∧
      setters ((s.record calls).flatMap fun e => e.turn.events) =
        movesTold .disabled (s.record calls)) ∧
    (∀ (calls : List Call) (now : Instant) (a : Answers), lastBinding calls = .disabled →
      let turn := ((s.after calls).call ⟨.cycle now, a⟩).1
      turn.reply = .ok (.cycled none) ∧ requests turn.events = []) ∧
    (∀ (calls : List Call) (now : Instant) (a : Answers) (session : Session),
      (s.after calls).session? = some session → (s.after calls).Answered ⟨.cycle now, a⟩ →
        let turn := ((s.after calls).call ⟨.cycle now, a⟩).1
        let next := ((s.after calls).call ⟨.cycle now, a⟩).2
        (∃ targets, turn.reply = .ok (.cycled (some targets))) ↔
          session.Supplied a ∧ ∃ after, next.session? = some after ∧
            2 ≤ after.audio.history.size ∧ 2 ≤ after.video.history.size ∧
            ¬Skew.Implausible after.audio after.video) := by
  intro s
  refine ⟨?_, ?_, ?_⟩
  · intro calls ha
    exact ⟨record_replies ha, setters_record (bound_unbound settings made) ha⟩
  · intro calls now a hlast
    have hbound := bound_after settings made calls
    rw [hlast] at hbound
    obtain ⟨hreply, hrequests, -⟩ := cycle_of_no_session hbound.session?_eq_none now a
    exact ⟨hreply, hrequests⟩
  · intro calls now a session hsession ha
    exact cycle_tells_iff hsession ha

/-- Audio refuses what the second cycle asks for; then another channel is bound, which takes two
cycles again, and at last nothing. -/
theorem setters_are_what_cycles_tell_through_rebinding :
    let refusing := Answers.usual ⟨20, 40⟩ (fun _ => .atSecond 2) (.error (.applyFailed "busy"))
    let first : List Call := [⟨.reconfigure (.enabled .usual), .agreeable (.atSecond 1)⟩,
      ⟨.cycle ⟨1000⟩, .agreeable (.atSecond 1)⟩]
    let calls : List Call := first ++ [⟨.cycle ⟨2000⟩, refusing⟩,
      ⟨.reconfigure (.enabled { Endpoints.usual with channel := ⟨9⟩ }), refusing⟩,
      ⟨.cycle ⟨3000⟩, .agreeable (.atSecond 3)⟩, ⟨.cycle ⟨4000⟩, .agreeable (.atSecond 4)⟩,
      ⟨.reconfigure .disabled, refusing⟩]
    let entries := (unbound {} ⟨0⟩).record calls
    (∀ e ∈ entries, e.before.Answered e.call) ∧
      setters (entries.flatMap fun e => e.turn.events) =
        [.holdAudio ⟨0⟩ ⟨7⟩ 20, .holdVideo 40, .holdAudio ⟨0⟩ ⟨9⟩ 20, .holdVideo 40] ∧
      lastBinding calls = .disabled ∧
      requests (((unbound {} ⟨0⟩).after calls).call ⟨.cycle ⟨5000⟩, refusing⟩).1.events = [] ∧
      ∃ session, ((unbound {} ⟨0⟩).after first).session? = some session ∧
        ((unbound {} ⟨0⟩).after first).Answered ⟨.cycle ⟨2000⟩, refusing⟩ ∧
        session.Supplied refusing := by
  intro refusing first calls entries
  obtain ⟨hrun, hunbound, hsession⟩ := setters_are_what_cycles_tell {} ⟨0⟩
  have hanswered : ∀ e ∈ entries, e.before.Answered e.call := by decide +kernel
  have hlast : lastBinding calls = .disabled := by decide
  have hfirst : ((unbound {} ⟨0⟩).after first).Answered ⟨.cycle ⟨2000⟩, refusing⟩ := by
    decide +kernel
  have htold : movesTold .disabled entries =
      [.holdAudio ⟨0⟩ ⟨7⟩ 20, .holdVideo 40, .holdAudio ⟨0⟩ ⟨9⟩ 20, .holdVideo 40] := by
    decide +kernel
  have htells : (((unbound {} ⟨0⟩).after first).call ⟨.cycle ⟨2000⟩, refusing⟩).1.reply =
      .ok (.cycled (some ⟨20, 40⟩)) := by
    decide +kernel
  have hactive : ((unbound {} ⟨0⟩).after first).session?.isSome = true := by decide +kernel
  obtain ⟨session, hbound⟩ := Option.isSome_iff_exists.mp hactive
  obtain ⟨-, hnothing⟩ := hunbound calls ⟨5000⟩ refusing hlast
  have hiff := hsession first ⟨2000⟩ refusing session hbound hfirst
  refine ⟨hanswered, ?_, hlast, hnothing, session, hbound, hfirst, ?_⟩
  · exact (hrun calls hanswered).2.trans htold
  · exact (hiff.mp ⟨_, htells⟩).1

end Synchronizer

end LipSync
