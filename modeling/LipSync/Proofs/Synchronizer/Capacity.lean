/-
# LipSync.Proofs.Synchronizer.Capacity — nothing that is done depends on how many samples are kept.

A record tells which samples each stream has accepted since its last restart, or since it was bound
(`Synchronizer.acceptedAfter`), and a history holds the newest of them. Two synchronizers that
differ in how many samples they keep, and are driven alike, accept the same samples. They make the
same requests and give the same replies (`Synchronizer.capacity_leaves_no_trace`); all that tells
them apart is how far back their histories reach.
-/
import LipSync.Proofs.Clock.Eviction
import LipSync.Proofs.Synchronizer.Likeness

namespace LipSync

open Dialogue

variable {a : Answers} {m : Medium}

/-! ## What arrives in a cycle -/

/-- What an answer tells, if it tells anything. -/
def told {α : Type} : Except String (Option α) → Option α
  | .ok x => x
  | .error _ => none

/-- What the answers tell of a stream. -/
def Answers.readings (a : Answers) (m : Medium) (transport : Transport) (receiver : Receiver) :
    Readings :=
  ⟨told (a (.mediaTime m receiver)), told (a (.arrivalTime m receiver)),
    told (a (.report m transport))⟩

theorem Answers.Reads.readings_eq {transport : Transport} {receiver : Receiver} {r : Readings}
    (h : a.Reads m transport receiver r) : a.readings m transport receiver = r := by
  obtain ⟨hmediaTime, harrivalTime, hreport⟩ := h
  rw [readings, hmediaTime, harrivalTime, hreport]
  rfl

theorem Answers.Lacks.arrival?_eq {transport : Transport} {receiver : Receiver}
    (h : a.Lacks m transport receiver) : (a.readings m transport receiver).arrival? = none := by
  rw [Readings.arrival?_eq_none_iff, readings]
  rcases h with h | h | h | ⟨report, h, hzero⟩
  · exact Or.inl (by rw [h]; rfl)
  · exact Or.inr (Or.inl (by rw [h]; rfl))
  · exact Or.inr (Or.inr (Or.inl (by rw [h]; rfl)))
  · exact Or.inr (Or.inr (Or.inr ⟨report, by rw [h]; rfl, hzero⟩))

namespace Session

variable {s next : Session}

/-- What has been received of a stream. -/
def reception (s : Session) : Medium → Reception
  | .audio => s.audio
  | .video => s.video

/-- What arrives of the two streams in a cycle, if nothing that it reads is missing. -/
def arrivals? (s : Session) (a : Answers) : Option (Medium → Arrival) := do
  let _ ← told (a (.delayEstimate s.endpoints.audio s.endpoints.channel))
  let handles ← told (a (.rtpHandles s.endpoints.audio s.endpoints.channel))
  let video ← (a.readings .video s.endpoints.videoTransport s.endpoints.videoReceiver).arrival?
  let audio ← (a.readings .audio handles.transport handles.receiver).arrival?
  return fun
    | .audio => audio
    | .video => video

theorem Starved.arrivals?_eq (h : s.Starved a) : s.arrivals? a = none := by
  unfold arrivals?
  rcases h with h | h | h | ⟨handles, hhandles, h⟩
  · rw [h]
    rfl
  · rw [h]
    simp [told]
  · rw [h.arrival?_eq]
    simp
  · rw [hhandles]
    simp [told, h.arrival?_eq]

theorem Refreshes.arrivals?_eq {current : Delays} (h : s.Refreshes a current next) :
    ∃ arrivals, s.arrivals? a = some arrivals ∧
      ∀ m, next.reception m = ((s.reception m).receive (arrivals m)).reception := by
  cases h with
  | intro videoDelay_eq estimate_eq handles_eq video_reads video_update audio_reads audio_update =>
    obtain ⟨video, hvideo, rfl⟩ := Reception.update_ok_iff.mp video_update
    obtain ⟨audio, haudio, rfl⟩ := Reception.update_ok_iff.mp audio_update
    refine ⟨fun | .audio => audio | .video => video, ?_, ?_⟩
    · simp [arrivals?, estimate_eq, handles_eq, told, video_reads.readings_eq,
        audio_reads.readings_eq, hvideo, haudio]
    · rintro (_ | _) <;> rfl

/-- The samples accepted of a stream once a cycle has been run. -/
def accept (s : Session) (m : Medium) (a : Answers) (accepted : List Sample) : List Sample :=
  match s.arrivals? a with
  | none => accepted
  | some arrivals =>
    let sample := (arrivals m).sample
    ((s.reception m).history.update sample).1.accept accepted sample

/-- The newest of the accepted samples are held after a cycle too. What is made of the skew has no
part in it. -/
theorem Cycles.retains {outcome : Except SyncError Delays} {moved : List Request} {requested : Nat}
    {accepted : List Sample} (h : s.Cycles a outcome next moved)
    (hs : (s.reception m).history.Retains requested accepted) :
    (next.reception m).history.Retains requested (s.accept m a accepted) := by
  have hrefreshed {current : Delays} {refreshed : Session}
      (hrefreshes : s.Refreshes a current refreshed) :
      (refreshed.reception m).history.Retains requested (s.accept m a accepted) := by
    obtain ⟨arrivals, harrivals, hreceptions⟩ := hrefreshes.arrivals?_eq
    rw [accept, harrivals, hreceptions]
    exact hs.update _
  cases h with
  | starved e starved =>
    rw [accept, starved.arrivals?_eq]
    exact hs
  | unmeasured e refreshes unmeasured => exact hrefreshed refreshes
  | applied refreshes measured adjustment_eq answered =>
    have hretained := hrefreshed refreshes
    cases m <;> exact hretained

end Session

/-! ## Synchronizers whose histories reach back differently -/

/-- The receptions agree but in what is held before the two newest samples. -/
structure Reception.SameNewest (r r' : Reception) : Prop where
  mediaTime_eq : r.mediaTime = r'.mediaTime
  arrivalTime_eq : r.arrivalTime = r'.arrivalTime
  history : r.history.SameNewest r'.history

namespace Reception.SameNewest

variable {r r' : Reception}

theorem receive (h : r.SameNewest r') (arrival : Arrival) :
    (r.receive arrival).reception.SameNewest (r'.receive arrival).reception :=
  ⟨rfl, rfl, (h.history.update arrival.sample).2⟩

theorem update (h : r.SameNewest r') (x : Readings) :
    Alike (fun u v : Refresh => u.reception.SameNewest v.reception) (r.update x) (r'.update x) := by
  rw [update_eq, update_eq]
  cases x.arrival? with
  | none => exact .error _
  | some arrival => exact .ok (h.receive arrival)

theorem delay_eq (h : r.SameNewest r') : r.delay = r'.delay := by
  unfold delay
  rw [History.wallClockAt_eq, History.wallClockAt_eq, h.history.lastTwo_eq, h.mediaTime_eq,
    h.arrivalTime_eq]

end Reception.SameNewest

/-- What is held before the two newest samples goes unnoticed. -/
def capacityLikeness : Likeness where
  view := id
  view_eq _ _ _ := rfl
  instants _ _ := True
  instants_refl _ := trivial
  readings _ := Eq
  read a _ _ _ := coupled_self a _
  receptions _ := Reception.SameNewest
  update {_ _ _ x _} hr hx := hx ▸ hr.update x
  measure ha hv := by
    unfold Skew.measure
    rw [ha.delay_eq, hv.delay_eq]

namespace Session.Like

variable {s s' : Session}

theorem sameNewest (h : s.Like capacityLikeness s') (m : Medium) :
    (s.reception m).SameNewest (s'.reception m) := by
  cases m with
  | audio => exact h.audio
  | video => exact h.video

theorem accept_eq (h : s.Like capacityLikeness s') (m : Medium) (a : Answers)
    (accepted : List Sample) : s.accept m a accepted = s'.accept m a accepted := by
  have harrivals : s.arrivals? a = s'.arrivals? a := by rw [arrivals?, arrivals?, h.endpoints_eq]
  unfold accept
  rw [harrivals]
  cases s'.arrivals? a with
  | none => rfl
  | some arrivals =>
    simp only
    rw [((h.sameNewest m).history.update (arrivals m).sample).1]

end Session.Like

/-! ## What a record tells to be accepted -/

namespace Synchronizer

/-- The samples accepted of a stream once a call has been made. Binding to something else starts
over. -/
def accept (s : Synchronizer) (m : Medium) (c : Call) (accepted : List Sample) : List Sample :=
  match c.command with
  | .reconfigure binding => if bindingOf s.session? = binding then accepted else []
  | .cycle _ =>
    match s.session? with
    | none => accepted
    | some session => session.accept m c.answers accepted
  | _ => accepted

/-- The samples that a stream has accepted, newest first, since its last restart or since it was
bound, by a record that begins when these are the ones in `before`. -/
def acceptedAfter (m : Medium) (before : List Sample) (entries : List Entry) : List Sample :=
  entries.foldl (fun accepted e => e.before.accept m e.call accepted) before

/-- The history of a stream, while there is a session. -/
def history? (s : Synchronizer) (m : Medium) : Option History :=
  s.histories.map fun histories =>
    match m with
    | .audio => histories.1
    | .video => histories.2

theorem history?_eq (s : Synchronizer) (m : Medium) :
    s.history? m = s.session?.map fun session => (session.reception m).history := by
  unfold history? histories
  cases s.session? <;> cases m <;> rfl

/-- As long as there is a session, its history of a stream holds the newest of the accepted samples,
as many as the settings ask for. -/
structure Keeps (settings : Settings) (m : Medium) (accepted : List Sample) (s : Synchronizer) :
    Prop where
  settings_eq : s.settings = settings
  retains : ∀ session, s.session? = some session →
    (session.reception m).history.Retains settings.historyCapacity accepted

variable {s s' : Synchronizer} {settings : Settings} {accepted : List Sample}

namespace Keeps

/-- Without a session there is nothing to hold. -/
theorem of_none (hsettings : s.settings = settings) (hnone : s.session? = none) :
    Keeps settings m accepted s := by
  refine ⟨hsettings, ?_⟩
  rw [hnone]
  rintro _ ⟨⟩

theorem reconfigure (h : s.Keeps settings m accepted) (binding : Binding) (a : Answers) :
    (s.call ⟨.reconfigure binding, a⟩).2.Keeps settings m
      (s.accept m ⟨.reconfigure binding, a⟩ accepted) := by
  obtain ⟨own, condition⟩ := s
  obtain rfl : own = settings := h.settings_eq
  cases condition with
  | poisoned => exact of_none rfl rfl
  | serving lastCycle session =>
    rw [call_reconfigure]
    show Keeps own m (if bindingOf session = binding then accepted else []) _
    by_cases hsame : bindingOf session = binding
    · rw [if_pos hsame, if_pos hsame]
      exact h
    · rw [if_neg hsame, if_neg hsame]
      cases binding with
      | disabled => exact of_none rfl rfl
      | enabled endpoints =>
        refine ⟨rfl, ?_⟩
        rintro _ ⟨⟩
        cases m <;> exact History.retains_empty _

theorem cycle (h : s.Keeps settings m accepted) (now : Instant) (a : Answers) :
    (s.call ⟨.cycle now, a⟩).2.Keeps settings m (s.accept m ⟨.cycle now, a⟩ accepted) := by
  cases hsession : s.session? with
  | none =>
    have hnext : (s.call ⟨.cycle now, a⟩).2.settings = s.settings ∧
        (s.call ⟨.cycle now, a⟩).2.session? = none := by
      obtain ⟨own, condition⟩ := s
      cases condition with
      | poisoned => exact ⟨rfl, rfl⟩
      | serving lastCycle session =>
        obtain rfl : session = none := hsession
        exact ⟨rfl, rfl⟩
    exact of_none (hnext.1.trans h.settings_eq) hnext.2
  | some session =>
    cases hreply : (s.call ⟨.cycle now, a⟩).1.reply with
    | error cause =>
      rw [call_of_error hreply]
      exact of_none h.settings_eq rfl
    | ok reply =>
      obtain ⟨outcome, after, hcycles, -, hafter⟩ := cycle_of_reply hsession hreply
      rw [hafter]
      refine ⟨h.settings_eq, ?_⟩
      rintro _ ⟨⟩
      simp only [accept, hsession]
      exact hcycles.retains (h.retains session hsession)

theorem call (h : s.Keeps settings m accepted) {c : Call} (hc : c.command.drives = true) :
    (s.call c).2.Keeps settings m (s.accept m c accepted) := by
  obtain ⟨command, a⟩ := c
  cases command with
  | reconfigure binding => exact h.reconfigure binding a
  | cycle now => exact h.cycle now a
  | untilNextCycle | nextCycle | isActive | histories | interval => cases hc

theorem record (h : s.Keeps settings m accepted) {calls : List Call}
    (hcalls : ∀ c ∈ calls, c.command.drives = true) :
    (s.after calls).Keeps settings m (acceptedAfter m accepted (s.record calls)) := by
  induction calls generalizing s accepted with
  | nil => exact h
  | cons c calls ih =>
    refine ih (h.call (hcalls c List.mem_cons_self)) ?_
    exact fun c hc => hcalls c (List.mem_cons_of_mem _ hc)

end Keeps

theorem keeps_unbound (settings : Settings) (made : Instant) (m : Medium) :
    (unbound settings made).Keeps settings m [] := .of_none rfl rfl

/-! ## Two runs side by side -/

namespace Like

theorem accept_eq (h : s.Like capacityLikeness s') (m : Medium) (c : Call)
    (accepted : List Sample) : s.accept m c accepted = s'.accept m c accepted := by
  have hsession := h.sessions
  unfold accept
  generalize s.session? = session, s'.session? = session' at hsession
  rw [bindingOf_eq hsession]
  cases hsession with
  | none => rfl
  | some hsession => simp only [hsession.accept_eq m c.answers accepted]

theorem acceptedAfter_eq (h : s.Like capacityLikeness s') (m : Medium) {calls : List Call}
    (hcalls : ∀ c ∈ calls, c.command.drives = true) (accepted : List Sample) :
    acceptedAfter m accepted (s.record calls) = acceptedAfter m accepted (s'.record calls) := by
  induction calls generalizing s s' accepted with
  | nil => rfl
  | cons c calls ih =>
    have hnext := (h.call c (Or.inl (hcalls c List.mem_cons_self))).2
    have hrest := ih hnext fun c hc => hcalls c (List.mem_cons_of_mem _ hc)
    show acceptedAfter m (s.accept m c accepted) ((s.call c).2.record calls) =
      acceptedAfter m (s'.accept m c accepted) ((s'.call c).2.record calls)
    rw [h.accept_eq m c accepted]
    exact hrest _

end Like

theorem like_unbound_of_capacities (settings : Settings) (capacity capacity' : Nat)
    (made made' : Instant) :
    (unbound { settings with historyCapacity := capacity } made).Like capacityLikeness
      (unbound { settings with historyCapacity := capacity' } made') where
  interval_eq := rfl
  tuning_eq := rfl
  fresh _ := ⟨rfl, rfl, History.sameNewest_empty capacity capacity'⟩
  condition := .serving trivial .none

/-- How many samples are kept is not to be told from what a synchronizer asks and replies: two that
differ in that alone, and are bound and run alike, accept the same samples, and the history of each
holds the newest of them. So wherever the run is stopped, the shorter of the two histories of a
stream ends the longer one. -/
theorem capacity_leaves_no_trace (settings : Settings) (capacity capacity' : Nat)
    (made made' : Instant) (calls : List Call) (hcalls : ∀ c ∈ calls, c.command.drives = true) :
    let s := unbound { settings with historyCapacity := capacity } made
    let s' := unbound { settings with historyCapacity := capacity' } made'
    (s.record calls).map (·.turn.outward) = (s'.record calls).map (·.turn.outward) ∧
    ∀ m,
      let accepted := acceptedAfter m [] (s.record calls)
      acceptedAfter m [] (s'.record calls) = accepted ∧
      Option.Rel
        (fun h h' => h.Retains capacity accepted ∧ h'.Retains capacity' accepted ∧
          (h.size ≤ h'.size → h.toList <:+ h'.toList) ∧
          (h'.size ≤ h.size → h'.toList <:+ h.toList))
        ((s.after calls).history? m) ((s'.after calls).history? m) := by
  intro s s'
  have hlike : s.Like capacityLikeness s' :=
    like_unbound_of_capacities settings capacity capacity' made made'
  have hcall : calls.map capacityLikeness.call = calls := List.map_id calls
  obtain ⟨hrecord, hafter⟩ := hlike.record calls fun c hc => Or.inl (hcalls c hc)
  rw [hcall] at hrecord hafter
  refine ⟨hrecord, ?_⟩
  intro m accepted
  have haccepted : accepted = acceptedAfter m [] (s'.record calls) :=
    hlike.acceptedAfter_eq m hcalls []
  refine ⟨haccepted.symm, ?_⟩
  have hkeeps : (s.after calls).Keeps s.settings m accepted :=
    (keeps_unbound s.settings made m).record hcalls
  have hkeeps' : (s'.after calls).Keeps s'.settings m accepted := by
    rw [haccepted]
    exact (keeps_unbound s'.settings made' m).record hcalls
  have hsessions := hafter.sessions
  rw [history?_eq, history?_eq]
  generalize hleft : (s.after calls).session? = left, hright : (s'.after calls).session? = right
    at hsessions
  cases hsessions with
  | none => exact .none
  | @some session session' _ =>
    have hretains := hkeeps.retains session hleft
    have hretains' := hkeeps'.retains session' hright
    exact .some ⟨hretains, hretains', hretains.suffix hretains', hretains'.suffix hretains⟩

/-- Of four reports, a synchronizer that is to keep none holds the last two, and one that is to keep
five holds all of them. -/
theorem capacity_leaves_no_trace_of_four_reports :
    let calls : List Call := [⟨.reconfigure (.enabled .usual), .agreeable (.atSecond 1)⟩,
      ⟨.cycle ⟨1000⟩, .agreeable (.atSecond 1)⟩, ⟨.cycle ⟨2000⟩, .agreeable (.atSecond 2)⟩,
      ⟨.cycle ⟨3000⟩, .agreeable (.atSecond 3)⟩, ⟨.cycle ⟨4000⟩, .agreeable (.atSecond 4)⟩]
    let s := unbound { historyCapacity := 0 } ⟨0⟩
    let s' := unbound { historyCapacity := 5 } ⟨7⟩
    (∀ c ∈ calls, c.command.drives = true) ∧
      (s.record calls).map (·.turn.outward) = (s'.record calls).map (·.turn.outward) ∧
      ∃ h h', (s.after calls).history? .audio = some h ∧
        (s'.after calls).history? .audio = some h' ∧ h.size = 2 ∧ h'.size = 4 ∧
        h.toList <:+ h'.toList := by
  intro calls s s'
  have hcalls : ∀ c ∈ calls, c.command.drives = true := by decide
  obtain ⟨hrecord, hhistories⟩ := capacity_leaves_no_trace {} 0 5 ⟨0⟩ ⟨7⟩ calls hcalls
  have htwo : ((s.after calls).history? .audio).map History.size = some 2 := by decide +kernel
  have hfour : ((s'.after calls).history? .audio).map History.size = some 4 := by decide +kernel
  obtain ⟨h, hh, htwo⟩ := Option.map_eq_some_iff.mp htwo
  obtain ⟨h', hh', hfour⟩ := Option.map_eq_some_iff.mp hfour
  refine ⟨hcalls, hrecord, h, h', hh, hh', htwo, hfour, ?_⟩
  have hrel := (hhistories .audio).2
  change Option.Rel _ ((s.after calls).history? .audio) ((s'.after calls).history? .audio) at hrel
  rw [hh, hh'] at hrel
  cases hrel with
  | some hrel => exact hrel.2.2.1 (by rw [htwo, hfour]; decide)

end Synchronizer

end LipSync
