/-
# LipSync.Proofs.Pipeline.Answers — dialogues whose answers are given beforehand.

`Answers` fixes what the pipelines answer to each request during one call, so that a call has one
outcome and two calls can be given the same answers. `Dialogue.Yields` says that a dialogue ends
with a result under such answers and what happens on the way; it is taken apart by one lemma for
each way of building a dialogue, and no later proof runs a dialogue itself.
-/
import LipSync.Pipeline.Dialogue

namespace LipSync

/-- The answer to each request during one call, or the message of a pipeline that breaks off. -/
abbrev Answers := (request : Request) → Except String request.Answer

/-- The party that gives these answers, and remembers nothing. -/
def Answers.responder (a : Answers) : Responder Unit := fun request world => (a request, world)

/-! ## What was asked -/

/-- The request of an event, if it is one. -/
def Event.request? : Event → Option Request
  | asked request => some request
  | noted _ => none

/-- A request that moves a pipeline. -/
def Request.isSetter : Request → Bool
  | holdVideo _ | holdAudio _ _ _ => true
  | _ => false

/-- The requests among some events, in order. -/
def requests (events : List Event) : List Request := events.filterMap Event.request?

/-- The requests among some events that move a pipeline, in order. -/
def setters (events : List Event) : List Request := (requests events).filter Request.isSetter

@[simp] theorem setters_nil : setters [] = [] := rfl

@[simp] theorem setters_append (e₁ e₂ : List Event) :
    setters (e₁ ++ e₂) = setters e₁ ++ setters e₂ := by
  simp only [setters, requests, List.filterMap_append, List.filter_append]

@[simp] theorem setters_noted (entries : List Note) : setters (entries.map .noted) = [] := by
  induction entries with
  | nil => rfl
  | cons entry entries ih => exact ih

@[simp] theorem setters_asked_cons (r : Request) (events : List Event) :
    setters (.asked r :: events) = if r.isSetter then r :: setters events else setters events :=
  List.filter_cons

/-! ## Ending with a result -/

namespace Dialogue

variable {α β ε : Type} {a : Answers}

/-- Under the answers `a` the dialogue ends with `x`, and `events` are what happens on the way. -/
def Yields (a : Answers) (d : Dialogue α) (x : α) (events : List Event) : Prop :=
  (d.run a.responder ()).result = .ok x ∧ (d.run a.responder ()).events = events

@[simp] theorem yields_pure {v x : α} {events : List Event} :
    Yields a (pure v) x events ↔ v = x ∧ events = [] := by
  show Except.ok v = Except.ok x ∧ [] = events ↔ _
  simp [eq_comm]

theorem yields_ask {r : Request} {next : r.Answer → Dialogue α} {x : α} {events : List Event} :
    Yields a (ask r next) x events ↔
      ∃ answer rest, a r = .ok answer ∧ Yields a (next answer) x rest ∧
        events = .asked r :: rest := by
  unfold Yields
  simp only [run, Answers.responder]
  cases h : a r with
  | error message => simp
  | ok answer =>
    simp only [Exchange.cons]
    constructor
    · rintro ⟨hresult, hevents⟩
      exact ⟨answer, _, rfl, ⟨hresult, rfl⟩, hevents.symm⟩
    · rintro ⟨answer', rest, hanswer, ⟨hresult, hrest⟩, rfl⟩
      cases hanswer
      exact ⟨hresult, by rw [hrest]⟩

theorem yields_note {entry : Note} {next : Dialogue α} {x : α} {events : List Event} :
    Yields a (note entry next) x events ↔
      ∃ rest, Yields a next x rest ∧ events = .noted entry :: rest := by
  unfold Yields
  simp only [run, Exchange.cons]
  constructor
  · rintro ⟨hresult, hevents⟩
    exact ⟨_, ⟨hresult, rfl⟩, hevents.symm⟩
  · rintro ⟨rest, ⟨hresult, hrest⟩, rfl⟩
    exact ⟨hresult, by rw [hrest]⟩

theorem not_yields_crash {cause : Crash} {x : α} {events : List Event} :
    ¬Yields a (crash cause) x events := by
  rintro ⟨hresult, -⟩
  cases hresult

/-- A dialogue in two parts yields what the second part does after the first. -/
theorem yields_bind {d : Dialogue α} {f : α → Dialogue β} {y : β} {events : List Event} :
    Yields a (d >>= f) y events ↔
      ∃ x e₁ e₂, Yields a d x e₁ ∧ Yields a (f x) y e₂ ∧ events = e₁ ++ e₂ := by
  show Yields a (d.bind f) y events ↔ _
  induction d generalizing events with
  | done result =>
    constructor
    · intro h
      exact ⟨result, [], events, yields_pure.mpr ⟨rfl, rfl⟩, h, rfl⟩
    · rintro ⟨x, e₁, e₂, hd, hf, rfl⟩
      obtain ⟨rfl, rfl⟩ := yields_pure.mp hd
      exact hf
  | crash cause =>
    constructor
    · intro h
      exact absurd h not_yields_crash
    · rintro ⟨x, e₁, e₂, hd, -, -⟩
      exact absurd hd not_yields_crash
  | ask request next ih =>
    simp only [bind, yields_ask]
    constructor
    · rintro ⟨answer, rest, hanswer, hrest, rfl⟩
      obtain ⟨x, e₁, e₂, hd, hf, rfl⟩ := (ih answer).mp hrest
      exact ⟨x, _, e₂, ⟨answer, e₁, hanswer, hd, rfl⟩, hf, rfl⟩
    · rintro ⟨x, _, e₂, ⟨answer, e₁, hanswer, hd, rfl⟩, hf, rfl⟩
      exact ⟨answer, _, hanswer, (ih answer).mpr ⟨x, e₁, e₂, hd, hf, rfl⟩, rfl⟩
  | note entry next ih =>
    simp only [bind, yields_note]
    constructor
    · rintro ⟨rest, hrest, rfl⟩
      obtain ⟨x, e₁, e₂, hd, hf, rfl⟩ := ih.mp hrest
      exact ⟨x, _, e₂, ⟨e₁, hd, rfl⟩, hf, rfl⟩
    · rintro ⟨x, _, e₂, ⟨e₁, hd, rfl⟩, hf, rfl⟩
      exact ⟨_, ih.mpr ⟨x, e₁, e₂, hd, hf, rfl⟩, rfl⟩

@[simp] theorem yields_request {r : Request} {x : r.Answer} {events : List Event} :
    Yields a (request r) x events ↔ a r = .ok x ∧ events = [.asked r] := by
  unfold request
  rw [yields_ask]
  constructor
  · rintro ⟨answer, rest, hanswer, hrest, rfl⟩
    obtain ⟨rfl, rfl⟩ := yields_pure.mp hrest
    exact ⟨hanswer, rfl⟩
  · rintro ⟨hanswer, rfl⟩
    exact ⟨x, [], hanswer, yields_pure.mpr ⟨rfl, rfl⟩, rfl⟩

theorem yields_request_bind {q : Request} {f : q.Answer → Dialogue β} {y : β}
    {events : List Event} :
    Yields a (request q >>= f) y events ↔
      ∃ answer rest, a q = .ok answer ∧ Yields a (f answer) y rest ∧ events = .asked q :: rest :=
  yields_ask

@[simp] theorem yields_notes {entries : List Note} {x : Unit} {events : List Event} :
    Yields a (notes entries) x events ↔ events = entries.map .noted := by
  induction entries generalizing events with
  | nil => exact yields_pure.trans (by simp)
  | cons entry entries ih =>
    show Yields a (note entry (notes entries)) x events ↔ _
    simp only [yields_note, ih, List.map_cons]
    constructor
    · rintro ⟨rest, rfl, rfl⟩
      rfl
    · rintro rfl
      exact ⟨_, rfl, rfl⟩

/-! ## Dialogues that can fail -/

variable {m : ExceptT ε Dialogue α} {r : Except ε β}

theorem yields_run_bind {f : α → ExceptT ε Dialogue β} {events : List Event} :
    Yields a (m >>= f).run r events ↔
      (∃ e, r = .error e ∧ Yields a m.run (.error e) events) ∨
      ∃ x e₁ e₂, Yields a m.run (.ok x) e₁ ∧ Yields a (f x).run r e₂ ∧ events = e₁ ++ e₂ := by
  show Yields a (m.run >>= ExceptT.bindCont f) r events ↔ _
  rw [yields_bind]
  constructor
  · rintro ⟨x | x, e₁, e₂, hm, hf, rfl⟩
    · obtain ⟨rfl, rfl⟩ := yields_pure.mp hf
      rw [List.append_nil]
      exact Or.inl ⟨x, rfl, hm⟩
    · exact Or.inr ⟨x, e₁, e₂, hm, hf, rfl⟩
  · rintro (⟨e, rfl, hm⟩ | ⟨x, e₁, e₂, hm, hf, rfl⟩)
    · exact ⟨_, events, [], hm, yields_pure.mpr ⟨rfl, rfl⟩, (List.append_nil _).symm⟩
    · exact ⟨_, e₁, e₂, hm, hf, rfl⟩

@[simp] theorem yields_run_pure {x : β} {events : List Event} :
    Yields a (pure x : ExceptT ε Dialogue β).run r events ↔ .ok x = r ∧ events = [] :=
  yields_pure

@[simp] theorem yields_run_throw {e : ε} {events : List Event} :
    Yields a (throw e : ExceptT ε Dialogue β).run r events ↔ .error e = r ∧ events = [] :=
  yields_pure

/-- An activity that cannot fail, on the way in one that can. -/
theorem yields_run_lift_bind {d : Dialogue α} {f : α → ExceptT ε Dialogue β}
    {events : List Event} :
    Yields a (liftM d >>= f).run r events ↔
      ∃ x e₁ e₂, Yields a d x e₁ ∧ Yields a (f x).run r e₂ ∧ events = e₁ ++ e₂ := by
  show Yields a ((d >>= fun x => pure (.ok x)) >>= ExceptT.bindCont f) r events ↔ _
  rw [yields_bind]
  constructor
  · rintro ⟨y, e, e₂, hlift, hf, rfl⟩
    obtain ⟨x, e₁, _, hd, hp, rfl⟩ := yields_bind.mp hlift
    obtain ⟨rfl, rfl⟩ := yields_pure.mp hp
    exact ⟨x, e₁, e₂, hd, hf, by rw [List.append_nil]⟩
  · rintro ⟨x, e₁, e₂, hd, hf, rfl⟩
    refine ⟨.ok x, e₁, e₂, yields_bind.mpr ⟨x, e₁, [], hd, ?_, ?_⟩, hf, rfl⟩
    · exact yields_pure.mpr ⟨rfl, rfl⟩
    · exact (List.append_nil e₁).symm

theorem yields_run_request_bind {q : Request} {f : q.Answer → ExceptT ε Dialogue β}
    {events : List Event} :
    Yields a (liftM (request q) >>= f).run r events ↔
      ∃ answer rest, a q = .ok answer ∧ Yields a (f answer).run r rest ∧
        events = .asked q :: rest := by
  rw [yields_run_lift_bind]
  constructor
  · rintro ⟨x, e₁, e₂, hq, hf, rfl⟩
    obtain ⟨hanswer, rfl⟩ := yields_request.mp hq
    exact ⟨x, e₂, hanswer, hf, rfl⟩
  · rintro ⟨answer, rest, hanswer, hf, rfl⟩
    exact ⟨answer, [.asked q], rest, yields_request.mpr ⟨hanswer, rfl⟩, hf, rfl⟩

@[simp] theorem yields_run_except {x : Except ε β} {events : List Event} :
    Yields a (liftM x : ExceptT ε Dialogue β).run r events ↔ x = r ∧ events = [] :=
  yields_pure

/-- A computation that asks nothing, on the way in an activity that can fail. -/
theorem yields_run_except_bind {x : Except ε α} {f : α → ExceptT ε Dialogue β}
    {events : List Event} :
    Yields a (liftM x >>= f).run r events ↔
      (∃ e, x = .error e ∧ .error e = r ∧ events = []) ∨
      ∃ v, x = .ok v ∧ Yields a (f v).run r events := by
  cases x with
  | error e => exact yields_pure.trans (by simp)
  | ok v =>
    show Yields a (f v).run r events ↔ _
    simp

end Dialogue

end LipSync
