/-
# LipSync.Proofs.Pipeline.Coupling — two dialogues held side by side.

Two dialogues are coupled when, each held with its own answers, they make the same requests in the
same order, and break off for the same cause or end with related results. Notes are left out of the
comparison: they go to nobody who could answer. A coupling is put together the way dialogues are,
with one lemma for each way, and `Dialogue.Coupled.run` tells what it says of the two exchanges.
-/
import LipSync.Proofs.Pipeline.Order

namespace LipSync

/-- The same failure, or related values. -/
inductive Alike {ε α β : Type} (R : α → β → Prop) : Except ε α → Except ε β → Prop
  | ok {x : α} {y : β} (related : R x y) : Alike R (.ok x) (.ok y)
  | error (e : ε) : Alike R (.error e) (.error e)

theorem Alike.refl {ε α : Type} {R : α → α → Prop} (hR : ∀ x, R x x) (x : Except ε α) :
    Alike R x x := by
  cases x with
  | error e => exact .error e
  | ok x => exact .ok (hR x)

namespace Dialogue

variable {α β γ δ ε : Type} {a b : Answers}

/-- Under the answers `a` and `b` the two dialogues make the same requests, and break off alike or
end with results that `R` relates. -/
inductive Coupled (a b : Answers) (R : α → β → Prop) : Dialogue α → Dialogue β → Prop
  | done {x : α} {y : β} (related : R x y) : Coupled a b R (.done x) (.done y)
  | crash (cause : Crash) : Coupled a b R (.crash cause) (.crash cause)
  | answered {r : Request} {next : r.Answer → Dialogue α} {next' : r.Answer → Dialogue β}
      {x y : r.Answer} (left : a r = .ok x) (right : b r = .ok y)
      (rest : Coupled a b R (next x) (next' y)) : Coupled a b R (.ask r next) (.ask r next')
  | unanswered {r : Request} {next : r.Answer → Dialogue α} {next' : r.Answer → Dialogue β}
      {message : String} (left : a r = .error message) (right : b r = .error message) :
      Coupled a b R (.ask r next) (.ask r next')
  | noteLeft {entry : Note} {d : Dialogue α} {d' : Dialogue β} (rest : Coupled a b R d d') :
      Coupled a b R (.note entry d) d'
  | noteRight {entry : Note} {d : Dialogue α} {d' : Dialogue β} (rest : Coupled a b R d d') :
      Coupled a b R d (.note entry d')

variable {R : α → β → Prop} {S : γ → δ → Prop}

/-- What a coupling says: alike in how they end and in what they ask. -/
theorem Coupled.run {d : Dialogue α} {d' : Dialogue β} (h : Coupled a b R d d') :
    Alike R (d.run a.responder ()).result (d'.run b.responder ()).result ∧
      requests (d.run a.responder ()).events = requests (d'.run b.responder ()).events := by
  induction h with
  | done related => exact ⟨.ok related, rfl⟩
  | crash cause => exact ⟨.error cause, rfl⟩
  | @answered r next next' x y left right rest ih =>
    rw [run_ask left, run_ask right]
    exact ⟨ih.1, congrArg (List.cons r) ih.2⟩
  | @unanswered r next next' message left right =>
    simp only [Dialogue.run, Answers.responder, left, right]
    exact ⟨.error _, trivial⟩
  | noteLeft rest ih => exact ih
  | noteRight rest ih => exact ih

/-! ## Putting couplings together -/

theorem coupled_pure {x : α} {y : β} (h : R x y) : Coupled a b R (pure x) (pure y) := .done h

theorem Coupled.bind {d : Dialogue α} {d' : Dialogue β} (h : Coupled a b R d d')
    {f : α → Dialogue γ} {f' : β → Dialogue δ}
    (hf : ∀ x y, R x y → Coupled a b S (f x) (f' y)) : Coupled a b S (d >>= f) (d' >>= f') := by
  show Coupled a b S (d.bind f) (d'.bind f')
  induction h with
  | done related => exact hf _ _ related
  | crash cause => exact .crash cause
  | answered left right rest ih => exact .answered left right ih
  | unanswered left right => exact .unanswered left right
  | noteLeft rest ih => exact .noteLeft ih
  | noteRight rest ih => exact .noteRight ih

theorem coupled_request {r : Request} {Q : r.Answer → r.Answer → Prop}
    (h : Alike Q (a r) (b r)) : Coupled a b Q (request r) (request r) := by
  generalize hleft : a r = left at h
  generalize hright : b r = right at h
  cases h with
  | ok related => exact .answered hleft hright (.done related)
  | error message => exact .unanswered hleft hright

/-- A request that has the same answer under both. -/
theorem coupled_request_of_eq {r : Request} (h : b r = a r) :
    Coupled a b Eq (request r) (request r) := by
  apply coupled_request
  rw [h]
  exact Alike.refl (fun _ => rfl) _

theorem coupled_notes {entries entries' : List Note} :
    Coupled a b Eq (notes entries) (notes entries') := by
  have hleft : Coupled a b Eq (notes entries) (Dialogue.done ()) := by
    induction entries with
    | nil => exact .done rfl
    | cons entry entries ih => exact .noteLeft ih
  induction entries' with
  | nil => exact hleft
  | cons entry entries ih => exact .noteRight ih

/-- Under the same answers a dialogue is coupled to itself. -/
theorem coupled_self (a : Answers) (d : Dialogue α) : Coupled a a Eq d d := by
  induction d with
  | done x => exact .done rfl
  | crash cause => exact .crash cause
  | ask r next ih =>
    cases hanswer : a r with
    | error message => exact .unanswered hanswer hanswer
    | ok answer => exact .answered hanswer hanswer (ih answer)
  | note entry next ih => exact .noteLeft (.noteRight ih)

/-! ## Dialogues that can fail -/

variable {m : ExceptT ε Dialogue α} {m' : ExceptT ε Dialogue β}

theorem Coupled.run_bind (h : Coupled a b (Alike R) m.run m'.run) {f : α → ExceptT ε Dialogue γ}
    {f' : β → ExceptT ε Dialogue δ}
    (hf : ∀ x y, R x y → Coupled a b (Alike S) (f x).run (f' y).run) :
    Coupled a b (Alike S) (m >>= f).run (m' >>= f').run := by
  refine Coupled.bind h ?_
  rintro _ _ (related | e)
  · exact hf _ _ related
  · exact coupled_pure (.error e)

theorem Coupled.run_lift_bind {d : Dialogue α} {d' : Dialogue β} (h : Coupled a b R d d')
    {f : α → ExceptT ε Dialogue γ} {f' : β → ExceptT ε Dialogue δ}
    (hf : ∀ x y, R x y → Coupled a b (Alike S) (f x).run (f' y).run) :
    Coupled a b (Alike S) (liftM d >>= f).run (liftM d' >>= f').run := by
  refine Coupled.run_bind (R := R) ?_ hf
  show Coupled a b (Alike R) (d >>= fun x => pure (Except.ok x))
    (d' >>= fun x => pure (Except.ok x))
  exact h.bind fun x y related => coupled_pure (.ok related)

theorem coupled_run_except_bind {x : Except ε α} {y : Except ε β} (h : Alike R x y)
    {f : α → ExceptT ε Dialogue γ} {f' : β → ExceptT ε Dialogue δ}
    (hf : ∀ x y, R x y → Coupled a b (Alike S) (f x).run (f' y).run) :
    Coupled a b (Alike S) (liftM x >>= f).run (liftM y >>= f').run := by
  cases h with
  | ok related => exact hf _ _ related
  | error e => exact coupled_pure (.error e)

end Dialogue

end LipSync
