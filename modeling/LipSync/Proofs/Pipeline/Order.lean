/-
# LipSync.Proofs.Pipeline.Order — dialogues that ask each request at most once.

A cycle makes its requests in one fixed order, and leaves some of them out. A dialogue that keeps to
the order (`Dialogue.Orderly`) never makes the same request twice. So whatever party it is held
with, and whatever that party remembers, its answers could have been given beforehand
(`Dialogue.Orderly.exists_answers`): `Answers` leave nothing out. An orderly dialogue does not break
off by itself either, and ends if every request gets an answer.
-/
import LipSync.Proofs.Pipeline.Answers
import Mathlib.Logic.Function.Basic

namespace LipSync

/-- The place of a stream's first reading in the order of requests. -/
@[simp] def Medium.place : Medium → Nat
  | video => 3
  | audio => 6

/-- The place of a request in the order in which a cycle makes them. -/
@[simp] def Request.place : Request → Nat
  | videoDelay => 0
  | delayEstimate _ _ => 1
  | rtpHandles _ _ => 2
  | mediaTime medium _ => medium.place
  | arrivalTime medium _ => medium.place + 1
  | report medium _ => medium.place + 2
  | holdAudio _ _ _ => 9
  | holdVideo _ => 10

namespace Dialogue

variable {α β ε σ : Type} {low mid high : Nat}

/-- The dialogue makes its requests in their order, at places from `low` up to but not including
`high`, and does not break off by itself. -/
def Orderly (d : Dialogue α) (low high : Nat) : Prop :=
  match d with
  | done _ => low ≤ high
  | crash _ => False
  | ask r next =>
    low ≤ r.place ∧ r.place < high ∧ ∀ answer, (next answer).Orderly (r.place + 1) high
  | note _ next => next.Orderly low high

/-! ## Building orderly dialogues -/

theorem orderly_pure {x : α} (h : low ≤ high) : (pure x : Dialogue α).Orderly low high := h

theorem orderly_request {r : Request} (hlow : low ≤ r.place) (hhigh : r.place < high) :
    (request r).Orderly low high :=
  ⟨hlow, hhigh, fun _ => orderly_pure hhigh⟩

theorem orderly_request_bind {r : Request} {f : r.Answer → Dialogue β} (hlow : low ≤ r.place)
    (hhigh : r.place < high) (hf : ∀ answer, (f answer).Orderly (r.place + 1) high) :
    (request r >>= f).Orderly low high :=
  ⟨hlow, hhigh, hf⟩

theorem orderly_notes {entries : List Note} (h : low ≤ high) :
    (notes entries).Orderly low high := by
  induction entries with
  | nil => exact h
  | cons entry entries ih => exact ih

theorem Orderly.mono {d : Dialogue α} (h : d.Orderly mid high) (hle : low ≤ mid) :
    d.Orderly low high := by
  induction d with
  | done result => exact Nat.le_trans hle h
  | crash cause => exact h
  | ask r next ih =>
    obtain ⟨hmid, hhigh, hnext⟩ := h
    exact ⟨Nat.le_trans hle hmid, hhigh, hnext⟩
  | note entry next ih => exact ih h

theorem Orderly.bind {d : Dialogue α} {f : α → Dialogue β} (hd : d.Orderly low mid)
    (hle : mid ≤ high) (hf : ∀ x, (f x).Orderly mid high) : (d >>= f).Orderly low high := by
  show (d.bind f).Orderly low high
  induction d generalizing low with
  | done result => exact (hf result).mono hd
  | crash cause => exact hd
  | ask r next ih =>
    obtain ⟨hlow, hmid, hnext⟩ := hd
    refine ⟨hlow, Nat.lt_of_lt_of_le hmid hle, ?_⟩
    intro answer
    exact ih answer (hnext answer)
  | note entry next ih => exact ih hd

theorem Orderly.run_bind {m : ExceptT ε Dialogue α} {f : α → ExceptT ε Dialogue β}
    (hm : m.run.Orderly low mid) (hle : mid ≤ high) (hf : ∀ x, (f x).run.Orderly mid high) :
    (m >>= f).run.Orderly low high := by
  refine Orderly.bind hm hle ?_
  rintro (e | x)
  · exact orderly_pure hle
  · exact hf x

theorem Orderly.run_lift_bind {d : Dialogue α} {f : α → ExceptT ε Dialogue β}
    (hd : d.Orderly low mid) (hle : mid ≤ high) (hf : ∀ x, (f x).run.Orderly mid high) :
    (liftM d >>= f).run.Orderly low high := by
  refine Orderly.run_bind ?_ hle hf
  show (d >>= fun x => pure (Except.ok x)).Orderly low mid
  exact hd.bind (Nat.le_refl _) fun x => orderly_pure (Nat.le_refl _)

theorem orderly_run_request_bind {r : Request} {f : r.Answer → ExceptT ε Dialogue β}
    (hlow : low ≤ r.place) (hhigh : r.place < high)
    (hf : ∀ answer, (f answer).run.Orderly (r.place + 1) high) :
    (liftM (request r) >>= f).run.Orderly low high :=
  (orderly_request hlow (Nat.lt_succ_self _)).run_lift_bind hhigh hf

theorem orderly_run_except_bind {x : Except ε α} {f : α → ExceptT ε Dialogue β} (hle : low ≤ high)
    (hf : ∀ v, (f v).run.Orderly low high) : (liftM x >>= f).run.Orderly low high := by
  cases x with
  | error e => exact orderly_pure hle
  | ok v => exact hf v

/-! ## Answers given beforehand -/

/-- A request that is answered is put before whatever follows the answer. -/
theorem run_ask {a : Answers} {r : Request} {answer : r.Answer} (h : a r = .ok answer)
    (next : r.Answer → Dialogue α) :
    (ask r next).run a.responder () = ((next answer).run a.responder ()).cons (.asked r) := by
  simp only [run, Answers.responder, h]

/-- An answer to a request whose place is past makes no difference. -/
theorem Orderly.run_update {d : Dialogue α} (h : d.Orderly low high) {r : Request}
    (hpast : r.place < low) (a : Answers) (answer : Except String r.Answer) :
    d.run (Answers.responder (Function.update a r answer)) () = d.run a.responder () := by
  induction d generalizing low with
  | done result => rfl
  | crash cause => rfl
  | ask q next ih =>
    obtain ⟨hlow, -, hnext⟩ := h
    have hne : q ≠ r := by
      rintro rfl
      omega
    cases hgiven : a q with
    | error message => simp only [run, Answers.responder, Function.update_of_ne hne, hgiven]
    | ok given =>
      have hupdated : Function.update a r answer q = .ok given := by
        rw [Function.update_of_ne hne, hgiven]
      rw [run_ask hupdated, run_ask hgiven, ih given (hnext given) (by omega)]
  | note entry next ih =>
    have hrest := ih h hpast
    exact congrArg (Exchange.cons _) hrest

/-- Whoever an orderly dialogue is held with, the answers could have been given beforehand. -/
theorem Orderly.exists_answers {d : Dialogue α} (h : d.Orderly low high) (respond : Responder σ)
    (world : σ) :
    ∃ a : Answers, (d.run respond world).result = (d.run a.responder ()).result ∧
      (d.run respond world).events = (d.run a.responder ()).events := by
  induction d generalizing low world with
  | done result => exact ⟨fun _ => .error "", rfl, rfl⟩
  | crash cause => exact ⟨fun _ => .error "", rfl, rfl⟩
  | ask r next ih =>
    obtain ⟨-, -, hnext⟩ := h
    cases hanswer : respond r world with
    | mk answer world' =>
      cases answer with
      | error message =>
        refine ⟨fun _ => .error message, ?_⟩
        simp only [run, Answers.responder, hanswer, and_self]
      | ok answer =>
        obtain ⟨a, hresult, hevents⟩ := ih answer (hnext answer) world'
        -- the rest does not ask `r` again, so `a` may answer it as it was answered here
        refine ⟨Function.update a r (.ok answer), ?_⟩
        rw [run_ask (Function.update_self ..), (hnext answer).run_update (Nat.lt_succ_self _)]
        simp only [run, hanswer, Exchange.cons, hresult, hevents, and_self]
  | note entry next ih =>
    obtain ⟨a, hresult, hevents⟩ := ih h world
    exact ⟨a, hresult, congrArg (List.cons _) hevents⟩

/-- An orderly dialogue whose requests are all answered ends. -/
theorem Orderly.yields {d : Dialogue α} (h : d.Orderly low high) {a : Answers}
    (hanswered : ∀ r ∈ requests (d.run a.responder ()).events, ∃ answer, a r = .ok answer) :
    ∃ x, Yields a d x (d.run a.responder ()).events := by
  induction d generalizing low with
  | done result => exact ⟨result, rfl, rfl⟩
  | crash cause => exact absurd h not_false
  | ask r next ih =>
    obtain ⟨-, -, hnext⟩ := h
    have hasked : ∃ answer, a r = .ok answer := by
      apply hanswered
      simp only [run, Answers.responder]
      cases a r <;> exact List.mem_cons_self
    obtain ⟨answer, hanswer⟩ := hasked
    rw [run_ask hanswer] at hanswered ⊢
    obtain ⟨x, hx⟩ := ih answer (hnext answer) fun q hq =>
      hanswered q (List.mem_cons_of_mem _ hq)
    exact ⟨x, yields_ask.mpr ⟨answer, _, hanswer, hx, rfl⟩⟩
  | note entry next ih =>
    obtain ⟨x, hx⟩ := ih h hanswered
    exact ⟨x, yields_note.mpr ⟨_, hx, rfl⟩⟩

/-- An orderly dialogue breaks off only where a request gets no answer. -/
theorem Orderly.unanswered {d : Dialogue α} (h : d.Orderly low high) {a : Answers} {cause : Crash}
    (hcrash : (d.run a.responder ()).result = .error cause) :
    ∃ message, cause = .unanswered message := by
  induction d generalizing low with
  | done result => cases hcrash
  | crash cause => exact absurd h not_false
  | ask r next ih =>
    obtain ⟨-, -, hnext⟩ := h
    cases hanswer : a r with
    | error message =>
      simp only [run, Answers.responder, hanswer] at hcrash
      cases hcrash
      exact ⟨message, rfl⟩
    | ok answer =>
      rw [run_ask hanswer] at hcrash
      exact ih answer (hnext answer) hcrash
  | note entry next ih => exact ih h hcrash

/-- It breaks off exactly when the request that it made last got no answer. -/
theorem Orderly.unanswered_iff {d : Dialogue α} (h : d.Orderly low high) {a : Answers}
    {message : String} :
    (d.run a.responder ()).result = .error (.unanswered message) ↔
      ∃ r, (requests (d.run a.responder ()).events).getLast? = some r ∧ a r = .error message := by
  induction d generalizing low with
  | done result =>
    constructor
    · intro hresult
      cases hresult
    · rintro ⟨r, hlast, -⟩
      cases hlast
  | crash cause => exact absurd h not_false
  | ask q next ih =>
    obtain ⟨-, -, hnext⟩ := h
    cases hanswer : a q with
    | error message' =>
      simp only [run, Answers.responder, hanswer]
      constructor
      · intro hresult
        cases hresult
        exact ⟨q, rfl, hanswer⟩
      · rintro ⟨r, hlast, hr⟩
        obtain rfl : q = r := Option.some.inj hlast
        rw [hanswer] at hr
        rw [Except.error.inj hr]
    | ok answer =>
      rw [run_ask hanswer]
      show ((next answer).run a.responder ()).result = _ ↔
        ∃ r, (q :: requests ((next answer).run a.responder ()).events).getLast? = some r ∧ _
      rw [ih answer (hnext answer), List.getLast?_cons]
      cases (requests ((next answer).run a.responder ()).events).getLast? with
      | some last => exact Iff.rfl
      | none =>
        -- nothing was asked after `q`, which did get an answer
        constructor
        · rintro ⟨r, hlast, -⟩
          cases hlast
        · rintro ⟨r, hlast, hr⟩
          obtain rfl : q = r := Option.some.inj hlast
          rw [hanswer] at hr
          cases hr
  | note entry next ih => exact ih h

end Dialogue

end LipSync
