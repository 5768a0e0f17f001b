/-
# LipSync.Proofs.Clock.Restart — which stale sample restarts a history.

A sender repeats its newest report until it has another one, and reports overtake each other on the
way. So of the samples that do not advance the newest one only some count: not those that equal it,
and not those that equal the one counted last (`History.distinctStale`). What a history remembers of
them is how many there are and which is the last, and nothing else of it changes
(`History.after_offers`). The third one restarts the history and is then its only sample, so that
nothing can be measured until the next report.

Samples are compared as their readings are. The two zeros of the wall clock are one reading, and a
wall clock that is not a number equals nothing, so that each sample with one counts.
-/
import LipSync.Proofs.Clock.Growth
import Mathlib.Data.List.Destutter

namespace LipSync

/-! ## Lists without repetitions in a row -/

section Destutter

variable {α : Type} {R : α → α → Prop} [DecidableRel R] {l : List α} {a last : α}

/-- One more member at the end is kept if it is related to the last one that was. -/
theorem destutter'_concat (hlast : (l.destutter' R a).getLast? = some last) (b : α) :
    (l ++ [b]).destutter' R a =
      if R last b then l.destutter' R a ++ [b] else l.destutter' R a := by
  induction l generalizing a with
  | nil =>
    obtain rfl : a = last := Option.some.inj hlast
    exact List.destutter'_singleton R
  | cons c l ih =>
    rw [List.cons_append]
    by_cases hkept : R a c
    · rw [List.destutter'_cons_pos _ hkept] at hlast ⊢
      rw [List.destutter'_cons_pos _ hkept]
      have hne : l.destutter' R c ≠ [] := List.destutter'_ne_nil l R
      rw [List.getLast?_cons_of_ne_nil hne] at hlast
      rw [ih hlast]
      split <;> rfl
    · rw [List.destutter'_cons_neg _ hkept] at hlast ⊢
      rw [List.destutter'_cons_neg _ hkept]
      exact ih hlast

theorem destutter_concat (hlast : (l.destutter R).getLast? = some last) (b : α) :
    (l ++ [b]).destutter R = if R last b then l.destutter R ++ [b] else l.destutter R := by
  cases l with
  | nil => cases hlast
  | cons a l => exact destutter'_concat hlast b

end Destutter

/-- The samples are not equal. -/
def Sample.Differs (s t : Sample) : Prop := (s == t) = false

instance : DecidableRel Sample.Differs := fun s t => inferInstanceAs (Decidable ((s == t) = false))

namespace History

/-- What counts of some samples that do not advance `latest`: those that equal it are left out, and
of equal ones in a row there is only the first. -/
def distinctStale (latest : Sample) (ss : List Sample) : List Sample :=
  (ss.filter fun s => !(s == latest)).destutter Sample.Differs

/-- The history as it is once these stale samples have been counted. -/
def pending (h : History) (counted : List Sample) : History :=
  { h with lastStale := counted.getLast?, staleCount := counted.length }

variable {requested : Nat} {h : History} {latest s : Sample} {ss : List Sample}

/-! ## Counting one more -/

/-- What the history remembers is not counted again. -/
theorem distinctStale_of_repeats (held : h.latest? = some latest)
    (repeats : (h.pending (distinctStale latest ss)).Repeats s) :
    distinctStale latest (ss ++ [s]) = distinctStale latest ss := by
  unfold distinctStale
  rw [List.filter_append]
  by_cases hlatest : (s == latest) = true
  · rw [List.filter_cons_of_neg (by simp [hlatest]), List.filter_nil, List.append_nil]
  · rw [List.filter_cons_of_pos (by simpa using hlatest), List.filter_nil]
    rcases repeats with ⟨latest', held', heq⟩ | ⟨stale, hstale, heq⟩
    · obtain rfl : latest = latest' := Option.some.inj (held.symm.trans held')
      exact absurd heq hlatest
    · rw [destutter_concat hstale, if_neg]
      intro hdiffers
      rw [Sample.Differs, heq] at hdiffers
      cases hdiffers

/-- Anything else is. -/
theorem distinctStale_of_not_repeats (held : h.latest? = some latest)
    (distinct : ¬(h.pending (distinctStale latest ss)).Repeats s) :
    distinctStale latest (ss ++ [s]) = distinctStale latest ss ++ [s] := by
  have hlatest : (s == latest) = false := by
    apply Bool.eq_false_iff.mpr
    intro heq
    exact distinct (Or.inl ⟨latest, held, heq⟩)
  have hkept : distinctStale latest (ss ++ [s]) =
      ((ss.filter fun s => !(s == latest)) ++ [s]).destutter Sample.Differs := by
    unfold distinctStale
    rw [List.filter_append, List.filter_cons_of_pos (by simp [hlatest]), List.filter_nil]
  rw [hkept]
  cases hlast : (distinctStale latest ss).getLast? with
  | none =>
    -- nothing has been counted yet, so this is the first
    have hnone : distinctStale latest ss = [] := List.getLast?_eq_none_iff.mp hlast
    rw [hnone, (List.destutter_eq_nil _).mp hnone]
    exact List.destutter_singleton _
  | some stale =>
    have hdiffers : Sample.Differs stale s := by
      apply Bool.eq_false_iff.mpr
      intro heq
      exact distinct (Or.inr ⟨stale, hlast, heq⟩)
    rw [destutter_concat hlast, if_pos hdiffers]
    rfl

/-- What has been counted stays counted. -/
theorem length_distinctStale_le (held : h.latest? = some latest) (ss : List Sample) (s : Sample) :
    (distinctStale latest ss).length ≤ (distinctStale latest (ss ++ [s])).length := by
  by_cases hrepeats : (h.pending (distinctStale latest ss)).Repeats s
  · rw [distinctStale_of_repeats held hrepeats]
  · rw [distinctStale_of_not_repeats held hrepeats, List.length_append]
    exact Nat.le_add_right _ _

/-- The samples counted are among those offered, in the same order: each was offered when the ones
before it had been counted. -/
theorem exists_of_distinctStale (held : h.latest? = some latest) (counted : List Sample)
    {more : List Sample} {r : Sample} (hcounted : distinctStale latest ss = counted ++ r :: more) :
    ∃ seen rest, ss = seen ++ r :: rest ∧ distinctStale latest seen = counted ∧
      distinctStale latest (seen ++ [r]) = counted ++ [r] := by
  induction ss using List.reverseRecOn generalizing more with
  | nil =>
    have hnil : [] = counted ++ r :: more := hcounted
    simp at hnil
  | append_singleton ss s ih =>
    by_cases hrepeats : (h.pending (distinctStale latest ss)).Repeats s
    · rw [distinctStale_of_repeats held hrepeats] at hcounted
      obtain ⟨seen, rest, rfl, hseen⟩ := ih hcounted
      exact ⟨seen, rest ++ [s], by simp, hseen⟩
    · have hmore := distinctStale_of_not_repeats held hrepeats
      rw [hmore] at hcounted
      rcases List.eq_nil_or_concat more with rfl | ⟨fewer, last, rfl⟩
      · -- `s` is the one that was counted last
        obtain ⟨hseen, hlast⟩ := List.append_inj' hcounted rfl
        obtain rfl : s = r := List.head_eq_of_cons_eq hlast
        exact ⟨ss, [], rfl, hseen, hseen ▸ hmore⟩
      · rw [List.concat_eq_append, ← List.cons_append, ← List.append_assoc] at hcounted
        obtain ⟨hfewer, -⟩ := List.append_inj' hcounted rfl
        obtain ⟨seen, rest, rfl, hseen⟩ := ih hfewer
        exact ⟨seen, rest ++ [s], by simp, hseen⟩

/-! ## What is remembered of them -/

/-- One more stale sample is known already, or counted, or it is the one that restarts the
history. -/
theorem takes_pending (held : h.latest? = some latest) (behind : s.advances latest = false)
    (ss : List Sample) :
    let counted := distinctStale latest ss
    let counted' := distinctStale latest (ss ++ [s])
    let taken := (h.pending counted).update s
    (counted' = counted ∧ taken = (.known, h.pending counted')) ∨
      (counted' = counted ++ [s] ∧ counted'.length < maxStale ∧
        taken = (.stale, h.pending counted')) ∨
      (counted' = counted ++ [s] ∧ maxStale ≤ counted'.length ∧
        taken = (.restarted, h.clear.append s)) := by
  intro counted counted' taken
  have htakes := (h.pending counted).takes_update s
  generalize huptake : ((h.pending counted).update s).1 = uptake at htakes
  generalize hnext : ((h.pending counted).update s).2 = next at htakes
  cases htakes with
  | appended ahead =>
    have hadvances := ahead latest held
    rw [behind] at hadvances
    cases hadvances
  | known held' behind' repeats =>
    have hsame : counted' = counted := distinctStale_of_repeats held repeats
    refine Or.inl ⟨hsame, ?_⟩
    rw [hsame]
    exact Prod.ext huptake hnext
  | stale held' behind' distinct few =>
    have hmore : counted' = counted ++ [s] := distinctStale_of_not_repeats held distinct
    have hlength : counted'.length = counted.length + 1 := by simp [hmore]
    refine Or.inr (Or.inl ⟨hmore, hlength ▸ few, ?_⟩)
    rw [pending, hlength, hmore, List.getLast?_concat]
    exact Prod.ext huptake hnext
  | restarted held' behind' distinct many =>
    have hmore : counted' = counted ++ [s] := distinctStale_of_not_repeats held distinct
    have hlength : counted'.length = counted.length + 1 := by simp [hmore]
    exact Or.inr (Or.inr ⟨hmore, hlength ▸ many, Prod.ext huptake hnext⟩)

/-- A stale sample is not new as long as too few of them count for a restart. -/
theorem update_pending_of_few (held : h.latest? = some latest) (behind : s.advances latest = false)
    (hfew : (distinctStale latest (ss ++ [s])).length < maxStale) :
    ((h.pending (distinctStale latest ss)).update s).1.isNew = false ∧
      ((h.pending (distinctStale latest ss)).update s).2 =
        h.pending (distinctStale latest (ss ++ [s])) := by
  rcases takes_pending held behind ss with
    ⟨-, htaken⟩ | ⟨-, -, htaken⟩ | ⟨-, hmany, -⟩
  · rw [htaken]
    exact ⟨rfl, rfl⟩
  · rw [htaken]
    exact ⟨rfl, rfl⟩
  · exact absurd hfew (Nat.not_lt_of_le hmany)

/-- One that counts when enough of them do restarts the history. -/
theorem update_pending_of_many (held : h.latest? = some latest)
    (behind : s.advances latest = false)
    (hcounts : (distinctStale latest (ss ++ [s])).length ≠ (distinctStale latest ss).length)
    (hmany : maxStale ≤ (distinctStale latest (ss ++ [s])).length) :
    (h.pending (distinctStale latest ss)).update s = (.restarted, h.clear.append s) := by
  rcases takes_pending held behind ss with
    ⟨hsame, -⟩ | ⟨-, hfew, -⟩ | ⟨-, -, htaken⟩
  · exact absurd (congrArg List.length hsame) hcounts
  · exact absurd hfew (Nat.not_lt_of_le hmany)
  · exact htaken

/-- As long as too few of them count for a restart, stale samples change nothing but what is
remembered of them. -/
theorem after_offers (held : h.latest? = some latest) (hfresh : h.pending [] = h)
    (hbehind : ∀ s ∈ ss, s.advances latest = false)
    (hfew : (distinctStale latest ss).length < maxStale) :
    h.after (ss.map .offer) = h.pending (distinctStale latest ss) := by
  induction ss using List.reverseRecOn with
  | nil => exact hfresh.symm
  | append_singleton ss s ih =>
    rw [List.forall_mem_append, List.forall_mem_singleton] at hbehind
    have hfewer := Nat.lt_of_le_of_lt (length_distinctStale_le held ss s) hfew
    rw [List.map_append, after_append, ih hbehind.1 hfewer]
    exact (update_pending_of_few held hbehind.2 hfew).2

/-- Of a history without a stale run nothing is remembered. -/
theorem pending_nil (hs : Sound requested h) (hfresh : h.staleCount = 0) : h.pending [] = h := by
  have hnone : h.lastStale = none := by
    apply Option.not_isSome_iff_eq_none.mp
    intro hsome
    exact absurd hfresh (Nat.ne_of_gt (hs.lastStale_iff.mp hsome))
  show { h with lastStale := none, staleCount := 0 } = h
  rw [← hnone, ← hfresh]

/-- Take any history without a stale run, and some samples that do not advance its newest one, in
any order and repeated at will. Until three of them count, each is left out, and the samples held
stay as they are. The third one that counts is new, and the only sample afterwards, without a stale
run; so nothing can be measured then. -/
theorem restarts_at_third_stale (requested : Nat) (changes : List Change) (latest : Sample) :
    let h := (empty requested).after changes
    h.latest? = some latest → h.staleCount = 0 →
      ∀ ss : List Sample, (∀ s ∈ ss, s.advances latest = false) →
        (∀ seen s rest, ss = seen ++ s :: rest →
          (distinctStale latest (seen ++ [s])).length < 3 →
            let taken := (h.after (seen.map .offer)).update s
            taken.1.isNew = false ∧ taken.2.samples = h.samples) ∧
        (∀ r₁ r₂ r₃ more, distinctStale latest ss = r₁ :: r₂ :: r₃ :: more →
          ∃ seen rest, ss = seen ++ r₃ :: rest ∧ distinctStale latest seen = [r₁, r₂] ∧
            distinctStale latest (seen ++ [r₃]) = [r₁, r₂, r₃] ∧
            let taken := (h.after (seen.map .offer)).update r₃
            taken.1.isNew = true ∧ taken.2 = ⟨h.capacity, [r₃], none, 0⟩ ∧
              ∀ m, taken.2.wallClockAt m = .error .insufficientData) := by
  intro h held hcount ss hbehind
  have hs : Sound requested h := (sound_empty requested).after changes
  have hfresh : h.pending [] = h := pending_nil hs hcount
  constructor
  · intro seen s rest hsplit hfew taken
    rw [hsplit, List.forall_mem_append, List.forall_mem_cons] at hbehind
    obtain ⟨hseen, hlast, -⟩ := hbehind
    have hfewer := Nat.lt_of_le_of_lt (length_distinctStale_le held seen s) hfew
    obtain ⟨hnew, hafter⟩ := update_pending_of_few held hlast hfew
    rw [← after_offers held hfresh hseen hfewer] at hnew hafter
    exact ⟨hnew, (congrArg History.samples hafter).trans rfl⟩
  · intro r₁ r₂ r₃ more hcounted
    obtain ⟨seen, rest, hsplit, htwo, hthree⟩ :=
      exists_of_distinctStale held [r₁, r₂] hcounted
    rw [hsplit, List.forall_mem_append, List.forall_mem_cons] at hbehind
    obtain ⟨hseen, hlast, -⟩ := hbehind
    have hfew : (distinctStale latest seen).length < maxStale := by
      rw [htwo]
      exact Nat.lt_succ_self 2
    have htaken : (h.after (seen.map .offer)).update r₃ = (.restarted, h.clear.append r₃) := by
      rw [after_offers held hfresh hseen hfew]
      apply update_pending_of_many held hlast
      · simp [htwo, hthree]
      · rw [hthree]
        exact Nat.le_refl 3
    have honly : h.clear.append r₃ = ⟨h.capacity, [r₃], none, 0⟩ := by
      have hcapacity : [r₃].length ≤ h.capacity := Nat.le_of_succ_le hs.two_le_capacity
      show (⟨h.capacity, [r₃].take h.capacity, none, 0⟩ : History) = _
      rw [List.take_of_length_le hcapacity]
    rw [honly] at htaken
    refine ⟨seen, rest, hsplit, htwo, hthree, ?_⟩
    show ((h.after (seen.map .offer)).update r₃).1.isNew = true ∧ _
    rw [htaken]
    exact ⟨rfl, rfl, fun m => rfl⟩

/-- Two reports of a sender that started again, in turn and each of them repeated, with the newest
report of its former life between them. -/
theorem restarts_at_third_stale_of_two_in_turn :
    let report (second : Nat) : Sample := ⟨.ofInt (1000 * second), ⟨.ofNat (90000 * second)⟩⟩
    let changes : List Change := [.offer (report 10), .offer (report 5), .offer (report 11)]
    let h := (empty 2).after changes
    let ss := [report 5, report 11, report 5, report 6, report 11, report 6, report 5, report 6]
    (h.latest? = some (report 11) ∧ h.staleCount = 0 ∧
        (∀ s ∈ ss, s.advances (report 11) = false) ∧
        distinctStale (report 11) ss = [report 5, report 6, report 5, report 6]) ∧
      ∃ seen rest, ss = seen ++ report 5 :: rest ∧
        distinctStale (report 11) seen = [report 5, report 6] ∧
        distinctStale (report 11) (seen ++ [report 5]) = [report 5, report 6, report 5] ∧
        let taken := (h.after (seen.map .offer)).update (report 5)
        taken.1.isNew = true ∧ taken.2 = ⟨h.capacity, [report 5], none, 0⟩ ∧
          ∀ m, taken.2.wallClockAt m = .error .insufficientData := by
  intro report changes h ss
  have held : h.latest? = some (report 11) := by decide +kernel
  have hcount : h.staleCount = 0 := by decide +kernel
  have hbehind : ∀ s ∈ ss, s.advances (report 11) = false := by decide +kernel
  have hcounted : distinctStale (report 11) ss = [report 5, report 6, report 5, report 6] := by
    decide +kernel
  refine ⟨⟨held, hcount, hbehind, hcounted⟩, ?_⟩
  exact (restarts_at_third_stale 2 changes (report 11) held hcount ss hbehind).2 _ _ _ _ hcounted

end History

end LipSync
