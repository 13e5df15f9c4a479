import Resumable.Weave.Form
import Resumable.Proofs.Procedure.Validity

/-!
# What the check of the resumable form accepts

`Procedure.verify` looks at one thing after the other and stops at the first breach.  It
accepts a procedure exactly if all of them are in order (`Procedure.verify_eq_ok_iff`).
`Procedure.ResumesAt` is what it asks about a single suspending call.
-/

namespace Resumable

section Checks

variable {ε α β : Type} {c : Prop} [Decidable c] {e : ε}

/-- A check and what follows it. -/
theorem Except.check_eq_ok_iff {stop : α → Except ε β} {rest : Except ε β} {b : β} :
    (if c then throw e >>= stop else rest) = .ok b ↔ ¬ c ∧ rest = .ok b := by
  split
  · rename_i breach
    exact ⟨fun ok => (by cases ok), fun ok => absurd breach ok.1⟩
  · rename_i kept
    exact ⟨fun ok => ⟨kept, ok⟩, fun ok => ok.2⟩

/-- A check at the end. -/
theorem Except.last_check_eq_ok_iff : (if c then throw e else pure () : Except ε Unit) = .ok () ↔
    ¬ c := by
  split
  · rename_i breach
    exact ⟨fun ok => (by cases ok), fun ok => absurd breach ok⟩
  · rename_i kept
    exact ⟨fun _ => kept, fun _ => rfl⟩

end Checks

theorem firstRepeated?_eq_none_iff {states seen : List StateId} :
    firstRepeated? seen states = none ↔ states.Nodup ∧ ∀ s ∈ states, s ∉ seen := by
  induction states generalizing seen with
  | nil => simp [firstRepeated?]
  | cons s rest ih =>
    rw [firstRepeated?]
    split
    · rename_i known
      simp [known]
    · rename_i unknown
      rw [ih, List.nodup_cons, List.forall_mem_cons]
      simp only [List.mem_cons, not_or]
      constructor
      · rintro ⟨nodup, fresh⟩
        exact ⟨⟨fun again => (fresh s again).1 rfl, nodup⟩, unknown, fun t mem => (fresh t mem).2⟩
      · rintro ⟨⟨once, nodup⟩, -, fresh⟩
        exact ⟨nodup, fun t mem => ⟨fun same => once (same ▸ mem), fresh t mem⟩⟩

namespace Procedure

/-- The resume path of a suspending call is in order: it leads from the dispatcher to the
block that the state records, which restores what the call saves and needs nothing else. -/
structure ResumesAt (p : Procedure) (arms : List (StateId × BlockId)) (live : Liveness)
    (state : StateId) (save : List LocalId) (resume : BlockId) : Prop where
  arm : armFor? arms state = some resume
  recorded : ∃ s, p.state? state = some s ∧ s.block = resume ∧ s.live.map LiveSlot.localId = save
  restores : (p.block? resume).bind Block.restored? = some save
  bare : live.atStart resume = []

variable {p : Procedure} {arms : List (StateId × BlockId)} {live : Liveness}

theorem verifyCall_eq_ok_iff {call : StateId × List LocalId} :
    p.verifyCall arms live call = .ok () ↔
      ∃ resume, p.ResumesAt arms live call.1 call.2 resume := by
  obtain ⟨state, save⟩ := call
  unfold verifyCall
  cases arm : armFor? arms state with
  | none =>
    simp only [arm]
    constructor
    · intro ok
      cases ok
    · rintro ⟨resume, path⟩
      cases arm.symm.trans path.arm
  | some resume =>
    cases recorded : p.state? state with
    | none =>
      simp only [arm, recorded]
      constructor
      · intro ok
        cases ok
      · rintro ⟨_, path⟩
        obtain ⟨s, there, -⟩ := path.recorded
        cases recorded.symm.trans there
    | some s =>
      simp only [arm, recorded, Except.check_eq_ok_iff, Except.last_check_eq_ok_iff,
        Decidable.not_not, ne_eq]
      constructor
      · rintro ⟨block, restores, slots, bare⟩
        exact ⟨resume, arm, ⟨s, recorded, block, slots⟩, restores, bare⟩
      · rintro ⟨_, path⟩
        obtain rfl := Option.some.inj (arm.symm.trans path.arm)
        obtain ⟨_, there, block, slots⟩ := path.recorded
        obtain rfl := Option.some.inj (recorded.symm.trans there)
        exact ⟨block, path.restores, slots, path.bare⟩

/-- The rules of the resumable form: the entry dispatches, every suspending call has a state of
its own and can be taken up again, and there are as many arms as calls. -/
structure InForm (p : Procedure) (entry : Block) (fresh : BlockId)
    (arms : List (StateId × BlockId)) (live : Liveness) : Prop where
  found : p.block? p.entryBlock = some entry
  dispatches : entry.terminator = .dispatch fresh arms
  once : (p.suspensions.map Prod.fst).Nodup
  count : p.suspensions.length = (arms.map Prod.fst).eraseDups.length
  computed : Liveness.compute? p = some live
  paths : ∀ call ∈ p.suspensions, ∃ resume, p.ResumesAt arms live call.1 call.2 resume

/-- The check accepts a procedure exactly if it keeps the rules. -/
theorem verify_eq_ok_iff :
    p.verify = .ok () ↔ ∃ entry fresh arms live, p.InForm entry fresh arms live := by
  unfold verify
  constructor
  · intro ok
    cases found : p.block? p.entryBlock with
    | none =>
      rw [found] at ok
      cases ok
    | some entry =>
      cases last : entry.terminator with
      | dispatch fresh arms =>
        cases again : firstRepeated? [] (p.suspensions.map Prod.fst) with
        | some state =>
          simp only [found, last, again] at ok
          cases ok
        | none =>
          simp only [found, last, again, Except.check_eq_ok_iff, Decidable.not_not, ne_eq] at ok
          obtain ⟨count, ok⟩ := ok
          cases computed : Liveness.compute? p with
          | none =>
            rw [computed] at ok
            cases ok
          | some live =>
            rw [computed] at ok
            exact ⟨entry, fresh, arms, live, found, last, (firstRepeated?_eq_none_iff.1 again).1,
              count, computed, fun call mem =>
                verifyCall_eq_ok_iff.1 (Except.forM_eq_ok_iff.1 ok call mem)⟩
      | _ =>
        simp only [found, last] at ok
        cases ok
  · rintro ⟨entry, fresh, arms, live, form⟩
    have again : firstRepeated? [] (p.suspensions.map Prod.fst) = none :=
      firstRepeated?_eq_none_iff.2 ⟨form.once, fun _ _ => List.not_mem_nil⟩
    simp only [form.found, form.dispatches, again, form.computed, Except.check_eq_ok_iff,
      Decidable.not_not, ne_eq]
    exact ⟨form.count, Except.forM_eq_ok_iff.2 fun call mem =>
      verifyCall_eq_ok_iff.2 (form.paths call mem)⟩

end Procedure

end Resumable
