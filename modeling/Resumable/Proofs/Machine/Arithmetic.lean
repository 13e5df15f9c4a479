import Mathlib.Tactic.Ring
import Resumable.Proofs.Machine.Faults

/-!
# Integer arithmetic

What the operators do with integers, said in unbounded arithmetic.

* `Truncates` is division toward zero with its remainder, `BinOp.Gives` the exact result of
  an operator.  Division by zero has none.
* `Concludes` says how an operation has to end: with its exact result, or with one of two
  exceptions.

`arithmetic_exact_or_raises` says that the operators end in just this way and never fault,
that quotient and remainder belong together, and that an exception which an assignment
raises goes to the handler of its block.
-/

namespace Resumable

/-! ## Exact results -/

/-- The range of 64 bits. -/
def Fits (n : Int) : Prop := -2 ^ 63 ≤ n ∧ n < 2 ^ 63

/-- Division toward zero: the remainder is smaller than the divisor and has the sign of the
dividend. -/
structure Truncates (a b q r : Int) : Prop where
  sum : a = q * b + r
  small : r.natAbs < b.natAbs
  nonneg : 0 ≤ a → 0 ≤ r
  nonpos : a ≤ 0 → r ≤ 0

/-- Whether the operator computes an integer from integers. -/
def BinOp.isArithmetic : BinOp → Bool
  | .add | .sub | .mul | .div | .mod => true
  | _ => false

/-- The exact result of an operator. -/
inductive BinOp.Gives : BinOp → Int → Int → Int → Prop
  | add {a b : Int} : Gives .add a b (a + b)
  | sub {a b : Int} : Gives .sub a b (a - b)
  | mul {a b : Int} : Gives .mul a b (a * b)
  | div {a b q r : Int} (h : Truncates a b q r) : Gives .div a b q
  | mod {a b q r : Int} (h : Truncates a b q r) : Gives .mod a b r

/-- How an operation ends, given its exact result.  Some operands have none and divide by
`zero`; others are `excluded` although they have one. -/
inductive Concludes (gives : Int → Prop) (zero excluded : Prop) : Completion → Prop
  | exact {n : Int64} (result : gives n.toInt) (allowed : ¬ excluded) :
    Concludes gives zero excluded (.value (.int n))
  | divisionByZero (h : zero) :
    Concludes gives zero excluded (.exception (.str "division by zero"))
  | overflow {n : Int} (result : gives n) (outside : ¬ Fits n ∨ excluded) :
    Concludes gives zero excluded (.exception (.str "integer overflow"))

/-- How an operator on two integers ends.  The remainder of the least integer by -1 is
excluded, since the quotient does not fit. -/
def BinOp.Concludes (op : BinOp) (a b : Int) : Completion → Prop :=
  Resumable.Concludes (op.Gives a b) ((op = .div ∨ op = .mod) ∧ b = 0)
    (op = .mod ∧ a = -2 ^ 63 ∧ b = -1)

/-! ## Division -/

/-- Every dividend has a quotient and a remainder. -/
theorem truncates_tdiv (a : Int) {b : Int} (nonzero : b ≠ 0) :
    Truncates a b (a.tdiv b) (a.tmod b) where
  sum := (Int.tdiv_mul_add_tmod a b).symm
  small := by
    rw [Int.natAbs_tmod]
    exact Nat.mod_lt _ (Int.natAbs_pos.2 nonzero)
  nonneg := Int.tmod_nonneg b
  nonpos := by
    intro down
    have opposite := Int.tmod_nonneg b (Int.neg_nonneg_of_nonpos down)
    rw [Int.neg_tmod] at opposite
    omega

/-- There is one quotient and one remainder at most. -/
theorem Truncates.eq_tdiv {a b q r : Int} (h : Truncates a b q r) :
    q = a.tdiv b ∧ r = a.tmod b := by
  have small := h.small
  have nonzero : b ≠ 0 := by omega
  have sum : r + b * q = a := by
    rw [Int.add_comm, Int.mul_comm]
    exact h.sum.symm
  rcases Int.le_total 0 a with up | down
  · have nonneg := h.nonneg up
    have unique := (Int.tdiv_tmod_unique up nonzero).2 ⟨sum, nonneg, by omega⟩
    exact ⟨unique.1.symm, unique.2.symm⟩
  · have nonpos := h.nonpos down
    have unique := (Int.tdiv_tmod_unique' down nonzero).2 ⟨sum, by omega, nonpos⟩
    exact ⟨unique.1.symm, unique.2.symm⟩

/-- Nothing is divided by zero. -/
theorem Truncates.ne_zero {a b q r : Int} (h : Truncates a b q r) : b ≠ 0 := by
  have := h.small
  omega

/-! ## The one conclusion -/

theorem Completion.ofInt_of_fits {n : Int64} : Completion.ofInt n.toInt = .value (.int n) := by
  unfold Completion.ofInt
  rw [if_pos ⟨n.minValue_le_toInt, n.toInt_le⟩, Int64.ofInt_toInt]

theorem Completion.ofInt_of_not_fits {n : Int} (outside : ¬ Fits n) :
    Completion.ofInt n = .overflow := by
  unfold Completion.ofInt
  rw [if_neg]
  intro inside
  rw [Int64.toInt_minValue, Int64.toInt_maxValue] at inside
  exact outside ⟨inside.1, by omega⟩

theorem fits_iff {n : Int} : Fits n ↔ ∃ m : Int64, m.toInt = n := by
  constructor
  · intro fits
    exact ⟨Int64.ofInt n, Int64.toInt_ofInt_of_le fits.1 fits.2⟩
  · rintro ⟨m, rfl⟩
    exact ⟨m.le_toInt, m.toInt_lt⟩

namespace Concludes

variable {gives : Int → Prop} {zero excluded : Prop} {d : Completion}

/-- Where nothing is excluded, an operation gives its result if that fits. -/
theorem iff_ofInt {n : Int} (only : ∀ m, gives m ↔ m = n) (nonzero : ¬ zero)
    (allowed : ¬ excluded) : Concludes gives zero excluded d ↔ d = .ofInt n := by
  by_cases fits : Fits n
  · obtain ⟨m, rfl⟩ := fits_iff.1 fits
    rw [Completion.ofInt_of_fits]
    constructor
    · intro h
      cases h with
      | exact result _ => rw [Int64.toInt_inj.1 ((only _).1 result)]
      | divisionByZero h => exact absurd h nonzero
      | overflow result outside =>
        rw [(only _).1 result] at outside
        exact absurd (outside.resolve_right allowed) (not_not_intro fits)
    · rintro rfl
      exact .exact ((only _).2 rfl) allowed
  · rw [Completion.ofInt_of_not_fits fits]
    constructor
    · intro h
      cases h with
      | @exact m result _ => exact absurd (fits_iff.2 ⟨m, (only _).1 result⟩) fits
      | divisionByZero h => exact absurd h nonzero
      | overflow _ _ => rfl
    · rintro rfl
      exact .overflow ((only _).2 rfl) (Or.inl fits)

/-- Where there is no result, an operation divides by zero. -/
theorem iff_divisionByZero (none : ∀ m, ¬ gives m) (h : zero) :
    Concludes gives zero excluded d ↔ d = .divisionByZero := by
  constructor
  · intro h
    cases h with
    | exact result _ => exact absurd result (none _)
    | divisionByZero _ => rfl
    | overflow result _ => exact absurd result (none _)
  · rintro rfl
    exact .divisionByZero h

/-- Operands that are excluded overflow. -/
theorem iff_overflow {n : Int} (result : gives n) (nonzero : ¬ zero) (h : excluded) :
    Concludes gives zero excluded d ↔ d = .overflow := by
  constructor
  · intro conclusion
    cases conclusion with
    | exact _ allowed => exact absurd h allowed
    | divisionByZero h => exact absurd h nonzero
    | overflow _ _ => rfl
  · rintro rfl
    exact .overflow result (Or.inr h)

end Concludes

/-! ## Operators -/

variable {text : Value → String} {a b : Int64}

/-- Operators without division give their result if it fits. -/
theorem BinOp.concludes_ofInt {op : BinOp} {a b n : Int} {d : Completion}
    (only : ∀ m, op.Gives a b m ↔ m = n) (undivided : op ≠ .div ∧ op ≠ .mod) :
    op.Concludes a b d ↔ d = .ofInt n :=
  Concludes.iff_ofInt only (fun zero => by simp [undivided] at zero)
    (fun excluded => undivided.2 excluded.1)

theorem BinOp.concludes_zero {op : BinOp} {a : Int} {d : Completion}
    (divides : op = .div ∨ op = .mod) : op.Concludes a 0 d ↔ d = .divisionByZero := by
  refine Concludes.iff_divisionByZero (fun m gives => ?_) ⟨divides, rfl⟩
  rcases divides with rfl | rfl
  · cases gives with
    | div h => exact h.ne_zero rfl
  · cases gives with
    | mod h => exact h.ne_zero rfl

theorem BinOp.concludes_div {a b : Int} {d : Completion} (nonzero : b ≠ 0) :
    BinOp.div.Concludes a b d ↔ d = .ofInt (a.tdiv b) := by
  refine Concludes.iff_ofInt (fun m => ⟨fun gives => ?_, ?_⟩) (fun zero => nonzero zero.2)
    (fun excluded => nomatch excluded.1)
  · cases gives with
    | div h => exact h.eq_tdiv.1
  · rintro rfl
    exact .div (truncates_tdiv a nonzero)

theorem remainder_eq (a b : Int64) : remainder a b =
    if a.toInt = -2 ^ 63 ∧ b.toInt = -1 then .overflow else .ofInt (a.toInt.tmod b.toInt) := by
  have least : a = Int64.minValue ↔ a.toInt = -2 ^ 63 := by
    rw [← Int64.toInt_minValue, Int64.toInt_inj]
  have minusOne : b = -1 ↔ b.toInt = -1 := Int64.toInt_inj.symm
  unfold remainder
  simp only [least, minusOne]

theorem BinOp.concludes_mod {d : Completion} (nonzero : b.toInt ≠ 0) :
    BinOp.mod.Concludes a.toInt b.toInt d ↔ d = remainder a b := by
  have gives := BinOp.Gives.mod (truncates_tdiv a.toInt nonzero)
  have divided : ¬ ((BinOp.mod = .div ∨ BinOp.mod = .mod) ∧ b.toInt = 0) :=
    fun zero => nonzero zero.2
  rw [remainder_eq]
  split
  · rename_i excluded
    exact Concludes.iff_overflow gives divided ⟨rfl, excluded⟩
  · rename_i allowed
    refine Concludes.iff_ofInt (fun m => ⟨fun gives => ?_, ?_⟩) divided
      (fun excluded => allowed excluded.2)
    · cases gives with
      | mod h => exact h.eq_tdiv.2
    · rintro rfl
      exact gives

/-- An operator on integers does not fault, and ends in the one way that it may. -/
theorem BinOp.exists_conclusion {op : BinOp} (arithmetic : op.isArithmetic = true)
    (text : Value → String) (a b : Int64) : ∃ c, op.apply text (.int a) (.int b) = .ok c ∧
      ∀ d, op.Concludes a.toInt b.toInt d ↔ d = c := by
  cases op with
  | add =>
    have only : ∀ m, BinOp.add.Gives a.toInt b.toInt m ↔ m = a.toInt + b.toInt := fun m =>
      ⟨fun | .add => rfl, fun same => same ▸ .add⟩
    exact ⟨_, rfl, fun d => concludes_ofInt only (by simp)⟩
  | sub =>
    have only : ∀ m, BinOp.sub.Gives a.toInt b.toInt m ↔ m = a.toInt - b.toInt := fun m =>
      ⟨fun | .sub => rfl, fun same => same ▸ .sub⟩
    exact ⟨_, rfl, fun d => concludes_ofInt only (by simp)⟩
  | mul =>
    have only : ∀ m, BinOp.mul.Gives a.toInt b.toInt m ↔ m = a.toInt * b.toInt := fun m =>
      ⟨fun | .mul => rfl, fun same => same ▸ .mul⟩
    exact ⟨_, rfl, fun d => concludes_ofInt only (by simp)⟩
  | div =>
    refine ⟨_, rfl, fun d => ?_⟩
    split
    · rename_i zero
      rw [zero]
      exact concludes_zero (Or.inl rfl)
    · rename_i nonzero
      exact concludes_div nonzero
  | mod =>
    refine ⟨_, rfl, fun d => ?_⟩
    split
    · rename_i zero
      rw [zero]
      exact concludes_zero (Or.inr rfl)
    · rename_i nonzero
      exact concludes_mod nonzero
  | _ => cases arithmetic

/-- A value that an operator gives is its exact result. -/
theorem BinOp.gives_of_apply {op : BinOp} (arithmetic : op.isArithmetic = true) {n : Int64}
    (ends : op.apply text (.int a) (.int b) = .ok (.value (.int n))) :
    op.Gives a.toInt b.toInt n.toInt := by
  obtain ⟨c, applied, unique⟩ := exists_conclusion arithmetic text a b
  rw [ends] at applied
  cases applied
  cases (unique _).2 rfl with
  | exact result _ => exact result

theorem UnaryOp.exists_conclusion (a : Int64) : ∃ c, UnaryOp.neg.apply (.int a) = .ok c ∧
    ∀ d, Concludes (· = -a.toInt) False False d ↔ d = c :=
  ⟨_, rfl, fun _ => Concludes.iff_ofInt (fun _ => Iff.rfl) id id⟩

/-! ## Exceptions of assignments -/

/-- A raised value goes on: to the handler of the block, which finds it in its local, or else
to the caller. -/
structure Config.Passes (c : Config) (a : Activation) (v : Value)
    (next : Except MachineFault Config) : Prop where
  handled : ∀ h ∈ a.block.handler, h.bind.index < a.locals.length →
    ∀ target, a.proc.block? h.target = some target → next = .ok (c.running
      { a with
        locals := a.locals.set h.bind.index v
        block := target
        rest := target.statements })
  unhandled : a.block.handler = none → next = .ok (c.delivering (.completed (.exception v)))

theorem Config.passes_raise (c : Config) (a : Activation) (v : Value) :
    c.Passes a v (c.raise a v) where
  handled h handler declared target found := by
    have stored : a.store h.bind v = .ok { a with locals := a.locals.set h.bind.index v } := by
      unfold Activation.store Activation.storeIn
      rw [if_pos declared]
      rfl
    unfold Config.raise
    rw [Option.mem_def.1 handler]
    simp only [stored]
    exact Program.goto_eq (a := { a with locals := a.locals.set h.bind.index v }) found
  unhandled none := by
    unfold Config.raise
    rw [none]

theorem Config.passes_assign {c : Config} {a : Activation} {dst : LocalId} {rvalue : RValue}
    {v : Value} (raises : a.compute text rvalue = .ok (.exception v)) :
    c.Passes a v (c.afterStmt text a (.assign dst rvalue)) := by
  have step : c.afterStmt text a (.assign dst rvalue) = c.raise a v := by
    rw [Config.afterStmt, raises]
    rfl
  rw [step]
  exact c.passes_raise a v

/-! ## All operators -/

/-- Integer arithmetic never faults: an operation ends in the one way that `Concludes` allows.
A quotient and a remainder of the same operands belong together.  The exception of an operation
can be caught. -/
theorem arithmetic_exact_or_raises (text : Value → String) :
    (∀ op : BinOp, op.isArithmetic = true → ∀ a b : Int64, ∃ c,
      op.apply text (.int a) (.int b) = .ok c ∧
        ∀ d, op.Concludes a.toInt b.toInt d ↔ d = c) ∧
    (∀ a : Int64, ∃ c, UnaryOp.neg.apply (.int a) = .ok c ∧
      ∀ d, Concludes (· = -a.toInt) False False d ↔ d = c) ∧
    (∀ a b q r : Int64, BinOp.div.apply text (.int a) (.int b) = .ok (.value (.int q)) →
      BinOp.mod.apply text (.int a) (.int b) = .ok (.value (.int r)) →
      a.toInt = q.toInt * b.toInt + r.toInt ∧ r.toInt.natAbs < b.toInt.natAbs) ∧
    ∀ (c : Config) (a : Activation) (dst : LocalId) (rvalue : RValue) (v : Value),
      a.compute text rvalue = .ok (.exception v) →
        c.Passes a v (c.afterStmt text a (.assign dst rvalue)) := by
  refine ⟨fun op arithmetic => BinOp.exists_conclusion arithmetic text,
    UnaryOp.exists_conclusion, ?_, fun c a dst rvalue v => Config.passes_assign⟩
  intro a b q r divided left
  have quotient := BinOp.gives_of_apply rfl divided
  have remainder := BinOp.gives_of_apply rfl left
  cases quotient with
  | @div _ _ _ r' divides =>
    cases remainder with
    | @mod _ _ q' _ leaves =>
      have same : r.toInt = r' := leaves.eq_tdiv.2.trans divides.eq_tdiv.2.symm
      rw [same]
      exact ⟨divides.sum, divides.small⟩

/-! ## A quotient that is caught -/

/-- The quotient of ten and the argument. -/
def tenth : RValue := .binary .div (.const (.int 10)) (.local ⟨0⟩)

/-- Divides ten by its argument.  If that raises, it returns what was raised. -/
def ratio : Procedure :=
  { id := ⟨"Ratio", "of", "(int)->any"⟩, params := [⟨⟨0⟩, some "n", .int, true⟩]
    retTy := .any
    locals := [⟨⟨0⟩, some "n", .int, true⟩, ⟨⟨1⟩, some "answer", .int, false⟩,
      ⟨⟨2⟩, some "error", .any, false⟩]
    blocks := [
      { Block.empty ⟨0⟩ with
        statements := [.assign ⟨1⟩ tenth]
        terminator := .ret (some (.local ⟨1⟩))
        handler := some ⟨⟨1⟩, ⟨2⟩⟩ },
      { Block.empty ⟨1⟩ with terminator := .ret (some (.local ⟨2⟩)) }]
    entryBlock := ⟨0⟩, attrs := .plain, states := [] }

/-- `ratio`, called with zero, past its division. -/
def ratioOfZero : Activation :=
  ⟨ratio, [.int 0, .unit, .unit], none, ratio.blocks.headD default, []⟩

/-- The least integer has no remainder by -1; -7 divided by 2 gives -3 and leaves -1; and
`ratio` catches a division by zero. -/
theorem arithmetic_exact_or_raises_ratio :
    (BinOp.mod.isArithmetic = true ∧
      BinOp.mod.apply Value.typeName (.int Int64.minValue) (.int (-1)) = .ok .overflow ∧
      BinOp.mod.Concludes (-2 ^ 63) (-1) .overflow) ∧
    (BinOp.div.apply Value.typeName (.int (-7)) (.int 2) = .ok (.value (.int (-3))) ∧
      BinOp.mod.apply Value.typeName (.int (-7)) (.int 2) = .ok (.value (.int (-1))) ∧
      (-7 : Int64).toInt = (-3 : Int64).toInt * (2 : Int64).toInt + (-1 : Int64).toInt ∧
      (-1 : Int64).toInt.natAbs < (2 : Int64).toInt.natAbs) ∧
    ratioOfZero.compute Value.typeName tenth = .ok .divisionByZero ∧
      (Config.ofFrames []).afterStmt Value.typeName ratioOfZero (.assign ⟨1⟩ tenth) =
        .ok ((Config.ofFrames []).running
          ⟨ratio, [.int 0, .unit, .str "division by zero"], none,
            ratio.blocks.getLastD default, []⟩) := by
  obtain ⟨ends, -, division, passes⟩ := arithmetic_exact_or_raises Value.typeName
  have least : BinOp.mod.apply Value.typeName (.int Int64.minValue) (.int (-1)) = .ok .overflow :=
    rfl
  have divides : BinOp.div.apply Value.typeName (.int (-7)) (.int 2) = .ok (.value (.int (-3))) :=
    rfl
  have leaves : BinOp.mod.apply Value.typeName (.int (-7)) (.int 2) = .ok (.value (.int (-1))) :=
    rfl
  have raises : ratioOfZero.compute Value.typeName tenth = .ok .divisionByZero := rfl
  obtain ⟨c, applied, unique⟩ := ends .mod rfl Int64.minValue (-1)
  have caught := (passes (.ofFrames []) ratioOfZero ⟨1⟩ tenth _ raises).handled
  refine ⟨⟨rfl, least, ?_⟩, ⟨divides, leaves, division _ _ _ _ divides leaves⟩, raises, ?_⟩
  · rw [least] at applied
    cases applied
    exact (unique _).2 rfl
  · exact caught ⟨⟨1⟩, ⟨2⟩⟩ rfl (by decide) _ rfl

end Resumable
