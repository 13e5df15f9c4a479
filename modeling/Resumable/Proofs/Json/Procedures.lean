import Resumable.Proofs.Json.Records

/-!
# Procedures are read back

Every type of the format of a procedure is read back from what is written for it, from the
numbers up to the procedure (`Procedure.faithful`).  A type comes after the types of its fields.

The number of a mark is the only one that may be too large to be read: positions have 64 bits
in the format (`Procedure.MarksFit`).

The steps of the simplifier keep their proofs (`-implicitDefEqProofs`).  Without them the kernel
would check each step by computing the readers of the fields, and would run too deep in doing so.
-/

namespace Resumable

open Json (Faithful faithful_bare faithful_list pair?)

/-! ## Names and numbers -/

@[simp]
theorem BlockId.faithful (b : BlockId) : Faithful toJson ofJson? b := by
  simp -implicitDefEqProofs [Faithful, toJson, ofJson?]

@[simp]
theorem LocalId.faithful (l : LocalId) : Faithful toJson ofJson? l := by
  simp -implicitDefEqProofs [Faithful, toJson, ofJson?]

@[simp]
theorem StateId.faithful (s : StateId) : Faithful toJson ofJson? s := by
  simp -implicitDefEqProofs [Faithful, toJson, ofJson?]

@[simp]
theorem ProcId.faithful (p : ProcId) : Faithful toJson ofJson? p := by
  simp -implicitDefEqProofs [Faithful, toJson, ofJson?]

@[simp]
theorem Ty.faithful (t : Ty) : Faithful toJson ofJson? t :=
  faithful_bare (by decide) (by cases t <;> decide)

@[simp]
theorem Local.faithful (l : Local) : Faithful toJson ofJson? l := by
  simp -implicitDefEqProofs [Faithful, toJson, ofJson?]

/-! ## Operands and calls -/

@[simp]
theorem Const.faithful (c : Const) : Faithful toJson ofJson? c := by
  cases c <;> simp -implicitDefEqProofs [Faithful, toJson, ofJson?]

@[simp]
theorem Operand.faithful (o : Operand) : Faithful toJson ofJson? o := by
  cases o <;> simp -implicitDefEqProofs [Faithful, toJson, ofJson?]

@[simp]
theorem BinOp.faithful (op : BinOp) : Faithful toJson ofJson? op :=
  faithful_bare (by decide) (by cases op <;> decide)

@[simp]
theorem UnaryOp.faithful (op : UnaryOp) : Faithful toJson ofJson? op :=
  faithful_bare (by decide) (by cases op <;> decide)

@[simp]
theorem RValue.faithful (r : RValue) : Faithful toJson ofJson? r := by
  cases r <;> simp -implicitDefEqProofs [Faithful, toJson, ofJson?]

@[simp]
theorem CallKind.faithful (k : CallKind) : Faithful toJson ofJson? k :=
  faithful_bare (by decide) (by cases k <;> decide)

@[simp]
theorem FunctionRef.faithful (f : FunctionRef) : Faithful toJson ofJson? f := by
  simp -implicitDefEqProofs [Faithful, toJson, ofJson?]

/-! ## Blocks -/

@[simp]
theorem Stmt.faithful (s : Stmt) : Faithful toJson ofJson? s := by
  cases s <;> simp -implicitDefEqProofs [Faithful, toJson, ofJson?]

@[simp]
theorem switchCase_faithful (c : Int64 × BlockId) :
    Faithful switchCaseJson (pair? Json.int64? BlockId.ofJson?) c := by
  simp -implicitDefEqProofs [Faithful, switchCaseJson]

@[simp]
theorem dispatchArm_faithful (a : StateId × BlockId) :
    Faithful dispatchArmJson (pair? StateId.ofJson? BlockId.ofJson?) a := by
  simp -implicitDefEqProofs [Faithful, dispatchArmJson]

@[simp]
theorem Terminator.faithful (t : Terminator) : Faithful toJson ofJson? t := by
  cases t <;> simp -implicitDefEqProofs [Faithful, toJson, ofJson?]

@[simp]
theorem Handler.faithful (h : Handler) : Faithful toJson ofJson? h := by
  simp -implicitDefEqProofs [Faithful, toJson, ofJson?]

/-- The marks of a block are read back if they have 64 bits. -/
theorem Block.faithful {b : Block} (fit : ∀ site ∈ b.suspendSites, site < UInt64.size) :
    Faithful toJson ofJson? b := by
  have sites := faithful_list fun site mem => Json.faithful_size (fit site mem)
  simp -implicitDefEqProofs [Faithful, toJson, ofJson?, sites]

/-! ## Procedures -/

@[simp]
theorem LiveSlot.faithful (s : LiveSlot) : Faithful toJson ofJson? s := by
  simp -implicitDefEqProofs [Faithful, toJson, ofJson?]

@[simp]
theorem ResumptionState.faithful (s : ResumptionState) : Faithful toJson ofJson? s := by
  simp -implicitDefEqProofs [Faithful, toJson, ofJson?]

@[simp]
theorem ProcAttrs.faithful (a : ProcAttrs) : Faithful toJson ofJson? a := by
  simp -implicitDefEqProofs [Faithful, toJson, ofJson?]

/-- The positions that are marked in the blocks have 64 bits. -/
def Procedure.MarksFit (p : Procedure) : Prop :=
  ∀ b ∈ p.blocks, ∀ site ∈ b.suspendSites, site < UInt64.size

theorem Procedure.faithful {p : Procedure} (fit : p.MarksFit) : Faithful toJson ofJson? p := by
  have blocks := faithful_list fun b mem => Block.faithful (fit b mem)
  simp -implicitDefEqProofs [Faithful, toJson, ofJson?, blocks]

end Resumable
