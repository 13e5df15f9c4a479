import Mathlib.Data.List.Infix
import Mathlib.Tactic.Ring
import Resumable.Procedure.Builder
import Resumable.Proofs.Procedure.Validity

/-!
# Builders build valid procedures

`BuildStep` is one call on a builder, and `BlockBuilder.run` makes a list of calls.  The
calls come in any order, but a call names the entry block and what earlier calls gave
back only, and puts no resumption code into a block (`BlockBuilder.Named`).

* `BlockBuilder.Sane` is the invariant: the two counters stand at the two lists, and what
  has been built so far keeps the rules of `Procedure.Sound` but for the 32 bits of a
  number.
* `Procedure.Grows` says that a call takes nothing away, so that what an earlier call gave
  back is still there.
* `BlockBuilder.Knows.take?` is the step, one case for each call.

`BlockBuilder.run_valid` is the result for all runs.
-/

namespace Resumable

theorem BlockId.index_ofIndex_eq_mod (n : Nat) : (BlockId.ofIndex n).index = n % 2 ^ 32 :=
  UInt32.toNat_ofNat'

theorem LocalId.index_ofIndex_eq_mod (n : Nat) : (LocalId.ofIndex n).index = n % 2 ^ 32 :=
  UInt32.toNat_ofNat'

theorem LocalId.ofIndex_mod (n : Nat) : LocalId.ofIndex (n % 2 ^ 32) = LocalId.ofIndex n :=
  congrArg LocalId.mk UInt32.ofNat_mod_size

/-- An element stands at its number if the numbers are those of a range. -/
theorem List.eq_of_map_eq_map_range {α β : Type} {l : List α} {f : α → β} {g : Nat → β} {n : Nat}
    (numbers : l.map f = (List.range n).map g) {i : Nat} {a : α} (found : l[i]? = some a) :
    f a = g i := by
  have number : (l.map f)[i]? = some (f a) := by rw [List.getElem?_map, found, Option.map_some]
  rw [numbers, List.getElem?_map] at number
  obtain ⟨j, at_i, eq⟩ := Option.map_eq_some_iff.1 number
  obtain ⟨lt, rfl⟩ := List.getElem?_eq_some_iff.1 at_i
  rw [← eq, List.getElem_range]

theorem List.map_modify_of_eq {α β : Type} {l : List α} {f : α → α} {g : α → β} {i : Nat}
    (keeps : ∀ a, g (f a) = g a) : (l.modify i f).map g = l.map g := by
  refine List.ext_getElem? fun j => ?_
  rw [List.getElem?_map, List.getElem?_map, List.getElem?_modify]
  cases l[j]? with
  | none => rfl
  | some a =>
    by_cases here : i = j
    · simp [here, keeps]
    · simp [here]

theorem List.forall_mem_modify {α : Type} {l : List α} {f : α → α} {i : Nat} {P : α → Prop}
    (all : ∀ a ∈ l, P a) (step : ∀ a, P a → P (f a)) : ∀ a ∈ l.modify i f, P a := by
  intro a mem
  obtain ⟨j, found⟩ := List.getElem?_of_mem mem
  rw [List.getElem?_modify] at found
  obtain ⟨c, at_j, rfl⟩ := Option.map_eq_some_iff.1 found
  have old := all c (List.mem_of_getElem? at_j)
  by_cases here : i = j
  · rw [if_pos here]
    exact step c old
  · rw [if_neg here]
    exact old

/-! ## Calls -/

/-- A call on a builder. -/
inductive BuildStep where
  | createBlock
  | switchTo (block : BlockId)
  | currentBlock
  | addTemp (ty : Ty)
  | addLocal (name : String) (ty : Ty)
  | addParam (name : String) (ty : Ty)
  | pushStmt (stmt : Stmt)
  | assign (dst : LocalId) (rvalue : RValue)
  | call (dst : Option LocalId) (func : FunctionRef) (args : List Operand)
  | terminate (terminator : Terminator)
  | setHandler (target : BlockId) (bind : LocalId)
  | unterminated
  | markSuspending
  | markBridge

/-- What a call on a builder gives back. -/
inductive BuildAnswer where
  | block (id : BlockId)
  | local (id : LocalId)
  | flag (value : Bool)
  | done
  deriving DecidableEq

namespace BuildStep

/-- The answer and the builder after the call; `none` if the call fails. -/
def take? (b : BlockBuilder) : BuildStep → Option (BuildAnswer × BlockBuilder)
  | createBlock => some (b.createBlock.map .block id)
  | switchTo block => some (.done, b.switchTo block)
  | currentBlock => some (.block b.currentBlock, b)
  | addTemp ty => some ((b.addTemp ty).map .local id)
  | addLocal name ty => some ((b.addLocal name ty).map .local id)
  | addParam name ty => (b.addParam? name ty).map fun added => added.map .local id
  | pushStmt stmt => (b.pushStmt? stmt).map (.done, ·)
  | assign dst rvalue => (b.assign? dst rvalue).map (.done, ·)
  | call dst func args => (b.call? dst func args).map (.done, ·)
  | terminate terminator => (b.terminate? terminator).map (.done, ·)
  | setHandler target bind => (b.setHandler? target bind).map (.done, ·)
  | unterminated => b.unterminated?.map (.flag ·, b)
  | markSuspending => some (.done, b.markSuspending)
  | markBridge => some (.done, b.markBridge)

/-- The blocks that the call names. -/
def blocks : BuildStep → List BlockId
  | switchTo block => [block]
  | terminate terminator => terminator.successors
  | setHandler target _ => [target]
  | _ => []

/-- The locals that the call names. -/
def locals : BuildStep → List LocalId
  | pushStmt stmt => stmt.defs ++ stmt.uses
  | assign dst rvalue => dst :: rvalue.operands.filterMap Operand.local?
  | call dst _ args => dst.toList ++ args.filterMap Operand.local?
  | terminate terminator => terminator.def?.toList ++ terminator.uses
  | setHandler _ bind => [bind]
  | _ => []

/-- Whether the call puts resumption code into a block. -/
def isResumption : BuildStep → Bool
  | pushStmt stmt => Procedure.isResumption stmt
  | terminate terminator => terminator.isResumption
  | _ => false

/-- The call names the entry block and what earlier calls gave back only, and no
resumption code. -/
structure Names (answers : List BuildAnswer) (s : BuildStep) : Prop where
  blocks : ∀ t ∈ s.blocks, t = .ofIndex 0 ∨ .block t ∈ answers
  locals : ∀ l ∈ s.locals, .local l ∈ answers
  plain : s.isResumption = false

instance (answers : List BuildAnswer) (s : BuildStep) : Decidable (s.Names answers) :=
  decidable_of_iff ((∀ t ∈ s.blocks, t = .ofIndex 0 ∨ .block t ∈ answers) ∧
      (∀ l ∈ s.locals, .local l ∈ answers) ∧ s.isResumption = false)
    ⟨fun ⟨blocks, locals, plain⟩ => ⟨blocks, locals, plain⟩,
      fun names => ⟨names.blocks, names.locals, names.plain⟩⟩

end BuildStep

/-! ## Growing procedures -/

namespace Procedure

variable {p q : Procedure}

/-- What was there is still there. -/
structure Grows (p q : Procedure) : Prop where
  blocks : p.blocks.length ≤ q.blocks.length
  locals : ∀ l, p.declares l = true → q.declares l = true
  woven : p.attrs.woven = true → q.attrs.woven = true

theorem Grows.refl (p : Procedure) : p.Grows p :=
  ⟨Nat.le_refl _, fun _ declared => declared, fun woven => woven⟩

theorem Grows.blockSound (grows : p.Grows q) {b : Block} (sound : p.BlockSound b) :
    q.BlockSound b where
  edges t mem := Nat.lt_of_lt_of_le (sound.edges t mem) grows.blocks
  handler h mem := ⟨Nat.lt_of_lt_of_le (sound.handler h mem).1 grows.blocks,
    grows.locals _ (sound.handler h mem).2⟩
  plain s mem resumption := grows.woven (sound.plain s mem resumption)
  locals s mem l used := grows.locals l (sound.locals s mem l used)
  plainEnd resumption := grows.woven (sound.plainEnd resumption)
  localsEnd l used := grows.locals l (sound.localsEnd l used)

theorem Grows.of_append (extra : List Block) (more : List Local)
    (blocks : q.blocks = p.blocks ++ extra) (locals : q.locals = p.locals ++ more)
    (woven : q.attrs.woven = p.attrs.woven) : p.Grows q where
  blocks := by
    rw [blocks, List.length_append]
    exact Nat.le_add_right _ _
  locals l declared := by
    unfold declares local? at *
    rw [locals]
    cases found : p.locals[l.index]? with
    | none => rw [found] at declared; cases declared
    | some a =>
      rw [found] at declared
      rw [List.getElem?_append_left (List.getElem?_eq_some_iff.1 found).1, found]
      exact declared
  woven h := by rw [woven, h]

/-- An answer names a block or a local of the procedure, if it names one. -/
def Has (p : Procedure) : BuildAnswer → Prop
  | .block t => t.index < p.blocks.length
  | .local l => p.declares l = true
  | .flag _ => True
  | .done => True

theorem Grows.has (grows : p.Grows q) {a : BuildAnswer} (has : p.Has a) : q.Has a := by
  cases a with
  | block t => exact Nat.lt_of_lt_of_le has grows.blocks
  | «local» l => exact grows.locals l has
  | flag => trivial
  | done => trivial

theorem blockSound_empty (p : Procedure) (id : BlockId) : p.BlockSound (Block.empty id) := by
  constructor <;> simp [Block.empty, Terminator.successors, Terminator.isResumption,
    Terminator.def?, Terminator.uses]

/-- The number of a position leads to a local, to the one at the position if it has not
wrapped. -/
theorem exists_local?_ofIndex {i : Nat} (lt : i < p.locals.length) :
    ∃ l, p.local? (.ofIndex i) = some l ∧ p.locals[i % 2 ^ 32]? = some l := by
  have le : i % 2 ^ 32 ≤ i := Nat.mod_le _ _
  have found := List.getElem?_eq_getElem (Nat.lt_of_le_of_lt le lt)
  refine ⟨_, ?_, found⟩
  unfold local?
  rw [LocalId.index_ofIndex_eq_mod, found]

/-- Locals that stand at their numbers are declared. -/
theorem declares_ofIndex {n : Nat}
    (numbers : p.locals.map Local.id = (List.range n).map LocalId.ofIndex) {i : Nat}
    (lt : i < n) : p.declares (.ofIndex i) = true := by
  have length : p.locals.length = n := by simpa using congrArg List.length numbers
  obtain ⟨l, found, here⟩ := exists_local?_ofIndex (length ▸ lt)
  have number : l.id = .ofIndex i :=
    (List.eq_of_map_eq_map_range numbers here).trans (LocalId.ofIndex_mod i)
  unfold declares
  rw [found, ← number]
  exact beq_self_eq_true _

end Procedure

/-! ## The invariant -/

namespace BlockBuilder

/-- What holds of a builder at every moment. -/
structure Sane (b : BlockBuilder) : Prop where
  entry : b.procedure.entryBlock = .ofIndex 0
  body : b.procedure.attrs.isAbstract = false
  blocks : b.procedure.blocks.map Block.id = (List.range b.nextBlock).map BlockId.ofIndex
  locals : b.procedure.locals.map Local.id = (List.range b.nextLocal).map LocalId.ofIndex
  params : b.nextLocal ≤ 2 ^ 32 → b.procedure.params = b.procedure.locals.filter Local.isParam
  current : b.currentBlock.index < b.procedure.blocks.length
  sound : ∀ block ∈ b.procedure.blocks, b.procedure.BlockSound block

variable {b : BlockBuilder}

theorem sane_start (id : ProcId) (retTy : Ty) : (start id retTy).Sane where
  entry := rfl
  body := rfl
  blocks := rfl
  locals := rfl
  params _ := rfl
  current := Nat.zero_lt_one
  sound block mem := by
    obtain rfl := List.mem_singleton.1 mem
    exact Procedure.blockSound_empty _ _

namespace Sane

theorem length_blocks (sane : b.Sane) : b.procedure.blocks.length = b.nextBlock := by
  simpa using congrArg List.length sane.blocks

theorem length_locals (sane : b.Sane) : b.procedure.locals.length = b.nextLocal := by
  simpa using congrArg List.length sane.locals

theorem entry_lt (sane : b.Sane) : (BlockId.ofIndex 0).index < b.procedure.blocks.length :=
  Nat.lt_of_le_of_lt (Nat.zero_le _) sane.current

/-! ### Blocks -/

theorem createBlock (sane : b.Sane) :
    b.createBlock.2.Sane ∧ b.procedure.Grows b.createBlock.2.procedure ∧
      b.createBlock.2.procedure.Has (.block b.createBlock.1) := by
  have grows : b.procedure.Grows b.createBlock.2.procedure :=
    .of_append [_] [] rfl (List.append_nil _).symm rfl
  have length : b.createBlock.2.procedure.blocks.length = b.nextBlock + 1 := by
    simp [BlockBuilder.createBlock, sane.length_blocks]
  refine ⟨⟨sane.entry, sane.body, ?_, sane.locals, sane.params, ?_, ?_⟩, grows, ?_⟩
  · simp [BlockBuilder.createBlock, sane.blocks, List.range_succ, Block.empty]
  · exact Nat.lt_of_lt_of_le sane.current grows.blocks
  · intro block mem
    rcases List.mem_append.1 mem with old | new
    · exact grows.blockSound (sane.sound block old)
    · obtain rfl := List.mem_singleton.1 new
      exact Procedure.blockSound_empty _ _
  · show (BlockId.ofIndex b.nextBlock).index < _
    rw [length, BlockId.index_ofIndex_eq_mod]
    exact Nat.lt_succ_of_le (Nat.mod_le _ _)

theorem switchTo (sane : b.Sane) {t : BlockId} (lt : t.index < b.procedure.blocks.length) :
    (b.switchTo t).Sane :=
  ⟨sane.entry, sane.body, sane.blocks, sane.locals, sane.params, lt, sane.sound⟩

/-- A change of the current block is possible, and it is harmless if it leaves the number
of the block and keeps the rules. -/
theorem modifyBlock? (sane : b.Sane) {f : Block → Block} (keeps : ∀ block, (f block).id = block.id)
    (sound : ∀ block, b.procedure.BlockSound block → b.procedure.BlockSound (f block)) :
    ∃ c, b.modifyBlock? f = some c ∧ c.Sane ∧ b.procedure.Grows c.procedure := by
  refine ⟨_, if_pos sane.current, ?_⟩
  have grows : b.procedure.Grows { b.procedure with
      blocks := b.procedure.blocks.modify b.currentBlock.index f } :=
    ⟨(List.length_modify ..).ge, fun _ h => h, fun h => h⟩
  refine ⟨⟨sane.entry, sane.body, ?_, sane.locals, sane.params, ?_, ?_⟩, grows⟩
  · exact (List.map_modify_of_eq keeps).trans sane.blocks
  · exact Nat.lt_of_lt_of_le sane.current grows.blocks
  · exact fun block mem => grows.blockSound (List.forall_mem_modify sane.sound sound block mem)

theorem pushStmt? (sane : b.Sane) {s : Stmt} (plain : Procedure.isResumption s = false)
    (locals : ∀ l ∈ s.defs ++ s.uses, b.procedure.declares l = true) :
    ∃ c, b.pushStmt? s = some c ∧ c.Sane ∧ b.procedure.Grows c.procedure := by
  refine sane.modifyBlock? (fun _ => rfl) fun block sound =>
    { sound with plain := ?_, locals := ?_ }
  · intro t mem resumption
    rcases List.mem_append.1 mem with old | new
    · exact sound.plain t old resumption
    · obtain rfl := List.mem_singleton.1 new
      rw [plain] at resumption
      cases resumption
  · intro t mem
    rcases List.mem_append.1 mem with old | new
    · exact sound.locals t old
    · obtain rfl := List.mem_singleton.1 new
      exact locals

theorem terminate? (sane : b.Sane) {t : Terminator} (plain : t.isResumption = false)
    (blocks : ∀ target ∈ t.successors, target.index < b.procedure.blocks.length)
    (locals : ∀ l ∈ t.def?.toList ++ t.uses, b.procedure.declares l = true) :
    ∃ c, b.terminate? t = some c ∧ c.Sane ∧ b.procedure.Grows c.procedure :=
  sane.modifyBlock? (fun _ => rfl) fun _ sound =>
    { sound with
      edges := blocks
      plainEnd := fun resumption => by rw [plain] at resumption; cases resumption
      localsEnd := locals }

theorem setHandler? (sane : b.Sane) {target : BlockId} {bind : LocalId}
    (block : target.index < b.procedure.blocks.length)
    (declared : b.procedure.declares bind = true) :
    ∃ c, b.setHandler? target bind = some c ∧ c.Sane ∧ b.procedure.Grows c.procedure :=
  sane.modifyBlock? (fun _ => rfl) fun _ sound =>
    { sound with
      handler := fun h mem => by
        obtain rfl := Option.some.inj mem
        exact ⟨block, declared⟩ }

theorem unterminated? (sane : b.Sane) : ∃ flag, b.unterminated? = some flag := by
  unfold BlockBuilder.unterminated? Procedure.block?
  rw [List.getElem?_eq_getElem sane.current]
  exact ⟨_, rfl⟩

/-- The two marks change nothing that a block depends on. -/
theorem mark (sane : b.Sane) (attrs : ProcAttrs)
    (body : attrs.isAbstract = b.procedure.attrs.isAbstract)
    (woven : attrs.woven = b.procedure.attrs.woven) :
    Sane { b with procedure := { b.procedure with attrs } } ∧
      b.procedure.Grows { b.procedure with attrs } := by
  have grows : b.procedure.Grows { b.procedure with attrs } :=
    .of_append [] [] (List.append_nil _).symm (List.append_nil _).symm woven
  exact ⟨⟨sane.entry, body.trans sane.body, sane.blocks, sane.locals, sane.params, sane.current,
    fun block mem => grows.blockSound (sane.sound block mem)⟩, grows⟩

end Sane

/-! ### Locals -/

/-- The builder with one more local, and with more parameters. -/
def withLocal (b : BlockBuilder) (l : Local) (listed : List Local) : BlockBuilder :=
  { b with
    procedure := { b.procedure with
      locals := b.procedure.locals ++ [l]
      params := b.procedure.params ++ listed }
    nextLocal := b.nextLocal + 1 }

theorem addTemp_eq (b : BlockBuilder) (ty : Ty) : b.addTemp ty =
    (.ofIndex b.nextLocal, b.withLocal ⟨.ofIndex b.nextLocal, none, ty, false⟩ []) := by
  simp [addTemp, pushLocal, withLocal]

theorem addLocal_eq (b : BlockBuilder) (name : String) (ty : Ty) : b.addLocal name ty =
    (.ofIndex b.nextLocal, b.withLocal ⟨.ofIndex b.nextLocal, some name, ty, false⟩ []) := by
  simp [addLocal, pushLocal, withLocal]

/-- A new parameter is found at its number.  What is found there is the parameter itself, unless
its number has wrapped. -/
theorem Sane.addParam?_eq (sane : b.Sane) (name : String) (ty : Ty) :
    ∃ found, b.addParam? name ty = some (.ofIndex b.nextLocal,
        b.withLocal ⟨.ofIndex b.nextLocal, some name, ty, true⟩ [found]) ∧
      (b.nextLocal < 2 ^ 32 → found = ⟨.ofIndex b.nextLocal, some name, ty, true⟩) := by
  let l : Local := ⟨.ofIndex b.nextLocal, some name, ty, true⟩
  have length := sane.length_locals
  have lt : b.nextLocal < (b.procedure.locals ++ [l]).length := by
    rw [List.length_append, length]
    exact Nat.lt_succ_self _
  obtain ⟨found, here, stands⟩ :=
    Procedure.exists_local?_ofIndex (p := (b.pushLocal (some name) ty true).2.procedure) lt
  refine ⟨found, congrArg (Option.map _) here, fun fits => Option.some.inj (stands.symm.trans ?_)⟩
  rw [Nat.mod_eq_of_lt fits]
  show (b.procedure.locals ++ [l])[b.nextLocal]? = some l
  rw [← length, List.getElem?_concat_length]

theorem Sane.withLocal (sane : b.Sane) {l : Local} {listed : List Local}
    (number : l.id = .ofIndex b.nextLocal)
    (lists : b.nextLocal < 2 ^ 32 → listed = [l].filter Local.isParam) :
    (b.withLocal l listed).Sane ∧ b.procedure.Grows (b.withLocal l listed).procedure ∧
      (b.withLocal l listed).procedure.Has (.local (.ofIndex b.nextLocal)) := by
  have grows : b.procedure.Grows (b.withLocal l listed).procedure :=
    .of_append [] [l] (List.append_nil _).symm rfl rfl
  have locals : (b.withLocal l listed).procedure.locals.map Local.id =
      (List.range (b.nextLocal + 1)).map LocalId.ofIndex := by
    simp [BlockBuilder.withLocal, sane.locals, List.range_succ, number]
  refine ⟨⟨sane.entry, sane.body, sane.blocks, locals, fun fits => ?_, sane.current, ?_⟩, grows, ?_⟩
  · have fits : b.nextLocal < 2 ^ 32 := fits
    show b.procedure.params ++ listed = (b.procedure.locals ++ [l]).filter Local.isParam
    rw [List.filter_append, sane.params (Nat.le_of_lt fits), lists fits]
  · exact fun block mem => grows.blockSound (sane.sound block mem)
  · exact Procedure.declares_ofIndex locals (Nat.lt_succ_self _)

/-! ## One call -/

/-- The builder is sane, and what it gave back is there. -/
structure Knows (b : BlockBuilder) (answers : List BuildAnswer) : Prop where
  sane : b.Sane
  has : ∀ a ∈ answers, b.procedure.Has a

namespace Knows

variable {answers : List BuildAnswer} {s : BuildStep}

theorem index_lt (knows : b.Knows answers) {t : BlockId}
    (named : t = .ofIndex 0 ∨ .block t ∈ answers) : t.index < b.procedure.blocks.length := by
  rcases named with rfl | mem
  · exact knows.sane.entry_lt
  · exact knows.has _ mem

theorem declares (knows : b.Knows answers) {l : LocalId} (named : .local l ∈ answers) :
    b.procedure.declares l = true :=
  knows.has _ named

theorem answer (knows : b.Knows answers) {c : BlockBuilder} {a : BuildAnswer} (sane : c.Sane)
    (grows : b.procedure.Grows c.procedure) (has : c.procedure.Has a) :
    c.Knows (a :: answers) := by
  refine ⟨sane, List.forall_mem_cons.2 ⟨has, fun old mem => ?_⟩⟩
  exact grows.has (knows.has old mem)

/-- The same for calls that change a block and give nothing back. -/
theorem done (knows : b.Knows answers) {r : Option BlockBuilder}
    (changed : ∃ c, r = some c ∧ c.Sane ∧ b.procedure.Grows c.procedure) :
    ∃ a c, r.map (BuildAnswer.done, ·) = some (a, c) ∧ c.Knows (a :: answers) := by
  obtain ⟨c, rfl, sane, grows⟩ := changed
  exact ⟨_, c, rfl, knows.answer sane grows trivial⟩

/-- The same for calls that add a local. -/
theorem added (knows : b.Knows answers) {r : LocalId × BlockBuilder} {l : Local}
    {listed : List Local} (eq : r = (.ofIndex b.nextLocal, b.withLocal l listed))
    (number : l.id = .ofIndex b.nextLocal)
    (lists : b.nextLocal < 2 ^ 32 → listed = [l].filter Local.isParam) :
    ∃ a c, some (r.map BuildAnswer.local id) = some (a, c) ∧ c.Knows (a :: answers) := by
  subst eq
  obtain ⟨sane, grows, has⟩ := knows.sane.withLocal number lists
  exact ⟨_, _, rfl, knows.answer sane grows has⟩

/-- A call does not fail, and what it gives back is there. -/
theorem take? (knows : b.Knows answers) (names : s.Names answers) :
    ∃ a c, s.take? b = some (a, c) ∧ c.Knows (a :: answers) := by
  have same : b.procedure.Grows b.procedure := .refl _
  have blocks : ∀ t ∈ s.blocks, t.index < b.procedure.blocks.length :=
    fun t mem => knows.index_lt (names.blocks t mem)
  have locals : ∀ l ∈ s.locals, b.procedure.declares l = true :=
    fun l mem => knows.declares (names.locals l mem)
  cases s with
  | createBlock =>
    obtain ⟨sane, grows, has⟩ := knows.sane.createBlock
    exact ⟨_, _, rfl, knows.answer sane grows has⟩
  | switchTo block =>
    have lt := blocks block (List.mem_singleton_self _)
    exact ⟨_, _, rfl, knows.answer (knows.sane.switchTo lt) same trivial⟩
  | currentBlock => exact ⟨_, _, rfl, knows.answer knows.sane same knows.sane.current⟩
  | addTemp ty => exact knows.added (addTemp_eq b ty) rfl fun _ => rfl
  | addLocal name ty => exact knows.added (addLocal_eq b name ty) rfl fun _ => rfl
  | addParam name ty =>
    obtain ⟨found, added, same⟩ := knows.sane.addParam?_eq name ty
    rw [BuildStep.take?, added, Option.map_some]
    exact knows.added rfl rfl fun fits => congrArg (fun l => [l]) (same fits)
  | pushStmt stmt => exact knows.done (knows.sane.pushStmt? names.plain locals)
  | assign dst rvalue => exact knows.done (knows.sane.pushStmt? rfl locals)
  | call dst func args => exact knows.done (knows.sane.pushStmt? rfl locals)
  | terminate terminator => exact knows.done (knows.sane.terminate? names.plain blocks locals)
  | setHandler target bind =>
    exact knows.done (knows.sane.setHandler? (blocks target (List.mem_singleton_self _))
      (locals bind (List.mem_singleton_self _)))
  | unterminated =>
    obtain ⟨flag, found⟩ := knows.sane.unterminated?
    refine ⟨.flag flag, b, ?_, knows.answer knows.sane same trivial⟩
    rw [BuildStep.take?, found, Option.map_some]
  | markSuspending =>
    obtain ⟨sane, grows⟩ := knows.sane.mark { b.procedure.attrs with suspendMarker := true } rfl rfl
    exact ⟨_, _, rfl, knows.answer sane grows trivial⟩
  | markBridge =>
    obtain ⟨sane, grows⟩ := knows.sane.mark { b.procedure.attrs with bridge := true } rfl rfl
    exact ⟨_, _, rfl, knows.answer sane grows trivial⟩

end Knows

/-! ## All calls -/

/-- What the calls give back, and the builder after them; `none` if a call fails. -/
def run : BlockBuilder → List BuildStep → Option (List BuildAnswer × BlockBuilder)
  | b, [] => some ([], b)
  | b, s :: rest => do
    let (answer, b) ← s.take? b
    let (answers, b) ← run b rest
    return (answer :: answers, b)

/-- Every call names the entry block and what was given back before it only, and no
resumption code. -/
def Named : BlockBuilder → List BuildAnswer → List BuildStep → Prop
  | _, _, [] => True
  | b, answers, s :: rest =>
    s.Names answers ∧ ∀ r ∈ s.take? b, Named r.2 (r.1 :: answers) rest

instance decidableNamed : (b : BlockBuilder) → (answers : List BuildAnswer) →
    (steps : List BuildStep) → Decidable (b.Named answers steps)
  | _, _, [] => .isTrue trivial
  | b, answers, s :: rest =>
    have (r : BuildAnswer × BlockBuilder) : Decidable (Named r.2 (r.1 :: answers) rest) :=
      decidableNamed r.2 (r.1 :: answers) rest
    inferInstanceAs (Decidable (s.Names answers ∧ ∀ r ∈ s.take? b, Named r.2 (r.1 :: answers) rest))

/-- No call fails, and the builder is sane after each of them. -/
theorem Knows.run {answers : List BuildAnswer} {steps made : List BuildStep}
    (knows : b.Knows answers) (named : b.Named answers steps) (begins : made <+: steps) :
    ∃ given c, b.run made = some (given, c) ∧ c.Sane := by
  induction steps generalizing b answers made with
  | nil =>
    obtain rfl := List.prefix_nil.1 begins
    exact ⟨[], b, rfl, knows.sane⟩
  | cons s rest ih =>
    cases made with
    | nil => exact ⟨[], b, rfl, knows.sane⟩
    | cons first made =>
      obtain ⟨rfl, rest_begins⟩ := List.cons_prefix_cons.1 begins
      obtain ⟨names, later⟩ := named
      obtain ⟨a, c, taken, known⟩ := knows.take? names
      obtain ⟨given, last, ran, sane⟩ := ih known (later (a, c) taken) rest_begins
      refine ⟨a :: given, last, ?_, sane⟩
      rw [BlockBuilder.run, taken]
      show (c.run made >>= fun x => some (a :: x.1, x.2)) = _
      rw [ran]
      rfl

/-- A sane builder holds a valid procedure exactly if 32 bits are enough to number the
blocks. -/
theorem Sane.validate_iff (sane : b.Sane) :
    b.finish.validate = .ok () ↔ b.finish.blocks.length ≤ 2 ^ 32 := by
  have number {i : Nat} {block : Block} (found : b.procedure.blocks[i]? = some block) :
      block.id.index = i % 2 ^ 32 := by
    rw [List.eq_of_map_eq_map_range sane.blocks found, BlockId.index_ofIndex_eq_mod]
  rw [Procedure.validate_eq_ok_iff]
  constructor
  · rintro (abstract | valid)
    · rw [finish, sane.body] at abstract
      cases abstract
    · -- A block past the last number has the number of an earlier one.
      by_contra many
      rw [not_le] at many
      have wraps := valid.numbered _ _ (List.getElem?_eq_getElem many)
      rw [number (List.getElem?_eq_getElem many)] at wraps
      simp at wraps
  · intro fits
    refine .inr ⟨?_, fun i block found => ?_, sane.sound⟩
    · rw [finish, sane.entry]
      exact sane.entry_lt
    · obtain ⟨lt, -⟩ := List.getElem?_eq_some_iff.1 found
      rw [number found, Nat.mod_eq_of_lt (Nat.lt_of_lt_of_le lt fits)]

/-- At every moment of a run no call has failed, and blocks and locals stand at their numbers.
As long as 32 bits are enough to number the locals, the parameters are the locals that are
parameters, and the procedure is valid as long as 32 bits are enough to number its blocks. -/
theorem run_valid (id : ProcId) (retTy : Ty) {steps made : List BuildStep}
    (named : (start id retTy).Named [] steps) (begins : made <+: steps) :
    ∃ answers b, (start id retTy).run made = some (answers, b) ∧
      (∀ (i : Nat) (block : Block), b.finish.blocks[i]? = some block → block.id = .ofIndex i) ∧
      (∀ (i : Nat) (l : Local), b.finish.locals[i]? = some l → l.id = .ofIndex i) ∧
      (b.finish.locals.length ≤ 2 ^ 32 →
        b.finish.params = b.finish.locals.filter Local.isParam) ∧
      (b.finish.validate = .ok () ↔ b.finish.blocks.length ≤ 2 ^ 32) := by
  have knows : (start id retTy).Knows [] := ⟨sane_start id retTy, List.forall_mem_nil _⟩
  obtain ⟨answers, b, ran, sane⟩ := knows.run named begins
  refine ⟨answers, b, ran, fun _ _ => List.eq_of_map_eq_map_range sane.blocks,
    fun _ _ => List.eq_of_map_eq_map_range sane.locals, fun fits => ?_, sane.validate_iff⟩
  exact sane.params (sane.length_locals ▸ fits)

/-- The calls for a procedure that doubles its parameter under a handler.  Both targets are
created before their code, and the calls go back to the entry at the end. -/
def guardedCalls : List BuildStep :=
  let exit := BlockId.ofIndex 1
  let catching := BlockId.ofIndex 2
  let n := LocalId.ofIndex 0
  let sum := LocalId.ofIndex 1
  let err := LocalId.ofIndex 2
  [.createBlock, .addParam "n" .int, .addTemp .int, .createBlock, .switchTo catching,
    .addLocal "err" .any, .terminate (.throw (.local err)), .switchTo exit, .unterminated,
    .terminate (.ret (some (.local sum))), .currentBlock, .switchTo (.ofIndex 0),
    .setHandler catching err, .assign sum (.binary .add (.local n) (.local n)),
    .call none ⟨⟨"app.Main", "note", "(int)"⟩, .static⟩ [.local sum], .terminate (.goto exit),
    .markSuspending]

theorem run_valid_guarded :
    let first := start ⟨"app.Main", "double", "(int)->int"⟩ .int
    first.Named [] guardedCalls ∧
      ∃ answers b, first.run guardedCalls = some (answers, b) ∧ b.finish.validate = .ok () ∧
        b.finish.params = b.finish.locals.filter Local.isParam := by
  intro first
  have named : first.Named [] guardedCalls := by decide
  have three : ∀ r ∈ first.run guardedCalls,
      r.2.finish.blocks.length = 3 ∧ r.2.finish.locals.length = 3 := by decide
  obtain ⟨answers, b, ran, -, -, params, valid⟩ :=
    run_valid ⟨"app.Main", "double", "(int)->int"⟩ .int named (List.prefix_refl guardedCalls)
  obtain ⟨blocks, locals⟩ := three (answers, b) ran
  refine ⟨named, answers, b, ran, valid.2 ?_, params ?_⟩
  · rw [blocks]
    decide
  · rw [locals]
    decide

end BlockBuilder

end Resumable
