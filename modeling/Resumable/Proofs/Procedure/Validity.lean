import Resumable.Procedure.Validity

/-!
# What a valid procedure satisfies

`Procedure.Sound` says in one place what `Procedure.validate` checks block by block:
blocks stand at their numbers, every edge and every local exists, and only resumable
code restores, resumes, dispatches or suspends.

`validate_eq_ok_iff` ties the two together.
-/

namespace Resumable

/-- Whether the terminator dispatches on a state or suspends. -/
def Terminator.isResumption : Terminator → Bool
  | .dispatch .. => true
  | .suspendCall .. => true
  | _ => false

/-- A sequence succeeds exactly if both parts do. -/
theorem Except.bind_eq_ok_iff {ε α β : Type} {x : Except ε α} {f : α → Except ε β} {b : β} :
    (x >>= f) = .ok b ↔ ∃ a, x = .ok a ∧ f a = .ok b := by
  cases x with
  | error e =>
    constructor
    · intro h
      cases h
    · rintro ⟨a, h, -⟩
      cases h
  | ok a =>
    constructor
    · intro h
      exact ⟨a, rfl, h⟩
    · rintro ⟨c, h, rest⟩
      cases h
      exact rest

/-- The same for a check and what follows. -/
theorem Except.seq_eq_ok_iff {ε β : Type} {x : Except ε Unit} {f : Unit → Except ε β} {b : β} :
    (x >>= f) = .ok b ↔ x = .ok () ∧ f () = .ok b := by
  rw [Except.bind_eq_ok_iff]
  exact ⟨fun ⟨_, h⟩ => h, fun h => ⟨(), h⟩⟩

theorem Except.forM_eq_ok_iff {ε α : Type} {f : α → Except ε Unit} {l : List α} :
    l.forM f = .ok () ↔ ∀ a ∈ l, f a = .ok () := by
  induction l with
  | nil => exact ⟨by simp, fun _ => rfl⟩
  | cons a l ih =>
    have step : (a :: l).forM f = (f a >>= fun _ => l.forM f) := rfl
    rw [step, Except.seq_eq_ok_iff, ih, List.forall_mem_cons]

namespace Procedure

structure BlockSound (p : Procedure) (b : Block) : Prop where
  edges : ∀ t ∈ b.terminator.successors, t.index < p.blocks.length
  handler : ∀ h ∈ b.handler, h.target.index < p.blocks.length ∧ p.declares h.bind = true
  plain : ∀ s ∈ b.statements, isResumption s = true → p.attrs.woven = true
  locals : ∀ s ∈ b.statements, ∀ l ∈ s.defs ++ s.uses, p.declares l = true
  plainEnd : b.terminator.isResumption = true → p.attrs.woven = true
  localsEnd : ∀ l ∈ b.terminator.def?.toList ++ b.terminator.uses, p.declares l = true

/-- The rules that a procedure with a body has to keep. -/
structure Sound (p : Procedure) : Prop where
  entry : p.entryBlock.index < p.blocks.length
  numbered : ∀ (i : Nat) (b : Block), p.blocks[i]? = some b → b.id.index = i
  blocks : ∀ b ∈ p.blocks, p.BlockSound b

variable {p : Procedure}

/-- The statements of code that is not woven neither restore nor resume. -/
theorem BlockSound.isResumption_stmt {b : Block} (sound : p.BlockSound b)
    (unwoven : p.attrs.woven = false) {s : Stmt} (mem : s ∈ b.statements) :
    isResumption s = false := by
  rw [← Bool.not_eq_true]
  intro resumption
  have woven := sound.plain s mem resumption
  rw [unwoven] at woven
  cases woven

/-- Code that is not woven neither dispatches nor suspends. -/
theorem BlockSound.isResumption_terminator {b : Block} (sound : p.BlockSound b)
    (unwoven : p.attrs.woven = false) : b.terminator.isResumption = false := by
  rw [← Bool.not_eq_true]
  intro resumption
  have woven := sound.plainEnd resumption
  rw [unwoven] at woven
  cases woven

theorem Sound.map_index (sound : p.Sound) :
    p.blocks.map (fun b => b.id.index) = List.range p.blocks.length := by
  refine List.ext_getElem? fun i => ?_
  rw [List.getElem?_map]
  cases found : p.blocks[i]? with
  | none => simpa using found
  | some b =>
    obtain ⟨lt, -⟩ := List.getElem?_eq_some_iff.1 found
    rw [Option.map_some, sound.numbered i b found, List.getElem?_range lt]

theorem Sound.index_lt (sound : p.Sound) {b : Block} (mem : b ∈ p.blocks) :
    b.id.index < p.blocks.length := by
  rw [← List.mem_range, ← sound.map_index]
  exact List.mem_map_of_mem mem

/-- A block is found at its number. -/
theorem Sound.block?_id (sound : p.Sound) {b : Block} (mem : b ∈ p.blocks) :
    p.block? b.id = some b := by
  obtain ⟨i, found⟩ := List.getElem?_of_mem mem
  unfold block?
  rw [sound.numbered i b found, found]

theorem Sound.block?_of_lt (sound : p.Sound) {t : BlockId} (lt : t.index < p.blocks.length) :
    ∃ b ∈ p.blocks, p.block? t = some b ∧ b.id = t := by
  have found := List.getElem?_eq_getElem lt
  refine ⟨_, List.getElem_mem lt, found, ?_⟩
  have number := sound.numbered _ _ found
  revert number
  generalize (p.blocks[t.index]).id = id
  cases id
  cases t
  exact fun number => congrArg BlockId.mk (UInt32.toNat.inj number)

theorem checkEdge_eq_ok_iff {source target : BlockId} :
    p.checkEdge source target = .ok () ↔ target.index < p.blocks.length := by
  unfold checkEdge
  split <;> simp_all

theorem checkLocal_eq_ok_iff {block : BlockId} {id : LocalId} :
    p.checkLocal block id = .ok () ↔ p.declares id = true := by
  unfold checkLocal
  split <;> simp_all

theorem checkWoven_eq_ok_iff {block : BlockId} :
    p.checkWoven block = .ok () ↔ p.attrs.woven = true := by
  unfold checkWoven
  split <;> simp_all

theorem checkStmt_eq_ok_iff {block : BlockId} {s : Stmt} :
    p.checkStmt block s = .ok () ↔ (isResumption s = true → p.attrs.woven = true) ∧
      ∀ l ∈ s.defs ++ s.uses, p.declares l = true := by
  unfold checkStmt
  cases resumption : isResumption s with
  | false =>
    simp only [Bool.false_eq_true, false_implies, true_and, if_false]
    exact Except.forM_eq_ok_iff.trans (forall₂_congr fun _ _ => checkLocal_eq_ok_iff)
  | true =>
    simp only [true_implies, if_true]
    rw [Except.seq_eq_ok_iff, checkWoven_eq_ok_iff, Except.forM_eq_ok_iff]
    exact and_congr_right fun _ => forall₂_congr fun _ _ => checkLocal_eq_ok_iff

theorem checkTerminator_eq_ok_iff {block : BlockId} {t : Terminator} :
    p.checkTerminator block t = .ok () ↔ (t.isResumption = true → p.attrs.woven = true) ∧
      ∀ l ∈ t.def?.toList ++ t.uses, p.declares l = true := by
  have locals : (t.def?.toList.forM (p.checkLocal block) >>= fun _ =>
      t.uses.forM (p.checkLocal block)) = .ok () ↔
        ∀ l ∈ t.def?.toList ++ t.uses, p.declares l = true := by
    rw [Except.seq_eq_ok_iff, Except.forM_eq_ok_iff, Except.forM_eq_ok_iff]
    simp only [List.forall_mem_append, checkLocal_eq_ok_iff]
  have woven : (p.checkWoven block >>= fun _ => t.def?.toList.forM (p.checkLocal block) >>=
      fun _ => t.uses.forM (p.checkLocal block)) = .ok () ↔ p.attrs.woven = true ∧
        ∀ l ∈ t.def?.toList ++ t.uses, p.declares l = true := by
    rw [Except.seq_eq_ok_iff, checkWoven_eq_ok_iff, locals]
  unfold checkTerminator
  cases t with
  | dispatch fresh states => exact woven.trans (by simp [Terminator.isResumption])
  | suspendCall dst func args state save next =>
    exact woven.trans (by simp [Terminator.isResumption])
  | _ => exact locals.trans (by simp [Terminator.isResumption])

theorem checkHandler_eq_ok_iff {block : BlockId} {h : Handler} :
    p.checkHandler block h = .ok () ↔
      h.target.index < p.blocks.length ∧ p.declares h.bind = true := by
  unfold checkHandler
  rw [Except.seq_eq_ok_iff, checkEdge_eq_ok_iff, checkLocal_eq_ok_iff]

theorem checkBlock_eq_ok_iff {b : Block} : p.checkBlock b = .ok () ↔ p.BlockSound b := by
  unfold checkBlock
  simp only [Except.seq_eq_ok_iff, Except.forM_eq_ok_iff, checkEdge_eq_ok_iff,
    checkHandler_eq_ok_iff, checkStmt_eq_ok_iff, checkTerminator_eq_ok_iff, Option.mem_toList]
  constructor
  · rintro ⟨edges, handler, statements, plainEnd, localsEnd⟩
    exact ⟨edges, handler, fun s mem => (statements s mem).1, fun s mem => (statements s mem).2,
      plainEnd, localsEnd⟩
  · intro sound
    exact ⟨sound.edges, sound.handler, fun s mem => ⟨sound.plain s mem, sound.locals s mem⟩,
      sound.plainEnd, sound.localsEnd⟩

theorem checkBlocks_eq_ok_iff {blocks : List Block} {start : Nat} :
    p.checkBlocks start blocks = .ok () ↔
      (∀ (i : Nat) (b : Block), blocks[i]? = some b → b.id.index = start + i) ∧
        ∀ b ∈ blocks, p.BlockSound b := by
  induction blocks generalizing start with
  | nil => exact ⟨fun _ => by simp, fun _ => rfl⟩
  | cons b rest ih =>
    rw [checkBlocks]
    by_cases numbered : b.id.index = start
    · rw [if_pos numbered, Except.seq_eq_ok_iff, ih, checkBlock_eq_ok_iff,
        List.forall_mem_cons]
      constructor
      · rintro ⟨sound, others, rest⟩
        refine ⟨fun i => ?_, sound, rest⟩
        cases i with
        | zero =>
          intro c head
          obtain rfl : b = c := by simpa using head
          exact numbered
        | succ i =>
          intro c found
          rw [others i c (by simpa using found)]
          omega
      · rintro ⟨all, sound, rest⟩
        refine ⟨sound, fun i c found => ?_, rest⟩
        rw [all (i + 1) c (by simpa using found)]
        omega
    · rw [if_neg numbered]
      constructor
      · intro h
        cases h
      · rintro ⟨all, -⟩
        exact absurd (all 0 b rfl) numbered

/-- A procedure is valid exactly if it has no body or keeps all the rules. -/
theorem validate_eq_ok_iff : p.validate = .ok () ↔ p.attrs.isAbstract = true ∨ p.Sound := by
  unfold validate
  cases abstract : p.attrs.isAbstract with
  | true => exact ⟨fun _ => Or.inl rfl, fun _ => rfl⟩
  | false =>
    simp only [Bool.false_eq_true, if_false, false_or]
    by_cases none : p.blocks = []
    · have empty : p.blocks.isEmpty = true := by simp [none]
      rw [empty]
      constructor
      · intro h
        cases h
      · intro sound
        have entry := sound.entry
        simp [none] at entry
    · have some : p.blocks.isEmpty = false := by simpa using none
      simp only [some, Bool.false_eq_true, if_false]
      by_cases entry : p.entryBlock.index < p.blocks.length
      · simp only [entry, if_true]
        rw [checkBlocks_eq_ok_iff]
        constructor
        · rintro ⟨numbered, blocks⟩
          exact ⟨entry, fun i b found => by simpa using numbered i b found, blocks⟩
        · intro sound
          exact ⟨fun i b found => by simpa using sound.numbered i b found, sound.blocks⟩
      · simp only [entry, if_false]
        constructor
        · intro h
          cases h
        · intro sound
          exact absurd sound.entry entry

/-- A valid procedure with a body keeps all the rules. -/
theorem sound_of_validate (valid : p.validate = .ok ()) (body : p.hasBody = true) : p.Sound :=
  (validate_eq_ok_iff.1 valid).resolve_left fun abstract => by
    simp [hasBody, abstract] at body

end Procedure

end Resumable
