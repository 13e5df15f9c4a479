import Resumable.Proofs.Procedure.Liveness
import Resumable.Proofs.Weave.Numbering
import Resumable.Machine.Step

/-!
# A procedure and its woven form

`Follows` says how the code of a woven procedure goes along a block of the original:
the same statements, cut after some calls.  Where a call is cut, the woven code can
take it up again (`Resumes`), and what it saves is enough for the rest of the block and
for its handler.  A call that is not cut never suspends.

`Counterpart` puts this together for a whole procedure, `Assembled.counterpart` shows
it for what weaving makes of a procedure, and `Counterpart.ofUnwoven` for a procedure
that is left alone.
-/

namespace Resumable

/-- Whether a call of a procedure can give up the worker: it is a primitive that can,
or it is in resumable form. -/
inductive Program.MaySuspend (program : Program) (target : ProcId) : Prop
  | primitive {which : Primitive} (named : Primitive.ofProc? target = some which)
      (suspends : which.suspends = true)
  | woven {w : Procedure} (notPrimitive : Primitive.ofProc? target = none)
      (found : program.procedure? target = some w) (woven : w.attrs.woven = true)

/-- Every call of the statements returns without giving up the worker. -/
def Program.Quiet (program : Program) (statements : List Stmt) : Prop :=
  ∀ s ∈ statements, ∀ func ∈ s.callee?, ¬ program.MaySuspend func.target

/-- A suspended call can be taken up again: the dispatcher leads from its state to a
block that restores what the call saves and takes its completion. -/
structure Procedure.Resumes (w : Procedure) (b : Block) (dst : Option LocalId)
    (state : StateId) (save : List LocalId) (next : BlockId) : Prop where
  woven : w.attrs.woven = true
  fresh : state ≠ StateId.entry
  recorded : ∃ r, w.state? state = some r ∧ r.live.map LiveSlot.localId = save
  declared : ∀ l ∈ save, w.declares l = true
  taken : ∃ old states resume, w.block? w.entryBlock = some (dispatcher w.entryBlock old states) ∧
    (states.map fun s => (s.id, s.block)).find? (·.1 == state) = some (state, resume) ∧
    w.block? resume = some (b.resumption resume save dst next)

/-- The statements that a woven block still has to run go along with those that a block
of the original procedure still has to run. -/
inductive Procedure.Follows (program : Program) (w : Procedure) (live : Liveness) (b : Block) :
    Block → List Stmt → List Stmt → Prop
  /-- There is no suspending call left. -/
  | last {c : Block} {rest : List Stmt} (handler : c.handler = b.handler)
      (terminator : c.terminator = b.terminator) (quiet : program.Quiet rest) :
    Follows program w live b c rest rest
  /-- The next suspending call ends the woven block. -/
  | cut {c d : Block} {first more : List Stmt} {dst : Option LocalId} {func : FunctionRef}
      {args : List Operand} {state : StateId} {save : List LocalId} {next : BlockId}
      (handler : c.handler = b.handler)
      (terminator : c.terminator = .suspendCall dst func args state save next)
      (quiet : program.Quiet first) (resumes : w.Resumes b dst state save next)
      (needed : ∀ l, l ∈ live.before b more ∧ l ∉ dst ∨ l ∈ live.onRaise b → l ∈ save)
      (found : w.block? next = some d)
      (rest : Follows program w live b d more d.statements) :
    Follows program w live b c (first ++ .call dst func args :: more) first

theorem Procedure.Follows.handler_eq {program : Program} {w : Procedure} {live : Liveness}
    {b c : Block} {rest rest' : List Stmt} (h : Follows program w live b c rest rest') :
    c.handler = b.handler := by
  cases h with
  | last handler _ _ => exact handler
  | cut handler _ _ _ _ _ _ => exact handler

/-- The next statement of the woven code is the next one of the original. -/
theorem Procedure.Follows.cons {program : Program} {w : Procedure} {live : Liveness}
    {b c : Block} {s : Stmt} {rest rest' : List Stmt}
    (h : Follows program w live b c rest (s :: rest')) :
    ∃ more, rest = s :: more ∧ (∀ func ∈ s.callee?, ¬ program.MaySuspend func.target) ∧
      Follows program w live b c more rest' := by
  generalize whole : s :: rest' = statements at h
  cases h with
  | last handler terminator quiet =>
    subst whole
    exact ⟨rest', rfl, quiet s List.mem_cons_self,
      .last handler terminator fun x mem => quiet x (List.mem_cons_of_mem _ mem)⟩
  | cut handler terminator quiet resumes needed found rest =>
    subst whole
    exact ⟨_, rfl, quiet s List.mem_cons_self,
      .cut handler terminator (fun x mem => quiet x (List.mem_cons_of_mem _ mem)) resumes needed
        found rest⟩

/-- A call of an original procedure that the woven one makes as its terminator. -/
structure Program.SuspendsAt (program : Program) (live : Liveness) (w : Procedure) (b : Block)
    (more : List Stmt) (dst : Option LocalId) (target : ProcId) (state : StateId)
    (save : List LocalId) (next : BlockId) : Prop where
  resumes : w.Resumes b dst state save next
  needed : ∀ l, l ∈ live.before b more ∧ l ∉ dst ∨ l ∈ live.onRaise b → l ∈ save
  continues : ∃ d, w.block? next = some d ∧
    Procedure.Follows program w live b d more d.statements
  called : ∃ c ∈ w.blocks, ∃ func args, func.target = target ∧
    c.terminator = .suspendCall dst func args state save next

/-- Where the statements of a woven block end, the original block ends as well or a
suspending call comes next. -/
theorem Procedure.Follows.nil {program : Program} {w : Procedure} {live : Liveness}
    {b c : Block} {rest : List Stmt} (stands : c ∈ w.blocks)
    (h : Follows program w live b c rest []) :
    rest = [] ∧ c.terminator = b.terminator ∨
      ∃ more dst func args state save next, rest = .call dst func args :: more ∧
        c.terminator = .suspendCall dst func args state save next ∧
        program.SuspendsAt live w b more dst func.target state save next := by
  generalize whole : ([] : List Stmt) = statements at h
  cases h with
  | last handler terminator quiet => exact Or.inl ⟨rfl, terminator⟩
  | cut handler terminator quiet resumes needed found rest =>
    subst whole
    exact Or.inr ⟨_, _, _, _, _, _, _, rfl, terminator, resumes, needed, ⟨_, found, rest⟩,
      c, stands, _, _, rfl, terminator⟩

/-- A procedure of a program that does the work of an original procedure. -/
structure Program.Counterpart (program : Program) (live : Liveness) (p w : Procedure) :
    Prop where
  id : w.id = p.id
  params : w.params = p.params
  locals : w.locals = p.locals
  sound : p.Sound
  unwoven : p.attrs.woven = false
  solves : live.Solves p
  entry : w.attrs.woven = false ∧ w.entryBlock = p.entryBlock ∨ w.attrs.woven = true ∧
    ∃ states, w.block? w.entryBlock = some (dispatcher w.entryBlock p.entryBlock states)
  blocks : ∀ b ∈ p.blocks, ∃ c, w.block? b.id = some c ∧
    Procedure.Follows program w live b c b.statements c.statements
  states : (w.suspensions.map Prod.fst).Nodup

variable {program : Program} {p w : Procedure} {live : Liveness} {cut : Cut}

/-! ## What a cut makes of a block -/

theorem Liveness.mem_saveSet {b : Block} {site : Nat} {dst : Option LocalId} {l : LocalId} :
    l ∈ live.saveSet b site dst ↔
      l ∈ live.before b (b.statements.drop (site + 1)) ∧ l ∉ dst ∨ l ∈ live.onRaise b := by
  unfold saveSet Liveness.after
  rw [Ascending.mem_union LocalId.index_injective, Ascending.mem_diff]
  simp

/-- What a call saves is declared. -/
theorem Liveness.Solves.declared_saveSet (solves : live.Solves p) (sound : p.Sound) {b : Block}
    (mem : b ∈ p.blocks) {site : Nat} {dst : Option LocalId} {l : LocalId}
    (saved : l ∈ live.saveSet b site dst) : p.declares l = true := by
  rcases Liveness.mem_saveSet.1 saved with ⟨needed, -⟩ | raised
  · exact solves.declared_before sound mem (List.drop_subset _ _) needed
  · exact solves.declared_onRaise raised

theorem Procedure.localId_slot (p : Procedure) (l : LocalId) : (p.slot l).localId = l := by
  unfold slot
  split <;> rfl

theorem Procedure.localId_comp_slot (p : Procedure) : LiveSlot.localId ∘ p.slot = fun l => l :=
  funext p.localId_slot

theorem Assembled.declares_eq (h : Assembled p live cut w) (l : LocalId) :
    w.declares l = p.declares l := by
  rw [h.form]
  rfl

/-- The statements from one on, around one that stands behind it. -/
theorem drop_eq_around {statements : List Stmt} {site start : Nat} {s : Stmt}
    (here : statements[site]? = some s) (le : start ≤ site) :
    statements.drop start = (statements.take site).drop start ++ s :: statements.drop (site + 1) := by
  obtain ⟨lt, found⟩ := List.getElem?_eq_some_iff.1 here
  have whole := congrArg (List.drop start) (List.take_append_drop site statements)
  rw [List.drop_append_of_le_length (by rw [List.length_take]; omega)] at whole
  rw [← found, List.getElem_cons_drop]
  exact whole.symm

/-- The resume block of a state takes a suspended call up again. -/
theorem Assembled.resumes (h : Assembled p live cut w) (solves : live.Solves p) {b : Block}
    (mem : b ∈ p.blocks) {site : Nat} {dst : Option LocalId} {state : StateId}
    {resume next : BlockId}
    (listed : ⟨state, resume, (live.saveSet b site dst).map p.slot, []⟩ ∈ cut.states)
    (piece : b.resumption resume (live.saveSet b site dst) dst next ∈ cut.blocks) :
    w.Resumes b dst state (live.saveSet b site dst) next := by
  obtain ⟨successors, recorded⟩ := h.state?_id listed
  have resume := h.block?_id (h.mem_blocks_iff.2 (Or.inl piece))
  refine ⟨by rw [h.form]; rfl, h.ne_entry listed, ⟨_, recorded, ?_⟩, ?_,
    _, _, _, h.block?_entry, h.arm listed, resume⟩
  · rw [List.map_map, p.localId_comp_slot, List.map_id']
  · exact fun l saved => (h.declares_eq l).trans (solves.declared_saveSet h.sound mem saved)

/-- The pieces of a block follow it, from the piece with a number on. -/
theorem follows_cutFrom (h : Assembled p live cut w) (solves : live.Solves p) {b : Block}
    (mem : b ∈ p.blocks) {id : BlockId} {start : Nat} {sites : List Nat}
    {nextBlock nextState : Nat} {part : Cut}
    (ok : cutFrom p live b id start sites nextBlock nextState = .ok part)
    (ascending : sites.Pairwise (· < ·)) (ahead : ∀ s ∈ sites, start ≤ s)
    (quiet : ∀ (i : Nat) (s : Stmt), b.statements[i]? = some s → i ∉ sites → start ≤ i →
      ∀ func ∈ s.callee?, ¬ program.MaySuspend func.target)
    (blocks : part.blocks ⊆ cut.blocks) (states : part.states ⊆ cut.states) :
    ∃ c, w.block? id = some c ∧
      Procedure.Follows program w live b c (b.statements.drop start) c.statements := by
  induction sites generalizing id start nextBlock nextState part with
  | nil =>
    rw [cutFrom] at ok
    cases ok
    have here := h.mem_blocks_iff.2 (Or.inl (blocks List.mem_cons_self))
    refine ⟨_, h.block?_id here, .last rfl rfl fun s mem func call => ?_⟩
    obtain ⟨i, found⟩ := List.getElem?_of_mem mem
    rw [List.getElem?_drop] at found
    exact quiet _ s found (by simp) (by omega) func call
  | cons site sites ih =>
    obtain ⟨dst, func, args, more, call, rest, rfl⟩ := cutFrom_cons ok
    rw [List.pairwise_cons] at ascending
    rw [List.forall_mem_cons] at ahead
    rw [List.cons_subset, List.cons_subset] at blocks
    rw [List.cons_subset] at states
    obtain ⟨d, found, follows⟩ := ih rest ascending.2 (fun s mem => ascending.1 s mem)
      (fun i s at_ other le => quiet i s at_ (by
        rw [List.mem_cons, not_or]
        exact ⟨by omega, other⟩) (by omega)) blocks.2.2 states.2
    have piece := h.block?_id (h.mem_blocks_iff.2 (Or.inl blocks.1))
    have resumes := h.resumes solves mem states.1 blocks.2.1
    refine ⟨_, piece, ?_⟩
    rw [drop_eq_around call ahead.1]
    refine .cut rfl rfl ?_ resumes (fun l => Liveness.mem_saveSet.2) found follows
    intro s mem func call
    obtain ⟨i, found⟩ := List.getElem?_of_mem mem
    rw [List.getElem?_drop, List.getElem?_take] at found
    split at found
    · rename_i before
      refine quiet _ s found ?_ (by omega) func call
      rw [List.mem_cons, not_or]
      exact ⟨by omega, fun later => Nat.lt_asymm before (ascending.1 _ later)⟩
    · cases found

theorem exists_cutBlock {blocks : List Block} {nextBlock nextState : Nat}
    (ok : cutBlocks p live blocks nextBlock nextState = .ok cut) {b : Block} (mem : b ∈ blocks) :
    ∃ n k part, cutBlock p live b n k = .ok part ∧ part.blocks ⊆ cut.blocks ∧
      part.states ⊆ cut.states := by
  induction blocks generalizing nextBlock nextState cut with
  | nil => cases mem
  | cons c rest ih =>
    obtain ⟨first, more, head, tail, rfl⟩ := cutBlocks_cons ok
    rcases List.mem_cons.1 mem with rfl | mem
    · exact ⟨_, _, first, head, List.subset_append_left _ _, List.subset_append_left _ _⟩
    · obtain ⟨n, k, part, here, blocks, states⟩ := ih tail mem
      exact ⟨n, k, part, here, List.subset_append_of_subset_right _ blocks,
        List.subset_append_of_subset_right _ states⟩

/-- Every call of a procedure that is not marked returns without giving up the
worker. -/
def Program.Marked (program : Program) (p : Procedure) : Prop :=
  ∀ b ∈ p.blocks, ∀ (i : Nat) (s : Stmt), b.statements[i]? = some s → i ∉ b.suspendSites →
    ∀ func ∈ s.callee?, ¬ program.MaySuspend func.target

/-- What weaving makes of a procedure does the work of the procedure. -/
theorem Assembled.counterpart (h : Assembled p live cut w) (solves : live.Solves p)
    (marked : program.Marked p) : program.Counterpart live p w where
  id := by rw [h.form]; rfl
  params := by rw [h.form]; rfl
  locals := by rw [h.form]; rfl
  sound := h.sound
  unwoven := h.unwoven
  solves := solves
  entry := Or.inr ⟨by rw [h.form]; rfl, _, h.block?_entry⟩
  states := h.nodup_suspensions
  blocks := by
    intro b mem
    obtain ⟨n, k, part, ok, blocks, states⟩ := exists_cutBlock h.cut_ok mem
    refine follows_cutFrom h solves mem ok (Ascending.sorted_ofList _) (fun _ _ => Nat.zero_le _)
      (fun i s found other _ => marked b mem i s found fun listed => other ?_) blocks states
    exact (Ascending.mem_ofList Function.injective_id).2 listed

theorem Assembled.hasBody (h : Assembled p live cut w) (body : p.hasBody = true) :
    w.hasBody = true := by
  unfold Procedure.hasBody at body ⊢
  rw [Bool.and_eq_true] at body ⊢
  constructor
  · rw [h.form]
    exact body.1
  · have entry := h.block?_entry
    unfold Procedure.block? at entry
    cases blocks : w.blocks with
    | nil => simp [blocks] at entry
    | cons b rest => rfl

/-- A procedure without suspending calls does its own work. -/
theorem Program.Counterpart.ofUnwoven (sound : p.Sound) (unwoven : p.attrs.woven = false)
    (solves : live.Solves p) (quiet : ∀ b ∈ p.blocks, program.Quiet b.statements) :
    program.Counterpart live p p where
  id := rfl
  params := rfl
  locals := rfl
  sound := sound
  unwoven := unwoven
  solves := solves
  entry := Or.inl ⟨unwoven, rfl⟩
  blocks := fun b mem => ⟨b, sound.block?_id mem, .last rfl rfl (quiet b mem)⟩
  states := by
    have none : p.suspensions = [] := by
      unfold Procedure.suspensions
      rw [List.filterMap_eq_nil_iff]
      intro b mem
      cases last : b.terminator with
      | suspendCall =>
        have plain := (sound.blocks b mem).isResumption_terminator unwoven
        rw [last] at plain
        cases plain
      | _ => rfl
    rw [none]
    exact .nil

/-! ## Marks -/

theorem Procedure.hasBody_annotate (sites : List Site) (flags : List Bool) :
    (annotate p sites flags).hasBody = p.hasBody := by
  unfold hasBody annotate
  cases p.blocks <;> rfl

theorem Procedure.Sound.annotate (sound : p.Sound) (sites : List Site) (flags : List Bool) :
    (Resumable.annotate p sites flags).Sound := by
  have blocks : ∀ (i : Nat) (b : Block), (Resumable.annotate p sites flags).blocks[i]? = some b →
      ∃ c, p.blocks[i]? = some c ∧ ∃ marks, b = { c with suspendSites := marks } := by
    intro i b found
    simp only [Resumable.annotate, List.getElem?_map, List.getElem?_zipIdx, Option.map_map,
      Option.map_eq_some_iff, Function.comp_apply] at found
    obtain ⟨c, here, rfl⟩ := found
    exact ⟨c, here, _, rfl⟩
  have length : (Resumable.annotate p sites flags).blocks.length = p.blocks.length := by
    simp [Resumable.annotate]
  constructor
  · rw [length]
    exact sound.entry
  · intro i b found
    obtain ⟨c, here, marks, rfl⟩ := blocks i b found
    exact sound.numbered i c here
  · intro b mem
    obtain ⟨i, found⟩ := List.getElem?_of_mem mem
    obtain ⟨c, here, marks, rfl⟩ := blocks i b found
    obtain ⟨edges, handler, plain, locals, plainEnd, localsEnd⟩ :=
      sound.blocks c (List.mem_of_getElem? here)
    rw [← length] at edges handler
    exact ⟨edges, handler, plain, locals, plainEnd, localsEnd⟩

theorem Procedure.Follows.ofMarked {b c : Block} {marks : List Nat} {rest rest' : List Stmt}
    (h : Follows program w live { b with suspendSites := marks } c rest rest') :
    Follows program w live b c rest rest' := by
  induction h with
  | last handler terminator quiet => exact .last handler terminator quiet
  | cut handler terminator quiet resumes needed found _ ih =>
    obtain ⟨woven, fresh, recorded, declared, taken⟩ := resumes
    exact .cut handler terminator quiet ⟨woven, fresh, recorded, declared, taken⟩ needed found ih

/-- The marks of a procedure do not matter for the work that it does. -/
theorem Program.Counterpart.ofAnnotated {sites : List Site} {flags : List Bool}
    (h : program.Counterpart live (annotate p sites flags) w) (sound : p.Sound) :
    program.Counterpart live p w := by
  have marked : ∀ b ∈ p.blocks, ∃ marks : List Nat,
      { b with suspendSites := marks } ∈ (annotate p sites flags).blocks := by
    intro b mem
    obtain ⟨i, found⟩ := List.getElem?_of_mem mem
    refine ⟨((sites.filter fun s => s.block == i && s.suspends flags).map Site.stmt), ?_⟩
    refine List.mem_map.2 ⟨(b, i), ?_, rfl⟩
    rw [List.mem_zipIdx_iff_getElem?]
    exact found
  refine ⟨h.id, h.params, h.locals, sound, h.unwoven, ⟨fun b mem => ?_, h.solves.declared⟩,
    h.entry, fun b mem => ?_, h.states⟩
  · obtain ⟨marks, here⟩ := marked b mem
    have start := h.solves.atStart { b with suspendSites := marks } here
    exact start
  · obtain ⟨marks, here⟩ := marked b mem
    obtain ⟨c, found, follows⟩ := h.blocks _ here
    exact ⟨c, found, follows.ofMarked⟩

end Resumable
