import Resumable.Proofs.Weave.Soundness
import Resumable.Proofs.Procedure.Paths

/-!
# Weaving never fails on code that it should accept

Weaving a valid procedure whose marks all stand at calls succeeds, and the result passes both
checks, the one of well-formed graphs and the one of the resumable form
(`Procedure.weave_accepts`).  A mark that stands at no call is refused.

What takes an argument is that a resume block needs nothing that it does not restore.  The
liveness of the woven procedure is computed anew, over other blocks and other edges.  But it
is the least one, and what the original needs behind a call is enough for the piece that
carries on there (`Procedure.Carrier.carried_of_compute?`): a piece reads what the original reads,
and the locals that a call saves are needed there in the original, too.
-/

namespace Resumable

/-- A block of the woven procedure carries on the code of an original block from some
statements on: up to its end, or up to a call that it makes as a suspending one. -/
inductive Procedure.Carries (w : Procedure) (live : Liveness) (b : Block) :
    Block → List Stmt → Prop
  | last {c : Block} (handler : c.handler = b.handler) (terminator : c.terminator = b.terminator) :
    Carries w live b c c.statements
  | cut {c d : Block} {more : List Stmt} {dst : Option LocalId} {func : FunctionRef}
      {args : List Operand} {state : StateId} {save : List LocalId} {next : BlockId}
      (handler : c.handler = b.handler)
      (terminator : c.terminator = .suspendCall dst func args state save next)
      (saved : ∀ l ∈ save, l ∈ live.before b more ∧ l ∉ dst ∨ l ∈ live.onRaise b)
      (found : w.block? next = some d) (rest : Carries w live b d more) :
    Carries w live b c (c.statements ++ .call dst func args :: more)

variable {p w : Procedure} {live candidate : Liveness} {cut part : Cut} {b c : Block}
  {number : BlockId} {start nextBlock nextState : Nat} {sites : List Nat} {blocks : List Block}
  {rest : List Stmt}

/-! ## The pieces of a block -/

/-- The piece that a cut begins with carries on the code from there. -/
theorem carries_cutFrom (h : Assembled p live cut w)
    (ok : cutFrom p live b number start sites nextBlock nextState = .ok part)
    (ascending : sites.Pairwise (· < ·)) (ahead : ∀ s ∈ sites, start ≤ s)
    (sub : part.blocks ⊆ cut.blocks) :
    ∃ c, w.block? number = some c ∧ w.Carries live b c (b.statements.drop start) := by
  induction sites generalizing number start nextBlock nextState part with
  | nil =>
    rw [cutFrom] at ok
    cases ok
    have here := h.mem_blocks_iff.2 (Or.inl (sub List.mem_cons_self))
    exact ⟨_, h.block?_id here, .last rfl rfl⟩
  | cons site sites ih =>
    obtain ⟨dst, func, args, more, call, later, rfl⟩ := cutFrom_cons ok
    rw [List.pairwise_cons] at ascending
    rw [List.forall_mem_cons] at ahead
    rw [List.cons_subset, List.cons_subset] at sub
    obtain ⟨d, found, carries⟩ := ih later ascending.2 (fun s mem => ascending.1 s mem) sub.2.2
    have here := h.mem_blocks_iff.2 (Or.inl sub.1)
    refine ⟨_, h.block?_id here, ?_⟩
    rw [drop_eq_around call ahead.1]
    exact .cut rfl rfl (fun l => Liveness.mem_saveSet.1) found carries

/-- Every block of a cut comes from the cut of one of the blocks. -/
theorem exists_cutBlock_of_mem (ok : cutBlocks p live blocks nextBlock nextState = .ok cut)
    (mem : c ∈ cut.blocks) :
    ∃ b ∈ blocks, ∃ n k part, cutBlock p live b n k = .ok part ∧ c ∈ part.blocks ∧
      part.blocks ⊆ cut.blocks ∧ part.states ⊆ cut.states := by
  induction blocks generalizing nextBlock nextState cut with
  | nil =>
    rw [cutBlocks] at ok
    cases ok
    exact absurd mem List.not_mem_nil
  | cons b rest ih =>
    obtain ⟨first, more, head, tail, rfl⟩ := cutBlocks_cons ok
    rcases List.mem_append.1 mem with mem | mem
    · exact ⟨b, List.mem_cons_self, _, _, first, head, mem, List.subset_append_left _ _,
        List.subset_append_left _ _⟩
    · obtain ⟨b, block, n, k, part, here, mem, blocks, states⟩ := ih tail mem
      exact ⟨b, List.mem_cons_of_mem _ block, n, k, part, here, mem,
        List.subset_append_of_subset_right _ blocks, List.subset_append_of_subset_right _ states⟩

/-- A suspended call can be taken up again: its state is recorded, the resume block of the
state restores what the code behind the call and the handler need, and then it goes on with
the piece that carries on the code. -/
inductive Procedure.Backs (p w : Procedure) (live : Liveness) (cut : Cut) (state : StateId)
    (save : List LocalId) : Prop
  | intro {b d : Block} {more : List Stmt} {dst : Option LocalId} {resume next : BlockId}
      (block : b ∈ p.blocks) (resumption : b.resumption resume save dst next ∈ cut.blocks)
      (recorded : ⟨state, resume, save.map p.slot, []⟩ ∈ cut.states)
      (saved : ∀ l, l ∈ save ↔ l ∈ live.before b more ∧ l ∉ dst ∨ l ∈ live.onRaise b)
      (behind : more ⊆ b.statements) (found : w.block? next = some d)
      (carries : w.Carries live b d more)

theorem backs_cutFrom (h : Assembled p live cut w) (block : b ∈ p.blocks)
    (ok : cutFrom p live b number start sites nextBlock nextState = .ok part)
    (ascending : sites.Pairwise (· < ·))
    (blocks : part.blocks ⊆ cut.blocks) (states : part.states ⊆ cut.states) :
    ∀ c ∈ part.blocks, ∀ call, c.terminator.suspension? = some call →
      p.Backs w live cut call.1 call.2 := by
  induction sites generalizing number start nextBlock nextState part with
  | nil =>
    rw [cutFrom] at ok
    cases ok
    intro c mem call suspends
    obtain rfl := List.mem_singleton.1 mem
    have plain := (h.sound.blocks b block).isResumption_terminator h.unwoven
    have suspends : b.terminator.suspension? = some call := suspends
    cases last : b.terminator with
    | suspendCall =>
      rw [last] at plain
      cases plain
    | _ =>
      rw [last] at suspends
      cases suspends
  | cons site sites ih =>
    obtain ⟨dst, func, args, more, call, later, rfl⟩ := cutFrom_cons ok
    rw [List.pairwise_cons] at ascending
    rw [List.cons_subset, List.cons_subset] at blocks
    rw [List.cons_subset] at states
    obtain ⟨d, found, carries⟩ :=
      carries_cutFrom h later ascending.2 (fun s mem => ascending.1 s mem) blocks.2.2
    refine List.forall_mem_cons.2 ⟨?_, List.forall_mem_cons.2
      ⟨?_, ih later ascending.2 blocks.2.2 states.2⟩⟩
    · rintro _ ⟨⟩
      exact .intro block blocks.2.1 states.1 (fun l => Liveness.mem_saveSet)
        (List.drop_subset _ _) found carries
    · rintro _ ⟨⟩

namespace Assembled

/-- The code of an original block is carried on from its number on. -/
theorem carries (h : Assembled p live cut w) (block : b ∈ p.blocks) :
    ∃ c, w.block? b.id = some c ∧ w.Carries live b c b.statements := by
  obtain ⟨n, k, part, ok, blocks, -⟩ := exists_cutBlock h.cut_ok block
  exact carries_cutFrom h ok (Ascending.sorted_ofList _) (fun _ _ => Nat.zero_le _) blocks

theorem backs (h : Assembled p live cut w) {call : StateId × List LocalId}
    (mem : call ∈ w.suspensions) : p.Backs w live cut call.1 call.2 := by
  obtain ⟨c, stands, suspends⟩ := List.mem_filterMap.1 mem
  rcases h.mem_blocks_iff.1 stands with stands | rfl
  · obtain ⟨b, block, n, k, part, ok, here, blocks, states⟩ :=
      exists_cutBlock_of_mem h.cut_ok stands
    exact backs_cutFrom h block ok (Ascending.sorted_ofList _) blocks states c here call suspends
  · cases suspends

end Assembled

/-! ## The liveness of the woven procedure -/

/-- The blocks of a procedure carry on the code of all blocks of an original one. -/
structure Procedure.Carrier (p w : Procedure) (live : Liveness) : Prop where
  sound : p.Sound
  solves : live.Solves p
  isSound : w.Sound
  carries : ∀ b ∈ p.blocks, ∃ c, w.block? b.id = some c ∧ w.Carries live b c b.statements

theorem Assembled.carrier (h : Assembled p live cut w) (solves : live.Solves p) :
    p.Carrier w live :=
  ⟨h.sound, solves, h.isSound, fun _ block => h.carries block⟩

namespace Procedure.Carrier

/-- What is live where a woven block begins is needed by the code that it carries on. -/
abbrev Carried (p w : Procedure) (live : Liveness) (id : BlockId) (l : LocalId) : Prop :=
  ∀ b ∈ p.blocks, ∀ c rest, w.block? id = some c → w.Carries live b c rest →
    l ∈ live.before b rest

section Carried

variable (h : p.Carrier w live) (holds : candidate.Holds (Carried p w live))
include h holds

theorem atStart_subset {t : BlockId} (lt : t.index < p.blocks.length) :
    candidate.atStart t ⊆ live.atStart t := by
  intro l mem
  obtain ⟨b, block, -, rfl⟩ := h.sound.block?_of_lt lt
  obtain ⟨c, found, carries⟩ := h.carries b block
  rw [h.solves.atStart b block]
  exact holds b.id l mem b block c _ found carries

theorem onRaise_subset (block : b ∈ p.blocks) (handler : c.handler = b.handler) :
    candidate.onRaise c ⊆ live.onRaise b := by
  intro l mem
  obtain ⟨target, here, start, kept⟩ := Liveness.mem_onRaise.1 mem
  rw [handler] at here
  have lt := ((h.sound.blocks b block).handler target here).1
  exact Liveness.mem_onRaise.2 ⟨target, here, h.atStart_subset holds lt start, kept⟩

/-- A piece needs no more than the code that it carries on. -/
theorem before_subset (block : b ∈ p.blocks) (carries : w.Carries live b c rest) :
    candidate.before c c.statements ⊆ live.before b rest := by
  cases carries with
  | last handler terminator =>
    have raised := h.onRaise_subset holds block handler
    have normal : candidate.normalOut c ⊆ live.normalOut b := by
      intro l mem
      obtain ⟨t, edge, start⟩ := Liveness.mem_normalOut.1 mem
      rw [terminator] at edge
      have lt := (h.sound.blocks b block).edges t edge
      exact Liveness.mem_normalOut.2 ⟨t, edge, h.atStart_subset holds lt start⟩
    have all := Liveness.before_subset raised
      (Liveness.beforeTerminator_subset terminator raised normal) c.statements
    rwa [List.append_nil] at all
  | cut handler terminator saved found carries =>
    have raised := h.onRaise_subset holds block handler
    refine Liveness.before_subset raised ?_ c.statements
    intro l mem
    rw [Liveness.before_nil, Liveness.mem_beforeTerminator, Liveness.mem_normalOut, terminator]
      at mem
    rw [Liveness.before_cons, Liveness.mem_stepBack]
    rcases mem with ⟨⟨t, edge, start⟩, kept⟩ | use | ⟨-, mem⟩
    · obtain rfl := List.mem_singleton.1 edge
      exact Or.inl ⟨holds _ l start b block _ _ found carries,
        fun written => kept (Option.mem_toList.1 written)⟩
    · rcases List.mem_append.1 use with arg | save
      · exact Or.inr (Or.inl arg)
      · rcases saved l save with ⟨later, kept⟩ | needed
        · exact Or.inl ⟨later, fun written => kept (Option.mem_toList.1 written)⟩
        · exact Or.inr (Or.inr ⟨rfl, needed⟩)
    · exact Or.inr (Or.inr ⟨rfl, raised mem⟩)

end Carried

/-- The original needs, at each point, all that the woven procedure needs there. -/
theorem carried_of_compute? (h : p.Carrier w live)
    (computed : Liveness.compute? w = some candidate) : candidate.Holds (Carried p w live) := by
  refine Liveness.Holds.of_compute? computed fun candidate holds c' stands l mem => ?_
  intro b block c rest found carries
  obtain rfl := Option.some.inj ((h.isSound.block?_id stands).symm.trans found)
  exact h.before_subset holds block carries mem

/-- A resume block needs nothing but what the code behind the call or the handler needs, and
what it does not restore. -/
theorem needed_of_atStart (h : p.Carrier w live)
    (computed : Liveness.compute? w = some candidate) (solved : candidate.Solves w)
    (block : b ∈ p.blocks) {dst : Option LocalId} {resume next : BlockId} {slots : List LocalId}
    (stands : b.resumption resume slots dst next ∈ w.blocks) (found : w.block? next = some c)
    (carries : w.Carries live b c rest) {l : LocalId} (mem : l ∈ candidate.atStart resume) :
    (l ∈ live.before b rest ∧ l ∉ dst ∨ l ∈ live.onRaise b) ∧ l ∉ slots := by
  have holds := h.carried_of_compute? computed
  have raised : ∀ l ∈ candidate.onRaise (b.resumption resume slots dst next),
      l ∈ live.onRaise b := h.onRaise_subset holds block rfl
  have mem : l ∈ candidate.atStart (b.resumption resume slots dst next).id := mem
  rw [solved.atStart _ stands] at mem
  have form : (b.resumption resume slots dst next).statements = [.restore slots, .resume dst] := rfl
  rw [form, Liveness.before_cons, Liveness.mem_stepBack] at mem
  rcases mem with ⟨behind, other⟩ | use | ⟨raises, -⟩
  · refine ⟨?_, other⟩
    rw [Liveness.before_cons, Liveness.mem_stepBack, Liveness.before_nil,
      Liveness.mem_beforeTerminator, Liveness.mem_normalOut] at behind
    rcases behind with ⟨⟨⟨t, edge, start⟩, -⟩ | use | ⟨raises, -⟩, kept⟩ | use | ⟨-, mem⟩
    · obtain rfl := List.mem_singleton.1 edge
      exact Or.inl ⟨holds _ l start b block _ _ found carries,
        fun written => kept (Option.mem_toList.2 written)⟩
    · exact absurd use List.not_mem_nil
    · cases raises
    · exact absurd use List.not_mem_nil
    · exact Or.inr (raised l mem)
  · exact absurd use List.not_mem_nil
  · cases raises

end Procedure.Carrier

namespace Assembled

/-- A resume block needs nothing that it does not restore. -/
theorem atStart_eq_nil (h : Assembled p live cut w) (solves : live.Solves p)
    (computed : Liveness.compute? w = some candidate) (solved : candidate.Solves w)
    (block : b ∈ p.blocks) {dst : Option LocalId} {resume next : BlockId} {save : List LocalId}
    (resumption : b.resumption resume save dst next ∈ cut.blocks)
    (needed : ∀ l, l ∈ live.before b rest ∧ l ∉ dst ∨ l ∈ live.onRaise b → l ∈ save)
    (found : w.block? next = some c) (carries : w.Carries live b c rest) :
    candidate.atStart resume = [] := by
  have stands := h.mem_blocks_iff.2 (Or.inl resumption)
  rw [List.eq_nil_iff_forall_not_mem]
  intro l mem
  obtain ⟨behind, missing⟩ :=
    (h.carrier solves).needed_of_atStart computed solved block stands found carries mem
  exact missing (needed l behind)

/-! ## The result passes the checks -/

theorem eraseDups_of_nodup {α : Type} [DecidableEq α] {l : List α} (nodup : l.Nodup) :
    l.eraseDups = l := by
  induction l with
  | nil => rfl
  | cons a rest ih =>
    rw [List.nodup_cons] at nodup
    have kept : rest.filter (fun b => !b == a) = rest :=
      List.filter_eq_self.2 fun b mem => by
        simpa using fun same : b = a => nodup.1 (same ▸ mem)
    rw [List.eraseDups_cons, kept, ih nodup.2]

/-- The arms are those of the states, each of which has one. -/
theorem armFor?_id (h : Assembled p live cut w) {s : ResumptionState} (mem : s ∈ cut.states) :
    armFor? (cut.states.map fun s => (s.id, s.block)) s.id = some s.block := by
  have nodup : ((cut.states.map fun s => (s.id, s.block)).reverse.map Prod.fst).Nodup := by
    rw [List.map_reverse, List.nodup_reverse, List.map_map]
    exact (List.nodup_cons.1 h.nodup_states).2
  have listed : (s.id, s.block) ∈ (cut.states.map fun s => (s.id, s.block)).reverse :=
    List.mem_reverse.2 (List.mem_map_of_mem (f := fun s : ResumptionState => (s.id, s.block)) mem)
  unfold armFor?
  rw [find?_of_nodup nodup listed]
  rfl

theorem length_suspensions (h : Assembled p live cut w) : w.suspensions.length =
    ((cut.states.map fun s => (s.id, s.block)).map Prod.fst).eraseDups.length := by
  have arms : (cut.states.map fun s => (s.id, s.block)).map Prod.fst =
      cut.states.map ResumptionState.id := by
    rw [List.map_map]
    rfl
  have nodup := (List.nodup_cons.1 h.nodup_states).2
  rw [arms, eraseDups_of_nodup nodup, ← h.suspensions_perm.length_eq, List.length_map]

theorem resumesAt (h : Assembled p live cut w) (solves : live.Solves p)
    (computed : Liveness.compute? w = some candidate) (solved : candidate.Solves w)
    {state : StateId} {save : List LocalId} (backs : p.Backs w live cut state save) :
    ∃ resume,
      w.ResumesAt (cut.states.map fun s => (s.id, s.block)) candidate state save resume := by
  obtain ⟨block, resumption, recorded, saved, -, found, carries⟩ := backs
  rename_i b d more dst resume next
  refine ⟨resume, ?_, ?_, ?_, ?_⟩
  · exact h.armFor?_id recorded
  · obtain ⟨successors, look⟩ := h.state?_id recorded
    refine ⟨_, look, rfl, ?_⟩
    rw [List.map_map, p.localId_comp_slot, List.map_id']
  · have look := h.block?_id (h.mem_blocks_iff.2 (Or.inl resumption))
    have look : w.block? resume = some _ := look
    rw [look]
    rfl
  · exact h.atStart_eq_nil solves computed solved block resumption (fun l => (saved l).2) found
      carries

/-- What weaving puts together is in resumable form. -/
theorem verify_eq_ok (h : Assembled p live cut w) : w.verify = .ok () := by
  obtain ⟨live', computed', solves⟩ := Liveness.compute?_eq_some h.sound
  obtain rfl : live = live' := Option.some.inj (h.computed.symm.trans computed')
  obtain ⟨candidate, computed, solved⟩ := Liveness.compute?_eq_some h.isSound
  exact Procedure.verify_eq_ok_iff.2 ⟨_, _, _, candidate, h.block?_entry, rfl,
    h.nodup_suspensions, h.length_suspensions, computed, fun call mem =>
      h.resumesAt solves computed solved (h.backs mem)⟩

end Assembled

/-! ## Marks -/

/-- The positions at which a block is cut: its marks in order, each once. -/
def cutSites (b : Block) : List Nat := Ascending.ofList id b.suspendSites

theorem mem_cutSites {b : Block} {site : Nat} : site ∈ cutSites b ↔ site ∈ b.suspendSites :=
  Ascending.mem_ofList Function.injective_id

/-- There is a call at a position of a block. -/
def Block.CallsAt (b : Block) (site : Nat) : Prop :=
  ∃ dst func args, b.statements[site]? = some (.call dst func args)

theorem Block.CallsAt.lt {site : Nat} (h : b.CallsAt site) : site < b.statements.length := by
  obtain ⟨dst, func, args, here⟩ := h
  exact (List.getElem?_eq_some_iff.1 here).1

/-- Every mark of a procedure stands at a call. -/
def Procedure.MarksCalls (p : Procedure) : Prop :=
  ∀ b ∈ p.blocks, ∀ site ∈ b.suspendSites, b.CallsAt site

/-- Cutting a block at the positions of a list takes only parts that there are: each of them
ends where it begins or behind, and within the block.  A position without a call ends the
cut. -/
inductive Block.CutsWithin (b : Block) : Nat → List Nat → Prop
  | last {start : Nat} (le : start ≤ b.statements.length) : CutsWithin b start []
  | refuse {start site : Nat} {sites : List Nat} (other : ¬ b.CallsAt site) :
    CutsWithin b start (site :: sites)
  | cut {start site : Nat} {sites : List Nat} (le : start ≤ site)
      (lt : site < b.statements.length) (rest : CutsWithin b (site + 1) sites) :
    CutsWithin b start (site :: sites)

theorem Block.cutsWithin (le : start ≤ b.statements.length) (ascending : sites.Pairwise (· < ·))
    (ahead : ∀ site ∈ sites, start ≤ site) : b.CutsWithin start sites := by
  induction sites generalizing start with
  | nil => exact .last le
  | cons site sites ih =>
    rw [List.pairwise_cons] at ascending
    rw [List.forall_mem_cons] at ahead
    by_cases call : b.CallsAt site
    · exact .cut ahead.1 call.lt (ih call.lt ascending.2 fun s mem => ascending.1 s mem)
    · exact .refuse call

/-- A block is cut, or a position without a call is refused. -/
theorem cutFrom_cases (p : Procedure) (live : Liveness) (b : Block) (number : BlockId) (start : Nat)
    (sites : List Nat) (nextBlock nextState : Nat) :
    (∃ part, cutFrom p live b number start sites nextBlock nextState = .ok part) ∧
        (∀ site ∈ sites, b.CallsAt site) ∨
      ∃ site ∈ sites, ¬ b.CallsAt site ∧
        cutFrom p live b number start sites nextBlock nextState = .error (.notACall b.id site) := by
  induction sites generalizing number start nextBlock nextState with
  | nil => exact Or.inl ⟨⟨_, rfl⟩, fun _ mem => absurd mem List.not_mem_nil⟩
  | cons site sites ih =>
    by_cases call : b.CallsAt site
    · have calls := call
      obtain ⟨dst, func, args, here⟩ := call
      rw [cutFrom, here]
      rcases ih (.ofIndex nextBlock) (site + 1) (nextBlock + 2) (nextState + 1) with
        ⟨⟨part, ok⟩, all⟩ | ⟨other, mem, none, error⟩
      · simp only [ok]
        exact Or.inl ⟨⟨_, rfl⟩, List.forall_mem_cons.2 ⟨calls, all⟩⟩
      · simp only [error]
        exact Or.inr ⟨other, List.mem_cons_of_mem _ mem, none, rfl⟩
    · refine Or.inr ⟨site, List.mem_cons_self, call, ?_⟩
      rw [cutFrom]
      split
      · rename_i dst func args here
        exact absurd ⟨dst, func, args, here⟩ call
      · rfl

theorem cutBlocks_cases (p : Procedure) (live : Liveness) (blocks : List Block)
    (nextBlock nextState : Nat) :
    (∃ cut, cutBlocks p live blocks nextBlock nextState = .ok cut) ∧
        (∀ b ∈ blocks, ∀ site ∈ b.suspendSites, b.CallsAt site) ∨
      ∃ b ∈ blocks, ∃ site ∈ b.suspendSites, ¬ b.CallsAt site ∧
        cutBlocks p live blocks nextBlock nextState = .error (.notACall b.id site) := by
  induction blocks generalizing nextBlock nextState with
  | nil => exact Or.inl ⟨⟨_, rfl⟩, fun _ mem => absurd mem List.not_mem_nil⟩
  | cons b rest ih =>
    rw [cutBlocks, cutBlock]
    rcases cutFrom_cases p live b b.id 0 (cutSites b) nextBlock nextState with
      ⟨⟨first, ok⟩, calls⟩ | ⟨site, mem, none, error⟩
    · rw [cutSites] at ok
      rcases ih first.nextBlock first.nextState with
        ⟨⟨more, rest⟩, all⟩ | ⟨c, block, site, mem, none, error⟩
      · simp only [bind, Except.bind, ok, rest]
        exact Or.inl ⟨⟨_, rfl⟩,
          List.forall_mem_cons.2 ⟨fun s mem => calls s (mem_cutSites.2 mem), all⟩⟩
      · refine Or.inr ⟨c, List.mem_cons_of_mem _ block, site, mem, none, ?_⟩
        simp only [bind, Except.bind, ok, error]
    · rw [cutSites] at error
      refine Or.inr ⟨b, List.mem_cons_self, site, mem_cutSites.1 mem, none, ?_⟩
      simp only [bind, Except.bind, error]

/-! ## Weaving -/

/-- The blocks of the woven form of a procedure, as many as they are, have numbers of 32 bits:
each marked position adds two blocks, and the dispatcher is one more. -/
def Procedure.Fits (p : Procedure) : Prop :=
  p.blocks.length + 2 * siteCount p.blocks + 1 < 2 ^ 32

instance (p : Procedure) : Decidable p.Fits :=
  inferInstanceAs (Decidable (_ < _))

/-- A valid procedure whose marks stand at calls has a resumable form; one with a mark that
does not is refused. -/
theorem Procedure.resumableForm_cases (sound : p.Sound) (unwoven : p.attrs.woven = false)
    (fits : p.Fits) :
    p.MarksCalls ∧ (∃ w live cut, p.resumableForm = .ok w ∧ Assembled p live cut w) ∨
      ∃ b ∈ p.blocks, ∃ site ∈ b.suspendSites, ¬ b.CallsAt site ∧
        p.resumableForm = .error (.notACall b.id site) := by
  obtain ⟨live, computed, -⟩ := Liveness.compute?_eq_some sound
  unfold resumableForm
  simp only [computed]
  rcases cutBlocks_cases p live p.blocks p.blocks.length 1 with
    ⟨⟨cut, ok⟩, calls⟩ | ⟨b, block, site, mem, none, error⟩
  · have parts : Assembling p live cut (p.assemble cut) := ⟨sound, unwoven, computed, ok, rfl⟩
    have lt : cut.nextBlock < 2 ^ 32 := by
      rw [parts.numbered.nextBlock]
      exact Nat.lt_of_succ_lt fits
    have assembled : Assembled p live cut (p.assemble cut) := ⟨parts, lt⟩
    refine Or.inl ⟨calls, p.assemble cut, live, cut, ?_, assembled⟩
    rw [ok]
    simp only [bind, Except.bind, assembled.verify_eq_ok]
    rfl
  · refine Or.inr ⟨b, block, site, mem, none, ?_⟩
    rw [error]
    rfl

/-- Weaving a valid procedure that suspends: if its marks stand at calls, in whatever order and
however often, it is woven and the result passes both checks; if not, the mark at fault is
refused.  No part that is cut out of a block reaches out of it. -/
theorem Procedure.weave_accepts (p : Procedure) (c : Classification)
    (unwoven : p.attrs.woven = false) (body : p.hasBody = true) (valid : p.validate = .ok ())
    (suspends : c.isSuspending p.id = true) (noError : c.errorFor? p.id = none) (fits : p.Fits) :
    (p.MarksCalls → ∃ woven, p.weave c = .ok (some woven) ∧
      woven.procedure.attrs.woven = true ∧ woven.procedure.validate = .ok () ∧
      woven.procedure.verify = .ok ()) ∧
    (¬ p.MarksCalls → ∃ b ∈ p.blocks, ∃ site ∈ b.suspendSites, ¬ b.CallsAt site ∧
      p.weave c = .error (.invariant p.id (.notACall b.id site))) ∧
    ∀ b ∈ p.blocks, b.CutsWithin 0 (cutSites b) := by
  have sound := sound_of_validate valid body
  have within : ∀ b ∈ p.blocks, b.CutsWithin 0 (cutSites b) :=
    fun b _ => b.cutsWithin (Nat.zero_le _) (Ascending.sorted_ofList _) fun _ _ => Nat.zero_le _
  unfold weave
  simp only [unwoven, body, noError, suspends, Bool.not_true, Bool.or_self, Bool.false_eq_true,
    if_false, if_true]
  rcases p.resumableForm_cases sound unwoven fits with
    ⟨calls, w, live, cut, form, assembled⟩ | ⟨b, block, site, mem, none, error⟩
  · refine ⟨fun _ => ⟨⟨w, w.holder⟩, ?_, assembled.woven, ?_, assembled.verify_eq_ok⟩,
      fun other => absurd calls other, within⟩
    · rw [form]
    · exact validate_eq_ok_iff.2 (Or.inr assembled.isSound)
  · refine ⟨fun calls => absurd (calls b block site mem) none, fun _ =>
      ⟨b, block, site, mem, none, ?_⟩, within⟩
    rw [error]

/-- `retry` with marks at positions of its first block; the call is at 0. -/
def retryMarked (sites : List Nat) : Procedure :=
  { retry with blocks := retry.blocks.modify 0 fun b => { b with suspendSites := sites } }

/-- The call may be marked twice, but nothing behind it. -/
theorem Procedure.weave_accepts_retry :
    (∃ woven, (retryMarked [0, 0]).weave ⟨[(retry.id, .suspending)], [], []⟩ = .ok (some woven) ∧
      woven.procedure.validate = .ok () ∧ woven.procedure.verify = .ok ()) ∧
    ∃ block site, (retryMarked [1]).weave ⟨[(retry.id, .suspending)], [], []⟩ =
      .error (.invariant retry.id (.notACall block site)) := by
  obtain ⟨accepted, -⟩ := Procedure.weave_accepts (retryMarked [0, 0])
    ⟨[(retry.id, .suspending)], [], []⟩ (by decide) (by decide) (by decide) (by decide)
    (by decide) (by decide)
  have marks : (retryMarked [0, 0]).MarksCalls := by
    simp [Procedure.MarksCalls, retryMarked, retry, Block.CallsAt, Block.empty]
  obtain ⟨woven, weaves, -, valid, verified⟩ := accepted marks
  obtain ⟨-, refused, -⟩ := Procedure.weave_accepts (retryMarked [1])
    ⟨[(retry.id, .suspending)], [], []⟩ (by decide) (by decide) (by decide) (by decide)
    (by decide) (by decide)
  have stray : ¬ (retryMarked [1]).MarksCalls := by
    simp [Procedure.MarksCalls, retryMarked, retry, Block.CallsAt, Block.empty]
  obtain ⟨b, -, site, -, -, error⟩ := refused stray
  exact ⟨⟨woven, weaves, valid, verified⟩, b.id, site, error⟩

end Resumable
