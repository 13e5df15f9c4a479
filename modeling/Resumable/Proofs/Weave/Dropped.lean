import Resumable.Proofs.Weave.Acceptance

/-!
# No call saves a local in vain

Take one local out of what a suspending call of a woven procedure keeps: out of its save
list, out of the `restore` that its resume block begins with, and out of the record of its
state.  The check of the resumable form finds that this local, and no other, is read
without being restored (`Procedure.verify_unrestored`).

The check computes the liveness of the changed procedure anew.  At a resume block it is
known exactly (`Procedure.Carrier.mem_atStart_resumption`): what the original needs behind
the call or in its handler, less what the block restores.

* It is no more than that for any procedure that carries on the code of the original, with
  whatever save lists, as long as what they name is needed.
* It is no less, since the reads of the original are reads of the pieces.  The liveness of
  the original is a least solution, so it stays below what solves the pieces
  (`Procedure.Carrier.atStart_subset_of_compute?`).  The save lists of other calls do not
  come into this.
-/

namespace Resumable

/-! ## Taking a slot away -/

/-- Takes a local out of the save list of the call with a state. -/
def Terminator.dropSlot (state : StateId) (l : LocalId) : Terminator → Terminator
  | .suspendCall dst func args s save next =>
    .suspendCall dst func args s (if s = state then save.filter (· ≠ l) else save) next
  | t => t

/-- Takes a local out of the `restore` that statements begin with. -/
def dropRestored (l : LocalId) : List Stmt → List Stmt
  | .restore slots :: rest => .restore (slots.filter (· ≠ l)) :: rest
  | statements => statements

def Block.dropSlot (state : StateId) (resume : BlockId) (l : LocalId) (b : Block) : Block :=
  { b with
    statements := if b.id = resume then dropRestored l b.statements else b.statements
    terminator := b.terminator.dropSlot state l }

/-- Takes a local out of what a state records. -/
def ResumptionState.dropSlot (state : StateId) (l : LocalId) (s : ResumptionState) :
    ResumptionState :=
  if s.id = state then { s with live := s.live.filter (·.localId ≠ l) } else s

/-- Takes a local out of what is kept across the suspension at a state, and changes nothing
else. -/
def Procedure.dropSlot (p : Procedure) (s : ResumptionState) (l : LocalId) : Procedure :=
  { p with
    blocks := p.blocks.map (Block.dropSlot s.id s.block l)
    states := p.states.map (ResumptionState.dropSlot s.id l) }

section Terminators

variable (state : StateId) (l : LocalId) (t : Terminator)

@[simp] theorem Terminator.successors_dropSlot :
    (t.dropSlot state l).successors = t.successors := by
  cases t <;> rfl

@[simp] theorem Terminator.def?_dropSlot : (t.dropSlot state l).def? = t.def? := by
  cases t <;> rfl

theorem Terminator.uses_dropSlot : (t.dropSlot state l).uses ⊆ t.uses := by
  cases t with
  | suspendCall dst func args s save next =>
    refine List.append_subset.2 ⟨List.subset_append_left _ _,
      List.subset_append_of_subset_right _ ?_⟩
    split
    · exact List.filter_sublist.subset
    · exact List.Subset.refl _
  | _ => exact List.Subset.refl _

/-- Where nothing suspends, nothing is saved. -/
theorem Terminator.dropSlot_eq {t : Terminator} (plain : t.isResumption = false) :
    t.dropSlot state l = t := by
  cases t with
  | suspendCall => cases plain
  | _ => rfl

theorem Terminator.suspension?_dropSlot : (t.dropSlot state l).suspension? =
    t.suspension?.map fun call =>
      (call.1, if call.1 = state then call.2.filter (· ≠ l) else call.2) := by
  cases t <;> rfl

/-- What does not begin with a `restore` is left alone. -/
theorem dropRestored_eq {statements : List Stmt}
    (plain : ∀ s ∈ statements, Procedure.isResumption s = false) :
    dropRestored l statements = statements := by
  cases statements with
  | nil => rfl
  | cons s rest =>
    cases s with
    | restore slots => cases plain _ List.mem_cons_self
    | _ => rfl

end Terminators

variable {p w : Procedure} {live candidate : Liveness} {cut : Cut} {b c : Block} {l : LocalId}
  {s : ResumptionState} {rest : List Stmt}

/-! ## The changed procedure is sound -/

theorem dropRestored_locals {statements : List Stmt} {declared : LocalId → Prop}
    (h : ∀ s ∈ statements, ∀ x ∈ s.defs ++ s.uses, declared x) :
    ∀ s ∈ dropRestored l statements, ∀ x ∈ s.defs ++ s.uses, declared x := by
  cases statements with
  | nil => exact h
  | cons s rest =>
    cases s with
    | restore slots =>
      rw [List.forall_mem_cons] at h
      refine List.forall_mem_cons.2 ⟨fun x mem => h.1 x ?_, h.2⟩
      rcases List.mem_append.1 mem with stored | read
      · exact List.mem_append_left _ (List.mem_of_mem_filter stored)
      · exact List.mem_append_right _ read
    | _ => exact h

theorem Procedure.block?_dropSlot (id : BlockId) :
    (w.dropSlot s l).block? id = (w.block? id).map (Block.dropSlot s.id s.block l) :=
  List.getElem?_map

theorem Procedure.Sound.dropSlot (sound : w.Sound) (woven : w.attrs.woven = true) :
    (w.dropSlot s l).Sound where
  entry := by
    have entry := sound.entry
    rwa [← List.length_map (Block.dropSlot s.id s.block l)] at entry
  numbered i b found := by
    have found : (w.blocks.map (Block.dropSlot s.id s.block l))[i]? = some b := found
    rw [List.getElem?_map] at found
    obtain ⟨c, there, rfl⟩ := Option.map_eq_some_iff.1 found
    exact sound.numbered i c there
  blocks b mem := by
    obtain ⟨c, there, rfl⟩ := List.mem_map.1 mem
    have kept := sound.blocks c there
    have length : (w.dropSlot s l).blocks.length = w.blocks.length := List.length_map _
    constructor
    · intro t edge
      rw [length]
      exact kept.edges t (c.terminator.successors_dropSlot s.id l ▸ edge)
    · intro handler here
      rw [length]
      exact kept.handler handler here
    · exact fun _ _ _ => woven
    · show ∀ s' ∈ (if c.id = s.block then dropRestored l c.statements else c.statements), _
      split
      · exact dropRestored_locals kept.locals
      · exact kept.locals
    · exact fun _ => woven
    · intro x use
      refine kept.localsEnd x ?_
      rw [← c.terminator.def?_dropSlot s.id l]
      rcases List.mem_append.1 use with written | read
      · exact List.mem_append_left _ written
      · exact List.mem_append_right _ (c.terminator.uses_dropSlot s.id l read)

/-! ## The pieces carry on what they did -/

/-- A block without resumption code keeps its statements. -/
theorem Block.statements_dropSlot {state : StateId} {resume : BlockId}
    (plain : ∀ s ∈ c.statements, Procedure.isResumption s = false) :
    (c.dropSlot state resume l).statements = c.statements := by
  unfold dropSlot
  dsimp only
  rw [dropRestored_eq l plain, ite_self]

theorem Procedure.Carries.dropSlot (h : w.Carries live b c rest)
    (plain : ∀ s ∈ rest, isResumption s = false) (ends : b.terminator.isResumption = false) :
    (w.dropSlot s l).Carries live b (c.dropSlot s.id s.block l) rest := by
  induction h with
  | @last c handler terminator =>
    have same : (c.dropSlot s.id s.block l).statements = c.statements :=
      Block.statements_dropSlot plain
    rw [← same]
    refine .last handler ?_
    show c.terminator.dropSlot s.id l = b.terminator
    rw [terminator, Terminator.dropSlot_eq s.id l ends]
  | @cut c d more dst func args state save next handler terminator saved found _ ih =>
    rw [List.forall_mem_append, List.forall_mem_cons] at plain
    have same : (c.dropSlot s.id s.block l).statements = c.statements :=
      Block.statements_dropSlot plain.1
    have last : (c.dropSlot s.id s.block l).terminator = .suspendCall dst func args state
        (if state = s.id then save.filter (· ≠ l) else save) next := by
      show c.terminator.dropSlot s.id l = _
      rw [terminator]
      rfl
    rw [← same]
    refine .cut handler last (fun x mem => saved x ?_) ?_ (ih plain.2.2)
    · split at mem
      · exact List.mem_of_mem_filter mem
      · exact mem
    · rw [block?_dropSlot, found]
      rfl

theorem Procedure.Carrier.dropSlot (h : p.Carrier w live) (unwoven : p.attrs.woven = false)
    (woven : w.attrs.woven = true) : p.Carrier (w.dropSlot s l) live where
  sound := h.sound
  solves := h.solves
  isSound := h.isSound.dropSlot woven
  carries b block := by
    obtain ⟨c, found, carries⟩ := h.carries b block
    have sound := h.sound.blocks b block
    refine ⟨c.dropSlot s.id s.block l, ?_, carries.dropSlot
      (fun s mem => sound.isResumption_stmt unwoven mem) (sound.isResumption_terminator unwoven)⟩
    rw [block?_dropSlot, found]
    rfl

/-! ## What a resume block needs -/

namespace Procedure.Carrier

section Below

variable {smaller : Liveness} (h : p.Carrier w live) (solved : candidate.Solves w)
  (le : ∀ id, smaller.atStart id ⊆ candidate.atStart id)
include h solved le

/-- A piece needs all that the code needs that it carries on.  The induction is on the pieces
that are still to come. -/
theorem before_subset_of_carries (carries : w.Carries live b c rest) :
    smaller.before b rest ⊆ candidate.before c c.statements := by
  induction carries with
  | @last c handler terminator =>
    have raised : smaller.onRaise b ⊆ candidate.onRaise c := Liveness.onRaise_subset le handler
    have normal : smaller.normalOut b ⊆ candidate.normalOut c := by
      intro x mem
      obtain ⟨t, edge, start⟩ := Liveness.mem_normalOut.1 mem
      exact Liveness.mem_normalOut.2 ⟨t, terminator ▸ edge, le t start⟩
    have all := Liveness.before_subset raised
      (Liveness.beforeTerminator_subset terminator.symm raised normal) c.statements
    rwa [List.append_nil] at all
  | @cut c d more dst func args state save next handler terminator saved found _ ih =>
    have raised : smaller.onRaise b ⊆ candidate.onRaise c := Liveness.onRaise_subset le handler
    have behind : smaller.before b (.call dst func args :: more) ⊆ candidate.before c [] := by
      intro x mem
      rw [Liveness.before_cons, Liveness.mem_stepBack] at mem
      rw [Liveness.before_nil, Liveness.mem_beforeTerminator, terminator]
      rcases mem with ⟨behind, kept⟩ | read | ⟨-, mem⟩
      · have stands := List.mem_of_getElem? found
        have number : d.id = next := BlockId.index_injective (h.isSound.numbered _ _ found)
        have start : x ∈ candidate.atStart next := by
          rw [← number, solved.atStart d stands]
          exact ih behind
        refine Or.inl ⟨Liveness.mem_normalOut.2 ⟨next, ?_, start⟩, ?_⟩
        · rw [terminator]
          exact List.mem_cons_self
        · exact fun written => kept (Option.mem_toList.2 written)
      · exact Or.inr (Or.inl (List.mem_append_left _ read))
      · exact Or.inr (Or.inr ⟨rfl, raised mem⟩)
    have all := Liveness.before_append_subset raised behind c.statements
    rwa [List.append_nil] at all

end Below

/-- What is live in the original is live in what carries it on. -/
theorem atStart_subset_of_compute? (h : p.Carrier w live) (solved : candidate.Solves w)
    (computed : Liveness.compute? p = some live) (id : BlockId) :
    live.atStart id ⊆ candidate.atStart id := by
  have holds : live.Holds fun id x => x ∈ candidate.atStart id := by
    refine Liveness.Holds.of_compute? computed fun smaller le b block x mem => ?_
    obtain ⟨c, found, carries⟩ := h.carries b block
    have number : c.id = b.id := BlockId.index_injective (h.isSound.numbered _ _ found)
    rw [← number, solved.atStart c (List.mem_of_getElem? found)]
    exact h.before_subset_of_carries solved (fun id _ start => le id _ start) carries mem
  exact fun x mem => holds id x mem

/-- A resume block needs what the original needs behind the call or in its handler, less what
the block restores. -/
theorem mem_atStart_resumption (h : p.Carrier w live)
    (originally : Liveness.compute? p = some live)
    (computed : Liveness.compute? w = some candidate) (solved : candidate.Solves w)
    (block : b ∈ p.blocks) {dst : Option LocalId} {resume next : BlockId} {slots : List LocalId}
    (stands : b.resumption resume slots dst next ∈ w.blocks) (found : w.block? next = some c)
    (carries : w.Carries live b c rest) {x : LocalId} : x ∈ candidate.atStart resume ↔
      (x ∈ live.before b rest ∧ x ∉ dst ∨ x ∈ live.onRaise b) ∧ x ∉ slots := by
  refine ⟨h.needed_of_atStart computed solved block stands found carries, fun needed => ?_⟩
  obtain ⟨needed, missing⟩ := needed
  have le := fun id => h.atStart_subset_of_compute? solved originally id
  have start := solved.atStart _ stands
  show x ∈ candidate.atStart (b.resumption resume slots dst next).id
  have form : (b.resumption resume slots dst next).statements = [.restore slots, .resume dst] := rfl
  rw [start, form, Liveness.before_cons, Liveness.mem_stepBack]
  refine Or.inl ⟨?_, missing⟩
  rw [Liveness.before_cons, Liveness.mem_stepBack]
  rcases needed with ⟨behind, kept⟩ | raised
  · have number : c.id = next := BlockId.index_injective (h.isSound.numbered _ _ found)
    have there : x ∈ candidate.atStart next := by
      rw [← number, solved.atStart c (List.mem_of_getElem? found)]
      exact h.before_subset_of_carries solved le carries behind
    refine Or.inl ⟨?_, fun written => kept (Option.mem_toList.1 written)⟩
    rw [Liveness.before_nil, Liveness.mem_beforeTerminator]
    exact Or.inl ⟨Liveness.mem_normalOut.2 ⟨next, List.mem_cons_self, there⟩, nofun⟩
  · have raised : x ∈ candidate.onRaise (b.resumption resume slots dst next) :=
      Liveness.onRaise_subset (c := b.resumption resume slots dst next) le rfl raised
    exact Or.inr (Or.inr ⟨rfl, raised⟩)

end Procedure.Carrier

/-! ## Look-ups in the changed procedure -/

/-- What a call saves once a slot is taken away. -/
def keptSlots (state : StateId) (l : LocalId) (call : StateId × List LocalId) :
    StateId × List LocalId :=
  (call.1, if call.1 = state then call.2.filter (· ≠ l) else call.2)

namespace Procedure

theorem suspensions_dropSlot :
    (w.dropSlot s l).suspensions = w.suspensions.map (keptSlots s.id l) := by
  have blocks : (w.dropSlot s l).blocks = w.blocks.map (Block.dropSlot s.id s.block l) := rfl
  unfold suspensions
  rw [blocks, List.filterMap_map, List.map_filterMap]
  exact List.filterMap_congr fun c _ => c.terminator.suspension?_dropSlot s.id l

theorem state?_dropSlot (id : StateId) :
    (w.dropSlot s l).state? id = (w.state? id).map (ResumptionState.dropSlot s.id l) := by
  have states : (w.dropSlot s l).states = w.states.map (ResumptionState.dropSlot s.id l) := rfl
  have same : ∀ r : ResumptionState, (r.dropSlot s.id l).id = r.id := by
    intro r
    unfold ResumptionState.dropSlot
    split <;> rfl
  unfold state?
  rw [states, List.find?_map]
  refine congrArg (Option.map _) (congrArg (List.find? · w.states) (funext fun r => ?_))
  exact congrArg (· == id) (same r)

end Procedure

/-- A resume block with a slot less to restore. -/
theorem Block.dropSlot_resumption {state : StateId} {resume next : BlockId}
    {save : List LocalId} {dst : Option LocalId} :
    (b.resumption resume save dst next).dropSlot state resume l =
      b.resumption resume (save.filter (· ≠ l)) dst next := by
  unfold dropSlot resumption piece
  simp [dropRestored, Terminator.dropSlot]

/-- The resume blocks of other states stay as they are. -/
theorem Block.dropSlot_resumption_ne {state : StateId} {other resume next : BlockId}
    {save : List LocalId} {dst : Option LocalId} (ne : resume ≠ other) :
    (b.resumption resume save dst next).dropSlot state other l =
      b.resumption resume save dst next := by
  unfold dropSlot resumption piece
  simp [ne, Terminator.dropSlot]

/-! ## Every state has a resume block of its own -/

section Cuts

variable {part : Cut} {id : BlockId} {start nextBlock nextState : Nat} {sites : List Nat}
  {blocks : List Block}

theorem resumes_cutFrom (ok : cutFrom p live b id start sites nextBlock nextState = .ok part) :
    (part.states.map ResumptionState.block).Sublist (part.blocks.map Block.id) := by
  induction sites generalizing id start nextBlock nextState part with
  | nil =>
    rw [cutFrom] at ok
    cases ok
    exact List.nil_sublist _
  | cons site sites ih =>
    obtain ⟨dst, func, args, more, -, later, rfl⟩ := cutFrom_cons ok
    exact ((ih later).cons_cons _).cons _

theorem resumes_cutBlocks (ok : cutBlocks p live blocks nextBlock nextState = .ok cut) :
    (cut.states.map ResumptionState.block).Sublist (cut.blocks.map Block.id) := by
  induction blocks generalizing nextBlock nextState cut with
  | nil =>
    rw [cutBlocks] at ok
    cases ok
    exact List.nil_sublist _
  | cons b rest ih =>
    obtain ⟨first, more, head, tail, rfl⟩ := cutBlocks_cons ok
    rw [List.map_append, List.map_append]
    exact (resumes_cutFrom head).append (ih tail)

end Cuts

theorem Assembled.nodup_resumes (h : Assembled p live cut w) :
    (cut.states.map ResumptionState.block).Nodup := by
  refine (resumes_cutBlocks h.cut_ok).nodup ?_
  refine h.ids_perm.nodup_iff.2 (List.Nodup.map_on (fun m inside n inside' same => ?_)
    List.nodup_range)
  have low := h.nextBlock_lt
  rw [List.mem_range] at inside inside'
  have index := congrArg BlockId.index same
  rwa [BlockId.index_ofIndex (by omega), BlockId.index_ofIndex (by omega)] at index

/-! ## The check of the changed procedure -/

/-- A list of checks of which one kind fails, always in the same way. -/
theorem Except.forM_eq_error {ε α : Type} {f : α → Except ε Unit} {l : List α} {e : ε}
    (each : ∀ a ∈ l, f a = .ok () ∨ f a = .error e) (some : ∃ a ∈ l, f a = .error e) :
    l.forM f = .error e := by
  induction l with
  | nil => exact absurd some.choose_spec.1 List.not_mem_nil
  | cons a rest ih =>
    have step : (a :: rest).forM f = (f a >>= fun _ => rest.forM f) := rfl
    rw [List.forall_mem_cons] at each
    rw [step]
    rcases each.1 with passes | fails
    · rw [passes]
      obtain ⟨c, mem, breach⟩ := some
      refine ih each.2 ⟨c, ?_, breach⟩
      refine (List.mem_cons.1 mem).resolve_left fun same => ?_
      rw [same, passes] at breach
      cases breach
    · rw [fails]
      rfl

namespace Procedure

variable {entry : Block} {fresh : BlockId} {arms : List (StateId × BlockId)} {e : FormDefect}

/-- The check fails with the first breach of a call, if nothing is wrong before. -/
theorem verify_eq_error (found : w.block? w.entryBlock = some entry)
    (dispatches : entry.terminator = .dispatch fresh arms)
    (once : (w.suspensions.map Prod.fst).Nodup)
    (count : w.suspensions.length = (arms.map Prod.fst).eraseDups.length)
    (computed : Liveness.compute? w = some candidate)
    (each : ∀ call ∈ w.suspensions,
      w.verifyCall arms candidate call = .ok () ∨ w.verifyCall arms candidate call = .error e)
    (some : ∃ call ∈ w.suspensions, w.verifyCall arms candidate call = .error e) :
    w.verify = .error e := by
  have again : firstRepeated? [] (w.suspensions.map Prod.fst) = none :=
    firstRepeated?_eq_none_iff.2 ⟨once, fun _ _ => List.not_mem_nil⟩
  unfold verify
  simp only [found, dispatches, again, computed]
  rw [if_neg (not_not_intro count)]
  exact Except.forM_eq_error each some

/-- A call whose resume path is in order but for a local that the resume block needs. -/
theorem verifyCall_eq_error {state : StateId} {save : List LocalId} {resume : BlockId}
    {r : ResumptionState} (arm : armFor? arms state = some resume)
    (recorded : w.state? state = some r) (leads : r.block = resume)
    (slots : r.live.map LiveSlot.localId = save)
    (restores : (w.block? resume).bind Block.restored? = some save)
    (missing : candidate.atStart resume ≠ []) :
    w.verifyCall arms candidate (state, save) =
      .error (.unrestored resume (candidate.atStart resume)) := by
  unfold verifyCall
  simp only [arm, recorded, leads, slots, restores, ne_eq, not_true_eq_false, if_false,
    missing, not_false_eq_true, if_true]
  rfl

end Procedure

namespace Assembled

variable (h : Assembled p live cut w) (solves : live.Solves p)
include h solves

theorem carrier_dropSlot : p.Carrier (w.dropSlot s l) live :=
  (h.carrier solves).dropSlot h.unwoven h.woven

/-- A local is needed by the resume block of a call that does not restore it, if the call
saved it. -/
theorem mem_atStart_dropSlot (computed : Liveness.compute? (w.dropSlot s l) = some candidate)
    (solved : candidate.Solves (w.dropSlot s l)) {d : Block} {more : List Stmt}
    {dst : Option LocalId} {resume next : BlockId} {save slots : List LocalId}
    (block : b ∈ p.blocks)
    (stands : b.resumption resume slots dst next ∈ (w.dropSlot s l).blocks)
    (saved : ∀ x, x ∈ save ↔ x ∈ live.before b more ∧ x ∉ dst ∨ x ∈ live.onRaise b)
    (behind : more ⊆ b.statements) (found : w.block? next = some d)
    (carries : w.Carries live b d more) {x : LocalId} :
    x ∈ candidate.atStart resume ↔ x ∈ save ∧ x ∉ slots := by
  have sound := h.sound.blocks b block
  have carries : (w.dropSlot s l).Carries live b (d.dropSlot s.id s.block l) more :=
    carries.dropSlot (fun s mem => sound.isResumption_stmt h.unwoven (behind mem))
      (sound.isResumption_terminator h.unwoven)
  have found : (w.dropSlot s l).block? next = some (d.dropSlot s.id s.block l) := by
    rw [Procedure.block?_dropSlot, found]
    rfl
  rw [(h.carrier_dropSlot solves).mem_atStart_resumption h.computed computed solved block stands
    found carries, saved]

/-- The other calls can be taken up again as before. -/
theorem verifyCall_dropSlot_ne (computed : Liveness.compute? (w.dropSlot s l) = some candidate)
    (solved : candidate.Solves (w.dropSlot s l)) (state : s ∈ cut.states)
    {call : StateId × List LocalId} (mem : call ∈ w.suspensions) (ne : call.1 ≠ s.id) :
    (w.dropSlot s l).verifyCall (cut.states.map fun s => (s.id, s.block)) candidate
      (keptSlots s.id l call) = .ok () := by
  obtain ⟨block, resumption, recorded, saved, behind, found, carries⟩ := h.backs mem
  rename_i b d more dst resume next
  have other : resume ≠ s.block := by
    intro same
    have one := List.inj_on_of_nodup_map h.nodup_resumes recorded state same
    exact ne (congrArg ResumptionState.id one)
  have here : (w.dropSlot s l).block? resume = some (b.resumption resume call.2 dst next) := by
    have look := h.block?_id (h.mem_blocks_iff.2 (Or.inl resumption))
    have look : w.block? resume = some (b.resumption resume call.2 dst next) := look
    rw [Procedure.block?_dropSlot, look, Option.map_some, Block.dropSlot_resumption_ne other]
  have kept : keptSlots s.id l call = call := by
    unfold keptSlots
    rw [if_neg ne]
  rw [kept, Procedure.verifyCall_eq_ok_iff]
  refine ⟨resume, h.armFor?_id recorded, ?_, ?_, ?_⟩
  · obtain ⟨successors, look⟩ := h.state?_id recorded
    refine ⟨⟨call.1, resume, call.2.map p.slot, successors⟩, ?_, rfl, ?_⟩
    · rw [Procedure.state?_dropSlot, look, Option.map_some]
      unfold ResumptionState.dropSlot
      rw [if_neg ne]
    · rw [List.map_map, p.localId_comp_slot, List.map_id']
  · rw [here]
    rfl
  · rw [List.eq_nil_iff_forall_not_mem]
    intro x needed
    have stands := List.mem_of_getElem? here
    have both := (h.mem_atStart_dropSlot solves computed solved block stands saved behind found
      carries).1 needed
    exact both.2 both.1

/-- The call that lost a slot cannot be taken up again: its resume block needs just that
local. -/
theorem verifyCall_dropSlot (computed : Liveness.compute? (w.dropSlot s l) = some candidate)
    (solved : candidate.Solves (w.dropSlot s l)) (state : s ∈ cut.states)
    (lost : l ∈ s.live.map LiveSlot.localId)
    {call : StateId × List LocalId} (mem : call ∈ w.suspensions) (same : call.1 = s.id) :
    (w.dropSlot s l).verifyCall (cut.states.map fun s => (s.id, s.block)) candidate
      (keptSlots s.id l call) = .error (.unrestored s.block [l]) := by
  obtain ⟨block, resumption, recorded, saved, behind, found, carries⟩ := h.backs mem
  rename_i b d more dst resume next
  have nodup := (List.nodup_cons.1 h.nodup_states).2
  have one := List.inj_on_of_nodup_map nodup recorded state same
  have leads : s.block = resume := (congrArg ResumptionState.block one).symm
  have slots : s.live = call.2.map p.slot := (congrArg ResumptionState.live one).symm
  rw [slots, List.map_map, p.localId_comp_slot, List.map_id'] at lost
  have here : (w.dropSlot s l).block? resume =
      some (b.resumption resume (call.2.filter (· ≠ l)) dst next) := by
    have look := h.block?_id (h.mem_blocks_iff.2 (Or.inl resumption))
    have look : w.block? resume = some (b.resumption resume call.2 dst next) := look
    rw [Procedure.block?_dropSlot, look, Option.map_some, leads, Block.dropSlot_resumption]
  have stands := List.mem_of_getElem? here
  have needs : ∀ x, x ∈ candidate.atStart resume ↔ x = l := by
    intro x
    rw [h.mem_atStart_dropSlot solves computed solved block stands saved behind found carries]
    simp only [List.mem_filter, decide_eq_true_eq, ne_eq, not_and_not_right]
    refine ⟨fun both => both.2 both.1, fun same => ?_⟩
    subst same
    exact ⟨lost, fun _ => rfl⟩
  have only : candidate.atStart resume = [l] := by
    have start : candidate.atStart resume = _ := solved.atStart _ stands
    have sorted : Ascending.Sorted LocalId.index (candidate.atStart resume) := by
      rw [start]
      exact Liveness.sorted_before _
    refine sorted.eq_of_subset (List.pairwise_singleton _ _)
      (fun x mem => List.mem_singleton.2 ((needs x).1 mem)) ?_
    exact List.length_pos_of_mem ((needs l).2 rfl)
  obtain ⟨successors, look⟩ := h.state?_id recorded
  have kept : keptSlots s.id l call = (call.1, call.2.filter (· ≠ l)) := by
    unfold keptSlots
    rw [if_pos same]
  have record : (w.dropSlot s l).state? call.1 =
      some ⟨call.1, resume, (call.2.map p.slot).filter (·.localId ≠ l), successors⟩ := by
    rw [Procedure.state?_dropSlot, look, Option.map_some]
    unfold ResumptionState.dropSlot
    rw [if_pos same]
  have listed : ((call.2.map p.slot).filter (·.localId ≠ l)).map LiveSlot.localId =
      call.2.filter (· ≠ l) := by
    rw [List.filter_map, List.map_map, p.localId_comp_slot, List.map_id']
    refine List.filter_congr fun x _ => ?_
    rw [Function.comp_apply, p.localId_slot]
  have missing : candidate.atStart resume ≠ [] := by
    rw [only]
    exact List.cons_ne_nil _ _
  rw [kept, leads, Procedure.verifyCall_eq_error (h.armFor?_id recorded) record rfl listed
    (by rw [here]; rfl) missing, only]

/-- The check notices that a slot was taken away. -/
theorem verify_dropSlot (state : s ∈ cut.states) (lost : l ∈ s.live.map LiveSlot.localId) :
    (w.dropSlot s l).verify = .error (.unrestored s.block [l]) := by
  obtain ⟨candidate, computed, solved⟩ :=
    Liveness.compute?_eq_some (h.carrier_dropSlot (s := s) (l := l) solves).isSound
  have entry : (w.dropSlot s l).block? (w.dropSlot s l).entryBlock =
      some ((dispatcher w.entryBlock p.entryBlock cut.states).dropSlot s.id s.block l) := by
    rw [Procedure.block?_dropSlot]
    exact congrArg (Option.map _) h.block?_entry
  have states : (w.dropSlot s l).suspensions.map Prod.fst = w.suspensions.map Prod.fst := by
    rw [Procedure.suspensions_dropSlot, List.map_map]
    rfl
  have each : ∀ call ∈ w.suspensions, call.1 = s.id → _ := fun _ mem same =>
    h.verifyCall_dropSlot solves computed solved state lost mem same
  have others : ∀ call ∈ w.suspensions, call.1 ≠ s.id → _ := fun _ mem ne =>
    h.verifyCall_dropSlot_ne solves computed solved state mem ne
  refine Procedure.verify_eq_error entry rfl ?_ ?_ computed ?_ ?_
  · rw [states]
    exact h.nodup_suspensions
  · rw [Procedure.suspensions_dropSlot, List.length_map]
    exact h.length_suspensions
  · rw [Procedure.suspensions_dropSlot]
    refine List.forall_mem_map.2 fun call mem => ?_
    by_cases same : call.1 = s.id
    · exact Or.inr (each call mem same)
    · exact Or.inl (others call mem same)
  · rw [Procedure.suspensions_dropSlot]
    have known : s.id ∈ w.suspensions.map Prod.fst :=
      h.suspensions_perm.mem_iff.2 (List.mem_map_of_mem state)
    obtain ⟨call, mem, same⟩ := List.mem_map.1 known
    exact ⟨_, List.mem_map_of_mem mem, each call mem same⟩

end Assembled

/-- What weaving hands out is the resumable form of a procedure with a body that was not woven
before. -/
theorem Procedure.resumableForm_of_weave {c : Classification} {woven : WovenProcedure}
    (weaves : p.weave c = .ok (some woven)) :
    p.attrs.woven = false ∧ p.hasBody = true ∧ p.resumableForm = .ok woven.procedure := by
  unfold weave at weaves
  split at weaves
  · cases weaves
  · rename_i plain
    rw [Bool.not_eq_true, Bool.or_eq_false_iff] at plain
    split at weaves
    · cases weaves
    · split at weaves
      · split at weaves
        · rename_i w form
          cases weaves
          exact ⟨plain.1, by simpa using plain.2, form⟩
        · cases weaves
      · cases weaves

/-- No call of a woven procedure saves a local in vain.  Taking one away, from what the call
saves, from what its resume block restores and from what its state records, is a breach of the
resumable form: the resume block reads this local without restoring it. -/
theorem Procedure.verify_unrestored {p : Procedure} {c : Classification} {woven : WovenProcedure}
    (valid : p.validate = .ok ()) (weaves : p.weave c = .ok (some woven)) :
    ∀ s ∈ woven.procedure.states, s.id ≠ StateId.entry →
      ∀ l ∈ s.live.map LiveSlot.localId,
        (woven.procedure.dropSlot s l).verify = .error (.unrestored s.block [l]) := by
  intro s mem other l lost
  obtain ⟨unwoven, body, form⟩ := resumableForm_of_weave weaves
  obtain ⟨live, cut, h⟩ := exists_assembled (sound_of_validate valid body) unwoven form
  obtain ⟨live', computed, solves⟩ := Liveness.compute?_eq_some h.sound
  obtain rfl : live = live' := Option.some.inj (h.computed.symm.trans computed)
  obtain ⟨reachable, slots, states⟩ := h.states_eq
  rw [states] at mem
  obtain ⟨recorded, state, rfl⟩ := List.mem_map.1 mem
  rcases List.mem_cons.1 state with rfl | state
  · exact absurd rfl other
  · exact h.verify_dropSlot (s := recorded) solves state lost

/-- The call of `retry` saves the argument for the next round, since that may raise.  Without
the argument its resume block is refused. -/
theorem Procedure.verify_unrestored_retry :
    ∃ woven, (retryMarked [0]).weave ⟨[(retry.id, .suspending)], [], []⟩ = .ok (some woven) ∧
      ∃ s ∈ woven.procedure.states, s.id ≠ StateId.entry ∧
        ⟨0⟩ ∈ s.live.map LiveSlot.localId ∧
        (woven.procedure.dropSlot s ⟨0⟩).verify = .error (.unrestored ⟨4⟩ [⟨0⟩]) := by
  have valid : (retryMarked [0]).validate = .ok () := by decide
  obtain ⟨woven, weaves, states⟩ : ∃ woven,
      (retryMarked [0]).weave ⟨[(retry.id, .suspending)], [], []⟩ = .ok (some woven) ∧
        woven.procedure.states.map (fun s => (s.id, s.block, s.live.map LiveSlot.localId)) =
          [(⟨0⟩, ⟨0⟩, [⟨0⟩]), (⟨1⟩, ⟨4⟩, [⟨0⟩])] := ⟨_, rfl, by decide⟩
  have listed : ((⟨1⟩ : StateId), (⟨4⟩ : BlockId), [(⟨0⟩ : LocalId)]) ∈
      woven.procedure.states.map (fun s => (s.id, s.block, s.live.map LiveSlot.localId)) := by
    rw [states]
    exact List.mem_cons_of_mem _ List.mem_cons_self
  obtain ⟨s, mem, same⟩ := List.mem_map.1 listed
  simp only [Prod.mk.injEq] at same
  obtain ⟨id, block, live⟩ := same
  have other : s.id ≠ StateId.entry := by
    rw [id]
    decide
  have lost : (⟨0⟩ : LocalId) ∈ s.live.map LiveSlot.localId := by
    rw [live]
    exact List.mem_cons_self
  have refused := Procedure.verify_unrestored valid weaves s mem other ⟨0⟩ lost
  rw [block] at refused
  exact ⟨woven, weaves, s, mem, other, lost, refused⟩

end Resumable
