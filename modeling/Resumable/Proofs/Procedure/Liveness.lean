import Mathlib.Data.List.Forall2
import Resumable.Procedure.Liveness
import Resumable.Proofs.Ascending
import Resumable.Proofs.Procedure.Validity

/-!
# The liveness of a procedure

`Liveness.compute?` sweeps until nothing changes.  The sweeps only add, every set
stays within the locals that the code reads, and so the bound on the sweeps is never
met: what comes out is a solution (`Liveness.Solves`).  At the start of each block it
has what the code of the block needs, and all its members are declared.
-/

namespace Resumable

theorem LocalId.index_injective : Function.Injective LocalId.index := by
  intro a b same
  cases a
  cases b
  exact congrArg LocalId.mk (UInt32.toNat.inj same)

theorem BlockId.index_injective : Function.Injective BlockId.index := by
  intro a b same
  cases a
  cases b
  exact congrArg BlockId.mk (UInt32.toNat.inj same)

theorem Procedure.lt_of_declares {p : Procedure} {l : LocalId} (h : p.declares l = true) :
    l.index < p.locals.length := by
  unfold Procedure.declares Procedure.local? at h
  split at h
  · rename_i found
    exact (List.getElem?_eq_some_iff.1 found).1
  · cases h

namespace Liveness

variable {live more : Liveness} {b : Block}

/-! ## Members -/

theorem mem_onRaise {l : LocalId} :
    l ∈ live.onRaise b ↔ ∃ h ∈ b.handler, l ∈ live.atStart h.target ∧ l ≠ h.bind := by
  unfold onRaise forHandler
  cases b.handler with
  | none => simp
  | some h => simp [Ascending.mem_diff]

theorem mem_normalOut {l : LocalId} :
    l ∈ live.normalOut b ↔ ∃ t ∈ b.terminator.successors, l ∈ live.atStart t := by
  have fold : ∀ (targets : List BlockId) (set : LocalSet),
      l ∈ targets.foldl
          (fun set next => Ascending.union LocalId.index set (live.atStart next)) set ↔
        l ∈ set ∨ ∃ t ∈ targets, l ∈ live.atStart t := by
    intro targets
    induction targets with
    | nil => simp
    | cons t targets ih =>
      intro set
      rw [List.foldl_cons, ih, Ascending.mem_union LocalId.index_injective]
      simp [or_assoc]
  unfold normalOut
  rw [fold]
  simp

theorem mem_stepBack {l : LocalId} {raised after : LocalSet} {s : Stmt} :
    l ∈ stepBack raised s after ↔
      l ∈ after ∧ l ∉ s.defs ∨ l ∈ s.uses ∨ s.canRaise = true ∧ l ∈ raised := by
  unfold stepBack
  cases s.canRaise <;>
    simp [Ascending.mem_union LocalId.index_injective, Ascending.mem_diff, or_assoc]

theorem mem_beforeTerminator {l : LocalId} {raised after : LocalSet} {t : Terminator} :
    l ∈ beforeTerminator raised t after ↔
      l ∈ after ∧ l ∉ t.def? ∨ l ∈ t.uses ∨ t.canRaise = true ∧ l ∈ raised := by
  unfold beforeTerminator
  cases t.canRaise <;>
    simp [Ascending.mem_union LocalId.index_injective, Ascending.mem_diff, or_assoc]

theorem before_nil :
    live.before b [] = beforeTerminator (live.onRaise b) b.terminator (live.normalOut b) := rfl

theorem before_cons (s : Stmt) (rest : List Stmt) :
    live.before b (s :: rest) = stepBack (live.onRaise b) s (live.before b rest) := rfl

/-! ## Order -/

theorem sorted_normalOut : Ascending.Sorted LocalId.index (live.normalOut b) := by
  have fold : ∀ (targets : List BlockId) (set : LocalSet), Ascending.Sorted LocalId.index set →
      Ascending.Sorted LocalId.index (targets.foldl
        (fun set next => Ascending.union LocalId.index set (live.atStart next)) set) := by
    intro targets
    induction targets with
    | nil => exact fun _ sorted => sorted
    | cons t targets ih => exact fun set sorted => ih _ (Ascending.sorted_union sorted _)
  exact fold _ _ .nil

theorem sorted_before (statements : List Stmt) :
    Ascending.Sorted LocalId.index (live.before b statements) := by
  induction statements with
  | nil =>
    rw [before_nil]
    unfold beforeTerminator
    split
    · exact Ascending.sorted_union
        (Ascending.sorted_union (Ascending.sorted_diff sorted_normalOut _) _) _
    · exact Ascending.sorted_union (Ascending.sorted_diff sorted_normalOut _) _
  | cons s rest ih =>
    rw [before_cons]
    unfold stepBack
    split
    · exact Ascending.sorted_union (Ascending.sorted_union (Ascending.sorted_diff ih _) _) _
    · exact Ascending.sorted_union (Ascending.sorted_diff ih _) _

/-! ## Sweeps only add -/

/-- Every set of the second list has the members of its counterpart. -/
abbrev Below (sets sets' : List LocalSet) : Prop := List.Forall₂ (· ⊆ ·) sets sets'

theorem Below.getD {sets sets' : List LocalSet} (h : Below sets sets') (i : Nat) :
    sets.getD i [] ⊆ sets'.getD i [] := by
  induction h generalizing i with
  | nil => simp
  | cons head _ ih =>
    cases i with
    | zero => exact head
    | succ i => exact ih i

theorem Below.set {sets sets' : List LocalSet} (h : Below sets sets') (i : Nat)
    {set set' : LocalSet} (sub : set ⊆ set') : Below (sets.set i set) (sets'.set i set') := by
  induction h generalizing i with
  | nil => exact .nil
  | cons head tail ih =>
    cases i with
    | zero => exact .cons sub tail
    | succ i => exact .cons head (ih i)

/-- Everything that is live in one solution is live in another. -/
structure Le (live more : Liveness) : Prop where
  starts : Below live.liveIn more.liveIn
  ends : Below live.liveOut more.liveOut

/-- Handlers that need more lead to more in front of the code that they guard. -/
theorem onRaise_subset {c : Block} (le : ∀ id, live.atStart id ⊆ more.atStart id)
    (handler : c.handler = b.handler) : live.onRaise b ⊆ more.onRaise c := by
  intro l mem
  obtain ⟨target, here, start, ne⟩ := mem_onRaise.1 mem
  exact mem_onRaise.2 ⟨target, handler ▸ here, le _ start, ne⟩

theorem Le.onRaise (h : Le live more) : live.onRaise b ⊆ more.onRaise b :=
  onRaise_subset (fun _ => h.starts.getD _) rfl

theorem Le.normalOut (h : Le live more) : live.normalOut b ⊆ more.normalOut b := by
  intro l mem
  obtain ⟨t, next, start⟩ := mem_normalOut.1 mem
  exact mem_normalOut.2 ⟨t, next, h.starts.getD _ start⟩

/-- Code that goes on alike, in front of code of which the one needs no more than the other. -/
theorem before_append_subset {c : Block} {tail rest : List Stmt}
    (raised : live.onRaise b ⊆ more.onRaise c) (behind : live.before b tail ⊆ more.before c rest)
    (statements : List Stmt) :
    live.before b (statements ++ tail) ⊆ more.before c (statements ++ rest) := by
  induction statements with
  | nil => exact behind
  | cons s statements ih =>
    intro l mem
    rw [List.cons_append, before_cons, mem_stepBack] at mem ⊢
    exact mem.imp (And.imp_left (ih ·)) (Or.imp_right (And.imp_right (raised ·)))

/-- Code that goes on alike needs no more in front of it than behind it. -/
theorem before_subset {c : Block} {rest : List Stmt} (raised : live.onRaise b ⊆ more.onRaise c)
    (behind : live.before b [] ⊆ more.before c rest) (statements : List Stmt) :
    live.before b statements ⊆ more.before c (statements ++ rest) := by
  have all := before_append_subset raised behind statements
  rwa [List.append_nil] at all

/-- The same for code up to the end of a block. -/
theorem beforeTerminator_subset {c : Block} (same : b.terminator = c.terminator)
    (raised : live.onRaise b ⊆ more.onRaise c) (normal : live.normalOut b ⊆ more.normalOut c) :
    live.before b [] ⊆ more.before c [] := by
  intro l mem
  rw [before_nil, mem_beforeTerminator] at mem ⊢
  rw [← same]
  exact mem.imp (And.imp_left (normal ·)) (Or.imp_right (And.imp_right (raised ·)))

theorem Le.before (h : Le live more) (statements : List Stmt) :
    live.before b statements ⊆ more.before b statements := by
  have raised : live.onRaise b ⊆ more.onRaise b := h.onRaise
  have all := before_subset raised (beforeTerminator_subset rfl raised h.normalOut) statements
  rwa [List.append_nil] at all

theorem Le.update (h : Le live more) : Le (update b live) (update b more) :=
  ⟨h.starts.set _ (h.before _), h.ends.set _ h.normalOut⟩

theorem Le.sweep (h : Le live more) (blocks : List Block) :
    Le (sweep blocks live) (sweep blocks more) := by
  induction blocks with
  | nil => exact h
  | cons b rest ih => exact ih.update

/-! ## Bounds -/

/-- Ascending sets with members of a list. -/
def Within (bound : List LocalId) (sets : List LocalSet) : Prop :=
  ∀ set ∈ sets, Ascending.Sorted LocalId.index set ∧ set ⊆ bound

/-- How many members the sets have together. -/
def total (sets : List LocalSet) : Nat := sets.flatten.length

theorem total_le {bound : List LocalId} {sets : List LocalSet} (h : Within bound sets) :
    total sets ≤ sets.length * bound.length := by
  induction sets with
  | nil => simp [total]
  | cons set rest ih =>
    have first := (h set List.mem_cons_self).1.length_le (h set List.mem_cons_self).2
    have others := ih fun set mem => h set (List.mem_cons_of_mem _ mem)
    simp only [total, List.flatten_cons, List.length_append, List.length_cons] at others ⊢
    rw [Nat.succ_mul]
    omega

theorem Below.total_le {bound : List LocalId} {sets sets' : List LocalSet} (h : Below sets sets')
    (within : Within bound sets) : total sets ≤ total sets' := by
  induction h with
  | nil => exact Nat.le_refl _
  | cons head _ ih =>
    have first := (within _ List.mem_cons_self).1.length_le head
    have rest := ih fun set mem => within set (List.mem_cons_of_mem _ mem)
    simp only [total, List.flatten_cons, List.length_append] at rest ⊢
    omega

theorem Below.eq_of_total_le {bound : List LocalId} {sets sets' : List LocalSet}
    (h : Below sets sets') (within : Within bound sets) (within' : Within bound sets')
    (few : total sets' ≤ total sets) : sets = sets' := by
  induction h with
  | nil => rfl
  | cons head tail ih =>
    have first := (within _ List.mem_cons_self).1.length_le head
    have inner : Within bound _ := fun set mem => within set (List.mem_cons_of_mem _ mem)
    have inner' : Within bound _ := fun set mem => within' set (List.mem_cons_of_mem _ mem)
    have rest := Below.total_le tail inner
    simp only [total, List.flatten_cons, List.length_append] at few rest
    have same := (within _ List.mem_cons_self).1.eq_of_subset (within' _ List.mem_cons_self).1
      head (by omega)
    rw [same, ih inner inner' (by simp only [total]; omega)]

/-- A candidate whose sets are ascending and within a list. -/
structure Bounded (size : Nat) (bound : List LocalId) (live : Liveness) : Prop where
  lengthIn : live.liveIn.length = size
  lengthOut : live.liveOut.length = size
  starts : Within bound live.liveIn
  ends : Within bound live.liveOut

variable {size : Nat} {bound : List LocalId}

theorem Within.getD {sets : List LocalSet} (h : Within bound sets) (i : Nat) :
    sets.getD i [] ⊆ bound := by
  rw [List.getD_eq_getElem?_getD]
  cases found : sets[i]? with
  | none => simp
  | some set => exact (h set (List.mem_of_getElem? found)).2

theorem Within.set {sets : List LocalSet} (h : Within bound sets) (i : Nat) {set : LocalSet}
    (sorted : Ascending.Sorted LocalId.index set) (sub : set ⊆ bound) :
    Within bound (sets.set i set) := by
  intro other mem
  rcases List.mem_or_eq_of_mem_set mem with old | rfl
  · exact h other old
  · exact ⟨sorted, sub⟩

theorem Bounded.before (h : Bounded size bound live) {statements : List Stmt}
    (uses : ∀ s ∈ statements, s.uses ⊆ bound) (last : b.terminator.uses ⊆ bound) :
    live.before b statements ⊆ bound := by
  have raised : live.onRaise b ⊆ bound := by
    intro l mem
    obtain ⟨_, _, start, _⟩ := mem_onRaise.1 mem
    exact h.starts.getD _ start
  have normal : live.normalOut b ⊆ bound := by
    intro l mem
    obtain ⟨_, _, start⟩ := mem_normalOut.1 mem
    exact h.starts.getD _ start
  induction statements with
  | nil =>
    intro l mem
    rw [before_nil, mem_beforeTerminator] at mem
    rcases mem with ⟨mem, -⟩ | mem | ⟨-, mem⟩
    · exact normal mem
    · exact last mem
    · exact raised mem
  | cons s rest ih =>
    intro l mem
    rw [List.forall_mem_cons] at uses
    rw [before_cons, mem_stepBack] at mem
    rcases mem with ⟨mem, -⟩ | mem | ⟨-, mem⟩
    · exact ih uses.2 mem
    · exact uses.1 mem
    · exact raised mem

theorem Bounded.update (h : Bounded size bound live)
    (uses : ∀ s ∈ b.statements, s.uses ⊆ bound) (last : b.terminator.uses ⊆ bound) :
    Bounded size bound (update b live) where
  lengthIn := by simp [Liveness.update, h.lengthIn]
  lengthOut := by simp [Liveness.update, h.lengthOut]
  starts := h.starts.set _ (sorted_before _) (h.before uses last)
  ends := by
    refine h.ends.set _ sorted_normalOut fun l mem => ?_
    obtain ⟨_, _, start⟩ := mem_normalOut.1 mem
    exact h.starts.getD _ start

theorem Bounded.sweep {blocks : List Block} (h : Bounded size bound live)
    (uses : ∀ b ∈ blocks, (∀ s ∈ b.statements, s.uses ⊆ bound) ∧ b.terminator.uses ⊆ bound) :
    Bounded size bound (sweep blocks live) := by
  induction blocks with
  | nil => exact h
  | cons b rest ih =>
    rw [List.forall_mem_cons] at uses
    exact (ih uses.2).update uses.1.1 uses.1.2

/-! ## The sweeps come to an end -/

theorem settle_spec {blocks : List Block}
    (uses : ∀ b ∈ blocks, (∀ s ∈ b.statements, s.uses ⊆ bound) ∧ b.terminator.uses ⊆ bound)
    {rounds : Nat} (h : Bounded size bound live) (grows : Le live (sweep blocks live))
    (enough : 2 * size * bound.length < rounds + (total live.liveIn + total live.liveOut)) :
    Bounded size bound (settle blocks rounds live) ∧
      sweep blocks (settle blocks rounds live) = settle blocks rounds live := by
  induction rounds generalizing live with
  | zero =>
    have starts := total_le h.starts
    have ends := total_le h.ends
    rw [h.lengthIn] at starts
    rw [h.lengthOut] at ends
    rw [Nat.mul_assoc, Nat.two_mul] at enough
    omega
  | succ rounds ih =>
    rw [settle]
    split
    · rename_i fixed
      exact ⟨h, fixed⟩
    · rename_i changed
      have next := h.sweep uses
      refine ih next (grows.sweep blocks) ?_
      have starts := grows.starts.total_le h.starts
      have ends := grows.ends.total_le h.ends
      by_contra few
      apply changed
      have same := grows.starts.eq_of_total_le h.starts next.starts (by omega)
      have same' := grows.ends.eq_of_total_le h.ends next.ends (by omega)
      rcases live with ⟨starts, ends⟩
      rw [Liveness.mk.injEq]
      exact ⟨same.symm, same'.symm⟩

/-- Blocks with other numbers are left alone. -/
theorem getElem?_sweep {blocks : List Block} {i : Nat} (other : ∀ b ∈ blocks, b.id.index ≠ i) :
    (sweep blocks live).liveIn[i]? = live.liveIn[i]? ∧
      (sweep blocks live).liveOut[i]? = live.liveOut[i]? := by
  induction blocks with
  | nil => exact ⟨rfl, rfl⟩
  | cons b rest ih =>
    rw [List.forall_mem_cons] at other
    have step : sweep (b :: rest) live = update b (sweep rest live) := rfl
    rw [step]
    simp only [update, List.getElem?_set_ne other.1]
    exact ih other.2

/-- A sweep that changes nothing at all changes nothing at any block. -/
theorem update_of_sweep {blocks : List Block} {b : Block} (mem : b ∈ blocks)
    (distinct : (blocks.map fun b => b.id.index).Nodup) (fixed : sweep blocks live = live) :
    update b live = live := by
  obtain ⟨before, after, rfl⟩ := List.append_of_mem mem
  have last : ∀ {early late : List Block},
      ((early ++ late).map fun b => b.id.index).Nodup → sweep (early ++ late) live = live →
        sweep late live = live := by
    intro early late distinct fixed
    rw [List.map_append, List.nodup_append] at distinct
    have split : sweep (early ++ late) live = sweep early (sweep late live) :=
      List.foldr_append
    rw [split] at fixed
    -- a number of the later blocks is not touched again, any other not yet
    have same : ∀ i : Nat, (sweep late live).liveIn[i]? = live.liveIn[i]? ∧
        (sweep late live).liveOut[i]? = live.liveOut[i]? := by
      intro i
      by_cases here : ∃ b ∈ late, b.id.index = i
      · obtain ⟨b, mem, rfl⟩ := here
        have untouched : ∀ c ∈ early, c.id.index ≠ b.id.index := fun c mem' =>
          distinct.2.2 _ (List.mem_map_of_mem mem') _ (List.mem_map_of_mem mem)
        obtain ⟨ins, outs⟩ := @getElem?_sweep (sweep late live) early b.id.index untouched
        rw [fixed] at ins outs
        exact ⟨ins.symm, outs.symm⟩
      · exact getElem?_sweep fun b mem same => here ⟨b, mem, same⟩
    have ins : (sweep late live).liveIn = live.liveIn := List.ext_getElem? fun i => (same i).1
    have outs : (sweep late live).liveOut = live.liveOut := List.ext_getElem? fun i => (same i).2
    revert ins outs
    generalize sweep late live = next
    rcases next with ⟨_, _⟩
    rintro rfl rfl
    rfl
  have tail : sweep after live = live := by
    have := distinct
    rw [List.append_cons] at this fixed
    exact last this fixed
  have here := last distinct fixed
  have step : sweep (b :: after) live = update b (sweep after live) := rfl
  rwa [step, tail] at here

/-! ## The solution -/

/-- What the start of every block needs is live there, and all that is live is declared. -/
structure Solves (p : Procedure) (live : Liveness) : Prop where
  atStart : ∀ b ∈ p.blocks, live.atStart b.id = live.before b b.statements
  declared : ∀ (id : BlockId), ∀ l ∈ live.atStart id, p.declares l = true

theorem Solves.declared_onRaise {p : Procedure} (solves : Solves p live) {l : LocalId}
    (mem : l ∈ live.onRaise b) : p.declares l = true := by
  obtain ⟨h, -, start, -⟩ := mem_onRaise.1 mem
  exact solves.declared h.target l start

/-- What some of the last statements of a block need is declared. -/
theorem Solves.declared_before {p : Procedure} (solves : Solves p live) (sound : p.Sound)
    (block : b ∈ p.blocks) {statements : List Stmt} (sub : statements ⊆ b.statements)
    {l : LocalId} (mem : l ∈ live.before b statements) : p.declares l = true := by
  induction statements with
  | nil =>
    rw [before_nil, mem_beforeTerminator] at mem
    rcases mem with ⟨mem, -⟩ | mem | ⟨-, mem⟩
    · obtain ⟨t, -, start⟩ := mem_normalOut.1 mem
      exact solves.declared t l start
    · exact (sound.blocks b block).localsEnd l (List.mem_append_right _ mem)
    · exact solves.declared_onRaise mem
  | cons s rest ih =>
    rw [List.cons_subset] at sub
    rw [before_cons, mem_stepBack] at mem
    rcases mem with ⟨mem, -⟩ | mem | ⟨-, mem⟩
    · exact ih sub.2 mem
    · exact (sound.blocks b block).locals s sub.1 l (List.mem_append_right _ mem)
    · exact solves.declared_onRaise mem

/-- Every read of a local in the code of a procedure. -/
def readsOf (p : Procedure) : List LocalId :=
  p.blocks.flatMap reads

theorem uses_sub_readsOf {p : Procedure} (mem : b ∈ p.blocks) :
    (∀ s ∈ b.statements, s.uses ⊆ readsOf p) ∧ b.terminator.uses ⊆ readsOf p := by
  constructor
  · intro s here l use
    have read : l ∈ reads b := List.mem_append_left _ (List.mem_flatMap.2 ⟨s, here, use⟩)
    exact List.mem_flatMap.2 ⟨b, mem, read⟩
  · intro l use
    have read : l ∈ reads b := List.mem_append_right _ use
    exact List.mem_flatMap.2 ⟨b, mem, read⟩

theorem all_inRange {p : Procedure} (sound : p.Sound) :
    p.blocks.all (inRange p.blocks.length) = true := by
  rw [List.all_eq_true]
  intro b mem
  unfold inRange
  rw [Bool.and_eq_true, decide_eq_true_eq]
  refine ⟨sound.index_lt mem, ?_⟩
  rw [Option.all_eq_true]
  intro h here
  rw [decide_eq_true_eq]
  exact ((sound.blocks b mem).handler h here).1

theorem bounded_bottom : Bounded size bound (bottom size) := by
  refine ⟨by simp [bottom], by simp [bottom], ?_, ?_⟩
  all_goals
    intro set mem
    rw [List.eq_of_mem_replicate mem]
    exact ⟨.nil, by simp⟩

theorem below_replicate (sets : List LocalSet) : Below (List.replicate sets.length []) sets := by
  induction sets with
  | nil => exact .nil
  | cons set rest ih => exact .cons (by simp) ih

theorem Bounded.bottom_le (h : Bounded size bound live) : Le (bottom size) live := by
  constructor
  · have starts := below_replicate live.liveIn
    rwa [h.lengthIn] at starts
  · have ends := below_replicate live.liveOut
    rwa [h.lengthOut] at ends

/-- Where the sweeps are at rest, the end of a block needs what its successors need. -/
theorem Bounded.atEnd {p : Procedure} (h : Bounded p.blocks.length (readsOf p) live)
    (sound : p.Sound) (fixed : Liveness.sweep p.blocks live = live) (mem : b ∈ p.blocks) :
    live.atEnd b.id = live.normalOut b := by
  have lt := sound.index_lt mem
  rw [← h.lengthOut] at lt
  have unchanged := update_of_sweep mem (sound.map_index ▸ List.nodup_range) fixed
  have same := congrArg Liveness.liveOut unchanged
  unfold Liveness.atEnd
  conv_lhs => rw [← same]
  simp [Liveness.update, List.getD_eq_getElem?_getD, List.getElem?_set_self lt]

/-- What a sweep leaves as it is solves the procedure. -/
theorem Bounded.solves {p : Procedure} (h : Bounded p.blocks.length (readsOf p) live)
    (sound : p.Sound) (fixed : Liveness.sweep p.blocks live = live) : Solves p live := by
  constructor
  · intro b mem
    have lt := sound.index_lt mem
    rw [← h.lengthIn] at lt
    have unchanged := update_of_sweep mem (sound.map_index ▸ List.nodup_range) fixed
    have same := congrArg Liveness.liveIn unchanged
    unfold atStart
    conv_lhs => rw [← same]
    simp [Liveness.update, List.getD_eq_getElem?_getD, List.getElem?_set_self lt]
  · intro id l mem
    obtain ⟨b, here, read⟩ := List.mem_flatMap.1 (h.starts.getD _ mem)
    rcases List.mem_append.1 read with read | read
    · obtain ⟨s, statement, use⟩ := List.mem_flatMap.1 read
      exact (sound.blocks b here).locals s statement l (List.mem_append_right _ use)
    · exact (sound.blocks b here).localsEnd l (List.mem_append_right _ read)

theorem settle_eq_iterate (blocks : List Block) (bound : Nat) (live : Liveness) :
    ∃ rounds, settle blocks bound live = (sweep blocks)^[rounds] live := by
  induction bound generalizing live with
  | zero => exact ⟨0, rfl⟩
  | succ bound ih =>
    rw [settle]
    split
    · exact ⟨0, rfl⟩
    · obtain ⟨rounds, same⟩ := ih (sweep blocks live)
      exact ⟨rounds + 1, same⟩

theorem iterate_of_compute? {p : Procedure} (computed : compute? p = some live) :
    ∃ rounds, (sweep p.blocks)^[rounds] (bottom p.blocks.length) = live := by
  simp only [compute?, Option.ite_none_right_eq_some, Option.some.injEq] at computed
  obtain ⟨rounds, same⟩ := settle_eq_iterate p.blocks
    (2 * p.blocks.length * (p.blocks.flatMap reads).length + 2) (bottom p.blocks.length)
  exact ⟨rounds, same.symm.trans computed.2⟩

/-- The sweeps come to rest, within the locals that the code reads. -/
theorem compute?_settled {p : Procedure} (sound : p.Sound) :
    ∃ live, compute? p = some live ∧ Bounded p.blocks.length (readsOf p) live ∧
      sweep p.blocks live = live := by
  have uses := fun b (mem : b ∈ p.blocks) => uses_sub_readsOf mem
  have start : Bounded p.blocks.length (readsOf p) (bottom p.blocks.length) := bounded_bottom
  have enough : 2 * p.blocks.length * (readsOf p).length <
      2 * p.blocks.length * (readsOf p).length + 2 +
        (total (bottom p.blocks.length).liveIn + total (bottom p.blocks.length).liveOut) := by
    omega
  obtain ⟨bounded, fixed⟩ := settle_spec uses start (start.sweep uses).bottom_le enough
  exact ⟨_, if_pos (all_inRange sound), bounded, fixed⟩

theorem compute?_eq_some {p : Procedure} (sound : p.Sound) :
    ∃ live, compute? p = some live ∧ Solves p live := by
  obtain ⟨live, computed, bounded, fixed⟩ := compute?_settled sound
  exact ⟨live, computed, bounded.solves sound fixed⟩

/-! ## The solution is the least one -/

/-- A property of everything that is live at the start of a block. -/
def Holds (Q : BlockId → LocalId → Prop) (live : Liveness) : Prop :=
  ∀ id, ∀ l ∈ live.atStart id, Q id l

section Least

variable {Q : BlockId → LocalId → Prop}

theorem holds_bottom (size : Nat) : Holds Q (bottom size) := by
  intro id l mem
  have nothing : (bottom size).atStart id = [] := by
    unfold atStart bottom
    rw [List.getD_eq_getElem?_getD, List.getElem?_replicate]
    split <;> rfl
  rw [nothing] at mem
  exact absurd mem List.not_mem_nil

theorem Holds.update (h : Holds Q live) (keeps : ∀ l ∈ live.before b b.statements, Q b.id l) :
    Holds Q (update b live) := by
  intro id l mem
  by_cases same : b.id = id
  · subst same
    have replaced : (Liveness.update b live).atStart b.id = live.before b b.statements ∨
        (Liveness.update b live).atStart b.id = [] := by
      unfold Liveness.update atStart
      rw [List.getD_eq_getElem?_getD, List.getElem?_set_self']
      cases live.liveIn[b.id.index]? with
      | none => exact Or.inr rfl
      | some _ => exact Or.inl rfl
    rcases replaced with replaced | replaced
    · exact keeps l (replaced ▸ mem)
    · exact absurd (replaced ▸ mem) List.not_mem_nil
  · refine h id l ?_
    have other : b.id.index ≠ id.index := fun index => same (BlockId.index_injective index)
    unfold Liveness.update atStart at mem
    rwa [List.getD_eq_getElem?_getD, List.getElem?_set_ne other, ← List.getD_eq_getElem?_getD]
      at mem

/-- What the update of each block keeps holds of everything that is live in the end. -/
theorem Holds.of_compute? {p : Procedure} (computed : compute? p = some live)
    (keeps : ∀ candidate, Holds Q candidate →
      ∀ b ∈ p.blocks, ∀ l ∈ candidate.before b b.statements, Q b.id l) : Holds Q live := by
  have swept : ∀ blocks ⊆ p.blocks, ∀ candidate, Holds Q candidate →
      Holds Q (sweep blocks candidate) := by
    intro blocks
    induction blocks with
    | nil => exact fun _ _ holds => holds
    | cons b rest ih =>
      intro sub candidate holds
      rw [List.cons_subset] at sub
      have inner := ih sub.2 candidate holds
      exact inner.update (keeps _ inner b sub.1)
  obtain ⟨rounds, rfl⟩ := iterate_of_compute? computed
  clear computed
  induction rounds with
  | zero => exact holds_bottom _
  | succ rounds ih =>
    rw [Function.iterate_succ_apply']
    exact swept p.blocks (List.Subset.refl _) _ ih

end Least

end Liveness

end Resumable
