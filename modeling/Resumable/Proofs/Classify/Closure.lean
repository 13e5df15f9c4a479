import Mathlib.Data.List.Forall2
import Resumable.Classify.Classification

/-!
# The rounds of the classification

`closeCallers` adds callers round by round, for a bounded number of rounds.  The
rounds only add, so the number of procedures that suspend grows until a round
changes nothing, and there are enough rounds for that.

`suspendingNodes_iff` says what comes out: the least set that holds the procedures
that suspend for a reason of their own and the callers of its members.
-/

namespace Resumable

/-- The positions of the procedures that suspend: for a reason of their own, or by a
call of another one that does. -/
inductive Suspends (nodes : List CallNode) : Nat → Prop
  | own {i : Nat} {n : CallNode} (found : nodes[i]? = some n) (seed : n.isSeed = true) :
    Suspends nodes i
  | call {i j : Nat} {n : CallNode} {s : Site} (found : nodes[i]? = some n)
      (isOpen : n.isOpen = true) (site : s ∈ n.sites) (target : j ∈ s.nodes)
      (rest : Suspends nodes j) : Suspends nodes i

/-- The flags of the second list are those of the first one and more. -/
abbrev Grows (flags more : List Bool) : Prop :=
  List.Forall₂ (fun a b => a = true → b = true) flags more

theorem Grows.count_le {flags more : List Bool} (h : Grows flags more) :
    flags.count true ≤ more.count true := by
  induction h with
  | nil => exact Nat.le_refl _
  | @cons a b _ _ head _ ih =>
    cases a <;> cases b <;> simp_all
    omega

/-- Flags that grow without a new one are the same. -/
theorem Grows.eq_of_count_le {flags more : List Bool} (h : Grows flags more)
    (few : more.count true ≤ flags.count true) : flags = more := by
  induction h with
  | nil => rfl
  | @cons a b as bs head tail ih =>
    have grown := Grows.count_le tail
    cases a <;> cases b
    · simp only [List.count_cons] at few
      rw [ih (by simpa using few)]
    · simp at few
      omega
    · simp at head
    · simp only [List.count_cons] at few
      rw [ih (by simpa using few)]

theorem Site.suspends_iff {s : Site} {flags : List Bool} :
    s.suspends flags = true ↔
      s.fixed = some .suspending ∨ ∃ n ∈ s.nodes, flags[n]? = some true := by
  unfold Site.suspends
  rw [Bool.or_eq_true, beq_iff_eq, List.any_eq_true]
  refine or_congr_right (exists_congr fun n => and_congr_right fun _ => ?_)
  rw [List.getD_eq_getElem?_getD]
  cases found : flags[n]? <;> simp

section Rounds

variable {nodes : List CallNode} {flags : List Bool}

theorem length_addCallers (same : flags.length = nodes.length) :
    (addCallers nodes flags).length = nodes.length := by
  simp [addCallers, same]

theorem getElem?_addCallers {i : Nat} {n : CallNode} {known : Bool}
    (found : nodes[i]? = some n) (flag : flags[i]? = some known) :
    (addCallers nodes flags)[i]? =
      some (known || (n.isOpen && n.sites.any fun s => s.suspends flags)) := by
  simp [addCallers, List.getElem?_zipWith, found, flag]

theorem grows_addCallers (same : flags.length = nodes.length) :
    Grows flags (addCallers nodes flags) := by
  rw [Grows, List.forall₂_iff_get]
  refine ⟨by rw [length_addCallers same, same], fun i hi hj flag => ?_⟩
  have found := List.getElem?_eq_getElem (same ▸ hi : i < nodes.length)
  have := getElem?_addCallers found (List.getElem?_eq_getElem hi)
  rw [List.getElem?_eq_getElem hj] at this
  rw [List.get_eq_getElem] at flag ⊢
  rw [Option.some.inj this, flag, Bool.true_or]

theorem length_closeCallers (rounds : Nat) (same : flags.length = nodes.length) :
    (closeCallers nodes rounds flags).length = nodes.length := by
  induction rounds generalizing flags with
  | zero => exact same
  | succ rounds ih =>
    rw [closeCallers]
    split
    · exact same
    · exact ih (length_addCallers same)

theorem grows_closeCallers (rounds : Nat) (same : flags.length = nodes.length) :
    ∀ i : Nat, flags[i]? = some true → (closeCallers nodes rounds flags)[i]? = some true := by
  induction rounds generalizing flags with
  | zero => exact fun _ h => h
  | succ rounds ih =>
    intro i flag
    rw [closeCallers]
    split
    · exact flag
    · apply ih (length_addCallers same)
      have lt : i < nodes.length := by
        rw [← same]
        exact (List.getElem?_eq_some_iff.1 flag).1
      rw [getElem?_addCallers (List.getElem?_eq_getElem lt) flag, Bool.true_or]

/-- With as many rounds as flags are still missing, the last one changes nothing. -/
theorem addCallers_closeCallers (rounds : Nat) (same : flags.length = nodes.length)
    (enough : nodes.length < rounds + flags.count true) :
    addCallers nodes (closeCallers nodes rounds flags) = closeCallers nodes rounds flags := by
  induction rounds generalizing flags with
  | zero =>
    have : flags.count true ≤ flags.length := List.count_le_length
    omega
  | succ rounds ih =>
    rw [closeCallers]
    split
    · rename_i fixed
      simpa using fixed
    · rename_i changed
      apply ih (length_addCallers same)
      have grown := grows_addCallers same
      have more : flags.count true < (addCallers nodes flags).count true := by
        by_contra few
        exact changed (by simpa using (grown.eq_of_count_le (by omega)).symm)
      omega

/-- What the rounds add suspends. -/
theorem suspends_of_closeCallers (rounds : Nat) (same : flags.length = nodes.length)
    (seeds : ∀ i : Nat, flags[i]? = some true → Suspends nodes i)
    (fixed : ∀ (i : Nat) (n : CallNode) (s : Site), nodes[i]? = some n → n.isOpen = true →
      s ∈ n.sites → s.fixed = some .suspending → Suspends nodes i) :
    ∀ i : Nat, (closeCallers nodes rounds flags)[i]? = some true → Suspends nodes i := by
  induction rounds generalizing flags with
  | zero => exact seeds
  | succ rounds ih =>
    rw [closeCallers]
    split
    · exact seeds
    · apply ih (length_addCallers same)
      intro i flag
      have lt : i < nodes.length := by
        rw [← length_addCallers same]
        exact (List.getElem?_eq_some_iff.1 flag).1
      have found := List.getElem?_eq_getElem lt
      obtain ⟨known, was⟩ : ∃ known, flags[i]? = some known :=
        ⟨_, List.getElem?_eq_getElem (same ▸ lt)⟩
      rw [getElem?_addCallers found was] at flag
      cases known with
      | true => exact seeds i was
      | false =>
        simp only [Bool.false_or, Option.some.injEq, Bool.and_eq_true, List.any_eq_true] at flag
        obtain ⟨isOpen, s, site, suspends⟩ := flag
        rcases Site.suspends_iff.1 suspends with verdict | ⟨j, target, flag⟩
        · exact fixed i _ s found isOpen site verdict
        · exact .call found isOpen site target (seeds j flag)

end Rounds

theorem CallNode.isSeed_of_fixed {n : CallNode} {s : Site} (isOpen : n.isOpen = true)
    (site : s ∈ n.sites) (fixed : s.fixed = some .suspending) : n.isSeed = true := by
  unfold CallNode.isOpen at isOpen
  unfold isSeed
  simp only [Bool.and_eq_true, Bool.not_eq_true'] at isOpen
  simp only [isOpen.1, isOpen.2, Bool.not_false, Bool.true_and, Bool.or_eq_true]
  exact Or.inr (List.any_eq_true.2 ⟨s, site, by simp [fixed]⟩)

theorem length_suspendingNodes (nodes : List CallNode) :
    (suspendingNodes nodes).length = nodes.length :=
  length_closeCallers _ (by simp)

theorem addCallers_suspendingNodes (nodes : List CallNode) :
    addCallers nodes (suspendingNodes nodes) = suspendingNodes nodes :=
  addCallers_closeCallers _ (by simp) (by omega)

/-- A procedure with a call that suspends is itself among those that suspend. -/
theorem suspendingNodes_of_site {nodes : List CallNode} {i : Nat} {n : CallNode} {s : Site}
    (found : nodes[i]? = some n) (isOpen : n.isOpen = true) (site : s ∈ n.sites)
    (suspends : s.suspends (suspendingNodes nodes) = true) :
    (suspendingNodes nodes)[i]? = some true := by
  obtain ⟨lt, -⟩ := List.getElem?_eq_some_iff.1 found
  have flag := List.getElem?_eq_getElem ((length_suspendingNodes nodes).symm ▸ lt :
    i < (suspendingNodes nodes).length)
  have added := getElem?_addCallers found flag
  have some : (n.sites.any fun s => s.suspends (suspendingNodes nodes)) = true :=
    List.any_eq_true.2 ⟨s, site, suspends⟩
  rw [addCallers_suspendingNodes, isOpen, some] at added
  simpa using added

/-- The rounds compute the least set that holds the callers of its members. -/
theorem suspendingNodes_iff {nodes : List CallNode} {i : Nat} :
    (suspendingNodes nodes)[i]? = some true ↔ Suspends nodes i := by
  have seeds : ∀ j : Nat, (nodes.map CallNode.isSeed)[j]? = some true ↔
      ∃ n, nodes[j]? = some n ∧ n.isSeed = true := by
    intro j
    rw [List.getElem?_map, Option.map_eq_some_iff]
  constructor
  · apply suspends_of_closeCallers _ (by simp)
    · intro j flag
      obtain ⟨n, found, seed⟩ := (seeds j).1 flag
      exact .own found seed
    · intro j n s found isOpen site fixed
      exact .own found (CallNode.isSeed_of_fixed isOpen site fixed)
  · intro h
    induction h with
    | own found seed =>
      exact grows_closeCallers _ (by simp) _ ((seeds _).2 ⟨_, found, seed⟩)
    | call found isOpen site target _ ih =>
      exact suspendingNodes_of_site found isOpen site
        (Site.suspends_iff.2 (Or.inr ⟨_, target, ih⟩))

end Resumable
