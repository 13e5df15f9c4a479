import Mathlib.Algebra.BigOperators.Group.Finset.Basic
import Mathlib.Algebra.Order.BigOperators.Group.Finset
import Mathlib.Logic.Relation
import Resumable.Search

/-!
# What a search finds

`firstFound` marks every node that it visits and never looks at one twice.  This
module says what it finds without any marks.

* `Reaches` and `Silent`: a node is silent if no node that answers can be reached
  from it, past some nodes that are to be avoided.
* `Answers`: the search that remembers only the nodes on its own path.  The answer
  of a node comes from its first child that is not silent, and from the node
  itself if all its children are silent.
* `Marked` is the invariant of the marks: a marked node that is not on the path
  has no answer, and all its children are marked.  `firstFound_spec` carries it
  through a search.

* `Covers` is a finite part of the graph that a search does not leave.
* `Ends` is the search without a bound on its steps.

`firstFound_eq_some_iff` and `firstFound_eq_none_iff` are the results.  Both ask
for as much fuel as there are edges in the part that is searched, and hold for
graphs with cycles.  With so much fuel the bound is never met: `firstFound_ends`.
-/

namespace Resumable

namespace Search

variable {α β : Type}

/-- One node is a child of another one. -/
def Child (look : α → Search α β) (a c : α) : Prop := c ∈ (look a).children

/-- A path from a node to another one, both and all between them outside of a
list. -/
inductive Reaches (look : α → Search α β) (avoid : List α) : α → α → Prop
  | here {a : α} (fresh : a ∉ avoid) : Reaches look avoid a a
  | down {a c d : α} (fresh : a ∉ avoid) (child : c ∈ (look a).children)
      (rest : Reaches look avoid c d) : Reaches look avoid a d

/-- No node that answers can be reached. -/
def Silent (look : α → Search α β) (avoid : List α) (a : α) : Prop :=
  ∀ c, Reaches look avoid a c → (look c).own = none

/-- The answer of a node, for a search that came along a path. -/
inductive Answers (look : α → Search α β) : List α → α → β → Prop
  | down {path : List α} {a c : α} {before after : List α} {b : β} (fresh : a ∉ path)
      (children : (look a).children = before ++ c :: after)
      (silent : ∀ x ∈ before, Silent look (a :: path) x)
      (answer : Answers look (a :: path) c b) : Answers look path a b
  | own {path : List α} {a : α} {b : β} (fresh : a ∉ path)
      (silent : ∀ x ∈ (look a).children, Silent look (a :: path) x)
      (answer : (look a).own = some b) : Answers look path a b

variable {look : α → Search α β}

theorem Reaches.mono {avoid fewer : List α} (sub : fewer ⊆ avoid) {a c : α}
    (h : Reaches look avoid a c) : Reaches look fewer a c := by
  induction h with
  | here fresh => exact .here fun h => fresh (sub h)
  | down fresh child _ ih => exact .down (fun h => fresh (sub h)) child ih

/-- A node with an answer is not silent. -/
theorem Answers.not_silent {path : List α} {a : α} {b : β} (h : Answers look path a b) :
    ¬ Silent look path a := by
  induction h with
  | @down path a c before after b fresh children _ _ ih =>
    intro silent
    apply ih
    intro d reach
    have child : c ∈ (look a).children := by simp [children]
    exact silent d (.down fresh child (reach.mono (List.subset_cons_self a path)))
  | @own path a b fresh _ answer =>
    intro silent
    have := silent a (.here fresh)
    simp [answer] at this

/-- A list is split in one way at its first member that is not silent. -/
private theorem split_unique {P : α → Prop} {c d : α} :
    ∀ {before before' after after' : List α},
      before ++ c :: after = before' ++ d :: after' →
      (∀ x ∈ before, P x) → ¬ P c → (∀ x ∈ before', P x) → ¬ P d → c = d := by
  intro before
  induction before with
  | nil =>
    intro before' after after' h _ hc hb' _
    cases before' with
    | nil => exact (List.cons.inj h).1
    | cons y ys =>
      have : c = y := (List.cons.inj h).1
      exact absurd (hb' y (by simp)) (this ▸ hc)
  | cons x xs ih =>
    intro before' after after' h hb hc hb' hd
    cases before' with
    | nil =>
      have : x = d := (List.cons.inj h).1
      exact absurd (hb x (by simp)) (this ▸ hd)
    | cons y ys =>
      exact ih (List.cons.inj h).2 (fun z hz => hb z (by simp [hz])) hc
        (fun z hz => hb' z (by simp [hz])) hd

/-- A node has one answer at most. -/
theorem Answers.unique {path : List α} {a : α} {b b' : β} (h : Answers look path a b)
    (h' : Answers look path a b') : b = b' := by
  induction h with
  | @down path a c before after b fresh children silent answer ih =>
    cases h' with
    | @down _ _ c' before' after' _ _ children' silent' answer' =>
      have same : c = c' :=
        split_unique (children.symm.trans children') silent answer.not_silent silent'
          answer'.not_silent
      exact ih (same ▸ answer')
    | own _ silent' _ =>
      exact absurd (silent' c (by simp [children])) answer.not_silent
  | @own path a b fresh silent answer =>
    cases h' with
    | @down _ _ c' before' after' _ _ children' _ answer' =>
      exact absurd (silent c' (by simp [children'])) answer'.not_silent
    | own _ _ answer' =>
      exact Option.some.inj (answer.symm.trans answer')

/-- An answer is that of some node below. -/
theorem Answers.exists_own {path : List α} {a : α} {b : β} (h : Answers look path a b) :
    ∃ c, Relation.ReflTransGen (Child look) a c ∧
      (look c).own = some b := by
  induction h with
  | @down path a c before after b _ children _ _ ih =>
    obtain ⟨d, reach, own⟩ := ih
    have child : Child look a c := by simp [Child, children]
    exact ⟨d, .head child reach, own⟩
  | @own _ a _ _ _ answer => exact ⟨a, .refl, answer⟩

/-! ## The marks of a search -/

/-- The marked nodes that are not on the path have no answer, and neither have
their children, which are marked as well. -/
def Marked (look : α → Search α β) (visited path : List α) : Prop :=
  ∀ x ∈ visited, x ∉ path → (look x).own = none ∧ ∀ c ∈ (look x).children, c ∈ visited

theorem Marked.reaches {visited path : List α} (h : Marked look visited path) {a c : α}
    (reach : Reaches look path a c) (marked : a ∈ visited) : (look c).own = none := by
  induction reach with
  | here fresh => exact (h _ marked fresh).1
  | down fresh child _ ih => exact ih ((h _ marked fresh).2 _ child)

theorem Marked.silent {visited path : List α} (h : Marked look visited path) {a : α}
    (marked : a ∈ visited) : Silent look path a :=
  fun _ reach => h.reaches reach marked

theorem Marked.enter {visited path : List α} (h : Marked look visited path) (a : α) :
    Marked look (a :: visited) (a :: path) := by
  intro x marked fresh
  have ne : x ≠ a := fun e => fresh (by simp [e])
  have old : x ∈ visited := (List.mem_cons.1 marked).resolve_left ne
  obtain ⟨own, children⟩ := h x old fun hx => fresh (List.mem_cons_of_mem _ hx)
  exact ⟨own, fun c hc => List.mem_cons_of_mem _ (children c hc)⟩

theorem Marked.leave {visited path : List α} {a : α} (h : Marked look visited (a :: path))
    (own : (look a).own = none) (children : ∀ c ∈ (look a).children, c ∈ visited) :
    Marked look visited path := by
  intro x marked fresh
  by_cases e : x = a
  · exact e ▸ ⟨own, children⟩
  · exact h x marked (by simp [e, fresh])

end Search

open Search

variable {α β : Type} {look : α → Search α β}

/-! ## What is found -/

/-- What a search from the nodes of a list has shown when it ends.  Either it found
the answer of the first node that is not silent, or all nodes are marked now. -/
def Found (look : α → Search α β) (path nodes visited : List α) (r : Option β × List α) :
    Prop :=
  visited ⊆ r.2 ∧
    match r.1 with
    | some b => ∃ before c after, nodes = before ++ c :: after ∧
        (∀ x ∈ before, Silent look path x) ∧ Answers look path c b
    | none => Marked look r.2 path ∧ ∀ a ∈ nodes, a ∈ r.2

/-- A silent node at the head changes nothing about what is found after it. -/
private theorem Found.cons {path rest visited later : List α} {a : α}
    {r : Option β × List α} (h : Found look path rest later r) (sub : visited ⊆ later)
    (marked : a ∈ later) (silent : Silent look path a) :
    Found look path (a :: rest) visited r := by
  refine ⟨fun x hx => h.1 (sub hx), ?_⟩
  have result := h.2
  revert result
  cases r.1 with
  | some b =>
    rintro ⟨before, c, after, rfl, quiet, answer⟩
    refine ⟨a :: before, c, after, rfl, ?_, answer⟩
    intro x hx
    rcases List.mem_cons.1 hx with rfl | hx
    · exact silent
    · exact quiet x hx
  | none =>
    rintro ⟨marks, all⟩
    refine ⟨marks, fun x hx => ?_⟩
    rcases List.mem_cons.1 hx with rfl | hx
    · exact h.1 marked
    · exact all x hx

/-! ## The part that is searched -/

/-- A set that holds every node with children that a search from the nodes of a
list comes to. -/
structure Search.Covers (look : α → Search α β) (nodes : Finset α) (list : List α) : Prop where
  listed : ∀ x ∈ list, (look x).children ≠ [] → x ∈ nodes
  closed : ∀ x ∈ nodes, ∀ c ∈ (look x).children, (look c).children ≠ [] → c ∈ nodes

namespace Search.Covers

variable {nodes : Finset α} {list rest : List α} {a : α}

theorem of_all (all : ∀ x, (look x).children ≠ [] → x ∈ nodes) : Covers look nodes list :=
  ⟨fun x _ => all x, fun _ _ c _ => all c⟩

theorem tail (h : Covers look nodes (a :: rest)) : Covers look nodes rest :=
  ⟨fun x mem => h.listed x (List.mem_cons_of_mem _ mem), h.closed⟩

theorem inside (h : Covers look nodes (a :: rest)) : (look a).children ≠ [] → a ∈ nodes :=
  h.listed a (by simp)

theorem below (h : Covers look nodes (a :: rest)) : Covers look nodes (look a).children :=
  ⟨fun c mem => h.closed a (h.inside (List.ne_nil_of_mem mem)) c mem, h.closed⟩

end Search.Covers

/-! ## Searches without a bound -/

/-- The search without a bound on its steps, from the nodes of a list and the
visited ones to what it gives. -/
inductive Search.Ends (look : α → Search α β) :
    List α → List α → Option β × List α → Prop
  | done {visited : List α} : Ends look [] visited (none, visited)
  | seen {a : α} {rest visited : List α} {r : Option β × List α} (marked : a ∈ visited)
      (later : Ends look rest visited r) : Ends look (a :: rest) visited r
  | found {a : α} {rest visited : List α} {below : Option β × List α} {b : β}
      (fresh : a ∉ visited) (under : Ends look (look a).children (a :: visited) below)
      (answer : below.1.or (look a).own = some b) :
    Ends look (a :: rest) visited (some b, below.2)
  | passed {a : α} {rest visited : List α} {below r : Option β × List α}
      (fresh : a ∉ visited) (under : Ends look (look a).children (a :: visited) below)
      (silent : below.1.or (look a).own = none) (later : Ends look rest below.2 r) :
    Ends look (a :: rest) visited r

/-- A search takes no mark away. -/
theorem Search.Ends.grows {list visited : List α} {r : Option β × List α}
    (h : Ends look list visited r) : visited ⊆ r.2 := by
  induction h with
  | done => exact fun _ h => h
  | seen _ _ ih => exact ih
  | found _ _ _ ih => exact fun _ h => ih (List.mem_cons_of_mem _ h)
  | passed _ _ _ _ under later => exact fun _ h => later (under (List.mem_cons_of_mem _ h))

variable [DecidableEq α]

/-! ## Fuel -/

/-- The edges that leave nodes without a mark, for a set that holds every node with
children. -/
def openEdges (look : α → Search α β) (nodes : Finset α) (visited : List α) : Nat :=
  ∑ x ∈ nodes.filter (· ∉ visited), (look x).children.length

theorem openEdges_anti {nodes : Finset α} {visited more : List α} (h : visited ⊆ more) :
    openEdges look nodes more ≤ openEdges look nodes visited := by
  apply Finset.sum_le_sum_of_subset
  intro x hx
  simp only [Finset.mem_filter] at hx ⊢
  exact ⟨hx.1, fun hv => hx.2 (h hv)⟩

/-- A mark on a node takes its own edges away. -/
theorem openEdges_cons {nodes : Finset α} {visited : List α} {a : α}
    (inside : (look a).children ≠ [] → a ∈ nodes) (fresh : a ∉ visited) :
    openEdges look nodes (a :: visited) + (look a).children.length
      = openEdges look nodes visited := by
  by_cases none : (look a).children = []
  · rw [none, List.length_nil, Nat.add_zero]
    unfold openEdges
    have filters : nodes.filter (· ∉ a :: visited) = (nodes.filter (· ∉ visited)).erase a := by
      ext x
      simp only [Finset.mem_filter, Finset.mem_erase, List.mem_cons]
      tauto
    rw [filters]
    apply Finset.sum_erase
    simp [none]
  · have mem : a ∈ nodes.filter (· ∉ visited) := by
      simp [inside none, fresh]
    have filters : nodes.filter (· ∉ a :: visited) = (nodes.filter (· ∉ visited)).erase a := by
      ext x
      simp only [Finset.mem_filter, Finset.mem_erase, List.mem_cons]
      tauto
    unfold openEdges
    rw [filters, Finset.sum_erase_add _ _ mem]

/-! ## Searching -/

/-- A search keeps the invariant of its marks and finds the first answer. -/
theorem firstFound_spec (nodes : Finset α) :
    ∀ (fuel : Nat) (list visited path : List α), Covers look nodes list → path ⊆ visited →
      Marked look visited path → openEdges look nodes visited + list.length ≤ fuel →
      Found look path list visited (firstFound look fuel list visited) := by
  intro fuel
  induction fuel with
  | zero =>
    intro list visited path _ _ marks bound
    have empty : list = [] := List.eq_nil_of_length_eq_zero (by omega)
    subst empty
    exact ⟨fun _ h => h, marks, by simp⟩
  | succ fuel ih =>
    intro list visited path covers sub marks bound
    cases list with
    | nil => exact ⟨fun _ h => h, marks, by simp⟩
    | cons a rest =>
      rw [List.length_cons] at bound
      rw [firstFound]
      split
      · rename_i seen
        exact (ih rest visited path covers.tail sub marks (by omega)).cons (fun _ h => h) seen
          (marks.silent seen)
      · rename_i fresh
        have edges := openEdges_cons covers.inside fresh
        have onPath : a ∉ path := fun h => fresh (sub h)
        have below := ih (look a).children (a :: visited) (a :: path) covers.below
          (List.cons_subset_cons a sub) (marks.enter a) (by omega)
        simp only
        generalize firstFound look fuel (look a).children (a :: visited) = r at below ⊢
        obtain ⟨found, later⟩ := r
        obtain ⟨grown, result⟩ := below
        have older : visited ⊆ later := fun x hx => grown (List.mem_cons_of_mem _ hx)
        cases found with
        | some b =>
          obtain ⟨before, c, after, children, quiet, answer⟩ := result
          exact ⟨older, [], a, rest, rfl, by simp, .down onPath children quiet answer⟩
        | none =>
          obtain ⟨marked, children⟩ := result
          have quiet : ∀ x ∈ (look a).children, Silent look (a :: path) x :=
            fun x hx => marked.silent (children x hx)
          cases own : (look a).own with
          | some b =>
            exact ⟨older, [], a, rest, rfl, by simp, .own onPath quiet own⟩
          | none =>
            have marks' := marked.leave own children
            have here : a ∈ later := grown (by simp)
            have fewer : openEdges look nodes later ≤ openEdges look nodes visited :=
              openEdges_anti older
            exact (ih rest later path covers.tail (fun x hx => older (sub hx)) marks'
              (by omega)).cons older here (marks'.silent here)

variable {nodes : Finset α} {fuel : Nat} {a : α}

private theorem found_single (covers : Covers look nodes [a])
    (bound : ∑ x ∈ nodes, (look x).children.length + 1 ≤ fuel) :
    match (firstFound look fuel [a] []).1 with
    | some b => Answers look [] a b
    | none => Silent look [] a := by
  have edges : openEdges look nodes [] = ∑ x ∈ nodes, (look x).children.length := by
    simp [openEdges]
  have found := firstFound_spec nodes fuel [a] [] [] covers (fun _ h => h)
    (fun x hx => absurd hx (by simp)) (by simpa [edges] using bound)
  generalize firstFound look fuel [a] [] = r at found ⊢
  obtain ⟨_, result⟩ := found
  cases hr : r.1 with
  | some b =>
    rw [hr] at result
    obtain ⟨before, c, after, split, _, answer⟩ := result
    cases before with
    | nil =>
      have same : a = c := (List.cons.inj split).1
      exact same ▸ answer
    | cons x xs => simp at split
  | none =>
    rw [hr] at result
    exact result.1.silent (result.2 a (by simp))

/-- A search with enough fuel finds the answer of a node, if the node has one. -/
theorem firstFound_eq_some_iff (covers : Covers look nodes [a])
    (bound : ∑ x ∈ nodes, (look x).children.length + 1 ≤ fuel) {b : β} :
    (firstFound look fuel [a] []).1 = some b ↔ Answers look [] a b := by
  have found := found_single covers bound
  constructor
  · intro h
    rw [h] at found
    exact found
  · intro answer
    cases hr : (firstFound look fuel [a] []).1 with
    | some b' =>
      rw [hr] at found
      exact congrArg some (found.unique answer)
    | none =>
      rw [hr] at found
      exact absurd found answer.not_silent

/-- A search with enough fuel finds nothing exactly if no node that answers can be
reached. -/
theorem firstFound_eq_none_iff (covers : Covers look nodes [a])
    (bound : ∑ x ∈ nodes, (look x).children.length + 1 ≤ fuel) :
    (firstFound look fuel [a] []).1 = none ↔ Silent look [] a := by
  have found := found_single covers bound
  constructor
  · intro h
    rw [h] at found
    exact found
  · intro silent
    cases hr : (firstFound look fuel [a] []).1 with
    | some b =>
      rw [hr] at found
      exact absurd silent found.not_silent
    | none => rfl

/-! ## The end of a search -/

/-- With fuel for every edge the search ends by itself. -/
theorem firstFound_ends (nodes : Finset α) :
    ∀ (fuel : Nat) (list visited : List α), Covers look nodes list →
      openEdges look nodes visited + list.length ≤ fuel →
      Ends look list visited (firstFound look fuel list visited) := by
  intro fuel
  induction fuel with
  | zero =>
    intro list visited _ bound
    have empty : list = [] := List.eq_nil_of_length_eq_zero (by omega)
    subst empty
    exact .done
  | succ fuel ih =>
    intro list visited covers bound
    cases list with
    | nil => exact .done
    | cons a rest =>
      rw [List.length_cons] at bound
      rw [firstFound]
      split
      · rename_i seen
        exact .seen seen (ih rest visited covers.tail (by omega))
      · rename_i fresh
        have edges := openEdges_cons covers.inside fresh
        have under := ih (look a).children (a :: visited) covers.below (by omega)
        simp only
        generalize firstFound look fuel (look a).children (a :: visited) = below at under ⊢
        cases answer : below.1.or (look a).own with
        | some b => exact .found fresh under answer
        | none =>
          have fewer : openEdges look nodes below.2 ≤ openEdges look nodes visited :=
            openEdges_anti fun x hx => under.grows (List.mem_cons_of_mem _ hx)
          exact .passed fresh under answer (ih rest below.2 covers.tail (by omega))

/-- Whatever a search finds is the answer of some node. -/
theorem exists_own_of_firstFound {list visited : List α} {b : β}
    (h : (firstFound look fuel list visited).1 = some b) : ∃ a, (look a).own = some b := by
  induction fuel generalizing list visited with
  | zero => cases h
  | succ fuel ih =>
    cases list with
    | nil => cases h
    | cons a rest =>
      rw [firstFound] at h
      split at h
      · exact ih h
      · simp only at h
        split at h
        · rename_i found
          cases h
          rcases Option.or_eq_some_iff.1 found with below | ⟨-, own⟩
          · exact ih below
          · exact ⟨a, own⟩
        · exact ih h

/-- A search whose answers are translated takes the same way. -/
theorem firstFound_translated {γ : Type} {look' : α → Search α γ} (f : β → γ)
    (same : ∀ a, look' a = { children := (look a).children, own := (look a).own.map f })
    (fuel : Nat) (nodes visited : List α) :
    firstFound look' fuel nodes visited =
      ((firstFound look fuel nodes visited).1.map f, (firstFound look fuel nodes visited).2) := by
  induction fuel generalizing nodes visited with
  | zero => rfl
  | succ fuel ih =>
    cases nodes with
    | nil => rfl
    | cons a rest =>
      rw [firstFound, firstFound]
      split
      · exact ih rest visited
      · rw [same, ih]
        simp only
        rcases firstFound look fuel (look a).children (a :: visited) with ⟨answer, later⟩
        cases answer with
        | some b => rfl
        | none =>
          cases (look a).own with
          | some b => rfl
          | none => exact ih rest later

end Resumable
