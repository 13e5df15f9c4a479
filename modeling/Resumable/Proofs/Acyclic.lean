import Resumable.Proofs.Search

/-!
# Searches of acyclic graphs

A search without marks may look at a node many times, and where the graph runs in
circles it does not end.

* `unmarked` is this search, to a depth.
* `silent_of_unmarked` and `answers_of_unmarked`: what it finds, `Silent` and
  `Answers` say as well.  The second needs that no node leads back to the path.
* `unmarked_ends`: in a finite graph without circles some depth is enough.

`unmarked_eq_firstFound` is the result.  There the marks make no difference: what
is skipped, in a diamond or after a child in vain, was silent before and is silent
now.
-/

namespace Resumable

namespace Search

variable {α β : Type}

/-- The search that keeps no marks, to a depth; nothing if it comes deeper. -/
def unmarked (look : α → Search α β) : Nat → α → Option (Option β)
  | 0, _ => none
  | depth + 1, a => do
    let below ← (look a).children.findSomeM? (unmarked look depth)
    return below.or (look a).own

variable {look : α → Search α β}

/-- No node that can be reached from a node lies on a circle. -/
def Acyclic (look : α → Search α β) (a : α) : Prop :=
  ∀ x, Relation.ReflTransGen (Child look) a x → ¬ Relation.TransGen (Child look) x x

theorem Acyclic.child {a c : α} (h : Acyclic look a) (child : Child look a c) :
    Acyclic look c :=
  fun x reach => h x (.head child reach)

/-! ## The children in order -/

section FindSome

variable {f : α → Option (Option β)}

private theorem findSomeM?_eq_none {l : List α} :
    l.findSomeM? f = some none ↔ ∀ x ∈ l, f x = some none := by
  induction l with
  | nil => simp [List.findSomeM?]
  | cons x l ih =>
    rw [List.findSomeM?, List.forall_mem_cons]
    cases here : f x with
    | none => simp
    | some r => cases r <;> simp [ih]

private theorem findSomeM?_eq_some {l : List α} {b : β} (h : l.findSomeM? f = some (some b)) :
    ∃ before c after, l = before ++ c :: after ∧ (∀ x ∈ before, f x = some none) ∧
      f c = some (some b) := by
  induction l with
  | nil => simp [List.findSomeM?] at h
  | cons x l ih =>
    rw [List.findSomeM?] at h
    cases here : f x with
    | none => simp [here] at h
    | some r =>
      cases r with
      | some b' =>
        have same : b' = b := by simpa [here] using h
        exact ⟨[], x, l, rfl, by simp, same ▸ here⟩
      | none =>
        obtain ⟨before, c, after, rfl, silent, found⟩ := ih (by simpa [here] using h)
        exact ⟨x :: before, c, after, rfl, List.forall_mem_cons.2 ⟨here, silent⟩, found⟩

private theorem findSomeM?_isSome {l : List α} (h : ∀ x ∈ l, (f x).isSome) :
    (l.findSomeM? f).isSome := by
  induction l with
  | nil => rfl
  | cons x l ih =>
    obtain ⟨head, tail⟩ := List.forall_mem_cons.1 h
    obtain ⟨r, here⟩ := Option.isSome_iff_exists.1 head
    rw [List.findSomeM?, here]
    cases r with
    | some b => rfl
    | none => exact ih tail

end FindSome

/-! ## What is found without marks -/

private theorem unmarked_succ {depth : Nat} {a : α} {r : Option β}
    (h : unmarked look (depth + 1) a = some r) :
    ∃ below, (look a).children.findSomeM? (unmarked look depth) = some below ∧
      below.or (look a).own = r := by
  rw [unmarked] at h
  obtain ⟨below, found, rest⟩ := Option.bind_eq_some_iff.1 h
  exact ⟨below, found, by simpa using rest⟩

/-- If nothing is found, no node that answers can be reached. -/
theorem silent_of_unmarked {depth : Nat} {a : α} (h : unmarked look depth a = some none) :
    Silent look [] a := by
  intro c reach
  induction reach generalizing depth with
  | here _ =>
    cases depth with
    | zero => simp [unmarked] at h
    | succ depth =>
      obtain ⟨below, -, result⟩ := unmarked_succ h
      exact (Option.or_eq_none_iff.1 result).2
  | down _ child _ ih =>
    cases depth with
    | zero => simp [unmarked] at h
    | succ depth =>
      obtain ⟨below, found, result⟩ := unmarked_succ h
      rw [(Option.or_eq_none_iff.1 result).1, findSomeM?_eq_none] at found
      exact ih (found _ child)

theorem Silent.mono {fewer avoid : List α} (sub : fewer ⊆ avoid) {a : α}
    (h : Silent look fewer a) : Silent look avoid a :=
  fun c reach => h c (reach.mono sub)

/-- What is found is the answer of the node, after any path to which nothing leads
back. -/
theorem answers_of_unmarked {depth : Nat} {a : α} {b : β} {path : List α}
    (acyclic : Acyclic look a)
    (away : ∀ x, Relation.ReflTransGen (Child look) a x → x ∉ path)
    (h : unmarked look depth a = some (some b)) : Answers look path a b := by
  induction depth generalizing a path with
  | zero => simp [unmarked] at h
  | succ depth ih =>
    obtain ⟨below, found, result⟩ := unmarked_succ h
    have fresh : a ∉ path := away a .refl
    cases below with
    | none =>
      refine .own fresh (fun x mem => ?_) (by simpa using result)
      exact (silent_of_unmarked (findSomeM?_eq_none.1 found x mem)).mono (List.nil_subset _)
    | some b' =>
      have same : b' = b := by simpa using result
      subst same
      obtain ⟨before, c, after, children, silent, answer⟩ := findSomeM?_eq_some found
      have child : Child look a c := by simp [Child, children]
      -- a way from the child back to the node would close a circle
      have still : ∀ x, Relation.ReflTransGen (Child look) c x → x ∉ a :: path := by
        intro x reach mem
        rcases List.mem_cons.1 mem with rfl | mem
        · exact acyclic x .refl (.head' child reach)
        · exact away x (.head child reach) mem
      exact .down fresh children
        (fun x mem => (silent_of_unmarked (silent x mem)).mono (List.nil_subset _))
        (ih (acyclic.child child) still answer)

/-- In a part of a graph without circles, a search without marks comes no deeper
than there are nodes with children. -/
theorem unmarked_ends {nodes : Finset α} {depth : Nat} {a : α}
    (acyclic : Acyclic look a) (covers : Covers look nodes [a])
    (deep : nodes.card < depth) : (unmarked look depth a).isSome := by
  classical
  induction depth generalizing a nodes with
  | zero => omega
  | succ depth ih =>
    have below : ∀ c ∈ (look a).children, (unmarked look depth c).isSome := by
      intro c child
      have here : a ∈ nodes := covers.inside (List.ne_nil_of_mem child)
      -- no child leads back to the node, which can be left out
      let later := nodes.filter fun x => Relation.ReflTransGen (Child look) c x
      have fewer : later.card < nodes.card := by
        refine Finset.card_lt_card (Finset.filter_ssubset.2 ⟨a, here, fun back => ?_⟩)
        exact acyclic a .refl (.head' child back)
      have still : Covers look later [c] := by
        refine ⟨fun x mem some => ?_, fun x mem y grandchild some => ?_⟩
        · rw [List.mem_singleton.1 mem] at some ⊢
          exact Finset.mem_filter.2 ⟨covers.closed a here c child some, .refl⟩
        · obtain ⟨inside, reach⟩ := Finset.mem_filter.1 mem
          exact Finset.mem_filter.2
            ⟨covers.closed x inside y grandchild some, reach.tail grandchild⟩
      exact ih (acyclic.child child) still (by omega)
    obtain ⟨r, found⟩ := Option.isSome_iff_exists.1 (findSomeM?_isSome below)
    simp [unmarked, found]

end Search

open Search

variable {α β : Type} [DecidableEq α] {look : α → Search α β}

/-- Without circles, the search without marks and the search with marks find the
same. -/
theorem unmarked_eq_firstFound {nodes : Finset α} {fuel depth : Nat} {a : α}
    (acyclic : Acyclic look a) (covers : Covers look nodes [a])
    (bound : ∑ x ∈ nodes, (look x).children.length + 1 ≤ fuel) (deep : nodes.card < depth) :
    unmarked look depth a = some (firstFound look fuel [a] []).1 := by
  obtain ⟨r, found⟩ := Option.isSome_iff_exists.1 (unmarked_ends acyclic covers deep)
  rw [found]
  cases r with
  | none => rw [(firstFound_eq_none_iff covers bound).2 (silent_of_unmarked found)]
  | some b =>
    have answer : Answers look [] a b := answers_of_unmarked acyclic (by simp) found
    rw [(firstFound_eq_some_iff covers bound).2 answer]

end Resumable
