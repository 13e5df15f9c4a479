import Resumable.Proofs.Classify.Subtypes

/-!
# Where a call leads

The searches of the classification, said without searching.

* `Direct` is what an identity means by itself, and `Resolves` what a member of a type
  means once the parents of the type are asked in order.  `LeadsTo` puts them together
  with the hierarchy of types: the named target of a call and, if the call is virtual,
  the overrides.
* `member?_eq_some_iff` says that the search for a member finds exactly this.  The
  hierarchy may run in circles; the search asks for enough fuel all the same.
* `mem_site_nodes_iff`, `site_fixed_iff` and `site_isUnresolved_iff` carry it over to
  the sites of a procedure.

All of it holds for a unit whose types have different names and whose procedures
have different identities.
-/

namespace Resumable

namespace CallGraph

/-! ## The relations -/

/-- Nothing is known about an identity from its name, the runtime or the unit. -/
structure Unknown (g : CallGraph) (id : ProcId) : Prop where
  notInitializer : id.isInitializer = false
  notSealed : g.config.seals id.owner = false
  notPrimitive : Primitive.ofProc? id = none
  notLocal : ∀ p ∈ g.unit.procedures, p.id ≠ id

/-- What an identity means by itself. -/
inductive Direct (g : CallGraph) (id : ProcId) : Target → Prop
  | sealed (h : id.isInitializer = true ∨ g.config.seals id.owner = true) :
    Direct g id (.known .notSuspending)
  | primitive {p : Primitive} (notInitializer : id.isInitializer = false)
      (notSealed : g.config.seals id.owner = false) (named : Primitive.ofProc? id = some p) :
    Direct g id (.known (.ofFlag p.suspends))
  | exact {n : Nat} {p : Procedure} (notInitializer : id.isInitializer = false)
      (notSealed : g.config.seals id.owner = false)
      (notPrimitive : Primitive.ofProc? id = none) (found : g.unit.procedures[n]? = some p)
      (same : p.id = id) : Direct g id (.node n)
  | external {v : Verdict} (unknown : g.Unknown id)
      (undeclared : ∀ t ∈ g.unit.types, t.name ≠ id.owner)
      (found : g.external.find? id = some v) : Direct g id (.known v)

/-- The types that are asked for a member when a type itself does not have it: the
parents that the unit declares. -/
def Asks (g : CallGraph) (member : ProcId) (owner : String) (parents : List String) : Prop :=
  g.Unknown { member with owner } ∧ ∃ t ∈ g.unit.types, t.name = owner ∧ t.parents = parents

/-- A way up from one type to another on which a member is asked for. -/
inductive Climbs (g : CallGraph) (member : ProcId) (avoid : List String) :
    String → String → Prop
  | here {owner : String} (fresh : owner ∉ avoid) : Climbs g member avoid owner owner
  | up {owner parent top : String} {parents : List String} (fresh : owner ∉ avoid)
      (asks : g.Asks member owner parents) (mem : parent ∈ parents)
      (rest : Climbs g member avoid parent top) : Climbs g member avoid owner top

/-- No type on the way up from a type has a member. -/
def Lacks (g : CallGraph) (member : ProcId) (avoid : List String) (owner : String) : Prop :=
  ∀ top, Climbs g member avoid owner top → ∀ t, ¬ g.Direct { member with owner := top } t

/-- What a member of a type means, asked for along a path of types: the type itself
comes first, then its first parent that has the member. -/
inductive Resolves (g : CallGraph) (member : ProcId) : List String → String → Target → Prop
  | direct {path : List String} {owner : String} {t : Target} (fresh : owner ∉ path)
      (found : g.Direct { member with owner } t) : Resolves g member path owner t
  | inherited {path : List String} {owner parent : String} {before after : List String}
      {t : Target} (fresh : owner ∉ path)
      (asks : g.Asks member owner (before ++ parent :: after))
      (lacks : ∀ x ∈ before, g.Lacks member (owner :: path) x)
      (found : Resolves g member (owner :: path) parent t) : Resolves g member path owner t

/-- What a call may run: its named target and, if it is virtual, every procedure that
overrides the target in a proper subtype. -/
inductive LeadsTo (g : CallGraph) (func : FunctionRef) : Target → Prop
  | named {t : Target} (h : g.Resolves func.target [] func.target.owner t) : LeadsTo g func t
  | override {n : Nat} {p : Procedure} (kind : func.kind = .virtual)
      (found : g.unit.procedures[n]? = some p) (same : p.id.sameMember func.target = true)
      (proper : p.id.owner ≠ func.target.owner)
      (derives : Relation.ReflTransGen g.ParentOf p.id.owner func.target.owner) :
    LeadsTo g func (.node n)

/-- What the analysis expects of a unit: one procedure to an identity, and one
declaration to a type. -/
structure Distinct (g : CallGraph) : Prop where
  procedures : (g.unit.procedures.map Procedure.id).Nodup
  types : (g.unit.types.map TypeDecl.name).Nodup

variable {g : CallGraph}

/-! ## Look-ups in the unit -/

theorem Distinct.position?_eq_some_iff (h : g.Distinct) {id : ProcId} {n : Nat} :
    g.position? id = some n ↔ ∃ p, g.unit.procedures[n]? = some p ∧ p.id = id := by
  unfold position?
  rw [List.findIdx?_eq_some_iff_getElem]
  constructor
  · rintro ⟨lt, same, -⟩
    exact ⟨_, List.getElem?_eq_getElem lt, by simpa using same⟩
  · rintro ⟨p, found, same⟩
    obtain ⟨lt, rfl⟩ := List.getElem?_eq_some_iff.1 found
    refine ⟨lt, by simpa using same, fun j hj => ?_⟩
    have apart := List.nodup_iff_getElem?_ne_getElem?.1 h.procedures j n hj (by simpa using lt)
    have earlier : j < g.unit.procedures.length := by omega
    have other : g.unit.procedures[j].id ≠ id := by
      intro eq
      refine apart ?_
      rw [List.getElem?_map, List.getElem?_map, List.getElem?_eq_getElem earlier,
        List.getElem?_eq_getElem lt, Option.map_some, Option.map_some, eq, same]
    simpa using other

theorem position?_eq_none_iff {id : ProcId} :
    g.position? id = none ↔ ∀ p ∈ g.unit.procedures, p.id ≠ id := by
  unfold position?
  rw [List.findIdx?_eq_none_iff]
  simp

theorem exists_position? {p : Procedure} (mem : p ∈ g.unit.procedures) :
    ∃ i, g.position? p.id = some i := by
  rw [← Option.ne_none_iff_exists']
  exact fun none => position?_eq_none_iff.1 none p mem rfl

/-! ## The search for a member -/

theorem Direct.unique (h : g.Distinct) {id : ProcId} {t t' : Target} (d : g.Direct id t)
    (d' : g.Direct id t') : t = t' := by
  cases d with
  | sealed sealed =>
    cases d' with
    | sealed _ => rfl
    | primitive noInit noSeal _ => simp [noInit, noSeal] at sealed
    | exact noInit noSeal _ _ _ => simp [noInit, noSeal] at sealed
    | external unknown _ _ => simp [unknown.notInitializer, unknown.notSealed] at sealed
  | primitive noInit noSeal named =>
    cases d' with
    | sealed sealed => simp [noInit, noSeal] at sealed
    | primitive _ _ named' => cases named.symm.trans named'; rfl
    | exact _ _ noName _ _ => simp [noName] at named
    | external unknown _ _ => simp [unknown.notPrimitive] at named
  | exact noInit noSeal noName atN same =>
    cases d' with
    | sealed sealed => simp [noInit, noSeal] at sealed
    | primitive _ _ named => simp [noName] at named
    | exact _ _ _ atM same' =>
      have here := h.position?_eq_some_iff.2 ⟨_, atN, same⟩
      have there := h.position?_eq_some_iff.2 ⟨_, atM, same'⟩
      cases here.symm.trans there
      rfl
    | external unknown _ _ =>
      exact absurd same (unknown.notLocal _ (List.mem_of_getElem? atN))
  | external unknown _ found =>
    cases d' with
    | sealed sealed => simp [unknown.notInitializer, unknown.notSealed] at sealed
    | primitive _ _ named => simp [unknown.notPrimitive] at named
    | exact _ _ _ atM same =>
      exact absurd same (unknown.notLocal _ (List.mem_of_getElem? atM))
    | external _ _ found' => cases found.symm.trans found'; rfl

/-- A type that has the member itself asks no parents. -/
theorem Direct.not_asks {member : ProcId} {owner : String} {t : Target} {parents : List String}
    (d : g.Direct { member with owner } t) : ¬ g.Asks member owner parents := by
  rintro ⟨unknown, u, mem, name, -⟩
  cases d with
  | sealed sealed => simp [unknown.notInitializer, unknown.notSealed] at sealed
  | primitive _ _ named => simp [unknown.notPrimitive] at named
  | exact _ _ _ atM same => exact unknown.notLocal _ (List.mem_of_getElem? atM) same
  | external _ undeclared _ => exact undeclared u mem name

theorem Asks.unique (h : g.Distinct) {member : ProcId} {owner : String}
    {parents parents' : List String} (a : g.Asks member owner parents)
    (a' : g.Asks member owner parents') : parents = parents' := by
  obtain ⟨-, t, mem, name, rfl⟩ := a
  obtain ⟨-, t', mem', name', rfl⟩ := a'
  rw [List.inj_on_of_nodup_map h.types mem mem' (name.trans name'.symm)]

/-- The three things that a step of the search can see: the member itself, parents to
ask, or nothing. -/
theorem lookMember_cases (h : g.Distinct) (member : ProcId) (owner : String) :
    (∃ t, g.Direct { member with owner } t ∧
        g.lookMember member owner = { children := [], own := some t }) ∨
      (∃ parents, g.Asks member owner parents ∧
        g.lookMember member owner = { children := parents, own := none }) ∨
      (∀ t, ¬ g.Direct { member with owner } t) ∧ (∀ parents, ¬ g.Asks member owner parents) ∧
        g.lookMember member owner = { children := [], own := none } := by
  unfold lookMember
  simp only
  by_cases sealed : (ProcId.isInitializer { member with owner } || g.config.seals owner) = true
  · rw [if_pos sealed]
    exact Or.inl ⟨_, .sealed (by simpa using sealed), rfl⟩
  rw [if_neg sealed]
  simp only [Bool.or_eq_true, not_or, Bool.not_eq_true] at sealed
  obtain ⟨noInit, noSeal⟩ := sealed
  cases named : Primitive.ofProc? { member with owner } with
  | some p => exact Or.inl ⟨_, .primitive noInit noSeal named, rfl⟩
  | none =>
    cases found : g.position? { member with owner } with
    | some n =>
      obtain ⟨p, atN, same⟩ := h.position?_eq_some_iff.1 found
      exact Or.inl ⟨_, .exact noInit noSeal named atN same, rfl⟩
    | none =>
      have unknown : g.Unknown { member with owner } :=
        ⟨noInit, noSeal, named, position?_eq_none_iff.1 found⟩
      cases declared : g.decl? owner with
      | some decl =>
        obtain ⟨mem, name⟩ := (decl?_eq_some_iff h.types).1 declared
        exact Or.inr (Or.inl ⟨_, ⟨unknown, decl, mem, name, rfl⟩, rfl⟩)
      | none =>
        have undeclared := decl?_eq_none_iff.1 declared
        cases known : g.external.find? { member with owner } with
        | some v => exact Or.inl ⟨_, .external unknown undeclared known, rfl⟩
        | none =>
          refine Or.inr (Or.inr ⟨?_, ?_, rfl⟩)
          · intro t d
            cases d with
            | sealed sealed => simp [noInit, noSeal] at sealed
            | primitive _ _ named' => simp [named] at named'
            | exact _ _ _ atM same =>
              exact unknown.notLocal _ (List.mem_of_getElem? atM) same
            | external _ _ known' => simp [known] at known'
          · rintro parents ⟨-, u, mem, name, -⟩
            exact undeclared u mem name

theorem lookMember_own_iff (h : g.Distinct) {member : ProcId} {owner : String} {t : Target} :
    (g.lookMember member owner).own = some t ↔ g.Direct { member with owner } t := by
  rcases lookMember_cases h member owner with ⟨u, d, look⟩ | ⟨parents, asks, look⟩ |
    ⟨noDirect, -, look⟩
  · rw [look]
    exact ⟨by rintro ⟨⟩; exact d, fun d' => congrArg some (d.unique h d')⟩
  · rw [look]
    exact ⟨by rintro ⟨⟩, fun d => absurd asks d.not_asks⟩
  · rw [look]
    exact ⟨by rintro ⟨⟩, fun d => absurd d (noDirect t)⟩

/-- The children of a step are the parents that are asked. -/
theorem lookMember_children (h : g.Distinct) {member : ProcId} {owner : String}
    {parents : List String} (asks : g.Asks member owner parents) :
    (g.lookMember member owner).children = parents := by
  rcases lookMember_cases h member owner with ⟨u, d, look⟩ | ⟨parents', asks', look⟩ |
    ⟨-, noAsks, look⟩
  · exact absurd asks d.not_asks
  · rw [look]
    exact asks'.unique h asks
  · exact absurd asks (noAsks parents)

theorem asks_of_mem_children (h : g.Distinct) {member : ProcId} {owner parent : String}
    (mem : parent ∈ (g.lookMember member owner).children) :
    g.Asks member owner (g.lookMember member owner).children := by
  rcases lookMember_cases h member owner with ⟨u, d, look⟩ | ⟨parents, asks, look⟩ |
    ⟨-, -, look⟩
  · simp [look] at mem
  · rwa [look]
  · simp [look] at mem

theorem reaches_lookMember_iff (h : g.Distinct) {member : ProcId} {avoid : List String}
    {owner top : String} :
    Search.Reaches (g.lookMember member) avoid owner top ↔ g.Climbs member avoid owner top := by
  constructor
  · intro reach
    induction reach with
    | here fresh => exact .here fresh
    | down fresh child _ ih => exact .up fresh (asks_of_mem_children h child) child ih
  · intro climb
    induction climb with
    | here fresh => exact .here fresh
    | up fresh asks mem _ ih => exact .down fresh (by rwa [lookMember_children h asks]) ih

theorem silent_lookMember_iff (h : g.Distinct) {member : ProcId} {avoid : List String}
    {owner : String} :
    Search.Silent (g.lookMember member) avoid owner ↔ g.Lacks member avoid owner := by
  unfold Search.Silent Lacks
  refine forall_congr' fun top => ?_
  rw [reaches_lookMember_iff h]
  refine imp_congr_right fun _ => ?_
  rw [Option.eq_none_iff_forall_ne_some]
  exact forall_congr' fun t => not_congr (lookMember_own_iff h)

theorem answers_lookMember_iff (h : g.Distinct) {member : ProcId} {path : List String}
    {owner : String} {t : Target} :
    Search.Answers (g.lookMember member) path owner t ↔ g.Resolves member path owner t := by
  constructor
  · intro answer
    induction answer with
    | @down path owner parent before after t fresh children silent _ ih =>
      have asks : g.Asks member owner (before ++ parent :: after) := by
        rw [← children]
        have child : parent ∈ (g.lookMember member owner).children := by simp [children]
        exact asks_of_mem_children h child
      exact .inherited fresh asks (fun x hx => (silent_lookMember_iff h).1 (silent x hx)) ih
    | own fresh _ answer => exact .direct fresh ((lookMember_own_iff h).1 answer)
  · intro resolves
    induction resolves with
    | @direct path owner t fresh found =>
      have none : (g.lookMember member owner).children = [] := by
        rw [List.eq_nil_iff_forall_not_mem]
        exact fun x hx => found.not_asks (asks_of_mem_children h hx)
      exact .own fresh (by simp [none]) ((lookMember_own_iff h).2 found)
    | inherited fresh asks lacks _ ih =>
      exact .down fresh (lookMember_children h asks)
        (fun x hx => (silent_lookMember_iff h).2 (lacks x hx)) ih

/-! ## Fuel -/

/-- The types whose parents a search for a member may ask. -/
def declared (g : CallGraph) : Finset String := (g.unit.types.map TypeDecl.name).toFinset

theorem member?_fuel (h : g.Distinct) (member : ProcId) :
    ∑ x ∈ g.declared, (g.lookMember member x).children.length + 1 ≤ g.searchBound := by
  have parents : ∀ x ∈ g.declared, (g.lookMember member x).children.length
      ≤ ((g.decl? x).map fun d => d.parents.length).getD 0 := by
    intro x _
    rcases lookMember_cases h member x with ⟨_, _, look⟩ | ⟨_, asks, look⟩ | ⟨_, _, look⟩
    · simp [look]
    · obtain ⟨-, t, mem, name, rfl⟩ := asks
      rw [look, (decl?_eq_some_iff h.types).2 ⟨mem, name⟩]
      exact le_rfl
    · simp [look]
  have total := (Finset.sum_le_sum parents).trans (sum_declared_parents_le g.declared)
  unfold searchBound
  omega

theorem declared_of_children (h : g.Distinct) {member : ProcId} {x : String}
    (some : (g.lookMember member x).children ≠ []) : x ∈ g.declared := by
  obtain ⟨parent, mem⟩ := List.exists_mem_of_ne_nil _ some
  obtain ⟨-, t, mem, name, -⟩ := asks_of_mem_children h mem
  simp only [declared, List.mem_toFinset, List.mem_map]
  exact ⟨t, mem, name⟩

/-- The search for a member finds what the member means. -/
theorem member?_eq_some_iff (h : g.Distinct) {target : ProcId} {t : Target} :
    g.member? target = some t ↔ g.Resolves target [] target.owner t := by
  rw [← answers_lookMember_iff h]
  exact firstFound_eq_some_iff (.of_all fun _ => declared_of_children h) (member?_fuel h target)

/-- A target in the unit is one of its procedures. -/
theorem Resolves.procedure {member : ProcId} {path : List String} {owner : String} {t : Target}
    (h : g.Resolves member path owner t) {n : Nat} (node : t = .node n) :
    ∃ p, g.unit.procedures[n]? = some p := by
  induction h with
  | direct _ found =>
    subst node
    cases found with
    | exact _ _ _ found _ => exact ⟨_, found⟩
  | inherited _ _ _ _ ih => exact ih node

theorem LeadsTo.procedure {func : FunctionRef} {n : Nat} (h : g.LeadsTo func (.node n)) :
    ∃ p, g.unit.procedures[n]? = some p := by
  cases h with
  | named resolves => exact resolves.procedure rfl
  | override _ found _ _ _ => exact ⟨_, found⟩

/-! ## The sites of a procedure -/

theorem mem_overrides_iff (h : g.Distinct) (bounded : g.external.Bounded) {target : ProcId}
    {n : Nat} : n ∈ g.overrides target ↔ ∃ p, g.unit.procedures[n]? = some p ∧
      p.id.sameMember target = true ∧ p.id.owner ≠ target.owner ∧
      Relation.ReflTransGen g.ParentOf p.id.owner target.owner := by
  unfold overrides
  simp only [List.mem_filterMap, Prod.exists, List.mem_zipIdx_iff_getElem?]
  constructor
  · rintro ⟨p, m, found, chosen⟩
    split at chosen
    · rename_i conditions
      cases chosen
      simp only [Bool.and_eq_true, bne_iff_ne] at conditions
      exact ⟨p, found, conditions.1.1, conditions.1.2,
        (isSubtype_iff h.types bounded).1 conditions.2⟩
    · cases chosen
  · rintro ⟨p, found, same, proper, derives⟩
    refine ⟨p, n, found, ?_⟩
    rw [if_pos]
    simp [same, proper, (isSubtype_iff h.types bounded).2 derives]

theorem mem_site_nodes (block stmt : Nat) (func : FunctionRef) (n : Nat) :
    n ∈ (g.site block stmt func).nodes ↔
      g.member? func.target = some (.node n) ∨
        func.kind = .virtual ∧ n ∈ g.overrides func.target := by
  unfold site
  cases found : g.member? func.target with
  | none => cases func.kind <;> simp
  | some t =>
    cases t with
    | known v => cases func.kind <;> simp
    | node m =>
      cases func.kind
      · simp [eq_comm]
      · by_cases same : n = m <;> simp [same, eq_comm]

/-- The procedures of a site are those that the call leads to. -/
theorem mem_site_nodes_iff (h : g.Distinct) (bounded : g.external.Bounded) {block stmt : Nat}
    {func : FunctionRef} {n : Nat} :
    n ∈ (g.site block stmt func).nodes ↔ g.LeadsTo func (.node n) := by
  rw [mem_site_nodes, mem_overrides_iff h bounded, member?_eq_some_iff h]
  constructor
  · rintro (named | ⟨kind, p, found, same, proper, derives⟩)
    · exact .named named
    · exact .override kind found same proper derives
  · intro leads
    cases leads with
    | named named => exact Or.inl named
    | override kind found same proper derives =>
      exact Or.inr ⟨kind, _, found, same, proper, derives⟩

/-- The fixed verdict of a site is the one that the call leads to. -/
theorem site_fixed (block stmt : Nat) (func : FunctionRef) (v : Verdict) :
    (g.site block stmt func).fixed = some v ↔ g.member? func.target = some (.known v) := by
  unfold site
  cases g.member? func.target with
  | none => simp
  | some t => cases t <;> simp

theorem site_fixed_iff (h : g.Distinct) {block stmt : Nat} {func : FunctionRef} {v : Verdict} :
    (g.site block stmt func).fixed = some v ↔ g.LeadsTo func (.known v) := by
  rw [site_fixed, member?_eq_some_iff h]
  constructor
  · exact .named
  · intro leads
    cases leads with
    | named named => exact named

/-- A site is unresolved exactly if the call leads nowhere. -/
theorem site_isUnresolved_iff (h : g.Distinct) (bounded : g.external.Bounded)
    {block stmt : Nat} {func : FunctionRef} :
    (g.site block stmt func).isUnresolved = true ↔ ∀ t, ¬ g.LeadsTo func t := by
  unfold Site.isUnresolved
  rw [Bool.and_eq_true, List.isEmpty_iff, Option.isNone_iff_eq_none,
    List.eq_nil_iff_forall_not_mem, Option.eq_none_iff_forall_ne_some]
  constructor
  · rintro ⟨noNode, noVerdict⟩ t leads
    cases t with
    | node n => exact noNode n ((mem_site_nodes_iff h bounded).2 leads)
    | known v => exact noVerdict v ((site_fixed_iff h).2 leads)
  · intro nowhere
    exact ⟨fun n mem => nowhere _ ((mem_site_nodes_iff h bounded).1 mem),
      fun v fixed => nowhere _ ((site_fixed_iff h).1 fixed)⟩

/-- The calls in the statements of a procedure. -/
def bodyCalls (p : Procedure) : List FunctionRef :=
  p.blocks.flatMap fun b => b.statements.filterMap Stmt.callee?

theorem mem_sites_iff {p : Procedure} {s : Site} :
    s ∈ g.sites p ↔ ∃ b block i stmt func, p.blocks[b]? = some block ∧
      block.statements[i]? = some stmt ∧ stmt.callee? = some func ∧ s = g.site b i func := by
  unfold sites
  simp only [List.mem_flatMap, List.mem_filterMap, Prod.exists, List.mem_zipIdx_iff_getElem?,
    Option.map_eq_some_iff]
  constructor
  · rintro ⟨block, b, hb, stmt, i, hi, func, hf, rfl⟩
    exact ⟨b, block, i, stmt, func, hb, hi, hf, rfl⟩
  · rintro ⟨b, block, i, stmt, func, hb, hi, hf, rfl⟩
    exact ⟨block, b, hb, stmt, i, hi, func, hf, rfl⟩

theorem exists_call_of_mem_sites {p : Procedure} {s : Site} (h : s ∈ g.sites p) :
    ∃ func ∈ bodyCalls p, ∃ b i, s = g.site b i func := by
  obtain ⟨b, block, i, stmt, func, hb, hi, hf, rfl⟩ := mem_sites_iff.1 h
  refine ⟨func, ?_, b, i, rfl⟩
  exact List.mem_flatMap.2 ⟨block, List.mem_of_getElem? hb,
    List.mem_filterMap.2 ⟨stmt, List.mem_of_getElem? hi, hf⟩⟩

theorem exists_site_of_mem_bodyCalls {p : Procedure} {func : FunctionRef}
    (h : func ∈ bodyCalls p) : ∃ b i, g.site b i func ∈ g.sites p := by
  obtain ⟨block, hb, hf⟩ := List.mem_flatMap.1 h
  obtain ⟨stmt, hi, hf⟩ := List.mem_filterMap.1 hf
  obtain ⟨b, hb⟩ := List.getElem?_of_mem hb
  obtain ⟨i, hi⟩ := List.getElem?_of_mem hi
  exact ⟨b, i, mem_sites_iff.2 ⟨b, block, i, stmt, func, hb, hi, hf, rfl⟩⟩

end CallGraph

end Resumable
