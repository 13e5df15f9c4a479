import Resumable.Task.Pool

/-!
# Runs of a drive

A drive owns its fiber and the state of its body, but not what tasks share: other
workers and timers change that between two requests.  `Drive.Runs` is a run in which
anything may happen there.  The ways of the pool to run a drive, at one time, while time
goes by, and a stretch at a time, are such runs.

`Drive.Ensures` says what holds at the end of every run on a fiber.  It goes through a
drive piece by piece (`Ensures.bind`, `Ensures.request`).
-/

namespace Resumable

namespace Drive

variable {σ α β : Type}

/-- A run of a drive, from a fiber and a body to their states in the end. -/
inductive Runs : Drive σ α → Fiber → σ → Ending α → Fiber → σ → Prop
  | done {a : α} {f : Fiber} {s : σ} : Runs (.done a) f s (.finished a) f s
  | violate {message : String} {f : Fiber} {s : σ} :
    Runs (.violate message) f s (.violated message) f s
  | diverge {f : Fiber} {s : σ} : Runs .diverge f s .diverged f s
  | commit {next : Unit → Drive σ α} {f f' : Fiber} {s s' t : σ} {e : Ending α}
      (rest : Runs (next ()) f s' e f' t) : Runs (.commit s' next) f s e f' t
  /-- A request is answered, whatever tasks share at that time. -/
  | answered {op : Op} {next : op.Reply → Drive σ α} {c c' : Commons} {r : op.Reply}
      {f f' f'' : Fiber} {s t : σ} {e : Ending α} (answer : op.perform c f = (.ok r, c', f'))
      (rest : Runs (next r) f' s e f'' t) : Runs (.ask op next) f s e f'' t
  /-- A request breaks the rules of the runtime. -/
  | refused {op : Op} {next : op.Reply → Drive σ α} {c c' : Commons}
      {v : Commons.Violation} {f f' : Fiber} {s : σ}
      (answer : op.perform c f = (.error v, c', f')) :
    Runs (.ask op next) f s (.violated v.message) f' s

/-! ## The ways to run a drive -/

theorem runs_run (d : Drive σ α) (s : Scene σ) :
    Runs d s.fiber s.body (d.run s).1 (d.run s).2.fiber (d.run s).2.body := by
  induction d generalizing s with
  | done a => exact .done
  | violate message => exact .violate
  | diverge => exact .diverge
  | commit body next ih => exact .commit (ih () { s with body })
  | ask op next ih =>
    rw [run]
    rcases answer : op.perform s.commons s.fiber with ⟨v | r, commons, fiber⟩
    · exact .refused answer
    · exact .answered answer (ih r { s with commons, fiber })

theorem runs_runTimed (d : Drive σ α) (left : Nat) (s : Scene σ) :
    Runs d s.fiber s.body (d.runTimed left s).1 (d.runTimed left s).2.fiber
      (d.runTimed left s).2.body := by
  induction d generalizing left s with
  | done a => exact .done
  | violate message => exact .violate
  | diverge => exact .diverge
  | commit body next ih => exact .commit (ih () left { s with body })
  | ask op next ih =>
    rw [runTimed]
    rcases answer : op.perform (if left = 0 then s.commons.tick else s.commons) s.fiber with
      ⟨v | r, commons, fiber⟩
    · exact .refused answer
    · exact .answered answer (ih r _ { s with commons, fiber })

/-- What is left of a drive after a stretch is run later. -/
theorem runs_runFor (d : Drive σ α) (left : Nat) (s : Scene σ) :
    match (d.runFor left s).1 with
    | .ended ending _ =>
      Runs d s.fiber s.body ending (d.runFor left s).2.fiber (d.runFor left s).2.body
    | .underWay rest => ∀ ending f body,
      Runs rest (d.runFor left s).2.fiber (d.runFor left s).2.body ending f body →
        Runs d s.fiber s.body ending f body := by
  induction d generalizing left s with
  | done a => exact .done
  | violate message => exact .violate
  | diverge => exact .diverge
  | commit body next ih =>
    have rest := ih () left { s with body }
    rw [runFor]
    split at rest
    · exact .commit rest
    · exact fun ending f body later => .commit (rest ending f body later)
  | ask op next ih =>
    cases left with
    | zero => exact fun _ _ _ later => later
    | succ left =>
      rw [runFor]
      rcases answer : op.perform s.commons s.fiber with ⟨v | r, commons, fiber⟩
      · exact .refused answer
      · have rest := ih r left { s with commons, fiber }
        simp only
        split at rest
        · exact .answered answer rest
        · exact fun ending f body later => .answered answer (rest ending f body later)

/-! ## Runs of a sequence -/

theorem Runs.bind {d : Drive σ α} {g : α → Drive σ β} {f f' f'' : Fiber} {s s' s'' : σ} {a : α}
    {e : Ending β} (first : Runs d f s (.finished a) f' s') (second : Runs (g a) f' s' e f'' s'') :
    Runs (d.bind g) f s e f'' s'' := by
  generalize ending : Ending.finished a = last at first
  induction first with
  | done =>
    cases ending
    exact second
  | violate => cases ending
  | diverge => cases ending
  | commit _ ih => exact .commit (ih second ending)
  | answered answer _ ih => exact .answered answer (ih second ending)
  | refused _ => cases ending

/-- A run of a sequence gets through the first part, or that is all of it. -/
theorem Runs.bind_cases {d : Drive σ α} {g : α → Drive σ β} {f f'' : Fiber} {s s'' : σ}
    {e : Ending β} (h : Runs (d.bind g) f s e f'' s'') :
    (∃ a f' s', Runs d f s (.finished a) f' s' ∧ Runs (g a) f' s' e f'' s'') ∨
      (∃ message, e = .violated message ∧ Runs d f s (.violated message) f'' s'') ∨
        e = .diverged ∧ Runs d f s .diverged f'' s'' := by
  induction d generalizing f s with
  | done a => exact Or.inl ⟨a, f, s, .done, h⟩
  | violate message =>
    cases h
    exact Or.inr (Or.inl ⟨message, rfl, .violate⟩)
  | diverge =>
    cases h
    exact Or.inr (Or.inr ⟨rfl, .diverge⟩)
  | commit body next ih =>
    cases h with
    | commit rest =>
      rcases ih () rest with ⟨a, f', s', first, second⟩ | ⟨message, rfl, first⟩ | ⟨rfl, first⟩
      · exact Or.inl ⟨a, f', s', .commit first, second⟩
      · exact Or.inr (Or.inl ⟨message, rfl, .commit first⟩)
      · exact Or.inr (Or.inr ⟨rfl, .commit first⟩)
  | ask op next ih =>
    cases h with
    | answered answer rest =>
      rcases ih _ rest with ⟨a, f', s', first, second⟩ | ⟨message, rfl, first⟩ | ⟨rfl, first⟩
      · exact Or.inl ⟨a, f', s', .answered answer first, second⟩
      · exact Or.inr (Or.inl ⟨message, rfl, .answered answer first⟩)
      · exact Or.inr (Or.inr ⟨rfl, .answered answer first⟩)
    | refused answer => exact Or.inr (Or.inl ⟨_, rfl, .refused answer⟩)

/-- The second part of a sequence runs where the first part ends. -/
theorem run_bind (d : Drive σ α) (g : α → Drive σ β) (s : Scene σ) :
    (d.bind g).run s =
      match d.run s with
      | (.finished a, s') => (g a).run s'
      | (.violated message, s') => (.violated message, s')
      | (.diverged, s') => (.diverged, s') := by
  induction d generalizing s with
  | done a => rfl
  | violate message => rfl
  | diverge => rfl
  | commit body next ih => exact ih () { s with body }
  | ask op next ih =>
    rw [bind_ask, run, run]
    rcases op.perform s.commons s.fiber with ⟨v | r, commons, fiber⟩
    · rfl
    · exact ih r { s with commons, fiber }

/-! ## What a drive ensures -/

/-- How a run may end: with a value and a fiber of some kind, or with nothing saved if
the body broke the rules. -/
def Meets (post : α → Fiber → Prop) : Ending α → Fiber → Prop
  | .finished a, f => post a f
  | .violated _, f => f.frames = []
  | .diverged, _ => True

/-- Every run on a fiber leaves the body as it is and ends as allowed. -/
def Ensures (d : Drive σ α) (f : Fiber) (post : α → Fiber → Prop) : Prop :=
  ∀ s e f' s', Runs d f s e f' s' → s' = s ∧ Meets post e f'

variable {f : Fiber} {post : α → Fiber → Prop}

theorem Ensures.done {a : α} (h : post a f) : Ensures (σ := σ) (.done a) f post := by
  intro s e f' s' run
  cases run
  exact ⟨rfl, h⟩

theorem Ensures.diverge : Ensures (σ := σ) .diverge f post := by
  intro s e f' s' run
  cases run
  exact ⟨rfl, trivial⟩

theorem Ensures.bind {d : Drive σ α} {g : α → Drive σ β} {post : β → Fiber → Prop}
    (h : Ensures d f fun a f' => Ensures (g a) f' post) : Ensures (d.bind g) f post := by
  intro s e f'' s'' run
  rcases run.bind_cases with ⟨a, f', s', first, second⟩ | ⟨message, rfl, first⟩ | ⟨rfl, first⟩
  · obtain ⟨rfl, rest⟩ := h _ _ _ _ first
    exact rest _ _ _ _ second
  · exact h _ _ _ _ first
  · exact h _ _ _ _ first

theorem Ensures.mono {d : Drive σ α} {more : α → Fiber → Prop} (h : Ensures d f post)
    (weaker : ∀ a f', post a f' → more a f') : Ensures d f more := by
  intro s e f' s' run
  obtain ⟨same, meets⟩ := h s e f' s' run
  refine ⟨same, ?_⟩
  cases e with
  | finished a => exact weaker a f' meets
  | violated message => exact meets
  | diverged => trivial

theorem Ensures.both {d : Drive σ α} {other : α → Fiber → Prop} (h : Ensures d f post)
    (h' : Ensures d f other) : Ensures d f fun a f' => post a f' ∧ other a f' := by
  intro s e f' s' run
  obtain ⟨same, meets⟩ := h s e f' s' run
  refine ⟨same, ?_⟩
  cases e with
  | finished a => exact ⟨meets, (h' s _ f' s' run).2⟩
  | violated message => exact meets
  | diverged => trivial

/-- A request ensures what holds of its answer, whatever tasks share. -/
theorem Ensures.request {op : Op} {post : op.Reply → Fiber → Prop}
    (answered : ∀ c r c' f', op.perform c f = (.ok r, c', f') → post r f')
    (refused : ∀ c v c' f', op.perform c f = (.error v, c', f') → f'.frames = []) :
    Ensures (σ := σ) (request op) f post := by
  intro s e f' s' run
  cases run with
  | answered answer rest =>
    cases rest
    exact ⟨rfl, answered _ _ _ _ answer⟩
  | refused answer => exact ⟨rfl, refused _ _ _ _ answer⟩

/-! ## Requests and saved frames -/

/-- Whether a request leaves the saved frames as they are. -/
def keepsFrames : Op → Bool
  | .unwind _ => false
  | .rewind => false
  | .unwindRest _ => false
  | _ => true

theorem frames_get (c : Commons) (f : Fiber) (id : MailboxId) :
    (c.get f id).2.2.frames = f.frames := by
  unfold Commons.get
  split
  · rfl
  · split
    · rfl
    · split
      · rfl
      · split
        · split
          · unfold Fiber.pause Fiber.listen
            split <;> rfl
          · rfl
        · unfold Fiber.pause Fiber.listen
          split <;> rfl

theorem frames_put (c : Commons) (f : Fiber) (id : MailboxId) (v : Value) :
    (c.put f id v).2.2.frames = f.frames := by
  unfold Commons.put
  split
  · rfl
  · split
    · rfl
    · split
      · rfl
      · unfold Fiber.pause Fiber.listen
        split <;> rfl

theorem frames_perform (c : Commons) {op : Op} (keeps : keepsFrames op = true) :
    (op.perform c f).2.2.frames = f.frames := by
  cases op with
  | get box => exact frames_get c f box
  | put box v => exact frames_put c f box v
  | unwind frame => cases keeps
  | rewind => cases keeps
  | unwindRest frames => cases keeps
  | _ => rfl

theorem Ensures.keeping {op : Op} {post : op.Reply → Fiber → Prop}
    (keeps : keepsFrames op = true) (clean : f.frames = [])
    (answered : ∀ r f', f'.frames = [] → post r f') :
    Ensures (σ := σ) (Drive.request op) f post := by
  apply Ensures.request
  · intro c r c' f' answer
    have same := frames_perform (f := f) c keeps
    rw [answer] at same
    exact answered r f' (same.trans clean)
  · intro c v c' f' answer
    have same := frames_perform (f := f) c keeps
    rw [answer] at same
    exact same.trans clean

/-! ## What the values at the end are -/

/-- Every value that a drive can end with is of some kind, whatever the answers are. -/
def Ends (kind : α → Prop) : Drive σ α → Prop
  | .done a => kind a
  | .violate _ => True
  | .diverge => True
  | .commit _ next => (next ()).Ends kind
  | .ask _ next => ∀ r, (next r).Ends kind

theorem Ends.bind {kind : β → Prop} {d : Drive σ α} {g : α → Drive σ β}
    (h : d.Ends fun a => (g a).Ends kind) : (d.bind g).Ends kind := by
  induction d with
  | done a => exact h
  | violate message => trivial
  | diverge => trivial
  | commit body next ih => exact ih () h
  | ask op next ih => exact fun r => ih r (h r)

theorem Runs.ends {kind : α → Prop} {d : Drive σ α} {f f' : Fiber} {s s' : σ} {a : α}
    (run : Runs d f s (.finished a) f' s') (h : d.Ends kind) : kind a := by
  induction d generalizing f s with
  | done b =>
    cases run
    exact h
  | violate message => cases run
  | diverge => cases run
  | commit body next ih =>
    cases run with
    | commit rest => exact ih () rest h
  | ask op next ih =>
    cases run with
    | answered answer rest => exact ih _ rest (h _)

theorem Ensures.and {kind : α → Prop} {d : Drive σ α} (h : Ensures d f post)
    (ends : d.Ends kind) : Ensures d f fun a f' => post a f' ∧ kind a := by
  intro s e f' s' run
  obtain ⟨same, meets⟩ := h s e f' s' run
  refine ⟨same, ?_⟩
  cases e with
  | finished a => exact ⟨meets, run.ends ends⟩
  | violated message => exact meets
  | diverged => trivial

/-! ## What a drive secures -/

/-- However far the clock moves on between the requests of a drive, it ends with a value, a
state of what tasks share and a fiber of some kind, if it comes to its end. -/
def Secures : Drive σ α → (α → Commons → Fiber → Prop) → Commons → Fiber → Prop
  | .done a, post, c, f => post a c f
  | .violate _, _, _, _ => True
  | .diverge, _, _, _ => True
  | .commit _ next, post, c, f => (next ()).Secures post c f
  | .ask op next, post, c, f => ∀ c₀, c₀ = c ∨ c₀ = c.tick → ∀ r c' f',
    op.perform c₀ f = (.ok r, c', f') → (next r).Secures post c' f'

variable {c : Commons}

theorem Secures.mono {d : Drive σ α} {post more : α → Commons → Fiber → Prop}
    (h : d.Secures post c f) (weaker : ∀ a c f, post a c f → more a c f) : d.Secures more c f := by
  induction d generalizing c f with
  | done a => exact weaker a c f h
  | violate message => trivial
  | diverge => trivial
  | commit body next ih => exact ih () h
  | ask op next ih => exact fun c₀ ticks r c' f' answer => ih r (h c₀ ticks r c' f' answer)

theorem Secures.bind {d : Drive σ α} {g : α → Drive σ β} {post : β → Commons → Fiber → Prop}
    (h : d.Secures (fun a => (g a).Secures post) c f) : (d.bind g).Secures post c f := by
  induction d generalizing c f with
  | done a => exact h
  | violate message => trivial
  | diverge => trivial
  | commit body next ih => exact ih () h
  | ask op next ih => exact fun c₀ ticks r c' f' answer => ih r (h c₀ ticks r c' f' answer)

/-- A request secures what its answer does, as soon as that holds of every answer. -/
theorem Secures.request {op : Op} {post : op.Reply → Commons → Fiber → Prop}
    (answered : ∀ c₀, c₀ = c ∨ c₀ = c.tick → ∀ r c' f', op.perform c₀ f = (.ok r, c', f') →
      post r c' f') : (Drive.request op : Drive σ op.Reply).Secures post c f :=
  answered

theorem Secures.run {d : Drive σ α} {post : α → Commons → Fiber → Prop} {s s' : Scene σ} {a : α}
    (h : d.Secures post s.commons s.fiber) (run : d.run s = (.finished a, s')) :
    post a s'.commons s'.fiber := by
  induction d generalizing s with
  | done b =>
    cases run
    exact h
  | violate message => cases run
  | diverge => cases run
  | commit body next ih => exact ih () (s := { s with body }) h run
  | ask op next ih =>
    rw [Drive.run] at run
    rcases answer : op.perform s.commons s.fiber with ⟨v | r, c', f'⟩
    · simp only [answer] at run
      cases run
    · simp only [answer] at run
      exact ih r (s := { s with commons := c', fiber := f' }) (h _ (Or.inl rfl) r c' f' answer) run

theorem Secures.runTimed {d : Drive σ α} {post : α → Commons → Fiber → Prop} {left : Nat}
    {s s' : Scene σ} {a : α} (h : d.Secures post s.commons s.fiber)
    (run : d.runTimed left s = (.finished a, s')) : post a s'.commons s'.fiber := by
  induction d generalizing left s with
  | done b =>
    cases run
    exact h
  | violate message => cases run
  | diverge => cases run
  | commit body next ih => exact ih () (s := { s with body }) h run
  | ask op next ih =>
    rw [Drive.runTimed] at run
    have ticks : (if left = 0 then s.commons.tick else s.commons) = s.commons ∨
        (if left = 0 then s.commons.tick else s.commons) = s.commons.tick := by
      split
      · exact Or.inr rfl
      · exact Or.inl rfl
    rcases answer : op.perform (if left = 0 then s.commons.tick else s.commons) s.fiber with
      ⟨v | r, c', f'⟩
    · simp only [answer] at run
      cases run
    · simp only [answer] at run
      exact ih r (s := { s with commons := c', fiber := f' }) (h _ ticks r c' f' answer) run

end Drive

end Resumable
