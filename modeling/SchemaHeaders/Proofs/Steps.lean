import SchemaHeaders.FileStore
import Mathlib.Logic.Relation

/-!
# Steps in a world

`Step.outcome` runs a step in a world. `Step.outcome_bind_eq_ok_iff` takes a run that succeeds
apart into those of its parts, and `World.run_commit_eq_ok_iff` says what each change of the
files does.

`Moves R x` : however `x` ends, the file tree before it and the one after it are related by
`R`. For a reflexive and transitive `R` it is enough that the operations on files respect
`R`. `Step.FailsWith P x` : whatever `x` fails with satisfies `P`.
-/

namespace SchemaHeaders

variable {α β : Type}

/-! ## Operations on files -/

namespace World

/-- The world with another file tree. -/
def withTree (world : World) (tree : FileTree) : World := { world with tree }

@[simp] theorem withTree_tree (world : World) (tree : FileTree) :
    (world.withTree tree).tree = tree :=
  rfl

/-- The world after one more event. -/
def withEvent (world : World) (event : Event) : World :=
  { world with events := world.events ++ [event] }

@[simp] theorem withEvent_tree (world : World) (event : Event) :
    (world.withEvent event).tree = world.tree :=
  rfl

theorem run_commit_ok {change : FileTree → Except IoCause FileTree} {world : World}
    {tree : FileTree} (h : change world.tree = .ok tree) :
    (commit change).run world = (.ok (), world.withTree tree) := by
  simp only [commit, StateT.run_bind, StateT.run_get, pure_bind, h]
  rfl

theorem run_commit_error {change : FileTree → Except IoCause FileTree} {world : World}
    {cause : IoCause} (h : change world.tree = .error cause) :
    (commit change).run world = (.error cause, world) := by
  simp only [commit, StateT.run_bind, StateT.run_get, pure_bind, h]
  rfl

/-- A change of the tree succeeds exactly if the operation on trees does. -/
theorem run_commit_eq_ok_iff {change : FileTree → Except IoCause FileTree} {world world' : World} :
    (commit change).run world = (.ok (), world') ↔
      ∃ tree, change world.tree = .ok tree ∧ world' = world.withTree tree := by
  cases h : change world.tree with
  | ok tree =>
    rw [run_commit_ok h]
    constructor
    · intro heq
      exact ⟨tree, rfl, (Prod.mk.inj heq).2.symm⟩
    · rintro ⟨_, htree, rfl⟩
      cases htree
      rfl
  | error cause =>
    rw [run_commit_error h]
    constructor
    · intro heq
      cases (Prod.mk.inj heq).1
    · rintro ⟨_, htree, -⟩
      cases htree

/-- A change of the tree fails exactly if the operation on trees does, and then changes nothing. -/
theorem run_commit_eq_error_iff {change : FileTree → Except IoCause FileTree}
    {world world' : World} {cause : IoCause} :
    (commit change).run world = (.error cause, world') ↔
      change world.tree = .error cause ∧ world' = world := by
  cases h : change world.tree with
  | ok tree =>
    rw [run_commit_ok h]
    constructor
    · intro heq
      cases (Prod.mk.inj heq).1
    · rintro ⟨heq, -⟩
      cases heq
  | error cause' =>
    rw [run_commit_error h]
    constructor
    · intro heq
      cases heq
      exact ⟨rfl, rfl⟩
    · rintro ⟨heq, rfl⟩
      cases heq
      rfl

theorem run_pure (a : α) (world : World) : (pure a : StateM World α).run world = (a, world) :=
  rfl

theorem run_bind (x : StateM World α) (f : α → StateM World β) (world : World) :
    (x >>= f).run world = (f (x.run world).1).run (x.run world).2 :=
  rfl

theorem run_isPresent (path : PathName) (world : World) :
    (FileStore.isPresent path : StateM World Bool).run world =
      (world.tree.isPresent path, world) :=
  rfl

theorem run_list (path : PathName) (world : World) :
    (FileStore.list path : StateM World _).run world = (world.tree.list path, world) :=
  rfl

theorem run_read (path : PathName) (world : World) :
    (FileStore.read path : StateM World _).run world = (world.tree.read path, world) :=
  rfl

theorem run_isDirectory (path : PathName) (world : World) :
    (FileStore.isDirectory path : StateM World Bool).run world =
      (world.tree.isDirectory path, world) :=
  rfl

theorem run_makeDirectory (path : PathName) (world : World) :
    (FileStore.makeDirectory path : StateM World _).run world =
      (commit (·.makeDirectory path)).run world :=
  rfl

end World

/-! ## Outcomes -/

namespace Step

/-- What a step ends with in a world, and the world after it. -/
def outcome (x : Step (StateM World) α) (world : World) : Except Failure α × World :=
  x.run.run world

variable (world : World)

@[simp] theorem outcome_pure (a : α) :
    (pure a : Step (StateM World) α).outcome world = (.ok a, world) :=
  rfl

theorem outcome_bind (x : Step (StateM World) α) (f : α → Step (StateM World) β) :
    (x >>= f).outcome world =
      match x.outcome world with
      | (.ok a, world') => (f a).outcome world'
      | (.error failure, world') => (.error failure, world') := by
  simp only [outcome, ExceptT.run_bind, StateT.run_bind]
  rcases StateT.run (ExceptT.run x) world with ⟨_ | a, world'⟩ <;> rfl

@[simp] theorem outcome_of (x : StateM World α) :
    (Step.of x).outcome world = (.ok (x.run world).1, (x.run world).2) :=
  rfl

@[simp] theorem outcome_on (path : PathName) (x : StateM World (Except IoCause α)) :
    (Step.on path x).outcome world =
      ((x.run world).1.mapError (Failure.io path), (x.run world).2) :=
  rfl

@[simp] theorem outcome_decided (r : Except Failure α) :
    (Step.decided r : Step (StateM World) α).outcome world = (r, world) :=
  rfl

variable {world} {x : Step (StateM World) α} {f : α → Step (StateM World) β}

theorem outcome_eq_of_fst {r : Except Failure α} (h : (x.outcome world).1 = r) :
    x.outcome world = (r, (x.outcome world).2) :=
  Prod.ext h rfl

theorem outcome_bind_of_ok {a : α} {world' : World} (h : x.outcome world = (.ok a, world')) :
    (x >>= f).outcome world = (f a).outcome world' := by
  rw [outcome_bind, h]

theorem outcome_bind_of_error {failure : Failure} {world' : World}
    (h : x.outcome world = (.error failure, world')) :
    (x >>= f).outcome world = (.error failure, world') := by
  rw [outcome_bind, h]

/-- Two steps in a row succeed exactly if both do. -/
theorem outcome_bind_eq_ok_iff {b : β} {world' : World} :
    (x >>= f).outcome world = (.ok b, world') ↔
      ∃ a between, x.outcome world = (.ok a, between) ∧ (f a).outcome between = (.ok b, world') := by
  rcases h : x.outcome world with ⟨failure | a, between⟩
  · rw [outcome_bind_of_error h]
    constructor
    · intro heq
      cases (Prod.mk.inj heq).1
    · rintro ⟨a, between', heq, -⟩
      cases (Prod.mk.inj heq).1
  · rw [outcome_bind_of_ok h]
    constructor
    · exact fun heq => ⟨a, between, rfl, heq⟩
    · rintro ⟨a', between', heq, hf⟩
      cases heq
      exact hf

/-- Two steps in a row end where the first fails, or as the second does after it. -/
theorem outcome_bind_cases {r : Except Failure β} {world' : World}
    (h : (x >>= f).outcome world = (r, world')) :
    (∃ failure, x.outcome world = (.error failure, world') ∧ r = .error failure) ∨
      ∃ a between, x.outcome world = (.ok a, between) ∧ (f a).outcome between = (r, world') := by
  rcases hx : x.outcome world with ⟨failure | a, between⟩
  · rw [outcome_bind_of_error hx] at h
    cases h
    exact Or.inl ⟨failure, rfl, rfl⟩
  · rw [outcome_bind_of_ok hx] at h
    exact Or.inr ⟨a, between, rfl, h⟩

/-- An operation on files succeeds as a step exactly if it does by itself. -/
theorem outcome_on_eq_ok_iff {path : PathName} {x : StateM World (Except IoCause α)} {a : α}
    {world' : World} :
    (Step.on path x).outcome world = (.ok a, world') ↔ x.run world = (.ok a, world') := by
  rw [outcome_on]
  rcases x.run world with ⟨cause | b, after⟩
  · constructor <;> intro h <;> cases (Prod.mk.inj h).1
  · constructor
    · intro h
      cases h
      rfl
    · intro h
      cases h
      rfl

/-- An operation on files fails as a step exactly if it does by itself, with the path. -/
theorem outcome_on_eq_error_iff {path : PathName} {x : StateM World (Except IoCause α)}
    {failure : Failure} {world' : World} :
    (Step.on path x).outcome world = (.error failure, world') ↔
      ∃ cause, x.run world = (.error cause, world') ∧ failure = .io path cause := by
  rw [outcome_on]
  rcases x.run world with ⟨cause | a, after⟩
  · constructor
    · intro h
      cases h
      exact ⟨cause, rfl, rfl⟩
    · rintro ⟨_, h, rfl⟩
      cases h
      rfl
  · constructor
    · intro h
      cases (Prod.mk.inj h).1
    · rintro ⟨_, h, -⟩
      cases (Prod.mk.inj h).1

/-- Taking note of an event first changes the events alone. -/
theorem outcome_note_bind (world : World) (event : Event) (f : Unit → Step (StateM World) β) :
    (Step.of (FileStore.note event) >>= f).outcome world =
      (f ()).outcome (world.withEvent event) :=
  rfl

theorem outcome_remove_eq_ok_iff {path : PathName} {world' : World} :
    (Step.on path (FileStore.remove path)).outcome world = (.ok (), world') ↔
      ∃ tree, world.tree.remove path = .ok tree ∧ world' = world.withTree tree := by
  rw [outcome_on_eq_ok_iff]
  exact World.run_commit_eq_ok_iff

theorem outcome_write_eq_ok_iff {path : PathName} {text : String} {world' : World} :
    (Step.on path (FileStore.write path text)).outcome world = (.ok (), world') ↔
      ∃ tree, world.tree.write path (.text text) = .ok tree ∧ world' = world.withTree tree := by
  rw [outcome_on_eq_ok_iff]
  exact World.run_commit_eq_ok_iff

theorem outcome_write_eq_error_iff {path : PathName} {text : String} {failure : Failure}
    {world' : World} :
    (Step.on path (FileStore.write path text)).outcome world = (.error failure, world') ↔
      ∃ cause, world.tree.write path (.text text) = .error cause ∧ failure = .io path cause ∧
        world' = world := by
  rw [outcome_on_eq_error_iff]
  constructor
  · rintro ⟨cause, hrun, hfailure⟩
    obtain ⟨hwrite, hworld⟩ := World.run_commit_eq_error_iff.mp hrun
    exact ⟨cause, hwrite, hfailure, hworld⟩
  · rintro ⟨cause, hwrite, hfailure, hworld⟩
    exact ⟨cause, World.run_commit_eq_error_iff.mpr ⟨hwrite, hworld⟩, hfailure⟩

end Step

/-! ## Changes of the file tree -/

/-- Whatever the end of a run, `R` relates the file tree before it to the one after it. -/
def Moves (R : FileTree → FileTree → Prop) (x : StateM World α) : Prop :=
  ∀ world : World, R world.tree (x.run world).2.tree

namespace Moves

variable {R : FileTree → FileTree → Prop}

theorem iff_outcome {x : Step (StateM World) α} :
    Moves R x.run ↔ ∀ world, R world.tree (x.outcome world).2.tree :=
  Iff.rfl

theorem outcome {x : Step (StateM World) α} (h : Moves R x.run) (world : World) :
    R world.tree (x.outcome world).2.tree :=
  iff_outcome.mp h world

theorem of_outcome {x : Step (StateM World) α} (h : Moves R x.run) {world world' : World}
    {r : Except Failure α} (hx : x.outcome world = (r, world')) : R world.tree world'.tree := by
  have hworld := h.outcome world
  rwa [hx] at hworld

theorem on {x : StateM World (Except IoCause α)} (path : PathName) (h : Moves R x) :
    Moves R (Step.on path x).run :=
  h

variable [IsPreorder FileTree R]

theorem pure (a : α) : Moves R (Pure.pure a : StateM World α) := fun world => refl_of R world.tree

theorem bind {x : StateM World α} {f : α → StateM World β} (hx : Moves R x)
    (hf : ∀ a, Moves R (f a)) : Moves R (x >>= f) :=
  fun world => trans_of R (hx world) (hf _ _)

theorem step_bind {x : Step (StateM World) α} {f : α → Step (StateM World) β}
    (hx : Moves R x.run) (hf : ∀ a, Moves R (f a).run) : Moves R (x >>= f).run := by
  rw [ExceptT.run_bind]
  refine hx.bind fun r => ?_
  cases r with
  | ok a => exact hf a
  | error failure => exact pure _

/-- A change of the tree moves as the operation on trees does. -/
theorem commit {change : FileTree → Except IoCause FileTree}
    (h : ∀ tree tree', change tree = .ok tree' → R tree tree') : Moves R (World.commit change) := by
  intro world
  cases hchange : change world.tree with
  | ok tree =>
    rw [World.run_commit_ok hchange]
    exact h _ _ hchange
  | error cause =>
    rw [World.run_commit_error hchange]
    exact refl_of R world.tree

end Moves

/-! ## Failures of a step -/

/-- Whatever a step fails with satisfies `P`. -/
def Step.FailsWith (P : Failure → Prop) (x : Step (StateM World) α) : Prop :=
  ∀ world failure, (x.outcome world).1 = .error failure → P failure

namespace Step.FailsWith

variable {P : Failure → Prop}

theorem pure (a : α) : FailsWith P (Pure.pure a : Step (StateM World) α) := by
  intro world failure h
  cases h

theorem of (x : StateM World α) : FailsWith P (Step.of x) := by
  intro world failure h
  cases h

theorem on (x : StateM World (Except IoCause α)) (path : PathName)
    (h : ∀ cause, P (.io path cause)) : FailsWith P (Step.on path x) := by
  intro world failure hfail
  rw [outcome_on] at hfail
  rcases hx : (x.run world).1 with cause | a
  · rw [hx] at hfail
    cases hfail
    exact h cause
  · rw [hx] at hfail
    cases hfail

theorem bind {x : Step (StateM World) α} {f : α → Step (StateM World) β} (hx : FailsWith P x)
    (hf : ∀ a, FailsWith P (f a)) : FailsWith P (x >>= f) := by
  intro world failure h
  rcases hout : x.outcome world with ⟨failure' | a, between⟩
  · rw [outcome_bind_of_error hout] at h
    cases h
    exact hx world failure (by rw [hout])
  · rw [outcome_bind_of_ok hout] at h
    exact hf a between failure h

end Step.FailsWith

end SchemaHeaders
