import SchemaHeaders.CommandLine.Session
import SchemaHeaders.Proofs.Steps
import Mathlib.Control.Monad.Basic

/-!
# Checking and running

Checking a configuration reads files and writes none (`check_moves_eq`), and a run begins by
checking (`run_of_check_error`). What comes after fails only for causes of files
(`writeGenerated_failsWith_io`). So a run that fails for another cause, or whose check
fails, leaves the file tree as it was, and the two fail alike : `run_fails_as_check` says
this of configurations and of the command line.
-/

namespace SchemaHeaders

/-! ## Checking leaves the files alone -/

theorem noteAll_moves_eq (events : List Event) :
    Moves Eq (noteAll events : StateM World Unit) := by
  induction events with
  | nil => exact .pure _
  | cons event events ih => exact .bind (fun _ => rfl) fun _ => ih

theorem loadSchema_moves_eq (path : PathName) :
    Moves Eq (loadSchema path : Step (StateM World) Schema).run :=
  .step_bind (fun _ => rfl) fun _ => .step_bind (fun _ => rfl) fun _ =>
    .step_bind (fun _ => rfl) fun _ => fun _ => rfl

theorem loadConfig_moves_eq (path : PathName) :
    Moves Eq (loadConfig path : Step (StateM World) Config).run :=
  .step_bind (fun _ => rfl) fun _ => fun _ => rfl

/-- Checking a configuration does not change the file tree. -/
theorem check_moves_eq (config : Config) :
    Moves Eq (check config : Step (StateM World) Generated).run :=
  .step_bind (fun _ => rfl) fun _ => .step_bind (fun _ => rfl) fun backend =>
    .step_bind (loadSchema_moves_eq _) fun schema =>
      .step_bind (noteAll_moves_eq (generationEvents backend schema)) fun _ => fun _ => rfl

theorem check_tree (config : Config) (world : World) :
    ((check config).outcome world).2.tree = world.tree :=
  ((check_moves_eq config).outcome world).symm

/-! ## Writing fails only for causes of files -/

/-- A failure to read or write a file. -/
def Failure.IsIo (failure : Failure) : Prop := ∃ path cause, failure = .io path cause

theorem clear_failsWith_io (dir : PathName) : ∀ entries : List (String × Bool),
    (clear dir entries : Step (StateM World) Nat).FailsWith Failure.IsIo
  | [] => .pure _
  | (_, true) :: entries => .bind (.of _) fun _ => clear_failsWith_io dir entries
  | (_, false) :: entries =>
    .bind (.on _ _ fun cause => ⟨_, cause, rfl⟩) fun _ =>
      .bind (clear_failsWith_io dir entries) fun _ => .pure _

theorem prepareDir_failsWith_io (dir : PathName) :
    (prepareDir dir : Step (StateM World) Unit).FailsWith Failure.IsIo := by
  refine .bind (.of _) fun present => ?_
  split
  · refine .bind (.on _ _ fun cause => ⟨_, cause, rfl⟩) fun entries => ?_
    refine .bind (clear_failsWith_io dir entries) fun removed => ?_
    split
    · exact .of _
    · exact .pure _
  · exact .bind (.of _) fun _ => .on _ _ fun cause => ⟨_, cause, rfl⟩

theorem writeEach_failsWith_io (dir : PathName) (extension : String) :
    ∀ units : List HeaderUnit,
      (writeEach dir extension units : Step (StateM World) (List PathName)).FailsWith Failure.IsIo
  | [] => .pure _
  | _ :: units =>
    .bind (.on _ _ fun cause => ⟨_, cause, rfl⟩) fun _ => .bind (.of _) fun _ =>
      .bind (writeEach_failsWith_io dir extension units) fun _ => .pure _

theorem writeUnits_failsWith_io (dir : PathName) (units : List HeaderUnit) (extension : String) :
    (writeUnits dir units extension : Step (StateM World) (List PathName)).FailsWith
      Failure.IsIo :=
  .bind (prepareDir_failsWith_io dir) fun _ => writeEach_failsWith_io dir extension units

/-- Writing headers fails only for causes of files. -/
theorem writeGenerated_failsWith_io (generated : Generated) (enumDir structDir : PathName) :
    (writeGenerated generated enumDir structDir : Step (StateM World) Summary).FailsWith
      Failure.IsIo :=
  .bind (writeUnits_failsWith_io enumDir generated.enums generated.extension) fun _ =>
    .bind (writeUnits_failsWith_io structDir generated.structs generated.extension) fun _ =>
      .pure _

/-! ## Runs -/

variable {α : Type} {config : Config} {world : World}

/-- A run whose check fails ends there. -/
theorem run_of_check_error {failure : Failure} {world' : World}
    (h : (check config).outcome world = (.error failure, world')) :
    (run config).outcome world = (.error failure, world') :=
  Step.outcome_bind_of_error h

/-- A run whose check succeeds fails only for causes of files. -/
theorem run_failsWith_io_of_check_ok {generated : Generated} {world' : World} {failure : Failure}
    (h : (check config).outcome world = (.ok generated, world'))
    (hrun : ((run config).outcome world).1 = .error failure) : failure.IsIo := by
  rw [run, Step.outcome_bind_of_ok h] at hrun
  refine Step.FailsWith.bind (writeGenerated_failsWith_io generated _ _) (fun _ => ?_) _ _ hrun
  exact .bind (.of _) fun _ => .pure _

theorem run_error_of_check_error {failure : Failure}
    (h : ((check config).outcome world).1 = .error failure) :
    ((run config).outcome world).1 = .error failure ∧
      ((run config).outcome world).2.tree = world.tree := by
  have htree := check_tree config world
  rcases hcheck : (check config).outcome world with ⟨r, world'⟩
  rw [hcheck] at h htree
  cases h
  rw [run_of_check_error hcheck]
  exact ⟨rfl, htree⟩

theorem check_error_of_run_error {failure : Failure}
    (h : ((run config).outcome world).1 = .error failure) (hio : ¬failure.IsIo) :
    ((check config).outcome world).1 = .error failure := by
  rcases hcheck : (check config).outcome world with ⟨failure' | generated, world'⟩
  · rw [run_of_check_error hcheck] at h
    cases h
    rfl
  · exact absurd (run_failsWith_io_of_check_ok hcheck h) hio

/-! ## The command line -/

namespace CommandLine

/-- Settling the configuration of a run does not change the file tree. -/
theorem resolve_moves_eq (options : Options) :
    Moves Eq (resolve options : StateM World (Except Trouble Config)) := by
  have hfrom : ∀ path, Moves Eq (configFrom path : StateM World (Except Trouble Config)) :=
    fun path => (loadConfig_moves_eq path).bind fun _ => .pure _
  have hbase : Moves Eq (baseConfig options : StateM World (Except Trouble Config)) := by
    unfold baseConfig
    split
    · exact hfrom _
    · refine .bind (fun _ => rfl) fun isFile => ?_
      split
      · exact hfrom _
      · exact .pure _
  refine hbase.bind fun r => ?_
  cases r with
  | error trouble => exact .pure _
  | ok config => exact .bind (fun _ => rfl) fun _ => .pure _

/-- The configuration of a run does not depend on the command. -/
theorem resolve_withCommand (options : Options) (command : Command) :
    (resolve { options with command } : StateM World (Except Trouble Config)) = resolve options :=
  rfl

/-- What a command does in a world. -/
def perform (command : Command) (options : Options) (world : World) : Report × World :=
  (execute { options with command } : StateM World Report).run world

variable {options : Options} {world : World}

/-- Without a configuration both commands end alike. -/
theorem perform_of_resolve_error {trouble : Trouble} {world' : World}
    (h : (resolve options : StateM World _).run world = (.error trouble, world'))
    (command : Command) : perform command options world = (⟨"", some trouble⟩, world') := by
  rw [perform, execute, StateT.run_bind, resolve_withCommand, h]
  rfl

theorem perform_of_resolve_ok {config : Config} {world' : World}
    (h : (resolve options : StateM World _).run world = (.ok config, world'))
    (command : Command) :
    perform command options world =
      match command with
      | .generate => (generateHeaders config : StateM World Report).run world'
      | .check => (checkSchema config : StateM World Report).run world' := by
  rw [perform, execute, StateT.run_bind, resolve_withCommand, h]
  cases command <;> rfl

theorem run_within (context : String) (x : Step (StateM World) α) (world : World) :
    (within context x).run world =
      ((x.outcome world).1.mapError (Trouble.mk context), (x.outcome world).2) :=
  rfl

theorem run_checkSchema (config : Config) (world : World) :
    ∃ opening closing context, (checkSchema config : StateM World Report).run world =
      (reportOf opening closing (((check config).outcome world).1.mapError (Trouble.mk context)),
        ((check config).outcome world).2) := by
  rw [checkSchema, World.run_bind, run_within, World.run_pure]
  dsimp only
  exact ⟨_, _, _, rfl⟩

theorem run_generateHeaders (config : Config) (world : World) :
    ∃ opening closing context, (generateHeaders config : StateM World Report).run world =
      (reportOf opening closing (((run config).outcome world).1.mapError (Trouble.mk context)),
        ((run config).outcome world).2) := by
  rw [generateHeaders, World.run_bind, run_within, World.run_pure]
  dsimp only
  exact ⟨_, _, _, rfl⟩

/-- The failure that a report is about is the one that is reported. -/
theorem failure_reportOf (opening context : String) (closing : α → String)
    (r : Except Failure α) :
    (reportOf opening closing (r.mapError (Trouble.mk context))).trouble.map (·.failure) =
      match r with
      | .ok _ => none
      | .error failure => some failure := by
  cases r <;> rfl

/-- The exit code tells whether there was a failure. -/
theorem exitCode_ne_zero_iff (report : Report) :
    report.exitCode ≠ 0 ↔ ∃ failure, report.trouble.map (·.failure) = some failure := by
  unfold Report.exitCode
  cases report.trouble <;> simp

/-- If checking fails then generating does, with the same cause and the tree as it was. -/
theorem perform_generate_of_check
    (h : (perform .check options world).1.exitCode ≠ 0) :
    (perform .generate options world).1.exitCode ≠ 0 ∧
      (perform .generate options world).1.trouble.map (·.failure) =
        (perform .check options world).1.trouble.map (·.failure) ∧
      (perform .generate options world).2.tree = world.tree := by
  have htree := resolve_moves_eq options world
  rcases hresolve : (resolve options : StateM World _).run world with ⟨trouble | config, world'⟩
  · rw [hresolve] at htree
    rw [perform_of_resolve_error hresolve] at h ⊢
    rw [perform_of_resolve_error hresolve]
    exact ⟨h, rfl, htree.symm⟩
  · rw [hresolve] at htree
    rw [perform_of_resolve_ok hresolve] at h ⊢
    rw [perform_of_resolve_ok hresolve]
    obtain ⟨_, _, _, hcheck⟩ := run_checkSchema config world'
    obtain ⟨_, _, _, hrun⟩ := run_generateHeaders config world'
    simp only [hcheck, hrun, exitCode_ne_zero_iff, failure_reportOf] at h ⊢
    cases hfailure : ((check config).outcome world').1 with
    | ok generated => simp [hfailure] at h
    | error failure =>
      obtain ⟨hsame, hkept⟩ := run_error_of_check_error hfailure
      rw [hsame, hkept]
      exact ⟨⟨failure, rfl⟩, rfl, htree.symm⟩

end CommandLine

/-- A failed check is a failed run that changes no file, and so is every run that fails
otherwise than for a cause of files; on the command line the cause is the same. -/
theorem run_fails_as_check (world : World) :
    (∀ (config : Config) (failure : Failure),
      ((check config).outcome world).1 = .error failure →
        ((run config).outcome world).1 = .error failure ∧
          ((run config).outcome world).2.tree = world.tree) ∧
    (∀ (config : Config) (failure : Failure),
      ((run config).outcome world).1 = .error failure → ¬failure.IsIo →
        ((check config).outcome world).1 = .error failure ∧
          ((run config).outcome world).2.tree = world.tree) ∧
    ∀ options : CommandLine.Options,
      (CommandLine.perform .check options world).1.exitCode ≠ 0 →
        (CommandLine.perform .generate options world).1.exitCode ≠ 0 ∧
          (CommandLine.perform .generate options world).1.trouble.map (·.failure) =
            (CommandLine.perform .check options world).1.trouble.map (·.failure) ∧
          (CommandLine.perform .generate options world).2.tree = world.tree := by
  refine ⟨fun config failure h => run_error_of_check_error h, fun config failure h hio => ?_,
    fun options h => CommandLine.perform_generate_of_check h⟩
  have hcheck := check_error_of_run_error h hio
  exact ⟨hcheck, (run_error_of_check_error hcheck).2⟩

/-- A schema in no known format leaves the header of an earlier run in place. -/
theorem run_fails_as_check_unsupportedFormat :
    let path : Location := ["Old.h", "Infrastructure", "Cpp-Implementation"]
    let world : World := ⟨{ entries := [(path, .file (.text "old")), (path.tail, .directory),
      (path.tail.tail, .directory)] }, []⟩
    let config : Config := { schema := ⟨"types.txt"⟩ }
    let options : CommandLine.Options := { schema := some ⟨"types.txt"⟩ }
    ((check config).outcome world).1 = .error (.unsupportedFormat "types.txt") ∧
      ((run config).outcome world).1 = .error (.unsupportedFormat "types.txt") ∧
      ((run config).outcome world).2.tree = world.tree ∧
      (CommandLine.perform .check options world).1.exitCode ≠ 0 ∧
      (CommandLine.perform .generate options world).1.exitCode ≠ 0 ∧
      (CommandLine.perform .generate options world).2.tree = world.tree := by
  intro path world config options
  have hcheck : ((check config).outcome world).1 = .error (.unsupportedFormat "types.txt") := by
    decide +kernel
  have hexit : (CommandLine.perform .check options world).1.exitCode ≠ 0 := by
    decide +kernel
  obtain ⟨hconfig, hother, hoptions⟩ := run_fails_as_check world
  obtain ⟨hrun, -⟩ := hconfig config _ hcheck
  obtain ⟨-, htree⟩ := hother config _ hrun (by rintro ⟨_, _, h⟩; cases h)
  obtain ⟨hgenerate, -, hkept⟩ := hoptions options hexit
  exact ⟨hcheck, hrun, htree, hexit, hgenerate, hkept⟩

end SchemaHeaders
