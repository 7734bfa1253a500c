import SubsetC.Proofs.FileLaws

/-!
# Effects on files

What a run of the command does to the files there are, for every way to access files that follows
the laws. A compilation creates the lock file if there is none and writes the artifact, and does
neither unless it succeeds. The file that is compiled keeps its content unless it has the extension
of its own artifact: then the artifact takes its place. The main statement is
`CommandLine.Options.compile_effects`.
-/

namespace SubsetC

namespace CommandLine

variable {World Place : Type} {access : FileAccess (StateM World)} {view : FileView World Place}
  {world : World} {file source content errors : Text} {stage : Stage} {options : Options}

/-! ### Where a compilation writes -/

def lockPath (file : Text) (stage : Stage) : Text := Path.beside (artifactPath file stage) lockFile

/-- Without links, a file and its artifact only stand in one place if they have the same path. -/
theorem artifactPath_eq_of_resolve {place : Place} (unlinked : view.Unlinked world)
    (leads : view.resolve world file = some place)
    (leads' : view.resolve world (artifactPath file stage) = some place) :
    artifactPath file stage = file := by
  rcases exists_artifactName file stage with ⟨name, isArtifact, noSlash, notSpecial⟩
  rw [isArtifact] at leads' ⊢
  rw [← unlinked file name place noSlash notSpecial leads leads', Path.parent_append_fileName]

namespace Options

/-- How a compilation ends, and what it leaves. -/
def compiled (options : Options) (access : FileAccess (StateM World)) (file : Text)
    (world : World) : Outcome × World :=
  (options.compile access file).run world

/-- The artifact takes the place of what is at its path. -/
def replaced (options : Options) (access : FileAccess (StateM World)) (file content : Text)
    (world : World) : Except ReplaceError Unit × World :=
  (access.replace (lockPath file options.stop) (artifactPath file options.stop) content).run world

theorem run_bind {State Result Other : Type} (first : StateM State Result)
    (second : Result → StateM State Other) (state : State) :
    (first >>= second).run state = (second (first.run state).1).run (first.run state).2 := rfl

theorem run_pure {State Result : Type} (result : Result) (state : State) :
    (pure result : StateM State Result).run state = (result, state) := rfl

/-- Storing an artifact is replacing it, and fails if that fails. -/
theorem run_store (writing : options.writes) :
    ((options.store access file content errors).run world).2 =
        (options.replaced access file content world).2 ∧
      ∀ error, (options.replaced access file content world).1 = .error error →
        ((options.store access file content errors).run world).1.succeeds = false := by
  have replaces : (access.replace (Path.beside (artifactPath file options.stop) lockFile)
      (artifactPath file options.stop) content).run world =
        options.replaced access file content world := rfl
  unfold store
  simp only [writing, Bool.not_true, Bool.false_eq_true, if_false, run_bind, replaces]
  cases (options.replaced access file content world).1 with
  | ok done => exact ⟨rfl, fun _ fails => by cases fails⟩
  | error error => exact ⟨rfl, fun _ _ => rfl⟩

/-- A compilation leaves the world as it is, or replaces the artifact. -/
theorem compiled_cases (laws : access.Laws view) (options : Options) (file : Text)
    (world : World) :
    (options.compiled access file world).2 = world ∨ options.writes ∧ ∃ source product,
      ((access.read file).run world).1 = .ok source ∧
        (SubsetC.compile options.stop source).outcome = .ok product ∧
        (options.compiled access file world).2 =
          (options.replaced access file product.artifact.text world).2 ∧
        ∀ error, (options.replaced access file product.artifact.text world).1 = .error error →
          (options.compiled access file world).1.succeeds = false := by
  have keeps := laws.read_keeps world file
  unfold compiled compile
  rw [run_bind, keeps]
  cases reading : ((access.read file).run world).1 with
  | error error => exact .inl rfl
  | ok source =>
      cases compiling : (SubsetC.compile options.stop source).outcome with
      | error failure => exact .inl (by simp only [compiling, run_pure])
      | ok product =>
          simp only [compiling]
          cases writing : options.writes with
          | false => exact .inl (by simp only [store, writing, Bool.not_false, if_true, run_pure])
          | true =>
              exact .inr ⟨rfl, source, product, rfl, compiling, run_store writing⟩

/-! ### What changes -/

/-- What a compilation of a file does to the files. -/
structure Effects (options : Options) (access : FileAccess (StateM World))
    (view : FileView World Place) (file : Text) (world : World) : Prop where
  /-- Paths lead where they led before. -/
  leads : ∀ path,
    view.resolve (options.compiled access file world).2 path = view.resolve world path
  /-- At most the artifact and the lock file change, and the lock file only from none to an empty
  one. -/
  touches : ∀ place,
    view.find? (options.compiled access file world).2 place = view.find? world place ∨
    view.resolve world (artifactPath file options.stop) = some place ∨
    view.resolve world (lockPath file options.stop) = some place ∧
      view.find? world place = none ∧
      view.find? (options.compiled access file world).2 place = some (.file [])
  /-- Nothing changes unless files are to be written and the compilation succeeds. -/
  writes : (options.compiled access file world).2 ≠ world → options.writes ∧ ∃ source product,
    ((access.read file).run world).1 = .ok source ∧
      (SubsetC.compile options.stop source).outcome = .ok product
  /-- The file keeps its content unless it has the extension of its own artifact, in which case the
  artifact, or what is left of it when the write fails, may take its place. -/
  input : ∀ source, ((access.read file).run world).1 = .ok source →
    ((access.read file).run (options.compiled access file world).2).1 = .ok source ∨
    extension options.stop <:+ file ∧ ∃ product left,
      (SubsetC.compile options.stop source).outcome = .ok product ∧
        ((access.read file).run (options.compiled access file world).2).1 = .ok left ∧
        (left = product.artifact.text ∨
          (options.compiled access file world).1.succeeds = false ∧
            view.MayLeave product.artifact.text left)
  /-- The artifact has the path of the file exactly if the file has the extension. -/
  own : artifactPath file options.stop = file ↔ extension options.stop <:+ file

theorem Effects.of_unchanged (unchanged : (options.compiled access file world).2 = world) :
    options.Effects access view file world where
  leads _ := by rw [unchanged]
  touches _ := .inl (by rw [unchanged])
  writes changed := absurd unchanged changed
  input _ reading := .inl (by rwa [unchanged])
  own := artifactPath_eq_iff file options.stop

/-- What a compilation does to the files, whatever the system is and whatever it refuses. -/
theorem compile_effects (laws : access.Laws view) (options : Options) (file : Text)
    (world : World) (unlinked : view.Unlinked world) : options.Effects access view file world := by
  rcases options.compiled_cases laws file world with unchanged |
    ⟨writing, source, product, reading, compiling, after, fails⟩
  · exact .of_unchanged unchanged
  · have replaces : view.Replaces world (lockPath file options.stop)
        (artifactPath file options.stop) product.artifact.text
        (options.replaced access file product.artifact.text world) := laws.replaces ..
    have leads := replaces.resolve
    have effects := replaces.find?
    rw [← after] at leads effects
    refine ⟨leads, fun place => ?_, fun _ => ⟨writing, source, product, reading, compiling⟩,
      fun read isRead => ?_, artifactPath_eq_iff file options.stop⟩
    · exact (effects place).imp_right (.imp_left And.left)
    · obtain rfl : source = read := Except.ok.inj (reading.symm.trans isRead)
      rcases (laws.read_eq_ok _ _ _).1 reading with ⟨place, leadsTo, found⟩
      have leadsAfter := (leads file).trans leadsTo
      rcases effects place with unchanged | ⟨leadsTo', left, leaves, written⟩ | ⟨_, absent, _⟩
      · exact .inl ((laws.read_eq_ok _ _ _).2 ⟨place, leadsAfter, unchanged.trans found⟩)
      · have samePath := artifactPath_eq_of_resolve unlinked leadsTo leadsTo'
        refine .inr ⟨(artifactPath_eq_iff file options.stop).1 samePath, product, left, compiling,
          (laws.read_eq_ok _ _ _).2 ⟨place, leadsAfter, written⟩, ?_⟩
        exact leaves.eq_or_mayLeave.imp_right fun ⟨error, failed, mayLeave⟩ =>
          ⟨fails error failed, mayLeave⟩
      · rw [absent] at found
        cases found

/-- An empty file that is named like its own artifact is overwritten. -/
theorem compile_effects_own_extension :
    let files : FileSystem := ⟨[], [([Text.ofString "p.lex"], .file [])]⟩
    let options : Options := ⟨.lex, true, false⟩
    let after := (options.compiled FileSystem.access "p.lex" files).2
    files.read "p.lex" = .ok [] ∧ extension .lex <:+ Text.ofString "p.lex" ∧
      artifactPath "p.lex" .lex = Text.ofString "p.lex" ∧ after.read "p.lex" ≠ .ok [] := by
  intro files options after
  have isExtension : extension .lex <:+ Text.ofString "p.lex" := by decide
  have effects := compile_effects FileSystem.access_laws options "p.lex" files files.view_unlinked
  refine ⟨by decide, isExtension, effects.own.2 isExtension, ?_⟩
  decide +kernel

end Options

end CommandLine

end SubsetC
