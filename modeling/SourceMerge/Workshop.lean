import SourceMerge.Log.Plan
import SourceMerge.Template

/-!
# SourceMerge.Workshop

Programs that share a template engine.  The engine has a state, which lasts from
one rendering to the next for as long as the program goes on, so what a template
does to the data of the project is there when the next one is rendered, in the
same merge or in a later one.  Beside that the program has the surroundings that
it would have without an engine.
-/

namespace SourceMerge

/-- Programs of `m` that share an engine with states `σ`. -/
def Workshop (σ : Type) (m : Type → Type) (α : Type) : Type := StateT σ m α

namespace Workshop

variable {σ α : Type} {m : Type → Type} [Monad m]

instance : Monad (Workshop σ m) := inferInstanceAs (Monad (StateT σ m))

instance [LawfulMonad m] : LawfulMonad (Workshop σ m) := inferInstanceAs (LawfulMonad (StateT σ m))

/-- What a program does if the engine is in some state, and the state of the
engine afterwards. -/
def run (x : Workshop σ m α) (s : σ) : m (α × σ) := StateT.run x s

/-- What has no use for the engine. -/
def lift (x : m α) : Workshop σ m α := StateT.lift x

/-- What the engine does. -/
def engine (x : StateM σ α) : Workshop σ m α := fun s => pure (StateT.run x s)

/-! ## running -/

theorem run_pure (a : α) (s : σ) : run (pure a : Workshop σ m α) s = pure (a, s) := rfl

theorem run_bind {β : Type} (x : Workshop σ m α) (k : α → Workshop σ m β) (s : σ) :
    run (x >>= k) s = run x s >>= fun p => run (k p.1) p.2 := rfl

theorem run_lift (x : m α) (s : σ) : run (lift x : Workshop σ m α) s = x >>= fun a => pure (a, s) :=
  rfl

theorem run_engine (x : StateM σ α) (s : σ) :
    run (engine x : Workshop σ m α) s = pure (StateT.run x s) := rfl

/-! ## surroundings -/

instance [FileStore m] : FileStore (Workshop σ m) where
  contains path := lift (FileStore.contains path)
  isDirectory path := lift (FileStore.isDirectory path)
  read path := lift (FileStore.read path)
  readMarked path := lift (FileStore.readMarked path)
  write path content := lift (FileStore.write path content)
  workingDirectory := lift FileStore.workingDirectory

instance [FolderView m] : FolderView (Workshop σ m) where
  entries path := lift (FolderView.entries path)
  below keep path := lift (FolderView.below keep path)
  home := lift FolderView.home

instance [Journal m] : Journal (Workshop σ m) where
  record r := lift (Journal.record r)

instance [Terminal m] : Terminal (Workshop σ m) where
  print t := lift (Terminal.print t)
  printError t := lift (Terminal.printError t)
  startLog plan := lift (Terminal.startLog plan)

end Workshop

/-- A renderer whose engine is the shared one. -/
def Rendering.shared {σ : Type} {m : Type → Type} [Monad m] (e : Template.Engine σ)
    (data : Entries := []) : Rendering (Workshop σ m) :=
  ⟨data, fun c => Workshop.engine (e c)⟩

end SourceMerge
