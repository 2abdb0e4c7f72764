import SourceMerge.Proofs.Merge.Lockstep
import SourceMerge.Workshop

/-!
# SourceMerge.Proofs.Merge.Sharing

Merges that share an engine.  The state of the engine is all that one merge can leave to
the next beside its files.  If the answers of an engine do not hang on its state
(`Template.Engine.Steady`), that is nothing: a merge that shares the engine is a merge
with a renderer, whatever state it finds the engine in (`merge_shared`).  So what holds
of merges with renderers holds of merges that share a steady engine.
-/

namespace SourceMerge

namespace Template.Engine

variable {σ : Type}

/-- The answers do not hang on the state. -/
def Steady (e : Engine σ) : Prop :=
  ∀ c s s', (StateT.run (e c) s).1 = (StateT.run (e c) s').1

/-- A renderer that gives the answers that the engine gives in one state. -/
def renderer (e : Engine σ) (s : σ) (data : Entries) : Renderer :=
  ⟨data, fun c => (StateT.run (e c) s).1⟩

/-- An engine that has no state gives the answers of a function. -/
def ofFunction (answer : Call → Except Fault Text) : Engine Unit := fun c => pure (answer c)

theorem steady_ofFunction (answer : Call → Except Fault Text) : (ofFunction answer).Steady :=
  fun _ _ _ => rfl

end Template.Engine

section Unmoved

variable {σ : Type} {m : Type → Type} [Monad m] [LawfulMonad m]

/-- The second program is the first without its engine, whose state makes no difference. -/
def Unmoved (α : Type) (x : Workshop σ m α) (y : m α) : Prop := ∀ s, Prod.fst <$> x.run s = y

theorem unmoved_lift {α : Type} (y : m α) : Unmoved (σ := σ) α (Workshop.lift y) y := fun s => by
  simp [Workshop.run_lift]

theorem lockstep_unmoved [FileStore m] [Journal m] : Lockstep (Unmoved (σ := σ) (m := m)) where
  pure a s := by simp [Workshop.run_pure]
  bind {α β x y k l} hx hk s := by
    have hfirst : ∀ p : α × σ, Prod.fst <$> (k p.1).run p.2 = l p.1 := fun p => hk p.1 p.2
    rw [Workshop.run_bind, map_bind, ← hx s, bind_map_left]
    simp only [hfirst]
  contains path := unmoved_lift _
  isDirectory path := unmoved_lift _
  read path := unmoved_lift _
  write path content := unmoved_lift _
  workingDirectory := unmoved_lift _
  record r := unmoved_lift _

/-- **A steady engine is a renderer**: a merge that shares one does what a merge with a
renderer does that gives its answers, and finds the same. -/
theorem merge_shared [FileStore m] [Journal m] {e : Template.Engine σ} (he : e.Steady)
    (data : Entries) (s s' : σ) (dest : Text) (sources : List Text) (o : Options) (force : Bool) :
    Prod.fst <$> Workshop.run (Merge.merge dest sources o force
        (Rendering.shared (m := m) e data)).run s' =
      (Merge.merge dest sources o force (e.renderer s data : Rendering m)).run := by
  have hrelated : (Rendering.shared (m := m) e data).Related (Unmoved (m := m))
      (e.renderer s data : Rendering m) := by
    refine ⟨rfl, fun c s' => ?_⟩
    change Prod.fst <$> Workshop.run (Workshop.engine (e c)) s' = pure (StateT.run (e c) s).1
    rw [Workshop.run_engine, map_pure, he c s' s]
  exact lockstep_unmoved.merge hrelated dest sources o force s'

end Unmoved

end SourceMerge
