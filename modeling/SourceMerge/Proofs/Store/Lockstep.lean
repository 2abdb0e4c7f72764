import SourceMerge.Store
import SourceMerge.Log

/-!
# SourceMerge.Proofs.Store.Lockstep

Programs over two stores.  A relation between the programs of two monads is a
*lockstep* if it relates each question, each report and each write of the one with the
same of the other, and programs that are put together from such.  A program that is
written for any store is then related to itself, whatever the relation says.

Programs that can fail are related (`Together`) if what they do to an end or a fault is.
-/

namespace SourceMerge

/-- A relation of programs that is kept where they do the same. -/
structure Lockstep {m n : Type → Type} [Monad m] [Monad n] [FileStore m] [FileStore n]
    [Journal m] [Journal n] (R : (α : Type) → m α → n α → Prop) : Prop where
  pure : ∀ {α : Type} (a : α), R α (Pure.pure a) (Pure.pure a)
  bind : ∀ {α β : Type} {x : m α} {y : n α} {k : α → m β} {l : α → n β}, R α x y →
    (∀ a, R β (k a) (l a)) → R β (x >>= k) (y >>= l)
  contains : ∀ path, R Bool (FileStore.contains path) (FileStore.contains path)
  isDirectory : ∀ path, R Bool (FileStore.isDirectory path) (FileStore.isDirectory path)
  read : ∀ path, R (Except StoreFault Text) (FileStore.read path) (FileStore.read path)
  write : ∀ path content,
    R (Except StoreFault Unit) (FileStore.write path content) (FileStore.write path content)
  workingDirectory : R Text FileStore.workingDirectory FileStore.workingDirectory
  record : ∀ r, R Unit (Journal.record r) (Journal.record r)

/-- Programs that can fail are related if their answers are. -/
def Together {m n : Type → Type} {ε α : Type} (R : (α : Type) → m α → n α → Prop)
    (x : ExceptT ε m α) (y : ExceptT ε n α) : Prop := R (Except ε α) x.run y.run

namespace Lockstep

variable {m n : Type → Type} [Monad m] [Monad n] [FileStore m] [FileStore n] [Journal m]
  [Journal n] {R : (α : Type) → m α → n α → Prop} {ε ε' α β γ : Type}

theorem reportAll (h : Lockstep R) (level : Level) (part : Text) (messages : List Text) :
    R Unit (SourceMerge.reportAll level part messages)
      (SourceMerge.reportAll level part messages) := by
  unfold SourceMerge.reportAll
  induction messages with
  | nil => exact h.pure ()
  | cons message rest ih => exact h.bind (h.record _) fun _ => ih

theorem done (h : Lockstep R) (a : α) :
    Together R (Pure.pure a : ExceptT ε m α) (Pure.pure a : ExceptT ε n α) :=
  h.pure (Except.ok a)

theorem throw (h : Lockstep R) (e : ε) :
    Together R (MonadExcept.throw e : ExceptT ε m α) (MonadExcept.throw e : ExceptT ε n α) :=
  h.pure (Except.error e)

theorem ofExcept (h : Lockstep R) (e : Except ε α) :
    Together R (liftM e : ExceptT ε m α) (liftM e : ExceptT ε n α) := h.pure e

/-- One program after the other, if the first has no fault. -/
theorem next (h : Lockstep R) {x : ExceptT ε m α} {y : ExceptT ε n α} {k : α → ExceptT ε m β}
    {l : α → ExceptT ε n β} (hx : Together R x y) (hk : ∀ a, Together R (k a) (l a)) :
    Together R (x >>= k) (y >>= l) := by
  rw [Together, ExceptT.run_bind, ExceptT.run_bind]
  refine h.bind hx fun answer => ?_
  cases answer with
  | ok a => exact hk a
  | error e => exact h.pure (Except.error e)

variable [LawfulMonad m] [LawfulMonad n]

theorem mapM (h : Lockstep R) {x : γ → ExceptT ε m α} {y : γ → ExceptT ε n α}
    (hx : ∀ c, Together R (x c) (y c)) (l : List γ) : Together R (l.mapM x) (l.mapM y) := by
  induction l with
  | nil => exact h.done []
  | cons c l ih =>
      rw [List.mapM_cons, List.mapM_cons]
      exact h.next (hx c) fun _ => h.next ih fun _ => h.done _

theorem map (h : Lockstep R) {x : m α} {y : n α} (hx : R α x y) (f : α → β) :
    R β (f <$> x) (f <$> y) := by
  rw [map_eq_pure_bind, map_eq_pure_bind]
  exact h.bind hx fun a => h.pure (f a)

theorem adapt (h : Lockstep R) {x : ExceptT ε m α} {y : ExceptT ε n α} (hx : Together R x y)
    (f : ε → ε') : Together R (x.adapt f) (y.adapt f) := h.map hx (Except.mapError f)

/-- What cannot fail, and what comes after it. -/
theorem after (h : Lockstep R) {x : m α} {y : n α} {k : α → ExceptT ε m β}
    {l : α → ExceptT ε n β} (hx : R α x y) (hk : ∀ a, Together R (k a) (l a)) :
    Together R (ExceptT.lift x >>= k) (ExceptT.lift y >>= l) :=
  h.next (h.map hx Except.ok) hk

end Lockstep

end SourceMerge
