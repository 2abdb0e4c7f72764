import SourceMerge.Merge

/-!
# SourceMerge.Proofs.Merge.Rendering

Rendering and preparing as functions.  A renderer whose engine remembers nothing
does not act, in whatever monad it is used: what it renders, and with it how a source
is prepared, is a function of its arguments.
-/

namespace SourceMerge

namespace Renderer

/-- The processed text; a function may end without one. -/
def process (r : Renderer) (t : Transform) (content path : Text) :
    Except TransformFault (Option Text) :=
  match t with
  | .keep => .ok (some content)
  | .function hook => (hook.call [content, path]).mapError .hook
  | .template data => ((r.render content data path).mapError .render).map some

/-- A source as the options change it: it is processed, and then its banners are taken
off. -/
def prepare (r : Renderer) (o : Options) (path content : Text) :
    Except MergeFault (Option Text) := do
  let processed ← (r.process o.process content path).mapError Merge.ofTransformFault
  match o.stripBanners with
  | none => return processed
  | some kinds => return some (Banner.strip kinds (← Merge.requireText processed))

variable {m : Type → Type} [Monad m]

section Lift

variable {ε ε' α β : Type}

theorem run_liftM (e : Except ε α) : (liftM e : ExceptT ε m α).run = pure e := rfl

variable [LawfulMonad m]

theorem adapt_liftM (e : Except ε α) (f : ε → ε') :
    (liftM e : ExceptT ε m α).adapt f = liftM (e.mapError f) := by
  refine ExceptT.ext ?_
  change Except.mapError f <$> (liftM e : ExceptT ε m α).run = _
  rw [run_liftM, run_liftM, map_pure]

theorem liftM_bind (e : Except ε α) (k : α → Except ε β) :
    (liftM e >>= fun a => liftM (k a) : ExceptT ε m β) = liftM (e.bind k) := by
  refine ExceptT.ext ?_
  rw [ExceptT.run_bind, run_liftM, run_liftM, pure_bind]
  cases e <;> rfl

end Lift

variable [LawfulMonad m]

theorem render_inMonad (r : Renderer) (template : Text) (context : Entries) (name : Text) :
    (r : Rendering m).render template context name = liftM (r.render template context name) := by
  unfold Rendering.render Renderer.render inMonad
  split
  · rfl
  · exact ExceptT.ext (by simp)

theorem process_inMonad (r : Renderer) (t : Transform) (content path : Text) :
    t.apply (r : Rendering m) content path = liftM (r.process t content path) := by
  cases t with
  | keep => rfl
  | function hook => rfl
  | template data =>
      rw [Transform.apply, render_inMonad, adapt_liftM, process]
      exact liftM_bind _ fun t => .ok (some t)

theorem prepare_inMonad (r : Renderer) (o : Options) (path content : Text) :
    Merge.prepare o (r : Rendering m) path content = liftM (r.prepare o path content) := by
  rw [Merge.prepare, process_inMonad, adapt_liftM]
  refine Eq.trans (congrArg _ (funext fun processed => ?_)) (liftM_bind _ _)
  cases o.stripBanners with
  | none => rfl
  | some kinds =>
      exact liftM_bind (Merge.requireText processed) fun t => .ok (some (Banner.strip kinds t))

end Renderer

end SourceMerge
