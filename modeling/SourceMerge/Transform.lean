import SourceMerge.Hook
import SourceMerge.Template

/-!
# SourceMerge.Transform

What is done to the text of every source before it is merged: nothing, a
function of the text and its path, or rendering it as a template.
-/

namespace SourceMerge

/-- A change made to every source. -/
inductive Transform where
  | keep
  | function (hook : Hook)
  /-- The source is a template; the data come on top of those of the project. -/
  | template (data : Entries)

/-- Why a source cannot be processed. -/
inductive TransformFault where
  | hook (fault : HookFault)
  | render (fault : RenderFault)

namespace Transform

/-- Whether sources may differ from what their files hold. -/
def isActive : Transform → Bool
  | .keep => false
  | _ => true

/-- The processed text; a function may end without one. -/
def apply {m : Type → Type} [Monad m] (t : Transform) (r : Rendering m) (content path : Text) :
    ExceptT TransformFault m (Option Text) :=
  match t with
  | .keep => pure (some content)
  | .function hook => (hook.call [content, path]).mapError TransformFault.hook
  | .template data => do return some (← (r.render content data path).adapt TransformFault.render)

end Transform

end SourceMerge
