import SourceMerge.Template.Render

/-!
# SourceMerge.Template

Templates as the merge uses them.  What renders a template is no part of this:
an engine is asked for the text of a template with some data, and answers with
a text or a fault.  `Template.interpreter` is one for the usual templates.

An engine may remember what it was asked, since a template can change the data
that it is rendered with.  So a merge takes a `Rendering`, whose engine answers
in the monad of the merge.  A `Renderer` is one whose engine does not remember
anything, and can be used wherever a rendering is asked for.

A renderer holds the data of the project; rendering adds the data of the
occasion, which comes first where both have a key.  An empty template is empty
whatever the data.  A template that is not valid, or that uses an undefined
value, is a fault of the template and is told with its name; other faults are
told as they are.
-/

namespace SourceMerge

namespace Template

/-- What an engine is asked for: the text of a template, rendered with the data
of the project and of the occasion. -/
structure Call where
  template : Text
  data : Entries := []
  context : Entries := []

/-- Answers calls, with a state that lasts from one call to the next. -/
abbrev Engine (σ : Type) := Call → StateM σ (Except Fault Text)

/-! ## The interpreter -/

/-- The data by name.  Keys have to be texts, and one name is taken. -/
def names? (data : Entries) : Option (List (Text × Data)) :=
  data.mapM fun
    | (.text n, d) => if n = "self" then none else some (n, d)
    | _ => none

/-- Renders what a call asks for, on some day. -/
def perform (today : Date) (c : Call) : Work Text :=
  match parse? c.template with
  | none => throw .invalid
  | some nodes =>
    if nodesKnown filterNames testNames false nodes then
      match names? (Entries.overlay c.data c.context) with
      | none => throw .wrongType
      | some data => do
        let (t, _) ← renderNodes ⟨data, today⟩ [[]] nodes
        return t
    else throw .invalid

/-- The engine for templates of the usual kinds.  Of the ways in which a template
can change its data it knows the `append` of a list that has a name. -/
def interpreter (today : Date) : Engine Memory := fun c => (perform today c).run

/-- What the interpreter answers to a call when it was not asked before. -/
def answer (today : Date) (c : Call) : Except Fault Text := ((interpreter today c).run []).1

end Template

/-! ## Faults -/

/-- Why a template of a name is not rendered. -/
structure RenderFault where
  name : Text
  cause : Template.Fault

namespace RenderFault

/-- Whether the template itself is at fault. -/
def isOfTemplate (f : RenderFault) : Bool :=
  match f.cause with
  | .invalid => true
  | .undefined _ => true
  | _ => false

/-- The wording of a fault of the template. -/
def message (f : RenderFault) : Text :=
  "Failed to render " ++ f.name ++
    match f.cause with
    | .undefined message => ": " ++ message
    | _ => []

end RenderFault

/-! ## Renderers -/

/-- Template data of a project, and an engine that gives one answer to one call,
whatever it was asked before. -/
structure Renderer where
  data : Entries := []
  engine : Template.Call → Except Template.Fault Text := Template.answer {}

/-- Template data of a project, and an engine that answers in a monad. -/
structure Rendering (m : Type → Type) where
  data : Entries := []
  engine : Template.Call → m (Except Template.Fault Text)

/-- The text of a template, rendered with the data of the project and of the
occasion; the name of the template is told with a fault. -/
def Renderer.render (r : Renderer) (template : Text) (context : Entries) (name : Text) :
    Except RenderFault Text :=
  if template = [] then .ok []
  else (r.engine ⟨template, r.data, context⟩).mapError (⟨name, ·⟩)

namespace Rendering

variable {m : Type → Type} [Monad m]

/-- The text of a template, in the monad of the engine. -/
def render (r : Rendering m) (template : Text) (context : Entries) (name : Text) :
    ExceptT RenderFault m Text :=
  if template = [] then pure []
  else do
    (← ExceptT.lift (r.engine ⟨template, r.data, context⟩)).mapError (RenderFault.mk name)

/-- The same renderer with further data, which come on top. -/
def overlay (r : Rendering m) (data : Entries) : Rendering m :=
  { r with data := Entries.overlay r.data data }

end Rendering

namespace Renderer

variable {m : Type → Type} [Monad m]

/-- The same renderer with further data, which come on top. -/
def overlay (r : Renderer) (data : Entries) : Renderer :=
  { r with data := Entries.overlay r.data data }

/-- A renderer in a monad that its engine has no use for. -/
def inMonad (r : Renderer) : Rendering m := ⟨r.data, fun c => pure (r.engine c)⟩

instance : Coe Renderer (Rendering m) := ⟨Renderer.inMonad⟩

/-- The interpreter, without data. -/
def plain : Renderer := {}

end Renderer

end SourceMerge
