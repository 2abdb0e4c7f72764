import SourceMerge.Sources

/-!
# SourceMerge.Proofs.Run.Looking

How sources are looked for.  The patterns of an output lead through the directories
component by component, and all that is done on the way is asking and reporting.  A
property of programs that holds of each question and each report, and of two programs
one after the other, therefore holds of the whole search (`Looking.expand`).
-/

namespace SourceMerge

/-- A property of programs that ask for paths and directories, and report: each
question and report has it, and so have programs that are put together from such. -/
structure Looking {σ : Type} [FileStore (StateM σ)] [FolderView (StateM σ)] [Journal (StateM σ)]
    (P : (α : Type) → StateM σ α → Prop) : Prop where
  pure : ∀ {α : Type} (a : α), P α (Pure.pure a)
  bind : ∀ {α β : Type} {y : StateM σ α} {k : α → StateM σ β}, P α y → (∀ a, P β (k a)) →
    P β (y >>= k)
  contains : ∀ path, P Bool (FileStore.contains path)
  entries : ∀ path, P (List (Text × Bool)) (FolderView.entries path)
  below : ∀ keep path, P (List (List Text × Bool)) (FolderView.below keep path)
  report : ∀ level part message, P Unit (report level part message)

namespace Looking

variable {σ : Type} [FileStore (StateM σ)] [FolderView (StateM σ)] [Journal (StateM σ)]
  {P : (α : Type) → StateM σ α → Prop} (h : Looking P)
include h

theorem mapM {α γ : Type} {f : γ → StateM σ α} (hf : ∀ c, P α (f c)) (l : List γ) :
    P (List α) (l.mapM f) := by
  induction l with
  | nil => exact h.pure []
  | cons c l ih =>
      rw [List.mapM_cons]
      exact h.bind (hf c) fun _ => h.bind ih fun _ => h.pure _

theorem find (directory component : Text) (isLast : Bool) :
    P (List Text) (Glob.find directory component isLast) := by
  unfold Glob.find
  split
  · exact h.bind (h.below _ _) fun _ => h.pure _
  · split
    · exact h.bind (h.entries _) fun _ => h.pure _
    · refine h.bind (h.contains _) fun found => ?_
      cases found <;> exact h.pure _

theorem walk (components found : List Text) : P (List Text) (Glob.walk found components) := by
  induction components generalizing found with
  | nil => exact h.pure _
  | cons component rest ih =>
      unfold Glob.walk
      refine h.bind (h.mapM (fun directory => ?_) _) fun next => ih _
      exact h.bind (h.find _ _ _) fun _ => h.pure _

theorem sorted (pattern : Text) : P (List Text) (Glob.sorted pattern) := by
  have hexpand : P (List Text) (Glob.expand pattern) := by
    unfold Glob.expand
    split
    · refine h.bind (h.contains _) fun found => ?_
      cases found <;> exact h.pure _
    · exact h.bind (h.walk _ _) fun _ => h.pure _
  exact h.bind hexpand fun _ => h.pure _

/-- **Looking for sources** is asking and reporting. -/
theorem expand (patterns : List Text) (base : Text) (nonull : Bool) :
    P (List Text) (Sources.expand patterns base nonull) := by
  refine h.bind (h.mapM (fun pattern => ?_) _) fun _ => h.pure _
  refine h.bind (h.sorted _) fun found => ?_
  split
  · exact h.bind (h.report _ _ _) fun _ => h.pure _
  · exact h.pure _

end Looking

end SourceMerge
