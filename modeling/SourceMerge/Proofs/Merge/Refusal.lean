import SourceMerge.Proofs.Store.Snapshot
import SourceMerge.Merge

/-!
# SourceMerge.Proofs.Merge.Refusal

Where conflicts come from.  Options are looked at before a merge begins, and behind
that no merge ends with a conflict: all its other faults are those of its parts, under
names of their own.  `NoConflict` says so of a program, and is closed under the ways in
which programs are put together.
-/

namespace SourceMerge

open Mapping

/-! ## programs without conflicts -/

section NoConflict

variable {σ ε α β γ : Type}

/-- The program never ends with a conflict. -/
def NoConflict (x : ExceptT MergeFault (StateM σ) α) : Prop :=
  ∀ s label, (runAt x s).1 ≠ .error (.conflict label)

namespace NoConflict

theorem pure (a : α) : NoConflict (Pure.pure a : ExceptT MergeFault (StateM σ) α) :=
  fun _ _ h => by cases h

theorem throw {fault : MergeFault} (hfault : ∀ label, fault ≠ .conflict label) :
    NoConflict (MonadExcept.throw fault : ExceptT MergeFault (StateM σ) α) :=
  fun _ label h => hfault label (Except.error.inj h)

theorem ofExcept {e : Except MergeFault α} (he : ∀ label, e ≠ .error (.conflict label)) :
    NoConflict (liftM e : ExceptT MergeFault (StateM σ) α) :=
  fun _ label h => he label h

theorem lift (y : StateM σ α) : NoConflict (ExceptT.lift y) := fun _ _ h => by cases h

theorem bind {x : ExceptT MergeFault (StateM σ) α} {k : α → ExceptT MergeFault (StateM σ) β}
    (hx : NoConflict x) (hk : ∀ a, NoConflict (k a)) : NoConflict (x >>= k) := by
  intro s label
  have hfirst := hx s label
  rw [runAt_bind]
  cases hrun : runAt x s with
  | mk answer s₁ =>
      rw [hrun] at hfirst
      cases answer with
      | error fault => exact fun h => hfirst (by rw [Except.error.inj h])
      | ok a => exact hk a s₁ label

/-- An action has no fault. -/
theorem after (y : StateM σ α) {k : α → ExceptT MergeFault (StateM σ) β}
    (hk : ∀ a, NoConflict (k a)) : NoConflict (ExceptT.lift y >>= k) := (lift y).bind hk

/-- Faults that are put under another name are no conflicts. -/
theorem adapt (x : ExceptT ε (StateM σ) α) {f : ε → MergeFault}
    (hf : ∀ e label, f e ≠ .conflict label) : NoConflict (x.adapt f) := by
  intro s label
  rw [runAt_adapt]
  cases (runAt x s).1 with
  | ok a => exact fun h => by cases h
  | error e => exact fun h => hf e label (Except.error.inj h)

theorem mapM {x : γ → ExceptT MergeFault (StateM σ) α} {l : List γ}
    (h : ∀ c ∈ l, NoConflict (x c)) : NoConflict (l.mapM x) := by
  induction l with
  | nil => exact pure []
  | cons c l ih =>
      rw [List.forall_mem_cons] at h
      rw [List.mapM_cons]
      exact h.1.bind fun _ => (ih h.2).bind fun _ => pure _

end NoConflict

end NoConflict

/-! ## merging -/

namespace Merge

/-- A fault under another name is no conflict. -/
theorem mapError_ne_conflict {ε α : Type} (e : Except ε α) {f : ε → MergeFault}
    (hf : ∀ e label, f e ≠ .conflict label) (label : Text) :
    e.mapError f ≠ .error (.conflict label) := by
  cases e with
  | ok a => exact fun h => by cases h
  | error e => exact fun h => hf e label (Except.error.inj h)

theorem map_ne_conflict {α β : Type} {e : Except MergeFault α} {label : Text}
    (he : e ≠ .error (.conflict label)) (g : α → β) : e.map g ≠ .error (.conflict label) := by
  cases e with
  | ok a => exact fun h => by cases h
  | error fault => exact fun h => he (by rw [Except.error.inj h])

theorem requireText_ne_conflict (t : Option Text) (label : Text) :
    requireText t ≠ .error (.conflict label) := by
  cases t <;> simp [requireText]

theorem startRecorder_ne_conflict (o : Options) (dest label : Text) :
    startRecorder o dest ≠ .error (.conflict label) := by
  unfold startRecorder
  split
  · simp
  · split
    · simp
    · split <;> simp

theorem recordUnits_ne_conflict (separator label : Text) (units : List SourceText) (r : Recorder)
    (first : Bool) : recordUnits separator r first units ≠ .error (.conflict label) := by
  induction units generalizing r first with
  | nil => simp [recordUnits]
  | cons u rest ih =>
      unfold recordUnits
      split
      · exact ih _ _
      · simp

theorem noConflict_prepare {σ : Type} (r : Rendering (StateM σ)) (o : Options)
    (path content : Text) : NoConflict (prepare o r path content) := by
  refine (NoConflict.adapt _ fun e label => ?_).bind fun processed => ?_
  · cases e <;> simp [ofTransformFault]
  cases o.stripBanners with
  | none => exact NoConflict.pure _
  | some kinds =>
      exact (NoConflict.ofExcept (requireText_ne_conflict processed)).bind fun _ => NoConflict.pure _

section Programs

variable {σ : Type} [FileStore (StateM σ)] [Journal (StateM σ)] (r : Rendering (StateM σ))

theorem noConflict_loadOne (o : Options) (l : Loaded) (path : Text) :
    NoConflict (loadOne o r l path : ExceptT MergeFault (StateM σ) _) := by
  refine NoConflict.after _ fun found => ?_
  refine (NoConflict.ofExcept (mapError_ne_conflict found fun _ _ => by simp)).bind fun text => ?_
  refine (noConflict_prepare r o path text).bind fun content => ?_
  cases l.recorder with
  | none => exact NoConflict.pure _
  | some recorder =>
      refine (NoConflict.ofExcept (requireText_ne_conflict content)).bind fun content => ?_
      exact (NoConflict.adapt _ fun _ _ => by simp).bind fun _ => NoConflict.pure _

theorem noConflict_loadAll (o : Options) (paths : List Text) (l : Loaded) :
    NoConflict (loadAll o r l paths : ExceptT MergeFault (StateM σ) _) := by
  induction paths generalizing l with
  | nil => exact NoConflict.pure _
  | cons path rest ih =>
      unfold loadAll
      refine NoConflict.after _ fun present => ?_
      cases present with
      | false => exact ih _
      | true =>
          refine NoConflict.after _ fun directory => ?_
          cases directory with
          | true => exact NoConflict.after _ fun _ => ih l
          | false => exact (noConflict_loadOne r o l path).bind fun l' => ih l'

theorem noConflict_finishMap (o : Options) (banner footer : Text) (units : List SourceText)
    (recorder : Option Recorder) :
    NoConflict (finishMap o banner footer units recorder : ExceptT MergeFault (StateM σ) _) := by
  cases recorder with
  | none => exact NoConflict.pure _
  | some r =>
      refine (NoConflict.ofExcept fun label => map_ne_conflict
        (recordUnits_ne_conflict o.separator label units _ true) _).bind fun r => ?_
      refine (NoConflict.adapt _ fun e _ => ?_).bind fun _ => NoConflict.pure _
      cases e <;> simp [ofFinishFault]

/-- A merge with options that are not looked at any more never ends with a conflict. -/
theorem noConflict_mergeInto (dest : Text) (sources : List Text) (o : Options) :
    NoConflict (mergeInto dest sources o r : ExceptT MergeFault (StateM σ) _) := by
  refine (NoConflict.adapt _ fun _ _ => by simp).bind fun banner => ?_
  refine (NoConflict.adapt _ fun _ _ => by simp).bind fun footer => ?_
  refine (NoConflict.ofExcept (startRecorder_ne_conflict o dest)).bind fun recorder => ?_
  refine (noConflict_loadAll r o sources _).bind fun loaded => ?_
  refine NoConflict.after _ fun _ => ?_
  refine (NoConflict.mapM fun row _ => NoConflict.ofExcept fun label =>
    map_ne_conflict (requireText_ne_conflict row.2 label) _).bind fun contents => ?_
  refine NoConflict.after _ fun g => ?_
  refine NoConflict.after _ fun assembled => ?_
  refine (NoConflict.ofExcept (mapError_ne_conflict _ fun _ _ => by simp)).bind fun assembly => ?_
  refine NoConflict.after _ fun excluded => ?_
  refine (noConflict_finishMap _ _ _ _ _).bind fun finished => ?_
  refine NoConflict.after _ fun answer => ?_
  cases answer with
  | error fault => exact NoConflict.throw fun _ => by simp
  | ok _ => exact NoConflict.after _ fun _ => NoConflict.pure _

end Programs

/-! ## looking at options -/

section Check

variable {m : Type → Type} [Monad m] [Journal m] {o : Options}

theorem checkSourceMap_of_fit (hfit : conflicts o = false) (force : Bool) (label : Text) :
    (checkSourceMap o force label : ExceptT MergeFault m _) = pure (o, none) := by
  rw [checkSourceMap, hfit]
  rfl

theorem checkSourceMap_refused (hconf : conflicts o = true) (label : Text) :
    (checkSourceMap o false label : ExceptT MergeFault m _) =
      ExceptT.lift (report .warning speaker (conflictMessage label)) >>= fun _ =>
        throw (.conflict label) := by
  rw [checkSourceMap, hconf]
  rfl

theorem checkSourceMap_forced (hconf : conflicts o = true) (label : Text) :
    (checkSourceMap o true label : ExceptT MergeFault m _) =
      ExceptT.lift (report .warning speaker (disabledNotice label).message) >>= fun _ =>
        pure ({ o with sourceMap := false }, some (disabledNotice label)) := by
  rw [checkSourceMap, hconf]
  rfl

end Check

end Merge

end SourceMerge
