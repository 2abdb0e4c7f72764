import SourceMerge.Merge
import SourceMerge.Proofs.Store.Lockstep

/-!
# SourceMerge.Proofs.Merge.Lockstep

A merge over two stores.  A merge is written for any store, so it is related to itself
by every lockstep, provided that its renderers are: part by part, what it loads, puts in
order, explains and writes.
-/

namespace SourceMerge

open Mapping

variable {m n : Type → Type} [Monad m] [Monad n] [FileStore m] [FileStore n] [Journal m]
  [Journal n] {R : (α : Type) → m α → n α → Prop}

/-- Renderers that hold the same data and whose engines are related. -/
structure Rendering.Related (R : (α : Type) → m α → n α → Prop) (r : Rendering m)
    (r' : Rendering n) : Prop where
  data : r.data = r'.data
  engine : ∀ c, R (Except Template.Fault Text) (r.engine c) (r'.engine c)

namespace Lockstep

/-! ## actions -/

section Actions

variable (h : Lockstep R)
include h

theorem fetch (location : Location) :
    R (Except InheritedFault Text) location.fetch location.fetch := by
  cases location with
  | carried digits => exact h.pure _
  | file path => exact h.bind (h.read path) fun _ => h.pure _

theorem buildGraph (root marker : Text) (contents : List (Text × Text)) :
    R Graph (Merge.buildGraph root marker contents) (Merge.buildGraph root marker contents) :=
  h.bind (h.reportAll _ _ _) fun _ => h.pure _

theorem assembleGraph (separator : Text) (g : Graph) :
    R (Except Graph.CascadeFault Graph.Assembly) (Merge.assembleGraph separator g)
      (Merge.assembleGraph separator g) := by
  unfold Merge.assembleGraph
  cases g.assemble separator with
  | error fault => exact h.pure _
  | ok a => exact h.bind (h.record _) fun _ => h.pure _

theorem filterAuxM_contains (paths found : List Text) :
    R (List Text) (List.filterAuxM FileStore.contains paths found)
      (List.filterAuxM FileStore.contains paths found) := by
  induction paths generalizing found with
  | nil => exact h.pure found
  | cons path rest ih => exact h.bind (h.contains path) fun present => ih _

theorem explainExcluded (g : Graph) :
    R (List Diagnostic) (Merge.explainExcluded g) (Merge.explainExcluded g) := by
  refine h.bind (h.bind (h.filterAuxM_contains _ []) fun _ => h.pure _) fun _ => ?_
  exact h.bind (h.reportAll _ _ _) fun _ => h.pure _

end Actions

variable [LawfulMonad m] [LawfulMonad n] (h : Lockstep R)
include h

/-! ## loading -/

theorem inherit (content file : Text) :
    Together R (Mapping.inherit content file) (Mapping.inherit content file) := by
  unfold Mapping.inherit
  cases findReference? content with
  | none => exact h.done _
  | some reference =>
      refine h.after (h.bind (h.fetch _) fun _ => h.pure _) fun found => ?_
      cases found with
      | ok map => exact h.after (h.record _) fun _ => h.done _
      | error fault =>
          cases fault
          case mappingsNotText => exact h.throw _
          all_goals exact h.after (h.record _) fun _ => h.done _

theorem register (recorder : Recorder) (path content : Text) :
    Together R (recorder.register path content) (recorder.register path content) :=
  h.next (h.inherit content (Path.canonical path)) fun _ => h.done _

theorem checkSourceMap (o : Options) (force : Bool) (label : Text) :
    Together R (Merge.checkSourceMap o force label) (Merge.checkSourceMap o force label) := by
  unfold Merge.checkSourceMap
  split
  · exact h.done _
  · split
    · exact h.after (h.record _) fun _ => h.throw _
    · exact h.after (h.record _) fun _ => h.done _

section Render

variable {r : Rendering m} {r' : Rendering n} (hr : r.Related R r')
include hr

theorem render (template : Text) (context : Entries) (name : Text) :
    Together R (r.render template context name) (r'.render template context name) := by
  unfold Rendering.render
  rw [hr.data]
  split
  · exact h.done _
  · exact h.after (hr.engine _) fun _ => h.ofExcept _

theorem prepare (o : Options) (path content : Text) :
    Together R (Merge.prepare o r path content) (Merge.prepare o r' path content) := by
  have hprocess : Together R (o.process.apply r content path)
      (o.process.apply r' content path) := by
    cases o.process with
    | keep => exact h.done _
    | function hook => exact h.ofExcept _
    | template data => exact h.next (h.adapt (h.render hr _ _ _) _) fun _ => h.done _
  refine h.next (h.adapt hprocess _) fun processed => ?_
  cases o.stripBanners with
  | none => exact h.done _
  | some kinds => exact h.next (h.ofExcept _) fun _ => h.done _

theorem loadOne (o : Options) (l : Merge.Loaded) (path : Text) :
    Together R (Merge.loadOne o r l path) (Merge.loadOne o r' l path) := by
  unfold Merge.loadOne
  refine h.after (h.read path) fun found => ?_
  refine h.next (h.ofExcept _) fun text => ?_
  refine h.next (h.prepare hr o path text) fun content => ?_
  cases l.recorder with
  | none => exact h.done _
  | some recorder =>
      refine h.next (h.ofExcept _) fun content => ?_
      exact h.next (h.adapt (h.register recorder path content) _) fun _ => h.done _

theorem loadAll (o : Options) (paths : List Text) (l : Merge.Loaded) :
    Together R (Merge.loadAll o r l paths) (Merge.loadAll o r' l paths) := by
  induction paths generalizing l with
  | nil => exact h.done _
  | cons path rest ih =>
      unfold Merge.loadAll
      refine h.after (h.contains path) fun present => ?_
      cases present with
      | false => exact ih _
      | true =>
          refine h.after (h.isDirectory path) fun directory => ?_
          cases directory with
          | true => exact h.after (h.record _) fun _ => ih l
          | false => exact h.next (h.loadOne hr o l path) fun l' => ih l'

end Render

/-! ## writing -/

theorem store (r : Recorder) (serialized : Text) :
    Together R (r.store serialized) (r.store serialized) := by
  unfold Recorder.store
  split
  · refine h.after (h.write _ _) fun answer => ?_
    cases answer with
    | error fault => exact h.throw _
    | ok _ => exact h.after (h.record _) fun _ => h.done _
  · exact h.done _

theorem finish (r : Recorder) : Together R r.finish r.finish := by
  unfold Recorder.finish
  refine h.after h.workingDirectory fun workingDirectory => ?_
  cases r.document? workingDirectory with
  | none => exact h.throw _
  | some document =>
      refine h.next (h.store r document.serialized) fun r => ?_
      cases r.delivery.url? workingDirectory r.dest r.mapPath document.serialized with
      | none => exact h.throw _
      | some url => exact h.done _

theorem finishMap (o : Options) (banner footer : Text) (units : List SourceText)
    (recorder : Option Recorder) :
    Together R (Merge.finishMap o banner footer units recorder)
      (Merge.finishMap o banner footer units recorder) := by
  cases recorder with
  | none => exact h.done _
  | some r =>
      refine h.next (h.ofExcept _) fun r => ?_
      exact h.next (h.adapt (h.finish r) _) fun _ => h.done _

section Merge

variable {r : Rendering m} {r' : Rendering n} (hr : r.Related R r')
include hr

theorem mergeInto (dest : Text) (sources : List Text) (o : Options) :
    Together R (Merge.mergeInto dest sources o r) (Merge.mergeInto dest sources o r') := by
  refine h.next (h.adapt (h.render hr _ _ _) _) fun banner => ?_
  refine h.next (h.adapt (h.render hr _ _ _) _) fun footer => ?_
  refine h.next (h.ofExcept _) fun recorder => ?_
  refine h.next (h.loadAll hr o sources _) fun loaded => ?_
  refine h.after (h.reportAll _ _ _) fun _ => ?_
  refine h.next (h.mapM (fun _ => h.ofExcept _) _) fun contents => ?_
  refine h.after (h.buildGraph _ _ _) fun g => ?_
  refine h.after (h.assembleGraph _ _) fun assembled => ?_
  refine h.next (h.ofExcept _) fun assembly => ?_
  refine h.after (h.explainExcluded _) fun excluded => ?_
  refine h.next (h.finishMap _ _ _ _ _) fun finished => ?_
  refine h.after (h.write _ _) fun answer => ?_
  cases answer with
  | error fault => exact h.throw _
  | ok _ => exact h.after (h.record _) fun _ => h.done _

/-- **A merge keeps every lockstep**: over two stores it does the same, as far as the
relation can tell. -/
theorem merge (dest : Text) (sources : List Text) (o : Options) (force : Bool) :
    Together R (Merge.merge dest sources o force r) (Merge.merge dest sources o force r') :=
  h.next (h.checkSourceMap o force dest) fun _ =>
    h.next (h.mergeInto hr dest sources _) fun _ => h.done _

end Merge

end Lockstep

end SourceMerge
