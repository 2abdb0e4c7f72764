import SourceMerge.Proofs.Merge.Rendering
import SourceMerge.Proofs.Store.Snapshot
import SourceMerge.Proofs.Table

/-!
# SourceMerge.Proofs.Merge.Loading

Loading without a store.  On a store that shows a snapshot, loading only asks
and reports, so its answer is a function of the snapshot.  In closed form: the
sources that are found are given one after the other (`Snapshot.given`), and
what is loaded is the tables filled with them in order, where the canonical path
is the key.

```
sources ──found──▶ given texts ──fill──▶ contents, recorder
        └─absent─▶ missing
```
-/

namespace SourceMerge

open Mapping

/-! ## preparing -/

/-- A text without the banners that the options take off. -/
def Options.stripped (o : Options) (t : Text) : Text :=
  match o.stripBanners with
  | none => t
  | some kinds => Banner.strip kinds t

/-- A prepared text was processed first, and its banners were taken off then. -/
theorem Renderer.exists_processed_of_prepare {r : Renderer} {o : Options} {path content t : Text}
    (h : r.prepare o path content = .ok (some t)) :
    ∃ processed, r.process o.process content path = .ok (some processed) ∧
      o.stripped processed = t := by
  obtain ⟨result, hprocess, h⟩ := bind_eq_ok.mp h
  have hprocess := mapError_eq_ok.mp hprocess
  unfold Options.stripped
  cases hkinds : o.stripBanners with
  | none =>
      rw [hkinds] at h
      obtain rfl := Except.ok.inj h
      exact ⟨t, hprocess, rfl⟩
  | some kinds =>
      rw [hkinds] at h
      obtain ⟨processed, hsome, h⟩ := bind_eq_ok.mp h
      cases result with
      | none => cases hsome
      | some result =>
          obtain rfl := Except.ok.inj hsome
          exact ⟨result, hprocess, Option.some.inj (Except.ok.inj h)⟩

namespace Snapshot

/-! ## the map of one source -/

/-- The text of a map, wherever it is. -/
def fetch (f : Snapshot) : Location → Except InheritedFault Text
  | .carried digits => carriedText digits
  | .file path => (f.read path).mapError .unreadable

/-- The map of a file, wherever it is. -/
def loadMap (f : Snapshot) (file : Text) (location : Location) :
    Except InheritedFault InheritedMap :=
  (f.fetch location).bind (InheritedMap.ofText (location.base file))

/-- A text without the reference to its map, and the map if it can be used. -/
def inherit (f : Snapshot) (content file : Text) :
    Except InheritedFault (Text × Option InheritedMap) :=
  match findReference? content with
  | none => .ok (content, none)
  | some (name, cleaned) =>
    match f.loadMap file (locate file name) with
    | .ok map => .ok (cleaned, some map)
    | .error .mappingsNotText => .error .mappingsNotText
    | .error _ => .ok (cleaned, none)

/-! ## one source -/

/-- What a source brings to a merge. -/
structure Given where
  /-- Its text; a function may have ended without one. -/
  text : Option Text
  /-- The map that it brought along. -/
  map : Option InheritedMap := none

/-- What the source at a path brings: its text as the options change it and, if
the merge is mapped, without the reference to its map. -/
def given (f : Snapshot) (o : Options) (r : Renderer) (mapped : Bool) (path : Text) :
    Except MergeFault Given := do
  let text ← (f.read path).mapError MergeFault.store
  let content ← r.prepare o path text
  if mapped then
    let content ← Merge.requireText content
    let (cleaned, map) ← (f.inherit content (Path.canonical path)).mapError MergeFault.inherited
    return ⟨some cleaned, map⟩
  else return ⟨content, none⟩

/-- The text that the source at a path brings, step by step.  Its file is read, the text
is processed, and the banners are taken off that; if the merge is mapped, the reference
to a map of its own is taken out last. -/
def Loads (f : Snapshot) (o : Options) (r : Renderer) (mapped : Bool) (path text : Text) : Prop :=
  ∃ raw processed, f.read path = .ok raw ∧
    r.process o.process raw path = .ok (some processed) ∧
    if mapped then
      ∃ map, f.inherit (o.stripped processed) (Path.canonical path) = .ok (text, map)
    else text = o.stripped processed

/-- What is given as a text was loaded step by step. -/
theorem loads_of_given {f : Snapshot} {o : Options} {r : Renderer} {mapped : Bool}
    {path text : Text} {map : Option InheritedMap} (h : f.given o r mapped path = .ok ⟨some text, map⟩) :
    f.Loads o r mapped path text := by
  obtain ⟨raw, hread, h⟩ := bind_eq_ok.mp h
  obtain ⟨content, hprepare, h⟩ := bind_eq_ok.mp h
  have hread := mapError_eq_ok.mp hread
  cases mapped with
  | false =>
      obtain rfl : content = some text := congrArg Given.text (Except.ok.inj h)
      obtain ⟨processed, hprocess, hstripped⟩ := Renderer.exists_processed_of_prepare hprepare
      exact ⟨raw, processed, hread, hprocess, hstripped.symm⟩
  | true =>
      obtain ⟨stripped, hsome, h⟩ := bind_eq_ok.mp h
      obtain ⟨⟨cleaned, found⟩, hinherit, h⟩ := bind_eq_ok.mp h
      obtain rfl := Option.some.inj (congrArg Given.text (Except.ok.inj h))
      cases content with
      | none => cases hsome
      | some content =>
          obtain rfl := Except.ok.inj hsome
          obtain ⟨processed, hprocess, rfl⟩ := Renderer.exists_processed_of_prepare hprepare
          exact ⟨raw, processed, hread, hprocess, found, mapError_eq_ok.mp hinherit⟩

/-- Whether a path is there, and no directory. -/
def found (f : Snapshot) (path : Text) : Bool := f.contains path && !f.isDirectory path

end Snapshot

/-- Takes what a source brings. -/
def Merge.Loaded.take (l : Loaded) (path : Text) (g : Snapshot.Given) : Loaded :=
  { l with
    contents := l.contents.insert (Path.canonical path) g.text
    recorder := l.recorder.map (·.remember (Path.canonical path) (g.text.getD []) g.map) }

namespace Snapshot

/-- Loads one source. -/
def loadOne (f : Snapshot) (o : Options) (r : Renderer) (l : Merge.Loaded) (path : Text) :
    Except MergeFault Merge.Loaded :=
  (f.given o r l.recorder.isSome path).map (l.take path)

/-- Without a recorder a source brings its prepared text. -/
theorem loadOne_of_none {l : Merge.Loaded} (hl : l.recorder = none) (f : Snapshot) (o : Options)
    (r : Renderer) (path : Text) :
    f.loadOne o r l path =
      ((f.read path).mapError MergeFault.store).bind fun text =>
        (r.prepare o path text).bind fun content =>
          .ok { l with
            contents := l.contents.insert (Path.canonical path) content
            recorder := none } := by
  unfold loadOne given
  cases f.read path with
  | error fault => rfl
  | ok text =>
      cases hprep : r.prepare o path text <;>
        simp [hprep, hl, Except.mapError, Except.bind, bind, Except.map, pure, Except.pure,
          Merge.Loaded.take]

/-- With a recorder the map that a source inherits is remembered too. -/
theorem loadOne_of_some {l : Merge.Loaded} {recorder : Recorder} (hl : l.recorder = some recorder)
    (f : Snapshot) (o : Options) (r : Renderer) (path : Text) :
    f.loadOne o r l path =
      ((f.read path).mapError MergeFault.store).bind fun text =>
        (r.prepare o path text).bind fun content =>
          (Merge.requireText content).bind fun content =>
            (((f.inherit content (Path.canonical path)).map fun found =>
                (found.1, recorder.remember (Path.canonical path) found.1 found.2)).mapError
                  MergeFault.inherited).bind fun found =>
              .ok { l with
                contents := l.contents.insert (Path.canonical path) (some found.1)
                recorder := some found.2 } := by
  unfold loadOne given
  cases f.read path with
  | error fault => rfl
  | ok text =>
      cases hprep : r.prepare o path text with
      | error fault => simp [hprep, Except.mapError, Except.bind, bind, Except.map]
      | ok content =>
          cases hreq : Merge.requireText content with
          | error fault => simp [hprep, hl, hreq, Except.mapError, Except.bind, bind, Except.map]
          | ok content =>
              cases hinh : f.inherit content (Path.canonical path) <;>
                simp [hprep, hl, hreq, hinh, Except.mapError, Except.bind, bind, Except.map,
                  pure, Except.pure, Merge.Loaded.take]

/-- Goes through the sources. -/
def loadAll (f : Snapshot) (o : Options) (r : Renderer) (l : Merge.Loaded) :
    List Text → Except MergeFault Merge.Loaded
  | [] => .ok l
  | path :: rest =>
    if !f.contains path then
      f.loadAll o r { l with missing := l.missing ++ [Diagnostic.missingSource path] } rest
    else if f.isDirectory path then f.loadAll o r l rest
    else (f.loadOne o r l path).bind fun l => f.loadAll o r l rest

end Snapshot

/-! ## loading only asks -/

theorem Renderer.answers_render {σ : Type} {I : σ → Prop} (r : Renderer) (template : Text)
    (context : Entries) (name : Text) :
    Answers I ((r : Rendering (StateM σ)).render template context name)
      (r.render template context name) := by
  rw [Renderer.render_inMonad]
  exact Answers.ofExcept _

theorem Renderer.answers_prepare {σ : Type} {I : σ → Prop} (r : Renderer) (o : Options)
    (path content : Text) :
    Answers I (Merge.prepare o (r : Rendering (StateM σ)) path content)
      (r.prepare o path content) := by
  rw [Renderer.prepare_inMonad]
  exact Answers.ofExcept _

section Ask

variable {σ : Type} [FileStore (StateM σ)] [Journal (StateM σ)] {I : σ → Prop} {f : Snapshot}

theorem Shows.gives_fetch (h : Shows I f) (location : Location) :
    Gives I (location.fetch) (f.fetch location) := by
  cases location with
  | carried digits => exact Gives.pure _
  | file path => exact (h.gives_read path).bind (Gives.pure _)

theorem Shows.gives_loadMap (h : Shows I f) (file : Text) (location : Location) :
    Gives I (location.load file) (f.loadMap file location) :=
  (h.gives_fetch location).bind (Gives.pure _)

theorem Shows.answers_inherit (h : Shows I f) (content file : Text) :
    Answers I (Mapping.inherit content file) (f.inherit content file) := by
  unfold Mapping.inherit Snapshot.inherit
  cases findReference? content with
  | none => exact Answers.pure _
  | some reference =>
      obtain ⟨name, cleaned⟩ := reference
      refine (h.gives_loadMap file (locate file name)).bind_answers ?_
      cases hload : f.loadMap file (locate file name) with
      | ok map =>
          simp only [hload]
          exact (h.gives_report _ _ _).bind_answers (Answers.pure _)
      | error fault =>
          cases fault <;> simp only [hload]
          case mappingsNotText => exact Answers.throw _
          all_goals exact (h.gives_report _ _ _).bind_answers (Answers.pure _)

theorem Shows.answers_register (h : Shows I f) (recorder : Recorder) (path content : Text) :
    Answers I (recorder.register path content)
      ((f.inherit content (Path.canonical path)).map fun found =>
        (found.1, recorder.remember (Path.canonical path) found.1 found.2)) :=
  (h.answers_inherit content (Path.canonical path)).bind fun _ _ => Answers.pure _

theorem Shows.answers_loadOne (h : Shows I f) (o : Options) (r : Renderer) (l : Merge.Loaded)
    (path : Text) : Answers I (Merge.loadOne o r l path) (f.loadOne o r l path) := by
  unfold Merge.loadOne
  cases hrec : l.recorder with
  | none =>
      rw [Snapshot.loadOne_of_none hrec]
      refine (h.gives_read path).bind_answers ?_
      refine (Answers.ofExcept _).bind fun text _ => ?_
      exact (r.answers_prepare o path text).bind fun content _ => Answers.pure _
  | some recorder =>
      rw [Snapshot.loadOne_of_some hrec]
      refine (h.gives_read path).bind_answers ?_
      refine (Answers.ofExcept _).bind fun text _ => ?_
      refine (r.answers_prepare o path text).bind fun content _ => ?_
      refine (Answers.ofExcept _).bind fun content _ => ?_
      exact ((h.answers_register recorder path content).adapt _).bind fun _ _ => Answers.pure _

theorem Shows.answers_loadAll (h : Shows I f) (o : Options) (r : Renderer) (paths : List Text)
    (l : Merge.Loaded) : Answers I (Merge.loadAll o r l paths) (f.loadAll o r l paths) := by
  induction paths generalizing l with
  | nil => exact Answers.pure _
  | cons path rest ih =>
      rw [Merge.loadAll, Snapshot.loadAll]
      refine (h.gives_contains path).bind_answers ?_
      by_cases hmissing : (!f.contains path) = true
      · simp only [hmissing, if_true]
        exact ih _
      simp only [hmissing, if_false, Bool.false_eq_true]
      refine (h.gives_isDirectory path).bind_answers ?_
      by_cases hdir : f.isDirectory path = true
      · simp only [hdir, if_true]
        exact (h.gives_report _ _ _).bind_answers (ih l)
      · simp only [hdir, if_false, Bool.false_eq_true]
        exact (h.answers_loadOne o r l path).bind fun l' _ => ih l'

end Ask

/-! ## what is loaded -/

/-- Remembers what several sources bring, in order. -/
def Mapping.Recorder.rememberAll (r : Recorder) (gs : List (Text × Snapshot.Given)) : Recorder :=
  gs.foldl (fun r e => r.remember (Path.canonical e.1) (e.2.text.getD []) e.2.map) r

/-- Takes what several sources bring, in order. -/
def Merge.Loaded.takeAll (l : Loaded) (gs : List (Text × Snapshot.Given)) : Loaded :=
  gs.foldl (fun l e => l.take e.1 e.2) l

namespace Merge.Loaded

@[simp] theorem isSome_recorder_take (l : Loaded) (path : Text) (g : Snapshot.Given) :
    (l.take path g).recorder.isSome = l.recorder.isSome := by
  simp [take]

@[simp] theorem missing_takeAll (l : Loaded) (gs : List (Text × Snapshot.Given)) :
    (l.takeAll gs).missing = l.missing := by
  induction gs generalizing l with
  | nil => rfl
  | cons e gs ih => exact ih _

theorem contents_takeAll (l : Loaded) (gs : List (Text × Snapshot.Given)) :
    (l.takeAll gs).contents =
      Table.fill l.contents (gs.map fun e => (Path.canonical e.1, e.2.text)) := by
  induction gs generalizing l with
  | nil => rfl
  | cons e gs ih => exact ih _

theorem recorder_takeAll (l : Loaded) (gs : List (Text × Snapshot.Given)) :
    (l.takeAll gs).recorder = l.recorder.map (·.rememberAll gs) := by
  induction gs generalizing l with
  | nil => simp [takeAll, Recorder.rememberAll]
  | cons e gs ih =>
      rw [takeAll, List.foldl_cons]
      refine (ih (l.take e.1 e.2)).trans ?_
      cases hrec : l.recorder <;> simp [take, hrec, Recorder.rememberAll]

end Merge.Loaded

namespace Mapping.Recorder

/-- Remembering sources leaves the output and the place of its map alone. -/
theorem rememberAll_fields (r : Recorder) (gs : List (Text × Snapshot.Given)) :
    (r.rememberAll gs).dest = r.dest ∧ (r.rememberAll gs).delivery = r.delivery ∧
      (r.rememberAll gs).mapPath = r.mapPath := by
  induction gs generalizing r with
  | nil => exact ⟨rfl, rfl, rfl⟩
  | cons e gs ih => exact ih _

/-- Without maps that sources bring along, remembering only fills in their
texts. -/
theorem rememberAll_eq (r : Recorder) {gs : List (Text × Snapshot.Given)}
    (h : ∀ e ∈ gs, e.2.map = none) :
    r.rememberAll gs =
      { r with
        contents := Table.fill r.contents
          (gs.map fun e => (Path.canonical e.1, .text (e.2.text.getD []))) } := by
  induction gs generalizing r with
  | nil => rfl
  | cons e gs ih =>
      have htail := ih (r.remember (Path.canonical e.1) (e.2.text.getD []) e.2.map)
        fun e he => h e (List.mem_cons_of_mem _ he)
      rw [rememberAll, List.foldl_cons]
      refine htail.trans ?_
      simp [remember, h e List.mem_cons_self]

end Mapping.Recorder

namespace Snapshot

/-- What the sources that are found bring, in order. -/
def givens (f : Snapshot) (o : Options) (r : Renderer) (mapped : Bool) (sources : List Text) :
    Except MergeFault (List (Text × Given)) :=
  (sources.filter f.found).mapM fun path => (f.given o r mapped path).map (path, ·)

theorem givens_cons_of_not_found {f : Snapshot} {path : Text} (h : f.found path = false)
    (o : Options) (r : Renderer) (mapped : Bool) (rest : List Text) :
    f.givens o r mapped (path :: rest) = f.givens o r mapped rest := by
  simp [givens, h]

theorem givens_cons_of_found {f : Snapshot} {path : Text} (h : f.found path = true)
    (o : Options) (r : Renderer) (mapped : Bool) (rest : List Text) :
    f.givens o r mapped (path :: rest) =
      (f.given o r mapped path).bind fun g =>
        (f.givens o r mapped rest).map ((path, g) :: ·) := by
  simp only [givens, List.filter_cons, h, if_true, List.mapM_cons]
  cases f.given o r mapped path <;> rfl

/-- **Loading in closed form.**  The sources that are not there are noted, and
what the others bring is taken in order. -/
theorem loadAll_eq (f : Snapshot) (o : Options) (r : Renderer) (l : Merge.Loaded)
    (sources : List Text) :
    f.loadAll o r l sources =
      (f.givens o r l.recorder.isSome sources).map fun gs =>
        Merge.Loaded.takeAll
          { l with
            missing := l.missing ++
              (sources.filter (!f.contains ·)).map Diagnostic.missingSource } gs := by
  induction sources generalizing l with
  | nil => simp [loadAll, givens, Except.map, pure, Except.pure, Merge.Loaded.takeAll]
  | cons path rest ih =>
      rw [loadAll]
      by_cases hmissing : (!f.contains path) = true
      · have hfound : f.found path = false := by
          simp only [Bool.not_eq_true'] at hmissing
          simp [found, hmissing]
        rw [if_pos hmissing, ih, givens_cons_of_not_found hfound]
        simp [hmissing]
      rw [if_neg hmissing]
      have hthere : f.contains path = true := by simpa using hmissing
      by_cases hdir : f.isDirectory path = true
      · have hfound : f.found path = false := by simp [found, hdir]
        rw [if_pos hdir, ih, givens_cons_of_not_found hfound]
        simp [hthere]
      rw [if_neg hdir, loadOne]
      have hfound : f.found path = true := by simp [found, hthere, hdir]
      rw [givens_cons_of_found hfound, List.filter_cons, hthere]
      cases f.given o r l.recorder.isSome path with
      | error fault => rfl
      | ok g =>
          have htail := ih (l.take path g)
          rw [Merge.Loaded.isSome_recorder_take] at htail
          change f.loadAll o r (l.take path g) rest = _
          rw [htail]
          cases f.givens o r l.recorder.isSome rest <;> rfl

end Snapshot

end SourceMerge
