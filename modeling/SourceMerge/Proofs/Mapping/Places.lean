import SourceMerge.Proofs.Mapping.Inherited
import SourceMerge.Proofs.Path.Way
import SourceMerge.Proofs.Store.Snapshot

/-!
# SourceMerge.Proofs.Mapping.Places

Where the names in a finished map lead.  A map that is a file names its output and
its sources by the ways from its own directory, and the output names the map by the
way from the directory of the output.  A reader who follows them arrives, however
the paths were spelled when they were recorded.
-/

namespace SourceMerge.Mapping.Recorder

/-- From the directory of its map path, a document leads to its output and to its
sources. -/
theorem leadsFrom_document {wd : Text} (hwd : Path.isAbsolute wd = true) {r : Recorder}
    {d : Document} (h : r.document? wd = some d) :
    List.Forall₂ (Path.LeadsFrom wd r.mapPath) (d.file :: d.sources) (r.dest :: r.sources) := by
  obtain ⟨hfile, hsources⟩ := document?_paths h
  rw [hfile, hsources]
  refine .cons (Path.leadsFrom_relativeTo hwd _ _) ?_
  rw [List.forall₂_map_left_iff, List.forall₂_same]
  exact fun source _ => Path.leadsFrom_relativeTo hwd _ source

/-- The url of a map that is a file is the way to it. -/
theorem url?_of_isFile {delivery : Delivery} (hfile : delivery.isFile = true)
    (wd dest serialized : Text) {mapPath : Text} (h : mapPath ≠ []) :
    delivery.url? wd dest mapPath serialized =
      some (Path.relativeTo wd (Path.directory dest) mapPath) := by
  cases delivery with
  | inline => contradiction
  | embed => exact if_neg h
  | link => exact if_neg h

section Run

variable {σ : Type} [FileStore (StateM σ)] [Journal (StateM σ)]

/-- Finishing a map that is a file, step by step. -/
theorem runAt_finish_file {s s₁ : σ} {wd : Text}
    (hask : StateT.run (FileStore.workingDirectory : StateM σ Text) s = (wd, s₁)) {r : Recorder}
    (hfile : r.delivery.isFile = true) {d : Document} (hdoc : r.document? wd = some d) {url : Text}
    (hurl : r.delivery.url? wd r.dest r.mapPath d.serialized = some url) :
    runAt r.finish s =
      match StateT.run (FileStore.write r.mapPath d.serialized :
        StateM σ (Except StoreFault Unit)) s₁ with
      | (.error fault, s') => (.error (.unwritable fault), s')
      | (.ok _, s') =>
        (.ok (referenceComment r.dest url, { r with written := true }),
          (StateT.run (report .info speaker ("Source map " ++ r.mapPath ++ " created.") :
            StateM σ Unit) s').2) := by
  rw [finish, runAt_bind]
  simp only [runAt_liftM, hask, hdoc, store, hfile, if_true]
  rw [runAt_bind, runAt_bind, runAt_lift]
  cases StateT.run (FileStore.write r.mapPath d.serialized : StateM σ (Except StoreFault Unit)) s₁ with
  | mk result s' =>
      cases result with
      | error fault => rfl
      | ok _ =>
          simp only [runAt_bind, runAt_liftM, runAt_pure, hurl]

/-- **Where the names in a map file lead.**  Finishing a map that is a file stores a
document and answers with the comment of a url.  Followed from the directory of the
map, the names in the document lead to the output and to the sources that were
recorded; followed from the directory of the output, the url leads to the map. -/
theorem finish_names_lead {s s₁ : σ} {wd : Text}
    (hask : StateT.run (FileStore.workingDirectory : StateM σ Text) s = (wd, s₁))
    (hwd : Path.isAbsolute wd = true) {r : Recorder} (hfile : r.delivery.isFile = true)
    (hdest : r.dest ≠ []) (hpath : r.mapPath ≠ []) (hsources : ∀ e ∈ r.entries, e.source ≠ []) :
    ∃ (d : Document) (url : Text),
      runAt r.finish s =
        (match StateT.run (FileStore.write r.mapPath d.serialized :
          StateM σ (Except StoreFault Unit)) s₁ with
        | (.error fault, s') => (.error (.unwritable fault), s')
        | (.ok _, s') =>
          (.ok (referenceComment r.dest url, { r with written := true }),
            (StateT.run (report .info speaker ("Source map " ++ r.mapPath ++ " created.") :
              StateM σ Unit) s').2)) ∧
      List.Forall₂ (Path.LeadsFrom wd r.mapPath) (d.file :: d.sources) (r.dest :: r.sources) ∧
      Path.LeadsFrom wd r.dest url r.mapPath := by
  obtain ⟨d, hdoc⟩ := exists_document? wd hdest hsources
  have hurl := url?_of_isFile hfile wd r.dest d.serialized hpath
  exact ⟨d, _, runAt_finish_file hask hfile hdoc hurl, leadsFrom_document hwd hdoc,
    Path.leadsFrom_relativeTo hwd r.dest r.mapPath⟩

end Run

/-- A map below its output, with sources beside it, above the working directory and
at the root. -/
def spread : Recorder :=
  { dest := "dist/app.js"
    delivery := .link
    mapPath := "dist/maps/app.js.map"
    entries :=
      [⟨⟨1, 0⟩, "dist/./maps/../a.js", ⟨1, 0⟩⟩, ⟨⟨2, 0⟩, "../../b.js", ⟨1, 0⟩⟩,
        ⟨⟨3, 0⟩, "///lib//c.js", ⟨4, 2⟩⟩] }

theorem finish_names_lead_spread :
    ∃ (d : Document) (url : Text) (w : MemoryWorld),
      runAt spread.finish ({ memory := { workingDirectory := "/work" } } : MemoryWorld) =
        (.ok (referenceComment "dist/app.js" url, { spread with written := true }), w) ∧
      List.Forall₂ (Path.LeadsFrom "/work" "dist/maps/app.js.map") (d.file :: d.sources)
        ["dist/app.js", "dist/./maps/../a.js", "../../b.js", "///lib//c.js"] ∧
      Path.LeadsFrom "/work" "dist/app.js" url "dist/maps/app.js.map" := by
  have hask : StateT.run (FileStore.workingDirectory : StateM MemoryWorld Text)
      { memory := { workingDirectory := "/work" } } =
        ("/work".toList, { memory := { workingDirectory := "/work" } }) := rfl
  obtain ⟨d, url, hrun, hnames, hurl⟩ :=
    finish_names_lead hask (by decide) (r := spread) rfl (by decide) (by decide) (by decide)
  exact ⟨d, url, _, hrun, hnames, hurl⟩

end SourceMerge.Mapping.Recorder
