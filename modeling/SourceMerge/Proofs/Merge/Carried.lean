import SourceMerge.Proofs.Mapping.Places
import SourceMerge.Proofs.Merge.Faithful

/-!
# SourceMerge.Proofs.Merge.Carried

The names in a map that an output carries.  A map that is carried is still given the
path of a file, and the names in it are ways from the directory of that file, which
is never written.  Whoever reads the map has only the output at hand.  So the names
lead from the output where they were meant to lead if the two directories are one,
and in general exactly if they meet (`Path.leadsFrom_iff_meets`).
-/

namespace SourceMerge

open Mapping

section Run

variable {σ : Type} [FileStore (StateM σ)] [Journal (StateM σ)] {I : σ → Prop} {f : Snapshot}

/-- What a merge stores whose output carries its map. -/
theorem Shows.carries_document (h : Shows I f) {dest : Text} {sources : List Text} {o : Options}
    {force : Bool} {r : Renderer} {s s' : σ} {out : Outcome} (hs : I s)
    (hrun : runAt (Merge.merge dest sources o force r) s = (.ok out, s'))
    (hmap : o.sourceMap = true) (hstyle : Delivery.ofName? o.mapStyle = some .inline) :
    ∃ (path : Option Text) (gs : List (Text × Snapshot.Given)) (banner footer : Text)
      (units : List SourceText) (recorder : Recorder) (document : Document) (s₁ : σ),
      o.mapName.path? dest = .ok path ∧
      f.givens o r true sources = .ok gs ∧
      r.render o.banner [] "banner" = .ok banner ∧
      r.render o.footer [] "footer" = .ok footer ∧
      units.map (·.path) = out.emitted ∧
      Merge.recordOutput o banner footer units
        ((Recorder.start dest .inline path).rememberAll gs) = .ok recorder ∧
      recorder.document? f.workingDirectory = some document ∧
      recorder.dest = dest ∧ recorder.mapPath = orBeside dest path ∧
      Stores dest
        (banner ++ Text.joinWith o.separator (units.map (·.content)) ++ footer ++
          referenceComment dest
            (Delivery.carriedHead ++ Base64.encode (Text.toUtf8 document.serialized))) s₁ s' := by
  obtain ⟨p, hplan, rfl, s₀, s₁, -, -, hstores⟩ := h.stores_of_merge hs hrun
  obtain ⟨o', start, gs, hchecked, hp⟩ := Snapshot.planned_of_plan hplan
  have hconf := Merge.conflicts_of_embedsSources hstyle rfl
  obtain ⟨rfl, -⟩ := Merge.checked_fields hchecked
  have hmapped : Merge.isMapped o = true := by simp [Merge.isMapped, hmap, hconf]
  obtain ⟨path, x, hpath, hx, hsame, hrecord⟩ := hp.exists_mapped hmapped hstyle
  have hcomment : p.comment = referenceComment dest
      (Delivery.carriedHead ++ Base64.encode (Text.toUtf8 x.document.serialized)) := by
    have hnamed := hp.comment_eq
    rw [if_pos hmapped] at hnamed
    obtain ⟨y, delivery, hy, hstyle', -, hurl, hcomment⟩ := hnamed
    obtain rfl : x = y := Option.some.inj (hx.symm.trans hy)
    obtain rfl : Delivery.inline = delivery := Option.some.inj (hstyle.symm.trans hstyle')
    rw [hcomment, ← Option.some.inj hurl]
  refine ⟨path, gs, p.banner, p.footer, p.assembly.units, x.recorder, x.document, s₁, hpath, ?_,
    hp.banner, hp.footer, rfl, hrecord, hp.document_eq hx, hsame.dest, hsame.mapPath, ?_⟩
  · have hgivens := hp.givens
    rw [hp.isSome_start, hmapped] at hgivens
    exact hgivens
  · rw [Plan.output, hp.output_assembly, hcomment] at hstores
    exact hstores

/-! ## names that are carried -/

/-- **Where the names in a carried map lead.**  Take a merge that returns, with a map
that its output carries.  The names in the map lead to the output and to the recorded
sources from the path that the map would have as a file, and from the output exactly
as far as the directories of the two paths meet.  So all names lead there from the
output if the directories are one. -/
theorem merge_carries_names (h : Shows I f) (hwd : Path.isAbsolute f.workingDirectory = true)
    {dest : Text} {sources : List Text} {o : Options} {force : Bool} {r : Renderer} {s s' : σ}
    {out : Outcome} (hs : I s)
    (hrun : runAt (Merge.merge dest sources o force r) s = (.ok out, s'))
    (hmap : o.sourceMap = true) (hstyle : Delivery.ofName? o.mapStyle = some .inline) :
    ∃ (path : Option Text) (gs : List (Text × Snapshot.Given)) (banner footer : Text)
      (units : List SourceText) (recorder : Recorder) (document : Document) (s₁ : σ),
      o.mapName.path? dest = .ok path ∧
      f.givens o r true sources = .ok gs ∧
      r.render o.banner [] "banner" = .ok banner ∧
      r.render o.footer [] "footer" = .ok footer ∧
      units.map (·.path) = out.emitted ∧
      Merge.recordOutput o banner footer units
        ((Recorder.start dest .inline path).rememberAll gs) = .ok recorder ∧
      recorder.document? f.workingDirectory = some document ∧
      Stores dest
        (banner ++ Text.joinWith o.separator (units.map (·.content)) ++ footer ++
          referenceComment dest
            (Delivery.carriedHead ++ Base64.encode (Text.toUtf8 document.serialized))) s₁ s' ∧
      List.Forall₂ (fun name place =>
          Path.LeadsFrom f.workingDirectory (orBeside dest path) name place ∧
          (Path.LeadsFrom f.workingDirectory dest name place ↔
            Path.Meets f.workingDirectory (Path.directory (orBeside dest path))
              (Path.directory dest) place))
        (document.file :: document.sources) (dest :: recorder.sources) ∧
      (Path.located f.workingDirectory (Path.directory (orBeside dest path)) =
          Path.located f.workingDirectory (Path.directory dest) →
        List.Forall₂ (Path.LeadsFrom f.workingDirectory dest)
          (document.file :: document.sources) (dest :: recorder.sources)) := by
  obtain ⟨path, gs, banner, footer, units, recorder, document, s₁, hpath, hgivens, hbanner, hfooter,
    hunits, hrecord, hdoc, hdest, hmapPath, hstores⟩ := h.carries_document hs hrun hmap hstyle
  obtain ⟨hfile, hnames⟩ := Recorder.document?_paths hdoc
  rw [hdest, hmapPath] at hfile
  rw [hmapPath] at hnames
  have hmeets : List.Forall₂ (fun name place =>
      Path.LeadsFrom f.workingDirectory (orBeside dest path) name place ∧
      (Path.LeadsFrom f.workingDirectory dest name place ↔
        Path.Meets f.workingDirectory (Path.directory (orBeside dest path))
          (Path.directory dest) place))
      (document.file :: document.sources) (dest :: recorder.sources) := by
    have hway : ∀ place, _ ∧ _ := fun place =>
      ⟨Path.leadsFrom_relativeTo hwd (orBeside dest path) place,
        Path.leadsFrom_iff_meets hwd (orBeside dest path) dest place⟩
    rw [hfile, hnames, List.forall₂_cons, List.forall₂_map_left_iff, List.forall₂_same]
    exact ⟨hway dest, fun place _ => hway place⟩
  exact ⟨path, gs, banner, footer, units, recorder, document, s₁, hpath, hgivens, hbanner, hfooter,
    hunits, hrecord, hdoc, hstores, hmeets, fun hone => hmeets.imp fun name place hname =>
      hname.2.mpr (Path.meets_of_located_eq hone place)⟩

end Run

/-- One file in a directory below the root. -/
def oneFileBelow : MemoryWorld :=
  { memory := { files := [("a.js", "x\n")], workingDirectory := "/work" } }

/-- Options for a map that the output carries, with a name that it does not need. -/
def carriedAs (name : Text) : Options :=
  { sourceMap := true, mapStyle := "inline", mapName := .fixed name }

theorem exists_merge_oneFileBelow (name : Text) (h : name ≠ []) :
    ∃ out w', runAt (Merge.merge "out.js" ["a.js"] (carriedAs name) false Renderer.plain)
        oneFileBelow =
      (.ok out, w') := by
  have hstart : Merge.startRecorder (carriedAs name) "out.js" =
      .ok (some (Recorder.start "out.js" .inline (some name))) := by
    have hpath : (carriedAs name).mapName.path? "out.js" = .ok (some name) := by
      simp [carriedAs, MapName.path?, h]
    rw [Merge.startRecorder, hpath]
    rfl
  exact exists_merge_memory false _ [("a.js", ⟨some "x\n", none⟩)] (by simp) rfl rfl rfl hstart rfl
    (by simp)

theorem merge_carries_names_beside :
    ∃ out w' before document s₁,
      runAt (Merge.merge "out.js" ["a.js"] (carriedAs "./out.map") false Renderer.plain)
        oneFileBelow =
        (.ok out, w') ∧
      Stores "out.js" (before ++ referenceComment "out.js" (Delivery.carriedHead ++
        Base64.encode (Text.toUtf8 (Document.serialized document)))) s₁ w' ∧
      Path.LeadsFrom "/work" "out.js" document.file "out.js" := by
  obtain ⟨out, w', hrun⟩ := exists_merge_oneFileBelow "./out.map" (by decide)
  obtain ⟨path, _, _, _, _, _, document, s₁, hpath, -, -, -, -, -, -, hstores, -, hnames⟩ :=
    merge_carries_names oneFileBelow.memory.shows rfl rfl hrun rfl
      (show Delivery.ofName? "inline".toList = some .inline from rfl)
  obtain rfl : some "./out.map".toList = path := Except.ok.inj hpath
  have hone : Path.located "/work" (Path.directory (orBeside "out.js" (some "./out.map"))) =
      Path.located "/work" (Path.directory "out.js") := by decide
  exact ⟨out, w', _, document, s₁, hrun, hstores, (List.forall₂_cons.mp (hnames hone)).1⟩

/-- **A carried map can lose its output.**  Where the path of the map is in another
directory, the name of the output in the map that it carries leads past it. -/
theorem merge_carries_lost_name :
    ∃ out w' before document s₁,
      runAt (Merge.merge "out.js" ["a.js"] (carriedAs "maps/out.map") false Renderer.plain)
        oneFileBelow =
        (.ok out, w') ∧
      Stores "out.js" (before ++ referenceComment "out.js" (Delivery.carriedHead ++
        Base64.encode (Text.toUtf8 (Document.serialized document)))) s₁ w' ∧
      document.file = "../out.js".toList ∧
      ¬ Path.LeadsFrom "/work" "out.js" document.file "out.js" := by
  obtain ⟨out, w', hrun⟩ := exists_merge_oneFileBelow "maps/out.map" (by decide)
  obtain ⟨path, _, _, _, _, recorder, document, s₁, hpath, -, -, -, -, -, hdoc, hdest, hmapPath,
    hstores⟩ := oneFileBelow.memory.shows.carries_document rfl hrun rfl
      (show Delivery.ofName? "inline".toList = some .inline from rfl)
  obtain rfl : some "maps/out.map".toList = path := Except.ok.inj hpath
  have hfile : document.file = "../out.js".toList := by
    rw [(Recorder.document?_paths hdoc).1, hdest, hmapPath]
    decide
  have hlost : Path.located "/work" (Path.join (Path.directory "out.js") "../out.js") ≠
      Path.located "/work" "out.js" := by decide
  refine ⟨out, w', _, document, s₁, hrun, hstores, hfile, fun hleads => hlost ?_⟩
  rw [← hleads.located, hfile]

end SourceMerge
