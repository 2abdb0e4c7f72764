import SourceMerge.Proofs.Mapping.Document
import SourceMerge.Proofs.Merge.Files
import SourceMerge.Proofs.Merge.Units

/-!
# SourceMerge.Proofs.Merge.Return

When a merge returns.  Banner and footer have to be rendered, the options have
to make sense, and every source that is found has to give a text.  Nothing else
can go wrong before the first file is written: ordering has no fault, and a map
that is not composed with others can always be finished, unless the output has
no path.
-/

namespace SourceMerge

open Mapping

namespace Snapshot

variable {f : Snapshot} {dest : Text} {sources : List Text} {o : Options} {r : Renderer}
  {start : Option Recorder} {gs : List (Text × Given)}

/-- The map of a merge can be finished, if no source brought one along. -/
theorem exists_finished (hdest : dest ≠ []) (hstart : Merge.startRecorder o dest = .ok start)
    (hown : ∀ e ∈ gs, e.2.map = none) (banner footer : Text) (units : List SourceText)
    (hunits : ∀ u ∈ units, u.path ≠ []) :
    ∃ map, f.finished o banner footer units (start.map (·.rememberAll gs)) = .ok map := by
  rcases Merge.startRecorder_eq_ok hstart with ⟨-, rfl⟩ | ⟨delivery, path, -, -, rfl⟩
  · exact ⟨none, rfl⟩
  · have hremember := Recorder.rememberAll_eq (Recorder.start dest delivery path) hown
    obtain ⟨cursor, hrecord⟩ := Recorder.recordOutput_eq
      (r := (Recorder.start dest delivery path).rememberAll gs)
      (by rw [hremember]; rfl) o banner footer units
    obtain ⟨hrdest, -, hrpath⟩ :=
      Recorder.rememberAll_fields (Recorder.start dest delivery path) gs
    have hempty : ((Recorder.start dest delivery path).rememberAll gs).entries = [] := by
      rw [hremember]
      rfl
    rw [hempty, List.nil_append] at hrecord
    rw [Option.map_some, finished, hrecord]
    generalize hr : ({ (Recorder.start dest delivery path).rememberAll gs with
      entries := _, cursor := cursor } : Recorder) = r'
    obtain ⟨document, hdoc⟩ := Recorder.exists_document? (r := r') f.workingDirectory
      (by rw [← hr]; exact hrdest ▸ hdest) (by
        intro e he
        rw [← hr] at he
        obtain ⟨before, u, after, _, _, _, rfl, _, _, rfl⟩ := Recorder.mem_unitEntries.mp he
        exact hunits u (by simp))
    obtain ⟨url, hurl⟩ := r'.delivery.exists_url? f.workingDirectory r'.dest document.serialized
      (show r'.mapPath ≠ [] by rw [← hr]; exact hrpath ▸ orBeside_ne_nil dest path)
    exact ⟨some ⟨r', document, url⟩, by simp only [Except.bind, hdoc, hurl]⟩

/-- What is loaded has texts, if every source gave one. -/
theorem exists_contents (htext : ∀ e ∈ gs, e.2.text.isSome = true) {l : Merge.Loaded}
    (hl : l.contents = []) :
    ∃ contents, (l.takeAll gs).contents.mapM
      (fun e => (Merge.requireText e.2).map (e.1, ·)) = .ok contents := by
  have hrows : ∀ row ∈ (l.takeAll gs).contents, row.2.isSome = true := by
    rw [Merge.Loaded.contents_takeAll, hl]
    refine @Table.forall_fill _ (fun text : Option Text => text.isSome = true) [] _
      (fun row hrow => absurd hrow List.not_mem_nil) fun row hrow => ?_
    obtain ⟨e, he, rfl⟩ := List.mem_map.mp hrow
    exact htext e he
  refine exists_mapM_eq_ok fun row hrow => ?_
  obtain ⟨text, htext⟩ := Option.isSome_iff_exists.mp (hrows row hrow)
  exact ⟨(row.1, text), by rw [htext]; rfl⟩

/-- The units of a graph that was built have paths. -/
theorem path_ne_nil_of_emission {root marker : Text} {contents : List (Text × Text)}
    {order : List Text} (h : Graph.Emission (Graph.build root marker contents) order)
    (separator : Text) :
    ∀ u ∈ (Graph.assembled separator (Graph.build root marker contents) order).units,
      u.path ≠ [] := by
  intro u hu
  have hpath : u.path ∈ order := Graph.paths_emittedUnits h ▸ List.mem_map_of_mem hu
  obtain ⟨path, hcanonical⟩ := Graph.canonical_of_mem_paths_build (h.units _ hpath)
  rw [hcanonical]
  exact Path.canonical_ne_nil path

/-- **When a merge has a plan.** -/
theorem exists_planInto {banner footer : Text} (hdest : dest ≠ [])
    (hbanner : r.render o.banner [] "banner" = .ok banner)
    (hfooter : r.render o.footer [] "footer" = .ok footer)
    (hstart : Merge.startRecorder o dest = .ok start)
    (hgivens : f.givens o r start.isSome sources = .ok gs)
    (htext : ∀ e ∈ gs, e.2.text.isSome = true) (hown : ∀ e ∈ gs, e.2.map = none) :
    ∃ p, f.planInto dest sources o r = .ok p := by
  obtain ⟨loaded, hloaded⟩ : ∃ loaded, loaded = Merge.Loaded.takeAll
      { recorder := start
        missing := (sources.filter (!f.contains ·)).map Diagnostic.missingSource } gs := ⟨_, rfl⟩
  have hload : f.loadAll o r { recorder := start } sources = .ok loaded := by
    rw [loadAll_eq, hgivens, hloaded]
    rfl
  obtain ⟨contents, hcontents⟩ : ∃ contents, loaded.contents.mapM
      (fun e => (Merge.requireText e.2).map (e.1, ·)) = .ok contents := by
    rw [hloaded]
    exact exists_contents htext rfl
  obtain ⟨order, horder, hassemble⟩ := Graph.assemble_eq_assembled
    (Graph.linked_build o.root Directive.defaultMarker contents) o.separator
  obtain ⟨map, hmap⟩ := exists_finished (f := f) hdest hstart hown banner footer _
    (path_ne_nil_of_emission horder o.separator)
  have hrecorder : loaded.recorder = start.map (·.rememberAll gs) := by
    rw [hloaded, Merge.Loaded.recorder_takeAll]
  rw [← hrecorder] at hmap
  unfold planInto
  rw [hbanner, hfooter, hstart]
  simp only [Except.mapError, Except.bind, hload, hcontents, hassemble, hmap]
  exact ⟨_, rfl⟩

end Snapshot

/-- **When a merge in memory returns**, with the options that are left of those
that are asked for. -/
theorem exists_merge_memory_checked {w : MemoryWorld} {dest : Text} {sources : List Text}
    {o o' : Options} {r : Renderer} {force : Bool} {notice : Option Diagnostic} {banner footer : Text}
    (hchecked : Merge.checked o force dest = .ok (o', notice)) (start : Option Recorder)
    (gs : List (Text × Snapshot.Given)) (hdest : dest ≠ [])
    (hbanner : r.render o'.banner [] "banner" = .ok banner)
    (hfooter : r.render o'.footer [] "footer" = .ok footer)
    (hstart : Merge.startRecorder o' dest = .ok start)
    (hgivens : w.memory.snapshot.givens o' r start.isSome sources = .ok gs)
    (hgs : ∀ e ∈ gs, e.2.text.isSome = true ∧ e.2.map = none) :
    ∃ out w', runAt (Merge.merge dest sources o force r) w = (.ok out, w') := by
  obtain ⟨p, hplan⟩ := Snapshot.exists_planInto hdest hbanner hfooter hstart hgivens
    (fun e he => (hgs e he).1) (fun e he => (hgs e he).2)
  obtain ⟨w₀, -, hrun⟩ := w.memory.shows.leads_merge dest sources o force r w rfl
  rw [Snapshot.plan, hchecked] at hrun
  simp only [Except.bind, hplan, Except.map] at hrun
  obtain ⟨w', hdeliver, -⟩ := runAt_deliver_memory dest { p with notice := notice } w₀
  exact ⟨_, w', hrun.trans hdeliver⟩

/-- The same with options that do not conflict. -/
theorem exists_merge_memory {w : MemoryWorld} {dest : Text} {sources : List Text} {o : Options}
    {r : Renderer} {banner footer : Text} (force : Bool) (start : Option Recorder)
    (gs : List (Text × Snapshot.Given)) (hdest : dest ≠ [])
    (hbanner : r.render o.banner [] "banner" = .ok banner)
    (hfooter : r.render o.footer [] "footer" = .ok footer) (hconf : Merge.conflicts o = false)
    (hstart : Merge.startRecorder o dest = .ok start)
    (hgivens : w.memory.snapshot.givens o r start.isSome sources = .ok gs)
    (hgs : ∀ e ∈ gs, e.2.text.isSome = true ∧ e.2.map = none) :
    ∃ out w', runAt (Merge.merge dest sources o force r) w = (.ok out, w') := by
  have hchecked : Merge.checked o force dest = .ok (o, none) := by simp [Merge.checked, hconf]
  exact exists_merge_memory_checked hchecked start gs hdest hbanner hfooter hstart hgivens hgs

/-! ## a small merge -/

/-- Two files, of which one depends on the other, and a directory. -/
def twoFiles : MemoryWorld :=
  { memory :=
      { files := [("a.js", "x\n"), ("b.js", "y = 1;\ndependsOn(\"a.js\")")]
        directories := ["lib"] } }

/-- Sources among which one is missing, one is a directory and one is given
twice. -/
def someSources : List Text := ["b.js", "none.js", "lib", "a.js", "a.js"]

theorem exists_merge_twoFiles (style : Text) {delivery : Delivery}
    (hstyle : Delivery.ofName? style = some delivery) :
    ∃ out w', runAt (Merge.merge "out.js" someSources { sourceMap := true, mapStyle := style } false
      Renderer.plain) twoFiles = (.ok out, w') := by
  have hstart : Merge.startRecorder { sourceMap := true, mapStyle := style } "out.js" =
      .ok (some (Recorder.start "out.js" delivery (some "out.js.map"))) := by
    simp only [Merge.startRecorder, hstyle]
    rfl
  have hfit : Merge.conflicts { sourceMap := true, mapStyle := style } = false := Bool.and_false _
  refine exists_merge_memory false _ [("b.js", ⟨some "y = 1;\ndependsOn(\"a.js\")", none⟩),
    ("a.js", ⟨some "x\n", none⟩), ("a.js", ⟨some "x\n", none⟩)] ?_ rfl rfl hfit hstart rfl ?_
  · simp
  · simp

/-- None of them brings a map along. -/
theorem map_of_given_twoFiles (style : Text) : ∀ path ∈ someSources,
    twoFiles.memory.snapshot.found path = true → ∀ g, twoFiles.memory.snapshot.given
      { sourceMap := true, mapStyle := style } .plain true path = .ok g → g.map = none := by
  intro path hpath hfound g hgiven
  simp only [someSources, List.mem_cons, List.not_mem_nil, or_false] at hpath
  rcases hpath with rfl | rfl | rfl | rfl | rfl
  · rw [← Except.ok.inj hgiven]
  · contradiction
  · contradiction
  · rw [← Except.ok.inj hgiven]
  · rw [← Except.ok.inj hgiven]

end SourceMerge
