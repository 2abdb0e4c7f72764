import SourceMerge.Proofs.Graph.Order
import SourceMerge.Proofs.Merge.Plan
import SourceMerge.Proofs.Path.Canonical

/-!
# SourceMerge.Proofs.Merge.Units

The units of a plan.  Loading keeps one text for each canonical path, the one
that was given last, so the units of a merge are the canonical paths of the
sources that are found, each once, and every unit is the text of its path
without directives.
-/

namespace SourceMerge

open Mapping

/-! ## the sources of a plan -/

/-- The text that a plan has under a path. -/
def Plan.textAt (p : Plan) (key : Text) : Text := (Table.get? p.contents key).getD []

/-- The same text without its directives. -/
def Plan.strippedAt (p : Plan) (key : Text) : Directive.Stripped :=
  Directive.strip Directive.defaultMarker (p.textAt key)

namespace Snapshot

variable {f : Snapshot} {o : Options} {r : Renderer} {mapped : Bool} {sources : List Text}
  {gs : List (Text × Given)}

/-- What is given comes from the sources that are found, one by one. -/
theorem map_fst_givens (h : f.givens o r mapped sources = .ok gs) :
    gs.map (·.1) = sources.filter f.found := by
  rw [givens, mapM_eq_ok] at h
  generalize sources.filter f.found = found at h
  induction h with
  | nil => rfl
  | cons hrow _ ih =>
      obtain ⟨g, -, rfl⟩ := map_eq_ok.mp hrow
      rw [List.map_cons, ih]

theorem source_of_mem (h : f.givens o r mapped sources = .ok gs) {e : Text × Given} (he : e ∈ gs) :
    e.1 ∈ sources ∧ f.found e.1 = true := by
  have hsource : e.1 ∈ sources.filter f.found := map_fst_givens h ▸ List.mem_map_of_mem he
  exact List.mem_filter.mp hsource

theorem given_of_mem (h : f.givens o r mapped sources = .ok gs) {e : Text × Given} (he : e ∈ gs) :
    f.given o r mapped e.1 = .ok e.2 := by
  obtain ⟨path, -, hrow⟩ := exists_of_mapM_eq_ok h he
  obtain ⟨g, hg, rfl⟩ := map_eq_ok.mp hrow
  exact hg

/-- The last source of a canonical path. -/
def lastSource? (f : Snapshot) (sources : List Text) (key : Text) : Option Text :=
  (sources.filter fun path => f.found path && Path.canonical path == key).getLast?

namespace Planned

variable {dest : Text} {start : Option Recorder} {p : Plan}

theorem keys_contents (h : f.Planned dest sources o r start gs p) :
    p.contents.map (·.1) =
      Table.keys (Table.fill [] (gs.map fun e => (Path.canonical e.1, e.2.text))) := by
  have hrows := h.contents
  rw [h.loaded, Merge.Loaded.contents_takeAll] at hrows
  rw [hrows]
  simp [Table.keys]

theorem nodup_contents (h : f.Planned dest sources o r start gs p) :
    (p.contents.map (·.1)).Nodup := by
  rw [h.keys_contents]
  exact Table.nodup_keys_fill (by simp [Table.keys]) _

/-- The texts of a merge stand under the canonical paths of the sources that are
found. -/
theorem mem_contents_iff (h : f.Planned dest sources o r start gs p) {key : Text} :
    key ∈ p.contents.map (·.1) ↔
      ∃ path ∈ sources, f.found path = true ∧ Path.canonical path = key := by
  rw [h.keys_contents, Table.mem_keys_fill]
  constructor
  · rintro (hnil | hmem)
    · simp [Table.keys] at hnil
    · obtain ⟨row, hrow, rfl⟩ := List.mem_map.mp hmem
      obtain ⟨e, he, rfl⟩ := List.mem_map.mp hrow
      obtain ⟨hpath, hfound⟩ := source_of_mem h.givens he
      exact ⟨e.1, hpath, hfound, rfl⟩
  · rintro ⟨path, hpath, hfound, rfl⟩
    have hmem : path ∈ gs.map (·.1) :=
      map_fst_givens h.givens ▸ List.mem_filter.mpr ⟨hpath, hfound⟩
    obtain ⟨e, he, rfl⟩ := List.mem_map.mp hmem
    exact .inr (List.mem_map.mpr ⟨_, List.mem_map_of_mem he, rfl⟩)

theorem canonical_contents (h : f.Planned dest sources o r start gs p) :
    ∀ e ∈ p.contents, Path.canonical e.1 = e.1 := by
  intro e he
  obtain ⟨path, -, -, hkey⟩ := h.mem_contents_iff.mp (List.mem_map_of_mem he)
  rw [← hkey, Path.canonical_canonical]

/-- The text under a path is what the last source of that path gave. -/
theorem last_of_mem_contents (h : f.Planned dest sources o r start gs p) {key text : Text}
    (hmem : (key, text) ∈ p.contents) :
    ∃ before e after, gs = before ++ e :: after ∧ Path.canonical e.1 = key ∧
      e.2.text = some text ∧ ∀ d ∈ after, Path.canonical d.1 ≠ key := by
  have hrow : Table.get? p.loaded.contents key = some (some text) := by
    rw [h.contents]
    refine Table.get?_of_mem ?_ (List.mem_map.mpr ⟨_, hmem, rfl⟩)
    rw [Table.keys, List.map_map]
    exact h.nodup_contents
  rw [h.loaded, Merge.Loaded.contents_takeAll, Table.get?_fill, Table.get?_nil,
    Option.or_none] at hrow
  obtain ⟨before, after, hsplit, hlast⟩ := Table.last_row_of_get?_reverse hrow
  obtain ⟨gb, rest, rfl, -, hrest⟩ := List.map_eq_append_iff.mp hsplit
  obtain ⟨e, ga, rfl, he, rfl⟩ := List.map_eq_cons_iff.mp hrest
  rw [Prod.mk.injEq] at he
  refine ⟨gb, e, ga, rfl, he.1, he.2, fun d hd hkey => hlast ?_⟩
  exact List.mem_map.mpr ⟨_, List.mem_map_of_mem hd, hkey⟩

/-! ## the units of a plan -/

/-- The graph of a plan. -/
theorem build_contents (h : f.Planned dest sources o r start gs p) :
    Graph.ofSources Directive.defaultMarker p.contents =
      ⟨p.contents.map fun e =>
        SourceText.ofStripped e.1 e.2 (Directive.strip Directive.defaultMarker e.2)⟩ :=
  Graph.ofSources_eq h.canonical_contents h.nodup_contents

theorem paths_build (h : f.Planned dest sources o r start gs p) :
    (Graph.build o.root Directive.defaultMarker p.contents).paths = p.contents.map (·.1) := by
  rw [Graph.build_eq_withEdges, Graph.paths_withEdges, h.build_contents]
  simp [Graph.paths, SourceText.ofStripped]

/-- A plan orders the units in some order in which they can be emitted. -/
theorem assembly_eq (h : f.Planned dest sources o r start gs p) :
    ∃ order, Graph.Emission (Graph.build o.root Directive.defaultMarker p.contents) order ∧
      p.assembly.units.map (·.path) = order ∧
      p.assembly = Graph.assembled o.separator
        (Graph.build o.root Directive.defaultMarker p.contents) order := by
  obtain ⟨order, horder, hassemble⟩ := Graph.assemble_eq_assembled
    (Graph.linked_build o.root Directive.defaultMarker p.contents) o.separator
  rw [h.assembly] at hassemble
  obtain heq := Except.ok.inj hassemble
  refine ⟨order, horder, ?_, heq⟩
  rw [heq]
  exact Graph.paths_emittedUnits horder

/-- An emitted unit is the text of its path without directives. -/
theorem unit_of_mem (h : f.Planned dest sources o r start gs p) {u : SourceText}
    (hu : u ∈ p.assembly.units) :
    (u.path, p.textAt u.path) ∈ p.contents ∧ u.content = (p.strippedAt u.path).content ∧
      u.origins = (p.strippedAt u.path).origins := by
  obtain ⟨order, -, -, heq⟩ := h.assembly_eq
  rw [heq] at hu
  obtain ⟨q, -, hq⟩ := List.mem_filterMap.mp hu
  obtain ⟨b, hb, rfl⟩ := Option.map_eq_some_iff.mp hq
  rw [Graph.build_eq_withEdges, Graph.get?_withEdges, h.build_contents] at hb
  obtain ⟨v, hv, rfl⟩ := Option.map_eq_some_iff.mp hb
  obtain ⟨e, he, rfl⟩ := List.mem_map.mp (Graph.mem_units_of_get? hv)
  have htext : p.textAt e.1 = e.2 := by
    rw [Plan.textAt, Table.get?_of_mem h.nodup_contents he, Option.getD_some]
  refine ⟨?_, ?_, ?_⟩
  · change (e.1, p.textAt e.1) ∈ p.contents
    rw [htext]
    exact he
  · change _ = (Directive.strip _ (p.textAt e.1)).content
    rw [htext]
    rfl
  · change _ = (Directive.strip _ (p.textAt e.1)).origins
    rw [htext]
    rfl

/-- The emitted contents, by the emitted paths. -/
theorem contents_units (h : f.Planned dest sources o r start gs p) :
    p.assembly.units.map (·.content) =
      (p.assembly.units.map (·.path)).map fun key => (p.strippedAt key).content := by
  rw [List.map_map]
  exact List.map_congr_left fun u hu => (h.unit_of_mem hu).2.1

/-- The assembled text of a plan. -/
theorem output_assembly (h : f.Planned dest sources o r start gs p) :
    p.assembly.output = Text.joinWith o.separator (p.assembly.units.map (·.content)) := by
  obtain ⟨order, -, -, heq⟩ := h.assembly_eq
  rw [heq]
  rfl

/-! ## where the texts come from -/

/-- A merge begins with a recorder exactly if it is mapped. -/
theorem isSome_start (h : f.Planned dest sources o r start gs p) : start.isSome = o.sourceMap := by
  rcases Merge.startRecorder_eq_ok h.begins with ⟨hoff, rfl⟩ | ⟨_, _, hon, -, rfl⟩
  · rw [hoff]
    rfl
  · rw [hon]
    rfl

/-- The text under a path is what the last source of that path brought. -/
theorem lastSource_of_mem (h : f.Planned dest sources o r start gs p) {key text : Text}
    (hmem : (key, text) ∈ p.contents) :
    ∃ path map, f.lastSource? sources key = some path ∧
      f.given o r o.sourceMap path = .ok ⟨some text, map⟩ := by
  obtain ⟨before, e, after, hgs, hkey, htext, hlast⟩ := h.last_of_mem_contents hmem
  have hgiven := given_of_mem h.givens (e := e) (by simp [hgs])
  obtain ⟨path, g, map⟩ := e
  obtain rfl : g = some text := htext
  refine ⟨path, map, ?_, h.isSome_start ▸ hgiven⟩
  have hafter : (after.map (·.1)).filter (Path.canonical · == key) = [] := by
    rw [List.filter_eq_nil_iff]
    intro q hq
    obtain ⟨d, hd, rfl⟩ := List.mem_map.mp hq
    simpa using hlast d hd
  have hsplit : (sources.filter f.found).filter (Path.canonical · == key) =
      (before.map (·.1)).filter (Path.canonical · == key) ++ [path] := by
    rw [← map_fst_givens h.givens, hgs, List.map_append, List.map_cons, List.filter_append,
      List.filter_cons, hafter]
    simp [show Path.canonical path = key from hkey]
  rw [List.filter_filter] at hsplit
  rw [lastSource?, List.getLast?_eq_some_iff]
  refine ⟨_, Eq.trans (List.filter_congr fun q _ => ?_) hsplit⟩
  rw [Bool.and_comm]

end Planned

end Snapshot

end SourceMerge
