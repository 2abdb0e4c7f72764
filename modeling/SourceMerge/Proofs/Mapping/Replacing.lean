import Mathlib.Data.List.Induction
import SourceMerge.Proofs.Mapping.Steps
import SourceMerge.Proofs.Merge.Loading

/-!
# SourceMerge.Proofs.Mapping.Replacing

Sources that are registered again.  A registration sets two tables under the canonical
path, one always and one only if it has something to set:

```
register k     contents of k           inherited map of k
text           its text                as before
text + map     its text                its map
```

So the text that was registered last replaces the earlier ones, but a map stays until
another one comes.  A path is *stale* if its last registration brings no map and an
earlier one did.

What is recorded afterwards depends on the tables by their look-ups only (`Agree`), and a
unit looks up the map of its own path.  So for units whose paths are not stale, recording
is the same as if only the last registration of each path had been made; and of a stale
path some unit is recorded differently.
-/

namespace SourceMerge

open Mapping

/-! ## what is registered -/

namespace Snapshot

/-- What sources are registered as, in order: the canonical path, the text without the
reference to its map, and the map if it can be used.  A source whose map ends the
registration with a fault is not registered. -/
def registered (f : Snapshot) (sources : List (Text × Text)) :
    List (Text × Text × Option InheritedMap) :=
  sources.filterMap fun source =>
    (f.inherit source.2 (Path.canonical source.1)).toOption.map (Path.canonical source.1, ·)

/-- The sources without those whose path is registered again behind them. -/
def lastOnes (f : Snapshot) : List (Text × Text) → List (Text × Text)
  | [] => []
  | source :: rest =>
    if Path.canonical source.1 ∈ Table.keys (f.registered rest) then f.lastOnes rest
    else source :: f.lastOnes rest

/-- The last registration of a path brings no map, and an earlier one did. -/
def Stale (f : Snapshot) (sources : List (Text × Text)) (key : Text) : Prop :=
  (∃ cleaned, Table.get? (f.registered sources).reverse key = some (cleaned, none)) ∧
    ∃ cleaned map, (key, cleaned, some map) ∈ f.registered sources

theorem registered_cons (f : Snapshot) (source : Text × Text) (rest : List (Text × Text)) :
    f.registered (source :: rest) =
      ((f.inherit source.2 (Path.canonical source.1)).toOption.map
        (Path.canonical source.1, ·)).toList ++ f.registered rest := by
  unfold registered
  rw [List.filterMap_cons]
  cases (f.inherit source.2 (Path.canonical source.1)).toOption <;> rfl

theorem registered_append (f : Snapshot) (sources later : List (Text × Text)) :
    f.registered (sources ++ later) = f.registered sources ++ f.registered later :=
  List.filterMap_append

/-- Registering the last ones is registering the last rows. -/
theorem registered_lastOnes (f : Snapshot) (sources : List (Text × Text)) :
    f.registered (f.lastOnes sources) = Table.lastRows (f.registered sources) := by
  induction sources with
  | nil => rfl
  | cons source rest ih =>
      rw [lastOnes, registered_cons]
      cases hinherit : (f.inherit source.2 (Path.canonical source.1)).toOption with
      | none =>
          split
          · exact ih
          · rw [registered_cons, hinherit]
            exact ih
      | some given =>
          simp only [Option.map_some, Option.toList_some, List.singleton_append, Table.lastRows]
          split
          · exact ih
          · rw [registered_cons, hinherit, ih]
            rfl

/-- A map that can be used has a content for each source. -/
theorem complete_of_inherit {f : Snapshot} {content file cleaned : Text} {map : InheritedMap}
    (h : f.inherit content file = .ok (cleaned, some map)) : map.Complete := by
  unfold inherit at h
  split at h
  · cases h
  · next name left _ =>
    split at h
    · next found hload =>
      obtain ⟨t, -, hread⟩ := bind_eq_ok.mp hload
      obtain ⟨-, rfl⟩ : left = cleaned ∧ found = map := by simpa using h
      exact InheritedMap.complete_of_ofText hread
    · cases h
    · cases h

theorem complete_of_mem_registered {f : Snapshot} {sources : List (Text × Text)}
    {key cleaned : Text} {map : InheritedMap} (h : (key, cleaned, some map) ∈ f.registered sources) : map.Complete := by
  obtain ⟨source, -, hsource⟩ := List.mem_filterMap.mp h
  obtain ⟨found, hfound, hrow⟩ := Option.map_eq_some_iff.mp hsource
  obtain ⟨-, rfl⟩ := Prod.mk.inj hrow
  cases hinherit : f.inherit source.2 (Path.canonical source.1) with
  | error fault => rw [hinherit] at hfound; contradiction
  | ok found =>
      rw [hinherit] at hfound
      exact complete_of_inherit (hinherit.trans (congrArg Except.ok (Option.some.inj hfound)))

end Snapshot

namespace Mapping.Recorder

/-! ## registering sources -/

/-- Registers sources one after the other.  After a fault the next one is registered. -/
def registerAll {m : Type → Type} [Monad m] [FileStore m] [Journal m] (r : Recorder) :
    List (Text × Text) → m Recorder
  | [] => pure r
  | (path, content) :: rest => do
    match ← (r.register path content).run with
    | .ok (_, r) => r.registerAll rest
    | .error _ => r.registerAll rest

/-- Remembers rows in order. -/
def rememberRows (r : Recorder) (rows : List (Text × Text × Option InheritedMap)) : Recorder :=
  rows.foldl (fun r row => r.remember row.1 row.2.1 row.2.2) r

/-- The maps that rows bring along. -/
def brought (rows : List (Text × Text × Option InheritedMap)) : List (Text × InheritedMap) :=
  rows.filterMap fun row => row.2.2.map (row.1, ·)

section Ask

variable {σ : Type} [FileStore (StateM σ)] [Journal (StateM σ)] {I : σ → Prop} {f : Snapshot}

/-- Registering sources remembers what they are registered as. -/
theorem gives_registerAll (h : Shows I f) (r : Recorder) (sources : List (Text × Text)) :
    Gives I (r.registerAll sources) (r.rememberRows (f.registered sources)) := by
  induction sources generalizing r with
  | nil => exact Gives.pure _
  | cons source rest ih =>
      obtain ⟨path, content⟩ := source
      have hrun : Gives I (r.register path content).run
          ((f.inherit content (Path.canonical path)).map fun found =>
            (found.1, r.remember (Path.canonical path) found.1 found.2)) :=
        h.answers_register r path content
      rw [registerAll, Snapshot.registered_cons]
      refine hrun.bind ?_
      cases f.inherit content (Path.canonical path) with
      | error fault => exact ih r
      | ok found => exact ih (r.remember (Path.canonical path) found.1 found.2)

end Ask

/-! ## what is held afterwards -/

section Rows

variable (r : Recorder) (rows : List (Text × Text × Option InheritedMap)) (key : Text)

/-- The tables are filled row by row, and nothing else changes. -/
theorem rememberRows_eq :
    r.rememberRows rows = { r with
      contents := Table.fill r.contents (rows.map fun row => (row.1, .text row.2.1))
      inherited := Table.fill r.inherited (brought rows) } := by
  induction rows generalizing r with
  | nil => rfl
  | cons row rest ih =>
      refine (ih (r.remember row.1 row.2.1 row.2.2)).trans ?_
      obtain ⟨key, cleaned, map⟩ := row
      cases map <;> rfl

/-- A path holds the text that it was registered with last. -/
theorem get?_contents_rememberRows :
    Table.get? (r.rememberRows rows).contents key =
      ((Table.get? rows.reverse key).map fun given => .text given.1).or
        (Table.get? r.contents key) := by
  rw [rememberRows_eq, Table.get?_fill, ← List.map_reverse,
    Table.get?_map fun given : Text × Option InheritedMap => Data.text given.1]

/-- A path has the map that was brought last. -/
theorem get?_inherited_rememberRows :
    Table.get? (r.rememberRows rows).inherited key =
      (Table.get? (brought rows).reverse key).or (Table.get? r.inherited key) := by
  rw [rememberRows_eq, Table.get?_fill]

theorem brought_append (later : List (Text × Text × Option InheritedMap)) :
    brought (rows ++ later) = brought rows ++ brought later :=
  List.filterMap_append

theorem get?_brought_singleton (row : Text × Text × Option InheritedMap) :
    Table.get? (brought [row]).reverse key = if row.1 = key then row.2.2 else none := by
  obtain ⟨first, cleaned, map⟩ := row
  cases map <;> simp [brought, Table.get?_cons]

/-- Of last rows, a path has the map of its row. -/
theorem get?_brought_lastRows :
    Table.get? (brought (Table.lastRows rows)).reverse key =
      (Table.get? rows.reverse key).bind (·.2) := by
  induction rows with
  | nil => rfl
  | cons row rest ih =>
      rw [Table.lastRows]
      by_cases hagain : row.1 ∈ Table.keys rest
      · rw [if_pos hagain, ih, Table.get?_reverse_cons_of_mem hagain]
      · have hnone : Table.get? rest.reverse row.1 = none := by
          rw [Option.eq_none_iff_forall_ne_some]
          exact fun value hvalue =>
            hagain (Table.mem_keys_reverse.mp (Table.mem_keys_iff.mpr ⟨value, hvalue⟩))
        rw [if_neg hagain, ← List.singleton_append, brought_append, List.reverse_append,
          Table.get?_append, ih, get?_brought_singleton, List.reverse_cons, Table.get?_append,
          Table.get?_cons, Table.get?_nil]
        by_cases hkey : row.1 = key
        · rw [if_pos hkey, if_pos hkey, ← hkey, hnone]
          rfl
        · rw [if_neg hkey, if_neg hkey, Option.or_none, Option.or_none]

theorem mem_brought {rows : List (Text × Text × Option InheritedMap)} {key : Text}
    {map : InheritedMap} :
    (key, map) ∈ brought rows ↔ ∃ cleaned, (key, cleaned, some map) ∈ rows := by
  simp only [brought, List.mem_filterMap, Option.map_eq_some_iff, Prod.mk.injEq]
  constructor
  · rintro ⟨⟨first, cleaned, brings⟩, hrow, m, rfl, rfl, rfl⟩
    exact ⟨cleaned, hrow⟩
  · rintro ⟨cleaned, hrow⟩
    exact ⟨_, hrow, map, rfl, rfl, rfl⟩

/-- A map that the last row of a path brings is the one that was brought last. -/
theorem get?_brought_of_last {map : InheritedMap} {cleaned : Text}
    (h : Table.get? rows.reverse key = some (cleaned, some map)) :
    Table.get? (brought rows).reverse key = some map := by
  induction rows using List.reverseRecOn with
  | nil => contradiction
  | append_singleton rows row ih =>
      rw [List.reverse_concat, Table.get?_cons] at h
      rw [brought_append, List.reverse_append, Table.get?_append, get?_brought_singleton]
      by_cases hkey : row.1 = key
      · rw [if_pos hkey] at h
        rw [if_pos hkey, Option.some.inj h, Option.some_or]
      · rw [if_neg hkey] at h
        rw [if_neg hkey, Option.none_or]
        exact ih h

end Rows

/-- A path is stale exactly if the last map of its registrations is not that of the last one. -/
theorem stale_iff {f : Snapshot} {sources : List (Text × Text)} {key : Text} :
    f.Stale sources key ↔
      Table.get? (brought (f.registered sources)).reverse key ≠
        (Table.get? (f.registered sources).reverse key).bind (·.2) := by
  generalize hrows : f.registered sources = rows
  unfold Snapshot.Stale
  rw [hrows]
  constructor
  · rintro ⟨⟨cleaned, hlast⟩, cleaned', map, hearlier⟩
    obtain ⟨value, hvalue⟩ : ∃ value, Table.get? (brought rows).reverse key = some value := by
      refine Table.mem_keys_iff.mp (Table.mem_keys_reverse.mpr ?_)
      exact List.mem_map_of_mem (mem_brought.mpr ⟨cleaned', hearlier⟩)
    rw [hlast, hvalue]
    simp
  · intro hne
    have hnone : (Table.get? rows.reverse key).bind (·.2) = none := by
      by_contra hsome
      obtain ⟨map, hmap⟩ := Option.ne_none_iff_exists'.mp hsome
      obtain ⟨⟨cleaned, _⟩, hlast, rfl⟩ := Option.bind_eq_some_iff.mp hmap
      exact hne ((get?_brought_of_last rows key hlast).trans hmap.symm)
    rw [hnone] at hne
    obtain ⟨map, hmap⟩ := Option.ne_none_iff_exists'.mp hne
    obtain ⟨earlier, hearlier⟩ := mem_brought.mp (List.mem_reverse.mp (Table.mem_of_get? hmap))
    obtain ⟨⟨cleaned, brings⟩, hlast⟩ :=
      Table.mem_keys_iff.mp (Table.mem_keys_reverse.mpr (List.mem_map_of_mem hearlier))
    rw [hlast] at hnone
    obtain rfl : brings = none := hnone
    exact ⟨⟨cleaned, hlast⟩, earlier, map, hearlier⟩

/-! ## recorders that agree -/

/-- Recorders that have come to the same point of the same map, hold the same of every
source, and have the same maps for the paths in `P`. -/
structure Agree (P : Text → Prop) (r r' : Recorder) : Prop where
  sameMap : SameMap r r'
  cursor : r'.cursor = r.cursor
  entries : r'.entries = r.entries
  contents : ∀ key, Table.get? r'.contents key = Table.get? r.contents key
  inherited : ∀ key, P key → Table.get? r'.inherited key = Table.get? r.inherited key

section Agree

variable {P : Text → Prop} {r r' : Recorder}

/-- They finish the same map. -/
theorem Agree.document? (h : Agree P r r') (wd : Text) : r'.document? wd = r.document? wd := by
  have hsources : r'.sources = r.sources := by rw [sources, sources, h.entries]
  have hlast : r'.lastLine = r.lastLine := by rw [lastLine, lastLine, h.entries]
  have hlines : r'.lineSegments = r.lineSegments := by
    funext line
    rw [lineSegments, lineSegments, hsources, h.entries]
  unfold Recorder.document?
  rw [h.sameMap.dest, h.sameMap.delivery, h.sameMap.mapPath, hsources, hlast, hlines]
  simp only [h.contents]

theorem Agree.add (h : Agree P r r') (t : Text) : Agree P (r.add t) (r'.add t) :=
  ⟨⟨h.sameMap.dest, h.sameMap.delivery, h.sameMap.mapPath⟩,
    congrArg (Position.after · t) h.cursor, h.entries, h.contents, h.inherited⟩

/-- Recorders that agree are at the same fault, or agree when they have gone on. -/
inductive Together (P : Text → Prop) :
    Except RecordFault Recorder → Except RecordFault Recorder → Prop where
  | fault (fault : RecordFault) : Together P (.error fault) (.error fault)
  | ok {r r' : Recorder} (h : Agree P r r') : Together P (.ok r) (.ok r')

theorem Agree.composeSegment (h : Agree P r r') (map : InheritedMap)
    (generated origin : Position) (s : Segment) :
    Together P (composeSegment map generated origin r s)
      (composeSegment map generated origin r' s) := by
  unfold Recorder.composeSegment
  split
  · exact .ok h
  · split
    · next source content _ _ =>
      refine .ok ⟨⟨h.sameMap.dest, h.sameMap.delivery, h.sameMap.mapPath⟩, h.cursor,
        congrArg (· ++ _) h.entries, fun key => ?_, h.inherited⟩
      cases content <;> simp only [Table.get?_insertIfNew, h.contents]
    · exact .fault _

theorem Agree.advance {α : Type} {f : Recorder → α → Except RecordFault Recorder}
    (hf : ∀ {r r'}, Agree P r r' → ∀ a, Together P (f r a) (f r' a)) (h : Agree P r r')
    (l : List α) :
    Agree P (advance f r l).1 (advance f r' l).1 ∧ (advance f r' l).2 = (advance f r l).2 := by
  induction l generalizing r r' with
  | nil => exact ⟨h, rfl⟩
  | cons a rest ih =>
      have hstep := hf h a
      rw [Recorder.advance, Recorder.advance]
      generalize f r a = e, f r' a = e' at hstep
      cases hstep with
      | fault fault => exact ⟨h, rfl⟩
      | ok hnext => exact ih hnext

theorem Agree.addLines (h : Agree P r r') {u : SourceText} (hu : P u.path)
    (places : List (Position × Position)) :
    Agree P (addLines r u places).1 (addLines r' u places).1 ∧
      (addLines r' u places).2 = (addLines r u places).2 := by
  induction places generalizing r r' with
  | nil => exact ⟨h, rfl⟩
  | cons place rest ih =>
      obtain ⟨generated, origin⟩ := place
      rw [Recorder.addLines, Recorder.addLines, h.inherited _ hu]
      cases Table.get? r.inherited u.path with
      | none =>
          exact ih ⟨⟨h.sameMap.dest, h.sameMap.delivery, h.sameMap.mapPath⟩, h.cursor,
            congrArg (· ++ _) h.entries, h.contents, h.inherited⟩
      | some map =>
          obtain ⟨hline, hfault⟩ := h.advance (fun h s => h.composeSegment map generated origin s)
            (map.segmentsFor origin.line)
          simp only
          generalize Recorder.advance _ r _ = found, Recorder.advance _ r' _ = found'
            at hline hfault ⊢
          obtain ⟨next, fault⟩ := found
          obtain ⟨next', fault'⟩ := found'
          obtain rfl : fault' = fault := hfault
          cases fault' with
          | none => exact ih hline
          | some fault => exact ⟨hline, rfl⟩

theorem Agree.addUnit (h : Agree P r r') {u : SourceText} (hu : P u.path) :
    Agree P (r.addUnit u).1 (r'.addUnit u).1 ∧ (r'.addUnit u).2 = (r.addUnit u).2 := by
  obtain ⟨hlines, hfault⟩ := h.addLines hu (linePlaces r.cursor u)
  rw [Recorder.addUnit, Recorder.addUnit, h.cursor]
  generalize Recorder.addLines r _ _ = found, Recorder.addLines r' _ _ = found' at hlines hfault ⊢
  obtain ⟨next, fault⟩ := found
  obtain ⟨next', fault'⟩ := found'
  obtain rfl : fault' = fault := hfault
  cases fault' with
  | none => exact ⟨hlines.add u.content, rfl⟩
  | some fault => exact ⟨hlines, rfl⟩

end Agree

/-! ## what is recorded afterwards -/

/-- A piece of an output: text that shows no source, or a unit. -/
inductive Piece where
  | text (t : Text)
  | unit (u : SourceText)

/-- Records pieces in order, whatever becomes of each; with the recorder come the faults. -/
def recordAll (r : Recorder) : List Piece → Recorder × List (Option RecordFault)
  | [] => (r, [])
  | .text t :: rest =>
    let (r, faults) := (r.add t).recordAll rest
    (r, none :: faults)
  | .unit u :: rest =>
    let (next, fault) := r.addUnit u
    let (r, faults) := next.recordAll rest
    (r, fault :: faults)

/-- **Recorders that agree go on to agree**, as far as units look up maps that they
agree on. -/
theorem Agree.recordAll {P : Text → Prop} {r r' : Recorder} (h : Agree P r r') {pieces : List Piece}
    (hpieces : ∀ u, Piece.unit u ∈ pieces → P u.path) :
    Agree P (r.recordAll pieces).1 (r'.recordAll pieces).1 ∧
      (r'.recordAll pieces).2 = (r.recordAll pieces).2 := by
  induction pieces generalizing r r' with
  | nil => exact ⟨h, rfl⟩
  | cons piece rest ih =>
      have hrest : ∀ u, Piece.unit u ∈ rest → P u.path := fun u hu =>
        hpieces u (List.mem_cons_of_mem _ hu)
      cases piece with
      | text t =>
          obtain ⟨hagree, hfaults⟩ := ih (h.add t) hrest
          exact ⟨hagree, congrArg (none :: ·) hfaults⟩
      | unit u =>
          obtain ⟨hunit, hfault⟩ := h.addUnit (hpieces u List.mem_cons_self)
          obtain ⟨hagree, hfaults⟩ := ih hunit hrest
          exact ⟨hagree, congrArg₂ List.cons hfault hfaults⟩

/-! ## what a unit depends on -/

/-- What a unit adds, and whether it ends with a fault, depends on the cursor and on the
map of its path; its fault says whether the cursor moves. -/
theorem exists_addUnit_eq {map : Option InheritedMap} (hmap : ∀ m, map = some m → m.Complete)
    (cursor : Position) (u : SourceText) :
    ∃ added fault, ∀ r : Recorder, r.cursor = cursor → Table.get? r.inherited u.path = map →
      ∃ contents, r.addUnit u = ({ r with
        entries := r.entries ++ added
        contents := contents
        cursor := if fault = none then cursor.after u.content else cursor }, fault) := by
  cases map with
  | none =>
      refine ⟨entriesOf cursor u, none, ?_⟩
      rintro r rfl hr
      exact ⟨r.contents, addUnit_eq hr⟩
  | some map =>
      refine ⟨((visits map (linePlaces cursor u)).takeWhile (¬ ·.Fails map)).flatMap
          (·.entries map),
        if ∃ v ∈ visits map (linePlaces cursor u), v.Fails map then some .sourceOutOfRange
          else none, ?_⟩
      rintro r rfl hr
      obtain ⟨contents, -, hunit⟩ := addUnit_of_map (hmap map rfl).contents hr
      refine ⟨contents, hunit.trans ?_⟩
      by_cases hfails : ∃ v ∈ visits map (linePlaces r.cursor u), v.Fails map
      · simp only [if_pos hfails, reduceCtorEq, if_false]
      · simp only [if_neg hfails, if_true]

section Maps

variable {r r' : Recorder}

/-- The maps of a recorder are complete. -/
def MapsComplete (r : Recorder) : Prop :=
  ∀ key map, Table.get? r.inherited key = some map → map.Complete

theorem inherited_addUnit (hr : r.MapsComplete) (u : SourceText) :
    (r.addUnit u).1.inherited = r.inherited := by
  obtain ⟨added, fault, hunit⟩ := exists_addUnit_eq (hr u.path) r.cursor u
  obtain ⟨contents, heq⟩ := hunit r rfl rfl
  rw [heq]

theorem cursor_addUnit (hr : r.MapsComplete) (u : SourceText) :
    (r.addUnit u).1.cursor =
      if (r.addUnit u).2 = none then r.cursor.after u.content else r.cursor := by
  obtain ⟨added, fault, hunit⟩ := exists_addUnit_eq (hr u.path) r.cursor u
  obtain ⟨contents, heq⟩ := hunit r rfl rfl
  rw [heq]

theorem MapsComplete.add (hr : r.MapsComplete) (t : Text) : (r.add t).MapsComplete := hr

theorem MapsComplete.addUnit (hr : r.MapsComplete) (u : SourceText) :
    MapsComplete (r.addUnit u).1 := by
  rw [MapsComplete, inherited_addUnit hr]
  exact hr

/-- Recording leaves the maps alone. -/
theorem inherited_recordAll (hr : r.MapsComplete) (pieces : List Piece) :
    (r.recordAll pieces).1.inherited = r.inherited := by
  induction pieces generalizing r with
  | nil => rfl
  | cons piece rest ih =>
      cases piece with
      | text t => exact ih (hr.add t)
      | unit u => exact (ih (hr.addUnit u)).trans (inherited_addUnit hr u)

/-- The same pieces with the same faults lead to the same place. -/
theorem cursor_recordAll (hr : r.MapsComplete) (hr' : r'.MapsComplete)
    (hcursor : r.cursor = r'.cursor) {pieces : List Piece} (hfaults : (r.recordAll pieces).2 = (r'.recordAll pieces).2) :
    (r.recordAll pieces).1.cursor = (r'.recordAll pieces).1.cursor := by
  induction pieces generalizing r r' with
  | nil => exact hcursor
  | cons piece rest ih =>
      cases piece with
      | text t =>
          have hnext : (r.add t).cursor = (r'.add t).cursor :=
            congrArg (Position.after · t) hcursor
          exact ih (hr.add t) (hr'.add t) hnext (List.cons.inj hfaults).2
      | unit u =>
          have hfault : (r.addUnit u).2 = (r'.addUnit u).2 := (List.cons.inj hfaults).1
          have hnext : (r.addUnit u).1.cursor = (r'.addUnit u).1.cursor := by
            rw [cursor_addUnit hr, cursor_addUnit hr', hfault, hcursor]
          exact ih (hr.addUnit u) (hr'.addUnit u) hnext (List.cons.inj hfaults).2

end Maps

section Start

variable (f : Snapshot) (dest : Text) (delivery : Delivery) (mapPath : Option Text)
  (sources : List (Text × Text))

theorem get?_inherited_registered (key : Text) :
    Table.get? ((start dest delivery mapPath).rememberRows (f.registered sources)).inherited key =
      Table.get? (brought (f.registered sources)).reverse key := by
  rw [get?_inherited_rememberRows]
  exact Option.or_none

theorem get?_inherited_lastOnes (key : Text) :
    Table.get? ((start dest delivery mapPath).rememberRows
        (f.registered (f.lastOnes sources))).inherited key =
      (Table.get? (f.registered sources).reverse key).bind (·.2) := by
  rw [get?_inherited_registered, Snapshot.registered_lastOnes, get?_brought_lastRows]

/-- Registering the last ones is the same but for stale paths. -/
theorem agree_lastOnes :
    Agree (¬ f.Stale sources ·) ((start dest delivery mapPath).rememberRows (f.registered sources))
      ((start dest delivery mapPath).rememberRows (f.registered (f.lastOnes sources))) where
  sameMap := by rw [rememberRows_eq, rememberRows_eq]; exact ⟨rfl, rfl, rfl⟩
  cursor := by rw [rememberRows_eq, rememberRows_eq]
  entries := by rw [rememberRows_eq, rememberRows_eq]
  contents key := by
    rw [get?_contents_rememberRows, get?_contents_rememberRows, Snapshot.registered_lastOnes,
      Table.get?_reverse_lastRows]
  inherited key hkey := by
    rw [get?_inherited_lastOnes, get?_inherited_registered]
    exact (not_not.mp (mt stale_iff.mpr hkey)).symm

theorem mapsComplete_registered :
    MapsComplete ((start dest delivery mapPath).rememberRows (f.registered sources)) := by
  intro key map hmap
  rw [get?_inherited_registered] at hmap
  obtain ⟨cleaned, hrow⟩ := mem_brought.mp (List.mem_reverse.mp (Table.mem_of_get? hmap))
  exact Snapshot.complete_of_mem_registered hrow

/-- A unit that is recorded differently: its line began behind all lines of a map. -/
def unitBehind (key : Text) (map : InheritedMap) : SourceText :=
  { path := key, raw := "x", content := "x", origins := [⟨map.lines.length + 1, 0⟩] }

theorem addUnit_unitBehind {r : Recorder} {key : Text} {map : InheritedMap}
    (hr : Table.get? r.inherited key = some map) :
    (r.addUnit (unitBehind key map)).1.entries = r.entries := by
  have hline : map.segmentsFor (map.lines.length + 1) = [] := by
    rw [InheritedMap.segmentsFor, if_pos (by omega)]
    simp
  have hplaces : linePlaces r.cursor (unitBehind key map) =
      [(r.cursor, ⟨map.lines.length + 1, 0⟩)] := rfl
  rw [addUnit, hplaces, addLines, show (unitBehind key map).path = key from rfl, hr]
  simp only [hline, advance, addLines, add]

theorem addUnit_unitBehind_of_none {r : Recorder} {key : Text} {map : InheritedMap}
    (hr : Table.get? r.inherited key = none) :
    (r.addUnit (unitBehind key map)).1.entries =
      r.entries ++ [⟨r.cursor, key, ⟨map.lines.length + 1, 0⟩⟩] := by
  rw [addUnit_eq hr]
  rfl

end Start

section Ask

variable {σ : Type} [FileStore (StateM σ)] [Journal (StateM σ)] {I : σ → Prop} {f : Snapshot}

/-- **Registering again replaces, but for a stale map.**  With the same files throughout,
sources are registered, under any spelling of their paths, and pieces are recorded then,
once after all registrations and once after the last one of each path only.  A unit whose
path is not stale adds the same entries in both cases, as soon as the pieces before it met
with the same faults.  If no unit has a stale path, all faults and entries are the same,
and the same map is finished.  But of each stale path some unit is recorded differently:
the map that an earlier registration brought is still there. -/
theorem registerAll_replaces (h : Shows I f) (dest : Text) (delivery : Delivery)
    (mapPath : Option Text) (sources : List (Text × Text)) :
    ∃ all last : Recorder,
      Gives I ((start dest delivery mapPath).registerAll sources) all ∧
      Gives I ((start dest delivery mapPath).registerAll (f.lastOnes sources)) last ∧
      (∀ pieces u, ¬ f.Stale sources u.path →
        (all.recordAll pieces).2 = (last.recordAll pieces).2 →
        ∃ added, ((all.recordAll pieces).1.addUnit u).1.entries =
            (all.recordAll pieces).1.entries ++ added ∧
          ((last.recordAll pieces).1.addUnit u).1.entries =
            (last.recordAll pieces).1.entries ++ added) ∧
      (∀ pieces, (∀ u, Piece.unit u ∈ pieces → ¬ f.Stale sources u.path) →
        (all.recordAll pieces).2 = (last.recordAll pieces).2 ∧
        (all.recordAll pieces).1.entries = (last.recordAll pieces).1.entries ∧
        ∀ wd, (all.recordAll pieces).1.document? wd = (last.recordAll pieces).1.document? wd) ∧
      ∀ key, f.Stale sources key → ∃ u : SourceText, u.path = key ∧
        (all.addUnit u).1.entries ≠ (last.addUnit u).1.entries := by
  refine ⟨_, _, gives_registerAll h _ sources, gives_registerAll h _ (f.lastOnes sources),
    fun pieces u hfresh hfaults => ?_, fun pieces hpieces => ?_, fun key hstale => ?_⟩
  · have hagree := agree_lastOnes f dest delivery mapPath sources
    have hall := mapsComplete_registered f dest delivery mapPath sources
    have hlast := mapsComplete_registered f dest delivery mapPath (f.lastOnes sources)
    have hcursor := cursor_recordAll hall hlast hagree.cursor.symm hfaults
    obtain ⟨added, fault, hunit⟩ := exists_addUnit_eq (hall u.path) _ u
    obtain ⟨contents, heq⟩ := hunit _ hcursor (by rw [inherited_recordAll hall])
    obtain ⟨contents', heq'⟩ := hunit _ rfl
      (by rw [inherited_recordAll hlast, hagree.inherited u.path hfresh])
    exact ⟨added, by rw [heq], by rw [heq']⟩
  · obtain ⟨hagree, hfaults⟩ := (agree_lastOnes f dest delivery mapPath sources).recordAll hpieces
    exact ⟨hfaults.symm, hagree.entries.symm, fun wd => (hagree.document? wd).symm⟩
  · obtain ⟨⟨cleaned, hlast⟩, -⟩ := id hstale
    have hne := stale_iff.mp hstale
    have hnone := get?_inherited_lastOnes f dest delivery mapPath sources key
    rw [hlast, Option.bind_some] at hne hnone
    obtain ⟨map, hmap⟩ := Option.ne_none_iff_exists'.mp hne
    have hsome := (get?_inherited_registered f dest delivery mapPath sources key).trans hmap
    refine ⟨unitBehind key map, rfl, ?_⟩
    rw [addUnit_unitBehind hsome, addUnit_unitBehind_of_none hnone, rememberRows_eq,
      rememberRows_eq]
    exact fun heq => List.cons_ne_nil _ _ heq.symm

end Ask

/-! ## a map that stays -/

/-- The files of a merge, with a map of one source where the file looks for it. -/
def oneWorld : MemoryWorld := strayWorld (strayMap ["orig.js"] [0])

/-- That map. -/
def oneMap : InheritedMap := ⟨["orig.js"], [.null], [[⟨0, 0, 0, 0, none⟩]]⟩

/-- A registration with that map. -/
def mappedSource : Text × Text := ("min.js", strayText)

/-- A registration of the same path without one. -/
def plainSource : Text × Text := ("./min.js", "b;\n")

/-- The unit of that path, without a map. -/
def plainUnit : SourceText :=
  { path := "min.js", raw := "b;\n", content := "b;\n", origins := [⟨1, 0⟩, ⟨2, 0⟩] }

theorem registered_mappedSource :
    oneWorld.memory.snapshot.registered [mappedSource] =
      [("min.js".toList, "abcd\n".toList, some oneMap)] := by
  obtain ⟨w, hrun⟩ : ∃ w, runAt (inherit strayText "min.js") oneWorld =
      (.ok ("abcd\n", some oneMap), w) := runAt_inherit_stray
  obtain ⟨w', -, hanswer⟩ := oneWorld.memory.shows.answers_inherit strayText "min.js" oneWorld rfl
  have hinherit := (Prod.mk.inj (hanswer.symm.trans hrun)).1
  have hkey : Path.canonical mappedSource.1 = "min.js".toList := by decide
  rw [Snapshot.registered_cons, hkey, show mappedSource.2 = strayText from rfl, hinherit]
  rfl

theorem registered_plainSource :
    oneWorld.memory.snapshot.registered [plainSource] =
      [("min.js".toList, "b;\n".toList, none)] := by
  have hkey : Path.canonical plainSource.1 = "min.js".toList := by decide
  have hinherit : oneWorld.memory.snapshot.inherit plainSource.2 "min.js" = .ok ("b;\n", none) := by
    rw [Snapshot.inherit, show findReference? plainSource.2 = none by decide +kernel]
    rfl
  rw [Snapshot.registered_cons, hkey, hinherit]
  rfl

/-- A map replaces what was registered before it, under another spelling. -/
theorem registerAll_replaces_plain :
    ∃ all last : Recorder,
      Gives (fun w : MemoryWorld => w.memory = oneWorld.memory)
        ((start "out.js" .embed none).registerAll [plainSource, mappedSource]) all ∧
      Gives (fun w : MemoryWorld => w.memory = oneWorld.memory)
        ((start "out.js" .embed none).registerAll [mappedSource]) last ∧
      (all.recordAll [.text "/**/", .unit strayUnit]).1.entries =
        (last.recordAll [.text "/**/", .unit strayUnit]).1.entries ∧
      (all.recordAll [.text "/**/", .unit strayUnit]).1.document? "/w" =
        (last.recordAll [.text "/**/", .unit strayUnit]).1.document? "/w" := by
  have hones : oneWorld.memory.snapshot.lastOnes [plainSource, mappedSource] = [mappedSource] := by
    rw [Snapshot.lastOnes, registered_mappedSource]
    rfl
  have hfresh : ∀ key, ¬ oneWorld.memory.snapshot.Stale [plainSource, mappedSource] key := by
    rintro key ⟨⟨cleaned, hlast⟩, -⟩
    rw [← List.singleton_append, Snapshot.registered_append, registered_plainSource,
      registered_mappedSource] at hlast
    change Table.get? [("min.js".toList, "abcd\n".toList, some oneMap),
      ("min.js".toList, "b;\n".toList, none)] key = _ at hlast
    rw [Table.get?_cons, Table.get?_cons, Table.get?_nil] at hlast
    split_ifs at hlast
    cases hlast
  obtain ⟨all, last, hall, hlast, -, hsame, -⟩ :=
    registerAll_replaces oneWorld.memory.shows "out.js" .embed none [plainSource, mappedSource]
  obtain ⟨-, hentries, hdocument⟩ := hsame [.text "/**/", .unit strayUnit] fun u _ => hfresh u.path
  exact ⟨all, last, hall, hones ▸ hlast, hentries, hdocument "/w"⟩

/-- **A stale map is still there.**  The unit is registered last without a map, and ends up
with the entries of the map that an earlier registration brought. -/
theorem registerAll_keeps_map :
    ∃ (all last : Recorder) (w w' : MemoryWorld),
      StateT.run ((start "out.js" .embed none).registerAll [mappedSource, plainSource] :
        StateM MemoryWorld Recorder) oneWorld = (all, w) ∧
      StateT.run ((start "out.js" .embed none).registerAll [plainSource] :
        StateM MemoryWorld Recorder) oneWorld = (last, w') ∧
      (all.addUnit plainUnit).1.entries = [⟨⟨1, 0⟩, "orig.js", ⟨1, 0⟩⟩] ∧
      (last.addUnit plainUnit).1.entries = [⟨⟨1, 0⟩, "min.js", ⟨1, 0⟩⟩] := by
  obtain ⟨w, -, hall⟩ := gives_registerAll oneWorld.memory.shows (start "out.js" .embed none)
    [mappedSource, plainSource] oneWorld rfl
  obtain ⟨w', -, hlast⟩ := gives_registerAll oneWorld.memory.shows (start "out.js" .embed none)
    [plainSource] oneWorld rfl
  refine ⟨_, _, w, w', hall, hlast, ?_, ?_⟩
  · rw [← List.singleton_append, Snapshot.registered_append, registered_mappedSource,
      registered_plainSource]
    rfl
  · rw [registered_plainSource]
    rfl

end Mapping.Recorder

end SourceMerge
