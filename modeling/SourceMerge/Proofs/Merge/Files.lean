import SourceMerge.Proofs.Merge.Plan

/-!
# SourceMerge.Proofs.Merge.Files

Which files a merge touches, for files in memory, where storing cannot fail.  The
plan of a merge touches none, and its delivery has no fault and stores the map,
if it is a file, and the output.  So a merge that fails leaves every file as it
was, and one that returns changes at most the output and the map that it names.
-/

namespace SourceMerge

open Mapping

/-! ## memories that differ in few files -/

/-- Apart from some paths, two memories hold the same. -/
structure Memory.SameBut (paths : List Text) (m m' : Memory) : Prop where
  read : ∀ path ∉ paths, m'.read path = m.read path
  contains : ∀ path ∉ paths, m'.contains path = m.contains path
  directories : m'.directories = m.directories
  workingDirectory : m'.workingDirectory = m.workingDirectory

namespace Memory

theorem contains_write_of_ne {m : Memory} {path other content : Text} (h : other ≠ path) :
    (m.write path content).contains other = m.contains other := by
  simp only [contains, write, Table.contains_eq_isSome, Table.get?_insert_of_ne h]
  rfl

/-- Storing a text changes one more file. -/
theorem SameBut.write {paths : List Text} {m m' : Memory} (h : SameBut paths m m')
    (path content : Text) : SameBut (path :: paths) m (m'.write path content) where
  read := by
    intro other hother
    rw [List.mem_cons, not_or] at hother
    rw [read_write_of_ne hother.1, h.read other hother.2]
  contains := by
    intro other hother
    rw [List.mem_cons, not_or] at hother
    rw [contains_write_of_ne hother.1, h.contains other hother.2]
  directories := h.directories
  workingDirectory := h.workingDirectory

end Memory

/-! ## delivery in memory -/

theorem runAt_storeMap_memory (p : Plan) (w : MemoryWorld) :
    ∃ w', runAt p.storeMap w = (.ok p.mapPath?, w') ∧
      Memory.SameBut p.mapPath?.toList w.memory w'.memory := by
  have hrefl : Memory.SameBut [] w.memory w.memory :=
    ⟨fun _ _ => rfl, fun _ _ => rfl, rfl, rfl⟩
  cases hx : p.map with
  | none =>
      have hpath : p.mapPath? = none := by simp [Plan.mapPath?, hx]
      rw [Plan.storeMap, hx, hpath]
      exact ⟨w, rfl, hrefl⟩
  | some x =>
      rw [Plan.storeMap, hx]
      simp only [x.runAt_store]
      by_cases hfile : x.recorder.delivery.isFile = true
      · have hpath : p.mapPath? = some x.recorder.mapPath := by simp [Plan.mapPath?, hx, hfile]
        rw [if_pos hfile, hpath]
        exact ⟨_, rfl, hrefl.write x.recorder.mapPath x.document.serialized⟩
      · have hpath : p.mapPath? = none := by simp [Plan.mapPath?, hx, hfile]
        rw [if_neg hfile, hpath]
        exact ⟨w, rfl, hrefl⟩

/-- **Delivery in memory has no fault**, and changes the output and the map. -/
theorem runAt_deliver_memory (dest : Text) (p : Plan) (w : MemoryWorld) :
    ∃ w', runAt (p.deliver dest) w = (.ok (p.outcome dest p.mapPath?), w') ∧
      Memory.SameBut (dest :: p.mapPath?.toList) w.memory w'.memory := by
  obtain ⟨w₁, hmap, hsame⟩ := runAt_storeMap_memory p w
  rw [Plan.deliver, runAt_bind, hmap]
  simp only [runAt_storeOutput]
  exact ⟨_, rfl, hsame.write dest p.output⟩

/-! ## merging in memory -/

/-- A plan stores a map exactly if the merge is mapped, nothing forbids it and
the way of its delivery is a file. -/
theorem isSome_mapPath?_iff {f : Snapshot} {dest : Text} {sources : List Text} {o : Options}
    {force : Bool} {r : Renderer} {p : Plan} (h : f.plan dest sources o force r = .ok p) :
    p.mapPath?.isSome = true ↔ o.sourceMap = true ∧ Merge.conflicts o = false ∧
      ∃ delivery, Delivery.ofName? o.mapStyle = some delivery ∧ delivery ≠ .inline := by
  obtain ⟨o', start, gs, hchecked, hp⟩ := Snapshot.planned_of_plan h
  rcases hp.map_cases with ⟨hoff, -, hnone⟩ | ⟨delivery, path, x, hon, hstyle, -, hx, hsame, -⟩
  · rcases Merge.checked_eq_ok hchecked with ⟨-, rfl, -⟩ | ⟨hconf, -, -⟩
    · simp [Plan.mapPath?, hnone, hoff]
    · simp [Plan.mapPath?, hnone, hconf]
  · rcases Merge.checked_eq_ok hchecked with ⟨hconf, rfl, -⟩ | ⟨-, rfl, -⟩
    · have hdelivery : x.recorder.delivery = delivery := hsame.delivery
      cases delivery <;> simp [Plan.mapPath?, hx, hdelivery, Delivery.isFile, hon, hconf, hstyle]
    · contradiction

/-- **Which files a merge touches.**  A merge that fails leaves all files as they
were.  One that returns changes at most its output and the map that it names,
and it names one exactly if there is to be a map, the options do not forbid it
and the map is a file. -/
theorem merge_touches (dest : Text) (sources : List Text) (o : Options) (force : Bool)
    (r : Renderer) (w : MemoryWorld) :
    match runAt (Merge.merge dest sources o force r) w with
    | (.error _, w') => w'.memory = w.memory
    | (.ok out, w') =>
      Memory.SameBut (dest :: out.mapPath.toList) w.memory w'.memory ∧
        (out.mapPath.isSome = true ↔ o.sourceMap = true ∧ Merge.conflicts o = false ∧
          ∃ delivery, Delivery.ofName? o.mapStyle = some delivery ∧ delivery ≠ .inline) := by
  obtain ⟨w₀, hw₀, hrun⟩ := w.memory.shows.leads_merge dest sources o force r w rfl
  rw [hrun]
  cases hplan : w.memory.snapshot.plan dest sources o force r with
  | error fault => exact hw₀
  | ok p =>
      obtain ⟨w', hdeliver, hsame⟩ := runAt_deliver_memory dest p w₀
      simp only [hdeliver]
      rw [← hw₀]
      exact ⟨hsame, isSome_mapPath?_iff hplan⟩

end SourceMerge
