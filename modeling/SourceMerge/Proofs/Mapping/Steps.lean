import SourceMerge.Proofs.Mapping.Attribution

/-!
# SourceMerge.Proofs.Mapping.Steps

How a map comes about.  A recorder takes steps in any order: a source is registered,
text is passed over, a unit is recorded; and a run of steps tells which sources were
registered, and with which text.  A merge registers its sources first and records
banner, units and footer afterwards, but nothing below hangs on that order.

What a step can do is said once, in the equations of `take`; of what `addUnit` adds,
only the summary `addUnit_spec` is used.  A run of steps then inherits its two laws from the single
step: what is recorded stays, and more comes behind it (`Grows`), and a recorder is
*sound* for the steps that it has taken (`Sound`).
-/

namespace SourceMerge.Mapping

/-! ## maps whose sources have names -/

/-- A map in which there is a content for each source, and no source is an empty
path. -/
structure InheritedMap.Complete (map : InheritedMap) : Prop where
  contents : map.sources.length ≤ map.contents.length
  named : ∀ source ∈ map.sources, source ≠ []

/-- The paths of sources are canonical, and such a path is never empty. -/
theorem ne_nil_of_mem_sourcesOf? {base : Text} {document : Data} {sources : List Text}
    (h : sourcesOf? base document = some sources) : ∀ source ∈ sources, source ≠ [] := by
  unfold sourcesOf? at h
  split at h
  · contradiction
  · next items hitems =>
    clear hitems
    induction items generalizing sources with
    | nil =>
        obtain rfl := Option.some.inj h
        simp
    | cons item items ih =>
        rw [List.mapM_cons] at h
        obtain ⟨path, hpath, h⟩ := Option.bind_eq_some_iff.mp h
        obtain ⟨rest, hrest, h⟩ := Option.bind_eq_some_iff.mp h
        obtain rfl := Option.some.inj h
        refine List.forall_mem_cons.mpr ⟨?_, ih hrest⟩
        unfold sourcePath? at hpath
        split at hpath
        · exact Option.some.inj hpath ▸ Path.canonical_ne_nil _
        · contradiction

/-- A map that was read from a text is complete. -/
theorem InheritedMap.complete_of_ofText {base t : Text} {map : InheritedMap}
    (h : InheritedMap.ofText base t = .ok map) : map.Complete := by
  obtain ⟨document, hsources, hcontents⟩ := InheritedMap.exists_document h
  exact ⟨length_le_of_contentsOf? hcontents, ne_nil_of_mem_sourcesOf? hsources⟩

namespace Recorder

/-! ## what recording a unit adds -/

theorem lines_of_mem_linePlaces {cursor : Position} {u : SourceText} {q : Position × Position}
    (h : q ∈ linePlaces cursor u) : cursor.line ≤ q.1.line := by
  obtain ⟨generated, origin⟩ := q
  obtain ⟨x, c, y, -, -, rfl, -⟩ := mem_linePlaces.mp h
  exact Position.line_le_line_after cursor x

/-- An entry of a unit stands on a line of the unit, and names a source of the map or,
without a map, the unit itself. -/
theorem of_mem_entries {map : InheritedMap} {places : List (Position × Position)} {v : Visit}
    {e : Entry} (hv : v ∈ visits map places) (hfine : ¬ v.Fails map) (he : e ∈ v.entries map) :
    (∃ q ∈ places, e.generated.line = q.1.line) ∧ e.source ∈ map.sources := by
  by_cases hcounts : v.Counts map
  · obtain ⟨made, hentries, hmakes⟩ := Visit.entries_of_counts hcounts hfine
    rw [hentries, List.mem_singleton] at he
    subst he
    obtain ⟨q, hq, hsegment⟩ := List.mem_flatMap.mp hv
    obtain ⟨s, -, rfl⟩ := List.mem_map.mp hsegment
    refine ⟨⟨q, hq, by rw [hmakes.generated]⟩, ?_⟩
    by_cases hfront : 0 ≤ s.source
    · exact List.mem_of_getElem? (hmakes.front hfront)
    · exact List.mem_of_getElem? (hmakes.back (Int.not_le.mp hfront))
  · rw [Visit.entries_of_not_counts hcounts] at he
    contradiction

/-- **What a unit adds** when it is recorded without a fault: entries behind the others,
on lines from the cursor on, for the unit itself or for sources of its map. -/
theorem addUnit_spec {r r' : Recorder} {u : SourceText}
    (hmaps : ∀ key map, Table.get? r.inherited key = some map → map.Complete)
    (h : r.addUnit u = (r', none)) :
    ∃ added contents, r' = { r with
        entries := r.entries ++ added
        contents := contents
        cursor := r.cursor.after u.content } ∧
      Table.Within r.contents contents ∧
      ∀ e ∈ added, r.cursor.line ≤ e.generated.line ∧ (e.source = u.path ∨ e.source ≠ []) := by
  cases hr : Table.get? r.inherited u.path with
  | none =>
      rw [addUnit_eq hr] at h
      refine ⟨entriesOf r.cursor u, r.contents, (Prod.mk.inj h).1.symm, .refl _, fun e he => ?_⟩
      obtain ⟨q, hq, rfl⟩ := List.mem_map.mp he
      exact ⟨lines_of_mem_linePlaces hq, .inl rfl⟩
  | some map =>
      have hcomplete := hmaps u.path map hr
      obtain ⟨contents, hkept, hadd⟩ := addUnit_of_map hcomplete.contents hr
      rw [hadd] at h
      obtain ⟨hrecorder, hnone⟩ := Prod.mk.inj h
      have hfine : ¬ ∃ v ∈ visits map (linePlaces r.cursor u), v.Fails map := fun hfails => by
        rw [if_pos hfails] at hnone
        contradiction
      rw [if_neg hfine] at hrecorder
      refine ⟨_, contents, hrecorder.symm, hkept, fun e he => ?_⟩
      obtain ⟨v, hv, he⟩ := List.mem_flatMap.mp he
      have hgone := (List.takeWhile_sublist _).subset hv
      obtain ⟨⟨q, hq, hline⟩, hsource⟩ :=
        of_mem_entries hgone (fun hfails => hfine ⟨v, hgone, hfails⟩) he
      exact ⟨hline ▸ lines_of_mem_linePlaces hq, .inr (hcomplete.named _ hsource)⟩

/-! ## steps -/

/-- A step on the way to a map. -/
inductive Step where
  /-- A source is registered. -/
  | register (path content : Text)
  /-- Text that shows no source is passed over. -/
  | add (t : Text)
  /-- A unit is recorded. -/
  | addUnit (u : SourceText)

/-- Why a step cannot be taken. -/
inductive StepFault where
  | inherited (fault : InheritedFault)
  | record (fault : RecordFault)

section

variable {m : Type → Type} [Monad m] [FileStore m] [Journal m]

/-- Takes a step.  With the recorder come the sources that the step has registered: the
canonical path of each, and its text without the reference to its map. -/
def take (r : Recorder) : Step → ExceptT StepFault m (Recorder × Table Text)
  | .register path content => do
    let (cleaned, r) ← (r.register path content).adapt .inherited
    pure (r, [(Path.canonical path, cleaned)])
  | .add t => pure (r.add t, [])
  | .addUnit u =>
    match r.addUnit u with
    | (r, none) => pure (r, [])
    | (_, some fault) => throw (.record fault)

/-- Takes steps one after the other. -/
def takeAll (r : Recorder) : List Step → ExceptT StepFault m (Recorder × Table Text)
  | [] => pure (r, [])
  | step :: rest => do
    let (r, given) ← r.take step
    let (r, later) ← r.takeAll rest
    pure (r, given ++ later)

end

section Run

variable {σ : Type} [FileStore (StateM σ)] [Journal (StateM σ)] {r r' : Recorder}
  {given new : Table Text} {taken steps : List Step} {s s' : σ}

theorem take_register_eq_ok {path content : Text} :
    runAt (r.take (.register path content)) s = (.ok (r', new), s') ↔
      ∃ cleaned map, runAt (inherit content (Path.canonical path)) s = (.ok (cleaned, map), s') ∧
        r' = r.remember (Path.canonical path) cleaned map ∧
          new = [(Path.canonical path, cleaned)] := by
  unfold take register
  simp only [runAt_bind_eq_ok, runAt_adapt_eq_ok, runAt_pure, Prod.mk.injEq, Except.ok.injEq,
    Prod.exists]
  constructor
  · rintro ⟨_, _, _, ⟨cleaned, map, _, hrun, ⟨rfl, rfl⟩, rfl⟩, ⟨rfl, rfl⟩, rfl⟩
    exact ⟨cleaned, map, hrun, rfl, rfl⟩
  · rintro ⟨cleaned, map, hrun, rfl, rfl⟩
    exact ⟨_, _, _, ⟨cleaned, map, _, hrun, ⟨rfl, rfl⟩, rfl⟩, ⟨rfl, rfl⟩, rfl⟩

theorem take_add_eq_ok {t : Text} :
    runAt (r.take (.add t)) s = (.ok (r', new), s') ↔ r' = r.add t ∧ new = [] ∧ s' = s := by
  simp [take, and_assoc, eq_comm]

theorem take_addUnit_eq_ok {u : SourceText} :
    runAt (r.take (.addUnit u)) s = (.ok (r', new), s') ↔
      r.addUnit u = (r', none) ∧ new = [] ∧ s' = s := by
  cases hadd : r.addUnit u with
  | mk next fault =>
      cases fault with
      | none => simp [take, hadd, and_assoc, eq_comm]
      | some fault =>
          simp only [take, hadd, Prod.mk.injEq, reduceCtorEq, and_false, false_and, iff_false]
          intro h
          cases h

theorem takeAll_nil_eq_ok :
    runAt (r.takeAll []) s = (.ok (r', given), s') ↔ r' = r ∧ given = [] ∧ s' = s := by
  simp [takeAll, and_assoc, eq_comm]

theorem takeAll_cons_eq_ok {step : Step} :
    runAt (r.takeAll (step :: steps)) s = (.ok (r', given), s') ↔
      ∃ next new s₁ later, runAt (r.take step) s = (.ok (next, new), s₁) ∧
        runAt (next.takeAll steps) s₁ = (.ok (r', later), s') ∧ given = new ++ later := by
  rw [takeAll]
  simp only [runAt_bind_eq_ok, runAt_pure, Prod.mk.injEq, Except.ok.injEq, Prod.exists]
  constructor
  · rintro ⟨next, new, s₁, hstep, _, later, _, hrest, ⟨rfl, rfl⟩, rfl⟩
    exact ⟨next, new, s₁, later, hstep, hrest, rfl⟩
  · rintro ⟨next, new, s₁, later, hstep, hrest, rfl⟩
    exact ⟨next, new, s₁, hstep, _, later, _, hrest, ⟨rfl, rfl⟩, rfl⟩

/-! ## what holds after steps -/

/-- What holds of a recorder that has taken steps, by which sources were registered. -/
structure Sound (taken : List Step) (given : Table Text) (r : Recorder) : Prop where
  /-- The output begins on the first line. -/
  cursor : 1 ≤ r.cursor.line
  lines : ∀ e ∈ r.entries, 1 ≤ e.generated.line
  /-- Only a unit with an empty path brings an empty path in. -/
  named : (∀ u, Step.addUnit u ∈ taken → u.path ≠ []) → ∀ e ∈ r.entries, e.source ≠ []
  /-- A source holds the text that it was registered with last. -/
  contents : ∀ key cleaned, Table.get? given.reverse key = some cleaned →
    Table.get? r.contents key = some (.text cleaned)
  maps : ∀ key map, Table.get? r.inherited key = some map → map.Complete

theorem sound_start (dest : Text) (delivery : Delivery) (mapPath : Option Text) :
    Sound [] [] (start dest delivery mapPath) where
  cursor := Int.le_refl 1
  lines := by simp [start]
  named := by simp [start]
  contents := by simp
  maps := by simp [start]

/-- **Each step keeps a recorder sound.** -/
theorem Sound.take (h : Sound taken given r) {step : Step}
    (hrun : runAt (r.take step) s = (.ok (r', new), s')) :
    Sound (taken ++ [step]) (given ++ new) r' := by
  have hunits : (∀ u, Step.addUnit u ∈ taken ++ [step] → u.path ≠ []) →
      ∀ u, Step.addUnit u ∈ taken → u.path ≠ [] :=
    fun hpaths u hu => hpaths u (List.mem_append_left _ hu)
  cases step with
  | register path content =>
      obtain ⟨cleaned, map, hinherit, rfl, rfl⟩ := take_register_eq_ok.mp hrun
      refine ⟨h.cursor, h.lines, fun hpaths => h.named (hunits hpaths), fun key t ht => ?_,
        fun key found hfound => ?_⟩
      · rw [List.reverse_append, List.reverse_singleton, List.singleton_append,
          Table.get?_cons] at ht
        by_cases hkey : Path.canonical path = key
        · rw [if_pos hkey] at ht
          rw [← hkey, ← Option.some.inj ht]
          exact Table.get?_insert_self ..
        · rw [if_neg hkey] at ht
          exact (Table.get?_insert_of_ne (Ne.symm hkey)).trans (h.contents key t ht)
      · cases map with
        | none => exact h.maps key found hfound
        | some map =>
            obtain ⟨base, t, hread⟩ := exists_ofText_of_inherit hinherit
            by_cases hkey : key = Path.canonical path
            · have hself : Table.get? (Table.insert r.inherited key map) key = some found := by
                rw [hkey] at hfound ⊢
                exact hfound
              rw [Table.get?_insert_self] at hself
              exact Option.some.inj hself ▸ InheritedMap.complete_of_ofText hread
            · exact h.maps key found ((Table.get?_insert_of_ne hkey).symm.trans hfound)
  | add t =>
      obtain ⟨rfl, rfl, -⟩ := take_add_eq_ok.mp hrun
      rw [List.append_nil]
      exact ⟨Int.le_trans h.cursor (Position.line_le_line_after _ t), h.lines,
        fun hpaths => h.named (hunits hpaths), h.contents, h.maps⟩
  | addUnit u =>
      obtain ⟨hadd, rfl, -⟩ := take_addUnit_eq_ok.mp hrun
      obtain ⟨added, contents, rfl, hkept, hadded⟩ := addUnit_spec h.maps hadd
      rw [List.append_nil]
      refine ⟨Int.le_trans h.cursor (Position.line_le_line_after _ _),
        List.forall_mem_append.mpr ⟨h.lines, fun e he => ?_⟩, fun hpaths =>
          List.forall_mem_append.mpr ⟨h.named (hunits hpaths), fun e he => ?_⟩,
        fun key t ht => hkept key _ (h.contents key t ht), h.maps⟩
      · exact Int.le_trans h.cursor (hadded e he).1
      · rcases (hadded e he).2 with hsource | hsource
        · rw [hsource]
          exact hpaths u (List.mem_append_right _ List.mem_cons_self)
        · exact hsource

/-- **Steps keep a recorder sound.** -/
theorem Sound.takeAll (h : Sound taken given r)
    (hrun : runAt (r.takeAll steps) s = (.ok (r', new), s')) :
    Sound (taken ++ steps) (given ++ new) r' := by
  induction steps generalizing taken given r new s with
  | nil =>
      obtain ⟨rfl, rfl, -⟩ := takeAll_nil_eq_ok.mp hrun
      rwa [List.append_nil, List.append_nil]
  | cons step steps ih =>
      obtain ⟨next, first, s₁, later, hstep, hrest, rfl⟩ := takeAll_cons_eq_ok.mp hrun
      have hsound := ih (h.take hstep) hrest
      rwa [List.append_assoc, List.append_assoc, List.singleton_append] at hsound

/-! ## what steps leave alone -/

/-- A recorder of the same map, with more entries behind those that were there. -/
structure Grows (r r' : Recorder) : Prop where
  sameMap : SameMap r r'
  entries : r.entries <+: r'.entries

theorem Grows.trans {r₁ r₂ r₃ : Recorder} (h : Grows r₁ r₂) (h' : Grows r₂ r₃) : Grows r₁ r₃ :=
  ⟨h.sameMap.trans h'.sameMap, h.entries.trans h'.entries⟩

theorem grows_take (h : Sound taken given r) {step : Step}
    (hrun : runAt (r.take step) s = (.ok (r', new), s')) : Grows r r' := by
  cases step with
  | register path content =>
      obtain ⟨cleaned, map, -, rfl, -⟩ := take_register_eq_ok.mp hrun
      exact ⟨⟨rfl, rfl, rfl⟩, List.prefix_refl _⟩
  | add t =>
      obtain ⟨rfl, -⟩ := take_add_eq_ok.mp hrun
      exact ⟨sameMap_add r t, List.prefix_refl _⟩
  | addUnit u =>
      obtain ⟨hadd, -⟩ := take_addUnit_eq_ok.mp hrun
      obtain ⟨added, contents, rfl, -⟩ := addUnit_spec h.maps hadd
      exact ⟨⟨rfl, rfl, rfl⟩, List.prefix_append _ _⟩

/-- What was recorded stays, whatever steps come later. -/
theorem grows_takeAll (h : Sound taken given r)
    (hrun : runAt (r.takeAll steps) s = (.ok (r', new), s')) : Grows r r' := by
  induction steps generalizing taken given r new s with
  | nil =>
      obtain ⟨rfl, -⟩ := takeAll_nil_eq_ok.mp hrun
      exact ⟨.refl r', List.prefix_refl _⟩
  | cons step steps ih =>
      obtain ⟨next, first, s₁, later, hstep, hrest, -⟩ := takeAll_cons_eq_ok.mp hrun
      exact (grows_take h hstep).trans (ih (h.take hstep) hrest)

end Run

end Recorder

end SourceMerge.Mapping
