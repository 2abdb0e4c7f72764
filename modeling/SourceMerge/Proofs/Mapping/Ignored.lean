import SourceMerge.Proofs.Mapping.Comment
import SourceMerge.Proofs.Mapping.Inherited
import SourceMerge.Proofs.Store.Snapshot

/-!
# SourceMerge.Proofs.Mapping.Ignored

What becomes of a file whose map cannot be used.  Its reference is gone in any case,
and one warning says that the map is ignored, whatever is wrong with it: the map
cannot be read, is not Base64, not UTF-8, not JSON, of another version or another
shape, or has mappings that cannot be decoded.  There is one exception: a map that is
as it should be, but for mappings that are no text, ends the program
(`InheritedMap.ofText_eq_mappingsNotText`).
-/

namespace SourceMerge.Mapping

/-! ## maps whose mappings are no text -/

/-- A text is the JSON of a map in which everything that is looked at before the
mappings is as it should be, and in which the mappings are something other than a
text. -/
def MappingsNotText (base t : Text) : Prop :=
  ∃ (entries : Entries) (version mappings : Data) (sources : List Text) (contents : List Data),
    Json.parse? t = some (.map entries) ∧
      (Data.map entries).field? "version" = some version ∧ version.same (.int 3) = true ∧
      sourcesOf? base (.map entries) = some sources ∧
      contentsOf? sources.length (.map entries) = some contents ∧
      (Data.map entries).field? "mappings" = some mappings ∧ ∀ u, mappings ≠ .text u

/-- A field with a default that will not do is given. -/
theorem exists_of_getD {field : Option Data} {default : Data} {P : Data → Prop} (h : ¬ P default)
    (hfield : P (field.getD default)) : ∃ d, field = some d ∧ P d := by
  cases field with
  | none => exact absurd hfield h
  | some d => exact ⟨d, rfl, hfield⟩

theorem InheritedMap.ofDocument_eq_mappingsNotText {base : Text} {entries : Entries} :
    InheritedMap.ofDocument base (.map entries) = .error .mappingsNotText ↔
      ∃ (version mappings : Data) (sources : List Text) (contents : List Data),
        (Data.map entries).field? "version" = some version ∧ version.same (.int 3) = true ∧
          sourcesOf? base (.map entries) = some sources ∧
          contentsOf? sources.length (.map entries) = some contents ∧
          (Data.map entries).field? "mappings" = some mappings ∧ ∀ u, mappings ≠ .text u := by
  unfold InheritedMap.ofDocument
  constructor
  · intro h
    simp only at h
    split at h
    · next hversion =>
      obtain ⟨version, hfield, hthree⟩ := exists_of_getD (P := fun d => d.same (.int 3) = true)
        (by simp [Data.same]) hversion
      cases hsources : sourcesOf? base (.map entries) with
      | none => simp [hsources] at h
      | some sources =>
          cases hcontents : contentsOf? sources.length (.map entries) with
          | none => simp [hsources, hcontents] at h
          | some contents =>
              simp only [hsources, hcontents] at h
              split at h
              · split at h <;> cases h
              · next hmappings =>
                obtain ⟨mappings, hgiven, htext⟩ := exists_of_getD (P := fun d => ∀ u, d ≠ .text u)
                  (fun h => h [] rfl) hmappings
                exact ⟨version, mappings, sources, contents, hfield, hthree, rfl, hcontents, hgiven,
                  htext⟩
    · cases h
  · rintro ⟨version, mappings, sources, contents, hversion, hthree, hsources, hcontents, hmappings,
      htext⟩
    simp only [hversion, Option.getD_some, hthree, if_true, hsources, hcontents, hmappings]

/-- When the text of a map ends the program. -/
theorem InheritedMap.ofText_eq_mappingsNotText {base t : Text} :
    InheritedMap.ofText base t = .error .mappingsNotText ↔ MappingsNotText base t := by
  unfold InheritedMap.ofText MappingsNotText
  constructor
  · intro h
    cases hparse : Json.parse? t with
    | none => simp [hparse] at h
    | some document =>
        rw [hparse] at h
        cases document with
        | map entries =>
            obtain ⟨version, mappings, sources, contents, hmap⟩ :=
              InheritedMap.ofDocument_eq_mappingsNotText.mp h
            exact ⟨entries, version, mappings, sources, contents, rfl, hmap⟩
        | _ => cases h
  · rintro ⟨entries, version, mappings, sources, contents, hparse, hmap⟩
    rw [hparse]
    exact InheritedMap.ofDocument_eq_mappingsNotText.mpr
      ⟨version, mappings, sources, contents, hmap⟩

section Run

variable {σ : Type} [FileStore (StateM σ)]

/-- Finding the text of a map does not tell what its mappings are. -/
theorem fetch_ne_mappingsNotText (location : Location) (s : σ) :
    (StateT.run (location.fetch : StateM σ _) s).1 ≠ .error .mappingsNotText := by
  cases location with
  | carried digits =>
      change carriedText digits ≠ _
      unfold carriedText
      split
      · simp
      · split <;> simp
  | file path =>
      change (StateT.run (FileStore.read path : StateM σ (Except StoreFault Text)) s).1.mapError
        InheritedFault.unreadable ≠ _
      cases StateT.run (FileStore.read path : StateM σ (Except StoreFault Text)) s with
      | mk result s' => cases result <;> simp [Except.mapError]

/-- When a map that is looked for ends the program. -/
theorem bind_ofText_eq_mappingsNotText {location : Location} {s s₁ : σ}
    {found : Except InheritedFault Text} (h : StateT.run (location.fetch : StateM σ _) s = (found, s₁))
    (base : Text) :
    found.bind (InheritedMap.ofText base) = .error .mappingsNotText ↔
      ∃ t, found = .ok t ∧ MappingsNotText base t := by
  cases found with
  | error fault =>
      have hfetch := fetch_ne_mappingsNotText location s
      rw [h] at hfetch
      simpa [Except.bind] using hfetch
  | ok t => simpa [Except.bind] using InheritedMap.ofText_eq_mappingsNotText

variable [Journal (StateM σ)]

/-- Taking the map of a file, step by step. -/
theorem runAt_inherit_reference {content file name cleaned : Text}
    (href : findReference? content = some (name, cleaned)) {s s₁ : σ}
    {found : Except InheritedFault Text}
    (h : StateT.run ((locate file name).fetch : StateM σ _) s = (found, s₁)) :
    runAt (inherit content file) s =
      match found.bind (InheritedMap.ofText ((locate file name).base file)) with
      | .ok map =>
        (.ok (cleaned, some map),
          (StateT.run (report .debug speaker (loadedNote file map) : StateM σ Unit) s₁).2)
      | .error .mappingsNotText => (.error .mappingsNotText, s₁)
      | .error fault =>
        (.ok (cleaned, none),
          (StateT.run (report .warning speaker (ignoredNote file fault) : StateM σ Unit) s₁).2) := by
  have hload : StateT.run ((locate file name).load file : StateM σ _) s =
      (found.bind (InheritedMap.ofText ((locate file name).base file)), s₁) := by
    rw [Location.load, StateT.run_bind, h]
    rfl
  unfold inherit
  simp only [href, runAt_bind, runAt_lift, hload]
  cases found.bind (InheritedMap.ofText ((locate file name).base file)) with
  | ok map => rfl
  | error fault => cases fault <;> rfl

/-- **A map that cannot be used is ignored.**  A file that names no map is left as it
is.  Any other file loses its last comment that names a map, and it gets the map or a
warning, but never a fault: unless the text of the map is there and its mappings are
no text, which ends the program.  The reader of JSON is taken to read a document of any
depth; one that recurses, and gives up with a fault of its own when lists or mappings
are nested deeper than it can recurse, ends the program there as well. -/
theorem inherit_ends (content file : Text) (s : σ) :
    ((∀ line ∈ linesWithEnds content, ∀ name left, ¬ NamesMap name left line) ∧
      runAt (inherit content file) s = (.ok (content, none), s)) ∨
    ∃ (name cleaned base : Text) (found : Except InheritedFault Text) (s₁ : σ),
      WithoutReference content name cleaned ∧ base = (locate file name).base file ∧
      StateT.run ((locate file name).fetch : StateM σ _) s = (found, s₁) ∧
      ((∃ t, found = .ok t ∧ MappingsNotText base t ∧
          runAt (inherit content file) s = (.error .mappingsNotText, s₁)) ∨
        (∀ t, found = .ok t → ¬ MappingsNotText base t) ∧
          ((∃ map, found.bind (InheritedMap.ofText base) = .ok map ∧
              runAt (inherit content file) s = (.ok (cleaned, some map),
                (StateT.run (report .debug speaker (loadedNote file map) : StateM σ Unit) s₁).2)) ∨
            ∃ fault, found.bind (InheritedMap.ofText base) = .error fault ∧
              runAt (inherit content file) s = (.ok (cleaned, none),
                (StateT.run (report .warning speaker (ignoredNote file fault) :
                  StateM σ Unit) s₁).2))) := by
  cases href : findReference? content with
  | none =>
      refine .inl ⟨findReference?_eq_none.mp href, ?_⟩
      rw [inherit, href]
      rfl
  | some reference =>
      obtain ⟨name, cleaned⟩ := reference
      obtain ⟨found, s₁, hfetch⟩ : ∃ found s₁,
          StateT.run ((locate file name).fetch : StateM σ _) s = (found, s₁) := ⟨_, _, rfl⟩
      have hrun := runAt_inherit_reference href hfetch
      have hends := bind_ofText_eq_mappingsNotText hfetch ((locate file name).base file)
      refine .inr ⟨name, cleaned, _, found, s₁, findReference?_eq_some.mp href, rfl, hfetch, ?_⟩
      by_cases hbad : ∃ t, found = .ok t ∧ MappingsNotText ((locate file name).base file) t
      · rw [hends.mpr hbad] at hrun
        obtain ⟨t, ht, hmappings⟩ := hbad
        exact .inl ⟨t, ht, hmappings, hrun⟩
      · refine .inr ⟨fun t ht hmappings => hbad ⟨t, ht, hmappings⟩, ?_⟩
        cases hmap : found.bind (InheritedMap.ofText ((locate file name).base file)) with
        | ok map =>
            rw [hmap] at hrun
            exact .inl ⟨map, rfl, hrun⟩
        | error fault =>
            rw [hmap] at hrun
            refine .inr ⟨fault, rfl, ?_⟩
            cases fault with
            | mappingsNotText => exact absurd (hends.mp hmap) hbad
            | _ => exact hrun

end Run

/-- A map that is as it should be but for its mappings. -/
def nullMappings : Table Data :=
  [("version".toList, .int 3), ("sources".toList, .list []), ("mappings".toList, .null)]

theorem mappingsNotText_nullMappings (base : Text) :
    MappingsNotText base (Json.render (.map (Json.membersOf nullMappings))) := by
  have hkept : Json.Kept (.map (Json.membersOf nullMappings)) := by
    refine .map (by decide) fun row hrow => ?_
    simp only [nullMappings, List.mem_cons, List.not_mem_nil, or_false] at hrow
    rcases hrow with rfl | rfl | rfl
    · exact .int (by decide)
    · exact .list (by simp)
    · exact .null
  have hfield : ∀ key, (Data.map (Json.membersOf nullMappings)).field? key =
      Table.get? nullMappings key := Document.field?_membersOf nullMappings
  refine ⟨_, .int 3, .null, [], [], Json.parse?_render hkept, ?_,
    by simp [Data.same], ?_, ?_, ?_, by simp⟩
  · exact hfield _
  · rw [sourcesOf?, hfield]
    rfl
  · rw [contentsOf?, hfield]
    rfl
  · exact hfield _

/-- **One kind of bad map ends the program**: a file names a map whose mappings are
`null`. -/
theorem inherit_ends_nullMappings :
    let w : MemoryWorld := { memory :=
      { files := [("build/min.js.map", Json.render (.map (Json.membersOf nullMappings)))] } }
    runAt (inherit "x;y;\n//# sourceMappingURL=min.js.map\n" "build/min.js") w =
      (.error .mappingsNotText, w) := by
  intro w
  have href : findReference? "x;y;\n//# sourceMappingURL=min.js.map\n" =
      some ("min.js.map".toList, "x;y;\n".toList) := by decide +kernel
  have hfetch : StateT.run ((locate "build/min.js" "min.js.map").fetch : StateM MemoryWorld _) w =
      (.ok (Json.render (.map (Json.membersOf nullMappings))), w) := rfl
  rw [runAt_inherit_reference href hfetch,
    (bind_ofText_eq_mappingsNotText hfetch _).mpr ⟨_, rfl, mappingsNotText_nullMappings _⟩]

end SourceMerge.Mapping
