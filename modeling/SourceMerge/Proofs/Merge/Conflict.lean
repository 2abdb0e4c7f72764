import SourceMerge.Proofs.Merge.Composition
import SourceMerge.Proofs.Merge.Faithful
import SourceMerge.Proofs.Merge.Refusal
import SourceMerge.Run

/-!
# SourceMerge.Proofs.Merge.Conflict

Linked maps and changed sources.  A linked map does not hold the sources, so it fits
only sources that reach the merge as their files hold them.  Options that ask for a
linked map of changed sources conflict: without force nothing is written, and with
force there is no map.

Whether a map is linked is asked twice, of the conflict by the name as it is written
and of the delivery in whatever case the name is written.  The two agree where a link
is asked for by its plain name (`Options.PlainLink`), as in all options that come from
a configuration.
-/

namespace SourceMerge

open Mapping

/-! ## options that conflict -/

/-- A link is asked for by its plain name. -/
def Options.PlainLink (o : Options) : Prop :=
  Delivery.ofName? o.mapStyle = some .link → o.mapStyle = "link"

/-- A linked map of changed sources is asked for. -/
structure Options.LinksChanged (o : Options) : Prop where
  mapped : o.sourceMap = true
  linked : Delivery.ofName? o.mapStyle = some .link
  changed : o.mutatesContent = true

theorem Merge.conflicts_iff {o : Options} :
    Merge.conflicts o = true ↔
      o.sourceMap = true ∧ o.mapStyle = "link" ∧ o.mutatesContent = true := by
  rw [Merge.conflicts, Bool.and_eq_true, Bool.and_eq_true, beq_iff_eq, and_assoc]

/-- Options conflict exactly if they link changed sources. -/
theorem Options.PlainLink.conflicts_iff {o : Options} (h : o.PlainLink) :
    Merge.conflicts o = true ↔ o.LinksChanged := by
  rw [Merge.conflicts_iff]
  constructor
  · rintro ⟨hmap, hstyle, hchanged⟩
    exact ⟨hmap, by rw [hstyle]; rfl, hchanged⟩
  · rintro ⟨hmap, hlink, hchanged⟩
    exact ⟨hmap, h hlink, hchanged⟩

/-- A style that is read is the plain name of its delivery. -/
theorem Options.name_of_readMapStyle {v : OptionValue} {t : Text}
    (h : Options.readMapStyle v = .ok t) : ∃ delivery : Delivery, t = delivery.name := by
  unfold Options.readMapStyle at h
  split at h
  · split at h
    · next given _ =>
      split at h
      · next hnamed =>
        obtain ⟨delivery, hfound⟩ := Option.isSome_iff_exists.mp hnamed
        have hname := List.find?_some hfound
        exact ⟨delivery, by rw [← Except.ok.inj h, ← beq_iff_eq.mp hname]⟩
      · cases h
    · cases h
    · cases h
  · cases h

/-- Options that are read name a delivery plainly. -/
theorem Options.name_of_read {modules : List HookModule} {base : Option Text}
    {vs : Options.Values} {o : Options} (h : Options.read modules base vs = .ok o) :
    ∃ delivery : Delivery, o.mapStyle = delivery.name := by
  -- The options are read one after the other; only the style matters here.
  obtain ⟨separator, -, h⟩ := bind_eq_ok.mp h
  obtain ⟨banner, -, h⟩ := bind_eq_ok.mp h
  obtain ⟨footer, -, h⟩ := bind_eq_ok.mp h
  obtain ⟨stripBanners, -, h⟩ := bind_eq_ok.mp h
  obtain ⟨process, -, h⟩ := bind_eq_ok.mp h
  obtain ⟨sourceMap, -, h⟩ := bind_eq_ok.mp h
  obtain ⟨mapStyle, hstyle, h⟩ := bind_eq_ok.mp h
  obtain ⟨mapName, -, h⟩ := bind_eq_ok.mp h
  obtain ⟨root, -, h⟩ := bind_eq_ok.mp h
  rw [← Except.ok.inj h]
  unfold Options.readOr at hstyle
  split at hstyle
  · exact Options.name_of_readMapStyle hstyle
  · exact ⟨.embed, (Except.ok.inj hstyle).symm⟩

/-- Options that are read name a link plainly. -/
theorem Options.plainLink_of_read {modules : List HookModule} {base : Option Text}
    {vs : Options.Values} {o : Options} (h : Options.read modules base vs = .ok o) :
    o.PlainLink := by
  obtain ⟨delivery, hname⟩ := Options.name_of_read h
  intro hlink
  rw [hname] at hlink ⊢
  cases delivery with
  | link => rfl
  | embed => contradiction
  | inline => contradiction

/-- The options of a configuration name a link plainly. -/
theorem Options.plainLink_of_ofEntries {modules : List HookModule} {base : Option Text}
    {context : Text} {given : List (Data × OptionValue)} {o : Options}
    (h : Options.ofEntries modules base context given = .ok o) : o.PlainLink := by
  obtain ⟨vs, -, h⟩ := bind_eq_ok.mp h
  exact Options.plainLink_of_read (mapError_eq_ok.mp h)

/-! ## maps that are stored -/

/-- A map that does not hold its sources is linked. -/
theorem Mapping.Recorder.contents_eq_none_iff {r : Recorder} {wd : Text} {d : Document}
    (h : r.document? wd = some d) : d.contents = none ↔ r.delivery = .link := by
  rw [(Recorder.document?_eq_some h).2]
  cases r.delivery <;> simp [Delivery.embedsSources]

section Run

variable {σ : Type} [FileStore (StateM σ)] [Journal (StateM σ)] {I : σ → Prop} {f : Snapshot}

/-- Options that conflict end a merge before anything is written. -/
theorem Shows.merge_refused (h : Shows I f) {o : Options} (hconf : Merge.conflicts o = true)
    (dest : Text) (sources : List Text) (r : Renderer) :
    Answers I (Merge.merge dest sources o false r) (.error (.conflict dest)) := by
  intro s hs
  obtain ⟨s', hs', hrun⟩ := h.leads_merge dest sources o false r s hs
  refine ⟨s', hs', hrun.trans ?_⟩
  rw [Snapshot.plan, Merge.checked, hconf]
  rfl

/-- By force, options that conflict lose their map: a merge stores nothing but its
output. -/
theorem Shows.merge_forced (h : Shows I f) {o : Options} (hconf : Merge.conflicts o = true)
    (dest : Text) (sources : List Text) (r : Renderer) {s : σ} (hs : I s) :
    ∃ s₀, I s₀ ∧ ((∃ fault, runAt (Merge.merge dest sources o true r) s = (.error fault, s₀)) ∨
      ∃ p : Plan, p.map = none ∧ runAt (Merge.merge dest sources o true r) s =
        runAt (p.storeOutput dest none) s₀) := by
  obtain ⟨s₀, hs₀, hrun⟩ := h.leads_merge dest sources o true r s hs
  refine ⟨s₀, hs₀, ?_⟩
  cases hplan : f.plan dest sources o true r with
  | error fault =>
      rw [hplan] at hrun
      exact .inl ⟨fault, hrun⟩
  | ok p =>
      rw [hplan] at hrun
      obtain ⟨o', start, gs, hchecked, hp⟩ := Snapshot.planned_of_plan hplan
      have hoff : o'.sourceMap = false := by
        rw [(Merge.checked_fields hchecked).1, Merge.isMapped, hconf]
        simp
      have hnone : p.map = none := by
        rcases hp.map_cases with ⟨-, -, hnone⟩ | ⟨_, _, _, hon, -⟩
        · exact hnone
        · rw [hoff] at hon
          contradiction
      refine .inr ⟨p, hnone, hrun.trans ?_⟩
      change runAt (p.storeMap >>= p.storeOutput dest) s₀ = _
      unfold Plan.storeMap
      rw [hnone]
      rfl

/-- A map that is stored as a file is the map of options that do not conflict. -/
theorem Shows.stores_map_of_merge (h : Shows I f) {dest : Text} {sources : List Text} {o : Options}
    {force : Bool} {r : Renderer} {s s' : σ} {out : Outcome} {path : Text} (hs : I s)
    (hrun : runAt (Merge.merge dest sources o force r) s = (.ok out, s'))
    (hpath : out.mapPath = some path) :
    o.sourceMap = true ∧ Merge.conflicts o = false ∧
      ∃ (document : Document) (output : Text) (s₀ s₁ : σ), I s₀ ∧
        Stores path document.serialized s₀ s₁ ∧ Stores dest output s₁ s' ∧
        (document.contents = none ↔ Delivery.ofName? o.mapStyle = some .link) := by
  obtain ⟨p, hplan, rfl, s₀, s₁, hs₀, hmap, hstores⟩ := h.stores_of_merge hs hrun
  obtain ⟨o', start, gs, hchecked, hp⟩ := Snapshot.planned_of_plan hplan
  obtain ⟨rfl, -⟩ := Merge.checked_fields hchecked
  have hpath : p.mapPath? = some path := hpath
  obtain ⟨x, hx, hfile⟩ := Option.bind_eq_some_iff.mp hpath
  rw [Option.ite_none_right_eq_some, Option.some.injEq] at hfile
  obtain ⟨hfile, rfl⟩ := hfile
  rcases hp.map_cases with ⟨-, -, hnone⟩ | ⟨delivery, _, x', hon, hstyle, -, hx', hsame, -, hdoc, -⟩
  · rw [hx] at hnone
    contradiction
  · obtain rfl : x = x' := Option.some.inj (hx.symm.trans hx')
    have hmapped : o.sourceMap = true ∧ Merge.conflicts o = false := by
      simpa [Merge.isMapped] using hon
    refine ⟨hmapped.1, hmapped.2, x.document, p.output, s₀, s₁, hs₀, (hmap.file hx hfile).2, hstores,
      ?_⟩
    have hstyle : Delivery.ofName? o.mapStyle = some delivery := hstyle
    rw [Recorder.contents_eq_none_iff hdoc, hsame.delivery, hstyle, Option.some.injEq]
    rfl

end Run

/-! ## targets -/

section Target

variable {σ : Type} [FileStore (StateM σ)] [Journal (StateM σ)]

/-- Loading does not begin a map. -/
theorem recorder_of_loadAll {o : Options} {r : Renderer} {sources : List Text}
    {l l' : Merge.Loaded} {s s' : σ} (hl : l.recorder = none)
    (hrun : runAt (Merge.loadAll o r l sources) s = (.ok l', s')) : l'.recorder = none := by
  induction sources generalizing l s with
  | nil =>
      obtain ⟨rfl, -⟩ : l = l' ∧ s = s' := by simpa [Merge.loadAll] using hrun
      exact hl
  | cons path rest ih =>
      rw [Merge.loadAll] at hrun
      obtain ⟨found, s₁, -, hrun⟩ := runAt_bind_eq_ok.mp hrun
      split at hrun
      · refine ih ?_ hrun
        exact hl
      · obtain ⟨folder, s₂, -, hrun⟩ := runAt_bind_eq_ok.mp hrun
        split at hrun
        · obtain ⟨_, s₃, -, hrun⟩ := runAt_bind_eq_ok.mp hrun
          exact ih hl hrun
        · obtain ⟨loaded, s₃, hone, hrun⟩ := runAt_bind_eq_ok.mp hrun
          refine ih ?_ hrun
          obtain ⟨_, s₄, -, hone⟩ := runAt_bind_eq_ok.mp hone
          obtain ⟨_, s₅, -, hone⟩ := runAt_bind_eq_ok.mp hone
          obtain ⟨content, s₆, -, hone⟩ := runAt_bind_eq_ok.mp hone
          simp only [hl, runAt_pure, Prod.mk.injEq, Except.ok.injEq] at hone
          rw [← hone.1]

/-- A merge that is not mapped stores no map. -/
theorem mapPath_of_mergeInto {dest : Text} {sources : List Text} {o : Options} {r : Renderer}
    {out : Outcome} {s s' : σ} (hoff : o.sourceMap = false)
    (hrun : runAt (Merge.mergeInto dest sources o r) s = (.ok out, s')) : out.mapPath = none := by
  obtain ⟨banner, s₁, -, hrun⟩ := runAt_bind_eq_ok.mp hrun
  obtain ⟨footer, s₂, -, hrun⟩ := runAt_bind_eq_ok.mp hrun
  obtain ⟨recorder, s₃, hstart, hrun⟩ := runAt_bind_eq_ok.mp hrun
  obtain ⟨loaded, s₄, hload, hrun⟩ := runAt_bind_eq_ok.mp hrun
  obtain ⟨_, s₅, -, hrun⟩ := runAt_bind_eq_ok.mp hrun
  obtain ⟨contents, s₆, -, hrun⟩ := runAt_bind_eq_ok.mp hrun
  obtain ⟨g, s₇, -, hrun⟩ := runAt_bind_eq_ok.mp hrun
  obtain ⟨found, s₈, -, hrun⟩ := runAt_bind_eq_ok.mp hrun
  obtain ⟨assembly, s₉, -, hrun⟩ := runAt_bind_eq_ok.mp hrun
  obtain ⟨excluded, t, -, hrun⟩ := runAt_bind_eq_ok.mp hrun
  obtain ⟨⟨comment, mapPath⟩, t₁, hfinish, hrun⟩ := runAt_bind_eq_ok.mp hrun
  obtain ⟨written, t₂, -, hrun⟩ := runAt_bind_eq_ok.mp hrun
  have hstart : recorder = none := by
    rw [Merge.startRecorder, hoff] at hstart
    exact (Except.ok.inj (Prod.mk.inj hstart).1).symm
  rw [recorder_of_loadAll hstart hload] at hfinish
  have hpath : mapPath = none := by
    have hpair := Except.ok.inj (Prod.mk.inj hfinish).1
    exact (Prod.mk.inj hpair).2.symm
  cases written with
  | error fault => cases (Prod.mk.inj hrun).1
  | ok _ =>
      obtain ⟨_, t₃, -, hrun⟩ := runAt_bind_eq_ok.mp hrun
      rw [← Except.ok.inj (Prod.mk.inj hrun).1]
      exact hpath

omit [FileStore (StateM σ)] [Journal (StateM σ)] in
theorem exists_of_mem_mapM {ε α γ : Type} {g : γ → ExceptT ε (StateM σ) α} {l : List γ}
    {as : List α} {s s' : σ} (hrun : runAt (l.mapM g) s = (.ok as, s')) :
    ∀ a ∈ as, ∃ c ∈ l, ∃ t t', runAt (g c) t = (.ok a, t') := by
  induction l generalizing as s s' with
  | nil =>
      rw [← Except.ok.inj (Prod.mk.inj hrun).1]
      simp
  | cons c l ih =>
      rw [List.mapM_cons] at hrun
      obtain ⟨a, s₁, hfirst, hrest⟩ := runAt_bind_eq_ok.mp hrun
      obtain ⟨rest, s₂, hlater, hend⟩ := runAt_bind_eq_ok.mp hrest
      rw [← Except.ok.inj (Prod.mk.inj hend).1, List.forall_mem_cons]
      refine ⟨⟨c, List.mem_cons_self, s, s₁, hfirst⟩, fun b hb => ?_⟩
      obtain ⟨d, hd, hone⟩ := ih hlater b hb
      exact ⟨d, List.mem_cons_of_mem c hd, hone⟩

omit [FileStore (StateM σ)] in
/-- Options that are not refused are gone on with. -/
theorem checked_of_checkSourceMap {o : Options} {force : Bool} {label : Text}
    {c : Options × Option Diagnostic} {s s' : σ}
    (hrun : runAt (Merge.checkSourceMap o force label) s = (.ok c, s')) :
    Merge.checked o force label = .ok c := by
  unfold Merge.checked
  cases hconf : Merge.conflicts o with
  | false =>
      rw [Merge.checkSourceMap_of_fit hconf] at hrun
      exact (Prod.mk.inj hrun).1
  | true =>
      cases force with
      | false =>
          rw [Merge.checkSourceMap_refused hconf] at hrun
          cases (Prod.mk.inj hrun).1
      | true =>
          rw [Merge.checkSourceMap_forced hconf] at hrun
          exact (Prod.mk.inj hrun).1

/-- The outputs of a target have maps only if its options do not conflict. -/
theorem conflicts_of_runTarget [FolderView (StateM σ)] {t : Target} {force : Bool} {r : Renderer}
    {outs : List Outcome} {s s' : σ} (hrun : runAt (Run.runTarget t force r) s = (.ok outs, s')) :
    ∀ out ∈ outs, out.mapPath ≠ none → Merge.conflicts t.options = false := by
  obtain ⟨_, s₁, -, hrun⟩ := runAt_bind_eq_ok.mp hrun
  obtain ⟨⟨o, notice⟩, s₂, hcheck, hrun⟩ := runAt_bind_eq_ok.mp hrun
  obtain ⟨found, s₃, hmerges, hend⟩ := runAt_bind_eq_ok.mp hrun
  rw [← Except.ok.inj (Prod.mk.inj hend).1, List.forall_mem_map]
  intro out hout hpath
  obtain ⟨d, -, u, u', hone⟩ := exists_of_mem_mapM hmerges out hout
  obtain ⟨sources, u₁, -, hmerge⟩ := runAt_bind_eq_ok.mp hone
  have hfields := (Merge.checked_fields (checked_of_checkSourceMap hcheck)).1
  rw [← Bool.not_eq_true]
  intro hconf
  have hoff : o.sourceMap = false := by simp [hfields, Merge.isMapped, hconf]
  have hnone : out.mapPath = none := mapPath_of_mergeInto hoff hmerge
  exact hpath hnone

/-- Options that conflict end the run of a target before anything is written. -/
theorem Shows.runTarget_refused [FolderView (StateM σ)] {I : σ → Prop} {f : Snapshot}
    (h : Shows I f) {t : Target} (hconf : Merge.conflicts t.options = true) (r : Renderer) :
    Answers I (Run.runTarget t false r) (.error (.conflict t.name)) := by
  refine (h.gives_report _ _ _).bind_answers ?_
  have hcheck := h.answers_checked t.options false t.name
  rw [Merge.checked, hconf] at hcheck
  exact hcheck.bind (h := fun _ => .error (.conflict t.name)) fun _ hc => by cases hc

/-! ## linked maps -/

/-- **Linked maps are maps of unchanged sources**, if the link is asked for by its
plain name, as the options of every configuration do.  A merge that returns and has
stored a map that does not hold its sources did not change them.  A linked map of
changed sources is refused before anything is written, or by force it is left out, and
nothing but the output is written.  The same goes for the outputs of a target. -/
theorem merge_links_unchanged {I : σ → Prop} {f : Snapshot} (h : Shows I f) {s : σ} (hs : I s)
    (o : Options) (force : Bool) (r : Renderer) :
    (∀ modules base context given, Options.ofEntries modules base context given = .ok o →
      o.PlainLink) ∧
    (o.PlainLink →
      (∀ dest sources out path s',
        runAt (Merge.merge dest sources o force r) s = (.ok out, s') → out.mapPath = some path →
        ∃ (document : Document) (output : Text) (s₀ s₁ : σ), I s₀ ∧
          Stores path document.serialized s₀ s₁ ∧ Stores dest output s₁ s' ∧
          (document.contents = none → o.mutatesContent = false)) ∧
      (o.LinksChanged → ∀ dest sources, ∃ s₀, I s₀ ∧
        if force then
          (∃ fault, runAt (Merge.merge dest sources o force r) s = (.error fault, s₀)) ∨
            ∃ p : Plan, p.map = none ∧
              runAt (Merge.merge dest sources o force r) s = runAt (p.storeOutput dest none) s₀
        else runAt (Merge.merge dest sources o force r) s = (.error (.conflict dest), s₀)) ∧
      ∀ [FolderView (StateM σ)] (t : Target), t.options = o →
        (∀ outs (u u' : σ), runAt (Run.runTarget t force r) u = (.ok outs, u') →
          ∀ out ∈ outs, out.mapPath ≠ none → ¬ o.LinksChanged) ∧
        (o.LinksChanged → force = false → ∃ s₀, I s₀ ∧
          runAt (Run.runTarget t force r) s = (.error (.conflict t.name), s₀))) := by
  refine ⟨fun _ _ _ _ hread => Options.plainLink_of_ofEntries hread, fun hplain =>
    ⟨fun dest sources out path s' hrun hpath => ?_, fun hlinks dest sources => ?_, ?_⟩⟩
  · obtain ⟨hmap, hconf, document, output, s₀, s₁, hs₀, hstored, hstores, hlink⟩ :=
      h.stores_map_of_merge hs hrun hpath
    refine ⟨document, output, s₀, s₁, hs₀, hstored, hstores, fun hnone => ?_⟩
    by_contra hchanged
    have hlinks : o.LinksChanged := ⟨hmap, hlink.mp hnone, by simpa using hchanged⟩
    rw [hplain.conflicts_iff.mpr hlinks] at hconf
    contradiction
  · have hconf := hplain.conflicts_iff.mpr hlinks
    cases force with
    | true => exact h.merge_forced hconf dest sources r hs
    | false => exact h.merge_refused hconf dest sources r s hs
  · rintro _ t rfl
    refine ⟨fun outs u u' hrun out hout hpath hlinks => ?_, fun hlinks hforce => ?_⟩
    · have hconf := conflicts_of_runTarget hrun out hout hpath
      rw [hplain.conflicts_iff.mpr hlinks] at hconf
      contradiction
    · subst hforce
      exact h.runTarget_refused (hplain.conflicts_iff.mpr hlinks) r s hs

end Target

/-- Options for a linked map of sources without their banners. -/
def linkedAs (name : Text) : Options :=
  { stripBanners := some {}, sourceMap := true, mapStyle := name }

theorem merge_links_unchanged_twoFiles :
    ∃ w : MemoryWorld, w.memory = twoFiles.memory ∧
      runAt (Merge.merge "out.js" someSources (linkedAs "link") false Renderer.plain) twoFiles =
        (.error (.conflict "out.js"), w) := by
  have hplain : (linkedAs "link").PlainLink := fun _ => rfl
  have hlinks : (linkedAs "link").LinksChanged := ⟨rfl, rfl, rfl⟩
  exact ((merge_links_unchanged (s := twoFiles) twoFiles.memory.shows rfl (linkedAs "link") false
    .plain).2 hplain).2.1 hlinks "out.js" someSources

/-- **A link in other words slips through**: written with a capital letter it is no
conflict, and a map is stored that does not hold the changed sources. -/
theorem merge_links_changed_twoFiles :
    ∃ (out : Outcome) (w' : MemoryWorld) (document : Document) (s₀ s₁ : MemoryWorld),
      runAt (Merge.merge "out.js" someSources (linkedAs "Link") false Renderer.plain) twoFiles =
        (.ok out, w') ∧
      out.mapPath = some "out.js.map".toList ∧
      Stores "out.js.map" document.serialized s₀ s₁ ∧ document.contents = none ∧
      (linkedAs "Link").mutatesContent = true := by
  obtain ⟨out, w', hrun⟩ : ∃ out w', runAt (Merge.merge "out.js" someSources (linkedAs "Link")
      false Renderer.plain) twoFiles = (.ok out, w') :=
    exists_merge_memory false (some (Recorder.start "out.js" .link (some "out.js.map")))
      [("b.js", ⟨some "y = 1;\ndependsOn(\"a.js\")", none⟩), ("a.js", ⟨some "x\n", none⟩),
        ("a.js", ⟨some "x\n", none⟩)] (by simp) rfl rfl rfl rfl rfl (by simp)
  obtain ⟨p, hplan, rfl, -⟩ := twoFiles.memory.shows.stores_of_merge rfl hrun
  have hpath : p.mapPath? = some "out.js.map".toList := by
    obtain ⟨o', start, gs, hchecked, hp⟩ := Snapshot.planned_of_plan hplan
    obtain ⟨rfl, -⟩ := Merge.checked_fields hchecked
    obtain ⟨path, x, hname, hx, hsame, -⟩ := hp.exists_mapped rfl
      (show Delivery.ofName? "Link".toList = some .link from rfl)
    obtain rfl : some "out.js.map".toList = path := Except.ok.inj hname
    simp [Plan.mapPath?, hx, hsame.delivery, hsame.mapPath, Recorder.start, Delivery.isFile, orBeside]
  obtain ⟨-, -, document, output, s₀, s₁, -, hstored, -, hlink⟩ :=
    twoFiles.memory.shows.stores_map_of_merge rfl hrun hpath
  exact ⟨_, w', document, s₀, s₁, hrun, hpath, hstored, hlink.mpr rfl, rfl⟩

end SourceMerge
