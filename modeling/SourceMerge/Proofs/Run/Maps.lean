import SourceMerge.Proofs.Json.Visible
import SourceMerge.Proofs.Merge.Faithful
import SourceMerge.Proofs.Mapping.Inherited
import SourceMerge.Proofs.Path.Directory
import SourceMerge.Proofs.Run.Looking
import SourceMerge.Proofs.Run.Phases
import SourceMerge.Proofs.Store.Disk

/-!
# SourceMerge.Proofs.Run.Maps

The maps that a run leaves behind.  A run merges one output after the other, and
each merge stores its map, if that is a file, and then its output.  `Leaves` says
what has become of the files after some outputs: away from the outputs, a file is the
map of the last output whose map has its location, and as it was if there is no such
output.  What one merge leaves is known from its plan, and what several leave is put
together (`Leaves.append`) along the outputs of a target and the targets of a run.
-/

namespace SourceMerge

open Mapping

/-! ## what merges leave behind -/

section Leaves

variable {σ : Type} [FileStore (StateM σ)]

/-- The file at a path is a map of an output: seen from the directory of the path,
the file that it names is the output. -/
def HoldsMapOf (wd path dest : Text) (s : σ) : Prop :=
  ∃ d : Document, Reads path d.serialized s ∧
    Path.located wd (Path.join (Path.directory path) d.file) = Path.located wd dest

/-- The paths that a merge has stored to. -/
structure Stored where
  dest : Text
  /-- Where the map is, if it is a file. -/
  mapPath : Option Text
  deriving DecidableEq

/-- Where an outcome was stored. -/
def Outcome.stored (out : Outcome) : Stored := ⟨out.dest, out.mapPath⟩

/-- The map of an output has the location of a path. -/
def Stored.mapsAt (wd path : Text) (w : Stored) : Bool :=
  w.mapPath.any fun m => Path.located wd m == Path.located wd path

/-- The last of some outputs whose map has the location of a path. -/
def lastMapped? (wd path : Text) (ws : List Stored) : Option Stored :=
  ws.reverse.find? (Stored.mapsAt wd path)

/-- The file at a path is the map of an output, whose map has the location of the path. -/
def HoldsMap (wd path : Text) (w : Stored) (s : σ) : Prop :=
  ∃ m ∈ w.mapPath, Path.located wd m = Path.located wd path ∧
    ∃ d : Document, Reads path d.serialized s ∧
      Path.located wd (Path.join (Path.directory m) d.file) = Path.located wd w.dest

/-- No output has the location of a path. -/
def Apart (wd path : Text) (ws : List Stored) : Prop :=
  ∀ w ∈ ws, Path.located wd path ≠ Path.located wd w.dest

/-- A file is found at a path when some outputs are stored: one is there already, or it
is the path that one of them gives to its map. -/
def Found (path : Text) (ws : List Stored) (s : σ) : Prop :=
  (∃ t, Reads path t s) ∨ ∃ w ∈ ws, w.mapPath = some path

/-- What storing some outputs has made of the files. -/
structure Leaves (I : σ → Prop) (wd : Text) (ws : List Stored) (s s' : σ) : Prop where
  inv : I s'
  reads : ∀ path t, Apart wd path ws → lastMapped? wd path ws = none → Reads path t s →
    Reads path t s'
  maps : ∀ path w, Apart wd path ws → lastMapped? wd path ws = some w → Found path ws s →
    HoldsMap wd path w s'

variable {I : σ → Prop} {wd path : Text} {s s₁ s' : σ} {ws vs : List Stored} {w : Stored}

omit [FileStore (StateM σ)] in
theorem Stored.mapsAt_iff : w.mapsAt wd path = true ↔
    ∃ m ∈ w.mapPath, Path.located wd m = Path.located wd path := by
  simp [mapsAt, Option.any_eq_true]

omit [FileStore (StateM σ)] in
theorem lastMapped?_append : lastMapped? wd path (ws ++ vs) =
    (lastMapped? wd path vs).or (lastMapped? wd path ws) := by
  rw [lastMapped?, List.reverse_append, List.find?_append]
  rfl

omit [FileStore (StateM σ)] in
theorem lastMapped?_eq_none :
    lastMapped? wd path ws = none ↔ ∀ w ∈ ws, w.mapsAt wd path = false := by
  simp [lastMapped?, List.find?_eq_none]

omit [FileStore (StateM σ)] in
/-- Of the outputs whose map has the location of a path, the last is the one that no
other one follows. -/
theorem lastMapped?_of_last (hmaps : w.mapsAt wd path = true)
    (hafter : ∀ v ∈ vs, v.mapsAt wd path = false) :
    lastMapped? wd path (ws ++ w :: vs) = some w := by
  rw [List.append_cons, lastMapped?_append, lastMapped?_eq_none.mpr hafter, lastMapped?_append]
  simp [lastMapped?, hmaps]

theorem apart_append : Apart wd path (ws ++ vs) ↔ Apart wd path ws ∧ Apart wd path vs :=
  List.forall_mem_append

theorem apart_nil : Apart wd path [] := List.forall_mem_nil _

/-- A state that reads the same leaves everything as it was. -/
theorem Leaves.nil (hI : I s') (h : ∀ path t, Reads path t s → Reads path t s') :
    Leaves I wd [] s s' :=
  ⟨hI, fun path t _ _ hread => h path t hread, fun _ _ _ hlast _ => by cases hlast⟩

/-- Storing no output changes nothing. -/
theorem Leaves.reads_of_nil (h : Leaves I wd [] s s') {t : Text} (hread : Reads path t s) :
    Reads path t s' :=
  h.reads path t apart_nil rfl hread

/-- A path at which a file is found can be read in the end. -/
theorem Leaves.found (h : Leaves I wd ws s s') (hapart : Apart wd path ws)
    (hfound : Found path ws s) (vs : List Stored) : Found path vs s' := by
  refine .inl ?_
  cases hlast : lastMapped? wd path ws with
  | some w =>
      obtain ⟨m, -, -, d, hread, -⟩ := h.maps path w hapart hlast hfound
      exact ⟨_, hread⟩
  | none =>
      rcases hfound with ⟨t, hread⟩ | ⟨w, hw, hpath⟩
      · exact ⟨t, h.reads path t hapart hlast hread⟩
      · have hmaps := lastMapped?_eq_none.mp hlast w hw
        simp [Stored.mapsAt, hpath] at hmaps

/-- Outputs are stored behind others. -/
theorem Leaves.append (h : Leaves I wd ws s s₁) (h' : Leaves I wd vs s₁ s') :
    Leaves I wd (ws ++ vs) s s' where
  inv := h'.inv
  reads path t hapart hnone hread := by
    obtain ⟨hfirst, hthen⟩ := apart_append.mp hapart
    rw [lastMapped?_append, Option.or_eq_none_iff] at hnone
    exact h'.reads path t hthen hnone.1 (h.reads path t hfirst hnone.2 hread)
  maps path w hapart hlast hfound := by
    obtain ⟨hfirst, hthen⟩ := apart_append.mp hapart
    rw [lastMapped?_append, Option.or_eq_some_iff] at hlast
    rcases hlast with hlater | ⟨hnone, hearlier⟩
    · refine h'.maps path w hthen hlater ?_
      rcases hfound with hread | ⟨v, hv, hpath⟩
      · exact h.found hfirst (.inl hread) vs
      · rcases List.mem_append.mp hv with hmem | hmem
        · exact h.found hfirst (.inr ⟨v, hmem, hpath⟩) vs
        · exact .inr ⟨v, hmem, hpath⟩
    · -- No later output has its map there, so the map is still there in the end.
      have hfound : Found path ws s := hfound.imp_right fun ⟨v, hv, hpath⟩ => by
        refine ⟨v, (List.mem_append.mp hv).resolve_right fun hmem => ?_, hpath⟩
        have hmaps := lastMapped?_eq_none.mp hnone v hmem
        simp [Stored.mapsAt, hpath] at hmaps
      obtain ⟨m, hm, hlocated, d, hread, hfile⟩ := h.maps path w hfirst hearlier hfound
      exact ⟨m, hm, hlocated, d, h'.reads path _ hthen hnone hread, hfile⟩

/-- The last output whose map has a location leaves its map there. -/
theorem Leaves.holdsMapOf_last {m : Text} (h : Leaves I wd (ws ++ w :: vs) s s')
    (hm : w.mapPath = some m) (hapart : Apart wd m (ws ++ w :: vs))
    (hafter : ∀ v ∈ vs, v.mapsAt wd m = false) : HoldsMapOf wd m w.dest s' := by
  have hlast : lastMapped? wd m (ws ++ w :: vs) = some w :=
    lastMapped?_of_last (Stored.mapsAt_iff.mpr ⟨m, hm, rfl⟩) hafter
  obtain ⟨n, hn, -, hmap⟩ := h.maps m w hapart hlast (.inr ⟨w, by simp, hm⟩)
  obtain rfl : m = n := Option.some.inj (hm.symm.trans hn)
  exact hmap

/-- At the path of a map there is a map of one of the outputs. -/
theorem Leaves.exists_holdsMap {m : Text} (h : Leaves I wd ws s s') (hw : w ∈ ws)
    (hm : w.mapPath = some m) (hapart : Apart wd m ws) : ∃ v ∈ ws, HoldsMap wd m v s' := by
  cases hlast : lastMapped? wd m ws with
  | some v =>
      have hv := List.mem_reverse.mp (List.mem_of_find?_eq_some hlast)
      exact ⟨v, hv, h.maps m v hapart hlast (.inr ⟨w, hw, hm⟩)⟩
  | none =>
      have hmaps := lastMapped?_eq_none.mp hlast w hw
      simp [Stored.mapsAt, hm] at hmaps

/-! ## asking and reporting -/

/-- The action changes no file. -/
def Quiet {α : Type} (I : σ → Prop) (wd : Text) (y : StateM σ α) : Prop :=
  ∀ s, I s → Leaves I wd [] s (StateT.run y s).2

namespace Quiet

variable {α β : Type}

theorem pure (a : α) : Quiet I wd (Pure.pure a : StateM σ α) :=
  fun _ hs => Leaves.nil hs fun _ _ h => h

theorem bind {y : StateM σ α} {k : α → StateM σ β} (hy : Quiet I wd y)
    (hk : ∀ a, Quiet I wd (k a)) : Quiet I wd (y >>= k) := by
  intro s hs
  have hfirst := hy s hs
  exact hfirst.append (hk (StateT.run y s).1 _ hfirst.inv)

end Quiet

end Leaves

section Run

variable {σ : Type} [FileStore (StateM σ)] [FolderView (StateM σ)] [Journal (StateM σ)]
  {I : σ → Prop} {wd : Text}

namespace Retains

omit [FolderView (StateM σ)] in
/-- States of one snapshot read the same. -/
theorem leaves_of_shows {J : σ → Prop} {f : Snapshot} (hJ : Shows J f) (hI : ∀ s, J s → I s)
    {s s' : σ} (hs : J s) (hs' : J s') : Leaves I wd [] s s' := by
  refine Leaves.nil (hI s' hs') fun path t hread => ?_
  rw [Reads, hJ.read s hs] at hread
  rw [Reads, hJ.read s' hs']
  exact hread

variable (h : Retains I wd)
include h

theorem quiet_contains (path : Text) : Quiet I wd (FileStore.contains path : StateM σ Bool) := by
  intro s hs
  obtain ⟨J, f, hJ, hs', hI, -⟩ := h.shows s hs
  rw [hJ.contains s hs']
  exact leaves_of_shows hJ hI hs' hs'

theorem quiet_report (level : Level) (part message : Text) :
    Quiet I wd (report level part message : StateM σ Unit) := by
  intro s hs
  obtain ⟨J, f, hJ, hs', hI, -⟩ := h.shows s hs
  exact leaves_of_shows hJ hI hs' (hJ.record s hs' _)

theorem quiet_entries (path : Text) :
    Quiet I wd (FolderView.entries path : StateM σ (List (Text × Bool))) := by
  intro s hs
  rw [h.entries s hs]
  exact Leaves.nil hs fun _ _ h => h

theorem quiet_below (keep : Text → Bool) (path : Text) :
    Quiet I wd (FolderView.below keep path : StateM σ (List (List Text × Bool))) := by
  intro s hs
  rw [h.below s hs]
  exact Leaves.nil hs fun _ _ h => h

theorem looking : Looking fun _ (y : StateM σ _) => Quiet I wd y where
  pure := Quiet.pure
  bind := Quiet.bind
  contains := h.quiet_contains
  entries := h.quiet_entries
  below := h.quiet_below
  report := h.quiet_report

theorem leaves_checkSourceMap (o : Options) (force : Bool) (label : Text) {s : σ} (hs : I s) :
    Leaves I wd [] s (runAt (Merge.checkSourceMap o force label) s).2 := by
  obtain ⟨J, f, hJ, hs', hI, -⟩ := h.shows s hs
  obtain ⟨s', hs'', hrun⟩ := hJ.answers_checked o force label s hs'
  rw [hrun]
  exact leaves_of_shows hJ hI hs' hs''

/-! ## merging -/

/-- Storing a text changes the files at its location. -/
theorem reads_of_stores {path t : Text} {s s' : σ} (hs : I s) (hstores : Stores path t s s') :
    I s' ∧ (Text.Visible t → Reads path t s') ∧
      ∀ other u, Reads other u s →
        if Path.located wd other = Path.located wd path then Text.Visible t → Reads other t s'
        else Reads other u s' := by
  obtain ⟨s₁, record, hwrite, rfl⟩ := hstores
  obtain ⟨hs₁, hself, hother⟩ := h.write s hs path t s₁ hwrite
  obtain ⟨J, f, hJ, hJs, hI, -⟩ := h.shows s₁ hs₁
  have hquiet : Leaves I wd [] s₁ (StateT.run (Journal.record record : StateM σ Unit) s₁).2 :=
    leaves_of_shows hJ hI hJs (hJ.record s₁ hJs record)
  refine ⟨hquiet.inv, fun hvisible => hquiet.reads_of_nil (hself hvisible), fun other u hread => ?_⟩
  have hafter := hother other u hread
  split
  · next hlocated =>
    rw [if_pos hlocated] at hafter
    exact fun hvisible => hquiet.reads_of_nil (hafter hvisible)
  · next hlocated =>
    rw [if_neg hlocated] at hafter
    exact hquiet.reads_of_nil hafter

/-- An output that is stored without a map. -/
theorem leaves_output {dest t : Text} {s s' : σ} (hs : I s) (hstores : Stores dest t s s') :
    Leaves I wd [⟨dest, none⟩] s s' := by
  obtain ⟨hs', -, hother⟩ := h.reads_of_stores hs hstores
  refine ⟨hs', fun path u hapart _ hread => ?_, fun path w _ hlast _ => by cases hlast⟩
  have hafter := hother path u hread
  rwa [if_neg (hapart _ List.mem_cons_self)] at hafter

/-- An output that is stored behind its map. -/
theorem leaves_mapped {dest t m : Text} {d : Document} {s s₁ s' : σ} (hs : I s)
    (hfile : Path.located wd (Path.join (Path.directory m) d.file) = Path.located wd dest)
    (hmap : Stores m d.serialized s s₁) (houtput : Stores dest t s₁ s') :
    Leaves I wd [⟨dest, some m⟩] s s' := by
  obtain ⟨hs₁, hself, hother⟩ := h.reads_of_stores hs hmap
  have hvisible : Text.Visible d.serialized := Json.visible_render d.toData
  obtain ⟨hs', hkeeps, -⟩ := h.leaves_output hs₁ houtput
  -- What is read between the map and the output is read in the end.
  have hkeeps : ∀ path u, Apart wd path [⟨dest, some m⟩] → Reads path u s₁ → Reads path u s' :=
    fun path u hapart => hkeeps path u
      (List.forall_mem_singleton.mpr (hapart _ List.mem_cons_self :)) rfl
  refine ⟨hs', fun path u hapart hnone hread => ?_, fun path w hapart hlast hfound => ?_⟩
  · have hafter := hother path u hread
    have hlocated : Path.located wd path ≠ Path.located wd m := fun heq => by
      have hmaps := lastMapped?_eq_none.mp hnone _ List.mem_cons_self
      simp [Stored.mapsAt, heq] at hmaps
    rw [if_neg hlocated] at hafter
    exact hkeeps path u hapart hafter
  · obtain rfl := List.mem_singleton.mp (List.mem_reverse.mp (List.mem_of_find?_eq_some hlast))
    obtain ⟨n, hn, hlocated⟩ := Stored.mapsAt_iff.mp (List.find?_some hlast)
    obtain rfl := Option.some.inj hn
    have hread : Reads path d.serialized s₁ := by
      rcases hfound with ⟨u, hread⟩ | ⟨w, hw, hpath⟩
      · have hafter := hother path u hread
        rw [if_pos hlocated.symm] at hafter
        exact hafter hvisible
      · rw [List.mem_singleton.mp hw] at hpath
        obtain rfl := Option.some.inj hpath
        exact hself hvisible
    exact ⟨_, rfl, hlocated, d, hkeeps path _ hapart hread, hfile⟩

/-- A merge that returns leaves its output and its map behind. -/
theorem leaves_mergeInto {dest : Text} {sources : List Text} {o : Options} {r : Renderer}
    {out : Outcome} {s s' : σ} (hs : I s)
    (hrun : runAt (Merge.mergeInto dest sources o r) s = (.ok out, s')) :
    Leaves I wd [out.stored] s s' := by
  obtain ⟨J, f, hJ, hJs, hI, rfl⟩ := h.shows s hs
  obtain ⟨s₀, hJs₀, hlead⟩ := hJ.leads_mergeInto dest sources o r s hJs
  rw [hrun] at hlead
  cases hplan : f.planInto dest sources o r with
  | error fault => simp [hplan] at hlead
  | ok p =>
      rw [hplan] at hlead
      obtain ⟨rfl, s₁, hmap, houtput⟩ := Plan.stores_of_deliver hlead.symm
      obtain ⟨-, start, gs, hp⟩ := Snapshot.planned_of_planInto hplan
      refine (leaves_of_shows hJ hI hJs hJs₀).append ?_
      change Leaves I f.workingDirectory [⟨dest, p.mapPath?⟩] s₀ s'
      rcases hp.map_cases with ⟨-, -, hnone⟩ | ⟨delivery, path, x, -, -, -, hx, hsame, -, hdoc, -⟩
      · obtain rfl : s₁ = s₀ := by simpa only [Plan.StoresMap, hnone] using hmap
        rw [Plan.mapPath?, hnone]
        exact h.leaves_output (hI _ hJs₀) houtput
      · by_cases hisFile : x.recorder.delivery.isFile = true
        · obtain ⟨hpath, hstores⟩ := hmap.file hx hisFile
          rw [hpath]
          refine h.leaves_mapped (hI _ hJs₀) ?_ hstores houtput
          rw [(Recorder.document?_paths hdoc).1, hsame.dest]
          exact Path.located_join_relativeTo h.absolute _ _
        · obtain rfl : s₁ = s₀ := by
            simpa only [Plan.StoresMap, hx, hisFile, Bool.false_eq_true, if_false] using hmap
          have hnone : p.mapPath? = none := by simp [Plan.mapPath?, hx, hisFile]
          rw [hnone]
          exact h.leaves_output (hI _ hJs₀) houtput

/-! ## running -/

theorem leaves_mergeDestination {o : Options} {r : Renderer} {d : Destination} {out : Outcome}
    {s s' : σ} (hs : I s) (hrun : runAt (Run.mergeDestination o r d) s = (.ok out, s')) :
    Leaves I wd [out.stored] s s' := by
  obtain ⟨sources, s₁, hexpand, hmerge⟩ := runAt_bind_eq_ok.mp hrun
  have hquiet : Quiet I wd (Sources.expand d.patterns d.base d.nonull : StateM σ (List Text)) :=
    h.looking.expand d.patterns d.base d.nonull
  have hquiet := hquiet s hs
  obtain rfl : (StateT.run (Sources.expand d.patterns d.base d.nonull : StateM σ _) s).2 = s₁ :=
    (Prod.mk.inj hexpand).2
  exact hquiet.append (h.leaves_mergeInto hquiet.inv hmerge)

omit h [FolderView (StateM σ)] [Journal (StateM σ)] in
/-- What the programs of a list leave behind one after the other. -/
theorem leaves_mapM {α ε γ : Type} {f : γ → ExceptT ε (StateM σ) α} (stored : α → List Stored)
    (hf : ∀ c s a s', I s → runAt (f c) s = (.ok a, s') → Leaves I wd (stored a) s s')
    {l : List γ} {as : List α} {s s' : σ} (hs : I s) (hrun : runAt (l.mapM f) s = (.ok as, s')) :
    Leaves I wd (as.flatMap stored) s s' := by
  induction l generalizing as s with
  | nil =>
      obtain ⟨has, rfl⟩ := Prod.mk.inj hrun
      rw [← Except.ok.inj has]
      exact Leaves.nil hs fun _ _ h => h
  | cons c l ih =>
      rw [List.mapM_cons] at hrun
      obtain ⟨a, s₁, hfirst, hrest⟩ := runAt_bind_eq_ok.mp hrun
      obtain ⟨rest, s₂, hlater, hend⟩ := runAt_bind_eq_ok.mp hrest
      obtain ⟨has, rfl⟩ := Prod.mk.inj hend
      rw [← Except.ok.inj has, List.flatMap_cons]
      have hleaves := hf c s a s₁ hs hfirst
      exact hleaves.append (ih hleaves.inv hlater)

theorem leaves_runTarget {t : Target} {force : Bool} {r : Renderer} {outs : List Outcome} {s s' : σ}
    (hs : I s) (hrun : runAt (Run.runTarget t force r) s = (.ok outs, s')) :
    Leaves I wd (outs.map Outcome.stored) s s' := by
  obtain ⟨_, s₁, hreport, hchecked⟩ := runAt_bind_eq_ok.mp hrun
  obtain ⟨⟨o, notice⟩, s₂, hcheck, hmerged⟩ := runAt_bind_eq_ok.mp hchecked
  obtain ⟨found, s₃, hmerges, hend⟩ := runAt_bind_eq_ok.mp hmerged
  have hreported := h.quiet_report .info Merge.speaker ("Running target " ++ t.name) s hs
  obtain rfl : (StateT.run (report .info Merge.speaker ("Running target " ++ t.name) :
      StateM σ Unit) s).2 = s₁ := (Prod.mk.inj hreport).2
  have hsettled := h.leaves_checkSourceMap t.options force t.name hreported.inv
  rw [hcheck] at hsettled
  have hleaves : Leaves I wd _ _ _ := leaves_mapM (fun out => [out.stored])
    (fun _ _ _ _ hs hrun => h.leaves_mergeDestination hs hrun) hsettled.inv hmerges
  obtain ⟨houts, rfl⟩ := Prod.mk.inj hend
  -- A notice changes neither the output nor the path of the map.
  have hstored : outs.map Outcome.stored = found.flatMap fun out => [out.stored] := by
    rw [← Except.ok.inj houts, List.map_map, List.map_eq_flatMap]
    rfl
  rw [hstored]
  exact hreported.append (hsettled.append hleaves)

theorem leaves_runAll {targets : List Target} {force : Bool} {r : Renderer} {outs : List Outcome}
    {s s' : σ} (hs : I s) (hrun : runAt (Run.runAll targets force r) s = (.ok outs, s')) :
    Leaves I wd (outs.map Outcome.stored) s s' := by
  obtain ⟨found, s₁, hmerges, hend⟩ := runAt_bind_eq_ok.mp hrun
  have hleaves : Leaves I wd _ _ _ := leaves_mapM (List.map Outcome.stored)
    (fun _ _ _ _ hs hrun => h.leaves_runTarget hs hrun) hs hmerges
  obtain ⟨houts, rfl⟩ := Prod.mk.inj hend
  rw [← Except.ok.inj houts, List.map_flatten]
  exact hleaves

/-- **What a run leaves behind**, output by output. -/
theorem leaves_run {p : Project} {names : List Text} {force : Bool} {r : Renderer}
    {outs : List Outcome} {s s' : σ} (hs : I s)
    (hrun : runAt (Run.run p names force r) s = (.ok outs, s')) :
    Leaves I wd (outs.map Outcome.stored) s s' := by
  cases hselect : p.select names with
  | error fault =>
      rw [Run.runAt_run_of_error hselect] at hrun
      cases (Prod.mk.inj hrun).1
  | ok targets =>
      rw [Run.runAt_run hselect] at hrun
      cases hrefused : Run.refused? targets force with
      | some t =>
          rw [hrefused] at hrun
          cases (Prod.mk.inj hrun).1
      | none =>
          rw [hrefused] at hrun
          exact h.leaves_runAll hs (runAt_adapt_eq_ok.mp hrun)

end Retains

end Run

/-! ## maps of a run -/

/-- Maps beside their outputs have one location only if the outputs have, and then
their directories are one. -/
theorem located_besidePath {wd p q : Text} (hwd : Path.isAbsolute wd = true)
    (h : Path.located wd (besidePath p) = Path.located wd (besidePath q)) :
    Path.located wd p = Path.located wd q ∧
      ∀ file, Path.located wd (Path.join (Path.directory (besidePath p)) file) =
        Path.located wd (Path.join (Path.directory (besidePath q)) file) := by
  have hplain : '/' ∉ ".map".toList := by decide
  obtain ⟨hlocated, hdirectory⟩ := Path.located_append hwd hplain (by decide) h
  refine ⟨hlocated, fun file => ?_⟩
  rw [besidePath, besidePath, Path.directory_append hplain, Path.directory_append hplain]
  exact Path.located_join_congr hwd hdirectory file

/-- **The maps of a run.**  Take a run that returns, in a store that retains texts,
where no output stands where a map is.  Then the file at the path of a map is the map
of the last outcome whose map has that location.  So if the maps of different outputs
have one location only where each of them is beside its output, the file at the path
that an outcome names is the map of that outcome. -/
theorem run_maps_own {σ : Type} [FileStore (StateM σ)] [FolderView (StateM σ)]
    [Journal (StateM σ)] {I : σ → Prop} {wd : Text} (h : Retains I wd) {p : Project}
    {names : List Text} {force : Bool} {r : Renderer} {outs : List Outcome} {s s' : σ} (hs : I s)
    (hrun : runAt (Run.run p names force r) s = (.ok outs, s'))
    (hdests : ∀ a ∈ outs, ∀ b ∈ outs, ∀ m ∈ a.mapPath, Path.located wd m ≠ Path.located wd b.dest) :
    (∀ before last after, outs = before ++ last :: after → ∀ m ∈ last.mapPath,
      (∀ b ∈ after, ∀ n ∈ b.mapPath, Path.located wd n ≠ Path.located wd m) →
        HoldsMapOf wd m last.dest s') ∧
    ((∀ a ∈ outs, ∀ b ∈ outs, ∀ m ∈ a.mapPath, ∀ n ∈ b.mapPath,
      Path.located wd m = Path.located wd n →
        m = besidePath a.dest ∧ n = besidePath b.dest ∨ m = n ∧ a.dest = b.dest) →
      ∀ out ∈ outs, ∀ m ∈ out.mapPath, HoldsMapOf wd m out.dest s') := by
  have hleaves := h.leaves_run hs hrun
  have hapart : ∀ out ∈ outs, ∀ m ∈ out.mapPath, Apart wd m (outs.map Outcome.stored) :=
    fun out hout m hm => List.forall_mem_map.mpr fun b hb => hdests out hout b hb m hm
  refine ⟨fun before last after houts m hm hafter => ?_, fun hnamed out hout m hm => ?_⟩
  · have hapart := hapart last (by simp [houts]) m hm
    rw [houts, List.map_append, List.map_cons] at hleaves hapart
    refine hleaves.holdsMapOf_last hm hapart (List.forall_mem_map.mpr fun b hb => ?_)
    rw [Bool.eq_false_iff, Ne, Stored.mapsAt_iff]
    exact fun ⟨n, hn, hlocated⟩ => hafter b hb n hn hlocated
  · obtain ⟨w, hw, n, hn, hlocated, d, hread, hfile⟩ :=
      hleaves.exists_holdsMap (List.mem_map_of_mem hout) hm (hapart out hout m hm)
    obtain ⟨b, hb, rfl⟩ := List.mem_map.mp hw
    refine ⟨d, hread, ?_⟩
    rcases hnamed b hb out hout n hn m hm hlocated with ⟨rfl, rfl⟩ | ⟨rfl, hdest⟩
    · obtain ⟨hdest, hdirectory⟩ := located_besidePath h.absolute hlocated
      rw [← hdirectory, ← hdest]
      exact hfile
    · rw [← hdest]
      exact hfile

/-! ## two outputs of a target -/

/-- A target with two outputs and a name for their maps. -/
def twoOutputs (name : MapName) : Project :=
  { root := "/"
    targets :=
      [{ name := "t"
         destinations :=
          [{ dest := "/a.js", patterns := ["x.js"], base := "/" },
            { dest := "/lib/b.js", patterns := ["x.js"], base := "/" }]
         options := { sourceMap := true, mapName := name } }] }

/-- What the run of a project has stored in an empty session, if it returns. -/
def storedByRun (p : Project) : Option (List Stored) :=
  (runAt (Run.run p [] false Renderer.plain) ({} : Session)).1.toOption.map (·.map Outcome.stored)

theorem exists_run_of_storedByRun (p : Project) (ws : List Stored) (h : storedByRun p = some ws) :
    ∃ outs s', runAt (Run.run p [] false Renderer.plain) ({} : Session) = (.ok outs, s') ∧
      outs.map Outcome.stored = ws :=
  exists_ok_of_toOption h

theorem run_maps_own_twoOutputs :
    (∃ outs s', runAt (Run.run (twoOutputs .beside) [] false Renderer.plain) ({} : Session) =
        (.ok outs, s') ∧
      outs.map Outcome.stored =
        [⟨"/a.js", some "/a.js.map"⟩, ⟨"/lib/b.js", some "/lib/b.js.map"⟩] ∧
      ∀ out ∈ outs, ∀ m ∈ out.mapPath, HoldsMapOf "/" m out.dest s') ∧
    ∃ outs s', runAt (Run.run (twoOutputs (.fixed "/all.map")) [] false Renderer.plain)
        ({} : Session) = (.ok outs, s') ∧
      outs.map Outcome.stored =
        [⟨"/a.js", some "/all.map"⟩, ⟨"/lib/b.js", some "/all.map"⟩] ∧
      HoldsMapOf "/" "/all.map" "/lib/b.js" s' := by
  have hretains := Disk.retains (show Path.Settled .absolute ([] : Place).reverse from trivial)
  constructor
  · let ws : List Stored := [⟨"/a.js", some "/a.js.map"⟩, ⟨"/lib/b.js", some "/lib/b.js.map"⟩]
    obtain ⟨outs, s', hrun, hstored⟩ := exists_run_of_storedByRun (twoOutputs .beside) ws
      (by decide +kernel)
    have hmem : ∀ a ∈ outs, a.stored ∈ ws := fun a ha => hstored ▸ List.mem_map_of_mem ha
    have hdests : ∀ w ∈ ws, ∀ v ∈ ws, ∀ m ∈ w.mapPath,
        Path.located "/" m ≠ Path.located "/" v.dest := by decide
    have hnamed : ∀ w ∈ ws, ∀ v ∈ ws, ∀ m ∈ w.mapPath, ∀ n ∈ v.mapPath,
        Path.located "/" m = Path.located "/" n →
          m = besidePath w.dest ∧ n = besidePath v.dest ∨ m = n ∧ w.dest = v.dest := by decide
    have hmaps := run_maps_own hretains ⟨rfl, by simp⟩ hrun
      fun a ha b hb => hdests a.stored (hmem a ha) b.stored (hmem b hb)
    exact ⟨outs, s', hrun, hstored,
      hmaps.2 fun a ha b hb => hnamed a.stored (hmem a ha) b.stored (hmem b hb)⟩
  · let ws : List Stored := [⟨"/a.js", some "/all.map"⟩, ⟨"/lib/b.js", some "/all.map"⟩]
    obtain ⟨outs, s', hrun, hstored⟩ := exists_run_of_storedByRun
      (twoOutputs (.fixed "/all.map")) ws (by decide +kernel)
    have hmem : ∀ a ∈ outs, a.stored ∈ ws := fun a ha => hstored ▸ List.mem_map_of_mem ha
    have hdests : ∀ w ∈ ws, ∀ v ∈ ws, ∀ m ∈ w.mapPath,
        Path.located "/" m ≠ Path.located "/" v.dest := by decide
    have hmaps := run_maps_own hretains ⟨rfl, by simp⟩ hrun
      fun a ha b hb => hdests a.stored (hmem a ha) b.stored (hmem b hb)
    refine ⟨outs, s', hrun, hstored, ?_⟩
    obtain ⟨first, rest, rfl, -, hrest⟩ := List.map_eq_cons_iff.mp hstored
    obtain ⟨last, after, rfl, hlast, hafter⟩ := List.map_eq_cons_iff.mp hrest
    obtain rfl := List.map_eq_nil_iff.mp hafter
    obtain ⟨hdest, hpath⟩ := Stored.mk.inj hlast
    rw [← hdest]
    exact hmaps.1 [first] last [] rfl _ hpath (List.forall_mem_nil _)

/-- **A name for all maps gives one map only.**  Where two outputs share the path of
their maps, the map of the later one is there, and not that of the first. -/
theorem run_shares_fixed :
    ∃ outs s', runAt (Run.run (twoOutputs (.fixed "/all.map")) [] false Renderer.plain)
        ({} : Session) = (.ok outs, s') ∧
      outs.map Outcome.stored =
        [⟨"/a.js", some "/all.map"⟩, ⟨"/lib/b.js", some "/all.map"⟩] ∧
      ¬ HoldsMapOf "/" "/all.map" "/a.js" s' ∧ HoldsMapOf "/" "/all.map" "/lib/b.js" s' := by
  obtain ⟨outs, s', hrun, hstored⟩ := exists_run_of_storedByRun
    (twoOutputs (.fixed "/all.map")) [⟨"/a.js", some "/all.map"⟩, ⟨"/lib/b.js", some "/all.map"⟩]
    (by decide +kernel)
  let later : Document := ⟨"lib/b.js", [], some [], []⟩
  have hlast : (runAt (Run.run (twoOutputs (.fixed "/all.map")) [] false Renderer.plain)
      ({} : Session)).2.disk.read (Session.onDisk "/all.map") = .ok later.serialized := by
    decide +kernel
  rw [hrun] at hlast
  refine ⟨outs, s', hrun, hstored, ?_, later, hlast, by decide⟩
  rintro ⟨d, hread, hfile⟩
  have hserialized : d.serialized = later.serialized := Except.ok.inj (hread.symm.trans hlast)
  rw [Document.file_eq_of_serialized_eq hserialized] at hfile
  revert hfile
  decide

end SourceMerge
