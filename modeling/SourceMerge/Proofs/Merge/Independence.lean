import SourceMerge.Proofs.Merge.Return
import SourceMerge.Proofs.Merge.Sharing
import SourceMerge.Proofs.Store.Observed

/-!
# SourceMerge.Proofs.Merge.Independence

Merges that have nothing to do with each other, on one engine and over one store.  A
merge depends on its store only through the paths that it asks for, and changes it only
at the paths that it writes.  On an engine whose answers do not hang on its state, two
merges of which neither writes what the other asks for or writes can therefore be done
in either order: each has the outcome that it has alone, and the files are the same in
the end (`merges_commute`).

The engine has to be steady.  A template that adds to a list of the project's data is
rendered with a longer list the next time, so the second of two such merges writes
something else than it would alone (`merges_share_data`).
-/

namespace SourceMerge

open Mapping

/-- What a merge is asked to do. -/
structure MergeTask where
  dest : Text
  sources : List Text
  options : Options
  force : Bool := false

namespace MergeTask

/-- Does the task. -/
def run {m : Type → Type} [Monad m] [FileStore m] [Journal m] (t : MergeTask) (r : Rendering m) :
    ExceptT MergeFault m Outcome :=
  Merge.merge t.dest t.sources t.options t.force r

section Shared

variable {σ : Type} (t : MergeTask) (e : Template.Engine σ) (data : Entries)

/-- Does the task on an engine in some state, over some files: the answer, and then the
state of the engine and the files. -/
def perform (s : σ) (w : MemoryWorld) : (Except MergeFault Outcome × σ) × MemoryWorld :=
  (Workshop.run (t.run (.shared (m := StateM MemoryWorld) e data)).run s).run w

/-- What is noted when the task is done: the paths that it asks for and the texts that
it writes. -/
def observe (s : σ) (m : Memory) : ObservedMemory :=
  ((Workshop.run (t.run (.shared (m := StateM ObservedMemory) e data)).run s).run
    { memory := m }).2

/-- The paths that the task writes. -/
def writtenPaths (s : σ) (m : Memory) : List Text := (t.observe e data s m).written.map (·.1)

variable {e}

theorem related_echoes (he : e.Steady) :
    (Rendering.shared (m := StateM ObservedMemory) e data).Related (Echoes (σ := σ))
      (Rendering.shared (m := StateM MemoryWorld) e data) where
  data := rfl
  engine c s o := ⟨_, [], [], ⟨_, congrArg (_, ·) o.after_nil.symm⟩, fun d t _ _ =>
    ⟨_, t, congrArg (fun a => ((a, (StateT.run (e c) d).2), t)) (he c d s), rfl⟩⟩

/-- Wherever the files agree at the paths that a task asks for, it gives one answer and
writes the same texts, in whatever state it finds the engine. -/
theorem perform_of_agree (he : e.Steady) (s : σ) (m : Memory) :
    ∃ answer, ∀ (s₁ : σ) (w : MemoryWorld),
      (∀ path ∈ (t.observe e data s m).asked, m.AgreeAt w.memory path) →
      w.memory.workingDirectory = m.workingDirectory →
      ∃ s₂ w', t.perform e data s₁ w = ((answer, s₂), w') ∧
        w'.memory = w.memory.storeAll (t.observe e data s m).written := by
  obtain ⟨answer, asked, written, ⟨s', hrun⟩, hecho⟩ :=
    lockstep_echoes.merge (related_echoes data he) t.dest t.sources t.options t.force s
      { memory := m }
  have hobserve : t.observe e data s m = ObservedMemory.after { memory := m } asked written :=
    congrArg Prod.snd hrun
  refine ⟨answer, fun s₁ w hagree hwd => ?_⟩
  rw [hobserve] at hagree ⊢
  exact hecho s₁ w hagree hwd

end Shared

end MergeTask

/-- **Merges that have nothing to do with each other can be done in either order**, on an
engine whose answers do not hang on its state.  If neither of two merges writes what the
other one writes or asks for, each gives after the other one the answer that it gives
without it, be that an outcome or a fault, and in either order the files are the same in
the end. -/
theorem merges_commute {σ : Type} {e : Template.Engine σ} (he : e.Steady) {d : Entries}
    {a b : MergeTask} {s sa sb : σ} {w wa wb : MemoryWorld}
    {answerA answerB : Except MergeFault Outcome}
    (ha : a.perform e d s w = ((answerA, sa), wa))
    (hb : b.perform e d s w = ((answerB, sb), wb))
    (hwrites : ∀ path ∈ a.writtenPaths e d s w.memory, path ∉ b.writtenPaths e d s w.memory)
    (hab : ∀ path ∈ a.writtenPaths e d s w.memory, path ∉ (b.observe e d s w.memory).asked)
    (hba : ∀ path ∈ b.writtenPaths e d s w.memory, path ∉ (a.observe e d s w.memory).asked) :
    ∃ sab sba wab wba, b.perform e d sa wa = ((answerB, sab), wab) ∧
      a.perform e d sb wb = ((answerA, sba), wba) ∧
      ∀ path, wab.memory.AgreeAt wba.memory path := by
  obtain ⟨answer, hfirst⟩ := a.perform_of_agree d he s w.memory
  obtain ⟨answer', hsecond⟩ := b.perform_of_agree d he s w.memory
  obtain ⟨sa', wa', hrun, hwa⟩ := hfirst s w (fun _ _ => ⟨rfl, rfl, rfl⟩) rfl
  obtain ⟨⟨rfl, rfl⟩, rfl⟩ := Prod.mk.inj (ha.symm.trans hrun) |>.imp_left Prod.mk.inj
  obtain ⟨sb', wb', hrun', hwb⟩ := hsecond s w (fun _ _ => ⟨rfl, rfl, rfl⟩) rfl
  obtain ⟨⟨rfl, rfl⟩, rfl⟩ := Prod.mk.inj (hb.symm.trans hrun') |>.imp_left Prod.mk.inj
  -- What the first merge wrote makes no difference to the second, and the other way round.
  obtain ⟨sab, wab, hsecondAfter, hwab⟩ := hsecond sa wa
    (fun path hpath => hwa ▸ w.memory.agreeAt_storeAll fun hmem => hab path hmem hpath)
    (by rw [hwa, Memory.workingDirectory_storeAll])
  obtain ⟨sba, wba, hfirstAfter, hwba⟩ := hfirst sb wb
    (fun path hpath => hwb ▸ w.memory.agreeAt_storeAll fun hmem => hba path hmem hpath)
    (by rw [hwb, Memory.workingDirectory_storeAll])
  refine ⟨sab, sba, wab, wba, hsecondAfter, hfirstAfter, fun path => ?_⟩
  rw [hwab, hwba, hwa, hwb]
  exact Memory.agreeAt_storeAll_comm _ hwrites path

/-- A task that writes an output and a map. -/
def mappedTask : MergeTask where
  dest := "min.js"
  sources := ["lib", "none.js"]
  options := { sourceMap := true }

/-- A task whose function gives up on a source. -/
def refusedTask : MergeTask where
  dest := "all.js"
  sources := ["none.js", "a.js"]
  options := { process := .function ⟨"refuse", fun _ => .error .refused⟩ }

/-- The interpreter, which is made anew for every template. -/
def freshEngine : Template.Engine Unit := .ofFunction (Template.answer {})

theorem merges_commute_twoFiles :
    freshEngine.Steady ∧
      mappedTask.writtenPaths freshEngine [] () twoFiles.memory = ["min.js.map", "min.js"] ∧
      ∃ wa wb wab wba out fault,
        mappedTask.perform freshEngine [] () twoFiles = ((.ok out, ()), wa) ∧
        refusedTask.perform freshEngine [] () twoFiles = ((.error fault, ()), wb) ∧
        refusedTask.perform freshEngine [] () wa = ((.error fault, ()), wab) ∧
        mappedTask.perform freshEngine [] () wb = ((.ok out, ()), wba) ∧
        ∀ path, wab.memory.AgreeAt wba.memory path := by
  have hsteady : freshEngine.Steady := Template.Engine.steady_ofFunction _
  have hwritten : mappedTask.writtenPaths freshEngine [] () twoFiles.memory =
      ["min.js.map", "min.js"] := rfl
  have hasked : (refusedTask.observe freshEngine [] () twoFiles.memory).asked =
      ["none.js", "a.js", "a.js", "a.js"] := rfl
  have hnone : refusedTask.writtenPaths freshEngine [] () twoFiles.memory = [] := rfl
  obtain ⟨⟨⟩, ⟨⟩, wab, wba, hab, hba, hfiles⟩ := merges_commute hsteady (d := [])
    (a := mappedTask) (b := refusedTask) (s := ()) (w := twoFiles) rfl rfl (by simp [hnone])
    (by simp [hwritten, hasked]) (by simp [hnone])
  exact ⟨hsteady, hwritten, _, _, wab, wba, _, _, rfl, rfl, hab, hba, hfiles⟩

/-! ## shared data -/

/-- Data with an empty list. -/
def noHits : Entries := [(.text "hits", .list [])]

/-- A task without sources, whose banner adds to the list and shows how long it is. -/
def countedTask (dest : Text) : MergeTask where
  dest := dest
  sources := []
  options := { banner := "\x7b\x7b hits.append(1) or hits|length \x7d\x7d" }

/-- The text at a path after two tasks, one after the other, on the interpreter. -/
def textAfter (first second : MergeTask) (path : Text) : Option Text :=
  let p := first.perform (Template.interpreter {}) noHits [] {}
  (Memory.read (second.perform (Template.interpreter {}) noHits p.1.2 p.2).2.memory path).toOption

/-- **Merges share the data of their templates**: neither of these two tasks asks for
anything, and they write different files, but in either order the second one shows that
the first one was there. -/
theorem merges_share_data :
    ((countedTask "one.js").observe (Template.interpreter {}) noHits [] {}).asked = [] ∧
      ((countedTask "two.js").observe (Template.interpreter {}) noHits [] {}).asked = [] ∧
      (countedTask "one.js").writtenPaths (Template.interpreter {}) noHits [] {} = ["one.js"] ∧
      (countedTask "two.js").writtenPaths (Template.interpreter {}) noHits [] {} = ["two.js"] ∧
      textAfter (countedTask "one.js") (countedTask "two.js") "two.js" = some ['2'] ∧
      textAfter (countedTask "two.js") (countedTask "one.js") "two.js" = some ['1'] := by
  decide +kernel

end SourceMerge
