import SourceMerge.Proofs.Merge.Files
import SourceMerge.Proofs.Store.Lockstep
import SourceMerge.Workshop

/-!
# SourceMerge.Proofs.Store.Observed

What a program asks of files in memory, and what it writes.  An
`ObservedMemory` keeps files in memory as well, and notes every path that is
asked for and every text that is written.

A program *echoes* another one (`Echoes`) if its run over plain files in memory
goes the way of the observed run wherever the two memories agree at the paths
that the observed run asks for: it gives the same answer and writes the same
texts.  Files that a program does not ask for therefore make no difference to
it, and neither does the state of its engine.  This is a lockstep.
-/

namespace SourceMerge

/-- Files in memory, with notes of what was asked for and of what was written. -/
structure ObservedMemory where
  memory : Memory := {}
  /-- The paths that were asked for, in order. -/
  asked : List Text := []
  /-- The paths that were written, in order, and what was written there. -/
  written : List (Text × Text) := []

namespace ObservedMemory

/-- Notes that a path is asked for. -/
def ask (s : ObservedMemory) (path : Text) : ObservedMemory :=
  { s with asked := s.asked ++ [path] }

/-- Stores a text and notes that. -/
def store (s : ObservedMemory) (path content : Text) : ObservedMemory :=
  { s with memory := s.memory.write path content, written := s.written ++ [(path, content)] }

end ObservedMemory

instance : FileStore (StateM ObservedMemory) where
  contains path := modifyGet fun s => (s.memory.contains path, s.ask path)
  isDirectory path := modifyGet fun s => (s.memory.isDirectory path, s.ask path)
  read path := modifyGet fun s => (s.memory.read path, s.ask path)
  readMarked path := modifyGet fun s => (s.memory.read path, s.ask path)
  write path content := modifyGet fun s => (.ok (), s.store path content)
  workingDirectory := do return (← get).memory.workingDirectory

instance : Journal (StateM ObservedMemory) where
  record _ := pure ()

/-! ## memories that agree at a path -/

namespace Memory

/-- Two memories give the same answers at a path. -/
structure AgreeAt (m m' : Memory) (path : Text) : Prop where
  contains : m'.contains path = m.contains path
  isDirectory : m'.isDirectory path = m.isDirectory path
  read : m'.read path = m.read path

/-- Stores several texts, one after the other. -/
def storeAll (m : Memory) (written : List (Text × Text)) : Memory :=
  written.foldl (fun m e => m.write e.1 e.2) m

theorem storeAll_append (m : Memory) (ws vs : List (Text × Text)) :
    m.storeAll (ws ++ vs) = (m.storeAll ws).storeAll vs := List.foldl_append

@[simp] theorem workingDirectory_storeAll (m : Memory) (written : List (Text × Text)) :
    (m.storeAll written).workingDirectory = m.workingDirectory := by
  induction written generalizing m with
  | nil => rfl
  | cons e rest ih => exact ih _

/-- What stands at a path after a text was stored there. -/
theorem contains_write_self (m : Memory) (path content : Text) :
    (m.write path content).contains path = true := by
  simp [contains, write, Table.contains_eq_isSome, Table.get?_insert_self]

/-- Memories that agree at a path still do when one text is stored in both. -/
theorem AgreeAt.write {m m' : Memory} {path : Text} (h : m.AgreeAt m' path) (other content : Text) :
    (m.write other content).AgreeAt (m'.write other content) path where
  contains := by
    by_cases heq : path = other
    · subst heq
      rw [contains_write_self, contains_write_self]
    · rw [contains_write_of_ne heq, contains_write_of_ne heq, h.contains]
  isDirectory := h.isDirectory
  read := by
    by_cases heq : path = other
    · subst heq
      rw [read_write_self, read_write_self]
    · rw [read_write_of_ne heq, read_write_of_ne heq, h.read]

theorem AgreeAt.storeAll {m m' : Memory} {path : Text} (h : m.AgreeAt m' path)
    (written : List (Text × Text)) : (m.storeAll written).AgreeAt (m'.storeAll written) path := by
  induction written generalizing m m' with
  | nil => exact h
  | cons e rest ih => exact ih (h.write e.1 e.2)

theorem AgreeAt.trans {m m' m'' : Memory} {path : Text} (h : m.AgreeAt m' path)
    (h' : m'.AgreeAt m'' path) : m.AgreeAt m'' path :=
  ⟨h'.contains.trans h.contains, h'.isDirectory.trans h.isDirectory, h'.read.trans h.read⟩

/-- A path where nothing is stored keeps its answers. -/
theorem agreeAt_write (m : Memory) {path other : Text} (h : path ≠ other) (content : Text) :
    m.AgreeAt (m.write other content) path :=
  ⟨contains_write_of_ne h, rfl, read_write_of_ne h⟩

theorem agreeAt_storeAll (m : Memory) {written : List (Text × Text)} {path : Text}
    (h : path ∉ written.map (·.1)) : m.AgreeAt (m.storeAll written) path := by
  induction written generalizing m with
  | nil => exact ⟨rfl, rfl, rfl⟩
  | cons e rest ih =>
      rw [List.map_cons, List.mem_cons, not_or] at h
      exact (m.agreeAt_write h.1 e.2).trans (ih (m.write e.1 e.2) h.2)

theorem AgreeAt.symm {m m' : Memory} {path : Text} (h : m.AgreeAt m' path) : m'.AgreeAt m path :=
  ⟨h.contains.symm, h.isDirectory.symm, h.read.symm⟩

/-- Texts for different paths can be stored in either order. -/
theorem agreeAt_storeAll_comm (m : Memory) {ws vs : List (Text × Text)}
    (h : ∀ path ∈ ws.map (·.1), path ∉ vs.map (·.1)) (path : Text) :
    ((m.storeAll ws).storeAll vs).AgreeAt ((m.storeAll vs).storeAll ws) path := by
  by_cases hmem : path ∈ ws.map (·.1)
  · have hleft := (m.storeAll ws).agreeAt_storeAll (h path hmem)
    exact hleft.symm.trans ((m.agreeAt_storeAll (h path hmem)).storeAll ws)
  · have hright := (m.storeAll vs).agreeAt_storeAll hmem
    exact ((m.agreeAt_storeAll hmem).storeAll vs).symm.trans hright

end Memory

namespace ObservedMemory

/-- What is left when some paths have been asked for and some texts written. -/
def after (s : ObservedMemory) (asked : List Text) (written : List (Text × Text)) :
    ObservedMemory :=
  { memory := s.memory.storeAll written
    asked := s.asked ++ asked
    written := s.written ++ written }

theorem after_nil (s : ObservedMemory) : s.after [] [] = s := by
  simp [after, Memory.storeAll]

theorem after_after (s : ObservedMemory) (asked asked' : List Text)
    (written written' : List (Text × Text)) :
    (s.after asked written).after asked' written' =
      s.after (asked ++ asked') (written ++ written') := by
  simp [after, Memory.storeAll_append]

theorem after_ask (s : ObservedMemory) (path : Text) : s.ask path = s.after [path] [] := by
  simp [after, ask, Memory.storeAll]

theorem after_store (s : ObservedMemory) (path content : Text) :
    s.store path content = s.after [] [(path, content)] := by
  simp [after, store, Memory.storeAll]

end ObservedMemory

/-! ## programs that go the same way -/

section Echoes

variable {σ : Type}

/-- The second program goes the way of the first where the memories agree at the paths
that the first asks for, in whatever state either finds the engine. -/
def Echoes (α : Type) (x : Workshop σ (StateM ObservedMemory) α)
    (y : Workshop σ (StateM MemoryWorld) α) : Prop :=
  ∀ e s, ∃ a asked written, (∃ e', StateT.run (x.run e) s = ((a, e'), s.after asked written)) ∧
    ∀ (d : σ) (t : MemoryWorld), (∀ path ∈ asked, s.memory.AgreeAt t.memory path) →
      t.memory.workingDirectory = s.memory.workingDirectory →
      ∃ d' t', StateT.run (y.run d) t = ((a, d'), t') ∧ t'.memory = t.memory.storeAll written

theorem Echoes.pure {α : Type} (a : α) :
    Echoes α (Pure.pure a : Workshop σ (StateM ObservedMemory) α) (Pure.pure a) := fun e s =>
  ⟨a, [], [], ⟨e, congrArg ((a, e), ·) s.after_nil.symm⟩, fun d t _ _ => ⟨d, t, rfl, rfl⟩⟩

theorem Echoes.bind {α β : Type} {x : Workshop σ (StateM ObservedMemory) α}
    {y : Workshop σ (StateM MemoryWorld) α} {k : α → Workshop σ (StateM ObservedMemory) β}
    {l : α → Workshop σ (StateM MemoryWorld) β} (hx : Echoes α x y)
    (hk : ∀ a, Echoes β (k a) (l a)) : Echoes β (x >>= k) (y >>= l) := by
  intro e s
  obtain ⟨a, asked, written, ⟨e₁, hrun⟩, hecho⟩ := hx e s
  obtain ⟨b, asked', written', ⟨e₂, hrun'⟩, hecho'⟩ := hk a e₁ (s.after asked written)
  refine ⟨b, asked ++ asked', written ++ written', ⟨e₂, ?_⟩, fun d t hagree hwd => ?_⟩
  · rw [Workshop.run_bind, StateT.run_bind, hrun, ← ObservedMemory.after_after]
    exact hrun'
  · obtain ⟨d₁, t₁, hy, hmem⟩ := hecho d t (fun p hp => hagree p (by simp [hp])) hwd
    -- Both memories have had the same texts stored, so they still agree.
    have hagree' : ∀ p ∈ asked', (s.after asked written).memory.AgreeAt t₁.memory p := by
      intro p hp
      rw [hmem]
      exact (hagree p (by simp [hp])).storeAll written
    have hwd' : t₁.memory.workingDirectory = (s.after asked written).memory.workingDirectory := by
      simp [hmem, hwd, ObservedMemory.after]
    obtain ⟨d₂, t₂, hl, hmem'⟩ := hecho' d₁ t₁ hagree' hwd'
    refine ⟨d₂, t₂, ?_, by rw [hmem', hmem, Memory.storeAll_append]⟩
    rw [Workshop.run_bind, StateT.run_bind, hy]
    exact hl

/-- What is asked of the files is answered the same where the memories agree. -/
theorem lockstep_echoes : Lockstep (Echoes (σ := σ)) where
  pure := Echoes.pure
  bind := Echoes.bind
  contains path e s := ⟨_, [path], [], ⟨e, congrArg (_, ·) (s.after_ask path)⟩,
    fun d t hagree _ =>
      ⟨d, t, congrArg (fun a => ((a, d), t)) (hagree path (by simp)).contains, rfl⟩⟩
  isDirectory path e s := ⟨_, [path], [], ⟨e, congrArg (_, ·) (s.after_ask path)⟩,
    fun d t hagree _ =>
      ⟨d, t, congrArg (fun a => ((a, d), t)) (hagree path (by simp)).isDirectory, rfl⟩⟩
  read path e s := ⟨_, [path], [], ⟨e, congrArg (_, ·) (s.after_ask path)⟩,
    fun d t hagree _ => ⟨d, t, congrArg (fun a => ((a, d), t)) (hagree path (by simp)).read, rfl⟩⟩
  write path content e s :=
    ⟨_, [], [(path, content)], ⟨e, congrArg (_, ·) (s.after_store path content)⟩,
      fun d _ _ _ => ⟨d, _, rfl, rfl⟩⟩
  workingDirectory e s := ⟨_, [], [], ⟨e, congrArg (_, ·) s.after_nil.symm⟩,
    fun d t _ hwd => ⟨d, t, congrArg (fun a => ((a, d), t)) hwd, rfl⟩⟩
  record r e s := ⟨_, [], [], ⟨e, congrArg (_, ·) s.after_nil.symm⟩,
    fun d _ _ _ => ⟨d, _, rfl, rfl⟩⟩

end Echoes

end SourceMerge
