import Mathlib.Data.List.Forall2
import SourceMerge.Store.Memory
import SourceMerge.Session

/-!
# SourceMerge.Proofs.Store.Snapshot

What a program can learn from a store before it writes.  A `Snapshot` holds the
answers of a store, and `Shows I f` says that the states of `I` give the answers
of `f`: asking leaves a state as it is, and reporting leads from a state of `I`
to a state of `I`.  Files in memory and a disk without a log file on it show
snapshots of this kind.

A program that only asks and reports then has *one* answer from all states of
`I`.  `Answers` says so, and is closed under the ways in which programs are put
together, so the answer of a program is computed along its text.  `Leads` says
the same of a program that asks first and acts afterwards.
-/

namespace SourceMerge

/-- What a store answers as long as nothing is written to it. -/
structure Snapshot where
  contains : Text → Bool
  isDirectory : Text → Bool
  read : Text → Except StoreFault Text
  workingDirectory : Text

/-- The states of `I` give the answers of a snapshot, and neither asking nor
reporting leads out of `I`. -/
structure Shows {σ : Type} [FileStore (StateM σ)] [Journal (StateM σ)] (I : σ → Prop)
    (f : Snapshot) : Prop where
  contains : ∀ s, I s → ∀ path,
    StateT.run (FileStore.contains path : StateM σ Bool) s = (f.contains path, s)
  isDirectory : ∀ s, I s → ∀ path,
    StateT.run (FileStore.isDirectory path : StateM σ Bool) s = (f.isDirectory path, s)
  read : ∀ s, I s → ∀ path,
    StateT.run (FileStore.read path : StateM σ (Except StoreFault Text)) s = (f.read path, s)
  workingDirectory : ∀ s, I s →
    StateT.run (FileStore.workingDirectory : StateM σ Text) s = (f.workingDirectory, s)
  record : ∀ s, I s → ∀ r, I (StateT.run (Journal.record r : StateM σ Unit) s).2

/-! ## stores that show snapshots -/

/-- The answers of files in memory. -/
def Memory.snapshot (m : Memory) : Snapshot :=
  { contains := m.contains
    isDirectory := m.isDirectory
    read := m.read
    workingDirectory := m.workingDirectory }

theorem Memory.shows (m : Memory) : Shows (fun w : MemoryWorld => w.memory = m) m.snapshot where
  contains := by rintro s rfl path; rfl
  isDirectory := by rintro s rfl path; rfl
  read := by rintro s rfl path; rfl
  workingDirectory := by rintro s rfl; rfl
  record := by rintro s rfl r; rfl

/-- The answers of a disk. -/
def Disk.snapshot (d : Disk) : Snapshot :=
  { contains := fun path => d.contains (Session.onDisk path)
    isDirectory := fun path => d.isDirectory (Session.onDisk path)
    read := fun path => d.read (Session.onDisk path)
    workingDirectory := d.workingDirectory }

/-- Records that go to no file leave the disk alone. -/
theorem Session.note_disk {s : Session} (h : ∀ p, s.plan = some p → p.file = none) (r : Record) :
    (s.note r).disk = s.disk ∧ (s.note r).plan = s.plan := by
  unfold Session.note
  cases hp : s.plan with
  | none => simp
  | some p => simp [Session.fileRecord, Session.showRecord, h p hp]

theorem Disk.shows (d : Disk) :
    Shows (fun s : Session => s.disk = d ∧ ∀ p, s.plan = some p → p.file = none) d.snapshot where
  contains := by rintro s ⟨rfl, -⟩ path; rfl
  isDirectory := by rintro s ⟨rfl, -⟩ path; rfl
  read := by rintro s ⟨rfl, -⟩ path; rfl
  workingDirectory := by rintro s ⟨rfl, -⟩; rfl
  record := by
    rintro s ⟨rfl, h⟩ r
    obtain ⟨hdisk, hplan⟩ := Session.note_disk h r
    exact ⟨hdisk, fun p hp => h p (hplan ▸ hp)⟩

/-! ## answers in parts -/

section Parts

variable {ε ε' α β : Type}

theorem bind_eq_ok {e : Except ε α} {k : α → Except ε β} {b : β} :
    e.bind k = .ok b ↔ ∃ a, e = .ok a ∧ k a = .ok b := by
  cases e <;> simp [Except.bind]

theorem map_eq_ok {e : Except ε α} {g : α → β} {b : β} :
    e.map g = .ok b ↔ ∃ a, e = .ok a ∧ g a = b := by
  cases e <;> simp [Except.map]

theorem mapError_eq_ok {e : Except ε α} {g : ε → ε'} {a : α} :
    e.mapError g = .ok a ↔ e = .ok a := by
  cases e <;> simp [Except.mapError]

/-- An answer of which something is known, and the state that comes with it. -/
theorem exists_ok_of_toOption {σ γ : Type} {x : Except ε α × σ} {g : α → γ} {c : γ}
    (h : x.1.toOption.map g = some c) : ∃ a s, x = (.ok a, s) ∧ g a = c := by
  obtain ⟨answer, s⟩ := x
  cases answer with
  | error fault => cases h
  | ok a => exact ⟨a, s, rfl, Option.some.inj h⟩

/-- A change of the answer of two parts is one of the second part. -/
theorem map_bind_congr {γ : Type} {e : Except ε α} {k : α → Except ε β} {k' : α → Except ε γ}
    {g : β → γ} (h : ∀ a, e = .ok a → (k a).map g = k' a) : (e.bind k).map g = e.bind k' := by
  cases e with
  | error fault => rfl
  | ok a => exact h a rfl

/-- A walk through a list answers if each of its items does. -/
theorem mapM_eq_ok {g : α → Except ε β} {l : List α} {bs : List β} :
    l.mapM g = .ok bs ↔ List.Forall₂ (fun a b => g a = .ok b) l bs := by
  induction l generalizing bs with
  | nil => simp [pure, Except.pure, eq_comm]
  | cons a l ih =>
      rw [List.mapM_cons, List.forall₂_cons_left_iff]
      change (g a).bind _ = _ ↔ _
      rw [bind_eq_ok]
      constructor
      · rintro ⟨b, hb, h⟩
        obtain ⟨cs, hcs, heq⟩ := bind_eq_ok.mp h
        exact ⟨b, cs, hb, ih.mp hcs, (Except.ok.inj heq).symm⟩
      · rintro ⟨b, cs, hb, hcs, rfl⟩
        exact ⟨b, hb, bind_eq_ok.mpr ⟨cs, ih.mpr hcs, rfl⟩⟩

/-- Every answer of a walk through a list is one of an item. -/
theorem exists_of_mapM_eq_ok {g : α → Except ε β} {l : List α} {bs : List β}
    (h : l.mapM g = .ok bs) {b : β} (hb : b ∈ bs) : ∃ a ∈ l, g a = .ok b := by
  rw [mapM_eq_ok] at h
  induction h with
  | nil => simp at hb
  | @cons a _ l _ hfirst _ ih =>
      rcases List.mem_cons.mp hb with rfl | hmem
      · exact ⟨a, List.mem_cons_self, hfirst⟩
      · obtain ⟨c, hc, hgiven⟩ := ih hmem
        exact ⟨c, List.mem_cons_of_mem a hc, hgiven⟩

theorem exists_mapM_eq_ok {g : α → Except ε β} {l : List α} (h : ∀ a ∈ l, ∃ b, g a = .ok b) :
    ∃ bs, l.mapM g = .ok bs := by
  induction l with
  | nil => exact ⟨[], rfl⟩
  | cons a l ih =>
      rw [List.forall_mem_cons] at h
      obtain ⟨b, hb⟩ := h.1
      obtain ⟨bs, hbs⟩ := ih h.2
      exact ⟨b :: bs, by rw [List.mapM_cons, hb, hbs]; rfl⟩

end Parts

/-! ## running a program -/

section Run

variable {σ ε ε' α β : Type}

/-- The answer of a program that starts in a state, and the state that it
leaves. -/
def runAt (x : ExceptT ε (StateM σ) α) (s : σ) : Except ε α × σ := StateT.run (ExceptT.run x) s

@[simp] theorem runAt_pure (a : α) (s : σ) :
    runAt (pure a : ExceptT ε (StateM σ) α) s = (.ok a, s) := rfl

theorem runAt_bind (x : ExceptT ε (StateM σ) α) (k : α → ExceptT ε (StateM σ) β) (s : σ) :
    runAt (x >>= k) s =
      match runAt x s with
      | (.ok a, s') => runAt (k a) s'
      | (.error e, s') => (.error e, s') := by
  unfold runAt
  rw [ExceptT.run_bind, StateT.run_bind]
  cases h : StateT.run (ExceptT.run x) s with
  | mk answer s' => cases answer <;> rfl

/-- A program in two parts returns if both do. -/
theorem runAt_bind_eq_ok {x : ExceptT ε (StateM σ) α} {k : α → ExceptT ε (StateM σ) β} {s s' : σ}
    {b : β} :
    runAt (x >>= k) s = (.ok b, s') ↔
      ∃ a s₁, runAt x s = (.ok a, s₁) ∧ runAt (k a) s₁ = (.ok b, s') := by
  rw [runAt_bind]
  cases runAt x s with
  | mk answer s₁ => cases answer <;> simp

/-- An action of the state inside a program. -/
@[simp] theorem runAt_liftM (y : StateM σ α) (s : σ) :
    runAt (liftM y : ExceptT ε (StateM σ) α) s = (.ok (StateT.run y s).1, (StateT.run y s).2) := rfl

@[simp] theorem runAt_lift (y : StateM σ α) (s : σ) :
    runAt (ExceptT.lift y : ExceptT ε (StateM σ) α) s =
      (.ok (StateT.run y s).1, (StateT.run y s).2) := rfl

theorem runAt_adapt (f : ε → ε') (x : ExceptT ε (StateM σ) α) (s : σ) :
    runAt (x.adapt f) s = ((runAt x s).1.mapError f, (runAt x s).2) := rfl

theorem runAt_adapt_eq_ok {f : ε → ε'} {x : ExceptT ε (StateM σ) α} {s s' : σ} {a : α} :
    runAt (x.adapt f) s = (.ok a, s') ↔ runAt x s = (.ok a, s') := by
  rw [runAt_adapt]
  cases runAt x s with
  | mk answer s₁ => cases answer <;> simp [Except.mapError]

theorem runAt_adapt_bind (f : ε → ε') (x : ExceptT ε (StateM σ) α)
    (k : α → ExceptT ε (StateM σ) β) (s : σ) :
    runAt ((x >>= k).adapt f) s = runAt (x.adapt f >>= fun a => (k a).adapt f) s := by
  rw [runAt_adapt, runAt_bind, runAt_bind, runAt_adapt]
  cases runAt x s with
  | mk answer s' => cases answer <;> rfl

/-! ## programs with one answer -/

variable {I : σ → Prop}

/-- From every state of `I` the action gives this value and leaves a state of
`I`. -/
def Gives (I : σ → Prop) (y : StateM σ α) (a : α) : Prop :=
  ∀ s, I s → ∃ s', I s' ∧ StateT.run y s = (a, s')

/-- From every state of `I` the program gives this answer and leaves a state of
`I`. -/
def Answers (I : σ → Prop) (x : ExceptT ε (StateM σ) α) (e : Except ε α) : Prop :=
  ∀ s, I s → ∃ s', I s' ∧ runAt x s = (e, s')

theorem Gives.pure (a : α) : Gives I (Pure.pure a : StateM σ α) a := fun s hs => ⟨s, hs, rfl⟩

theorem Gives.bind {y : StateM σ α} {a : α} {k : α → StateM σ β} {b : β} (hy : Gives I y a)
    (hk : Gives I (k a) b) : Gives I (y >>= k) b := by
  intro s hs
  obtain ⟨s₁, hs₁, hrun⟩ := hy s hs
  obtain ⟨s₂, hs₂, hrun'⟩ := hk s₁ hs₁
  refine ⟨s₂, hs₂, ?_⟩
  rw [StateT.run_bind, hrun]
  exact hrun'

theorem Answers.pure (a : α) : Answers I (Pure.pure a : ExceptT ε (StateM σ) α) (.ok a) :=
  fun s hs => ⟨s, hs, rfl⟩

theorem Answers.throw (e : ε) :
    Answers I (MonadExcept.throw e : ExceptT ε (StateM σ) α) (.error e) :=
  fun s hs => ⟨s, hs, rfl⟩

theorem Answers.ofExcept (e : Except ε α) : Answers I (liftM e : ExceptT ε (StateM σ) α) e :=
  fun s hs => ⟨s, hs, rfl⟩

/-- An action of the state has no fault, so the program goes on. -/
theorem Gives.bind_answers {y : StateM σ α} {a : α} {k : α → ExceptT ε (StateM σ) β}
    {e : Except ε β} (hy : Gives I y a) (hk : Answers I (k a) e) :
    Answers I (ExceptT.lift y >>= k) e := by
  intro s hs
  obtain ⟨s₁, hs₁, hrun⟩ := hy s hs
  obtain ⟨s₂, hs₂, hrun'⟩ := hk s₁ hs₁
  refine ⟨s₂, hs₂, ?_⟩
  rw [SourceMerge.runAt_bind, runAt_lift, hrun]
  exact hrun'

/-- The answer of a program in two parts: a fault of the first ends it. -/
theorem Answers.bind {x : ExceptT ε (StateM σ) α} {e : Except ε α}
    {k : α → ExceptT ε (StateM σ) β} {h : α → Except ε β} (hx : Answers I x e)
    (hk : ∀ a, e = .ok a → Answers I (k a) (h a)) : Answers I (x >>= k) (e.bind h) := by
  intro s hs
  obtain ⟨s₁, hs₁, hrun⟩ := hx s hs
  cases e with
  | error fault => exact ⟨s₁, hs₁, by rw [runAt_bind, hrun]; rfl⟩
  | ok a =>
      obtain ⟨s₂, hs₂, hrun'⟩ := hk a rfl s₁ hs₁
      exact ⟨s₂, hs₂, by rw [runAt_bind, hrun]; exact hrun'⟩

theorem Answers.adapt {x : ExceptT ε (StateM σ) α} {e : Except ε α} (hx : Answers I x e)
    (f : ε → ε') : Answers I (x.adapt f) (e.mapError f) := by
  intro s hs
  obtain ⟨s', hs', hrun⟩ := hx s hs
  exact ⟨s', hs', by rw [runAt_adapt, hrun]⟩

/-- Walking through a list asks for one answer after the other. -/
theorem Answers.mapM {γ : Type} {x : γ → ExceptT ε (StateM σ) α} {e : γ → Except ε α}
    (h : ∀ c, Answers I (x c) (e c)) (l : List γ) : Answers I (l.mapM x) (l.mapM e) := by
  induction l with
  | nil => exact Answers.pure []
  | cons c l ih =>
      rw [List.mapM_cons, List.mapM_cons]
      exact (h c).bind fun _ _ => ih.bind fun _ _ => Answers.pure _

/-! ## programs that ask before they act -/

/-- From every state of `I` the program asks until it has an answer: a fault ends
it in a state of `I`, and with a value it goes on from one as `k` says. -/
def Leads (I : σ → Prop) (x : ExceptT ε (StateM σ) β) (e : Except ε α)
    (k : α → ExceptT ε (StateM σ) β) : Prop :=
  ∀ s, I s → ∃ s', I s' ∧ runAt x s =
    match e with
    | .ok a => runAt (k a) s'
    | .error fault => (.error fault, s')

theorem Leads.start (a : α) (k : α → ExceptT ε (StateM σ) β) : Leads I (k a) (.ok a) k :=
  fun s hs => ⟨s, hs, rfl⟩

/-- A program that has asked for everything asks before what follows it. -/
theorem Answers.leads {x : ExceptT ε (StateM σ) α} {e : Except ε α}
    {k : α → ExceptT ε (StateM σ) β} {γ : Type} {h : α → Except ε γ}
    {k' : γ → ExceptT ε (StateM σ) β} (hx : Answers I x e)
    (hk : ∀ a, e = .ok a → Leads I (k a) (h a) k') : Leads I (x >>= k) (e.bind h) k' := by
  intro s hs
  obtain ⟨s₁, hs₁, hrun⟩ := hx s hs
  cases e with
  | error fault => exact ⟨s₁, hs₁, by rw [runAt_bind, hrun]; rfl⟩
  | ok a =>
      obtain ⟨s₂, hs₂, hrun'⟩ := hk a rfl s₁ hs₁
      exact ⟨s₂, hs₂, by rw [runAt_bind, hrun]; exact hrun'⟩

theorem Gives.leads {y : StateM σ α} {a : α} {k : α → ExceptT ε (StateM σ) β} {γ : Type}
    {e : Except ε γ} {k' : γ → ExceptT ε (StateM σ) β} (hy : Gives I y a)
    (hk : Leads I (k a) e k') : Leads I (ExceptT.lift y >>= k) e k' := by
  intro s hs
  obtain ⟨s₁, hs₁, hrun⟩ := hy s hs
  obtain ⟨s₂, hs₂, hrun'⟩ := hk s₁ hs₁
  refine ⟨s₂, hs₂, ?_⟩
  rw [runAt_bind, runAt_lift, hrun]
  exact hrun'

/-- What follows a program follows what it goes on with. -/
theorem Leads.bind {γ : Type} {x : ExceptT ε (StateM σ) β} {e : Except ε α}
    {k : α → ExceptT ε (StateM σ) β} (hx : Leads I x e k)
    (next : β → ExceptT ε (StateM σ) γ) : Leads I (x >>= next) e fun a => k a >>= next := by
  intro s hs
  obtain ⟨s', hs', hrun⟩ := hx s hs
  refine ⟨s', hs', ?_⟩
  rw [runAt_bind, hrun]
  cases e with
  | error fault => rfl
  | ok a => exact (runAt_bind (k a) next s').symm

/-- What was found can be put together before going on. -/
theorem Leads.map {γ : Type} {x : ExceptT ε (StateM σ) β} {e : Except ε α} (g : α → γ)
    {k : γ → ExceptT ε (StateM σ) β} (hx : Leads I x e fun a => k (g a)) :
    Leads I x (e.map g) k := by
  intro s hs
  obtain ⟨s', hs', hrun⟩ := hx s hs
  refine ⟨s', hs', ?_⟩
  rw [hrun]
  cases e <;> rfl

theorem Leads.congr {x : ExceptT ε (StateM σ) β} {e : Except ε α}
    {k k' : α → ExceptT ε (StateM σ) β} (hx : Leads I x e k)
    (hk : ∀ a, e = .ok a → ∀ s, runAt (k a) s = runAt (k' a) s) : Leads I x e k' := by
  intro s hs
  obtain ⟨s', hs', hrun⟩ := hx s hs
  refine ⟨s', hs', ?_⟩
  rw [hrun]
  cases e with
  | error fault => rfl
  | ok a => exact hk a rfl s'

end Run

/-! ## asking and reporting -/

section Ask

variable {σ : Type} [FileStore (StateM σ)] [Journal (StateM σ)] {I : σ → Prop} {f : Snapshot}

theorem Shows.gives_contains (h : Shows I f) (path : Text) :
    Gives I (FileStore.contains path) (f.contains path) :=
  fun s hs => ⟨s, hs, h.contains s hs path⟩

theorem Shows.gives_isDirectory (h : Shows I f) (path : Text) :
    Gives I (FileStore.isDirectory path) (f.isDirectory path) :=
  fun s hs => ⟨s, hs, h.isDirectory s hs path⟩

theorem Shows.gives_read (h : Shows I f) (path : Text) :
    Gives I (FileStore.read path) (f.read path) :=
  fun s hs => ⟨s, hs, h.read s hs path⟩

theorem Shows.gives_report (h : Shows I f) (level : Level) (part message : Text) :
    Gives I (report level part message) () :=
  fun s hs => ⟨_, h.record s hs _, rfl⟩

theorem Shows.gives_reportAll (h : Shows I f) (level : Level) (part : Text)
    (messages : List Text) : Gives I (reportAll level part messages) () := by
  unfold reportAll
  induction messages with
  | nil => exact Gives.pure ()
  | cons message rest ih => exact (h.gives_report level part message).bind ih

end Ask

end SourceMerge
