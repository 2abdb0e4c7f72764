import SourceMerge.Proofs.Store.Snapshot

/-!
# SourceMerge.Proofs.Store.Recorded

What a program reports.  `Keeps records` says that a state holds the records that
were made, in order: a report adds one behind the others, and whatever is asked of
the files or written to them leaves them alone.

Of all records a `Watch` looks at those of one level from one part of the program.
`Tells w x P` says of a program that whenever it returns, the messages that `w` sees
of it are as `P` says, given its answer.  The rule for programs in two parts hands
on what was seen so far, so what a program tells is computed along its text, and
its silent parts drop out.
-/

namespace SourceMerge

/-- The messages of one level from one part of the program, in order. -/
def messagesOf (level : Level) (part : Text) (rs : List Record) : List Text :=
  (rs.filter fun r => r.level = level ∧ r.speaker = speakerName part).map (·.message)

@[simp] theorem messagesOf_append (level : Level) (part : Text) (rs qs : List Record) :
    messagesOf level part (rs ++ qs) = messagesOf level part rs ++ messagesOf level part qs := by
  simp [messagesOf]

/-- A state holds the records that were made, and only reports change them. -/
structure Keeps {σ : Type} [FileStore (StateM σ)] [Journal (StateM σ)] (records : σ → List Record) :
    Prop where
  record : ∀ s r, records (StateT.run (Journal.record r : StateM σ Unit) s).2 = records s ++ [r]
  contains : ∀ s path,
    records (StateT.run (FileStore.contains path : StateM σ Bool) s).2 = records s
  isDirectory : ∀ s path,
    records (StateT.run (FileStore.isDirectory path : StateM σ Bool) s).2 = records s
  read : ∀ s path,
    records (StateT.run (FileStore.read path : StateM σ (Except StoreFault Text)) s).2 = records s
  write : ∀ s path content,
    records (StateT.run (FileStore.write path content : StateM σ (Except StoreFault Unit)) s).2 =
      records s
  workingDirectory : ∀ s,
    records (StateT.run (FileStore.workingDirectory : StateM σ Text) s).2 = records s

theorem MemoryWorld.keeps : Keeps MemoryWorld.records where
  record _ _ := rfl
  contains _ _ := rfl
  isDirectory _ _ := rfl
  read _ _ := rfl
  write _ _ _ := rfl
  workingDirectory _ := rfl

/-- A session keeps its records wherever its plan sends them. -/
theorem Session.records_note (s : Session) (r : Record) :
    (s.note r).records = s.records ++ [r] := by
  unfold note
  cases s.plan with
  | none => rfl
  | some p =>
      simp only [fileRecord]
      split <;> rfl

theorem Session.keeps : Keeps Session.records where
  record s r := s.records_note r
  contains _ _ := rfl
  isDirectory _ _ := rfl
  read _ _ := rfl
  write _ _ _ := rfl
  workingDirectory _ := rfl

/-- Where the records of a state are, and which of them are looked at. -/
structure Watch (σ : Type) where
  records : σ → List Record
  level : Level
  part : Text

namespace Watch

variable {σ : Type} {w : Watch σ}

/-- The messages that are seen among records. -/
def sees (w : Watch σ) (rs : List Record) : List Text := messagesOf w.level w.part rs

@[simp] theorem sees_append (rs qs : List Record) : w.sees (rs ++ qs) = w.sees rs ++ w.sees qs :=
  messagesOf_append ..

end Watch

section Judgements

variable {σ ε ε' α β γ : Type} {w : Watch σ}

/-- What is seen of an action is as `P` says of its value. -/
def Says (w : Watch σ) (y : StateM σ α) (P : α → List Text → Prop) : Prop :=
  ∀ s, ∃ new, w.records (StateT.run y s).2 = w.records s ++ new ∧
    P (StateT.run y s).1 (w.sees new)

/-- What is seen of a program that returns is as `P` says of its answer. -/
def Tells (w : Watch σ) (x : ExceptT ε (StateM σ) α) (P : α → List Text → Prop) : Prop :=
  ∀ s a s', runAt x s = (.ok a, s') → ∃ new, w.records s' = w.records s ++ new ∧ P a (w.sees new)

/-- Nothing is seen. -/
def Unseen (_ : α) (seen : List Text) : Prop := seen = []

namespace Says

theorem pure {a : α} {P : α → List Text → Prop} (h : P a []) :
    Says w (Pure.pure a : StateM σ α) P :=
  fun _ => ⟨[], (List.append_nil _).symm, h⟩

theorem mono {y : StateM σ α} {P Q : α → List Text → Prop} (hy : Says w y P)
    (h : ∀ a seen, P a seen → Q a seen) : Says w y Q :=
  fun s => (hy s).imp fun _ hnew => ⟨hnew.1, h _ _ hnew.2⟩

theorem bind {y : StateM σ α} {k : α → StateM σ β} {P : α → List Text → Prop}
    {Q : β → List Text → Prop} (hy : Says w y P)
    (hk : ∀ a seen, P a seen → Says w (k a) fun b later => Q b (seen ++ later)) :
    Says w (y >>= k) Q := by
  intro s
  obtain ⟨new, hnew, hP⟩ := hy s
  obtain ⟨later, hlater, hQ⟩ := hk _ _ hP (StateT.run y s).2
  refine ⟨new ++ later, ?_, ?_⟩
  · rw [← List.append_assoc, ← hnew, ← hlater]
    rfl
  · rw [w.sees_append]
    exact hQ

/-- A part of which nothing is seen. -/
theorem bind_unseen {y : StateM σ α} {k : α → StateM σ β} {Q : β → List Text → Prop}
    (hy : Says w y Unseen) (hk : ∀ a, Says w (k a) Q) : Says w (y >>= k) Q :=
  hy.bind fun a seen hseen => by
    rw [show seen = [] from hseen]
    exact hk a

/-- An action inside a program. -/
theorem lift {y : StateM σ α} {P : α → List Text → Prop} (hy : Says w y P) :
    Tells w (ExceptT.lift y : ExceptT ε (StateM σ) α) P := by
  intro s a s' hrun
  obtain ⟨ha, rfl⟩ := Prod.mk.inj hrun
  obtain ⟨new, hnew, hP⟩ := hy s
  exact ⟨new, hnew, Except.ok.inj ha ▸ hP⟩

end Says

namespace Tells

theorem pure {a : α} {P : α → List Text → Prop} (h : P a []) :
    Tells w (Pure.pure a : ExceptT ε (StateM σ) α) P := by
  intro s b s' hrun
  obtain ⟨hb, rfl⟩ := Prod.mk.inj hrun
  exact ⟨[], (List.append_nil _).symm, Except.ok.inj hb ▸ h⟩

theorem throw (e : ε) {P : α → List Text → Prop} :
    Tells w (MonadExcept.throw e : ExceptT ε (StateM σ) α) P :=
  fun _ _ _ hrun => by cases hrun

theorem ofExcept (e : Except ε α) : Tells w (liftM e : ExceptT ε (StateM σ) α) Unseen := by
  intro s a s' hrun
  obtain ⟨-, rfl⟩ := Prod.mk.inj hrun
  exact ⟨[], (List.append_nil _).symm, rfl⟩

theorem bind {x : ExceptT ε (StateM σ) α} {k : α → ExceptT ε (StateM σ) β}
    {P : α → List Text → Prop} {Q : β → List Text → Prop} (hx : Tells w x P)
    (hk : ∀ a seen, P a seen → Tells w (k a) fun b later => Q b (seen ++ later)) :
    Tells w (x >>= k) Q := by
  intro s b s' hrun
  obtain ⟨a, s₁, hfirst, hsecond⟩ := runAt_bind_eq_ok.mp hrun
  obtain ⟨new, hnew, hP⟩ := hx s a s₁ hfirst
  obtain ⟨later, hlater, hQ⟩ := hk a _ hP s₁ b s' hsecond
  refine ⟨new ++ later, ?_, ?_⟩
  · rw [hlater, hnew, List.append_assoc]
  · rw [w.sees_append]
    exact hQ

/-- A part of which nothing is seen. -/
theorem bind_unseen {x : ExceptT ε (StateM σ) α} {k : α → ExceptT ε (StateM σ) β}
    {Q : β → List Text → Prop} (hx : Tells w x Unseen) (hk : ∀ a, Tells w (k a) Q) :
    Tells w (x >>= k) Q :=
  hx.bind fun a seen hseen => by
    rw [show seen = [] from hseen]
    exact hk a

theorem adapt {x : ExceptT ε (StateM σ) α} {P : α → List Text → Prop} (hx : Tells w x P)
    (f : ε → ε') : Tells w (x.adapt f) P :=
  fun s a s' hrun => hx s a s' (runAt_adapt_eq_ok.mp hrun)

theorem mapM {x : γ → ExceptT ε (StateM σ) α} (h : ∀ c, Tells w (x c) Unseen) (l : List γ) :
    Tells w (l.mapM x) Unseen := by
  induction l with
  | nil => exact pure rfl
  | cons c l ih =>
      rw [List.mapM_cons]
      exact (h c).bind_unseen fun _ => ih.bind_unseen fun _ => pure rfl

end Tells

end Judgements

/-! ## reports and files -/

namespace Keeps

variable {σ : Type} [FileStore (StateM σ)] [Journal (StateM σ)] {w : Watch σ}

theorem says_report (h : Keeps w.records) (message : Text) :
    Says w (report w.level w.part message) fun _ seen => seen = [message] := by
  intro s
  refine ⟨_, h.record s ⟨w.level, speakerName w.part, message⟩, ?_⟩
  simp [Watch.sees, messagesOf]

/-- Of other levels and other speakers nothing is seen. -/
theorem unseen_report (h : Keeps w.records) {level : Level} {part : Text}
    (hother : ¬ (level = w.level ∧ speakerName part = speakerName w.part)) (message : Text) :
    Says w (report level part message) Unseen := by
  intro s
  refine ⟨_, h.record s ⟨level, speakerName part, message⟩, ?_⟩
  simp [Unseen, Watch.sees, messagesOf, hother]

theorem says_reportAll (h : Keeps w.records) (messages : List Text) :
    Says w (reportAll w.level w.part messages) fun _ seen => seen = messages := by
  unfold reportAll
  induction messages with
  | nil => exact Says.pure rfl
  | cons message messages ih =>
      refine (h.says_report message).bind fun _ seen hseen => ih.mono fun _ later hlater => ?_
      rw [hseen, hlater, List.singleton_append]

theorem unseen_reportAll (h : Keeps w.records) {level : Level} {part : Text}
    (hother : ¬ (level = w.level ∧ speakerName part = speakerName w.part))
    (messages : List Text) : Says w (reportAll level part messages) Unseen := by
  unfold reportAll
  induction messages with
  | nil => exact Says.pure rfl
  | cons message messages ih => exact (h.unseen_report hother message).bind_unseen fun _ => ih

theorem says_contains (h : Keeps w.records) (path : Text) :
    Says w (FileStore.contains path) Unseen :=
  fun s => ⟨[], by rw [h.contains, List.append_nil], rfl⟩

theorem says_isDirectory (h : Keeps w.records) (path : Text) :
    Says w (FileStore.isDirectory path) Unseen :=
  fun s => ⟨[], by rw [h.isDirectory, List.append_nil], rfl⟩

theorem says_read (h : Keeps w.records) (path : Text) : Says w (FileStore.read path) Unseen :=
  fun s => ⟨[], by rw [h.read, List.append_nil], rfl⟩

theorem says_write (h : Keeps w.records) (path content : Text) :
    Says w (FileStore.write path content) Unseen :=
  fun s => ⟨[], by rw [h.write, List.append_nil], rfl⟩

theorem says_workingDirectory (h : Keeps w.records) :
    Says w FileStore.workingDirectory Unseen :=
  fun s => ⟨[], by rw [h.workingDirectory, List.append_nil], rfl⟩

end Keeps

end SourceMerge
