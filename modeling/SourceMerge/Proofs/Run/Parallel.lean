import SourceMerge.Proofs.Merge.Plan
import SourceMerge.Proofs.Run.Looking
import SourceMerge.Run

/-!
# SourceMerge.Proofs.Run.Parallel

Two programs that are run side by side.  What is reported makes no difference to what
a program asks and writes, so programs that differ only in their reports go the same
way wherever the files are the same.

`Indistinct R` says of related states that a program cannot tell them apart by their
files, whatever has been reported in the one and in the other: so with equal files in
memory (`Memory.indistinct`), and with equal disks and no log file
(`Disk.indistinct`).  Two programs are `Parallel` if from related states they come to
related states, with answers that are related as well.  This is closed under the ways
in which programs are put together, and every merge is parallel to itself.
-/

namespace SourceMerge

/-! ## answers side by side -/

/-- Two answers are one fault, or values that are related. -/
inductive SameAnswer {ε α β : Type} (Q : α → β → Prop) : Except ε α → Except ε β → Prop where
  | fault (e : ε) : SameAnswer Q (.error e) (.error e)
  | value {a : α} {b : β} (h : Q a b) : SameAnswer Q (.ok a) (.ok b)

namespace SameAnswer

variable {ε ε' α β : Type} {Q Q' : α → β → Prop} {e : Except ε α} {e' : Except ε β}

theorem mono (h : SameAnswer Q e e') (hQ : ∀ a b, e' = .ok b → Q a b → Q' a b) :
    SameAnswer Q' e e' := by
  cases h with
  | fault e => exact .fault e
  | value h => exact .value (hQ _ _ rfl h)

theorem mapError (h : SameAnswer Q e e') (f : ε → ε') :
    SameAnswer Q (e.mapError f) (e'.mapError f) := by
  cases h with
  | fault e => exact .fault (f e)
  | value h => exact .value h

/-- Where the second answer is a value, so is the first. -/
theorem exists_values (h : SameAnswer Q e e') (hreturns : e'.toOption.isSome = true) :
    ∃ a b, e = .ok a ∧ e' = .ok b ∧ Q a b := by
  cases h with
  | fault e => cases hreturns
  | value h => exact ⟨_, _, rfl, rfl, h⟩

end SameAnswer

/-- Values that belong to the items of a list, side by side. -/
inductive Rows {α β γ : Type} (Q : γ → α → β → Prop) : List γ → List α → List β → Prop where
  | nil : Rows Q [] [] []
  | cons {c : γ} {a : α} {b : β} {l : List γ} {as : List α} {bs : List β} (h : Q c a b)
      (rest : Rows Q l as bs) : Rows Q (c :: l) (a :: as) (b :: bs)

namespace Rows

variable {α β γ δ : Type} {Q : γ → α → β → Prop} {l l' : List γ} {as as' : List α}
  {bs bs' : List β}

theorem append (h : Rows Q l as bs) (h' : Rows Q l' as' bs') :
    Rows Q (l ++ l') (as ++ as') (bs ++ bs') := by
  induction h with
  | nil => exact h'
  | cons h _ ih => exact .cons h ih

/-- Values that are made from others. -/
theorem map {α' β' : Type} {S : γ → α' → β' → Prop} {f : α → α'} {g : β → β'}
    (h : Rows Q l as bs) (hS : ∀ c a b, Q c a b → S c (f a) (g b)) :
    Rows S l (as.map f) (bs.map g) := by
  induction h with
  | nil => exact .nil
  | cons h _ ih => exact .cons (hS _ _ _ h) ih

/-- Items that are made from others. -/
theorem map_left {f : δ → γ} {l : List δ} (h : Rows (fun d => Q (f d)) l as bs) :
    Rows Q (l.map f) as bs := by
  induction h with
  | nil => exact .nil
  | cons h _ ih => exact .cons h ih

/-- Rows of rows in one. -/
theorem flatten {f : δ → List γ} {l : List δ} {as : List (List α)} {bs : List (List β)}
    (h : Rows (fun d => Rows Q (f d)) l as bs) : Rows Q (l.flatMap f) as.flatten bs.flatten := by
  induction h with
  | nil => exact .nil
  | cons h _ ih => exact h.append ih

end Rows

/-! ## programs side by side -/

section Programs

variable {σ ε ε' α β γ : Type} {R : σ → σ → Prop}

/-- From related states the action gives one value and comes to related states. -/
def Alike (R : σ → σ → Prop) (y : StateM σ α) : Prop :=
  ∀ s t, R s t → (StateT.run y s).1 = (StateT.run y t).1 ∧
    R (StateT.run y s).2 (StateT.run y t).2

/-- From related states two programs come to related states and answer the same, their
values being related by `Q`. -/
def Parallel (R : σ → σ → Prop) (x : ExceptT ε (StateM σ) α) (y : ExceptT ε (StateM σ) β)
    (Q : α → β → Prop) : Prop :=
  ∀ s t, R s t → SameAnswer Q (runAt x s).1 (runAt y t).1 ∧ R (runAt x s).2 (runAt y t).2

namespace Alike

theorem pure (a : α) : Alike R (Pure.pure a : StateM σ α) := fun _ _ hst => ⟨rfl, hst⟩

theorem bind {y : StateM σ α} {k : α → StateM σ β} (hy : Alike R y) (hk : ∀ a, Alike R (k a)) :
    Alike R (y >>= k) := by
  intro s t hst
  obtain ⟨heq, hst'⟩ := hy s t hst
  have hrun : ∀ u, StateT.run (y >>= k) u = StateT.run (k (StateT.run y u).1) (StateT.run y u).2 :=
    fun _ => rfl
  rw [hrun, hrun, heq]
  exact hk _ _ _ hst'

/-- An action has no fault, so programs go on behind it. -/
theorem bind_parallel {y : StateM σ γ} {k : γ → ExceptT ε (StateM σ) α}
    {k' : γ → ExceptT ε (StateM σ) β} {Q : α → β → Prop} (hy : Alike R y)
    (hk : ∀ c, Parallel R (k c) (k' c) Q) :
    Parallel R (ExceptT.lift y >>= k) (ExceptT.lift y >>= k') Q := by
  intro s t hst
  obtain ⟨heq, hst'⟩ := hy s t hst
  rw [runAt_bind, runAt_bind, runAt_lift, runAt_lift, heq]
  exact hk _ _ _ hst'

end Alike

namespace Parallel

variable {x : ExceptT ε (StateM σ) α} {y : ExceptT ε (StateM σ) β} {Q Q' : α → β → Prop}

theorem pure {a : α} {b : β} (h : Q a b) :
    Parallel R (Pure.pure a : ExceptT ε (StateM σ) α) (Pure.pure b) Q :=
  fun _ _ hst => ⟨.value h, hst⟩

theorem throw (e : ε) :
    Parallel R (MonadExcept.throw e : ExceptT ε (StateM σ) α) (MonadExcept.throw e) Q :=
  fun _ _ hst => ⟨.fault e, hst⟩

/-- What is known of the values of the second program. -/
theorem of_run (h : Parallel R x y Q)
    (hQ : ∀ a b t t', Q a b → runAt y t = (.ok b, t') → Q' a b) : Parallel R x y Q' := by
  intro s t hst
  obtain ⟨hanswer, hst'⟩ := h s t hst
  exact ⟨hanswer.mono fun a b hb hab => hQ a b t _ hab (Prod.ext hb rfl), hst'⟩

theorem bind {α' β' : Type} {k : α → ExceptT ε (StateM σ) α'} {k' : β → ExceptT ε (StateM σ) β'}
    {S : α' → β' → Prop} (h : Parallel R x y Q) (hk : ∀ a b, Q a b → Parallel R (k a) (k' b) S) :
    Parallel R (x >>= k) (y >>= k') S := by
  intro s t hst
  obtain ⟨hanswer, hst'⟩ := h s t hst
  rw [runAt_bind, runAt_bind]
  revert hanswer hst'
  cases runAt x s with
  | mk e s' =>
      cases runAt y t with
      | mk e' t' =>
          intro hanswer hst'
          cases hanswer with
          | fault e => exact ⟨.fault e, hst'⟩
          | value h => exact hk _ _ h s' t' hst'

theorem adapt (h : Parallel R x y Q) (f : ε → ε') : Parallel R (x.adapt f) (y.adapt f) Q :=
  fun s t hst => (h s t hst).imp_left (·.mapError f)

theorem mapM {x : γ → ExceptT ε (StateM σ) α} {y : γ → ExceptT ε (StateM σ) β}
    {Q : γ → α → β → Prop} (h : ∀ c, Parallel R (x c) (y c) (Q c)) (l : List γ) :
    Parallel R (l.mapM x) (l.mapM y) (Rows Q l) := by
  induction l with
  | nil => exact pure .nil
  | cons c l ih =>
      rw [List.mapM_cons, List.mapM_cons]
      refine (h c).bind fun a b hfirst => ih.bind fun as bs hrest => ?_
      exact pure (.cons hfirst hrest)

end Parallel

end Programs

/-! ## states that cannot be told apart -/

section Stores

variable {σ : Type} [FileStore (StateM σ)] [FolderView (StateM σ)] [Journal (StateM σ)]

/-- Related states cannot be told apart by their files, and reporting in either of them
changes nothing about that. -/
structure Indistinct (R : σ → σ → Prop) : Prop where
  shows : ∀ s t, R s t → ∃ (I : σ → Prop) (f : Snapshot), Shows I f ∧ I s ∧ I t ∧
    ∀ u v, I u → I v → R u v
  entries : ∀ path, Alike R (FolderView.entries path)
  below : ∀ keep path, Alike R (FolderView.below keep path)
  write : ∀ path t, Alike R (FileStore.write path t)

end Stores

/-- Two worlds with the same files. -/
def MemoryWorld.SameFiles (w w' : MemoryWorld) : Prop := w.memory = w'.memory

/-- Files in memory, beside any directories that are looked through without a look at the
records. -/
theorem Memory.indistinct [FolderView (StateM MemoryWorld)]
    (hentries : ∀ path, Alike MemoryWorld.SameFiles (FolderView.entries path))
    (hbelow : ∀ keep path, Alike MemoryWorld.SameFiles (FolderView.below keep path)) :
    Indistinct MemoryWorld.SameFiles where
  shows w _ heq := ⟨_, _, w.memory.shows, rfl, heq.symm, fun _ _ hu hv => hu.trans hv.symm⟩
  entries := hentries
  below := hbelow
  write path t _ _ heq := ⟨rfl, congrArg (Memory.write · path t) heq⟩

/-- Two sessions with one disk, of which none has a log file on it. -/
def Session.SameDisk (s t : Session) : Prop :=
  s.disk = t.disk ∧ (∀ p, s.plan = some p → p.file = none) ∧ ∀ p, t.plan = some p → p.file = none

theorem Disk.indistinct : Indistinct Session.SameDisk where
  shows := by
    rintro s t ⟨hdisk, hs, ht⟩
    refine ⟨_, _, s.disk.shows, ⟨rfl, hs⟩, ⟨hdisk.symm, ht⟩, ?_⟩
    rintro u v ⟨hu, hu'⟩ ⟨hv, hv'⟩
    exact ⟨hu.trans hv.symm, hu', hv'⟩
  entries path := by
    rintro s t ⟨hdisk, hlogs⟩
    exact ⟨congrArg (·.entries path) hdisk, hdisk, hlogs⟩
  below keep path := by
    rintro s t ⟨hdisk, hlogs⟩
    exact ⟨congrArg (·.below keep path) hdisk, hdisk, hlogs⟩
  write path content := by
    rintro s t ⟨hdisk, hlogs⟩
    exact ⟨congrArg (fun d => (d.write (Session.onDisk path) content).1) hdisk,
      congrArg (fun d => (d.write (Session.onDisk path) content).2) hdisk, hlogs⟩

/-! ## outcomes -/

/-- An outcome at a path, without a notice about options. -/
structure Outcome.IsOf (dest : Text) (out : Outcome) : Prop where
  dest : out.dest = dest
  noNotice : ∀ d ∈ out.diagnostics, d.kind ≠ .sourceMapDisabled

theorem Graph.kind_of_mem_diagnose {g : Graph} {present : Text → Bool} :
    ∀ d ∈ g.diagnose present, d.kind ≠ .sourceMapDisabled := by
  intro d hd
  obtain ⟨u, -, hd⟩ := List.mem_flatMap.mp hd
  rcases List.mem_append.mp hd with hd | hd
  · obtain ⟨target, -, rfl⟩ := List.mem_map.mp hd
    unfold Diagnostic.ofDependency
    split
    · simp
    · split <;> simp
  · split at hd
    · simp at hd
    · rw [List.mem_singleton.mp hd]
      simp [Diagnostic.excluded]

theorem Plan.isOf_outcome {f : Snapshot} {dest : Text} {sources : List Text} {o : Options}
    {r : Renderer} {p : Plan} (hplan : f.planInto dest sources o r = .ok p) (path : Option Text) :
    (p.outcome dest path).IsOf dest := by
  obtain ⟨hnotice, start, gs, hp⟩ := Snapshot.planned_of_planInto hplan
  refine ⟨rfl, fun d hd => ?_⟩
  have hd : d ∈ p.notice.toList ++ (p.loaded.missing ++ p.excluded) := hd
  rw [hnotice, Option.toList_none, List.nil_append, hp.loaded, Merge.Loaded.missing_takeAll,
    hp.excluded] at hd
  rcases List.mem_append.mp hd with hd | hd
  · obtain ⟨path, -, rfl⟩ := List.mem_map.mp hd
    simp [Diagnostic.missingSource]
  · exact Graph.kind_of_mem_diagnose d hd

namespace Indistinct

variable {σ ε α β : Type} [FileStore (StateM σ)] [FolderView (StateM σ)] [Journal (StateM σ)]
  {R : σ → σ → Prop} (h : Indistinct R)
include h

/-! ## asking and reporting -/

/-- What has one value in all states of a snapshot has one in related states. -/
theorem alike_of_gives {y : StateM σ α}
    (hy : ∀ (I : σ → Prop) (f : Snapshot), Shows I f → ∃ a, Gives I y a) : Alike R y := by
  intro s t hst
  obtain ⟨I, f, hI, hs, ht, hback⟩ := h.shows s t hst
  obtain ⟨a, hgives⟩ := hy I f hI
  obtain ⟨s', hs', hrun⟩ := hgives s hs
  obtain ⟨t', ht', hrun'⟩ := hgives t ht
  rw [hrun, hrun']
  exact ⟨rfl, hback s' t' hs' ht'⟩

theorem alike_report (level : Level) (part message : Text) :
    Alike R (report level part message) :=
  h.alike_of_gives fun _ _ hI => ⟨(), hI.gives_report level part message⟩

theorem looking : Looking fun _ (y : StateM σ _) => Alike R y where
  pure := Alike.pure
  bind := Alike.bind
  contains path := h.alike_of_gives fun _ f hI => ⟨f.contains path, hI.gives_contains path⟩
  entries := h.entries
  below := h.below
  report := h.alike_report

/-- A report makes no difference to what follows it. -/
theorem parallel_report {x : ExceptT ε (StateM σ) α} {y : ExceptT ε (StateM σ) β}
    {Q : α → β → Prop} (hxy : Parallel R x y Q) (level : Level) (part message : Text) :
    Parallel R (ExceptT.lift (report level part message) >>= fun _ => x) y Q := by
  intro s t hst
  obtain ⟨I, f, hI, hs, ht, hback⟩ := h.shows s t hst
  obtain ⟨s', hs', hrun⟩ := hI.gives_report level part message s hs
  rw [runAt_bind, runAt_lift, hrun]
  exact hxy s' t (hback s' t hs' ht)

/-! ## merging -/

/-- Programs that ask before they act are parallel if they act in parallel. -/
theorem parallel_of_leads {γ : Type} {x : ExceptT ε (StateM σ) α} {Q : α → α → Prop}
    (hx : ∀ (I : σ → Prop) (f : Snapshot), Shows I f → ∃ (e : Except ε γ) (k : γ → _),
      Leads I x e k ∧ ∀ c, e = .ok c → Parallel R (k c) (k c) Q) : Parallel R x x Q := by
  intro s t hst
  obtain ⟨I, f, hI, hs, ht, hback⟩ := h.shows s t hst
  obtain ⟨e, k, hlead, hk⟩ := hx I f hI
  obtain ⟨s', hs', hrun⟩ := hlead s hs
  obtain ⟨t', ht', hrun'⟩ := hlead t ht
  rw [hrun, hrun']
  cases e with
  | error fault => exact ⟨.fault fault, hback s' t' hs' ht'⟩
  | ok c => exact hk c rfl s' t' (hback s' t' hs' ht')

theorem parallel_store (x : Finished) :
    Parallel R (x.store : ExceptT MergeFault (StateM σ) _) x.store Eq := by
  unfold Finished.store
  by_cases hfile : x.recorder.delivery.isFile = true
  · rw [if_pos hfile]
    refine (h.write _ _).bind_parallel fun written => ?_
    cases written with
    | error fault => exact Parallel.throw _
    | ok _ => exact (h.alike_report _ _ _).bind_parallel fun _ => Parallel.pure rfl
  · rw [if_neg hfile]
    exact Parallel.pure rfl

theorem parallel_storeMap (p : Plan) :
    Parallel R (p.storeMap : ExceptT MergeFault (StateM σ) _) p.storeMap Eq := by
  unfold Plan.storeMap
  cases p.map with
  | none => exact Parallel.pure rfl
  | some x => exact h.parallel_store x

theorem parallel_deliver (dest : Text) (p : Plan) :
    Parallel R (p.deliver dest : ExceptT MergeFault (StateM σ) _) (p.deliver dest) Eq := by
  refine (h.parallel_storeMap p).bind fun path path' hpath => ?_
  subst hpath
  refine (h.write _ _).bind_parallel fun written => ?_
  cases written with
  | error fault => exact Parallel.throw _
  | ok _ => exact (h.alike_report _ _ _).bind_parallel fun _ => Parallel.pure rfl

/-- **A merge is decided by the files.** -/
theorem parallel_mergeInto (dest : Text) (sources : List Text) (o : Options) (r : Renderer) :
    Parallel R (Merge.mergeInto dest sources o r : ExceptT MergeFault (StateM σ) _)
      (Merge.mergeInto dest sources o r) fun out out' => out = out' ∧ out'.IsOf dest := by
  refine h.parallel_of_leads fun _ f hI => ⟨f.planInto dest sources o r, (·.deliver dest),
    hI.leads_mergeInto dest sources o r, fun p hplan => ?_⟩
  refine (h.parallel_deliver dest p).of_run fun out out' t t' heq hrun => ⟨heq, ?_⟩
  rw [(Plan.stores_of_deliver hrun).1]
  exact Plan.isOf_outcome hplan _

theorem parallel_mergeDestination (o : Options) (r : Renderer) (d : Destination) :
    Parallel R (Run.mergeDestination o r d : ExceptT MergeFault (StateM σ) _)
      (Run.mergeDestination o r d) fun out out' => out = out' ∧ out'.IsOf d.dest := by
  have hexpand : Alike R (Sources.expand d.patterns d.base d.nonull) :=
    h.looking.expand d.patterns d.base d.nonull
  exact hexpand.bind_parallel fun sources => h.parallel_mergeInto d.dest sources o r

end Indistinct

end SourceMerge
