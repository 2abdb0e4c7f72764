import SourceMerge.Proofs.Store.Snapshot
import SourceMerge.Proofs.Table

/-!
# SourceMerge.Proofs.Store.Tree

What stays in a tree when a file is stored.  Directories are made on the way, but
none is lost, and no file but the stored one changes (`KeepsBut`).  A path goes on
leading to the file that it led to, for it passes through directories only.  So
a file that was stored is found under its path, and any other file is found as
it was.
-/

namespace SourceMerge.Tree

/-! ## what stands at a place -/

theorem at?_concat (t : Tree) (here : Place) (name : Text) :
    t.at? (here ++ [name]) =
      match t.at? here with
      | some (.directory entries) => Table.get? entries name
      | _ => none := by
  induction here generalizing t with
  | nil =>
      cases t with
      | file bytes => rfl
      | directory entries =>
          simp only [List.nil_append, at?]
          cases Table.get? entries name <;> rfl
  | cons first here ih =>
      cases t with
      | file bytes => rfl
      | directory entries =>
          simp only [List.cons_append, at?]
          cases Table.get? entries first with
          | none => rfl
          | some child => exact ih child

/-- A tree that is put into a directory stands there. -/
theorem at?_put_concat {t : Tree} {here : Place} {entries : List (Text × Tree)}
    (h : t.at? here = some (.directory entries)) (new : Tree) (name : Text) :
    (t.put new (here ++ [name])).at? (here ++ [name]) = some new := by
  induction here generalizing t with
  | nil =>
      obtain rfl := Option.some.inj h
      simp [put, at?, Table.get?_insert_self]
  | cons first here ih =>
      cases t with
      | file bytes => simp [at?] at h
      | directory rows =>
          simp only [at?] at h
          cases hchild : Table.get? rows first with
          | none => simp [hchild] at h
          | some child =>
              simp only [hchild] at h
              simp only [List.cons_append, put, at?, Table.get?_insert_self, hchild,
                Option.getD_some]
              exact ih h

/-! ## trees that keep their files -/

/-- Directories stay directories, and apart from one place files stay as they
are. -/
structure KeepsBut (place : Place) (t t' : Tree) : Prop where
  directory : ∀ here entries, t.at? here = some (.directory entries) →
    ∃ entries', t'.at? here = some (.directory entries')
  file : ∀ here bytes, here ≠ place → t.at? here = some (.file bytes) →
    t'.at? here = some (.file bytes)

namespace KeepsBut

variable {place : Place} {t t' t'' : Tree}

theorem refl (place : Place) (t : Tree) : KeepsBut place t t :=
  ⟨fun _ entries h => ⟨entries, h⟩, fun _ _ _ h => h⟩

theorem trans (h : KeepsBut place t t') (h' : KeepsBut place t' t'') : KeepsBut place t t'' where
  directory here entries hentries :=
    let ⟨entries', hentries'⟩ := h.directory here entries hentries
    h'.directory here entries' hentries'
  file here bytes hne hfile := h'.file here bytes hne (h.file here bytes hne hfile)

/-- Where nothing stands, no file is lost. -/
theorem of_at?_eq_none (h : KeepsBut place t t') (hnone : t.at? place = none) (other : Place) :
    KeepsBut other t t' where
  directory := h.directory
  file here bytes _ hfile := h.file here bytes (fun heq => by simp [heq, hnone] at hfile) hfile

end KeepsBut

theorem at?_insert (rows : List (Text × Tree)) (name : Text) (child : Tree) (first : Text)
    (here : Place) :
    (directory (Table.insert rows name child)).at? (first :: here) =
      if first = name then child.at? here else (directory rows).at? (first :: here) := by
  split
  · next hfirst => rw [hfirst, at?, Table.get?_insert_self]
  · next hfirst => simp only [at?, Table.get?_insert_of_ne hfirst]

theorem at?_cons_eq_some {rows : List (Text × Tree)} {name : Text} {here : Place} {x : Tree} :
    (directory rows).at? (name :: here) = some x ↔
      ∃ child, Table.get? rows name = some child ∧ child.at? here = some x := by
  rw [at?]
  cases Table.get? rows name <;> simp

/-- A directory keeps what its children keep. -/
theorem KeepsBut.insert {rows : List (Text × Tree)} {name : Text} {place : Place} {new : Tree}
    (h : ∀ child, Table.get? rows name = some child → KeepsBut place child new) :
    KeepsBut (name :: place) (.directory rows) (.directory (Table.insert rows name new)) where
  directory here entries hhere := by
    cases here with
    | nil => exact ⟨_, rfl⟩
    | cons first here =>
        rw [at?_insert]
        split
        · next hfirst =>
          obtain ⟨child, hget, hat⟩ := at?_cons_eq_some.mp (hfirst ▸ hhere)
          exact (h child hget).directory here entries hat
        · exact ⟨entries, hhere⟩
  file here bytes hne hhere := by
    cases here with
    | nil => simp [at?] at hhere
    | cons first here =>
        rw [at?_insert]
        split
        · next hfirst =>
          obtain ⟨child, hget, hat⟩ := at?_cons_eq_some.mp (hfirst ▸ hhere)
          exact (h child hget).file here bytes (fun heq => hne (by rw [hfirst, heq])) hat
        · exact hhere

/-- Putting a tree where no directory stands keeps everything else. -/
theorem keepsBut_put {t : Tree} {place : Place}
    (h : ∀ entries, t.at? place ≠ some (.directory entries)) (new : Tree) :
    KeepsBut place t (t.put new place) := by
  induction place generalizing t with
  | nil =>
      cases t with
      | directory entries => exact absurd rfl (h entries)
      | file old =>
          constructor
          · intro here entries hhere
            cases here <;> simp [at?] at hhere
          · intro here bytes hne hhere
            cases here with
            | nil => exact absurd rfl hne
            | cons => simp [at?] at hhere
  | cons name place ih =>
      cases t with
      | file old => exact KeepsBut.refl _ _
      | directory rows =>
          refine KeepsBut.insert fun child hget => ?_
          rw [hget, Option.getD_some]
          exact ih fun entries hentries => h entries (at?_cons_eq_some.mpr ⟨child, hget, hentries⟩)

/-! ## paths -/

/-- Where the names of a path lead from a place, whatever stands there. -/
def placeFrom (here : Place) (names : List Text) : Place :=
  names.foldl (fun here name => if name = ['.', '.'] then here.dropLast else here ++ [name]) here

/-- A path leads to its place, if it leads anywhere. -/
theorem follow_eq_ok {t : Tree} {here : Place} {names : List Text} {place : Place} {found : Tree}
    (h : t.follow here names = .ok (place, found)) :
    place = placeFrom here names ∧ t.at? place = some found := by
  induction names generalizing here with
  | nil =>
      unfold follow at h
      split at h
      · next hfound =>
        obtain ⟨rfl, rfl⟩ := Prod.mk.inj (Except.ok.inj h)
        exact ⟨rfl, hfound⟩
      · contradiction
  | cons name names ih =>
      unfold follow at h
      split at h
      · contradiction
      · contradiction
      · exact ih h

/-- A path to a directory, and one name more. -/
theorem follow_concat {t : Tree} {here : Place} {names : List Text} {place : Place}
    {entries : List (Text × Tree)} (h : t.follow here names = .ok (place, .directory entries))
    {name : Text} (hname : name ≠ ['.', '.']) :
    t.follow here (names ++ [name]) =
      match t.at? (place ++ [name]) with
      | some found => .ok (place ++ [name], found)
      | none => .error .notFound := by
  induction names generalizing here with
  | nil =>
      unfold follow at h
      split at h
      · next hfound =>
        obtain ⟨rfl, rfl⟩ := Prod.mk.inj (Except.ok.inj h)
        rw [List.nil_append, follow, hfound]
        simp only [if_neg hname]
        exact follow.eq_1 t (here ++ [name])
      · contradiction
  | cons first names ih =>
      unfold follow at h
      rw [List.cons_append, follow]
      split at h
      · contradiction
      · contradiction
      · exact ih h

/-- A path passes through directories only, so it goes on leading to its place. -/
theorem KeepsBut.follow {place : Place} {t t' : Tree} (h : KeepsBut place t t') {here : Place}
    {names : List Text} {found : Place} {x : Tree} (hfollow : t.follow here names = .ok (found, x)) :
    t'.follow here names =
      match t'.at? found with
      | some y => .ok (found, y)
      | none => .error .notFound := by
  induction names generalizing here with
  | nil =>
      obtain ⟨rfl, -⟩ := follow_eq_ok hfollow
      rfl
  | cons name names ih =>
      unfold Tree.follow at hfollow
      split at hfollow
      · contradiction
      · contradiction
      · next hhere =>
        obtain ⟨entries', hhere'⟩ := h.directory _ _ hhere
        rw [Tree.follow, hhere']
        exact ih hfollow

/-! ## making directories -/

theorem runAt_tryCatch {α : Type} (x : Change α) (recover : StoreFault → Change α) (t : Tree) :
    runAt (tryCatch x recover) t =
      match runAt x t with
      | (.ok a, t') => (.ok a, t')
      | (.error fault, t') => runAt (recover fault) t' := by
  unfold runAt
  rw [ExceptT.run_tryCatch, StateT.run_bind]
  cases h : StateT.run (ExceptT.run x) t with
  | mk answer t' => cases answer <;> rfl

@[simp] theorem runAt_get (t : Tree) : runAt (get : Change Tree) t = (.ok t, t) := rfl

@[simp] theorem runAt_throw {α : Type} (fault : StoreFault) (t : Tree) :
    runAt (throw fault : Change α) t = (.error fault, t) := rfl

/-- Where nothing stands a directory can be made. -/
theorem keepsBut_makeOne (place here : Place) (names : List Text) (t : Tree) :
    KeepsBut place t (runAt (makeOne here names) t).2 := by
  unfold makeOne
  rw [runAt_bind, runAt_get]
  simp only
  split
  · exact KeepsBut.refl _ _
  · next last _ =>
    split
    · exact KeepsBut.refl _ _
    · exact KeepsBut.refl _ _
    · next found entries hfollow =>
      split
      · exact KeepsBut.refl _ _
      · next hfree =>
        rw [not_or] at hfree
        have hnone : t.at? (found ++ [last]) = none := by
          rw [at?_concat, (follow_eq_ok hfollow).2]
          simpa [Table.contains_eq_isSome] using hfree.2
        exact (keepsBut_put (by simp [hnone]) _).of_at?_eq_none hnone place

theorem keepsBut_ensureOne (place here : Place) (names : List Text) (t : Tree) :
    KeepsBut place t (runAt (ensureOne here names) t).2 := by
  have hmade := keepsBut_makeOne place here names t
  unfold ensureOne
  rw [runAt_tryCatch]
  cases hrun : runAt (makeOne here names) t with
  | mk answer t' =>
      rw [hrun] at hmade
      cases answer with
      | ok _ => exact hmade
      | error fault =>
          -- Looking whether the directory is there changes nothing.
          simp only [runAt_bind, runAt_get]
          split <;> exact hmade

/-- Making directories keeps everything that is there. -/
theorem keepsBut_ensureAll (place here : Place) (names : List Text) (t : Tree) :
    KeepsBut place t (runAt (ensureAll here names) t).2 := by
  induction names generalizing t with
  | nil => exact KeepsBut.refl _ _
  | cons last above ih =>
      have hone := keepsBut_ensureOne place here (last :: above).reverse t
      unfold ensureAll
      rw [runAt_tryCatch]
      cases hrun : runAt (ensureOne here (last :: above).reverse) t with
      | mk answer t₁ =>
          rw [hrun] at hone
          cases answer with
          | ok _ => exact hone
          | error fault =>
              simp only
              split
              · have habove := hone.trans (ih t₁)
                rw [runAt_bind]
                cases hrest : runAt (ensureAll here above) t₁ with
                | mk answer t₂ =>
                    rw [hrest] at habove
                    cases answer with
                    | ok _ => exact habove.trans (keepsBut_ensureOne place here _ t₂)
                    | error fault => exact habove
              · exact hone

/-! ## storing a file -/

/-- A file can be opened where the directory above it is there and no directory
stands in its place. -/
theorem openFile_eq_ok {here : Place} {names : List Text} {t t' : Tree}
    {found : Place × List UInt8} (h : runAt (openFile here names) t = (.ok found, t')) :
    t' = t ∧ ∃ above last place entries, names = above ++ [last] ∧ last ≠ ['.', '.'] ∧
      found.1 = place ++ [last] ∧ t.follow here above = .ok (place, .directory entries) ∧
      ∀ entries, t.at? (place ++ [last]) ≠ some (.directory entries) := by
  unfold openFile at h
  split at h
  · simp at h
  · next last hlast =>
    rw [runAt_bind, runAt_get] at h
    simp only at h
    split at h
    · simp at h
    · simp at h
    · next place entries hfollow =>
      split at h
      · simp at h
      · next hup =>
        have hnames := (List.dropLast_append_getLast? last hlast).symm
        have hat := at?_concat t place last
        rw [(follow_eq_ok hfollow).2] at hat
        simp only at hat
        split at h
        · simp at h
        · next hget =>
          obtain ⟨hfound, rfl⟩ := Prod.mk.inj h
          rw [← Except.ok.inj hfound]
          exact ⟨rfl, _, last, place, entries, hnames, hup, rfl, hfollow, by simp [hat, hget]⟩
        · next hget =>
          obtain ⟨hfound, rfl⟩ := Prod.mk.inj h
          rw [← Except.ok.inj hfound]
          exact ⟨rfl, _, last, place, entries, hnames, hup, rfl, hfollow, by simp [hat, hget]⟩

/-- Without bytes nothing can be stored. -/
theorem isSome_of_store_eq_ok {here : Place} {names : List Text} {bytes : Option (List UInt8)}
    {t t' : Tree} (h : runAt (store here names bytes) t = (.ok (), t')) : bytes.isSome = true := by
  unfold store at h
  obtain ⟨_, _, -, hopened⟩ := runAt_bind_eq_ok.mp h
  obtain ⟨_, _, -, hput⟩ := runAt_bind_eq_ok.mp hopened
  obtain ⟨_, _, -, hend⟩ := runAt_bind_eq_ok.mp hput
  cases bytes with
  | none => simp at hend
  | some bytes => rfl

/-- **A file that was stored is found under its path, and nothing else changes.** -/
theorem store_eq_ok {here : Place} {names : List Text} {bytes : List UInt8} {t t' : Tree}
    (h : runAt (store here names (some bytes)) t = (.ok (), t')) :
    t'.follow here names = .ok (placeFrom here names, .file bytes) ∧
      KeepsBut (placeFrom here names) t t' := by
  unfold store at h
  obtain ⟨_, _, hmade, hopened⟩ := runAt_bind_eq_ok.mp h
  obtain ⟨found, t₁, hopen, hstored⟩ := runAt_bind_eq_ok.mp hopened
  obtain ⟨rfl, above, last, place, entries, rfl, hup, hfound, hfollow, hfile⟩ := openFile_eq_ok hopen
  obtain rfl : t' = t₁.put (.file bytes) (place ++ [last]) := by
    rw [← hfound]
    exact (Prod.mk.inj hstored).2.symm
  have hplace : placeFrom here (above ++ [last]) = place ++ [last] := by
    rw [(follow_eq_ok hfollow).1]
    simp [placeFrom, hup]
  have hensure := keepsBut_ensureAll (place ++ [last]) here (above ++ [last]).dropLast.reverse t
  rw [hmade] at hensure
  have hput := keepsBut_put hfile (.file bytes)
  rw [hplace]
  refine ⟨?_, hensure.trans hput⟩
  obtain ⟨_, hat⟩ := hput.directory _ _ (follow_eq_ok hfollow).2
  have habove := hput.follow hfollow
  rw [hat] at habove
  rw [follow_concat habove hup, at?_put_concat (follow_eq_ok hfollow).2]

end SourceMerge.Tree
