import SourceMerge.Proofs.Path.Relative
import SourceMerge.Proofs.Store.Tree
import SourceMerge.Proofs.Text.Ascii

/-!
# SourceMerge.Proofs.Store.Disk

What is stored stays stored.  `Retains I wd` says of a store whose states are in
`I` that a text of visible ASCII characters is read back at the path where it was
stored, and at every other path of a file that was there; that storing it changes
no file at another location, seen from the working directory `wd`; and that looking
around changes nothing.

A disk without a log file on it is such a store: the place of a path in the tree
is its location (`Disk.components_join_workingDirectory`), and a tree keeps all
files but the one that is stored (`Tree.store_eq_ok`).
-/

namespace SourceMerge

/-! ## stores that retain texts -/

section Retains

variable {σ : Type} [FileStore (StateM σ)]

/-- The text of a file in a state. -/
def Reads (path t : Text) (s : σ) : Prop :=
  (StateT.run (FileStore.read path : StateM σ (Except StoreFault Text)) s).1 = .ok t

/-- What is stored is read back, and stays until its location is stored to. -/
structure Retains [FolderView (StateM σ)] [Journal (StateM σ)] (I : σ → Prop) (wd : Text) :
    Prop where
  absolute : Path.isAbsolute wd = true
  /-- Between two stored texts the answers are those of a snapshot. -/
  shows : ∀ s, I s → ∃ (J : σ → Prop) (f : Snapshot), Shows J f ∧ J s ∧ (∀ s', J s' → I s') ∧
    f.workingDirectory = wd
  entries : ∀ s, I s → ∀ path,
    (StateT.run (FolderView.entries path : StateM σ (List (Text × Bool))) s).2 = s
  below : ∀ s, I s → ∀ keep path,
    (StateT.run (FolderView.below keep path : StateM σ (List (List Text × Bool))) s).2 = s
  write : ∀ s, I s → ∀ path t s',
    StateT.run (FileStore.write path t : StateM σ (Except StoreFault Unit)) s = (.ok (), s') →
    I s' ∧ (Text.Visible t → Reads path t s') ∧
      ∀ other u, Reads other u s →
        if Path.located wd other = Path.located wd path then Text.Visible t → Reads other t s'
        else Reads other u s'

end Retains

/-! ## visible texts as bytes -/

namespace Text

theorem unifyNewlines_of_visible {t : Text} (h : Visible t) : unifyNewlines t = t := by
  induction t with
  | nil => rfl
  | cons c t ih =>
      obtain ⟨hc, ht⟩ := visible_cons.mp h
      have hreturn : c ≠ '\r' := by
        rintro rfl
        exact absurd hc.1 (by decide)
      rw [unifyNewlines.eq_3 _ _ (fun _ heq => absurd heq hreturn), if_neg hreturn, ih ht]

theorem dropMark_of_visible {t : Text} (h : Visible t) : dropMark t = t := by
  cases t with
  | nil => rfl
  | cons c t =>
      have hmark : c ≠ byteOrderMark := by
        rintro rfl
        exact absurd (visible_cons.mp h).1.2 (by decide)
      exact if_neg hmark

theorem exists_toLatin1? {t : Text} (h : Visible t) :
    ∃ bytes, toLatin1? t = some bytes ∧ ofLatin1 bytes = t := by
  induction t with
  | nil => exact ⟨[], rfl, rfl⟩
  | cons c t ih =>
      obtain ⟨hc, ht⟩ := visible_cons.mp h
      obtain ⟨bytes, hbytes, hread⟩ := ih ht
      have hlow : c.toNat < 0x100 := by omega
      have hbyte : c.toNat.toUInt8.toNat = c.toNat := UInt8.toNat_ofNat_of_lt hlow
      refine ⟨c.toNat.toUInt8 :: bytes, ?_, ?_⟩
      · rw [toLatin1?, List.mapM_cons, if_pos hlow]
        change Option.bind (toLatin1? t) _ = _
        rw [hbytes]
        rfl
      · rw [ofLatin1, List.map_cons, hbyte, Char.ofNat_toNat]
        exact congrArg (c :: ·) hread

end Text

/-- Either encoding carries a visible text. -/
theorem Encoding.exists_encode? (e : Encoding) {t : Text} (h : Text.Visible t) :
    ∃ bytes, e.encode? t = some bytes ∧ e.decode? bytes = some t := by
  cases e with
  | utf8 => exact ⟨_, rfl, Text.ofUtf8?_toUtf8 h⟩
  | latin1 =>
      obtain ⟨bytes, hbytes, hread⟩ := Text.exists_toLatin1? h
      exact ⟨bytes, hbytes, congrArg some hread⟩

/-! ## the place of a path -/

/-- The names of a path lead where its components lead. -/
theorem Tree.placeFrom_eq_foldl_push {done : List Text} (h : Path.up ∉ done) (names : List Text) :
    Tree.placeFrom done.reverse (names.filter fun name => name ≠ [] ∧ name ≠ ['.']) =
      (names.foldl (Path.push .absolute) done).reverse := by
  induction names generalizing done with
  | nil => rfl
  | cons name names ih =>
      rw [List.foldl_cons, List.filter_cons]
      by_cases htrace : name = [] ∨ name = ['.']
      · rw [Path.push_of_trace htrace, if_neg (by simpa [or_iff_not_imp_left] using htrace)]
        exact ih h
      · rw [if_pos (by simpa [not_or] using htrace), Tree.placeFrom, List.foldl_cons]
        by_cases hup : name = Path.up
        · subst hup
          rw [if_pos (show Path.up = ['.', '.'] from rfl)]
          cases done with
          | nil => exact ih h
          | cons last before =>
              rw [List.mem_cons, not_or] at h
              rw [Path.push_up_of_ne (Ne.symm h.1), List.reverse_cons, List.dropLast_concat]
              exact ih h.2
        · have hpush : Path.push .absolute done name = name :: done := by
            simp only [Path.push, if_neg htrace, if_neg hup]
          rw [if_neg (show ¬ name = ['.', '.'] from hup), hpush, ← List.reverse_cons]
          refine ih ?_
          rw [List.mem_cons, not_or]
          exact ⟨Ne.symm hup, h⟩

/-- What is written with an anchor and names begins at a root if the anchor is one,
and has these names. -/
theorem Tree.namesOf_write {names : List Text} (a : Path.Anchor)
    (h : ∀ name ∈ names, name ≠ [] ∧ name ≠ ['.'] ∧ '/' ∉ name) :
    Tree.namesOf (Path.write a names) = names ∧
      ((Path.write a names).head? = some '/' ↔ a ≠ .relative) := by
  have hfilter : names.filter (fun name => name ≠ [] ∧ name ≠ ['.']) = names :=
    List.filter_eq_self.mpr fun name hname => by simpa using ⟨(h name hname).1, (h name hname).2.1⟩
  have hjoined : Tree.namesOf (Text.joinWith ['/'] names) = names := by
    by_cases hnil : names = []
    · rw [hnil]
      rfl
    · rw [Tree.namesOf, Text.splitOn_joinWith hnil fun name hname => (h name hname).2.2, hfilter]
  have hslash : ∀ t, Tree.namesOf ('/' :: t) = Tree.namesOf t := fun t => by
    rw [Tree.namesOf, Text.splitOn_cons_self, List.filter_cons]
    rfl
  cases a with
  | absolute => exact ⟨(hslash _).trans hjoined, by simp [Path.write, Path.Anchor.slashes]⟩
  | doubled =>
      exact ⟨(hslash _).trans ((hslash _).trans hjoined), by simp [Path.write, Path.Anchor.slashes]⟩
  | relative =>
      by_cases hnil : names = []
      · rw [hnil]
        exact ⟨rfl, by decide⟩
      · obtain ⟨c, t, hct, hc⟩ := Path.joinWith_eq_cons hnil fun name hname =>
          ⟨(h name hname).1, (h name hname).2.2⟩
        have hwrite : Path.write .relative names = c :: t := by
          simp [Path.write, Path.Anchor.slashes, hct]
        rw [hwrite, ← hct]
        exact ⟨hjoined, by simp [hct, hc]⟩

/-- The shortest spelling of a path has its names, and begins where the path does. -/
theorem Tree.namesOf_tidy (path : Text) :
    Tree.namesOf (Path.tidy path) = Tree.namesOf path ∧
      Path.isAbsolute (Path.tidy path) = Path.isAbsolute path := by
  obtain ⟨hnames, hhead⟩ := Tree.namesOf_write (Path.anchorOf path)
    fun name (hname : name ∈ Tree.namesOf path) => by
      obtain ⟨hmem, hplain⟩ := List.mem_filter.mp hname
      have hplain := of_decide_eq_true hplain
      exact ⟨hplain.1, hplain.2, Text.notMem_of_mem_splitOn hmem⟩
  refine ⟨hnames, Bool.eq_iff_iff.mpr ?_⟩
  rw [Path.isAbsolute_iff, Path.isAbsolute, decide_eq_true_iff]
  exact hhead

namespace Disk

/-- The place of a path in the tree. -/
def place (d : Disk) (path : Text) : Place :=
  Tree.placeFrom (d.start (Session.onDisk path)) (Tree.namesOf (Session.onDisk path))

theorem isAbsolute_workingDirectory (d : Disk) : Path.isAbsolute d.workingDirectory = true :=
  Path.isAbsolute_iff.mpr rfl

/-- The components of the working directory. -/
theorem components_workingDirectory {d : Disk} (h : Path.Settled .absolute d.here.reverse) :
    Path.components d.workingDirectory = d.here := by
  have hwrite : d.workingDirectory = Path.write .absolute d.here := rfl
  rw [hwrite, (Path.read_write h).2]

/-- The place of a path is its location. -/
theorem components_join_workingDirectory {d : Disk} (h : Path.Settled .absolute d.here.reverse)
    (path : Text) : Path.components (Path.join d.workingDirectory path) = d.place path := by
  obtain ⟨hnames, habsolute⟩ := Tree.namesOf_tidy path
  rw [Path.components_join d.isAbsolute_workingDirectory, components_workingDirectory h, place, start,
    Session.onDisk, habsolute, hnames]
  by_cases hhead : path.head? = some '/'
  · rw [if_pos hhead, if_pos (Path.isAbsolute_iff.mpr hhead)]
    exact (Tree.placeFrom_eq_foldl_push List.not_mem_nil _).symm
  · rw [if_neg hhead, if_neg (mt Path.isAbsolute_iff.mp hhead)]
    have hplace := Tree.placeFrom_eq_foldl_push (Path.up_notMem_of_settled h) (Text.splitOn '/' path)
    rw [List.reverse_reverse] at hplace
    exact hplace.symm

/-- Paths have one location if they have one place. -/
theorem located_eq_iff {d : Disk} (h : Path.Settled .absolute d.here.reverse)
    {path other : Text} :
    Path.located d.workingDirectory path = Path.located d.workingDirectory other ↔
      d.place path = d.place other := by
  constructor
  · intro hlocated
    rw [← components_join_workingDirectory h, ← components_join_workingDirectory h]
    exact Path.components_eq_of_located_eq hlocated
  · intro hplace
    rw [Path.located, Path.located, components_join_workingDirectory h,
      components_join_workingDirectory h, hplace]

/-- A text is read where the path leads to a file whose bytes can be decoded. -/
theorem read_eq_ok {d : Disk} {path t : Text} :
    d.read path = .ok t ↔ ∃ place bytes u, d.find path = .ok (place, .file bytes) ∧
      d.encoding.decode? bytes = some u ∧ Text.dropMark (Text.unifyNewlines u) = t := by
  rw [read, map_eq_ok]
  constructor
  · rintro ⟨u, hread, rfl⟩
    obtain ⟨bytes, hbytes, hdecode⟩ := bind_eq_ok.mp hread
    unfold Disk.bytes at hbytes
    split at hbytes
    · next place found hfind =>
      obtain rfl := Except.ok.inj hbytes
      split at hdecode
      · next u hu => exact ⟨place, found, u, hfind, hu, congrArg _ (Except.ok.inj hdecode)⟩
      · contradiction
    · contradiction
    · contradiction
  · rintro ⟨place, bytes, u, hfind, hu, rfl⟩
    refine ⟨Text.unifyNewlines u, bind_eq_ok.mpr ⟨bytes, ?_, ?_⟩, rfl⟩
    · rw [Disk.bytes, hfind]
    · rw [hu]

/-- Storing a text changes the tree only. -/
theorem write_eq_ok {d d' : Disk} {path t : Text} (h : d.write path t = (.ok (), d')) :
    ∃ bytes root, d.encoding.encode? t = some bytes ∧ d' = { d with root := root } ∧
      runAt (Tree.store (d.start path) (Tree.namesOf path) (some bytes)) d.root = (.ok (), root) := by
  obtain ⟨hresult, hdisk⟩ := Prod.mk.inj h
  have hstore : runAt (Tree.store (d.start path) (Tree.namesOf path) (d.encoding.encode? t)) d.root =
      (.ok (), d'.root) := Prod.ext hresult (congrArg Disk.root hdisk)
  obtain ⟨bytes, hbytes⟩ := Option.isSome_iff_exists.mp (Tree.isSome_of_store_eq_ok hstore)
  exact ⟨bytes, d'.root, hbytes, by rw [← hdisk], hbytes ▸ hstore⟩

/-- A visible text is read where its bytes are. -/
theorem read_of_find {d : Disk} {path t : Text} {place : Place} {bytes : List UInt8}
    (hvisible : Text.Visible t) (hbytes : d.encoding.encode? t = some bytes)
    (hfind : d.find path = .ok (place, .file bytes)) : d.read path = .ok t := by
  obtain ⟨_, hencode, hdecode⟩ := d.encoding.exists_encode? hvisible
  obtain rfl := Option.some.inj (hbytes.symm.trans hencode)
  refine read_eq_ok.mpr ⟨place, bytes, t, hfind, hdecode, ?_⟩
  rw [Text.unifyNewlines_of_visible hvisible, Text.dropMark_of_visible hvisible]

/-- **What is stored on a disk is read back, and other files stay as they are.** -/
theorem retains_write {d d' : Disk} (h : Path.Settled .absolute d.here.reverse) {path t : Text}
    (hwrite : d.write (Session.onDisk path) t = (.ok (), d')) :
    d'.here = d.here ∧ (Text.Visible t → d'.read (Session.onDisk path) = .ok t) ∧
      ∀ other u, d.read (Session.onDisk other) = .ok u →
        if Path.located d.workingDirectory other = Path.located d.workingDirectory path then
          Text.Visible t → d'.read (Session.onDisk other) = .ok t
        else d'.read (Session.onDisk other) = .ok u := by
  obtain ⟨bytes, root, hbytes, rfl, hstore⟩ := write_eq_ok hwrite
  obtain ⟨hfollow, hkeeps⟩ := Tree.store_eq_ok hstore
  refine ⟨rfl, fun hvisible => read_of_find hvisible hbytes hfollow, fun other u hread => ?_⟩
  obtain ⟨place, found, v, hfind, hdecode, htext⟩ := read_eq_ok.mp hread
  obtain ⟨hplace, hat⟩ := Tree.follow_eq_ok hfind
  have hfind' := hkeeps.follow hfind
  split
  · next hlocated =>
    intro hvisible
    have hsame : place = d.place path := hplace.trans ((located_eq_iff h).mp hlocated)
    have hstored : root.at? place = some (.file bytes) := by
      rw [hsame]
      exact (Tree.follow_eq_ok hfollow).2
    rw [hstored] at hfind'
    exact read_of_find hvisible hbytes hfind'
  · next hlocated =>
    have hne : place ≠ d.place path := fun heq =>
      hlocated ((located_eq_iff h).mpr (hplace.symm.trans heq))
    rw [hkeeps.file _ _ hne hat] at hfind'
    exact read_eq_ok.mpr ⟨place, found, v, hfind', hdecode, htext⟩

/-- **A disk retains texts**, as long as no log file is written on it. -/
theorem retains {here : Place} (h : Path.Settled .absolute here.reverse) :
    Retains
      (fun s : Session => s.disk.here = here ∧ ∀ p, s.plan = some p → p.file = none)
      (Disk.workingDirectory { here := here }) where
  absolute := isAbsolute_workingDirectory _
  shows := by
    rintro s ⟨hhere, hplan⟩
    refine ⟨_, _, s.disk.shows, ⟨rfl, hplan⟩, ?_, ?_⟩
    · rintro s' ⟨hdisk, hplan'⟩
      exact ⟨by rw [hdisk, hhere], hplan'⟩
    · rw [← hhere]
      rfl
  entries := fun _ _ _ => rfl
  below := fun _ _ _ _ => rfl
  write := by
    rintro s ⟨rfl, hplan⟩ path t s' hwrite
    obtain ⟨hresult, rfl⟩ := Prod.mk.inj hwrite
    obtain ⟨hhere, hself, hother⟩ := retains_write h (Prod.ext hresult rfl)
    exact ⟨⟨hhere, hplan⟩, hself, hother⟩

end Disk

end SourceMerge
