import Mathlib.Tactic.SplitIfs
import Mathlib.Data.List.Induction
import SourceMerge.Proofs.Path.Canonical

/-!
# SourceMerge.Proofs.Path.Relative

The way from a directory to a path leads there: following it from the directory
gives a path of the same place.  A path is followed by pushing its components
onto those of the place where it starts (`walk`), so joining paths is walking
along one after the other, and a path and its normal form lead to one place.

The way to a path first takes back what the directory does not share with it,
and then goes down what the path does not share with the directory.
-/

namespace SourceMerge.Path

/-! ## walking -/

/-- The components that are reached along a path, last one first. -/
def walk (a : Anchor) (done : List Text) (p : Text) : List Text :=
  (Text.splitOn '/' p).foldl (push a) done

theorem components_eq_walk (p : Text) : components p = (walk (anchorOf p) [] p).reverse := rfl

theorem push_of_trace {c : Text} (h : c = [] ∨ c = ['.']) (a : Anchor) (done : List Text) :
    push a done c = done := if_pos h

/-- Leading up takes back an ordinary component. -/
theorem push_up_of_ne {last : Text} (h : last ≠ up) (a : Anchor) (before : List Text) :
    push a (last :: before) up = before := by
  have htrace : ¬ (up = [] ∨ up = ['.']) := by decide
  simp only [push, if_neg htrace, if_true, if_neg h]

theorem push_nil (a : Anchor) (done : List Text) : push a done [] = done :=
  push_of_trace (.inl rfl) a done

theorem push_dot (a : Anchor) (done : List Text) : push a done ['.'] = done :=
  push_of_trace (.inr rfl) a done

theorem walk_nil (a : Anchor) (done : List Text) : walk a done [] = done := push_nil a done

theorem walk_dot (a : Anchor) (done : List Text) : walk a done ['.'] = done := push_dot a done

theorem splitOn_append_slash (p q : Text) :
    Text.splitOn '/' (p ++ '/' :: q) = Text.splitOn '/' p ++ Text.splitOn '/' q := by
  induction p with
  | nil => simp
  | cons c p ih =>
      rw [List.cons_append, Text.splitOn, Text.splitOn, ih]
      by_cases hc : c = '/'
      · simp [hc]
      · obtain ⟨part, parts, hparts⟩ := List.exists_cons_of_ne_nil (Text.splitOn_ne_nil '/' p)
        simp [hc, hparts]

theorem walk_append_slash (a : Anchor) (done : List Text) (p q : Text) :
    walk a done (p ++ '/' :: q) = walk a (walk a done p) q := by
  rw [walk, splitOn_append_slash, List.foldl_append]
  rfl

/-- Following a joined path is following its parts. -/
theorem walk_join {p : Text} (hp : p.head? ≠ some '/') (a : Anchor) (done : List Text) (d : Text) :
    walk a done (join d p) = walk a (walk a done d) p := by
  rw [join, if_neg hp]
  split
  · next hend =>
    rcases hend with rfl | hslash
    · rw [walk_nil]
      rfl
    · -- The slash at the end begins an empty component, which leaves no trace.
      obtain ⟨d, rfl⟩ := List.getLast?_eq_some_iff.mp hslash
      rw [List.append_assoc, List.singleton_append, walk_append_slash, walk_append_slash, walk_nil]
  · exact walk_append_slash a done d p

/-! ## where a path starts -/

theorem isAbsolute_iff {p : Text} : isAbsolute p = true ↔ p.head? = some '/' := by
  cases p with
  | nil => simp [isAbsolute, anchorOf]
  | cons c p =>
      by_cases hc : c = '/'
      · subst hc
        have hanchor : anchorOf ('/' :: p) ≠ .relative := by
          unfold anchorOf
          split <;> simp_all
        simpa [isAbsolute] using hanchor
      · simp [isAbsolute, anchorOf, hc]

theorem anchorOf_ne_relative {p : Text} : anchorOf p ≠ .relative ↔ p.head? = some '/' := by
  rw [← isAbsolute_iff, isAbsolute, decide_eq_true_iff]

theorem head?_join {wd p : Text} (h : isAbsolute wd = true) : (join wd p).head? = some '/' := by
  rw [isAbsolute_iff] at h
  unfold join
  split_ifs with hp hend
  · exact hp
  · rw [List.head?_append, h]
    rfl
  · rw [List.head?_append, h]
    rfl

/-- Which kind of root a path starts at makes no difference to its components. -/
theorem push_eq_push {a b : Anchor} (ha : a ≠ .relative) (hb : b ≠ .relative) : push a = push b := by
  funext done c
  simp only [push, if_neg ha, if_neg hb]

/-- The components of a path that starts at a root. -/
theorem components_of_head? {p : Text} (h : p.head? = some '/') :
    components p = (walk .absolute [] p).reverse := by
  rw [components_eq_walk, walk, walk,
    push_eq_push (b := .absolute) (anchorOf_ne_relative.mpr h) (by decide)]

theorem join_of_head? {p : Text} (h : p.head? = some '/') (d : Text) : join d p = p := if_pos h

/-- The components of a path that is seen from a directory. -/
theorem components_join {wd p : Text} (hwd : isAbsolute wd = true) :
    components (join wd p) =
      (if p.head? = some '/' then walk .absolute [] p
        else walk .absolute (components wd).reverse p).reverse := by
  rw [components_of_head? (head?_join hwd), components_of_head? (isAbsolute_iff.mp hwd),
    List.reverse_reverse]
  split
  · next hp => rw [join_of_head? hp]
  · next hp => rw [walk_join hp]

/-- Following a path behind a directory. -/
theorem components_join_join {wd p : Text} (hwd : isAbsolute wd = true) (hp : p.head? ≠ some '/')
    (d : Text) :
    components (join wd (join d p)) = (walk .absolute (components (join wd d)).reverse p).reverse := by
  by_cases hd : d.head? = some '/'
  · have hhead : (join d p).head? = some '/' := head?_join (isAbsolute_iff.mpr hd)
    rw [join_of_head? hhead, join_of_head? hd, components_of_head? hhead, components_of_head? hd,
      List.reverse_reverse, walk_join hp]
  · have hhead : (join d p).head? ≠ some '/' := by
      rw [join, if_neg hp]
      cases d with
      | nil => simpa using hp
      | cons c d =>
          split <;> simpa using hd
    rw [components_join hwd, components_join hwd, if_neg hhead, if_neg hd, List.reverse_reverse,
      walk_join hp]

/-! ## normal forms -/

/-- A component that is pushed on a stack is pushed behind it. -/
theorem foldl_push_push {done : List Text} (h : Settled .relative done) (a : Anchor) (c : Text)
    (start : List Text) :
    (push .relative done c).reverse.foldl (push a) start =
      push a (done.reverse.foldl (push a) start) c := by
  by_cases htrace : c = [] ∨ c = ['.']
  · rw [push_of_trace htrace, push_of_trace htrace]
  by_cases hup : c = up
  · subst hup
    cases done with
    | nil => rfl
    | cons last before =>
        by_cases hlast : last = up
        · subst hlast
          have hkept : push .relative (up :: before) up = up :: up :: before := rfl
          rw [hkept, List.reverse_cons, List.foldl_append]
          rfl
        · have hname : ¬ (last = [] ∨ last = ['.']) := by
            have hkept := h.2.2
            intro htrace
            rw [push_of_trace htrace] at hkept
            simpa using congrArg List.length hkept
          have hkept : ∀ before, push a before last = last :: before := fun before => by
            simp only [push, if_neg hname, if_neg hlast]
          rw [push_up_of_ne hlast, List.reverse_cons, List.foldl_append, List.foldl_cons,
            List.foldl_nil, hkept, push_up_of_ne hlast]
  · have hkept : push .relative done c = c :: done := by simp [push, htrace, hup]
    rw [hkept, List.reverse_cons, List.foldl_append]
    rfl

/-- The components of a normal form lead to where those of its path lead. -/
theorem foldl_push_components {p : Text} (hp : p.head? ≠ some '/') (a : Anchor)
    (done : List Text) : (components p).foldl (push a) done = walk a done p := by
  have hanchor : anchorOf p = .relative := by
    by_contra hne
    exact hp (anchorOf_ne_relative.mp hne)
  have hfold : ∀ cs : List Text, (∀ c ∈ cs, '/' ∉ c) →
      (cs.foldl (push .relative) []).reverse.foldl (push a) done = cs.foldl (push a) done := by
    intro cs
    induction cs using List.reverseRecOn with
    | nil => exact fun _ => rfl
    | append_singleton cs c ih =>
        intro hcs
        rw [List.forall_mem_append] at hcs
        have hsettled : Settled .relative (cs.foldl (push .relative) []) :=
          settled_foldl_push hcs.1 trivial
        rw [List.foldl_append, List.foldl_append, List.foldl_cons, List.foldl_nil,
          foldl_push_push hsettled, ih hcs.1]
        rfl
  rw [components, hanchor]
  exact hfold _ fun c => Text.notMem_of_mem_splitOn

/-- **A normal form leads to where its path leads.** -/
theorem walk_canonical {p : Text} (hp : p.head? ≠ some '/') (a : Anchor) (done : List Text) :
    walk a done (canonical p) = walk a done p := by
  have hanchor : anchorOf p = .relative := by
    by_contra hne
    exact hp (anchorOf_ne_relative.mp hne)
  have hsplit := foldl_push_splitOn_joinWith (a := a)
    (fun c hc => (plain_of_settled (settled_components p) c (List.mem_reverse.mpr hc)).2) done
  rw [foldl_push_components hp] at hsplit
  unfold canonical write
  rw [hanchor]
  split
  · next hnil =>
    rw [show Text.joinWith ['/'] (components p) = [] from hnil] at hsplit
    rw [← hsplit]
    exact (walk_dot a done).trans (walk_nil a done).symm
  · next hjoin => exact hsplit

theorem head?_canonical (p : Text) : (canonical p).head? = some '/' ↔ p.head? = some '/' := by
  rw [← anchorOf_ne_relative, ← anchorOf_ne_relative, canonical,
    (read_write (settled_components p)).1]

theorem names_slash_cons (p : Text) : names ('/' :: p) = names p := by
  rw [names, Text.splitOn_cons_self, List.filter_cons]
  rfl

theorem names_joinWith {parts : List Text} (h : ∀ c ∈ parts, c ≠ [] ∧ '/' ∉ c) :
    names (Text.joinWith ['/'] parts) = parts := by
  by_cases hne : parts = []
  · rw [hne]
    rfl
  · rw [names, Text.splitOn_joinWith hne fun c hc => (h c hc).2, List.filter_eq_self]
    intro c hc
    exact decide_eq_true (h c hc).1

/-- The names of a normal form are its components. -/
theorem names_absolute {wd : Text} (hwd : isAbsolute wd = true) (p : Text) :
    names (absolute wd p) = components (join wd p) := by
  have hplain : ∀ c ∈ components (join wd p), c ≠ [] ∧ '/' ∉ c := fun c hc =>
    plain_of_settled (settled_components (join wd p)) c (List.mem_reverse.mpr hc)
  have hanchor := anchorOf_ne_relative.mpr (head?_join (p := p) hwd)
  rw [absolute, canonical]
  cases ha : anchorOf (join wd p) with
  | relative => exact absurd ha hanchor
  | absolute =>
      change names ('/' :: Text.joinWith ['/'] _) = _
      rw [names_slash_cons, names_joinWith hplain]
  | doubled =>
      change names ('/' :: '/' :: Text.joinWith ['/'] _) = _
      rw [names_slash_cons, names_slash_cons, names_joinWith hplain]

/-! ## ways -/

/-- Below a root no settled component leads up. -/
theorem up_notMem_of_settled {done : List Text} (h : Settled .absolute done) : up ∉ done := by
  induction done with
  | nil => exact List.not_mem_nil
  | cons c done ih =>
      intro hmem
      rcases List.mem_cons.mp hmem with rfl | hrest
      · have hkept := h.2.2
        cases done with
        | nil => simp [push, up] at hkept
        | cons last before =>
            have hlast : last ≠ up := fun heq => ih h.1 (by rw [heq]; exact List.mem_cons_self)
            rw [push_up_of_ne hlast] at hkept
            have hlength := congrArg List.length hkept
            simp only [List.length_cons] at hlength
            omega
      · exact ih h.1 hrest

/-- Leading up takes back components as long as there are any. -/
theorem foldl_push_up {done : List Text} (h : up ∉ done) (n : Nat) :
    (List.replicate n up).foldl (push .absolute) done = done.drop n := by
  induction n generalizing done with
  | zero => rfl
  | succ n ih =>
      rw [List.replicate_succ, List.foldl_cons]
      cases done with
      | nil =>
          have hroot : push .absolute [] up = [] := rfl
          rw [hroot, ih List.not_mem_nil, List.drop_nil, List.drop_nil]
      | cons c done =>
          rw [List.mem_cons, not_or] at h
          rw [push_up_of_ne (Ne.symm h.1), ih h.2, List.drop_succ_cons]

/-- Below a root settled components are names. -/
theorem names_of_settled {done : List Text} (h : Settled .absolute done) :
    ∀ c ∈ done, ¬ (c = [] ∨ c = ['.']) ∧ c ≠ up := by
  induction done with
  | nil => simp
  | cons d done ih =>
      intro c hc
      refine ⟨?_, fun hup => up_notMem_of_settled h (hup ▸ hc)⟩
      rcases List.mem_cons.mp hc with rfl | hrest
      · intro htrace
        have hkept := h.2.2
        rw [push_of_trace htrace] at hkept
        simpa using congrArg List.length hkept
      · exact (ih h.1 c hrest).1

/-- Names are pushed onto every stack. -/
theorem foldl_push_names {cs : List Text} (h : ∀ c ∈ cs, ¬ (c = [] ∨ c = ['.']) ∧ c ≠ up)
    (a : Anchor) (done : List Text) : cs.foldl (push a) done = cs.reverse ++ done := by
  induction cs generalizing done with
  | nil => rfl
  | cons c cs ih =>
      rw [List.forall_mem_cons] at h
      have hkept : push a done c = c :: done := by simp only [push, if_neg h.1.1, if_neg h.1.2]
      rw [List.foldl_cons, hkept, ih h.2, List.reverse_cons, List.append_assoc]
      rfl

/-- What two paths share is a beginning of both. -/
theorem take_sharedLength (s t : List Text) :
    sharedLength s t ≤ s.length ∧ s.take (sharedLength s t) = t.take (sharedLength s t) := by
  fun_induction sharedLength s t with
  | case1 a as bs ih =>
      refine ⟨Nat.succ_le_succ ih.1, ?_⟩
      rw [List.take_succ_cons, List.take_succ_cons, ih.2]
  | case2 => simp
  | case3 => simp

/-- Where the way from `s` to `t` leads from a third place: as far above that as
what `s` and `t` share lies above `s`, and down from there. -/
theorem walk_route {e s t : List Text} (he : Settled .absolute e.reverse)
    (ht : Settled .absolute t.reverse) :
    walk .absolute e.reverse (route s t) =
      (e.take (e.length - (s.length - sharedLength s t)) ++ t.drop (sharedLength s t)).reverse := by
  generalize hn : sharedLength s t = n
  have hdown : ∀ c ∈ t.drop n, c ∈ t.reverse := fun c hc =>
    List.mem_reverse.mpr (List.mem_of_mem_drop hc)
  have hplain : ∀ c ∈ List.replicate (s.length - n) up ++ t.drop n, '/' ∉ c := by
    intro c hc
    rcases List.mem_append.mp hc with hup | hdrop
    · rw [List.eq_of_mem_replicate hup]
      decide
    · exact (plain_of_settled ht c (hdown c hdrop)).2
  have hjoined : walk .absolute e.reverse
      (Text.joinWith ['/'] (List.replicate (s.length - n) up ++ t.drop n)) =
        (e.take (e.length - (s.length - n)) ++ t.drop n).reverse := by
    rw [walk, foldl_push_splitOn_joinWith hplain, List.foldl_append,
      foldl_push_up (up_notMem_of_settled he),
      foldl_push_names fun c hc => names_of_settled ht c (hdown c hc), List.reverse_append,
      List.drop_reverse]
  unfold route
  rw [hn]
  simp only
  split
  · next hnil =>
    rw [hnil, Text.joinWith, walk_nil] at hjoined
    rw [walk_dot, hjoined]
  · exact hjoined

/-- Following the way from one place to another one leads there. -/
theorem walk_route_self {s t : List Text} (hs : Settled .absolute s.reverse)
    (ht : Settled .absolute t.reverse) : walk .absolute s.reverse (route s t) = t.reverse := by
  obtain ⟨hle, hshared⟩ := take_sharedLength s t
  rw [walk_route hs ht, Nat.sub_sub_self hle, hshared, List.take_append_drop]

/-- A way does not start at a root. -/
theorem head?_route {s t : List Text} (ht : ∀ c ∈ t, c ≠ [] ∧ '/' ∉ c) :
    (route s t).head? ≠ some '/' := by
  unfold route
  simp only
  split
  · decide
  · next hne =>
    obtain ⟨c, rest, hjoin, hc⟩ := joinWith_eq_cons hne fun part hpart => by
      rcases List.mem_append.mp hpart with hup | hdown
      · rw [List.eq_of_mem_replicate hup]
        decide
      · exact ht part (List.mem_of_mem_drop hdown)
    rw [hjoin]
    simpa using hc

/-- A place below a root is settled. -/
theorem settled_components_join {wd : Text} (hwd : isAbsolute wd = true) (p : Text) :
    Settled .absolute (components (join wd p)).reverse := by
  rw [components_of_head? (head?_join hwd), List.reverse_reverse]
  change Settled .absolute ((Text.splitOn '/' (join wd p)).foldl (push .absolute) [])
  exact settled_foldl_push (fun c => Text.notMem_of_mem_splitOn) trivial

/-- An empty directory is the working directory. -/
theorem names_start {wd : Text} (hwd : isAbsolute wd = true) (d : Text) :
    names (absolute wd (if d = [] then ['.'] else d)) = components (join wd d) := by
  rw [names_absolute hwd]
  split
  · next hd =>
    have hdot : (['.'] : Text).head? ≠ some '/' := by decide
    rw [hd, components_join hwd, components_join hwd, if_neg hdot, if_neg (by simp), walk_dot,
      walk_nil]
  · rfl

theorem head?_relativeTo {wd : Text} (hwd : isAbsolute wd = true) (d p : Text) :
    (relativeTo wd d p).head? ≠ some '/' := by
  refine head?_route fun c hc => ?_
  rw [names_absolute hwd] at hc
  exact plain_of_settled (settled_components _) c (List.mem_reverse.mpr hc)

/-- **The way to a path leads there.** -/
theorem located_join_relativeTo {wd : Text} (hwd : isAbsolute wd = true) (d p : Text) :
    located wd (join d (relativeTo wd d p)) = located wd p := by
  rw [located, components_join_join hwd (head?_relativeTo hwd d p), relativeTo]
  simp only [names_start hwd, names_absolute hwd]
  rw [walk_route_self (settled_components_join hwd d) (settled_components_join hwd p),
    List.reverse_reverse, located]

/-! ## locations -/

/-- Paths of one location have the same components. -/
theorem components_eq_of_located_eq {wd p q : Text} (h : located wd p = located wd q) :
    components (join wd p) = components (join wd q) := by
  have hplain : ∀ p, ∀ c ∈ components (join wd p), c ≠ [] ∧ '/' ∉ c := fun p c hc =>
    plain_of_settled (settled_components (join wd p)) c (List.mem_reverse.mpr hc)
  rw [← names_joinWith (hplain p), ← names_joinWith (hplain q), (List.cons.inj h).2]

/-- Paths of one location are those of the same components. -/
theorem located_eq_iff {wd p q : Text} :
    located wd p = located wd q ↔ components (join wd p) = components (join wd q) :=
  ⟨components_eq_of_located_eq, fun h => by rw [located, located, h]⟩

/-- A path that does not begin with two slashes is located where it is. -/
theorem located_eq_absolute {wd p : Text} (h : anchorOf (join wd p) = .absolute) :
    located wd p = absolute wd p := by
  rw [absolute, canonical, h]
  rfl

end SourceMerge.Path
