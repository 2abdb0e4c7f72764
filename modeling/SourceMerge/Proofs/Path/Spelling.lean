import Mathlib.Logic.Relation
import SourceMerge.Proofs.Path.Way

/-!
# SourceMerge.Proofs.Path.Spelling

References and the spelling of paths.  Of a joined path its normal form keeps where
the directory starts and what is reached along the path from the components of the
directory (`canonical_join`).  So the directory and the path count up to their normal
forms only, and a reference names the same unit however it is spelled.

What may be written into a path without a trace leads back to where it begins
(`Idle`): nothing but a slash, `.`, or a name and `..`.

```
src/lib/a.js    =    src/./lib//a.js    =    x/../src/lib/b/../a.js
                        └─┘    └             └───┘       └───┘
```

It stands in front of the path with a slash behind it, or at the end of a component
with a slash before it.  What is reached along the path stays the same
(`Respelled.walk_eq`); only where the path starts can change, by a slash in front.
-/

namespace SourceMerge.Path

/-! ## normal forms of joined paths -/

/-- What is left of a directory and of a path behind it. -/
theorem canonical_join {p : Text} (hp : p.head? ≠ some '/') (d : Text) :
    canonical (join d p) =
      write (anchorOf d) (walk (anchorOf d) (components d).reverse p).reverse := by
  rw [canonical, components_eq_walk, anchorOf_join hp, walk_join hp, components_eq_walk,
    List.reverse_reverse]

/-- A directory counts up to its normal form. -/
theorem canonical_join_canonical_left {p : Text} (hp : p.head? ≠ some '/') (d : Text) :
    canonical (join (canonical d) p) = canonical (join d p) := by
  obtain ⟨hanchor, hparts⟩ := read_write (settled_components d)
  rw [canonical_join hp, canonical_join hp, canonical, hanchor, hparts]

/-- A path behind a directory counts up to its normal form. -/
theorem canonical_join_canonical_right {p : Text} (hp : p.head? ≠ some '/') (d : Text) :
    canonical (join d (canonical p)) = canonical (join d p) := by
  have hcan : (canonical p).head? ≠ some '/' := mt (head?_canonical p).mp hp
  rw [canonical_join hcan, canonical_join hp, walk_canonical hp]

/-! ## references -/

/-- A reference that does not begin with a slash is seen from the directory of the
file that declares it. -/
theorem resolve_relative {reference : Text} (h : reference.head? ≠ some '/')
    (root declaring : Text) :
    resolve root reference declaring = canonical (join (directory declaring) reference) := by
  rw [resolve, if_neg h]

/-- A reference that begins with a slash is seen from the root. -/
theorem resolve_rooted {reference : Text} (h : reference.head? = some '/')
    (root declaring : Text) :
    resolve root reference declaring = canonical (join root (reference.dropWhile (· == '/'))) := by
  rw [resolve, if_pos h]

/-- All slashes in front are dropped. -/
theorem dropWhile_slashes {rest : Text} (h : rest.head? ≠ some '/') (n : Nat) :
    (List.replicate n '/' ++ rest).dropWhile (· == '/') = rest :=
  (Text.span_append (fun c hc => beq_iff_eq.mpr (List.eq_of_mem_replicate hc))
    fun c hc => beq_eq_false_iff_ne.mpr fun heq => h (by rw [← heq]; exact hc)).2

theorem head?_dropWhile_slash (p : Text) : (p.dropWhile (· == '/')).head? ≠ some '/' := by
  intro h
  have hhead := List.head?_dropWhile_not (· == '/') p
  rw [h] at hhead
  simp at hhead

/-! ## other spellings -/

/-- Ways that lead back to where they begin: nothing at all, `.`, and a name that is
taken back. -/
inductive Idle : Text → Prop
  | nothing : Idle []
  | dot : Idle ['.']
  | detour {name : Text} (hslash : '/' ∉ name) (hname : name ∉ [[], ['.'], up]) :
      Idle (name ++ '/' :: up)

/-- The second path is the first one with an idle way written into it. -/
inductive Strays : Text → Text → Prop
  | front {way : Text} (h : Idle way) (p : Text) : Strays p (way ++ '/' :: p)
  | behind {way : Text} (h : Idle way) (p : Text) {rest : Text}
      (hrest : rest = [] ∨ rest.head? = some '/') : Strays (p ++ rest) (p ++ '/' :: (way ++ rest))

/-- Paths that differ in idle ways at most. -/
def Respelled : Text → Text → Prop := Relation.EqvGen Strays

theorem Idle.walk_eq {way : Text} (h : Idle way) (a : Anchor) (done : List Text) :
    walk a done way = done := by
  cases h with
  | nothing => exact walk_nil a done
  | dot => exact walk_dot a done
  | @detour name hslash hname =>
      simp only [List.mem_cons, List.not_mem_nil, or_false, not_or] at hname
      have hkept : push a done name = name :: done := by
        simp only [push, hname, or_self, if_false]
      have hup : '/' ∉ up := by decide
      rw [walk_append_slash, walk_of_notMem hslash, hkept, walk_of_notMem hup,
        push_up_of_ne hname.2.2]

theorem Strays.walk_eq {p q : Text} (h : Strays p q) (a : Anchor) (done : List Text) :
    walk a done q = walk a done p := by
  cases h with
  | front h p => rw [walk_append_slash, h.walk_eq]
  | @behind way h p rest hrest =>
      rw [walk_append_slash]
      rcases hrest with rfl | hslash
      · rw [List.append_nil, List.append_nil, h.walk_eq]
      · obtain ⟨rest, rfl⟩ := List.head?_eq_some_iff.mp hslash
        rw [walk_append_slash, walk_append_slash, h.walk_eq]

/-- **Along two spellings of a path the same is reached.** -/
theorem Respelled.walk_eq {p q : Text} (h : Respelled p q) (a : Anchor) (done : List Text) :
    walk a done p = walk a done q := by
  induction h with
  | rel p q h => exact (h.walk_eq a done).symm
  | refl p => rfl
  | symm p q _ ih => exact ih.symm
  | trans p q r _ _ ihp ihq => exact ihp.trans ihq

/-- Two spellings of a path that start alike have one normal form. -/
theorem Respelled.canonical_eq {p q : Text} (h : Respelled p q) (hanchor : anchorOf p = anchorOf q) :
    canonical p = canonical q := by
  rw [canonical, canonical, components_eq_walk, components_eq_walk, hanchor, h.walk_eq]

/-- Slashes in front of a path are idle. -/
theorem respelled_dropWhile (p : Text) : Respelled (p.dropWhile (· == '/')) p := by
  induction p with
  | nil => exact .refl _
  | cons c p ih =>
      rw [List.dropWhile_cons]
      split
      · next hc =>
        rw [beq_iff_eq.mp hc]
        exact ih.trans _ _ _ (.rel _ _ (.front .nothing p))
      · exact .refl _

/-- Two spellings of a reference, rooted or not, name one path. -/
theorem Respelled.resolve_eq {reference other : Text} (h : Respelled reference other)
    (habsolute : isAbsolute reference = isAbsolute other) (root declaring : Text) :
    resolve root reference declaring = resolve root other declaring := by
  rw [Bool.eq_iff_iff, isAbsolute_iff, isAbsolute_iff] at habsolute
  by_cases hslash : reference.head? = some '/'
  · -- Slashes in front are idle, so dropping them is a respelling itself.
    have hstripped : Respelled (reference.dropWhile (· == '/')) (other.dropWhile (· == '/')) :=
      ((respelled_dropWhile reference).trans _ _ _ h).trans _ _ _
        ((respelled_dropWhile other).symm _ _)
    rw [resolve_rooted hslash, resolve_rooted (habsolute.mp hslash),
      canonical_join (head?_dropWhile_slash _), canonical_join (head?_dropWhile_slash _),
      hstripped.walk_eq]
  · have hother : other.head? ≠ some '/' := mt habsolute.mpr hslash
    rw [resolve_relative hslash, resolve_relative hother, canonical_join hslash,
      canonical_join hother, h.walk_eq]

/-- **A reference names a place, not a spelling.**  What it is resolved to is a normal
form.  A reference that is not rooted counts up to its normal form; a rooted one is seen
from the root without its slashes, whatever file declares it.  Joined paths count up to
their normal forms on both sides.  So whether a reference names a unit is the same for
all spellings of both, as long as these begin alike. -/
theorem resolve_names_place (root reference declaring : Text) :
    canonical (resolve root reference declaring) = resolve root reference declaring ∧
      (reference.head? ≠ some '/' →
        resolve root (canonical reference) declaring = resolve root reference declaring) ∧
      (∀ n rest, rest.head? ≠ some '/' → reference = List.replicate (n + 1) '/' ++ rest →
        ∀ declaring', resolve root reference declaring' = canonical (join root rest)) ∧
      (∀ d p, p.head? ≠ some '/' → canonical (join (canonical d) p) = canonical (join d p)) ∧
      ∀ other p q, Respelled reference other → isAbsolute reference = isAbsolute other →
        Respelled p q → anchorOf p = anchorOf q →
        (resolve root reference declaring = canonical p ↔
          resolve root other declaring = canonical q) := by
  refine ⟨canonical_canonical _, fun h => ?_, fun n rest hrest href declaring' => ?_,
    fun d p hp => canonical_join_canonical_left hp d, fun other p q href habsolute hpq hanchor => ?_⟩
  · rw [resolve_relative (mt (head?_canonical reference).mp h), resolve_relative h,
      canonical_join_canonical_right h]
  · have hslash : reference.head? = some '/' := by rw [href]; rfl
    rw [resolve_rooted hslash, href, dropWhile_slashes hrest]
  · rw [href.resolve_eq habsolute, hpq.canonical_eq hanchor]

/-- Spellings of a reference and of a unit, and a reference with two slashes. -/
theorem resolve_names_place_detour :
    resolve "lib" (canonical "./b/../a.js") "src/main.js" =
        resolve "lib" "./b/../a.js" "src/main.js" ∧
      resolve "lib" "//a.js" "src/main.js" = canonical (join "lib" "a.js") ∧
      canonical (join (canonical "src/..") "a.js") = canonical (join "src/.." "a.js") ∧
      (resolve "lib" "a.js" "src/main.js" = canonical "src/a.js" ↔
        resolve "lib" "./b/../a.js" "src/main.js" = canonical "src//a.js") := by
  have hdetour : Idle ("b".toList ++ '/' :: up) := .detour (by decide) (by decide)
  have hreference : Respelled "a.js" "./b/../a.js" :=
    .trans _ _ _ (.rel _ _ (.front hdetour "a.js")) (.rel _ _ (.front .dot "b/../a.js"))
  have hunit : Respelled "src/a.js" "src//a.js" :=
    .rel _ _ (@Strays.behind [] .nothing "src" "/a.js" (.inr rfl))
  obtain ⟨-, -, -, hjoin, hspelled⟩ := resolve_names_place "lib" "a.js" "src/main.js"
  exact ⟨(resolve_names_place "lib" "./b/../a.js" "src/main.js").2.1 (by decide),
    (resolve_names_place "lib" "//a.js" "src/main.js").2.2.1 1 "a.js" (by decide) rfl "src/main.js",
    hjoin "src/.." "a.js" (by decide),
    hspelled "./b/../a.js" "src/a.js" "src//a.js" hreference rfl hunit rfl⟩

end SourceMerge.Path
