import Mathlib.Data.List.Infix

/-!
# A file tree with links

Files, directories and symbolic links by their location, and the walk the
operating system makes over a path: `.` and `..` are taken as they come, a
link is replaced by its target, and a path that goes through too many links
is refused.

The walk ends at a location no link leads through (`walk_plain`), and walking
that location again goes nowhere else (`canonicalize_idem`).
-/

namespace Aperio

/-- The names from the root of the tree. -/
abbrev Location := List String

inductive Inode where
  | file (contents : List UInt8) (modified : Option Nat) (readable : Bool)
  | dir
  | link (absolute : Bool) (target : List String)
deriving Repr, DecidableEq

structure FileTree where
  node : Location → Option Inode
  rooted : node [] = some .dir
  maxLinks : Nat := 40

namespace FileTree

variable (t : FileTree)

/-- The names of a path from the directory `loc` on; `follow` takes over at a
link. -/
def walkNames (follow : List String → Location → Option Location) :
    List String → Location → Option Location
  | [], loc => some loc
  | name :: rest, loc =>
    if name = "" ∨ name = "." then walkNames follow rest loc
    else if name = ".." then walkNames follow rest loc.dropLast
    else
      match t.node (loc ++ [name]) with
      | none => none
      | some .dir => walkNames follow rest (loc ++ [name])
      | some (.file ..) => if rest = [] then some (loc ++ [name]) else none
      | some (.link absolute target) => follow (target ++ rest) (if absolute then [] else loc)

/-- A walk through at most so many links. -/
def walk : Nat → List String → Location → Option Location
  | 0 => t.walkNames fun _ _ => none
  | links + 1 => t.walkNames (walk links)

/-- Where an absolute path leads. -/
def canonicalize (names : List String) : Option Location :=
  t.walk t.maxLinks names []

/-- What stands there. -/
def metadata (names : List String) : Option Inode :=
  (t.canonicalize names).bind t.node

/-- The file a path opens for reading. -/
def openFile (names : List String) : Option (Location × List UInt8 × Option Nat) :=
  (t.canonicalize names).bind fun loc =>
    match t.node loc with
    | some (.file contents modified true) => some (loc, contents, modified)
    | _ => none

/-! ## Locations without links -/

/-- A directory reached through directories. -/
inductive PlainDir (t : FileTree) : Location → Prop
  | root : PlainDir t []
  | child {loc : Location} {name : String} (hparent : PlainDir t loc) (hempty : name ≠ "")
      (hdot : name ≠ ".") (hdotdot : name ≠ "..") (hnode : t.node (loc ++ [name]) = some .dir) :
      PlainDir t (loc ++ [name])

/-- A file in such a directory. -/
inductive PlainFile (t : FileTree) : Location → Prop
  | child {loc : Location} {name : String} {contents : List UInt8} {modified : Option Nat}
      {readable : Bool} (hparent : PlainDir t loc) (hempty : name ≠ "") (hdot : name ≠ ".")
      (hdotdot : name ≠ "..")
      (hnode : t.node (loc ++ [name]) = some (.file contents modified readable)) :
      PlainFile t (loc ++ [name])

variable {t} {loc out : Location} {names rest : List String} {links : Nat}

theorem PlainDir.dropLast (h : t.PlainDir loc) : t.PlainDir loc.dropLast := by
  cases h with
  | root => exact .root
  | child hparent =>
      rw [List.dropLast_concat]
      exact hparent

theorem walkNames_plain {follow : List String → Location → Option Location}
    (hfollow : ∀ names loc out, t.PlainDir loc → follow names loc = some out →
      t.PlainDir out ∨ t.PlainFile out)
    (hloc : t.PlainDir loc) (h : t.walkNames follow names loc = some out) :
    t.PlainDir out ∨ t.PlainFile out := by
  induction names generalizing loc with
  | nil =>
      obtain rfl : loc = out := by simpa [walkNames] using h
      exact Or.inl hloc
  | cons name rest ih =>
      rw [walkNames] at h
      split at h
      · exact ih hloc h
      · rename_i hskip
        obtain ⟨hempty, hdot⟩ := not_or.mp hskip
        split at h
        · exact ih hloc.dropLast h
        · rename_i hdotdot
          split at h
          · cases h
          · rename_i hnode
            exact ih (.child hloc hempty hdot hdotdot hnode) h
          · rename_i hnode
            split at h
            · cases h
              exact Or.inr (.child hloc hempty hdot hdotdot hnode)
            · cases h
          · refine hfollow _ _ _ ?_ h
            split
            · exact .root
            · exact hloc

/-- **Walks end without links.** -/
theorem walk_plain (hloc : t.PlainDir loc) (h : t.walk links names loc = some out) :
    t.PlainDir out ∨ t.PlainFile out := by
  induction links generalizing names loc out with
  | zero =>
      refine walkNames_plain ?_ hloc h
      intro _ _ _ _ hnone
      cases hnone
  | succ links ih =>
      refine walkNames_plain ?_ hloc h
      intro _ _ _ hfrom hnext
      exact ih hfrom hnext

theorem canonicalize_plain (h : t.canonicalize names = some out) :
    t.PlainDir out ∨ t.PlainFile out :=
  walk_plain .root h

/-- Walking down to a plain directory goes through it. -/
theorem walkNames_through {follow : List String → Location → Option Location}
    (h : t.PlainDir loc) : t.walkNames follow (loc ++ rest) [] = t.walkNames follow rest loc := by
  induction h generalizing rest with
  | root => rfl
  | child hparent hempty hdot hdotdot hnode ih =>
      rw [List.append_assoc, ih, List.singleton_append, walkNames]
      simp [hempty, hdot, hdotdot, hnode]

theorem canonicalize_dir (h : t.PlainDir loc) : t.canonicalize loc = some loc := by
  have hself (follow : List String → Location → Option Location) :
      t.walkNames follow loc [] = some loc := by
    have hthrough := @walkNames_through t loc [] follow h
    rw [List.append_nil] at hthrough
    exact hthrough
  unfold canonicalize
  cases t.maxLinks with
  | zero => exact hself _
  | succ links => exact hself _

theorem canonicalize_file (h : t.PlainFile loc) : t.canonicalize loc = some loc := by
  cases h with
  | @child parent name contents modified readable hparent hempty hdot hdotdot hnode =>
      have hself (follow : List String → Location → Option Location) :
          t.walkNames follow (parent ++ [name]) [] = some (parent ++ [name]) := by
        rw [walkNames_through hparent, walkNames]
        simp [hempty, hdot, hdotdot, hnode]
      unfold canonicalize
      cases t.maxLinks with
      | zero => exact hself _
      | succ links => exact hself _

/-- **Canonical paths lead to themselves.** -/
theorem canonicalize_idem (h : t.canonicalize names = some out) :
    t.canonicalize out = some out := by
  rcases canonicalize_plain h with hdir | hfile
  · exact canonicalize_dir hdir
  · exact canonicalize_file hfile

theorem openFile_eq_some {contents : List UInt8} {modified : Option Nat} :
    t.openFile names = some (out, contents, modified) ↔
      t.canonicalize names = some out ∧ t.node out = some (.file contents modified true) := by
  unfold openFile
  constructor
  · intro h
    obtain ⟨loc, hloc, hfile⟩ := Option.bind_eq_some_iff.mp h
    split at hfile
    · rename_i hnode
      cases hfile
      exact ⟨hloc, hnode⟩
    · cases hfile
  · rintro ⟨hloc, hnode⟩
    rw [hloc, Option.bind_some, hnode]

end FileTree

end Aperio
