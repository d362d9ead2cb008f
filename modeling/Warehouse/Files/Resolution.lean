/-
# Warehouse.Files.Resolution — following paths through symbolic links

A file system is a tree of nodes, some of them symbolic links, and a path is walked name by name:
a link is replaced by its target wherever it stands, `..` leads to the directory above, and a walk
that meets too many links is given up.  Where a walk ends is `Canonical`: there are neither dots nor
links on the way there.  So the path of that place, walked again, ends at the same place.

This module names nothing of the warehouse.
-/
import Warehouse.Files.Path

namespace Warehouse.Files

/-! ## Trees and walks -/

/-- A place in the tree, by the names that lead to it from the root. -/
abbrev Location : Type := List Bytes

/-- What there is at a location. -/
inductive Node
  | directory
  | regular (contents : Bytes)
  | special
  | link (target : Path)
  deriving DecidableEq

/-- The nodes by their locations. -/
abbrev Tree : Type := Location → Option Node

/-- The walk up to the first link, where `follow` goes on. -/
def walk (tree : Tree) (follow : Location → List Bytes → Option Location) :
    Location → List Bytes → Option Location
  | here, [] => some here
  | here, name :: rest =>
      if name = [] ∨ name = lit "." then walk tree follow here rest
      else if name = lit ".." then walk tree follow here.dropLast rest
      else match tree (here ++ [name]) with
        | none => none
        | some (.link target) =>
            follow (if isAbsolute target then [] else here) (target.splitOn 47 ++ rest)
        | some .directory => walk tree follow (here ++ [name]) rest
        -- nothing can be looked up in any other file, not even behind a trailing slash
        | some _ => if rest = [] then some (here ++ [name]) else none

/-- The walk through at most that many links. -/
def resolve (tree : Tree) : ℕ → Location → List Bytes → Option Location
  | 0 => walk tree fun _ _ => none
  | links + 1 => walk tree (resolve tree links)

/-! ## Places without links -/

/-- A name that an entry of a directory can have. -/
structure Ordinary (name : Bytes) : Prop where
  nonempty : name ≠ []
  not_dot : name ≠ lit "."
  not_dots : name ≠ lit ".."
  no_slash : 47 ∉ name

/-- A directory to which directories lead. -/
inductive CanonicalDirectory (tree : Tree) : Location → Prop
  | root : CanonicalDirectory tree []
  | entry {here : Location} {name : Bytes} : CanonicalDirectory tree here → Ordinary name →
      tree (here ++ [name]) = some .directory → CanonicalDirectory tree (here ++ [name])

/-- A directory, or another file that is no link, to which directories lead. -/
inductive Canonical (tree : Tree) : Location → Prop
  | directory {l : Location} : CanonicalDirectory tree l → Canonical tree l
  | file {here : Location} {name : Bytes} {node : Node} : CanonicalDirectory tree here →
      Ordinary name → tree (here ++ [name]) = some node → (∀ target, node ≠ .link target) →
      node ≠ .directory → Canonical tree (here ++ [name])

section Walks

variable {tree : Tree} {follow : Location → List Bytes → Option Location} {here l : Location}
  {name : Bytes} {names : List Bytes}

theorem CanonicalDirectory.dropLast (h : CanonicalDirectory tree here) :
    CanonicalDirectory tree here.dropLast := by
  cases h with
  | root => exact .root
  | entry hhere _ _ =>
      rw [List.dropLast_concat]
      exact hhere

theorem CanonicalDirectory.ordinary (h : CanonicalDirectory tree here) :
    ∀ name ∈ here, Ordinary name := by
  induction h with
  | root => exact fun _ hname => nomatch hname
  | entry _ hordinary _ ih =>
      intro name hname
      rcases List.mem_append.mp hname with hname | hname
      · exact ih name hname
      · rw [List.mem_singleton.mp hname]
        exact hordinary

theorem Canonical.ordinary (h : Canonical tree l) : ∀ name ∈ l, Ordinary name := by
  cases h with
  | directory hdirectory => exact hdirectory.ordinary
  | file hhere hordinary _ _ _ =>
      intro name hname
      rcases List.mem_append.mp hname with hname | hname
      · exact hhere.ordinary name hname
      · rw [List.mem_singleton.mp hname]
        exact hordinary

/-- Names that come from a text. -/
theorem not_mem_of_mem_splitOn {text : Bytes} (h : name ∈ text.splitOn 47) : 47 ∉ name := by
  induction text generalizing name with
  | nil =>
      rw [List.splitOn_nil, List.mem_singleton] at h
      subst h
      exact List.not_mem_nil
  | cons c text ih =>
      rw [List.splitOn_cons_eq_if_modifyHead] at h
      split at h
      · rcases List.mem_cons.mp h with rfl | h
        · exact List.not_mem_nil
        · exact ih h
      · rename_i hc
        cases hsplit : text.splitOn 47 with
        | nil => exact absurd hsplit (List.splitOn_ne_nil 47 text)
        | cons first others =>
            rw [hsplit, List.modifyHead_cons] at h
            rw [hsplit] at ih
            rcases List.mem_cons.mp h with rfl | h
            · intro hmem
              rcases List.mem_cons.mp hmem with rfl | hmem
              · exact hc rfl
              · exact ih List.mem_cons_self hmem
            · exact ih (List.mem_cons_of_mem first h)

/-- A walk that starts in a canonical directory ends at a canonical location. -/
theorem walk_canonical
    (hfollow : ∀ here names, CanonicalDirectory tree here → (∀ name ∈ names, 47 ∉ name) →
      ∀ l, follow here names = some l → Canonical tree l)
    (hhere : CanonicalDirectory tree here) (hnames : ∀ name ∈ names, 47 ∉ name)
    (h : walk tree follow here names = some l) : Canonical tree l := by
  induction names generalizing here with
  | nil =>
      obtain rfl := Option.some.inj h
      exact .directory hhere
  | cons name rest ih =>
      have hrest : ∀ name ∈ rest, 47 ∉ name := fun n hn => hnames n (List.mem_cons_of_mem name hn)
      rw [walk] at h
      by_cases hskip : name = [] ∨ name = lit "."
      · rw [if_pos hskip] at h
        exact ih hhere hrest h
      by_cases hup : name = lit ".."
      · rw [if_neg hskip, if_pos hup] at h
        exact ih hhere.dropLast hrest h
      rw [if_neg hskip, if_neg hup] at h
      rw [not_or] at hskip
      have hordinary : Ordinary name := ⟨hskip.1, hskip.2, hup, hnames name List.mem_cons_self⟩
      split at h
      · cases h
      · -- the walk goes on with the names of the target
        refine hfollow _ _ ?_ ?_ l h
        · split
          · exact .root
          · exact hhere
        · intro n hn
          rcases List.mem_append.mp hn with hn | hn
          · exact not_mem_of_mem_splitOn hn
          · exact hrest n hn
      · rename_i hnode
        exact ih (.entry hhere hordinary hnode) hrest h
      · rename_i node hlink hdirectory hnode
        split_ifs at h
        obtain rfl := Option.some.inj h
        exact .file hhere hordinary hnode (fun target ht => hlink target (by rw [ht]))
          fun hd => hdirectory (by rw [hd])

theorem resolve_canonical {links : ℕ} (hhere : CanonicalDirectory tree here)
    (hnames : ∀ name ∈ names, 47 ∉ name) (h : resolve tree links here names = some l) :
    Canonical tree l := by
  induction links generalizing here names l with
  | zero =>
      refine walk_canonical ?_ hhere hnames h
      intro _ _ _ _ _ hnone
      cases hnone
  | succ links ih => exact walk_canonical (fun _ _ hd hn _ hl => ih hd hn hl) hhere hnames h

/-- Through canonical directories a walk goes straight on. -/
theorem walk_through (h : CanonicalDirectory tree here) (names : List Bytes) :
    walk tree follow [] (here ++ names) = walk tree follow here names := by
  induction h generalizing names with
  | root => rfl
  | entry hhere hordinary hnode ih =>
      rw [List.append_assoc, ih, List.singleton_append, walk,
        if_neg (not_or.mpr ⟨hordinary.nonempty, hordinary.not_dot⟩), if_neg hordinary.not_dots,
        hnode]

theorem walk_self (h : Canonical tree l) : walk tree follow [] l = some l := by
  cases h with
  | directory hdirectory =>
      have hthrough : walk tree follow [] (l ++ []) = walk tree follow l [] :=
        walk_through hdirectory []
      rwa [List.append_nil] at hthrough
  | file hhere hordinary hnode hlink hdirectory =>
      rename_i name node
      rw [walk_through hhere, walk,
        if_neg (not_or.mpr ⟨hordinary.nonempty, hordinary.not_dot⟩), if_neg hordinary.not_dots,
        hnode]
      cases node with
      | directory => exact absurd rfl hdirectory
      | link target => exact absurd rfl (hlink target)
      | regular contents => rfl
      | special => rfl

end Walks

/-! ## Paths -/

/-- The absolute path of a location. -/
def pathOf (location : Location) : Path := 47 :: [47].intercalate location

theorem splitOn_pathOf {location : Location} (h : ∀ name ∈ location, Ordinary name) :
    (pathOf location).splitOn 47 = [] :: if location = [] then [[]] else location := by
  rw [pathOf, List.splitOn_cons_eq_if_modifyHead, if_pos (beq_self_eq_true _)]
  by_cases hempty : location = []
  · subst hempty
    rfl
  · have hslash : ∀ name ∈ location, 47 ∉ name := fun name hname => (h name hname).no_slash
    rw [if_neg hempty, List.splitOn_intercalate 47 hslash hempty]

/-- The names of a location are the components of its path behind the root. -/
theorem filter_components {location : Location} (h : ∀ name ∈ location, Ordinary name) :
    (components (pathOf location)).filter (fun name => !name.isEmpty) = lit "/" :: location := by
  have hall : location.filter (fun name => !name.isEmpty) = location := by
    refine List.filter_eq_self.mpr ?_
    intro name hname
    simpa using (h name hname).nonempty
  have hnames : ((pathOf location).splitOn 47).filter (fun name => !name.isEmpty) = location := by
    rw [splitOn_pathOf h]
    split
    · rename_i hempty
      subst hempty
      rfl
    · exact hall
  have habsolute : isAbsolute (pathOf location) = true := rfl
  have hroot : [lit "/"].filter (fun name => !name.isEmpty) = [lit "/"] := by decide
  simp only [components, hnames, habsolute, if_true, List.filter_append, hall, hroot]
  -- a trailing component is empty
  split <;> simp

example : components (lit "/a/b") = [lit "/", lit "a", lit "b"] := by decide

theorem components_injective {location other : Location} (h : ∀ name ∈ location, Ordinary name)
    (h' : ∀ name ∈ other, Ordinary name)
    (heq : components (pathOf location) = components (pathOf other)) : location = other := by
  have hfiltered := congrArg (List.filter fun name => !name.isEmpty) heq
  rw [filter_components h, filter_components h'] at hfiltered
  exact (List.cons.inj hfiltered).2

/-- A file system as a process sees it. -/
structure FileSystem where
  tree : Tree
  workingDirectory : Location
  /-- How many links a walk goes through. -/
  links : ℕ := 40
  root : tree [] = some .directory
  canonical : CanonicalDirectory tree workingDirectory

namespace FileSystem

variable (files : FileSystem)

/-- Where a path leads. -/
def locate (path : Path) : Option Location :=
  if path = [] then none
  else resolve files.tree files.links (if isAbsolute path then [] else files.workingDirectory)
    (path.splitOn 47)

/-- The path leads to a directory. -/
def IsDirectory (path : Path) : Prop :=
  ∃ location, files.locate path = some location ∧ files.tree location = some .directory

variable {files} {path : Path} {location : Location}

/-- Where a path leads there are no links left. -/
theorem locate_canonical (h : files.locate path = some location) :
    Canonical files.tree location := by
  unfold locate at h
  split_ifs at h with hempty habsolute
  · exact resolve_canonical .root (fun _ => not_mem_of_mem_splitOn) h
  · exact resolve_canonical files.canonical (fun _ => not_mem_of_mem_splitOn) h

/-- The path of a canonical location leads there. -/
theorem locate_pathOf (h : Canonical files.tree location) :
    files.locate (pathOf location) = some location := by
  have hwalk : ∀ follow, walk files.tree follow [] ((pathOf location).splitOn 47) =
      some location := by
    intro follow
    rw [splitOn_pathOf h.ordinary, walk, if_pos (Or.inl rfl)]
    split
    · rename_i hempty
      subst hempty
      rfl
    · exact walk_self h
  have hne : pathOf location ≠ [] := List.cons_ne_nil _ _
  have habsolute : isAbsolute (pathOf location) = true := rfl
  rw [locate, if_neg hne, if_pos habsolute]
  cases files.links with
  | zero => exact hwalk _
  | succ links => exact hwalk _

end FileSystem

end Warehouse.Files
