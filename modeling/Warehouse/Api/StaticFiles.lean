/-
# Warehouse.Api.StaticFiles — the files that `serveStatic` sends

A request names a file by its path.  The path is checked as a text, appended to the public directory
and made canonical; then the components of both are compared, the file is opened and sent.  Whatever
the path and wherever links lead, the file that is sent lies under the public directory.
-/
import Warehouse.Files.Resolution

namespace Warehouse.Api

open Warehouse.Files

/-! ## The library calls -/

/-- The file system, and what the process may read there. -/
structure StaticFiles where
  files : FileSystem
  /-- `weakly_canonical`; `none` where it sets the error. -/
  weaklyCanonical : Path → Option Path
  readable : Location → Bool

/-- The path that is returned is that of the file it leads to, and of the file that the argument
leads to: absolute, and without links. -/
def StaticFiles.Canonicalizes (env : StaticFiles) : Prop :=
  ∀ path result, env.weaklyCanonical path = some result → ∀ location,
    env.files.locate path = some location ∨ env.files.locate result = some location →
      result = pathOf location

/-- `is_regular_file` -/
def StaticFiles.isRegularFile (env : StaticFiles) (path : Path) : Bool :=
  match (env.files.locate path).bind env.files.tree with
  | some (.regular _) => true
  | _ => false

/-- What an `ifstream` reads, and from which file. -/
def StaticFiles.opened (env : StaticFiles) (path : Path) : Option (Location × Bytes) :=
  match env.files.locate path with
  | none => none
  | some location =>
      if env.readable location then
        match env.files.tree location with
        | some (.regular contents) => some (location, contents)
        -- a directory can be opened, and there is nothing to read
        | some _ => some (location, [])
        | none => none
      else none

/-! ## The comparison -/

/-- What must not happen to an iterator. -/
inductive IteratorFault
  | pastEnd
  | endless
  deriving DecidableEq

/-- `*position` -/
def dereference (parts : List Bytes) (position : ℕ) : Except IteratorFault Bytes :=
  match parts[position]? with
  | none => .error .pastEnd
  | some part => .ok part

/-- `++position` -/
def increment (parts : List Bytes) (position : ℕ) : Except IteratorFault ℕ :=
  if position < parts.length then .ok (position + 1) else .error .pastEnd

/-- The loop over the components of the root; `false` is the way out into the error. -/
def comparePrefix (root candidate : List Bytes) : ℕ → ℕ → ℕ → Except IteratorFault Bool
  | 0, _, _ => .error .endless
  | turns + 1, rootPart, candidatePart =>
      if rootPart = root.length then .ok true
      else if candidatePart = candidate.length then .ok false
      else do
        if (← dereference candidate candidatePart) ≠ (← dereference root rootPart) then .ok false
        else
          comparePrefix root candidate turns (← increment root rootPart)
            (← increment candidate candidatePart)

section Comparison

variable {root candidate : List Bytes} {turns position : ℕ}

/-- From a position up to which both are equal, the loop finds out whether the rest of the root is a
prefix, with no iterator beyond its end. -/
theorem comparePrefix_eq (hroot : position ≤ root.length) (hcandidate : position ≤ candidate.length)
    (hturns : root.length < position + turns) :
    comparePrefix root candidate turns position position =
      .ok ((root.drop position).isPrefixOf (candidate.drop position)) := by
  induction turns generalizing position with
  | zero => omega
  | succ turns ih =>
      rw [comparePrefix]
      by_cases hend : position = root.length
      · rw [if_pos hend, hend, List.drop_length]
        rfl
      have hlt : position < root.length := by omega
      rw [if_neg hend, List.drop_eq_getElem_cons hlt]
      by_cases hshort : position = candidate.length
      · rw [if_pos hshort, List.drop_of_length_le (Nat.le_of_eq hshort.symm)]
        rfl
      have hlt' : position < candidate.length := by omega
      rw [if_neg hshort, List.drop_eq_getElem_cons hlt', List.isPrefixOf_cons_cons]
      have hparts : dereference root position = .ok root[position] ∧
          dereference candidate position = .ok candidate[position] := by
        simp [dereference, hlt, hlt']
      have hnext : increment root position = .ok (position + 1) ∧
          increment candidate position = .ok (position + 1) := by
        simp [increment, hlt, hlt']
      simp only [hparts.1, hparts.2, hnext.1, hnext.2, bind, Except.bind]
      by_cases hpart : candidate[position] = root[position]
      · rw [if_neg (not_not_intro hpart), ih (by omega) (by omega) (by omega), hpart,
          beq_self_eq_true, Bool.true_and]
      · rw [if_pos hpart, beq_eq_false_iff_ne.mpr (Ne.symm hpart), Bool.false_and]

theorem comparePrefix_all : comparePrefix root candidate (root.length + 1) 0 0 =
    .ok (root.isPrefixOf candidate) :=
  comparePrefix_eq (Nat.zero_le _) (Nat.zero_le _) (by omega)

end Comparison

/-! ## `serveStatic` -/

/-- A response: an error, or the content of a file. -/
inductive StaticReply
  | error (status : ℕ) (message : Bytes)
  | content (file : Location) (content mime : Bytes)
  deriving DecidableEq

/-- The answer to a path that names no file that may be sent. -/
def notFound : StaticReply := .error 404 (lit "资源不存在")

/-- The media type of a file. -/
def mimeOf (candidate : Path) : Bytes :=
  if extension candidate = lit ".html" then lit "text/html; charset=utf-8"
  else if extension candidate = lit ".css" then lit "text/css; charset=utf-8"
  else if extension candidate = lit ".js" then lit "application/javascript; charset=utf-8"
  else lit "text/plain; charset=utf-8"

/-- `serveStatic` with a candidate under the root. -/
def sendFile (env : StaticFiles) (candidate : Path) : StaticReply :=
  if !env.isRegularFile candidate then notFound
  else match env.opened candidate with
    | none => notFound
    | some (file, content) => .content file content (mimeOf candidate)

/-- The path below the public directory. -/
def relativePath (path : Bytes) : Path := if path = lit "/" then lit "index.html" else path.drop 1

/-- `serveStatic` -/
def serveStatic (env : StaticFiles) (publicDirectory : Path) (path : Bytes) :
    Except IteratorFault StaticReply :=
  if (lit "/api/").isPrefixOf path then .ok (.error 404 (lit "接口不存在"))
  -- `substr` throws, and the handler of the route catches
  else if path = [] then .ok (.error 500 (lit "服务器内部错误"))
  else
    let relative := relativePath path
    if relative = [] || relative.contains 92 || relative.contains 0 then .ok notFound
    else if (components relative).any fun part => part == lit "." || part == lit ".." then
      .ok notFound
    else match env.weaklyCanonical publicDirectory with
      | none => .ok notFound
      | some root => match env.weaklyCanonical (appended root relative) with
        | none => .ok notFound
        | some candidate => do
            if ← comparePrefix (components root) (components candidate)
                ((components root).length + 1) 0 0 then
              .ok (sendFile env candidate)
            else .ok notFound

section Containment

variable {env : StaticFiles} {publicDirectory root candidate : Path} {path content mime : Bytes}
  {file : Location}

theorem isRegularFile_iff : env.isRegularFile candidate = true ↔
    ∃ location contents, env.files.locate candidate = some location ∧
      env.files.tree location = some (.regular contents) := by
  unfold StaticFiles.isRegularFile
  constructor
  · intro h
    split at h
    · rename_i contents hnode
      obtain ⟨location, hlocated, hregular⟩ := Option.bind_eq_some_iff.mp hnode
      exact ⟨location, contents, hlocated, hregular⟩
    · cases h
  · rintro ⟨location, contents, hlocated, hregular⟩
    rw [hlocated, Option.bind_some, hregular]

/-- What is sent is a regular file, and the candidate leads to it. -/
theorem sendFile_content (h : sendFile env candidate = .content file content mime) :
    env.files.locate candidate = some file ∧ env.files.tree file = some (.regular content) := by
  unfold sendFile at h
  by_cases hregular : env.isRegularFile candidate = true
  · obtain ⟨location, contents, hlocated, hnode⟩ := isRegularFile_iff.mp hregular
    simp only [hregular, Bool.not_true, Bool.false_eq_true, if_false, StaticFiles.opened, hlocated,
      hnode] at h
    by_cases hreadable : env.readable location = true
    · rw [if_pos hreadable] at h
      obtain ⟨rfl, rfl, -⟩ := StaticReply.content.inj h
      exact ⟨hlocated, hnode⟩
    · rw [if_neg hreadable] at h
      cases h
  · rw [if_pos (by simpa using hregular)] at h
    cases h

/-- There is always a response, and one with content has come through every check. -/
theorem serveStatic_checked (env : StaticFiles) (publicDirectory : Path) (path : Bytes) :
    ∃ reply, serveStatic env publicDirectory path = .ok reply ∧
      ∀ file content mime, reply = .content file content mime →
        ¬ lit "/api/" <+: path ∧
        ∃ root relative candidate, env.weaklyCanonical publicDirectory = some root ∧
          env.weaklyCanonical (appended root relative) = some candidate ∧
          components root <+: components candidate ∧
          sendFile env candidate = .content file content mime := by
  -- an error is a response without content
  have hrefused : ∀ status message, ∃ reply,
      (.ok (.error status message) : Except IteratorFault StaticReply) = .ok reply ∧
        ∀ file content mime, reply = .content file content mime →
          ¬ lit "/api/" <+: path ∧
          ∃ root relative candidate, env.weaklyCanonical publicDirectory = some root ∧
            env.weaklyCanonical (appended root relative) = some candidate ∧
            components root <+: components candidate ∧
            sendFile env candidate = .content file content mime :=
    fun status message => ⟨_, rfl, nofun⟩
  unfold serveStatic
  split
  · exact hrefused _ _
  rename_i hapi
  rw [List.isPrefixOf_iff_prefix] at hapi
  split
  · exact hrefused _ _
  dsimp only
  split
  · exact hrefused _ _
  split
  · exact hrefused _ _
  split
  · exact hrefused _ _
  rename_i root hroot
  split
  · exact hrefused _ _
  rename_i candidate hcandidate
  rw [comparePrefix_all]
  cases hinside : (components root).isPrefixOf (components candidate) with
  | false => exact hrefused _ _
  | true =>
      refine ⟨_, rfl, ?_⟩
      intro file content mime hsent
      exact ⟨hapi, root, _, candidate, hroot, hcandidate, List.isPrefixOf_iff_prefix.mp hinside,
        hsent⟩

/-- What is sent lies under the public directory.  For every path of a request and every file
system, the comparison of the components stays within both sequences; and if content is sent, the
path is none of the API, and the components of the canonical public directory are a prefix of those
of the canonical path of the file, a proper one for a directory. -/
theorem serveStatic_contained (env : StaticFiles) (hcanonical : env.Canonicalizes)
    (publicDirectory : Path) (path : Bytes) :
    ∃ reply, serveStatic env publicDirectory path = .ok reply ∧
      ∀ file content mime, reply = .content file content mime →
        ¬ lit "/api/" <+: path ∧ env.files.tree file = some (.regular content) ∧
        ∃ root, env.weaklyCanonical publicDirectory = some root ∧
          components root <+: components (pathOf file) ∧
          (env.files.IsDirectory publicDirectory → components root ≠ components (pathOf file)) := by
  obtain ⟨reply, hreply, hchecked⟩ := serveStatic_checked env publicDirectory path
  refine ⟨reply, hreply, ?_⟩
  intro file content mime hcontent
  obtain ⟨hapi, root, relative, candidate, hroot, hcandidate, hprefix, hsent⟩ :=
    hchecked file content mime hcontent
  obtain ⟨hlocated, hregular⟩ := sendFile_content hsent
  -- the candidate is the canonical path of the file that it leads to
  obtain rfl := hcanonical _ _ hcandidate file (Or.inr hlocated)
  refine ⟨hapi, hregular, root, hroot, hprefix, ?_⟩
  rintro ⟨location, hpublic, hdirectory⟩ heq
  obtain rfl := hcanonical _ _ hroot location (Or.inl hpublic)
  have hpublic' := FileSystem.locate_canonical hpublic
  have hlocated' := FileSystem.locate_canonical hlocated
  have hsame : location = file := components_injective hpublic'.ordinary hlocated'.ordinary heq
  subst hsame
  rw [hdirectory] at hregular
  cases hregular

end Containment

/-- `weakly_canonical` where the path leads to a file. -/
def canonicalPath (files : FileSystem) (path : Path) : Option Path :=
  (files.locate path).map pathOf

/-- The path of a canonical location is its own canonical path. -/
theorem canonicalizes_canonicalPath (files : FileSystem) (readable : Location → Bool) :
    StaticFiles.Canonicalizes ⟨files, canonicalPath files, readable⟩ := by
  intro path result hresult location hlocation
  obtain ⟨found, hfound, rfl⟩ := Option.map_eq_some_iff.mp hresult
  have hagain := FileSystem.locate_pathOf (FileSystem.locate_canonical hfound)
  rcases hlocation with hpath | hself
  · rw [Option.some.inj (hfound.symm.trans hpath)]
  · rw [Option.some.inj (hagain.symm.trans hself)]

/-- A public directory with a page and a link, and a file outside that the link leads to. -/
def publicFiles : FileSystem where
  tree location :=
    if location = [] ∨ location = [lit "srv"] ∨ location = [lit "srv", lit "public"] then
      some .directory
    else if location = [lit "srv", lit "public", lit "index.html"] then
      some (.regular (lit "warehouse"))
    else if location = [lit "srv", lit "public", lit "key"] then some (.link (lit "../key.pem"))
    else if location = [lit "srv", lit "key.pem"] then some (.regular (lit "secret"))
    else none
  workingDirectory := [lit "srv"]
  root := by decide
  canonical := by
    show CanonicalDirectory _ ([] ++ [lit "srv"])
    exact .entry .root ⟨by decide, by decide, by decide, by decide⟩ (by decide)

/-- A server over these files. -/
def publicServer : StaticFiles := ⟨publicFiles, canonicalPath publicFiles, fun _ => true⟩

/-- The page is sent, and the file behind the link is not. -/
example : serveStatic publicServer (lit "public") (lit "/") =
    .ok (.content [lit "srv", lit "public", lit "index.html"] (lit "warehouse")
      (lit "text/html; charset=utf-8")) := by decide
example : serveStatic publicServer (lit "public") (lit "/key") = .ok notFound := by decide
example : serveStatic publicServer (lit "public") (lit "//srv/key.pem") = .ok notFound := by decide

theorem serveStatic_contained_page :
    ∃ root, publicServer.weaklyCanonical (lit "public") = some root ∧
      components root <+:
        components (pathOf [lit "srv", lit "public", lit "index.html"]) ∧
      components root ≠ components (pathOf [lit "srv", lit "public", lit "index.html"]) := by
  obtain ⟨reply, hreply, hcontained⟩ := serveStatic_contained publicServer
    (canonicalizes_canonicalPath publicFiles _) (lit "public") (lit "/")
  have hpage : serveStatic publicServer (lit "public") (lit "/") =
      .ok (.content [lit "srv", lit "public", lit "index.html"] (lit "warehouse")
        (lit "text/html; charset=utf-8")) := by decide
  obtain ⟨-, -, root, hroot, hprefix, hproper⟩ :=
    hcontained _ _ _ (Except.ok.inj (hreply.symm.trans hpage))
  exact ⟨root, hroot, hprefix, hproper ⟨[lit "srv", lit "public"], by decide, by decide⟩⟩

end Warehouse.Api
