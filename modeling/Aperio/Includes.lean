import Mathlib.Data.List.Forall2
import Aperio.Layers
import Aperio.Results

/-!
# Files that include files

`loader.rs` of the config: `read_tree` reads a file and everything it includes
into one mapping, included files first and the file itself over them.
`chain` are the files from the root to the one being read, and a file that is in
it is a cycle; `visited` are all that were read, for the watcher.

Disk, template variables, YAML and the schema check are parameters
(`IncludeFiles`). The includes make a graph: `IncludeWalk` is a way through it
from the root, of which the loader asks that it repeats no file and is not too
long, and reads the file at its end.
-/

namespace Aperio

variable {Path κ α : Type} [DecidableEq Path] [DecidableEq κ]

/-! ## The loader -/

/-- What the loader sees of a value that is not a mapping: its entries, where
it is a sequence, are the paths among them. -/
inductive IncludeValue where
  | text (path : String)
  | sequence (items : List (Option String))
  | other
deriving Repr, DecidableEq

structure IncludeFiles (Path κ α : Type) where
  canonicalize : Path → Path
  display : Path → String
  /-- `path.parent().join(entry)`. -/
  child : Path → String → Path
  readToString : Path → Except String String
  expandVars : String → Except String String
  parseDocument : String → Except String (YamlMapping κ α)
  value : α → IncludeValue
  /-- `Mapping::remove`. -/
  remove : String → YamlMapping κ α → YamlMapping κ α
  check : YamlMapping κ α → String → Except String Unit

/-- `MAX_INCLUDE_DEPTH`. -/
def maxIncludeDepth : Nat := 5

namespace IncludeFiles

variable (files : IncludeFiles Path κ α)

/-- What `include:` says. -/
def includes (path : Path) (doc : YamlMapping κ α) : Except String (List String) :=
  match doc.get (.text "include") with
  | none => .ok []
  | some (.plain v) =>
    match files.value v with
    | .text one => .ok [one]
    | .sequence items =>
      if items.all (·.isSome) then .ok (items.filterMap id)
      else .error (files.display path ++ ": every `include:` entry must be a file path")
    | .other =>
      .error (files.display path ++ ": `include:` must be a file path or a list of them")
  | some (.mapping _) =>
    .error (files.display path ++ ": `include:` must be a file path or a list of them")

/-- One file: what it includes, and what else it says. -/
def document (path : Path) : Except String (List String × YamlMapping κ α) := do
  let raw ← (files.readToString path).mapError fun e =>
    "cannot read " ++ files.display path ++ ": " ++ e
  let raw ← (files.expandVars raw).mapError fun e => files.display path ++ ": " ++ e
  let doc ← (files.parseDocument raw).mapError fun e => files.display path ++ ": " ++ e
  let entries ← files.includes path doc
  let doc := files.remove "include" doc
  files.check doc (files.display path)
  pure (entries, doc)

/-- The mapping, and `chain` and `visited` as they are left. -/
structure Read (Path κ α : Type) where
  merged : YamlMapping κ α
  chain : List Path
  visited : List Path

def cycleError (path : Path) : String :=
  files.display path ++ " is included in a cycle; each file may appear once in a chain"

def depthError (path : Path) : String :=
  "include chain is deeper than " ++ toString maxIncludeDepth ++ " files at " ++ files.display path

/-- The loop over the includes of a file, each read by `child`. -/
def layEntries (child : String → List Path → List Path → Except String (Read Path κ α))
    (entries : List String) (r : Read Path κ α) : Except String (Read Path κ α) :=
  entries.foldlM (fun r entry => do
    let c ← child entry r.chain r.visited
    pure { merged := r.merged.merge c.merged, chain := c.chain, visited := c.visited }) r

def readWithIncludes (path : Path) (depth : Nat) (chain visited : List Path) :
    Except String (Read Path κ α) :=
  let canonical := files.canonicalize path
  if canonical ∈ chain then .error (files.cycleError path)
  else if maxIncludeDepth < depth then .error (files.depthError path)
  else do
    let chain := chain ++ [canonical]
    let visited := if canonical ∈ visited then visited else visited ++ [canonical]
    let (entries, doc) ← files.document path
    let r ← layEntries
      (fun entry chain visited =>
        readWithIncludes (files.child path entry) (depth + 1) chain visited)
      entries { merged := .nil, chain := chain, visited := visited }
    pure { merged := r.merged.merge doc, chain := r.chain.dropLast, visited := r.visited }
termination_by maxIncludeDepth + 1 - depth

def readTree (path : Path) : Except String (YamlMapping κ α × List Path) :=
  (files.readWithIncludes path 0 [] []).map fun r => (r.merged, r.visited)

end IncludeFiles

/-! ## Ways through the includes -/

/-- A way from `path`, reached through `chain`, to `last`, reached through
`above`. -/
inductive IncludeWalk (files : IncludeFiles Path κ α) :
    List Path → Path → List Path → Path → Prop
  | here (chain : List Path) (path : Path) : IncludeWalk files chain path chain path
  | down {chain above : List Path} {path last : Path} {entries : List String}
      {doc : YamlMapping κ α} {entry : String} :
      files.document path = .ok (entries, doc) → entry ∈ entries →
      IncludeWalk files (chain ++ [files.canonicalize path]) (files.child path entry) above last →
      IncludeWalk files chain path above last

/-- A file may be read where a way ends. -/
def IncludeFiles.Readable (files : IncludeFiles Path κ α) (above : List Path) (last : Path) :
    Prop :=
  files.canonicalize last ∉ above ∧ above.length ≤ maxIncludeDepth ∧
    ∃ r, files.document last = .ok r

namespace IncludeFiles

variable {files : IncludeFiles Path κ α}

/-- What reading along the ways `W` comes to: every way is good and its file is
among the visited, or one is not. -/
def Explores (files : IncludeFiles Path κ α) (chain visited : List Path)
    (W : List Path → Path → Prop) : Except String (Read Path κ α) → Prop
  | .ok r => r.chain = chain ∧ (∀ above last, W above last → files.Readable above last) ∧
    (visited.Nodup → r.visited.Nodup) ∧
    ∀ q, q ∈ r.visited ↔ q ∈ visited ∨ ∃ above last, W above last ∧ files.canonicalize last = q
  | .error _ => ∃ above last, W above last ∧ ¬ files.Readable above last

omit [DecidableEq Path] in
theorem layEntries_cons
    (child : String → List Path → List Path → Except String (Read Path κ α)) (entry : String)
    (entries : List String) (r : Read Path κ α) :
    layEntries child (entry :: entries) r =
      (child entry r.chain r.visited).bind fun c => layEntries child entries
        { merged := r.merged.merge c.merged, chain := c.chain, visited := c.visited } := by
  rw [layEntries, List.foldlM_cons]
  cases child entry r.chain r.visited <;> rfl

omit [DecidableEq Path] in
/-- What comes of the entries comes of each. -/
theorem explores_layEntries {chain : List Path}
    {child : String → List Path → List Path → Except String (Read Path κ α)}
    {W : String → List Path → Path → Prop} {entries : List String}
    (h : ∀ entry ∈ entries, ∀ visited,
      files.Explores chain visited (W entry) (child entry chain visited))
    (merged : YamlMapping κ α) (visited : List Path) :
    files.Explores chain visited (fun above last => ∃ entry ∈ entries, W entry above last)
      (layEntries child entries { merged := merged, chain := chain, visited := visited }) := by
  induction entries generalizing merged visited with
  | nil =>
      refine ⟨rfl, nofun, id, fun q => ?_⟩
      constructor
      · exact .inl
      · rintro (hq | ⟨_, _, ⟨_, hentry, _⟩, _⟩)
        · exact hq
        · cases hentry
  | cons entry entries ih =>
      have hfirst := h entry (List.mem_cons_self ..) visited
      rw [layEntries_cons]
      dsimp only
      cases hread : child entry chain visited with
      | error e =>
          rw [hread] at hfirst
          obtain ⟨above, last, hwalk, hbad⟩ := hfirst
          exact ⟨above, last, ⟨entry, List.mem_cons_self .., hwalk⟩, hbad⟩
      | ok c =>
          rw [hread] at hfirst
          obtain ⟨hchain, hgood, hnodup, hmem⟩ := hfirst
          have hrest := ih (fun e he => h e (List.mem_cons_of_mem _ he))
            (merged.merge c.merged) c.visited
          rw [← hchain] at hrest ⊢
          simp only [Except.bind]
          cases hlaid : layEntries child entries
            { merged := merged.merge c.merged, chain := c.chain, visited := c.visited } with
          | error e =>
              rw [hlaid] at hrest
              obtain ⟨above, last, ⟨e', he', hwalk⟩, hbad⟩ := hrest
              exact ⟨above, last, ⟨e', List.mem_cons_of_mem _ he', hwalk⟩, hbad⟩
          | ok r =>
              rw [hlaid] at hrest
              obtain ⟨hchain', hgood', hnodup', hmem'⟩ := hrest
              refine ⟨hchain', ?_, fun hv => hnodup' (hnodup hv), fun q => ?_⟩
              · rintro above last ⟨e', he', hwalk⟩
                rcases List.mem_cons.mp he' with rfl | he'
                · exact hgood above last hwalk
                · exact hgood' above last ⟨e', he', hwalk⟩
              · rw [hmem', hmem]
                constructor
                · rintro ((hq | ⟨above, last, hwalk, hq⟩) | ⟨above, last, ⟨e', he', hwalk⟩, hq⟩)
                  · exact .inl hq
                  · exact .inr ⟨above, last, ⟨entry, List.mem_cons_self .., hwalk⟩, hq⟩
                  · exact .inr ⟨above, last, ⟨e', List.mem_cons_of_mem _ he', hwalk⟩, hq⟩
                · rintro (hq | ⟨above, last, ⟨e', he', hwalk⟩, hq⟩)
                  · exact .inl (.inl hq)
                  · rcases List.mem_cons.mp he' with rfl | he'
                    · exact .inl (.inr ⟨above, last, hwalk, hq⟩)
                    · exact .inr ⟨above, last, ⟨e', he', hwalk⟩, hq⟩

omit [DecidableEq Path] in
/-- A way is the file itself, or goes on through one of its entries. -/
theorem walk_iff {path last : Path} {chain above : List Path} {entries : List String}
    {doc : YamlMapping κ α} (h : files.document path = .ok (entries, doc)) :
    IncludeWalk files chain path above last ↔ (above = chain ∧ last = path) ∨
      ∃ entry ∈ entries, IncludeWalk files (chain ++ [files.canonicalize path])
        (files.child path entry) above last := by
  constructor
  · intro hwalk
    cases hwalk with
    | here => exact .inl ⟨rfl, rfl⟩
    | down hdocument hentry hrest =>
        obtain ⟨rfl, rfl⟩ := Prod.mk.inj (Except.ok.inj (h.symm.trans hdocument))
        exact .inr ⟨_, hentry, hrest⟩
  · rintro (⟨rfl, rfl⟩ | ⟨entry, hentry, hrest⟩)
    · exact .here _ _
    · exact .down h hentry hrest

/-- A file over what came of its entries. -/
theorem explores_file {path : Path} {chain visited : List Path} {entries : List String}
    {doc : YamlMapping κ α} (hdocument : files.document path = .ok (entries, doc))
    (hhere : files.Readable chain path) {read : Except String (Read Path κ α)}
    (h : files.Explores (chain ++ [files.canonicalize path])
      (if files.canonicalize path ∈ visited then visited
        else visited ++ [files.canonicalize path])
      (fun above last => ∃ entry ∈ entries, IncludeWalk files
        (chain ++ [files.canonicalize path]) (files.child path entry) above last) read) :
    files.Explores chain visited (IncludeWalk files chain path) (read.bind fun r =>
      .ok { merged := r.merged.merge doc, chain := r.chain.dropLast, visited := r.visited }) := by
  cases read with
  | error e =>
      obtain ⟨above, last, hwalk, hbad⟩ := h
      exact ⟨above, last, (walk_iff hdocument).mpr (.inr hwalk), hbad⟩
  | ok r =>
      obtain ⟨hchain, hgood, hnodup, hmem⟩ := h
      refine ⟨?_, ?_, fun hv => hnodup ?_, fun q => ?_⟩
      · rw [hchain, List.dropLast_concat]
      · intro above last hwalk
        rcases (walk_iff hdocument).mp hwalk with ⟨rfl, rfl⟩ | hrest
        · exact hhere
        · exact hgood above last hrest
      · split
        · exact hv
        · rename_i hnew
          exact List.nodup_append.mpr ⟨hv, List.nodup_singleton _, fun x hx y hy heq =>
            hnew (List.mem_singleton.mp hy ▸ heq ▸ hx)⟩
      · have hvisited : q ∈ (if files.canonicalize path ∈ visited then visited
            else visited ++ [files.canonicalize path]) ↔
            q ∈ visited ∨ files.canonicalize path = q := by
          split
          · rename_i hold
            exact ⟨.inl, fun h => h.elim id fun heq => heq ▸ hold⟩
          · rw [List.mem_append, List.mem_singleton, eq_comm (a := q)]
        rw [hmem, hvisited, or_assoc]
        refine or_congr_right ?_
        constructor
        · rintro (hq | ⟨above, last, hrest, hq⟩)
          · exact ⟨chain, path, .here _ _, hq⟩
          · exact ⟨above, last, (walk_iff hdocument).mpr (.inr hrest), hq⟩
        · rintro ⟨above, last, hwalk, hq⟩
          rcases (walk_iff hdocument).mp hwalk with ⟨rfl, rfl⟩ | hrest
          · exact .inl hq
          · exact .inr ⟨above, last, hrest, hq⟩

/-- By induction on the levels that are left: a file is read exactly when every
way from it is good. -/
theorem explores (n : Nat) : ∀ (path : Path) (chain visited : List Path),
    chain.length + n = maxIncludeDepth + 1 →
    files.Explores chain visited (IncludeWalk files chain path)
      (files.readWithIncludes path chain.length chain visited) := by
  induction n with
  | zero =>
      intro path chain visited hlen
      have hdeep : maxIncludeDepth < chain.length := by omega
      have hbad : ¬ files.Readable chain path := fun hread => by
        have := hread.2.1
        omega
      rw [readWithIncludes]
      dsimp only
      split
      · exact ⟨chain, path, .here _ _, hbad⟩
      · exact ⟨chain, path, .here _ _, hbad⟩
  | succ n ih =>
      intro path chain visited hlen
      rw [readWithIncludes]
      dsimp only
      split
      · rename_i hcycle
        exact ⟨chain, path, .here _ _, fun hread => hread.1 hcycle⟩
      · rename_i hfresh
        rw [if_neg (by omega)]
        cases hdocument : files.document path with
        | error e =>
            refine ⟨chain, path, .here _ _, fun hread => ?_⟩
            obtain ⟨-, -, r, hr⟩ := hread
            rw [hdocument] at hr
            cases hr
        | ok d =>
            obtain ⟨entries, doc⟩ := d
            have hhere : files.Readable chain path :=
              ⟨hfresh, by omega, (entries, doc), hdocument⟩
            have hlength : (chain ++ [files.canonicalize path]).length = chain.length + 1 := by
              rw [List.length_append, List.length_singleton]
            refine explores_file hdocument hhere (explores_layEntries ?_ .nil _)
            intro entry _ visited
            have hentry := ih (files.child path entry) (chain ++ [files.canonicalize path]) visited
              (by omega)
            rwa [hlength] at hentry

/-! ## A file alone -/

/-- `r` leaves the chain as it was, and `alone` comes to the same mapping. -/
def SameAlone (chain chain' : List Path) (r : Read Path κ α)
    (alone : List Path → Except String (Read Path κ α)) : Prop :=
  r.chain = chain ∧ ∀ visited', ∃ v,
    alone visited' = .ok { merged := r.merged, chain := chain', visited := v }

omit [DecidableEq Path] in
/-- The entries one after the other: each comes to a mapping of its own, and
they are merged in the order written. -/
theorem layEntries_same {chain chain' : List Path}
    {child : String → List Path → List Path → Except String (Read Path κ α)}
    (child' : String → List Path → List Path → Except String (Read Path κ α))
    {entries : List String}
    (h : ∀ entry ∈ entries, ∀ visited c, child entry chain visited = .ok c →
      SameAlone chain chain' c (child' entry chain'))
    {merged : YamlMapping κ α} {visited : List Path} {r : Read Path κ α}
    (hr : layEntries child entries { merged := merged, chain := chain, visited := visited } = .ok r) :
    SameAlone chain chain' r (fun visited' => layEntries child' entries
      { merged := merged, chain := chain', visited := visited' }) ∧
    ∃ fragments, r.merged = fragments.foldl YamlMapping.merge merged ∧
      List.Forall₂ (fun entry fragment => ∀ visited', ∃ v, child' entry chain' visited' =
        .ok { merged := fragment, chain := chain', visited := v }) entries fragments := by
  induction entries generalizing merged visited with
  | nil =>
      obtain rfl := Except.ok.inj hr
      exact ⟨⟨rfl, fun visited' => ⟨visited', rfl⟩⟩, [], rfl, .nil⟩
  | cons entry entries ih =>
      rw [layEntries_cons] at hr
      cases hc : child entry chain visited with
      | error e =>
          rw [hc] at hr
          cases hr
      | ok c =>
          rw [hc] at hr
          obtain ⟨hchain, halone⟩ := h entry (List.mem_cons_self ..) visited c hc
          simp only [Except.bind] at hr
          rw [hchain] at hr
          obtain ⟨⟨hkept, hrest⟩, fragments, hmerged, hfragments⟩ :=
            ih (fun e he => h e (List.mem_cons_of_mem _ he)) hr
          refine ⟨⟨hkept, fun visited' => ?_⟩, c.merged :: fragments, hmerged,
            .cons halone hfragments⟩
          obtain ⟨v, hv⟩ := halone visited'
          obtain ⟨w, hw⟩ := hrest v
          refine ⟨w, ?_⟩
          dsimp only
          rw [layEntries_cons, hv]
          exact hw

/-- A file that may be read. -/
theorem readWithIncludes_document {path : Path} {depth : Nat} {chain : List Path}
    {entries : List String} {doc : YamlMapping κ α} (hfresh : files.canonicalize path ∉ chain)
    (hdepth : depth ≤ maxIncludeDepth) (hdocument : files.document path = .ok (entries, doc))
    (visited : List Path) :
    files.readWithIncludes path depth chain visited =
      layEntries (fun entry chain visited =>
        files.readWithIncludes (files.child path entry) (depth + 1) chain visited) entries
        { merged := .nil
          chain := chain ++ [files.canonicalize path]
          visited := if files.canonicalize path ∈ visited then visited
            else visited ++ [files.canonicalize path] } >>= fun r =>
      .ok { merged := r.merged.merge doc, chain := r.chain.dropLast, visited := r.visited } := by
  rw [readWithIncludes]
  dsimp only
  rw [if_neg hfresh, if_neg (Nat.not_lt.mpr hdepth), hdocument]
  rfl

/-- What `read_with_includes` answers is answered for a file that may be read. -/
theorem of_readWithIncludes {path : Path} {depth : Nat} {chain visited : List Path}
    {r : Read Path κ α} (hr : files.readWithIncludes path depth chain visited = .ok r) :
    files.canonicalize path ∉ chain ∧ depth ≤ maxIncludeDepth ∧
      ∃ entries doc, files.document path = .ok (entries, doc) := by
  rw [readWithIncludes] at hr
  dsimp only at hr
  split at hr
  · cases hr
  · rename_i hfresh
    split at hr
    · cases hr
    · rename_i hdepth
      refine ⟨hfresh, Nat.not_lt.mp hdepth, ?_⟩
      cases hdocument : files.document path with
      | error e =>
          rw [hdocument] at hr
          cases hr
      | ok d => exact ⟨d.1, d.2, rfl⟩

/-- A file that is read under some chain is read the same under a shorter one,
at a smaller depth, whatever was visited before. -/
theorem readWithIncludes_same (n : Nat) : ∀ (path : Path) (depth depth' : Nat)
    (chain chain' visited : List Path) (r : Read Path κ α),
    depth + n = maxIncludeDepth + 1 → depth' ≤ depth → (∀ q ∈ chain', q ∈ chain) →
    files.readWithIncludes path depth chain visited = .ok r →
    SameAlone chain chain' r (files.readWithIncludes path depth' chain') := by
  induction n with
  | zero =>
      intro path depth depth' chain chain' visited r hlen _ _ hr
      have := (of_readWithIncludes hr).2.1
      omega
  | succ n ih =>
      intro path depth depth' chain chain' visited r hlen hdepth hsub hr
      obtain ⟨hfresh, hle, entries, doc, hdocument⟩ := of_readWithIncludes hr
      have hfresh' : files.canonicalize path ∉ chain' := fun hmem => hfresh (hsub _ hmem)
      rw [readWithIncludes_document hfresh hle hdocument] at hr
      obtain ⟨read, hread, hdone⟩ := bind_eq_ok.mp hr
      obtain rfl := Except.ok.inj hdone
      have hsub' : ∀ q ∈ chain' ++ [files.canonicalize path],
          q ∈ chain ++ [files.canonicalize path] := by
        intro q hq
        rcases List.mem_append.mp hq with hq | hq
        · exact List.mem_append_left _ (hsub q hq)
        · exact List.mem_append_right _ hq
      obtain ⟨⟨hkept, halone⟩, -⟩ := layEntries_same
        (fun entry chain visited =>
          files.readWithIncludes (files.child path entry) (depth' + 1) chain visited)
        (fun entry _ visited c hc => ih (files.child path entry) (depth + 1) (depth' + 1) _ _
          visited c (by omega) (by omega) hsub' hc) hread
      refine ⟨?_, fun visited' => ?_⟩
      · dsimp only
        rw [hkept, List.dropLast_concat]
      · obtain ⟨v, hv⟩ := halone (if files.canonicalize path ∈ visited' then visited'
          else visited' ++ [files.canonicalize path])
        refine ⟨v, ?_⟩
        rw [readWithIncludes_document hfresh' (hdepth.trans hle) hdocument]
        refine bind_eq_ok.mpr ⟨_, hv, ?_⟩
        dsimp only
        rw [List.dropLast_concat]

theorem readTree_eq_ok {path : Path} {m : YamlMapping κ α} {seen : List Path} :
    files.readTree path = .ok (m, seen) ↔ ∃ chain, files.readWithIncludes path 0 [] [] =
      .ok { merged := m, chain := chain, visited := seen } := by
  unfold readTree
  cases files.readWithIncludes path 0 [] [] with
  | error e => exact ⟨nofun, nofun⟩
  | ok r =>
      constructor
      · intro h
        obtain ⟨rfl, rfl⟩ := Prod.mk.inj (Except.ok.inj h)
        exact ⟨r.chain, rfl⟩
      · rintro ⟨chain, h⟩
        obtain rfl := Except.ok.inj h
        rfl

end IncludeFiles

/-! ## What is read -/

variable {files : IncludeFiles Path κ α}

/-- **A tree of files is read exactly when every way through it is good**: none
comes back to a file that is on it, none is of more than five steps, and the
file at its end can be read; what is watched then are the files at the ends of
the ways, each once. -/
theorem read_tree_iff (path : Path) :
    ((∃ m seen, files.readTree path = .ok (m, seen)) ↔
      ∀ above last, IncludeWalk files [] path above last → files.Readable above last) ∧
    ∀ m seen, files.readTree path = .ok (m, seen) → seen.Nodup ∧ ∀ q, q ∈ seen ↔
      ∃ above last, IncludeWalk files [] path above last ∧ files.canonicalize last = q := by
  have h : files.Explores [] [] (IncludeWalk files [] path)
      (files.readWithIncludes path 0 [] []) :=
    IncludeFiles.explores (maxIncludeDepth + 1) path [] [] (Nat.zero_add _)
  cases hread : files.readWithIncludes path 0 [] [] with
  | error e =>
      rw [hread] at h
      obtain ⟨above, last, hwalk, hbad⟩ := h
      have hnone : ∀ m seen, files.readTree path ≠ .ok (m, seen) := by
        intro m seen hm
        obtain ⟨chain, hm⟩ := IncludeFiles.readTree_eq_ok.mp hm
        rw [hread] at hm
        cases hm
      refine ⟨⟨fun ⟨m, seen, hm⟩ => absurd hm (hnone m seen), fun hgood => ?_⟩,
        fun m seen hm => absurd hm (hnone m seen)⟩
      exact absurd (hgood above last hwalk) hbad
  | ok r =>
      rw [hread] at h
      obtain ⟨-, hgood, hnodup, hmem⟩ := h
      refine ⟨⟨fun _ => hgood, fun _ => ⟨r.merged, r.visited, ?_⟩⟩, fun m seen hm => ?_⟩
      · exact IncludeFiles.readTree_eq_ok.mpr ⟨r.chain, hread⟩
      · obtain ⟨chain, hm⟩ := IncludeFiles.readTree_eq_ok.mp hm
        rw [hread] at hm
        obtain rfl := Except.ok.inj hm
        refine ⟨hnodup .nil, fun q => (hmem q).trans ?_⟩
        exact ⟨fun hq => hq.resolve_left nofun, .inr⟩

/-- **A fragment means the same wherever it is included from**: a file is read
as what each file it includes is read as by itself, merged in the order
written, with what the file itself says over them. -/
theorem read_tree_merges {path : Path} {m : YamlMapping κ α} {seen : List Path}
    (h : files.readTree path = .ok (m, seen)) :
    ∃ entries doc fragments, files.document path = .ok (entries, doc) ∧
      List.Forall₂ (fun entry fragment => ∃ seen',
        files.readTree (files.child path entry) = .ok (fragment, seen')) entries fragments ∧
      m = (fragments.foldl YamlMapping.merge .nil).merge doc := by
  obtain ⟨chain, hread⟩ := IncludeFiles.readTree_eq_ok.mp h
  obtain ⟨hfresh, hle, entries, doc, hdocument⟩ := IncludeFiles.of_readWithIncludes hread
  rw [IncludeFiles.readWithIncludes_document hfresh hle hdocument] at hread
  obtain ⟨read, hread, hdone⟩ := bind_eq_ok.mp hread
  obtain ⟨-, fragments, hmerged, hfragments⟩ := IncludeFiles.layEntries_same
    (fun entry chain visited =>
      files.readWithIncludes (files.child path entry) 0 chain visited)
    (fun entry _ visited c hc => IncludeFiles.readWithIncludes_same maxIncludeDepth
      (files.child path entry) 1 0 _ [] visited c (by decide) (Nat.zero_le 1) nofun hc) hread
  refine ⟨entries, doc, fragments, hdocument, hfragments.imp ?_, ?_⟩
  · intro entry fragment halone
    obtain ⟨v, hv⟩ := halone []
    exact ⟨v, IncludeFiles.readTree_eq_ok.mpr ⟨[], hv⟩⟩
  · rw [← hmerged]
    exact congrArg IncludeFiles.Read.merged (Except.ok.inj hdone).symm

/-- Two files, the first of which includes the second. -/
def twoFiles : IncludeFiles String Empty String where
  canonicalize := id
  display := id
  child _ entry := entry
  readToString path := .ok path
  expandVars := .ok
  parseDocument raw := .ok (if raw = "root.yaml" then
      .cons (.text "include") (.plain "shared.yaml") (.cons (.text "target") (.plain "here") .nil)
    else .cons (.text "target") (.plain "there") .nil)
  value := .text
  remove key doc := doc.retain fun k => decide (k ≠ .text key)
  check _ _ := .ok ()

theorem twoFiles_read : twoFiles.readTree "root.yaml" =
    .ok (.cons (.text "target") (.plain "here") .nil, ["root.yaml", "shared.yaml"]) := by
  have hroot : twoFiles.document "root.yaml" =
      .ok (["shared.yaml"], .cons (.text "target") (.plain "here") .nil) := rfl
  have hshared : twoFiles.document "shared.yaml" =
      .ok ([], .cons (.text "target") (.plain "there") .nil) := rfl
  have hread : twoFiles.readWithIncludes "shared.yaml" 1 ["root.yaml"] ["root.yaml"] =
      .ok { merged := .cons (.text "target") (.plain "there") .nil, chain := ["root.yaml"]
            visited := ["root.yaml", "shared.yaml"] } :=
    IncludeFiles.readWithIncludes_document (by decide) (by decide) hshared _
  refine IncludeFiles.readTree_eq_ok.mpr ⟨[], ?_⟩
  rw [IncludeFiles.readWithIncludes_document (by decide) (by decide) hroot]
  refine bind_eq_ok.mpr ⟨{
    merged := .cons (.text "target") (.plain "there") .nil, chain := ["root.yaml"]
    visited := ["root.yaml", "shared.yaml"] }, ?_, rfl⟩
  rw [IncludeFiles.layEntries_cons]
  exact bind_eq_ok.mpr ⟨_, hread, rfl⟩

theorem read_tree_merges_two : ∃ entries doc fragments,
    twoFiles.document "root.yaml" = .ok (entries, doc) ∧
      List.Forall₂ (fun entry fragment => ∃ seen',
        twoFiles.readTree (twoFiles.child "root.yaml" entry) = .ok (fragment, seen'))
        entries fragments ∧
      YamlMapping.cons (.text "target") (.plain "here") .nil =
        (fragments.foldl YamlMapping.merge .nil).merge doc :=
  read_tree_merges twoFiles_read

end Aperio
