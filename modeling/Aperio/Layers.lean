import Mathlib.Data.List.AList
import Mathlib.Data.String.Basic
import Aperio.Text

/-!
# Layers of configuration

`assemble` of `aperio-config` (`layers.rs`): each layer is a YAML mapping, laid
over the ones before it; mappings merge key by key and anything else is
replaced. Beside the merge, `record` writes down which layer set each value,
by its path.

A mapping keeps the order its keys were written in and has no key twice. What
a value other than a mapping holds, and what a key other than a string is, are
parameters, and so are the readers that turn the merged mappings into the
configuration and into a service.
-/

namespace Aperio

/-! ## Documents -/

inductive YamlKey (κ : Type) where
  | text (s : String)
  | other (k : κ)
deriving DecidableEq

mutual

/-- A value: a scalar, a list or the like, or a mapping. -/
inductive Yaml (κ α : Type) where
  | plain (v : α)
  | mapping (m : YamlMapping κ α)

inductive YamlMapping (κ α : Type) where
  | nil
  | cons (key : YamlKey κ) (value : Yaml κ α) (rest : YamlMapping κ α)

end

variable {κ α : Type} [DecidableEq κ]

namespace YamlMapping

def get (key : YamlKey κ) : YamlMapping κ α → Option (Yaml κ α)
  | nil => none
  | cons k value rest => if k = key then some value else rest.get key

/-- Replaces a value in its place, or appends it. -/
def set (key : YamlKey κ) (new : Yaml κ α) : YamlMapping κ α → YamlMapping κ α
  | nil => cons key new nil
  | cons k value rest => if k = key then cons k new rest else cons k value (rest.set key new)

def retain (p : YamlKey κ → Bool) : YamlMapping κ α → YamlMapping κ α
  | nil => nil
  | cons k value rest => if p k then cons k value (rest.retain p) else rest.retain p

def mapValues (f : Yaml κ α → Yaml κ α) : YamlMapping κ α → YamlMapping κ α
  | nil => nil
  | cons k value rest => cons k (f value) (rest.mapValues f)

/-- No key stands twice. -/
def Distinct : YamlMapping κ α → Prop
  | nil => True
  | cons k (.plain _) rest => rest.get k = none ∧ rest.Distinct
  | cons k (.mapping m) rest => rest.get k = none ∧ m.Distinct ∧ rest.Distinct

end YamlMapping

mutual

/-- A value laid over what stands there. -/
def Yaml.laidOver (old : Option (Yaml κ α)) : Yaml κ α → Yaml κ α
  | .plain v => .plain v
  | .mapping incoming =>
    match old with
    | some (.mapping existing) => .mapping (existing.merge incoming)
    | _ => .mapping incoming

/-- Lays a mapping over `base`. -/
def YamlMapping.merge (base : YamlMapping κ α) : YamlMapping κ α → YamlMapping κ α
  | .nil => base
  | .cons key value rest => (base.set key (value.laidOver (base.get key))).merge rest

end

/-! ## Where a value came from -/

/-- Where a value came from, lowest first. -/
inductive ConfigLayer where
  | home
  | loc
  | env
  | cli
deriving DecidableEq

abbrev Sources := AList fun _ : String => ConfigLayer

def extendPath (above key : String) : String :=
  if above = "" then key else above ++ "." ++ key

mutual

/-- The value at a path: a mapping that holds something is gone into. -/
def Yaml.record (layer : ConfigLayer) (path : String) (out : Sources) : Yaml κ α → Sources
  | .plain _ => out.insert path layer
  | .mapping .nil => out.insert path layer
  | .mapping (.cons key value rest) => (YamlMapping.cons key value rest).record layer path out

/-- `record`: every value of a mapping whose keys are strings. -/
def YamlMapping.record (layer : ConfigLayer) (above : String) (out : Sources) :
    YamlMapping κ α → Sources
  | .nil => out
  | .cons (.text key) value rest =>
    rest.record layer above (value.record layer (extendPath above key) out)
  | .cons (.other _) _ rest => rest.record layer above out

end

/-! ## Assembling -/

/-- What a layer above the files writes: keys of the document, and keys of the
one service it describes. -/
structure Overlay (κ α : Type) where
  file : YamlMapping κ α := .nil
  service : YamlMapping κ α := .nil

/-- `Assembled`. -/
structure Assembled (C E : Type) where
  config : C
  service : Option E
  sources : Sources

/-- What the merged mappings are read with. -/
structure ConfigReader (κ α C E : Type) where
  readConfig : YamlMapping κ α → Except String C
  readEntry : YamlMapping κ α → Except String E
  isNull : α → Bool

def serviceKeys : List String :=
  ["target", "serve", "tcp_target", "hostname", "path", "custom_name"]

def envVar (path : String) : String :=
  if path = "log_level" then "LOG_LEVEL"
  else "APERIO_" ++ String.ofList (path.toList.map fun c =>
    if c = '.' ∨ c = '-' then '_' else c.toUpper)

/-- The layers so far: the document, the one service, and the sources. -/
structure Merged (κ α : Type) where
  doc : YamlMapping κ α := .nil
  service : YamlMapping κ α := .nil
  sources : Sources := ∅

/-- One layer over the ones before it; a file describes no service. -/
def Merged.lay (m : Merged κ α) (layer : ConfigLayer) (overlay : Overlay κ α) : Merged κ α where
  doc := m.doc.merge overlay.file
  service := m.service.merge overlay.service
  sources := overlay.service.record layer "service" (overlay.file.record layer "" m.sources)

def mergeLayers (files : List (ConfigLayer × YamlMapping κ α))
    (overlays : List (ConfigLayer × Overlay κ α)) : Merged κ α :=
  let merged := files.foldl (fun m f => m.lay f.1 { file := f.2 }) {}
  overlays.foldl (fun m o => m.lay o.1 o.2) merged

/-- A `services:` entry over `defaults:`. -/
def layEntry (defaults : YamlMapping κ α) : Yaml κ α → Yaml κ α
  | .mapping own => .mapping (defaults.merge own)
  | .plain _ => .mapping defaults

def assemble {C E : Type} (reader : ConfigReader κ α C E)
    (files : List (ConfigLayer × YamlMapping κ α))
    (overlays : List (ConfigLayer × Overlay κ α)) : Except String (Assembled C E) := do
  let merged := mergeLayers files overlays
  let doc := merged.doc.retain fun key =>
    match key with
    | .text k => k != "include" && !startsWith k "x-"
    | .other _ => true
  let defaults := match doc.get (.text "defaults") with
    | some (.mapping m) => m
    | _ => .nil
  let doc := match doc.get (.text "services") with
    | some (.mapping services) =>
      doc.set (.text "services") (.mapping (services.mapValues (layEntry defaults)))
    | _ => doc
  let config ← reader.readConfig doc
  let named (key : String) : Bool :=
    match merged.service.get (.text key) with
    | some (.plain v) => !reader.isNull v
    | some (.mapping _) => true
    | none => false
  if named "target" || named "serve" || named "tcp_target" then
    match reader.readEntry (defaults.merge merged.service) with
    | .ok entry => return ⟨config, some entry, merged.sources⟩
    | .error e =>
      .error ("the service given on the command line or in the environment: " ++ e)
  else
    match serviceKeys.find? named with
    | some key => .error ("`" ++ key ++ "` on the command line or in the environment describes " ++
        "a single service, which needs a target: give one as an argument, or set " ++
        envVar "target" ++ " or " ++ envVar "serve")
    | none => return ⟨config, none, merged.sources⟩

theorem assemble_sources {C E : Type} {reader : ConfigReader κ α C E}
    {files : List (ConfigLayer × YamlMapping κ α)} {overlays : List (ConfigLayer × Overlay κ α)}
    {out : Assembled C E} (h : assemble reader files overlays = .ok out) :
    out.sources = (mergeLayers files overlays).sources := by
  unfold assemble at h
  extract_lets merged doc defaults doc' at h
  cases hconfig : reader.readConfig doc' with
  | error e => rw [hconfig] at h; cases h
  | ok config =>
      rw [hconfig] at h
      dsimp only [bind, Except.bind] at h
      split at h
      · split at h
        · obtain rfl := Except.ok.inj h
          rfl
        · cases h
      · split at h
        · cases h
        · obtain rfl := Except.ok.inj h
          rfl

/-! ## Paths -/

/-- A value that is recorded: anything but a mapping that holds something. -/
def Yaml.IsLeaf : Yaml κ α → Prop
  | .plain _ => True
  | .mapping m => m = .nil

/-- What stands at a path. -/
def Yaml.node : List (YamlKey κ) → Yaml κ α → Option (Yaml κ α)
  | [], v => some v
  | key :: path, .mapping m => (m.get key).bind (Yaml.node path)
  | _ :: _, .plain _ => none

/-- A value has a leaf at a path. -/
def Yaml.LeafAt (v : Yaml κ α) (path : List (YamlKey κ)) : Prop :=
  ∃ leaf, v.node path = some leaf ∧ leaf.IsLeaf

/-- A mapping sets the leaf at a path. -/
def YamlMapping.Sets (m : YamlMapping κ α) (path : List (YamlKey κ)) : Prop :=
  path ≠ [] ∧ (Yaml.mapping m).LeafAt path

/-- A path as it is written, where its keys are strings. -/
def pathText (above : String) : List (YamlKey κ) → Option String
  | [] => some above
  | .text key :: path => pathText (extendPath above key) path
  | .other _ :: _ => none

/-- A mapping sets a leaf whose path is written so. -/
def YamlMapping.Writes (m : YamlMapping κ α) (above text : String) : Prop :=
  ∃ path, m.Sets path ∧ pathText above path = some text

/-- No leaf of one mapping stands above one of the other's. -/
def YamlMapping.Apart (m o : YamlMapping κ α) : Prop :=
  ∀ path path', m.Sets path → o.Sets path' → path <+: path' ∨ path' <+: path → path = path'

section Paths

variable {m o rest : YamlMapping κ α} {key : YamlKey κ} {v w : Yaml κ α}
  {path : List (YamlKey κ)} {layer : ConfigLayer}

theorem leafAt_nil : v.LeafAt [] ↔ v.IsLeaf := by
  constructor
  · rintro ⟨leaf, hnode, hleaf⟩
    obtain rfl := Option.some.inj hnode
    exact hleaf
  · intro hleaf
    exact ⟨v, rfl, hleaf⟩

theorem plain_leafAt {a : α} : (Yaml.plain a : Yaml κ α).LeafAt path ↔ path = [] := by
  cases path with
  | nil => exact iff_of_true ⟨_, rfl, trivial⟩ rfl
  | cons k path =>
      refine iff_of_false ?_ (List.cons_ne_nil _ _)
      rintro ⟨leaf, hnode, -⟩
      cases hnode

/-- Below a key stand the leaves of its value. -/
theorem sets_cons : m.Sets (key :: path) ↔ ∃ v, m.get key = some v ∧ v.LeafAt path := by
  constructor
  · rintro ⟨-, leaf, hnode, hleaf⟩
    obtain ⟨v, hget, hrest⟩ := Option.bind_eq_some_iff.mp hnode
    exact ⟨v, hget, leaf, hrest, hleaf⟩
  · rintro ⟨v, hget, leaf, hrest, hleaf⟩
    exact ⟨List.cons_ne_nil _ _, leaf, Option.bind_eq_some_iff.mpr ⟨v, hget, hrest⟩, hleaf⟩

theorem not_sets_nil : ¬m.Sets [] :=
  fun h => h.1 rfl

theorem empty_not_sets : ¬(YamlMapping.nil : YamlMapping κ α).Sets path := by
  intro h
  cases path with
  | nil => exact not_sets_nil h
  | cons k path =>
      obtain ⟨v, hget, -⟩ := sets_cons.mp h
      cases hget

theorem mapping_leafAt (h : path ≠ []) : (Yaml.mapping m).LeafAt path ↔ m.Sets path :=
  ⟨fun hleaf => ⟨h, hleaf⟩, fun hsets => hsets.2⟩

omit [DecidableEq κ] in
/-- Induction along the entries. -/
theorem YamlMapping.entries_induct {motive : YamlMapping κ α → Prop} (nil : motive .nil)
    (cons : ∀ k value rest, motive rest → motive (.cons k value rest)) : ∀ m, motive m
  | .nil => nil
  | .cons k value rest => cons k value rest (entries_induct nil cons rest)

theorem get_set (new : Yaml κ α) (k : YamlKey κ) :
    (m.set key new).get k = if k = key then some new else m.get k := by
  induction m using YamlMapping.entries_induct with
  | nil =>
      simp only [YamlMapping.set, YamlMapping.get, eq_comm (a := key)]
  | cons k' value rest ih =>
      simp only [YamlMapping.set]
      split
      · rename_i hk
        subst hk
        simp only [YamlMapping.get, eq_comm (a := k)]
        split <;> rfl
      · rename_i hk
        simp only [YamlMapping.get, ih]
        split
        · rename_i hk'
          subst hk'
          rw [if_neg hk]
        · rfl

theorem distinct_cons (h : (YamlMapping.cons key v rest).Distinct) :
    rest.get key = none ∧ rest.Distinct ∧ ∀ m, v = .mapping m → m.Distinct := by
  cases v with
  | plain a => exact ⟨h.1, h.2, fun m hm => by cases hm⟩
  | mapping inner =>
      refine ⟨h.1, h.2.2, fun m hm => ?_⟩
      cases hm
      exact h.2.1

theorem distinct_get (h : m.Distinct) (hget : m.get key = some (.mapping o)) : o.Distinct := by
  induction m using YamlMapping.entries_induct with
  | nil => cases hget
  | cons k value rest ih =>
      obtain ⟨-, hrest, hvalue⟩ := distinct_cons h
      simp only [YamlMapping.get] at hget
      split at hget
      · exact hvalue o (Option.some.inj hget)
      · exact ih hrest hget

/-- What stands under a key after a merge. -/
theorem get_merge (h : o.Distinct) (m : YamlMapping κ α) (k : YamlKey κ) :
    (m.merge o).get k =
      match o.get k with
      | some v => some (v.laidOver (m.get k))
      | none => m.get k := by
  induction o using YamlMapping.entries_induct generalizing m with
  | nil => rfl
  | cons key value rest ih =>
      obtain ⟨hnone, hrest, -⟩ := distinct_cons h
      rw [YamlMapping.merge, ih hrest, get_set]
      simp only [YamlMapping.get]
      by_cases hk : key = k
      · subst hk
        rw [hnone, if_pos rfl, if_pos rfl]
      · rw [if_neg hk, if_neg (Ne.symm hk)]

theorem eq_nil_of_get (h : ∀ k, m.get k = none) : m = .nil := by
  cases m with
  | nil => rfl
  | cons key value rest =>
      have hkey := h key
      simp [YamlMapping.get] at hkey

theorem merge_eq_nil (ho : o.Distinct) : m.merge o = .nil ↔ m = .nil ∧ o = .nil := by
  constructor
  · intro h
    have hget : ∀ k, (m.merge o).get k = none := by
      intro k
      rw [h]
      rfl
    have ho' : o = .nil := by
      refine eq_nil_of_get fun k => ?_
      have hk := hget k
      rw [get_merge ho] at hk
      cases hok : o.get k with
      | none => rfl
      | some v => rw [hok] at hk; cases hk
    refine ⟨?_, ho'⟩
    rw [ho'] at h
    exact h
  · rintro ⟨rfl, rfl⟩
    rfl

/-- Every value has a leaf. -/
theorem exists_leafAt : ∀ v : Yaml κ α, ∃ path, v.LeafAt path
  | .plain _ => ⟨[], _, rfl, trivial⟩
  | .mapping .nil => ⟨[], _, rfl, rfl⟩
  | .mapping (.cons key value rest) => by
      obtain ⟨path, hleaf⟩ := exists_leafAt value
      refine ⟨key :: path, ?_⟩
      rw [mapping_leafAt (List.cons_ne_nil _ _), sets_cons]
      exact ⟨value, by simp [YamlMapping.get], hleaf⟩

/-- A leaf of a merge is a leaf of one of the two. -/
theorem sets_of_sets_merge (ho : o.Distinct) (h : (m.merge o).Sets path) :
    m.Sets path ∨ o.Sets path := by
  induction path generalizing m o with
  | nil => exact absurd h not_sets_nil
  | cons key path ih =>
      obtain ⟨u, hget, hleaf⟩ := sets_cons.mp h
      rw [get_merge ho] at hget
      cases hw : o.get key with
      | none =>
          rw [hw] at hget
          exact Or.inl (sets_cons.mpr ⟨u, hget, hleaf⟩)
      | some w =>
          rw [hw] at hget
          obtain rfl := Option.some.inj hget
          cases w with
          | plain b => exact Or.inr (sets_cons.mpr ⟨_, hw, hleaf⟩)
          | mapping o' =>
              cases hv : m.get key with
              | none =>
                  rw [hv] at hleaf
                  exact Or.inr (sets_cons.mpr ⟨_, hw, hleaf⟩)
              | some v =>
                  rw [hv] at hleaf
                  cases v with
                  | plain a => exact Or.inr (sets_cons.mpr ⟨_, hw, hleaf⟩)
                  | mapping m' =>
                      have ho' := distinct_get ho hw
                      rw [Yaml.laidOver] at hleaf
                      by_cases hpath : path = []
                      · subst hpath
                        have hnil := (merge_eq_nil ho').mp (leafAt_nil.mp hleaf)
                        exact Or.inl (sets_cons.mpr ⟨_, hv, leafAt_nil.mpr hnil.1⟩)
                      · rw [mapping_leafAt hpath] at hleaf
                        rcases ih ho' hleaf with hm | ho
                        · exact Or.inl (sets_cons.mpr ⟨_, hv, hm.2⟩)
                        · exact Or.inr (sets_cons.mpr ⟨_, hw, ho.2⟩)

/-- A value laid over another that has no leaf above or below its own: both keep
their leaves. -/
theorem laidOver_leafAt
    (hmerge : ∀ m o : YamlMapping κ α, m.Apart o → o.Distinct →
      ((m.merge o).Sets path ↔ m.Sets path ∨ o.Sets path))
    (hapart : ∀ p p', v.LeafAt p → w.LeafAt p' → p <+: p' ∨ p' <+: p → p = p')
    (hw : ∀ o, w = .mapping o → o.Distinct) :
    (w.laidOver (some v)).LeafAt path ↔ v.LeafAt path ∨ w.LeafAt path := by
  cases w with
  | plain b =>
      have hbelow : v.LeafAt path → path = [] := fun hv =>
        hapart path [] hv (plain_leafAt.mpr rfl) (Or.inr List.nil_prefix)
      rw [Yaml.laidOver, plain_leafAt]
      exact ⟨Or.inr, fun h => h.elim hbelow id⟩
  | mapping o =>
      cases v with
      | plain a =>
          have habove : (Yaml.plain a : Yaml κ α).LeafAt path →
              (Yaml.mapping o).LeafAt path := by
            intro hv
            obtain rfl := plain_leafAt.mp hv
            obtain ⟨p', hp'⟩ := exists_leafAt (Yaml.mapping o)
            rwa [← hapart [] p' hv hp' (Or.inl List.nil_prefix)] at hp'
          have hlaid : (Yaml.mapping o).laidOver (some (.plain a)) = .mapping o := rfl
          rw [hlaid]
          exact ⟨Or.inr, fun h => h.elim habove id⟩
      | mapping m =>
          rw [Yaml.laidOver]
          have hnil : m = .nil ↔ o = .nil := by
            constructor
            · intro hm
              obtain ⟨p', hp'⟩ := exists_leafAt (Yaml.mapping o)
              have hv : (Yaml.mapping m).LeafAt [] := leafAt_nil.mpr hm
              rw [← hapart [] p' hv hp' (Or.inl List.nil_prefix)] at hp'
              exact leafAt_nil.mp hp'
            · intro ho
              obtain ⟨p, hp⟩ := exists_leafAt (Yaml.mapping m)
              have hw : (Yaml.mapping o).LeafAt [] := leafAt_nil.mpr ho
              rw [hapart p [] hp hw (Or.inr List.nil_prefix)] at hp
              exact leafAt_nil.mp hp
          by_cases hpath : path = []
          · subst hpath
            simp only [leafAt_nil, Yaml.IsLeaf]
            rw [merge_eq_nil (hw o rfl)]
            tauto
          · rw [mapping_leafAt hpath, mapping_leafAt hpath, mapping_leafAt hpath]
            refine hmerge m o ?_ (hw o rfl)
            intro p p' hp hp' hbetween
            exact hapart p p' hp.2 hp'.2 hbetween

/-- Mappings with no leaf above one of the other's keep all their leaves. -/
theorem sets_merge (hapart : m.Apart o) (ho : o.Distinct) :
    (m.merge o).Sets path ↔ m.Sets path ∨ o.Sets path := by
  induction path generalizing m o with
  | nil => simp [not_sets_nil]
  | cons key path ih =>
      simp only [sets_cons, get_merge ho]
      cases hw : o.get key with
      | none => simp
      | some w =>
          cases hv : m.get key with
          | none =>
              have hsame : w.laidOver none = w := by cases w <;> rfl
              simp [hsame]
          | some v =>
              simp only [Option.some.injEq, exists_eq_left']
              refine laidOver_leafAt (fun m o => ih) ?_ fun o' hw' => ?_
              · intro p p' hp hp' hbetween
                have hcons := hapart (key :: p) (key :: p') (sets_cons.mpr ⟨v, hv, hp⟩)
                  (sets_cons.mpr ⟨w, hw, hp'⟩) (by simpa using hbetween)
                exact List.cons_inj_right _ |>.mp hcons
              · subst hw'
                exact distinct_get ho hw

end Paths

/-! ## What is recorded -/

/-- `P` says which texts were written, and every other one is as before. -/
def Recorded (P : Prop) (layer : ConfigLayer) (text : String) (before after : Sources) : Prop :=
  (P → after.lookup text = some layer) ∧ (¬P → after.lookup text = before.lookup text)

section Recorded

variable {P Q : Prop} {layer : ConfigLayer} {text above : String} {before mid after : Sources}
  {key : YamlKey κ} {value : Yaml κ α} {rest : YamlMapping κ α}

theorem Recorded.trans (h : Recorded P layer text before mid)
    (h' : Recorded Q layer text mid after) : Recorded (P ∨ Q) layer text before after := by
  refine ⟨fun hor => ?_, fun hnor => ?_⟩
  · by_cases hQ : Q
    · exact h'.1 hQ
    · rw [h'.2 hQ]
      exact h.1 (hor.resolve_right hQ)
  · rw [not_or] at hnor
    rw [h'.2 hnor.2, h.2 hnor.1]

theorem Recorded.congr (h : Recorded P layer text before after) (hPQ : P ↔ Q) :
    Recorded Q layer text before after := by
  unfold Recorded at h ⊢
  rwa [← hPQ]

theorem recorded_insert (path : String) (out : Sources) :
    Recorded (path = text) layer text out (out.insert path layer) := by
  refine ⟨fun h => ?_, fun h => ?_⟩
  · subst h
    exact AList.lookup_insert _
  · exact AList.lookup_insert_ne (Ne.symm h)

theorem writes_cons (h : (YamlMapping.cons key value rest).Distinct) :
    (YamlMapping.cons key value rest).Writes above text ↔
      (∃ path, value.LeafAt path ∧ pathText above (key :: path) = some text) ∨
        rest.Writes above text := by
  obtain ⟨hnone, -, -⟩ := distinct_cons h
  constructor
  · rintro ⟨path, hsets, htext⟩
    cases path with
    | nil => exact absurd hsets not_sets_nil
    | cons k path =>
        obtain ⟨v, hget, hleaf⟩ := sets_cons.mp hsets
        simp only [YamlMapping.get] at hget
        split at hget
        · rename_i hk
          subst hk
          obtain rfl := Option.some.inj hget
          exact Or.inl ⟨path, hleaf, htext⟩
        · exact Or.inr ⟨k :: path, sets_cons.mpr ⟨v, hget, hleaf⟩, htext⟩
  · rintro (⟨path, hleaf, htext⟩ | ⟨path, hsets, htext⟩)
    · exact ⟨key :: path, sets_cons.mpr ⟨value, by simp [YamlMapping.get], hleaf⟩, htext⟩
    · cases path with
      | nil => exact absurd hsets not_sets_nil
      | cons k path =>
          obtain ⟨v, hget, hleaf⟩ := sets_cons.mp hsets
          refine ⟨k :: path, sets_cons.mpr ⟨v, ?_, hleaf⟩, htext⟩
          have hk : key ≠ k := by
            rintro rfl
            rw [hnone] at hget
            cases hget
          rw [YamlMapping.get, if_neg hk, hget]

end Recorded

mutual

theorem recorded_value (layer : ConfigLayer) (text : String) :
    ∀ (v : Yaml κ α) (path : String) (out : Sources), (∀ m, v = .mapping m → m.Distinct) →
      Recorded (∃ p, v.LeafAt p ∧ pathText path p = some text) layer text out
        (v.record layer path out)
  | .plain a, path, out, _ => by
      refine (recorded_insert path out).congr ?_
      constructor
      · rintro rfl
        exact ⟨[], plain_leafAt.mpr rfl, rfl⟩
      · rintro ⟨p, hp, htext⟩
        obtain rfl := plain_leafAt.mp hp
        exact Option.some.inj htext
  | .mapping .nil, path, out, _ => by
      refine (recorded_insert path out).congr ?_
      constructor
      · rintro rfl
        exact ⟨[], leafAt_nil.mpr rfl, rfl⟩
      · rintro ⟨p, hp, htext⟩
        cases p with
        | nil => exact Option.some.inj htext
        | cons k p =>
            exact absurd ((mapping_leafAt (List.cons_ne_nil _ _)).mp hp) empty_not_sets
  | .mapping (.cons key value rest), path, out, hdistinct => by
      refine (recorded_mapping layer text (.cons key value rest) path out
        (hdistinct _ rfl)).congr ?_
      constructor
      · rintro ⟨p, hsets, htext⟩
        exact ⟨p, hsets.2, htext⟩
      · rintro ⟨p, hp, htext⟩
        have hne : p ≠ [] := by
          rintro rfl
          cases leafAt_nil.mp hp
        exact ⟨p, (mapping_leafAt hne).mp hp, htext⟩

/-- `record` writes the leaves whose keys are strings, and nothing else. -/
theorem recorded_mapping (layer : ConfigLayer) (text : String) :
    ∀ (m : YamlMapping κ α) (above : String) (out : Sources), m.Distinct →
      Recorded (m.Writes above text) layer text out (m.record layer above out)
  | .nil, above, out, _ => by
      refine ⟨?_, fun _ => rfl⟩
      rintro ⟨path, hsets, -⟩
      exact absurd hsets empty_not_sets
  | .cons (.text key) value rest, above, out, hdistinct => by
      obtain ⟨-, hrest, hvalue⟩ := distinct_cons hdistinct
      exact ((recorded_value layer text value (extendPath above key) out hvalue).trans
        (recorded_mapping layer text rest above _ hrest)).congr (writes_cons hdistinct).symm
  | .cons (.other key) value rest, above, out, hdistinct => by
      obtain ⟨-, hrest, -⟩ := distinct_cons hdistinct
      refine (recorded_mapping layer text rest above out hrest).congr ?_
      rw [writes_cons hdistinct]
      refine ⟨Or.inr, fun h => h.resolve_left ?_⟩
      rintro ⟨path, -, htext⟩
      cases htext

end

/-! ## Every layer -/

/-- The layers in their order, files first. -/
def layersOf (files : List (ConfigLayer × YamlMapping κ α))
    (overlays : List (ConfigLayer × Overlay κ α)) : List (ConfigLayer × Overlay κ α) :=
  files.map (fun f => (f.1, { file := f.2 })) ++ overlays

def layAll (layers : List (ConfigLayer × Overlay κ α)) : Merged κ α :=
  layers.foldl (fun m o => m.lay o.1 o.2) {}

theorem mergeLayers_eq (files : List (ConfigLayer × YamlMapping κ α))
    (overlays : List (ConfigLayer × Overlay κ α)) :
    mergeLayers files overlays = layAll (layersOf files overlays) := by
  rw [layAll, layersOf, List.foldl_append, List.foldl_map]
  rfl

theorem layAll_concat (layers : List (ConfigLayer × Overlay κ α))
    (o : ConfigLayer × Overlay κ α) :
    layAll (layers ++ [o]) = (layAll layers).lay o.1 o.2 := by
  rw [layAll, List.foldl_append]
  rfl

namespace Overlay

def Distinct (o : Overlay κ α) : Prop :=
  o.file.Distinct ∧ o.service.Distinct

/-- A layer sets the leaf that is written so. -/
def Writes (o : Overlay κ α) (text : String) : Prop :=
  o.file.Writes "" text ∨ o.service.Writes "service" text

end Overlay

/-- The merged document, or the one service beside it, has a leaf that is
written so. -/
def Merged.HasLeaf (m : Merged κ α) (text : String) : Prop :=
  m.doc.Writes "" text ∨ m.service.Writes "service" text

/-- The last layer that sets the leaf. -/
def LastWritten (layers : List (ConfigLayer × Overlay κ α)) (text : String)
    (layer : ConfigLayer) : Prop :=
  ∃ before o after, layers = before ++ (layer, o) :: after ∧ o.Writes text ∧
    ∀ e ∈ after, ¬e.2.Writes text

section Layers

variable {layers : List (ConfigLayer × Overlay κ α)} {layer : ConfigLayer} {text : String}

theorem lastWritten_concat {o : ConfigLayer × Overlay κ α} :
    LastWritten (layers ++ [o]) text layer ↔
      (o.2.Writes text ∧ o.1 = layer) ∨ (¬o.2.Writes text ∧ LastWritten layers text layer) := by
  constructor
  · rintro ⟨before, o', after, hlayers, hwrites, hafter⟩
    rcases List.eq_nil_or_concat after with rfl | ⟨init, last, rfl⟩
    · obtain ⟨-, hlast⟩ := List.append_inj' hlayers rfl
      obtain rfl := (List.cons.inj hlast).1
      exact Or.inl ⟨hwrites, rfl⟩
    · rw [List.concat_eq_append] at hlayers hafter
      have hcut : layers ++ [o] = (before ++ (layer, o') :: init) ++ [last] := by
        rw [hlayers, List.append_assoc, List.cons_append]
      obtain ⟨hrest, hlast⟩ := List.append_inj' hcut rfl
      obtain rfl := (List.cons.inj hlast).1
      refine Or.inr ⟨hafter o (by simp), before, o', init, hrest, hwrites, ?_⟩
      intro e he
      exact hafter e (List.mem_append_left _ he)
  · rintro (⟨hwrites, rfl⟩ | ⟨hnot, before, o', after, rfl, hwrites, hafter⟩)
    · exact ⟨layers, o.2, [], rfl, hwrites, fun e he => absurd he List.not_mem_nil⟩
    · refine ⟨before, o', after ++ [o], by simp, hwrites, ?_⟩
      intro e he
      rcases List.mem_append.mp he with he | he
      · exact hafter e he
      · rw [List.mem_singleton.mp he]
        exact hnot

theorem exists_lastWritten_iff :
    (∃ layer, LastWritten layers text layer) ↔ ∃ e ∈ layers, e.2.Writes text := by
  induction layers using List.reverseRecOn with
  | nil =>
      constructor
      · rintro ⟨layer, before, o, after, h, -⟩
        simp at h
      · rintro ⟨e, he, -⟩
        exact absurd he List.not_mem_nil
  | append_singleton layers o ih =>
      simp only [lastWritten_concat, List.mem_append, List.mem_singleton]
      by_cases hwrites : o.2.Writes text
      · exact iff_of_true ⟨o.1, Or.inl ⟨hwrites, rfl⟩⟩ ⟨o, Or.inr rfl, hwrites⟩
      · constructor
        · rintro ⟨layer, ⟨h, -⟩ | ⟨-, hlast⟩⟩
          · exact absurd h hwrites
          · obtain ⟨e, he, hw⟩ := ih.mp ⟨layer, hlast⟩
            exact ⟨e, Or.inl he, hw⟩
        · rintro ⟨e, he | rfl, hw⟩
          · obtain ⟨layer, hlast⟩ := ih.mpr ⟨e, he, hw⟩
            exact ⟨layer, Or.inr ⟨hwrites, hlast⟩⟩
          · exact absurd hw hwrites

/-- **What the sources say**, whatever the layers: the last one that set a
leaf that is written so. -/
theorem sources_iff (hdistinct : ∀ e ∈ layers, e.2.Distinct) :
    (layAll layers).sources.lookup text = some layer ↔ LastWritten layers text layer := by
  induction layers using List.reverseRecOn with
  | nil =>
      refine iff_of_false ?_ ?_
      · intro h
        cases h
      · rintro ⟨before, o, after, h, -⟩
        simp at h
  | append_singleton layers o ih =>
      have hinit := ih fun e he => hdistinct e (List.mem_append_left _ he)
      obtain ⟨hfile, hservice⟩ := hdistinct o (by simp)
      have hstep := (recorded_mapping o.1 text o.2.file "" (layAll layers).sources hfile).trans
        (recorded_mapping o.1 text o.2.service "service" _ hservice)
      rw [layAll_concat, lastWritten_concat, ← hinit]
      by_cases hwrites : o.2.Writes text
      · have hlookup : ((layAll layers).lay o.1 o.2).sources.lookup text = some o.1 :=
          hstep.1 hwrites
        rw [hlookup]
        simp [hwrites]
      · have hlookup : ((layAll layers).lay o.1 o.2).sources.lookup text =
            (layAll layers).sources.lookup text := hstep.2 hwrites
        rw [hlookup]
        simp [hwrites]

/-- No layer sets a leaf above a leaf that another layer sets. -/
def SettledLeaves (layers : List (ConfigLayer × Overlay κ α)) : Prop :=
  ∀ e ∈ layers, ∀ e' ∈ layers, e.2.file.Apart e'.2.file ∧ e.2.service.Apart e'.2.service

/-- What the sources are for: their keys are the leaves of what was merged, and
each names the last layer that set it. -/
structure Provenance (layers : List (ConfigLayer × Overlay κ α)) : Prop where
  keys : ∀ text, text ∈ (layAll layers).sources ↔ (layAll layers).HasLeaf text
  last : ∀ text layer, (layAll layers).sources.lookup text = some layer →
    LastWritten layers text layer

/-- A leaf of what was merged is a leaf of some layer. -/
theorem sets_of_layAll {path : List (YamlKey κ)} (hdistinct : ∀ e ∈ layers, e.2.Distinct) :
    ((layAll layers).doc.Sets path → ∃ e ∈ layers, e.2.file.Sets path) ∧
      ((layAll layers).service.Sets path → ∃ e ∈ layers, e.2.service.Sets path) := by
  induction layers using List.reverseRecOn with
  | nil =>
      exact ⟨fun h => absurd h empty_not_sets, fun h => absurd h empty_not_sets⟩
  | append_singleton layers o ih =>
      obtain ⟨hdoc, hone⟩ := ih fun e he => hdistinct e (List.mem_append_left _ he)
      obtain ⟨hfile, hservice⟩ := hdistinct o (by simp)
      rw [layAll_concat]
      constructor
      · intro h
        rcases sets_of_sets_merge hfile h with h | h
        · obtain ⟨e, he, hsets⟩ := hdoc h
          exact ⟨e, List.mem_append_left _ he, hsets⟩
        · exact ⟨o, by simp, h⟩
      · intro h
        rcases sets_of_sets_merge hservice h with h | h
        · obtain ⟨e, he, hsets⟩ := hone h
          exact ⟨e, List.mem_append_left _ he, hsets⟩
        · exact ⟨o, by simp, h⟩

/-- Where no layer disturbs another, every leaf of a layer stays. -/
theorem layAll_sets {path : List (YamlKey κ)} (hdistinct : ∀ e ∈ layers, e.2.Distinct)
    (h : SettledLeaves layers) :
    (∀ e ∈ layers, e.2.file.Sets path → (layAll layers).doc.Sets path) ∧
      ∀ e ∈ layers, e.2.service.Sets path → (layAll layers).service.Sets path := by
  induction layers using List.reverseRecOn generalizing path with
  | nil => exact ⟨fun e he => absurd he List.not_mem_nil, fun e he => absurd he List.not_mem_nil⟩
  | append_singleton layers o ih =>
      have hbefore : ∀ e ∈ layers, e.2.Distinct := fun e he =>
        hdistinct e (List.mem_append_left _ he)
      have hinit : SettledLeaves layers := fun e he e' he' =>
        h e (List.mem_append_left _ he) e' (List.mem_append_left _ he')
      obtain ⟨hfile, hservice⟩ := hdistinct o (by simp)
      have hdoc : (layAll layers).doc.Apart o.2.file := by
        intro p p' hp hp' hbetween
        obtain ⟨e, he, hsets⟩ := (sets_of_layAll hbefore).1 hp
        exact (h e (List.mem_append_left _ he) o (by simp)).1 p p' hsets hp' hbetween
      have hone : (layAll layers).service.Apart o.2.service := by
        intro p p' hp hp' hbetween
        obtain ⟨e, he, hsets⟩ := (sets_of_layAll hbefore).2 hp
        exact (h e (List.mem_append_left _ he) o (by simp)).2 p p' hsets hp' hbetween
      obtain ⟨ihdoc, ihone⟩ := @ih path hbefore hinit
      rw [layAll_concat]
      constructor
      · intro e he hsets
        refine (sets_merge hdoc hfile).mpr ?_
        rcases List.mem_append.mp he with he | he
        · exact Or.inl (ihdoc e he hsets)
        · rw [List.mem_singleton.mp he] at hsets
          exact Or.inr hsets
      · intro e he hsets
        refine (sets_merge hone hservice).mpr ?_
        rcases List.mem_append.mp he with he | he
        · exact Or.inl (ihone e he hsets)
        · rw [List.mem_singleton.mp he] at hsets
          exact Or.inr hsets

theorem mem_sources_iff (hdistinct : ∀ e ∈ layers, e.2.Distinct) :
    text ∈ (layAll layers).sources ↔ ∃ e ∈ layers, e.2.Writes text := by
  rw [← exists_lastWritten_iff, ← AList.lookup_isSome, Option.isSome_iff_exists]
  simp only [sources_iff hdistinct]

theorem provenance_of_settled (hdistinct : ∀ e ∈ layers, e.2.Distinct) (h : SettledLeaves layers) :
    Provenance layers where
  keys text := by
    rw [mem_sources_iff hdistinct]
    constructor
    · rintro ⟨e, he, ⟨path, hsets, htext⟩ | ⟨path, hsets, htext⟩⟩
      · exact Or.inl ⟨path, (layAll_sets hdistinct h).1 e he hsets, htext⟩
      · exact Or.inr ⟨path, (layAll_sets hdistinct h).2 e he hsets, htext⟩
    · rintro (⟨path, hsets, htext⟩ | ⟨path, hsets, htext⟩)
      · obtain ⟨e, he, hsets⟩ := (sets_of_layAll hdistinct).1 hsets
        exact ⟨e, he, Or.inl ⟨path, hsets, htext⟩⟩
      · obtain ⟨e, he, hsets⟩ := (sets_of_layAll hdistinct).2 hsets
        exact ⟨e, he, Or.inr ⟨path, hsets, htext⟩⟩
  last _ _ := (sources_iff hdistinct).mp

end Layers

/-! ## Plain keys -/

/-- A key that can be told from its path: a string without a dot, and not the
empty one. -/
def YamlKey.Plain : YamlKey κ → Prop
  | .text s => s ≠ "" ∧ '.' ∉ s.toList
  | .other _ => False

def YamlKey.textOf : YamlKey κ → String
  | .text s => s
  | .other _ => ""

/-- Every key of a layer is plain, and no document has a `service` of its
own. -/
structure Overlay.Plain (o : Overlay κ α) : Prop where
  file : ∀ path, o.file.Sets path → ∀ key ∈ path, key.Plain
  service : ∀ path, o.service.Sets path → ∀ key ∈ path, key.Plain
  noService : ∀ path, ¬o.file.Sets (.text "service" :: path)

section Plain

variable {path path' : List (YamlKey κ)}

theorem join_extend {s t : String} {rest : List String} :
    join (s :: t :: rest) "." = join ((s ++ "." ++ t) :: rest) "." := by
  cases rest <;> simp [join, List.intercalate, String.toList_append]

omit [DecidableEq κ] in
theorem pathText_plain (h : ∀ key ∈ path, key.Plain) {above : String} (habove : above ≠ "") :
    pathText above path = some (join (above :: path.map YamlKey.textOf) ".") := by
  induction path generalizing above with
  | nil => simp [pathText, join, List.intercalate]
  | cons key path ih =>
      obtain ⟨hkey, hpath⟩ := List.forall_mem_cons.mp h
      cases key with
      | other k => exact hkey.elim
      | text s =>
          have hnext : above ++ "." ++ s ≠ "" := by
            intro hnil
            have hlist := congrArg String.toList hnil
            simp [String.toList_append] at hlist
          rw [pathText, extendPath, if_neg habove, ih hpath hnext, List.map_cons, join_extend]
          rfl

omit [DecidableEq κ] in
/-- A path of plain keys is read back from its text. -/
theorem pathText_split (h : ∀ key ∈ path, key.Plain) (hne : path ≠ []) :
    ∃ text, pathText "" path = some text ∧ split text '.' = path.map YamlKey.textOf := by
  have hread : pathText "" path = some (join (path.map YamlKey.textOf) ".") := by
    cases path with
    | nil => exact absurd rfl hne
    | cons key path =>
        obtain ⟨hkey, hrest⟩ := List.forall_mem_cons.mp h
        cases key with
        | other k => exact hkey.elim
        | text s => exact pathText_plain hrest hkey.1
  have hdot : "." = String.singleton '.' := by decide
  have hparts : ∀ d ∈ path.map YamlKey.textOf, '.' ∉ d.toList := by
    intro d hd
    obtain ⟨key, hkey, rfl⟩ := List.mem_map.mp hd
    have hplain := h key hkey
    cases key with
    | other k => exact hplain.elim
    | text s => exact hplain.2
  refine ⟨_, hread, ?_⟩
  rw [hdot]
  exact split_join (by simpa using hne) hparts

omit [DecidableEq κ] in
theorem textOf_injective (h : ∀ key ∈ path, key.Plain) (h' : ∀ key ∈ path', key.Plain)
    (heq : path.map YamlKey.textOf = path'.map YamlKey.textOf) : path = path' := by
  induction path generalizing path' with
  | nil =>
      rw [List.map_nil] at heq
      exact (List.map_eq_nil_iff.mp heq.symm).symm
  | cons key path ih =>
      cases path' with
      | nil => cases heq
      | cons key' path' =>
          obtain ⟨hkey, hpath⟩ := List.forall_mem_cons.mp h
          obtain ⟨hkey', hpath'⟩ := List.forall_mem_cons.mp h'
          rw [List.map_cons, List.map_cons] at heq
          obtain ⟨hhead, htail⟩ := List.cons.inj heq
          rw [ih hpath hpath' htail]
          cases key with
          | other k => exact hkey.elim
          | text s =>
              cases key' with
              | other k => exact hkey'.elim
              | text s' =>
                  have hs : s = s' := hhead
                  rw [hs]

omit [DecidableEq κ] in
theorem pathText_injective (h : ∀ key ∈ path, key.Plain) (h' : ∀ key ∈ path', key.Plain)
    (hne : path ≠ []) (hne' : path' ≠ []) (heq : pathText "" path = pathText "" path') :
    path = path' := by
  obtain ⟨text, htext, hsplit⟩ := pathText_split h hne
  obtain ⟨text', htext', hsplit'⟩ := pathText_split h' hne'
  rw [htext, htext'] at heq
  obtain rfl := Option.some.inj heq
  exact textOf_injective h h' (hsplit.symm.trans hsplit')

/-- Under a leaf nothing is set. -/
theorem sets_comparable {m : YamlMapping κ α} (h : m.Sets path) (h' : m.Sets path')
    (hbetween : path <+: path') : path = path' := by
  obtain ⟨more, rfl⟩ := hbetween
  induction path generalizing m with
  | nil => exact absurd h not_sets_nil
  | cons key path ih =>
      obtain ⟨v, hget, hleaf⟩ := sets_cons.mp h
      obtain ⟨v', hget', hleaf'⟩ := sets_cons.mp h'
      obtain rfl := Option.some.inj (hget.symm.trans hget')
      cases v with
      | plain a =>
          obtain rfl := plain_leafAt.mp hleaf
          obtain rfl : more = [] := plain_leafAt.mp hleaf'
          rfl
      | mapping m' =>
          by_cases hpath : path = []
          · subst hpath
            have hm' : m' = .nil := leafAt_nil.mp hleaf
            subst hm'
            cases more with
            | nil => rfl
            | cons k more =>
                exact absurd ((mapping_leafAt (List.cons_ne_nil _ _)).mp hleaf') empty_not_sets
          · have hmore : path ++ more ≠ [] := by simp [hpath]
            rw [mapping_leafAt hpath] at hleaf
            rw [show (path.append more) = path ++ more from rfl, mapping_leafAt hmore] at hleaf'
            exact congrArg _ (ih hleaf hleaf')

end Plain

/-! ## When the two recursions agree -/

section Agree

variable {layers : List (ConfigLayer × Overlay κ α)}

/-- With plain keys a leaf that is recorded is a leaf of what was merged. -/
theorem merged_of_provenance {path : List (YamlKey κ)} (hdistinct : ∀ e ∈ layers, e.2.Distinct)
    (hplain : ∀ e ∈ layers, e.2.Plain) (h : Provenance layers) :
    (∀ e ∈ layers, e.2.file.Sets path → (layAll layers).doc.Sets path) ∧
      ∀ e ∈ layers, e.2.service.Sets path → (layAll layers).service.Sets path := by
  have hservice : (YamlKey.text "service" : YamlKey κ).Plain :=
    ⟨by decide, by decide⟩
  have hmerged : ∀ q, (layAll layers).doc.Sets q →
      (∀ key ∈ q, key.Plain) ∧ ∀ p, q ≠ .text "service" :: p := by
    intro q hq
    obtain ⟨e, he, hsets⟩ := (sets_of_layAll hdistinct).1 hq
    refine ⟨(hplain e he).file q hsets, fun p hp => ?_⟩
    subst hp
    exact (hplain e he).noService p hsets
  have hone : ∀ q, (layAll layers).service.Sets q →
      ∀ key ∈ (YamlKey.text "service" :: q : List (YamlKey κ)), key.Plain := by
    intro q hq
    obtain ⟨e, he, hsets⟩ := (sets_of_layAll hdistinct).2 hq
    exact List.forall_mem_cons.mpr ⟨hservice, (hplain e he).service q hsets⟩
  constructor
  · intro e he hsets
    have hpath := (hplain e he).file path hsets
    obtain ⟨text, htext, -⟩ := pathText_split hpath hsets.1
    have hrecorded := (mem_sources_iff hdistinct).mpr ⟨e, he, Or.inl ⟨path, hsets, htext⟩⟩
    rcases (h.keys text).mp hrecorded with ⟨q, hq, hqtext⟩ | ⟨q, hq, hqtext⟩
    · have hsame := pathText_injective hpath (hmerged q hq).1 hsets.1 hq.1
        (htext.trans hqtext.symm)
      rwa [hsame]
    · have hsame := pathText_injective hpath (hone q hq) hsets.1 (List.cons_ne_nil _ _)
        (htext.trans hqtext.symm)
      rw [hsame] at hsets
      exact absurd hsets ((hplain e he).noService q)
  · intro e he hsets
    have hpath : ∀ key ∈ (YamlKey.text "service" :: path : List (YamlKey κ)), key.Plain :=
      List.forall_mem_cons.mpr ⟨hservice, (hplain e he).service path hsets⟩
    obtain ⟨text, htext, -⟩ := pathText_split hpath (List.cons_ne_nil _ _)
    have hrecorded := (mem_sources_iff hdistinct).mpr ⟨e, he, Or.inr ⟨path, hsets, htext⟩⟩
    rcases (h.keys text).mp hrecorded with ⟨q, hq, hqtext⟩ | ⟨q, hq, hqtext⟩
    · have hsame := pathText_injective hpath (hmerged q hq).1 (List.cons_ne_nil _ _) hq.1
        (htext.trans hqtext.symm)
      exact absurd hsame.symm ((hmerged q hq).2 path)
    · have hsame := pathText_injective hpath (hone q hq) (List.cons_ne_nil _ _)
        (List.cons_ne_nil _ _) (htext.trans hqtext.symm)
      rwa [(List.cons.inj hsame).2]

theorem settled_of_provenance (hdistinct : ∀ e ∈ layers, e.2.Distinct)
    (hplain : ∀ e ∈ layers, e.2.Plain) (h : Provenance layers) : SettledLeaves layers := by
  intro e he e' he'
  constructor
  · intro p p' hp hp' hbetween
    have hdoc := (merged_of_provenance hdistinct hplain h).1 e he hp
    have hdoc' := (merged_of_provenance hdistinct hplain h).1 e' he' hp'
    exact hbetween.elim (sets_comparable hdoc hdoc') fun hb => (sets_comparable hdoc' hdoc hb).symm
  · intro p p' hp hp' hbetween
    have hone := (merged_of_provenance hdistinct hplain h).2 e he hp
    have hone' := (merged_of_provenance hdistinct hplain h).2 e' he' hp'
    exact hbetween.elim (sets_comparable hone hone') fun hb => (sets_comparable hone' hone hb).symm

/-- **Where a value came from.** For all layers, each source is the last layer
that set a leaf so written; and the sources are the leaves of what was merged
if no layer sets a leaf above one of another's, and where keys are plain only
then. -/
theorem layer_provenance_iff {C E : Type} (reader : ConfigReader κ α C E)
    (files : List (ConfigLayer × YamlMapping κ α)) (overlays : List (ConfigLayer × Overlay κ α))
    (hdistinct : ∀ e ∈ layersOf files overlays, e.2.Distinct) :
    (∀ out, assemble reader files overlays = .ok out →
      out.sources = (layAll (layersOf files overlays)).sources) ∧
    (∀ text layer, (layAll (layersOf files overlays)).sources.lookup text = some layer ↔
      LastWritten (layersOf files overlays) text layer) ∧
    (SettledLeaves (layersOf files overlays) → Provenance (layersOf files overlays)) ∧
    ((∀ e ∈ layersOf files overlays, e.2.Plain) →
      (Provenance (layersOf files overlays) ↔ SettledLeaves (layersOf files overlays))) := by
  refine ⟨fun out hout => ?_, fun _ _ => sources_iff hdistinct, provenance_of_settled hdistinct,
    fun hplain => ⟨settled_of_provenance hdistinct hplain, provenance_of_settled hdistinct⟩⟩
  rw [assemble_sources hout, mergeLayers_eq]

end Agree

/-! ## A mapping that becomes a scalar -/

inductive YamlScalar where
  | null
  | text (s : String)
  | number (n : Nat)
deriving DecidableEq

/-- `Connections`: a fixed count, or a range. -/
inductive Connections where
  | fixed (n : Nat)
  | range (min max : Option Nat)
deriving DecidableEq

/-- Of `FileConfig`, the keys of the documents below. -/
structure NamedDefaults where
  name : Option String := none
  connections : Option Connections := none

/-- `Option<u32>`. -/
def readBound : Yaml Unit YamlScalar → Option (Option Nat)
  | .plain .null => some none
  | .plain (.number n) => if n < 2 ^ 32 then some (some n) else none
  | _ => none

def readRange (min max : Option Nat) : YamlMapping Unit YamlScalar → Option Connections
  | .nil => some (.range min max)
  | .cons (.text key) v rest =>
    if key = "min" then (readBound v).bind fun min => readRange min max rest
    else if key = "max" then (readBound v).bind fun max => readRange min max rest
    else none
  | .cons (.other _) _ _ => none

def readConnections : Yaml Unit YamlScalar → Option (Option Connections)
  | .mapping m => (readRange none none m).map some
  | v => (readBound v).map (·.map .fixed)

/-- What is under `defaults`. -/
def readDefaults (config : NamedDefaults) :
    YamlMapping Unit YamlScalar → Option NamedDefaults
  | .nil => some config
  | .cons (.text key) v rest =>
    if key = "connections" then
      (readConnections v).bind fun c => readDefaults { config with connections := c } rest
    else none
  | .cons (.other _) _ _ => none

def readDocument (config : NamedDefaults) : YamlMapping Unit YamlScalar → Option NamedDefaults
  | .nil => some config
  | .cons (.text key) v rest =>
    match v with
    | .mapping m =>
      if key = "defaults" then
        (readDefaults config m).bind fun config => readDocument config rest
      else none
    | .plain v =>
      if key = "name" then
        match v with
        | .null => readDocument config rest
        | .text s => readDocument { config with name := some s } rest
        | .number _ => none
      else none
  | .cons (.other _) _ _ => none

/-- `deserialize_config` on documents of these keys; one with any other key is
refused here, and no service is read. -/
def namedReader : ConfigReader Unit YamlScalar NamedDefaults Unit where
  readConfig doc := (readDocument {} doc).elim (.error "not one of these documents") .ok
  readEntry _ := .error "not one of these documents"
  isNull v := decide (v = .null)

/-- One key with one value. -/
def oneEntry (key : String) (value : Yaml Unit YamlScalar) : YamlMapping Unit YamlScalar :=
  .cons (.text key) value .nil

theorem oneEntry_sets {key : String} {v : Yaml Unit YamlScalar} {path : List (YamlKey Unit)}
    (h : (oneEntry key v).Sets path) : ∃ p, path = .text key :: p ∧ v.LeafAt p := by
  cases path with
  | nil => exact absurd h not_sets_nil
  | cons k path =>
      obtain ⟨u, hget, hleaf⟩ := sets_cons.mp h
      simp only [oneEntry, YamlMapping.get] at hget
      split at hget
      · rename_i hk
        obtain rfl := Option.some.inj hget
        exact ⟨path, by rw [hk], hleaf⟩
      · cases hget

theorem layer_provenance_name :
    ∃ out, assemble namedReader [(.loc, oneEntry "name" (.plain (.text "web")))] [] = .ok out ∧
      out.sources.lookup "name" = some .loc := by
  have hdistinct : ∀ e ∈ layersOf
      [(ConfigLayer.loc, oneEntry "name" (.plain (.text "web")))] [], e.2.Distinct := by
    intro e he
    obtain rfl := List.mem_singleton.mp he
    exact ⟨⟨rfl, trivial⟩, trivial⟩
  obtain ⟨hout, hlast, -⟩ := layer_provenance_iff namedReader
    [(.loc, oneEntry "name" (.plain (.text "web")))] [] hdistinct
  refine ⟨_, rfl, ?_⟩
  rw [hout _ rfl]
  refine (hlast "name" .loc).mpr ⟨[], _, [], rfl, Or.inl ⟨[.text "name"], ?_, rfl⟩, by simp⟩
  exact sets_cons.mpr ⟨_, rfl, plain_leafAt.mpr rfl⟩

/-- `defaults.connections`, with a value. -/
def defaultConnections (v : Yaml Unit YamlScalar) : YamlMapping Unit YamlScalar :=
  oneEntry "defaults" (.mapping (oneEntry "connections" v))

/-- A range in the home file that the local file replaces by a number: its old
keys are still sources, and no leaves any more. -/
theorem stale_source :
    ∃ out, assemble namedReader
        [(.home, defaultConnections (.mapping
            (.cons (.text "min") (.plain (.number 1)) (oneEntry "max" (.plain (.number 3)))))),
          (.loc, defaultConnections (.plain (.number 2)))] [] = .ok out ∧
      out.config.connections = some (.fixed 2) ∧
      out.sources.lookup "defaults.connections.min" = some .home ∧
      ¬(layAll (layersOf
        [(.home, defaultConnections (.mapping
            (.cons (.text "min") (.plain (.number 1)) (oneEntry "max" (.plain (.number 3)))))),
          (.loc, defaultConnections (.plain (.number 2)))] [])).HasLeaf
            "defaults.connections.min" := by
  refine ⟨_, rfl, rfl, by decide +kernel, ?_⟩
  rintro (⟨path, hsets, htext⟩ | ⟨path, hsets, -⟩)
  · have hdoc : (defaultConnections (.plain (.number 2))).Sets path := hsets
    obtain ⟨p, rfl, hleaf⟩ := oneEntry_sets hdoc
    have hp : p ≠ [] := by
      rintro rfl
      cases leafAt_nil.mp hleaf
    obtain ⟨q, rfl, hq⟩ := oneEntry_sets ((mapping_leafAt hp).mp hleaf)
    rw [plain_leafAt.mp hq] at htext
    exact absurd htext (by decide)
  · exact empty_not_sets hsets

end Aperio
