import Aperio.Ip
import Aperio.Client

/-!
# Tunnel declarations and their names

What a client writes under `tunnels:` and what `validate_tunnels` makes of
it before anything is announced: targets and protocols normalized, secrets
only beside `encrypt`, and one name per tunnel. The server repeats
`tunnel_name` on what it is told, so the name is settled by the declaration
alone.

A name that `validate_tunnels` settled is one a query can carry as it is:
`SettledName.splitQualified_eq` says that it never reads as `<org>@<name>`.
-/

namespace Aperio

/-! ## Names -/

/-- `char::to_lowercase`, its first character, on the blocks where `slug`
can tell: nothing else falls on an ASCII letter or one `fold_latin` knows. -/
def lowerHead (c : Char) : Char :=
  let n := c.toNat
  if n < 0x80 then c.toLower
  else if 0xC0 ≤ n ∧ n ≤ 0xDE ∧ n ≠ 0xD7 then Char.ofNat (n + 0x20)
  else if n = 0x130 then 'i'
  else if n = 0x178 then 'ÿ'
  else if (0x100 ≤ n ∧ n ≤ 0x137 ∨ 0x14A ≤ n ∧ n ≤ 0x177) ∧ n % 2 = 0 then Char.ofNat (n + 1)
  else if (0x139 ≤ n ∧ n ≤ 0x148 ∨ 0x179 ≤ n ∧ n ≤ 0x17E) ∧ n % 2 = 1 then Char.ofNat (n + 1)
  else if n = 0x1E9E then 'ß'
  else if n = 0x212A then 'k'
  else if n = 0x212B then 'å'
  else c

/-- The rows of `fold_latin`: the letters, and what they stand on. -/
def latinFolds : List (String × String) :=
  [("áàâäãåā", "a"), ("çćč", "c"), ("éèêëē", "e"), ("ğĝ", "g"), ("íìîïīı", "i"), ("ñń", "n"),
    ("óòôöõøō", "o"), ("śšş", "s"), ("úùûüū", "u"), ("ýÿ", "y"), ("źżž", "z"), ("ß", "ss"),
    ("æ", "ae"), ("œ", "oe")]

def foldLatin (ch : Char) : Option String :=
  (latinFolds.find? fun row => row.1.toList.contains ch).map (·.2)

def slugStep (out : List Char) (ch : Char) : List Char :=
  let lower := lowerHead ch
  if isAsciiAlphanumeric lower then out ++ [lower]
  else
    match foldLatin lower with
    | some folded => out ++ folded.toList
    | none => if out.getLast? = some '_' then out else out ++ ['_']

/-- Turns any text into a name. -/
def slug (raw : String) : String :=
  let out := (trim raw).toList.foldl slugStep []
  let out := (out.dropWhile (· == '_')).rdropWhile (· == '_')
  if out = [] then "unnamed" else String.ofList (out.take maxNameLen)

def validateName (kind name : String) : Except String Unit :=
  let trimmed := trim name
  if trimmed = "" then .error ("a " ++ kind ++ " name cannot be empty")
  else if maxNameLen < trimmed.toList.length then
    .error (kind ++ " name '" ++ trimmed ++ "' is longer than 64 characters")
  else if !trimmed.toList.all nameChar then
    .error (kind ++ " name '" ++ trimmed ++ "' may only contain a-z, 0-9 and _ (write it as '" ++
      slug trimmed ++ "')")
  else .ok ()

/-- The name a tunnel is addressed by: what it declared, or one derived from
its target and protocol. -/
def tunnelName (decl : TunnelDecl) : String :=
  match (decl.name.map trim).filter (· != "") with
  | some name => name
  | none => slug (decl.target ++ " " ++ toAsciiLowercase (trim decl.protocol))

def protocolBoth : String := "tcp/udp"

def protocolServes (protocol want : String) : Bool :=
  let protocol := toAsciiLowercase (trim protocol)
  protocol == want || protocol == protocolBoth

/-- `<org>@<name>`, taken apart. -/
def splitQualified (raw : String) : Option String × String :=
  match splitOnce (trim raw) '@' with
  | some (org, name) => (some (trim org), trim name)
  | none => (none, trim raw)

/-! ## Declarations -/

/-- A declaration where it was written. What is announced is the part that
`TunnelDecl` holds; the pre-shared key never leaves, and the server has no
field for `proxy_protocol`. -/
structure LocalTunnel extends TunnelDecl where
  psk : Option String := none
  proxyProtocol : Bool := false
deriving DecidableEq

/-- `str::parse::<u16>`: an optional `+`, then digits, below `2 ^ 16`. -/
def parseU16 (s : String) : Option Nat :=
  let digits :=
    match s.toList with
    | '+' :: rest => rest
    | cs => cs
  match readDigits 10 (toDigit 10) digits 0 0 with
  | (v, n, []) => if n = 0 ∨ 65536 ≤ v then none else some v
  | _ => none

/-- A target is a `host:port` address. -/
def targetOk (target : String) : Bool :=
  (rsplitOnce target ':').any fun (host, port) =>
    (parseU16 port).any (0 < ·) && host != ""

namespace LocalTunnel

/-- A declaration in the one spelling everything else compares against. -/
def normalized (decl : LocalTunnel) : LocalTunnel :=
  { decl with
    name := decl.name.map trim
    customName := (decl.customName.map trim).filter (· != "")
    target := trim decl.target
    protocol :=
      let protocol := toAsciiLowercase (trim decl.protocol)
      if protocol = "udp/tcp" then protocolBoth else protocol }

def called (decl : LocalTunnel) : String :=
  tunnelName decl.toTunnelDecl

end LocalTunnel

def refuseIf (refused : Bool) (message : String) : Except String Unit :=
  if refused then .error message else .ok ()

/-- One declaration, next to the targets and names already taken. -/
def validateTunnel (seen : List (String × String)) (names : List String) (decl : LocalTunnel) :
    Except String LocalTunnel := do
  let d := decl.normalized
  refuseIf (!List.contains ["tcp", "udp", protocolBoth] d.protocol)
    ("CRITICAL ERROR: tunnel '" ++ d.target ++ "' declares protocol '" ++ decl.protocol ++
      "'; use tcp, udp, or tcp/udp for a service that is both")
  refuseIf (!targetOk d.target)
    ("CRITICAL ERROR: tunnel target '" ++ decl.target ++ "' is not a host:port address")
  refuseIf (seen.contains (d.target, d.protocol))
    ("CRITICAL ERROR: tunnel target '" ++ d.target ++ "' (" ++ d.protocol ++
      ") is declared more than once")
  refuseIf (d.encrypt && d.protocol != "tcp")
    ("CRITICAL ERROR: tunnel '" ++ d.target ++ "' sets encrypt: true, which is only supported " ++
      "for tcp tunnels (a tcp/udp tunnel would leave its udp half in the clear)")
  refuseIf (d.psk.isSome && !d.encrypt)
    ("CRITICAL ERROR: tunnel '" ++ d.target ++ "' sets a psk without encrypt: true")
  refuseIf (d.idleTimeout.isSome && !protocolServes d.protocol "udp")
    ("CRITICAL ERROR: tunnel '" ++ d.target ++ "' sets idle_timeout, which is only supported " ++
      "for udp tunnels")
  refuseIf (d.idleTimeout == some 0)
    ("CRITICAL ERROR: tunnel '" ++ d.target ++ "' sets idle_timeout: 0; it must be at least " ++
      "1 second")
  (decl.name.elim (.ok ()) (validateName "tunnel")).mapError ("CRITICAL ERROR: " ++ ·)
  refuseIf (names.contains d.called)
    ("CRITICAL ERROR: two tunnels resolve to the name '" ++ d.called ++
      "'; give one of them a distinct `name:`")
  pure d

def validateFrom (seen : List (String × String)) (names : List String) :
    List LocalTunnel → Except String (List LocalTunnel)
  | [] => .ok []
  | decl :: rest => do
    let normalized ← validateTunnel seen names decl
    let out ← validateFrom ((normalized.target, normalized.protocol) :: seen)
      (normalized.called :: names) rest
    pure (normalized :: out)

/-- The `tunnels:` list, normalized and without duplicates. -/
def validateTunnels (raw : List LocalTunnel) : Except String (List LocalTunnel) :=
  validateFrom [] [] raw

/-! ## Settled names -/

/-- A name as `validate_tunnels` leaves it: a handle, never blank. -/
structure SettledName (name : String) : Prop where
  nonempty : name ≠ ""
  chars : ∀ c ∈ name.toList, nameChar c = true

theorem nameChar_not_whiteSpace {c : Char} (h : nameChar c = true) : isWhiteSpace c = false := by
  simp only [nameChar, isAsciiDigit, Bool.or_eq_true, Bool.and_eq_true, decide_eq_true_eq,
    beq_iff_eq, Char.le_def, UInt32.le_iff_toNat_le] at h
  have hn : (0x30 ≤ c.toNat ∧ c.toNat ≤ 0x39) ∨ (0x61 ≤ c.toNat ∧ c.toNat ≤ 0x7A) ∨
      c.toNat = 0x5F := by
    rcases h with (h | h) | rfl
    · exact Or.inl h
    · exact Or.inr (Or.inl h)
    · exact Or.inr (Or.inr rfl)
  simp only [isWhiteSpace, Bool.or_eq_false_iff, Bool.and_eq_false_iff, decide_eq_false_iff_not]
  omega

theorem SettledName.trim_eq {name : String} (h : SettledName name) : trim name = name := by
  have hnone : ∀ c ∈ name.toList, isWhiteSpace c = false := fun c hc =>
    nameChar_not_whiteSpace (h.chars c hc)
  have hdrop : name.toList.dropWhile isWhiteSpace = name.toList := by
    rw [List.dropWhile_eq_self_iff]
    intro hlen
    simp [hnone _ (List.getElem_mem hlen)]
  have hrdrop : name.toList.rdropWhile isWhiteSpace = name.toList := by
    rw [List.rdropWhile_eq_self_iff]
    intro hne
    simp [hnone _ (List.getLast_mem hne)]
  rw [trim, hdrop, hrdrop, String.ofList_toList]

theorem SettledName.splitOnce_at {name : String} (h : SettledName name) :
    splitOnce name '@' = none := by
  refine if_neg ?_
  intro hat
  exact absurd (h.chars '@' hat) (by decide)

/-- A settled name does not read as a qualified one. -/
theorem SettledName.splitQualified_eq {name : String} (h : SettledName name) :
    splitQualified name = (none, name) := by
  simp only [splitQualified, h.trim_eq, h.splitOnce_at]

theorem ofNat_toNat_of_lt {n : Nat} (h : n < 0xD800) : (Char.ofNat n).toNat = n := by
  rw [Char.ofNat, dif_pos (Or.inl h)]
  rfl

/-- No capital letter is left. -/
theorem lowerHead_toNat (c : Char) : (lowerHead c).toNat < 0x41 ∨ 0x5A < (lowerHead c).toNat := by
  by_cases hascii : c.toNat < 0x80
  · rw [lowerHead, if_pos hascii]
    rcases toLower_cases c with ⟨hA, -, hlow⟩ | ⟨hupper, hsame⟩
    · rw [hlow]
      omega
    · rw [hsame]
      omega
  · right
    simp only [lowerHead, if_neg hascii]
    repeat' split
    all_goals first
      | rw [ofNat_toNat_of_lt (by omega)]; omega
      | decide
      | omega

theorem nameChar_lowerHead {c : Char} (h : isAsciiAlphanumeric (lowerHead c) = true) :
    nameChar (lowerHead c) = true := by
  have hcase := lowerHead_toNat c
  simp only [isAsciiAlphanumeric, Bool.or_eq_true, Bool.and_eq_true, decide_eq_true_eq] at h
  rcases h with (h | h) | h
  · simp [nameChar, h]
  · simp [nameChar, h]
  · have hA : 0x41 ≤ (lowerHead c).toNat := h.1
    have hZ : (lowerHead c).toNat ≤ 0x5A := h.2
    omega

theorem nameChar_foldLatin {ch c : Char} {folded : String} (h : foldLatin ch = some folded)
    (hc : c ∈ folded.toList) : nameChar c = true := by
  have hrows : latinFolds.all (fun row => row.2.toList.all nameChar) = true := by decide
  rw [foldLatin, Option.map_eq_some_iff] at h
  obtain ⟨row, hrow, rfl⟩ := h
  have hrow := List.all_eq_true.mp hrows row (List.mem_of_find?_eq_some hrow)
  exact List.all_eq_true.mp hrow c hc

theorem nameChar_slugStep {out : List Char} {ch : Char} (h : ∀ c ∈ out, nameChar c = true) :
    ∀ c ∈ slugStep out ch, nameChar c = true := by
  intro c hc
  unfold slugStep at hc
  simp only at hc
  split at hc
  · rename_i halnum
    rcases List.mem_append.mp hc with hc | hc
    · exact h c hc
    · rw [List.mem_singleton.mp hc]
      exact nameChar_lowerHead halnum
  · split at hc
    · rename_i folded hfold
      rcases List.mem_append.mp hc with hc | hc
      · exact h c hc
      · exact nameChar_foldLatin hfold hc
    · split at hc
      · exact h c hc
      · rcases List.mem_append.mp hc with hc | hc
        · exact h c hc
        · rw [List.mem_singleton.mp hc]
          decide

theorem settledName_slug (raw : String) : SettledName (slug raw) := by
  have hfold : ∀ (cs out : List Char), (∀ c ∈ out, nameChar c = true) →
      ∀ c ∈ cs.foldl slugStep out, nameChar c = true := by
    intro cs
    induction cs with
    | nil => exact fun out h => h
    | cons ch cs ih => exact fun out h => ih _ (nameChar_slugStep h)
  unfold slug
  simp only
  split
  · exact ⟨by decide, List.all_eq_true.mp (by decide)⟩
  · rename_i hne
    refine ⟨?_, ?_⟩
    · rw [Ne, ← String.toList_eq_nil_iff, String.toList_ofList, List.take_eq_nil_iff]
      exact not_or.mpr ⟨by decide, hne⟩
    · intro c hc
      rw [String.toList_ofList] at hc
      have hin := (List.rdropWhile_prefix _ _).mem (List.mem_of_mem_take hc)
      exact hfold _ [] (fun _ h => absurd h List.not_mem_nil) c
        ((List.dropWhile_sublist _).mem hin)

theorem settled_of_validateName {kind name : String} (h : validateName kind name = .ok ()) :
    SettledName (trim name) := by
  unfold validateName at h
  simp only at h
  split at h
  · cases h
  · rename_i hne
    split at h
    · cases h
    · split at h
      · cases h
      · rename_i hchars
        simp only [Bool.not_eq_true, Bool.not_eq_false', List.all_eq_true] at hchars
        exact ⟨hne, hchars⟩

/-- A named declaration is called what it says, trimmed; any other has a
derived name. -/
theorem settled_tunnelName {decl : TunnelDecl}
    (h : ∀ name, decl.name = some name → SettledName (trim name)) :
    SettledName (tunnelName decl) := by
  unfold tunnelName
  cases hname : decl.name with
  | none => exact settledName_slug _
  | some name =>
      have hsettled := h name hname
      simp only [Option.map_some, Option.filter_some, bne_iff_ne.mpr hsettled.nonempty, if_true]
      exact hsettled

variable {seen : List (String × String)} {names : List String} {raw out : List LocalTunnel}
  {decl d : LocalTunnel}

theorem refuseIf_bind {α : Type} {refused : Bool} {message : String}
    {f : Unit → Except String α} {r : α} :
    (refuseIf refused message >>= f) = .ok r ↔ refused = false ∧ f () = .ok r := by
  cases refused <;> simp [refuseIf, bind, Except.bind]

theorem mapError_bind {α : Type} {check : Except String Unit} {g : String → String}
    {f : Unit → Except String α} {r : α} :
    (check.mapError g >>= f) = .ok r ↔ check = .ok () ∧ f () = .ok r := by
  cases check <;> simp [Except.mapError, bind, Except.bind]

/-- A declaration that is let through: its name is settled, a key stands
beside `encrypt` only, and what is encrypted is TCP. -/
structure LocalTunnel.Ok (d : LocalTunnel) : Prop where
  named : SettledName d.called
  keyed : d.psk.isSome = true → d.encrypt = true
  sealed : d.encrypt = true → d.protocol = "tcp"

/-- What is let through has a name of its own. -/
theorem validateTunnel_ok (h : validateTunnel seen names decl = .ok d) :
    d.Ok ∧ d.called ∉ names := by
  simp only [validateTunnel, refuseIf_bind, mapError_bind] at h
  obtain ⟨-, -, -, hsealed, hkeyed, -, -, hname, hfree, hd⟩ := h
  obtain rfl : decl.normalized = d := by simpa [pure, Except.pure] using hd
  refine ⟨⟨settled_tunnelName ?_, ?_, ?_⟩, by simpa using hfree⟩
  rotate_left
  · intro hpsk
    simpa [hpsk] using hkeyed
  · intro hencrypt
    simpa [hencrypt] using hsealed
  intro name hnorm
  rw [LocalTunnel.normalized, Option.map_eq_some_iff] at hnorm
  obtain ⟨raw, hraw, rfl⟩ := hnorm
  rw [trim_trim]
  rw [hraw, Option.elim_some] at hname
  exact settled_of_validateName hname

theorem validateFrom_ok (h : validateFrom seen names raw = .ok out) :
    (∀ d ∈ out, d.Ok ∧ d.called ∉ names) ∧ (out.map LocalTunnel.called).Nodup := by
  induction raw generalizing seen names out with
  | nil =>
      obtain rfl : [] = out := by simpa [validateFrom] using h
      simp
  | cons decl rest ih =>
      simp only [validateFrom, bind, Except.bind] at h
      cases hone : validateTunnel seen names decl with
      | error e => simp [hone] at h
      | ok d =>
          simp only [hone] at h
          cases hrest : validateFrom ((d.target, d.protocol) :: seen) (d.called :: names) rest with
          | error e => simp [hrest] at h
          | ok ds =>
              obtain rfl : d :: ds = out := by simpa [hrest, pure, Except.pure] using h
              obtain ⟨hall, hnodup⟩ := ih hrest
              refine ⟨?_, ?_⟩
              · intro x hx
                rcases List.mem_cons.mp hx with rfl | hx
                · exact validateTunnel_ok hone
                · have hin := hall x hx
                  exact ⟨hin.1, fun hmem => hin.2 (List.mem_cons_of_mem _ hmem)⟩
              · rw [List.map_cons, List.nodup_cons]
                refine ⟨?_, hnodup⟩
                intro hmem
                obtain ⟨x, hx, hsame⟩ := List.mem_map.mp hmem
                exact (hall x hx).2 (by rw [hsame]; exact List.mem_cons_self)

/-- **The accepted lists.** Every tunnel of one has a name a query carries
as it is and keeps its key beside `encrypt`, and no two have the same name. -/
theorem validateTunnels_ok (h : validateTunnels raw = .ok out) :
    (∀ d ∈ out, d.Ok) ∧ (out.map LocalTunnel.called).Nodup := by
  obtain ⟨hall, hnodup⟩ := validateFrom_ok h
  exact ⟨fun d hd => (hall d hd).1, hnodup⟩

end Aperio
