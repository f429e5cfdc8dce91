import Aperio.DeliveryLog
import Aperio.Egress

/-!
# Template variables

`expand_vars` of `aperio-config/src/authoring.rs`, which every configuration
file goes through before it is parsed: `${NAME}` and `${NAME:-default}` stand
for what the environment says, and nothing else in the text does.

The text is read as a template, a list of pieces that are single characters
or holes. Positions in it are counted in bytes, as its errors name them. The
environment is a parameter.
-/

namespace Aperio

/-! ## The program -/

section Program

variable (lookup : String → Option String)

def unterminated (at_ : Nat) : String :=
  "unterminated `$\x7b` in the config file at byte " ++ toString at_ ++
    "; write `\x7d` or escape the `$`"

def notAName (inner : String) : String :=
  "`$\x7b" ++ inner ++ "\x7d` is not a variable name (letters, digits and underscore)"

def notSet (name : String) : String :=
  "`$\x7b" ++ name ++ "\x7d` is not set in the environment; set it, or write a default as `$\x7b" ++
    name ++ ":-value\x7d`"

/-- What `${inner}` stands for. -/
def readHole (inner : String) : Except String (List Char) :=
  let (name, fallback) :=
    match splitOnceText inner ":-" with
    | some (name, fallback) => (trim name, some fallback)
    | none => (trim inner, none)
  if name = "" ∨ ¬ name.toList.all (fun c => isAsciiAlphanumeric c || c == '_') then
    .error (notAName inner)
  else
    match (lookup name).or fallback with
    | some value => .ok value.toList
    | none => .error (notSet name)

/-- The loop, from byte `i` on. Each turn takes a character or a hole. -/
def expandFrom : Nat → Nat → List Char → Except String (List Char)
  | 0, _, _ => .ok []
  | _ + 1, _, [] => .ok []
  | n + 1, i, c :: rest =>
    if c = '$' ∧ rest.head? = some '{' then
      let inner := rest.tail.takeWhile (· != '}')
      match rest.tail.dropWhile (· != '}') with
      | [] => .error (unterminated i)
      | _ :: after => do
        let value ← readHole lookup (String.ofList inner)
        let out ← expandFrom n (i + 2 + byteLength inner + 1) after
        .ok (value ++ out)
    else do
      let out ← expandFrom n (i + c.utf8Size) rest
      .ok (c :: out)

def expandVars (text : String) : Except String String :=
  (expandFrom lookup text.toList.length 0 text.toList).map String.ofList

end Program

/-! ## Templates -/

inductive Piece where
  | char (c : Char)
  | hole (inner : List Char)
deriving Repr, DecidableEq

def Piece.text : Piece → List Char
  | .char c => [c]
  | .hole inner => '$' :: '{' :: inner ++ ['}']

def templateText (pieces : List Piece) : List Char :=
  pieces.flatMap Piece.text

/-- The pieces are what their text reads as: no hole is left lying about as
characters, and each ends at the first brace. -/
def WellCut : List Piece → Prop
  | [] => True
  | .char c :: pieces => ¬ (c = '$' ∧ (templateText pieces).head? = some '{') ∧ WellCut pieces
  | .hole inner :: pieces => '}' ∉ inner ∧ WellCut pieces

/-- What the pieces stand for in turn, up to the first that stands for
nothing. -/
def templateValue (lookup : String → Option String) : List Piece → Except String (List Char)
  | [] => .ok []
  | .char c :: pieces => do
    let out ← templateValue lookup pieces
    .ok (c :: out)
  | .hole inner :: pieces => do
    let value ← readHole lookup (String.ofList inner)
    let out ← templateValue lookup pieces
    .ok (value ++ out)

@[simp] theorem templateText_char (c : Char) (pieces : List Piece) :
    templateText (.char c :: pieces) = c :: templateText pieces :=
  rfl

@[simp] theorem templateText_hole (inner : List Char) (pieces : List Piece) :
    templateText (.hole inner :: pieces) = '$' :: '{' :: inner ++ '}' :: templateText pieces := by
  simp [templateText, Piece.text]

/-- What is left of a text when the loop is done with it: nothing, or a hole
that does not end. -/
inductive TemplateEnds (lookup : String → Option String) (i : Nat) (pieces : List Piece) :
    List Char → Except String (List Char) → Prop
  | whole : TemplateEnds lookup i pieces (templateText pieces) (templateValue lookup pieces)
  | open_ {rest : List Char} (h : '}' ∉ rest) :
      TemplateEnds lookup i pieces (templateText pieces ++ '$' :: '{' :: rest)
        ((templateValue lookup pieces).bind fun _ =>
          .error (unterminated (i + byteLength (templateText pieces))))

variable {lookup : String → Option String} {i n : Nat} {pieces : List Piece} {text : List Char}
  {out : Except String (List Char)}

theorem TemplateEnds.char {c : Char} (h : TemplateEnds lookup (i + c.utf8Size) pieces text out) :
    TemplateEnds lookup i (.char c :: pieces) (c :: text) (out.bind fun out => .ok (c :: out)) := by
  cases h with
  | whole => exact .whole
  | @open_ rest hrest =>
      have h := @TemplateEnds.open_ lookup i (.char c :: pieces) rest hrest
      have hvalue : ∀ e : String, ((templateValue lookup (.char c :: pieces)).bind fun _ =>
          (.error e : Except String (List Char))) =
            ((templateValue lookup pieces).bind fun _ => .error e).bind
              fun out => .ok (c :: out) := by
        intro e
        rw [templateValue]
        cases templateValue lookup pieces <;> rfl
      rw [hvalue, templateText_char, byteLength_cons, ← Nat.add_assoc] at h
      exact h

theorem TemplateEnds.hole {inner : List Char}
    (h : TemplateEnds lookup (i + 2 + byteLength inner + 1) pieces text out) :
    TemplateEnds lookup i (.hole inner :: pieces) ('$' :: '{' :: inner ++ '}' :: text)
      ((readHole lookup (String.ofList inner)).bind fun value =>
        out.bind fun out => .ok (value ++ out)) := by
  cases h with
  | whole =>
      rw [← templateText_hole]
      exact .whole
  | @open_ rest hrest =>
      have h := @TemplateEnds.open_ lookup i (.hole inner :: pieces) rest hrest
      have hbytes : i + byteLength (templateText (.hole inner :: pieces)) =
          i + 2 + byteLength inner + 1 + byteLength (templateText pieces) := by
        simp only [templateText_hole, List.cons_append, byteLength_cons, byteLength_append]
        have hdollar : '$'.utf8Size = 1 := rfl
        have hopen : '{'.utf8Size = 1 := rfl
        have hclose : '}'.utf8Size = 1 := rfl
        omega
      rw [hbytes] at h
      convert h using 1
      · simp
      · simp only [templateValue]
        cases readHole lookup (String.ofList inner) with
        | error e => rfl
        | ok value => cases templateValue lookup pieces <;> rfl

theorem TemplateEnds.extends (h : TemplateEnds lookup i pieces text out) :
    ∃ after, text = templateText pieces ++ after := by
  cases h with
  | whole => exact ⟨[], (List.append_nil _).symm⟩
  | open_ _ => exact ⟨_, rfl⟩

/-- **Step lemma.** The loop reads its text piece by piece; the induction is
on the turns that are left, and each takes at least a character. -/
theorem expandFrom_spec (h : text.length ≤ n) :
    ∃ pieces, WellCut pieces ∧
      TemplateEnds lookup i pieces text (expandFrom lookup n i text) := by
  induction n generalizing i text with
  | zero =>
      obtain rfl := List.eq_nil_of_length_eq_zero (Nat.le_zero.mp h)
      exact ⟨[], trivial, .whole⟩
  | succ n ih =>
      cases text with
      | nil => exact ⟨[], trivial, .whole⟩
      | cons c rest =>
          rw [List.length_cons] at h
          by_cases hhole : c = '$' ∧ rest.head? = some '{'
          · obtain ⟨rfl, hhead⟩ := hhole
            obtain ⟨body, rfl⟩ := List.head?_eq_some_iff.mp hhead
            cases hafter : body.dropWhile (· != '}') with
            | nil =>
                have hopen : '}' ∉ body := by
                  intro hmem
                  have := List.dropWhile_eq_nil_iff.mp hafter _ hmem
                  simp at this
                refine ⟨[], trivial, ?_⟩
                have h := @TemplateEnds.open_ lookup i [] body hopen
                simpa [expandFrom, hafter, templateText, templateValue, byteLength, Except.bind] using h
            | cons d after =>
                have hsplit := List.takeWhile_append_dropWhile (p := (· != '}')) (l := body)
                have hd : d = '}' := by
                  have hnot := List.head_dropWhile_not (· != '}') (l := body) (by simp [hafter])
                  simpa [hafter] using hnot
                subst hd
                rw [hafter] at hsplit
                have hinner : '}' ∉ body.takeWhile (· != '}') := by
                  intro hmem
                  have := List.mem_takeWhile_imp hmem
                  simp at this
                have hlen : after.length ≤ n := by
                  have := congrArg List.length hsplit
                  simp only [List.length_append, List.length_cons] at this h
                  omega
                obtain ⟨pieces, hcut, hends⟩ :=
                  @ih (i + 2 + byteLength (body.takeWhile (· != '}')) + 1) after hlen
                refine ⟨.hole (body.takeWhile (· != '}')) :: pieces, ⟨hinner, hcut⟩, ?_⟩
                have h := hends.hole
                simp only [List.cons_append, hsplit] at h
                simpa [expandFrom, hafter, bind] using h
          · obtain ⟨pieces, hcut, hends⟩ := @ih (i + c.utf8Size) rest (Nat.le_of_succ_le_succ h)
            refine ⟨.char c :: pieces, ⟨?_, hcut⟩, ?_⟩
            · rintro ⟨rfl, hhead⟩
              refine hhole ⟨rfl, ?_⟩
              obtain ⟨after, rfl⟩ := hends.extends
              rw [List.head?_append, hhead, Option.some_or]
            · rw [expandFrom, if_neg hhole]
              exact hends.char

/-- **What a configuration file's text means.** Every text is a template,
with at its end a hole that is not closed or none; what comes out is what its
pieces stand for one after the other; and the error is that of the first
piece that stands for nothing, or names the byte the unclosed hole is at. -/
theorem expand_vars_meaning (lookup : String → Option String) (text : String) :
    ∃ pieces, WellCut pieces ∧
      ((text.toList = templateText pieces ∧
          expandVars lookup text = (templateValue lookup pieces).map String.ofList) ∨
        ∃ rest, '}' ∉ rest ∧ text.toList = templateText pieces ++ '$' :: '{' :: rest ∧
          expandVars lookup text = (templateValue lookup pieces).bind fun _ =>
            .error (unterminated (byteLength (templateText pieces)))) := by
  obtain ⟨pieces, hcut, hends⟩ :=
    @expandFrom_spec lookup 0 text.toList.length text.toList (Nat.le_refl _)
  refine ⟨pieces, hcut, ?_⟩
  rw [expandVars]
  generalize expandFrom lookup text.toList.length 0 text.toList = result at hends
  generalize text.toList = letters at hends ⊢
  cases hends with
  | whole => exact .inl ⟨rfl, rfl⟩
  | @open_ rest hrest =>
      refine .inr ⟨rest, hrest, rfl, ?_⟩
      rw [Nat.zero_add]
      cases templateValue lookup pieces <;> rfl

end Aperio
