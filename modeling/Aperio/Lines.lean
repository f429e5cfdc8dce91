import Aperio.Text

/-!
# Files of lines

`str::lines` as the standard library documents it, and the text it reads
back: one line after the other, each closed by a newline. A text that ends
in a newline is read on its own, whatever follows it, which is what lets a
file be looked at piece by piece.
-/

namespace Aperio

/-! ## Reading lines -/

/-- `str::split_inclusive` at newlines. -/
def splitInclusive : List Char → List (List Char)
  | [] => []
  | c :: cs =>
    if c = '\n' then [c] :: splitInclusive cs
    else
      match splitInclusive cs with
      | [] => [[c]]
      | p :: ps => (c :: p) :: ps

/-- A piece without the end of its line. A carriage return that no newline
follows is kept. -/
def stripLineEnd (piece : List Char) : List Char :=
  if piece.getLast? = some '\n' then
    if piece.dropLast.getLast? = some '\r' then piece.dropLast.dropLast else piece.dropLast
  else piece

def lines (s : String) : List String :=
  (splitInclusive s.toList).map fun p => String.ofList (stripLineEnd p)

example : lines "a\r\n\nb\r" = ["a", "", "b\r"] := by decide

/-- Every line followed by a newline. -/
def linesText (ls : List String) : String :=
  String.ofList (ls.flatMap fun l => l.toList ++ ['\n'])

/-- A text that reads as one line. -/
structure IsLine (l : String) : Prop where
  no_newline : '\n' ∉ l.toList
  no_return : l.toList.getLast? ≠ some '\r'

/-- A text whose last line is closed. -/
def Closed (s : String) : Prop :=
  s.toList = [] ∨ s.toList.getLast? = some '\n'

/-! ## Piece by piece -/

theorem splitInclusive_ne_nil {cs : List Char} (h : cs ≠ []) : splitInclusive cs ≠ [] := by
  cases cs with
  | nil => exact absurd rfl h
  | cons c cs =>
      rw [splitInclusive]
      split
      · exact List.cons_ne_nil _ _
      · split
        · exact List.cons_ne_nil _ _
        · exact List.cons_ne_nil _ _

theorem splitInclusive_append {p : List Char} (h : p = [] ∨ p.getLast? = some '\n')
    (q : List Char) : splitInclusive (p ++ q) = splitInclusive p ++ splitInclusive q := by
  induction p with
  | nil => rfl
  | cons c cs ih =>
      have hlast : (c :: cs).getLast? = some '\n' := h.resolve_left (List.cons_ne_nil _ _)
      by_cases hc : c = '\n'
      · have hcs : cs = [] ∨ cs.getLast? = some '\n' := by
          cases cs with
          | nil => exact .inl rfl
          | cons d ds => exact .inr (by simpa using hlast)
        rw [List.cons_append, splitInclusive, if_pos hc, ih hcs, splitInclusive, if_pos hc,
          List.cons_append]
      · cases cs with
        | nil =>
            rw [List.getLast?_singleton] at hlast
            exact absurd (Option.some.inj hlast) hc
        | cons d ds =>
            obtain ⟨p, ps, hp⟩ := List.exists_cons_of_ne_nil
              (splitInclusive_ne_nil (List.cons_ne_nil d ds))
            have hcons : splitInclusive (c :: d :: ds) = (c :: p) :: ps := by
              rw [splitInclusive, if_neg hc, hp]
            rw [hcons, List.cons_append, splitInclusive, if_neg hc,
              ih (.inr (by simpa using hlast)), hp]
            rfl

theorem splitInclusive_line {l : List Char} (h : '\n' ∉ l) :
    splitInclusive (l ++ ['\n']) = [l ++ ['\n']] := by
  induction l with
  | nil => rfl
  | cons c cs ih =>
      rw [List.mem_cons, not_or] at h
      rw [List.cons_append, splitInclusive, if_neg (Ne.symm h.1), ih h.2]

theorem lines_append {s : String} (h : Closed s) (t : String) :
    lines (s ++ t) = lines s ++ lines t := by
  rw [lines, String.toList_append, splitInclusive_append h, List.map_append]
  rfl

theorem lines_line {l : String} (h : IsLine l) : lines (l ++ "\n") = [l] := by
  have htext : (l ++ "\n").toList = l.toList ++ ['\n'] := by
    rw [String.toList_append]
    rfl
  rw [lines, htext, splitInclusive_line h.no_newline, List.map_singleton, stripLineEnd,
    List.getLast?_concat, if_pos rfl, List.dropLast_concat, if_neg h.no_return,
    String.ofList_toList]

/-! ## Texts of lines -/

@[simp] theorem linesText_nil : linesText [] = "" := rfl

theorem linesText_cons (l : String) (ls : List String) :
    linesText (l :: ls) = (l ++ "\n") ++ linesText ls := by
  apply String.toList_injective
  simp [linesText]

theorem linesText_append (ls ms : List String) :
    linesText (ls ++ ms) = linesText ls ++ linesText ms := by
  apply String.toList_injective
  simp [linesText]

theorem closed_line (l : String) : Closed (l ++ "\n") := by
  refine .inr ?_
  rw [String.toList_append]
  exact List.getLast?_concat

theorem Closed.append {s t : String} (hs : Closed s) (ht : Closed t) : Closed (s ++ t) := by
  unfold Closed at *
  rw [String.toList_append]
  rcases ht with hnil | hlast
  · rw [hnil, List.append_nil]
    exact hs
  · refine .inr ?_
    rw [List.getLast?_append, hlast, Option.some_or]

theorem closed_linesText (ls : List String) : Closed (linesText ls) := by
  induction ls with
  | nil => exact .inl rfl
  | cons l ls ih =>
      rw [linesText_cons]
      exact (closed_line l).append ih

/-- What was written line by line is read line by line. -/
theorem lines_linesText {ls : List String} (h : ∀ l ∈ ls, IsLine l) : lines (linesText ls) = ls := by
  induction ls with
  | nil => rfl
  | cons l ls ih =>
      rw [linesText_cons, lines_append (closed_line l), lines_line (h l List.mem_cons_self),
        ih fun m hm => h m (List.mem_cons_of_mem _ hm), List.singleton_append]

theorem join_newline {ls : List String} (h : ls ≠ []) : join ls "\n" ++ "\n" = linesText ls := by
  induction ls with
  | nil => exact absurd rfl h
  | cons l ls ih =>
      apply String.toList_injective
      cases ls with
      | nil => simp [join, linesText]
      | cons m ms =>
          have hrest := congrArg String.toList (ih (List.cons_ne_nil _ _))
          rw [String.toList_append] at hrest
          have hjoin : (join (l :: m :: ms) "\n").toList =
              l.toList ++ '\n' :: (join (m :: ms) "\n").toList := by
            simp [join]
          rw [String.toList_append, hjoin, List.append_assoc, List.cons_append, hrest]
          simp [linesText]

end Aperio
