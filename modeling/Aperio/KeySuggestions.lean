import Mathlib.Data.List.Basic
import Aperio.EditDistance
import Aperio.Text

/-!
# The key that was meant

`authoring.rs` of the config: `distance_within`, which fills two rows of a
table and gives up when a row is past the bound, and `suggest`, which guesses
the key a person meant. The guess is the nearest key by edits, and the first of
the nearest (`suggest_nearest`).
-/

namespace Aperio

/-! ## The table -/

/-- The rest of a row: `left` is the entry before, and the row above is read
with one entry more. -/
def rowFrom (ca : Char) (left : Nat) : List Nat → List Char → List Nat
  | diagonal :: above :: rest, cb :: b =>
    let v := min (min (diagonal + if ca = cb then 0 else 1) (above + 1)) (left + 1)
    v :: rowFrom ca v (above :: rest) b
  | _, _ => []

/-- `usize::MAX`. -/
def usizeMax : Nat := 18446744073709551615

/-- The rows of `distance_within`, from the one of `i` letters on. -/
def distanceRows (max : Nat) (b : List Char) : Nat → List Char → List Nat → Option (List Nat)
  | _, [], prev => some prev
  | i, ca :: a, prev =>
    let cur := (i + 1) :: rowFrom ca (i + 1) prev b
    if max < cur.min?.getD usizeMax then none else distanceRows max b (i + 1) a cur

/-- `abs_diff` of two lengths in bytes. -/
def byteDiff (a b : String) : Nat :=
  (a.utf8ByteSize - b.utf8ByteSize) + (b.utf8ByteSize - a.utf8ByteSize)

def distanceWithin (a b : String) (max : Nat) : Option Nat :=
  if max < byteDiff a b then none
  else match distanceRows max b.toList 0 a.toList (List.range (b.toList.length + 1)) with
    | none => none
    | some prev =>
      let d := prev[b.toList.length]?.getD 0
      if d ≤ max then some d else none

/-! ## The guess -/

/-- `str::replace` of one character. -/
def replaceChar (s : String) (c d : Char) : String :=
  String.ofList (s.toList.map fun x => if x = c then d else x)

/-- The threshold scales with the length of the name. -/
def suggestBudget (unknown : String) : Option Nat :=
  let letters := unknown.toList.length
  if letters ≤ 3 then none else if letters ≤ 7 then some 1 else some 2

/-- The loop of `suggest`. -/
def suggestFrom (lower : String) (budget : Nat) :
    Option (Nat × String) → List String → Option String
  | best, [] => best.map (·.2)
  | best, candidate :: known =>
    let normalized := toAsciiLowercase candidate
    if replaceChar lower '-' '_' = normalized then some candidate
    else match distanceWithin lower normalized budget with
      | some d =>
        if best.all fun (bd, _) => decide (d < bd) then
          suggestFrom lower budget (some (d, candidate)) known
        else suggestFrom lower budget best known
      | none => suggestFrom lower budget best known

def suggest (unknown : String) (known : List String) : Option String :=
  (suggestBudget unknown).bind fun budget =>
    suggestFrom (toAsciiLowercase unknown) budget none known

/-! ## The rows are distances -/

/-- The entries of a row after the one of `done`. -/
def tailRow (p done : List Char) : List Char → List Nat
  | [] => []
  | c :: todo => editDistance p (done ++ [c]) :: tailRow p (done ++ [c]) todo

/-- The row of a beginning `p`: its distances to the beginnings of `b`. -/
def distanceRow (p b : List Char) : List Nat :=
  editDistance p [] :: tailRow p [] b

theorem rowFrom_eq (p : List Char) (ca : Char) (done todo : List Char) :
    rowFrom ca (editDistance (p ++ [ca]) done) (editDistance p done :: tailRow p done todo) todo =
      tailRow (p ++ [ca]) done todo := by
  induction todo generalizing done with
  | nil => rfl
  | cons cb todo ih =>
      rw [tailRow, rowFrom, tailRow]
      have hentry : min (min (editDistance p done + if ca = cb then 0 else 1)
          (editDistance p (done ++ [cb]) + 1)) (editDistance (p ++ [ca]) done + 1) =
          editDistance (p ++ [ca]) (done ++ [cb]) := (editDistance_concat p done ca cb).symm
      rw [hentry, ih]

theorem distanceRow_concat (p b : List Char) (ca : Char) :
    (p.length + 1) :: rowFrom ca (p.length + 1) (distanceRow p b) b =
      distanceRow (p ++ [ca]) b := by
  have hhead : editDistance (p ++ [ca]) [] = p.length + 1 := by
    rw [editDistance_nil_right, List.length_append, List.length_singleton]
  have hrow := rowFrom_eq p ca [] b
  rw [hhead] at hrow
  rw [distanceRow, distanceRow, hrow, hhead]

theorem range_eq_distanceRow (b : List Char) : List.range (b.length + 1) = distanceRow [] b := by
  have htail : ∀ done todo : List Char,
      List.range' (done.length + 1) todo.length = tailRow [] done todo := by
    intro done todo
    induction todo generalizing done with
    | nil => rfl
    | cons c todo ih =>
        have hlen : (done ++ [c]).length = done.length + 1 := by
          rw [List.length_append, List.length_singleton]
        rw [List.length_cons, List.range'_succ, tailRow, editDistance_nil_left, hlen, ← ih, hlen]
  rw [List.range_eq_range', List.range'_succ, distanceRow, editDistance_nil_left, ← htail]
  rfl

theorem getElem?_tailRow (p done todo : List Char) {k : Nat} (hk : k ≤ todo.length) :
    (editDistance p done :: tailRow p done todo)[k]? =
      some (editDistance p (done ++ todo.take k)) := by
  induction todo generalizing done k with
  | nil =>
      obtain rfl := Nat.le_zero.mp hk
      rw [List.take_nil, List.append_nil]
      rfl
  | cons c todo ih =>
      cases k with
      | zero => rw [List.take_zero, List.append_nil]; rfl
      | succ k =>
          rw [List.getElem?_cons_succ, tailRow, ih _ (Nat.le_of_succ_le_succ hk),
            List.take_succ_cons, List.append_assoc]
          rfl

theorem getElem?_distanceRow (p b : List Char) {k : Nat} (hk : k ≤ b.length) :
    (distanceRow p b)[k]? = some (editDistance p (b.take k)) :=
  getElem?_tailRow p [] b hk

/-- A row past the bound: nothing that begins so comes within it. -/
theorem lt_editDistance_of_row {max : Nat} {p b : List Char}
    (h : max < (distanceRow p b).min?.getD usizeMax) (q : List Char) :
    max < editDistance (p ++ q) b := by
  obtain ⟨k, hk, hle⟩ := exists_take_le p q b
  have hmem := List.mem_of_getElem? (getElem?_distanceRow p b hk)
  cases hmin : (distanceRow p b).min? with
  | none =>
      rw [List.min?_eq_none_iff] at hmin
      rw [hmin] at hmem
      cases hmem
  | some m =>
      rw [hmin, Option.getD_some] at h
      have := (List.min?_eq_some_iff.mp hmin).2 _ hmem
      omega

/-- The loop ends with the row of the whole, or the whole is past the bound. -/
theorem distanceRows_eq (max : Nat) (p q b : List Char) :
    distanceRows max b p.length q (distanceRow p b) = some (distanceRow (p ++ q) b) ∨
      distanceRows max b p.length q (distanceRow p b) = none ∧
        max < editDistance (p ++ q) b := by
  induction q generalizing p with
  | nil => exact .inl (by rw [distanceRows, List.append_nil])
  | cons ca q ih =>
      rw [distanceRows, distanceRow_concat]
      split
      · rename_i hpast
        refine .inr ⟨rfl, ?_⟩
        have := lt_editDistance_of_row hpast q
        rwa [List.append_assoc] at this
      · have hnext := ih (p ++ [ca])
        rw [List.length_append, List.length_singleton, List.append_assoc] at hnext
        exact hnext

theorem distanceWithin_eq (a b : String) (max : Nat) :
    distanceWithin a b max =
      if max < byteDiff a b then none
      else if editDistance a.toList b.toList ≤ max then some (editDistance a.toList b.toList)
      else none := by
  unfold distanceWithin
  split
  · rfl
  · rw [range_eq_distanceRow]
    rcases distanceRows_eq max [] a.toList b.toList with hrow | ⟨hrow, hpast⟩
    · rw [List.length_nil, List.nil_append] at hrow
      rw [hrow]
      dsimp only
      rw [getElem?_distanceRow _ _ (Nat.le_refl _), List.take_length, Option.getD_some]
    · rw [List.length_nil] at hrow
      rw [List.nil_append] at hpast
      rw [hrow]
      dsimp only
      rw [if_neg (Nat.not_le.mpr hpast)]

/-! ## Names of one byte a letter -/

/-- `str::is_ascii`. -/
def isAscii (s : String) : Bool :=
  s.toList.all fun c => decide (c.val ≤ 127)

theorem utf8ByteSize_of_ascii {s : String} (h : isAscii s = true) :
    s.utf8ByteSize = s.toList.length := by
  have hlist : ∀ l : List Char, (∀ c ∈ l, c.val ≤ 127) →
      (String.ofList l).utf8ByteSize = l.length := by
    intro l hl
    induction l with
    | nil => rfl
    | cons c l ih =>
        rw [String.ofList_cons, String.utf8ByteSize_append, String.utf8ByteSize_singleton,
          ih fun d hd => hl d (List.mem_cons_of_mem _ hd),
          Char.utf8Size_eq_one_iff.mpr (hl c (List.mem_cons_self ..)), List.length_cons]
        omega
  have := hlist s.toList fun c hc => of_decide_eq_true (List.all_eq_true.mp h c hc)
  rwa [String.ofList_toList] at this

/-- The least number of edits between two names. -/
def IsDistance (a b : String) (d : Nat) : Prop :=
  ListEdits d a.toList b.toList ∧ ∀ n, ListEdits n a.toList b.toList → d ≤ n

theorem isDistance_iff {a b : String} {d : Nat} :
    IsDistance a b d ↔ editDistance a.toList b.toList = d := by
  constructor
  · rintro ⟨hd, hleast⟩
    exact Nat.le_antisymm (editDistance_least hd) (hleast _ (editDistance_edits _ _))
  · rintro rfl
    exact ⟨editDistance_edits _ _, fun n hn => editDistance_least hn⟩

theorem distanceWithin_eq_some {a b : String} {max d : Nat} :
    distanceWithin a b max = some d ↔ byteDiff a b ≤ max ∧ d ≤ max ∧ IsDistance a b d := by
  rw [distanceWithin_eq, isDistance_iff]
  split
  · rename_i hbytes
    constructor
    · intro h
      cases h
    · rintro ⟨hle, -⟩
      omega
  · rename_i hbytes
    split
    · rename_i hle
      rw [Option.some_inj]
      constructor
      · rintro rfl
        exact ⟨Nat.not_lt.mp hbytes, hle, rfl⟩
      · rintro ⟨-, -, rfl⟩
        rfl
    · rename_i hpast
      constructor
      · intro h
        cases h
      · rintro ⟨-, hle, rfl⟩
        exact absurd hle hpast

/-- **The early ways out lose nothing** on names of one byte a letter: what
`distance_within` answers is the least number of edits, whenever that is within
the bound. -/
theorem distance_within_least {a b : String} (ha : isAscii a = true) (hb : isAscii b = true)
    (max d : Nat) :
    distanceWithin a b max = some d ↔ d ≤ max ∧ IsDistance a b d := by
  rw [distanceWithin_eq_some]
  refine ⟨And.right, fun h => ⟨?_, h⟩⟩
  obtain ⟨hle, hdistance⟩ := h
  rw [isDistance_iff] at hdistance
  have := length_sub_le_editDistance a.toList b.toList
  rw [byteDiff, utf8ByteSize_of_ascii ha, utf8ByteSize_of_ascii hb]
  omega

theorem distance_within_least_hostname :
    distanceWithin "hostnme" "hostname" 1 = some 1 ↔ 1 ≤ 1 ∧ IsDistance "hostnme" "hostname" 1 :=
  distance_within_least (by decide) (by decide) 1 1

/-! ## The nearest key -/

/-- `candidate` is within the budget of `lower`, `d` edits away. -/
def Close (lower : String) (budget : Nat) (candidate : String) (d : Nat) : Prop :=
  byteDiff lower (toAsciiLowercase candidate) ≤ budget ∧ d ≤ budget ∧
    IsDistance lower (toAsciiLowercase candidate) d

/-- The key itself, in another style. -/
def SameKey (lower candidate : String) : Prop :=
  replaceChar lower '-' '_' = toAsciiLowercase candidate

/-- The best of the keys seen: the first of the nearest. -/
def Best (lower : String) (budget : Nat) (seen : List String) : Option (Nat × String) → Prop
  | none => ∀ k ∈ seen, ∀ d, ¬ Close lower budget k d
  | some (d, c) => ∃ before after, seen = before ++ c :: after ∧ Close lower budget c d ∧
    (∀ k ∈ before, ∀ d', Close lower budget k d' → d < d') ∧
    ∀ k ∈ after, ∀ d', Close lower budget k d' → d ≤ d'

theorem Close.unique {lower candidate : String} {budget d d' : Nat}
    (h : Close lower budget candidate d) (h' : Close lower budget candidate d') : d = d' :=
  (isDistance_iff.mp h.2.2).symm.trans (isDistance_iff.mp h'.2.2)

/-- A key that is nearer than the best becomes it. -/
theorem Best.nearer {lower c : String} {budget d : Nat} {seen : List String}
    {best : Option (Nat × String)} (h : Best lower budget seen best)
    (hclose : Close lower budget c d) (hless : best.all (fun (bd, _) => decide (d < bd)) = true) :
    Best lower budget (seen ++ [c]) (some (d, c)) := by
  refine ⟨seen, [], rfl, hclose, ?_, nofun⟩
  intro k hk d' hd'
  cases best with
  | none => exact absurd hd' (h k hk d')
  | some b =>
      obtain ⟨before, after, rfl, hbest, hbefore, hafter⟩ := h
      have hlt := of_decide_eq_true hless
      rcases List.mem_append.mp hk with hk | hk
      · exact hlt.trans (hbefore k hk d' hd')
      · rcases List.mem_cons.mp hk with rfl | hk
        · rwa [hbest.unique hd'] at hlt
        · exact Nat.lt_of_lt_of_le hlt (hafter k hk d' hd')

/-- A key that is not leaves it. -/
theorem Best.stays {lower c : String} {budget : Nat} {seen : List String}
    {best : Option (Nat × String)} (h : Best lower budget seen best)
    (hmore : ∀ d, Close lower budget c d → ∃ b, best = some b ∧ b.1 ≤ d) :
    Best lower budget (seen ++ [c]) best := by
  cases best with
  | none =>
      intro k hk d hclose
      rcases List.mem_append.mp hk with hk | hk
      · exact h k hk d hclose
      · rw [List.mem_singleton.mp hk] at hclose
        obtain ⟨b, hb, -⟩ := hmore d hclose
        cases hb
  | some b =>
      obtain ⟨before, after, rfl, hbest, hbefore, hafter⟩ := h
      refine ⟨before, after ++ [c], by rw [List.append_assoc, List.cons_append], hbest, hbefore, ?_⟩
      intro k hk d hclose
      rcases List.mem_append.mp hk with hk | hk
      · exact hafter k hk d hclose
      · rw [List.mem_singleton.mp hk] at hclose
        obtain ⟨b', hb', hle⟩ := hmore d hclose
        rwa [← Option.some.inj hb'] at hle

/-- The loop, from the best of what it has seen. -/
theorem suggestFrom_spec {lower : String} {budget : Nat} (known seen : List String)
    {best : Option (Nat × String)} (h : Best lower budget seen best)
    (hseen : ∀ k ∈ seen, ¬ SameKey lower k) :
    (∃ before after c, known = before ++ c :: after ∧ SameKey lower c ∧
      (∀ k ∈ before, ¬ SameKey lower k) ∧ suggestFrom lower budget best known = some c) ∨
    (∀ k ∈ seen ++ known, ¬ SameKey lower k) ∧ ∃ last, Best lower budget (seen ++ known) last ∧
      suggestFrom lower budget best known = last.map (·.2) := by
  induction known generalizing seen best with
  | nil =>
      rw [List.append_nil]
      exact .inr ⟨hseen, best, h, rfl⟩
  | cons c known ih =>
      rw [suggestFrom]
      dsimp only
      split
      · rename_i hsame
        exact .inl ⟨[], known, c, rfl, hsame, nofun, rfl⟩
      · rename_i hother
        -- What the rest of the loop does, once the best of `seen ++ [c]` is known.
        have hrest : ∀ {next : Option (Nat × String)}, Best lower budget (seen ++ [c]) next →
            (∃ before after d, c :: known = before ++ d :: after ∧ SameKey lower d ∧
              (∀ k ∈ before, ¬ SameKey lower k) ∧ suggestFrom lower budget next known = some d) ∨
            (∀ k ∈ seen ++ c :: known, ¬ SameKey lower k) ∧
              ∃ last, Best lower budget (seen ++ c :: known) last ∧
                suggestFrom lower budget next known = last.map (·.2) := by
          intro next hnext
          have hseen' : ∀ k ∈ seen ++ [c], ¬ SameKey lower k := by
            intro k hk
            rcases List.mem_append.mp hk with hk | hk
            · exact hseen k hk
            · rw [List.mem_singleton.mp hk]
              exact hother
          rcases ih (seen ++ [c]) hnext hseen' with
            ⟨before, after, d, rfl, hsame, hbefore, hresult⟩ | hnone
          · refine .inl ⟨c :: before, after, d, rfl, hsame, ?_, hresult⟩
            intro k hk
            rcases List.mem_cons.mp hk with rfl | hk
            · exact hother
            · exact hbefore k hk
          · rw [List.append_assoc, List.singleton_append] at hnone
            exact .inr hnone
        split
        · rename_i d hd
          have hclose : Close lower budget c d := distanceWithin_eq_some.mp hd
          split
          · rename_i hless
            exact hrest (h.nearer hclose hless)
          · rename_i hmore
            refine hrest (h.stays fun d' hd' => ?_)
            cases best with
            | none => exact absurd rfl hmore
            | some b =>
                refine ⟨b, rfl, ?_⟩
                rw [← hclose.unique hd']
                rw [Option.all_some, decide_eq_true_eq] at hmore
                exact Nat.not_lt.mp hmore
        · rename_i hnone
          refine hrest (h.stays fun d' hd' => ?_)
          rw [distanceWithin_eq_some.mpr hd'] at hnone
          cases hnone

/-- **The guess is the nearest key**: the first that is the name itself in
another style; otherwise, of those no further off in bytes than the budget, the
first of the fewest edits away, within one edit for a name of up to seven
letters and two for a longer one; and nothing for a name of three letters or
fewer, or when no key is that near. -/
theorem suggest_nearest (unknown : String) (known : List String) :
    (unknown.toList.length ≤ 3 → suggest unknown known = none) ∧
    (3 < unknown.toList.length →
      (∃ before after c, known = before ++ c :: after ∧
        SameKey (toAsciiLowercase unknown) c ∧
        (∀ k ∈ before, ¬ SameKey (toAsciiLowercase unknown) k) ∧
        suggest unknown known = some c) ∨
      (∀ k ∈ known, ¬ SameKey (toAsciiLowercase unknown) k) ∧
        ∃ last, Best (toAsciiLowercase unknown)
          (if unknown.toList.length ≤ 7 then 1 else 2) known last ∧
          suggest unknown known = last.map (·.2)) := by
  refine ⟨fun hshort => ?_, fun hlong => ?_⟩
  · rw [suggest, suggestBudget, if_pos hshort]
    rfl
  · have hbudget : suggestBudget unknown =
        some (if unknown.toList.length ≤ 7 then 1 else 2) := by
      rw [suggestBudget, if_neg (Nat.not_le.mpr hlong)]
      split <;> rfl
    rw [suggest, hbudget, Option.bind_some]
    have hunseen : Best (toAsciiLowercase unknown)
        (if unknown.toList.length ≤ 7 then 1 else 2) [] none := nofun
    exact suggestFrom_spec known [] hunseen nofun

example : suggest "max-concurent" ["hostname", "max_concurrent"] = some "max_concurrent" := by
  decide +kernel

end Aperio
