import SumCluster.Proofs.Json.Token

/-!
Every value is read back from its text, in either layout and at any depth. The reader takes a step
for each character at most, so a text's length is enough steps for it. Each lemma about one step
says what the reader makes of a value from what it makes of the parts; the writer then has only to
lay the parts out the way the reader expects them.
-/

namespace SumCluster.Json

open Text (digits isDigit digits_eq_cons)

variable {layout : Layout} {depth fuel : Nat} {c : Char} {cs body tail more after rest : List Char}
  {v : Value} {vs : List Value} {name : Literal} {ms : List (Literal × Value)}

/-! ### White space -/

theorem skip_cons (hc : isSpace c = false) : skip (c :: cs) = c :: cs := by
  simp [skip, hc]

/-- A new line and its indent are skipped. -/
@[simp]
theorem skip_newline (layout : Layout) (depth : Nat) (cs : List Char) :
    skip (layout.newline depth ++ cs) = skip cs := by
  have hspaces : ∀ n, skip (List.replicate n ' ' ++ cs) = skip cs := by
    intro n
    induction n with
    | zero => rfl
    | succ n ih => exact ih
  cases layout with
  | compact => rfl
  | indented => exact hspaces (2 * depth)

theorem skip_newline_cons (layout : Layout) (depth : Nat) (hc : isSpace c = false) :
    skip (layout.newline depth ++ c :: cs) = c :: cs :=
  (skip_newline layout depth (c :: cs)).trans (skip_cons hc)

/-- A colon and the space that may follow it. -/
theorem exists_colon (layout : Layout) (cs : List Char) :
    ∃ tail, layout.colon ++ cs = ':' :: tail ∧ skip tail = skip cs := by
  cases layout with
  | compact => exact ⟨cs, rfl, rfl⟩
  | indented => exact ⟨' ' :: cs, rfl, rfl⟩

/-! ### Heads -/

/-- A character that a number begins with. -/
def startsNumber (c : Char) : Bool := c = '-' || isDigit c

theorem exists_printNumber (x : Number) :
    ∃ c cs, printNumber x = c :: cs ∧ startsNumber c = true := by
  have hsigned : ∀ negative n tail, ∃ c cs,
      printSign negative ++ digits n ++ tail = c :: cs ∧ startsNumber c = true := by
    intro negative n tail
    obtain ⟨d, ds, hrow, hd, -⟩ := digits_eq_cons n
    cases negative with
    | true => exact ⟨'-', _, rfl, rfl⟩
    | false => exact ⟨d, ds ++ tail, by rw [hrow]; rfl, by simp [startsNumber, hd]⟩
  cases x with
  | int negative n =>
    simpa [printNumber] using hsigned negative n []
  | scaled negative n e => exact hsigned negative n _

theorem startsNumber_ne {c d : Char} (hc : startsNumber c = true) (hd : startsNumber d = false) :
    c ≠ d := by
  rintro rfl
  simp [hc] at hd

theorem isSpace_of_startsNumber (hc : startsNumber c = true) : isSpace c = false := by
  have hne := fun d => startsNumber_ne (d := d) hc
  simp [isSpace, hne ' ' rfl, hne '\t' rfl, hne '\n' rfl, hne '\r' rfl]

/-- A value begins with neither white space nor the end of the list it is in. -/
theorem exists_printAt (layout : Layout) (depth : Nat) (v : Value) :
    ∃ c cs, printAt layout depth v = c :: cs ∧ isSpace c = false ∧ c ≠ ']' := by
  cases v with
  | null => exact ⟨'n', _, rfl, rfl, by decide⟩
  | bool b => cases b <;> exact ⟨_, _, rfl, rfl, by decide⟩
  | number x =>
    obtain ⟨c, cs, hx, hc⟩ := exists_printNumber x
    exact ⟨c, cs, by rw [printAt, hx], isSpace_of_startsNumber hc, startsNumber_ne hc rfl⟩
  | string s => cases s <;> exact ⟨'"', _, rfl, rfl, by decide⟩
  | array items => cases items <;> exact ⟨'[', _, by rw [printAt], rfl, by decide⟩
  | object members => cases members <;> exact ⟨'{', _, by rw [printAt], rfl, by decide⟩

/-- Nothing is skipped in front of a value. -/
@[simp]
theorem skip_printAt (layout : Layout) (depth : Nat) (v : Value) (cs : List Char) :
    skip (printAt layout depth v ++ cs) = printAt layout depth v ++ cs := by
  obtain ⟨c, ds, hv, hc, -⟩ := exists_printAt layout depth v
  rw [hv, List.cons_append, skip_cons hc]

/-- A member is its name, a colon and its value. -/
theorem exists_printMember (layout : Layout) (depth : Nat) (name : Literal) (v : Value)
    (tail : List Char) :
    ∃ body more, printMember layout depth (name, v) ++ tail = '"' :: body ∧
      stringBody body = some (name, ':' :: more) ∧ skip more = printAt layout depth v ++ tail := by
  obtain ⟨more, hcolon, hskip⟩ := exists_colon layout (printAt layout depth v ++ tail)
  obtain ⟨body, hprint, hread⟩ := printLiteral_append name (':' :: more)
  refine ⟨body, more, ?_, hread, hskip.trans (skip_printAt layout depth v tail)⟩
  rw [printMember, List.append_assoc, List.append_assoc, hcolon, hprint]

theorem skip_printMember (layout : Layout) (depth : Nat) (name : Literal) (v : Value)
    (tail : List Char) :
    skip (printMember layout depth (name, v) ++ tail) =
      printMember layout depth (name, v) ++ tail := by
  obtain ⟨body, more, hprint, -⟩ := exists_printMember layout depth name v tail
  rw [hprint, skip_cons rfl]

/-- What follows a value among others is no part of a number. -/
theorem endsNumber_newline (layout : Layout) (depth : Nat) (hc : endsNumber c = true) :
    EndsNumber (layout.newline depth ++ c :: cs) := by
  cases layout with
  | compact => exact endsNumber_cons.mpr hc
  | indented => exact endsNumber_cons.mpr rfl

/-! ### One step of the reader -/

theorem valueAt_number (x : Number) (hrest : EndsNumber rest) :
    valueAt (fuel + 1) (printNumber x ++ rest) = some (.number x, rest) := by
  obtain ⟨c, cs, hx, hc⟩ := exists_printNumber x
  have hread : number (c :: (cs ++ rest)) = some (x, rest) := by
    rw [← List.cons_append, ← hx]
    exact number_printNumber x hrest
  rw [hx, List.cons_append, valueAt, hread]
  · rfl
  all_goals
    intro ds heq
    exact startsNumber_ne hc rfl (List.cons.inj heq).1

theorem valueAt_string (s : Literal) (rest : List Char) :
    valueAt (fuel + 1) (printLiteral s ++ rest) = some (.string s, rest) := by
  obtain ⟨body, hprint, hread⟩ := printLiteral_append s rest
  rw [hprint, valueAt, hread]
  rfl

theorem valueAt_array (hskip : skip body = c :: cs) (hc : c ≠ ']')
    (hread : itemsAt fuel (c :: cs) = some (vs, rest)) :
    valueAt (fuel + 1) ('[' :: body) = some (.array vs, rest) := by
  rw [valueAt, hskip]
  split
  · rename_i heq
    exact absurd (List.cons.inj heq).1 hc
  · rw [hread]
    rfl

theorem valueAt_object (hskip : skip body = c :: cs) (hc : c ≠ '}')
    (hread : membersAt fuel (c :: cs) = some (ms, rest)) :
    valueAt (fuel + 1) ('{' :: body) = some (.object ms, rest) := by
  rw [valueAt, hskip]
  split
  · rename_i heq
    exact absurd (List.cons.inj heq).1 hc
  · rw [hread]
    rfl

theorem itemsAt_last (hv : valueAt fuel cs = some (v, tail)) (hend : skip tail = ']' :: rest) :
    itemsAt (fuel + 1) cs = some ([v], rest) := by
  rw [itemsAt, hv]
  simp [hend]

theorem itemsAt_more (hv : valueAt fuel cs = some (v, tail)) (hcomma : skip tail = ',' :: more)
    (hmore : itemsAt fuel (skip more) = some (vs, rest)) :
    itemsAt (fuel + 1) cs = some (v :: vs, rest) := by
  rw [itemsAt, hv]
  simp [hcomma, hmore]

theorem membersAt_last (name : Literal)
    (hv : valueAt fuel (printAt layout depth v ++ tail) = some (v, tail))
    (hend : skip tail = '}' :: rest) :
    membersAt (fuel + 1) (printMember layout depth (name, v) ++ tail) = some ([(name, v)], rest) := by
  obtain ⟨body, more, hprint, hname, hskip⟩ := exists_printMember layout depth name v tail
  rw [hprint, membersAt, hname]
  simp [skip_cons (rfl : isSpace ':' = false), hskip, hv, hend]

theorem membersAt_more (name : Literal)
    (hv : valueAt fuel (printAt layout depth v ++ tail) = some (v, tail))
    (hcomma : skip tail = ',' :: after) (hmore : membersAt fuel (skip after) = some (ms, rest)) :
    membersAt (fuel + 1) (printMember layout depth (name, v) ++ tail) =
      some ((name, v) :: ms, rest) := by
  obtain ⟨body, more, hprint, hname, hskip⟩ := exists_printMember layout depth name v tail
  rw [hprint, membersAt, hname]
  simp [skip_cons (rfl : isSpace ':' = false), hskip, hv, hcomma, hmore]

/-! ### The whole text -/

variable (layout)

-- The induction is on the steps that the reader has left, as its recursion is. A list gives one of
-- its steps to each of its items, and the comma or bracket in front of an item makes up for it.
mutual

/-- A value is read back from its text, and what follows is left. -/
theorem valueAt_printAt : ∀ (fuel depth : Nat) (v : Value) (rest : List Char),
    (printAt layout depth v).length ≤ fuel → EndsNumber rest →
      valueAt fuel (printAt layout depth v ++ rest) = some (v, rest)
  | 0, depth, v, rest, hfuel, _ => by
    obtain ⟨c, cs, hv, -⟩ := exists_printAt layout depth v
    simp [hv] at hfuel
  | fuel + 1, depth, .null, rest, _, _ => rfl
  | fuel + 1, depth, .bool true, rest, _, _ => rfl
  | fuel + 1, depth, .bool false, rest, _, _ => rfl
  | fuel + 1, depth, .number x, rest, _, hrest => valueAt_number x hrest
  | fuel + 1, depth, .string s, rest, _, _ => valueAt_string s rest
  | fuel + 1, depth, .array [], rest, _, _ => rfl
  | fuel + 1, depth, .array (v :: vs), rest, hfuel, _ => by
    simp only [printAt, List.length_cons, List.length_append] at hfuel
    obtain ⟨c, cs, hv, hspace, hc⟩ := exists_printAt layout (depth + 1) v
    have hitems := itemsAt_printItems fuel (depth + 1) depth v vs rest (by omega)
    simp only [printAt, List.cons_append, List.append_assoc, hv] at hitems ⊢
    exact valueAt_array (skip_newline_cons layout _ hspace) hc hitems
  | fuel + 1, depth, .object [], rest, _, _ => rfl
  | fuel + 1, depth, .object ((name, v) :: ms), rest, hfuel, _ => by
    simp only [printAt, List.length_cons, List.length_append] at hfuel
    obtain ⟨body, more, hprint, -⟩ := exists_printMember layout (depth + 1) name v
      (printMembers layout (depth + 1) ms ++ (layout.newline depth ++ '}' :: rest))
    have hmembers := membersAt_printMembers fuel (depth + 1) depth name v ms rest (by omega)
    rw [hprint] at hmembers
    simp only [printAt, List.cons_append, List.append_assoc, List.nil_append, hprint]
    exact valueAt_object (skip_newline_cons layout _ rfl) (by decide) hmembers

/-- The items of a list are read up to its bracket, which may stand less deep than they do. -/
theorem itemsAt_printItems : ∀ (fuel depth outer : Nat) (v : Value) (vs : List Value)
    (rest : List Char), (printAt layout depth v).length + (printItems layout depth vs).length < fuel →
      itemsAt fuel (printAt layout depth v ++ (printItems layout depth vs ++
        (layout.newline outer ++ ']' :: rest))) = some (v :: vs, rest)
  | 0, _, _, _, _, _, hfuel => by omega
  | fuel + 1, depth, outer, v, [], rest, hfuel => by
    have hv := valueAt_printAt fuel depth v (layout.newline outer ++ ']' :: rest) (by omega)
      (endsNumber_newline layout outer rfl)
    exact itemsAt_last hv (skip_newline_cons layout outer rfl)
  | fuel + 1, depth, outer, v, w :: vs, rest, hfuel => by
    simp only [printItems, List.length_cons, List.length_append] at hfuel
    have hmore := itemsAt_printItems fuel depth outer w vs rest (by omega)
    simp only [printItems, List.cons_append, List.append_assoc]
    refine itemsAt_more (valueAt_printAt fuel depth v _ (by omega) (endsNumber_cons.mpr rfl))
      (skip_cons rfl) ?_
    rw [skip_newline, skip_printAt, hmore]

/-- The members of an object are read up to its brace, which may stand less deep than they do. -/
theorem membersAt_printMembers : ∀ (fuel depth outer : Nat) (name : Literal) (v : Value)
    (ms : List (Literal × Value)) (rest : List Char),
    (printMember layout depth (name, v)).length + (printMembers layout depth ms).length < fuel →
      membersAt fuel (printMember layout depth (name, v) ++ (printMembers layout depth ms ++
        (layout.newline outer ++ '}' :: rest))) = some ((name, v) :: ms, rest)
  | 0, _, _, _, _, _, _, hfuel => by omega
  | fuel + 1, depth, outer, name, v, [], rest, hfuel => by
    simp only [printMember, List.length_append] at hfuel
    have hv := valueAt_printAt fuel depth v (layout.newline outer ++ '}' :: rest) (by omega)
      (endsNumber_newline layout outer rfl)
    exact membersAt_last name hv (skip_newline_cons layout outer rfl)
  | fuel + 1, depth, outer, name, v, (other, w) :: ms, rest, hfuel => by
    simp only [printMember, printMembers, List.length_cons, List.length_append] at hfuel
    have hmore := membersAt_printMembers fuel depth outer other w ms rest (by
      simp only [printMember, List.length_append]
      omega)
    simp only [printMembers, List.cons_append, List.append_assoc]
    refine membersAt_more name
      (valueAt_printAt fuel depth v _ (by omega) (endsNumber_cons.mpr rfl)) (skip_cons rfl) ?_
    rw [skip_newline, skip_printMember, hmore]

end

variable {layout}

/-- Whatever value is written is read back. -/
theorem parse?_print (layout : Layout) (v : Value) : parse? (print layout v) = some v := by
  have hskip : skip (printAt layout 0 v) = printAt layout 0 v := by
    simpa using skip_printAt layout 0 v []
  have hread := valueAt_printAt layout (2 * (printAt layout 0 v).length + 2) 0 v [] (by omega)
    (by simp [EndsNumber])
  rw [List.append_nil] at hread
  simp only [parse?, print, String.toList_ofList, hskip, hread]
  rfl

end SumCluster.Json
