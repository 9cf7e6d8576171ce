import Relink.Token.Trivia

/-!
# Seams

What the reader of a token can see of the text behind it. A token that is still open at its end looks
at one character more, and at a point it looks at two, but it does not tell a semicolon from a closing
bracket, and where it ends before a gap it ends before a semicolon. A token that ends with a closing mark
looks at none.
-/

set_option autoImplicit false

namespace Relink.Text

/-! ## Closing marks -/

/-- Characters that close a token: nothing behind them belongs to it. -/
def isSeal (c : Char) : Bool :=
  c == ';' || c == ')' || c == ']' || c == '}' || c == '\x22' || c == '\x27' || c == '\x60'

theorem isSeal_iff (c : Char) :
    isSeal c = true ↔ c = ';' ∨ c = ')' ∨ c = ']' ∨ c = '}' ∨ c = '\x22' ∨ c = '\x27' ∨ c = '\x60' := by
  simp [isSeal, or_assoc]

/-- A text that ends with a closing mark. -/
def Sealed (text : Text) : Prop := ∃ front c, text = front ++ [c] ∧ isSeal c = true

def Unsealed (text : Text) : Prop := ∀ c ∈ text, isSeal c = false

/-- Marks that end whatever stands open before them: a semicolon and closing brackets. -/
def isStop (c : Char) : Bool := c == ';' || c == ')' || c == ']' || c == '}'

theorem isSeal_of_isStop {c : Char} (stop : isStop c = true) : isSeal c = true := by
  simp only [isStop, Bool.or_eq_true, beq_iff_eq] at stop
  rcases stop with ((rfl | rfl) | rfl) | rfl <;> decide

/-- Characters that may begin the trivia before a token. -/
def beginsGap (c : Char) : Bool := Trivia.isSpace c || c == '/'

/-- Characters with which no run of characters goes on: closing marks, and those that begin a gap. -/
def limits : Text :=
  [';', ')', ']', '}', '\x22', '\x27', '\x60', '\t', '\n', '\x0b', '\x0c', '\r', ' ', '/']

theorem mem_limits_of_isSeal {c : Char} (mark : isSeal c = true) : c ∈ limits := by
  rw [isSeal_iff] at mark
  rcases mark with rfl | rfl | rfl | rfl | rfl | rfl | rfl <;> decide

theorem mem_limits_of_beginsGap {c : Char} (begins : beginsGap c = true) : c ∈ limits := by
  simp only [beginsGap, Trivia.isSpace, Bool.or_eq_true, beq_iff_eq, or_assoc] at begins
  rcases begins with rfl | rfl | rfl | rfl | rfl | rfl | rfl <;> decide

/-! ## Looking ahead -/

/-- The first character of a text as a token before it sees it. -/
def glance (text : Text) : Option Char := text.head?.map fun c => if isStop c then ';' else c

theorem glance_cons (c : Char) (rest : Text) :
    glance (c :: rest) = some (if isStop c then ';' else c) := rfl

theorem head?_eq_some_of_glance {left right : Text} (same : glance left = glance right) {c : Char}
    (noStop : isStop c = false) (first : left.head? = some c) : right.head? = some c := by
  cases right with
  | nil => simp [glance, first] at same
  | cons d right =>
      simp only [glance, first, Option.map_some, noStop, Bool.false_eq_true, if_false, List.head?_cons,
        Option.some.injEq] at same ⊢
      split at same
      · rw [same] at noStop
        cases noStop
      · exact same.symm

theorem isStop_of_glance {text : Text} (stops : glance text = some ';') :
    ∃ c rest, text = c :: rest ∧ isStop c = true := by
  cases text with
  | nil => cases stops
  | cons c rest =>
      refine ⟨c, rest, rfl, ?_⟩
      rw [glance_cons, Option.some.injEq] at stops
      split at stops
      · assumption
      · rw [stops]
        rfl

/-- A token that ends before one text ends before the other: they begin alike, or where a gap begins the
first one a semicolon begins the second one. -/
def EndsLike (left right : Text) : Prop :=
  glance left = glance right ∨
    (∃ c, left.head? = some c ∧ beginsGap c = true) ∧ glance right = some ';'

namespace EndsLike

variable {left right : Text}

theorem refl (text : Text) : EndsLike text text := .inl rfl

theorem eq_nil {other : Text} (same : EndsLike [] other) : other = [] := by
  rcases same with same | ⟨⟨c, none, -⟩, -⟩
  · cases other with
    | nil => rfl
    | cons c rest => cases same
  · cases none

/-- What stands at the front of the second text and is no stop stands at the front of the first one. -/
theorem head?_eq_some (same : EndsLike left right) {c : Char} (noStop : isStop c = false)
    (first : right.head? = some c) : left.head? = some c := by
  rcases same with same | ⟨-, stops⟩
  · exact head?_eq_some_of_glance same.symm noStop first
  · obtain ⟨d, rest, rfl, stop⟩ := isStop_of_glance stops
    obtain rfl : d = c := Option.some.inj first
    rw [noStop] at stop
    cases stop

theorem head?_eq_some_right (same : EndsLike left right) {c : Char} (noStop : isStop c = false)
    (noGap : beginsGap c = false) (first : left.head? = some c) : right.head? = some c := by
  rcases same with same | ⟨⟨d, isFirst, begins⟩, -⟩
  · exact head?_eq_some_of_glance same noStop first
  · obtain rfl : c = d := Option.some.inj (first.symm.trans isFirst)
    rw [noGap] at begins
    cases begins

/-- A test that no limit passes has the same answer at the front of both texts. -/
theorem test (same : EndsLike left right) {test : Char → Bool}
    (excludes : ∀ c ∈ limits, test c = false) {c : Char} (first : left.head? = some c) :
    ∃ d rest, right = d :: rest ∧ test d = test c := by
  have fails {d : Char} (stop : isStop d = true) : test d = false :=
    excludes d (mem_limits_of_isSeal (isSeal_of_isStop stop))
  rcases same with same | ⟨⟨d, isFirst, begins⟩, stops⟩
  · cases stop : isStop c with
    | false =>
        have again := head?_eq_some_of_glance same stop first
        cases right with
        | nil => cases again
        | cons d right =>
            cases again
            exact ⟨_, right, rfl, rfl⟩
    | true =>
        have seen : glance right = some ';' := by
          rw [← same, glance, first]
          simp [stop]
        obtain ⟨d, rest, rfl, other⟩ := isStop_of_glance seen
        exact ⟨d, rest, rfl, (fails other).trans (fails stop).symm⟩
  · obtain rfl : c = d := Option.some.inj (first.symm.trans isFirst)
    obtain ⟨d, rest, rfl, stop⟩ := isStop_of_glance stops
    exact ⟨d, rest, rfl, (fails stop).trans (excludes c (mem_limits_of_beginsGap begins)).symm⟩

theorem test_left (same : EndsLike left right) {test : Char → Bool}
    (excludes : ∀ c ∈ limits, test c = false) {d : Char} (first : right.head? = some d) :
    ∃ c rest, left = c :: rest ∧ test c = test d := by
  cases left with
  | nil =>
      rw [same.eq_nil] at first
      cases first
  | cons c left =>
      obtain ⟨e, rest, rfl, again⟩ := same.test excludes (c := c) rfl
      obtain rfl : e = d := Option.some.inj first
      exact ⟨c, left, rfl, again.symm⟩

theorem append (same : EndsLike left right) (front : Text) : EndsLike (front ++ left) (front ++ right) := by
  cases front with
  | nil => exact same
  | cons c rest => exact refl _

end EndsLike

/-- No token before the first text sees the second one in its place: a token that ends before the one ends
before the other, and after a point they go on so. -/
def Alike (left right : Text) : Prop :=
  EndsLike left right ∧ (left.head? = some '.' → EndsLike left.tail right.tail)

theorem Alike.refl (text : Text) : Alike text text := ⟨.refl text, fun _ => .refl text.tail⟩

theorem head?_append_congr {left right : Text} (front : Text) (same : left.head? = right.head?) :
    (front ++ left).head? = (front ++ right).head? := by
  cases front with
  | nil => exact same
  | cons c rest => rfl

/-- What stands in front of two texts hides them, a single point excepted. -/
theorem alike_append {front : Text} (nonempty : front ≠ []) (notPoint : front ≠ ['.'])
    (left right : Text) : Alike (front ++ left) (front ++ right) := by
  match front with
  | [] => exact absurd rfl nonempty
  | [c] =>
      refine ⟨.inl rfl, fun point => ?_⟩
      have isPoint : c = '.' := by simpa using point
      exact absurd (by rw [isPoint]) notPoint
  | c :: d :: rest => exact ⟨.inl rfl, fun _ => .inl rfl⟩

theorem Alike.append {left right : Text} (alike : Alike left right) (front : Text) :
    Alike (front ++ left) (front ++ right) := by
  match front with
  | [] => exact alike
  | [c] => exact ⟨.inl rfl, fun _ => alike.1⟩
  | c :: d :: rest => exact ⟨.inl rfl, fun _ => .inl rfl⟩

theorem alike_stop {c d : Char} (stop : isStop c = true) (other : isStop d = true) (left right : Text) :
    Alike (c :: left) (d :: right) := by
  refine ⟨.inl (by simp only [glance_cons, stop, other, if_true]), fun point => ?_⟩
  obtain rfl : c = '.' := Option.some.inj point
  cases stop

theorem alike_semicolon (left right : Text) : Alike (';' :: left) (';' :: right) :=
  alike_stop rfl rfl left right

/-- A semicolon may be put before the gap behind a token. -/
theorem alike_of_beginsGap {text : Text} {c : Char} (first : text.head? = some c)
    (begins : beginsGap c = true) (rest : Text) : Alike text (';' :: rest) := by
  refine ⟨.inr ⟨⟨c, first, begins⟩, rfl⟩, fun point => ?_⟩
  obtain rfl : c = '.' := Option.some.inj (first.symm.trans point)
  cases begins

/-! ## Sealed texts -/

theorem Sealed.ne_nil {text : Text} (closed : Sealed text) : text ≠ [] := by
  obtain ⟨front, c, rfl, _⟩ := closed
  simp

theorem Sealed.ne_point {text : Text} (closed : Sealed text) : text ≠ ['.'] := by
  rintro rfl
  obtain ⟨front, c, same, mark⟩ := closed
  obtain ⟨rfl, final⟩ := List.append_inj' (show [] ++ ['.'] = front ++ [c] from same) rfl
  cases final
  exact absurd mark (by decide)

theorem Sealed.append {back : Text} (closed : Sealed back) (front : Text) : Sealed (front ++ back) := by
  obtain ⟨inner, c, rfl, mark⟩ := closed
  exact ⟨front ++ inner, c, (List.append_assoc ..).symm, mark⟩

theorem Sealed.of_append {front back : Text} (closed : Sealed (front ++ back))
    (nonempty : back ≠ []) : Sealed back := by
  obtain ⟨whole, c, same, mark⟩ := closed
  have split := List.dropLast_concat_getLast nonempty
  rw [← split, ← List.append_assoc] at same
  obtain ⟨-, final⟩ := List.append_inj' same rfl
  exact ⟨back.dropLast, c, by rw [← final, split], mark⟩

theorem Unsealed.not_sealed {text : Text} (open_ : Unsealed text) : ¬ Sealed text := by
  rintro ⟨front, c, rfl, mark⟩
  exact absurd mark (by simp [open_ c (by simp)])

theorem Unsealed.append {left right : Text} (first : Unsealed left) (second : Unsealed right) :
    Unsealed (left ++ right) := by
  intro c member
  rcases List.mem_append.mp member with inLeft | inRight
  · exact first c inLeft
  · exact second c inRight

end Relink.Text
