import Relink.Text

/-!
# Trivia

What may stand between tokens: whitespace and complete comments. `skip` is what the lexer passes
over before a token. `beforeFault` is the part of it that a fault is reported behind; the two differ
at a vertical tab, which only the lexer passes over.
-/

set_option autoImplicit false

namespace Relink.Trivia

/-- Whitespace between tokens. Only `\n` ends a line. -/
def isSpace (c : Char) : Bool :=
  c == '\t' || c == '\n' || c == '\x0b' || c == '\x0c' || c == '\r' || c == ' '

/-- A text through its first line feed, and what follows. -/
def throughLine : Text → Text × Text
  | [] => ([], [])
  | c :: rest =>
    if c = '\n' then ([c], rest)
    else
      let parts := throughLine rest
      (c :: parts.1, parts.2)

/-- A text through its first star and slash, and what follows; none without them. -/
def throughBlock? : Text → Option (Text × Text)
  | [] => none
  | '*' :: '/' :: rest => some (['*', '/'], rest)
  | c :: rest => (throughBlock? rest).map fun parts => (c :: parts.1, parts.2)

theorem throughLine_append (text : Text) : (throughLine text).1 ++ (throughLine text).2 = text := by
  fun_induction throughLine text <;> simp_all +zetaDelta

theorem length_throughLine_le (text : Text) : (throughLine text).2.length ≤ text.length := by
  have whole := congrArg List.length (throughLine_append text)
  simp only [List.length_append] at whole
  omega

theorem throughBlock?_append {text body after : Text}
    (found : throughBlock? text = some (body, after)) : body ++ after = text := by
  fun_induction throughBlock? text generalizing body after with
  | case1 => simp at found
  | case2 rest =>
    simp only [Option.some.injEq, Prod.mk.injEq] at found
    obtain ⟨rfl, rfl⟩ := found
    rfl
  | case3 c rest _ ih =>
    simp only [Option.map_eq_some_iff, Prod.mk.injEq] at found
    obtain ⟨parts, inner, rfl, rfl⟩ := found
    simp [ih inner]

theorem length_throughBlock?_le {text body after : Text}
    (found : throughBlock? text = some (body, after)) : after.length ≤ text.length := by
  have whole := congrArg List.length (throughBlock?_append found)
  simp only [List.length_append] at whole
  omega

/-! ## Before a token -/

/-- The trivia at the front of a text. `newline` is set by a line feed among the whitespace and by
a line comment, but not by a line feed inside a block comment. -/
structure Gap where
  chars : Text
  newline : Bool
  rest : Text
deriving DecidableEq, Repr

def Gap.extend (chars : Text) (newline : Bool) (gap : Gap) : Gap :=
  ⟨chars ++ gap.chars, newline || gap.newline, gap.rest⟩

/-- Passes over whitespace and complete comments. A block comment that never ends is left. -/
def skip (text : Text) : Gap :=
  match text with
  | [] => ⟨[], false, []⟩
  | '/' :: '/' :: rest =>
    (skip (throughLine rest).2).extend ('/' :: '/' :: (throughLine rest).1) true
  | '/' :: '*' :: rest =>
    match _found : throughBlock? rest with
    | some (body, after) => (skip after).extend ('/' :: '*' :: body) false
    | none => ⟨[], false, '/' :: '*' :: rest⟩
  | c :: rest =>
    if isSpace c then (skip rest).extend [c] (c == '\n') else ⟨[], false, c :: rest⟩
termination_by text.length
decreasing_by
  · have := length_throughLine_le rest
    simp only [List.length_cons]
    omega
  · have := length_throughBlock?_le _found
    simp only [List.length_cons]
    omega
  · simp

theorem skip_append (text : Text) : (skip text).chars ++ (skip text).rest = text := by
  fun_induction skip text with
  | case1 => rfl
  | case2 rest ih => simp [Gap.extend, ih, throughLine_append]
  | case3 rest body after found ih => simp [Gap.extend, ih, throughBlock?_append found]
  | case4 => rfl
  | case5 c rest _ _ _ ih => simp [Gap.extend, ih]
  | case6 => rfl

/-! ## Before a fault -/

/-- Whitespace that a fault is reported behind: the vertical tab is not among it. -/
def isFaultSpace (c : Char) : Bool :=
  c == '\t' || c == '\n' || c == '\x0c' || c == '\r' || c == ' '

/-- The trivia that a fault is reported behind, and the text from there on. -/
def beforeFault (text : Text) : Text × Text :=
  match text with
  | [] => ([], [])
  | '/' :: '/' :: rest =>
    let after := beforeFault (rest.dropWhile (· != '\n'))
    ('/' :: '/' :: rest.takeWhile (· != '\n') ++ after.1, after.2)
  | '/' :: '*' :: rest =>
    match _found : throughBlock? rest with
    | some (body, after) =>
      let more := beforeFault after
      ('/' :: '*' :: body ++ more.1, more.2)
    | none => ([], '/' :: '*' :: rest)
  | c :: rest =>
    if isFaultSpace c then
      let more := beforeFault rest
      (c :: more.1, more.2)
    else
      ([], c :: rest)
termination_by text.length
decreasing_by
  · have := (List.dropWhile_suffix (l := rest) (· != '\n')).length_le
    simp only [List.length_cons]
    omega
  · have := length_throughBlock?_le _found
    simp only [List.length_cons]
    omega
  · simp

end Relink.Trivia
