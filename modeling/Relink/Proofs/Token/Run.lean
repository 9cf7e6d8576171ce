import Relink.Proofs.Text.Seam
import Relink.Token.Lexeme

/-!
# Runs of characters

Words and names are the longest runs of characters of a class. Where a run ends is decided by the
character behind it alone, so it ends at the same place in every text that goes on alike.
-/

set_option autoImplicit false

namespace Relink.Token

/-! ## Runs of characters -/

/-- No run of characters that pass a test goes on into the text. -/
def Stops (test : Char → Bool) (text : Text) : Prop := ∀ c, text.head? = some c → test c = false

theorem Stops.congr {test : Char → Bool} {left right : Text} (stops : Stops test left)
    (same : left.head? = right.head?) : Stops test right := by
  intro c first
  exact stops c (same.trans first)

/-- A test that no limit passes. -/
abbrev ExcludesLimits (test : Char → Bool) : Prop := ∀ c ∈ Text.limits, test c = false

theorem excludesLimits_of_all {test : Char → Bool} (all : Text.limits.all (fun c => !test c) = true) :
    ExcludesLimits test := by
  simpa only [List.all_eq_true, Bool.not_eq_true'] using all

theorem Stops.alike {test : Char → Bool} {left right : Text} (stops : Stops test left)
    (excludes : ExcludesLimits test) (same : Text.EndsLike left right) : Stops test right := by
  intro c first
  obtain ⟨d, rest, rfl, again⟩ := same.test_left excludes first
  rw [← again]
  exact stops d rfl

theorem stops_dropWhile (test : Char → Bool) (text : Text) : Stops test (text.dropWhile test) := by
  intro c first
  have failed := List.head?_dropWhile_not test text
  rw [first] at failed
  exact failed

theorem takeWhile_append_of_stops {test : Char → Bool} {rest : Text} (stops : Stops test rest)
    (front : Text) : (front ++ rest).takeWhile test = front.takeWhile test := by
  induction front with
  | nil =>
      cases rest with
      | nil => rfl
      | cons c rest => simp [stops c rfl]
  | cons c front ih =>
      cases passes : test c with
      | false => simp [passes]
      | true => simp [passes, ih]

theorem dropWhile_append_of_stops {test : Char → Bool} {rest : Text} (stops : Stops test rest)
    (front : Text) : (front ++ rest).dropWhile test = front.dropWhile test ++ rest := by
  induction front with
  | nil =>
      cases rest with
      | nil => rfl
      | cons c rest => simp [stops c rfl]
  | cons c front ih =>
      cases passes : test c with
      | false => simp [passes]
      | true => simp [passes, ih]

theorem takeWhile_takeWhile_self (test : Char → Bool) (text : Text) :
    (text.takeWhile test).takeWhile test = text.takeWhile test := by
  induction text with
  | nil => rfl
  | cons c rest ih =>
      cases passes : test c with
      | false => simp [passes]
      | true => simp [passes, ih]

theorem dropWhile_takeWhile_self (test : Char → Bool) (text : Text) :
    (text.takeWhile test).dropWhile test = [] := by
  induction text with
  | nil => rfl
  | cons c rest ih =>
      cases passes : test c with
      | false => simp [passes]
      | true => simp [passes, ih]

theorem Stops.spanWhile {test : Char → Bool} {other : Text} (stops : Stops test other) (text : Text) :
    spanWhile test (text.takeWhile test ++ other) = (text.takeWhile test, other) := by
  rw [Token.spanWhile, takeWhile_append_of_stops stops, dropWhile_append_of_stops stops,
    takeWhile_takeWhile_self, dropWhile_takeWhile_self, List.nil_append]

theorem ExcludesLimits.isSeal {test : Char → Bool} (excludes : ExcludesLimits test) {c : Char} (passes : test c = true) :
    Text.isSeal c = false := by
  cases mark : Text.isSeal c with
  | false => rfl
  | true => exact absurd passes (by simp [excludes c (Text.mem_limits_of_isSeal mark)])

theorem unsealed_takeWhile {test : Char → Bool} (excludes : ExcludesLimits test)
    (text : Text) : Text.Unsealed (text.takeWhile test) :=
  fun c member => excludes.isSeal (List.all_eq_true.mp List.all_takeWhile c member)

theorem unsealed_nil : Text.Unsealed [] := by
  intro c member
  cases member

theorem unsealed_cons {c : Char} {text : Text} (mark : Text.isSeal c = false)
    (rest : Text.Unsealed text) : Text.Unsealed (c :: text) := by
  intro d member
  rcases List.mem_cons.mp member with rfl | later
  · exact mark
  · exact rest d later

theorem eq_cons_of_head? {text : Text} {c : Char} (first : text.head? = some c) :
    ∃ rest, text = c :: rest := by
  cases text with
  | nil => cases first
  | cons d rest =>
      cases first
      exact ⟨rest, rfl⟩

/-- What a reader takes from the front of a text: characters without a closing mark, which it takes from every
text that goes on alike behind them. -/
structure RunExtent {α : Type} (read found : Text → α) (text chars rest : Text) : Prop where
  split : chars ++ rest = text
  unsealed : Text.Unsealed chars
  again : ∀ other : Text, Text.EndsLike rest other → read (chars ++ other) = found other

namespace RunExtent

variable {α β : Type} {read found : Text → α} {text chars rest : Text}

theorem alike (extent : RunExtent read found text chars rest) {other : Text} (same : Text.EndsLike rest other) :
    Text.EndsLike text (chars ++ other) := by
  rw [← extent.split]
  exact same.append chars

theorem map (extent : RunExtent read found text chars rest) (f : α → β) :
    RunExtent (fun text => f (read text)) (fun other => f (found other)) text chars rest :=
  ⟨extent.split, extent.unsealed, fun other same => congrArg f (extent.again other same)⟩

/-- A reader behind another one takes what follows. -/
theorem andThen {first : Text → α × Text} {value : α} {found : Text → β} {middle more : Text}
    (before : RunExtent first (fun other => (value, other)) text chars middle) (next : α → Text → β)
    (after : RunExtent (next value) found middle more rest) :
    RunExtent (fun text => next (first text).1 (first text).2) found text (chars ++ more) rest where
  split := by rw [List.append_assoc, after.split, before.split]
  unsealed := before.unsealed.append after.unsealed
  again := by
    intro other same
    have firstAgain := before.again (more ++ other) (after.alike same)
    rw [List.append_assoc, firstAgain]
    exact after.again other same

end RunExtent

theorem spanWhile_extent {test : Char → Bool} (excludes : ExcludesLimits test) (text : Text) :
    RunExtent (spanWhile test) (fun other => (text.takeWhile test, other)) text (text.takeWhile test)
      (text.dropWhile test) where
  split := List.takeWhile_append_dropWhile
  unsealed := unsealed_takeWhile excludes text
  again := by
    intro other same
    exact ((stops_dropWhile test text).alike excludes same).spanWhile text

/-! ## Words -/

theorem isNamePart_limits (inTag : Bool) : ExcludesLimits (isNamePart inTag) := by
  cases inTag
  · exact excludesLimits_of_all (by decide)
  · exact excludesLimits_of_all (by decide)

theorem isNamePart_of_isWordPart {inTag : Bool} {c : Char} (part : isWordPart c = true) :
    isNamePart inTag c = true := by
  simp [isNamePart, part]

theorem isWordPart_limits : ExcludesLimits isWordPart :=
  excludesLimits_of_all (by decide)

theorem Stops.wordPart {inTag : Bool} {text : Text} (stops : Stops (isNamePart inTag) text) :
    Stops isWordPart text := by
  intro c first
  cases part : isWordPart c with
  | false => rfl
  | true =>
      have name : isNamePart inTag c = true := isNamePart_of_isWordPart part
      rw [stops c first] at name
      cases name

/-- The ASCII word at the front of a name ends where the name ends at the latest. -/
theorem takeWhile_wordPart_name (inTag : Bool) (text : Text) {other : Text}
    (stops : Stops (isNamePart inTag) other) :
    (text.takeWhile (isNamePart inTag) ++ other).takeWhile isWordPart =
      text.takeWhile isWordPart := by
  have own := (stops_dropWhile (isNamePart inTag) text).wordPart
  rw [takeWhile_append_of_stops stops.wordPart, ← takeWhile_append_of_stops own,
    List.takeWhile_append_dropWhile]

theorem word_extent {inTag : Bool} {text chars rest : Text} {kind : Kind}
    (found : word inTag text = (kind, chars, rest)) :
    RunExtent (word inTag) (fun other => (kind, chars, other)) text chars rest := by
  cases reserved : reservedKind? (text.takeWhile isWordPart) with
  | some keyword =>
      simp only [word, reserved, Prod.mk.injEq] at found
      obtain ⟨rfl, rfl, rfl⟩ := found
      obtain ⟨split, unsealed, again⟩ := spanWhile_extent isWordPart_limits text
      refine ⟨split, unsealed, fun other same => ?_⟩
      obtain ⟨chars, rest⟩ := Prod.mk.inj (again other same)
      simp only [word, chars, rest, reserved]
  | none =>
      simp only [word, reserved, Prod.mk.injEq] at found
      obtain ⟨rfl, rfl, rfl⟩ := found
      obtain ⟨split, unsealed, again⟩ := spanWhile_extent (isNamePart_limits inTag) text
      refine ⟨split, unsealed, fun other same => ?_⟩
      obtain ⟨chars, rest⟩ := Prod.mk.inj (again other same)
      have stops : Stops (isNamePart inTag) other :=
        (stops_dropWhile (isNamePart inTag) text).alike (isNamePart_limits inTag) same
      simp only [word, takeWhile_wordPart_name inTag text stops, reserved, chars, rest]

theorem word_chars_ne_nil {inTag : Bool} {c : Char} {behind chars rest : Text} {kind : Kind}
    (found : word inTag (c :: behind) = (kind, chars, rest))
    (starts : (isWordStart c || isForeign c) = true) : chars ≠ [] := by
  have part : isNamePart inTag c = true := by
    simp only [Bool.or_eq_true] at starts
    rcases starts with ascii | foreign
    · exact isNamePart_of_isWordPart (by simp [isWordPart, ascii])
    · simp [isNamePart, foreign]
  cases reserved : reservedKind? ((c :: behind).takeWhile isWordPart) with
  | none =>
      simp only [word, reserved, Prod.mk.injEq] at found
      obtain ⟨-, rfl, -⟩ := found
      simp [part]
  | some keyword =>
      simp only [word, reserved, Prod.mk.injEq] at found
      obtain ⟨-, rfl, -⟩ := found
      intro empty
      have unreserved : reservedKind? [] = none := by decide
      rw [empty, unreserved] at reserved
      cases reserved

/-- Kinds of the tokens that end where a run of characters ends. -/
def isRunKind : Kind → Bool
  | .identifier | .privateName | .keyword _ => true
  | .literal .bigInt | .literal .falseValue | .literal .nullValue | .literal .number
  | .literal .regex | .literal .trueValue => true
  | _ => false

theorem word_isRunKind (inTag : Bool) (text : Text) : isRunKind (word inTag text).1 = true := by
  cases reserved : reservedKind? (text.takeWhile isWordPart) with
  | none => simp [word, reserved, isRunKind]
  | some kind =>
      simp only [word, reserved]
      simp only [reservedKind?] at reserved
      split at reserved
      · cases reserved; rfl
      split at reserved
      · cases reserved; rfl
      split at reserved
      · cases reserved; rfl
      obtain ⟨keyword, -, rfl⟩ := Option.map_eq_some_iff.mp reserved
      rfl

theorem privateName_extent {text chars rest : Text} (found : privateName text = .ok (chars, rest)) :
    RunExtent privateName (fun other => .ok (chars, other)) text chars rest := by
  cases text with
  | nil => cases found
  | cons c after =>
      cases starts : isWordStart c with
      | false => simp [privateName, starts] at found
      | true =>
          have part : isNamePart false c = true := isNamePart_of_isWordPart (by simp [isWordPart, starts])
          simp only [privateName, starts, if_true, spanWhile, Except.ok.injEq, Prod.mk.injEq] at found
          obtain ⟨rfl, rfl⟩ := found
          obtain ⟨split, unsealed, again⟩ := spanWhile_extent (isNamePart_limits false) (c :: after)
          refine ⟨split, unsealed, fun other same => ?_⟩
          -- The first character of the name is the one that starts it, whatever follows.
          have spanned := again other same
          simp only [List.takeWhile_cons, part, if_true, List.cons_append] at spanned ⊢
          simp [privateName, starts, spanned]

end Relink.Token
