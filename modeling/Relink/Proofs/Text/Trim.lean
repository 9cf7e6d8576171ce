import Relink.Proofs.Token.Run
import Relink.Text.Blank

/-!
# Trimming

A text is the blanks at its start, what is left when it is trimmed, and the blanks at its end. Where
something is left, other blanks around it do not change it.
-/

set_option autoImplicit false

namespace Relink.Text

open Token (Stops)

def leadingBlanks (text : Text) : Text := text.takeWhile isBlank

/-- The blanks at the end of a text, less those that are its start too. -/
def trailingBlanks (text : Text) : Text := (text.trimStart.reverse.takeWhile isBlank).reverse

/-- A text without blanks at its ends. -/
structure IsTrimmed (text : Text) : Prop where
  first : Stops isBlank text
  last : Stops isBlank text.reverse

/-- Trimming loses nothing but the blanks at both ends. -/
theorem trim_append (text : Text) :
    leadingBlanks text ++ trim text ++ trailingBlanks text = text := by
  have atEnd : trim text ++ trailingBlanks text = trimStart text := by
    rw [trim, trimEnd, trailingBlanks, ← List.reverse_append, List.takeWhile_append_dropWhile,
      List.reverse_reverse]
  rw [List.append_assoc, atEnd]
  exact List.takeWhile_append_dropWhile

theorem leadingBlanks_all (text : Text) : (leadingBlanks text).all isBlank = true :=
  List.all_takeWhile

theorem trailingBlanks_all (text : Text) : (trailingBlanks text).all isBlank = true := by
  rw [trailingBlanks, List.all_reverse]
  exact List.all_takeWhile

theorem isTrimmed_trim (text : Text) : IsTrimmed (trim text) where
  first := by
    have atEnd : trim text ++ trailingBlanks text = trimStart text := by
      have whole := trim_append text
      rw [List.append_assoc] at whole
      refine List.append_cancel_left (whole.trans ?_)
      exact List.takeWhile_append_dropWhile.symm
    have starts : Stops isBlank (trimStart text) := Token.stops_dropWhile isBlank text
    intro c first
    apply starts c
    rw [← atEnd]
    obtain ⟨rest, shape⟩ := Token.eq_cons_of_head? first
    rw [shape]
    rfl
  last := by
    rw [trim, trimEnd, List.reverse_reverse]
    exact Token.stops_dropWhile isBlank _

theorem trimStart_append {leading text : Text} (blank : leading.all isBlank = true)
    (stops : Stops isBlank text) : trimStart (leading ++ text) = text := by
  rw [trimStart, List.dropWhile_append_of_pos (List.all_eq_true.mp blank)]
  exact Token.dropWhile_append_of_stops stops []

section Padded

variable {leading text trailing : Text} (before : leading.all isBlank = true)
  (behind : trailing.all isBlank = true) (trimmed : IsTrimmed text) (nonempty : text ≠ [])

include trimmed nonempty in
theorem IsTrimmed.stops_append (rest : Text) : Stops isBlank (text ++ rest) := by
  obtain ⟨c, more, rfl⟩ := List.exists_cons_of_ne_nil nonempty
  intro d first
  exact trimmed.first d first

include trimmed nonempty in
/-- What is put behind a trimmed text leaves it trimmed if it does not end with a blank. -/
theorem IsTrimmed.append {more : Text} (stops : Stops isBlank more.reverse) (some_ : more ≠ []) :
    IsTrimmed (text ++ more) where
  first := trimmed.stops_append nonempty more
  last := by
    intro c last
    apply stops c
    obtain ⟨d, others, shape⟩ := List.exists_cons_of_ne_nil (List.reverse_ne_nil_iff.mpr some_)
    rw [List.reverse_append, shape] at last
    rw [shape]
    exact last

include before behind trimmed nonempty

theorem trim_padded : trim (leading ++ text ++ trailing) = text := by
  have start : trimStart (leading ++ text ++ trailing) = text ++ trailing := by
    rw [List.append_assoc]
    exact trimStart_append before (trimmed.stops_append nonempty trailing)
  have blank : trailing.reverse.all isBlank = true := by rw [List.all_reverse, behind]
  have atEnd := trimStart_append blank trimmed.last
  rw [trim, start, trimEnd, List.reverse_append]
  exact (congrArg List.reverse atEnd).trans (List.reverse_reverse text)

end Padded

end Relink.Text
