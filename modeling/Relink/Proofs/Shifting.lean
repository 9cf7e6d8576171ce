import Mathlib.Data.List.Infix
import Relink.Proofs.Scan.Preamble
import Relink.Proofs.Scan.Repeat.Statements

/-!
# Splitting behind a preamble

A byte order mark, a `#!` line or both in front of a module only shift offsets: the module is split into
the same statements, or given up on for the same reason, that many bytes later.
-/

set_option autoImplicit false

namespace Relink

open Scan

/-- What may stand in front of a module: a byte order mark, a `#!` line, or the one before the other. -/
inductive Preamble.Precedes : Text → Prop where
  | mark : Precedes ['\uFEFF']
  | line {rest : Text} : '\n' ∉ rest → Precedes (lineMark ++ rest ++ ['\n'])
  | markedLine {rest : Text} : '\n' ∉ rest → Precedes ('\uFEFF' :: (lineMark ++ rest ++ ['\n']))

def shiftedSplit (distance : Nat) :
    Except SyntaxFault (List Statement) → Except SyntaxFault (List Statement)
  | .ok found => .ok (found.map (·.shift distance))
  | .error fault => .error (fault.shift distance)

/-- A text that begins with no preamble of its own. -/
structure Preamble.Bare (text : Text) : Prop where
  noMark : text.head? ≠ some '\uFEFF'
  noLine : lineMark.isPrefixOf text = false

namespace Preamble

theorem cutLine_line {rest : Text} (noBreak : '\n' ∉ rest) (text : Text) :
    cutLine (lineMark ++ rest ++ ['\n'] ++ text) = (lineMark ++ rest, '\n' :: text) := by
  have inLine : ∀ c ∈ lineMark ++ rest, (c != '\n') = true := by
    rintro c member
    have noMarkBreak : '\n' ∉ lineMark := by decide
    refine bne_iff_ne.mpr ?_
    rintro rfl
    exact (List.mem_append.mp member).elim noMarkBreak noBreak
  have line : lineMark.isPrefixOf (lineMark ++ rest ++ ['\n'] ++ text) = true := by
    rw [List.append_assoc, List.append_assoc]
    exact List.isPrefixOf_iff_prefix.mpr (List.prefix_append ..)
  rw [cutLine, if_pos line, List.append_assoc, List.singleton_append, Token.spanWhile,
    List.takeWhile_append_of_pos inLine, List.dropWhile_append_of_pos inLine,
    List.takeWhile_cons_of_neg (by decide), List.dropWhile_cons_of_neg (by decide), List.append_nil]

theorem Bare.cutLine {text : Text} (bare : Bare text) : cutLine text = ([], text) := by
  rw [Preamble.cutLine, bare.noLine]
  rfl

theorem Bare.behindPreamble {text : Text} (bare : Bare text) :
    Reader.behindPreamble text = Reader.start text := by
  rw [Reader.behindPreamble, cut_none bare.noMark bare.noLine]
  rfl

theorem length_mask (text : Text) :
    (mask text).length = (cut text).1.size + (cut text).2.length := by
  rw [mask_eq, List.length_append, List.length_replicate]

/-- Behind a preamble a module is scanned from where it begins. -/
theorem moduleStatements_front {front text : Text} (precedes : Precedes front) (bare : Bare text)
    (bound : Nat) :
    moduleStatements bound (Reader.behindPreamble (front ++ text)) =
        moduleStatements bound ((Reader.start text).later front.size) ∧
      text.length ≤ (mask (front ++ text)).length := by
  rw [length_mask]
  cases precedes with
  | mark =>
      have parts : cut (['\uFEFF'] ++ text) = (['\uFEFF'], text) := by
        rw [List.singleton_append, cut_mark, bare.cutLine]
      rw [Reader.behindPreamble, parts]
      exact ⟨by rw [Reader.later, Reader.start, Nat.zero_add], Nat.le_add_left ..⟩
  | @line rest noBreak =>
      have parts : cut (lineMark ++ rest ++ ['\n'] ++ text) = (lineMark ++ rest, '\n' :: text) := by
        rw [cut_line (by simp [lineMark]), cutLine_line noBreak]
      rw [Reader.behindPreamble, parts, moduleStatements_space (c := '\n') rfl bound rfl]
      refine ⟨?_, Nat.le_trans (Nat.le_succ _) (Nat.le_add_left ..)⟩
      rw [Reader.advance, Reader.later, Reader.start, Nat.zero_add, Text.size_append _ ['\n']]
  | @markedLine rest noBreak =>
      have parts : cut ('\uFEFF' :: (lineMark ++ rest ++ ['\n']) ++ text) =
          ('\uFEFF' :: (lineMark ++ rest), '\n' :: text) := by
        rw [List.cons_append, cut_mark, cutLine_line noBreak]
      rw [Reader.behindPreamble, parts, moduleStatements_space (c := '\n') rfl bound rfl]
      refine ⟨?_, Nat.le_trans (Nat.le_succ _) (Nat.le_add_left ..)⟩
      have size : Text.size ('\uFEFF' :: (lineMark ++ rest ++ ['\n'])) = _ :=
        Text.size_append ('\uFEFF' :: (lineMark ++ rest)) ['\n']
      rw [Reader.advance, Reader.later, Reader.start, Nat.zero_add, size]

end Preamble

/-- A preamble in front of a module shifts every offset by its length, and nothing else changes: neither
whether the module is split nor what it is split into or given up on for. -/
theorem split_front {front text : Text} (precedes : Preamble.Precedes front)
    (noMark : text.head? ≠ some '\uFEFF') (noLine : Preamble.lineMark.isPrefixOf text = false) :
    Statement.split (front ++ text) = shiftedSplit front.size (Statement.split text) := by
  have bare : Preamble.Bare text := ⟨noMark, noLine⟩
  obtain ⟨same, enough⟩ :=
    Preamble.moduleStatements_front precedes bare (Preamble.mask (front ++ text)).length
  have length : (Preamble.mask text).length = text.length := by
    rw [Preamble.length_mask, Preamble.cut_none noMark noLine]
    exact Nat.zero_add _
  have repeats : Repeats front.size (Reader.start text) _ _ _ _ :=
    moduleStatements_repeats enough (Nat.le_refl text.length)
  unfold Statement.split
  simp only [moduleStatements_eq, same, bare.behindPreamble, length]
  unfold Repeats at repeats
  cases run : moduleStatements text.length (Reader.start text) with
  | ok parts =>
      rw [run] at repeats
      rw [repeats.2]
      rfl
  | error halt =>
      rw [run] at repeats
      cases halt with
      | outOfFuel => exact repeats.elim
      | faulty fault =>
          rw [repeats]
          rfl

/-- A request and a text that ends in an open string, each behind a byte order mark and a line. -/
theorem split_front_marked :
    Statement.split ('\uFEFF' :: "#!ü\n".toList ++ "import './b'".toList) =
        shiftedSplit 8 (.ok [⟨some ⟨.sideEffect, ⟨8, 11⟩⟩, ⟨0, 12⟩⟩]) ∧
      Statement.split ('\uFEFF' :: "#!ü\n".toList ++ "x = 'a".toList) =
        shiftedSplit 8 (.error ⟨.unexpectedEnd, ⟨4, 6⟩, none⟩) := by
  have request : Statement.split "import './b'".toList =
      .ok [⟨some ⟨.sideEffect, ⟨8, 11⟩⟩, ⟨0, 12⟩⟩] := by
    decide +kernel
  have broken : Statement.split "x = 'a".toList = .error ⟨.unexpectedEnd, ⟨4, 6⟩, none⟩ := by
    decide +kernel
  have precedes : Preamble.Precedes ('\uFEFF' :: "#!ü\n".toList) :=
    @Preamble.Precedes.markedLine "ü".toList (by decide)
  rw [split_front precedes (by decide) (by decide), request,
    split_front precedes (by decide) (by decide), broken]
  exact ⟨rfl, rfl⟩

end Relink
